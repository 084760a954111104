import QueryFabric.Lib.Aggregates
import QueryFabric.Lib.Succeeds
import QueryFabric.Opt.Federation
import Mathlib.Algebra.Group.Basic
import Mathlib.Order.Lattice

/-!
# What a federated aggregate computes

A select with aggregates means a row for each group of the rows of a table, over a backend that is
exact: its sums may be taken in any order and its counts add up. `federatedAggregate_computes` says
that the two statements of a plan of `build_federated_aggregate_plan` come to the select, wherever
the rows of the table are.

The planner does not ask what `Decomposable` does. A query that groups by what it does not return is
planned, and its groups are then added up; two columns of one name are planned, and the second is
then read as the first.
-/

namespace QueryFabric.Opt

open Lib

/-! ## Meaning -/

/-- The values of a row, by the names of its columns. A value that is not there is `NULL`. -/
abbrev Row (N : Type) : Type := List (String × Option N)

/-- What a backend computes: the values of expressions without aggregates, and the operators on
aggregates. -/
structure Backend (N : Type) [Add N] where
  number : Nat → N
  number_add : ∀ m n, number m + number n = number (m + n)
  binary : BinaryOperator → Option N → Option N → Option N
  scalar : BoundExpr → Row N → Option N
  scalar_column : ∀ name dataType nullable node row,
    scalar (columnExpr name dataType nullable node) row = (row.lookup name).join
  holds : Option N → Bool
  /-- The name of a column without an alias that is no column of the table. -/
  columnName : BoundExpr → String

/-- The aggregates that merge over the nodes. -/
inductive Aggregate
  | sum
  | min
  | max
  | count
  | avg
deriving DecidableEq, Repr

/-- The aggregate of a name. -/
def namedAggregate : String → Option Aggregate
  | "sum" => some .sum
  | "min" => some .min
  | "max" => some .max
  | "count" => some .count
  | "avg" => some .avg
  | _ => none

/-- The aggregate that a function calls. -/
def calledAggregate (call : BoundFunctionCall) : Option Aggregate :=
  if call.over_.isSome || call.filter.isSome || call.distinct ||
    call.function.namespace_.isSome then none
  else namedAggregate (toAsciiLowercase call.function.name)

section Meaning

variable {N : Type} [AddCommSemigroup N] [LinearOrder N] (B : Backend N)

/-- An aggregate of the values of a column. The mean is the sum divided by the count. -/
def Backend.aggregate (values : List (Option N)) : Aggregate → Option N
  | .sum => reduce (· + ·) values
  | .min => reduce min values
  | .max => reduce max values
  | .count => some (B.number (count values))
  | .avg => B.binary .divide (reduce (· + ·) values) (some (B.number (count values)))

/-- The argument of an aggregate in a row. Without one every row counts. -/
def Backend.argument (call : BoundFunctionCall) (row : Row N) : Option N :=
  match call.args with
  | [] => some (B.number 1)
  | arg :: _ => B.scalar arg row

mutual

/-- The value of an expression for a group of rows. Outside of aggregates it is that of the first
row. -/
def Backend.groupValue (rows : List (Row N)) : BoundExpr → Option N
  | ⟨kind, dataType, nullable, node⟩ =>
    (Backend.aggregateValue rows kind).getD
      (rows.head?.bind (B.scalar ⟨kind, dataType, nullable, node⟩))

/-- The value of an aggregate, or of an operation on aggregates. -/
def Backend.aggregateValue (rows : List (Row N)) : BoundExprKind → Option (Option N)
  | .function call => (calledAggregate call).map (B.aggregate (rows.map (B.argument call)))
  | .binary op left right =>
    if exprContainsAggregate left || exprContainsAggregate right then
      some (B.binary op (Backend.groupValue rows left) (Backend.groupValue rows right))
    else none
  | _ => none

end

/-- The name of a column of the result. -/
def Backend.outputName (details : BoundProjectionExpr) : String :=
  details.alias_.getD (match details.expr.kind with
    | .column column => column.name
    | _ => B.columnName details.expr)

/-- The expressions of a projection. -/
def projectionExprs (select : BoundSelect) : List BoundProjectionExpr :=
  select.projection.filterMap BoundProjectionItem.asExpr

/-- The row of a group. -/
def Backend.groupRow (select : BoundSelect) (group : List (Row N)) : Row N :=
  (projectionExprs select).map fun details =>
    (B.outputName details, B.groupValue group details.expr)

/-- The rows that a select selects. -/
def Backend.selected (select : BoundSelect) (rows : List (Row N)) : List (Row N) :=
  rows.filter fun row => select.selection.all fun condition => B.holds (B.scalar condition row)

/-- The groups of a table: one of all rows, if there is no `GROUP BY`. -/
def Backend.tableGroups (select : BoundSelect) (rows : List (Row N)) : List (List (Row N)) :=
  if select.groupBy.isEmpty then [B.selected select rows]
  else groups (fun row => select.groupBy.map fun expr => B.scalar expr row) (B.selected select rows)

/-- The rows of a select with aggregates over a table. -/
def Backend.selectRows (select : BoundSelect) (rows : List (Row N)) : List (Row N) :=
  let groups := (B.tableGroups select rows).filter fun group =>
    select.having.all fun condition => B.holds (B.groupValue group condition)
  let rows := groups.map (B.groupRow select)
  if select.distinct then rows.dedup else rows

/-- The values of rows, without the names of the columns. -/
def values (rows : List (Row N)) : List (List (Option N)) := rows.map fun row => row.map Prod.snd

/-- An expression without an aggregate has no value as one. -/
theorem aggregateValue_eq_none {kind : BoundExprKind} (h : kindContainsAggregate kind = false)
    (rows : List (Row N)) :
    B.aggregateValue rows kind = none := by
  cases kind with
  | function call =>
    obtain ⟨function, resolvedBackendName, args, distinct, filter, over_, resolvedSignatureName⟩ :=
      call
    rw [kindContainsAggregate, Bool.or_eq_false_iff, Bool.or_eq_false_iff] at h
    have hnone : calledAggregate
      ⟨function, resolvedBackendName, args, distinct, filter, over_, resolvedSignatureName⟩ =
        none := by
      rw [calledAggregate]
      split
      · rfl
      · rw [namedAggregate.eq_def]
        split <;> simp_all [isAggregateName]
    rw [Backend.aggregateValue, hnone, Option.map_none]
  | binary op left right =>
    rw [kindContainsAggregate] at h
    rw [Backend.aggregateValue, h, if_neg Bool.false_ne_true]
  | _ => rfl

/-- Without aggregates, the value for a group is that of its first row. -/
theorem groupValue_of_scalar {expr : BoundExpr} (h : exprContainsAggregate expr = false)
    (rows : List (Row N)) :
    B.groupValue rows expr = rows.head?.bind (B.scalar expr) := by
  obtain ⟨kind, dataType, nullable, node⟩ := expr
  rw [Backend.groupValue, aggregateValue_eq_none B h, Option.getD_none]

/-- The value of an aggregate's call over a group. -/
theorem groupValue_of_called {call : BoundFunctionCall} {aggregate : Aggregate}
    (h : calledAggregate call = some aggregate) (rows : List (Row N)) (dataType : DataType)
    (nullable : Bool) (node : SyntaxNode) :
    B.groupValue rows ⟨.function call, dataType, nullable, node⟩ =
      B.aggregate (rows.map (B.argument call)) aggregate := by
  rw [Backend.groupValue, Backend.aggregateValue, h]
  rfl

end Meaning

/-! ## What becomes of a projection -/

/-- The aggregate that merges the partial results of another. -/
def Aggregate.merge : Aggregate → Option Aggregate
  | sum | count => some sum
  | min => some min
  | max => some max
  | avg => none

/-- The function's name of an aggregate. -/
def Aggregate.name : Aggregate → String
  | sum => "sum"
  | min => "min"
  | max => "max"
  | count => "count"
  | avg => "avg"

/-- The names of the aggregates are lowercase. -/
theorem toAsciiLowercase_name (aggregate : Aggregate) :
    toAsciiLowercase aggregate.name = aggregate.name := by
  cases aggregate <;> decide

/-- The call that a stage writes for an aggregate is that aggregate's. -/
theorem calledAggregate_name (aggregate : Aggregate) (arg : BoundExpr) :
    calledAggregate ⟨⟨none, aggregate.name⟩, none, [arg], false, none, none, none⟩ =
      some aggregate := by
  rw [calledAggregate, if_neg (by simp), toAsciiLowercase_name]
  cases aggregate <;> rfl

/-- A supported aggregate is merged by another, or it is a mean. -/
theorem classifySupportedAggregate_cases {details : BoundProjectionExpr} {index : Nat}
    {rewrite : AggregateRewrite}
    (h : classifySupportedAggregate details index = .ok (some rewrite)) :
    ∃ call userAlias, details.expr.kind = .function call ∧
      ((∃ aggregate merge dataType nullable,
          (call.function.namespace_ = none → calledAggregate call = some aggregate) ∧
          aggregate.merge = some merge ∧
          rewrite = mergedBy merge.name details userAlias index dataType nullable) ∨
        ∃ arg args, (call.function.namespace_ = none → calledAggregate call = some .avg) ∧
        call.args = arg :: args ∧
          rewrite = averaged details arg userAlias index) := by
  unfold classifySupportedAggregate at h
  split at h
  · rename_i call hkind
    refine ⟨call, details.alias_.getD (autoAggregateAlias call index), hkind, ?_⟩
    split at h
    · cases h
    · rename_i hplain
      -- The names are compared in lower case, as the aggregates' own are.
      have hcalled : ∀ {name aggregate}, toAsciiLowercase call.function.name = name →
          namedAggregate name = some aggregate → call.function.namespace_ = none →
          calledAggregate call = some aggregate := by
        intro name aggregate hname haggregate hnamespace
        rw [calledAggregate, if_neg (by simpa [hnamespace] using hplain), hname, haggregate]
      dsimp only at h
      -- One case for each name that is supported; `avg` also needs an argument.
      split at h
      · rename_i hname
        cases h
        exact .inl ⟨.sum, .sum, _, _, hcalled hname rfl, rfl, by rw [hname]; rfl⟩
      · rename_i hname
        cases h
        exact .inl ⟨.min, .min, _, _, hcalled hname rfl, rfl, by rw [hname]; rfl⟩
      · rename_i hname
        cases h
        exact .inl ⟨.max, .max, _, _, hcalled hname rfl, rfl, by rw [hname]; rfl⟩
      · rename_i hname
        cases h
        exact .inl ⟨.count, .sum, _, _, hcalled hname rfl, rfl, rfl⟩
      · rename_i hname
        split at h
        · rename_i arg args hargs
          cases h
          exact .inr ⟨arg, args, hcalled hname rfl, hargs, rfl⟩
        · cases h
      · cases h
  · cases h

/-- A projection, with what it comes to in the two stages. -/
structure Piece where
  details : BoundProjectionExpr
  scatter : List BoundProjectionItem
  gather : BoundProjectionItem
  key : List BoundExpr

/-- How the projection of an index is split. -/
inductive Splits (index : Nat) : Piece → Prop
  | aggregate {details : BoundProjectionExpr} {rewrite : AggregateRewrite}
      (hrewrite : classifySupportedAggregate details index = .ok (some rewrite)) :
      Splits index ⟨details, rewrite.scatterProjection, rewrite.gatherProjection, []⟩
  | scalar {details : BoundProjectionExpr} {outputName : String}
    (hkind : ∀ call, details.expr.kind ≠ .function call)
      (hexpr : exprContainsAggregate details.expr = false)
        (hname : projectionOutputName details = some outputName) :
      Splits index ⟨details, [.expr details],
        columnProjection outputName details.field details.node,
        [columnExpr outputName details.field.dataType details.field.nullable details.node]⟩

/-- What is passed on as no aggregate is no function call. -/
theorem ne_function_of_classify {details : BoundProjectionExpr} {index : Nat}
    (h : classifySupportedAggregate details index = .ok none) (call : BoundFunctionCall) :
    details.expr.kind ≠ .function call := by
  intro hkind
  rw [classifySupportedAggregate, hkind] at h
  dsimp only at h
  split at h
  · cases h
  · split at h
    all_goals first | cases h | (split at h <;> cases h)

/-- A projection that is added splits into a piece, which goes to the end of each stage. -/
theorem addProjection_ok {stages stages' : Stages} {item : BoundProjectionItem} {index : Nat}
    (h : stages.addProjection item index = .ok stages') :
    ∃ piece, Splits index piece ∧ item = .expr piece.details ∧
      stages'.scatterProjection = stages.scatterProjection ++ piece.scatter ∧
      stages'.gatherProjection = stages.gatherProjection ++ [piece.gather] ∧
      stages'.gatherGroupBy = stages.gatherGroupBy ++ piece.key := by
  unfold Stages.addProjection at h
  split at h
  · cases h
  · rename_i details hdetails
    obtain rfl : item = .expr details := by
      cases item <;> simp_all [BoundProjectionItem.asExpr]
    -- An item is an aggregate, or a scalar with a name.
    obtain ⟨rewrite, hrewrite, h⟩ := bind_eq_ok.mp h
    cases rewrite with
    | some rewrite =>
      obtain ⟨fields, _, h⟩ := bind_eq_ok.mp h
      cases h
      exact ⟨_, .aggregate hrewrite, rfl, rfl, rfl, (List.append_nil _).symm⟩
    | none =>
      dsimp only at h
      split at h
      · cases h
      · rename_i hexpr
        split at h
        · cases h
        · rename_i outputName hname
          cases h
          exact ⟨_, .scalar (ne_function_of_classify hrewrite) (by simpa using hexpr) hname, rfl,
            rfl, rfl, rfl⟩

/-- The stages are those of the projections one after another. -/
theorem foldlM_addProjection_ok {projection : List BoundProjectionItem} {start : Nat}
    {stages stages' : Stages}
    (h : (projection.zipIdx start).foldlM
      (fun stages (item, index) => stages.addProjection item index) stages = .ok stages') :
    ∃ pieces : List Piece, (∀ p ∈ pieces.zipIdx start, Splits p.2 p.1) ∧
      projection = pieces.map (fun piece => .expr piece.details) ∧
      stages'.scatterProjection = stages.scatterProjection ++ pieces.flatMap Piece.scatter ∧
      stages'.gatherProjection = stages.gatherProjection ++ pieces.map Piece.gather ∧
      stages'.gatherGroupBy = stages.gatherGroupBy ++ pieces.flatMap Piece.key := by
  induction projection generalizing start stages with
  | nil =>
    cases h
    exact ⟨[], by simp, rfl, by simp, by simp, by simp⟩
  | cons item projection ih =>
    obtain ⟨next, hnext, h⟩ := bind_eq_ok.mp h
    -- The first item gives one piece, the others the pieces of the rest.
    obtain ⟨piece, hpiece, hitem, hscatter, hgather, hkey⟩ := addProjection_ok hnext
    obtain ⟨pieces, hpieces, hprojection, hscatters, hgathers, hkeys⟩ := ih h
    refine ⟨piece :: pieces, ?_, ?_, ?_, ?_, ?_⟩
    · rw [List.zipIdx_cons, List.forall_mem_cons]
      exact ⟨hpiece, hpieces⟩
    · rw [hitem, hprojection, List.map_cons]
    · rw [hscatters, hscatter, List.flatMap_cons, List.append_assoc]
    · rw [hgathers, hgather, List.map_cons, List.append_assoc, List.singleton_append]
    · rw [hkeys, hkey, List.flatMap_cons, List.append_assoc]

/-! ## Merging -/

section Merging

variable {N : Type} [AddCommSemigroup N] [LinearOrder N] (B : Backend N)

/-- An aggregate of the parts of a column, merged. -/
theorem aggregate_merge {aggregate merge : Aggregate} (h : aggregate.merge = some merge)
    {parts : List (List (Option N))} (hne : parts ≠ []) :
    B.aggregate (parts.map fun part => B.aggregate part aggregate) merge =
      B.aggregate parts.flatten aggregate := by
  cases aggregate with
  | sum =>
    cases h
    exact reduce_reduces _ parts
  | min =>
    cases h
    exact reduce_reduces _ parts
  | max =>
    cases h
    exact reduce_reduces _ parts
  | count =>
    cases h
    exact reduce_counts _ B.number_add hne
  | avg => cases h

/-- An aggregate does not depend on the order of its values. -/
theorem aggregate_perm {xs ys : List (Option N)} (h : xs.Perm ys) (aggregate : Aggregate) :
    B.aggregate xs aggregate = B.aggregate ys aggregate := by
  cases aggregate with
  | sum => exact reduce_perm _ h
  | min => exact reduce_perm _ h
  | max => exact reduce_perm _ h
  | count => rw [Backend.aggregate, Backend.aggregate, count_perm h]
  | avg => rw [Backend.aggregate, Backend.aggregate, reduce_perm _ h, count_perm h]

variable {index : Nat} {row : List (Row N) → Row N} {parts : List (List (Row N))}

omit [LinearOrder N] in
/-- What the name of a partial result reads of the rows of the parts. -/
theorem map_argument_column {name : String} {value : List (Row N) → Option N}
    (hrow : ∀ part ∈ parts, (row part).lookup name = some (value part)) (function : FunctionRef)
    (dataType : DataType) (nullable : Bool) (node : SyntaxNode) :
    (parts.map row).map (B.argument
      ⟨function, none, [columnExpr name dataType nullable node], false, none, none, none⟩) =
      parts.map value := by
  rw [List.map_map]
  refine List.map_congr_left fun part hpart => ?_
  have hargument : B.argument ⟨function, none, [columnExpr name dataType nullable node], false,
    none, none, none⟩ (row part) =
      B.scalar (columnExpr name dataType nullable node) (row part) := rfl
  rw [Function.comp_apply, hargument, B.scalar_column, hrow part hpart]
  rfl

/-- An aggregate over the partial results of a name. -/
theorem groupValue_merge {name : String} {value : List (Row N) → Option N}
    (hrow : ∀ part ∈ parts, (row part).lookup name = some (value part)) (merge : Aggregate)
    (argType dataType : DataType) (argNullable nullable : Bool) (argNode node : SyntaxNode) :
    B.groupValue (parts.map row)
        ⟨aggregateCall merge.name (columnExpr name argType argNullable argNode), dataType,
          nullable, node⟩ =
      B.aggregate (parts.map value) merge := by
  rw [aggregateCall, groupValue_of_called B (calledAggregate_name merge _),
    map_argument_column B hrow]

/-- The partial rows of the parts have the values of the items of a projection, under their
names. -/
def Reads (row : List (Row N) → Row N) (parts : List (List (Row N)))
    (items : List BoundProjectionItem) : Prop :=
  ∀ part ∈ parts, ∀ details ∈ items.filterMap BoundProjectionItem.asExpr,
    (row part).lookup (B.outputName details) = some (B.groupValue part details.expr)

/-- A gathered item has a value over the partial rows. -/
def Gathers (row : List (Row N) → Row N) (parts : List (List (Row N))) (item : BoundProjectionItem)
    (value : Option N) :
    Prop :=
  item.asExpr.map (fun details => B.groupValue (parts.map row) details.expr) = some value

/-- A merged aggregate is gathered from the nodes' partial values. -/
theorem gathers_mergedBy {details : BoundProjectionExpr} {call : BoundFunctionCall}
    {aggregate merge : Aggregate}
    (hkind : details.expr.kind = .function call) (hcalled : calledAggregate call = some aggregate)
    (hmerge : aggregate.merge = some merge) (hne : parts ≠ []) (userAlias : String)
    (dataType : DataType) (nullable : Bool)
    (hrow : Reads B row parts
      (mergedBy merge.name details userAlias index dataType nullable).scatterProjection) :
    Gathers B row parts
      (mergedBy merge.name details userAlias index dataType nullable).gatherProjection
      (B.groupValue parts.flatten details.expr) := by
  obtain ⟨⟨kind, exprType, exprNullable, exprNode⟩, alias_, field, node⟩ := details
  cases hkind
  have hvalue := groupValue_of_called B hcalled
  have hlookup : ∀ part ∈ parts,
    (row part).lookup ("__fed_" ++ userAlias ++ "_" ++ toString index) =
      some (B.aggregate (part.map (B.argument call)) aggregate) := fun part hpart => by
    rw [← hvalue part exprType exprNullable exprNode]
    exact hrow part hpart _ (List.mem_singleton_self _)
  refine congrArg some ((groupValue_merge B hlookup merge ..).trans ?_)
  rw [hvalue, List.map_flatten, ← aggregate_merge B hmerge (by simpa using hne), List.map_map]
  rfl

/-- An average is gathered from the nodes' sums and counts. -/
theorem gathers_averaged {details : BoundProjectionExpr} {call : BoundFunctionCall}
    {arg : BoundExpr}
    {args : List BoundExpr} (hkind : details.expr.kind = .function call)
    (hcalled : calledAggregate call = some .avg)
    (hargs : call.args = arg :: args) (hne : parts ≠ []) (userAlias : String)
    (hrow : Reads B row parts (averaged details arg userAlias index).scatterProjection) :
    Gathers B row parts (averaged details arg userAlias index).gatherProjection
      (B.groupValue parts.flatten details.expr) := by
  obtain ⟨⟨kind, exprType, exprNullable, exprNode⟩, alias_, field, node⟩ := details
  cases hkind
  have hargument : B.argument call = B.scalar arg := funext fun _ => by rw [Backend.argument, hargs]
  -- Each node's row has the sum and the count of its own part.
  have hsum : ∀ part ∈ parts,
    (row part).lookup ("__fed_" ++ userAlias ++ "_sum_" ++ toString index) =
      some (B.aggregate (part.map (B.argument call)) .sum) := fun part hpart => by
    rw [hargument]
    refine (hrow part hpart _ List.mem_cons_self).trans (congrArg some ?_)
    exact groupValue_of_called B (calledAggregate_name .sum arg) part _ _ _
  have hcount : ∀ part ∈ parts,
    (row part).lookup ("__fed_" ++ userAlias ++ "_cnt_" ++ toString index) =
      some (B.aggregate (part.map (B.argument call)) .count) := fun part hpart => by
    rw [hargument]
    refine (hrow part hpart _ (List.mem_cons_of_mem _ List.mem_cons_self)).trans (congrArg some ?_)
    exact groupValue_of_called B (calledAggregate_name .count arg) part _ _ _
  -- Merging the nodes' partial values gives the value of all their rows.
  have hmerged : ∀ {aggregate merge : Aggregate}, aggregate.merge = some merge →
      B.aggregate (parts.map fun part => B.aggregate (part.map (B.argument call)) aggregate) merge =
        B.aggregate (parts.flatten.map (B.argument call)) aggregate := fun hmerge => by
    rw [List.map_flatten, ← aggregate_merge B hmerge (by simpa using hne), List.map_map]
    rfl
  -- The average is the quotient of the two merged values.
  refine congrArg some ?_
  dsimp only
  rw [groupValue_of_called B hcalled, Backend.groupValue, Backend.aggregateValue, if_pos (by rfl),
    Option.getD_some]
  exact congrArg₂ _ ((groupValue_merge B hsum .sum ..).trans (hmerged rfl))
    ((groupValue_merge B hcount .sum ..).trans (hmerged rfl))

/-- Over the partial rows of the parts of a group, a projection has the value that it has for the
group. -/
theorem Splits.gathers {piece : Piece} (h : Splits index piece)
    (hnamespace : ∀ call, piece.details.expr.kind = .function call →
      call.function.namespace_ = none)
    (hread : piece.key ≠ [] → projectionOutputName piece.details =
      some (B.outputName piece.details)) (hne : parts ≠ [])
    (hparts : piece.key ≠ [] → ∀ part ∈ parts, part ≠ []) (hrow : Reads B row parts piece.scatter) :
    Gathers B row parts piece.gather (B.groupValue parts.flatten piece.details.expr) := by
  -- An aggregate is merged from the partial values; a scalar is read from any of the rows.
  cases h with
  | @aggregate details rewrite hrewrite =>
    obtain ⟨call, userAlias, hkind, ⟨aggregate, merge, dataType, nullable, hcalled, hmerge, rfl⟩ |
      ⟨arg, args, hcalled, hargs, rfl⟩⟩ := classifySupportedAggregate_cases hrewrite
    · exact gathers_mergedBy B hkind
        (hcalled (hnamespace call hkind)) hmerge hne userAlias dataType nullable hrow
    · exact gathers_averaged B hkind (hcalled (hnamespace call hkind)) hargs hne userAlias hrow
  -- Every part of a group has the value of the group's key, so the first one will do.
  | @scalar details outputName hkind hexpr hname =>
    obtain ⟨first, rest, rfl⟩ := List.exists_cons_of_ne_nil hne
    obtain ⟨head, tail, rfl⟩ :=
      List.exists_cons_of_ne_nil (hparts (List.cons_ne_nil _ _) first List.mem_cons_self)
    have hout : B.outputName details = outputName :=
      Option.some.inj ((hread (List.cons_ne_nil _ _)).symm.trans hname)
    have hlookup := hrow _ List.mem_cons_self details (List.mem_singleton_self _)
    rw [hout, groupValue_of_scalar B hexpr] at hlookup
    have hcolumn : exprContainsAggregate
      (columnExpr outputName details.field.dataType details.field.nullable details.node) =
        false := rfl
    refine congrArg some ?_
    dsimp only
    rw [groupValue_of_scalar B hexpr, groupValue_of_scalar B hcolumn, List.map_cons,
      List.head?_cons, Option.bind_some, B.scalar_column, hlookup]
    rfl

end Merging

/-! ## Names of partial results -/

/-- The digits at the end of an indexed name are those of the index. -/
theorem takeWhile_reverse_index (text : List Char) (index : Nat) :
    (text ++ '_' :: Nat.toDigits 10 index).reverse.takeWhile Char.isDigit =
      (Nat.toDigits 10 index).reverse := by
  have hdigits : ∀ c ∈ (Nat.toDigits 10 index).reverse, c.isDigit = true := fun c hc =>
    Nat.isDigit_of_mem_toDigits (by decide) (by decide) (List.mem_reverse.mp hc)
  rw [List.reverse_append, List.reverse_cons, List.append_assoc,
    List.takeWhile_append_of_pos hdigits, List.singleton_append,
    List.takeWhile_cons_of_neg (by decide), List.append_nil]

/-- A name that ends in an index ends in no other. -/
theorem index_inj {a b : String} {i j : Nat}
    (h : a ++ "_" ++ toString i = b ++ "_" ++ toString j) : i = j := by
  have hlist : ∀ (text : String) (index : Nat), (text ++ "_" ++ toString index).toList =
      text.toList ++ '_' :: Nat.toDigits 10 index := fun text index => by
    have hindex : toString index = String.ofList (Nat.toDigits 10 index) := rfl
    simp [hindex]
  have hdigits : Nat.toDigits 10 i = Nat.toDigits 10 j := by
    rw [← List.reverse_inj, ← takeWhile_reverse_index a.toList, ← hlist, h, hlist,
      takeWhile_reverse_index]
  rw [← Nat.ofDigitChars_ten_toDigits (n := i), hdigits, Nat.ofDigitChars_ten_toDigits]

section Names

variable {N : Type} [AddCommSemigroup N] (B : Backend N)

/-- The names of the items of a projection. -/
def itemNames (items : List BoundProjectionItem) : List String :=
  (items.filterMap BoundProjectionItem.asExpr).map B.outputName

/-- Whether an expression is a function call. -/
def isFunction : BoundExprKind → Bool
  | .function _ => true
  | _ => false

/-- What is no function call is not one. -/
theorem isFunction_eq_false {kind : BoundExprKind} (h : ∀ call, kind ≠ .function call) :
    isFunction kind = false := by
  cases kind with
  | function call => exact absurd rfl (h call)
  | _ => rfl

/-- The partial results of an aggregate have names of their index, and other items keep their
names. -/
theorem Splits.names {index : Nat} {piece : Piece} (h : Splits index piece) :
    (itemNames B piece.scatter).Nodup ∧
      ((piece.key = [] ∧ ∀ name ∈ itemNames B piece.scatter,
        ∃ text, name = "__fed_" ++ text ++ "_" ++ toString index) ∨
        (isFunction piece.details.expr.kind = false ∧
          itemNames B piece.scatter = [B.outputName piece.details])) := by
  cases h with
  | aggregate hrewrite =>
    -- One merged column, or the sum and the count of an average.
    obtain ⟨call, userAlias, hkind, ⟨aggregate, merge, dataType, nullable, hcalled, hmerge, rfl⟩ |
      ⟨arg, args, hcalled, hargs, rfl⟩⟩ := classifySupportedAggregate_cases hrewrite
    · exact ⟨List.nodup_singleton _, .inl ⟨rfl, List.forall_mem_singleton.mpr ⟨userAlias, rfl⟩⟩⟩
    · refine ⟨?_, .inl
        ⟨rfl, List.forall_mem_cons.mpr ⟨⟨userAlias ++ "_sum", ?_⟩, List.forall_mem_singleton.mpr
        ⟨userAlias ++ "_cnt", ?_⟩⟩⟩⟩
      -- The two names differ in their suffix.
      · refine List.nodup_cons.mpr ⟨fun hmem => ?_, List.nodup_singleton _⟩
        have hlist := congrArg String.toList (List.mem_singleton.mp hmem)
        simp [Backend.outputName] at hlist
      · have hsuffix : "_sum_" = "_sum" ++ "_" := rfl
        simp [Backend.outputName, hsuffix, String.append_assoc]
      · have hsuffix : "_cnt_" = "_cnt" ++ "_" := rfl
        simp [Backend.outputName, hsuffix, String.append_assoc]
  | scalar hkind hexpr hname =>
    exact ⟨List.nodup_singleton _, .inr ⟨isFunction_eq_false hkind, rfl⟩⟩

/-- The expressions of a projection that call no function. -/
def scalarExprs (select : BoundSelect) : List BoundProjectionExpr :=
  (projectionExprs select).filter fun details => !isFunction details.expr.kind

/-- What a select without other functions than aggregates groups by. -/
def Backend.key (select : BoundSelect) (row : Row N) : List (Option N) :=
  (scalarExprs select).map fun details => B.scalar details.expr row

/-- What a select has to be like for its plan to compute it. The planner checks none of this. -/
structure Decomposable (select : BoundSelect) : Prop where
  namespaces : ∀ details ∈ projectionExprs select, ∀ call, details.expr.kind = .function call →
    call.function.namespace_ = none
  /-- A literal has an alias. -/
  named : ∀ details ∈ scalarExprs select, projectionOutputName details = some (B.outputName details)
  distinct : ((scalarExprs select).map B.outputName).Nodup
  reserved : ∀ details ∈ scalarExprs select, ∀ text, B.outputName details ≠ "__fed_" ++ text
  keyed : select.groupBy = [] ↔ scalarExprs select = []
  grouped : ∀ a b, (∀ expr ∈ select.groupBy, B.scalar expr a = B.scalar expr b) ↔
    ∀ details ∈ scalarExprs select, B.scalar details.expr a = B.scalar details.expr b

/-- A select and the stages that its projections are split into. -/
structure Decomposed (select : BoundSelect) (stages : Stages) (pieces : List Piece) : Prop where
  splits : ∀ p ∈ pieces.zipIdx, Splits p.2 p.1
  projection : select.projection = pieces.map fun piece => .expr piece.details
  scatter : stages.scatterProjection = pieces.flatMap Piece.scatter
  gather : stages.gatherProjection = pieces.map Piece.gather
  key : stages.gatherGroupBy = pieces.flatMap Piece.key

variable {B} {select : BoundSelect} {stages : Stages} {pieces : List Piece}

/-- The stages of a select decompose its projections. -/
theorem exists_decomposed (h : aggregateStages select.projection = .ok stages) :
    ∃ pieces, Decomposed select stages pieces := by
  obtain ⟨pieces, hsplits, hprojection, hscatter, hgather, hkey⟩ := foldlM_addProjection_ok h
  exact ⟨pieces, hsplits, hprojection, hscatter, hgather, hkey⟩

namespace Decomposed

/-- Each piece splits under an index of its own. -/
theorem exists_splits (h : Decomposed select stages pieces) {piece : Piece}
    (hpiece : piece ∈ pieces) :
    ∃ index, Splits index piece := by
  obtain ⟨index, hindex, rfl⟩ := List.mem_iff_getElem.mp hpiece
  exact ⟨index, h.splits (pieces[index], index)
    (List.mk_mem_zipIdx_iff_getElem?.mpr (List.getElem?_eq_getElem hindex))⟩

/-- The projections of the select are those of the pieces. -/
theorem projectionExprs_eq (h : Decomposed select stages pieces) :
    projectionExprs select = pieces.map Piece.details := by
  rw [projectionExprs, h.projection, List.filterMap_map]
  exact congrFun List.filterMap_eq_map pieces

/-- The scalar projections are those of the pieces without an aggregate. -/
theorem scalarExprs_eq (h : Decomposed select stages pieces) :
    scalarExprs select = (pieces.filter fun piece => !isFunction piece.details.expr.kind).map
      Piece.details := by
  rw [scalarExprs, h.projectionExprs_eq, List.filter_map]
  rfl

/-- A piece without an aggregate is a scalar projection. -/
theorem mem_scalarExprs (h : Decomposed select stages pieces) {piece : Piece}
    (hpiece : piece ∈ pieces) (hscalar : isFunction piece.details.expr.kind = false) :
    piece.details ∈ scalarExprs select := by
  rw [h.scalarExprs_eq]
  exact List.mem_map_of_mem (List.mem_filter.mpr ⟨hpiece, by rw [hscalar]; rfl⟩)

/-- A name of a partial result of an aggregate is not that of an expression. -/
theorem ne_outputName (h : Decomposed select stages pieces) (hselect : Decomposable B select)
    {piece : Piece}
    (hpiece : piece ∈ pieces) (hscalar : isFunction piece.details.expr.kind = false) (text : String)
    (index : Nat) :
    "__fed_" ++ text ++ "_" ++ toString index ≠ B.outputName piece.details := by
  intro heq
  refine hselect.reserved _ (h.mem_scalarExprs hpiece hscalar) (text ++ "_" ++ toString index) ?_
  rw [← heq, String.append_assoc, String.append_assoc, String.append_assoc]

/-- The scalar columns and the partial ones have different names. -/
theorem pairwise_outputName (h : Decomposed select stages pieces)
    (hselect : Decomposable B select) :
    pieces.zipIdx.Pairwise fun p q => isFunction p.1.details.expr.kind = false →
      isFunction q.1.details.expr.kind = false →
      B.outputName p.1.details ≠ B.outputName q.1.details := by
  have hdistinct := hselect.distinct
  rw [h.scalarExprs_eq, List.map_map, List.Nodup, List.pairwise_map, List.pairwise_filter,
    ← List.zipIdx_map_fst 0 pieces, List.pairwise_map] at hdistinct
  exact hdistinct.imp fun hpq hp hq => hpq (by rw [hp]; rfl) (by rw [hq]; rfl)

/-- No two partial results have one name. -/
theorem nodup_names (h : Decomposed select stages pieces) (hselect : Decomposable B select) :
    (itemNames B stages.scatterProjection).Nodup := by
  -- The names of the scatter stage are those of the pieces, one after the other.
  have hnames : itemNames B stages.scatterProjection = pieces.zipIdx.flatMap fun p =>
      itemNames B p.1.scatter := by
    rw [h.scatter, itemNames, List.filterMap_flatMap, List.map_flatMap]
    conv_lhs => rw [← List.zipIdx_map_fst 0 pieces, List.flatMap_map]
    rfl
  rw [hnames, List.nodup_flatMap]
  refine ⟨fun p hp => ((h.splits p hp).names B).1, ?_⟩
  -- Each piece has an index of its own.
  have hindex : pieces.zipIdx.Pairwise fun p q => p.2 ≠ q.2 := by
    have hnodup : (pieces.zipIdx.map Prod.snd).Nodup := by
      rw [List.zipIdx_map_snd]
      exact List.nodup_range'
    exact List.pairwise_map.mp hnodup
  refine (hindex.and (h.pairwise_outputName hselect)).imp_of_mem
    fun {p q} hp hq ⟨hne, hout⟩ name hnamep hnameq => ?_
  have hmem : ∀ {p : Piece × Nat}, p ∈ pieces.zipIdx → p.1 ∈ pieces := fun {p} hp =>
    List.zipIdx_map_fst 0 pieces ▸ List.mem_map_of_mem hp
  change name ∈ itemNames B p.1.scatter at hnamep
  change name ∈ itemNames B q.1.scatter at hnameq
  obtain ⟨-, hshapep⟩ := (h.splits p hp).names B
  obtain ⟨-, hshapeq⟩ := (h.splits q hq).names B
  -- A name is a generated one, which ends in its index, or that of a scalar column.
  rcases hshapep with ⟨-, hfedp⟩ | ⟨hscalarp, hnamesp⟩ <;>
    rcases hshapeq with ⟨-, hfedq⟩ | ⟨hscalarq, hnamesq⟩
  · obtain ⟨a, rfl⟩ := hfedp name hnamep
    obtain ⟨b, hb⟩ := hfedq _ hnameq
    exact hne (index_inj hb)
  · obtain ⟨a, rfl⟩ := hfedp name hnamep
    exact h.ne_outputName hselect (hmem hq) hscalarq a p.2
      (List.mem_singleton.mp (hnamesq ▸ hnameq))
  · obtain ⟨b, rfl⟩ := hfedq name hnameq
    exact h.ne_outputName hselect (hmem hp) hscalarp b q.2
      (List.mem_singleton.mp (hnamesp ▸ hnamep))
  · exact hout hscalarp hscalarq
      ((List.mem_singleton.mp (hnamesp ▸ hnamep)).symm.trans
        (List.mem_singleton.mp (hnamesq ▸ hnameq)))

end Decomposed

end Names

/-! ## The two stages compute the query -/

section Correct

variable {N : Type} [AddCommSemigroup N] [LinearOrder N] {B : Backend N} {select : BoundSelect}
  {stages : Stages} {pieces : List Piece}

/-- Under distinct names the value found is the one put there. -/
theorem lookup_map_of_nodup {α β : Type} {f : α → String} {g : α → β} {l : List α}
    (h : (l.map f).Nodup) {a : α}
    (ha : a ∈ l) : (l.map fun x => (f x, g x)).lookup (f a) = some (g a) := by
  induction l with
  | nil => exact absurd ha List.not_mem_nil
  | cons x l ih =>
    rw [List.map_cons, List.nodup_cons] at h
    rw [List.map_cons, List.lookup_cons]
    rcases List.mem_cons.mp ha with rfl | ha
    · rw [beq_self_eq_true]
    · have hne : (f a == f x) = false :=
        beq_eq_false_iff_ne.mpr fun heq => h.1 (heq ▸ List.mem_map_of_mem ha)
      rw [hne]
      exact ih h.2 ha

namespace Decomposed

/-- The row of a scattered group has the columns that the gather stage reads. -/
theorem reads_groupRow (h : Decomposed select stages pieces) (hselect : Decomposable B select)
    {scatter : BoundSelect}
    (hscatter : scatter.projection = stages.scatterProjection) {piece : Piece}
    (hpiece : piece ∈ pieces)
    (parts : List (List (Row N))) : Reads B (B.groupRow scatter) parts piece.scatter := by
  intro part _ details hdetails
  refine lookup_map_of_nodup
    (g := fun details : BoundProjectionExpr => B.groupValue part details.expr) ?_ ?_
  · rw [projectionExprs, hscatter]
    exact h.nodup_names hselect
  · rw [projectionExprs, hscatter, h.scatter, List.filterMap_flatMap]
    exact List.mem_flatMap.mpr ⟨piece, hpiece, hdetails⟩

/-- The gathered values of the parts of a group are the values of the group. -/
theorem gathered_values (h : Decomposed select stages pieces) (hselect : Decomposable B select)
    {scatter gather : BoundSelect} (hscatter : scatter.projection = stages.scatterProjection)
    (hgather : gather.projection = stages.gatherProjection) {parts : List (List (Row N))}
    (hne : parts ≠ []) (hparts : scalarExprs select ≠ [] → ∀ part ∈ parts, part ≠ []) :
    (B.groupRow gather (parts.map (B.groupRow scatter))).map Prod.snd =
      (B.groupRow select parts.flatten).map Prod.snd := by
  -- Piece by piece, the gather stage computes the value of the projection.
  have hgathers : ∀ piece ∈ pieces,
      Gathers B (B.groupRow scatter) parts piece.gather
          (B.groupValue parts.flatten piece.details.expr) := by
    intro piece hpiece
    obtain ⟨index, hsplits⟩ := h.exists_splits hpiece
    have hscalar : piece.key ≠ [] → isFunction piece.details.expr.kind = false := fun hkey =>
      ((hsplits.names B).2.resolve_left fun hnames => hkey hnames.1).1
    refine hsplits.gathers B (fun call hkind => hselect.namespaces _ ?_ call hkind)
      (fun hkey => ?_) hne (fun hkey => ?_) (h.reads_groupRow hselect hscatter hpiece parts)
    · rw [h.projectionExprs_eq]
      exact List.mem_map_of_mem hpiece
    · exact hselect.named _ (h.mem_scalarExprs hpiece (hscalar hkey))
    · exact hparts (List.ne_nil_of_mem (h.mem_scalarExprs hpiece (hscalar hkey)))
  -- The row of the gather stage has these values in the order of the pieces.
  have hleft : (B.groupRow gather (parts.map (B.groupRow scatter))).map Prod.snd =
      pieces.filterMap fun piece =>
        piece.gather.asExpr.map fun details =>
            B.groupValue (parts.map (B.groupRow scatter)) details.expr := by
    rw [Backend.groupRow, projectionExprs, hgather, h.gather, List.filterMap_map, List.map_map,
      List.map_filterMap]
    rfl
  rw [hleft, Backend.groupRow, h.projectionExprs_eq, List.map_map, List.map_map,
    List.filterMap_congr hgathers]
  exact congrFun List.filterMap_eq_map pieces

/-- The values of a group do not depend on the order of its rows, if they agree on what the select
groups by. -/
theorem values_perm (h : Decomposed select stages pieces) (hselect : Decomposable B select)
    {xs ys : List (Row N)} (hperm : xs.Perm ys)
    (hsame : ∀ a ∈ xs, ∀ b ∈ xs, ∀ details ∈ scalarExprs select,
      B.scalar details.expr a = B.scalar details.expr b) :
    (B.groupRow select xs).map Prod.snd = (B.groupRow select ys).map Prod.snd := by
  rw [Backend.groupRow, Backend.groupRow, h.projectionExprs_eq, List.map_map, List.map_map,
    List.map_map, List.map_map]
  refine List.map_congr_left fun piece hpiece => ?_
  obtain ⟨index, hsplits⟩ := h.exists_splits hpiece
  have hmem : piece.details ∈ projectionExprs select :=
    h.projectionExprs_eq ▸ List.mem_map_of_mem hpiece
  dsimp only [Function.comp_apply]
  -- An aggregate does not depend on the order of the rows, and a scalar has one value in the group.
  cases hsplits with
  | @aggregate details rewrite hrewrite =>
    have hcalled : ∃ call aggregate, details.expr.kind = .function call ∧
        calledAggregate call = some aggregate := by
      obtain ⟨call, userAlias, hkind,
          ⟨aggregate, merge, dataType, nullable, hcalled, -, -⟩ | ⟨arg, args, hcalled, -, -⟩⟩ :=
        classifySupportedAggregate_cases hrewrite
      · exact ⟨call, aggregate, hkind, hcalled (hselect.namespaces _ hmem call hkind)⟩
      · exact ⟨call, .avg, hkind, hcalled (hselect.namespaces _ hmem call hkind)⟩
    obtain ⟨call, aggregate, hkind, hcalled⟩ := hcalled
    obtain ⟨⟨kind, exprType, exprNullable, exprNode⟩, alias_, field, node⟩ := details
    cases hkind
    rw [groupValue_of_called B hcalled, groupValue_of_called B hcalled,
      aggregate_perm B (hperm.map _)]
  | @scalar details outputName hkind hexpr hname =>
    have hscalar : details ∈ scalarExprs select :=
      h.mem_scalarExprs hpiece (isFunction_eq_false hkind)
    rw [groupValue_of_scalar B hexpr, groupValue_of_scalar B hexpr]
    cases xs with
    | nil => rw [hperm.nil_eq]
    | cons x xs =>
      -- The first rows of the two lists may differ, but not in the value of the key.
      obtain ⟨y, ys, rfl⟩ :=
        List.exists_cons_of_ne_nil (fun hnil => by cases (hnil ▸ hperm).eq_nil : ys ≠ [])
      exact hsame x List.mem_cons_self y (hperm.mem_iff.mpr List.mem_cons_self) details hscalar

/-- The gathered key of a group is that of its rows. -/
theorem key_groupRow (h : Decomposed select stages pieces) (hselect : Decomposable B select)
    {scatter : BoundSelect}
    (hscatter : scatter.projection = stages.scatterProjection) {k : List (Option N)}
    {xs : List (Row N)} (hne : xs ≠ []) (hkey : ∀ row ∈ xs, B.key select row = k) :
    stages.gatherGroupBy.map (fun expr => B.scalar expr (B.groupRow scatter xs)) = k := by
  obtain ⟨x, xs, rfl⟩ := List.exists_cons_of_ne_nil hne
  -- The key of a piece is the column that its scalar was put out as.
  have hpiece : ∀ piece ∈ pieces,
    piece.key.map (fun expr => B.scalar expr (B.groupRow scatter (x :: xs))) =
      if isFunction piece.details.expr.kind then [] else [B.scalar piece.details.expr x] := by
    intro piece hpiece
    obtain ⟨index, hsplits⟩ := h.exists_splits hpiece
    have hreads := h.reads_groupRow hselect hscatter hpiece [x :: xs] _ (List.mem_singleton_self _)
    cases hsplits with
    | aggregate hrewrite =>
      obtain ⟨call, _, hkind, _⟩ := classifySupportedAggregate_cases hrewrite
      dsimp only
      rw [hkind]
      rfl
    | @scalar details outputName hkind hexpr hname =>
      have hnot := isFunction_eq_false hkind
      have hout : outputName = B.outputName details :=
        Option.some.inj (hname.symm.trans (hselect.named _ (h.mem_scalarExprs hpiece hnot)))
      have hlookup := hreads details (List.mem_singleton_self _)
      rw [groupValue_of_scalar B hexpr] at hlookup
      dsimp only at hnot ⊢
      rw [hnot, List.map_singleton, B.scalar_column, hout, hlookup]
      rfl
  rw [← hkey x List.mem_cons_self, h.key, List.map_flatMap, List.flatMap_congr hpiece, Backend.key,
    h.scalarExprs_eq, List.map_map]
  -- What remains is that filtering the pieces is collecting their keys.
  clear hpiece hkey h
  induction pieces with
  | nil => rfl
  | cons piece pieces ih =>
    rw [List.flatMap_cons, List.filter_cons, ih]
    cases isFunction piece.details.expr.kind <;> rfl

/-- The gather stage groups by nothing where there is no scalar projection. -/
theorem gatherGroupBy_eq_nil_iff (h : Decomposed select stages pieces) :
    stages.gatherGroupBy = [] ↔ scalarExprs select = [] := by
  rw [h.key, h.scalarExprs_eq, List.flatMap_eq_nil_iff, List.map_eq_nil_iff, List.filter_eq_nil_iff]
  refine forall₂_congr fun piece hpiece => ?_
  obtain ⟨index, hsplits⟩ := h.exists_splits hpiece
  cases hsplits with
  | aggregate hrewrite =>
    obtain ⟨call, _, hkind, _⟩ := classifySupportedAggregate_cases hrewrite
    dsimp only
    rw [hkind]
    simp [isFunction]
  | scalar hkind hexpr hname =>
    dsimp only
    rw [isFunction_eq_false hkind]
    simp

end Decomposed

/-- A select groups by its expressions that call no function. -/
theorem tableGroups_eq (hselect : Decomposable B select) {scatter : BoundSelect}
    (hselection : scatter.selection = select.selection)
    (hgroupBy : scatter.groupBy = select.groupBy) (rows : List (Row N)) :
    B.tableGroups scatter rows = if scalarExprs select = [] then [B.selected select rows]
      else groups (B.key select) (B.selected select rows) := by
  have hselected : B.selected scatter rows = B.selected select rows := by
    rw [Backend.selected, hselection, Backend.selected]
  rw [Backend.tableGroups, hselected, hgroupBy]
  by_cases hnil : scalarExprs select = []
  · rw [if_pos hnil, hselect.keyed.mpr hnil]
    rfl
  · have hgroup : select.groupBy.isEmpty = false :=
      List.isEmpty_eq_false_iff.mpr (mt hselect.keyed.mp hnil)
    rw [if_neg hnil, hgroup, if_neg Bool.false_ne_true]
    refine groups_congr _ fun a _ b _ => ?_
    rw [Backend.key, Backend.key, List.map_inj_left, List.map_inj_left]
    exact hselect.grouped a b

/-- Without `DISTINCT` and `HAVING` a select has a row for each group. -/
theorem selectRows_eq (hdistinct : select.distinct = false) (hhaving : select.having = none)
    (rows : List (Row N)) :
    B.selectRows select rows = (B.tableGroups select rows).map (B.groupRow select) := by
  have hgroups : (B.tableGroups select rows).filter
      (fun group => select.having.all fun condition => B.holds (B.groupValue group condition)) =
      B.tableGroups select rows := List.filter_eq_self.mpr fun _ _ => by rw [hhaving]; rfl
  rw [Backend.selectRows, hgroups, hdistinct, if_neg Bool.false_ne_true]

/-- The rows of the scatter stage are its groups over the selected rows. -/
theorem selectRows_scatter (hselect : Decomposable B select) (hdistinct : select.distinct = false)
    (stages : Stages) (rows : List (Row N)) :
    B.selectRows (scatterSelect select stages) rows =
      (if scalarExprs select = [] then [B.selected select rows]
        else groups (B.key select) (B.selected select rows)).map
          (B.groupRow (scatterSelect select stages)) := by
  have hselection : (scatterSelect select stages).selection = select.selection := rfl
  have hplain : (scatterSelect select stages).distinct = false := hdistinct
  rw [selectRows_eq hplain rfl, tableGroups_eq hselect hselection rfl]

omit [LinearOrder N] in
/-- Selecting on every node is selecting over all their rows. -/
theorem selected_flatten (select : BoundSelect) (nodes : List (List (Row N))) :
    (nodes.map (B.selected select)).flatten = B.selected select nodes.flatten :=
  List.filter_flatten.symm

omit [LinearOrder N] in
/-- The gather stage selects every row it is given. -/
theorem selected_gather (stages : Stages) (binding : BoundRelationBinding) (schema : ResultSchema)
    (rows : List (Row N)) :
    B.selected (gatherSelect select stages binding schema) rows = rows :=
  List.filter_eq_self.mpr fun _ _ => rfl

section Gathered

variable (h : Decomposed select stages pieces) (hselect : Decomposable B select)
  (hdistinct : select.distinct = false)
  (hhaving : select.having = none) (binding : BoundRelationBinding)
  (schema : ResultSchema) {nodes : List (List (Row N))} {table : List (Row N)}

include h hselect hdistinct hhaving

/-- Without expressions to group by, every node returns one row. -/
theorem values_gathered_ungrouped (hnil : scalarExprs select = []) (hnodes : nodes ≠ [])
    (htable : table.Perm nodes.flatten) :
    values (B.selectRows (gatherSelect select stages binding schema)
      (nodes.flatMap (B.selectRows (scatterSelect select stages)))) =
        values (B.selectRows select table) := by
  have hgather : (gatherSelect select stages binding schema).projection =
      stages.gatherProjection := rfl
  -- Every node sends exactly one row, even one without rows of its own.
  have hpartials : nodes.flatMap (B.selectRows (scatterSelect select stages)) =
      (nodes.map (B.selected select)).map (B.groupRow (scatterSelect select stages)) := by
    rw [List.map_map, List.map_eq_flatMap]
    refine List.flatMap_congr fun rows _ => ?_
    rw [selectRows_scatter hselect hdistinct, if_pos hnil]
    rfl
  -- The gather query has no key either, so its one group is all of them.
  have hkey : (gatherSelect select stages binding schema).groupBy.isEmpty = true :=
    List.isEmpty_iff.mpr (h.gatherGroupBy_eq_nil_iff.mpr hnil)
  have hselected : (nodes.map (B.selected select)).flatten.Perm (B.selected select table) := by
    rw [selected_flatten]
    exact (htable.filter _).symm
  rw [hpartials, values, selectRows_eq rfl rfl, Backend.tableGroups, hkey, if_pos rfl,
    selected_gather, values, selectRows_eq hdistinct hhaving, tableGroups_eq hselect rfl rfl,
    if_pos hnil, List.map_singleton, List.map_singleton, List.map_singleton, List.map_singleton,
    h.gathered_values hselect rfl hgather (by simpa using hnodes) (fun hne => absurd hnil hne)]
  exact congrArg (fun row => [row])
      (h.values_perm hselect hselected fun a _ b _ details hdetails => by
    rw [hnil] at hdetails
    exact absurd hdetails List.not_mem_nil)

/-- Otherwise every node returns a row for each of its groups. -/
theorem values_gathered_grouped (hne : scalarExprs select ≠ [])
    (htable : table.Perm nodes.flatten) :
    (values (B.selectRows (gatherSelect select stages binding schema)
      (nodes.flatMap (B.selectRows (scatterSelect select stages))))).Perm
        (values (B.selectRows select table)) := by
  have hgather : (gatherSelect select stages binding schema).projection =
      stages.gatherProjection := rfl
  have hscatter : (scatterSelect select stages).projection = stages.scatterProjection := rfl
  -- The rows that the nodes select together are those that the query selects.
  have hselected : (B.selected select table).Perm (nodes.map (B.selected select)).flatten := by
    rw [selected_flatten]
    exact htable.filter _
  -- The nodes send one row for each of their groups.
  have hpartials : nodes.flatMap (B.selectRows (scatterSelect select stages)) =
      (nodes.map (B.selected select)).flatMap fun rows =>
        (groups (B.key select) rows).map
          (B.groupRow (scatterSelect select stages)) := by
    rw [List.flatMap_map]
    refine List.flatMap_congr fun rows _ => ?_
    rw [selectRows_scatter hselect hdistinct, if_neg hne]
  have hkey : (gatherSelect select stages binding schema).groupBy.isEmpty = false :=
    List.isEmpty_eq_false_iff.mpr (mt h.gatherGroupBy_eq_nil_iff.mp hne)
  -- The gather stage groups these rows by the key that they came from.
  have hkeys : ∀ k xs, xs ≠ [] → (∀ row ∈ xs, B.key select row = k) →
      stages.gatherGroupBy.map
        (fun expr => B.scalar expr (B.groupRow (scatterSelect select stages) xs)) = k :=
    fun k xs hxs hrows => h.key_groupRow hselect hscatter hxs hrows
  rw [hpartials, values, selectRows_eq rfl rfl, Backend.tableGroups, hkey,
    if_neg Bool.false_ne_true, selected_gather, values, selectRows_eq hdistinct hhaving,
    tableGroups_eq hselect rfl rfl, if_neg hne, List.map_map, List.map_map]
  -- Grouping partial rows by their key is grouping the rows themselves.
  refine (groups_partials (B.key select) hkeys ?_ _).trans (groups_map_perm _ ?_ hselected).symm
  · intro k parts hparts hrows
    exact h.gathered_values hselect hscatter hgather hparts fun _ part hpart => (hrows part hpart).1
  · intro k xs ys hperm hkey
    refine h.values_perm hselect hperm fun a ha b hb => ?_
    exact List.map_inj_left.mp ((hkey a ha).trans (hkey b hb).symm)

end Gathered

end Correct

/-! ## Plans -/

/-- The statements of a plan are emitted of two selects, the second over the relation of the partial
results. -/
structure EmittedOf (adapter : BackendAdapter) (catalog : Catalog) (bound : BoundQuery)
    (schema : ResultSchema) (plan : ScatterGatherPlan) (scatter gather : BoundSelect) : Prop where
  scatterSql : ∃ artifact, adapter.emit (bound.withPlan { unordered bound.plan with
    body := .select scatter, resultSchema := scatter.resultSchema }) catalog = .ok (some artifact) ∧
    plan.scatterSql = artifact.text
  gatherSql : ∃ artifact binding node node', adapter.emit (bound.withPlan { bound.plan with
    body := .select gather, resultSchema := schema }) catalog = .ok (some artifact) ∧
    gather.from_ = [⟨.table binding node, [], node'⟩] ∧
      binding.relationName = some ⟨none, partialsRelation⟩ ∧
    wrapPlaceholderRelation artifact.text binding = .ok plan.gatherSql

section Plans

variable {adapter : BackendAdapter} {catalog : Catalog} {bound : BoundQuery}
  {artifact : SqlArtifact} {plan : ScatterGatherPlan} {select : BoundSelect}

/-- A text that is emitted is the adapter's. -/
theorem emitSql_ok (h : emitSql adapter bound catalog = .ok artifact) :
    adapter.emit bound catalog = .ok (some artifact) := by
  obtain ⟨emitted, hemitted, h⟩ := bind_eq_ok.mp h
  rw [mapError_eq_ok] at hemitted
  cases emitted with
  | none => cases h
  | some emitted =>
    cases h
    exact hemitted

/-- A select of the aggregate shape has no `DISTINCT` and no `HAVING`. -/
theorem checkAggregateShape_ok (h : checkAggregateShape bound select = .ok ()) :
    select.distinct = false ∧ select.having = none := by
  unfold checkAggregateShape at h
  cases hdistinct : select.distinct with
  | true =>
    rw [hdistinct] at h
    cases h
  | false =>
    cases hhaving : select.having with
    | some condition =>
      rw [hdistinct, hhaving] at h
      cases h
    | none => exact ⟨rfl, rfl⟩

/-- Stages that pass the check are those of the projections. -/
theorem checkedStages_ok {stages : Stages} (h : checkedStages bound select = .ok stages) :
    aggregateStages select.projection = .ok stages := by
  obtain ⟨result, hresult, h⟩ := bind_eq_ok.mp h
  by_cases hcount : result.aggregateCount = 0
  · rw [if_pos hcount] at h
    cases h
  · rw [if_neg hcount] at h
    by_cases horder : bound.plan.orderBy.any fun orderBy => exprContainsAggregate orderBy.expr
    · rw [if_pos horder] at h
      cases h
    · rw [if_neg horder] at h
      cases h
      exact hresult

/-- What a planned aggregate query is made of. -/
theorem buildFederatedAggregatePlan_ok (hbody : bound.plan.body = .select select)
    (h : buildFederatedAggregatePlan adapter catalog bound artifact = .ok plan) :
    ∃ stages binding, aggregateStages select.projection = .ok stages ∧ select.distinct = false ∧
    select.having = none ∧
      EmittedOf adapter catalog bound artifact.resultSchema plan (scatterSelect select stages)
        (gatherSelect select stages binding artifact.resultSchema) := by
  obtain ⟨originalSelect, hselect, h⟩ := bind_eq_ok.mp h
  rw [mapError_eq_ok, topLevelSelect, hbody] at hselect
  cases hselect
  obtain ⟨_, hshape, h⟩ := bind_eq_ok.mp h
  obtain ⟨hdistinct, hhaving⟩ := checkAggregateShape_ok (mapError_eq_ok.mp hshape)
  obtain ⟨baseRelation, _, h⟩ := bind_eq_ok.mp h
  obtain ⟨fromTarget, _, h⟩ := bind_eq_ok.mp h
  obtain ⟨stages, hstages, h⟩ := bind_eq_ok.mp h
  obtain ⟨scatterArtifact, hscatter, h⟩ := bind_eq_ok.mp h
  obtain ⟨gatherArtifact, hgather, h⟩ := bind_eq_ok.mp h
  obtain ⟨gatherSql, hwrap, h⟩ := bind_eq_ok.mp h
  cases h
  refine ⟨stages, placeholderBinding baseRelation scatterArtifact.resultSchema,
    checkedStages_ok (mapError_eq_ok.mp hstages),
    hdistinct, hhaving, ⟨scatterArtifact, emitSql_ok hscatter, rfl⟩, ?_⟩
  exact ⟨gatherArtifact, _, _, _, emitSql_ok hgather, rfl, rfl, mapError_eq_ok.mp hwrap⟩

/-- Every node returns the rows of the first statement over its part of the table, and the second
statement makes the rows of the query of them, however the rows of the table are spread over the
nodes. -/
theorem federatedAggregate_computes {N : Type} [AddCommSemigroup N] [LinearOrder N] {B : Backend N}
    (hbody : bound.plan.body = .select select) (hselect : Decomposable B select)
    (hplan : buildFederatedAggregatePlan adapter catalog bound artifact = .ok plan) :
    ∃ scatter gather, EmittedOf adapter catalog bound artifact.resultSchema plan scatter gather ∧
      ∀ nodes table, nodes ≠ [] → table.Perm nodes.flatten →
        (values (B.selectRows gather (nodes.flatMap (B.selectRows scatter)))).Perm
          (values (B.selectRows select table)) := by
  obtain ⟨stages, binding, hstages, hdistinct, hhaving, hemitted⟩ :=
    buildFederatedAggregatePlan_ok hbody hplan
  obtain ⟨pieces, hpieces⟩ := exists_decomposed hstages
  refine ⟨_, _, hemitted, fun nodes table hnodes htable => ?_⟩
  by_cases hnil : scalarExprs select = []
  · exact List.Perm.of_eq
      (values_gathered_ungrouped hpieces hselect hdistinct hhaving binding _ hnil hnodes htable)
  · exact values_gathered_grouped hpieces hselect hdistinct hhaving binding _ hnil htable

end Plans

/-! ## The means of the cells of a table -/

namespace Samples

/-- A binder over the relation `samples (cell, x, good)`. -/
def context : Bind.BinderContext where
  catalog := (MemoryCatalog.registerRelation {}
    { namespace_ := none, name := "samples", aliases := [], kind := .table
      columns := [{ name := "cell", dataType := .int64, nullable := false },
        { name := "x", dataType := .int64, nullable := false },
        { name := "good", dataType := .boolean, nullable := false }] }).toCatalog
  parameters := {}
  toLowercase c := [c.toLower]

/-- The node of the expressions. -/
def node : SyntaxNode := { span := none, nodeId := "q" }

/-- A column in the source. -/
def syntaxColumn (name : String) : SyntaxExpr := ⟨.column none name, node⟩

/-- A call in the source. -/
def syntaxCall (name : String) (args : List SyntaxExpr) : SyntaxExpr :=
  ⟨.function ⟨⟨none, name⟩, args, false, none, none⟩, node⟩

/-- `SELECT <projection> FROM samples WHERE <selection> GROUP BY <groupBy>`. -/
def selectFromSamples (projection : List (SyntaxExpr × Option String))
    (selection : Option SyntaxExpr) (groupBy : List SyntaxExpr) : ParsedQuery :=
  Bind.parsedTree { Bind.selectId [] (Bind.plainTable "samples") with
    body := .select
      { distinct := false, projection := projection.map fun item => .expr ⟨item.1, item.2, node⟩
        from_ := [⟨Bind.plainTable "samples", [], node⟩], selection, groupBy,
        having := none, node } }

/-- `SELECT cell, AVG(x) AS avg_x, COUNT(*) AS n FROM samples GROUP BY cell`. -/
def meansOfCells : ParsedQuery :=
  selectFromSamples [(syntaxColumn "cell", none),
    (syntaxCall "AVG" [syntaxColumn "x"], some "avg_x"),
    (syntaxCall "COUNT" [], some "n")] none [syntaxColumn "cell"]

/-- The binding of the table. -/
def binding : BoundRelationBinding :=
  ⟨"samples", some ⟨none, "samples"⟩,
    .new [.new "cell" .int64 false, .new "x" .int64 false, .new "good" .boolean false]⟩

/-- A bound column. -/
def column (name : String) (dataType : DataType) : BoundExpr :=
  ⟨.column ⟨some "samples", name⟩, dataType, false, node⟩

/-- A bound call. -/
def call (name : String) (args : List BoundExpr) (dataType : DataType) (nullable : Bool) :
    BoundExpr :=
  ⟨.function ⟨⟨none, name⟩, none, args, false, none, none, some (toAsciiLowercase name)⟩, dataType,
    nullable, node⟩

/-- A projected expression. -/
def item (expr : BoundExpr) (alias_ : Option String) (name : String) : BoundProjectionItem :=
  .expr ⟨expr, alias_, .new name expr.dataType expr.nullable, node⟩

/-- A select over the table. -/
def selectOf (projection : List BoundProjectionItem) (selection : Option BoundExpr)
    (groupBy : List BoundExpr) : BoundSelect where
  distinct := false
  projection := projection
  from_ := [⟨.table binding { span := none, nodeId := "r" }, [], node⟩]
  selection := selection
  groupBy := groupBy
  having := none
  resultSchema := .new (projection.flatMap Bind.itemFields)
  node := node

/-- The select that `meansOfCells` is bound to. -/
def select : BoundSelect :=
  selectOf [item (column "cell" .int64) none "cell",
      item (call "AVG" [column "x" .int64] .float64 true) (some "avg_x") "avg_x",
      item (call "COUNT" [] .int64 false) (some "n") "n"]
    none [column "cell" .int64]

/-- Columns by their names, and division with remainder. -/
def backend : Backend Int where
  number := Int.ofNat
  number_add m n := (Int.natCast_add m n).symm
  binary _ a b := a.bind fun a => b.map fun b => a / b
  scalar expr row := match expr.kind with
    | .column column => (row.lookup column.name).join
    | _ => none
  scalar_column _ _ _ _ _ := rfl
  holds value := value.isSome
  columnName _ := ""

/-- The planner may split the select. -/
theorem decomposable : Decomposable backend select where
  -- Each of the three items is looked at.
  namespaces := by
    rintro details hdetails call hkind
    simp only [projectionExprs, select, selectOf, item, List.filterMap_cons,
      BoundProjectionItem.asExpr, List.filterMap_nil, List.mem_cons, List.not_mem_nil, or_false]
      at hdetails
    rcases hdetails with rfl | rfl | rfl <;> cases hkind <;> rfl
  named := by
    intro details hdetails
    obtain rfl := List.mem_singleton.mp (show details ∈ [_] from hdetails)
    rfl
  distinct := List.nodup_singleton _
  -- The scalar column is not named like a generated one.
  reserved := by
    intro details hdetails text heq
    obtain rfl := List.mem_singleton.mp (show details ∈ [_] from hdetails)
    have hlist := congrArg String.toList heq
    simp [Backend.outputName, column] at hlist
  keyed := by
    simp [select, selectOf, scalarExprs, projectionExprs, item, BoundProjectionItem.asExpr,
      isFunction, column, call]
  grouped _ _ := by
    simp [select, selectOf, scalarExprs, projectionExprs, item, BoundProjectionItem.asExpr,
      isFunction, column, call]

end Samples

open Samples in
/-- The means of the cells are computed of the sums and the counts of the nodes. -/
theorem federatedAggregate_computes_means : ∃ bound artifact plan scatter gather,
    Bind.bindAndValidate context meansOfCells = .ok bound ∧
    emit .postgres bound context.catalog = .ok artifact ∧
    buildFederatedAggregatePlan (sqlAdapter .postgres) context.catalog bound artifact = .ok plan ∧
    plan.scatterSql = "SELECT samples.cell, sum(samples.x) AS __fed_avg_x_sum_1, " ++
      "count(samples.x) AS __fed_avg_x_cnt_1, count(*) AS __fed_n_2 FROM samples " ++
      "GROUP BY samples.cell" ∧
    plan.gatherSql = "SELECT cell, (sum(__fed_avg_x_sum_1) / sum(__fed_avg_x_cnt_1)) AS avg_x, " ++
      "sum(__fed_n_2) AS n FROM (\x7bpartials\x7d) AS samples GROUP BY cell" ∧
    EmittedOf (sqlAdapter .postgres) context.catalog bound artifact.resultSchema plan
      scatter gather ∧
    ∀ nodes table, nodes ≠ [] → table.Perm nodes.flatten →
      (values (backend.selectRows gather (nodes.flatMap (backend.selectRows scatter)))).Perm
        (values (backend.selectRows select table)) := by
  obtain ⟨bound, artifact, hbound, hemit, hbody, hplanned⟩ :
      ∃ bound artifact, Bind.bindAndValidate context meansOfCells = .ok bound ∧
        emit .postgres bound context.catalog = .ok artifact ∧ bound.plan.body = .select select ∧
        (buildFederatedAggregatePlan (sqlAdapter .postgres) context.catalog bound
            artifact).toOption.map (fun plan => (plan.scatterSql, plan.gatherSql)) = some
          ("SELECT samples.cell, sum(samples.x) AS __fed_avg_x_sum_1, " ++
              "count(samples.x) AS __fed_avg_x_cnt_1, count(*) AS __fed_n_2 FROM samples " ++
              "GROUP BY samples.cell",
            "SELECT cell, (sum(__fed_avg_x_sum_1) / sum(__fed_avg_x_cnt_1)) AS avg_x, " ++
              "sum(__fed_n_2) AS n FROM (\x7bpartials\x7d) AS samples GROUP BY cell") := by
    refine ⟨_, _, rfl, rfl, rfl, ?_⟩
    decide +kernel
  -- The two statements are computed; that they compute the query is the general theorem.
  obtain ⟨plan, hplan, hsql⟩ := Option.map_eq_some_iff.mp hplanned
  have hplan := Lib.toOption_eq_some_iff.mp hplan
  obtain ⟨hscatter, hgather⟩ := Prod.mk.inj hsql
  obtain ⟨scatter, gather, hemitted, hrows⟩ := federatedAggregate_computes hbody decomposable hplan
  exact ⟨bound, artifact, plan, scatter, gather, hbound, hemit, hplan, hscatter, hgather,
    hemitted, hrows⟩

end QueryFabric.Opt
