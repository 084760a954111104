import QueryFabric.Bind.Induction
import QueryFabric.Bind.Names
import QueryFabric.Catalog.Memory
import QueryFabric.Catalog.Occurrences

/-!
# What occurs in a bound plan

The occurrences of a bound plan and the visitor over it, as `Occurrences` has them for the syntax.
Which functions aggregate, and which are computed over a window, is what the catalog says here.
-/

namespace QueryFabric

open QueryFabric.Bind

/-- A function that the catalog has as an aggregate, or as an approximation of one. -/
def Catalog.isAggregate (catalog : Catalog) (function : FunctionRef) : Bool :=
  match catalog.resolveFunction function.namespace_ function.name with
  | none => false
  | some signature => signature.kind = .aggregate || signature.metadataFlag "approximate"

/-- Of the built-in functions without a namespace, the syntax visitor takes those for aggregates
that the catalog has as such. -/
theorem syntaxAggregateNames_builtin : ∀ signature ∈ portableBuiltinFunctions,
    signature.namespace_ = none →
      (syntaxAggregateNames.contains signature.name = true ↔ signature.kind = .aggregate) := by
  simp [portableBuiltinFunctions, syntaxAggregateNames, builtinFunction, builtinScalar,
    builtinAggregate, builtinWindow, builtinClickhouseScalar, builtinClickhouseAggregate,
    builtinClickhouseExtension, FunctionSignature.withArgs, FunctionSignature.withMetadataFlag]

/-- A function that the catalog has as a window function. -/
def Catalog.isWindow (catalog : Catalog) (function : FunctionRef) : Bool :=
  match catalog.resolveFunction function.namespace_ function.name with
  | none => false
  | some signature => signature.kind = .window

mutual

/-- The occurrences in a bound query. -/
def boundOccurrences (catalog : Catalog) : BoundQueryPlan → List Occurrence
  | ⟨_, ctes, body, orderBy, limit, offset, backendClauses, _⟩ =>
    shown (queryConstructs (!ctes.isEmpty) false (limit.isSome || offset.isSome)
      backendClauses) ++
    boundCteOccurrences catalog ctes ++ boundSetExprOccurrences catalog body ++
      hide (boundOrderByOccurrences catalog orderBy ++ boundOptionOccurrences catalog limit ++
        boundOptionOccurrences catalog offset)

/-- The occurrences in bound CTEs. -/
def boundCteOccurrences (catalog : Catalog) : List BoundCte → List Occurrence
  | [] => []
  | ⟨_, _, query, _, _⟩ :: ctes =>
    boundOccurrences catalog query ++ boundCteOccurrences catalog ctes

/-- The occurrences in a bound query body. -/
def boundSetExprOccurrences (catalog : Catalog) : BoundSetExpr → List Occurrence
  | .select s => boundSelectOccurrences catalog s
  | .unionAll left right _ _ =>
    shown [.setOperation] ++ boundSetExprOccurrences catalog left ++
      boundSetExprOccurrences catalog right
  | .unsupported .. => []

/-- The occurrences in a bound select. -/
def boundSelectOccurrences (catalog : Catalog) : BoundSelect → List Occurrence
  | ⟨_, projection, from_, selection, groupBy, having, _, _⟩ =>
    boundProjectionOccurrences catalog projection ++ boundFromOccurrences catalog from_ ++
      boundOptionOccurrences catalog selection ++ boundExprsOccurrences catalog groupBy ++
      boundOptionOccurrences catalog having

/-- The occurrences in a bound projection. -/
def boundProjectionOccurrences (catalog : Catalog) : List BoundProjectionItem → List Occurrence
  | [] => []
  | .expr ⟨expr, _, _, _⟩ :: items =>
    boundExprOccurrences catalog expr ++ boundProjectionOccurrences catalog items
  | .wildcard .. :: items => boundProjectionOccurrences catalog items
  | .unsupported .. :: items => boundProjectionOccurrences catalog items

/-- The occurrences in a bound `FROM` clause. -/
def boundFromOccurrences (catalog : Catalog) : List BoundTableWithJoins → List Occurrence
  | [] => []
  | table :: tables =>
    boundTableOccurrences catalog false table ++ boundFromOccurrences catalog tables

/-- A relation and what is joined to it. Of a nested join the visitors reach the relations only. -/
def boundTableOccurrences (catalog : Catalog) (nested : Bool) :
    BoundTableWithJoins → List Occurrence
  | ⟨relation, joins, _⟩ =>
    boundRelationOccurrences catalog relation ++
      hideIf nested (shown (present (!joins.isEmpty) .join)) ++
      boundJoinOccurrences catalog nested joins

/-- The occurrences in bound joins. -/
def boundJoinOccurrences (catalog : Catalog) (nested : Bool) : List BoundJoin → List Occurrence
  | [] => []
  | ⟨_, relation, on, _⟩ :: joins =>
    boundRelationOccurrences catalog relation ++
      hideIf nested (boundOptionOccurrences catalog on) ++ boundJoinOccurrences catalog nested joins

/-- A nested join is a relation that is derived from others, as a subquery is. -/
def boundRelationOccurrences (catalog : Catalog) : BoundRelation → List Occurrence
  | .table .. => []
  | .derived _ query _ => shown [.derivedTable] ++ boundOccurrences catalog query
  | .nestedJoin _ table _ => shown [.derivedTable] ++ boundTableOccurrences catalog true table
  | .unsupported .. => []

/-- The occurrences in a bound expression. -/
def boundExprOccurrences (catalog : Catalog) : BoundExpr → List Occurrence
  | ⟨.column _, _, _, _⟩ => []
  | ⟨.literal _, _, _, _⟩ => []
  | ⟨.parameter _, _, _, _⟩ => []
  | ⟨.unary _ expr, _, _, _⟩ => boundExprOccurrences catalog expr
  | ⟨.binary _ left right, _, _, _⟩ =>
    boundExprOccurrences catalog left ++ boundExprOccurrences catalog right
  | ⟨.function ⟨function, _, args, distinct, filter, over_, _⟩, _, _, _⟩ =>
    -- The visitor descends into the arguments of a call, but not into its filter or its window.
    shown (callConstructs function (catalog.isAggregate function)
      (catalog.isWindow function || over_.isSome) distinct) ++
    boundExprsOccurrences catalog args ++
      hide (boundOptionOccurrences catalog filter ++ boundWindowOccurrences catalog over_)
  | ⟨.case operand whenThen elseResult, _, _, _⟩ =>
    boundOptionOccurrences catalog operand ++ boundWhenThenOccurrences catalog whenThen ++
      boundOptionOccurrences catalog elseResult
  | ⟨.cast expr _, _, _, _⟩ => boundExprOccurrences catalog expr
  | ⟨.between expr low high _, _, _, _⟩ =>
    boundExprOccurrences catalog expr ++ boundExprOccurrences catalog low ++
      boundExprOccurrences catalog high
  | ⟨.inList expr list _, _, _, _⟩ =>
    boundExprOccurrences catalog expr ++ boundExprsOccurrences catalog list
  -- A subquery is a query of its own, whose constructs are shown too.
  | ⟨.inSubquery expr subquery _, _, _, _⟩ =>
    shown [.inSubquery] ++ boundExprOccurrences catalog expr ++ boundOccurrences catalog subquery
  | ⟨.scalarSubquery subquery, _, _, _⟩ =>
    shown [.scalarSubquery] ++ boundOccurrences catalog subquery
  -- `EXISTS` is reported as a scalar subquery.
  | ⟨.exists subquery, _, _, _⟩ => shown [.scalarSubquery] ++ boundOccurrences catalog subquery
  | ⟨.like expr pattern _ _, _, _, _⟩ =>
    boundExprOccurrences catalog expr ++ boundExprOccurrences catalog pattern
  | ⟨.isNull expr _, _, _, _⟩ => boundExprOccurrences catalog expr
  | ⟨.tuple items, _, _, _⟩ => boundExprsOccurrences catalog items
  | ⟨.array items, _, _, _⟩ => boundExprsOccurrences catalog items
  | ⟨.unsupported _, _, _, _⟩ => []

/-- The occurrences in a list of bound expressions. -/
def boundExprsOccurrences (catalog : Catalog) : List BoundExpr → List Occurrence
  | [] => []
  | expr :: exprs => boundExprOccurrences catalog expr ++ boundExprsOccurrences catalog exprs

/-- The occurrences in a bound expression, if there is one. -/
def boundOptionOccurrences (catalog : Catalog) : Option BoundExpr → List Occurrence
  | none => []
  | some expr => boundExprOccurrences catalog expr

/-- The occurrences in the bound branches of a `CASE`. -/
def boundWhenThenOccurrences (catalog : Catalog) : List BoundWhenThen → List Occurrence
  | [] => []
  | ⟨condition, result⟩ :: pairs =>
    boundExprOccurrences catalog condition ++ boundExprOccurrences catalog result ++
      boundWhenThenOccurrences catalog pairs

/-- The occurrences in a bound `ORDER BY`. -/
def boundOrderByOccurrences (catalog : Catalog) : List BoundOrderByExpr → List Occurrence
  | [] => []
  | ⟨expr, _, _, _⟩ :: items =>
    boundExprOccurrences catalog expr ++ boundOrderByOccurrences catalog items

/-- The occurrences in a bound window, if there is one. -/
def boundWindowOccurrences (catalog : Catalog) : Option BoundWindowSpec → List Occurrence
  | none => []
  | some ⟨partitionBy, orderBy, _⟩ =>
    boundExprsOccurrences catalog partitionBy ++ boundOrderByOccurrences catalog orderBy

end

/-! ## The bound visitor -/

/-- What the visitor takes from the signature of a function that is called. -/
def PlanFeatures.insertCall (p : PlanFeatures) (catalog : Catalog) (function : FunctionRef) :
    PlanFeatures :=
  let p := p.insertFunction function
  match catalog.resolveFunction function.namespace_ function.name with
  | none => p
  | some signature =>
    let p := match signature.kind with
      | .aggregate => { p with hasAggregates := true }
      | .window => { p with hasWindows := true }
      | .scalar => p
    if signature.metadataFlag "approximate" then { p with hasAggregates := true } else p

/-- What a call changes of the features. -/
theorem PlanFeatures.insertCall_eq (p : PlanFeatures) (catalog : Catalog) (function : FunctionRef) :
    p.insertCall catalog function =
      { p.insertFunction function with
        hasAggregates := p.hasAggregates || catalog.isAggregate function
        hasWindows := p.hasWindows || catalog.isWindow function } := by
  have hflags : (p.insertFunction function).hasAggregates = p.hasAggregates ∧
      (p.insertFunction function).hasWindows = p.hasWindows := ⟨rfl, rfl⟩
  unfold PlanFeatures.insertCall Catalog.isAggregate Catalog.isWindow
  generalize catalog.resolveFunction function.namespace_ function.name = resolved
  cases resolved with
  | none => simp [← hflags.1, ← hflags.2]
  | some signature =>
    cases hkind : signature.kind <;> cases hflag : signature.metadataFlag "approximate" <;>
      simp [hkind, hflag, ← hflags.1, ← hflags.2]

/-- The features after a function call, before its arguments are visited. -/
theorem PlanFeatures.reports_insertCall (p : PlanFeatures) (catalog : Catalog)
    (function : FunctionRef) (distinct over_ : Bool) (c : Construct) :
    ({ p.insertCall catalog function with
        hasDistinctAggregates := (p.insertCall catalog function).hasDistinctAggregates || distinct
        hasWindows := (p.insertCall catalog function).hasWindows || over_ } :
        PlanFeatures).reports c = true ↔
      p.reports c = true ∨ c ∈ callConstructs function (catalog.isAggregate function)
        (catalog.isWindow function || over_) distinct := by
  have hcall := (p.insertFunction function).reports_call c (catalog.isAggregate function)
    (catalog.isWindow function || over_) distinct
  rw [PlanFeatures.insertCall_eq, Bool.or_assoc]
  refine hcall.trans ?_
  rw [PlanFeatures.reports_insertFunction]
  simp only [callConstructs, List.mem_append, List.mem_cons, mem_present]
  grind

/-- The visit of a bound call. -/
theorem visitBoundExpr_function (catalog : Catalog) (call : BoundFunctionCall) (dataType : DataType)
    (nullable : Bool) (node : SyntaxNode) (p : PlanFeatures) :
    visitBoundExpr catalog ⟨.function call, dataType, nullable, node⟩ p =
      visitBoundExprs catalog call.args { p.insertCall catalog call.function with
        hasDistinctAggregates :=
          (p.insertCall catalog call.function).hasDistinctAggregates || call.distinct
        hasWindows := (p.insertCall catalog call.function).hasWindows || call.over_.isSome } := by
  cases call
  rfl

section Bound

variable (catalog : Catalog) (c : Construct)

mutual

/-- The features of a bound query report what is shown in it. -/
theorem planFeaturesFromBound_reports : ∀ q : BoundQueryPlan,
    (planFeaturesFromBound catalog q).reports c = true ↔ ⟨c, false⟩ ∈ boundOccurrences catalog q
  | ⟨_, ctes, body, _, limit, offset, clauses, _⟩ => by
    rw [planFeaturesFromBound, mergeBoundCtes_reports ctes, visitBoundSetExpr_reports body,
      PlanFeatures.reports_query]
    simp only [boundOccurrences, List.mem_append, mem_shown, not_mem_hide]
    grind
termination_by structural q => q

/-- The visit of bound CTEs reports what is shown in them. -/
theorem mergeBoundCtes_reports : ∀ (ctes : List BoundCte) {p : PlanFeatures},
    (mergeBoundCtes catalog ctes p).reports c = true ↔
      p.reports c = true ∨ ⟨c, false⟩ ∈ boundCteOccurrences catalog ctes
  | [], p => by simp [mergeBoundCtes, boundCteOccurrences]
  | ⟨_, _, query, _, _⟩ :: ctes, p => by
    rw [mergeBoundCtes, mergeBoundCtes_reports ctes, PlanFeatures.reports_merge,
      planFeaturesFromBound_reports query, boundCteOccurrences, List.mem_append, or_assoc]
termination_by structural ctes => ctes

/-- The visit of a bound query body reports what is shown in it. -/
theorem visitBoundSetExpr_reports : ∀ (e : BoundSetExpr) {p : PlanFeatures},
    (visitBoundSetExpr catalog e p).reports c = true ↔
      p.reports c = true ∨ ⟨c, false⟩ ∈ boundSetExprOccurrences catalog e
  | .select s, p => by rw [visitBoundSetExpr, visitBoundSelect_reports s, boundSetExprOccurrences]
  | .unionAll left right _ _, p => by
    rw [visitBoundSetExpr, visitBoundSetExpr_reports right, visitBoundSetExpr_reports left]
    simp [boundSetExprOccurrences, or_assoc]
  | .unsupported .., p => by
    simp only [visitBoundSetExpr, boundSetExprOccurrences, List.not_mem_nil, or_false]
termination_by structural e => e

/-- The visit of a bound select reports what is shown in it. -/
theorem visitBoundSelect_reports : ∀ (s : BoundSelect) {p : PlanFeatures},
    (visitBoundSelect catalog s p).reports c = true ↔
      p.reports c = true ∨ ⟨c, false⟩ ∈ boundSelectOccurrences catalog s
  | ⟨_, projection, from_, selection, groupBy, having, _, _⟩, p => by
    rw [visitBoundSelect, visitBoundExprOption_reports having, visitBoundExprs_reports groupBy,
      visitBoundExprOption_reports selection, visitBoundFrom_reports from_,
      visitBoundProjection_reports projection]
    simp only [boundSelectOccurrences, List.mem_append, or_assoc]
termination_by structural s => s

/-- The visit of a bound projection reports what is shown in it. -/
theorem visitBoundProjection_reports : ∀ (items : List BoundProjectionItem) {p : PlanFeatures},
    (visitBoundProjection catalog items p).reports c = true ↔
      p.reports c = true ∨ ⟨c, false⟩ ∈ boundProjectionOccurrences catalog items
  | [], p => by simp [visitBoundProjection, boundProjectionOccurrences]
  | .expr ⟨expr, _, _, _⟩ :: items, p => by
    rw [visitBoundProjection, visitBoundProjection_reports items, visitBoundExpr_reports expr,
      boundProjectionOccurrences, List.mem_append, or_assoc]
  | .wildcard .. :: items, p => by
    rw [visitBoundProjection, visitBoundProjection_reports items, boundProjectionOccurrences]
  | .unsupported .. :: items, p => by
    rw [visitBoundProjection, visitBoundProjection_reports items, boundProjectionOccurrences]
termination_by structural items => items

/-- The visit of a bound `FROM` clause reports what is shown in it. -/
theorem visitBoundFrom_reports : ∀ (tables : List BoundTableWithJoins) {p : PlanFeatures},
    (visitBoundFrom catalog tables p).reports c = true ↔
      p.reports c = true ∨ ⟨c, false⟩ ∈ boundFromOccurrences catalog tables
  | [], p => by simp [visitBoundFrom, boundFromOccurrences]
  | ⟨relation, joins, _⟩ :: tables, p => by
    rw [visitBoundFrom, visitBoundFrom_reports tables, visitBoundJoins_reports joins,
      visitBoundRelation_reports relation, PlanFeatures.reports_joins]
    simp only [boundFromOccurrences, boundTableOccurrences, List.mem_append, mem_hideIf, mem_shown,
      mem_present]
    grind
termination_by structural tables => tables

/-- The visit of bound joins reports what is shown in them. -/
theorem visitBoundJoins_reports : ∀ (joins : List BoundJoin) {p : PlanFeatures},
    (visitBoundJoins catalog joins p).reports c = true ↔
      p.reports c = true ∨ ⟨c, false⟩ ∈ boundJoinOccurrences catalog false joins
  | [], p => by simp [visitBoundJoins, boundJoinOccurrences]
  | ⟨_, relation, on, _⟩ :: joins, p => by
    rw [visitBoundJoins, visitBoundJoins_reports joins, visitBoundExprOption_reports on,
      visitBoundRelation_reports relation]
    simp [boundJoinOccurrences, or_assoc]
termination_by structural joins => joins

/-- The visit of nested bound joins leaves out their conditions. -/
theorem visitBoundNestedJoins_reports : ∀ (joins : List BoundJoin) {p : PlanFeatures},
    (visitBoundNestedJoins catalog joins p).reports c = true ↔
      p.reports c = true ∨ ⟨c, false⟩ ∈ boundJoinOccurrences catalog true joins
  | [], p => by simp [visitBoundNestedJoins, boundJoinOccurrences]
  | ⟨_, relation, _, _⟩ :: joins, p => by
    rw [visitBoundNestedJoins, visitBoundNestedJoins_reports joins,
      visitBoundRelation_reports relation]
    simp [boundJoinOccurrences, or_assoc]
termination_by structural joins => joins

/-- The visit of a bound relation reports what is shown in it. -/
theorem visitBoundRelation_reports : ∀ (r : BoundRelation) {p : PlanFeatures},
    (visitBoundRelation catalog r p).reports c = true ↔
      p.reports c = true ∨ ⟨c, false⟩ ∈ boundRelationOccurrences catalog r
  | .table .., p => by simp [visitBoundRelation, boundRelationOccurrences]
  | .derived _ query _, p => by
    rw [visitBoundRelation, PlanFeatures.reports_merge, PlanFeatures.reports_derivedTables,
      planFeaturesFromBound_reports query]
    simp [boundRelationOccurrences, or_assoc]
  | .nestedJoin _ ⟨relation, joins, _⟩ _, p => by
    rw [visitBoundRelation, visitBoundNestedJoins_reports joins,
      visitBoundRelation_reports relation, PlanFeatures.reports_derivedTables]
    simp [boundRelationOccurrences, boundTableOccurrences, or_assoc]
  | .unsupported .., p => by simp [visitBoundRelation, boundRelationOccurrences]
termination_by structural r => r

/-- The visit of a bound expression reports what is shown in it. -/
theorem visitBoundExpr_reports : ∀ (e : BoundExpr) {p : PlanFeatures},
    (visitBoundExpr catalog e p).reports c = true ↔
      p.reports c = true ∨ ⟨c, false⟩ ∈ boundExprOccurrences catalog e
  | ⟨.column _, _, _, _⟩, p => by simp [visitBoundExpr, boundExprOccurrences]
  | ⟨.literal _, _, _, _⟩, p => by simp [visitBoundExpr, boundExprOccurrences]
  | ⟨.parameter _, _, _, _⟩, p => by simp [visitBoundExpr, boundExprOccurrences]
  | ⟨.unary _ expr, _, _, _⟩, p => by
    rw [visitBoundExpr, visitBoundExpr_reports expr, boundExprOccurrences]
  | ⟨.binary _ left right, _, _, _⟩, p => by
    rw [visitBoundExpr, visitBoundExpr_reports right, visitBoundExpr_reports left]
    simp [boundExprOccurrences, or_assoc]
  -- A call reports itself and its arguments; its filter and its window are hidden from the visitor.
  | ⟨.function ⟨function, _, args, distinct, filter, over_, _⟩, _, _, _⟩, p => by
    rw [visitBoundExpr_function, visitBoundExprs_reports args, PlanFeatures.reports_insertCall]
    simp only [boundExprOccurrences, List.mem_append, mem_shown, not_mem_hide]
    grind
  | ⟨.case operand whenThen elseResult, _, _, _⟩, p => by
    rw [visitBoundExpr, visitBoundExprOption_reports elseResult,
      visitBoundWhenThens_reports whenThen, visitBoundExprOption_reports operand]
    simp [boundExprOccurrences, or_assoc]
  | ⟨.cast expr _, _, _, _⟩, p => by
    rw [visitBoundExpr, visitBoundExpr_reports expr, boundExprOccurrences]
  | ⟨.between expr low high _, _, _, _⟩, p => by
    rw [visitBoundExpr, visitBoundExpr_reports high, visitBoundExpr_reports low,
      visitBoundExpr_reports expr]
    simp [boundExprOccurrences, or_assoc]
  | ⟨.inList expr list _, _, _, _⟩, p => by
    rw [visitBoundExpr, visitBoundExprs_reports list, visitBoundExpr_reports expr]
    simp [boundExprOccurrences, or_assoc]
  -- The features of a subquery are merged into those of the query.
  | ⟨.inSubquery expr subquery _, _, _, _⟩, p => by
    rw [visitBoundExpr, PlanFeatures.reports_merge, visitBoundExpr_reports expr,
      planFeaturesFromBound_reports subquery, PlanFeatures.reports_inSubqueries]
    simp [boundExprOccurrences, or_assoc]
  | ⟨.scalarSubquery subquery, _, _, _⟩, p => by
    rw [visitBoundExpr, PlanFeatures.reports_merge, planFeaturesFromBound_reports subquery,
      PlanFeatures.reports_scalarSubqueries]
    simp [boundExprOccurrences, or_assoc]
  | ⟨.exists subquery, _, _, _⟩, p => by
    rw [visitBoundExpr, PlanFeatures.reports_merge, planFeaturesFromBound_reports subquery,
      PlanFeatures.reports_scalarSubqueries]
    simp [boundExprOccurrences, or_assoc]
  | ⟨.like expr pattern _ _, _, _, _⟩, p => by
    rw [visitBoundExpr, visitBoundExpr_reports pattern, visitBoundExpr_reports expr]
    simp [boundExprOccurrences, or_assoc]
  | ⟨.isNull expr _, _, _, _⟩, p => by
    rw [visitBoundExpr, visitBoundExpr_reports expr, boundExprOccurrences]
  | ⟨.tuple items, _, _, _⟩, p => by
    rw [visitBoundExpr, visitBoundExprs_reports items, boundExprOccurrences]
  | ⟨.array items, _, _, _⟩, p => by
    rw [visitBoundExpr, visitBoundExprs_reports items, boundExprOccurrences]
  | ⟨.unsupported _, _, _, _⟩, p => by simp [visitBoundExpr, boundExprOccurrences]
termination_by structural e => e

/-- The visit of a list of bound expressions reports what is shown in it. -/
theorem visitBoundExprs_reports : ∀ (es : List BoundExpr) {p : PlanFeatures},
    (visitBoundExprs catalog es p).reports c = true ↔
      p.reports c = true ∨ ⟨c, false⟩ ∈ boundExprsOccurrences catalog es
  | [], p => by simp [visitBoundExprs, boundExprsOccurrences]
  | expr :: exprs, p => by
    rw [visitBoundExprs, visitBoundExprs_reports exprs, visitBoundExpr_reports expr,
      boundExprsOccurrences, List.mem_append, or_assoc]
termination_by structural es => es

/-- The visit of an optional bound expression reports what is shown in it. -/
theorem visitBoundExprOption_reports : ∀ (o : Option BoundExpr) {p : PlanFeatures},
    (visitBoundExprOption catalog o p).reports c = true ↔
      p.reports c = true ∨ ⟨c, false⟩ ∈ boundOptionOccurrences catalog o
  | none, p => by simp [visitBoundExprOption, boundOptionOccurrences]
  | some expr, p => by
    rw [visitBoundExprOption, visitBoundExpr_reports expr, boundOptionOccurrences]
termination_by structural o => o

/-- The visit of the bound branches of a `CASE` reports what is shown in them. -/
theorem visitBoundWhenThens_reports : ∀ (pairs : List BoundWhenThen) {p : PlanFeatures},
    (visitBoundWhenThens catalog pairs p).reports c = true ↔
      p.reports c = true ∨ ⟨c, false⟩ ∈ boundWhenThenOccurrences catalog pairs
  | [], p => by simp [visitBoundWhenThens, boundWhenThenOccurrences]
  | ⟨condition, result⟩ :: pairs, p => by
    rw [visitBoundWhenThens, visitBoundWhenThens_reports pairs, visitBoundExpr_reports result,
      visitBoundExpr_reports condition]
    simp [boundWhenThenOccurrences, or_assoc]
termination_by structural pairs => pairs

end

end Bound

/-- The features of a query are exact, in the syntax and in the bound plan, when nothing occurs only
where it is hidden. -/
theorem planFeatures_exact_iff (catalog : Catalog) :
    (∀ q : SyntaxQuery, (planFeaturesFromSyntax q).Exact (syntaxOccurrences q) ↔
      NothingHidden (syntaxOccurrences q)) ∧
    (∀ q : BoundQueryPlan, (planFeaturesFromBound catalog q).Exact (boundOccurrences catalog q) ↔
      NothingHidden (boundOccurrences catalog q)) :=
  ⟨fun q => PlanFeatures.exact_iff fun c => planFeaturesFromSyntax_reports c q,
    fun q => PlanFeatures.exact_iff fun c => planFeaturesFromBound_reports catalog c q⟩

/-- `SELECT id FROM events ORDER BY coalesce(id, 0)`. -/
def orderByCoalesce : SyntaxQuery :=
  let node : SyntaxNode := { span := none, nodeId := "o" }
  let coalesce : SyntaxFunctionCall :=
    { function := ⟨none, "coalesce"⟩, distinct := false, filter := none, over_ := none
      args := [⟨.column none "id", node⟩, ⟨.literal (.int64 0), node⟩] }
  { selectId [] (plainTable "events") with
    orderBy := [⟨⟨.function coalesce, node⟩, none, none, node⟩] }

/-- A function that is called in the `ORDER BY` of an accepted query only is reported neither of the
query nor of the plan that it is bound to. -/
theorem orderByCoalesce_not_reported :
    Accepted usersAndEvents orderByCoalesce ∧
      ¬ (planFeaturesFromSyntax orderByCoalesce).Exact (syntaxOccurrences orderByCoalesce) ∧
      ¬ (planFeaturesFromBound usersAndEvents.catalog
          (boundPlan usersAndEvents orderByCoalesce)).Exact
        (boundOccurrences usersAndEvents.catalog (boundPlan usersAndEvents orderByCoalesce)) := by
  refine ⟨by decide, fun h => ?_, fun h => ?_⟩
  · have hreports := (h (.function ⟨none, "coalesce"⟩)).mpr ⟨⟨_, true⟩, by decide, rfl⟩
    exact absurd hreports (by decide)
  · have hreports := (h (.function ⟨none, "coalesce"⟩)).mpr ⟨⟨_, true⟩, by decide, rfl⟩
    exact absurd hreports (by decide)

end QueryFabric
