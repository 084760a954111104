import QueryFabric.Catalog.Features
import QueryFabric.Catalog.Maps

/-!
# What occurs in a query

`syntaxOccurrences` and `boundOccurrences` list every construct and every function of a query,
wherever it stands, and say of each whether it is hidden: in an `ORDER BY`, a `LIMIT` or `OFFSET`, a
`FILTER`, the lists of a window, or as a join or an `ON` condition of a nested join. The visitors of
`features.rs` report exactly what is not hidden, so `planFeatures_exact_iff` says that they are
exact when nothing occurs only where it is hidden.
-/

namespace QueryFabric

/-- What the features of a plan report. -/
inductive Construct
  | cte
  | recursiveCte
  | derivedTable
  | join
  | window
  | setOperation
  | aggregate
  | distinctAggregate
  | scalarSubquery
  | inSubquery
  | clickhouseSettings
  | clickhouseFormat
  | limitOffset
  | function (function : FunctionRef)
deriving DecidableEq, Repr

/-- What a plan's features say of a construct. -/
def PlanFeatures.reports (p : PlanFeatures) : Construct → Bool
  | .cte => p.hasCtes
  | .recursiveCte => p.hasRecursiveCtes
  | .derivedTable => p.hasDerivedTables
  | .join => p.hasJoins
  | .window => p.hasWindows
  | .setOperation => p.hasSetOperations
  | .aggregate => p.hasAggregates
  | .distinctAggregate => p.hasDistinctAggregates
  | .scalarSubquery => p.hasScalarSubqueries
  | .inSubquery => p.hasInSubqueries
  | .clickhouseSettings => p.hasClickhouseSettings
  | .clickhouseFormat => p.hasClickhouseFormat
  | .limitOffset => p.hasLimitOffset
  | .function f => p.functions.contains f

/-- A construct at a place of a query. -/
structure Occurrence where
  construct : Construct
  hidden : Bool
deriving DecidableEq, Repr

/-- Constructs at a place that the visitors reach. -/
def shown (constructs : List Construct) : List Occurrence := constructs.map (⟨·, false⟩)

/-- The occurrences below a place that the visitors do not reach. -/
def hide (occurrences : List Occurrence) : List Occurrence :=
  occurrences.map fun o => ⟨o.construct, true⟩

/-- The occurrences below a join, which is part of a nested join or not. -/
def hideIf (nested : Bool) (occurrences : List Occurrence) : List Occurrence :=
  if nested then hide occurrences else occurrences

/-- A construct, when it is there. -/
def present (condition : Bool) (construct : Construct) : List Construct :=
  if condition then [construct] else []

/-- The features report exactly what occurs. -/
def PlanFeatures.Exact (p : PlanFeatures) (occurrences : List Occurrence) : Prop :=
  ∀ c, p.reports c = true ↔ ∃ o ∈ occurrences, o.construct = c

/-- Whatever occurs at a hidden place also occurs at another one. -/
def NothingHidden (occurrences : List Occurrence) : Prop :=
  ∀ o ∈ occurrences, o.hidden = true → ⟨o.construct, false⟩ ∈ occurrences

/-- Whether nothing is hidden can be checked. -/
instance (occurrences : List Occurrence) : Decidable (NothingHidden occurrences) :=
  inferInstanceAs
    (Decidable (∀ o ∈ occurrences, o.hidden = true → ⟨o.construct, false⟩ ∈ occurrences))

/-! ## Occurrences in the syntax -/

/-- The constructs of a query itself. -/
def queryConstructs (hasCtes withRecursive hasLimitOffset : Bool) (clauses : List BackendClause) :
    List Construct :=
  present hasCtes .cte ++ present withRecursive .recursiveCte ++
    present (clauses.any BackendClause.isSettings) .clickhouseSettings ++
    present (clauses.any BackendClause.isFormat) .clickhouseFormat ++
    present hasLimitOffset .limitOffset

/-- The constructs of a function call itself. -/
def callConstructs (function : FunctionRef) (aggregate window distinct : Bool) : List Construct :=
  .function function :: present aggregate .aggregate ++ present window .window ++
    present distinct .distinctAggregate

mutual

/-- The occurrences in a parsed query. -/
def syntaxOccurrences : SyntaxQuery → List Occurrence
  | ⟨_, ctes, withRecursive, body, orderBy, limit, offset, backendClauses⟩ =>
    shown (queryConstructs (!ctes.isEmpty) withRecursive (limit.isSome || offset.isSome)
      backendClauses) ++
    syntaxCteOccurrences ctes ++ syntaxSetExprOccurrences body ++
      hide (syntaxOrderByOccurrences orderBy ++ syntaxOptionOccurrences limit ++
        syntaxOptionOccurrences offset)

/-- The occurrences in CTEs. -/
def syntaxCteOccurrences : List SyntaxCte → List Occurrence
  | [] => []
  | ⟨_, _, query, _⟩ :: ctes => syntaxOccurrences query ++ syntaxCteOccurrences ctes

/-- The occurrences in a query body. -/
def syntaxSetExprOccurrences : SyntaxSetExpr → List Occurrence
  | .select s => syntaxSelectOccurrences s
  | .unionAll left right _ =>
    shown [.setOperation] ++ syntaxSetExprOccurrences left ++ syntaxSetExprOccurrences right
  | .unsupported .. => []

/-- The occurrences in a select. -/
def syntaxSelectOccurrences : SyntaxSelect → List Occurrence
  | ⟨_, projection, from_, selection, groupBy, having, _⟩ =>
    syntaxProjectionOccurrences projection ++ syntaxFromOccurrences from_ ++
      syntaxOptionOccurrences selection ++ syntaxExprsOccurrences groupBy ++
      syntaxOptionOccurrences having

/-- The occurrences in a projection. -/
def syntaxProjectionOccurrences : List SyntaxProjectionItem → List Occurrence
  | [] => []
  | .expr ⟨expr, _, _⟩ :: items => syntaxExprOccurrences expr ++ syntaxProjectionOccurrences items
  | .wildcard .. :: items => syntaxProjectionOccurrences items
  | .unsupported .. :: items => syntaxProjectionOccurrences items

/-- The occurrences in a `FROM` clause. -/
def syntaxFromOccurrences : List SyntaxTableWithJoins → List Occurrence
  | [] => []
  | table :: tables => syntaxTableOccurrences false table ++ syntaxFromOccurrences tables

/-- A relation and what is joined to it. Of a nested join the visitors reach the relations only. -/
def syntaxTableOccurrences (nested : Bool) : SyntaxTableWithJoins → List Occurrence
  | ⟨relation, joins, _⟩ =>
    syntaxRelationOccurrences relation ++ hideIf nested (shown (present (!joins.isEmpty) .join)) ++
      syntaxJoinOccurrences nested joins

/-- The occurrences in joins. -/
def syntaxJoinOccurrences (nested : Bool) : List SyntaxJoin → List Occurrence
  | [] => []
  | ⟨_, relation, on, _⟩ :: joins =>
    syntaxRelationOccurrences relation ++ hideIf nested (syntaxOptionOccurrences on) ++
      syntaxJoinOccurrences nested joins

/-- A nested join is a relation that is derived from others, as a subquery is. -/
def syntaxRelationOccurrences : SyntaxRelation → List Occurrence
  | .table .. => []
  | .derived query _ _ => shown [.derivedTable] ++ syntaxOccurrences query
  | .nestedJoin table _ _ => shown [.derivedTable] ++ syntaxTableOccurrences true table
  | .unsupported .. => []

/-- The occurrences in an expression. -/
def syntaxExprOccurrences : SyntaxExpr → List Occurrence
  | ⟨.column .., _⟩ => []
  | ⟨.literal _, _⟩ => []
  | ⟨.parameter _, _⟩ => []
  | ⟨.unary _ expr, _⟩ => syntaxExprOccurrences expr
  | ⟨.binary _ left right, _⟩ => syntaxExprOccurrences left ++ syntaxExprOccurrences right
  | ⟨.function ⟨function, args, distinct, filter, over_⟩, _⟩ =>
    -- The visitor enters the arguments, and neither the filter nor the window.
    shown (callConstructs function (syntaxAggregateNames.contains function.name) over_.isSome
      distinct) ++
    syntaxExprsOccurrences args ++
      hide (syntaxOptionOccurrences filter ++ syntaxWindowOccurrences over_)
  | ⟨.case operand whenThen elseResult, _⟩ =>
    syntaxOptionOccurrences operand ++ syntaxWhenThenOccurrences whenThen ++
      syntaxOptionOccurrences elseResult
  | ⟨.cast expr _, _⟩ => syntaxExprOccurrences expr
  | ⟨.between expr low high _, _⟩ =>
    syntaxExprOccurrences expr ++ syntaxExprOccurrences low ++ syntaxExprOccurrences high
  | ⟨.inList expr list _, _⟩ => syntaxExprOccurrences expr ++ syntaxExprsOccurrences list
  | ⟨.inSubquery expr subquery _, _⟩ =>
    shown [.inSubquery] ++ syntaxExprOccurrences expr ++ syntaxOccurrences subquery
  | ⟨.scalarSubquery subquery, _⟩ => shown [.scalarSubquery] ++ syntaxOccurrences subquery
  | ⟨.exists subquery, _⟩ => shown [.scalarSubquery] ++ syntaxOccurrences subquery
  | ⟨.like expr pattern _ _, _⟩ => syntaxExprOccurrences expr ++ syntaxExprOccurrences pattern
  | ⟨.isNull expr _, _⟩ => syntaxExprOccurrences expr
  | ⟨.tuple items, _⟩ => syntaxExprsOccurrences items
  | ⟨.array items, _⟩ => syntaxExprsOccurrences items
  | ⟨.unsupported _, _⟩ => []

/-- The occurrences in a list of expressions. -/
def syntaxExprsOccurrences : List SyntaxExpr → List Occurrence
  | [] => []
  | expr :: exprs => syntaxExprOccurrences expr ++ syntaxExprsOccurrences exprs

/-- The occurrences in an expression, if there is one. -/
def syntaxOptionOccurrences : Option SyntaxExpr → List Occurrence
  | none => []
  | some expr => syntaxExprOccurrences expr

/-- The occurrences in the branches of a `CASE`. -/
def syntaxWhenThenOccurrences : List SyntaxWhenThen → List Occurrence
  | [] => []
  | ⟨condition, result⟩ :: pairs =>
    syntaxExprOccurrences condition ++ syntaxExprOccurrences result ++
      syntaxWhenThenOccurrences pairs

/-- The occurrences in an `ORDER BY`. -/
def syntaxOrderByOccurrences : List SyntaxOrderByExpr → List Occurrence
  | [] => []
  | ⟨expr, _, _, _⟩ :: items => syntaxExprOccurrences expr ++ syntaxOrderByOccurrences items

/-- The occurrences in a window, if there is one. -/
def syntaxWindowOccurrences : Option WindowSpec → List Occurrence
  | none => []
  | some ⟨partitionBy, orderBy, _⟩ =>
    syntaxExprsOccurrences partitionBy ++ syntaxOrderByOccurrences orderBy

end

/-! ## What the features report -/

/-- What is present under a condition. -/
@[simp]
theorem mem_present (c : Construct) (condition : Bool) (construct : Construct) :
    c ∈ present condition construct ↔ condition = true ∧ c = construct := by
  cases condition <;> simp [present]

/-- Functions that neither is before the other are the same. -/
theorem FunctionRef.lt_trichotomy (f g : FunctionRef) (hfg : f.lt g = false)
    (hgf : g.lt f = false) :
    f = g := by
  obtain ⟨ns, name⟩ := f
  obtain ⟨ns', name'⟩ := g
  simp only [FunctionRef.lt, nameKeyLt, Bool.or_eq_false_iff, Bool.and_eq_false_iff,
    beq_eq_false_iff_ne, decide_eq_false_iff_not, not_lt] at hfg hgf
  -- The namespaces are compared first, and none comes before some.
  have hns : ns = ns' := by
    cases ns with
    | none =>
      cases ns' with
      | none => rfl
      | some _ => simp [optionLt] at hfg
    | some a =>
      cases ns' with
      | none => simp [optionLt] at hgf
      | some b =>
        have hab : b ≤ a := not_lt.mp (of_decide_eq_false hfg.1)
        have hba : a ≤ b := not_lt.mp (of_decide_eq_false hgf.1)
        rw [le_antisymm hba hab]
  subst hns
  have hname : name' ≤ name := by simpa using hfg.2
  have hname' : name ≤ name' := by simpa using hgf.2
  rw [le_antisymm hname' hname]

namespace PlanFeatures

variable (p other : PlanFeatures) (c : Construct) (b : Bool)

/-- One function more is reported. -/
@[simp]
theorem reports_insertFunction (f : FunctionRef) :
    (p.insertFunction f).reports c = true ↔ c = .function f ∨ p.reports c = true := by
  cases c with
  | function g => simp [reports, insertFunction, mem_setInsert FunctionRef.lt_trichotomy]
  | _ => simp [reports, insertFunction]

/-- Merged features report what either does. -/
@[simp]
theorem reports_merge : (p.merge other).reports c = true ↔ p.reports c = true ∨
    other.reports c = true := by
  cases c with
  | function g => simp [reports, merge, mem_foldl_setInsert FunctionRef.lt_trichotomy]
  | _ => simp [reports, merge]

/-- The features of a query before its parts are visited. -/
theorem reports_query (hasCtes withRecursive hasLimitOffset : Bool) (clauses : List BackendClause) :
    ({ hasCtes
       hasRecursiveCtes := withRecursive
       hasClickhouseSettings := clauses.any BackendClause.isSettings
       hasClickhouseFormat := clauses.any BackendClause.isFormat
       hasLimitOffset } : PlanFeatures).reports c = true ↔
      c ∈ queryConstructs hasCtes withRecursive hasLimitOffset clauses := by
  cases c <;> simp [reports, queryConstructs, mem_present]

/-- Derived tables are reported besides the rest. -/
@[simp]
theorem reports_derivedTables :
    ({ p with hasDerivedTables := true } : PlanFeatures).reports c = true ↔
    p.reports c = true ∨ c = .derivedTable := by
  cases c <;> simp [reports]

/-- Set operations are reported besides the rest. -/
@[simp]
theorem reports_setOperations :
    ({ p with hasSetOperations := true } : PlanFeatures).reports c = true ↔
    p.reports c = true ∨ c = .setOperation := by
  cases c <;> simp [reports]

/-- Scalar subqueries are reported besides the rest. -/
@[simp]
theorem reports_scalarSubqueries :
    ({ p with hasScalarSubqueries := true } : PlanFeatures).reports c = true ↔
      p.reports c = true ∨ c = .scalarSubquery := by
  cases c <;> simp [reports]

/-- `IN` subqueries are reported besides the rest. -/
@[simp]
theorem reports_inSubqueries :
    ({ p with hasInSubqueries := true } : PlanFeatures).reports c = true ↔
    p.reports c = true ∨ c = .inSubquery := by
  cases c <;> simp [reports]

/-- Joins are reported besides the rest. -/
@[simp]
theorem reports_joins : ({ p with hasJoins := p.hasJoins || b } : PlanFeatures).reports c = true ↔
    p.reports c = true ∨ b = true ∧ c = .join := by
  cases c <;> simp [reports]

/-- The flags of a function call. -/
theorem reports_call (aggregate window distinct : Bool) :
    ({ p with
        hasWindows := p.hasWindows || window
        hasAggregates := p.hasAggregates || aggregate
        hasDistinctAggregates := p.hasDistinctAggregates || distinct } : PlanFeatures).reports c =
          true ↔
      p.reports c = true ∨ aggregate = true ∧ c = .aggregate ∨ window = true ∧ c = .window ∨
        distinct = true ∧ c = .distinctAggregate := by
  cases c <;> simp [reports]

end PlanFeatures

section Places

variable (c : Construct) (constructs : List Construct) (occurrences : List Occurrence)

/-- What is shown occurs. -/
@[simp]
theorem mem_shown : ⟨c, false⟩ ∈ shown constructs ↔ c ∈ constructs := by
  simp [shown]

/-- What is hidden is not shown. -/
@[simp]
theorem not_mem_hide : ⟨c, false⟩ ∉ hide occurrences := by
  simp [hide]

/-- What may be hidden is shown when it is not. -/
@[simp]
theorem mem_hideIf (nested : Bool) :
    ⟨c, false⟩ ∈ hideIf nested occurrences ↔ nested = false ∧ ⟨c, false⟩ ∈ occurrences := by
  cases nested <;> simp [hideIf]

/-- A visitor that reports exactly what is not hidden is exact when nothing occurs only where it is
hidden. -/
theorem PlanFeatures.exact_iff {p : PlanFeatures} {occurrences : List Occurrence}
    (h : ∀ c, p.reports c = true ↔ ⟨c, false⟩ ∈ occurrences) :
    p.Exact occurrences ↔ NothingHidden occurrences := by
  constructor
  · intro hexact o ho _
    exact (h _).mp ((hexact _).mpr ⟨o, ho, rfl⟩)
  · intro hhidden c
    rw [h]
    constructor
    · exact fun hmem => ⟨_, hmem, rfl⟩
    · rintro ⟨⟨_, hidden⟩, ho, rfl⟩
      cases hidden with
      | false => exact ho
      | true => exact hhidden _ ho rfl

end Places

/-! ## The syntax visitor -/

section Syntax

variable (c : Construct)

mutual

/-- The features of a parsed query report what is shown in it. -/
theorem planFeaturesFromSyntax_reports : ∀ q : SyntaxQuery,
    (planFeaturesFromSyntax q).reports c = true ↔ ⟨c, false⟩ ∈ syntaxOccurrences q
  | ⟨_, ctes, withRecursive, body, _, limit, offset, clauses⟩ => by
    rw [planFeaturesFromSyntax, mergeSyntaxCtes_reports ctes, visitSyntaxSetExpr_reports body,
      PlanFeatures.reports_query]
    simp only [syntaxOccurrences, List.mem_append, mem_shown, not_mem_hide]
    grind
termination_by structural q => q

/-- The visit of CTEs reports what is shown in them. -/
theorem mergeSyntaxCtes_reports : ∀ (ctes : List SyntaxCte) {p : PlanFeatures},
    (mergeSyntaxCtes ctes p).reports c = true ↔
      p.reports c = true ∨ ⟨c, false⟩ ∈ syntaxCteOccurrences ctes
  | [], p => by simp [mergeSyntaxCtes, syntaxCteOccurrences]
  | ⟨_, _, query, _⟩ :: ctes, p => by
    rw [mergeSyntaxCtes, mergeSyntaxCtes_reports ctes, PlanFeatures.reports_merge,
      planFeaturesFromSyntax_reports query, syntaxCteOccurrences, List.mem_append, or_assoc]
termination_by structural ctes => ctes

/-- The visit of a query body reports what is shown in it. -/
theorem visitSyntaxSetExpr_reports : ∀ (e : SyntaxSetExpr) {p : PlanFeatures},
    (visitSyntaxSetExpr e p).reports c = true ↔
      p.reports c = true ∨ ⟨c, false⟩ ∈ syntaxSetExprOccurrences e
  | .select s, p => by
    rw [visitSyntaxSetExpr, visitSyntaxSelect_reports s, syntaxSetExprOccurrences]
  | .unionAll left right _, p => by
    rw [visitSyntaxSetExpr, visitSyntaxSetExpr_reports right, visitSyntaxSetExpr_reports left]
    simp [syntaxSetExprOccurrences, or_assoc]
  | .unsupported _ _, p => by
    simp only [visitSyntaxSetExpr, syntaxSetExprOccurrences, List.not_mem_nil, or_false]
    cases c <;> rfl
termination_by structural e => e

/-- The visit of a select reports what is shown in it. -/
theorem visitSyntaxSelect_reports : ∀ (s : SyntaxSelect) {p : PlanFeatures},
    (visitSyntaxSelect s p).reports c = true ↔
      p.reports c = true ∨ ⟨c, false⟩ ∈ syntaxSelectOccurrences s
  | ⟨_, projection, from_, selection, groupBy, having, _⟩, p => by
    rw [visitSyntaxSelect, visitSyntaxExprOption_reports having, visitSyntaxExprs_reports groupBy,
      visitSyntaxExprOption_reports selection, visitSyntaxFrom_reports from_,
      visitSyntaxProjection_reports projection]
    simp only [syntaxSelectOccurrences, List.mem_append, or_assoc]
termination_by structural s => s

/-- The visit of a projection reports what is shown in it. -/
theorem visitSyntaxProjection_reports : ∀ (items : List SyntaxProjectionItem) {p : PlanFeatures},
    (visitSyntaxProjection items p).reports c = true ↔
      p.reports c = true ∨ ⟨c, false⟩ ∈ syntaxProjectionOccurrences items
  | [], p => by simp [visitSyntaxProjection, syntaxProjectionOccurrences]
  | .expr ⟨expr, _, _⟩ :: items, p => by
    rw [visitSyntaxProjection, visitSyntaxProjection_reports items, visitSyntaxExpr_reports expr,
      syntaxProjectionOccurrences, List.mem_append, or_assoc]
  | .wildcard _ _ :: items, p => by
    rw [visitSyntaxProjection, visitSyntaxProjection_reports items, syntaxProjectionOccurrences]
  | .unsupported _ _ :: items, p => by
    rw [visitSyntaxProjection, visitSyntaxProjection_reports items, syntaxProjectionOccurrences]
termination_by structural items => items

/-- The visit of a `FROM` clause reports what is shown in it. -/
theorem visitSyntaxFrom_reports : ∀ (tables : List SyntaxTableWithJoins) {p : PlanFeatures},
    (visitSyntaxFrom tables p).reports c = true ↔
      p.reports c = true ∨ ⟨c, false⟩ ∈ syntaxFromOccurrences tables
  | [], p => by simp [visitSyntaxFrom, syntaxFromOccurrences]
  | ⟨relation, joins, _⟩ :: tables, p => by
    rw [visitSyntaxFrom, visitSyntaxFrom_reports tables, visitSyntaxJoins_reports joins,
      visitSyntaxRelation_reports relation, PlanFeatures.reports_joins]
    simp only [syntaxFromOccurrences, syntaxTableOccurrences, List.mem_append, mem_hideIf,
      mem_shown, mem_present]
    grind
termination_by structural tables => tables

/-- The visit of joins reports what is shown in them. -/
theorem visitSyntaxJoins_reports : ∀ (joins : List SyntaxJoin) {p : PlanFeatures},
    (visitSyntaxJoins joins p).reports c = true ↔
      p.reports c = true ∨ ⟨c, false⟩ ∈ syntaxJoinOccurrences false joins
  | [], p => by simp [visitSyntaxJoins, syntaxJoinOccurrences]
  | ⟨_, relation, on, _⟩ :: joins, p => by
    rw [visitSyntaxJoins, visitSyntaxJoins_reports joins, visitSyntaxExprOption_reports on,
      visitSyntaxRelation_reports relation]
    simp [syntaxJoinOccurrences, or_assoc]
termination_by structural joins => joins

/-- The visit of nested joins leaves out their conditions. -/
theorem visitSyntaxNestedJoins_reports : ∀ (joins : List SyntaxJoin) {p : PlanFeatures},
    (visitSyntaxNestedJoins joins p).reports c = true ↔
      p.reports c = true ∨ ⟨c, false⟩ ∈ syntaxJoinOccurrences true joins
  | [], p => by simp [visitSyntaxNestedJoins, syntaxJoinOccurrences]
  | ⟨_, relation, _, _⟩ :: joins, p => by
    rw [visitSyntaxNestedJoins, visitSyntaxNestedJoins_reports joins,
      visitSyntaxRelation_reports relation]
    simp [syntaxJoinOccurrences, or_assoc]
termination_by structural joins => joins

/-- The visit of a relation reports what is shown in it. -/
theorem visitSyntaxRelation_reports : ∀ (r : SyntaxRelation) {p : PlanFeatures},
    (visitSyntaxRelation r p).reports c = true ↔
      p.reports c = true ∨ ⟨c, false⟩ ∈ syntaxRelationOccurrences r
  | .table .., p => by simp [visitSyntaxRelation, syntaxRelationOccurrences]
  | .derived query _ _, p => by
    rw [visitSyntaxRelation, PlanFeatures.reports_merge, PlanFeatures.reports_derivedTables,
      planFeaturesFromSyntax_reports query]
    simp [syntaxRelationOccurrences, or_assoc]
  | .nestedJoin ⟨relation, joins, _⟩ _ _, p => by
    rw [visitSyntaxRelation, visitSyntaxNestedJoins_reports joins,
      visitSyntaxRelation_reports relation, PlanFeatures.reports_derivedTables]
    simp [syntaxRelationOccurrences, syntaxTableOccurrences, or_assoc]
  | .unsupported .., p => by simp [visitSyntaxRelation, syntaxRelationOccurrences]
termination_by structural r => r

/-- The visit of an expression reports what is shown in it. -/
theorem visitSyntaxExpr_reports : ∀ (e : SyntaxExpr) {p : PlanFeatures},
    (visitSyntaxExpr e p).reports c = true ↔
      p.reports c = true ∨ ⟨c, false⟩ ∈ syntaxExprOccurrences e
  | ⟨.column .., _⟩, p => by simp [visitSyntaxExpr, syntaxExprOccurrences]
  | ⟨.literal _, _⟩, p => by simp [visitSyntaxExpr, syntaxExprOccurrences]
  | ⟨.parameter _, _⟩, p => by simp [visitSyntaxExpr, syntaxExprOccurrences]
  | ⟨.unary _ expr, _⟩, p => by
    rw [visitSyntaxExpr, visitSyntaxExpr_reports expr, syntaxExprOccurrences]
  | ⟨.binary _ left right, _⟩, p => by
    rw [visitSyntaxExpr, visitSyntaxExpr_reports right, visitSyntaxExpr_reports left]
    simp [syntaxExprOccurrences, or_assoc]
  -- A call reports itself and its arguments; its filter and its window are hidden from the visitor.
  | ⟨.function ⟨function, args, distinct, filter, over_⟩, _⟩, p => by
    simp only [visitSyntaxExpr]
    rw [visitSyntaxExprs_reports args, PlanFeatures.reports_call,
      PlanFeatures.reports_insertFunction]
    simp only [syntaxExprOccurrences, callConstructs, List.mem_append, mem_shown, List.mem_cons,
      mem_present, not_mem_hide]
    grind
  | ⟨.case operand whenThen elseResult, _⟩, p => by
    rw [visitSyntaxExpr, visitSyntaxExprOption_reports elseResult,
      visitSyntaxWhenThens_reports whenThen, visitSyntaxExprOption_reports operand]
    simp [syntaxExprOccurrences, or_assoc]
  | ⟨.cast expr _, _⟩, p => by
    rw [visitSyntaxExpr, visitSyntaxExpr_reports expr, syntaxExprOccurrences]
  | ⟨.between expr low high _, _⟩, p => by
    rw [visitSyntaxExpr, visitSyntaxExpr_reports high, visitSyntaxExpr_reports low,
      visitSyntaxExpr_reports expr]
    simp [syntaxExprOccurrences, or_assoc]
  | ⟨.inList expr list _, _⟩, p => by
    rw [visitSyntaxExpr, visitSyntaxExprs_reports list, visitSyntaxExpr_reports expr]
    simp [syntaxExprOccurrences, or_assoc]
  -- The features of a subquery are merged into those of the query.
  | ⟨.inSubquery expr subquery _, _⟩, p => by
    rw [visitSyntaxExpr, PlanFeatures.reports_merge, visitSyntaxExpr_reports expr,
      planFeaturesFromSyntax_reports subquery, PlanFeatures.reports_inSubqueries]
    simp [syntaxExprOccurrences, or_assoc]
  | ⟨.scalarSubquery subquery, _⟩, p => by
    rw [visitSyntaxExpr, PlanFeatures.reports_merge, planFeaturesFromSyntax_reports subquery,
      PlanFeatures.reports_scalarSubqueries]
    simp [syntaxExprOccurrences, or_assoc]
  | ⟨.exists subquery, _⟩, p => by
    rw [visitSyntaxExpr, PlanFeatures.reports_merge, planFeaturesFromSyntax_reports subquery,
      PlanFeatures.reports_scalarSubqueries]
    simp [syntaxExprOccurrences, or_assoc]
  | ⟨.like expr pattern _ _, _⟩, p => by
    rw [visitSyntaxExpr, visitSyntaxExpr_reports pattern, visitSyntaxExpr_reports expr]
    simp [syntaxExprOccurrences, or_assoc]
  | ⟨.isNull expr _, _⟩, p => by
    rw [visitSyntaxExpr, visitSyntaxExpr_reports expr, syntaxExprOccurrences]
  | ⟨.tuple items, _⟩, p => by
    rw [visitSyntaxExpr, visitSyntaxExprs_reports items, syntaxExprOccurrences]
  | ⟨.array items, _⟩, p => by
    rw [visitSyntaxExpr, visitSyntaxExprs_reports items, syntaxExprOccurrences]
  | ⟨.unsupported _, _⟩, p => by simp [visitSyntaxExpr, syntaxExprOccurrences]
termination_by structural e => e

/-- The visit of a list of expressions reports what is shown in it. -/
theorem visitSyntaxExprs_reports : ∀ (es : List SyntaxExpr) {p : PlanFeatures},
    (visitSyntaxExprs es p).reports c = true ↔
      p.reports c = true ∨ ⟨c, false⟩ ∈ syntaxExprsOccurrences es
  | [], p => by simp [visitSyntaxExprs, syntaxExprsOccurrences]
  | expr :: exprs, p => by
    rw [visitSyntaxExprs, visitSyntaxExprs_reports exprs, visitSyntaxExpr_reports expr,
      syntaxExprsOccurrences, List.mem_append, or_assoc]
termination_by structural es => es

/-- The visit of an optional expression reports what is shown in it. -/
theorem visitSyntaxExprOption_reports : ∀ (o : Option SyntaxExpr) {p : PlanFeatures},
    (visitSyntaxExprOption o p).reports c = true ↔
      p.reports c = true ∨ ⟨c, false⟩ ∈ syntaxOptionOccurrences o
  | none, p => by simp [visitSyntaxExprOption, syntaxOptionOccurrences]
  | some expr, p => by
    rw [visitSyntaxExprOption, visitSyntaxExpr_reports expr, syntaxOptionOccurrences]
termination_by structural o => o

/-- The visit of the branches of a `CASE` reports what is shown in them. -/
theorem visitSyntaxWhenThens_reports : ∀ (pairs : List SyntaxWhenThen) {p : PlanFeatures},
    (visitSyntaxWhenThens pairs p).reports c = true ↔
      p.reports c = true ∨ ⟨c, false⟩ ∈ syntaxWhenThenOccurrences pairs
  | [], p => by simp [visitSyntaxWhenThens, syntaxWhenThenOccurrences]
  | ⟨condition, result⟩ :: pairs, p => by
    rw [visitSyntaxWhenThens, visitSyntaxWhenThens_reports pairs, visitSyntaxExpr_reports result,
      visitSyntaxExpr_reports condition]
    simp [syntaxWhenThenOccurrences, or_assoc]
termination_by structural pairs => pairs

end

end Syntax

end QueryFabric
