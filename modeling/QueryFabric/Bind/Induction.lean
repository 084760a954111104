import QueryFabric.Bind.Query
import QueryFabric.Lib.Yields

/-!
# Induction over binding

What binding returns, when it reports no error, is built from what it returns for the parts of the
query. `BindCases` says for each kind of node how, and with which scope: it is what an induction
over binding has to show. `BindCases.boundPlan` is the result of the induction, for every query that
is accepted.

A nested query has a scope of its own, so the property of a query does not depend on one.
-/

set_option linter.unusedSectionVars false

namespace QueryFabric.Bind

open Lib

/-- An error was reported. -/
def Failed (binder : Binder) : Prop := ∃ d ∈ binder.diagnostics, d.isError

/-- The plan that a query is bound to. -/
def boundPlan (context : BinderContext) (query : SyntaxQuery) : BoundQueryPlan :=
  ((bindQuery context none query).run (Binder.new context)).1

/-- Binding reports no error, so the query is accepted. -/
def Accepted (context : BinderContext) (query : SyntaxQuery) : Prop :=
  ∀ d ∈ ((bindQuery context none query).run (Binder.new context)).2.diagnostics, d.isError = false

/-- Whether a query is accepted can be checked. -/
instance (context : BinderContext) (query : SyntaxQuery) : Decidable (Accepted context query) :=
  inferInstanceAs (Decidable (∀ d ∈ _, _ = false))

/-- The result fields of a projection item. -/
def itemFields : BoundProjectionItem → List ResultField
  | .expr details => [details.field]
  | .wildcard _ fields _ => fields
  | .unsupported .. => []

/-- The scope of the relations of a `FROM` clause. -/
def fromScope (from_ : List BoundTableWithJoins) : Scope := from_.foldl Scope.mergeTable {}

/-! ## The cases -/

/-- A property for each kind of node. That of an expression may depend on the scope that it is bound
in, and that of a relation on the scope of what stands before it. -/
structure BindMotive where
  expr : Scope → BoundExpr → Prop
  query : BoundQueryPlan → Prop
  setExpr : BoundSetExpr → Prop
  relation : Scope → BoundRelation → Prop
  joins : Scope → JoinState → Prop
  table : Scope → BoundTableWithJoins → Prop

/-- A projected expression has the name of its alias, or that of its column. -/
structure NamedAs (d : BoundProjectionExpr) : Prop where
  alias_ : ∀ alias_, d.alias_ = some alias_ → d.field.name = alias_
  column : ∀ column, d.alias_ = none → d.expr.kind = .column column → d.field.name = column.name

/-- What is known of an item of a projection. -/
inductive BindMotive.Item (M : BindMotive) (scope : Scope) : BoundProjectionItem → Prop
  | expr (d : BoundProjectionExpr) (hexpr : M.expr scope d.expr)
      (htype : d.field.dataType = d.expr.dataType) (hnullable : d.field.nullable = d.expr.nullable)
      (hname : NamedAs d) : Item M scope (.expr d)
  | all (nd : SyntaxNode) : Item M scope (.wildcard none scope.expandAll nd)
  | qualified (qualifier : String) (fields : List ResultField) (nd : SyntaxNode)
      (hfields : scope.expandQualified qualifier = some fields) :
      Item M scope (.wildcard (some qualifier) fields nd)

/-- What is known of the `FROM` clause of a select: each table is bound in the scope of those before
it. -/
inductive BindMotive.From (M : BindMotive) : Scope → List BoundTableWithJoins → Prop
  | nil (scope : Scope) : From M scope []
  | cons (scope : Scope) (t : BoundTableWithJoins) (ts : List BoundTableWithJoins)
      (htable : M.table scope t) (hrest : From M (scope.mergeTable t) ts) : From M scope (t :: ts)

/-- What an induction over binding has to show. -/
structure BindCases (M : BindMotive) : Prop where
  column : ∀ scope relation name column nd, scope.resolveColumn relation name = .local column →
    M.expr scope ⟨.column { relation := column.relation, name }, column.field.dataType,
      column.field.nullable, nd⟩
  literal : ∀ scope value nd, M.expr scope (bindLiteral nd value)
  parameter : ∀ scope r ty nu nd, M.expr scope ⟨.parameter r, ty, nu, nd⟩
  unary : ∀ scope op x ty nu nd, M.expr scope x → M.expr scope ⟨.unary op x, ty, nu, nd⟩
  binary : ∀ scope op l r ty nu nd, M.expr scope l → M.expr scope r →
    M.expr scope ⟨.binary op l r, ty, nu, nd⟩
  function : ∀ scope (f : BoundFunctionCall) ty nu nd, (∀ x ∈ f.args, M.expr scope x) →
    (∀ x ∈ f.filter, M.expr scope x) → (∀ w ∈ f.over_, (∀ x ∈ w.partitionBy, M.expr scope x) ∧
      ∀ o ∈ w.orderBy, M.expr scope o.expr) → M.expr scope ⟨.function f, ty, nu, nd⟩
  case : ∀ scope o ws el ty nu nd, (∀ x ∈ o, M.expr scope x) →
    (∀ w ∈ ws, M.expr scope w.condition ∧ M.expr scope w.result) → (∀ x ∈ el, M.expr scope x) →
    M.expr scope ⟨.case o ws el, ty, nu, nd⟩
  cast : ∀ scope x t ty nu nd, M.expr scope x → M.expr scope ⟨.cast x t, ty, nu, nd⟩
  between : ∀ scope x l h n ty nu nd, M.expr scope x → M.expr scope l → M.expr scope h →
    M.expr scope ⟨.between x l h n, ty, nu, nd⟩
  inList : ∀ scope x xs n ty nu nd, M.expr scope x → (∀ y ∈ xs, M.expr scope y) →
    M.expr scope ⟨.inList x xs n, ty, nu, nd⟩
  inSubquery : ∀ scope x q n ty nu nd, M.expr scope x → M.query q →
    M.expr scope ⟨.inSubquery x q n, ty, nu, nd⟩
  scalarSubquery : ∀ scope q ty nu nd, M.query q → M.expr scope ⟨.scalarSubquery q, ty, nu, nd⟩
  exists_ : ∀ scope q ty nu nd, M.query q → M.expr scope ⟨.exists q, ty, nu, nd⟩
  like : ∀ scope x p n ci ty nu nd, M.expr scope x → M.expr scope p →
    M.expr scope ⟨.like x p n ci, ty, nu, nd⟩
  isNull : ∀ scope x n ty nu nd, M.expr scope x → M.expr scope ⟨.isNull x n, ty, nu, nd⟩
  tuple : ∀ scope xs ty nu nd, (∀ x ∈ xs, M.expr scope x) → M.expr scope ⟨.tuple xs, ty, nu, nd⟩
  array : ∀ scope xs ty nu nd, (∀ x ∈ xs, M.expr scope x) → M.expr scope ⟨.array xs, ty, nu, nd⟩
  query : ∀ q : BoundQueryPlan,
    (∀ c ∈ q.ctes, M.query c.query ∧ c.resultSchema = cteSchema c.columns c.query.resultSchema) →
    M.setExpr q.body →
    (∀ o ∈ q.orderBy, M.expr (.fromOutputSchema q.body.resultSchema) o.expr) →
    (∀ x ∈ q.limit, M.expr (.fromOutputSchema q.body.resultSchema) x) →
    (∀ x ∈ q.offset, M.expr (.fromOutputSchema q.body.resultSchema) x) →
    q.resultSchema = q.body.resultSchema → M.query q
  unionAll : ∀ l r nd, M.setExpr l → M.setExpr r →
    l.resultSchema.fields.length = r.resultSchema.fields.length →
    M.setExpr (.unionAll l r nd (unionSchema l.resultSchema r.resultSchema))
  select : ∀ s : BoundSelect, M.From {} s.from_ →
    (∀ x ∈ s.selection, M.expr (fromScope s.from_) x) →
    (∀ x ∈ s.groupBy, M.expr (fromScope s.from_) x) →
    (∀ x ∈ s.having, M.expr (fromScope s.from_) x) →
    (∀ item ∈ s.projection, M.Item (fromScope s.from_) item) →
    s.resultSchema = .new (s.projection.flatMap itemFields) → M.setExpr (.select s)
  table : ∀ scope binding nd, M.relation scope (.table binding nd)
  derived : ∀ scope name q nd, M.query q →
    M.relation scope
      (.derived { bindingName := name, relationName := none, schema := q.resultSchema } q nd)
  nestedJoin : ∀ scope name t nd, M.table scope t → M.relation scope (.nestedJoin
    { bindingName := name, relationName := none, schema := scopeSchemaForTable t } t nd)
  startJoins : ∀ scope r, M.relation scope r → M.joins scope ⟨r, scope.pushRelation r, []⟩
  addJoin : ∀ scope (state : JoinState) kind joined on nd, M.joins scope state →
    M.relation state.joinScope joined →
    (∀ x ∈ on, M.expr (state.joinScope.pushRelation joined) x) →
    M.joins scope (state.addJoin kind joined on nd)
  endJoins : ∀ scope (state : JoinState) nd, M.joins scope state →
    M.table scope ⟨state.relation, state.joins, nd⟩

/-! ## The binder's own steps -/

/-- After an error everything holds. -/
theorem yields_pushError (code message : String) (node : SyntaxNode) (remediation : Option String)
    (Q : Unit → Prop) : Yields Failed (pushError code message node remediation) Q :=
  Yields.fail (fun _ => ⟨_, List.mem_append_right _ List.mem_cons_self, rfl⟩) Q

/-- A warning is no failure. -/
theorem yields_pushWarning (code message : String) (node : SyntaxNode)
    (remediation : Option String) :
    Yields Failed (pushWarning code message node remediation) fun _ => True :=
  Yields.modify fun _ ⟨d, hd, herror⟩ => ⟨d, List.mem_append_left _ hd, herror⟩

/-- An unsupported expression is a failure. -/
theorem yields_unsupportedExpr (expr : SyntaxExpr) (code message : String)
    (remediation : Option String) (Q : BoundExpr → Prop) :
    Yields Failed (unsupportedExpr expr code message remediation) Q :=
  Yields.bind (yields_pushError code message expr.node remediation fun _ => False)
    fun _ => Yields.pure False.elim

/-- A new parameter has no property to keep. -/
theorem yields_allocateParameter (reference : ParameterRef) :
    Yields Failed (allocateParameter reference) fun _ => True := by
  unfold allocateParameter
  split
  · exact fun s => ⟨id, .inr trivial⟩
  · exact Yields.pure trivial

/-- The use of a parameter has none either. -/
theorem yields_recordParameterUse (reference : ParameterRef) (expected : ExpectedType)
    (node : SyntaxNode) : Yields Failed (recordParameterUse reference expected node)
      fun _ => True :=
  Yields.modify fun _ => id

/-- The check of `WITH RECURSIVE` has none either. -/
theorem yields_rejectRecursive (withRecursive : Bool) (node : SyntaxNode) :
    Yields Failed (rejectRecursive withRecursive node) fun _ => True := by
  unfold rejectRecursive
  split
  · exact yields_pushError _ _ _ _ _
  · exact Yields.pure trivial

/-- A test for `NULL` has none either. -/
theorem yields_recordNullTest (expr : SyntaxExpr) :
    Yields Failed (recordNullTest expr) fun _ => True := by
  unfold recordNullTest
  split
  · exact Yields.bind (yields_allocateParameter _) fun _ =>
      (yields_recordParameterUse _ _ _).mono fun _ _ _ => trivial
  · exact Yields.pure trivial

/-- The warning about a function of one backend has none either. -/
theorem yields_warnBackendSpecific (signature : FunctionSignature) (function : FunctionRef)
    (node : SyntaxNode) : Yields Failed (warnBackendSpecific signature function node)
      fun _ => True := by
  unfold warnBackendSpecific
  split
  · exact yields_pushWarning _ _ _ _
  · exact Yields.pure trivial

/-- The warnings about clauses of one backend have none either. -/
theorem yields_warnBackendClauses : ∀ clauses : List BackendClause,
    Yields Failed (warnBackendClauses clauses) fun _ => True
  | [] => Yields.pure trivial
  | .clickHouseSettings _ _ :: clauses => Yields.bind (yields_pushWarning _ _ _ _) fun _ =>
      (yields_warnBackendClauses clauses).mono fun _ _ _ => trivial
  | .clickHouseFormat _ _ :: clauses => Yields.bind (yields_pushWarning _ _ _ _) fun _ =>
      (yields_warnBackendClauses clauses).mono fun _ _ _ => trivial

/-- The check of a subquery's fields has none either. -/
theorem yields_subquerySingleField (node : SyntaxNode) (subquery : BoundQueryPlan)
    (code text : String) : Yields Failed (subquerySingleField node subquery code text)
      fun _ => True := by
  unfold subquerySingleField
  split
  · exact Yields.pure trivial
  · exact Yields.bind (yields_pushError _ _ _ _ fun _ => True) fun _ => Yields.pure fun _ => trivial

/-- The branches of a union have as many fields, and it returns the unified ones. -/
theorem yields_unifyUnionSchema (left right : ResultSchema) (node : SyntaxNode) :
    Yields Failed (unifyUnionSchema left right node) fun schema =>
      left.fields.length = right.fields.length ∧ schema = unionSchema left right := by
  unfold unifyUnionSchema
  split
  · exact Yields.bind (yields_pushError _ _ _ _ fun _ => False) fun _ => Yields.pure False.elim
  · rename_i hlength
    exact Yields.pure ⟨not_not.mp hlength, rfl⟩

/-- A wildcard is a projection item of the scope. -/
theorem yields_bindWildcard (M : BindMotive) (scope : Scope) (qualifier : Option String)
    (node nd : SyntaxNode) :
    Yields Failed (bindWildcard scope qualifier node) fun fields =>
      M.Item scope (.wildcard qualifier fields nd) := by
  unfold bindWildcard
  split
  · exact Yields.pure (.all nd)
  · split
    · rename_i hfields
      exact Yields.pure (.qualified _ _ nd hfields)
    · exact Yields.bind (yields_pushError _ _ _ _ fun _ => False) fun _ => Yields.pure False.elim

/-- Only a column is bound to a column, and to one of its name. -/
theorem column_bindExpr (context : BinderContext) (scope : Scope) (outer : Option Scope)
    (expected : ExpectedType)
    (expr : SyntaxExpr) : Returns (bindExpr context scope outer expected expr) fun bound =>
      ∀ column, bound.kind = .column column → expressionName expr = column.name := by
  -- Only a column reference and its errors can return a column, so every other kind is refuted by
  -- its constructor.
  have hother : ∀ {bound : BoundExpr}, (∀ column, bound.kind ≠ .column column) →
      Returns (pure bound : BindM BoundExpr) fun bound =>
        ∀ column, bound.kind = .column column → expressionName expr = column.name :=
    fun hbound => Returns.pure fun column hkind => absurd hkind (hbound column)
  have herror : ∀ code message remediation,
      Returns (unsupportedExpr expr code message remediation) fun bound =>
      ∀ column, bound.kind = .column column → expressionName expr = column.name :=
    fun _ _ _ => Returns.bind fun _ => hother fun _ hkind => by cases hkind
  obtain ⟨kind, node⟩ := expr
  cases kind with
  -- A resolved column keeps the name it was referred to by.
  | column relation name =>
    rw [bindExpr, bindColumn]
    split
    · refine Returns.pure fun column hkind => ?_
      cases hkind
      rfl
    · exact herror _ _ _
    · split
      · exact herror _ _ _
      · exact herror _ _ _
  | literal value =>
    rw [bindExpr]
    exact hother fun _ hkind => by simp [bindLiteral] at hkind
  | function call =>
    cases call
    rw [bindExpr, bindFunction]
    split
    · exact herror _ _ _
    · repeat refine Returns.bind fun _ => ?_
      exact hother fun _ hkind => by cases hkind
  | unsupported description =>
    rw [bindExpr]
    exact herror _ _ _
  | _ =>
    rw [bindExpr]
    repeat refine Returns.bind fun _ => ?_
    exact hother fun _ hkind => by cases hkind

section Cases

variable {M : BindMotive} (C : BindCases M) (context : BinderContext)

include C

/-- A column has the property of expressions. -/
theorem yields_bindColumn (scope : Scope) (outer : Option Scope) (expr : SyntaxExpr)
    (relation : Option String) (name : String) :
    Yields Failed (bindColumn context scope outer expr relation name) (M.expr scope) := by
  unfold bindColumn
  split
  · rename_i column hcolumn
    exact Yields.pure (C.column scope relation name column _ hcolumn)
  · exact yields_unsupportedExpr _ _ _ _ _
  · split
    · exact yields_unsupportedExpr _ _ _ _ _
    · exact yields_unsupportedExpr _ _ _ _ _

/-- A table has the property of relations. -/
theorem yields_bindTable (scope : Scope) (ctes : CteScope) (name : NameRef) (alias_ : Option String)
    (node : SyntaxNode) :
    Yields Failed (bindTable context ctes name alias_ node) (M.relation scope) := by
  unfold bindTable
  refine Yields.bind (Q := fun _ => True) (Yields.modify fun s hs => ?_) fun _ => ?_
  · split <;> exact hs
  · split
    · exact Yields.pure fun _ => C.table _ _ _
    · exact Yields.bind (yields_pushError _ _ _ _ fun _ => False) fun _ => Yields.pure False.elim

mutual

/-- Every bound query has the property of queries. -/
theorem yields_query (outer : Option Scope) : ∀ q : SyntaxQuery,
    Yields Failed (bindQuery context outer q) M.query
  | ⟨node, ctes, withRecursive, body, orderBy, limit, offset, backendClauses⟩ => by
    rw [bindQuery]
    refine Yields.bind (yields_rejectRecursive _ _) fun _ => ?_
    refine Yields.bind (yields_ctes [] ctes) fun bound => ?_
    refine Yields.bind (yields_setExpr bound.1 outer body) fun bound => ?_
    refine Yields.bind (yields_orderBys _ none orderBy) fun _ => ?_
    refine Yields.bind (yields_option _ none _ limit) fun _ => ?_
    refine Yields.bind (yields_option _ none _ offset) fun _ => ?_
    refine Yields.bind (yields_warnBackendClauses _) fun _ => ?_
    refine Yields.pure ?_
    intro _ hoffset hlimit horder hbody hctes _
    exact C.query _ hctes hbody horder hlimit hoffset rfl
termination_by structural q => q

/-- Every bound CTE has it, and the schema of its query. -/
theorem yields_ctes (cteScope : CteScope) : ∀ ctes : List SyntaxCte,
    Yields Failed (bindCtes context cteScope ctes) fun p => ∀ c ∈ p.2,
      M.query c.query ∧ c.resultSchema = cteSchema c.columns c.query.resultSchema
  | [] => by
    rw [bindCtes]
    exact Yields.pure (by simp)
  | ⟨name, columns, query, node⟩ :: ctes => by
    rw [bindCtes]
    refine Yields.bind (yields_query none query) fun _ => ?_
    refine Yields.bind (yields_ctes _ ctes) fun _ => ?_
    exact Yields.pure fun hrest hquery => List.forall_mem_cons.mpr ⟨⟨hquery, rfl⟩, hrest⟩
termination_by structural ctes => ctes

/-- Every bound query body has its property. -/
theorem yields_setExpr (cteScope : CteScope) (outer : Option Scope) : ∀ body : SyntaxSetExpr,
    Yields Failed (bindSetExpr context cteScope outer body) M.setExpr
  | .select select => by
    rw [bindSetExpr]
    refine Yields.bind (yields_select cteScope outer select) fun _ => ?_
    exact Yields.pure id
  | .unionAll left right node => by
    rw [bindSetExpr]
    refine Yields.bind (yields_setExpr cteScope outer left) fun _ => ?_
    refine Yields.bind (yields_setExpr cteScope outer right) fun _ => ?_
    refine Yields.bind (yields_unifyUnionSchema _ _ _) fun _ => ?_
    refine Yields.pure ?_
    rintro ⟨hlength, rfl⟩ hright hleft
    exact C.unionAll _ _ _ hleft hright hlength
  | .unsupported description node => by
    rw [bindSetExpr]
    exact Yields.bind (yields_pushError _ _ _ _ fun _ => False) fun _ => Yields.pure False.elim
termination_by structural body => body

/-- Every bound select has its property. -/
theorem yields_select (cteScope : CteScope) (outer : Option Scope) : ∀ select : SyntaxSelect,
    Yields Failed (bindSelect context cteScope outer select) fun s => M.setExpr (.select s)
  | ⟨distinct, projection, from_, selection, groupBy, having, node⟩ => by
    rw [bindSelect]
    refine Yields.bind (yields_tables cteScope outer {} from_) fun bound => ?_
    refine Yields.bind (yields_option _ outer _ selection) fun _ => ?_
    refine Yields.bind (yields_exprs _ outer _ groupBy) fun _ => ?_
    refine Yields.bind (yields_option _ outer _ having) fun _ => ?_
    refine Yields.bind (yields_projections bound.1 outer projection) fun _ => ?_
    refine Yields.pure ?_
    rintro ⟨hitems, hfields⟩ hhaving hgroup hselection ⟨hscope, hfrom⟩
    rw [hscope] at hitems hhaving hgroup hselection
    exact C.select _ hfrom hselection hgroup hhaving hitems (by rw [hfields])
termination_by structural select => select

/-- Every bound `FROM` clause has its property, and its tables make the scope. -/
theorem yields_tables (cteScope : CteScope) (outer : Option Scope) (scope : Scope) :
    ∀ tables : List SyntaxTableWithJoins,
    Yields Failed (bindTables context cteScope outer scope tables) fun p =>
      p.1 = p.2.foldl Scope.mergeTable scope ∧ M.From scope p.2
  | [] => by
    rw [bindTables]
    exact Yields.pure ⟨rfl, .nil scope⟩
  | table :: tables => by
    rw [bindTables]
    refine Yields.bind (yields_tableWithJoins cteScope outer scope table) fun t => ?_
    refine Yields.bind (yields_tables cteScope outer (scope.mergeTable t) tables) fun _ => ?_
    exact Yields.pure fun ⟨hscope, hrest⟩ htable => ⟨hscope, .cons scope t _ htable hrest⟩
termination_by structural tables => tables

/-- Every bound projection has its property, and returns the fields of its items. -/
theorem yields_projections (scope : Scope) (outer : Option Scope) :
    ∀ items : List SyntaxProjectionItem,
    Yields Failed (bindProjections context scope outer items) fun p =>
      (∀ item ∈ p.1, M.Item scope item) ∧ p.2 = p.1.flatMap itemFields
  | [] => by
    rw [bindProjections]
    exact Yields.pure ⟨by simp, rfl⟩
  | .wildcard qualifier node :: items => by
    rw [bindProjections]
    refine Yields.bind (yields_bindWildcard M scope qualifier node node) fun _ => ?_
    refine Yields.bind (yields_projections scope outer items) fun _ => ?_
    exact Yields.pure fun ⟨hitems, hfields⟩ hitem =>
      ⟨List.forall_mem_cons.mpr ⟨hitem, hitems⟩, by rw [hfields]; rfl⟩
  | .expr ⟨expr, alias_, node⟩ :: items => by
    rw [bindProjections]
    -- The field of a projection is named after its column, which is what `column_bindExpr` says.
    refine Yields.bind
      ((yields_expr scope outer _ expr).and (column_bindExpr context scope outer _ expr))
      fun bound => ?_
    refine Yields.bind (yields_projections scope outer items) fun _ => ?_
    refine Yields.pure ?_
    rintro ⟨hitems, hfields⟩ ⟨hexpr, hcolumn⟩
    refine ⟨List.forall_mem_cons.mpr ⟨.expr _ hexpr rfl rfl ⟨?_, ?_⟩, hitems⟩, by rw [hfields]; rfl⟩
    · rintro _ rfl
      rfl
    · rintro column rfl hkind
      exact hcolumn column hkind
  | .unsupported description node :: items => by
    rw [bindProjections]
    -- An unsupported item is an error, after which nothing is left to show.
    refine Yields.bind (yields_pushError _ _ _ _ fun _ => False) fun _ => ?_
    refine Yields.bind (yields_projections scope outer items) fun _ => ?_
    exact Yields.pure fun _ => False.elim
termination_by structural items => items

/-- Every bound table with joins has its property. -/
theorem yields_tableWithJoins (cteScope : CteScope) (outer : Option Scope) (current : Scope) :
    ∀ table : SyntaxTableWithJoins,
    Yields Failed (bindTableWithJoins context cteScope outer current table) (M.table current)
  | ⟨relation, joins, node⟩ => by
    rw [bindTableWithJoins]
    refine Yields.bind (yields_relation cteScope current relation) fun _ => ?_
    refine Yields.bind (yields_joins cteScope outer current joins _) fun _ => ?_
    exact Yields.pure fun hjoins hrelation =>
      C.endJoins _ _ _ (hjoins (C.startJoins _ _ hrelation))
termination_by structural table => table

/-- Joins keep the property of those before them. -/
theorem yields_joins (cteScope : CteScope) (outer : Option Scope) (current : Scope) :
    ∀ (joins : List SyntaxJoin) (state : JoinState),
    Yields Failed (bindJoins context cteScope outer state joins) fun final =>
      M.joins current state → M.joins current final
  | [], state => by
    rw [bindJoins]
    exact Yields.pure id
  | ⟨kind, relation, on, node⟩ :: joins, state => by
    rw [bindJoins]
    refine Yields.bind (yields_relation cteScope state.joinScope relation) fun _ => ?_
    refine Yields.bind (yields_option _ outer _ on) fun _ => ?_
    exact (yields_joins cteScope outer current joins _).mono fun _ hfinal hon hrelation hstate =>
      hfinal (C.addJoin _ _ _ _ _ _ hstate hrelation hon)
termination_by structural joins => joins

/-- Every bound relation has its property. -/
theorem yields_relation (cteScope : CteScope) (current : Scope) : ∀ relation : SyntaxRelation,
    Yields Failed (bindRelation context cteScope current relation) (M.relation current)
  | .table name alias_ node => by
    rw [bindRelation]
    exact yields_bindTable C context current cteScope name alias_ node
  | .derived query alias_ node => by
    rw [bindRelation]
    refine Yields.bind (yields_query (some current) query) fun _ => ?_
    exact Yields.pure fun hquery => C.derived _ _ _ _ hquery
  | .nestedJoin table alias_ node => by
    rw [bindRelation]
    refine Yields.bind (yields_tableWithJoins cteScope none current table) fun _ => ?_
    exact Yields.pure fun htable => C.nestedJoin _ _ _ _ htable
  | .unsupported description node => by
    rw [bindRelation]
    exact Yields.bind (yields_pushError _ _ _ _ fun _ => False) fun _ => Yields.pure False.elim
termination_by structural relation => relation

/-- Every bound sort key has the property of expressions. -/
theorem yields_orderBys (scope : Scope) (outer : Option Scope) : ∀ orders : List SyntaxOrderByExpr,
    Yields Failed (bindOrderBys context scope outer orders) fun orders =>
      ∀ o ∈ orders, M.expr scope o.expr
  | [] => by
    rw [bindOrderBys]
    exact Yields.pure (by simp)
  | ⟨expr, asc, nullsFirst, node⟩ :: orders => by
    rw [bindOrderBys, bindOrderBy]
    refine Yields.bind (Q := fun o => M.expr scope o.expr)
      (Yields.bind (yields_expr scope outer _ expr) fun _ => Yields.pure id) fun _ => ?_
    refine Yields.bind (yields_orderBys scope outer orders) fun _ => ?_
    exact Yields.pure fun hrest horder => List.forall_mem_cons.mpr ⟨horder, hrest⟩
termination_by structural orders => orders

/-- Every bound expression has its property. -/
theorem yields_expr (scope : Scope) (outer : Option Scope) (expected : ExpectedType) :
    ∀ expr : SyntaxExpr, Yields Failed (bindExpr context scope outer expected expr) (M.expr scope)
  -- One case per constructor: the parts are bound in the order of the source, and what is known of
  -- them arrives last part first.
  | ⟨.column relation name, node⟩ => by
    rw [bindExpr]
    exact yields_bindColumn C context scope outer _ relation name
  | ⟨.literal value, node⟩ => by
    rw [bindExpr]
    exact Yields.pure (C.literal scope value node)
  | ⟨.parameter reference, node⟩ => by
    rw [bindExpr]
    refine Yields.bind (yields_allocateParameter _) fun _ => ?_
    refine Yields.bind (yields_recordParameterUse _ _ _) fun _ => ?_
    exact Yields.pure fun _ _ => C.parameter _ _ _ _ _
  | ⟨.unary op expr, node⟩ => by
    rw [bindExpr]
    refine Yields.bind (yields_expr scope outer _ expr) fun _ => ?_
    exact Yields.pure fun hexpr => C.unary _ _ _ _ _ _ hexpr
  | ⟨.binary op left right, node⟩ => by
    rw [bindExpr]
    refine Yields.bind (yields_expr scope outer _ left) fun _ => ?_
    refine Yields.bind (yields_expr scope outer _ right) fun _ => ?_
    exact Yields.pure fun hright hleft => C.binary _ _ _ _ _ _ _ hleft hright
  | ⟨.function call, node⟩ => by
    rw [bindExpr]
    exact yields_function scope outer node call
  | ⟨.case operand whenThen elseResult, node⟩ => by
    rw [bindExpr]
    refine Yields.bind (yields_option scope outer _ operand) fun _ => ?_
    refine Yields.bind (yields_whenThens scope outer whenThen) fun _ => ?_
    refine Yields.bind (yields_option scope outer _ elseResult) fun _ => ?_
    exact Yields.pure fun helse hwhen hoperand => C.case _ _ _ _ _ _ _ hoperand hwhen helse
  | ⟨.cast expr dataType, node⟩ => by
    rw [bindExpr]
    refine Yields.bind (yields_expr scope outer _ expr) fun _ => ?_
    exact Yields.pure fun hexpr => C.cast _ _ _ _ _ _ hexpr
  | ⟨.between expr low high negated, node⟩ => by
    rw [bindExpr]
    refine Yields.bind (yields_expr scope outer _ expr) fun _ => ?_
    refine Yields.bind (yields_expr scope outer _ low) fun _ => ?_
    refine Yields.bind (yields_expr scope outer _ high) fun _ => ?_
    exact Yields.pure fun hhigh hlow hexpr => C.between _ _ _ _ _ _ _ _ hexpr hlow hhigh
  | ⟨.inList expr list negated, node⟩ => by
    rw [bindExpr]
    refine Yields.bind (yields_expr scope outer _ expr) fun _ => ?_
    refine Yields.bind (yields_exprs scope outer _ list) fun _ => ?_
    exact Yields.pure fun hlist hexpr => C.inList _ _ _ _ _ _ _ hexpr hlist
  -- A subquery is bound with the scope around it as its outer scope.
  | ⟨.inSubquery expr subquery negated, node⟩ => by
    rw [bindExpr]
    refine Yields.bind (yields_expr scope outer _ expr) fun _ => ?_
    refine Yields.bind (yields_query (some scope) subquery) fun _ => ?_
    refine Yields.bind (yields_subquerySingleField _ _ _ _) fun _ => ?_
    exact Yields.pure fun _ hquery hexpr => C.inSubquery _ _ _ _ _ _ _ hexpr hquery
  | ⟨.scalarSubquery subquery, node⟩ => by
    rw [bindExpr]
    refine Yields.bind (yields_query (some scope) subquery) fun _ => ?_
    refine Yields.bind (yields_subquerySingleField _ _ _ _) fun _ => ?_
    exact Yields.pure fun _ hquery => C.scalarSubquery _ _ _ _ _ hquery
  | ⟨.exists subquery, node⟩ => by
    rw [bindExpr]
    refine Yields.bind (yields_query (some scope) subquery) fun _ => ?_
    exact Yields.pure fun hquery => C.exists_ _ _ _ _ _ hquery
  | ⟨.like expr pattern negated caseInsensitive, node⟩ => by
    rw [bindExpr]
    refine Yields.bind (yields_expr scope outer _ expr) fun _ => ?_
    refine Yields.bind (yields_expr scope outer _ pattern) fun _ => ?_
    exact Yields.pure fun hpattern hexpr => C.like _ _ _ _ _ _ _ _ hexpr hpattern
  -- `IS NULL` records a test of a parameter before its operand is bound.
  | ⟨.isNull expr negated, node⟩ => by
    rw [bindExpr]
    refine Yields.bind (yields_recordNullTest expr) fun _ => ?_
    refine Yields.bind (yields_expr scope outer _ expr) fun _ => ?_
    exact Yields.pure fun hexpr _ => C.isNull _ _ _ _ _ _ hexpr
  | ⟨.tuple items, node⟩ => by
    rw [bindExpr]
    refine Yields.bind (yields_exprs scope outer _ items) fun _ => ?_
    exact Yields.pure fun hitems => C.tuple _ _ _ _ _ hitems
  | ⟨.array items, node⟩ => by
    rw [bindExpr]
    refine Yields.bind (yields_exprs scope outer _ items) fun _ => ?_
    exact Yields.pure fun hitems => C.array _ _ _ _ _ hitems
  | ⟨.unsupported description, node⟩ => by
    rw [bindExpr]
    exact yields_unsupportedExpr _ _ _ _ _
termination_by structural expr => expr

/-- Every bound list of expressions has it. -/
theorem yields_exprs (scope : Scope) (outer : Option Scope) (expected : ExpectedType) :
    ∀ exprs : List SyntaxExpr, Yields Failed (bindExprs context scope outer expected exprs)
      fun exprs => ∀ x ∈ exprs, M.expr scope x
  | [] => by
    rw [bindExprs]
    exact Yields.pure (by simp)
  | expr :: exprs => by
    rw [bindExprs]
    refine Yields.bind (yields_expr scope outer expected expr) fun _ => ?_
    refine Yields.bind (yields_exprs scope outer expected exprs) fun _ => ?_
    exact Yields.pure fun hrest hexpr => List.forall_mem_cons.mpr ⟨hexpr, hrest⟩
termination_by structural exprs => exprs

/-- Every bound expression, if there is one, has it. -/
theorem yields_option (scope : Scope) (outer : Option Scope) (expected : ExpectedType) :
    ∀ expr : Option SyntaxExpr, Yields Failed (bindExprOption context scope outer expected expr)
      fun expr => ∀ x ∈ expr, M.expr scope x
  | none => by
    rw [bindExprOption]
    exact Yields.pure (by simp)
  | some expr => by
    rw [bindExprOption]
    refine Yields.bind (yields_expr scope outer expected expr) fun _ => ?_
    exact Yields.pure fun hexpr => by simpa using hexpr
termination_by structural expr => expr

/-- The branches of every bound `CASE` have it. -/
theorem yields_whenThens (scope : Scope) (outer : Option Scope) : ∀ pairs : List SyntaxWhenThen,
    Yields Failed (bindWhenThens context scope outer pairs) fun pairs =>
      ∀ w ∈ pairs, M.expr scope w.condition ∧ M.expr scope w.result
  | [] => by
    rw [bindWhenThens]
    exact Yields.pure (by simp)
  | ⟨condition, result⟩ :: pairs => by
    rw [bindWhenThens]
    refine Yields.bind (yields_expr scope outer _ condition) fun _ => ?_
    refine Yields.bind (yields_expr scope outer _ result) fun _ => ?_
    refine Yields.bind (yields_whenThens scope outer pairs) fun _ => ?_
    exact Yields.pure fun hrest hresult hcondition =>
      List.forall_mem_cons.mpr ⟨⟨hcondition, hresult⟩, hrest⟩
termination_by structural pairs => pairs

/-- Every bound call has it. -/
theorem yields_function (scope : Scope) (outer : Option Scope) (node : SyntaxNode) :
    ∀ call : SyntaxFunctionCall,
    Yields Failed (bindFunction context scope outer node call) (M.expr scope)
  | ⟨function, args, distinct, filter, over_⟩ => by
    rw [bindFunction]
    split
    · exact yields_unsupportedExpr _ _ _ _ _
    · rename_i signature _
      refine Yields.bind (yields_args scope outer signature 0 args) fun _ => ?_
      refine Yields.bind (yields_option scope outer _ filter) fun _ => ?_
      refine Yields.bind (yields_window scope outer over_) fun _ => ?_
      refine Yields.bind (yields_warnBackendSpecific _ _ _) fun _ => ?_
      exact Yields.pure fun _ hover hfilter hargs => C.function _ _ _ _ _ hargs hfilter hover
termination_by structural call => call

/-- The bound arguments of a call have it. -/
theorem yields_args (scope : Scope) (outer : Option Scope) (signature : FunctionSignature)
    (index : Nat) : ∀ args : List SyntaxExpr,
    Yields Failed (bindArgs context scope outer signature index args)
      fun args => ∀ x ∈ args, M.expr scope x
  | [] => by
    rw [bindArgs]
    exact Yields.pure (by simp)
  | arg :: args => by
    rw [bindArgs]
    refine Yields.bind (yields_expr scope outer _ arg) fun _ => ?_
    refine Yields.bind (yields_args scope outer signature (index + 1) args) fun _ => ?_
    exact Yields.pure fun hrest harg => List.forall_mem_cons.mpr ⟨harg, hrest⟩
termination_by structural args => args

/-- The expressions of every bound window have it. -/
theorem yields_window (scope : Scope) (outer : Option Scope) : ∀ over_ : Option WindowSpec,
    Yields Failed (bindWindow context scope outer over_) fun over_ => ∀ w ∈ over_,
      (∀ x ∈ w.partitionBy, M.expr scope x) ∧ ∀ o ∈ w.orderBy, M.expr scope o.expr
  | none => by
    rw [bindWindow]
    exact Yields.pure (by simp)
  | some ⟨partitionBy, orderBy, node⟩ => by
    rw [bindWindow]
    refine Yields.bind (yields_exprs scope outer _ partitionBy) fun _ => ?_
    refine Yields.bind (yields_orderBys scope outer orderBy) fun _ => ?_
    exact Yields.pure fun horder hpartition => by simpa using ⟨hpartition, horder⟩
termination_by structural over_ => over_

end

/-- The plan of an accepted query has the property. -/
theorem BindCases.boundPlan {query : SyntaxQuery} (h : Accepted context query) :
    M.query (boundPlan context query) := by
  refine (yields_query C context none query).result ?_
  rintro ⟨d, hd, herror⟩
  rw [h d hd] at herror
  cases herror

end Cases

end QueryFabric.Bind
