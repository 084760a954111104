import QueryFabric.Bind.Places
import QueryFabric.Catalog.Maps
import QueryFabric.Ir.Outline
import QueryFabric.Lib.Tracks

/-!
# What binding does with the references of a query

`Binds` relates the outline of a query to the references of the plan that it is bound to: a column
is looked up in the scope of its place, and a placeholder takes a parameter from the binder's
counter, twice where `IS NULL` tests it. `binds_query` says that binding a query without an error is
such a relation, so that what holds of the references of a plan is an induction over `Binds`.
-/

namespace QueryFabric.Bind

open Lib

/-- What the binder knows of parameters: the position of the next anonymous one, and those that were
used. -/
structure Allocation where
  next : Nat
  used : List ParameterRef

/-- What the binder has allocated. -/
def Binder.allocation (binder : Binder) : Allocation :=
  { next := binder.nextAutoPosition, used := binder.parameterConstraints.map Prod.fst }

namespace Allocation

/-- The parameter of a placeholder. -/
def reference (a : Allocation) : ParameterRef → ParameterRef
  | .positional 0 => .positional a.next
  | reference => reference

/-- What is known after a placeholder was allocated and used. -/
def take (a : Allocation) (spelled : ParameterRef) : Allocation where
  next := if spelled = .positional 0 then (a.next + 1) % 2 ^ 32 else a.next
  used := setInsert parameterRefLt (a.reference spelled) a.used

end Allocation

/-- Positions come before names, each in their own order. -/
theorem isKeyOrder_parameterRefLt : IsKeyOrder parameterRefLt := isKeyOrder_parameterRef

/-- Binding takes references from one allocation to another, and places them in the order of the
text. -/
inductive Binds : Allocation → Outline Reference → List Placed → Allocation → Prop
  | nil (a : Allocation) : Binds a .nil [] a
  | column (a : Allocation) (scope : Scope) (relation : Option String) (name : String)
    (column : ResolvedColumn)
      (hcolumn : scope.resolveColumn relation name = .local column) :
      Binds a (.leaf (.column relation name))
        [.column scope ⟨column.relation, name⟩ column.field.dataType] a
  | parameter (a : Allocation) (spelled : ParameterRef) :
      Binds a (.leaf (.parameter spelled false)) [.parameter (a.reference spelled)] (a.take spelled)
  | tested (a : Allocation) (spelled : ParameterRef) :
      Binds a (.leaf (.parameter spelled true)) [.parameter ((a.take spelled).reference spelled)]
        ((a.take spelled).take spelled)
  | append {a b c : Allocation} {first second : Outline Reference} {placed placed' : List Placed}
      (hfirst : Binds a first placed b) (hsecond : Binds b second placed' c) :
      Binds a (.append first second) (placed ++ placed') c
  | select {a b c : Allocation} {projection clauses : Outline Reference}
    {placed placed' : List Placed}
      (hclauses : Binds a clauses placed' b) (hprojection : Binds b projection placed c) :
      Binds a (.select projection clauses) (placed ++ placed') c

/-- A computation of the binder relates the allocations before and after it to its result. -/
abbrev BindTracks {α : Type} (m : BindM α) (R : Allocation → α → Allocation → Prop) : Prop :=
  Tracks Failed Binder.allocation m R

/-- The parameters that were used stay in order. -/
theorem Binds.sorted {a b : Allocation} {outline : Outline Reference} {placed : List Placed}
    (h : Binds a outline placed b) (ha : a.used.Pairwise (parameterRefLt · · = true)) :
    b.used.Pairwise (parameterRefLt · · = true) := by
  have htake : ∀ {a : Allocation} (spelled : ParameterRef),
    a.used.Pairwise (parameterRefLt · · = true) →
      (a.take spelled).used.Pairwise (parameterRefLt · · = true) := fun _ ha =>
    pairwise_setInsert isKeyOrder_parameterRefLt _ ha
  induction h with
  | nil a => exact ha
  | column a scope relation name column hcolumn => exact ha
  | parameter a spelled => exact htake spelled ha
  | tested a spelled => exact htake spelled (htake spelled ha)
  | append hfirst hsecond ih₁ ih₂ => exact ih₂ (ih₁ ha)
  | select hclauses hprojection ih₁ ih₂ => exact ih₂ (ih₁ ha)

/-- What was used stays used, and the parameters that are placed were used. -/
theorem Binds.mem_used {a b : Allocation} {outline : Outline Reference} {placed : List Placed}
    (h : Binds a outline placed b) :
    (∀ reference ∈ a.used, reference ∈ b.used) ∧
      ∀ reference, Placed.parameter reference ∈ placed → reference ∈ b.used := by
  -- Taking a reference adds that one and no other.
  have htake : ∀ (a : Allocation) (spelled reference : ParameterRef),
    reference ∈ (a.take spelled).used ↔
      reference = a.reference spelled ∨ reference ∈ a.used := fun a spelled reference =>
    mem_setInsert isKeyOrder_parameterRefLt.trichotomy _ _ _
  -- The references used only grow, and those that are placed were taken on the way.
  induction h with
  | nil a => exact ⟨fun _ h => h, fun _ h => by cases h⟩
  | column a scope relation name column hcolumn => exact ⟨fun _ h => h, fun _ h => by simp at h⟩
  | parameter a spelled =>
    refine ⟨fun reference h => (htake a spelled reference).mpr (.inr h), fun reference h => ?_⟩
    simp only [List.mem_singleton, Placed.parameter.injEq] at h
    exact (htake a spelled reference).mpr (.inl h)
  | tested a spelled =>
    refine ⟨fun reference h => (htake _ spelled reference).mpr
      (.inr ((htake a spelled reference).mpr (.inr h))),
      fun reference h => ?_⟩
    simp only [List.mem_singleton, Placed.parameter.injEq] at h
    exact (htake _ spelled reference).mpr (.inl h)
  | append hfirst hsecond ih₁ ih₂ =>
    refine ⟨fun reference h => ih₂.1 reference (ih₁.1 reference h), fun reference h => ?_⟩
    obtain h | h := List.mem_append.mp h
    · exact ih₂.1 reference (ih₁.2 reference h)
    · exact ih₂.2 reference h
  | select hclauses hprojection ih₁ ih₂ =>
    refine ⟨fun reference h => ih₂.1 reference (ih₁.1 reference h), fun reference h => ?_⟩
    obtain h | h := List.mem_append.mp h
    · exact ih₂.2 reference h
    · exact ih₂.1 reference (ih₁.2 reference h)

/-! ## The binder's own steps -/

/-- After an error everything holds. -/
theorem tracks_pushError (code message : String) (node : SyntaxNode) (remediation : Option String)
    (R : Allocation → Unit → Allocation → Prop) :
    BindTracks (pushError code message node remediation) R :=
  Tracks.fail (fun _ => ⟨_, List.mem_append_right _ List.mem_cons_self, rfl⟩) R

/-- A step that ends in an error returns nothing that could break a relation. -/
theorem tracks_refused {α : Type} (code message : String) (node : SyntaxNode)
    (remediation : Option String) (value : α) (R : Allocation → α → Allocation → Prop) :
    BindTracks (pushError code message node remediation >>= fun _ => pure value) R :=
  Tracks.bind (tracks_pushError code message node remediation fun _ _ _ => False) fun _ =>
    Tracks.pure fun _ _ h => h.elim

/-- A warning allocates nothing. -/
theorem tracks_pushWarning (code message : String) (node : SyntaxNode)
    (remediation : Option String) :
    BindTracks (pushWarning code message node remediation) fun t _ t' => t' = t :=
  Tracks.modify (fun _ ⟨d, hd, herror⟩ => ⟨d, List.mem_append_left _ hd, herror⟩) fun _ => rfl

/-- An unsupported expression is a failure. -/
theorem tracks_unsupportedExpr (expr : SyntaxExpr) (code message : String)
    (remediation : Option String) (R : Allocation → BoundExpr → Allocation → Prop) :
    BindTracks (unsupportedExpr expr code message remediation) R :=
  tracks_refused code message expr.node remediation _ R

/-- The check of `WITH RECURSIVE` allocates nothing. -/
theorem tracks_rejectRecursive (withRecursive : Bool) (node : SyntaxNode) :
    BindTracks (rejectRecursive withRecursive node) fun t _ t' => t' = t := by
  unfold rejectRecursive
  split
  · exact tracks_pushError _ _ _ _ _
  · exact Tracks.pure fun _ => rfl

/-- The warning about a function of one backend allocates nothing. -/
theorem tracks_warnBackendSpecific (signature : FunctionSignature) (function : FunctionRef)
    (node : SyntaxNode) :
    BindTracks (warnBackendSpecific signature function node) fun t _ t' => t' = t := by
  unfold warnBackendSpecific
  split
  · exact tracks_pushWarning _ _ _ _
  · exact Tracks.pure fun _ => rfl

/-- The warnings about clauses of one backend allocate nothing. -/
theorem tracks_warnBackendClauses : ∀ clauses : List BackendClause,
    BindTracks (warnBackendClauses clauses) fun t _ t' => t' = t
  | [] => Tracks.pure fun _ => rfl
  | .clickHouseSettings _ _ :: clauses => Tracks.bind (tracks_pushWarning _ _ _ _) fun _ =>
      (tracks_warnBackendClauses clauses).mono fun _ _ _ hrest _ hwarning => hrest.trans hwarning
  | .clickHouseFormat _ _ :: clauses => Tracks.bind (tracks_pushWarning _ _ _ _) fun _ =>
      (tracks_warnBackendClauses clauses).mono fun _ _ _ hrest _ hwarning => hrest.trans hwarning

/-- The check of a subquery's fields allocates nothing. -/
theorem tracks_subquerySingleField (node : SyntaxNode) (subquery : BoundQueryPlan)
    (code text : String) :
    BindTracks (subquerySingleField node subquery code text) fun t _ t' => t' = t := by
  unfold subquerySingleField
  split
  · exact Tracks.pure fun _ => rfl
  · exact tracks_refused _ _ _ _ _ _

/-- The check of a union allocates nothing. -/
theorem tracks_unifyUnionSchema (left right : ResultSchema) (node : SyntaxNode) :
    BindTracks (unifyUnionSchema left right node) fun t _ t' => t' = t := by
  unfold unifyUnionSchema
  split
  · exact tracks_refused _ _ _ _ _ _
  · exact Tracks.pure fun _ => rfl

/-- A wildcard allocates nothing. -/
theorem tracks_bindWildcard (scope : Scope) (qualifier : Option String) (node : SyntaxNode) :
    BindTracks (bindWildcard scope qualifier node) fun t _ t' => t' = t := by
  unfold bindWildcard
  split
  · exact Tracks.pure fun _ => rfl
  · split
    · exact Tracks.pure fun _ => rfl
    · exact tracks_refused _ _ _ _ _ _

/-- A parameter is allocated as its spelling says. -/
theorem tracks_allocateParameter (spelled : ParameterRef) :
    BindTracks (allocateParameter spelled) fun t reference t' =>
      reference = t.reference spelled ∧ t' = { t.take spelled with used := t.used } := by
  unfold allocateParameter
  split
  · exact fun s => ⟨id, .inr ⟨rfl, rfl⟩⟩
  · rename_i hspelled
    refine Tracks.pure fun t => ⟨?_, ?_⟩
    · unfold Allocation.reference
      split
      · exact absurd rfl hspelled
      · rfl
    · rw [Allocation.take, if_neg hspelled]

/-- A use of a parameter is recorded. -/
theorem tracks_recordParameterUse (reference : ParameterRef) (expected : ExpectedType)
    (node : SyntaxNode) :
    BindTracks (recordParameterUse reference expected node) fun t _ t' =>
      t' = { t with used := setInsert parameterRefLt reference t.used } := by
  refine fun s => ⟨id, .inr ?_⟩
  simp only [Binder.allocation, Allocation.mk.injEq]
  exact ⟨rfl, keys_mapInsert _ _ _ _⟩

/-- A placeholder that is allocated and used. -/
theorem tracks_useParameter {α : Type} (spelled : ParameterRef) (expected : ExpectedType)
    (node : SyntaxNode) (f : ParameterRef → BindM α) {R : Allocation → α → Allocation → Prop}
    (hf : ∀ reference, BindTracks (f reference) fun t b t' => ∀ s, reference = s.reference spelled →
      t = s.take spelled → R s b t') :
    BindTracks (do
      let reference ← allocateParameter spelled
      recordParameterUse reference expected node
      f reference) R := by
  refine Tracks.bind (tracks_allocateParameter spelled) fun reference => ?_
  refine Tracks.bind (tracks_recordParameterUse _ _ _) fun _ => ?_
  refine (hf reference).mono fun t b t' h s hused a hallocated => h a hallocated.1 ?_
  rw [hused, hallocated.1, hallocated.2]
  rfl

/-- A test for `NULL` allocates its parameter once more. -/
theorem tracks_recordNullTest (expr : SyntaxExpr) :
    BindTracks (recordNullTest expr) fun t _ t' =>
      t' = (testedParameter? expr).elim t t.take := by
  obtain ⟨kind, node⟩ := expr
  cases kind with
  | parameter spelled =>
    exact tracks_useParameter spelled _ node (fun _ => pure ()) fun _ =>
      Tracks.pure fun _ _ _ h => h
  | _ => exact Tracks.pure fun _ => rfl

/-- A resolved column is resolved without nullability as well. -/
theorem resolveColumn_makeAllNullable {scope : Scope} {relation : Option String} {name : String}
    {column : ResolvedColumn} (h : scope.resolveColumn relation name = .local column) :
    scope.makeAllNullable.resolveColumn relation name =
      .local { column with field := { column.field with nullable := true } } := by
  -- The same entries match, and each match becomes nullable.
  have hmatches : scope.makeAllNullable.entries.flatMap (Scope.entryMatches relation name) =
      (scope.entries.flatMap (Scope.entryMatches relation name)).map fun column =>
        { column with field := { column.field with nullable := true } } := by
    rw [Scope.makeAllNullable, List.flatMap_map, List.map_flatMap]
    congr 1
    funext entry
    by_cases hrelation : relation.all (eqIgnoreAsciiCase entry.bindingName)
    · simp only [Scope.entryMatches, makeSchemaNullable, hrelation, if_true, List.filter_map,
        List.map_map]
      rfl
    · simp only [Scope.entryMatches, hrelation, Bool.false_eq_true, if_false, List.map_nil]
  unfold Scope.resolveColumn at h ⊢
  -- Only a single match is a local column.
  split at h
  · cases h
  · rename_i heq
    cases h
    rw [hmatches, heq]
    rfl
  · cases h

/-- A table binds no reference. -/
theorem tracks_bindTable (context : BinderContext) (ctes : CteScope) (scope : Scope)
    (name : NameRef) (alias_ : Option String) (node : SyntaxNode) :
    BindTracks (bindTable context ctes name alias_ node) fun t r t' =>
      Binds t .nil (relationPlaced scope r) t' := by
  unfold bindTable
  refine Tracks.bind (R := fun t _ t' => t' = t)
    (Tracks.modify (fun s hs => ?_) fun s => ?_) fun _ => ?_
  · split <;> exact hs
  · split <;> rfl
  · split
    · refine Tracks.pure ?_
      rintro t _ rfl
      rw [relationPlaced]
      exact .nil _
    · exact tracks_refused _ _ _ _ _ _

/-- A column binds one reference, in its scope. -/
theorem tracks_bindColumn (context : BinderContext) (scope : Scope) (outer : Option Scope)
    (expr : SyntaxExpr) (relation : Option String) (name : String) :
    BindTracks (bindColumn context scope outer expr relation name) fun t b t' =>
      Binds t (.leaf (.column relation name)) (exprPlaced scope.makeAllNullable b) t' := by
  unfold bindColumn
  split
  · rename_i column hcolumn
    refine Tracks.pure fun t => ?_
    rw [exprPlaced]
    exact .column t _ relation name { column with field := { column.field with nullable := true } }
      (resolveColumn_makeAllNullable hcolumn)
  · exact tracks_unsupportedExpr _ _ _ _ _
  · split
    · exact tracks_unsupportedExpr _ _ _ _ _
    · exact tracks_unsupportedExpr _ _ _ _ _

/-- The references of a table whose joins are being bound. -/
def statePlaced (before : Scope) (state : JoinState) : List Placed :=
  relationPlaced before state.relation ++ joinsPlaced (pushErased before state.relation) state.joins

/-- The scope of a table whose joins are being bound is that of the relations bound so far. -/
def InStep (before : Scope) (state : JoinState) : Prop :=
  pushJoins pushErased (pushErased before state.relation) state.joins =
    state.joinScope.makeAllNullable

/-- A join more keeps the scope in step with its relations. -/
theorem inStep_addJoin {before : Scope} {state : JoinState} (h : InStep before state)
    (kind : JoinKind) (joined : BoundRelation) (on : Option BoundExpr) (nd : SyntaxNode) :
    InStep before (state.addJoin kind joined on nd) := by
  have hpush := pushJoins_addJoin pushErased_makeRelationNullable before state kind joined on nd
  unfold InStep at h ⊢
  rw [hpush, h, makeAllNullable_addJoin]

/-- A join more stands after the others. -/
theorem statePlaced_addJoin {before : Scope} {state : JoinState} (h : InStep before state)
    (kind : JoinKind) (joined : BoundRelation) (on : Option BoundExpr) (nd : SyntaxNode) :
    statePlaced before (state.addJoin kind joined on nd) = statePlaced before state ++
      (relationPlaced state.joinScope.makeAllNullable joined ++
        optionPlaced (state.joinScope.pushRelation joined).makeAllNullable on) := by
  have hscan := scanJoins_addJoin (G := optionPlaced) pushErased_makeRelationNullable
    relationPlaced_makeRelationNullable before state kind joined on nd
  unfold InStep at h
  rw [h] at hscan
  unfold statePlaced
  rw [joinsPlaced_eq_scanJoins, joinsPlaced_eq_scanJoins, hscan, makeAllNullable_pushRelation]

/-- A placeholder that `IS NULL` tests is allocated and used once before it is bound. -/
theorem binds_isNull {a b c : Allocation} {expr : SyntaxExpr} {placed : List Placed}
    (htest : b = (testedParameter? expr).elim a a.take)
    (hexpr : Binds b (exprOutline expr) placed c) :
    Binds a (operandOutline (testedParameter? expr) (exprOutline expr)) placed c := by
  obtain ⟨kind, node⟩ := expr
  cases kind with
  | parameter reference =>
    have hb : b = a.take reference := htest
    rw [exprOutline, hb] at hexpr
    cases hexpr
    exact .tested a reference
  | _ =>
    have hb : b = a := htest
    rw [hb] at hexpr
    exact hexpr

/-! ## Binding -/

section Tracks

variable (context : BinderContext)

mutual

/-- A query binds its references in the order of its outline. -/
theorem tracks_query (outer : Option Scope) : ∀ q : SyntaxQuery,
    BindTracks (bindQuery context outer q) fun t b t' => Binds t (queryOutline q) (queryPlaced b) t'
  | ⟨node, ctes, withRecursive, body, orderBy, limit, offset, backendClauses⟩ => by
    rw [bindQuery, queryOutline]
    refine Tracks.bind (tracks_rejectRecursive _ _) fun _ => ?_
    refine Tracks.bind (tracks_ctes [] ctes) fun bound => ?_
    refine Tracks.bind (tracks_setExpr bound.1 outer body) fun _ => ?_
    refine Tracks.bind (tracks_orderBys _ none orderBy) fun _ => ?_
    refine Tracks.bind (tracks_option _ none _ limit) fun _ => ?_
    refine Tracks.bind (tracks_option _ none _ offset) fun _ => ?_
    refine Tracks.bind (tracks_warnBackendClauses _) fun _ => ?_
    refine Tracks.pure ?_
    rintro _ _ rfl _ hoffset _ hlimit _ horder _ hbody _ hctes _ rfl
    rw [queryPlaced]
    exact .append hctes (.append hbody (.append horder (.append hlimit hoffset)))
termination_by structural q => q

/-- CTEs bind their references. -/
theorem tracks_ctes (cteScope : CteScope) : ∀ ctes : List SyntaxCte,
    BindTracks (bindCtes context cteScope ctes) fun t p t' =>
      Binds t (cteOutlines ctes) (ctesPlaced p.2) t'
  | [] => by
    rw [bindCtes, cteOutlines]
    refine Tracks.pure fun t => ?_
    rw [ctesPlaced]
    exact .nil t
  | ⟨name, columns, query, node⟩ :: ctes => by
    rw [bindCtes, cteOutlines]
    refine Tracks.bind (tracks_query none query) fun _ => ?_
    refine Tracks.bind (tracks_ctes _ ctes) fun _ => ?_
    refine Tracks.pure fun _ _ hrest _ hquery => ?_
    rw [ctesPlaced]
    exact .append hquery hrest
termination_by structural ctes => ctes

/-- A query body binds its references. -/
theorem tracks_setExpr (cteScope : CteScope) (outer : Option Scope) : ∀ body : SyntaxSetExpr,
    BindTracks (bindSetExpr context cteScope outer body) fun t b t' =>
      Binds t (setExprOutline body) (setExprPlaced b) t'
  | .select select => by
    rw [bindSetExpr, setExprOutline]
    refine Tracks.bind (tracks_select cteScope outer select) fun _ => ?_
    refine Tracks.pure fun _ _ hselect => ?_
    rw [setExprPlaced]
    exact hselect
  | .unionAll left right node => by
    rw [bindSetExpr, setExprOutline]
    refine Tracks.bind (tracks_setExpr cteScope outer left) fun _ => ?_
    refine Tracks.bind (tracks_setExpr cteScope outer right) fun _ => ?_
    refine Tracks.bind (tracks_unifyUnionSchema _ _ _) fun _ => ?_
    refine Tracks.pure ?_
    rintro _ _ rfl _ hright _ hleft
    rw [setExprPlaced]
    exact .append hleft hright
  | .unsupported description node => by
    rw [bindSetExpr]
    exact tracks_refused _ _ _ _ _ _
termination_by structural body => body

/-- A select binds the references of its clauses before those of its projection. -/
theorem tracks_select (cteScope : CteScope) (outer : Option Scope) : ∀ select : SyntaxSelect,
    BindTracks (bindSelect context cteScope outer select) fun t b t' =>
      Binds t (selectOutline select) (selectPlaced b) t'
  | ⟨distinct, projection, from_, selection, groupBy, having, node⟩ => by
    rw [bindSelect, selectOutline]
    refine Tracks.bind (tracks_tables cteScope outer {} from_) fun bound => ?_
    refine Tracks.bind (tracks_option _ outer _ selection) fun _ => ?_
    refine Tracks.bind (tracks_exprs _ outer _ groupBy) fun _ => ?_
    refine Tracks.bind (tracks_option _ outer _ having) fun _ => ?_
    refine Tracks.bind (tracks_projections bound.1 outer projection) fun _ => ?_
    refine Tracks.pure ?_
    rintro _ _ hprojection _ hhaving _ hgroup _ hselection _ ⟨hscope, hfrom⟩
    rw [hscope] at hprojection hhaving hgroup hselection
    rw [selectPlaced]
    exact .select (.append hfrom (.append hselection (.append hgroup hhaving))) hprojection
termination_by structural select => select

/-- A `FROM` clause binds its references. -/
theorem tracks_tables (cteScope : CteScope) (outer : Option Scope) (scope : Scope) :
    ∀ tables : List SyntaxTableWithJoins,
    BindTracks (bindTables context cteScope outer scope tables) fun t p t' =>
      p.1 = p.2.foldl Scope.mergeTable scope ∧
        Binds t (tableOutlines tables) (tablesPlaced scope.makeAllNullable p.2) t'
  | [] => by
    rw [bindTables, tableOutlines]
    refine Tracks.pure fun t => ⟨rfl, ?_⟩
    rw [tablesPlaced]
    exact .nil t
  | table :: tables => by
    rw [bindTables, tableOutlines]
    refine Tracks.bind (tracks_tableWithJoins cteScope outer scope table) fun bound => ?_
    refine Tracks.bind (tracks_tables cteScope outer (scope.mergeTable bound) tables) fun _ => ?_
    refine Tracks.pure fun _ _ hrest _ htable => ⟨hrest.1, ?_⟩
    have hmerge : (scope.makeAllNullable.mergeTable bound).makeAllNullable =
        (scope.mergeTable bound).makeAllNullable := by
      rw [makeAllNullable_mergeTable, makeAllNullable_mergeTable, makeAllNullable_idem]
    obtain ⟨relation, joins, node⟩ := bound
    rw [tablesPlaced, hmerge]
    exact .append htable hrest.2
termination_by structural tables => tables

/-- A projection binds its references. -/
theorem tracks_projections (scope : Scope) (outer : Option Scope) :
    ∀ items : List SyntaxProjectionItem,
    BindTracks (bindProjections context scope outer items) fun t p t' =>
      Binds t (projectionOutlines items) (projectionPlaced scope.makeAllNullable p.1) t'
  | [] => by
    rw [bindProjections, projectionOutlines]
    refine Tracks.pure fun t => ?_
    rw [projectionPlaced]
    exact .nil t
  | .wildcard qualifier node :: items => by
    rw [bindProjections, projectionOutlines]
    refine Tracks.bind (tracks_bindWildcard _ _ _) fun _ => ?_
    refine Tracks.bind (tracks_projections scope outer items) fun _ => ?_
    refine Tracks.pure ?_
    -- A wildcard reads no parameter, so only the rest counts.
    rintro _ _ hrest _ rfl
    rw [projectionPlaced]
    exact hrest
  | .expr ⟨expr, alias_, node⟩ :: items => by
    rw [bindProjections, projectionOutlines]
    refine Tracks.bind (tracks_expr scope outer _ expr) fun _ => ?_
    refine Tracks.bind (tracks_projections scope outer items) fun _ => ?_
    refine Tracks.pure fun _ _ hrest _ hexpr => ?_
    rw [projectionPlaced]
    exact .append hexpr hrest
  | .unsupported description node :: items => by
    rw [bindProjections]
    refine Tracks.bind (tracks_pushError _ _ _ _ fun _ _ _ => False) fun _ => ?_
    refine Tracks.bind (tracks_projections scope outer items) fun _ => ?_
    -- The error was pushed, so what follows it does not matter.
    exact Tracks.pure fun _ _ _ _ h => h.elim
termination_by structural items => items

/-- A table with its joins binds its references. -/
theorem tracks_tableWithJoins (cteScope : CteScope) (outer : Option Scope) (current : Scope) :
    ∀ table : SyntaxTableWithJoins,
    BindTracks (bindTableWithJoins context cteScope outer current table) fun t b t' =>
      Binds t (tableOutline table) (relationPlaced current.makeAllNullable b.relation ++
        joinsPlaced (pushErased current.makeAllNullable b.relation) b.joins) t'
  | ⟨relation, joins, node⟩ => by
    rw [bindTableWithJoins, tableOutline]
    refine Tracks.bind (tracks_relation cteScope current relation) fun bound => ?_
    have hstart : InStep current.makeAllNullable ⟨bound, current.pushRelation bound, []⟩ :=
      (makeAllNullable_pushRelation current bound).symm
    refine Tracks.bind (tracks_joins cteScope outer joins _ hstart) fun final => ?_
    refine Tracks.pure ?_
    rintro _ _ ⟨placed, hplaced, hjoins⟩ _ hrelation
    unfold statePlaced at hplaced
    rw [hplaced, joinsPlaced, List.append_nil]
    exact .append hrelation hjoins
termination_by structural table => table

/-- Joins bind their references. -/
theorem tracks_joins (cteScope : CteScope) (outer : Option Scope) {before : Scope} :
    ∀ (joins : List SyntaxJoin) (state : JoinState), InStep before state →
    BindTracks (bindJoins context cteScope outer state joins) fun t final t' =>
      ∃ placed, statePlaced before final = statePlaced before state ++ placed ∧
        Binds t (joinOutlines joins) placed t'
  | [], state, _ => by
    rw [bindJoins, joinOutlines]
    exact Tracks.pure fun t => ⟨[], (List.append_nil _).symm, .nil t⟩
  | ⟨kind, relation, on, node⟩ :: joins, state, hstate => by
    rw [bindJoins, joinOutlines]
    refine Tracks.bind (tracks_relation cteScope state.joinScope relation) fun joined => ?_
    refine Tracks.bind (tracks_option _ outer _ on) fun on => ?_
    refine (tracks_joins cteScope outer joins _ (inStep_addJoin hstate kind joined on node)).mono ?_
    rintro _ final _ ⟨placed, hplaced, hjoins⟩ _ hon _ hrelation
    refine ⟨_, ?_, .append hrelation (.append hon hjoins)⟩
    rw [hplaced, statePlaced_addJoin hstate]
    simp only [List.append_assoc]
termination_by structural joins => joins

/-- A relation binds its references. -/
theorem tracks_relation (cteScope : CteScope) (current : Scope) : ∀ relation : SyntaxRelation,
    BindTracks (bindRelation context cteScope current relation) fun t b t' =>
      Binds t (relationOutline relation) (relationPlaced current.makeAllNullable b) t'
  | .table name alias_ node => by
    rw [bindRelation, relationOutline]
    exact tracks_bindTable context cteScope _ name alias_ node
  | .derived query alias_ node => by
    rw [bindRelation, relationOutline]
    refine Tracks.bind (tracks_query (some current) query) fun _ => ?_
    refine Tracks.pure fun _ _ hquery => ?_
    rw [relationPlaced]
    exact hquery
  | .nestedJoin table alias_ node => by
    rw [bindRelation, relationOutline]
    refine Tracks.bind (tracks_tableWithJoins cteScope none current table) fun bound => ?_
    refine Tracks.pure fun _ _ htable => ?_
    obtain ⟨relation, joins, node⟩ := bound
    rw [relationPlaced]
    exact htable
  | .unsupported description node => by
    rw [bindRelation]
    exact tracks_refused _ _ _ _ _ _
termination_by structural relation => relation

/-- An `ORDER BY` binds its references. -/
theorem tracks_orderBys (scope : Scope) (outer : Option Scope) : ∀ orders : List SyntaxOrderByExpr,
    BindTracks (bindOrderBys context scope outer orders) fun t b t' =>
      Binds t (orderByOutlines orders) (orderByPlaced scope.makeAllNullable b) t'
  | [] => by
    rw [bindOrderBys, orderByOutlines]
    refine Tracks.pure fun t => ?_
    rw [orderByPlaced]
    exact .nil t
  | ⟨expr, asc, nullsFirst, node⟩ :: orders => by
    rw [bindOrderBys, bindOrderBy, orderByOutlines]
    refine Tracks.bind (R := fun t o t' =>
      Binds t (exprOutline expr) (exprPlaced scope.makeAllNullable o.expr) t')
      (Tracks.bind (tracks_expr scope outer _ expr) fun _ => Tracks.pure fun _ _ h => h)
        fun bound => ?_
    refine Tracks.bind (tracks_orderBys scope outer orders) fun _ => ?_
    refine Tracks.pure fun _ _ hrest _ horder => ?_
    obtain ⟨bound, asc, nullsFirst, node⟩ := bound
    rw [orderByPlaced]
    exact .append horder hrest
termination_by structural orders => orders

/-- An expression binds its references. -/
theorem tracks_expr (scope : Scope) (outer : Option Scope) (expected : ExpectedType) :
    ∀ expr : SyntaxExpr,
    BindTracks (bindExpr context scope outer expected expr) fun t b t' =>
      Binds t (exprOutline expr) (exprPlaced scope.makeAllNullable b) t'
  -- One case per constructor: the parts are bound from left to right, and are placed in that order.
  | ⟨.column relation name, node⟩ => by
    rw [bindExpr, exprOutline]
    exact tracks_bindColumn context scope outer _ relation name
  | ⟨.literal value, node⟩ => by
    rw [bindExpr, exprOutline]
    refine Tracks.pure fun t => ?_
    have hplaced : exprPlaced scope.makeAllNullable (bindLiteral node value) = [] := by
      cases value <;> simp only [bindLiteral, exprPlaced]
    rw [hplaced]
    exact .nil t
  -- The placeholder is placed as the reference it was given.
  | ⟨.parameter reference, node⟩ => by
    rw [bindExpr, exprOutline]
    refine tracks_useParameter reference expected node _ fun bound => ?_
    refine Tracks.pure ?_
    rintro _ t rfl rfl
    rw [exprPlaced]
    exact .parameter t reference
  | ⟨.unary op expr, node⟩ => by
    rw [bindExpr, exprOutline]
    refine Tracks.bind (tracks_expr scope outer _ expr) fun _ => ?_
    refine Tracks.pure fun _ _ hexpr => ?_
    rw [exprPlaced]
    exact hexpr
  | ⟨.binary op left right, node⟩ => by
    rw [bindExpr, exprOutline]
    refine Tracks.bind (tracks_expr scope outer _ left) fun _ => ?_
    refine Tracks.bind (tracks_expr scope outer _ right) fun _ => ?_
    refine Tracks.pure fun _ _ hright _ hleft => ?_
    rw [exprPlaced]
    exact .append hleft hright
  | ⟨.function call, node⟩ => by
    rw [bindExpr, exprOutline]
    exact tracks_function scope outer node call
  | ⟨.case operand whenThen elseResult, node⟩ => by
    rw [bindExpr, exprOutline]
    refine Tracks.bind (tracks_option scope outer _ operand) fun _ => ?_
    refine Tracks.bind (tracks_whenThens scope outer whenThen) fun _ => ?_
    refine Tracks.bind (tracks_option scope outer _ elseResult) fun _ => ?_
    refine Tracks.pure fun _ _ helse _ hwhen _ hoperand => ?_
    rw [exprPlaced]
    exact .append hoperand (.append hwhen helse)
  | ⟨.cast expr dataType, node⟩ => by
    rw [bindExpr, exprOutline]
    refine Tracks.bind (tracks_expr scope outer _ expr) fun _ => ?_
    refine Tracks.pure fun _ _ hexpr => ?_
    rw [exprPlaced]
    exact hexpr
  | ⟨.between expr low high negated, node⟩ => by
    rw [bindExpr, exprOutline]
    refine Tracks.bind (tracks_expr scope outer _ expr) fun _ => ?_
    refine Tracks.bind (tracks_expr scope outer _ low) fun _ => ?_
    refine Tracks.bind (tracks_expr scope outer _ high) fun _ => ?_
    refine Tracks.pure fun _ _ hhigh _ hlow _ hexpr => ?_
    rw [exprPlaced]
    exact .append hexpr (.append hlow hhigh)
  | ⟨.inList expr list negated, node⟩ => by
    rw [bindExpr, exprOutline]
    refine Tracks.bind (tracks_expr scope outer _ expr) fun _ => ?_
    refine Tracks.bind (tracks_exprs scope outer _ list) fun _ => ?_
    refine Tracks.pure fun _ _ hlist _ hexpr => ?_
    rw [exprPlaced]
    exact .append hexpr hlist
  | ⟨.inSubquery expr subquery negated, node⟩ => by
    rw [bindExpr, exprOutline]
    refine Tracks.bind (tracks_expr scope outer _ expr) fun _ => ?_
    refine Tracks.bind (tracks_query (some scope) subquery) fun _ => ?_
    refine Tracks.bind (tracks_subquerySingleField _ _ _ _) fun _ => ?_
    refine Tracks.pure ?_
    rintro _ _ rfl _ hquery _ hexpr
    rw [exprPlaced]
    exact .append hexpr hquery
  | ⟨.scalarSubquery subquery, node⟩ => by
    rw [bindExpr, exprOutline]
    refine Tracks.bind (tracks_query (some scope) subquery) fun _ => ?_
    refine Tracks.bind (tracks_subquerySingleField _ _ _ _) fun _ => ?_
    refine Tracks.pure ?_
    rintro _ _ rfl _ hquery
    rw [exprPlaced]
    exact hquery
  | ⟨.exists subquery, node⟩ => by
    rw [bindExpr, exprOutline]
    refine Tracks.bind (tracks_query (some scope) subquery) fun _ => ?_
    refine Tracks.pure fun _ _ hquery => ?_
    rw [exprPlaced]
    exact hquery
  | ⟨.like expr pattern negated caseInsensitive, node⟩ => by
    rw [bindExpr, exprOutline]
    refine Tracks.bind (tracks_expr scope outer _ expr) fun _ => ?_
    refine Tracks.bind (tracks_expr scope outer _ pattern) fun _ => ?_
    refine Tracks.pure fun _ _ hpattern _ hexpr => ?_
    rw [exprPlaced]
    exact .append hexpr hpattern
  -- The test allocates once for its parameter, and the operand a second time.
  | ⟨.isNull expr negated, node⟩ => by
    rw [bindExpr, exprOutline]
    refine Tracks.bind (tracks_recordNullTest expr) fun _ => ?_
    refine Tracks.bind (tracks_expr scope outer _ expr) fun bound => ?_
    refine Tracks.pure fun t t' hexpr t'' htest => ?_
    rw [exprPlaced]
    exact binds_isNull htest hexpr
  | ⟨.tuple items, node⟩ => by
    rw [bindExpr, exprOutline]
    refine Tracks.bind (tracks_exprs scope outer _ items) fun _ => ?_
    refine Tracks.pure fun _ _ hitems => ?_
    rw [exprPlaced]
    exact hitems
  | ⟨.array items, node⟩ => by
    rw [bindExpr, exprOutline]
    refine Tracks.bind (tracks_exprs scope outer _ items) fun _ => ?_
    refine Tracks.pure fun _ _ hitems => ?_
    rw [exprPlaced]
    exact hitems
  | ⟨.unsupported description, node⟩ => by
    rw [bindExpr]
    exact tracks_unsupportedExpr _ _ _ _ _
termination_by structural expr => expr

/-- A list of expressions binds its references. -/
theorem tracks_exprs (scope : Scope) (outer : Option Scope) (expected : ExpectedType) :
    ∀ exprs : List SyntaxExpr, BindTracks (bindExprs context scope outer expected exprs)
      fun t b t' =>
      Binds t (exprOutlines exprs) (exprsPlaced scope.makeAllNullable b) t'
  | [] => by
    rw [bindExprs, exprOutlines]
    refine Tracks.pure fun t => ?_
    rw [exprsPlaced]
    exact .nil t
  | expr :: exprs => by
    rw [bindExprs, exprOutlines]
    refine Tracks.bind (tracks_expr scope outer expected expr) fun _ => ?_
    refine Tracks.bind (tracks_exprs scope outer expected exprs) fun _ => ?_
    refine Tracks.pure fun _ _ hrest _ hexpr => ?_
    rw [exprsPlaced]
    exact .append hexpr hrest
termination_by structural exprs => exprs

/-- An expression, if there is one, binds its references. -/
theorem tracks_option (scope : Scope) (outer : Option Scope) (expected : ExpectedType) :
    ∀ expr : Option SyntaxExpr, BindTracks (bindExprOption context scope outer expected expr)
      fun t b t' =>
      Binds t (optionOutline expr) (optionPlaced scope.makeAllNullable b) t'
  | none => by
    rw [bindExprOption, optionOutline]
    refine Tracks.pure fun t => ?_
    rw [optionPlaced]
    exact .nil t
  | some expr => by
    rw [bindExprOption, optionOutline]
    refine Tracks.bind (tracks_expr scope outer expected expr) fun _ => ?_
    refine Tracks.pure fun _ _ hexpr => ?_
    rw [optionPlaced]
    exact hexpr
termination_by structural expr => expr

/-- The branches of a `CASE` bind their references. -/
theorem tracks_whenThens (scope : Scope) (outer : Option Scope) : ∀ pairs : List SyntaxWhenThen,
    BindTracks (bindWhenThens context scope outer pairs) fun t b t' =>
      Binds t (whenThenOutlines pairs) (whenThenPlaced scope.makeAllNullable b) t'
  | [] => by
    rw [bindWhenThens, whenThenOutlines]
    refine Tracks.pure fun t => ?_
    rw [whenThenPlaced]
    exact .nil t
  | ⟨condition, result⟩ :: pairs => by
    rw [bindWhenThens, whenThenOutlines]
    refine Tracks.bind (tracks_expr scope outer _ condition) fun _ => ?_
    refine Tracks.bind (tracks_expr scope outer _ result) fun _ => ?_
    refine Tracks.bind (tracks_whenThens scope outer pairs) fun _ => ?_
    refine Tracks.pure fun _ _ hrest _ hresult _ hcondition => ?_
    rw [whenThenPlaced]
    exact .append hcondition (.append hresult hrest)
termination_by structural pairs => pairs

/-- A call binds its references. -/
theorem tracks_function (scope : Scope) (outer : Option Scope) (node : SyntaxNode) :
    ∀ call : SyntaxFunctionCall,
    BindTracks (bindFunction context scope outer node call) fun t b t' =>
      Binds t (callOutline call) (exprPlaced scope.makeAllNullable b) t'
  | ⟨function, args, distinct, filter, over_⟩ => by
    rw [bindFunction, callOutline]
    split
    · exact tracks_unsupportedExpr _ _ _ _ _
    · rename_i signature _
      refine Tracks.bind (tracks_args scope outer signature 0 args) fun _ => ?_
      refine Tracks.bind (tracks_option scope outer _ filter) fun _ => ?_
      refine Tracks.bind (tracks_window scope outer over_) fun _ => ?_
      refine Tracks.bind (tracks_warnBackendSpecific _ _ _) fun _ => ?_
      refine Tracks.pure ?_
      rintro _ _ rfl _ hover _ hfilter _ hargs
      rw [exprPlaced]
      exact .append hargs (.append hfilter hover)
termination_by structural call => call

/-- The arguments of a call bind their references. -/
theorem tracks_args (scope : Scope) (outer : Option Scope) (signature : FunctionSignature)
    (index : Nat) :
    ∀ args : List SyntaxExpr, BindTracks (bindArgs context scope outer signature index args)
      fun t b t' =>
      Binds t (exprOutlines args) (exprsPlaced scope.makeAllNullable b) t'
  | [] => by
    rw [bindArgs, exprOutlines]
    refine Tracks.pure fun t => ?_
    rw [exprsPlaced]
    exact .nil t
  | arg :: args => by
    rw [bindArgs, exprOutlines]
    refine Tracks.bind (tracks_expr scope outer _ arg) fun _ => ?_
    refine Tracks.bind (tracks_args scope outer signature (index + 1) args) fun _ => ?_
    refine Tracks.pure fun _ _ hrest _ harg => ?_
    rw [exprsPlaced]
    exact .append harg hrest
termination_by structural args => args

/-- A window, if there is one, binds its references. -/
theorem tracks_window (scope : Scope) (outer : Option Scope) : ∀ over_ : Option WindowSpec,
    BindTracks (bindWindow context scope outer over_) fun t b t' =>
      Binds t (windowOutline over_) (windowPlaced scope.makeAllNullable b) t'
  | none => by
    rw [bindWindow, windowOutline]
    refine Tracks.pure fun t => ?_
    rw [windowPlaced]
    exact .nil t
  | some ⟨partitionBy, orderBy, node⟩ => by
    rw [bindWindow, windowOutline]
    refine Tracks.bind (tracks_exprs scope outer _ partitionBy) fun _ => ?_
    refine Tracks.bind (tracks_orderBys scope outer orderBy) fun _ => ?_
    refine Tracks.pure fun _ _ horder _ hpartition => ?_
    rw [windowPlaced]
    exact .append hpartition horder
termination_by structural over_ => over_

end

end Tracks

/-- What the binder knows of parameters after a query was bound. -/
def boundAllocation (context : BinderContext) (query : SyntaxQuery) : Allocation :=
  ((bindQuery context none query).run (Binder.new context)).2.allocation

/-- Binding an accepted query takes the references of its text to those of its plan. -/
theorem binds_query {context : BinderContext} {query : SyntaxQuery} (h : Accepted context query) :
    Binds (Binder.new context).allocation (queryOutline query)
      (queryPlaced (boundPlan context query)) (boundAllocation context query) := by
  refine (tracks_query context none query).result ?_
  rintro ⟨d, hd, herror⟩
  rw [h d hd] at herror
  cases herror

end QueryFabric.Bind
