import QueryFabric.Bind.Nested
import QueryFabric.Ir.Uses

/-!
# Induction over binding, for the uses of expressions

Where the property of an expression is one of each column and membership test in it, the cases of
the expressions are all the same. `UseCases` asks for the two kinds of use instead, and
`UseCases.bindCases` has the cases of the expressions.
-/

namespace QueryFabric.Bind

/-- What an induction over binding has to show, when the property of an expression is one of its
uses. -/
structure UseCases (M : BindMotive) (P : Scope → ExprUse → Prop) : Prop where
  expr_iff : ∀ scope e, M.expr scope e ↔ ∀ use ∈ exprUses e, P scope use
  column : ∀ scope relation name column, scope.resolveColumn relation name = .local column →
    P scope (.column { relation := column.relation, name } column.field.dataType)
  membership : ∀ scope type q, M.query q → P scope (.membership type q)
  query : ∀ q : BoundQueryPlan,
    (∀ c ∈ q.ctes, M.query c.query ∧ c.resultSchema = cteSchema c.columns c.query.resultSchema) →
    M.setExpr q.body →
    (∀ x ∈ outputExprs q, ∀ use ∈ exprUses x, P (.fromOutputSchema q.body.resultSchema) use) →
    q.resultSchema = q.body.resultSchema → M.query q
  unionAll : ∀ l r nd, M.setExpr l → M.setExpr r →
    l.resultSchema.fields.length = r.resultSchema.fields.length →
    M.setExpr (.unionAll l r nd (unionSchema l.resultSchema r.resultSchema))
  select : ∀ s : BoundSelect, M.From {} s.from_ →
    (∀ x ∈ s.selection.toList ++ s.groupBy ++ s.having.toList, ∀ use ∈ exprUses x,
      P (fromScope s.from_) use) →
    (∀ item ∈ s.projection, M.Item (fromScope s.from_) item) →
    s.resultSchema = .new (s.projection.flatMap itemFields) → M.setExpr (.select s)
  table : ∀ scope binding nd, M.relation scope (.table binding nd)
  derived : ∀ scope name q nd, M.query q →
    M.relation scope
      (.derived { bindingName := name, relationName := none, schema := q.resultSchema } q nd)
  nestedJoin : ∀ scope name t nd, M.table scope t → M.relation scope (.nestedJoin
    { bindingName := name, relationName := none, schema := scopeSchemaForTable t } t nd)
  startJoins : ∀ scope r, M.relation scope r → M.joins scope ⟨r, scope.pushRelation r, []⟩
  addJoin : ∀ scope (state : JoinState) kind joined on nd, M.joins scope state →
    M.relation state.joinScope joined →
    (∀ x ∈ on, ∀ use ∈ exprUses x, P (state.joinScope.pushRelation joined) use) →
    M.joins scope (state.addJoin kind joined on nd)
  endJoins : ∀ scope (state : JoinState) nd, M.joins scope state →
    M.table scope ⟨state.relation, state.joins, nd⟩

/-- What holds of the uses of every expression is carried through binding. -/
theorem UseCases.bindCases {M : BindMotive} {P : Scope → ExprUse → Prop} (C : UseCases M P) :
    BindCases M where
  -- A column and a membership test are uses; an expression has those of its parts and no others.
  column scope relation name column nd h := by
    rw [C.expr_iff, exprUses]
    exact List.forall_mem_singleton.mpr (C.column scope relation name column h)
  literal scope value nd := by simp [C.expr_iff, bindLiteral, exprUses]
  parameter scope r ty nu nd := by simp [C.expr_iff, exprUses]
  unary scope op x ty nu nd h := by
    rw [C.expr_iff] at h ⊢
    simpa only [exprUses] using h
  binary scope op l r ty nu nd hl hr := by
    rw [C.expr_iff] at hl hr ⊢
    rw [exprUses]
    exact List.forall_mem_append.mpr ⟨hl, hr⟩
  function scope f ty nu nd hargs hfilter hover := by
    obtain ⟨function, backendName, args, distinct, filter, over_, signatureName⟩ := f
    simp only [C.expr_iff] at hargs hfilter hover ⊢
    intro use huse
    simp only [exprUses, List.mem_append, mem_exprsUses, mem_optionUses, mem_windowUses] at huse
    obtain (⟨x, hx, huse⟩ | ⟨x, hx, huse⟩) | ⟨w, hw, ⟨x, hx, huse⟩ | ⟨o, ho, huse⟩⟩ := huse
    · exact hargs x hx use huse
    · exact hfilter x hx use huse
    · exact (hover w hw).1 x hx use huse
    · exact (hover w hw).2 o ho use huse
  case scope o ws el ty nu nd ho hws hel := by
    simp only [C.expr_iff] at ho hws hel ⊢
    intro use huse
    simp only [exprUses, List.mem_append, mem_optionUses, mem_whenThenUses] at huse
    obtain (⟨x, hx, huse⟩ | ⟨w, hw, huse | huse⟩) | ⟨x, hx, huse⟩ := huse
    · exact ho x hx use huse
    · exact (hws w hw).1 use huse
    · exact (hws w hw).2 use huse
    · exact hel x hx use huse
  cast scope x t ty nu nd h := by
    rw [C.expr_iff] at h ⊢
    simpa only [exprUses] using h
  between scope x l h n ty nu nd hx hl hh := by
    rw [C.expr_iff] at hx hl hh ⊢
    rw [exprUses]
    exact List.forall_mem_append.mpr ⟨List.forall_mem_append.mpr ⟨hx, hl⟩, hh⟩
  inList scope x xs n ty nu nd hx hxs := by
    simp only [C.expr_iff] at hx hxs ⊢
    intro use huse
    simp only [exprUses, List.mem_append, mem_exprsUses] at huse
    obtain huse | ⟨y, hy, huse⟩ := huse
    · exact hx use huse
    · exact hxs y hy use huse
  inSubquery scope x q n ty nu nd hx hq := by
    rw [C.expr_iff] at hx ⊢
    rw [exprUses]
    exact List.forall_mem_append.mpr ⟨hx, List.forall_mem_singleton.mpr (C.membership scope _ q hq)⟩
  scalarSubquery scope q ty nu nd hq := by simp [C.expr_iff, exprUses]
  exists_ scope q ty nu nd hq := by simp [C.expr_iff, exprUses]
  like scope x p n ci ty nu nd hx hp := by
    rw [C.expr_iff] at hx hp ⊢
    rw [exprUses]
    exact List.forall_mem_append.mpr ⟨hx, hp⟩
  isNull scope x n ty nu nd h := by
    rw [C.expr_iff] at h ⊢
    simpa only [exprUses] using h
  tuple scope xs ty nu nd h := by
    simp only [C.expr_iff] at h ⊢
    intro use huse
    rw [exprUses, mem_exprsUses] at huse
    obtain ⟨x, hx, huse⟩ := huse
    exact h x hx use huse
  array scope xs ty nu nd h := by
    simp only [C.expr_iff] at h ⊢
    intro use huse
    rw [exprUses, mem_exprsUses] at huse
    obtain ⟨x, hx, huse⟩ := huse
    exact h x hx use huse
  -- The expressions after the body are used in the scope of the query's output.
  query q hctes hbody horder hlimit hoffset hschema := by
    simp only [C.expr_iff] at horder hlimit hoffset
    refine C.query q hctes hbody (fun x hx => ?_) hschema
    simp only [outputExprs, List.mem_append, List.mem_map, Option.mem_toList] at hx
    obtain (⟨o, ho, rfl⟩ | hx) | hx := hx
    · exact horder o ho
    · exact hlimit x hx
    · exact hoffset x hx
  unionAll := C.unionAll
  -- The selection, the grouping and the `HAVING` are used in the scope of the `FROM`.
  select s hfrom hselection hgroup hhaving hitems hschema := by
    simp only [C.expr_iff] at hselection hgroup hhaving
    refine C.select s hfrom (fun x hx => ?_) hitems hschema
    simp only [List.mem_append, Option.mem_toList] at hx
    obtain (hx | hx) | hx := hx
    · exact hselection x hx
    · exact hgroup x hx
    · exact hhaving x hx
  table := C.table
  derived := C.derived
  nestedJoin := C.nestedJoin
  startJoins := C.startJoins
  addJoin scope state kind joined on nd hstate hjoined hon := by
    simp only [C.expr_iff] at hon
    exact C.addJoin scope state kind joined on nd hstate hjoined hon
  endJoins := C.endJoins

end QueryFabric.Bind
