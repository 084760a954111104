import QueryFabric.Render.Resolution

/-!
# References into nested queries

The binder makes up a name for a projected expression without an alias, and a column outside may
refer to the field by that name. The renderer writes no alias for it. `explicit_names_iff` says that
the SQL names every field that a column refers to exactly when no column of the query refers to such
an expression, with what the adapter of ClickHouse does to names taken into account (`statedNames`).
-/

namespace QueryFabric.Render

open QueryFabric.Bind ClickHouse Lib

/-- The field that the column means has a name in the SQL. -/
def ColumnUse.Explicit (use : ColumnUse) : Prop := ∀ field ∈ use.fields, field.origin ≠ .unnamed

/-- Whether a use is explicit can be checked. -/
instance (use : ColumnUse) : Decidable use.Explicit :=
  inferInstanceAs (Decidable (∀ field ∈ use.fields, field.origin ≠ .unnamed))

/-- The expression is a column that no merge function is put around. -/
def isPlainColumn (wrapper : BoundColumnRef → Option ResolvedWrapper) : BoundExpr → Bool
  | ⟨.column column, _, _, _⟩ => (wrapper column).isNone
  | _ => false

/-- The projected expressions that have a name in the SQL: those with an alias, and plain columns.
The adapter of ClickHouse puts merge functions around columns, and it adds an alias to `toString`
around a UUID. -/
def statedNames (catalog : Catalog) : SqlBackend → Emission
  | .postgres =>
    { expand := .never
      shows := fun _ details => details.alias_.isSome ||
        isPlainColumn (fun _ => none) details.expr }
  | .clickHouse =>
    { expand := expansion catalog .clickHouse
      shows := fun from_ details =>
        (rewriteUuidArrowExpr details.expr ClickHouseAdapter.uuidArrowWorkaroundEnabled).2 ||
          (details.alias_.isSome ||
            isPlainColumn (columnWrapper (some (scopeFromFromClause catalog from_)) true)
              details.expr) }

/-- Stated names expand the same wildcards. -/
theorem expand_statedNames (catalog : Catalog) (backend : SqlBackend) :
    (emissionOf catalog backend).expand = (statedNames catalog backend).expand := by
  cases backend <;> rfl

/-- The name that the text of an expression states is that of its field, as the binder names it
after its alias or its column. -/
theorem named_iff {wrapper : BoundColumnRef → Option ResolvedWrapper}
    {details : BoundProjectionExpr} (h : NamedAs details) :
    (details.alias_ = some details.field.name ∨
        ∃ column, details.expr.kind = .column column ∧ column.name = details.field.name ∧
          (wrapper column).isNone) ↔
      details.alias_.isSome ∨ isPlainColumn wrapper details.expr := by
  obtain ⟨⟨kind, type, nullable, node'⟩, alias_, field, node⟩ := details
  cases alias_ with
  | some alias_ =>
    have hname : field.name = alias_ := h.alias_ alias_ rfl
    simp [hname]
  | none =>
    cases kind with
    | column column =>
      have hname : field.name = column.name := h.column column rfl rfl
      simp [isPlainColumn, hname]
    | _ => simp [isPlainColumn]

/-- Stated names show what has a name. -/
theorem shows_statedNames (catalog : Catalog) (backend : SqlBackend)
    (from_ : List BoundTableWithJoins) {details : BoundProjectionExpr} (h : NamedAs details) :
    (emissionOf catalog backend).shows from_ details =
      (statedNames catalog backend).shows from_ details := by
  rw [Bool.eq_iff_iff]
  cases backend with
  | postgres =>
    simp only [emissionOf, Emission.plain, statedNames, showsName, Bool.or_eq_true, ← named_iff h]
    obtain ⟨⟨kind, _, _, _⟩, _, _, _⟩ := details
    cases kind <;> simp [isColumnNamed]
  | clickHouse =>
    simp only [emissionOf, clickHouseEmission, statedNames, Bool.or_eq_true, ← named_iff h]
    -- A wrapped column is shown under its alias, which is its name.
    by_cases hwrapped :
        (rewriteUuidArrowExpr details.expr ClickHouseAdapter.uuidArrowWorkaroundEnabled).2 = true
    · have hname : details.alias_.getD details.field.name = details.field.name := by
        cases halias : details.alias_ with
        | none => rfl
        | some alias_ => exact (h.alias_ alias_ halias).symm
      simp [hwrapped, hname]
    · simp only [hwrapped, Bool.false_eq_true, if_false, false_or, Bool.or_eq_true,
        decide_eq_true_eq]
      obtain ⟨⟨kind, _, _, _⟩, _, _, _⟩ := details
      cases kind <;> simp [keepsColumn]

/-! ## Emissions that agree on what binding returns -/

section Agree

variable (emission emission' : Emission)

/-- Two emissions have the same fields and columns. -/
def agreeMotive : BindMotive where
  expr _ _ := True
  query q := queryFields emission q = queryFields emission' q ∧
    queryColumns emission q = queryColumns emission' q
  setExpr body := ∀ ctes, setExprFields emission ctes body = setExprFields emission' ctes body ∧
    setExprColumns emission ctes body = setExprColumns emission' ctes body
  relation _ r := ∀ ctes, relationSources emission ctes r = relationSources emission' ctes r ∧
    ∀ before, relationColumns emission ctes before r = relationColumns emission' ctes before r
  joins _ state := ∀ ctes,
    joinedSources emission ctes state.relation state.joins =
        joinedSources emission' ctes state.relation state.joins ∧
      ∀ before, joinedColumns emission ctes before state.relation state.joins =
        joinedColumns emission' ctes before state.relation state.joins
  table _ t := ∀ ctes,
    joinedSources emission ctes t.relation t.joins =
      joinedSources emission' ctes t.relation t.joins ∧
      ∀ before, joinedColumns emission ctes before t.relation t.joins =
        joinedColumns emission' ctes before t.relation t.joins

variable {emission emission'}

/-- Emissions that agree on a `FROM` clause give it the same sources and columns. -/
theorem agree_of_from {scope : Scope} {from_ : List BoundTableWithJoins}
    (h : (agreeMotive emission emission').From scope from_) (ctes : CteFields) :
    tablesSources emission ctes from_ = tablesSources emission' ctes from_ ∧
      ∀ before, tablesColumns emission ctes before from_ =
        tablesColumns emission' ctes before from_ := by
  induction h with
  | nil scope => exact ⟨by simp only [tablesSources], fun _ => by simp only [tablesColumns]⟩
  | cons scope t ts htable _ ih =>
    obtain ⟨hsources, hcolumns⟩ := htable ctes
    refine ⟨?_, fun before => ?_⟩
    · rw [tablesSources_cons, tablesSources_cons, hsources, ih.1]
    · rw [tablesColumns_cons, tablesColumns_cons, hsources, hcolumns, ih.2]

/-- Emissions that agree on the queries of CTEs give them the same fields. -/
theorem ctesFields_congr {ctes : List BoundCte}
    (h : ∀ c ∈ ctes, queryFields emission c.query = queryFields emission' c.query) :
    ctesFields emission ctes = ctesFields emission' ctes := by
  induction ctes with
  | nil => simp only [ctesFields]
  | cons c ctes ih =>
    obtain ⟨hc, hctes⟩ := List.forall_mem_cons.mp h
    obtain ⟨name, columns, query, schema, node⟩ := c
    simp only [ctesFields, ih hctes]
    rw [hc]

/-- Emissions that agree on the expressions that binding names have the same fields and columns. -/
theorem agreeCases (hexpand : emission.expand = emission'.expand)
    (hshows : ∀ from_ details, NamedAs details →
      emission.shows from_ details = emission'.shows from_ details) :
    UseCases (agreeMotive emission emission') fun _ _ => True where
  expr_iff _ _ := iff_of_true trivial fun _ _ => trivial
  column _ _ _ _ _ := trivial
  membership _ _ _ _ := trivial
  -- The two emissions give the CTEs the same fields, and so the body.
  query q hctes hbody _ _ := by
    have hfields := ctesFields_congr fun c hc => (hctes c hc).1.1
    obtain ⟨hbody, hcolumns⟩ := hbody (ctesFields emission' q.ctes)
    refine ⟨?_, ?_⟩
    · cases q
      rw [queryFields, queryFields, hfields, hbody]
    · rw [queryColumns, queryColumns, hfields, hcolumns, hbody]
  unionAll l r nd hl hr _ := by
    intro ctes
    refine ⟨?_, ?_⟩
    · rw [setExprFields, setExprFields, (hl ctes).1]
    · rw [setExprColumns, setExprColumns, (hl ctes).2, (hr ctes).2]
  select s hfrom _ hitems _ := by
    intro ctes
    obtain ⟨hsources, htables⟩ := agree_of_from hfrom ctes
    -- An item that carries its name is shown alike; the two expand the same wildcards.
    have hfields : ∀ sources, ∀ item ∈ s.projection,
        itemNamedFields emission s.from_ sources item =
            itemNamedFields emission' s.from_ sources item := by
      intro sources item hitem
      cases hitems item hitem with
      | expr d _ _ _ hname => simp only [itemNamedFields, hshows s.from_ d hname]
      | all nd => simp only [itemNamedFields, hexpand]
      | qualified qualifier fields nd _ => simp only [itemNamedFields, hexpand]
    have hcolumns : itemColumns emission s.from_ = itemColumns emission' s.from_ := by
      funext item
      cases item <;> simp only [itemColumns, hexpand]
    refine ⟨?_, ?_⟩
    · obtain ⟨_, projection, from_, _, _, _, _, _⟩ := s
      simp only [setExprFields, hsources]
      exact List.flatMap_congr (hfields _)
    · simp only [setExprColumns, selectColumns, hsources, htables, hcolumns]
  table _ _ _ := fun _ => ⟨by simp only [relationSources], fun _ => by simp only [relationColumns]⟩
  derived _ _ _ _ hq := fun _ =>
    ⟨by simp only [relationSources, hq.1], fun _ => by simp only [relationColumns]⟩
  nestedJoin _ _ t _ ht := by
    intro ctes
    obtain ⟨hsources, hcolumns⟩ := ht ctes
    obtain ⟨relation, joins, node⟩ := t
    rw [joinedSources, joinedSources] at hsources
    refine ⟨by rw [relationSources, relationSources, hsources], fun before => ?_⟩
    rw [relationColumns, relationColumns]
    exact hcolumns before
  startJoins _ r hr := by
    intro ctes
    simpa only [joinedSources, joinedColumns, joinSources, joinColumns, List.append_nil]
      using hr ctes
  -- A join adds its sources and its columns at the end, in both.
  addJoin _ state kind joined on nd hstate hjoined _ := by
    intro ctes
    refine ⟨?_, fun before => ?_⟩
    · rw [joinedSources_addJoin, joinedSources_addJoin, (hstate ctes).1, (hjoined ctes).1]
    · rw [joinedColumns_addJoin, joinedColumns_addJoin, (hstate ctes).1, (hstate ctes).2,
        (hjoined ctes).1, (hjoined ctes).2]
  endJoins _ _ _ h := h

end Agree

/-- In the SQL that an adapter emits for an accepted query, every field of a nested query that a
column refers to is named, exactly when no column of the query refers to a field that has no name
there. -/
theorem explicit_names_iff (context : BinderContext) (query : SyntaxQuery) (catalog : Catalog)
    (backend : SqlBackend) (h : Accepted context query) :
    AllWithin (fun q => ∀ use ∈ queryColumns .plain q, use.Explicit)
        (emittedPlan catalog backend (boundPlan context query)) ↔
      AllWithin (fun q => ∀ use ∈ queryColumns (statedNames catalog backend) q, use.Explicit)
        (boundPlan context query) := by
  have hagree := (agreeCases (expand_statedNames catalog backend)
    fun from_ _ => shows_statedNames catalog backend from_).bindCases.allWithin context h
  rw [allWithin_columns_iff (P := fun uses => ∀ use ∈ uses, use.Explicit)]
  constructor
  · intro hexplicit q hq
    rw [← (hagree q hq).2]
    exact hexplicit q hq
  · intro hexplicit q hq
    rw [(hagree q hq).2]
    exact hexplicit q hq

/-- The column of `SELECT id FROM (SELECT id FROM events) AS d` refers to a column. -/
theorem derivedIds_explicit :
    AllWithin (fun q => ∀ use ∈ queryColumns .plain q, use.Explicit)
      (emittedPlan usersAndEvents.catalog .clickHouse (boundPlan usersAndEvents
        (selectId [] (.derived (selectId [] (plainTable "events")) (some "d") ⟨none, "d"⟩)))) := by
  refine (explicit_names_iff usersAndEvents _ usersAndEvents.catalog .clickHouse (by decide)).mpr
    (allWithin_iff.mpr ⟨by decide, ?_⟩)
  exact List.forall_mem_singleton.mpr (allWithin_iff.mpr ⟨by decide, List.forall_mem_nil _⟩)

/-- `SELECT count FROM (SELECT count(id) FROM events) AS d`. -/
def derivedCount : SyntaxQuery :=
  let node : SyntaxNode := { span := none, nodeId := "q" }
  let select (expr : SyntaxExprKind) (relation : SyntaxRelation) : SyntaxQuery :=
    { selectId [] relation with
      body := .select
        { distinct := false, projection := [.expr ⟨⟨expr, node⟩, none, node⟩]
          from_ := [⟨relation, [], node⟩], selection := none, groupBy := [],
          having := none, node } }
  select (.column none "count") (.derived
    (select (.function ⟨⟨none, "count"⟩, [⟨.column none "id", node⟩], false, none, none⟩)
      (plainTable "events"))
    (some "d") node)

/-- The SQL refers to the field as `count`, and no item of the derived table has that name. -/
theorem derivedCount_unnamed : Accepted usersAndEvents derivedCount ∧
    (renderQuery ⟨.clickHouse, usersAndEvents.catalog, []⟩
      (emittedPlan usersAndEvents.catalog .clickHouse (boundPlan usersAndEvents derivedCount))
        false).toOption =
        some ["SELECT ", "d", ".", "count", " FROM ", "(", "SELECT ", "count", "(", "events",
          ".", "id", ")",
          " FROM ", "events", ")", " AS ", "d"] ∧
    ¬ AllWithin (fun q => ∀ use ∈ queryColumns .plain q, use.Explicit)
      (emittedPlan usersAndEvents.catalog .clickHouse (boundPlan usersAndEvents derivedCount)) := by
  refine ⟨by decide, rfl, fun h => ?_⟩
  exact absurd (h _ .refl ⟨[⟨"d", [⟨"count", .unnamed⟩]⟩], ⟨some "d", "count"⟩⟩ (by decide))
    (by decide)

end QueryFabric.Render
