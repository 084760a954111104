import QueryFabric.Render.KeptNames

/-!
# The names of tables and columns

Relations are resolved by their names and aliases, without regard to letter case and with any
namespace as a last resort, and columns without regard to letter case. The bound query keeps the
names as they were spelled, and these are what the adapters write. `resolved_names_iff` says that
the SQL has the names of the catalog exactly when the query spells none of them otherwise, at any
depth: see `querySpellings`.
-/

namespace QueryFabric.Render

open QueryFabric.Bind ClickHouse

/-! ## Rewriting -/

section Rewrite

variable (catalog : Catalog) (enabled : Bool)

mutual

/-- Rewriting a relation keeps its tables. -/
theorem relationTables_rewriteRelation : ∀ r : BoundRelation,
    relationTables (rewriteRelation catalog enabled r).1 = relationTables r
  | .table .. => by simp only [rewriteRelation]
  | .derived .. => by simp only [rewriteRelation, relationTables]
  | .nestedJoin _ ⟨relation, joins, _⟩ _ => by
    simp only [rewriteRelation, rewriteTableWithJoins, relationTables,
      relationTables_rewriteRelation relation, joinTables_rewriteJoins joins]
  | .unsupported .. => by simp only [rewriteRelation]
termination_by structural r => r

/-- Rewriting the joins keeps their tables. -/
theorem joinTables_rewriteJoins : ∀ joins : List BoundJoin,
    joinTables (rewriteJoins catalog enabled joins).1 = joinTables joins
  | [] => by simp only [rewriteJoins]
  | ⟨_, relation, _, _⟩ :: joins => by
    simp only [rewriteJoins, joinTables, relationTables_rewriteRelation relation,
      joinTables_rewriteJoins joins]
termination_by structural joins => joins

end

/-- Rewriting the tables of a `FROM` keeps them. -/
theorem fromTables_rewriteTables (tables : List BoundTableWithJoins) :
    fromTables (rewriteTables catalog enabled tables).1 = fromTables tables := by
  induction tables with
  | nil => simp only [rewriteTables]
  | cons table tables ih =>
    cases table
    rw [fromTables] at ih
    simp only [rewriteTables, rewriteTableWithJoins, fromTables, List.flatMap_cons,
      relationTables_rewriteRelation, joinTables_rewriteJoins]
    rw [ih, fromTables]

/-- Rewriting a set expression keeps its tables. -/
theorem setExprTables_rewriteSetExpr (body : BoundSetExpr) :
    setExprTables (rewriteSetExpr catalog enabled body).1 = setExprTables body := by
  cases body with
  | select select =>
    cases select
    simp only [rewriteSetExpr, rewriteSelect, setExprTables, fromTables_rewriteTables]
  | unionAll left right _ _ =>
    simp only [rewriteSetExpr, setExprTables, setExprTables_rewriteSetExpr left,
      setExprTables_rewriteSetExpr right]
  | unsupported => simp only [rewriteSetExpr]

/-- Rewriting keeps the tables of a query, and what they mean. -/
theorem tablesExact_rewritten (context : BinderContext) (query : BoundQueryPlan) :
    TablesExact context (rewritten catalog enabled query) ↔ TablesExact context query := by
  obtain ⟨node, ctes, body, orderBy, limit, offset, clauses, schema⟩ := query
  have hctes : (rewriteCtes catalog enabled ctes).1.map BoundCte.name = ctes.map BoundCte.name := by
    rw [ctes_rewriteCtes, List.map_map]
    rfl
  simp only [TablesExact, queryTables, catalogRelation?, rewritten, rewriteQueryPlan,
    setExprTables_rewriteSetExpr, hctes]

end Rewrite

/-! ## When the names are those of the catalog -/

/-- In the SQL that an adapter emits for an accepted query, the tables and columns of the catalog
have their own names, exactly when the query spells them so. -/
theorem resolved_names_iff {context : BinderContext} {query : SyntaxQuery}
    (h : Accepted context query) (catalog : Catalog) (backend : SqlBackend) :
    AllWithin (fun q => TablesExact context q ∧ ∀ use ∈ queryColumns .plain q, use.Exact)
        (emittedPlan catalog backend (boundPlan context query)) ↔
      ∀ spelling ∈ querySpellings context.catalog catalog backend query, ¬spelling.Differs := by
  rw [← allWithin_boundPlan_iff context catalog backend h]
  cases backend with
  | postgres => exact Iff.rfl
  | clickHouse =>
    simp only [emittedPlan, allWithin_rewritten_iff, tablesExact_rewritten, queryColumns_rewritten]
    exact Iff.rfl

/-- `WITH ids AS (SELECT id FROM users) SELECT events.id AS event, d.* FROM events LEFT JOIN
(SELECT * FROM users) AS d ON events.id = d.id, IDS WHERE ids.ID IN (SELECT id FROM events)
ORDER BY Event`. -/
def nestedIds : SyntaxQuery :=
  let node : SyntaxNode := { span := none, nodeId := "q" }
  let column (relation : Option String) (name : String) : SyntaxExpr :=
    ⟨.column relation name, node⟩
  -- A wildcard within the derived table, and one over it.
  let allOfUsers : SyntaxQuery :=
    { selectId [] (plainTable "users") with
      body := .select
        { distinct := false, projection := [.wildcard none node]
          from_ := [⟨plainTable "users", [], node⟩], selection := none, groupBy := []
          having := none, node } }
  { selectId [⟨"ids", [], selectId [] (plainTable "users"), node⟩] (plainTable "events") with
    body := .select
      { distinct := false
        projection :=
          [.expr ⟨column (some "events") "id", some "event", node⟩, .wildcard (some "d") node]
        from_ :=
          [⟨plainTable "events", [⟨.left, .derived allOfUsers (some "d") node,
              some ⟨.binary .eq (column (some "events") "id") (column (some "d") "id"), node⟩,
              node⟩], node⟩,
            -- The CTE in other letters, which both backends write as it was defined.
            ⟨plainTable "IDS", [], node⟩]
        selection := some ⟨.inSubquery (column (some "ids") "ID")
          (selectId [] (plainTable "events")) false, node⟩
        groupBy := [], having := none, node }
    orderBy := [⟨column none "Event", none, none, node⟩] }

/-- The names of the catalog are spelled as it has them. Those of the CTE and of the output need not
be. -/
theorem nestedIds_exact :
    AllWithin (fun q => TablesExact usersAndEvents q ∧ ∀ use ∈ queryColumns .plain q, use.Exact)
      (emittedPlan usersAndEvents.catalog .postgres (boundPlan usersAndEvents nestedIds)) ∧
    AllWithin (fun q => TablesExact usersAndEvents q ∧ ∀ use ∈ queryColumns .plain q, use.Exact)
      (emittedPlan usersAndEvents.catalog .clickHouse (boundPlan usersAndEvents nestedIds)) :=
  ⟨(resolved_names_iff (by decide) usersAndEvents.catalog .postgres).mpr (by decide),
    (resolved_names_iff (by decide) usersAndEvents.catalog .clickHouse).mpr (by decide)⟩

/-- The relation `events (id)`, with the alias `happenings`. -/
def aliasedEvents : RelationSchema := { idRelation "events" with aliases := ["happenings"] }

/-- A catalog in which `events` has an alias. -/
def withAliasedEvents : BinderContext :=
  { usersAndEvents with catalog := (MemoryCatalog.registerRelation {} aliasedEvents).toCatalog }

/-- `SELECT ID FROM happenings`. -/
def recasedIds : SyntaxQuery :=
  let node : SyntaxNode := { span := none, nodeId := "q" }
  { selectId [] (plainTable "happenings") with
    body := .select
      { distinct := false, projection := [.expr ⟨⟨.column none "ID", node⟩, none, node⟩]
        from_ := [⟨plainTable "happenings", [], node⟩], selection := none, groupBy := [],
        having := none, node } }

/-- The SQL asks for the column `ID` of a table `happenings`, where the catalog has `id` and
`events`. -/
theorem recasedIds_misspelled : Accepted withAliasedEvents recasedIds ∧
    (renderQuery ⟨.clickHouse, withAliasedEvents.catalog, []⟩
      (emittedPlan withAliasedEvents.catalog .clickHouse (boundPlan withAliasedEvents recasedIds))
        false).toOption = some ["SELECT ", "happenings", ".", "ID", " FROM ", "happenings"] ∧
    ¬ AllWithin (fun q => TablesExact withAliasedEvents q ∧
      ∀ use ∈ queryColumns .plain q, use.Exact)
      (emittedPlan withAliasedEvents.catalog .clickHouse
        (boundPlan withAliasedEvents recasedIds)) := by
  refine ⟨by decide, rfl, fun h => ?_⟩
  have hname := (h _ .refl).1 ⟨none, "happenings"⟩ (by decide) aliasedEvents rfl
  exact absurd hname (by decide)

end QueryFabric.Render
