import QueryFabric.Bind.Placeholders
import QueryFabric.ClickHouse.Schemas
import QueryFabric.Render.ExplicitNames

/-!
# Statements for Arrow output

`clickhouse_arrow_safe_sql` of `crates/queryfabric-adapter-clickhouse/src/arrow.rs` puts a statement
with UUID or JSON columns into a subquery and casts these to strings. The outer projection refers to
the columns by the names of the result schema, and the binder makes up a name for an expression
without an alias. `arrowSafe_iff` says when the outer projection has just the columns of the
statement.
-/

namespace QueryFabric.ClickHouse

open QueryFabric.Bind Render Lib

/-- `clickhouse_quote_identifier`. -/
def clickhouseQuoteIdentifier (identifier : String) : String := quoted '"' identifier

/-- `result_field_needs_arrow_cast`. -/
def resultFieldNeedsArrowCast (field : ResultField) : Bool :=
  match field.dataType with
  | .uuid | .json => true
  | _ => false

/-- `arrow_safe_projection_expr`. -/
def arrowSafeProjectionExpr (field : ResultField) : String :=
  let ident := clickhouseQuoteIdentifier field.name
  let alias_ := ident
  match field.dataType with
  | .uuid => "toString(" ++ ident ++ ") AS " ++ alias_
  | .json => "toJSONString(" ++ ident ++ ") AS " ++ alias_
  | _ => ident ++ " AS " ++ alias_

/-- `clickhouse_arrow_safe_sql`. -/
def clickhouseArrowSafeSql (sql : String) (resultSchema : ResultSchema) : String :=
  if !resultSchema.fields.any resultFieldNeedsArrowCast then sql
  else
    let projections := ", ".intercalate (resultSchema.fields.map arrowSafeProjectionExpr)
    "SELECT " ++ projections ++ " FROM (" ++ sql ++ ") AS " ++
      clickhouseQuoteIdentifier "_syndb_arrow_safe"

/-- `clickhouse_arrow_safe_artifact_sql`. -/
def clickhouseArrowSafeArtifactSql (artifact : SqlArtifact) : String :=
  clickhouseArrowSafeSql artifact.text artifact.resultSchema

/-! ## The outer projection -/

/-- An item of the outer projection: a column of the inner statement, perhaps in a call, and its
name outside. -/
structure OuterItem where
  cast : Option String
  reference : String
  alias_ : String
deriving DecidableEq, Repr

/-- The text of an item. -/
def OuterItem.text (item : OuterItem) : String :=
  let ident := clickhouseQuoteIdentifier item.reference
  (match item.cast with
    | some cast => cast ++ ("(" ++ (ident ++ ")"))
    | none => ident) ++ (" AS " ++ clickhouseQuoteIdentifier item.alias_)

/-- The item for a field of the result schema. -/
def outerItem (field : ResultField) : OuterItem where
  cast :=
    match field.dataType with
    | .uuid => some "toString"
    | .json => some "toJSONString"
    | _ => none
  reference := field.name
  alias_ := field.name

/-- The outer projection, where there is one. -/
def outerProjection (resultSchema : ResultSchema) : Option (List OuterItem) :=
  if resultSchema.fields.any resultFieldNeedsArrowCast then
    some (resultSchema.fields.map outerItem) else none

/-- The statement with an outer projection. -/
def wrappedSql (items : List OuterItem) (sql : String) : String :=
  "SELECT " ++ ", ".intercalate (items.map OuterItem.text) ++ " FROM (" ++ sql ++ ") AS " ++
    clickhouseQuoteIdentifier "_syndb_arrow_safe"

/-- The text of an outer item is the one that is written. -/
theorem text_outerItem (field : ResultField) :
    (outerItem field).text = arrowSafeProjectionExpr field := by
  have htoString : "toString(" = "toString" ++ "(" := by decide
  have htoJSONString : "toJSONString(" = "toJSONString" ++ "(" := by decide
  have hclose : ") AS " = ")" ++ " AS " := by decide
  obtain ⟨name, type, nullable, metadata⟩ := field
  cases type <;>
    simp only [outerItem, OuterItem.text, arrowSafeProjectionExpr, htoString, htoJSONString, hclose,
      String.append_assoc]

/-- The text is that of the outer projection around the statement. -/
theorem clickhouseArrowSafeSql_eq (sql : String) (resultSchema : ResultSchema) :
    clickhouseArrowSafeSql sql resultSchema =
      match outerProjection resultSchema with
      | none => sql
      | some items => wrappedSql items sql := by
  unfold clickhouseArrowSafeSql outerProjection wrappedSql
  have htexts : (resultSchema.fields.map outerItem).map OuterItem.text =
      resultSchema.fields.map arrowSafeProjectionExpr := by
    rw [List.map_map]
    exact List.map_congr_left fun field _ => text_outerItem field
  cases resultSchema.fields.any resultFieldNeedsArrowCast with
  | false => rfl
  | true => simp only [Bool.not_true, Bool.false_eq_true, if_false, if_true, htexts]

/-! ## The columns of a statement -/

/-- The columns of an emitted statement. An `EXPLAIN` has a column for the lines of a plan, and no
item of the statement names it. -/
def statementColumns (explain : Bool) (plan : BoundQueryPlan) : List NamedField :=
  if explain then [⟨"explain", .unnamed⟩] else queryFields .plain plan

/-- The columns that the statement names so. -/
def namedColumns (columns : List NamedField) (reference : String) : List NamedField :=
  columns.filter fun column => column.origin ≠ .unnamed ∧ column.name = reference

/-- The item refers to that column and to no other one, and keeps its name. -/
structure OuterItem.Means (columns : List NamedField) (item : OuterItem)
    (column : NamedField) : Prop where
  reference : namedColumns columns item.reference = [column]
  alias_ : item.alias_ = column.name

/-- The statement for Arrow output is that of the artifact, or its outer projection has the columns
of that one, in order. -/
def ArrowSafe (artifact : SqlArtifact) (columns : List NamedField) : Prop :=
  match outerProjection artifact.resultSchema with
  | none => clickhouseArrowSafeArtifactSql artifact = artifact.text
  | some items => clickhouseArrowSafeArtifactSql artifact = wrappedSql items artifact.text ∧
      List.Forall₂ (OuterItem.Means columns) items columns

/-- The value that a reference takes from a row of the statement. -/
def rowValue {α : Type} (columns : List NamedField) (row : List α)
    (reference : String) : Option α :=
  match (columns.zip row).filter fun entry => entry.1.origin ≠ .unnamed ∧
    entry.1.name = reference with
  | [entry] => some entry.2
  | _ => none

/-- The columns are told apart by their names. -/
def Distinguished (columns : List NamedField) : Prop :=
  ∀ column ∈ columns, namedColumns columns column.name = [column]

/-- What an item means has the name that it refers to. -/
theorem OuterItem.Means.reference_eq {columns : List NamedField} {item : OuterItem}
    {column : NamedField} (h : item.Means columns column) : item.reference = column.name := by
  have hself : column ∈ namedColumns columns item.reference := h.reference ▸ List.mem_cons_self
  have hname : column.origin ≠ .unnamed ∧ column.name = item.reference := by
    simpa using (List.mem_filter.mp hself).2
  exact hname.2.symm

/-- The items are the columns in order when they have their names and the names tell the columns
apart. -/
theorem forall₂_means_iff {columns : List NamedField} {items : List OuterItem} :
    List.Forall₂ (OuterItem.Means columns) items columns ↔
      items.map OuterItem.reference = columns.map NamedField.name ∧
        items.map OuterItem.alias_ = columns.map NamedField.name ∧ Distinguished columns := by
  have hgeneral : ∀ rest : List NamedField, List.Forall₂ (OuterItem.Means columns) items rest ↔
      items.map OuterItem.reference = rest.map NamedField.name ∧
        items.map OuterItem.alias_ = rest.map NamedField.name ∧
          ∀ column ∈ rest, namedColumns columns column.name = [column] := by
    -- The two lists are taken apart together, and the columns that a name is looked up in stay.
    induction items with
    | nil => intro rest; cases rest <;> simp
    | cons item items ih =>
      intro rest
      cases rest with
      | nil => simp
      | cons column rest =>
        simp only [List.forall₂_cons, ih, List.map_cons, List.cons.injEq, List.forall_mem_cons]
        constructor
        · rintro ⟨hitem, hreferences, haliases, hcolumns⟩
          exact ⟨⟨hitem.reference_eq, hreferences⟩, ⟨hitem.alias_, haliases⟩,
            hitem.reference_eq ▸ hitem.reference, hcolumns⟩
        · rintro ⟨⟨hreference, hreferences⟩, ⟨halias, haliases⟩, hcolumn, hcolumns⟩
          exact ⟨⟨hreference ▸ hcolumn, halias⟩, hreferences, haliases, hcolumns⟩
  exact hgeneral columns

/-- The names tell columns apart when the statement states each of them, and no two are equal. -/
theorem distinguished_iff {columns : List NamedField} : Distinguished columns ↔
    (columns.map NamedField.name).Nodup ∧ ∀ column ∈ columns, column.origin ≠ .unnamed := by
  have hcount : ∀ name : String, (columns.map NamedField.name).count name =
      (columns.filter fun column => column.name = name).length := by
    intro name
    rw [List.count_eq_countP, List.countP_map, List.countP_eq_length_filter]
    rfl
  have hnamed : (∀ column ∈ columns, column.origin ≠ .unnamed) → ∀ name,
      namedColumns columns name = columns.filter fun column => column.name = name := by
    intro hstated name
    exact List.filter_congr fun column hcolumn => by simp [hstated column hcolumn]
  constructor
  · intro h
    have hstated : ∀ column ∈ columns, column.origin ≠ .unnamed := by
      intro column hcolumn
      have hself : column ∈ namedColumns columns column.name :=
        h column hcolumn ▸ List.mem_cons_self
      have hname : column.origin ≠ .unnamed ∧ column.name = column.name := by
        simpa using (List.mem_filter.mp hself).2
      exact hname.1
    -- A name occurs as often as there are columns of that name.
    refine ⟨List.nodup_iff_count_le_one.mpr fun name => ?_, hstated⟩
    by_cases hmem : name ∈ columns.map NamedField.name
    · obtain ⟨column, hcolumn, rfl⟩ := List.mem_map.mp hmem
      rw [hcount, ← hnamed hstated, h column hcolumn, List.length_singleton]
    · rw [List.count_eq_zero_of_not_mem hmem]
      exact Nat.zero_le 1
  · rintro ⟨hnodup, hstated⟩ column hcolumn
    -- The column is in the filtered list, and this has at most one element.
    have hself : column ∈ columns.filter fun other => other.name = column.name :=
      List.mem_filter.mpr ⟨hcolumn, by simp⟩
    have hlength := List.nodup_iff_count_le_one.mp hnodup column.name
    rw [hcount] at hlength
    rw [hnamed hstated]
    obtain ⟨other, hother⟩ :=
      List.length_eq_one_iff.mp (le_antisymm hlength (List.length_pos_of_mem hself))
    rw [hother] at hself ⊢
    rw [List.mem_singleton.mp hself]

/-- In distinguished columns a name has the value of its own column. -/
theorem rowValue_of_distinguished {α : Type} {columns : List NamedField} {row : List α}
    (hlength : columns.length = row.length) (h : Distinguished columns)
    {column : NamedField} {value : α}
    (hmem : (column, value) ∈ columns.zip row) : rowValue columns row column.name = some value := by
  have hcolumn := List.of_mem_zip hmem
  have hstated := (distinguished_iff.mp h).2 column hcolumn.1
  have hfst : (columns.zip row).map Prod.fst = columns := List.map_fst_zip hlength.le
  -- The entries of the row that the name selects are those of the columns that it selects.
  have hfilter : ((columns.zip row).filter fun entry =>
      entry.1.origin ≠ .unnamed ∧ entry.1.name = column.name).map Prod.fst = [column] := by
    conv_rhs => rw [← h column hcolumn.1, namedColumns, ← hfst, List.filter_map]
    rfl
  obtain ⟨entry, hentry, -⟩ := List.map_eq_singleton_iff.mp hfilter
  have hvalue : (column, value) ∈ (columns.zip row).filter fun entry =>
      entry.1.origin ≠ .unnamed ∧ entry.1.name = column.name :=
    List.mem_filter.mpr ⟨hmem, by simpa using hstated⟩
  rw [hentry, List.mem_singleton] at hvalue
  rw [rowValue, hentry, ← hvalue]

/-- The outer projection takes every row of the statement as it is, up to the casts. -/
theorem rowValues_of_means {α : Type} {columns : List NamedField} {items : List OuterItem}
    {row : List α}
    (h : List.Forall₂ (OuterItem.Means columns) items columns)
    (hlength : columns.length = row.length) :
    items.map (fun item => rowValue columns row item.reference) = row.map some := by
  obtain ⟨hreferences, -, hdistinguished⟩ := forall₂_means_iff.mp h
  have hfst : (columns.zip row).map Prod.fst = columns := List.map_fst_zip hlength.le
  have hsnd : (columns.zip row).map Prod.snd = row := List.map_snd_zip hlength.ge
  calc items.map (fun item => rowValue columns row item.reference)
      = (columns.map NamedField.name).map (rowValue columns row) := by
        rw [← hreferences, List.map_map]; rfl
    _ = (columns.zip row).map fun entry => rowValue columns row entry.1.name := by
        conv_lhs => rw [← hfst]
        rw [List.map_map, List.map_map, hfst]
        rfl
    _ = (columns.zip row).map fun entry => some entry.2 :=
        List.map_congr_left fun _ hentry => rowValue_of_distinguished hlength hdistinguished hentry
    _ = row.map some := by
        conv_rhs => rw [← hsnd, List.map_map]
        rfl

/-! ## The columns of an emitted statement -/

/-- The schema of a rewritten query body has the names of its columns. -/
theorem names_rewriteSetExpr {catalog : Catalog} {enabled : Bool} (ctes : CteFields) :
    ∀ {body : BoundSetExpr},
    (∀ b ∈ setExprs body, SetExprConsistent b) →
    (rewriteSetExpr catalog enabled body).1.resultSchema.fields.map ResultField.name =
      (setExprFields .plain ctes (rewriteSetExpr catalog enabled body).1).map NamedField.name
  | .select ⟨_, projection, from_, _, _, _, _, _⟩, _ => by
    have hfields : projectionFields = itemFields := by
      funext item
      cases item <;> rfl
    simp only [rewriteSetExpr, rewriteSelect, setExprFields, BoundSetExpr.resultSchema,
      List.map_flatMap, name_itemNamedFields, hfields]
  | .unionAll left _ _ _, h => by
    have hleft : ∀ b ∈ setExprs left, SetExprConsistent b := fun b hb =>
      h b (List.mem_cons_of_mem _ (List.mem_append_left _ hb))
    simp only [rewriteSetExpr, setExprFields]
    exact names_rewriteSetExpr ctes hleft
  | .unsupported .., h => (h _ (mem_setExprs_self _)).elim

/-- The schema of an artifact is that of the rewritten plan. -/
theorem resultSchema_of_emit {bound : BoundQuery} {catalog : Catalog} {artifact : SqlArtifact}
    (h : ClickHouseAdapter.emit bound catalog = .ok artifact) :
    artifact.resultSchema = (emittedPlan catalog .clickHouse bound.plan).resultSchema := by
  simp only [ClickHouseAdapter.emit] at h
  split at h
  · cases h
  · obtain ⟨emitted, hemitted, h⟩ := bind_eq_ok.mp h
    obtain ⟨pieces, -, hemitted⟩ := bind_eq_ok.mp hemitted
    cases hemitted
    split at h <;> cases h <;> rfl

/-- The schema of an artifact has the names of the columns of its statement, unless this explains
it. -/
theorem names_of_emit {context : BinderContext} {parsed : ParsedQuery} {bound : BoundQuery}
    {catalog : Catalog}
    {artifact : SqlArtifact} (hbound : bindAndValidate context parsed = .ok bound)
    (hemit : ClickHouseAdapter.emit bound catalog = .ok artifact) :
    artifact.resultSchema.fields.map ResultField.name =
      (queryFields .plain (emittedPlan catalog .clickHouse bound.plan)).map NamedField.name := by
  have hvalid := validated_of_ok hbound
  have hconsistent : QueryConsistent bound.plan :=
    hvalid.plan ▸ consistentCases.bindCases.boundPlan context hvalid.accepted
  have hfields : queryFields .plain (emittedPlan catalog .clickHouse bound.plan) =
      setExprFields .plain (ctesFields .plain (emittedPlan catalog .clickHouse bound.plan).ctes)
        (rewriteSetExpr catalog ClickHouseAdapter.uuidArrowWorkaroundEnabled
            bound.plan.body).1 := by
    cases bound.plan
    simp only [emittedPlan, rewritten, rewriteQueryPlan, queryFields]
  rw [resultSchema_of_emit hemit, hfields]
  exact (congrArg (List.map ResultField.name) (congrArg ResultSchema.fields
    (resultSchema_rewritten catalog bound.plan))).trans (names_rewriteSetExpr _ hconsistent.body)

/-- The columns of the emitted statement are those of the bound plan, with the names that its SQL
states. -/
theorem queryFields_emittedPlan {context : BinderContext} {parsed : ParsedQuery}
    {bound : BoundQuery} (h : bindAndValidate context parsed = .ok bound) (catalog : Catalog) :
    queryFields .plain (emittedPlan catalog .clickHouse bound.plan) =
      queryFields (statedNames catalog .clickHouse) bound.plan := by
  have hvalid := validated_of_ok h
  have hagree := (agreeCases (expand_statedNames catalog .clickHouse)
    fun from_ _ => shows_statedNames catalog .clickHouse from_).bindCases.boundPlan context
      hvalid.accepted
  rw [← hvalid.plan] at hagree
  exact (queryFields_rewriteQueryPlan catalog _ bound.plan).trans hagree.1

/-- The SQL that is emitted for the query names every column of its result, and no two alike. Each
projected expression has an alias, is a column without a merge function, or is a UUID that becomes a
text, and what a wildcard stands for has names already. -/
structure NamesColumns (catalog : Catalog) (bound : BoundQuery) : Prop where
  plain : bound.parsed.explain = false
  nodup : ((queryFields (statedNames catalog .clickHouse) bound.plan).map NamedField.name).Nodup
  stated : ∀ field ∈ queryFields (statedNames catalog .clickHouse) bound.plan,
    field.origin ≠ .unnamed

/-- The statement that is built for Arrow output has the columns of the emitted one, each under a
name that this states, exactly when no column needs a cast or the emitted statement names each of
its columns differently. -/
theorem arrowSafe_iff {context : BinderContext} {parsed : ParsedQuery} {bound : BoundQuery}
    {catalog : Catalog}
    {artifact : SqlArtifact} (hbound : bindAndValidate context parsed = .ok bound)
    (hemit : ClickHouseAdapter.emit bound catalog = .ok artifact) :
    ArrowSafe artifact
      (statementColumns bound.parsed.explain (rewriteQueryForClickhouse bound catalog
        ClickHouseAdapter.uuidArrowWorkaroundEnabled).1.plan) ↔
      (artifact.resultSchema.fields.any resultFieldNeedsArrowCast = true →
        NamesColumns catalog bound) := by
  have hnames := names_of_emit hbound hemit
  have hplan := queryFields_emittedPlan hbound catalog
  have htext := clickhouseArrowSafeSql_eq artifact.text artifact.resultSchema
  change ArrowSafe artifact (statementColumns bound.parsed.explain
    (emittedPlan catalog .clickHouse bound.plan)) ↔ _
  by_cases hcast : artifact.resultSchema.fields.any resultFieldNeedsArrowCast = true
  · simp only [ArrowSafe, outerProjection, hcast, if_true, true_imp_iff] at htext ⊢
    rw [clickhouseArrowSafeArtifactSql, htext, eq_self, true_and, forall₂_means_iff,
      distinguished_iff]
    cases hexplain : bound.parsed.explain with
    | true =>
      -- The one column of an explained statement has no name there.
      refine iff_of_false (fun ⟨_, _, _, hstated⟩ => hstated _ List.mem_cons_self rfl)
        fun hnamed => ?_
      exact absurd hnamed.plain (by simp [hexplain])
    | false =>
      have hitems : (artifact.resultSchema.fields.map outerItem).map OuterItem.reference =
          (queryFields .plain (emittedPlan catalog .clickHouse bound.plan)).map
              NamedField.name := by
        rw [List.map_map]
        exact hnames
      simp only [statementColumns, Bool.false_eq_true, if_false]
      rw [hplan] at hitems ⊢
      constructor
      · rintro ⟨-, -, hnodup, hstated⟩
        exact ⟨hexplain, hnodup, hstated⟩
      · rintro ⟨-, hnodup, hstated⟩
        exact ⟨hitems, by rw [← hitems, List.map_map, List.map_map]; rfl, hnodup, hstated⟩
  · simp only [ArrowSafe, outerProjection, hcast, if_false, Bool.false_eq_true] at htext ⊢
    exact iff_of_true htext fun h => h.elim

/-- The relation `documents`, with a JSON column. -/
def documents : BinderContext where
  catalog := (MemoryCatalog.registerRelation {}
    { namespace_ := none, name := "documents", aliases := [], kind := .table
      columns := [{ name := "attrs", dataType := .json, nullable := false }] }).toCatalog
  parameters := {}
  toLowercase c := [c.toLower]

/-- `SELECT attrs, <expr> AS <alias> FROM documents`. -/
def selectAttrs (expr : SyntaxExprKind) (alias_ : Option String) : ParsedQuery :=
  let node : SyntaxNode := { span := none, nodeId := "q" }
  let query := selectId [] (plainTable "documents")
  parsedTree { query with
    body := .select
      { distinct := false
        projection := [.expr ⟨⟨.column none "attrs", node⟩, none, node⟩,
          .expr ⟨⟨expr, { node with nodeId := "q.p1" }⟩, alias_, node⟩]
        from_ := [⟨plainTable "documents", [], node⟩], selection := none, groupBy := [],
        having := none, node } }

/-- With an alias the second column of `SELECT attrs, 1 AS one FROM documents` has a name. -/
theorem aliasedOne_arrowSafe : ∃ bound artifact,
    bindAndValidate documents (selectAttrs (.literal (.int64 1)) (some "one")) = .ok bound ∧
      ClickHouseAdapter.emit bound documents.catalog = .ok artifact ∧
      ArrowSafe artifact
        (statementColumns bound.parsed.explain (rewriteQueryForClickhouse bound documents.catalog
        ClickHouseAdapter.uuidArrowWorkaroundEnabled).1.plan) := by
  refine ⟨_, _, rfl, rfl, ?_⟩
  exact (@arrowSafe_iff documents
    (selectAttrs (.literal (.int64 1)) (some "one")) _ documents.catalog _ rfl
    rfl).mpr fun _ => ⟨rfl, by decide, by decide⟩

/-- Without one, the outer projection refers to it by the id of its node, and nothing in the
statement is so called. -/
theorem unnamedOne_not_arrowSafe : ∃ bound artifact,
    bindAndValidate documents (selectAttrs (.literal (.int64 1)) none) = .ok bound ∧
      ClickHouseAdapter.emit bound documents.catalog = .ok artifact ∧
      artifact.text = "SELECT documents.attrs, 1 FROM documents" ∧
      clickhouseArrowSafeArtifactSql artifact =
        "SELECT toJSONString(\"attrs\") AS \"attrs\", \"q.p1\" AS \"q.p1\" " ++
          "FROM (SELECT documents.attrs, 1 FROM documents) AS \"_syndb_arrow_safe\"" ∧
      ¬ ArrowSafe artifact
        (statementColumns bound.parsed.explain (rewriteQueryForClickhouse bound documents.catalog
        ClickHouseAdapter.uuidArrowWorkaroundEnabled).1.plan) := by
  refine ⟨_, _, rfl, rfl, by decide +kernel, by decide +kernel, fun h => ?_⟩
  have hmeans := (forall₂_means_iff.mp h.2).2.2
  exact absurd (distinguished_iff.mp hmeans).2 (by decide)

end QueryFabric.ClickHouse
