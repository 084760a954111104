import QueryFabric.Render.Resolution
import QueryFabric.Render.Spelling

/-!
# The names of a plan, as they are spelled

`NamesExact` says that the tables and columns of a bound query have the names that the catalog has.
What a column is looked up in differs between the plan and the text: the plan knows which fields of
a nested query the SQL will name, and a column is qualified by the relation that the binder found it
in. Neither makes a difference for the names (`exact_spelled`, `fields_resolved`).
-/

namespace QueryFabric.Render

open QueryFabric.Bind ClickHouse Lib

/-! ## The names of a plan -/

mutual

/-- The names of the tables of a relation, without those of the queries in it. -/
def relationTables : BoundRelation → List NameRef
  | .table binding _ => binding.relationName.toList
  | .derived .. => []
  | .nestedJoin _ ⟨relation, joins, _⟩ _ => relationTables relation ++ joinTables joins
  | .unsupported .. => []

/-- The names of the tables of joined relations. -/
def joinTables : List BoundJoin → List NameRef
  | [] => []
  | ⟨_, relation, _, _⟩ :: joins => relationTables relation ++ joinTables joins

end

/-- The names of the tables of a `FROM` clause. -/
def fromTables (from_ : List BoundTableWithJoins) : List NameRef :=
  from_.flatMap fun table => relationTables table.relation ++ joinTables table.joins

/-- The names of the tables of a query body. -/
def setExprTables : BoundSetExpr → List NameRef
  | .select select => fromTables select.from_
  | .unionAll left right _ _ => setExprTables left ++ setExprTables right
  | .unsupported .. => []

/-- The names of the tables of a query, without those of the queries in it. -/
def queryTables (query : BoundQueryPlan) : List NameRef := setExprTables query.body

/-- The relation of the catalog that a table of a query means, unless it means one of the query's
CTEs. -/
def catalogRelation? (context : BinderContext) (query : BoundQueryPlan) (name : NameRef) :
    Option RelationSchema :=
  meantRelation? context.catalog (query.ctes.map BoundCte.name) name

/-- The tables of a query that mean a relation of the catalog have its namespace and name. -/
def TablesExact (context : BinderContext) (query : BoundQueryPlan) : Prop :=
  ∀ name ∈ queryTables query, ∀ relation, catalogRelation? context query name = some relation →
    name = ⟨relation.namespace_, relation.name⟩

/-- A column that means a column of a relation of the catalog has its name. -/
def ColumnUse.Exact (use : ColumnUse) : Prop :=
  ∀ field ∈ use.fields, field.origin = .column → use.column.name = field.name

/-- The tables and columns of a query have the names that the catalog has. -/
def NamesExact (context : BinderContext) (emission : Emission) (query : BoundQueryPlan) : Prop :=
  TablesExact context query ∧ ∀ use ∈ queryColumns emission query, use.Exact

/-- The fields that a column may mean have its name, in some letter case. -/
theorem eqIgnoreAsciiCase_of_mem_fields {use : ColumnUse} {field : NamedField}
    (h : field ∈ use.fields) : eqIgnoreAsciiCase field.name use.column.name = true := by
  obtain ⟨source, -, hfield⟩ := List.mem_flatMap.mp h
  split at hfield
  · exact (List.mem_filter.mp hfield).2
  · cases hfield

/-- A column has the name of its field unless it is in other letters. -/
theorem ColumnUse.exact_iff {use : ColumnUse} : use.Exact ↔ ¬use.Recased := by
  constructor
  · rintro h ⟨field, hfield, horigin, -, hne⟩
    exact hne (h field hfield horigin).symm
  · intro h field hfield horigin
    by_contra hne
    exact h ⟨field, hfield, horigin, eqIgnoreAsciiCase_of_mem_fields hfield,
      fun heq => hne heq.symm⟩

/-! ## Fields as they are spelled -/

/-- The text does not tell whether the SQL will state the name of a field. -/
def NamedField.spelled (field : NamedField) : NamedField :=
  { field with origin := if field.origin = .column then .column else .named }

/-- A relation in scope, as it is spelled. -/
def Source.spelled (source : Source) : Source :=
  { source with fields := source.fields.map NamedField.spelled }

/-- The fields of CTEs, as they are spelled. -/
def spelledCtes (ctes : CteFields) : CteFields :=
  ctes.map fun cte => (cte.1, cte.2.map NamedField.spelled)

/-- A field keeps its name. -/
@[simp]
theorem NamedField.name_spelled (field : NamedField) : field.spelled.name = field.name := rfl

/-- A field of the catalog is spelled as one. -/
@[simp]
theorem NamedField.origin_spelled (field : NamedField) :
    field.spelled.origin = .column ↔ field.origin = .column := by
  unfold spelled
  dsimp only
  split <;> simp_all

/-- Fields keep their names. -/
@[simp]
theorem map_name_spelled (fields : List NamedField) :
    (fields.map NamedField.spelled).map NamedField.name = fields.map NamedField.name := by
  rw [List.map_map]
  rfl

/-- Relations keep their names. -/
@[simp]
theorem map_names_spelled (sources : List Source) :
    (sources.map Source.spelled).map Source.names = sources.map Source.names := by
  rw [List.map_map]
  refine List.map_congr_left fun source _ => ?_
  simp [Source.names, Source.spelled]

/-- CTEs keep their names. -/
@[simp]
theorem fst_spelledCtes (ctes : CteFields) :
    (spelledCtes ctes).map Prod.fst = ctes.map Prod.fst := by
  rw [spelledCtes, List.map_map]
  rfl

/-- A column is looked up to the fields as they are spelled. -/
theorem fields_spelled (sources : List Source) (column : BoundColumnRef) :
    (ColumnUse.mk (sources.map Source.spelled) column).fields =
      (ColumnUse.mk sources column).fields.map NamedField.spelled := by
  simp only [ColumnUse.fields, List.flatMap_map, List.map_flatMap, Source.spelled]
  congr 1
  funext source
  by_cases hrelation : column.relation.all (eqIgnoreAsciiCase source.bindingName)
  · simp only [hrelation, if_true, List.filter_map]
    rfl
  · simp only [hrelation, Bool.false_eq_true, if_false, List.map_nil]

/-- Whether a column has the name of its field can be told from the relations as they are
spelled. -/
theorem exact_spelled (sources : List Source) (column : BoundColumnRef) :
    (ColumnUse.mk (sources.map Source.spelled) column).Exact ↔
      (ColumnUse.mk sources column).Exact := by
  simp only [ColumnUse.Exact, fields_spelled, List.forall_mem_map, NamedField.origin_spelled,
    NamedField.name_spelled]

/-- The column list of a CTE, as it is spelled. -/
theorem cteNamedFields_spelled (columns : List String) (fields : List NamedField) :
    (cteNamedFields columns fields).map NamedField.spelled =
      cteNamedFields columns (fields.map NamedField.spelled) := by
  unfold cteNamedFields
  rw [List.length_map]
  split
  · simp [NamedField.spelled]
  · rfl

/-- The CTE of a name, as it is spelled. -/
theorem cte?_spelled (ctes : CteFields) (name : NameRef) :
    Spelled.cte? (spelledCtes ctes) name =
      (Spelled.cte? ctes name).map fun cte => (cte.1, cte.2.map NamedField.spelled) := by
  unfold Spelled.cte? spelledCtes
  split
  · rw [← List.map_reverse]
    exact List.find?_map
  · rfl

/-- A table is bound by the name that it has among the CTEs as they are spelled. -/
theorem tableName_spelled (ctes : CteFields) (name : NameRef) :
    Spelled.tableName (spelledCtes ctes) name = Spelled.tableName ctes name := by
  unfold Spelled.tableName
  rw [cte?_spelled]
  cases Spelled.cte? ctes name <;> rfl

/-- Fields whose origins are all kept are the same fields. -/
theorem withOrigins_origin (fields : List NamedField) :
    withOrigins (fields.map NamedField.name) (fields.map NamedField.origin) = fields := by
  refine List.ext_getElem ?_ fun index _ hindex => ?_
  · simp [withOrigins]
  · simp [withOrigins, List.getD_eq_getElem?_getD, hindex]

/-- No field that a projection makes is a column of the catalog. -/
theorem withOrigins_spelled {origins : List FieldOrigin} (h : ∀ origin ∈ origins, origin ≠ .column)
    (names : List String) : (withOrigins names origins).map NamedField.spelled =
      names.map (⟨·, .named⟩) := by
  have horigin : ∀ index, origins.getD index .named ≠ .column := by
    intro index
    rw [List.getD_eq_getElem?_getD]
    cases hget : origins[index]? with
    | none => simp
    | some origin => exact h origin (List.mem_of_getElem? hget)
  refine List.ext_getElem ?_ fun index _ _ => ?_
  · simp [withOrigins]
  · simp only [withOrigins, List.getElem_map, List.getElem_zipIdx, NamedField.spelled, Nat.zero_add,
      horigin, if_false]

/-! ## Columns in a scope -/

/-- As many fields as the binder finds are looked up. -/
theorem length_fields {scope : Scope} {sources : List Source}
    (hsources : sources.map Source.names = scopeNames scope) (column : BoundColumnRef) :
    (ColumnUse.mk sources column).fields.length =
      (scope.entries.flatMap (Scope.entryMatches column.relation column.name)).length := by
  have hnames := congrArg List.length (name_fields ⟨sources, column⟩)
  rw [List.length_map] at hnames
  rw [hnames, hsources, matchingNames_eq_resolveColumn, List.length_map]

/-- The relation that the binder resolves a column to leads to the same field. -/
theorem fields_resolved {scope : Scope} {sources : List Source} {relation : Option String}
    {name : String} {column : ResolvedColumn}
    (hsources : sources.map Source.names = scopeNames scope)
    (h : scope.resolveColumn relation name = .local column) :
    (ColumnUse.mk sources ⟨column.relation, name⟩).fields =
      (ColumnUse.mk sources ⟨relation, name⟩).fields := by
  have hfound := resolveColumn_eq_local_iff.mp h
  have hresolved := entryMatches_resolved hfound
  cases relation with
  | some relation =>
    -- The two qualifiers differ in letter case at most.
    have hcolumn : column ∈ scope.entries.flatMap (Scope.entryMatches (some relation) name) := by
      rw [hfound]
      exact List.mem_cons_self
    obtain ⟨entry, -, hmatch⟩ := List.mem_flatMap.mp hcolumn
    unfold Scope.entryMatches at hmatch
    split at hmatch
    · rename_i hrelation
      obtain ⟨field, -, rfl⟩ := List.mem_map.mp hmatch
      have hsame : ∀ other, eqIgnoreAsciiCase other entry.bindingName =
          eqIgnoreAsciiCase other relation := fun other => by
        rw [eqIgnoreAsciiCase, eqIgnoreAsciiCase, eqIgnoreAsciiCase_iff.mp hrelation]
      simp only [ColumnUse.fields, Option.all_some, hsame]
    · cases hmatch
  | none =>
    -- The qualifier rules out fields, but there was one field only.
    have hsub : (ColumnUse.mk sources ⟨column.relation, name⟩).fields.Sublist
        (ColumnUse.mk sources ⟨none, name⟩).fields := by
      refine List.Sublist.flatMap_right _ fun source _ => ?_
      simp only [Option.all_none, if_true]
      split
      · exact List.Sublist.refl _
      · exact List.nil_sublist _
    refine hsub.eq_of_length ?_
    rw [length_fields hsources, length_fields hsources, hfound, hresolved]

/-- Whether a column has the name of its field can be told from the column as it is spelled. -/
theorem exact_resolved {scope : Scope} {sources : List Source} {relation : Option String}
    {name : String} {column : ResolvedColumn}
    (hsources : sources.map Source.names = scopeNames scope)
    (h : scope.resolveColumn relation name = .local column) :
    (ColumnUse.mk sources ⟨column.relation, name⟩).Exact ↔
      (ColumnUse.mk (sources.map Source.spelled) ⟨relation, name⟩).Exact := by
  rw [exact_spelled]
  simp only [ColumnUse.Exact, fields_resolved hsources h]

/-- The names that a wildcard stands for. -/
def wildcardNames (names : List (String × List String)) : Option String → List String
  | none => names.flatMap Prod.snd
  | some qualifier =>
    ((names.find? fun relation => eqIgnoreAsciiCase relation.1 qualifier).map Prod.snd).getD []

/-- The names of the fields of a wildcard. -/
theorem name_wildcardFields (sources : List Source) (qualifier : Option String) :
    (wildcardFields sources qualifier).map NamedField.name =
      wildcardNames (sources.map Source.names) qualifier := by
  cases qualifier with
  | none =>
    simp only [wildcardFields, wildcardNames, List.map_flatMap, List.flatMap_map, Source.names]
  | some name =>
    have hfind :
      (sources.map Source.names).find? (fun relation => eqIgnoreAsciiCase relation.1 name) =
        (sources.find? fun source => eqIgnoreAsciiCase source.bindingName name).map
          Source.names := List.find?_map
    simp only [wildcardFields, wildcardNames, hfind]
    cases sources.find? fun source => eqIgnoreAsciiCase source.bindingName name <;> rfl

/-- The fields that a wildcard is bound to have the names that it stands for. -/
theorem yields_bindWildcard_names (scope : Scope) (qualifier : Option String) (node : SyntaxNode) :
    Yields Failed (bindWildcard scope qualifier node) fun fields =>
      fields.map ResultField.name = wildcardNames (scopeNames scope) qualifier := by
  unfold bindWildcard
  split
  · refine Yields.pure ?_
    simp only [Scope.expandAll, scopeNames, wildcardNames, List.map_flatMap, List.flatMap_map]
  · rename_i name
    split
    · rename_i fields hfields
      refine Yields.pure ?_
      obtain ⟨entry, hentry, rfl⟩ := Option.map_eq_some_iff.mp hfields
      have hfind : (scopeNames scope).find? (fun relation => eqIgnoreAsciiCase relation.1 name) =
          (scope.entries.find? fun entry => eqIgnoreAsciiCase entry.bindingName name).map
            fun entry => (entry.bindingName, entry.schema.fields.map ResultField.name) :=
        List.find?_map
      simp only [wildcardNames, hfind, hentry, Option.map_some, Option.getD_some]
    · exact Yields.bind (yields_pushError _ _ _ _ fun _ => False) fun _ => Yields.pure False.elim

/-! ## CTEs in scope -/

/-- The binder knows the CTEs by their names and the names of their fields. -/
def CtesKnown (cteScope : CteScope) (ctes : CteFields) : Prop :=
  ∀ name, (cteScope.lookup (toAsciiLowercase name)).map (fun entry =>
      (entry.binding.bindingName, entry.binding.relationName,
        entry.binding.schema.fields.map ResultField.name)) =
    (ctes.reverse.find? fun cte => eqIgnoreAsciiCase cte.1 name).map fun cte =>
      (cte.1, some { namespace_ := none, name := cte.1 }, cte.2.map NamedField.name)

/-- There are no CTEs in an empty scope. -/
theorem ctesKnown_nil : CtesKnown [] [] := fun _ => rfl

/-- A CTE that is inserted is the last one of its name. -/
theorem CtesKnown.insert {cteScope : CteScope} {ctes : CteFields} (h : CtesKnown cteScope ctes)
    (definition : SyntaxCte) {name : String} {schema : ResultSchema} {fields : List NamedField}
    (hfields : schema.fields.map ResultField.name = fields.map NamedField.name) :
    CtesKnown (mapInsert (fun a b => decide (a < b)) (toAsciiLowercase name)
      { definition
        binding := { bindingName := name, relationName := some { namespace_ := none, name }
                     schema } } cteScope) (ctes ++ [(name, fields)]) := by
  intro other
  rw [lookup_mapInsert_string, List.reverse_append, List.reverse_singleton, List.singleton_append,
    List.find?_cons, eqIgnoreAsciiCase]
  by_cases heq : toAsciiLowercase other = toAsciiLowercase name
  · simp [heq, hfields]
  · have hne : (toAsciiLowercase name == toAsciiLowercase other) = false := by
      simpa using fun h => heq h.symm
    simp only [if_neg heq, hne]
    exact h other

end QueryFabric.Render
