import QueryFabric.Render.Sources
import Mathlib.Data.List.Flatten

/-!
# Columns mean one field

`ColumnUse.fields` looks a column up in the sources that its place in the plan gives it. The binder
had looked it up in a scope, whose relations have the same names and the same fields (`scopeNames`),
and it bound the column to the one field that it found. So a column of an accepted query means
exactly one field, at any depth: `columns_resolved`.
-/

namespace QueryFabric.Render

open QueryFabric.Bind ClickHouse Lib

/-! ## Names in scope -/

/-- A relation in scope by name: its own, and those of its fields. -/
def Source.names (source : Source) : String × List String :=
  (source.bindingName, source.fields.map NamedField.name)

/-- The names in a scope. -/
def scopeNames (scope : Scope) : List (String × List String) :=
  scope.entries.map fun entry => (entry.bindingName, entry.schema.fields.map ResultField.name)

/-- The names that binding a relation adds to a scope. -/
def boundNames (relation : BoundRelation) : List (String × List String) :=
  relation.binding.toList.map fun binding =>
    (binding.bindingName, binding.schema.fields.map ResultField.name)

/-- The names that binding a relation and the joins to it adds to a scope. -/
def joinedBoundNames (relation : BoundRelation) (joins : List BoundJoin) :
    List (String × List String) :=
  boundNames relation ++ flatMapJoins boundNames (fun _ => []) joins

/-- The names of the fields that a column may mean. -/
def matchingNames (names : List (String × List String)) (column : BoundColumnRef) : List String :=
  names.flatMap fun (name, fields) =>
    if column.relation.all (eqIgnoreAsciiCase name) then
      fields.filter (eqIgnoreAsciiCase · column.name)
    else []

/-- The column means one field. -/
def Resolved (names : List (String × List String)) (column : BoundColumnRef) : Prop :=
  (matchingNames names column).length = 1

/-- The names of the fields that a column may mean. -/
theorem name_fields (use : ColumnUse) :
    use.fields.map NamedField.name = matchingNames (use.sources.map Source.names) use.column := by
  obtain ⟨sources, column⟩ := use
  simp only [ColumnUse.fields, matchingNames, List.map_flatMap, List.flatMap_map, Source.names]
  congr 1
  funext source
  by_cases hrelation : column.relation.all (eqIgnoreAsciiCase source.bindingName)
  · simp only [hrelation, if_true, List.filter_map]
    rfl
  · simp only [hrelation, Bool.false_eq_true, if_false, List.map_nil]

/-- The names that a column matches are those of the entries in the scope. -/
theorem matchingNames_eq_resolveColumn (scope : Scope) (column : BoundColumnRef) :
    matchingNames (scopeNames scope) column =
      (scope.entries.flatMap (Scope.entryMatches column.relation column.name)).map
        fun resolved => resolved.field.name := by
  simp only [matchingNames, scopeNames, List.flatMap_map, List.map_flatMap, Scope.entryMatches]
  congr 1
  funext entry
  by_cases hrelation : column.relation.all (eqIgnoreAsciiCase entry.bindingName)
  · simp only [hrelation, if_true, List.filter_map, List.map_map]
    rfl
  · simp only [hrelation, Bool.false_eq_true, if_false, List.map_nil]

/-- A column is resolved when one entry of the scope matches it. -/
theorem resolveColumn_eq_local_iff {scope : Scope} {relation : Option String} {name : String}
    {column : ResolvedColumn} : scope.resolveColumn relation name = .local column ↔
      scope.entries.flatMap (Scope.entryMatches relation name) = [column] := by
  unfold Scope.resolveColumn
  constructor
  · intro h
    split at h
    · cases h
    · rename_i heq
      cases h
      exact heq
    · cases h
  · intro h
    rw [h]

/-- The relation that a column was resolved to is looked up to the same column. -/
theorem entryMatches_resolved {scope : Scope} {relation : Option String} {name : String}
    {column : ResolvedColumn}
    (h : scope.entries.flatMap (Scope.entryMatches relation name) = [column]) :
    scope.entries.flatMap (Scope.entryMatches column.relation name) = [column] := by
  have hcolumn : column ∈ scope.entries.flatMap (Scope.entryMatches relation name) := by
    rw [h]
    exact List.mem_cons_self
  obtain ⟨entry, hentry, hmatch⟩ := List.mem_flatMap.mp hcolumn
  have hrelation : relation.all (eqIgnoreAsciiCase entry.bindingName) = true := by
    by_contra hrelation
    simp [Scope.entryMatches, hrelation] at hmatch
  have hself : column.relation = some entry.bindingName := by
    rw [Scope.entryMatches, if_pos hrelation] at hmatch
    obtain ⟨field, -, rfl⟩ := List.mem_map.mp hmatch
    rfl
  cases relation with
  | some relation =>
    -- The names differ in letter case at most, so they are looked up alike.
    rw [← h, hself]
    congr 1
    funext other
    have hsame := eqIgnoreAsciiCase_iff.mp hrelation
    have hother : eqIgnoreAsciiCase other.bindingName entry.bindingName =
        eqIgnoreAsciiCase other.bindingName relation := by
      rw [eqIgnoreAsciiCase, eqIgnoreAsciiCase, hsame]
    simp only [Scope.entryMatches, Option.all_some, hother]
  | none =>
    -- The relation rules out some of the columns, but not the one that was found.
    have hsub :
        (scope.entries.flatMap (Scope.entryMatches column.relation name)).Sublist [column] := by
      rw [← h]
      refine List.Sublist.flatMap_right _ fun other _ => ?_
      simp only [Scope.entryMatches, Option.all_none, if_true]
      split
      · exact List.Sublist.refl _
      · exact List.nil_sublist _
    have hmem : column ∈ scope.entries.flatMap (Scope.entryMatches column.relation name) := by
      refine List.mem_flatMap.mpr ⟨entry, hentry, ?_⟩
      rw [Scope.entryMatches, if_pos hrelation] at hmatch
      rw [hself, Scope.entryMatches, if_pos (by simp)]
      exact hmatch
    obtain hnil | hone := List.sublist_singleton.mp hsub
    · rw [hnil] at hmem
      cases hmem
    · exact hone

/-- What the binder resolves is resolved by the names. -/
theorem resolved_of_resolveColumn {scope : Scope} {relation : Option String} {name : String}
    {column : ResolvedColumn} (h : scope.resolveColumn relation name = .local column) :
    Resolved (scopeNames scope) ⟨column.relation, name⟩ := by
  have hfound := entryMatches_resolved (resolveColumn_eq_local_iff.mp h)
  rw [Resolved, matchingNames_eq_resolveColumn, List.length_map, hfound]
  rfl

/-! ## The names that binding adds -/

/-- A relation adds its names to a scope. -/
theorem scopeNames_pushRelation (scope : Scope) (relation : BoundRelation) :
    scopeNames (scope.pushRelation relation) = scopeNames scope ++ boundNames relation := by
  unfold Scope.pushRelation boundNames
  cases relation.binding <;> simp [scopeNames]

/-- A schema that becomes nullable keeps its names. -/
theorem names_makeSchemaNullable (schema : ResultSchema) :
    (makeSchemaNullable schema).fields.map ResultField.name =
      schema.fields.map ResultField.name := by
  rw [makeSchemaNullable, List.map_map]
  rfl

/-- A scope without nullability has the same names. -/
theorem scopeNames_makeAllNullable (scope : Scope) :
    scopeNames scope.makeAllNullable = scopeNames scope := by
  simp [scopeNames, Scope.makeAllNullable, names_makeSchemaNullable]

/-- A relation that becomes nullable keeps its names. -/
theorem boundNames_makeRelationNullable (relation : BoundRelation) :
    boundNames (makeRelationNullable relation) = boundNames relation := by
  cases relation <;>
    simp [boundNames, makeRelationNullable, BoundRelation.binding, names_makeSchemaNullable]

/-- A table adds its names to a scope. -/
theorem scopeNames_mergeTable (scope : Scope) (table : BoundTableWithJoins) :
    scopeNames (scope.mergeTable table) = scopeNames scope ++
      joinedBoundNames table.relation table.joins := by
  have hjoins : ∀ (joins : List BoundJoin) (scope : Scope),
      scopeNames (joins.foldl (fun scope join => scope.pushRelation join.relation) scope) =
        scopeNames scope ++ flatMapJoins boundNames (fun _ => []) joins := by
    intro joins
    induction joins with
    | nil => intro scope; simp [flatMapJoins]
    | cons join joins ih =>
      intro scope
      rw [List.foldl_cons, ih, scopeNames_pushRelation]
      simp [flatMapJoins]
  rw [Scope.mergeTable, hjoins, scopeNames_pushRelation, joinedBoundNames, List.append_assoc]

/-- A join adds its names to the scope. -/
theorem scopeNames_addJoin (state : JoinState) (kind : JoinKind) (joined : BoundRelation)
    (on : Option BoundExpr) (nd : SyntaxNode) :
    scopeNames (state.addJoin kind joined on nd).joinScope =
      scopeNames state.joinScope ++ boundNames joined := by
  have hjoined : boundNames (makeRelationNullable joined) = boundNames joined :=
    boundNames_makeRelationNullable joined
  have hscope : scopeNames state.joinScope.makeAllNullable = scopeNames state.joinScope :=
    scopeNames_makeAllNullable state.joinScope
  cases kind with
  | inner => exact scopeNames_pushRelation _ _
  | cross => exact scopeNames_pushRelation _ _
  | left => exact (scopeNames_pushRelation _ _).trans (congrArg _ hjoined)
  | right => exact (scopeNames_pushRelation _ _).trans (congrArg (· ++ _) hscope)
  | full => exact (scopeNames_pushRelation _ _).trans (congrArg₂ (· ++ ·) hscope hjoined)

/-- A join adds its names to those of the relation. -/
theorem joinedBoundNames_addJoin (state : JoinState) (kind : JoinKind) (joined : BoundRelation)
    (on : Option BoundExpr) (nd : SyntaxNode) :
    joinedBoundNames (state.addJoin kind joined on nd).relation
      (state.addJoin kind joined on nd).joins =
      joinedBoundNames state.relation state.joins ++ boundNames joined := by
  rw [joinedBoundNames, flatMapJoins_addJoin boundNames_makeRelationNullable, List.append_nil,
    joinedBoundNames]

/-! ## Sources of joined relations -/

section Joined

variable (emission : Emission) (ctes : CteFields)

/-- A relation that becomes nullable keeps its sources. -/
theorem relationSources_makeRelationNullable (relation : BoundRelation) :
    relationSources emission ctes (makeRelationNullable relation) =
      relationSources emission ctes relation := by
  cases relation with
  | table binding node =>
    simp [makeRelationNullable, relationSources, tableFields, names_makeSchemaNullable]
  | nestedJoin binding table node =>
    cases table
    simp [makeRelationNullable, relationSources]
  | _ => simp [makeRelationNullable, relationSources]

/-- A relation that becomes nullable keeps its columns. -/
theorem relationColumns_makeRelationNullable (before : List Source) (relation : BoundRelation) :
    relationColumns emission ctes before (makeRelationNullable relation) =
      relationColumns emission ctes before relation := by
  cases relation with
  | nestedJoin binding table node =>
    cases table
    simp [makeRelationNullable, relationColumns]
  | _ => simp [makeRelationNullable, relationColumns]

/-- The sources of a relation and of the joins to it. -/
def joinedSources (relation : BoundRelation) (joins : List BoundJoin) : List Source :=
  relationSources emission ctes relation ++ joinSources emission ctes joins

/-- The columns of the join conditions of a relation and of the joins to it. -/
def joinedColumns (before : List Source) (relation : BoundRelation) (joins : List BoundJoin) :
    List ColumnUse :=
  relationColumns emission ctes before relation ++
    joinColumns emission ctes (before ++ relationSources emission ctes relation) joins

/-- The sources of joins, join by join. -/
theorem joinSources_eq_flatMapJoins (joins : List BoundJoin) :
    joinSources emission ctes joins =
      flatMapJoins (relationSources emission ctes) (fun _ => []) joins := by
  induction joins with
  | nil => rfl
  | cons join joins ih =>
    cases join
    simp [joinSources, ih, flatMapJoins]

/-- A join adds its sources. -/
theorem joinedSources_addJoin (state : JoinState) (kind : JoinKind) (joined : BoundRelation)
    (on : Option BoundExpr) (nd : SyntaxNode) :
    joinedSources emission ctes (state.addJoin kind joined on nd).relation
      (state.addJoin kind joined on nd).joins =
      joinedSources emission ctes state.relation state.joins ++
        relationSources emission ctes joined := by
  simp only [joinedSources, joinSources_eq_flatMapJoins,
    flatMapJoins_addJoin (relationSources_makeRelationNullable emission ctes), List.append_nil]

/-- The sources of a relation are added to those before it. -/
def pushSources (before : List Source) (relation : BoundRelation) : List Source :=
  before ++ relationSources emission ctes relation

/-- The columns of a join condition, in the sources that it sees. -/
def conditionColumns (sources : List Source) (on : Option BoundExpr) : List ColumnUse :=
  (on.toList.flatMap exprColumns).map (⟨sources, ·⟩)

/-- The columns of joins, scanned join by join. -/
theorem joinColumns_eq_scanJoins (joins : List BoundJoin) : ∀ before : List Source,
    joinColumns emission ctes before joins =
      scanJoins (pushSources emission ctes)
        (relationColumns emission ctes) conditionColumns before joins := by
  induction joins with
  | nil => intro before; rw [joinColumns, scanJoins]
  | cons join joins ih =>
    intro before
    cases join
    rw [joinColumns, scanJoins, ih]
    rfl

/-- Joins push their sources. -/
theorem pushJoins_pushSources (joins : List BoundJoin) : ∀ before : List Source,
    pushJoins (pushSources emission ctes) before joins = before ++
      joinSources emission ctes joins := by
  induction joins with
  | nil => intro before; rw [joinSources, List.append_nil]; rfl
  | cons join joins ih =>
    intro before
    cases join
    rw [joinSources, ← List.append_assoc]
    exact ih _

/-- A join adds its columns. -/
theorem joinedColumns_addJoin (before : List Source) (state : JoinState) (kind : JoinKind)
    (joined : BoundRelation) (on : Option BoundExpr) (nd : SyntaxNode) :
    joinedColumns emission ctes before (state.addJoin kind joined on nd).relation
        (state.addJoin kind joined on nd).joins =
      joinedColumns emission ctes before state.relation state.joins ++
        (relationColumns emission ctes
          (before ++ joinedSources emission ctes state.relation state.joins) joined ++
          (on.toList.flatMap exprColumns).map
            (⟨before ++ joinedSources emission ctes state.relation state.joins ++
              relationSources emission ctes joined, ·⟩)) := by
  have hpush : ∀ before r, pushSources emission ctes before (makeRelationNullable r) =
      pushSources emission ctes before r := fun before r =>
    congrArg (before ++ ·) (relationSources_makeRelationNullable emission ctes r)
  have hadd := scanJoins_addJoin (G := conditionColumns) hpush
    (relationColumns_makeRelationNullable emission ctes) before state kind joined on nd
  rw [pushJoins_pushSources, ← joinColumns_eq_scanJoins, ← joinColumns_eq_scanJoins] at hadd
  simp only [pushSources, List.append_assoc] at hadd
  simp only [joinedColumns, joinedSources, hadd, conditionColumns, List.append_assoc]

/-- The sources of a table come first. -/
theorem tablesSources_cons (t : BoundTableWithJoins) (ts : List BoundTableWithJoins) :
    tablesSources emission ctes (t :: ts) =
      joinedSources emission ctes t.relation t.joins ++ tablesSources emission ctes ts := by
  cases t
  rw [tablesSources, joinedSources]

/-- The columns of a table come first. -/
theorem tablesColumns_cons (before : List Source) (t : BoundTableWithJoins)
    (ts : List BoundTableWithJoins) :
    tablesColumns emission ctes before (t :: ts) =
      joinedColumns emission ctes before t.relation t.joins ++
      tablesColumns emission ctes
        (before ++ joinedSources emission ctes t.relation t.joins) ts := by
  cases t
  rw [tablesColumns, joinedColumns, joinedSources, List.append_assoc]

end Joined

/-! ## The induction -/

/-- A column use means one field. -/
def ColumnUse.Resolved (use : ColumnUse) : Prop :=
  Render.Resolved (use.sources.map Source.names) use.column

/-- A resolved use means one field. -/
theorem ColumnUse.Resolved.exists_field {use : ColumnUse} (h : use.Resolved) :
    ∃ field, use.fields = [field] := by
  rw [ColumnUse.Resolved, Render.Resolved, ← name_fields, List.length_map] at h
  exact List.length_eq_one_iff.mp h

/-- The columns of an expression mean one field each in a scope. -/
def ResolvedIn (scope : Scope) : ExprUse → Prop
  | .column column _ => Resolved (scopeNames scope) column
  | .membership .. => True

/-- The columns of a resolved expression are resolved. -/
theorem resolved_of_mem_exprColumns {scope : Scope} {expr : BoundExpr}
    (h : ∀ use ∈ exprUses expr, ResolvedIn scope use) {column : BoundColumnRef}
    (hcolumn : column ∈ exprColumns expr) : Resolved (scopeNames scope) column := by
  obtain ⟨use, huse, heq⟩ := List.mem_filterMap.mp hcolumn
  cases use with
  | column column' type =>
    cases heq
    exact h _ huse
  | membership type subquery => cases heq

/-- Columns of expressions that are bound in a scope mean one field each in sources of the same
names. -/
theorem resolved_of_mem_columns {scope : Scope} {sources : List Source} {exprs : List BoundExpr}
    (hsources : sources.map Source.names = scopeNames scope)
    (h : ∀ x ∈ exprs, ∀ use ∈ exprUses x, ResolvedIn scope use) :
    ∀ use ∈ (exprs.flatMap exprColumns).map (⟨sources, ·⟩), ColumnUse.Resolved use := by
  intro use huse
  obtain ⟨column, hcolumn, rfl⟩ := List.mem_map.mp huse
  obtain ⟨x, hx, hcolumn⟩ := List.mem_flatMap.mp hcolumn
  rw [ColumnUse.Resolved, hsources]
  exact resolved_of_mem_exprColumns (h x hx) hcolumn

/-- The properties of the parts of a plan that `ColumnUse.Resolved` comes from. Those of a part that
stands after others are for any sources that have the names of its scope. -/
def resolvedMotive : BindMotive where
  expr scope e := ∀ use ∈ exprUses e, ResolvedIn scope use
  query q :=
    (queryFields .plain q).map NamedField.name = q.resultSchema.fields.map ResultField.name ∧
    ∀ use ∈ queryColumns .plain q, use.Resolved
  -- The names do not depend on the CTEs in scope.
  setExpr body := ∀ ctes,
    (setExprFields .plain ctes body).map NamedField.name =
      body.resultSchema.fields.map ResultField.name ∧
    ∀ use ∈ setExprColumns .plain ctes body, use.Resolved
  relation scope r := ∀ ctes,
    (relationSources .plain ctes r).map Source.names = boundNames r ∧
    ∀ before, before.map Source.names = scopeNames scope →
      ∀ use ∈ relationColumns .plain ctes before r, use.Resolved
  joins scope state :=
    scopeNames state.joinScope = scopeNames scope ++ joinedBoundNames state.relation state.joins ∧
    ∀ ctes, (joinedSources .plain ctes state.relation state.joins).map Source.names =
        joinedBoundNames state.relation state.joins ∧
      ∀ before, before.map Source.names = scopeNames scope →
        ∀ use ∈ joinedColumns .plain ctes before state.relation state.joins, use.Resolved
  table scope t := ∀ ctes,
    (joinedSources .plain ctes t.relation t.joins).map Source.names =
      joinedBoundNames t.relation t.joins ∧
    ∀ before, before.map Source.names = scopeNames scope →
      ∀ use ∈ joinedColumns .plain ctes before t.relation t.joins, use.Resolved

/-- The conditions of a resolved `FROM` clause are resolved by the sources before them. -/
theorem resolved_of_from {scope : Scope} {from_ : List BoundTableWithJoins}
    (h : resolvedMotive.From scope from_) (ctes : CteFields) :
    ∀ before, before.map Source.names = scopeNames scope →
      (before ++ tablesSources .plain ctes from_).map Source.names =
        scopeNames (from_.foldl Scope.mergeTable scope) ∧
      ∀ use ∈ tablesColumns .plain ctes before from_, use.Resolved := by
  induction h with
  | nil scope =>
    intro before hbefore
    simp [tablesSources, tablesColumns, hbefore]
  | cons scope t ts htable _ ih =>
    intro before hbefore
    obtain ⟨hsources, hcolumns⟩ := htable ctes
    have hnext : (before ++ joinedSources .plain ctes t.relation t.joins).map Source.names =
        scopeNames (scope.mergeTable t) := by
      rw [List.map_append, hbefore, hsources, scopeNames_mergeTable]
    obtain ⟨hrest, huses⟩ := ih _ hnext
    refine ⟨?_, ?_⟩
    · rw [List.foldl_cons, tablesSources_cons, ← hrest, List.append_assoc]
    · rw [tablesColumns_cons]
      exact List.forall_mem_append.mpr ⟨hcolumns before hbefore, huses⟩

/-- The names of an item are those of its fields. -/
theorem name_itemNamedFields (from_ : List BoundTableWithJoins) (sources : List Source)
    (item : BoundProjectionItem) :
    (itemNamedFields .plain from_ sources item).map NamedField.name =
      (itemFields item).map ResultField.name := by
  cases item with
  | expr details => rfl
  | wildcard qualifier fields node => exact name_withOrigins _ _
  | unsupported description node => rfl

/-- The names of a table are those of its schema. -/
theorem name_tableFields (ctes : CteFields) (binding : BoundRelationBinding) :
    (tableFields ctes binding).map NamedField.name =
      binding.schema.fields.map ResultField.name := by
  unfold tableFields
  cases binding.relationName.bind (cteFields? ctes) with
  | some fields => exact name_withOrigins _ _
  | none => simp [List.map_map, Function.comp_def]

/-- A set operation has the names of its left operand. -/
theorem names_unionSchema {left right : ResultSchema}
    (h : left.fields.length = right.fields.length) :
    (unionSchema left right).fields.map ResultField.name = left.fields.map ResultField.name := by
  have hleft : (left.fields.zip right.fields).map Prod.fst = left.fields := List.map_fst_zip h.le
  conv_rhs => rw [← hleft, List.map_map]
  rw [unionSchema, ResultSchema.new, List.map_map]
  rfl

/-- The fields of a relation that `scopeSchemaForTable` takes. -/
def scopeFields (relation : BoundRelation) : List ResultField :=
  match relation.binding with
  | some binding => binding.schema.fields
  | none => []

/-- The schema of a table has the fields of its relations. -/
theorem scopeSchemaForTable_eq (table : BoundTableWithJoins) :
    scopeSchemaForTable table =
      .new (scopeFields table.relation ++ table.joins.flatMap fun join =>
        scopeFields join.relation) := rfl

/-- A nested join has the fields of the relations in it. -/
theorem names_scopeSchemaForTable (table : BoundTableWithJoins) :
    (scopeSchemaForTable table).fields.map ResultField.name =
      (joinedBoundNames table.relation table.joins).flatMap Prod.snd := by
  have hrelation : ∀ relation : BoundRelation,
      (boundNames relation).flatMap Prod.snd =
        (relation.binding.toList.flatMap fun binding => binding.schema.fields).map
            ResultField.name := by
    intro relation
    cases hbinding : relation.binding <;> simp [boundNames, hbinding]
  have hfields : ∀ relation : BoundRelation, scopeFields relation =
      relation.binding.toList.flatMap fun binding => binding.schema.fields := by
    intro relation
    cases hbinding : relation.binding <;> simp [scopeFields, hbinding]
  rw [scopeSchemaForTable_eq, ResultSchema.new, joinedBoundNames, List.flatMap_append, flatMapJoins,
    List.flatMap_assoc]
  simp only [List.map_append, List.map_flatMap, List.append_nil, hrelation, hfields]

/-- The uses of expressions are resolved. -/
theorem resolvedCases : UseCases resolvedMotive ResolvedIn where
  expr_iff _ _ := Iff.rfl
  column _ _ _ _ h := resolved_of_resolveColumn h
  membership _ _ _ _ := trivial
  -- The clauses see the fields of the body, under one name.
  query q hctes hbody houtput hschema := by
    obtain ⟨hfields, hcolumns⟩ := hbody (ctesFields .plain q.ctes)
    refine ⟨?_, List.forall_mem_append.mpr ⟨hcolumns, ?_⟩⟩
    · rw [hschema, ← hfields]
      cases q
      rw [queryFields]
    · refine resolved_of_mem_columns ?_ houtput
      simp [Source.names, scopeNames, Scope.fromOutputSchema, outputScopeName, hfields]
  unionAll l r nd hl hr hlength := by
    intro ctes
    obtain ⟨hfields, hleft⟩ := hl ctes
    refine ⟨?_, List.forall_mem_append.mpr ⟨hleft, (hr ctes).2⟩⟩
    rw [setExprFields, hfields]
    exact (names_unionSchema hlength).symm
  -- The tables give the scope that the items and the clauses are resolved in.
  select s hfrom hclauses hitems hschema := by
    intro ctes
    obtain ⟨hsources, htables⟩ := resolved_of_from hfrom ctes [] rfl
    rw [List.nil_append] at hsources
    have hprojected : ∀ x ∈ s.projection.flatMap (itemColumns .plain s.from_),
        Resolved (scopeNames (fromScope s.from_)) x := by
      intro column hcolumn
      obtain ⟨item, hitem, hcolumn⟩ := List.mem_flatMap.mp hcolumn
      cases hitems item hitem with
      | expr d hexpr htype hnullable hname => exact resolved_of_mem_exprColumns hexpr hcolumn
      | all nd => cases hcolumn
      | qualified qualifier fields nd hfields => cases hcolumn
    refine ⟨?_, List.forall_mem_append.mpr ⟨htables, ?_⟩⟩
    · obtain ⟨_, projection, from_, _, _, _, schema, _⟩ := s
      have hfields : schema.fields = projection.flatMap itemFields :=
        congrArg ResultSchema.fields hschema
      simp only [setExprFields, BoundSetExpr.resultSchema, hfields, List.map_flatMap,
        name_itemNamedFields]
    · rw [List.map_append]
      refine List.forall_mem_append.mpr
        ⟨fun use huse => ?_, resolved_of_mem_columns hsources hclauses⟩
      obtain ⟨column, hcolumn, rfl⟩ := List.mem_map.mp huse
      rw [ColumnUse.Resolved, hsources]
      exact hprojected column hcolumn
  table scope binding nd := by
    intro ctes
    refine ⟨?_, fun _ _ => by simp [relationColumns]⟩
    simp [relationSources, Source.names, boundNames, BoundRelation.binding, name_tableFields]
  derived scope name q nd hq := by
    intro ctes
    refine ⟨?_, fun _ _ => by simp [relationColumns]⟩
    simp [relationSources, Source.names, boundNames, BoundRelation.binding, hq.1]
  nestedJoin scope name t nd ht := by
    intro ctes
    obtain ⟨hsources, hcolumns⟩ := ht ctes
    obtain ⟨relation, joins, node⟩ := t
    refine ⟨?_, fun before hbefore => ?_⟩
    · simp only [relationSources, List.map_cons, List.map_nil, Source.names, boundNames,
        BoundRelation.binding, Option.toList_some, names_scopeSchemaForTable]
      rw [← hsources, joinedSources, List.flatMap_map, List.map_flatMap]
      rfl
    · rw [relationColumns]
      exact hcolumns before hbefore
  startJoins scope r hr := by
    refine ⟨?_, fun ctes => ⟨?_, fun before hbefore => ?_⟩⟩
    · simp [scopeNames_pushRelation, joinedBoundNames, flatMapJoins]
    · simpa [joinedSources, joinSources, joinedBoundNames, flatMapJoins] using (hr ctes).1
    · simpa [joinedColumns, joinColumns] using (hr ctes).2 before hbefore
  -- The condition sees what came before and the joined relation.
  addJoin scope state kind joined on nd hstate hjoined hon := by
    obtain ⟨hscope, hstate⟩ := hstate
    refine ⟨?_, fun ctes => ⟨?_, fun before hbefore => ?_⟩⟩
    · rw [scopeNames_addJoin, joinedBoundNames_addJoin, hscope, List.append_assoc]
    · rw [joinedSources_addJoin, joinedBoundNames_addJoin, List.map_append, (hstate ctes).1,
        (hjoined ctes).1]
    · have hnames :
        (before ++ joinedSources .plain ctes state.relation state.joins).map Source.names =
          scopeNames state.joinScope := by
        rw [List.map_append, hbefore, (hstate ctes).1, hscope]
      rw [joinedColumns_addJoin]
      refine List.forall_mem_append.mpr ⟨(hstate ctes).2 before hbefore, List.forall_mem_append.mpr
        ⟨(hjoined ctes).2 _ hnames, resolved_of_mem_columns ?_ fun x hx =>
          hon x (Option.mem_toList.mp hx)⟩⟩
      rw [List.map_append, hnames, (hjoined ctes).1, scopeNames_pushRelation]
  endJoins scope state nd h := h.2

/-- A column of an accepted query means exactly one field. -/
theorem columns_resolved {context : BinderContext} {query : SyntaxQuery}
    (h : Accepted context query) :
    AllWithin (fun q => ∀ use ∈ queryColumns .plain q, ∃ field, use.fields = [field])
      (boundPlan context query) := by
  intro q hq use huse
  exact ((resolvedCases.bindCases.allWithin context h q hq).2 use huse).exists_field

end QueryFabric.Render
