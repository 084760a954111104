import QueryFabric.ClickHouse.Schemas
import QueryFabric.ClickHouse.Uses

/-!
# Types and rewriting

A plan is well typed when the schema that a derived table is bound with is that of its query, a
column carries the type of the field that it resolves to, and a value is only looked up in a
subquery whose field has a common type with it. Rewriting a projected UUID to a text changes the
schema of the query, and neither the bindings nor the columns nor the comparisons that were made
with the old one. `rewrite_keeps_types_iff` says for which well-typed plans that makes no
difference.
-/

namespace QueryFabric.ClickHouse

open QueryFabric.Bind

/-! ## Well-typed plans -/

mutual

/-- The derived tables of a relation, with the bindings that they have. -/
def relationDerived : BoundRelation → List (BoundRelationBinding × BoundQueryPlan)
  | .table .. => []
  | .derived binding query _ => [(binding, query)]
  | .nestedJoin _ ⟨relation, joins, _⟩ _ => relationDerived relation ++ joinDerived joins
  | .unsupported .. => []

/-- The derived tables of joins. -/
def joinDerived : List BoundJoin → List (BoundRelationBinding × BoundQueryPlan)
  | [] => []
  | ⟨_, relation, _, _⟩ :: joins => relationDerived relation ++ joinDerived joins

end

/-- The derived tables of a table with its joins. -/
def tableDerived (table : BoundTableWithJoins) : List (BoundRelationBinding × BoundQueryPlan) :=
  relationDerived table.relation ++ joinDerived table.joins

mutual

/-- What the join conditions in a relation use, each with the scope that the condition is bound
in. -/
def relationScopedUses (scope : Scope) : BoundRelation → List (Scope × ExprUse)
  | .table .. => []
  | .derived .. => []
  | .nestedJoin _ ⟨relation, joins, _⟩ _ =>
    relationScopedUses scope relation ++ joinScopedUses (scope.pushRelation relation) joins
  | .unsupported .. => []

/-- What the conditions of joins use, each with its scope. -/
def joinScopedUses (scope : Scope) : List BoundJoin → List (Scope × ExprUse)
  | [] => []
  | ⟨_, relation, on, _⟩ :: joins =>
    relationScopedUses scope relation ++
      (optionUses on).map (Prod.mk (scope.pushRelation relation)) ++
      joinScopedUses (scope.pushRelation relation) joins

end

/-- What the join conditions of a `FROM` clause use. Each table is in the scope of those after
it. -/
def fromScopedUses (scope : Scope) : List BoundTableWithJoins → List (Scope × ExprUse)
  | [] => []
  | table :: tables =>
    relationScopedUses scope table.relation ++
      joinScopedUses (scope.pushRelation table.relation) table.joins ++
        fromScopedUses (scope.mergeTable table) tables

/-- What a projection item uses. -/
def itemExprUses : BoundProjectionItem → List ExprUse
  | .expr details => exprUses details.expr
  | .wildcard .. => []
  | .unsupported .. => []

/-- What the clauses of a select that are bound in the scope of its `FROM` clause use, but for its
projection. -/
def clauseUses (select : BoundSelect) : List ExprUse :=
  optionUses select.selection ++ exprsUses select.groupBy ++ optionUses select.having

/-- What stands after the body of a query uses. -/
def outputUses (query : BoundQueryPlan) : List ExprUse :=
  orderByUses query.orderBy ++ optionUses query.limit ++ optionUses query.offset

/-- A column carries the type of the field that it resolves to. -/
def ColumnTyped (scope : Scope) (column : BoundColumnRef) (type : DataType) : Prop :=
  ∃ resolved, scope.resolveColumn column.relation column.name = .local resolved ∧
    resolved.field.dataType = type

/-- A value is looked up in one field, of a type that it has a common type with. -/
def MembershipTyped (type : DataType) (fields : List ResultField) : Prop :=
  ∃ field, fields = [field] ∧ (DataType.commonType type field.dataType).isSome

/-- A use has the type of what it refers to. -/
def UseTyped (scope : Scope) : ExprUse → Prop
  | .column column type => ColumnTyped scope column type
  | .membership type subquery => MembershipTyped type subquery.resultSchema.fields

/-- A select is well typed, without the queries in it. -/
structure SelectTyped (select : BoundSelect) : Prop where
  derived : ∀ d ∈ select.from_.flatMap tableDerived, d.1.schema = d.2.resultSchema
  conditions : ∀ p ∈ fromScopedUses {} select.from_, UseTyped p.1 p.2
  projection : ∀ use ∈ select.projection.flatMap itemExprUses, UseTyped (fromScope select.from_) use
  clauses : ∀ use ∈ clauseUses select, UseTyped (fromScope select.from_) use

/-- A query is well typed, without those in it. What stands after the body refers to its output. -/
structure QueryTyped (query : BoundQueryPlan) : Prop where
  selects : ∀ select, .select select ∈ setExprs query.body → SelectTyped select
  output : ∀ use ∈ outputUses query, UseTyped (.fromOutputSchema query.body.resultSchema) use

/-! The conditions can be checked. -/

/-- Whether a column is typed can be checked. -/
instance decidableColumnTyped (scope : Scope) (column : BoundColumnRef) (type : DataType) :
    Decidable (ColumnTyped scope column type) :=
  match hresolve : scope.resolveColumn column.relation column.name with
  | .local resolved => decidable_of_iff (resolved.field.dataType = type) <| by
      simp [ColumnTyped, hresolve]
  | .missing => .isFalse <| by simp [ColumnTyped, hresolve]
  | .ambiguous => .isFalse <| by simp [ColumnTyped, hresolve]

/-- Whether a membership is typed can be checked. -/
instance decidableMembershipTyped (type : DataType) :
    ∀ fields, Decidable (MembershipTyped type fields)
  | [] => .isFalse <| by simp [MembershipTyped]
  | [field] => decidable_of_iff (DataType.commonType type field.dataType).isSome <| by
      simp [MembershipTyped]
  | _ :: _ :: _ => .isFalse <| by simp [MembershipTyped]

/-- Whether a use is typed can be checked. -/
instance decidableUseTyped (scope : Scope) : ∀ use, Decidable (UseTyped scope use)
  | .column column type => decidableColumnTyped scope column type
  | .membership type subquery => decidableMembershipTyped type subquery.resultSchema.fields

/-- What holds of every select of a list can be checked on the list. -/
instance decidableForallSelect {P : BoundSelect → Prop} [DecidablePred P] :
    ∀ bodies : List BoundSetExpr, Decidable (∀ select, .select select ∈ bodies → P select)
  | [] => .isTrue fun _ h => nomatch h
  | .select select :: bodies =>
    have := decidableForallSelect (P := P) bodies
    decidable_of_iff (P select ∧ ∀ select, .select select ∈ bodies → P select) <| by
      simp [or_imp, forall_and]
  | .unionAll .. :: bodies | .unsupported .. :: bodies =>
    have := decidableForallSelect (P := P) bodies
    decidable_of_iff (∀ select, .select select ∈ bodies → P select) <| by simp

/-- Whether a select is typed can be checked. -/
instance (select : BoundSelect) : Decidable (SelectTyped select) :=
  decidable_of_iff ((∀ d ∈ select.from_.flatMap tableDerived, d.1.schema = d.2.resultSchema) ∧
      (∀ p ∈ fromScopedUses {} select.from_, UseTyped p.1 p.2) ∧
      (∀ use ∈ select.projection.flatMap itemExprUses, UseTyped (fromScope select.from_) use) ∧
      ∀ use ∈ clauseUses select, UseTyped (fromScope select.from_) use)
    ⟨fun ⟨hd, ho, hp, hc⟩ => ⟨hd, ho, hp, hc⟩, fun ⟨hd, ho, hp, hc⟩ => ⟨hd, ho, hp, hc⟩⟩

/-- Whether a query is typed can be checked. -/
instance (query : BoundQueryPlan) : Decidable (QueryTyped query) :=
  decidable_of_iff ((∀ select, .select select ∈ setExprs query.body → SelectTyped select) ∧
      ∀ use ∈ outputUses query, UseTyped (.fromOutputSchema query.body.resultSchema) use)
    ⟨fun ⟨hs, ho⟩ => ⟨hs, ho⟩, fun ⟨hs, ho⟩ => ⟨hs, ho⟩⟩

/-- A plan is well typed at every depth. -/
def WellTyped (plan : BoundQueryPlan) : Prop := AllWithin QueryTyped plan

/-! ## The output of a rewritten query -/

section Output

variable (catalog : Catalog) (enabled : Bool)

/-- The fields of a projection item, with texts for the UUIDs that the rewriter converts. -/
def itemOutput (scope : SelectScope) : BoundProjectionItem → List ResultField
  | .expr details =>
    [if enabled && details.expr.dataType = .uuid && !isToStringCall details.expr then
      stringResultField details.field else details.field]
  | .wildcard qualifier fields _ => fields.map fun field =>
      if enabled && field.dataType = .uuid && (scope.targetBindingName qualifier).isSome then
        stringResultField field else field
  | .unsupported .. => []

/-- The fields of the left-most select of a query body, with texts for the UUIDs that are
converted. -/
def outputFields : BoundSetExpr → List ResultField
  | .select select =>
    select.projection.flatMap (itemOutput enabled (scopeFromFromClause catalog select.from_))
  | .unionAll left _ _ _ => outputFields left
  | .unsupported _ _ schema => schema.fields

/-- The fields of a rewritten item are those of its output. -/
theorem rewrittenFields_eq_itemOutput (scope : SelectScope) (item : BoundProjectionItem) :
    rewrittenFields catalog enabled scope item = itemOutput enabled scope item := by
  cases item with
  | expr details => exact rewrittenFields_expr catalog details
  | wildcard qualifier fields node => exact rewrittenFields_wildcard catalog qualifier fields node
  | unsupported description node =>
    simp [rewrittenFields, rewriteProjections, projectionFields, itemOutput]

/-- The fields of a rewritten query body are those of its left-most select. -/
theorem fields_rewriteSetExpr : ∀ body : BoundSetExpr,
    (rewriteSetExpr catalog enabled body).1.resultSchema.fields = outputFields catalog enabled body
  | .select ⟨_, projection, from_, _, _, _, _, _⟩ => by
    simp only [rewriteSetExpr, rewriteSelect, BoundSetExpr.resultSchema, outputFields,
      scopeFromFromClause_rewriteTables, fields_rewriteProjections]
    exact List.flatMap_congr fun item _ => rewrittenFields_eq_itemOutput catalog enabled _ item
  | .unionAll left _ _ _ => by
    simp only [rewriteSetExpr, outputFields]
    exact fields_rewriteSetExpr left
  | .unsupported .. => by simp [rewriteSetExpr, BoundSetExpr.resultSchema, outputFields]

/-- The fields of a rewritten query are those of its left-most select. -/
theorem fields_rewritten (query : BoundQueryPlan) :
    (rewritten catalog enabled query).resultSchema.fields =
      outputFields catalog enabled query.body := by
  rw [resultSchema_rewritten, fields_rewriteSetExpr]

variable {catalog enabled}

/-- The schema of a bound query body has no metadata. -/
theorem resultSchema_eq_new {body : BoundSetExpr} (h : SetExprConsistent body) :
    body.resultSchema = .new body.resultSchema.fields := by
  cases body with
  | select select => rw [BoundSetExpr.resultSchema, h.1]; rfl
  | unionAll left right node schema => rw [BoundSetExpr.resultSchema, h.2]; rfl
  | unsupported description node schema => exact h.elim

/-- A rewritten body has no metadata. -/
theorem metadata_rewriteSetExpr :
    ∀ {body : BoundSetExpr}, (∀ b ∈ setExprs body, SetExprConsistent b) →
    (rewriteSetExpr catalog enabled body).1.resultSchema.metadata = []
  | .select ⟨_, projection, from_, _, _, _, schema, _⟩, h => by
    have hschema := (h _ (mem_setExprs_self _)).1
    dsimp only at hschema
    rw [hschema]
    simp [rewriteSetExpr, rewriteSelect, BoundSetExpr.resultSchema, ResultSchema.new]
  | .unionAll left _ _ _, h => by
    have hleft : ∀ b ∈ setExprs left, SetExprConsistent b := fun b hb =>
      h b (List.mem_cons_of_mem _ (List.mem_append_left _ hb))
    simp only [rewriteSetExpr, BoundSetExpr.resultSchema]
    exact metadata_rewriteSetExpr hleft
  | .unsupported .., h => (h _ (mem_setExprs_self _)).elim

/-- A rewritten query has the schema of the query when the fields of its left-most select are those
of the query. -/
theorem resultSchema_rewritten_eq_iff {query : BoundQueryPlan} (h : QueryConsistent query) :
    query.resultSchema = (rewritten catalog enabled query).resultSchema ↔
      outputFields catalog enabled query.body = query.body.resultSchema.fields := by
  rw [resultSchema_rewritten, h.result, resultSchema_eq_new (h.body _ (mem_setExprs_self _)),
    ← fields_rewriteSetExpr]
  have hmetadata := @metadata_rewriteSetExpr catalog enabled query.body h.body
  generalize (rewriteSetExpr catalog enabled query.body).1.resultSchema = schema at hmetadata ⊢
  obtain ⟨fields, metadata⟩ := schema
  cases hmetadata
  simp [ResultSchema.new, eq_comm]

/-- The fields of the left-most select have the names of the fields of the query. -/
theorem names_outputFields : ∀ {body : BoundSetExpr}, (∀ b ∈ setExprs body, SetExprConsistent b) →
    (outputFields catalog enabled body).map ResultField.name =
      body.resultSchema.fields.map ResultField.name
  -- The fields that are put out have the names of the projection's own fields.
  | .select select, h => by
    have hschema := (h _ (mem_setExprs_self _)).1
    rw [BoundSetExpr.resultSchema, hschema, outputFields, ResultSchema.new, List.map_flatMap,
      List.map_flatMap]
    refine List.flatMap_congr fun item _ => ?_
    cases item with
    | expr details =>
      simp only [itemOutput, itemFields, List.map_cons, List.map_nil]
      split <;> rfl
    | wildcard qualifier fields node =>
      simp only [itemOutput, itemFields, List.map_map]
      refine List.map_congr_left fun field _ => ?_
      simp only [Function.comp_apply]
      split <;> rfl
    | unsupported description node => rfl
  | .unionAll left right _ schema, h => by
    obtain ⟨hlength, hschema⟩ := h _ (mem_setExprs_self _)
    -- A union takes its names from its left side.
    have hleft : ∀ b ∈ setExprs left, SetExprConsistent b := fun b hb =>
      h b (List.mem_cons_of_mem _ (List.mem_append_left _ hb))
    rw [outputFields, names_outputFields hleft, BoundSetExpr.resultSchema, hschema, unionSchema,
      ResultSchema.new, List.map_map]
    have hfst : left.resultSchema.fields =
        (left.resultSchema.fields.zip right.resultSchema.fields).map Prod.fst :=
      (List.map_fst_zip hlength.le).symm
    conv_lhs => rw [hfst, List.map_map]
    rfl
  | .unsupported .., h => (h _ (mem_setExprs_self _)).elim

/-- How a column is resolved in the output of a query. -/
theorem resolveColumn_fromOutputSchema_eq_local {schema : ResultSchema} {relation : Option String}
    {name : String} {resolved : ResolvedColumn} :
    (Scope.fromOutputSchema schema).resolveColumn relation name = .local resolved ↔
      relation.all (eqIgnoreAsciiCase "__output__") ∧
        ∃ field, (schema.fields.filter fun field => eqIgnoreAsciiCase field.name name) = [field] ∧
          resolved = ⟨some "__output__", field⟩ := by
  simp only [Scope.resolveColumn, Scope.fromOutputSchema, List.flatMap_cons, List.flatMap_nil,
    List.append_nil, Scope.entryMatches]
  cases relation.all (eqIgnoreAsciiCase "__output__") with
  | false => simp
  | true =>
    simp only [if_true, true_and]
    generalize (schema.fields.filter fun field => eqIgnoreAsciiCase field.name name) = fields
    rcases fields with _ | ⟨field, _ | ⟨field', fields⟩⟩ <;> simp [eq_comm]

/-- Where the names of the output stay, a column that carries the type of its field still does when
the field that it names keeps its type. -/
theorem columnTyped_fromOutputSchema_iff {schema schema' : ResultSchema}
    (hnames : schema'.fields.map ResultField.name = schema.fields.map ResultField.name)
    {column : BoundColumnRef} {type : DataType}
    (h : ColumnTyped (.fromOutputSchema schema) column type) :
    ColumnTyped (.fromOutputSchema schema') column type ↔
      ∀ pair ∈ schema.fields.zip schema'.fields,
        eqIgnoreAsciiCase pair.1.name column.name → pair.2.dataType = pair.1.dataType := by
  obtain ⟨fields, _⟩ := schema
  obtain ⟨fields', _⟩ := schema'
  simp only [ColumnTyped, resolveColumn_fromOutputSchema_eq_local] at h ⊢
  dsimp only at hnames
  obtain ⟨_, ⟨hrelation, field, hfield, rfl⟩, rfl⟩ := h
  -- Both lists of fields are read off the pairs of them, and one pair has the name.
  obtain ⟨pairs, rfl, rfl⟩ : ∃ pairs : List (ResultField × ResultField),
      pairs.map Prod.fst = fields ∧ pairs.map Prod.snd = fields' := by
    have hlength : fields'.length = fields.length := by simpa using congrArg List.length hnames
    exact ⟨fields.zip fields', List.map_fst_zip hlength.ge, List.map_snd_zip hlength.le⟩
  rw [List.map_map, List.map_map, List.map_inj_left] at hnames
  have hpair :
    ∃ pair, pairs.filter (fun pair => eqIgnoreAsciiCase pair.1.name column.name) = [pair] ∧
      pair.1 = field := by
    rw [List.filter_map, List.map_eq_singleton_iff] at hfield
    exact hfield
  obtain ⟨pair, hpair, rfl⟩ := hpair
  have hfield' :
    (pairs.map Prod.snd).filter (fun field => eqIgnoreAsciiCase field.name column.name) =
      [pair.2] := by
    have hfilter :
      pairs.filter ((fun field => eqIgnoreAsciiCase field.name column.name) ∘ Prod.snd) =
        pairs.filter fun pair => eqIgnoreAsciiCase pair.1.name column.name := by
      refine List.filter_congr fun pair hmem => ?_
      have hname := hnames pair hmem
      simp only [Function.comp_apply] at hname ⊢
      rw [hname]
    rw [List.filter_map, hfilter, hpair]
    rfl
  have hzip : (pairs.map Prod.fst).zip (pairs.map Prod.snd) = pairs := by
    rw [List.zip_map']
    exact List.map_id _
  rw [hfield', hzip]
  constructor
  · rintro ⟨_, ⟨-, field, hfield, rfl⟩, htype⟩ other hother hname
    cases hfield
    have hmem : other ∈ pairs.filter fun pair => eqIgnoreAsciiCase pair.1.name column.name :=
      List.mem_filter.mpr ⟨hother, hname⟩
    rw [hpair] at hmem
    obtain rfl := List.mem_singleton.mp hmem
    exact htype
  · intro h
    have hmem : pair ∈ pairs.filter fun pair => eqIgnoreAsciiCase pair.1.name column.name := by
      rw [hpair]
      exact List.mem_cons_self
    obtain ⟨hmem, hname⟩ := List.mem_filter.mp hmem
    exact ⟨_, ⟨hrelation, pair.2, rfl, rfl⟩, h pair hmem hname⟩

end Output

/-! ## What rewriting does to the parts of a query -/

section Parts

variable (catalog : Catalog) (enabled : Bool)

/-- A rewritten relation keeps its binding. -/
theorem binding_rewriteRelation (r : BoundRelation) :
    (rewriteRelation catalog enabled r).1.binding = r.binding := by
  cases r <;> simp [rewriteRelation, BoundRelation.binding]

/-- A rewritten relation is pushed alike. -/
theorem pushRelation_rewriteRelation (scope : Scope) (r : BoundRelation) :
    scope.pushRelation (rewriteRelation catalog enabled r).1 = scope.pushRelation r := by
  simp only [Scope.pushRelation, binding_rewriteRelation]

/-- Rewritten joins are pushed alike. -/
theorem foldl_pushRelation_rewriteJoins (joins : List BoundJoin) (scope : Scope) :
    (rewriteJoins catalog enabled joins).1.foldl
      (fun scope join => scope.pushRelation join.relation) scope =
      joins.foldl (fun scope join => scope.pushRelation join.relation) scope := by
  induction joins generalizing scope with
  | nil => simp [rewriteJoins]
  | cons join joins ih =>
    cases join
    simp only [rewriteJoins, List.foldl_cons, pushRelation_rewriteRelation, ih]

/-- A rewritten table is merged alike. -/
theorem mergeTable_rewriteTableWithJoins (scope : Scope) (table : BoundTableWithJoins) :
    scope.mergeTable (rewriteTableWithJoins catalog enabled table).1 = scope.mergeTable table := by
  cases table
  simp only [rewriteTableWithJoins, Scope.mergeTable, pushRelation_rewriteRelation,
    foldl_pushRelation_rewriteJoins]

/-- The scope of a `FROM` clause stays. -/
theorem fromScope_rewriteTables (tables : List BoundTableWithJoins) :
    fromScope (rewriteTables catalog enabled tables).1 = fromScope tables := by
  have hfold : ∀ scope : Scope,
    (rewriteTables catalog enabled tables).1.foldl Scope.mergeTable scope =
      tables.foldl Scope.mergeTable scope := by
    induction tables with
    | nil => simp [rewriteTables]
    | cons table tables ih =>
      intro scope
      simp only [rewriteTables, List.foldl_cons, mergeTable_rewriteTableWithJoins, ih]
  exact hfold {}

mutual

/-- The derived tables of a rewritten relation are rewritten, with their bindings. -/
theorem relationDerived_rewriteRelation : ∀ r : BoundRelation,
    relationDerived (rewriteRelation catalog enabled r).1 =
      (relationDerived r).map (Prod.map id (rewritten catalog enabled))
  | .table .. => by simp [rewriteRelation, relationDerived]
  | .derived .. => by simp [rewriteRelation, relationDerived, rewritten]
  | .nestedJoin _ ⟨relation, joins, _⟩ _ => by
    simp only [rewriteRelation, rewriteTableWithJoins, relationDerived, List.map_append,
      relationDerived_rewriteRelation relation, joinDerived_rewriteJoins joins]
  | .unsupported .. => by simp [rewriteRelation, relationDerived]
termination_by structural r => r

/-- The derived tables of rewritten joins are rewritten, with their bindings. -/
theorem joinDerived_rewriteJoins : ∀ joins : List BoundJoin,
    joinDerived (rewriteJoins catalog enabled joins).1 =
      (joinDerived joins).map (Prod.map id (rewritten catalog enabled))
  | [] => by simp [rewriteJoins, joinDerived]
  | ⟨_, relation, _, _⟩ :: joins => by
    simp only [rewriteJoins, joinDerived, List.map_append, relationDerived_rewriteRelation relation,
      joinDerived_rewriteJoins joins]
termination_by structural joins => joins

end

/-- The derived tables of a rewritten `FROM` clause are rewritten, with their bindings. -/
theorem tableDerived_rewriteTables (tables : List BoundTableWithJoins) :
    (rewriteTables catalog enabled tables).1.flatMap tableDerived =
      (tables.flatMap tableDerived).map (Prod.map id (rewritten catalog enabled)) := by
  induction tables with
  | nil => simp [rewriteTables]
  | cons table tables ih =>
    cases table
    simp only [rewriteTables, rewriteTableWithJoins, tableDerived, List.flatMap_cons,
      List.map_append, relationDerived_rewriteRelation, joinDerived_rewriteJoins, ih]

mutual

/-- The conditions in a rewritten relation use what is rewritten. -/
theorem relationScopedUses_rewriteRelation : ∀ (scope : Scope) (r : BoundRelation),
    relationScopedUses scope (rewriteRelation catalog enabled r).1 =
      (relationScopedUses scope r).map (Prod.map id (rewrittenUse catalog enabled))
  | _, .table .. => by simp [rewriteRelation, relationScopedUses]
  | _, .derived .. => by simp [rewriteRelation, relationScopedUses]
  | scope, .nestedJoin _ ⟨relation, joins, _⟩ _ => by
    simp only [rewriteRelation, rewriteTableWithJoins, relationScopedUses, List.map_append,
      pushRelation_rewriteRelation, relationScopedUses_rewriteRelation scope relation,
      joinScopedUses_rewriteJoins _ joins]
  | _, .unsupported .. => by simp [rewriteRelation, relationScopedUses]
termination_by structural _ r => r

/-- The conditions of rewritten joins use what is rewritten. -/
theorem joinScopedUses_rewriteJoins : ∀ (scope : Scope) (joins : List BoundJoin),
    joinScopedUses scope (rewriteJoins catalog enabled joins).1 =
      (joinScopedUses scope joins).map (Prod.map id (rewrittenUse catalog enabled))
  | _, [] => by simp [rewriteJoins, joinScopedUses]
  | scope, ⟨_, relation, on, _⟩ :: joins => by
    simp only [rewriteJoins, joinScopedUses, List.map_append, List.map_map,
      pushRelation_rewriteRelation, relationScopedUses_rewriteRelation scope relation,
      optionUses_rewriteExprOption, joinScopedUses_rewriteJoins _ joins]
    rfl
termination_by structural _ joins => joins

end

/-- The conditions of a rewritten `FROM` clause use what is rewritten. -/
theorem fromScopedUses_rewriteTables (tables : List BoundTableWithJoins) (scope : Scope) :
    fromScopedUses scope (rewriteTables catalog enabled tables).1 =
      (fromScopedUses scope tables).map (Prod.map id (rewrittenUse catalog enabled)) := by
  induction tables generalizing scope with
  | nil => simp [rewriteTables, fromScopedUses]
  | cons table tables ih =>
    have hmerge := mergeTable_rewriteTableWithJoins catalog enabled scope table
    cases table
    simp only [rewriteTableWithJoins] at hmerge
    simp only [rewriteTables, rewriteTableWithJoins, fromScopedUses, List.map_append, hmerge,
      pushRelation_rewriteRelation, relationScopedUses_rewriteRelation, joinScopedUses_rewriteJoins,
      ih]

/-- The columns that a wildcard is expanded to, each with the type of its field. -/
def wildcardUses (scope : SelectScope) (qualifier : Option String) (fields : List ResultField) :
    List ExprUse :=
  match scope.targetBindingName qualifier with
  | some name => fields.map fun field => .column ⟨some name, field.name⟩ field.dataType
  | none => []

/-- What a projection item uses after rewriting. -/
def rewrittenItemUses (scope : SelectScope) : BoundProjectionItem → List ExprUse
  | .expr details => (exprUses details.expr).map (rewrittenUse catalog enabled)
  | .wildcard qualifier fields _ => wildcardUses scope qualifier fields
  | .unsupported .. => []

/-- The uses of a rewritten projection, item by item. -/
theorem itemExprUses_rewriteProjections (scope : SelectScope) (items : List BoundProjectionItem) :
    (rewriteProjections catalog enabled scope items).1.flatMap itemExprUses =
      items.flatMap (rewrittenItemUses catalog enabled scope) := by
  refine flatMap_rewriteProjections catalog enabled scope (fun item => ?_) items
  cases item with
  | expr details =>
    cases details
    simp [rewriteProjections, rewriteProjectionExpr, itemExprUses, rewrittenItemUses,
      exprUses_rewriteUuidArrowExpr, exprUses_rewriteExpr]
  | wildcard qualifier fields node =>
    -- Each field of an expanded wildcard is a use of its column.
    have hfield : ∀ name field, itemExprUses (expandField name node enabled field) =
        [.column ⟨some name, field.name⟩ field.dataType] := by
      intro name field
      simp only [itemExprUses, expandField, exprUses_rewriteUuidArrowExpr, exprUses]
    simp only [rewriteProjections, List.append_nil, expandWildcardProjection, rewrittenItemUses,
      wildcardUses]
    cases scope.targetBindingName qualifier with
    | none => simp [itemExprUses]
    | some name =>
      simp only [Option.bind_eq_bind, Option.bind_some, Option.pure_def, Option.getD_some,
        List.flatMap_map, hfield]
      exact List.flatMap_pure_eq_map _ fields
  | unsupported description node => simp [rewriteProjections, itemExprUses, rewrittenItemUses]

/-- The text conversion keeps the uses of a list. -/
theorem exprsUses_rewriteUuidArrowExpr (exprs : List BoundExpr) :
    exprsUses (exprs.map fun expr => (rewriteUuidArrowExpr expr enabled).1) = exprsUses exprs := by
  induction exprs with
  | nil => rfl
  | cons expr exprs ih =>
    rw [List.map_cons, exprsUses, exprsUses, ih, exprUses_rewriteUuidArrowExpr]

/-- The clauses of a rewritten select use what is rewritten. -/
theorem clauseUses_rewriteSelect (select : BoundSelect) :
    clauseUses (rewriteSelect catalog enabled select).1 =
      (clauseUses select).map (rewrittenUse catalog enabled) := by
  cases select
  simp only [rewriteSelect, clauseUses, List.map_append, optionUses_rewriteExprOption,
    exprsUses_rewriteUuidArrowExpr, exprsUses_rewriteExprs]

/-- What stands after a rewritten body uses what is rewritten. -/
theorem outputUses_rewritten (query : BoundQueryPlan) :
    outputUses (rewritten catalog enabled query) =
      (outputUses query).map (rewrittenUse catalog enabled) := by
  cases query
  simp only [rewritten, rewriteQueryPlan, outputUses, List.map_append, orderByUses_rewriteOrderBys,
    optionUses_rewriteExprOption]

end Parts

/-! ## When rewriting keeps a plan well typed -/

section Unaffected

variable (catalog : Catalog) (enabled : Bool)

/-- A value has a common type with the field that it is looked up in, as the left-most select of the
subquery returns it. -/
def UseUnaffected : ExprUse → Prop
  | .column .. => True
  | .membership type subquery => MembershipTyped type (outputFields catalog enabled subquery.body)

/-- A column after a query body names no field whose type changes. -/
def OutputUnaffected (body : BoundSetExpr) : ExprUse → Prop
  | .column column _ => ∀ pair ∈ body.resultSchema.fields.zip (outputFields catalog enabled body),
      eqIgnoreAsciiCase pair.1.name column.name → pair.2.dataType = pair.1.dataType
  | .membership type subquery => MembershipTyped type (outputFields catalog enabled subquery.body)

/-- Rewriting changes nothing that a select relies on. -/
structure SelectUnaffected (select : BoundSelect) : Prop where
  /-- No field of a derived table changes. -/
  derived : ∀ d ∈ select.from_.flatMap tableDerived,
    outputFields catalog enabled d.2.body = d.2.body.resultSchema.fields
  conditions : ∀ p ∈ fromScopedUses {} select.from_, UseUnaffected catalog enabled p.2
  projection : ∀ use ∈ select.projection.flatMap itemExprUses, UseUnaffected catalog enabled use
  clauses : ∀ use ∈ clauseUses select, UseUnaffected catalog enabled use
  /-- A wildcard is only expanded to a relation that has its fields. -/
  wildcards : ∀ qualifier fields node, .wildcard qualifier fields node ∈ select.projection →
    ∀ use ∈ wildcardUses (scopeFromFromClause catalog select.from_) qualifier fields,
      UseTyped (fromScope select.from_) use

/-- Rewriting changes nothing that a query relies on, without those in it. -/
structure QueryUnaffected (query : BoundQueryPlan) : Prop where
  selects : ∀ select, .select select ∈ setExprs query.body → SelectUnaffected catalog enabled select
  output : ∀ use ∈ outputUses query, OutputUnaffected catalog enabled query.body use

/-- Whether a use is unaffected can be checked. -/
instance decidableUseUnaffected : ∀ use, Decidable (UseUnaffected catalog enabled use)
  | .column .. => .isTrue trivial
  | .membership type _ => decidableMembershipTyped type _

/-- Whether an output is unaffected can be checked. -/
instance decidableOutputUnaffected (body : BoundSetExpr) :
    ∀ use, Decidable (OutputUnaffected catalog enabled body use)
  | .column _ _ =>
    inferInstanceAs (Decidable (∀ pair ∈ List.zip body.resultSchema.fields _, _ → _ = _))
  | .membership type _ => decidableMembershipTyped type _

/-- What holds of every wildcard of a projection can be checked on the projection. -/
instance decidableForallWildcard {P : Option String → List ResultField → Prop}
    [∀ qualifier fields, Decidable (P qualifier fields)] : ∀ items : List BoundProjectionItem,
      Decidable (∀ qualifier fields node, .wildcard qualifier fields node ∈ items →
        P qualifier fields)
  | [] => .isTrue fun _ _ _ h => nomatch h
  | .wildcard qualifier fields _ :: items =>
    have := decidableForallWildcard (P := P) items
    decidable_of_iff (P qualifier fields ∧ ∀ qualifier fields node,
      .wildcard qualifier fields node ∈ items → P qualifier fields) <| by
        constructor
        · rintro ⟨hhead, htail⟩ q f n h
          rcases List.mem_cons.mp h with h | h
          · obtain ⟨rfl, rfl, -⟩ := BoundProjectionItem.wildcard.inj h
            exact hhead
          · exact htail q f n h
        · exact fun h => ⟨h _ _ _ List.mem_cons_self, fun q f n hmem => h q f n (.tail _ hmem)⟩
  | .expr _ :: items | .unsupported .. :: items =>
    have := decidableForallWildcard (P := P) items
    decidable_of_iff (∀ qualifier fields node,
      .wildcard qualifier fields node ∈ items → P qualifier fields) <| by simp

/-- Whether a select is unaffected can be checked. -/
instance (select : BoundSelect) : Decidable (SelectUnaffected catalog enabled select) :=
  decidable_of_iff ((∀ d ∈ select.from_.flatMap tableDerived,
        outputFields catalog enabled d.2.body = d.2.body.resultSchema.fields) ∧
      (∀ p ∈ fromScopedUses {} select.from_, UseUnaffected catalog enabled p.2) ∧
      (∀ use ∈ select.projection.flatMap itemExprUses, UseUnaffected catalog enabled use) ∧
      (∀ use ∈ clauseUses select, UseUnaffected catalog enabled use) ∧
      ∀ qualifier fields node, .wildcard qualifier fields node ∈ select.projection →
        ∀ use ∈ wildcardUses (scopeFromFromClause catalog select.from_) qualifier fields,
          UseTyped (fromScope select.from_) use)
    ⟨fun ⟨hd, ho, hp, hc, hw⟩ => ⟨hd, ho, hp, hc, hw⟩,
      fun ⟨hd, ho, hp, hc, hw⟩ => ⟨hd, ho, hp, hc, hw⟩⟩

/-- Whether a query is unaffected can be checked. -/
instance (query : BoundQueryPlan) : Decidable (QueryUnaffected catalog enabled query) :=
  decidable_of_iff ((∀ select, .select select ∈ setExprs query.body →
        SelectUnaffected catalog enabled select) ∧
      ∀ use ∈ outputUses query, OutputUnaffected catalog enabled query.body use)
    ⟨fun ⟨hs, ho⟩ => ⟨hs, ho⟩, fun ⟨hs, ho⟩ => ⟨hs, ho⟩⟩

variable {catalog enabled}

/-- A rewritten use is typed when it is unaffected. -/
theorem useTyped_rewrittenUse_iff {scope : Scope} {use : ExprUse} (h : UseTyped scope use) :
    UseTyped scope (rewrittenUse catalog enabled use) ↔ UseUnaffected catalog enabled use := by
  cases use with
  | column column type => exact iff_of_true h trivial
  | membership type subquery =>
    rw [rewrittenUse, UseTyped, fields_rewritten]
    rfl

/-- A rewritten use of the output is typed when it is unaffected. -/
theorem outputTyped_rewrittenUse_iff {query : BoundQueryPlan} (hconsistent : QueryConsistent query)
    {use : ExprUse} (h : UseTyped (.fromOutputSchema query.body.resultSchema) use) :
    UseTyped (.fromOutputSchema (rewriteSetExpr catalog enabled query.body).1.resultSchema)
        (rewrittenUse catalog enabled use) ↔ OutputUnaffected catalog enabled query.body use := by
  cases use with
  | column column type =>
    have hnames := @names_outputFields catalog enabled query.body hconsistent.body
    rw [← fields_rewriteSetExpr] at hnames
    rw [OutputUnaffected, ← fields_rewriteSetExpr]
    exact columnTyped_fromOutputSchema_iff hnames h
  | membership type subquery =>
    rw [rewrittenUse, UseTyped, fields_rewritten]
    rfl

/-- What a well-typed list of uses is rewritten to is well typed when no use of it is affected. -/
theorem forall_useTyped_map_iff {scope : Scope} {uses : List ExprUse}
    (h : ∀ use ∈ uses, UseTyped scope use) :
    (∀ use ∈ uses.map (rewrittenUse catalog enabled), UseTyped scope use) ↔
      ∀ use ∈ uses, UseUnaffected catalog enabled use := by
  rw [List.forall_mem_map]
  exact forall₂_congr fun use huse => useTyped_rewrittenUse_iff (h use huse)

/-- A rewritten projection is typed when its uses are unaffected and its wildcards typed. -/
theorem projectionTyped_iff {scope : Scope} {selectScope : SelectScope}
    {items : List BoundProjectionItem}
    (h : ∀ use ∈ items.flatMap itemExprUses, UseTyped scope use) :
    (∀ use ∈ items.flatMap (rewrittenItemUses catalog enabled selectScope), UseTyped scope use) ↔
      (∀ use ∈ items.flatMap itemExprUses, UseUnaffected catalog enabled use) ∧
        ∀ qualifier fields node, .wildcard qualifier fields node ∈ items →
          ∀ use ∈ wildcardUses selectScope qualifier fields, UseTyped scope use := by
  -- For an expression, the rewritten uses are typed just when the rewriting does not reach them.
  have hitem : ∀ item ∈ items, ∀ details, item = .expr details →
      ((∀ use ∈ (exprUses details.expr).map (rewrittenUse catalog enabled), UseTyped scope use) ↔
        ∀ use ∈ exprUses details.expr, UseUnaffected catalog enabled use) := by
    rintro _ hmem details rfl
    exact forall_useTyped_map_iff fun use huse => h use (List.mem_flatMap.mpr ⟨_, hmem, huse⟩)
  -- Only expressions have uses of their own; a wildcard adds those of the columns it expands to.
  constructor
  · intro htyped
    refine ⟨fun use huse => ?_, fun qualifier fields node hmem use huse => ?_⟩
    · obtain ⟨item, hmem, huse⟩ := List.mem_flatMap.mp huse
      cases item with
      | expr details =>
        refine (hitem _ hmem details rfl).mp (fun use huse => ?_) use huse
        exact htyped use (List.mem_flatMap.mpr ⟨_, hmem, huse⟩)
      | wildcard qualifier fields node => cases huse
      | unsupported description node => cases huse
    · exact htyped use (List.mem_flatMap.mpr ⟨_, hmem, huse⟩)
  · rintro ⟨hexprs, hwildcards⟩ use huse
    obtain ⟨item, hmem, huse⟩ := List.mem_flatMap.mp huse
    cases item with
    | expr details =>
      refine (hitem _ hmem details rfl).mpr (fun use huse => ?_) use huse
      exact hexprs use (List.mem_flatMap.mpr ⟨_, hmem, huse⟩)
    | wildcard qualifier fields node => exact hwildcards qualifier fields node hmem use huse
    | unsupported description node => cases huse

/-- A rewritten select is well typed, where the select is, when it is not affected. -/
theorem selectTyped_rewriteSelect_iff {select : BoundSelect}
    (hderived : ∀ d ∈ select.from_.flatMap tableDerived, QueryConsistent d.2)
    (h : SelectTyped select) :
    SelectTyped (rewriteSelect catalog enabled select).1 ↔
      SelectUnaffected catalog enabled select := by
  have hclauses := clauseUses_rewriteSelect catalog enabled select
  have hfrom : (rewriteSelect catalog enabled select).1.from_ =
      (rewriteTables catalog enabled select.from_).1 := by
    cases select
    simp [rewriteSelect]
  have hprojection := projection_rewriteSelect catalog enabled select
  -- The derived tables are typed where the rewriting keeps the fields that they put out.
  have hschemas :
    (∀ d ∈ (select.from_.flatMap tableDerived).map (Prod.map id (rewritten catalog enabled)),
      d.1.schema = d.2.resultSchema) ↔ ∀ d ∈ select.from_.flatMap tableDerived,
        outputFields catalog enabled d.2.body = d.2.body.resultSchema.fields := by
    rw [List.forall_mem_map]
    refine forall₂_congr fun d hd => ?_
    rw [Prod.map_fst, Prod.map_snd, id_eq, h.derived d hd]
    exact resultSchema_rewritten_eq_iff (hderived d hd)
  -- The join conditions are typed where the rewriting does not reach them.
  have hconditions :
    (∀ p ∈ (fromScopedUses {} select.from_).map (Prod.map id (rewrittenUse catalog enabled)),
      UseTyped p.1 p.2) ↔ ∀ p ∈ fromScopedUses {} select.from_,
        UseUnaffected catalog enabled p.2 := by
    rw [List.forall_mem_map]
    exact forall₂_congr fun p hp => useTyped_rewrittenUse_iff (h.conditions p hp)
  -- The four parts of `SelectTyped` are taken to those of `SelectUnaffected`, one by one.
  constructor
  · rintro ⟨hd, hc, hp, hcl⟩
    rw [hfrom, tableDerived_rewriteTables] at hd
    rw [hfrom, fromScopedUses_rewriteTables] at hc
    rw [hfrom, hprojection, fromScope_rewriteTables, itemExprUses_rewriteProjections] at hp
    rw [hfrom, fromScope_rewriteTables, hclauses] at hcl
    obtain ⟨hexprs, hwildcards⟩ := (projectionTyped_iff h.projection).mp hp
    exact ⟨hschemas.mp hd, hconditions.mp hc, hexprs,
      (forall_useTyped_map_iff h.clauses).mp hcl, hwildcards⟩
  · rintro ⟨hd, hc, hp, hcl, hwildcards⟩
    refine ⟨?_, ?_, ?_, ?_⟩
    · rw [hfrom, tableDerived_rewriteTables]
      exact hschemas.mpr hd
    · rw [hfrom, fromScopedUses_rewriteTables]
      exact hconditions.mpr hc
    · rw [hfrom, hprojection, fromScope_rewriteTables, itemExprUses_rewriteProjections]
      exact (projectionTyped_iff h.projection).mpr ⟨hp, hwildcards⟩
    · rw [hfrom, fromScope_rewriteTables, hclauses]
      exact (forall_useTyped_map_iff h.clauses).mpr hcl

end Unaffected

mutual

/-- A derived table of a relation is one of its queries. -/
theorem mem_relationQueries_of_derived : ∀ {r : BoundRelation}, ∀ d ∈ relationDerived r,
    d.2 ∈ relationQueries r
  | .table .. => by simp [relationDerived]
  | .derived .. => by simp [relationDerived, relationQueries]
  | .nestedJoin _ ⟨relation, joins, _⟩ _ => by
    intro d hd
    rw [relationDerived, List.mem_append] at hd
    rw [relationQueries, List.mem_append]
    exact hd.imp (mem_relationQueries_of_derived d) (mem_joinQueries_of_derived d)
  | .unsupported .. => by simp [relationDerived]

/-- A derived table of joins is one of their queries. -/
theorem mem_joinQueries_of_derived : ∀ {joins : List BoundJoin}, ∀ d ∈ joinDerived joins,
    d.2 ∈ joinQueries joins
  | [] => by simp [joinDerived]
  | ⟨_, relation, on, _⟩ :: joins => by
    intro d hd
    rw [joinDerived, List.mem_append] at hd
    rw [joinQueries, List.append_assoc, List.mem_append, List.mem_append]
    exact hd.imp (mem_relationQueries_of_derived d) fun hd => .inr (mem_joinQueries_of_derived d hd)

end

/-- A query of a select is one of the body that the select is in. -/
theorem mem_setExprQueries_of_select {q : BoundQueryPlan} {select : BoundSelect}
    (hq : q ∈ selectQueries select) :
    ∀ {body : BoundSetExpr}, .select select ∈ setExprs body → q ∈ setExprQueries body
  | .select _, h => by
    obtain rfl := BoundSetExpr.select.inj (List.mem_singleton.mp h)
    exact hq
  | .unionAll left right _ _, h => by
    rw [setExprs] at h
    rw [setExprQueries, List.mem_append]
    obtain h | h := List.mem_cons.mp h
    · cases h
    · exact (List.mem_append.mp h).imp (mem_setExprQueries_of_select hq)
        (mem_setExprQueries_of_select hq)
  | .unsupported .., h => by cases List.mem_singleton.mp h

/-- A derived table stands directly in its query. -/
theorem mem_directQueries_of_derived {query : BoundQueryPlan} {select : BoundSelect}
    (hselect : .select select ∈ setExprs query.body) {d : BoundRelationBinding × BoundQueryPlan}
    (hd : d ∈ select.from_.flatMap tableDerived) : d.2 ∈ directQueries query := by
  obtain ⟨table, htable, hd⟩ := List.mem_flatMap.mp hd
  have htableQueries : d.2 ∈ tableQueries table :=
    List.mem_append.mpr ((List.mem_append.mp hd).imp (mem_relationQueries_of_derived d)
      (mem_joinQueries_of_derived d))
  have hselectQueries : d.2 ∈ selectQueries select := by
    simp only [selectQueries, List.mem_append, List.mem_flatMap]
    exact .inl (.inl (.inl (.inr ⟨table, htable, htableQueries⟩)))
  simp only [directQueries, List.mem_append]
  exact .inl (.inl (.inl (.inr (mem_setExprQueries_of_select hselectQueries hselect))))

/-- The selects of a rewritten query are those of the query, rewritten. -/
theorem forall_select_rewritten_iff (catalog : Catalog) (enabled : Bool) {P : BoundSelect → Prop}
    {query : BoundQueryPlan} :
    (∀ select, .select select ∈ setExprs (rewritten catalog enabled query).body → P select) ↔
      ∀ select, .select select ∈ setExprs query.body →
      P (rewriteSelect catalog enabled select).1 := by
  have hbody : setExprs (rewritten catalog enabled query).body =
      (setExprs query.body).map fun body => (rewriteSetExpr catalog enabled body).1 := by
    cases query
    simp only [rewritten, rewriteQueryPlan, setExprs_rewriteSetExpr]
  rw [hbody]
  constructor
  · intro h select hselect
    refine h _ (List.mem_map.mpr ⟨.select select, hselect, ?_⟩)
    rw [rewriteSetExpr]
  · intro h select hselect
    obtain ⟨body, hbody, heq⟩ := List.mem_map.mp hselect
    -- Only a select is rewritten to a select.
    cases body with
    | select original =>
      rw [rewriteSetExpr] at heq
      obtain rfl := BoundSetExpr.select.inj heq
      exact h original hbody
    | unionAll left right node schema => rw [rewriteSetExpr] at heq; cases heq
    | unsupported description node schema => rw [rewriteSetExpr] at heq; cases heq

/-- A rewritten query is well typed, where the query is, when it is not affected. -/
theorem queryTyped_rewritten_iff {catalog : Catalog} {enabled : Bool} {query : BoundQueryPlan}
    (hconsistent : AllWithin QueryConsistent query) (h : QueryTyped query) :
    QueryTyped (rewritten catalog enabled query) ↔ QueryUnaffected catalog enabled query := by
  obtain ⟨hself, hdirect⟩ := allWithin_iff.mp hconsistent
  -- The selects, each against its own tables.
  have hselects : (∀ select, .select select ∈ setExprs (rewritten catalog enabled query).body →
      SelectTyped select) ↔ ∀ select, .select select ∈ setExprs query.body →
        SelectUnaffected catalog enabled select := by
    rw [forall_select_rewritten_iff]
    refine forall₂_congr fun select hselect => ?_
    refine selectTyped_rewriteSelect_iff (fun d hd => ?_) (h.selects select hselect)
    exact hdirect _ (mem_directQueries_of_derived hselect hd) _ .refl
  have hschema : (rewritten catalog enabled query).body.resultSchema =
      (rewriteSetExpr catalog enabled query.body).1.resultSchema := by
    cases query
    simp [rewritten, rewriteQueryPlan]
  -- The clauses after the body, against its output.
  have houtput : (∀ use ∈ outputUses (rewritten catalog enabled query),
      UseTyped (.fromOutputSchema (rewritten catalog enabled query).body.resultSchema) use) ↔
        ∀ use ∈ outputUses query, OutputUnaffected catalog enabled query.body use := by
    rw [outputUses_rewritten, List.forall_mem_map, hschema]
    exact forall₂_congr fun use huse => outputTyped_rewrittenUse_iff hself (h.output use huse)
  constructor
  · intro htyped
    exact ⟨hselects.mp htyped.selects, houtput.mp htyped.output⟩
  · intro hunaffected
    exact ⟨hselects.mpr hunaffected.selects, houtput.mpr hunaffected.output⟩

/-- Rewriting keeps the well-typed plan of an accepted query well typed, at every depth, exactly
when no query within it is affected. -/
theorem rewrite_keeps_types_iff (context : BinderContext) (query : SyntaxQuery) (catalog : Catalog)
    (enabled : Bool) (haccepted : Accepted context query)
    (h : WellTyped (boundPlan context query)) :
    WellTyped (rewritten catalog enabled (boundPlan context query)) ↔
      AllWithin (QueryUnaffected catalog enabled) (boundPlan context query) := by
  have hconsistent := consistentCases.bindCases.allWithin context haccepted
  rw [WellTyped, allWithin_rewritten_iff]
  refine forall₂_congr fun inner hinner => ?_
  exact queryTyped_rewritten_iff (fun q hq => hconsistent q (hinner.trans hq)) (h inner hinner)

/-- The UUIDs that `devicesUnion` returns become texts, and every query within it stays well
typed. -/
theorem devicesUnion_keeps_types : WellTyped (boundPlan devicesAndEvents devicesUnion) ∧
    WellTyped
      (rewritten devicesAndEvents.catalog true (boundPlan devicesAndEvents devicesUnion)) := by
  have htyped : WellTyped (boundPlan devicesAndEvents devicesUnion) :=
    @allWithin_of_plansWithin _ 1 _ (by decide) (by decide)
  refine ⟨htyped,
    (rewrite_keeps_types_iff devicesAndEvents devicesUnion devicesAndEvents.catalog true
    (by decide) htyped).mpr (@allWithin_of_plansWithin _ 1 _ ?_ ?_)⟩
  · decide
  · decide

/-- A binder over the relation `devices (id)`, whose column is a UUID. -/
def devices : BinderContext where
  catalog := (MemoryCatalog.registerRelation {}
    { namespace_ := none, name := "devices", aliases := [], kind := .table
      columns := [{ name := "id", dataType := .uuid, nullable := false }] }).toCatalog
  parameters := {}
  toLowercase c := [c.toLower]

/-- `SELECT id FROM (SELECT id FROM devices) AS d`. -/
def derivedDevices : SyntaxQuery :=
  selectId []
    (.derived (selectId [] (plainTable "devices")) (some "d") { span := none, nodeId := "d" })

/-- The rewritten derived table returns a text, and is bound as a UUID still. -/
theorem derivedDevices_loses_type : Accepted devices derivedDevices ∧
    WellTyped (boundPlan devices derivedDevices) ∧
      ¬ WellTyped (rewritten devices.catalog true (boundPlan devices derivedDevices)) := by
  refine ⟨by decide, @allWithin_of_plansWithin _ 1 _ (by decide) (by decide), fun h => ?_⟩
  have hselect := (h _ .refl).selects _ List.mem_cons_self
  obtain ⟨hschema, -⟩ := List.forall_mem_cons.mp hselect.derived
  exact absurd hschema (by decide)

end QueryFabric.ClickHouse
