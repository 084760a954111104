import QueryFabric.Render.SpelledNames

/-!
# Binding keeps names as they are spelled

The binder looks a name up in the relations that it has bound, and the plan keeps the name as it was
spelled. The relations in scope are those that `Spelled` finds in the text, so the names of an
accepted query's plan mean what the names of its text mean, at every depth:
`allWithin_boundPlan_iff`. The induction is over binding. A part of a plan is related to what is
spelled in it for whatever relations of the right names its columns are looked up in.
-/

namespace QueryFabric.Render

open QueryFabric.Bind ClickHouse Lib

/-! ## Parts of a plan -/

/-- What the names of a part of a plan are read off: its columns, its tables, and the queries that
stand in it. -/
structure Part where
  columns : List ColumnUse
  tables : List NameRef
  queries : List BoundQueryPlan

/-- A part and the one after it. -/
def Part.append (first second : Part) : Part :=
  ⟨first.columns ++ second.columns, first.tables ++ second.tables, first.queries ++ second.queries⟩

section Kept

variable (context : BinderContext) (catalog : Catalog) (backend : SqlBackend)

/-- The names of a part have the catalog's, at every depth. -/
def Part.Exact (ctes : List String) (part : Part) : Prop :=
  (∀ use ∈ part.columns, use.Exact) ∧
    (∀ name ∈ part.tables, ∀ relation,
      meantRelation? context.catalog ctes name = some relation →
        name = ⟨relation.namespace_, relation.name⟩) ∧
    ∀ query ∈ part.queries, AllWithin (NamesExact context (emissionOf catalog backend)) query

/-- The names of a part are the catalog's exactly if none of what is spelled differs. -/
def Keeps (ctes : List String) (part : Part) (spellings : List Spelling) : Prop :=
  part.Exact context catalog backend ctes ↔ ∀ spelling ∈ spellings, ¬spelling.Differs

variable {context catalog backend} {ctes : List String}

/-- The names of two parts. -/
theorem Part.exact_append {first second : Part} :
    (first.append second).Exact context catalog backend ctes ↔
      first.Exact context catalog backend ctes ∧ second.Exact context catalog backend ctes := by
  simp only [Part.Exact, Part.append, List.forall_mem_append]
  grind

/-- What is spelled in a part, and then what is spelled in the part after it. -/
theorem Keeps.append {first second : Part} {spellings spellings' : List Spelling}
    (h : Keeps context catalog backend ctes first spellings)
    (h' : Keeps context catalog backend ctes second spellings') :
    Keeps context catalog backend ctes (first.append second) (spellings ++ spellings') := by
  unfold Keeps at h h' ⊢
  rw [Part.exact_append, List.forall_mem_append, h, h']

/-- Nothing is spelled where there is nothing. -/
theorem Keeps.nil : Keeps context catalog backend ctes ⟨[], [], []⟩ [] := by
  simp [Keeps, Part.Exact]

/-! ## Expressions -/

/-- The columns among what an expression uses. -/
def usesColumns (uses : List ExprUse) : List BoundColumnRef :=
  uses.filterMap fun
    | .column column _ => some column
    | .membership .. => none

variable (context catalog backend) in
/-- An expression that is bound in a scope keeps the names that are spelled in it, whatever
relations of these names it is looked up in. -/
def ExprKept (scope : Scope) (uses : List ExprUse) (queries : List BoundQueryPlan)
    (spell : List Source → List Spelling) : Prop :=
  ∀ (sources : List Source) (ctes : List String), sources.map Source.names = scopeNames scope →
    Keeps context catalog backend ctes ⟨(usesColumns uses).map (⟨sources, ·⟩), [], queries⟩
      (spell (sources.map Source.spelled))

variable {scope : Scope}

/-- Nothing is spelled in a constant. -/
theorem ExprKept.nil : ExprKept context catalog backend scope [] [] fun _ => [] :=
  fun _ _ _ => Keeps.nil

/-- What is spelled in two expressions. -/
theorem ExprKept.append {uses uses' : List ExprUse} {queries queries' : List BoundQueryPlan}
    {spell spell' : List Source → List Spelling}
    (h : ExprKept context catalog backend scope uses queries spell)
    (h' : ExprKept context catalog backend scope uses' queries' spell') :
    ExprKept context catalog backend scope (uses ++ uses') (queries ++ queries')
      fun sources => spell sources ++ spell' sources := by
  intro sources ctes hsources
  have happend := (h sources ctes hsources).append (h' sources ctes hsources)
  rwa [Part.append, ← List.map_append, usesColumns, usesColumns, ← List.filterMap_append] at happend

/-- A column keeps its name, and is looked up to the same field. -/
theorem ExprKept.column {relation : Option String} {name : String} {column : ResolvedColumn}
    (h : scope.resolveColumn relation name = .local column) (type : DataType) :
    ExprKept context catalog backend scope [.column ⟨column.relation, name⟩ type] []
      fun sources => [.column ⟨sources, ⟨relation, name⟩⟩] := by
  intro sources ctes hsources
  have hexact := (exact_resolved hsources h).trans ColumnUse.exact_iff
  show Keeps context catalog backend ctes ⟨[⟨sources, ⟨column.relation, name⟩⟩], [], []⟩ _
  simp only [Keeps, Part.Exact, List.forall_mem_singleton, List.not_mem_nil, false_imp_iff,
    imp_true_iff, and_true, Spelling.Differs, hexact]

variable (context catalog backend) in
/-- A plan keeps the names of its query, and its fields have theirs. -/
structure QueryKept (query : SyntaxQuery) (plan : BoundQueryPlan) : Prop where
  names : plan.resultSchema.fields.map ResultField.name =
    (Spelled.queryFields context.catalog query).map NamedField.name
  fields : (queryFields (emissionOf catalog backend) plan).map NamedField.spelled =
    Spelled.queryFields context.catalog query
  exact_iff : AllWithin (NamesExact context (emissionOf catalog backend)) plan ↔
    ∀ spelling ∈ querySpellings context.catalog catalog backend query, ¬spelling.Differs

/-- What is spelled in a subquery. -/
theorem QueryKept.keeps {query : SyntaxQuery} {plan : BoundQueryPlan}
    (h : QueryKept context catalog backend query plan) :
    Keeps context catalog backend ctes ⟨[], [], [plan]⟩
      (querySpellings context.catalog catalog backend query) := by
  simp only [Keeps, Part.Exact, List.not_mem_nil, false_imp_iff, imp_true_iff, true_and,
    List.forall_mem_singleton, h.exact_iff]

/-- What is spelled in the subquery of an expression. -/
theorem QueryKept.expr {query : SyntaxQuery} {plan : BoundQueryPlan}
    (h : QueryKept context catalog backend query plan) :
    ExprKept context catalog backend scope [] [plan]
      fun _ => querySpellings context.catalog catalog backend query :=
  fun _ _ _ => h.keeps

/-- What is spelled in a subquery that a value is looked up in. -/
theorem QueryKept.membership {query : SyntaxQuery} {plan : BoundQueryPlan}
    (h : QueryKept context catalog backend query plan) (type : DataType) :
    ExprKept context catalog backend scope [.membership type plan] [plan]
      fun _ => querySpellings context.catalog catalog backend query :=
  fun _ _ _ => h.keeps

/-! ## Relations -/

section Parts

variable (emission : Emission) (ctes : CteFields) (before : List Source)

/-- What is spelled in a relation, which stands after others. -/
def relationPart (relation : BoundRelation) : Part :=
  ⟨relationColumns emission ctes before relation, relationTables relation,
    relationQueries relation⟩

/-- What is spelled in a relation and in the joins to it. -/
def joinedPart (relation : BoundRelation) (joins : List BoundJoin) : Part :=
  ⟨joinedColumns emission ctes before relation joins, relationTables relation ++ joinTables joins,
    relationQueries relation ++ joinQueries joins⟩

/-- What is spelled in the condition of a join. -/
def conditionPart (sources : List Source) (on : Option BoundExpr) : Part :=
  ⟨(usesColumns (optionUses on)).map (⟨sources, ·⟩), [], optionQueries on⟩

/-- A relation has the same tables when its columns are nullable. -/
theorem relationTables_makeRelationNullable (relation : BoundRelation) :
    relationTables (makeRelationNullable relation) = relationTables relation := by
  cases relation with
  | nestedJoin binding table node =>
    cases table
    rfl
  | _ => rfl

/-- The tables of joined relations are read off each of them. -/
theorem joinTables_eq_flatMapJoins (joins : List BoundJoin) :
    joinTables joins = flatMapJoins relationTables (fun _ => []) joins := by
  induction joins with
  | nil => rfl
  | cons join joins ih =>
    cases join
    simp [joinTables, ih, flatMapJoins]

/-- The columns of an optional expression. -/
theorem columns_optionUses (on : Option BoundExpr) :
    usesColumns (optionUses on) = on.toList.flatMap exprColumns := by
  cases on with
  | none => rfl
  | some expr =>
    rw [Option.toList_some, List.flatMap_singleton]
    rfl

/-- A join adds what is spelled in the joined relation and in its condition. -/
theorem joinedPart_addJoin (state : JoinState) (kind : JoinKind) (joined : BoundRelation)
    (on : Option BoundExpr) (nd : SyntaxNode) :
    joinedPart emission ctes before (state.addJoin kind joined on nd).relation
        (state.addJoin kind joined on nd).joins =
      (joinedPart emission ctes before state.relation state.joins).append
        ((relationPart emission ctes
            (before ++ joinedSources emission ctes state.relation state.joins) joined).append
          (conditionPart (before ++ joinedSources emission ctes state.relation state.joins ++
            relationSources emission ctes joined) on)) := by
  have htables := flatMapJoins_addJoin (G := fun _ => []) relationTables_makeRelationNullable state
    kind joined on nd
  have hqueries := flatMapJoins_addJoin (G := optionQueries) relationQueries_makeRelationNullable
    state kind joined on nd
  simp only [joinedPart, relationPart, conditionPart, Part.append, joinedColumns_addJoin,
    joinTables_eq_flatMapJoins, joinQueries_eq_flatMapJoins, htables, hqueries, columns_optionUses]

end Parts

variable (context catalog backend) in
/-- A relation that is bound in a scope keeps the names that are spelled in it, and it is in scope
by the name and with the fields that the text gives it. -/
structure RelationKept (scope : Scope) (ctes : CteFields) (relation : SyntaxRelation)
    (bound : BoundRelation) : Prop where
  sources : (relationSources (emissionOf catalog backend) ctes bound).map Source.spelled =
    Spelled.relationSources context.catalog (spelledCtes ctes) relation
  names : boundNames bound =
    (relationSources (emissionOf catalog backend) ctes bound).map Source.names
  targets : (collectRelationBindings catalog bound).map ScopeBinding.bindingName =
    Spelled.relationTargets catalog (spelledCtes ctes) relation
  part : ∀ before, before.map Source.names = scopeNames scope →
    Keeps context catalog backend (ctes.map Prod.fst)
      (relationPart (emissionOf catalog backend) ctes before bound)
      (relationSpellings context.catalog catalog backend (spelledCtes ctes)
        (before.map Source.spelled) relation)

variable (context catalog backend) in
/-- A relation and the joins to it keep the names that are spelled in them, and are in scope as the
text says. -/
structure JoinedKept (scope : Scope) (ctes : CteFields) (sources : List Source)
    (targets : List String) (spell : List Source → List Spelling) (relation : BoundRelation)
    (joins : List BoundJoin) : Prop where
  sources : (joinedSources (emissionOf catalog backend) ctes relation joins).map Source.spelled =
    sources
  names : joinedBoundNames relation joins =
    (joinedSources (emissionOf catalog backend) ctes relation joins).map Source.names
  targets : (collectRelationBindings catalog relation ++ collectJoinBindings catalog joins).map
    ScopeBinding.bindingName = targets
  part : ∀ before, before.map Source.names = scopeNames scope →
    Keeps context catalog backend (ctes.map Prod.fst)
      (joinedPart (emissionOf catalog backend) ctes before relation joins)
      (spell (before.map Source.spelled))

section Joins

variable {ctes : CteFields} {relation : SyntaxRelation} {bound : BoundRelation}

/-- A relation without joins. -/
theorem RelationKept.start (h : RelationKept context catalog backend scope ctes relation bound) :
    JoinedKept context catalog backend scope ctes
      (Spelled.relationSources context.catalog (spelledCtes ctes) relation)
      (Spelled.relationTargets catalog (spelledCtes ctes) relation)
      (fun before => relationSpellings context.catalog catalog backend (spelledCtes ctes) before
        relation) bound [] where
  sources := by rw [joinedSources, joinSources, List.append_nil, h.sources]
  names := by
    rw [joinedBoundNames, flatMapJoins, List.flatMap_nil, List.append_nil, h.names, joinedSources,
      joinSources, List.append_nil]
  targets := by rw [collectJoinBindings, List.append_nil, h.targets]
  part before hbefore := by
    have hpart := h.part before hbefore
    simpa only [joinedPart, joinedColumns, joinColumns, joinTables, joinQueries, List.append_nil,
      relationPart] using hpart

/-- The adapter finds the same tables when their columns are nullable. -/
theorem collectRelationBindings_makeRelationNullable (catalog : Catalog)
    (relation : BoundRelation) :
    collectRelationBindings catalog (makeRelationNullable relation) =
      collectRelationBindings catalog relation := by
  cases relation with
  | nestedJoin binding table node =>
    cases table
    rfl
  | table binding node => simp only [makeRelationNullable, collectRelationBindings]
  | _ => rfl

/-- The tables that the adapter finds among joined relations are read off each of them. -/
theorem collectJoinBindings_eq_flatMapJoins (joins : List BoundJoin) :
    collectJoinBindings catalog joins =
      flatMapJoins (collectRelationBindings catalog) (fun _ => []) joins := by
  induction joins with
  | nil => rfl
  | cons join joins ih =>
    cases join
    simp [collectJoinBindings, ih, flatMapJoins]

/-- One more join, whose condition sees the joined relation as well. -/
theorem JoinedKept.addJoin {state : JoinState} {sources : List Source} {targets : List String}
    {spell : List Source → List Spelling} {on : Option SyntaxExpr} {onBound : Option BoundExpr}
    (h : JoinedKept context catalog backend scope ctes sources targets spell state.relation
      state.joins)
    (hscope : scopeNames state.joinScope =
      scopeNames scope ++ joinedBoundNames state.relation state.joins)
    (hrelation : RelationKept context catalog backend state.joinScope ctes relation bound)
    (hon : ExprKept context catalog backend (state.joinScope.pushRelation bound)
      (optionUses onBound) (optionQueries onBound)
      fun sources => optionSpellings context.catalog catalog backend sources on)
    (kind : JoinKind) (nd : SyntaxNode) :
    JoinedKept context catalog backend scope ctes
      (sources ++ Spelled.relationSources context.catalog (spelledCtes ctes) relation)
      (targets ++ Spelled.relationTargets catalog (spelledCtes ctes) relation)
      (fun before => spell before ++
        (relationSpellings context.catalog catalog backend (spelledCtes ctes) (before ++ sources)
            relation ++
          optionSpellings context.catalog catalog backend (before ++ sources ++
            Spelled.relationSources context.catalog (spelledCtes ctes) relation) on))
      (state.addJoin kind bound onBound nd).relation
        (state.addJoin kind bound onBound nd).joins where
  sources := by rw [joinedSources_addJoin, List.map_append, h.sources, hrelation.sources]
  names := by
    rw [joinedBoundNames_addJoin, joinedSources_addJoin, List.map_append, h.names, hrelation.names]
  -- Making a relation nullable does not change what a wildcard of it expands to.
  targets := by
    have hadd := flatMapJoins_addJoin (G := fun _ => [])
      (collectRelationBindings_makeRelationNullable catalog) state kind bound onBound nd
    have htargets := h.targets
    rw [collectJoinBindings_eq_flatMapJoins] at htargets ⊢
    rw [hadd, List.append_nil, List.map_append, htargets, hrelation.targets]
  part before hbefore := by
    -- The joined relation sees the relations before the tables and those of the earlier joins.
    have hbefore' : (before ++ joinedSources (emissionOf catalog backend) ctes state.relation
        state.joins).map Source.names = scopeNames state.joinScope := by
      rw [List.map_append, hbefore, ← h.names, hscope]
    -- The condition sees the joined relation as well.
    have hcondition : (before ++ joinedSources (emissionOf catalog backend) ctes state.relation
        state.joins ++ relationSources (emissionOf catalog backend) ctes bound).map Source.names =
          scopeNames (state.joinScope.pushRelation bound) := by
      rw [List.map_append, hbefore', scopeNames_pushRelation, hrelation.names]
    have hpart := (h.part before hbefore).append ((hrelation.part _ hbefore').append
      (hon _ (ctes.map Prod.fst) hcondition))
    rw [joinedPart_addJoin]
    simpa only [conditionPart, List.map_append, h.sources, hrelation.sources] using hpart

variable (context catalog backend) in
/-- The relations of a `FROM` clause keep the names that are spelled in them, and the scope after
them has them as the text says. -/
structure TablesKept (scope next : Scope) (ctes : CteFields) (tables : List SyntaxTableWithJoins)
    (bound : List BoundTableWithJoins) : Prop where
  sources : (tablesSources (emissionOf catalog backend) ctes bound).map Source.spelled =
    Spelled.tablesSources context.catalog (spelledCtes ctes) tables
  names : scopeNames next = scopeNames scope ++
    (tablesSources (emissionOf catalog backend) ctes bound).map Source.names
  targets : (scopeFromFromClause catalog bound).map ScopeBinding.bindingName =
    Spelled.tablesTargets catalog (spelledCtes ctes) tables
  part : ∀ before, before.map Source.names = scopeNames scope →
    Keeps context catalog backend (ctes.map Prod.fst)
      ⟨tablesColumns (emissionOf catalog backend) ctes before bound, fromTables bound,
        bound.flatMap tableQueries⟩
      (tablesSpellings context.catalog catalog backend (spelledCtes ctes)
        (before.map Source.spelled) tables)

/-- There is nothing in an empty clause. -/
theorem TablesKept.nil : TablesKept context catalog backend scope scope ctes [] [] where
  sources := rfl
  names := by rw [tablesSources, List.map_nil, List.append_nil]
  targets := rfl
  part _ _ := Keeps.nil

/-- One more table, which stands before the others. -/
theorem TablesKept.cons {next : Scope} {joins : List SyntaxJoin} {node : SyntaxNode}
    {tables : List SyntaxTableWithJoins} {table : BoundTableWithJoins}
    {rest : List BoundTableWithJoins}
    (htable : JoinedKept context catalog backend scope ctes
      (Spelled.relationSources context.catalog (spelledCtes ctes) relation ++
        Spelled.joinSources context.catalog (spelledCtes ctes) joins)
      (Spelled.relationTargets catalog (spelledCtes ctes) relation ++
        Spelled.joinTargets catalog (spelledCtes ctes) joins)
      (fun before => relationSpellings context.catalog catalog backend (spelledCtes ctes) before
          relation ++
        joinSpellings context.catalog catalog backend (spelledCtes ctes)
          (before ++ Spelled.relationSources context.catalog (spelledCtes ctes) relation) joins)
      table.relation table.joins)
    (hrest : TablesKept context catalog backend (scope.mergeTable table) next ctes tables rest) :
    TablesKept context catalog backend scope next ctes (⟨relation, joins, node⟩ :: tables)
      (table :: rest) where
  sources := by
    rw [tablesSources_cons, List.map_append, htable.sources, hrest.sources, Spelled.tablesSources]
  names := by
    rw [hrest.names, scopeNames_mergeTable, htable.names, tablesSources_cons, List.map_append,
      List.append_assoc]
  -- The targets of a `FROM` are those of its first table and then those of the rest.
  targets := by
    have hrest := hrest.targets
    unfold scopeFromFromClause Spelled.tablesTargets at hrest ⊢
    rw [List.flatMap_cons, List.flatMap_cons, List.map_append, htable.targets, hrest]
  part before hbefore := by
    -- The later tables see the first one in their scope.
    have hmerged : (before ++ joinedSources (emissionOf catalog backend) ctes table.relation
        table.joins).map Source.names = scopeNames (scope.mergeTable table) := by
      rw [List.map_append, hbefore, scopeNames_mergeTable, htable.names]
    have hpart := (htable.part before hbefore).append (hrest.part _ hmerged)
    rw [List.map_append, htable.sources] at hpart
    simpa only [Part.append, joinedPart, tablesColumns_cons, fromTables, tableQueries,
      List.flatMap_cons, tablesSpellings, List.append_assoc] using hpart

/-- The adapter expands the wildcards that the text says. -/
theorem TablesKept.expand {next : Scope} {tables : List SyntaxTableWithJoins}
    {bound : List BoundTableWithJoins}
    (h : TablesKept context catalog backend scope next ctes tables bound) :
    (emissionOf catalog backend).expand bound =
      Spelled.expandedTo catalog (spelledCtes ctes) tables backend := by
  funext qualifier
  cases backend with
  | postgres => rfl
  | clickHouse =>
    have htargets := h.targets
    cases qualifier with
    -- A qualified wildcard is the first binding of that name.
    | some qualifier =>
      show ((scopeFromFromClause catalog bound).find? fun binding =>
        eqIgnoreAsciiCase binding.bindingName qualifier).map ScopeBinding.bindingName = _
      rw [Spelled.expandedTo, ← htargets, List.find?_map]
      rfl
    -- A plain wildcard is expanded only where the scope has one binding.
    | none =>
      rw [Spelled.expandedTo, ← htargets]
      show SelectScope.targetBindingName (scopeFromFromClause catalog bound) none = _
      match scopeFromFromClause catalog bound with
      | [] => rfl
      | [_] => rfl
      | _ :: _ :: _ => rfl

end Joins

/-! ## Projections -/

variable (context catalog backend) in
/-- A projection that is bound in a scope keeps the names that are spelled in it, and makes the
fields that the text gives it. -/
structure ItemsKept (sources : List Source) (items : List SyntaxProjectionItem)
    (bound : List BoundProjectionItem) (fields : List ResultField) : Prop where
  names : fields.map ResultField.name =
    (items.flatMap (Spelled.itemFields (sources.map Source.spelled))).map NamedField.name
  fields : ∀ from_, (bound.flatMap (itemNamedFields (emissionOf catalog backend) from_
      sources)).map NamedField.spelled =
    items.flatMap (Spelled.itemFields (sources.map Source.spelled))
  part : ∀ from_ ctes, Keeps context catalog backend ctes
    ⟨(bound.flatMap (itemColumns (emissionOf catalog backend) from_)).map (⟨sources, ·⟩), [],
      bound.flatMap itemQueries⟩
    (itemSpellings context.catalog catalog backend (sources.map Source.spelled)
      ((emissionOf catalog backend).expand from_) items)

section Items

variable {sources : List Source} {items : List SyntaxProjectionItem}
  {bound : List BoundProjectionItem} {fields : List ResultField}

/-- An expression, before the other items. -/
theorem ItemsKept.consExpr
    (h : ItemsKept context catalog backend sources items bound fields)
    (hsources : sources.map Source.names = scopeNames scope) {expr : SyntaxExpr}
    (details : BoundProjectionExpr) (alias_ : Option String) (node : SyntaxNode)
    (hexpr : ExprKept context catalog backend scope (exprUses details.expr)
      (exprQueries details.expr)
      fun sources => exprSpellings context.catalog catalog backend sources expr)
    (hname : details.field.name = alias_.getD (expressionName expr)) :
    ItemsKept context catalog backend sources (.expr ⟨expr, alias_, node⟩ :: items)
      (.expr details :: bound) (details.field :: fields) where
  -- The item has one field, of its name.
  names := by
    rw [List.map_cons, List.flatMap_cons, List.map_append, ← h.names, hname]
    rfl
  fields from_ := by
    rw [List.flatMap_cons, List.flatMap_cons, List.map_append, h.fields, Spelled.itemFields,
      itemNamedFields, hname]
    congr 1
    simp only [List.map_cons, List.map_nil, NamedField.spelled]
    split <;> rfl
  -- The expression is spelled first, and then the other items.
  part from_ ctes := by
    have hpart := (hexpr sources ctes hsources).append (h.part from_ ctes)
    rw [Part.append, ← List.map_append] at hpart
    rw [List.flatMap_cons, List.flatMap_cons, itemSpellings]
    exact hpart

/-- A wildcard, before the other items. -/
theorem ItemsKept.consWildcard
    (h : ItemsKept context catalog backend sources items bound fields)
    (qualifier : Option String) (node nd : SyntaxNode) {expanded : List ResultField}
    (hnames : expanded.map ResultField.name = wildcardNames (sources.map Source.names) qualifier) :
    ItemsKept context catalog backend sources (.wildcard qualifier node :: items)
      (.wildcard qualifier expanded nd :: bound) (expanded ++ fields) where
  names := by
    rw [List.map_append, List.flatMap_cons, List.map_append, ← h.names, hnames, Spelled.itemFields,
      List.map_map, ← map_names_spelled, ← name_wildcardFields]
    rfl
  fields from_ := by
    have horigins : ∀ origin ∈ (if ((emissionOf catalog backend).expand from_ qualifier).isSome
        then [] else (wildcardFields sources qualifier).map fun field => field.origin.projected),
        origin ≠ .column := by
      split
      · exact fun _ h => absurd h List.not_mem_nil
      · refine List.forall_mem_map.mpr fun field _ => ?_
        cases field.origin <;> simp [FieldOrigin.projected]
    rw [List.flatMap_cons, List.flatMap_cons, List.map_append, h.fields, itemNamedFields,
      withOrigins_spelled horigins, hnames, Spelled.itemFields, ← map_names_spelled,
      ← name_wildcardFields, List.map_map]
    rfl
  part from_ ctes := by
    have hwildcard : Keeps context catalog backend ctes
        ⟨(itemColumns (emissionOf catalog backend) from_ (.wildcard qualifier expanded nd)).map
          (⟨sources, ·⟩), [], []⟩
        (wildcardSpellings (sources.map Source.spelled) qualifier
          ((emissionOf catalog backend).expand from_ qualifier)) := by
      simp only [Keeps, Part.Exact, itemColumns, wildcardSpellings]
      cases (emissionOf catalog backend).expand from_ qualifier with
      | none => simp
      | some name =>
        -- Both sides are about the names that the wildcard stands for.
        have hbound : (∀ field ∈ expanded, (ColumnUse.mk sources ⟨some name, field.name⟩).Exact) ↔
            ∀ name' ∈ wildcardNames (sources.map Source.names) qualifier,
              (ColumnUse.mk sources ⟨some name, name'⟩).Exact := by
          rw [← hnames, List.forall_mem_map]
        have hspelled : (∀ field ∈ wildcardFields (sources.map Source.spelled) qualifier,
              ¬(ColumnUse.mk (sources.map Source.spelled) ⟨some name, field.name⟩).Recased) ↔
            ∀ name' ∈ wildcardNames (sources.map Source.names) qualifier,
              (ColumnUse.mk sources ⟨some name, name'⟩).Exact := by
          rw [← map_names_spelled, ← name_wildcardFields, List.forall_mem_map]
          simp only [← ColumnUse.exact_iff, exact_spelled]
        simp only [List.map_map, List.forall_mem_map, Function.comp_apply, hbound, List.not_mem_nil,
          false_imp_iff, imp_true_iff, and_true, Option.toList_some, List.flatMap_singleton,
          Spelling.Differs, hspelled]
    have hpart := hwildcard.append (h.part from_ ctes)
    rw [Part.append, ← List.map_append] at hpart
    rw [List.flatMap_cons, List.flatMap_cons, itemSpellings]
    exact hpart

end Items

/-! ## Tables -/

/-- The fields of a CTE that a table means. -/
theorem cteFields?_eq (ctes : CteFields) (name : NameRef) :
    cteFields? ctes name = (Spelled.cte? ctes name).map Prod.snd := by
  unfold cteFields? Spelled.cte?
  split <;> rfl

/-- A CTE that a table means has its name, in some letter case. -/
theorem of_cte?_eq_some {ctes : CteFields} {name : NameRef} {cte : String × List NamedField}
    (h : Spelled.cte? ctes name = some cte) : name.namespace_ = none ∧ cte ∈ ctes ∧
      toAsciiLowercase cte.1 = toAsciiLowercase name.name := by
  unfold Spelled.cte? at h
  split at h
  · rename_i hnone
    refine ⟨Option.isNone_iff_eq_none.mp hnone,
      List.mem_reverse.mp (List.mem_of_find?_eq_some h), ?_⟩
    have hcase := List.find?_some h
    exact eqIgnoreAsciiCase_iff.mp hcase
  · cases h

/-- A table that means a CTE is bound by the CTE's name. -/
theorem tableName_of_some {ctes : CteFields} {name : NameRef} {cte : String × List NamedField}
    (h : Spelled.cte? ctes name = some cte) :
    Spelled.tableName ctes name = { namespace_ := none, name := cte.1 } := by
  unfold Spelled.tableName
  rw [h]

/-- Another table is bound by its name. -/
theorem tableName_of_none {ctes : CteFields} {name : NameRef} (h : Spelled.cte? ctes name = none) :
    Spelled.tableName ctes name = name := by
  unfold Spelled.tableName
  rw [h]

/-- A table is looked up to the same CTE by the name that it is bound by. -/
theorem cte?_tableName (ctes : CteFields) (name : NameRef) :
    Spelled.cte? ctes (Spelled.tableName ctes name) = Spelled.cte? ctes name := by
  cases hcte : Spelled.cte? ctes name with
  | none => rw [tableName_of_none hcte, hcte]
  | some cte =>
    obtain ⟨hnamespace, -, hsame⟩ := of_cte?_eq_some hcte
    rw [tableName_of_some hcte, ← hcte]
    simp only [Spelled.cte?, hnamespace, Option.isNone_none, if_true, eqIgnoreAsciiCase, hsame]

/-- A table means the same relation by the name that it is bound by. -/
theorem meantRelation?_tableName (relations : Catalog) (ctes : CteFields) (name : NameRef) :
    meantRelation? relations (ctes.map Prod.fst) (Spelled.tableName ctes name) =
        meantRelation? relations (ctes.map Prod.fst) name ∧
      ∀ relation, meantRelation? relations (ctes.map Prod.fst) name = some relation →
        Spelled.tableName ctes name = name := by
  cases hcte : Spelled.cte? ctes name with
  | none =>
    rw [tableName_of_none hcte]
    exact ⟨rfl, fun _ _ => rfl⟩
  -- A CTE hides the relation, under either spelling of its name.
  | some cte =>
    obtain ⟨namespace_, spelled⟩ := name
    obtain ⟨rfl, hmem, hsame⟩ := of_cte?_eq_some hcte
    have hnone : ∀ other : String, toAsciiLowercase cte.1 = toAsciiLowercase other →
        meantRelation? relations (ctes.map Prod.fst) { namespace_ := none, name := other } =
          none := by
      intro other hother
      have hany : (ctes.map Prod.fst).any (eqIgnoreAsciiCase · other) = true :=
        List.any_eq_true.mpr ⟨cte.1, List.mem_map_of_mem hmem, eqIgnoreAsciiCase_iff.mpr hother⟩
      unfold meantRelation?
      rw [hany]
      rfl
    rw [tableName_of_some hcte, hnone spelled hsame, hnone cte.1 rfl]
    exact ⟨rfl, fun _ hrelation => by cases hrelation⟩

/-- What the binder resolves a table to is bound by the name, and has the fields, that the text
gives it. -/
theorem resolveTable_known {cteScope : CteScope} {ctes : CteFields}
    (hctes : CtesKnown cteScope ctes) {name : NameRef} {binding : BoundRelationBinding}
    (h : (resolveTable context cteScope name).2 = some binding) :
    binding.bindingName = (Spelled.tableName ctes name).name ∧
      binding.relationName = some (Spelled.tableName ctes name) ∧
      (tableFields ctes binding).map NamedField.spelled =
        Spelled.tableFields context.catalog (spelledCtes ctes) name := by
  -- The fields of a table are those of the CTE of that name, or those of its schema.
  have hfields : binding.relationName = some (Spelled.tableName ctes name) →
      tableFields ctes binding = (Spelled.cte? ctes name).elim
        ((binding.schema.fields.map ResultField.name).map (⟨·, .column⟩))
        fun cte => withOrigins (binding.schema.fields.map ResultField.name)
          (cte.2.map NamedField.origin) := by
    intro hname
    unfold tableFields
    rw [hname, Option.bind_some, cteFields?_eq, cte?_tableName]
    cases Spelled.cte? ctes name <;> rfl
  unfold Spelled.tableFields
  rw [cte?_spelled]
  unfold Spelled.tableName at hfields ⊢
  -- The binder looks a name up among the CTEs where it has no namespace, and so does the spelling.
  have hlookup : (if name.namespace_.isNone then cteScope.lookup (toAsciiLowercase name.name)
      else none).map (fun entry => (entry.binding.bindingName, entry.binding.relationName,
        entry.binding.schema.fields.map ResultField.name)) =
      (Spelled.cte? ctes name).map fun cte =>
        (cte.1, some { namespace_ := none, name := cte.1 }, cte.2.map NamedField.name) := by
    unfold Spelled.cte?
    split
    · exact hctes name.name
    · rfl
  unfold resolveTable at h
  -- A CTE hides the relation of the catalog.
  cases hcte : Spelled.cte? ctes name with
  | some cte =>
    simp only [hcte, Option.elim_some] at hfields
    rw [hcte] at hlookup
    obtain ⟨entry, hentry, heq⟩ := Option.map_eq_some_iff.mp hlookup
    obtain ⟨hbinding, heq⟩ := Prod.mk.inj heq
    obtain ⟨hrelation, hschema⟩ := Prod.mk.inj heq
    simp only [hentry, Option.some_inj] at h
    subst h
    refine ⟨hbinding, hrelation, ?_⟩
    rw [hfields hrelation, hschema, withOrigins_origin]
    rfl
  | none =>
    simp only [hcte, Option.elim_none] at hfields
    rw [hcte] at hlookup
    have hnone := Option.map_eq_none_iff.mp hlookup
    simp only [hnone] at h
    split at h
    · rename_i relation hrelation
      obtain rfl := Option.some_inj.mp h
      refine ⟨rfl, rfl, ?_⟩
      rw [hfields rfl]
      simp only [RelationSchema.toResultSchema, ResultSchema.new, Option.map_none, hrelation,
        List.map_map]
      rfl
    · cases h

/-- A table keeps its name. -/
theorem RelationKept.table {cteScope : CteScope} {ctes : CteFields}
    (hctes : CtesKnown cteScope ctes) {name : NameRef} {binding : BoundRelationBinding}
    (h : (resolveTable context cteScope name).2 = some binding) (alias_ : Option String)
    (node nd : SyntaxNode) :
    RelationKept context catalog backend scope ctes (.table name alias_ node)
      (.table { binding with bindingName := alias_.getD binding.bindingName } nd) := by
  obtain ⟨hbinding, hrelation, hfields⟩ := resolveTable_known hctes h
  refine ⟨?_, ?_, ?_, fun before hbefore => ?_⟩
  · rw [relationSources, List.map_singleton, Spelled.relationSources, tableName_spelled, ← hfields,
      hbinding]
    rfl
  · simp [boundNames, BoundRelation.binding, relationSources, Source.names, name_tableFields]
  · rw [Spelled.relationTargets, tableName_spelled]
    simp only [collectRelationBindings, hrelation, hbinding]
    cases catalog.resolveRelation (Spelled.tableName ctes name).namespace_
      (Spelled.tableName ctes name).name <;> rfl
  · obtain ⟨hmeant, hname⟩ := meantRelation?_tableName context.catalog ctes name
    simp only [Keeps, Part.Exact, relationPart, relationColumns, relationTables, relationQueries,
      relationSpellings, fst_spelledCtes, hrelation, Option.toList_some, List.forall_mem_singleton,
      List.not_mem_nil, false_imp_iff, imp_true_iff, true_and, and_true, hmeant,
      List.forall_mem_map, Option.mem_toList, Spelling.Differs, ← eq_iff_not_misspelled]
    exact forall₂_congr fun relation hmeans => by rw [hname relation hmeans]

/-- A derived table keeps the names of its query. -/
theorem RelationKept.derived {ctes : CteFields} {query : SyntaxQuery} {plan : BoundQueryPlan}
    (h : QueryKept context catalog backend query plan) (alias_ : Option String)
    (node nd : SyntaxNode) :
    RelationKept context catalog backend scope ctes (.derived query alias_ node)
      (.derived { bindingName := derivedName alias_ node, relationName := none
                  schema := plan.resultSchema } plan nd) where
  sources := by
    rw [relationSources, List.map_singleton, Spelled.relationSources, Source.spelled, h.fields]
  names := by
    have hnames := h.names
    rw [← h.fields, map_name_spelled] at hnames
    simp [boundNames, BoundRelation.binding, relationSources, Source.names, hnames]
  targets := rfl
  part before hbefore := by
    rw [relationSpellings]
    exact h.keeps

/-- A nested join keeps the names of the relations in it. -/
theorem RelationKept.nestedJoin {ctes : CteFields} {relation : SyntaxRelation}
    {joins : List SyntaxJoin} {table : BoundTableWithJoins} (own : SyntaxNode)
    (htable : JoinedKept context catalog backend scope ctes
      (Spelled.relationSources context.catalog (spelledCtes ctes) relation ++
        Spelled.joinSources context.catalog (spelledCtes ctes) joins)
      (Spelled.relationTargets catalog (spelledCtes ctes) relation ++
        Spelled.joinTargets catalog (spelledCtes ctes) joins)
      (fun before => relationSpellings context.catalog catalog backend (spelledCtes ctes) before
          relation ++
        joinSpellings context.catalog catalog backend (spelledCtes ctes)
          (before ++ Spelled.relationSources context.catalog (spelledCtes ctes) relation) joins)
      table.relation table.joins)
    (alias_ : Option String) (node nd : SyntaxNode) :
    RelationKept context catalog backend scope ctes
      (.nestedJoin ⟨relation, joins, own⟩ alias_ node)
      (.nestedJoin { bindingName := derivedName alias_ node, relationName := none
                     schema := scopeSchemaForTable table } table nd) := by
  obtain ⟨bound, boundJoins, boundNode⟩ := table
  refine ⟨?_, ?_, ?_, fun before hbefore => ?_⟩
  -- The nested join is one source, under its alias, with the fields of all its sources.
  · rw [relationSources, List.map_singleton, Spelled.relationSources, ← htable.sources,
      List.flatMap_map, Source.spelled, List.map_flatMap]
    rfl
  · rw [relationSources, boundNames, BoundRelation.binding, Option.toList_some, List.map_singleton,
      List.map_singleton, names_scopeSchemaForTable, htable.names, List.flatMap_map, Source.names,
      List.map_flatMap]
    rfl
  · rw [Spelled.relationTargets, ← htable.targets, collectRelationBindings]
  -- Its conditions are spelled with the names outside of the alias.
  · have hpart := htable.part before hbefore
    rw [relationSpellings]
    simpa only [relationPart, relationColumns, relationTables, relationQueries, joinedPart,
      joinedColumns] using hpart

/-! ## Queries -/

/-- Parts of the same names are kept alike. -/
theorem Keeps.congr {first second : Part} {spellings : List Spelling}
    (h : Keeps context catalog backend ctes first spellings)
    (hexact : second.Exact context catalog backend ctes ↔
      first.Exact context catalog backend ctes) :
    Keeps context catalog backend ctes second spellings :=
  hexact.trans h

/-- The columns of a list of expressions. -/
theorem columns_exprsUses (exprs : List BoundExpr) :
    usesColumns (exprsUses exprs) = exprs.flatMap exprColumns := by
  induction exprs with
  | nil => rfl
  | cons expr exprs ih =>
    rw [exprsUses, usesColumns, List.filterMap_append, List.flatMap_cons, ← ih]
    rfl

/-- The columns of the keys of an order. -/
theorem columns_orderByUses (orders : List BoundOrderByExpr) :
    usesColumns (orderByUses orders) = (orders.map BoundOrderByExpr.expr).flatMap exprColumns := by
  induction orders with
  | nil => rfl
  | cons order orders ih =>
    cases order
    rw [orderByUses, usesColumns, List.filterMap_append, List.map_cons, List.flatMap_cons, ← ih]
    rfl

variable (context catalog backend) in
/-- A query body keeps the names that are spelled in it, and its fields have theirs. -/
structure SetExprKept (ctes : CteFields) (body : SyntaxSetExpr) (bound : BoundSetExpr) : Prop where
  names : bound.resultSchema.fields.map ResultField.name =
    (Spelled.setExprFields context.catalog (spelledCtes ctes) body).map NamedField.name
  fields : (setExprFields (emissionOf catalog backend) ctes bound).map NamedField.spelled =
    Spelled.setExprFields context.catalog (spelledCtes ctes) body
  part : Keeps context catalog backend (ctes.map Prod.fst)
    ⟨setExprColumns (emissionOf catalog backend) ctes bound, setExprTables bound,
      setExprQueries bound⟩
    (setExprSpellings context.catalog catalog backend (spelledCtes ctes) body)

section Bodies

variable {ctes : CteFields}

/-- A select keeps what is spelled in its clauses. -/
theorem SetExprKept.select {distinct : Bool} {projection : List SyntaxProjectionItem}
    {from_ : List SyntaxTableWithJoins} {selection having : Option SyntaxExpr}
    {groupBy : List SyntaxExpr} {node : SyntaxNode} {items : List BoundProjectionItem}
    {tables : List BoundTableWithJoins} {where_ havingBound : Option BoundExpr}
    {group : List BoundExpr} {fields : List ResultField}
    (hfrom : TablesKept context catalog backend {} scope ctes from_ tables)
    (hselection : ExprKept context catalog backend scope (optionUses where_) (optionQueries where_)
      fun sources => optionSpellings context.catalog catalog backend sources selection)
    (hgroup : ExprKept context catalog backend scope (exprsUses group) (exprsQueries group)
      fun sources => exprsSpellings context.catalog catalog backend sources groupBy)
    (hhaving : ExprKept context catalog backend scope (optionUses havingBound)
      (optionQueries havingBound)
      fun sources => optionSpellings context.catalog catalog backend sources having)
    (hitems : ∀ sources : List Source, sources.map Source.names = scopeNames scope →
      ItemsKept context catalog backend sources projection items fields) (nd : SyntaxNode) :
    SetExprKept context catalog backend ctes
      (.select ⟨distinct, projection, from_, selection, groupBy, having, node⟩)
      (.select { distinct, projection := items, from_ := tables, selection := where_
                 groupBy := group, having := havingBound, resultSchema := .new fields
                 node := nd }) := by
  -- The names of the sources are those of the scope that the clauses are bound in.
  have hsources : (tablesSources (emissionOf catalog backend) ctes tables).map Source.names =
      scopeNames scope := by
    rw [hfrom.names]
    rfl
  have hprojection := hitems _ hsources
  refine ⟨?_, ?_, ?_⟩
  · rw [Spelled.setExprFields, ← hfrom.sources]
    exact hprojection.names
  · rw [setExprFields, Spelled.setExprFields, ← hfrom.sources]
    exact hprojection.fields tables
  -- The parts of the select in the order of its text.
  · have hclauses :=
      ((hfrom.part [] rfl).append ((hprojection.part tables (ctes.map Prod.fst)).append
      ((hselection _ (ctes.map Prod.fst) hsources).append
        ((hgroup _ (ctes.map Prod.fst) hsources).append (hhaving _ _ hsources)))))
    rw [setExprSpellings, selectSpellings, ← hfrom.sources, ← hfrom.expand]
    refine hclauses.congr ?_
    simp only [Part.Exact, Part.append, setExprColumns, selectColumns, setExprTables,
      setExprQueries, selectQueries, columns_optionUses, columns_exprsUses, List.map_append,
      List.flatMap_append, List.append_nil, List.forall_mem_append]
    grind

/-- A union keeps what is spelled on its sides, and has the fields of the left one. -/
theorem SetExprKept.unionAll {left right : SyntaxSetExpr} {boundLeft boundRight : BoundSetExpr}
    (hleft : SetExprKept context catalog backend ctes left boundLeft)
    (hright : SetExprKept context catalog backend ctes right boundRight)
    (hlength : boundLeft.resultSchema.fields.length = boundRight.resultSchema.fields.length)
    (node nd : SyntaxNode) :
    SetExprKept context catalog backend ctes (.unionAll left right node)
      (.unionAll boundLeft boundRight nd
        (unionSchema boundLeft.resultSchema boundRight.resultSchema)) where
  names := by
    rw [Spelled.setExprFields, ← hleft.names]
    exact names_unionSchema hlength
  fields := by rw [setExprFields, Spelled.setExprFields, hleft.fields]
  part := by
    rw [setExprSpellings]
    exact hleft.part.append hright.part

end Bodies

variable (context catalog backend) in
/-- The CTEs of a query keep the names that are spelled in them, and they are known after those in
scope before. -/
structure CtesKept (before after : CteScope) (ctes : List SyntaxCte) (bound : List BoundCte) :
    Prop where
  known : ∀ earlier, CtesKnown before earlier →
    CtesKnown after (earlier ++ ctesFields (emissionOf catalog backend) bound)
  fields : spelledCtes (ctesFields (emissionOf catalog backend) bound) =
    Spelled.ctesFields context.catalog ctes
  part : ∀ names, Keeps context catalog backend names ⟨[], [], bound.map BoundCte.query⟩
    (cteSpellings context.catalog catalog backend ctes)

/-- There are no CTEs. -/
theorem CtesKept.nil (cteScope : CteScope) :
    CtesKept context catalog backend cteScope cteScope [] [] where
  known earlier h := by
    rw [ctesFields, List.append_nil]
    exact h
  fields := rfl
  part _ := Keeps.nil

/-- The result of a CTE has the names of its fields. -/
theorem names_cteSchema (columns : List String) {schema : ResultSchema} {fields : List NamedField}
    (h : schema.fields.map ResultField.name = fields.map NamedField.name) :
    (cteSchema columns schema).fields.map ResultField.name =
      (cteNamedFields columns fields).map NamedField.name := by
  have hlength := congrArg List.length h
  rw [List.length_map, List.length_map] at hlength
  unfold cteSchema cteNamedFields
  rw [hlength]
  split
  · rename_i hcolumns
    have hcolumns := beq_iff_eq.mp (Bool.and_eq_true_iff.mp hcolumns).2
    have hzip : (schema.fields.zip columns).map Prod.snd = columns :=
      List.map_snd_zip (hcolumns.trans hlength.symm).le
    simp only [List.map_map]
    exact hzip.trans (List.map_id columns).symm
  · exact h

/-- One more CTE, before the others. -/
theorem CtesKept.cons {cteScope after : CteScope} {name : String} {columns : List String}
    {query : SyntaxQuery} {plan : BoundQueryPlan} {ctes : List SyntaxCte} {rest : List BoundCte}
    (hquery : QueryKept context catalog backend query plan) (node nd : SyntaxNode)
    (definition : SyntaxCte)
    (hrest : CtesKept context catalog backend
      (mapInsert (fun a b => decide (a < b)) (toAsciiLowercase name)
        { definition
          binding := { bindingName := name, relationName := some { namespace_ := none, name }
                       schema := cteSchema columns plan.resultSchema } } cteScope)
      after ctes rest) :
    CtesKept context catalog backend cteScope after (⟨name, columns, query, node⟩ :: ctes)
      ({ name, columns, query := plan, resultSchema := cteSchema columns plan.resultSchema
         node := nd } :: rest) where
  -- The CTE is known to the ones after it, under its name and columns.
  known earlier h := by
    have hnames := hquery.names
    rw [← hquery.fields, map_name_spelled] at hnames
    have hschema := names_cteSchema columns hnames
    have hknown := hrest.known _ (h.insert definition hschema)
    rw [ctesFields]
    rwa [List.append_assoc, List.singleton_append] at hknown
  fields := by
    rw [ctesFields, Spelled.ctesFields, ← hrest.fields, ← hquery.fields, ← cteNamedFields_spelled]
    rfl
  part names := by
    rw [cteSpellings]
    exact hquery.keeps.append (hrest.part names)

/-- The fields of CTEs have their names. -/
theorem fst_ctesFields (emission : Emission) (bound : List BoundCte) :
    (ctesFields emission bound).map Prod.fst = bound.map BoundCte.name := by
  induction bound with
  | nil => rfl
  | cons cte bound ih =>
    cases cte
    rw [ctesFields, List.map_cons, List.map_cons, ih]

/-- A query keeps what is spelled in its CTEs, in its body and after it. -/
theorem QueryKept.intro {after : CteScope} {query : SyntaxQuery} {plan : BoundQueryPlan}
    (hctes : CtesKept context catalog backend [] after query.ctes plan.ctes)
    (hbody : ∀ ctes, CtesKnown after ctes →
      SetExprKept context catalog backend ctes query.body plan.body)
    (horder : ExprKept context catalog backend (.fromOutputSchema plan.body.resultSchema)
      (orderByUses plan.orderBy) (orderByQueries plan.orderBy)
      fun sources => orderBySpellings context.catalog catalog backend sources query.orderBy)
    (hlimit : ExprKept context catalog backend (.fromOutputSchema plan.body.resultSchema)
      (optionUses plan.limit) (optionQueries plan.limit)
      fun sources => optionSpellings context.catalog catalog backend sources query.limit)
    (hoffset : ExprKept context catalog backend (.fromOutputSchema plan.body.resultSchema)
      (optionUses plan.offset) (optionQueries plan.offset)
      fun sources => optionSpellings context.catalog catalog backend sources query.offset)
    (hschema : plan.resultSchema = plan.body.resultSchema) :
    QueryKept context catalog backend query plan := by
  -- The CTEs are bound first, and the body sees them all.
  have hbody := hbody _ (hctes.known [] ctesKnown_nil)
  rw [List.nil_append] at hbody
  obtain ⟨hnames, hfields, hpart⟩ := hbody
  rw [hctes.fields] at hnames hfields hpart
  rw [fst_ctesFields] at hpart
  obtain ⟨node, ctes, recursive, body, orderBy, limit, offset, clauses⟩ := query
  obtain ⟨nd, ctesBound, bodyBound, orderBound, limitBound, offsetBound, clausesBound, schema⟩ :=
    plan
  dsimp only at *
  refine ⟨?_, ?_, ?_⟩
  · rw [hschema, Spelled.queryFields]
    exact hnames
  · rw [queryFields, Spelled.queryFields]
    exact hfields
  -- What stands after the body sees its output under one name.
  · have hsources : ([⟨outputScopeName, setExprFields (emissionOf catalog backend)
        (ctesFields (emissionOf catalog backend) ctesBound) bodyBound⟩] : List Source).map
          Source.names = scopeNames (.fromOutputSchema bodyBound.resultSchema) := by
      rw [← hfields, map_name_spelled] at hnames
      simp [Source.names, scopeNames, Scope.fromOutputSchema, outputScopeName, hnames]
    -- The CTEs, the body, and the three clauses.
    have hparts := (hctes.part (ctesBound.map BoundCte.name)).append (hpart.append
      ((horder _ _ hsources).append ((hlimit _ _ hsources).append (hoffset _ _ hsources))))
    rw [List.map_singleton, Source.spelled, hfields] at hparts
    rw [querySpellings, allWithin_iff]
    refine Iff.trans ?_ hparts
    simp only [Part.Exact, Part.append, NamesExact, TablesExact, queryTables, catalogRelation?,
      queryColumns, outputExprs, directQueries, columns_optionUses, columns_orderByUses,
      List.map_append, List.flatMap_append, List.append_nil, List.nil_append,
      List.forall_mem_append]
    grind

end Kept

/-! ## The induction -/

section Binding

variable (context : BinderContext) (catalog : Catalog) (backend : SqlBackend)

/-- A table that is found keeps its name. -/
theorem keeps_bindTable (cteScope : CteScope) (scope : Scope) (name : NameRef)
    (alias_ : Option String) (node : SyntaxNode) :
    Yields Failed (bindTable context cteScope name alias_ node) fun bound =>
      ∀ ctes, CtesKnown cteScope ctes →
        RelationKept context catalog backend scope ctes (.table name alias_ node) bound := by
  unfold bindTable
  rcases hresolve : resolveTable context cteScope name with ⟨resolution, found⟩
  refine Yields.bind (Q := fun _ => True) (Yields.modify fun s hs => ?_) fun _ => ?_
  · split <;> exact hs
  · cases found with
    | some binding =>
      refine Yields.pure fun _ ctes hctes => ?_
      exact .table hctes (congrArg Prod.snd hresolve) alias_ node node
    | none =>
      exact Yields.bind (yields_pushError _ _ _ _ fun _ => False) fun _ => Yields.pure False.elim

/-- A column that is found keeps its name. -/
theorem keeps_bindColumn (scope : Scope) (outer : Option Scope) (node : SyntaxNode)
    (relation : Option String) (name : String) :
    Yields Failed (bindColumn context scope outer ⟨.column relation name, node⟩ relation name)
      fun bound => ExprKept context catalog backend scope (exprUses bound) (exprQueries bound)
        fun sources => exprSpellings context.catalog catalog backend sources
          ⟨.column relation name, node⟩ := by
  unfold bindColumn
  split
  · rename_i column hcolumn
    refine Yields.pure ?_
    simp only [exprUses, exprQueries, exprSpellings]
    exact ExprKept.column hcolumn column.field.dataType
  · exact yields_unsupportedExpr _ _ _ _ _
  · split
    · exact yields_unsupportedExpr _ _ _ _ _
    · exact yields_unsupportedExpr _ _ _ _ _

mutual

/-- Binding a query keeps its names. -/
theorem keeps_query (outer : Option Scope) : ∀ query : SyntaxQuery,
    Yields Failed (bindQuery context outer query) (QueryKept context catalog backend query)
  | ⟨node, ctes, withRecursive, body, orderBy, limit, offset, backendClauses⟩ => by
    rw [bindQuery]
    refine Yields.bind (yields_rejectRecursive _ _) fun _ => ?_
    refine Yields.bind (keeps_ctes [] ctes) fun bound => ?_
    refine Yields.bind (keeps_setExpr bound.1 outer body) fun _ => ?_
    refine Yields.bind (keeps_orderBys _ none orderBy) fun _ => ?_
    refine Yields.bind (keeps_option _ none _ limit) fun _ => ?_
    refine Yields.bind (keeps_option _ none _ offset) fun _ => ?_
    refine Yields.bind (yields_warnBackendClauses _) fun _ => ?_
    exact Yields.pure fun _ hoffset hlimit horder hbody hctes _ =>
      .intro hctes hbody horder hlimit hoffset rfl
termination_by structural query => query

/-- Binding CTEs keeps their names. -/
theorem keeps_ctes (cteScope : CteScope) : ∀ ctes : List SyntaxCte,
    Yields Failed (bindCtes context cteScope ctes) fun p =>
      CtesKept context catalog backend cteScope p.1 ctes p.2
  | [] => by
    rw [bindCtes]
    exact Yields.pure (.nil cteScope)
  | ⟨name, columns, query, node⟩ :: ctes => by
    rw [bindCtes]
    refine Yields.bind (keeps_query none query) fun _ => ?_
    refine Yields.bind (keeps_ctes _ ctes) fun _ => ?_
    exact Yields.pure fun hrest hquery => .cons hquery node node _ hrest
termination_by structural ctes => ctes

/-- Binding a query body keeps its names. -/
theorem keeps_setExpr (cteScope : CteScope) (outer : Option Scope) : ∀ body : SyntaxSetExpr,
    Yields Failed (bindSetExpr context cteScope outer body) fun bound =>
      ∀ ctes, CtesKnown cteScope ctes → SetExprKept context catalog backend ctes body bound
  | .select select => by
    rw [bindSetExpr]
    refine Yields.bind (keeps_select cteScope outer select) fun _ => ?_
    exact Yields.pure id
  | .unionAll left right node => by
    rw [bindSetExpr]
    refine Yields.bind (keeps_setExpr cteScope outer left) fun _ => ?_
    refine Yields.bind (keeps_setExpr cteScope outer right) fun _ => ?_
    refine Yields.bind (yields_unifyUnionSchema _ _ _) fun _ => ?_
    refine Yields.pure ?_
    rintro ⟨hlength, rfl⟩ hright hleft ctes hctes
    exact .unionAll (hleft ctes hctes) (hright ctes hctes) hlength node node
  | .unsupported description node => by
    rw [bindSetExpr]
    exact Yields.bind (yields_pushError _ _ _ _ fun _ => False) fun _ => Yields.pure False.elim
termination_by structural body => body

/-- Binding a select keeps its names. -/
theorem keeps_select (cteScope : CteScope) (outer : Option Scope) : ∀ select : SyntaxSelect,
    Yields Failed (bindSelect context cteScope outer select) fun bound =>
      ∀ ctes, CtesKnown cteScope ctes →
        SetExprKept context catalog backend ctes (.select select) (.select bound)
  | ⟨distinct, projection, from_, selection, groupBy, having, node⟩ => by
    rw [bindSelect]
    refine Yields.bind (keeps_tables cteScope outer {} from_) fun bound => ?_
    refine Yields.bind (keeps_option _ outer _ selection) fun _ => ?_
    refine Yields.bind (keeps_exprs _ outer _ groupBy) fun _ => ?_
    refine Yields.bind (keeps_option _ outer _ having) fun _ => ?_
    refine Yields.bind (keeps_projections bound.1 outer projection) fun _ => ?_
    exact Yields.pure fun hitems hhaving hgroup hselection hfrom ctes hctes =>
      .select (hfrom ctes hctes) hselection hgroup hhaving hitems node
termination_by structural select => select

/-- Binding a `FROM` clause keeps its names. -/
theorem keeps_tables (cteScope : CteScope) (outer : Option Scope) (scope : Scope) :
    ∀ tables : List SyntaxTableWithJoins,
    Yields Failed (bindTables context cteScope outer scope tables) fun p =>
      ∀ ctes, CtesKnown cteScope ctes →
        TablesKept context catalog backend scope p.1 ctes tables p.2
  | [] => by
    rw [bindTables]
    exact Yields.pure fun _ _ => .nil
  | ⟨relation, joins, node⟩ :: tables => by
    rw [bindTables]
    refine Yields.bind (keeps_tableWithJoins cteScope outer scope ⟨relation, joins, node⟩)
      fun table => ?_
    refine Yields.bind (keeps_tables cteScope outer (scope.mergeTable table) tables) fun _ => ?_
    exact Yields.pure fun hrest htable ctes hctes => .cons (htable ctes hctes) (hrest ctes hctes)
termination_by structural tables => tables

/-- Binding a projection keeps its names. -/
theorem keeps_projections (scope : Scope) (outer : Option Scope) :
    ∀ items : List SyntaxProjectionItem,
    Yields Failed (bindProjections context scope outer items) fun p =>
      ∀ sources : List Source, sources.map Source.names = scopeNames scope →
        ItemsKept context catalog backend sources items p.1 p.2
  | [] => by
    rw [bindProjections]
    exact Yields.pure fun _ _ => ⟨rfl, fun _ => rfl, fun _ _ => Keeps.nil⟩
  | .wildcard qualifier node :: items => by
    rw [bindProjections]
    refine Yields.bind (yields_bindWildcard_names scope qualifier node) fun _ => ?_
    refine Yields.bind (keeps_projections scope outer items) fun _ => ?_
    exact Yields.pure fun hitems hnames sources hsources =>
      (hitems sources hsources).consWildcard qualifier node node (by rw [hnames, hsources])
  | .expr ⟨expr, alias_, node⟩ :: items => by
    rw [bindProjections]
    refine Yields.bind (keeps_expr scope outer _ expr) fun bound => ?_
    refine Yields.bind (keeps_projections scope outer items) fun _ => ?_
    exact Yields.pure fun hitems hexpr sources hsources =>
      (hitems sources hsources).consExpr hsources _ alias_ node hexpr rfl
  | .unsupported description node :: items => by
    rw [bindProjections]
    refine Yields.bind (yields_pushError _ _ _ _ fun _ => False) fun _ => ?_
    refine Yields.bind (keeps_projections scope outer items) fun _ => ?_
    -- The error was pushed, so what follows it does not matter.
    exact Yields.pure fun _ => False.elim
termination_by structural items => items

/-- Binding a relation and the joins to it keeps their names. -/
theorem keeps_tableWithJoins (cteScope : CteScope) (outer : Option Scope) (current : Scope) :
    ∀ table : SyntaxTableWithJoins,
    Yields Failed (bindTableWithJoins context cteScope outer current table) fun bound =>
      ∀ ctes, CtesKnown cteScope ctes → JoinedKept context catalog backend current ctes
        (Spelled.relationSources context.catalog (spelledCtes ctes) table.relation ++
          Spelled.joinSources context.catalog (spelledCtes ctes) table.joins)
        (Spelled.relationTargets catalog (spelledCtes ctes) table.relation ++
          Spelled.joinTargets catalog (spelledCtes ctes) table.joins)
        (fun before => relationSpellings context.catalog catalog backend (spelledCtes ctes) before
            table.relation ++
          joinSpellings context.catalog catalog backend (spelledCtes ctes)
            (before ++ Spelled.relationSources context.catalog (spelledCtes ctes) table.relation)
            table.joins)
        bound.relation bound.joins
  | ⟨relation, joins, node⟩ => by
    rw [bindTableWithJoins]
    refine Yields.bind (keeps_relation cteScope current relation) fun bound => ?_
    refine Yields.bind (keeps_joins cteScope outer joins _) fun _ => ?_
    refine Yields.pure fun hjoins hrelation ctes hctes => ?_
    refine hjoins ctes hctes current _ _ _ ?_ (hrelation ctes hctes).start
    rw [scopeNames_pushRelation, joinedBoundNames, flatMapJoins, List.flatMap_nil, List.append_nil]
termination_by structural table => table

/-- Binding the joins to a relation keeps their names, after those that are kept already. -/
theorem keeps_joins (cteScope : CteScope) (outer : Option Scope) :
    ∀ (joins : List SyntaxJoin) (state : JoinState),
    Yields Failed (bindJoins context cteScope outer state joins) fun final =>
      ∀ ctes, CtesKnown cteScope ctes → ∀ scope sources targets spell,
        scopeNames state.joinScope =
          scopeNames scope ++ joinedBoundNames state.relation state.joins →
        JoinedKept context catalog backend scope ctes sources targets spell state.relation
          state.joins →
        JoinedKept context catalog backend scope ctes
          (sources ++ Spelled.joinSources context.catalog (spelledCtes ctes) joins)
          (targets ++ Spelled.joinTargets catalog (spelledCtes ctes) joins)
          (fun before => spell before ++ joinSpellings context.catalog catalog backend
            (spelledCtes ctes) (before ++ sources) joins)
          final.relation final.joins
  | [], state => by
    rw [bindJoins]
    refine Yields.pure fun ctes _ scope sources targets spell _ h => ?_
    simpa only [Spelled.joinSources, Spelled.joinTargets, joinSpellings, List.append_nil] using h
  | ⟨kind, relation, on, node⟩ :: joins, state => by
    rw [bindJoins]
    refine Yields.bind (keeps_relation cteScope state.joinScope relation) fun bound => ?_
    refine Yields.bind (keeps_option _ outer _ on) fun condition => ?_
    refine (keeps_joins cteScope outer joins _).mono fun final hfinal hon hrelation ctes hctes scope
      sources targets spell hscope h => ?_
    -- The first join is added, and the rest go on from the scope with it.
    have hadd := h.addJoin hscope (hrelation ctes hctes) hon kind node
    -- That scope has the names of what is joined so far.
    have hnames : scopeNames (state.addJoin kind bound condition node).joinScope =
        scopeNames scope ++ joinedBoundNames (state.addJoin kind bound condition node).relation
          (state.addJoin kind bound condition node).joins := by
      rw [scopeNames_addJoin, joinedBoundNames_addJoin, hscope, List.append_assoc]
    have hkept := hfinal ctes hctes scope _ _ _ hnames hadd
    simpa only [Spelled.joinSources, Spelled.joinTargets, joinSpellings, List.append_assoc] using
      hkept
termination_by structural joins => joins

/-- Binding a relation keeps its names. -/
theorem keeps_relation (cteScope : CteScope) (current : Scope) : ∀ relation : SyntaxRelation,
    Yields Failed (bindRelation context cteScope current relation) fun bound =>
      ∀ ctes, CtesKnown cteScope ctes →
        RelationKept context catalog backend current ctes relation bound
  | .table name alias_ node => by
    rw [bindRelation]
    exact keeps_bindTable context catalog backend cteScope current name alias_ node
  | .derived query alias_ node => by
    rw [bindRelation]
    refine Yields.bind (keeps_query (some current) query) fun _ => ?_
    exact Yields.pure fun hquery _ _ => .derived hquery alias_ node node
  | .nestedJoin ⟨relation, joins, own⟩ alias_ node => by
    rw [bindRelation]
    refine Yields.bind (keeps_tableWithJoins cteScope none current ⟨relation, joins, own⟩)
      fun _ => ?_
    exact Yields.pure fun htable ctes hctes => .nestedJoin own (htable ctes hctes) alias_ node node
  | .unsupported description node => by
    rw [bindRelation]
    exact Yields.bind (yields_pushError _ _ _ _ fun _ => False) fun _ => Yields.pure False.elim
termination_by structural relation => relation

/-- Binding the keys of an order keeps their names. -/
theorem keeps_orderBys (scope : Scope) (outer : Option Scope) :
    ∀ orders : List SyntaxOrderByExpr,
    Yields Failed (bindOrderBys context scope outer orders) fun bound =>
      ExprKept context catalog backend scope (orderByUses bound) (orderByQueries bound)
        fun sources => orderBySpellings context.catalog catalog backend sources orders
  | [] => by
    rw [bindOrderBys]
    refine Yields.pure ?_
    simp only [orderByUses, orderByQueries, orderBySpellings]
    exact .nil
  | ⟨expr, asc, nullsFirst, node⟩ :: orders => by
    rw [bindOrderBys, bindOrderBy]
    refine Yields.bind (Q := fun order => ExprKept context catalog backend scope
        (exprUses order.expr) (exprQueries order.expr)
        fun sources => exprSpellings context.catalog catalog backend sources expr)
      (Yields.bind (keeps_expr scope outer _ expr) fun _ => Yields.pure id) fun order => ?_
    refine Yields.bind (keeps_orderBys scope outer orders) fun _ => ?_
    refine Yields.pure fun hrest horder => ?_
    obtain ⟨bound, _, _, _⟩ := order
    simp only [orderByUses, orderByQueries, orderBySpellings]
    exact horder.append hrest
termination_by structural orders => orders

/-- Binding an expression keeps its names. -/
theorem keeps_expr (scope : Scope) (outer : Option Scope) (expected : ExpectedType) :
    ∀ expr : SyntaxExpr,
    Yields Failed (bindExpr context scope outer expected expr) fun bound =>
      ExprKept context catalog backend scope (exprUses bound) (exprQueries bound)
        fun sources => exprSpellings context.catalog catalog backend sources expr
  -- One case per constructor: an expression is spelled by its columns and its subqueries.
  | ⟨.column relation name, node⟩ => by
    rw [bindExpr]
    exact keeps_bindColumn context catalog backend scope outer node relation name
  | ⟨.literal value, node⟩ => by
    rw [bindExpr]
    refine Yields.pure ?_
    simp only [bindLiteral, exprUses, exprQueries, exprSpellings]
    exact .nil
  | ⟨.parameter reference, node⟩ => by
    rw [bindExpr]
    refine Yields.bind (yields_allocateParameter _) fun _ => ?_
    refine Yields.bind (yields_recordParameterUse _ _ _) fun _ => ?_
    refine Yields.pure fun _ _ => ?_
    simp only [exprUses, exprQueries, exprSpellings]
    exact .nil
  | ⟨.unary op expr, node⟩ => by
    rw [bindExpr]
    refine Yields.bind (keeps_expr scope outer _ expr) fun _ => ?_
    refine Yields.pure fun hexpr => ?_
    simp only [exprUses, exprQueries, exprSpellings]
    exact hexpr
  | ⟨.binary op left right, node⟩ => by
    rw [bindExpr]
    refine Yields.bind (keeps_expr scope outer _ left) fun _ => ?_
    refine Yields.bind (keeps_expr scope outer _ right) fun _ => ?_
    refine Yields.pure fun hright hleft => ?_
    simp only [exprUses, exprQueries, exprSpellings]
    exact hleft.append hright
  | ⟨.function call, node⟩ => by
    rw [bindExpr]
    exact keeps_function scope outer node call
  | ⟨.case operand whenThen elseResult, node⟩ => by
    rw [bindExpr]
    refine Yields.bind (keeps_option scope outer _ operand) fun _ => ?_
    refine Yields.bind (keeps_whenThens scope outer whenThen) fun _ => ?_
    refine Yields.bind (keeps_option scope outer _ elseResult) fun _ => ?_
    refine Yields.pure fun helse hwhen hoperand => ?_
    simp only [exprUses, exprQueries, exprSpellings]
    exact (hoperand.append hwhen).append helse
  | ⟨.cast expr dataType, node⟩ => by
    rw [bindExpr]
    refine Yields.bind (keeps_expr scope outer _ expr) fun _ => ?_
    refine Yields.pure fun hexpr => ?_
    simp only [exprUses, exprQueries, exprSpellings]
    exact hexpr
  | ⟨.between expr low high negated, node⟩ => by
    rw [bindExpr]
    refine Yields.bind (keeps_expr scope outer _ expr) fun _ => ?_
    refine Yields.bind (keeps_expr scope outer _ low) fun _ => ?_
    refine Yields.bind (keeps_expr scope outer _ high) fun _ => ?_
    refine Yields.pure fun hhigh hlow hexpr => ?_
    simp only [exprUses, exprQueries, exprSpellings]
    exact (hexpr.append hlow).append hhigh
  | ⟨.inList expr list negated, node⟩ => by
    rw [bindExpr]
    refine Yields.bind (keeps_expr scope outer _ expr) fun _ => ?_
    refine Yields.bind (keeps_exprs scope outer _ list) fun _ => ?_
    refine Yields.pure fun hlist hexpr => ?_
    simp only [exprUses, exprQueries, exprSpellings]
    exact hexpr.append hlist
  -- A membership test has its operand and the query it looks in.
  | ⟨.inSubquery expr subquery negated, node⟩ => by
    rw [bindExpr]
    refine Yields.bind (keeps_expr scope outer _ expr) fun _ => ?_
    refine Yields.bind (keeps_query (some scope) subquery) fun _ => ?_
    refine Yields.bind (yields_subquerySingleField _ _ _ _) fun _ => ?_
    refine Yields.pure fun _ hquery hexpr => ?_
    simp only [exprUses, exprQueries, exprSpellings]
    exact hexpr.append (hquery.membership _)
  | ⟨.scalarSubquery subquery, node⟩ => by
    rw [bindExpr]
    refine Yields.bind (keeps_query (some scope) subquery) fun _ => ?_
    refine Yields.bind (yields_subquerySingleField _ _ _ _) fun _ => ?_
    refine Yields.pure fun _ hquery => ?_
    simp only [exprUses, exprQueries, exprSpellings]
    exact hquery.expr
  | ⟨.exists subquery, node⟩ => by
    rw [bindExpr]
    refine Yields.bind (keeps_query (some scope) subquery) fun _ => ?_
    refine Yields.pure fun hquery => ?_
    simp only [exprUses, exprQueries, exprSpellings]
    exact hquery.expr
  | ⟨.like expr pattern negated caseInsensitive, node⟩ => by
    rw [bindExpr]
    refine Yields.bind (keeps_expr scope outer _ expr) fun _ => ?_
    refine Yields.bind (keeps_expr scope outer _ pattern) fun _ => ?_
    refine Yields.pure fun hpattern hexpr => ?_
    simp only [exprUses, exprQueries, exprSpellings]
    exact hexpr.append hpattern
  -- The test of a parameter spells no name.
  | ⟨.isNull expr negated, node⟩ => by
    rw [bindExpr]
    refine Yields.bind (yields_recordNullTest expr) fun _ => ?_
    refine Yields.bind (keeps_expr scope outer _ expr) fun _ => ?_
    refine Yields.pure fun hexpr _ => ?_
    simp only [exprUses, exprQueries, exprSpellings]
    exact hexpr
  | ⟨.tuple items, node⟩ => by
    rw [bindExpr]
    refine Yields.bind (keeps_exprs scope outer _ items) fun _ => ?_
    refine Yields.pure fun hitems => ?_
    simp only [exprUses, exprQueries, exprSpellings]
    exact hitems
  | ⟨.array items, node⟩ => by
    rw [bindExpr]
    refine Yields.bind (keeps_exprs scope outer _ items) fun _ => ?_
    refine Yields.pure fun hitems => ?_
    simp only [exprUses, exprQueries, exprSpellings]
    exact hitems
  | ⟨.unsupported description, node⟩ => by
    rw [bindExpr]
    exact yields_unsupportedExpr _ _ _ _ _
termination_by structural expr => expr

/-- Binding expressions keeps their names. -/
theorem keeps_exprs (scope : Scope) (outer : Option Scope) (expected : ExpectedType) :
    ∀ exprs : List SyntaxExpr,
    Yields Failed (bindExprs context scope outer expected exprs) fun bound =>
      ExprKept context catalog backend scope (exprsUses bound) (exprsQueries bound)
        fun sources => exprsSpellings context.catalog catalog backend sources exprs
  | [] => by
    rw [bindExprs]
    refine Yields.pure ?_
    simp only [exprsUses, exprsQueries, exprsSpellings]
    exact .nil
  | expr :: exprs => by
    rw [bindExprs]
    refine Yields.bind (keeps_expr scope outer expected expr) fun _ => ?_
    refine Yields.bind (keeps_exprs scope outer expected exprs) fun _ => ?_
    refine Yields.pure fun hrest hexpr => ?_
    simp only [exprsUses, exprsQueries, exprsSpellings]
    exact hexpr.append hrest
termination_by structural exprs => exprs

/-- Binding an optional expression keeps its names. -/
theorem keeps_option (scope : Scope) (outer : Option Scope) (expected : ExpectedType) :
    ∀ expr : Option SyntaxExpr,
    Yields Failed (bindExprOption context scope outer expected expr) fun bound =>
      ExprKept context catalog backend scope (optionUses bound) (optionQueries bound)
        fun sources => optionSpellings context.catalog catalog backend sources expr
  | none => by
    rw [bindExprOption]
    refine Yields.pure ?_
    simp only [optionUses, optionQueries, optionSpellings]
    exact .nil
  | some expr => by
    rw [bindExprOption]
    refine Yields.bind (keeps_expr scope outer expected expr) fun _ => ?_
    refine Yields.pure fun hexpr => ?_
    simp only [optionUses, optionQueries, optionSpellings]
    exact hexpr
termination_by structural expr => expr

/-- Binding the pairs of a `CASE` keeps their names. -/
theorem keeps_whenThens (scope : Scope) (outer : Option Scope) :
    ∀ pairs : List SyntaxWhenThen,
    Yields Failed (bindWhenThens context scope outer pairs) fun bound =>
      ExprKept context catalog backend scope (whenThenUses bound) (whenThenQueries bound)
        fun sources => whenThenSpellings context.catalog catalog backend sources pairs
  | [] => by
    rw [bindWhenThens]
    refine Yields.pure ?_
    simp only [whenThenUses, whenThenQueries, whenThenSpellings]
    exact .nil
  | ⟨condition, result⟩ :: pairs => by
    rw [bindWhenThens]
    refine Yields.bind (keeps_expr scope outer _ condition) fun _ => ?_
    refine Yields.bind (keeps_expr scope outer _ result) fun _ => ?_
    refine Yields.bind (keeps_whenThens scope outer pairs) fun _ => ?_
    refine Yields.pure fun hrest hresult hcondition => ?_
    simp only [whenThenUses, whenThenQueries, whenThenSpellings]
    exact (hcondition.append hresult).append hrest
termination_by structural pairs => pairs

/-- Binding a call keeps its names. -/
theorem keeps_function (scope : Scope) (outer : Option Scope) (node : SyntaxNode) :
    ∀ call : SyntaxFunctionCall,
    Yields Failed (bindFunction context scope outer node call) fun bound =>
      ExprKept context catalog backend scope (exprUses bound) (exprQueries bound)
        fun sources => exprSpellings context.catalog catalog backend sources ⟨.function call, node⟩
  | ⟨function, args, distinct, filter, over_⟩ => by
    rw [bindFunction]
    split
    · exact yields_unsupportedExpr _ _ _ _ _
    · rename_i signature _
      refine Yields.bind (keeps_args scope outer signature 0 args) fun _ => ?_
      refine Yields.bind (keeps_option scope outer _ filter) fun _ => ?_
      refine Yields.bind (keeps_window scope outer over_) fun _ => ?_
      refine Yields.bind (yields_warnBackendSpecific _ _ _) fun _ => ?_
      refine Yields.pure fun _ hover hfilter hargs => ?_
      simp only [exprUses, exprQueries, exprSpellings]
      exact (hargs.append hfilter).append hover
termination_by structural call => call

/-- Binding the arguments of a call keeps their names. -/
theorem keeps_args (scope : Scope) (outer : Option Scope) (signature : FunctionSignature)
    (index : Nat) : ∀ args : List SyntaxExpr,
    Yields Failed (bindArgs context scope outer signature index args) fun bound =>
      ExprKept context catalog backend scope (exprsUses bound) (exprsQueries bound)
        fun sources => exprsSpellings context.catalog catalog backend sources args
  | [] => by
    rw [bindArgs]
    refine Yields.pure ?_
    simp only [exprsUses, exprsQueries, exprsSpellings]
    exact .nil
  | arg :: args => by
    rw [bindArgs]
    refine Yields.bind (keeps_expr scope outer _ arg) fun _ => ?_
    refine Yields.bind (keeps_args scope outer signature (index + 1) args) fun _ => ?_
    refine Yields.pure fun hrest harg => ?_
    simp only [exprsUses, exprsQueries, exprsSpellings]
    exact harg.append hrest
termination_by structural args => args

/-- Binding an `OVER` clause keeps its names. -/
theorem keeps_window (scope : Scope) (outer : Option Scope) : ∀ over_ : Option WindowSpec,
    Yields Failed (bindWindow context scope outer over_) fun bound =>
      ExprKept context catalog backend scope (windowUses bound) (windowQueries bound)
        fun sources => windowSpellings context.catalog catalog backend sources over_
  | none => by
    rw [bindWindow]
    refine Yields.pure ?_
    simp only [windowUses, windowQueries, windowSpellings]
    exact .nil
  | some ⟨partitionBy, orderBy, node⟩ => by
    rw [bindWindow]
    refine Yields.bind (keeps_exprs scope outer _ partitionBy) fun _ => ?_
    refine Yields.bind (keeps_orderBys scope outer orderBy) fun _ => ?_
    refine Yields.pure fun horder hpartition => ?_
    simp only [windowUses, windowQueries, windowSpellings]
    exact hpartition.append horder
termination_by structural over_ => over_

end

/-- The names of an accepted query's plan are the catalog's, at every depth, exactly if none that
the query spells differs. -/
theorem allWithin_boundPlan_iff {query : SyntaxQuery} (h : Accepted context query) :
    AllWithin (NamesExact context (emissionOf catalog backend)) (boundPlan context query) ↔
      ∀ spelling ∈ querySpellings context.catalog catalog backend query, ¬spelling.Differs := by
  refine ((keeps_query context catalog backend none query).result ?_).exact_iff
  rintro ⟨d, hd, herror⟩
  rw [h d hd] at herror
  cases herror

end Binding

end QueryFabric.Render
