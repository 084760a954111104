import QueryFabric.Adapter
import QueryFabric.Bind.Names
import QueryFabric.Bind.Uses
import QueryFabric.ClickHouse.Uses
import QueryFabric.Lib.Succeeds

/-!
# Emitted qualifiers

A column or a wildcard of the emitted SQL may be qualified. `queryUses` lists the qualifiers of a
query, each with the names that the `FROM` clause it belongs to declares, and `QualifierUse.Sound`
says that the qualifier is one of them and was not made up by the binder. The binder looks names up
by the names that it bound the relations to (`boundCases`), and the renderer does not always write
these: it splits a qualifier at its dots, drops an alias that differs from the name of its table in
letter case only, and writes a wildcard as the query spells it. The columns after the body of a
query are qualified with the name of a scope of the binder's own. `emitted_qualifiers_sound_iff`
says that nothing else goes wrong.
-/

namespace QueryFabric.Render

open QueryFabric.Bind ClickHouse Lib

/-! ## The names that a `FROM` clause declares -/

/-- A relation of a `FROM` clause: the name that it is bound to, and the name that the emitted SQL
gives it. -/
structure FromName where
  bound : String
  declared : String
deriving DecidableEq, Repr

/-- The name that `renderTable` gives a table: its alias, but for one that is its name in other
letters. -/
def declaredName (binding : BoundRelationBinding) : String :=
  match binding.relationName with
  | none => binding.bindingName
  | some name =>
    if eqIgnoreAsciiCase name.name binding.bindingName then name.name else binding.bindingName

/-- What `renderTable` writes ends with the declared name. -/
theorem getLast?_renderTable {r : SqlRenderer} {binding : BoundRelationBinding} {pieces : Pieces}
    (h : r.renderTable binding = .ok pieces) :
    ∃ text, renderIdentifier r.backend (declaredName binding) = .ok text ∧
      pieces.getLast? = some text := by
  obtain ⟨bindingName, relationName, schema⟩ := binding
  cases relationName with
  | none =>
    obtain ⟨text, htext, h⟩ := bind_eq_ok.mp h
    cases h
    exact ⟨text, htext, rfl⟩
  | some name =>
    obtain ⟨sql, hsql, h⟩ := bind_eq_ok.mp h
    -- A table under its own name ends with it, another with the alias.
    by_cases hcase : eqIgnoreAsciiCase name.name bindingName
    · simp only [hcase, Bool.not_true, Bool.false_eq_true, if_false] at h
      cases h
      obtain ⟨text, htext, hsql⟩ := bind_eq_ok.mp hsql
      obtain ⟨ns, -, hsql⟩ := bind_eq_ok.mp hsql
      cases hsql
      exact ⟨text, by simpa [declaredName, hcase] using htext, by simp⟩
    · simp only [hcase, Bool.not_false, if_true] at h
      obtain ⟨text, htext, h⟩ := bind_eq_ok.mp h
      cases h
      exact ⟨text, by simpa [declaredName, hcase] using htext, by simp⟩

mutual

/-- The names of a relation and of those in it. -/
def relationNames : BoundRelation → List FromName
  | .table binding _ => [⟨binding.bindingName, declaredName binding⟩]
  | .derived binding _ _ => [⟨binding.bindingName, binding.bindingName⟩]
  | .nestedJoin binding ⟨relation, joins, _⟩ _ =>
    ⟨binding.bindingName, binding.bindingName⟩ :: (relationNames relation ++ joinNames joins)
  | .unsupported .. => []

/-- The names of joined relations. -/
def joinNames : List BoundJoin → List FromName
  | [] => []
  | ⟨_, relation, _, _⟩ :: joins => relationNames relation ++ joinNames joins

end

/-- The names of a table with its joins. -/
def tableNames (table : BoundTableWithJoins) : List FromName :=
  relationNames table.relation ++ joinNames table.joins

/-- The names of a `FROM` clause. -/
def fromNames (from_ : List BoundTableWithJoins) : List FromName := from_.flatMap tableNames

/-! ## Qualifiers -/

/-- Where a qualifier stands: before a column, before a wildcard, or before a column after the
body. -/
inductive Place
  | column
  | wildcard
  | output
deriving DecidableEq, Repr

/-- A qualifier, with the names of the `FROM` clause of the select that it belongs to. -/
structure QualifierUse where
  place : Place
  qualifier : String
  names : List FromName
deriving DecidableEq, Repr

/-- The qualifiers of the columns of an expression. -/
def exprQualifiers (expr : BoundExpr) : List String :=
  (exprUses expr).filterMap fun
    | .column column _ => column.relation
    | .membership .. => none

/-- The relation that a wildcard is expanded to the columns of, if it is. -/
abbrev Expansion := List BoundTableWithJoins → Option String → Option String

/-- No wildcard is expanded. -/
def Expansion.never : Expansion := fun _ _ => none

/-- The qualifiers of a projection item, with the columns of a wildcard that is expanded. -/
def itemUses (expand : Option String → Option String) (names : List FromName) :
    BoundProjectionItem → List QualifierUse
  | .expr details => (exprQualifiers details.expr).map (⟨.column, ·, names⟩)
  | .wildcard qualifier fields _ =>
    match expand qualifier with
    | some name => fields.map fun _ => ⟨.column, name, names⟩
    | none => qualifier.toList.map (⟨.wildcard, ·, names⟩)
  | .unsupported .. => []

/-- The uses of qualifiers in a select. -/
def selectUses (expand : Expansion) (select : BoundSelect) : List QualifierUse :=
  select.projection.flatMap (itemUses (expand select.from_) (fromNames select.from_)) ++
    ((clauseExprs select).flatMap exprQualifiers).map (⟨.column, ·, fromNames select.from_⟩)

/-- The uses of qualifiers in a query body. -/
def setExprUses (expand : Expansion) : BoundSetExpr → List QualifierUse
  | .select select => selectUses expand select
  | .unionAll left right _ _ => setExprUses expand left ++ setExprUses expand right
  | .unsupported .. => []

/-- The names of the select that a query body is. A set operation has no `FROM` clause of its
own. -/
def bodyNames : BoundSetExpr → List FromName
  | .select select => fromNames select.from_
  | _ => []

/-- The qualifiers of a query, without those of the queries in it. -/
def queryUses (expand : Expansion) (query : BoundQueryPlan) : List QualifierUse :=
  setExprUses expand query.body ++
    ((outputExprs query).flatMap exprQualifiers).map (⟨.output, ·, bodyNames query.body⟩)

/-- The name of the scope that the binder makes of the output of a query. -/
def outputScopeName : String := "__output__"

/-- The qualifier is one identifier and a name of its `FROM` clause, and it is not the name that the
binder made up for the output of the query. -/
structure QualifierUse.Sound (use : QualifierUse) : Prop where
  declared : ∃ name ∈ use.names, splitDots use.qualifier = [name.declared]
  external : ¬ (use.place = .output ∧ use.qualifier = outputScopeName)

/-! ## What binding does with qualifiers -/

/-- The binder knows the qualifier of a column as the name of a relation of its `FROM` clause. That
of a wildcard may be in other letters, and a column after the body is looked up in the output of the
query. -/
def QualifierUse.Bound (use : QualifierUse) : Prop :=
  match use.place with
  | .column => ∃ name ∈ use.names, name.bound = use.qualifier
  | .wildcard => ∃ name ∈ use.names, eqIgnoreAsciiCase name.bound use.qualifier
  | .output => use.qualifier = outputScopeName

/-- A qualifier that is known where a relation is bound: from the scope, or from the relations in
it. -/
def Known (scope : Scope) (names : List FromName) (qualifier : String) : Prop :=
  (∃ entry ∈ scope.entries, entry.bindingName = qualifier) ∨ ∃ name ∈ names, name.bound = qualifier

/-- A column is qualified by a relation of the scope. -/
def QualifiedIn (scope : Scope) : ExprUse → Prop
  | .column column _ => ∀ qualifier ∈ column.relation,
      ∃ entry ∈ scope.entries, entry.bindingName = qualifier
  | .membership .. => True

/-- A known qualifier stays known among more names. -/
theorem Known.mono {scope : Scope} {names names' : List FromName} {qualifier : String}
    (h : Known scope names qualifier) (hnames : names ⊆ names') : Known scope names' qualifier :=
  h.imp_right fun ⟨name, hname, heq⟩ => ⟨name, hnames hname, heq⟩

/-- A qualifier of an expression is that of a column in it. -/
theorem mem_exprQualifiers {qualifier : String} {expr : BoundExpr} :
    qualifier ∈ exprQualifiers expr ↔
      ∃ name type, .column ⟨some qualifier, name⟩ type ∈ exprUses expr := by
  simp only [exprQualifiers, List.mem_filterMap]
  constructor
  · rintro ⟨use, huse, heq⟩
    cases use with
    | column column type =>
      obtain ⟨relation, name⟩ := column
      cases heq
      exact ⟨name, type, huse⟩
    | membership type subquery => cases heq
  · rintro ⟨name, type, huse⟩
    exact ⟨_, huse, rfl⟩

/-- The qualifiers of an expression whose columns are qualified in a scope are those of its
relations. -/
theorem exists_entry_of_mem {scope : Scope} {expr : BoundExpr}
    (h : ∀ use ∈ exprUses expr, QualifiedIn scope use) {qualifier : String}
    (hqualifier : qualifier ∈ exprQualifiers expr) :
    ∃ entry ∈ scope.entries, entry.bindingName = qualifier := by
  obtain ⟨name, type, huse⟩ := mem_exprQualifiers.mp hqualifier
  exact h _ huse qualifier rfl

/-- A column is resolved to a relation of the scope. -/
theorem qualifiedIn_of_resolveColumn {scope : Scope} {relation : Option String} {name : String}
    {column : ResolvedColumn} (h : scope.resolveColumn relation name = .local column)
    (type : DataType) :
    QualifiedIn scope (.column ⟨column.relation, name⟩ type) := by
  intro qualifier hqualifier
  have hcolumn : column ∈ scope.entries.flatMap (Scope.entryMatches relation name) := by
    unfold Scope.resolveColumn at h
    split at h
    · cases h
    · rename_i heq
      cases h
      rw [heq]
      exact List.mem_cons_self
    · cases h
  obtain ⟨entry, hentry, hcolumn⟩ := List.mem_flatMap.mp hcolumn
  unfold Scope.entryMatches at hcolumn
  split at hcolumn
  · obtain ⟨field, -, rfl⟩ := List.mem_map.mp hcolumn
    cases hqualifier
    exact ⟨entry, hentry, rfl⟩
  · cases hcolumn

/-- A relation that becomes nullable keeps its names. -/
theorem relationNames_makeRelationNullable (r : BoundRelation) :
    relationNames (makeRelationNullable r) = relationNames r := by
  cases r with
  | nestedJoin binding table node =>
    cases table
    simp [makeRelationNullable, relationNames]
  | _ => simp [makeRelationNullable, relationNames, declaredName]

/-- A relation that becomes nullable keeps its conditions. -/
theorem relationConditions_makeRelationNullable (r : BoundRelation) :
    relationConditions (makeRelationNullable r) = relationConditions r := by
  cases r with
  | nestedJoin binding table node =>
    cases table
    simp [makeRelationNullable, relationConditions]
  | _ => simp [makeRelationNullable, relationConditions]

/-- The names of joins, join by join. -/
theorem joinNames_eq_flatMapJoins (joins : List BoundJoin) :
    joinNames joins = flatMapJoins relationNames (fun _ => []) joins := by
  induction joins with
  | nil => rfl
  | cons join joins ih =>
    cases join
    simp [joinNames, ih, flatMapJoins]

/-- The conditions of joins, join by join. -/
theorem joinConditions_eq_flatMapJoins (joins : List BoundJoin) :
    joinConditions joins = flatMapJoins relationConditions Option.toList joins := by
  induction joins with
  | nil => rfl
  | cons join joins ih =>
    cases join
    simp [joinConditions, ih, flatMapJoins]

/-- The names of a relation, and then those of the joins to it. -/
def joinedNames (relation : BoundRelation) (joins : List BoundJoin) : List FromName :=
  relationNames relation ++ joinNames joins

/-- The conditions of a relation with its joins. -/
def joinedConditions (relation : BoundRelation) (joins : List BoundJoin) : List BoundExpr :=
  relationConditions relation ++ joinConditions joins

/-- A join adds its names. -/
theorem joinedNames_addJoin (state : JoinState) (kind : JoinKind) (joined : BoundRelation)
    (on : Option BoundExpr) (nd : SyntaxNode) :
    joinedNames (state.addJoin kind joined on nd).relation (state.addJoin kind joined on nd).joins =
      joinedNames state.relation state.joins ++ relationNames joined := by
  simp only [joinedNames, joinNames_eq_flatMapJoins,
    flatMapJoins_addJoin relationNames_makeRelationNullable, List.append_nil]

/-- A join adds its conditions. -/
theorem joinedConditions_addJoin (state : JoinState) (kind : JoinKind) (joined : BoundRelation)
    (on : Option BoundExpr) (nd : SyntaxNode) :
    joinedConditions (state.addJoin kind joined on nd).relation
        (state.addJoin kind joined on nd).joins =
      joinedConditions state.relation state.joins ++ (relationConditions joined ++ on.toList) := by
  simp only [joinedConditions, joinConditions_eq_flatMapJoins,
    flatMapJoins_addJoin relationConditions_makeRelationNullable]

/-- What a relation is bound to is among its names. -/
theorem known_pushRelation {scope : Scope} {r : BoundRelation} {names : List FromName}
    {qualifier : String} (h : Known (scope.pushRelation r) names qualifier) :
    Known scope (relationNames r ++ names) qualifier := by
  obtain ⟨entry, hentry, heq⟩ | ⟨name, hname, heq⟩ := h
  -- What a relation binds is one of its names.
  · have hself : ∀ binding, r.binding = some binding →
        ∃ name ∈ relationNames r, name.bound = binding.bindingName := by
      intro binding hbinding
      cases r with
      | nestedJoin b table node =>
        cases table
        cases hbinding
        exact ⟨_, by rw [relationNames]; exact List.mem_cons_self, rfl⟩
      | table b node =>
        cases hbinding; exact ⟨_, by rw [relationNames]; exact List.mem_cons_self, rfl⟩
      | derived b q node =>
        cases hbinding; exact ⟨_, by rw [relationNames]; exact List.mem_cons_self, rfl⟩
      | unsupported d b node => cases hbinding
    unfold Scope.pushRelation at hentry
    -- The entry is the new one or an old one.
    split at hentry
    · rename_i binding hbinding
      obtain hentry | hentry := List.mem_append.mp hentry
      · exact .inl ⟨entry, hentry, heq⟩
      · obtain ⟨name, hname, hbound⟩ := hself binding hbinding
        obtain rfl := List.mem_singleton.mp hentry
        exact .inr ⟨name, List.mem_append_left _ hname, hbound.trans heq⟩
    · exact .inl ⟨entry, hentry, heq⟩
  · exact .inr ⟨name, List.mem_append_right _ hname, heq⟩

/-- What is known after joins is a name of theirs, or was known before. -/
theorem known_foldl_pushRelation {names : List FromName} {qualifier : String} :
    ∀ {joins : List BoundJoin} {scope : Scope},
      Known (joins.foldl (fun scope join => scope.pushRelation join.relation) scope)
        names qualifier →
        Known scope (joinNames joins ++ names) qualifier
  | [], _, h => h
  | ⟨_, relation, _, _⟩ :: joins, scope, h => by
    rw [joinNames, List.append_assoc]
    exact known_pushRelation (@known_foldl_pushRelation names qualifier joins _ h)

/-- What is known after a table is a name of its relations, or was known before. -/
theorem known_mergeTable {scope : Scope} {table : BoundTableWithJoins} {names : List FromName}
    {qualifier : String} (h : Known (scope.mergeTable table) names qualifier) :
    Known scope (tableNames table ++ names) qualifier := by
  rw [tableNames, List.append_assoc]
  exact known_pushRelation (known_foldl_pushRelation h)

/-- What is known after a `FROM` clause is a name of its relations, or was known before. -/
theorem known_foldl_mergeTable {names : List FromName} {qualifier : String} :
    ∀ {from_ : List BoundTableWithJoins} {scope : Scope},
      Known (from_.foldl Scope.mergeTable scope) names qualifier →
        Known scope (fromNames from_ ++ names) qualifier
  | [], _, h => h
  | table :: from_, scope, h => by
    rw [fromNames, List.flatMap_cons, List.append_assoc]
    exact known_mergeTable (@known_foldl_mergeTable names qualifier from_ _ h)

/-- The relations of the scope of a `FROM` clause are among its names. -/
theorem exists_name_of_entry {from_ : List BoundTableWithJoins} {qualifier : String}
    (h : ∃ entry ∈ (fromScope from_).entries, entry.bindingName = qualifier) :
    ∃ name ∈ fromNames from_, name.bound = qualifier := by
  have hknown : Known {} (fromNames from_ ++ []) qualifier := known_foldl_mergeTable (.inl h)
  rw [List.append_nil] at hknown
  obtain ⟨entry, hentry, -⟩ | hname := hknown
  · cases hentry
  · exact hname

/-- What is known without nullability is known. -/
theorem known_makeAllNullable {scope : Scope} {names : List FromName} {qualifier : String}
    (h : Known scope.makeAllNullable names qualifier) : Known scope names qualifier := by
  obtain ⟨_, hentry, rfl⟩ | hname := h
  · obtain ⟨entry, hmem, rfl⟩ := List.mem_map.mp hentry
    exact .inl ⟨entry, hmem, rfl⟩
  · exact .inr hname

/-- The scope after a join has the relations before it and the joined one. -/
theorem known_addJoin {state : JoinState} {kind : JoinKind} {joined : BoundRelation}
    {on : Option BoundExpr} {nd : SyntaxNode} {names : List FromName} {qualifier : String}
    (h : Known (state.addJoin kind joined on nd).joinScope names qualifier) :
    Known state.joinScope (relationNames joined ++ names) qualifier := by
  have hnullable := relationNames_makeRelationNullable joined
  cases kind with
  | inner => exact known_pushRelation h
  | cross => exact known_pushRelation h
  | left =>
    have h := known_pushRelation (r := makeRelationNullable joined) h
    rwa [hnullable] at h
  | right => exact known_makeAllNullable (known_pushRelation h)
  | full =>
    have h := known_makeAllNullable (known_pushRelation (r := makeRelationNullable joined) h)
    rwa [hnullable] at h

/-- The names that are known in an inner scope are known in the outer one. -/
theorem Known.trans {inner outer : Scope} {names names' : List FromName} {qualifier : String}
    (h : Known inner names qualifier) (hscope : ∀ q, Known inner [] q → Known outer names' q) :
    Known outer (names' ++ names) qualifier := by
  obtain hentry | ⟨name, hname, heq⟩ := h
  · exact (hscope qualifier (.inl hentry)).mono (List.subset_append_left _ _)
  · exact .inr ⟨name, List.mem_append_right _ hname, heq⟩

section Bound

variable (expand : Expansion)

/-- The properties of the parts of a plan that `QualifierUse.Bound` comes from. -/
def boundMotive : BindMotive where
  expr scope e := ∀ use ∈ exprUses e, QualifiedIn scope use
  query q := ∀ use ∈ queryUses expand q, use.Bound
  setExpr body := ∀ use ∈ setExprUses expand body, use.Bound
  relation scope r := ∀ x ∈ relationConditions r, ∀ q ∈ exprQualifiers x,
    Known scope (relationNames r) q
  joins scope state :=
    (∀ x ∈ joinedConditions state.relation state.joins, ∀ q ∈ exprQualifiers x,
      Known scope (joinedNames state.relation state.joins) q) ∧
    ∀ q, Known state.joinScope [] q → Known scope (joinedNames state.relation state.joins) q
  table scope t := ∀ x ∈ tableConditions t, ∀ q ∈ exprQualifiers x, Known scope (tableNames t) q

/-- The conditions of a `FROM` clause refer to the relations of the clause. -/
theorem known_of_from {scope : Scope} {from_ : List BoundTableWithJoins}
    (h : (boundMotive expand).From scope from_) :
    ∀ x ∈ from_.flatMap tableConditions, ∀ q ∈ exprQualifiers x,
    Known scope (fromNames from_) q := by
  induction h with
  | nil scope => simp
  | cons scope t ts htable _ ih =>
    rw [List.flatMap_cons]
    refine List.forall_mem_append.mpr
      ⟨fun x hx q hq => ?_, fun x hx q hq => known_mergeTable (ih x hx q hq)⟩
    exact (htable x hx q hq).mono (List.subset_append_left _ _)

/-- The uses of a projection item are bound. -/
theorem bound_of_item (hexpand : ∀ from_ qualifier name, expand from_ qualifier = some name →
    ∃ n ∈ fromNames from_, n.bound = name) {from_ : List BoundTableWithJoins}
      {item : BoundProjectionItem}
    (h : (boundMotive expand).Item (fromScope from_) item) :
    ∀ use ∈ itemUses (expand from_) (fromNames from_) item, use.Bound := by
  -- A wildcard that is expanded becomes columns of a relation of the clause.
  have hexpanded : ∀ qualifier fields nd name, expand from_ qualifier = some name →
      ∀ use ∈ itemUses (expand from_) (fromNames from_) (.wildcard qualifier fields nd),
          use.Bound := by
    intro qualifier fields nd name hname use huse
    simp only [itemUses, hname] at huse
    obtain ⟨_, -, rfl⟩ := List.mem_map.mp huse
    exact hexpand from_ qualifier name hname
  cases h with
  | expr d hexpr htype hnullable hname =>
    intro use huse
    obtain ⟨qualifier, hqualifier, rfl⟩ := List.mem_map.mp huse
    exact exists_name_of_entry (exists_entry_of_mem hexpr hqualifier)
  | all nd =>
    cases hname : expand from_ none with
    | some name => exact hexpanded none _ nd name hname
    | none => simp [itemUses, hname]
  | qualified qualifier fields nd hfields =>
    cases hname : expand from_ (some qualifier) with
    | some name => exact hexpanded (some qualifier) _ nd name hname
    | none =>
      obtain ⟨entry, hentry, -⟩ := Option.map_eq_some_iff.mp hfields
      obtain ⟨name, hmem, hbound⟩ :=
        exists_name_of_entry ⟨entry, List.mem_of_find?_eq_some hentry, rfl⟩
      have hcase := List.find?_some hentry
      simp only [itemUses, hname, Option.toList_some, List.map_cons, List.map_nil]
      exact List.forall_mem_singleton.mpr ⟨name, hmem, hbound ▸ hcase⟩

/-- Every qualifier is bound, when a wildcard is only ever expanded to a relation of its `FROM`
clause. -/
theorem boundCases (hexpand : ∀ from_ qualifier name, expand from_ qualifier = some name →
    ∃ n ∈ fromNames from_, n.bound = name) : UseCases (boundMotive expand) QualifiedIn where
  expr_iff _ _ := Iff.rfl
  column scope relation name column h := qualifiedIn_of_resolveColumn h _
  membership _ _ _ _ := trivial
  -- The clauses of a query only see its output under the output scope's name.
  query q hctes hbody houtput hschema := by
    refine List.forall_mem_append.mpr ⟨hbody, fun use huse => ?_⟩
    -- The join conditions and the clauses of the select.
    obtain ⟨qualifier, hqualifier, rfl⟩ := List.mem_map.mp huse
    obtain ⟨x, hx, hqualifier⟩ := List.mem_flatMap.mp hqualifier
    obtain ⟨entry, hentry, rfl⟩ := exists_entry_of_mem (houtput x hx) hqualifier
    obtain rfl := List.mem_singleton.mp hentry
    rfl
  unionAll l r nd hl hr hlength := by
    simp only [boundMotive, setExprUses]
    exact List.forall_mem_append.mpr ⟨hl, hr⟩
  select s hfrom hclauses hitems hschema := by
    simp only [boundMotive, setExprUses, selectUses]
    refine List.forall_mem_append.mpr ⟨fun use huse => ?_, fun use huse => ?_⟩
    -- The items of the projection, the wildcards among them.
    · obtain ⟨item, hitem, huse⟩ := List.mem_flatMap.mp huse
      exact bound_of_item expand hexpand (hitems item hitem) use huse
    · obtain ⟨qualifier, hqualifier, rfl⟩ := List.mem_map.mp huse
      obtain ⟨x, hx, hqualifier⟩ := List.mem_flatMap.mp hqualifier
      rw [clauseExprs, List.append_assoc, List.append_assoc, List.mem_append, ← List.append_assoc]
        at hx
      obtain hx | hx := hx
      · obtain ⟨_, hentry, -⟩ | hname := known_of_from expand hfrom x hx qualifier hqualifier
        · cases hentry
        · exact hname
      · exact exists_name_of_entry (exists_entry_of_mem (hclauses x hx) hqualifier)
  table scope binding nd := by simp [boundMotive, relationConditions]
  derived scope name q nd hq := by simp [boundMotive, relationConditions]
  nestedJoin scope name t nd ht := by
    cases t
    simp only [boundMotive, relationConditions, relationNames]
    exact fun x hx q hq => (ht x hx q hq).mono (List.subset_cons_self _ _)
  startJoins scope r hr := by
    simp only [boundMotive, joinedConditions, joinedNames, joinConditions, joinNames,
      List.append_nil]
    refine ⟨hr, fun q hq => ?_⟩
    simpa using known_pushRelation hq
  addJoin scope state kind joined on nd hstate hjoined hon := by
    simp only [boundMotive, joinedNames_addJoin, joinedConditions_addJoin]
    -- The earlier conditions, those of the joined relation, and the new one.
    refine ⟨List.forall_mem_append.mpr ⟨fun x hx q hq => ?_, List.forall_mem_append.mpr
      ⟨fun x hx q hq => (hjoined x hx q hq).trans hstate.2, fun x hx q hq => ?_⟩⟩, fun q hq => ?_⟩
    · exact (hstate.1 x hx q hq).mono (List.subset_append_left _ _)
    · have hentry := exists_entry_of_mem (hon x (by simpa using hx)) hq
      have hknown : Known state.joinScope (relationNames joined ++ []) q :=
        known_pushRelation (.inl hentry)
      rw [List.append_nil] at hknown
      exact hknown.trans hstate.2
    · have hknown := known_addJoin hq
      rw [List.append_nil] at hknown
      exact hknown.trans hstate.2
  endJoins scope state nd h := h.1

end Bound

/-! ## The emitted plan -/

/-- The plan that the adapter of a backend renders. -/
def emittedPlan (catalog : Catalog) : SqlBackend → BoundQueryPlan → BoundQueryPlan
  | .clickHouse => rewritten catalog ClickHouseAdapter.uuidArrowWorkaroundEnabled
  | .postgres => id

/-- The relation that the adapter of a backend expands a wildcard to the columns of, if it does. -/
def expansion (catalog : Catalog) : SqlBackend → Expansion
  | .clickHouse => fun from_ => (scopeFromFromClause catalog from_).targetBindingName
  | .postgres => .never

/-- The text that an adapter emits is that of its plan. -/
theorem text_of_emit {backend : SqlBackend} {query : BoundQuery} {catalog : Catalog}
    {artifact : SqlArtifact} (h : emit backend query catalog = .ok artifact) :
    ∃ pieces, renderQuery ⟨backend, catalog, orderedParameters query⟩
        (emittedPlan catalog backend query.plan) query.parsed.explain = .ok pieces ∧
      artifact.text = pieces.text := by
  cases backend with
  | postgres =>
    simp only [emit, PostgresAdapter.emit] at h
    split at h
    · cases h
    · obtain ⟨pieces, hpieces, h⟩ := bind_eq_ok.mp h
      cases h
      exact ⟨pieces, hpieces, rfl⟩
  | clickHouse =>
    simp only [emit, ClickHouseAdapter.emit] at h
    split at h
    · cases h
    · obtain ⟨emitted, hemitted, h⟩ := bind_eq_ok.mp h
      obtain ⟨pieces, hpieces, hemitted⟩ := bind_eq_ok.mp hemitted
      cases hemitted
      refine ⟨pieces, hpieces, ?_⟩
      split at h <;> cases h <;> rfl

mutual

/-- A rewritten relation keeps its names. -/
theorem relationNames_rewriteRelation (catalog : Catalog) (enabled : Bool) : ∀ r : BoundRelation,
    relationNames (rewriteRelation catalog enabled r).1 = relationNames r
  | .table .. => by simp [rewriteRelation]
  | .derived .. => by simp [rewriteRelation, relationNames]
  | .nestedJoin _ ⟨relation, joins, _⟩ _ => by
    simp [rewriteRelation, rewriteTableWithJoins, relationNames,
      relationNames_rewriteRelation catalog enabled relation,
      joinNames_rewriteJoins catalog enabled joins]
  | .unsupported .. => by simp [rewriteRelation]
termination_by structural r => r

/-- Rewritten joins keep their names. -/
theorem joinNames_rewriteJoins (catalog : Catalog) (enabled : Bool) : ∀ joins : List BoundJoin,
    joinNames (rewriteJoins catalog enabled joins).1 = joinNames joins
  | [] => by simp [rewriteJoins]
  | ⟨_, relation, _, _⟩ :: joins => by
    simp [rewriteJoins, joinNames, relationNames_rewriteRelation catalog enabled relation,
      joinNames_rewriteJoins catalog enabled joins]
termination_by structural joins => joins

end

/-- A rewritten `FROM` clause keeps its names. -/
theorem fromNames_rewriteTables (catalog : Catalog) (enabled : Bool)
    (tables : List BoundTableWithJoins) :
    fromNames (rewriteTables catalog enabled tables).1 = fromNames tables := by
  induction tables with
  | nil => simp [rewriteTables]
  | cons table tables ih =>
    cases table
    simp only [fromNames] at ih
    simp [rewriteTables, rewriteTableWithJoins, fromNames, tableNames, ih,
      relationNames_rewriteRelation, joinNames_rewriteJoins]

/-- A rewritten expression keeps its qualifiers. -/
theorem exprQualifiers_rewriteExpr (catalog : Catalog) (enabled : Bool) (scope : Option SelectScope)
    (allow : Bool) (expr : BoundExpr) :
    exprQualifiers (rewriteExpr catalog enabled scope allow expr).1 = exprQualifiers expr := by
  rw [exprQualifiers, exprUses_rewriteExpr, List.filterMap_map, exprQualifiers]
  congr 1
  funext use
  cases use <;> rfl

/-- The text conversion keeps the qualifiers. -/
theorem exprQualifiers_rewriteUuidArrowExpr (enabled : Bool) (expr : BoundExpr) :
    exprQualifiers (rewriteUuidArrowExpr expr enabled).1 = exprQualifiers expr := by
  rw [exprQualifiers, exprUses_rewriteUuidArrowExpr, exprQualifiers]

section Rewrite

variable (catalog : Catalog) (enabled : Bool)

/-- A rewritten optional expression keeps its qualifiers. -/
theorem exprQualifiers_rewriteExprOption (scope : Option SelectScope) (allow : Bool)
    (expr : Option BoundExpr) :
    (rewriteExprOption catalog enabled scope allow expr).1.toList.flatMap exprQualifiers =
      expr.toList.flatMap exprQualifiers := by
  cases expr <;> simp [rewriteExprOption, exprQualifiers_rewriteExpr]

/-- A rewritten `GROUP BY` keeps its qualifiers. -/
theorem exprQualifiers_rewriteGroupBy (scope : Option SelectScope) (allow : Bool)
    (exprs : List BoundExpr) :
    ((rewriteExprs catalog enabled scope allow exprs).1.map fun x =>
      (rewriteUuidArrowExpr x enabled).1).flatMap
      exprQualifiers = exprs.flatMap exprQualifiers := by
  induction exprs with
  | nil => simp [rewriteExprs]
  | cons x exprs ih =>
    simp [rewriteExprs, exprQualifiers_rewriteExpr, exprQualifiers_rewriteUuidArrowExpr, ih]

/-- A rewritten `ORDER BY` keeps its qualifiers. -/
theorem exprQualifiers_rewriteOrderBys (scope : Option SelectScope)
    (orders : List BoundOrderByExpr) :
    ((rewriteOrderBys catalog enabled scope orders).1.map BoundOrderByExpr.expr).flatMap
      exprQualifiers = (orders.map BoundOrderByExpr.expr).flatMap exprQualifiers := by
  induction orders with
  | nil => simp [rewriteOrderBys]
  | cons o orders ih =>
    cases o
    simp only [rewriteOrderBys, rewriteOrderByExpr, List.map_cons, List.flatMap_cons, ih,
      exprQualifiers_rewriteExpr]

mutual

/-- The conditions of a rewritten relation keep their qualifiers. -/
theorem exprQualifiers_rewriteRelation : ∀ r : BoundRelation,
    (relationConditions (rewriteRelation catalog enabled r).1).flatMap exprQualifiers =
      (relationConditions r).flatMap exprQualifiers
  | .table .. => by simp [rewriteRelation]
  | .derived .. => by simp [rewriteRelation, relationConditions]
  | .nestedJoin _ ⟨relation, joins, _⟩ _ => by
    simp only [rewriteRelation, rewriteTableWithJoins, relationConditions, List.flatMap_append,
      exprQualifiers_rewriteRelation relation, exprQualifiers_rewriteJoins joins]
  | .unsupported .. => by simp [rewriteRelation]
termination_by structural r => r

/-- The conditions of rewritten joins keep their qualifiers. -/
theorem exprQualifiers_rewriteJoins : ∀ joins : List BoundJoin,
    (joinConditions (rewriteJoins catalog enabled joins).1).flatMap exprQualifiers =
      (joinConditions joins).flatMap exprQualifiers
  | [] => by simp [rewriteJoins]
  | ⟨_, relation, on, _⟩ :: joins => by
    simp only [rewriteJoins, joinConditions, List.flatMap_append,
      exprQualifiers_rewriteRelation relation, exprQualifiers_rewriteExprOption,
      exprQualifiers_rewriteJoins joins]
termination_by structural joins => joins

end

/-- The conditions of a rewritten `FROM` clause keep their qualifiers. -/
theorem exprQualifiers_rewriteTables (tables : List BoundTableWithJoins) :
    ((rewriteTables catalog enabled tables).1.flatMap tableConditions).flatMap exprQualifiers =
      (tables.flatMap tableConditions).flatMap exprQualifiers := by
  induction tables with
  | nil => simp [rewriteTables]
  | cons table tables ih =>
    cases table
    simp only [rewriteTables, rewriteTableWithJoins, tableConditions, List.flatMap_cons,
      List.flatMap_append, exprQualifiers_rewriteRelation, exprQualifiers_rewriteJoins, ih]

/-- An expanded field uses the name that the wildcard is expanded to. -/
theorem itemUses_expandField (expand : Option String → Option String) (names : List FromName)
    (name : String) (node : SyntaxNode) (field : ResultField) :
    itemUses expand names (expandField name node enabled field) = [⟨.column, name, names⟩] := by
  simp only [itemUses, expandField, exprQualifiers_rewriteUuidArrowExpr]
  simp [exprQualifiers, exprUses]

/-- The qualifiers of a rewritten projection are those of the projection, with its wildcards
expanded. -/
theorem itemUses_rewriteProjections (scope : SelectScope) (names : List FromName)
    (from_ : List BoundTableWithJoins) (items : List BoundProjectionItem) :
    (rewriteProjections catalog enabled scope items).1.flatMap
      (itemUses (Expansion.never from_) names) =
      items.flatMap (itemUses scope.targetBindingName names) := by
  refine flatMap_rewriteProjections catalog enabled scope (fun item => ?_) items
  cases item with
  | expr details =>
    cases details
    simp [rewriteProjections, rewriteProjectionExpr, itemUses, exprQualifiers_rewriteUuidArrowExpr,
      exprQualifiers_rewriteExpr]
  -- A wildcard is expanded where the scope has a target for it.
  | wildcard qualifier fields node =>
    simp only [rewriteProjections, List.append_nil, expandWildcardProjection]
    cases hname : scope.targetBindingName qualifier with
    | none => simp [itemUses, hname, Expansion.never]
    | some name =>
      have hitem : itemUses scope.targetBindingName names (.wildcard qualifier fields node) =
          fields.map fun _ => ⟨.column, name, names⟩ := by simp only [itemUses, hname]
      rw [hitem]
      simp only [Option.bind_eq_bind, Option.bind_some, Option.pure_def, Option.getD_some,
        List.flatMap_map, itemUses_expandField]
      exact List.flatMap_pure_eq_map _ fields
  | unsupported description node => simp [rewriteProjections, itemUses]

/-- The uses of a rewritten body are those of the expanded one. -/
theorem setExprUses_rewriteSetExpr : ∀ body : BoundSetExpr,
    setExprUses .never (rewriteSetExpr catalog enabled body).1 =
      setExprUses (expansion catalog .clickHouse) body
  | .select ⟨_, projection, from_, selection, groupBy, having, _, _⟩ => by
    simp only [rewriteSetExpr, rewriteSelect, setExprUses, selectUses, clauseExprs, expansion,
      fromNames_rewriteTables, scopeFromFromClause_rewriteTables,
      itemUses_rewriteProjections, List.flatMap_append, exprQualifiers_rewriteTables,
      exprQualifiers_rewriteExprOption, exprQualifiers_rewriteGroupBy]
  | .unionAll left right _ _ => by
    simp only [rewriteSetExpr, setExprUses, setExprUses_rewriteSetExpr left,
      setExprUses_rewriteSetExpr right]
  | .unsupported .. => by simp [rewriteSetExpr, setExprUses]

/-- A rewritten body keeps its names. -/
theorem bodyNames_rewriteSetExpr (body : BoundSetExpr) :
    bodyNames (rewriteSetExpr catalog enabled body).1 = bodyNames body := by
  cases body with
  | select s =>
    cases s
    simp [rewriteSetExpr, rewriteSelect, bodyNames, fromNames_rewriteTables]
  | _ => simp [rewriteSetExpr, bodyNames]

/-- Rewriting keeps the qualifiers of a query, but for expanding its wildcards. -/
theorem queryUses_rewritten (query : BoundQueryPlan) :
    queryUses .never (rewritten catalog enabled query) =
      queryUses (expansion catalog .clickHouse) query := by
  cases query
  simp only [queryUses, rewritten, rewriteQueryPlan, outputExprs, setExprUses_rewriteSetExpr,
    bodyNames_rewriteSetExpr, List.flatMap_append, exprQualifiers_rewriteOrderBys,
    exprQualifiers_rewriteExprOption]

end Rewrite

mutual

/-- A binding that is collected of a relation is one of its names. -/
theorem exists_name_of_mem_relationBindings (catalog : Catalog) : ∀ r : BoundRelation,
    ∀ binding ∈ collectRelationBindings catalog r,
    ∃ name ∈ relationNames r, name.bound = binding.bindingName
  | .table binding _ => by
    intro b hb
    rw [collectRelationBindings] at hb
    split at hb
    · cases hb
    · split at hb
      · cases hb
      · obtain rfl := List.mem_singleton.mp hb
        exact ⟨_, by rw [relationNames]; exact List.mem_cons_self, rfl⟩
  | .derived .. => by simp [collectRelationBindings]
  | .nestedJoin _ ⟨relation, joins, _⟩ _ => by
    intro b hb
    rw [collectRelationBindings, List.mem_append] at hb
    rw [relationNames]
    -- The binding is that of the first relation or of a join.
    obtain hb | hb := hb
    · obtain ⟨name, hname, heq⟩ := exists_name_of_mem_relationBindings catalog relation b hb
      exact ⟨name, List.mem_cons_of_mem _ (List.mem_append_left _ hname), heq⟩
    · obtain ⟨name, hname, heq⟩ := exists_name_of_mem_joinBindings catalog joins b hb
      exact ⟨name, List.mem_cons_of_mem _ (List.mem_append_right _ hname), heq⟩
  | .unsupported .. => by simp [collectRelationBindings]
termination_by structural r => r

/-- A binding that is collected of joins is one of their names. -/
theorem exists_name_of_mem_joinBindings (catalog : Catalog) : ∀ joins : List BoundJoin,
    ∀ binding ∈ collectJoinBindings catalog joins,
    ∃ name ∈ joinNames joins, name.bound = binding.bindingName
  | [] => by simp [collectJoinBindings]
  | ⟨_, relation, _, _⟩ :: joins => by
    intro b hb
    rw [collectJoinBindings, List.mem_append] at hb
    rw [joinNames]
    obtain hb | hb := hb
    · obtain ⟨name, hname, heq⟩ := exists_name_of_mem_relationBindings catalog relation b hb
      exact ⟨name, List.mem_append_left _ hname, heq⟩
    · obtain ⟨name, hname, heq⟩ := exists_name_of_mem_joinBindings catalog joins b hb
      exact ⟨name, List.mem_append_right _ hname, heq⟩
termination_by structural joins => joins

end

/-- A wildcard is expanded to the columns of a relation of its `FROM` clause. -/
theorem exists_name_of_expansion (catalog : Catalog) (backend : SqlBackend) :
    ∀ from_ qualifier name, expansion catalog backend from_ qualifier = some name →
      ∃ n ∈ fromNames from_, n.bound = name := by
  intro from_ qualifier name h
  cases backend with
  | postgres => cases h
  | clickHouse =>
    -- A wildcard stands for a binding of the scope of the `FROM` clause.
    have hbinding : ∃ binding ∈ scopeFromFromClause catalog from_, binding.bindingName = name := by
      simp only [expansion] at h
      cases qualifier with
      | some qualifier =>
        obtain ⟨binding, hfind, heq⟩ := Option.map_eq_some_iff.mp h
        exact ⟨binding, List.mem_of_find?_eq_some hfind, heq⟩
      | none =>
        simp only [SelectScope.targetBindingName] at h
        split at h
        · rename_i binding heq
          cases h
          exact ⟨binding, by rw [heq]; exact List.mem_cons_self, rfl⟩
        · cases h
    obtain ⟨binding, hbinding, rfl⟩ := hbinding
    obtain ⟨table, htable, hbinding⟩ := List.mem_flatMap.mp hbinding
    -- That binding is the table's own or one of its joins'.
    have hname : ∃ n ∈ tableNames table, n.bound = binding.bindingName := by
      obtain hbinding | hbinding := List.mem_append.mp hbinding
      · obtain ⟨n, hn, heq⟩ := exists_name_of_mem_relationBindings catalog _ binding hbinding
        exact ⟨n, List.mem_append_left _ hn, heq⟩
      · obtain ⟨n, hn, heq⟩ := exists_name_of_mem_joinBindings catalog _ binding hbinding
        exact ⟨n, List.mem_append_right _ hn, heq⟩
    obtain ⟨n, hn, heq⟩ := hname
    exact ⟨n, List.mem_flatMap.mpr ⟨table, htable, hn⟩, heq⟩

/-- What is said of the qualifiers of the emitted queries can be said of the bound ones. -/
theorem allWithin_emittedPlan_iff {catalog : Catalog} {backend : SqlBackend} {plan : BoundQueryPlan}
    {P : List QualifierUse → Prop} :
    AllWithin (fun q => P (queryUses .never q)) (emittedPlan catalog backend plan) ↔
      AllWithin (fun q => P (queryUses (expansion catalog backend) q)) plan := by
  cases backend with
  | postgres => exact Iff.rfl
  | clickHouse =>
    simp only [emittedPlan, allWithin_rewritten_iff, queryUses_rewritten]

/-! ## When every qualifier is declared -/

/-- What goes wrong with a qualifier. -/
inductive QualifierUse.Faulty (use : QualifierUse) : Prop
  /-- It is that of a column after the body, which the binder makes up. -/
  | internal (hplace : use.place = .output)
  /-- It has dots in it, and is split at them. -/
  | split (hdot : '.' ∈ use.qualifier.toList)
  /-- It is that of a wildcard, which is written in other letters than the names of its `FROM`
  clause. -/
  | recased (hplace : use.place = .wildcard)
    (hnone : ∀ name ∈ use.names, name.declared ≠ use.qualifier)
  /-- It is the alias of a table that is dropped, as it is the table's name in other letters. -/
  | dropped (hplace : use.place = .column) (name : FromName) (hname : name ∈ use.names)
      (hbound : name.bound = use.qualifier) (hdropped : name.declared ≠ name.bound)
      (hnone : ∀ name ∈ use.names, name.declared ≠ use.qualifier)

/-- A bound use is sound when it is not faulty. -/
theorem QualifierUse.Bound.sound_iff {use : QualifierUse} (h : use.Bound) :
    use.Sound ↔ ¬ use.Faulty := by
  obtain ⟨place, qualifier, names⟩ := use
  constructor
  -- Each fault contradicts the declared name that the qualifier spells.
  · rintro ⟨⟨name, hname, hsplit⟩, hexternal⟩ hfaulty
    obtain ⟨hdot, rfl⟩ := splitDots_eq_singleton_iff.mp hsplit
    cases hfaulty with
    | internal hplace =>
      cases hplace
      exact hexternal ⟨rfl, h⟩
    | split hdot' => exact hdot hdot'
    | recased hplace hnone => exact hnone name hname rfl
    | dropped hplace _ _ _ _ hnone => exact hnone name hname rfl
  -- Without faults the qualifier has no dot and spells some declared name.
  · intro hsound
    have hplace : place ≠ .output := fun hplace => hsound (.internal hplace)
    refine ⟨?_, fun houtput => hplace houtput.1⟩
    by_contra hundeclared
    have hdot : '.' ∉ qualifier.toList := fun hdot => hsound (.split hdot)
    have hnone : ∀ name ∈ names, name.declared ≠ qualifier := fun name hname heq =>
      hundeclared ⟨name, hname, splitDots_eq_singleton_iff.mpr ⟨hdot, heq.symm⟩⟩
    cases place with
    | output => exact hplace rfl
    | wildcard => exact hsound (.recased rfl hnone)
    | column =>
      obtain ⟨name, hname, rfl⟩ := h
      exact hsound (.dropped rfl name hname rfl (hnone name hname) hnone)

/-- The qualifiers in the SQL that an adapter emits for an accepted query are declared, exactly when
none of those that the query has is faulty. -/
theorem emitted_qualifiers_sound_iff (context : BinderContext) (query : SyntaxQuery)
    (catalog : Catalog) (backend : SqlBackend) (h : Accepted context query) :
    AllWithin (fun q => ∀ use ∈ queryUses .never q, use.Sound)
        (emittedPlan catalog backend (boundPlan context query)) ↔
      AllWithin (fun q => ∀ use ∈ queryUses (expansion catalog backend) q, ¬ use.Faulty)
        (boundPlan context query) := by
  have hbound := (boundCases (expansion catalog backend)
    (exists_name_of_expansion catalog backend)).bindCases.allWithin context h
  rw [allWithin_emittedPlan_iff (P := fun uses => ∀ use ∈ uses, use.Sound)]
  constructor
  · intro hsound q hq use huse
    exact (hbound q hq use huse).sound_iff.mp (hsound q hq use huse)
  · intro hfaulty q hq use huse
    exact (hbound q hq use huse).sound_iff.mpr (hfaulty q hq use huse)

/-- In the SQL of `SELECT id FROM events`, the column is qualified by the table. -/
theorem selectId_qualifiers_sound :
    AllWithin (fun q => ∀ use ∈ queryUses .never q, use.Sound)
      (emittedPlan usersAndEvents.catalog .postgres
      (boundPlan usersAndEvents (selectId [] (plainTable "events")))) := by
  refine (emitted_qualifiers_sound_iff usersAndEvents (selectId [] (plainTable "events"))
    usersAndEvents.catalog .postgres (by decide)).mpr
      (allWithin_iff.mpr ⟨?_, List.forall_mem_nil _⟩)
  refine List.forall_mem_singleton.mpr fun hfaulty => ?_
  cases hfaulty with
  | internal hplace => cases hplace
  | split hdot => exact absurd hdot (by decide)
  | recased hplace _ => cases hplace
  | dropped _ _ _ _ _ hnone => exact hnone ⟨"events", "events"⟩ (by decide) rfl

/-- `SELECT id FROM events ORDER BY id`. -/
def orderedIds : SyntaxQuery :=
  let node : SyntaxNode := { span := none, nodeId := "o" }
  { selectId [] (plainTable "events") with
    orderBy := [⟨⟨.column none "id", node⟩, none, none, node⟩] }

/-- The SQL of `SELECT id FROM events ORDER BY id` orders by a column of `__output__`, which is no
relation of the query. -/
theorem orderedIds_qualifier_internal : Accepted usersAndEvents orderedIds ∧
    (renderQuery ⟨.postgres, usersAndEvents.catalog, []⟩
      (emittedPlan usersAndEvents.catalog .postgres (boundPlan usersAndEvents orderedIds))
        false).toOption =
        some ["SELECT ", "events", ".", "id", " FROM ", "events", " ORDER BY ", "__output__",
          ".", "id"] ∧
    ¬ AllWithin (fun q => ∀ use ∈ queryUses .never q, use.Sound)
      (emittedPlan usersAndEvents.catalog .postgres (boundPlan usersAndEvents orderedIds)) := by
  refine ⟨by decide, rfl, fun h => ?_⟩
  have huse := h _ .refl ⟨.output, "__output__", [⟨"events", "events"⟩]⟩ (by decide)
  exact huse.external ⟨rfl, rfl⟩

end QueryFabric.Render
