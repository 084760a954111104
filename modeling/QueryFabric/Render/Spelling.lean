import QueryFabric.Render.Sources

/-!
# What a query spells

The names of a query's text, with what they mean. A table means a CTE of its query, or else a
relation of the catalog that has the name or the alias; a column means a field of the relations in
scope at its place. Both can be told from the text and the catalog: `Spelled` finds the relations in
scope and their fields without binding the query, and `querySpellings` lists the names at every
depth. Where ClickHouse gets the columns of a wildcard one by one, those count as spelled as well.
-/

namespace QueryFabric.Render

open QueryFabric.Bind ClickHouse

/-! ## Spellings -/

/-- The relation of the catalog that a table means, unless it means one of the query's CTEs. -/
def meantRelation? (catalog : Catalog) (ctes : List String) (name : NameRef) :
    Option RelationSchema :=
  if name.namespace_.isNone && ctes.any (eqIgnoreAsciiCase · name.name) then none
  else catalog.resolveRelation name.namespace_ name.name

/-- How the name of a table may differ from that of its relation. -/
inductive Misspelled (name : NameRef) (relation : RelationSchema) : Prop
  /-- It is an alias of the relation. -/
  | aliased (hname : eqIgnoreAsciiCase relation.name name.name = false)
  /-- It is in other letters. -/
  | recased (hname : eqIgnoreAsciiCase relation.name name.name = true)
      (hne : name.name ≠ relation.name)
  /-- Its namespace is left out, or is one that the relation was found in spite of. -/
  | moved (hnamespace : name.namespace_ ≠ relation.namespace_)

/-- A table has the name of its relation unless it is misspelled. -/
theorem eq_iff_not_misspelled {name : NameRef} {relation : RelationSchema} :
    name = ⟨relation.namespace_, relation.name⟩ ↔ ¬Misspelled name relation := by
  constructor
  · rintro rfl hmisspelled
    cases hmisspelled with
    | aliased hname => simp at hname
    | recased _ hne => exact hne rfl
    | moved hnamespace => exact hnamespace rfl
  · intro h
    have hnamespace : name.namespace_ = relation.namespace_ := by
      by_contra hnamespace
      exact h (.moved hnamespace)
    have hname : name.name = relation.name := by
      by_contra hne
      cases hcase : eqIgnoreAsciiCase relation.name name.name with
      | false => exact h (.aliased hcase)
      | true => exact h (.recased hcase hne)
    rw [← hnamespace, ← hname]

/-- Whether a table is misspelled is decided by comparing the names. -/
instance (name : NameRef) (relation : RelationSchema) : Decidable (Misspelled name relation) :=
  decidable_of_iff (¬name = ⟨relation.namespace_, relation.name⟩)
    (not_congr eq_iff_not_misspelled |>.trans not_not)

/-- The column means a column of a relation of the catalog, in other letters. -/
def ColumnUse.Recased (use : ColumnUse) : Prop :=
  ∃ field ∈ use.fields, field.origin = .column ∧ eqIgnoreAsciiCase field.name use.column.name ∧
    field.name ≠ use.column.name

/-- Whether a column is in other letters is decided by its fields. -/
instance (use : ColumnUse) : Decidable use.Recased :=
  inferInstanceAs (Decidable (∃ field ∈ use.fields, _ ∧ _ ∧ _))

/-- A name that a query spells: that of a table that means a relation of the catalog, or that of a
column. -/
inductive Spelling
  | table (name : NameRef) (relation : RelationSchema)
  | column (use : ColumnUse)
deriving DecidableEq, Repr

/-- The name is not spelled as the catalog has it. -/
def Spelling.Differs : Spelling → Prop
  | .table name relation => Misspelled name relation
  | .column use => use.Recased

/-- Whether a name is spelled as the catalog has it is computed. -/
instance : DecidablePred Spelling.Differs
  | .table name relation => inferInstanceAs (Decidable (Misspelled name relation))
  | .column use => inferInstanceAs (Decidable use.Recased)

/-! ## The relations in scope -/

namespace Spelled

/-- The CTE that a table means: the last one of the name. -/
def cte? (ctes : CteFields) (name : NameRef) : Option (String × List NamedField) :=
  if name.namespace_.isNone then
    ctes.reverse.find? fun cte => eqIgnoreAsciiCase cte.1 name.name
  else none

/-- The name that a table is bound by: the CTE's own, or else as it is spelled. -/
def tableName (ctes : CteFields) (name : NameRef) : NameRef :=
  match cte? ctes name with
  | some cte => { namespace_ := none, name := cte.1 }
  | none => name

/-- The fields of a table. -/
def tableFields (catalog : Catalog) (ctes : CteFields) (name : NameRef) : List NamedField :=
  match cte? ctes name with
  | some cte => cte.2
  | none =>
    match catalog.resolveRelation name.namespace_ name.name with
    | some relation => relation.columns.map fun column => ⟨column.name, .column⟩
    | none => []

/-- The fields that a projection item produces. -/
def itemFields (sources : List Source) : SyntaxProjectionItem → List NamedField
  | .expr ⟨expr, alias_, _⟩ => [⟨alias_.getD (expressionName expr), .named⟩]
  | .wildcard qualifier _ =>
    (wildcardFields sources qualifier).map fun field => ⟨field.name, .named⟩
  | .unsupported .. => []

section Scopes

variable (catalog : Catalog)

mutual

/-- The fields that a query produces. -/
def queryFields : SyntaxQuery → List NamedField
  | ⟨_, ctes, _, body, _, _, _, _⟩ => setExprFields (ctesFields ctes) body
termination_by structural x => x

/-- The fields of the CTEs of a query. -/
def ctesFields : List SyntaxCte → CteFields
  | [] => []
  | ⟨name, columns, query, _⟩ :: ctes =>
    (name, cteNamedFields columns (queryFields query)) :: ctesFields ctes
termination_by structural x => x

/-- The fields of a set operation are those of its left operand. -/
def setExprFields (ctes : CteFields) : SyntaxSetExpr → List NamedField
  | .select ⟨_, projection, from_, _, _, _, _⟩ =>
    projection.flatMap (itemFields (tablesSources ctes from_))
  | .unionAll left _ _ => setExprFields ctes left
  | .unsupported .. => []
termination_by structural x => x

/-- The relations of a `FROM` clause. -/
def tablesSources (ctes : CteFields) : List SyntaxTableWithJoins → List Source
  | [] => []
  | ⟨relation, joins, _⟩ :: tables =>
    relationSources ctes relation ++ joinSources ctes joins ++ tablesSources ctes tables
termination_by structural x => x

/-- The joined relations. -/
def joinSources (ctes : CteFields) : List SyntaxJoin → List Source
  | [] => []
  | ⟨_, relation, _, _⟩ :: joins => relationSources ctes relation ++ joinSources ctes joins
termination_by structural x => x

/-- A relation in scope. A nested join has the fields of the relations in it. -/
def relationSources (ctes : CteFields) : SyntaxRelation → List Source
  | .table name alias_ _ =>
    [⟨alias_.getD (tableName ctes name).name, tableFields catalog ctes name⟩]
  | .derived query alias_ node => [⟨derivedName alias_ node, queryFields query⟩]
  | .nestedJoin ⟨relation, joins, _⟩ alias_ node =>
    [⟨derivedName alias_ node,
      (relationSources ctes relation ++ joinSources ctes joins).flatMap Source.fields⟩]
  | .unsupported .. => []
termination_by structural x => x

end

end Scopes

/-! ## Wildcards -/

section Targets

variable (catalog : Catalog) (ctes : CteFields)

mutual

/-- The tables that an adapter finds in its catalog, by the names that they are bound to. -/
def relationTargets : SyntaxRelation → List String
  | .table name alias_ _ =>
    let name := tableName ctes name
    if (catalog.resolveRelation name.namespace_ name.name).isSome then [alias_.getD name.name]
    else []
  | .nestedJoin ⟨relation, joins, _⟩ _ _ => relationTargets relation ++ joinTargets joins
  | .derived .. | .unsupported .. => []
termination_by structural x => x

/-- Those of the joined relations. -/
def joinTargets : List SyntaxJoin → List String
  | [] => []
  | ⟨_, relation, _, _⟩ :: joins => relationTargets relation ++ joinTargets joins
termination_by structural x => x

end

/-- Those of a `FROM` clause. -/
def tablesTargets (tables : List SyntaxTableWithJoins) : List String :=
  tables.flatMap fun table => relationTargets catalog ctes table.relation ++
    joinTargets catalog ctes table.joins

/-- The relation whose columns ClickHouse gets for a wildcard, if it gets them one by one: the
qualifier's, or the only one of the clause. -/
def expandedTo (tables : List SyntaxTableWithJoins) : SqlBackend → Option String → Option String
  | .postgres, _ => none
  | .clickHouse, some qualifier =>
    (tablesTargets catalog ctes tables).find? (eqIgnoreAsciiCase · qualifier)
  | .clickHouse, none =>
    match tablesTargets catalog ctes tables with
    | [name] => some name
    | _ => none

end Targets

end Spelled

/-! ## The names of a query -/

/-- The columns that a wildcard is expanded to. -/
def wildcardSpellings (sources : List Source) (qualifier target : Option String) : List Spelling :=
  target.toList.flatMap fun name => (wildcardFields sources qualifier).map fun field =>
    .column ⟨sources, ⟨some name, field.name⟩⟩

section Spellings

variable (catalog adapterCatalog : Catalog) (backend : SqlBackend)

mutual

/-- The names that a query spells, at every depth. Those after its body refer to its output. -/
def querySpellings : SyntaxQuery → List Spelling
  | ⟨_, ctes, _, body, orderBy, limit, offset, _⟩ =>
    let fields := Spelled.ctesFields catalog ctes
    let output : List Source := [⟨outputScopeName, Spelled.setExprFields catalog fields body⟩]
    cteSpellings ctes ++ (setExprSpellings fields body ++ (orderBySpellings output orderBy ++
      (optionSpellings output limit ++ optionSpellings output offset)))
termination_by structural x => x

/-- The names that the CTEs of a query spell. -/
def cteSpellings : List SyntaxCte → List Spelling
  | [] => []
  | ⟨_, _, query, _⟩ :: ctes => querySpellings query ++ cteSpellings ctes
termination_by structural x => x

/-- The names that a query body spells. -/
def setExprSpellings (ctes : CteFields) : SyntaxSetExpr → List Spelling
  | .select select => selectSpellings ctes select
  | .unionAll left right _ => setExprSpellings ctes left ++ setExprSpellings ctes right
  | .unsupported .. => []
termination_by structural x => x

/-- The names that a select spells. -/
def selectSpellings (ctes : CteFields) : SyntaxSelect → List Spelling
  | ⟨_, projection, from_, selection, groupBy, having, _⟩ =>
    let sources := Spelled.tablesSources catalog ctes from_
    tablesSpellings ctes [] from_ ++ (itemSpellings sources
      (Spelled.expandedTo adapterCatalog ctes from_ backend) projection ++
        (optionSpellings sources selection ++ (exprsSpellings sources groupBy ++
          optionSpellings sources having)))
termination_by structural x => x

/-- The names that the items of a projection spell. -/
def itemSpellings (sources : List Source) (target : Option String → Option String) :
    List SyntaxProjectionItem → List Spelling
  | [] => []
  | .expr ⟨expr, _, _⟩ :: items => exprSpellings sources expr ++ itemSpellings sources target items
  | .wildcard qualifier _ :: items =>
    wildcardSpellings sources qualifier (target qualifier) ++ itemSpellings sources target items
  | .unsupported .. :: items => itemSpellings sources target items
termination_by structural x => x

/-- The names that a `FROM` clause spells. Its conditions see the relations before them. -/
def tablesSpellings (ctes : CteFields) (before : List Source) :
    List SyntaxTableWithJoins → List Spelling
  | [] => []
  | ⟨relation, joins, _⟩ :: tables =>
    let sources := Spelled.relationSources catalog ctes relation
    relationSpellings ctes before relation ++ (joinSpellings ctes (before ++ sources) joins ++
      tablesSpellings ctes (before ++ (sources ++ Spelled.joinSources catalog ctes joins)) tables)
termination_by structural x => x

/-- The names that joins spell. A condition sees the joined relation as well. -/
def joinSpellings (ctes : CteFields) (before : List Source) : List SyntaxJoin → List Spelling
  | [] => []
  | ⟨_, relation, on, _⟩ :: joins =>
    let sources := before ++ Spelled.relationSources catalog ctes relation
    relationSpellings ctes before relation ++ (optionSpellings sources on ++
      joinSpellings ctes sources joins)
termination_by structural x => x

/-- The names that a relation spells. -/
def relationSpellings (ctes : CteFields) (before : List Source) : SyntaxRelation → List Spelling
  | .table name _ _ =>
    (meantRelation? catalog (ctes.map Prod.fst) name).toList.map (.table name)
  | .derived query _ _ => querySpellings query
  | .nestedJoin ⟨relation, joins, _⟩ _ _ =>
    relationSpellings ctes before relation ++
      joinSpellings ctes (before ++ Spelled.relationSources catalog ctes relation) joins
  | .unsupported .. => []
termination_by structural x => x

/-- The names that the keys of an order spell. -/
def orderBySpellings (sources : List Source) : List SyntaxOrderByExpr → List Spelling
  | [] => []
  | ⟨expr, _, _, _⟩ :: orders => exprSpellings sources expr ++ orderBySpellings sources orders
termination_by structural x => x

/-- The names that an expression spells. -/
def exprSpellings (sources : List Source) : SyntaxExpr → List Spelling
  -- A column is meant against the sources that the expression sees.
  | ⟨.column relation name, _⟩ => [.column ⟨sources, ⟨relation, name⟩⟩]
  | ⟨.literal _, _⟩ => []
  | ⟨.parameter _, _⟩ => []
  | ⟨.unary _ expr, _⟩ => exprSpellings sources expr
  | ⟨.binary _ left right, _⟩ => exprSpellings sources left ++ exprSpellings sources right
  | ⟨.function ⟨_, args, _, filter, over_⟩, _⟩ =>
    exprsSpellings sources args ++ optionSpellings sources filter ++ windowSpellings sources over_
  | ⟨.case operand whenThen elseResult, _⟩ =>
    optionSpellings sources operand ++ whenThenSpellings sources whenThen ++
      optionSpellings sources elseResult
  | ⟨.cast expr _, _⟩ => exprSpellings sources expr
  | ⟨.between expr low high _, _⟩ =>
    exprSpellings sources expr ++ exprSpellings sources low ++ exprSpellings sources high
  | ⟨.inList expr list _, _⟩ => exprSpellings sources expr ++ exprsSpellings sources list
  | ⟨.inSubquery expr subquery _, _⟩ => exprSpellings sources expr ++ querySpellings subquery
  | ⟨.scalarSubquery subquery, _⟩ => querySpellings subquery
  | ⟨.exists subquery, _⟩ => querySpellings subquery
  | ⟨.like expr pattern _ _, _⟩ => exprSpellings sources expr ++ exprSpellings sources pattern
  | ⟨.isNull expr _, _⟩ => exprSpellings sources expr
  | ⟨.tuple items, _⟩ => exprsSpellings sources items
  | ⟨.array items, _⟩ => exprsSpellings sources items
  | ⟨.unsupported _, _⟩ => []
termination_by structural x => x

/-- The names that a list of expressions spells. -/
def exprsSpellings (sources : List Source) : List SyntaxExpr → List Spelling
  | [] => []
  | expr :: exprs => exprSpellings sources expr ++ exprsSpellings sources exprs
termination_by structural x => x

/-- The names that an expression spells, if there is one. -/
def optionSpellings (sources : List Source) : Option SyntaxExpr → List Spelling
  | none => []
  | some expr => exprSpellings sources expr
termination_by structural x => x

/-- The names that the pairs of a `CASE` spell. -/
def whenThenSpellings (sources : List Source) : List SyntaxWhenThen → List Spelling
  | [] => []
  | ⟨condition, result⟩ :: pairs =>
    exprSpellings sources condition ++ exprSpellings sources result ++
      whenThenSpellings sources pairs
termination_by structural x => x

/-- The names that an `OVER` clause spells. -/
def windowSpellings (sources : List Source) : Option WindowSpec → List Spelling
  | none => []
  | some ⟨partitionBy, orderBy, _⟩ =>
    exprsSpellings sources partitionBy ++ orderBySpellings sources orderBy
termination_by structural x => x

end

end Spellings

end QueryFabric.Render
