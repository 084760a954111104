import QueryFabric.Render.Qualifiers

/-!
# The fields that columns refer to

A column of a plan refers to a field of a relation in scope: a column of a relation of the catalog,
or a field that a nested query produces. `queryColumns` lists the columns of a query, each with the
sources that it was looked up in, and `ColumnUse.fields` are the fields of that name. A field of a
nested query has a name that the SQL states, or one that the binder made up for an expression
without an alias.

The adapter of ClickHouse expands wildcards, gives `toString` around a UUID an alias, and puts merge
functions around columns. `Emission` says what an adapter does to the names of a projection, so that
the fields of the emitted plan are those of the bound one: `queryColumns_rewritten`.
-/

namespace QueryFabric.Render

open QueryFabric.Bind ClickHouse Lib

/-- Where a field comes from. -/
inductive FieldOrigin
  /-- It is a column of a relation of the catalog. -/
  | column
  /-- A nested query produces it, under a name that the SQL states. -/
  | named
  /-- A nested query produces it with an expression that has no name in the SQL. -/
  | unnamed
deriving DecidableEq, Repr

/-- What becomes of a field that a wildcard projects. -/
def FieldOrigin.projected : FieldOrigin → FieldOrigin
  | .column | .named => .named
  | .unnamed => .unnamed

/-- A field by its name in the text, with what made the name. -/
structure NamedField where
  name : String
  origin : FieldOrigin
deriving DecidableEq, Repr

/-- A relation in scope. -/
structure Source where
  bindingName : String
  fields : List NamedField
deriving DecidableEq, Repr

/-- Fields with the given names, and the given origins as far as these go. -/
def withOrigins (names : List String) (origins : List FieldOrigin) : List NamedField :=
  names.zipIdx.map fun (name, index) => ⟨name, origins.getD index .named⟩

/-- Names without origins are named. -/
theorem withOrigins_nil (names : List String) : withOrigins names [] = names.map (⟨·, .named⟩) := by
  have hnames : names.zipIdx.map Prod.fst = names := List.zipIdx_map_fst 0 names
  conv_rhs => rw [← hnames, List.map_map]
  rfl

/-- Origins do not change the names. -/
theorem name_withOrigins (names : List String) (origins : List FieldOrigin) :
    (withOrigins names origins).map NamedField.name = names := by
  rw [withOrigins, List.map_map]
  exact List.zipIdx_map_fst 0 names

/-- What an adapter does to the names of a projection, given the `FROM` clause: which wildcards it
expands, and which expressions it writes so that their name is stated. -/
structure Emission where
  expand : Expansion
  shows : List BoundTableWithJoins → BoundProjectionExpr → Bool

/-- The expression is a column of that name. -/
def isColumnNamed (name : String) : BoundExpr → Bool
  | ⟨.column column, _, _, _⟩ => column.name = name
  | _ => false

/-- The text of a projected expression states the name of its field: it is a plain column of that
name, or it has that alias. -/
def showsName (details : BoundProjectionExpr) : Bool :=
  details.alias_ = some details.field.name || isColumnNamed details.field.name details.expr

/-- The plan is written as it is. -/
def Emission.plain : Emission where
  expand := .never
  shows _ := showsName

/-! ## Sources -/

/-- The fields of the CTEs of a query, in order. -/
abbrev CteFields := List (String × List NamedField)

/-- The last CTE of a name. -/
def cteFields? (ctes : CteFields) (name : NameRef) : Option (List NamedField) :=
  if name.namespace_.isNone then
    (ctes.reverse.find? fun cte => eqIgnoreAsciiCase cte.1 name.name).map Prod.snd
  else none

/-- The fields of a table: those of a CTE, or the columns of a relation of the catalog. -/
def tableFields (ctes : CteFields) (binding : BoundRelationBinding) : List NamedField :=
  let names := binding.schema.fields.map ResultField.name
  match binding.relationName.bind (cteFields? ctes) with
  | some fields => withOrigins names (fields.map NamedField.origin)
  | none => names.map (⟨·, .column⟩)

/-- The fields that a wildcard stands for. -/
def wildcardFields (sources : List Source) : Option String → List NamedField
  | none => sources.flatMap Source.fields
  | some qualifier =>
    ((sources.find? fun source => eqIgnoreAsciiCase source.bindingName qualifier).map
      Source.fields).getD []

section Fields

variable (emission : Emission)

/-- The fields that a projection item produces. -/
def itemNamedFields (from_ : List BoundTableWithJoins) (sources : List Source) :
    BoundProjectionItem → List NamedField
  | .expr details =>
    [⟨details.field.name, if emission.shows from_ details then .named else .unnamed⟩]
  | .wildcard qualifier fields _ =>
    withOrigins (fields.map ResultField.name)
      (if (emission.expand from_ qualifier).isSome then []
        else (wildcardFields sources qualifier).map fun field => field.origin.projected)
  | .unsupported .. => []

/-- The fields of a CTE. A column list names them all. -/
def cteNamedFields (columns : List String) (fields : List NamedField) : List NamedField :=
  if !columns.isEmpty && columns.length == fields.length then columns.map (⟨·, .named⟩) else fields

mutual

/-- The fields that a query produces. -/
def queryFields : BoundQueryPlan → List NamedField
  | ⟨_, ctes, body, _, _, _, _, _⟩ => setExprFields (ctesFields ctes) body
termination_by structural x => x

/-- The named fields of CTEs. -/
def ctesFields : List BoundCte → CteFields
  | [] => []
  | ⟨name, columns, query, _, _⟩ :: ctes =>
    (name, cteNamedFields columns (queryFields query)) :: ctesFields ctes
termination_by structural x => x

/-- The fields of a set operation are those of its left operand. -/
def setExprFields (ctes : CteFields) : BoundSetExpr → List NamedField
  | .select ⟨_, projection, from_, _, _, _, _, _⟩ =>
    projection.flatMap (itemNamedFields emission from_ (tablesSources ctes from_))
  | .unionAll left _ _ _ => setExprFields ctes left
  | .unsupported .. => []
termination_by structural x => x

/-- The sources of a `FROM` clause. -/
def tablesSources (ctes : CteFields) : List BoundTableWithJoins → List Source
  | [] => []
  | ⟨relation, joins, _⟩ :: tables =>
    relationSources ctes relation ++ joinSources ctes joins ++ tablesSources ctes tables
termination_by structural x => x

/-- The sources of joins. -/
def joinSources (ctes : CteFields) : List BoundJoin → List Source
  | [] => []
  | ⟨_, relation, _, _⟩ :: joins => relationSources ctes relation ++ joinSources ctes joins
termination_by structural x => x

/-- A relation as a source. A nested join has the fields of the relations in it. -/
def relationSources (ctes : CteFields) : BoundRelation → List Source
  | .table binding _ => [⟨binding.bindingName, tableFields ctes binding⟩]
  | .derived binding query _ => [⟨binding.bindingName, queryFields query⟩]
  | .nestedJoin binding ⟨relation, joins, _⟩ _ =>
    [⟨binding.bindingName,
      (relationSources ctes relation ++ joinSources ctes joins).flatMap Source.fields⟩]
  | .unsupported .. => []
termination_by structural x => x

end

/-! ## Columns -/

/-- A column, with the sources that it is looked up in. -/
structure ColumnUse where
  sources : List Source
  column : BoundColumnRef
deriving DecidableEq, Repr

/-- The fields that a column may mean. -/
def ColumnUse.fields (use : ColumnUse) : List NamedField :=
  use.sources.flatMap fun source =>
    if use.column.relation.all (eqIgnoreAsciiCase source.bindingName) then
      source.fields.filter fun field => eqIgnoreAsciiCase field.name use.column.name
    else []

/-- The columns of an expression. -/
def exprColumns (expr : BoundExpr) : List BoundColumnRef :=
  (exprUses expr).filterMap fun
    | .column column _ => some column
    | .membership .. => none

/-- The columns of a projection item, with those of a wildcard that is expanded. -/
def itemColumns (from_ : List BoundTableWithJoins) : BoundProjectionItem → List BoundColumnRef
  | .expr details => exprColumns details.expr
  | .wildcard qualifier fields _ =>
    match emission.expand from_ qualifier with
    | some name => fields.map fun field => ⟨some name, field.name⟩
    | none => []
  | .unsupported .. => []

mutual

/-- The columns of the join conditions in a relation, which see the sources before it and those in
it. -/
def relationColumns (ctes : CteFields) (before : List Source) : BoundRelation → List ColumnUse
  | .nestedJoin _ ⟨relation, joins, _⟩ _ =>
    relationColumns ctes before relation ++
      joinColumns ctes (before ++ relationSources emission ctes relation) joins
  | .table .. | .derived .. | .unsupported .. => []
termination_by structural x => x

/-- The columns in the conditions of joins, with their sources. -/
def joinColumns (ctes : CteFields) (before : List Source) : List BoundJoin → List ColumnUse
  | [] => []
  | ⟨_, relation, on, _⟩ :: joins =>
    relationColumns ctes before relation ++
      ((on.toList.flatMap exprColumns).map
        (⟨before ++ relationSources emission ctes relation, ·⟩) ++
        joinColumns ctes (before ++ relationSources emission ctes relation) joins)
termination_by structural x => x

end

/-- The columns in a `FROM` clause, with their sources. -/
def tablesColumns (ctes : CteFields) (before : List Source) :
    List BoundTableWithJoins → List ColumnUse
  | [] => []
  | ⟨relation, joins, _⟩ :: tables =>
    relationColumns emission ctes before relation ++
      (joinColumns emission ctes (before ++ relationSources emission ctes relation) joins ++
        tablesColumns ctes
          (before ++ (relationSources emission ctes relation ++ joinSources emission ctes joins))
            tables)

/-- The columns of a select, with their sources. -/
def selectColumns (ctes : CteFields) (select : BoundSelect) : List ColumnUse :=
  let sources := tablesSources emission ctes select.from_
  tablesColumns emission ctes [] select.from_ ++
    (select.projection.flatMap (itemColumns emission select.from_) ++
      (select.selection.toList ++ select.groupBy ++ select.having.toList).flatMap exprColumns).map
        (⟨sources, ·⟩)

/-- The columns of a query body, with their sources. -/
def setExprColumns (ctes : CteFields) : BoundSetExpr → List ColumnUse
  | .select select => selectColumns emission ctes select
  | .unionAll left right _ _ => setExprColumns ctes left ++ setExprColumns ctes right
  | .unsupported .. => []

/-- The columns of a query, without those of the queries in it. Those after the body refer to its
output. -/
def queryColumns (query : BoundQueryPlan) : List ColumnUse :=
  let ctes := ctesFields emission query.ctes
  setExprColumns emission ctes query.body ++
    ((outputExprs query).flatMap exprColumns).map
      (⟨[⟨outputScopeName, setExprFields emission ctes query.body⟩], ·⟩)

end Fields

/-! ## What the adapters do to names -/

/-- The rewriting for ClickHouse leaves a plain column as it is. -/
def keepsColumn (scope : SelectScope) (details : BoundProjectionExpr) : Bool :=
  match details.expr with
  | ⟨.column column, _, _, _⟩ =>
    column.name = details.field.name && (columnWrapper (some scope) true column).isNone
  | _ => false

/-- What the rewriting for ClickHouse does to names: it adds an alias to `toString` around a UUID,
and none to the merge function around a column. -/
def clickHouseEmission (catalog : Catalog) (enabled : Bool) : Emission where
  expand := expansion catalog .clickHouse
  shows from_ details :=
    if (rewriteUuidArrowExpr details.expr enabled).2 then
      details.alias_.getD details.field.name = details.field.name
    else
      details.alias_ = some details.field.name ||
        keepsColumn (scopeFromFromClause catalog from_) details

/-- What the adapter of a backend does to names. -/
def emissionOf (catalog : Catalog) : SqlBackend → Emission
  | .postgres => .plain
  | .clickHouse => clickHouseEmission catalog ClickHouseAdapter.uuidArrowWorkaroundEnabled

section Rewrite

variable (catalog : Catalog) (enabled : Bool)

/-- Whether `toString` is put around an expression does not depend on the rewriting of the
expression. -/
theorem rewriteUuidArrowExpr_rewriteExpr (scope : Option SelectScope) (allow : Bool)
    (expr : BoundExpr) :
    (rewriteUuidArrowExpr (rewriteExpr catalog enabled scope allow expr).1 enabled).2 =
      (rewriteUuidArrowExpr expr enabled).2 := by
  unfold rewriteUuidArrowExpr
  rw [rewriteExpr_dataType, isToStringCall_rewriteExpr]
  split <;> rfl

/-- A rewritten expression is the column of its field when the rewriter keeps it. -/
theorem isColumnNamed_rewriteExpr (scope : SelectScope) (details : BoundProjectionExpr) :
    isColumnNamed details.field.name
      (rewriteExpr catalog enabled (some scope) true details.expr).1 =
      keepsColumn scope details := by
  obtain ⟨⟨kind, type, nullable, node'⟩, alias_, field, node⟩ := details
  cases kind with
  | column column =>
    rw [rewriteExpr]
    cases hwrapper : columnWrapper (some scope) true column with
    | some resolved => simp [isColumnNamed, keepsColumn, wrapCall, hwrapper]
    | none => simp [isColumnNamed, keepsColumn, hwrapper]
  | function call =>
    cases call
    simp [rewriteExpr, isColumnNamed, keepsColumn]
  | _ => simp [rewriteExpr, isColumnNamed, keepsColumn]

/-- The rewriting of a projected expression states its name just when the emission says so. -/
theorem itemNamedFields_rewriteProjectionExpr (from_ from' : List BoundTableWithJoins)
    (sources : List Source) (details : BoundProjectionExpr) :
    itemNamedFields .plain from' sources (rewriteProjectionExpr details
        (rewriteExpr catalog enabled (some (scopeFromFromClause catalog from_)) true details.expr).1
          enabled) =
      itemNamedFields (clickHouseEmission catalog enabled) from_ sources (.expr details) := by
  have hwrapped := rewriteUuidArrowExpr_rewriteExpr catalog enabled
    (some (scopeFromFromClause catalog from_)) true details.expr
  have hcolumn :=
    isColumnNamed_rewriteExpr catalog enabled (scopeFromFromClause catalog from_) details
  simp only [itemNamedFields, rewriteProjectionExpr, Emission.plain, clickHouseEmission, showsName,
    ← hwrapped, ← hcolumn]
  generalize (rewriteExpr catalog enabled
    (some (scopeFromFromClause catalog from_)) true details.expr).1 = expr
  unfold rewriteUuidArrowExpr
  split
  · cases details.alias_ <;> simp
  · cases details.alias_ <;> simp [stringResultField, isColumnNamed, wrapCall]

/-- An expanded field has its own name. -/
theorem itemNamedFields_expandField (from_ : List BoundTableWithJoins) (sources : List Source)
    (name : String) (node : SyntaxNode) (field : ResultField) :
    itemNamedFields .plain from_ sources (expandField name node enabled field) =
      [⟨field.name, .named⟩] := by
  simp only [expandField]
  generalize rewriteUuidArrowExpr _ enabled = rewritten
  obtain ⟨expr, wrapped⟩ := rewritten
  cases wrapped <;> simp [itemNamedFields, Emission.plain, showsName, stringResultField]

/-- The fields of a rewritten projection are those of the projection, with its wildcards
expanded. -/
theorem itemNamedFields_rewriteProjections (from_ from' : List BoundTableWithJoins)
    (sources : List Source) (items : List BoundProjectionItem) :
    (rewriteProjections catalog enabled (scopeFromFromClause catalog from_) items).1.flatMap
        (itemNamedFields .plain from' sources) =
      items.flatMap (itemNamedFields (clickHouseEmission catalog enabled) from_ sources) := by
  refine flatMap_rewriteProjections catalog enabled _ (fun item => ?_) items
  cases item with
  | expr details =>
    rw [← itemNamedFields_rewriteProjectionExpr catalog enabled from_ from']
    cases details
    simp [rewriteProjections]
  -- The expanded wildcard gives its fields one by one, each under its own name.
  | wildcard qualifier fields node =>
    simp only [rewriteProjections, List.append_nil, expandWildcardProjection]
    cases hname : (scopeFromFromClause catalog from_).targetBindingName qualifier with
    | none =>
      simp [itemNamedFields, clickHouseEmission, expansion, hname, Emission.plain, Expansion.never]
    | some name =>
      simp only [Option.bind_eq_bind, Option.bind_some, Option.pure_def, Option.getD_some,
        List.flatMap_map, itemNamedFields_expandField]
      simp only [itemNamedFields, clickHouseEmission, expansion, hname, Option.isSome_some, if_true,
        withOrigins_nil, List.map_map]
      exact List.flatMap_pure_eq_map _ fields
  | unsupported description node => simp [rewriteProjections, itemNamedFields]

mutual

/-- The fields of a rewritten query are those that are emitted. -/
theorem queryFields_rewriteQueryPlan : ∀ query : BoundQueryPlan,
    queryFields .plain (rewriteQueryPlan catalog enabled query).1 =
      queryFields (clickHouseEmission catalog enabled) query
  | ⟨_, ctes, body, _, _, _, _, _⟩ => by
    simp only [rewriteQueryPlan, queryFields, ctesFields_rewriteCtes ctes,
      setExprFields_rewriteSetExpr _ body]
termination_by structural x => x

/-- The fields of rewritten CTEs are those that are emitted. -/
theorem ctesFields_rewriteCtes : ∀ ctes : List BoundCte,
    ctesFields .plain (rewriteCtes catalog enabled ctes).1 =
      ctesFields (clickHouseEmission catalog enabled) ctes
  | [] => by simp [rewriteCtes, ctesFields]
  | ⟨_, _, query, _, _⟩ :: ctes => by
    simp only [rewriteCtes, ctesFields, queryFields_rewriteQueryPlan query,
      ctesFields_rewriteCtes ctes]
termination_by structural x => x

/-- The fields of a rewritten body are those that are emitted. -/
theorem setExprFields_rewriteSetExpr (ctes : CteFields) : ∀ body : BoundSetExpr,
    setExprFields .plain ctes (rewriteSetExpr catalog enabled body).1 =
      setExprFields (clickHouseEmission catalog enabled) ctes body
  | .select ⟨_, projection, from_, _, _, _, _, _⟩ => by
    simp only [rewriteSetExpr, rewriteSelect, setExprFields, scopeFromFromClause_rewriteTables,
      itemNamedFields_rewriteProjections, tablesSources_rewriteTables ctes from_]
  | .unionAll left _ _ _ => by
    simp only [rewriteSetExpr, setExprFields, setExprFields_rewriteSetExpr ctes left]
  | .unsupported .. => by simp only [rewriteSetExpr, setExprFields]
termination_by structural x => x

/-- The sources of a rewritten `FROM` clause are those that are emitted. -/
theorem tablesSources_rewriteTables (ctes : CteFields) : ∀ tables : List BoundTableWithJoins,
    tablesSources .plain ctes (rewriteTables catalog enabled tables).1 =
      tablesSources (clickHouseEmission catalog enabled) ctes tables
  | [] => by simp only [rewriteTables, tablesSources]
  | ⟨relation, joins, _⟩ :: tables => by
    simp only [rewriteTables, rewriteTableWithJoins, tablesSources,
      relationSources_rewriteRelation ctes relation, joinSources_rewriteJoins ctes joins,
      tablesSources_rewriteTables ctes tables]
termination_by structural x => x

/-- The sources of rewritten joins are those that are emitted. -/
theorem joinSources_rewriteJoins (ctes : CteFields) : ∀ joins : List BoundJoin,
    joinSources .plain ctes (rewriteJoins catalog enabled joins).1 =
      joinSources (clickHouseEmission catalog enabled) ctes joins
  | [] => by simp only [rewriteJoins, joinSources]
  | ⟨_, relation, _, _⟩ :: joins => by
    simp only [rewriteJoins, joinSources, relationSources_rewriteRelation ctes relation,
      joinSources_rewriteJoins ctes joins]
termination_by structural x => x

/-- The sources of a rewritten relation are those that are emitted. -/
theorem relationSources_rewriteRelation (ctes : CteFields) : ∀ relation : BoundRelation,
    relationSources .plain ctes (rewriteRelation catalog enabled relation).1 =
      relationSources (clickHouseEmission catalog enabled) ctes relation
  | .table .. => by simp only [rewriteRelation, relationSources]
  | .derived _ query _ => by
    simp only [rewriteRelation, relationSources, queryFields_rewriteQueryPlan query]
  | .nestedJoin _ ⟨relation, joins, _⟩ _ => by
    simp only [rewriteRelation, rewriteTableWithJoins, relationSources,
      relationSources_rewriteRelation ctes relation, joinSources_rewriteJoins ctes joins]
  | .unsupported .. => by simp only [rewriteRelation, relationSources]
termination_by structural x => x

end

/-- A rewritten expression keeps its columns. -/
theorem exprColumns_rewriteExpr (scope : Option SelectScope) (allow : Bool) (expr : BoundExpr) :
    exprColumns (rewriteExpr catalog enabled scope allow expr).1 = exprColumns expr := by
  rw [exprColumns, exprUses_rewriteExpr, List.filterMap_map, exprColumns]
  congr 1
  funext use
  cases use <;> rfl

/-- The text conversion keeps the columns. -/
theorem exprColumns_rewriteUuidArrowExpr (expr : BoundExpr) :
    exprColumns (rewriteUuidArrowExpr expr enabled).1 = exprColumns expr := by
  rw [exprColumns, exprUses_rewriteUuidArrowExpr, exprColumns]

/-- A rewritten optional expression keeps its columns. -/
theorem exprColumns_rewriteExprOption (scope : Option SelectScope) (allow : Bool)
    (expr : Option BoundExpr) :
    (rewriteExprOption catalog enabled scope allow expr).1.toList.flatMap exprColumns =
      expr.toList.flatMap exprColumns := by
  cases expr <;> simp [rewriteExprOption, exprColumns_rewriteExpr]

/-- A rewritten `GROUP BY` keeps its columns. -/
theorem exprColumns_rewriteGroupBy (scope : Option SelectScope) (allow : Bool)
    (exprs : List BoundExpr) :
    ((rewriteExprs catalog enabled scope allow exprs).1.map fun x =>
      (rewriteUuidArrowExpr x enabled).1).flatMap exprColumns = exprs.flatMap exprColumns := by
  induction exprs with
  | nil => simp [rewriteExprs]
  | cons x exprs ih =>
    simp [rewriteExprs, exprColumns_rewriteExpr, exprColumns_rewriteUuidArrowExpr, ih]

/-- A rewritten `ORDER BY` keeps its columns. -/
theorem exprColumns_rewriteOrderBys (scope : Option SelectScope) (orders : List BoundOrderByExpr) :
    ((rewriteOrderBys catalog enabled scope orders).1.map BoundOrderByExpr.expr).flatMap
      exprColumns = (orders.map BoundOrderByExpr.expr).flatMap exprColumns := by
  induction orders with
  | nil => simp [rewriteOrderBys]
  | cons o orders ih =>
    cases o
    simp only [rewriteOrderBys, rewriteOrderByExpr, List.map_cons, List.flatMap_cons, ih,
      exprColumns_rewriteExpr]

/-- The columns of a rewritten projection are those of the projection, with its wildcards
expanded. -/
theorem itemColumns_rewriteProjections (from_ from' : List BoundTableWithJoins)
    (items : List BoundProjectionItem) :
    (rewriteProjections catalog enabled (scopeFromFromClause catalog from_) items).1.flatMap
        (itemColumns .plain from') =
      items.flatMap (itemColumns (clickHouseEmission catalog enabled) from_) := by
  refine flatMap_rewriteProjections catalog enabled _ (fun item => ?_) items
  cases item with
  | expr details =>
    cases details
    simp [rewriteProjections, rewriteProjectionExpr, itemColumns, exprColumns_rewriteUuidArrowExpr,
      exprColumns_rewriteExpr]
  | wildcard qualifier fields node =>
    simp only [rewriteProjections, List.append_nil, expandWildcardProjection]
    cases hname : (scopeFromFromClause catalog from_).targetBindingName qualifier with
    | none =>
      simp [itemColumns, clickHouseEmission, expansion, hname, Emission.plain, Expansion.never]
    | some name =>
      -- An expanded field is the column of its own name.
      have hfield (field : ResultField) :
          itemColumns .plain from' (expandField name node enabled field) =
              [⟨some name, field.name⟩] := by
        simp only [expandField, itemColumns, exprColumns_rewriteUuidArrowExpr]
        simp [exprColumns, exprUses]
      simp only [Option.bind_eq_bind, Option.bind_some, Option.pure_def, Option.getD_some,
        List.flatMap_map, hfield]
      simp only [itemColumns, clickHouseEmission, expansion, hname]
      exact List.flatMap_pure_eq_map _ fields
  | unsupported description node => simp [rewriteProjections, itemColumns]

mutual

/-- The columns of a rewritten relation are those that are emitted. -/
theorem relationColumns_rewriteRelation (ctes : CteFields) (before : List Source) :
    ∀ r : BoundRelation,
    relationColumns .plain ctes before (rewriteRelation catalog enabled r).1 =
      relationColumns (clickHouseEmission catalog enabled) ctes before r
  | .table .. => by simp only [rewriteRelation, relationColumns]
  | .derived .. => by simp only [rewriteRelation, relationColumns]
  | .nestedJoin _ ⟨relation, joins, _⟩ _ => by
    simp only [rewriteRelation, rewriteTableWithJoins, relationColumns,
      relationSources_rewriteRelation, relationColumns_rewriteRelation ctes _ relation,
      joinColumns_rewriteJoins ctes _ joins]
  | .unsupported .. => by simp only [rewriteRelation, relationColumns]
termination_by structural r => r

/-- The columns of rewritten joins are those that are emitted. -/
theorem joinColumns_rewriteJoins (ctes : CteFields) (before : List Source) :
    ∀ joins : List BoundJoin,
    joinColumns .plain ctes before (rewriteJoins catalog enabled joins).1 =
      joinColumns (clickHouseEmission catalog enabled) ctes before joins
  | [] => by simp only [rewriteJoins, joinColumns]
  | ⟨_, relation, on, _⟩ :: joins => by
    simp only [rewriteJoins, joinColumns, relationSources_rewriteRelation,
      relationColumns_rewriteRelation ctes _ relation, exprColumns_rewriteExprOption,
      joinColumns_rewriteJoins ctes _ joins]
termination_by structural joins => joins

end

/-- The columns of a rewritten `FROM` clause are those that are emitted. -/
theorem tablesColumns_rewriteTables (ctes : CteFields) (tables : List BoundTableWithJoins) :
    ∀ before : List Source,
    tablesColumns .plain ctes before (rewriteTables catalog enabled tables).1 =
      tablesColumns (clickHouseEmission catalog enabled) ctes before tables := by
  induction tables with
  | nil => intro before; simp only [rewriteTables, tablesColumns]
  | cons table tables ih =>
    intro before
    cases table
    simp only [rewriteTables, rewriteTableWithJoins, tablesColumns, relationSources_rewriteRelation,
      joinSources_rewriteJoins, relationColumns_rewriteRelation, joinColumns_rewriteJoins, ih]

/-- The columns of a rewritten body are those that are emitted. -/
theorem setExprColumns_rewriteSetExpr (ctes : CteFields) : ∀ body : BoundSetExpr,
    setExprColumns .plain ctes (rewriteSetExpr catalog enabled body).1 =
      setExprColumns (clickHouseEmission catalog enabled) ctes body
  | .select ⟨_, projection, from_, selection, groupBy, having, _, _⟩ => by
    simp only [rewriteSetExpr, rewriteSelect, setExprColumns, selectColumns,
      tablesColumns_rewriteTables, tablesSources_rewriteTables, scopeFromFromClause_rewriteTables,
      itemColumns_rewriteProjections, List.flatMap_append, exprColumns_rewriteExprOption,
      exprColumns_rewriteGroupBy]
  | .unionAll left right _ _ => by
    simp only [rewriteSetExpr, setExprColumns, setExprColumns_rewriteSetExpr ctes left,
      setExprColumns_rewriteSetExpr ctes right]
  | .unsupported .. => by simp only [rewriteSetExpr, setExprColumns]

/-- The columns of a rewritten query are those of the query, as the emission has them. -/
theorem queryColumns_rewritten (query : BoundQueryPlan) :
    queryColumns .plain (rewritten catalog enabled query) =
      queryColumns (clickHouseEmission catalog enabled) query := by
  cases query
  simp only [queryColumns, rewritten, rewriteQueryPlan, outputExprs, ctesFields_rewriteCtes,
    setExprColumns_rewriteSetExpr, setExprFields_rewriteSetExpr, List.flatMap_append,
    exprColumns_rewriteOrderBys, exprColumns_rewriteExprOption]

end Rewrite

/-- What is said of the columns of the emitted queries can be said of the bound ones. -/
theorem allWithin_columns_iff {catalog : Catalog} {backend : SqlBackend} {plan : BoundQueryPlan}
    {P : List ColumnUse → Prop} :
    AllWithin (fun q => P (queryColumns .plain q)) (emittedPlan catalog backend plan) ↔
      AllWithin (fun q => P (queryColumns (emissionOf catalog backend) q)) plan := by
  cases backend with
  | postgres => exact Iff.rfl
  | clickHouse =>
    simp only [emittedPlan, allWithin_rewritten_iff, queryColumns_rewritten, emissionOf]

end QueryFabric.Render
