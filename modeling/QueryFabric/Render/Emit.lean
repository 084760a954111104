import QueryFabric.Render.Helpers

/-!
# The SQL renderer

`SqlRenderer` of `crates/queryfabric-catalog/src/render/emit.rs`, and `emit_sql_artifact` over it.
Each function returns the pieces it writes, or the first error it meets. A list of children is
rendered by a function of its own, element by element.
-/

namespace QueryFabric.Render

/-- The renderer: the backend, the catalog that maps functions, and the ordered parameters. -/
structure SqlRenderer where
  backend : SqlBackend
  catalog : Catalog
  parameterOrder : List ParameterSchema

/-- The strict order of parameter references. -/
def parameterLt (a b : ParameterRef) : Bool := !ParameterRef.le b a

namespace SqlRenderer

/-- `parameter_positions`: the position of each parameter, from one. -/
def parameterPositions (r : SqlRenderer) : List (ParameterRef × Nat) :=
  r.parameterOrder.zipIdx.foldl
    (fun positions p => mapInsert parameterLt p.1.reference (p.2 + 1) positions) []

/-- `parameter_schema`. -/
def parameterSchema (r : SqlRenderer) (reference : ParameterRef) :
    Except QueryFabricError ParameterSchema :=
  match r.parameterOrder.find? fun schema => schema.reference == reference with
  | some schema => .ok schema
  | none => .error (unsupported "render" ("unknown parameter `" ++ reference.display ++ "`"))

/-- `render_parameter`. -/
def renderParameter (r : SqlRenderer) (reference : ParameterRef) :
    Except QueryFabricError Pieces := do
  let schema ← r.parameterSchema reference
  match r.parameterPositions.lookup reference with
  | none => .error (unsupported "render" ("unknown parameter `" ++ reference.display ++ "`"))
  | some position =>
    match r.backend with
    | .postgres => return ["$" ++ toString position]
    | .clickHouse =>
      return ["\x7bp" ++ toString position ++ ":" ++
        (← backendTypeName r.backend schema.dataType) ++ "\x7d"]

/-- The parameter of an `IN` list that is one list-typed parameter. -/
def listParameter (r : SqlRenderer) : List BoundExpr → Except QueryFabricError (Option ParameterRef)
  | [⟨.parameter reference, _, _, _⟩] => do
    let schema ← r.parameterSchema reference
    return if schema.dataType.isList then some reference else none
  | _ => return none

/-- The function name that a call is rendered with: the backend mapping of its signature. -/
def mappedFunction (r : SqlRenderer) (function : FunctionRef) :
    Except QueryFabricError FunctionRef :=
  match r.catalog.resolveFunction function.namespace_ function.name with
  | none => .error (unsupported "render" ("unknown function `" ++ function.displayName ++ "`"))
  | some signature =>
    match signature.backendMapping r.backend.name with
    | none => .error (unsupported "render"
        ("function `" ++ function.displayName ++ "` has no backend mapping"))
    | some mapped => .ok mapped

/-- The relation of a table binding, with its alias when the two names differ. -/
def renderTable (r : SqlRenderer) (binding : BoundRelationBinding) :
    Except QueryFabricError Pieces := do
  match binding.relationName with
  | none => return [← renderIdentifier r.backend binding.bindingName]
  | some name =>
    let sql ← renderNameRef r.backend name
    if !eqIgnoreAsciiCase name.name binding.bindingName then
      return sql ++ [" AS ", ← renderIdentifier r.backend binding.bindingName]
    else return sql

/-- The backend clauses that the backend understands. -/
def renderBackendClause (r : SqlRenderer) : BackendClause → Pieces
  | .clickHouseSettings text _ =>
    if r.backend = .clickHouse then [" SETTINGS ", text] else []
  | .clickHouseFormat text _ => if r.backend = .clickHouse then [" ", text] else []

end SqlRenderer

/-- `NOT ` where a construct is negated. -/
def negation (negated : Bool) : Pieces := if negated then ["NOT "] else []

/-- The keyword of a join. -/
def joinKeyword : JoinKind → String
  | .inner => "INNER JOIN "
  | .left => "LEFT JOIN "
  | .right => "RIGHT JOIN "
  | .full => "FULL JOIN "
  | .cross => "CROSS JOIN "

/-- The prefix that a unary operator is written as. -/
def unaryPrefix : UnaryOperator → String
  | .plus => "+"
  | .minus => "-"
  | .not => "NOT "

/-- ` ASC` and ` NULLS FIRST` and their opposites. -/
def orderSuffix (asc nullsFirst : Option Bool) : Pieces :=
  (match asc with
    | none => []
    | some asc => [if asc then " ASC" else " DESC"]) ++
  (match nullsFirst with
    | none => []
    | some nullsFirst => [if nullsFirst then " NULLS FIRST" else " NULLS LAST"])

/-- A clause with a keyword before its parts, or nothing when there are none. -/
def clause (keyword : String) (parts : List Pieces) : Pieces :=
  if parts.isEmpty then [] else keyword :: Pieces.join ", " parts

/-- A clause with a keyword before its one part, or nothing when it is absent. -/
def optionClause (keyword : String) : Option Pieces → Pieces
  | none => []
  | some part => keyword :: part

/-- A `FILTER` clause, or nothing when there is no filter. -/
def filterClause : Option Pieces → Pieces
  | none => []
  | some filter => [" FILTER (WHERE "] ++ filter ++ [")"]

/-- The column list of a CTE. -/
def renderCteColumns (r : SqlRenderer) (columns : List String) : Except QueryFabricError Pieces :=
  if columns.isEmpty then return []
  else do
    let rendered ← columns.mapM (renderIdentifier r.backend)
    return [" ("] ++ rendered.intersperse ", " ++ [")"]

/-- The qualifier of a wildcard, or the wildcard alone. -/
def renderWildcard (r : SqlRenderer) : Option String → Except QueryFabricError Pieces
  | some qualifier => do return (← renderQualifiedName r.backend qualifier) ++ [".", "*"]
  | none => return ["*"]

/-- An alias after `AS`, or nothing. -/
def renderAlias (r : SqlRenderer) : Option String → Except QueryFabricError Pieces
  | some alias_ => do return [" AS ", ← renderIdentifier r.backend alias_]
  | none => return []

/-- A column reference. -/
def renderColumn (r : SqlRenderer) (column : BoundColumnRef) : Except QueryFabricError Pieces := do
  match column.relation with
  | some relation =>
    let qualifier ← renderQualifiedName r.backend relation
    return qualifier ++ [".", ← renderIdentifier r.backend column.name]
  | none => return [← renderIdentifier r.backend column.name]

mutual

/-- `render_query_inner`. -/
def renderQueryInner (r : SqlRenderer) : BoundQueryPlan → Except QueryFabricError Pieces
  | ⟨_, ctes, body, orderBy, limit, offset, backendClauses, _⟩ => do
    let ctes ← renderCtes r ctes
    let body ← renderSetExpr r body
    let orderBy ← renderOrderBys r orderBy
    let limit ← renderExprOption r limit
    let offset ← renderExprOption r offset
    return (if ctes.isEmpty then [] else clause "WITH " ctes ++ [" "]) ++ body ++
      clause " ORDER BY " orderBy ++ optionClause " LIMIT " limit ++
      optionClause " OFFSET " offset ++ backendClauses.flatMap r.renderBackendClause

/-- The loop over CTEs. -/
def renderCtes (r : SqlRenderer) : List BoundCte → Except QueryFabricError (List Pieces)
  | [] => return []
  | ⟨name, columns, query, _, _⟩ :: ctes => do
    let name ← renderIdentifier r.backend name
    let columns ← renderCteColumns r columns
    let query ← renderQueryInner r query
    let rest ← renderCtes r ctes
    return ([name] ++ columns ++ [" AS ("] ++ query ++ [")"]) :: rest

/-- `render_set_expr`. -/
def renderSetExpr (r : SqlRenderer) : BoundSetExpr → Except QueryFabricError Pieces
  | .select s => renderSelect r s
  | .unionAll left right _ _ => do
    let left ← wrapSetExpr r left
    let right ← wrapSetExpr r right
    return left ++ [" UNION ALL "] ++ right
  | .unsupported description _ _ =>
    .error (unsupported "render" ("cannot render unsupported set expression: " ++ description))

/-- `wrap_set_expr`. -/
def wrapSetExpr (r : SqlRenderer) : BoundSetExpr → Except QueryFabricError Pieces
  | .select s => renderSelect r s
  | .unionAll left right _ _ => do
    let left ← wrapSetExpr r left
    let right ← wrapSetExpr r right
    return ["("] ++ (left ++ [" UNION ALL "] ++ right) ++ [")"]
  | .unsupported description _ _ =>
    .error (unsupported "render" ("cannot render unsupported set expression: " ++ description))

/-- `render_select`. -/
def renderSelect (r : SqlRenderer) : BoundSelect → Except QueryFabricError Pieces
  | ⟨distinct, projection, from_, selection, groupBy, having, _, _⟩ => do
    let projection ← renderProjections r projection
    let from_ ← renderTables r from_
    let selection ← renderExprOption r selection
    let groupBy ← renderExprs r groupBy
    let having ← renderExprOption r having
    return ["SELECT "] ++ (if distinct then ["DISTINCT "] else []) ++
      Pieces.join ", " projection ++ clause " FROM " from_ ++ optionClause " WHERE " selection ++
      clause " GROUP BY " groupBy ++ optionClause " HAVING " having

/-- The loop over a projection. -/
def renderProjections (r : SqlRenderer) :
    List BoundProjectionItem → Except QueryFabricError (List Pieces)
  | [] => return []
  | item :: items => do
    let item ← renderProjection r item
    let rest ← renderProjections r items
    return item :: rest

/-- `render_projection`. -/
def renderProjection (r : SqlRenderer) : BoundProjectionItem → Except QueryFabricError Pieces
  | .wildcard qualifier _ _ => renderWildcard r qualifier
  | .expr ⟨expr, alias_, _, _⟩ => do
    let rendered ← renderExpr r expr
    return rendered ++ (← renderAlias r alias_)
  | .unsupported description _ =>
    .error (unsupported "render" ("cannot render unsupported projection: " ++ description))

/-- The loop over a `FROM` clause. -/
def renderTables (r : SqlRenderer) :
    List BoundTableWithJoins → Except QueryFabricError (List Pieces)
  | [] => return []
  | table :: tables => do
    let table ← renderTableWithJoins r table
    let rest ← renderTables r tables
    return table :: rest

/-- `render_table_with_joins`. -/
def renderTableWithJoins (r : SqlRenderer) : BoundTableWithJoins → Except QueryFabricError Pieces
  | ⟨relation, joins, _⟩ => do
    let sql ← renderRelation r relation
    let joins ← renderJoins r joins
    return sql ++ joins

/-- The loop over the joins of a table. -/
def renderJoins (r : SqlRenderer) : List BoundJoin → Except QueryFabricError Pieces
  | [] => return []
  | ⟨kind, relation, on, _⟩ :: joins => do
    let relation ← renderRelation r relation
    let on ← renderExprOption r on
    let rest ← renderJoins r joins
    return [" ", joinKeyword kind] ++ relation ++ optionClause " ON " on ++ rest

/-- `render_relation`. -/
def renderRelation (r : SqlRenderer) : BoundRelation → Except QueryFabricError Pieces
  | .table binding _ => r.renderTable binding
  | .derived binding query _ => do
    let query ← renderQueryInner r query
    return ["("] ++ query ++ [")", " AS ", ← renderIdentifier r.backend binding.bindingName]
  | .nestedJoin binding tableWithJoins _ => do
    let table ← renderTableWithJoins r tableWithJoins
    return ["("] ++ table ++ [")", " AS ", ← renderIdentifier r.backend binding.bindingName]
  | .unsupported description _ _ =>
    .error (unsupported "render" ("cannot render unsupported relation: " ++ description))

/-- `render_order_by`. -/
def renderOrderBy (r : SqlRenderer) : BoundOrderByExpr → Except QueryFabricError Pieces
  | ⟨expr, asc, nullsFirst, _⟩ => do
    let sql ← renderExpr r expr
    return sql ++ orderSuffix asc nullsFirst

/-- The loop over sort keys. -/
def renderOrderBys (r : SqlRenderer) :
    List BoundOrderByExpr → Except QueryFabricError (List Pieces)
  | [] => return []
  | order :: orders => do
    let order ← renderOrderBy r order
    let rest ← renderOrderBys r orders
    return order :: rest

/-- `render_expr`. -/
def renderExpr (r : SqlRenderer) : BoundExpr → Except QueryFabricError Pieces
  | ⟨.column column, _, _, _⟩ => renderColumn r column
  | ⟨.literal value, _, _, _⟩ => return [renderLiteral value]
  | ⟨.parameter reference, _, _, _⟩ => r.renderParameter reference
  | ⟨.unary op expr, _, _, _⟩ => do
    let expr ← renderExpr r expr
    return [unaryPrefix op] ++ expr
  -- Every binary operation is written in parentheses, whatever its precedence.
  | ⟨.binary op left right, _, _, _⟩ => do
    let left ← renderExpr r left
    let right ← renderExpr r right
    return ["("] ++ left ++ [" ", renderBinaryOperator op, " "] ++ right ++ [")"]
  | ⟨.function call, _, _, _⟩ => renderFunction r call
  | ⟨.case operand whenThen elseResult, _, _, _⟩ => do
    let operand ← renderExprOption r operand
    let whenThen ← renderWhenThens r whenThen
    let elseResult ← renderExprOption r elseResult
    return ["CASE"] ++ optionClause " " operand ++ whenThen ++ optionClause " ELSE " elseResult ++
      [" END"]
  | ⟨.cast expr dataType, _, _, _⟩ => do
    let expr ← renderExpr r expr
    return ["CAST("] ++ expr ++ [" AS ", ← backendTypeName r.backend dataType, ")"]
  | ⟨.between expr low high negated, _, _, _⟩ => do
    let expr ← renderExpr r expr
    let low ← renderExpr r low
    let high ← renderExpr r high
    return expr ++ [" "] ++ negation negated ++ ["BETWEEN "] ++ low ++ [" AND "] ++ high
  | ⟨.inList expr list negated, _, _, _⟩ => do
    -- A list that is a single parameter is bound as an array.
    match ← r.listParameter list with
    | some reference =>
      let expr ← renderExpr r expr
      let parameter ← r.renderParameter reference
      match r.backend with
      | .postgres =>
        return expr ++ [" ", if negated then "<> ALL" else "= ANY", "("] ++ parameter ++ [")"]
      | .clickHouse => return expr ++ [" "] ++ negation negated ++ ["IN "] ++ parameter
    | none =>
      let expr ← renderExpr r expr
      let list ← renderExprs r list
      return expr ++ [" "] ++ negation negated ++ ["IN ("] ++ Pieces.join ", " list ++ [")"]
  -- A subquery is rendered without `EXPLAIN`.
  | ⟨.inSubquery expr subquery negated, _, _, _⟩ => do
    let expr ← renderExpr r expr
    let subquery ← renderQueryInner r subquery
    return expr ++ [" "] ++ negation negated ++ ["IN ("] ++ subquery ++ [")"]
  | ⟨.scalarSubquery subquery, _, _, _⟩ => do
    let subquery ← renderQueryInner r subquery
    return ["("] ++ subquery ++ [")"]
  | ⟨.exists subquery, _, _, _⟩ => do
    let subquery ← renderQueryInner r subquery
    return ["EXISTS ("] ++ subquery ++ [")"]
  | ⟨.like expr pattern negated caseInsensitive, _, _, _⟩ => do
    let expr ← renderExpr r expr
    let pattern ← renderExpr r pattern
    return expr ++ [" "] ++ negation negated ++
      [if caseInsensitive then "ILIKE" else "LIKE", " "] ++ pattern
  | ⟨.isNull expr negated, _, _, _⟩ => do
    let expr ← renderExpr r expr
    return expr ++ [" IS "] ++ negation negated ++ ["NULL"]
  | ⟨.tuple items, _, _, _⟩ => do
    let items ← renderExprs r items
    return ["("] ++ Pieces.join ", " items ++ [")"]
  | ⟨.array items, _, _, _⟩ => do
    let items ← renderExprs r items
    return [match r.backend with | .clickHouse => "[" | .postgres => "ARRAY["] ++
      Pieces.join ", " items ++ ["]"]
  | ⟨.unsupported description, _, _, _⟩ =>
    .error (unsupported "render" ("cannot render unsupported expression: " ++ description))

/-- The loop over a list of expressions. -/
def renderExprs (r : SqlRenderer) : List BoundExpr → Except QueryFabricError (List Pieces)
  | [] => return []
  | expr :: exprs => do
    let expr ← renderExpr r expr
    let rest ← renderExprs r exprs
    return expr :: rest

/-- An expression, if there is one. -/
def renderExprOption (r : SqlRenderer) :
    Option BoundExpr → Except QueryFabricError (Option Pieces)
  | none => return none
  | some expr => do return some (← renderExpr r expr)

/-- The `WHEN ... THEN ...` pairs of a `CASE`. -/
def renderWhenThens (r : SqlRenderer) : List BoundWhenThen → Except QueryFabricError Pieces
  | [] => return []
  | ⟨condition, result⟩ :: pairs => do
    let condition ← renderExpr r condition
    let result ← renderExpr r result
    let rest ← renderWhenThens r pairs
    return [" WHEN "] ++ condition ++ [" THEN "] ++ result ++ rest

/-- `render_function`. -/
def renderFunction (r : SqlRenderer) : BoundFunctionCall → Except QueryFabricError Pieces
  | ⟨function, _, args, distinct, filter, over_, _⟩ => do
    let mapped ← r.mappedFunction function
    let renderedArgs ← renderExprs r args
    let argsSql := if eqIgnoreAsciiCase function.name "count" && args.isEmpty then ["*"]
      else Pieces.join ", " renderedArgs
    let name ← renderFunctionRef r.backend mapped
    let filter ← renderExprOption r filter
    let over_ ← renderWindow r over_
    return name ++ ["("] ++ (if distinct then ["DISTINCT "] else []) ++ argsSql ++ [")"] ++
      filterClause filter ++ over_

/-- The `OVER` clause of a call. -/
def renderWindow (r : SqlRenderer) : Option BoundWindowSpec → Except QueryFabricError Pieces
  | none => return []
  | some ⟨partitionBy, orderBy, _⟩ => do
    let partitionBy ← renderExprs r partitionBy
    let orderBy ← renderOrderBys r orderBy
    let parts := (if partitionBy.isEmpty then [] else [clause "PARTITION BY " partitionBy]) ++
      (if orderBy.isEmpty then [] else [clause "ORDER BY " orderBy])
    return [" OVER ("] ++ Pieces.join " " parts ++ [")"]

end

/-- `render_query`. -/
def renderQuery (r : SqlRenderer) (query : BoundQueryPlan) (explain : Bool) :
    Except QueryFabricError Pieces := do
  return (if explain then ["EXPLAIN "] else []) ++ (← renderQueryInner r query)

/-- `emit_sql_artifact`. -/
def emitSqlArtifact (query : BoundQuery) (catalog : Catalog) (backend : SqlBackend) :
    Except QueryFabricError SqlArtifact := do
  let parameters := orderedParameters query
  let renderer : SqlRenderer := { backend, catalog, parameterOrder := parameters }
  let text ← renderQuery renderer query.plan query.parsed.explain
  return { dialect := backend.name, text := text.text, parameters,
           resultSchema := query.resultSchema, metadata := [] }

end QueryFabric.Render
