import QueryFabric.Bind.Binder
import QueryFabric.Catalog.Features

/-!
# Binding

The mutually recursive functions of `bind/query.rs`, `bind/exprs.rs` and `bind/functions.rs` that
turn a syntax tree into a bound plan. The order of the recursive calls is the code's: it is the
order of the diagnostics, of the automatic parameter positions and of the resolved names.

A nested query is bound by `bindQuery`, which starts from an empty set of CTEs.
-/

namespace QueryFabric.Bind

/-- The accumulators of the loop over the joins of a table. -/
structure JoinState where
  relation : BoundRelation
  joinScope : Scope
  joins : List BoundJoin

/-- What a join does to the nullability of what was bound before it, and of the joined relation. -/
def JoinState.addJoin (state : JoinState) (kind : JoinKind) (joined : BoundRelation)
    (on : Option BoundExpr) (node : SyntaxNode) : JoinState :=
  let joined := match kind with
    | .left | .full => makeRelationNullable joined
    | _ => joined
  let state : JoinState := match kind with
    | .right | .full =>
      { relation := makeRelationNullable state.relation
        joinScope := state.joinScope.makeAllNullable
        joins := makeJoinRelationsNullable state.joins }
    | _ => state
  { state with
    joinScope := state.joinScope.pushRelation joined
    joins := state.joins ++ [{ kind, relation := joined, on, node }] }

/-- The error about `WITH RECURSIVE`. -/
def rejectRecursive (withRecursive : Bool) (node : SyntaxNode) : BindM Unit :=
  if withRecursive then
    pushError "QF0001" "WITH RECURSIVE is outside the verified QueryFabric portable subset." node
      (some "Rewrite the query using a non-recursive CTE or a host-side expansion.")
  else return

/-- A parameter that `IS NULL` tests is allocated and recorded before it is bound, where it is
allocated and recorded once more. -/
def recordNullTest : SyntaxExpr → BindM Unit
  | ⟨.parameter reference, node⟩ => do
    let reference ← allocateParameter reference
    recordParameterUse reference { dataType := none, nullable := .nullable } node
  | _ => return

/-- The warning about functions that are not portable. -/
def warnBackendSpecific (signature : FunctionSignature) (function : FunctionRef)
    (node : SyntaxNode) : BindM Unit :=
  if signature.metadataFlag "approximate" || function.namespace_.isSome then
    pushWarning "QF0104" ("Function `" ++ function.displayName ++
      "` is backend-specific and outside the verified portable subset.") node
      (some "Rely on adapter-specific capability checks before executing this query.")
  else return

/-- The warnings about backend clauses. -/
def warnBackendClauses : List BackendClause → BindM Unit
  | [] => return
  | .clickHouseSettings _ node :: clauses => do
    pushWarning "QF0101" "ClickHouse SETTINGS are preserved only for backend-specific adapters."
      node (some "Do not rely on SETTINGS for portable execution.")
    warnBackendClauses clauses
  | .clickHouseFormat _ node :: clauses => do
    pushWarning "QF0102" "ClickHouse FORMAT is preserved only for backend-specific adapters." node
      (some "Prefer result consumers to choose the output format outside QueryFabric core.")
    warnBackendClauses clauses

/-- The fields of a wildcard. -/
def bindWildcard (scope : Scope) (qualifier : Option String) (node : SyntaxNode) :
    BindM (List ResultField) :=
  match qualifier with
  | none => return scope.expandAll
  | some name =>
    match scope.expandQualified name with
    | some fields => return fields
    | none => do
      pushError "QF0007"
        ("Unknown relation qualifier `" ++ name ++ "` in wildcard projection.") node
        (some "Use an in-scope relation alias or remove the qualifier.")
      return []

/-- A column reference. -/
def bindColumn (context : BinderContext) (scope : Scope) (outer : Option Scope) (expr : SyntaxExpr)
    (relation : Option String) (name : String) : BindM BoundExpr :=
  match scope.resolveColumn relation name with
  | .local column =>
    return { kind := .column { relation := column.relation, name }
             dataType := column.field.dataType, nullable := column.field.nullable
             node := expr.node }
  | .ambiguous => unsupportedExpr expr "QF0016" ("Ambiguous column reference `" ++ name ++ "`.")
      (some "Qualify the column with a relation alias.")
  | .missing =>
    if outer.any fun scope => scope.resolveColumn relation name != .missing then
      unsupportedExpr expr "QF0014"
        "Correlated subqueries are outside the verified portable subset."
        (some "Rewrite the subquery so it depends only on its local FROM scope.")
    else unsupportedExpr expr "QF0015" ("Unknown column `" ++ name ++ "`.")
      (missingColumnRemediation context.toLowercase scope relation name)

/-- A table reference. -/
def bindTable (context : BinderContext) (ctes : CteScope) (name : NameRef) (alias_ : Option String)
    (node : SyntaxNode) : BindM BoundRelation := do
  let (resolution, binding) := resolveTable context ctes name
  logResolution name resolution
  match binding with
  | some binding =>
    return .table { binding with bindingName := alias_.getD binding.bindingName } node
  | none =>
    pushError "QF0005" ("Unknown relation `" ++ name.displayName ++ "`.") node
      (some "Register the relation in the catalog or qualify it with the correct namespace.")
    return .unsupported ("unknown relation `" ++ name.displayName ++ "`")
      (alias_.getD name.name) node

/-- What the operands of a binary operator are expected to be: the left one, and the right one given
the type of the left one. -/
def operandExpectations : BinaryOperator → ExpectedType × (DataType → ExpectedType)
  | .and | .or => (.boolean, fun _ => .boolean)
  | .add | .subtract | .multiply | .divide =>
    ({ dataType := some .float64, nullable := .nonNull },
      fun _ => { dataType := some .float64, nullable := .nonNull })
  | .eq | .notEq | .lt | .ltEq | .gt | .gtEq => ({}, .sameAs)

/-- The type of a binary expression. -/
def binaryType (op : BinaryOperator) (left right : DataType) : DataType :=
  match op with
  | .add | .subtract | .multiply | .divide => (DataType.commonType left right).getD .float64
  | _ => .boolean

/-- The list of an `IN` that is a single parameter. -/
def isSingleParameter : List SyntaxExpr → Bool
  | [⟨.parameter _, _⟩] => true
  | _ => false

mutual

/-- `bind_query`. -/
def bindQuery (context : BinderContext) (outer : Option Scope) : SyntaxQuery → BindM BoundQueryPlan
  | ⟨node, ctes, withRecursive, body, orderBy, limit, offset, backendClauses⟩ => do
    rejectRecursive withRecursive node
    let (cteScope, ctes) ← bindCtes context [] ctes
    let body ← bindSetExpr context cteScope outer body
    let outputScope := Scope.fromOutputSchema body.resultSchema
    let orderBy ← bindOrderBys context outputScope none orderBy
    let limit ← bindExprOption context outputScope none
      { dataType := some .int64, nullable := .nonNull } limit
    let offset ← bindExprOption context outputScope none
      { dataType := some .int64, nullable := .nonNull } offset
    warnBackendClauses backendClauses
    return { node, ctes, body, orderBy, limit, offset, backendClauses
             resultSchema := body.resultSchema }

/-- The CTEs of a query: the scope that they make, and their plans. -/
def bindCtes (context : BinderContext) (cteScope : CteScope) :
    List SyntaxCte → BindM (CteScope × List BoundCte)
  | [] => return (cteScope, [])
  | ⟨name, columns, query, node⟩ :: ctes => do
    let plan ← bindQuery context none query
    let resultSchema := cteSchema columns plan.resultSchema
    let binding : BoundRelationBinding :=
      { bindingName := name, relationName := some { namespace_ := none, name }
        schema := resultSchema }
    let entry : CteEntry := { definition := ⟨name, columns, query, node⟩, binding }
    let cteScope := mapInsert (fun a b => decide (a < b)) (toAsciiLowercase name) entry cteScope
    let (cteScope, rest) ← bindCtes context cteScope ctes
    return (cteScope, { name, columns, query := plan, resultSchema, node } :: rest)

/-- `bind_set_expr`. -/
def bindSetExpr (context : BinderContext) (ctes : CteScope) (outer : Option Scope) :
    SyntaxSetExpr → BindM BoundSetExpr
  | .select select => do return .select (← bindSelect context ctes outer select)
  | .unionAll left right node => do
    let left ← bindSetExpr context ctes outer left
    let right ← bindSetExpr context ctes outer right
    let schema ← unifyUnionSchema left.resultSchema right.resultSchema node
    return .unionAll left right node schema
  | .unsupported description node => do
    pushError "QF0002" description node none
    return .unsupported description node {}

/-- `bind_select`. -/
def bindSelect (context : BinderContext) (ctes : CteScope) (outer : Option Scope) :
    SyntaxSelect → BindM BoundSelect
  | ⟨distinct, projection, from_, selection, groupBy, having, node⟩ => do
    let (scope, from_) ← bindTables context ctes outer {} from_
    let selection ← bindExprOption context scope outer .boolean selection
    let groupBy ← bindExprs context scope outer {} groupBy
    let having ← bindExprOption context scope outer .boolean having
    let (projection, fields) ← bindProjections context scope outer projection
    return { distinct, projection, from_, selection, groupBy, having
             resultSchema := .new fields, node }

/-- The `FROM` list: each table is bound in the scope of those before it. -/
def bindTables (context : BinderContext) (ctes : CteScope) (outer : Option Scope) (scope : Scope) :
    List SyntaxTableWithJoins → BindM (Scope × List BoundTableWithJoins)
  | [] => return (scope, [])
  | table :: tables => do
    let table ← bindTableWithJoins context ctes outer scope table
    let (scope, rest) ← bindTables context ctes outer (scope.mergeTable table) tables
    return (scope, table :: rest)

/-- The projection, and the result fields that it makes. -/
def bindProjections (context : BinderContext) (scope : Scope) (outer : Option Scope) :
    List SyntaxProjectionItem → BindM (List BoundProjectionItem × List ResultField)
  | [] => return ([], [])
  | .wildcard qualifier node :: items => do
    let fields ← bindWildcard scope qualifier node
    let (rest, restFields) ← bindProjections context scope outer items
    return (.wildcard qualifier fields node :: rest, fields ++ restFields)
  | .expr ⟨expr, alias_, node⟩ :: items => do
    let bound ← bindExpr context scope outer {} expr
    let field : ResultField :=
      { name := alias_.getD (expressionName expr), dataType := bound.dataType
        nullable := bound.nullable, metadata := {} }
    let (rest, restFields) ← bindProjections context scope outer items
    return (.expr { expr := bound, alias_, field, node } :: rest, field :: restFields)
  | .unsupported description node :: items => do
    pushError "QF0008" description node none
    let (rest, restFields) ← bindProjections context scope outer items
    return (.unsupported description node :: rest, restFields)

/-- `bind_table_with_joins`. -/
def bindTableWithJoins (context : BinderContext) (ctes : CteScope) (outer : Option Scope)
    (current : Scope) : SyntaxTableWithJoins → BindM BoundTableWithJoins
  | ⟨relation, joins, node⟩ => do
    let relation ← bindRelation context ctes current relation
    let state ← bindJoins context ctes outer
      { relation, joinScope := current.pushRelation relation, joins := [] } joins
    return { relation := state.relation, joins := state.joins, node }

/-- The loop over the joins of a table. -/
def bindJoins (context : BinderContext) (ctes : CteScope) (outer : Option Scope)
    (state : JoinState) : List SyntaxJoin → BindM JoinState
  | [] => return state
  | ⟨kind, relation, on, node⟩ :: joins => do
    let joined ← bindRelation context ctes state.joinScope relation
    let on ← bindExprOption context (state.joinScope.pushRelation joined) outer .boolean on
    bindJoins context ctes outer (state.addJoin kind joined on node) joins

/-- `bind_relation`. -/
def bindRelation (context : BinderContext) (ctes : CteScope) (current : Scope) :
    SyntaxRelation → BindM BoundRelation
  | .table name alias_ node => bindTable context ctes name alias_ node
  | .derived query alias_ node => do
    let plan ← bindQuery context (some current) query
    return .derived { bindingName := derivedName alias_ node, relationName := none
                      schema := plan.resultSchema } plan node
  | .nestedJoin tableWithJoins alias_ node => do
    let table ← bindTableWithJoins context ctes none current tableWithJoins
    return .nestedJoin { bindingName := derivedName alias_ node, relationName := none
                         schema := scopeSchemaForTable table } table node
  | .unsupported description node => do
    pushError "QF0009" description node none
    return .unsupported description node.nodeId node

/-- `bind_order_by_expr`. -/
def bindOrderBy (context : BinderContext) (scope : Scope) (outer : Option Scope) :
    SyntaxOrderByExpr → BindM BoundOrderByExpr
  | ⟨expr, asc, nullsFirst, node⟩ => do
    return { expr := ← bindExpr context scope outer {} expr, asc, nullsFirst, node }

/-- The loop over sort keys. -/
def bindOrderBys (context : BinderContext) (scope : Scope) (outer : Option Scope) :
    List SyntaxOrderByExpr → BindM (List BoundOrderByExpr)
  | [] => return []
  | order :: orders => do
    let order ← bindOrderBy context scope outer order
    return order :: (← bindOrderBys context scope outer orders)

/-- `bind_expr`. -/
def bindExpr (context : BinderContext) (scope : Scope) (outer : Option Scope)
    (expected : ExpectedType) : SyntaxExpr → BindM BoundExpr
  | ⟨.column relation name, node⟩ =>
    bindColumn context scope outer ⟨.column relation name, node⟩ relation name
  | ⟨.literal value, node⟩ => return bindLiteral node value
  -- `?` takes the next position here, before its use is recorded.
  | ⟨.parameter reference, node⟩ => do
    let reference ← allocateParameter reference
    recordParameterUse reference expected node
    return { kind := .parameter reference, dataType := expected.dataType.getD .unknown
             nullable := expected.nullable != .nonNull, node }
  | ⟨.unary op expr, node⟩ => do
    let inner ← bindExpr context scope outer {} expr
    return { kind := .unary op inner
             dataType := if op = .not then .boolean else inner.dataType
             nullable := inner.nullable, node }
  -- The right operand is expected to have the type that the left one was bound to.
  | ⟨.binary op left right, node⟩ => do
    let left ← bindExpr context scope outer (operandExpectations op).1 left
    let right ← bindExpr context scope outer ((operandExpectations op).2 left.dataType) right
    return { kind := .binary op left right, dataType := binaryType op left.dataType right.dataType
             nullable := left.nullable || right.nullable, node }
  | ⟨.function call, node⟩ => bindFunction context scope outer node call
  | ⟨.case operand whenThen elseResult, node⟩ => do
    let operand ← bindExprOption context scope outer {} operand
    let whenThen ← bindWhenThens context scope outer whenThen
    let elseResult ← bindExprOption context scope outer {} elseResult
    return { kind := .case operand whenThen elseResult
             dataType := DataType.reduceCommon (whenThen.map (fun pair => pair.result.dataType) ++
               elseResult.toList.map BoundExpr.dataType)
             nullable := whenThen.any (fun pair => pair.result.nullable) ||
               elseResult.all BoundExpr.nullable
             node }
  | ⟨.cast expr dataType, node⟩ => do
    let inner ← bindExpr context scope outer
      { dataType := some dataType, nullable := .nullable } expr
    return { kind := .cast inner dataType, dataType, nullable := inner.nullable, node }
  | ⟨.between expr low high negated, node⟩ => do
    let input ← bindExpr context scope outer {} expr
    let low ← bindExpr context scope outer (.sameAs input.dataType) low
    let high ← bindExpr context scope outer (.sameAs input.dataType) high
    return { kind := .between input low high negated, dataType := .boolean
             nullable := input.nullable || low.nullable || high.nullable, node }
  -- A list that is a single parameter is expected to be a parameter of list type.
  | ⟨.inList expr list negated, node⟩ => do
    let input ← bindExpr context scope outer {} expr
    let expected : ExpectedType := if isSingleParameter list then
        { dataType := some (.list input.dataType), nullable := .nonNull }
      else .sameAs input.dataType
    let list ← bindExprs context scope outer expected list
    return { kind := .inList input list negated, dataType := .boolean
             nullable := input.nullable || list.any BoundExpr.nullable, node }
  -- The scope of the expression is the outer scope of its subquery.
  | ⟨.inSubquery expr subquery negated, node⟩ => do
    let input ← bindExpr context scope outer {} expr
    let subquery ← bindQuery context (some scope) subquery
    let field ← subquerySingleField node subquery "QF0024" "IN subqueries"
    return { kind := .inSubquery input subquery negated, dataType := .boolean
             nullable := input.nullable || field.any ResultField.nullable, node }
  | ⟨.scalarSubquery subquery, node⟩ => do
    let subquery ← bindQuery context (some scope) subquery
    let field ← subquerySingleField node subquery "QF0023" "Scalar subqueries"
    return { kind := .scalarSubquery subquery
             dataType := (field.getD (.new "subquery" .unknown true)).dataType
             nullable := true, node }
  | ⟨.exists subquery, node⟩ => do
    let subquery ← bindQuery context (some scope) subquery
    return { kind := .exists subquery, dataType := .boolean, nullable := false, node }
  | ⟨.like expr pattern negated caseInsensitive, node⟩ => do
    let input ← bindExpr context scope outer { dataType := some .utf8, nullable := .nonNull } expr
    let pattern ← bindExpr context scope outer
      { dataType := some .utf8, nullable := .nonNull } pattern
    return { kind := .like input pattern negated caseInsensitive, dataType := .boolean
             nullable := input.nullable || pattern.nullable, node }
  -- `record_null_test` comes first: a tested parameter is nullable whatever its other uses say.
  | ⟨.isNull expr negated, node⟩ => do
    recordNullTest expr
    let inner ← bindExpr context scope outer {} expr
    return { kind := .isNull inner negated, dataType := .boolean, nullable := false, node }
  | ⟨.tuple items, node⟩ => do
    let items ← bindExprs context scope outer {} items
    return { kind := .tuple items
             dataType := .struct (items.zipIdx.map fun (item, index) =>
               .new ("_" ++ toString index) item.dataType item.nullable)
             nullable := items.any BoundExpr.nullable, node }
  | ⟨.array items, node⟩ => do
    let items ← bindExprs context scope outer {} items
    return { kind := .array items
             dataType := .list (DataType.reduceCommon (items.map BoundExpr.dataType))
             nullable := items.any BoundExpr.nullable, node }
  | ⟨.unsupported description, node⟩ =>
    unsupportedExpr ⟨.unsupported description, node⟩ "QF0012" description none

/-- Expressions of which the same is expected. -/
def bindExprs (context : BinderContext) (scope : Scope) (outer : Option Scope)
    (expected : ExpectedType) : List SyntaxExpr → BindM (List BoundExpr)
  | [] => return []
  | expr :: exprs => do
    let expr ← bindExpr context scope outer expected expr
    return expr :: (← bindExprs context scope outer expected exprs)

/-- An expression, if there is one. -/
def bindExprOption (context : BinderContext) (scope : Scope) (outer : Option Scope)
    (expected : ExpectedType) : Option SyntaxExpr → BindM (Option BoundExpr)
  | none => return none
  | some expr => do return some (← bindExpr context scope outer expected expr)

/-- The pairs of a `CASE`. -/
def bindWhenThens (context : BinderContext) (scope : Scope) (outer : Option Scope) :
    List SyntaxWhenThen → BindM (List BoundWhenThen)
  | [] => return []
  | ⟨condition, result⟩ :: pairs => do
    let condition ← bindExpr context scope outer .boolean condition
    let result ← bindExpr context scope outer {} result
    return { condition, result } :: (← bindWhenThens context scope outer pairs)

/-- `bind_function`. -/
def bindFunction (context : BinderContext) (scope : Scope) (outer : Option Scope)
    (node : SyntaxNode) : SyntaxFunctionCall → BindM BoundExpr
  | ⟨function, args, distinct, filter, over_⟩ =>
    match context.signature function with
    | none => unsupportedExpr ⟨.function ⟨function, args, distinct, filter, over_⟩, node⟩ "QF0013"
        ("Unknown function `" ++ function.displayName ++ "`.")
        (some "Register the function in the catalog or portable builtin registry.")
    | some signature => do
      let args ← bindArgs context scope outer signature 0 args
      let filter ← bindExprOption context scope outer .boolean filter
      let over_ ← bindWindow context scope outer over_
      warnBackendSpecific signature function node
      return { kind := .function
                 { function, resolvedBackendName := none, args, distinct, filter, over_
                   resolvedSignatureName := some signature.name }
               dataType := inferFunctionReturnType signature args
               nullable := inferFunctionNullability signature args, node }

/-- The arguments of a call, from the given index on. -/
def bindArgs (context : BinderContext) (scope : Scope) (outer : Option Scope)
    (signature : FunctionSignature) (index : Nat) : List SyntaxExpr → BindM (List BoundExpr)
  | [] => return []
  | arg :: args => do
    let arg ← bindExpr context scope outer
      { dataType := FunctionSignature.argType signature index, nullable := .nonNull } arg
    return arg :: (← bindArgs context scope outer signature (index + 1) args)

/-- The `OVER` clause of a call. -/
def bindWindow (context : BinderContext) (scope : Scope) (outer : Option Scope) :
    Option WindowSpec → BindM (Option BoundWindowSpec)
  | none => return none
  | some ⟨partitionBy, orderBy, node⟩ => do
    let partitionBy ← bindExprs context scope outer {} partitionBy
    let orderBy ← bindOrderBys context scope outer orderBy
    return some { partitionBy, orderBy, node }

end

end QueryFabric.Bind
