import QueryFabric.Dialect.Ast
import QueryFabric.Dialect.Syql
import QueryFabric.Ir.Query
import QueryFabric.Lib.Paths
import QueryFabric.Portability.Tabular

/-!
# Lowering to the syntax tree

`crates/queryfabric-dialect-sql/src/lower.rs` with its modules `lower/query.rs` and `lower/expr.rs`,
and the helpers of `helpers.rs` that they call: the trees of the SQL parser become the syntax tree
of the compiler. Every node takes its identity from the path that it is lowered at, and what the
portable subset leaves out is reported there. The parser itself is a parameter.
-/

namespace QueryFabric.Dialect

open Lib.Paths (part item)
open Portability (digitsValue parseI64)

/-! ## Names, operators and types -/

/-- `lower_name_ref`. -/
def lowerNameRef (name : Ast.ObjectName) : NameRef :=
  match name.parts with
  | [name] => ⟨none, name⟩
  | [namespace_, name] => ⟨some namespace_, name⟩
  | parts => ⟨none, ".".intercalate parts⟩

/-- `lower_function_ref`. -/
def lowerFunctionRef (name : Ast.ObjectName) : FunctionRef :=
  match name.parts with
  | [name] => ⟨none, toAsciiLowercase name⟩
  | [namespace_, name] => ⟨some (toAsciiLowercase namespace_), toAsciiLowercase name⟩
  | parts => ⟨none, toAsciiLowercase (".".intercalate parts)⟩

/-- `str::parse::<u32>`. -/
def parseU32 (text : List Char) : Option Nat :=
  let digits := if text.head? = some '+' then text.tail else text
  if digits = [] ∨ digits.all Char.isDigit = false then none
  else if digitsValue digits < 2 ^ 32 then some (digitsValue digits)
  else none

/-- `placeholder_to_parameter_ref`. -/
def placeholderToParameterRef (placeholder : String) : ParameterRef :=
  if placeholder = "?" then .positional 0
  else
    match placeholder.toList with
    | '$' :: number =>
      match parseU32 number with
      | some position => .positional position
      | none => .named (String.ofList number)
    | name => .named (String.ofList (name.dropWhile fun c => c == ':' || c == '@'))

/-- `lower_binary_operator`. -/
def lowerBinaryOperator : Ast.BinaryOperator → Option BinaryOperator
  | .plus => some .add
  | .minus => some .subtract
  | .multiply => some .multiply
  | .divide => some .divide
  | .eq => some .eq
  | .notEq => some .notEq
  | .lt => some .lt
  | .ltEq => some .ltEq
  | .gt => some .gt
  | .gtEq => some .gtEq
  | .and => some .and
  | .or => some .or
  | .other _ => none

/-- How an operator that is not lowered is displayed. -/
def Ast.BinaryOperator.text : Ast.BinaryOperator → String
  | .other text => text
  | _ => ""

/-- `lower_unary_operator`. -/
def lowerUnaryOperator : Ast.UnaryOperator → Option UnaryOperator
  | .plus => some .plus
  | .minus => some .minus
  | .not => some .not
  | .other _ => none

/-- How an operator that is not lowered is displayed. -/
def Ast.UnaryOperator.text : Ast.UnaryOperator → String
  | .other text => text
  | _ => ""

/-- `lower_data_type`. -/
def lowerDataType : Ast.DataType → DataType
  | .boolean => .boolean
  | .int | .integer | .int4 => .int32
  | .bigInt | .int8 => .int64
  | .float | .double | .doublePrecision => .float64
  | .text | .string | .varchar | .char => .utf8
  | .uuid => .uuid
  | .json | .jsonb => .json
  | .date => .date
  | .decimal info | .numeric info =>
    match info with
    | .none => .decimal 38 0
    | .precision precision => .decimal precision.toUInt8 0
    | .precisionAndScale precision scale => .decimal precision.toUInt8 scale.toInt8
  | .timestamp withTimeZone => .timestamp (if withTimeZone then some "UTC" else none)
  | .array none => .list .unknown
  | .array (some inner) => .list (lowerDataType inner)
  | .other => .unknown

/-- The `Display` text of a set operator. -/
def Ast.SetOperator.text : Ast.SetOperator → String
  | .union => "UNION"
  | .except => "EXCEPT"
  | .intersect => "INTERSECT"
  | .minus => "MINUS"

/-- The `Display` text of a set quantifier. -/
def Ast.SetQuantifier.text : Ast.SetQuantifier → String
  | .all => "ALL"
  | .distinct => "DISTINCT"
  | .byName => "BY NAME"
  | .allByName => "ALL BY NAME"
  | .distinctByName => "DISTINCT BY NAME"
  | .none => ""

/-! ## Diagnostics -/

/-- The lowering, which collects diagnostics. -/
abbrev Lowering := StateM (List QueryDiagnostic)

/-- `emit_unsupported` for a span of the source. -/
def emitUnsupportedSpan (span : Option QuerySourceSpan) (path description : String) :
    Lowering Unit :=
  modify fun diagnostics => diagnostics ++ [{ QueryDiagnostic.error "QF0000" description with
    nodeId := some path
    remediation := some "Rewrite the query using the verified portable subset."
    span := span }]

section Lowerer

variable (map : SourceMap)

/-- The node of a path. -/
def lowerNode (span : SqlSpan) (path : String) : SyntaxNode := ⟨map.mapSqlSpan span, path⟩

/-- `emit_unsupported`. -/
def emitUnsupported (span : SqlSpan) (path description : String) : Lowering Unit :=
  emitUnsupportedSpan (map.mapSqlSpan span) path description

/-- What is reported of the clauses of a query that are not lowered. -/
def reportQuery (query : Ast.Query) (path : String) : Lowering Unit := do
  if query.fetch then
    emitUnsupported map query.span
      (part path "fetch") "FETCH is outside the verified portable subset."
  if query.locks then
    emitUnsupported map query.span
      (part path "locks") "Query locks are outside the verified portable subset."
  if query.forClause then
    emitUnsupported map query.span
      (part path "for") "FOR clauses are outside the verified portable subset."
  if query.pipeOperators then
    emitUnsupported map query.span
      (part path "pipes") "Pipe operators are outside the verified portable subset."

/-- `LIMIT BY` is reported. -/
def reportLimitBy (limitBy : Bool) (span : SqlSpan) (path : String) : Lowering Unit := do
  if limitBy then
    emitUnsupported map span (part path "limit_by")
      "LIMIT BY is outside the verified portable subset."

/-- The clauses of one backend. -/
def lowerBackendClauses (query : Ast.Query) (path : String) : List BackendClause :=
  let settings := match query.settings with
    | some settings =>
      [.clickHouseSettings (", ".intercalate (settings.map Ast.Setting.text))
        ⟨QuerySourceSpan.reduceUnion (settings.filterMap fun setting =>
            (map.mapSqlSpan setting.keySpan).or (map.mapSqlSpan setting.valueSpan)),
              part path "settings"⟩]
    | none => []
  let format := match query.formatClause with
    | some text => [.clickHouseFormat text (lowerNode map query.span (part path "format"))]
    | none => []
  settings ++ format

/-- A literal, in the match of `lower_expr`. -/
def lowerValue : Ast.Value → SyntaxExprKind
  | .boolean value => .literal (.boolean value)
  | .number text =>
    if text.toList.contains '.' then .literal (.float64 text)
    else
      match parseI64 text.toList with
      | some value => .literal (.int64 (Int64.ofInt value))
      | none => .literal (.float64 text)
  | .singleQuotedString text | .doubleQuotedString text => .literal (.utf8 text)
  | .null => .literal .null
  | .placeholder text => .parameter (placeholderToParameterRef text)
  | .other => .unsupported "Unsupported literal value."

/-- A compound identifier, in the match of `lower_expr`. -/
def lowerCompoundIdentifier (parts : List String) : SyntaxExprKind :=
  let values := parts.dropLast
  .column (if values.isEmpty then none else some (".".intercalate values)) (parts.getLast?.getD "")

/-- The qualifier of a wildcard. -/
def lowerQualifier : Ast.QualifiedWildcardKind → Option String
  | .objectName name => name.parts.getLast?
  | .expr => none

/-- What is reported of the forms of a function call that are not lowered. -/
def reportFunction (function : Ast.Function) (path : String) : Lowering Unit := do
  if function.usesOdbcSyntax then
    emitUnsupported map function.span (part path "odbc")
      "ODBC function syntax is outside the verified portable subset."
  if function.withinGroup then
    emitUnsupported map function.span (part path "within_group")
      "WITHIN GROUP is outside the verified portable subset."
  if function.nullTreatment then
    emitUnsupported map function.span (part path "null_treatment")
      "Function NULL treatment is outside the verified portable subset."

/-- Whether the arguments of a function are given as distinct or all. -/
def Ast.FunctionArguments.isDistinct : Ast.FunctionArguments → Bool
  | .list duplicateTreatment _ => duplicateTreatment
  | _ => false

/-- The span of a window: of its name, its partition and its order. -/
def windowSpan (windowName : Option Ast.Ident) (partitionBy : List Ast.Expr)
    (orderBy : List Ast.OrderByExpr) :
    Option QuerySourceSpan :=
  QuerySourceSpan.reduceUnion ((windowName.bind fun name => map.mapSqlSpan name.span).toList ++
    partitionBy.filterMap (fun expr => map.mapSqlSpan expr.span) ++
    orderBy.filterMap fun expr => map.mapSqlSpan expr.span)

/-- A named window and a frame are reported. -/
def reportWindow (windowName : Option Ast.Ident) (windowFrame : Bool)
    (span : Option QuerySourceSpan) (path : String) : Lowering Unit := do
  if windowName.isSome then
    emitUnsupportedSpan span (part (part path "over") "name")
      "Named window inheritance is outside the verified portable subset."
  if windowFrame then
    emitUnsupportedSpan span (part (part path "over") "frame")
      "Window frames are outside the verified portable subset."

/-! ## Queries and expressions -/

mutual

/-- `lower_query`. -/
def lowerQuery : Ast.Query → String → Lowering SyntaxQuery
  | ⟨with_, body, orderBy, limitClause, fetch, locks, forClause, pipeOperators, settings,
      formatClause, span⟩, path => do
    let query : Ast.Query :=
      ⟨with_, body, orderBy, limitClause, fetch, locks, forClause, pipeOperators, settings,
        formatClause, span⟩
    reportQuery map query path
    let (limit, offset) ← lowerLimitClause limitClause path
    let (ctes, withRecursive) ← lowerWith with_ path
    let body ← lowerSetExpr body (part path "body")
    let orderBy ← lowerOrderBy orderBy (part path "order_by")
    return ⟨lowerNode map span path, ctes, withRecursive, body, orderBy, limit, offset,
      lowerBackendClauses map query path⟩
termination_by structural x => x

/-- The `LIMIT` clause of a query. -/
def lowerLimitClause : Option Ast.LimitClause → String →
    Lowering (Option SyntaxExpr × Option SyntaxExpr)
  | none, _ => return (none, none)
  | some (.limitOffset limit offset limitBy span), path => do
    reportLimitBy map limitBy span path
    let limit ← lowerExprOption limit (part path "limit")
    let offset ← lowerExprOption offset (part path "offset")
    return (limit, offset)
  | some (.offsetCommaLimit off lim), path => do
    let offset ← lowerExpr off (part path "offset")
    let limit ← lowerExpr lim (part path "limit")
    return (some limit, some offset)
termination_by structural x => x

/-- A `WITH` clause, if there is one. -/
def lowerWith : Option Ast.With → String → Lowering (List SyntaxCte × Bool)
  | none, _ => return ([], false)
  | some ⟨recursive, cteTables⟩, path => do
    let ctes ← lowerCtes cteTables (part path "with") 0
    return (ctes, recursive)
termination_by structural x => x

/-- The loop over CTEs. -/
def lowerCtes : List Ast.Cte → String → Nat → Lowering (List SyntaxCte)
  | [], _, _ => return []
  | ⟨aliasName, aliasColumns, query, span⟩ :: ctes, path, idx => do
    let query ← lowerQuery query (item path idx)
    let ctes ← lowerCtes ctes path (idx + 1)
    return ⟨aliasName, aliasColumns, query, lowerNode map span (item path idx)⟩ :: ctes
termination_by structural x => x

/-- `lower_set_expr`. -/
def lowerSetExpr : Ast.SetExpr → String → Lowering SyntaxSetExpr
  | .select select, path => do
    let select ← lowerSelect select path
    return .select select
  | .query query, path => lowerBody query path
  | .setOperation op setQuantifier left right span, path => do
    if op = .union ∧ setQuantifier = .all then
      let left ← lowerSetExpr left (part path "left")
      let right ← lowerSetExpr right (part path "right")
      return .unionAll left right (lowerNode map span path)
    else
      return .unsupported ("Set operation `" ++ op.text ++ " " ++ setQuantifier.text ++
        "` is outside the verified portable subset.") (lowerNode map span path)
  | .other span, path => return .unsupported "Unsupported query body." (lowerNode map span path)
termination_by structural x => x

/-- The body of a parenthesised query, at the path of the parentheses. -/
def lowerBody : Ast.Query → String → Lowering SyntaxSetExpr
  | ⟨_, body, _, _, _, _, _, _, _, _, _⟩, path => lowerSetExpr body path
termination_by structural x => x

/-- `lower_select`. -/
def lowerSelect : Ast.Select → String → Lowering SyntaxSelect
  | ⟨distinct, projection, from_, selection, groupBy, having, span⟩, path => do
    let projection ← lowerProjection projection (part path "projection") 0
    let tables ← lowerTables from_ (part path "from") 0
    let selection ← lowerExprOption selection (part path "where")
    let groupBy ← lowerGroupBy groupBy span path
    let having ← lowerExprOption having (part path "having")
    return ⟨distinct, projection, tables, selection, groupBy, having, lowerNode map span path⟩
termination_by structural x => x

/-- The `GROUP BY` clause of a select. -/
def lowerGroupBy : Ast.GroupByExpr → SqlSpan → String → Lowering (List SyntaxExpr)
  | .expressions exprs, _, path => lowerExprs exprs (part path "group_by") 0
  | .all, span, path =>
    return [⟨.unsupported "GROUP BY ALL is outside the verified portable subset.",
      lowerNode map span (part path "group_by_all")⟩]
termination_by structural x => x

/-- The loop over a projection. -/
def lowerProjection : List Ast.SelectItem → String → Nat → Lowering (List SyntaxProjectionItem)
  | [], _, _ => return []
  | projected :: items, path, idx => do
    let projected ← lowerProjectionItem projected (item path idx)
    let items ← lowerProjection items path (idx + 1)
    return projected :: items
termination_by structural x => x

/-- `lower_projection_item`. -/
def lowerProjectionItem : Ast.SelectItem → String → Lowering SyntaxProjectionItem
  | .wildcard span, path => return .wildcard none (lowerNode map span path)
  | .qualifiedWildcard kind span, path =>
    return .wildcard (lowerQualifier kind) (lowerNode map span path)
  | .unnamedExpr expr span, path => do
    let expr ← lowerExpr expr (part path "expr")
    return .expr ⟨expr, none, lowerNode map span path⟩
  | .exprWithAlias expr alias_ span, path => do
    let expr ← lowerExpr expr (part path "expr")
    return .expr ⟨expr, some alias_, lowerNode map span path⟩
termination_by structural x => x

/-- The loop over a `FROM` clause. -/
def lowerTables : List Ast.TableWithJoins → String → Nat → Lowering (List SyntaxTableWithJoins)
  | [], _, _ => return []
  | table :: tables, path, idx => do
    let table ← lowerTableWithJoins table (item path idx)
    let tables ← lowerTables tables path (idx + 1)
    return table :: tables
termination_by structural x => x

/-- `lower_table_with_joins`. -/
def lowerTableWithJoins : Ast.TableWithJoins → String → Lowering SyntaxTableWithJoins
  | ⟨relation, joins, span⟩, path => do
    let relation ← lowerRelation relation (part path "relation")
    let joins ← lowerJoins joins (part path "joins") 0
    return ⟨relation, joins, lowerNode map span path⟩
termination_by structural x => x

/-- The loop over joins. -/
def lowerJoins : List Ast.Join → String → Nat → Lowering (List SyntaxJoin)
  | [], _, _ => return []
  | ⟨relation, joinOperator, span⟩ :: joins, path, idx => do
    let (kind, on) ← lowerJoinOperator joinOperator span (item path idx)
    let relation ← lowerRelation relation (part (item path idx) "relation")
    let joins ← lowerJoins joins path (idx + 1)
    return ⟨kind, relation, on, lowerNode map span (item path idx)⟩ :: joins
termination_by structural x => x

/-- The kind and the condition of a join. -/
def lowerJoinOperator : Ast.JoinOperator → SqlSpan → String →
    Lowering (JoinKind × Option SyntaxExpr)
  | .join constraint, span, path => lowerInnerConstraint constraint span path
  | .inner constraint, span, path => lowerInnerConstraint constraint span path
  | .left constraint, span, path => lowerOnConstraint constraint .left span path
  | .leftOuter constraint, span, path => lowerOnConstraint constraint .left span path
  | .right constraint, span, path => lowerOnConstraint constraint .right span path
  | .rightOuter constraint, span, path => lowerOnConstraint constraint .right span path
  | .fullOuter constraint, span, path => lowerOnConstraint constraint .full span path
  | .crossJoin _, _, _ => return (.cross, none)
  | .other, span, path => do
    emitUnsupported map span path "Join type or constraint is outside the verified portable subset."
    return (.inner, none)
termination_by structural x => x

/-- A join that needs a condition. -/
def lowerOnConstraint : Ast.JoinConstraint → JoinKind → SqlSpan → String →
    Lowering (JoinKind × Option SyntaxExpr)
  | .on expr, kind, _, path => do
    let on ← lowerExpr expr (part path "on")
    return (kind, some on)
  | .none, _, span, path => do
    emitUnsupported map span path "Join type or constraint is outside the verified portable subset."
    return (.inner, none)
  | .other, _, span, path => do
    emitUnsupported map span path "Join type or constraint is outside the verified portable subset."
    return (.inner, none)
termination_by structural x => x

/-- An inner join, which may be without a condition. -/
def lowerInnerConstraint : Ast.JoinConstraint → SqlSpan → String →
    Lowering (JoinKind × Option SyntaxExpr)
  | .on expr, _, path => do
    let on ← lowerExpr expr (part path "on")
    return (.inner, some on)
  | .none, _, _ => return (.inner, none)
  | .other, span, path => do
    emitUnsupported map span path "Join type or constraint is outside the verified portable subset."
    return (.inner, none)
termination_by structural x => x

/-- `lower_relation`. -/
def lowerRelation : Ast.TableFactor → String → Lowering SyntaxRelation
  | .table name alias_ span, path =>
    return .table (lowerNameRef name) alias_ (lowerNode map span path)
  | .derived subquery alias_ span, path => do
    let query ← lowerQuery subquery (part path "subquery")
    return .derived query alias_ (lowerNode map span path)
  | .nestedJoin tableWithJoins alias_ span, path => do
    let table ← lowerTableWithJoins tableWithJoins (part path "nested")
    return .nestedJoin table alias_ (lowerNode map span path)
  | .other span, path => return .unsupported "Unsupported FROM relation." (lowerNode map span path)
termination_by structural x => x

/-- `lower_order_by`. -/
def lowerOrderBy : Option Ast.OrderBy → String → Lowering (List SyntaxOrderByExpr)
  | none, _ => return []
  | some (.expressions exprs), path => lowerOrderByExprs exprs path 0
  | some (.all span), path => do
    emitUnsupported map span path "ORDER BY variant is outside the verified portable subset."
    return []
termination_by structural x => x

/-- The loop over sort keys. -/
def lowerOrderByExprs : List Ast.OrderByExpr → String → Nat → Lowering (List SyntaxOrderByExpr)
  | [], _, _ => return []
  | ⟨expr, asc, nullsFirst, span⟩ :: exprs, path, idx => do
    let expr ← lowerExpr expr (part (item path idx) "expr")
    let exprs ← lowerOrderByExprs exprs path (idx + 1)
    return ⟨expr, asc, nullsFirst, lowerNode map span (item path idx)⟩ :: exprs
termination_by structural x => x

/-- `lower_expr`. -/
def lowerExpr : Ast.Expr → String → Lowering SyntaxExpr
  | ⟨kind, span⟩, path => lowerExprKind kind (lowerNode map span path) path
termination_by structural x => x

/-- The match of `lower_expr`. -/
def lowerExprKind : Ast.ExprKind → SyntaxNode → String → Lowering SyntaxExpr
  | .identifier value, node, _ => return ⟨.column none value, node⟩
  | .compoundIdentifier parts, node, _ => return ⟨lowerCompoundIdentifier parts, node⟩
  | .value value, node, _ => return ⟨lowerValue value, node⟩
  | .binaryOp left op right, node, path =>
    match lowerBinaryOperator op with
    | some op => do
      let left ← lowerExpr left (part path "left")
      let right ← lowerExpr right (part path "right")
      return ⟨.binary op left right, node⟩
    | none => return ⟨.unsupported ("Unsupported binary operator `" ++ op.text ++ "`."), node⟩
  | .unaryOp op expr, node, path =>
    match lowerUnaryOperator op with
    | some op => do
      let expr ← lowerExpr expr (part path "expr")
      return ⟨.unary op expr, node⟩
    | none => return ⟨.unsupported ("Unsupported unary operator `" ++ op.text ++ "`."), node⟩
  -- The expression in parentheses takes the place of the parentheses.
  | .nested expr, _, path => lowerExpr expr path
  | .function function, node, path => do
    let call ← lowerFunction function path
    return ⟨.function call, node⟩
  | .case operand conditions elseResult, node, path => do
    let operand ← lowerExprOption operand (part path "operand")
    let whenThen ← lowerWhenThen conditions (part path "when_then") 0
    let elseResult ← lowerExprOption elseResult (part path "else")
    return ⟨.case operand whenThen elseResult, node⟩
  | .cast expr dataType, node, path => do
    let expr ← lowerExpr expr (part path "expr")
    return ⟨.cast expr (lowerDataType dataType), node⟩
  | .between expr low high negated, node, path => do
    let expr ← lowerExpr expr (part path "expr")
    let low ← lowerExpr low (part path "low")
    let high ← lowerExpr high (part path "high")
    return ⟨.between expr low high negated, node⟩
  | .inList expr list negated, node, path => do
    let expr ← lowerExpr expr (part path "expr")
    let list ← lowerExprs list (part path "list") 0
    return ⟨.inList expr list negated, node⟩
  | .inSubquery expr subquery negated, node, path => do
    let expr ← lowerExpr expr (part path "expr")
    let subquery ← lowerQuery subquery (part path "subquery")
    return ⟨.inSubquery expr subquery negated, node⟩
  | .subquery subquery, node, path => do
    let subquery ← lowerQuery subquery (part path "subquery")
    return ⟨.scalarSubquery subquery, node⟩
  | .exists subquery, node, path => do
    let subquery ← lowerQuery subquery (part path "subquery")
    return ⟨.exists subquery, node⟩
  | .like expr pattern negated, node, path => do
    let expr ← lowerExpr expr (part path "expr")
    let pattern ← lowerExpr pattern (part path "pattern")
    return ⟨.like expr pattern negated false, node⟩
  | .iLike expr pattern negated, node, path => do
    let expr ← lowerExpr expr (part path "expr")
    let pattern ← lowerExpr pattern (part path "pattern")
    return ⟨.like expr pattern negated true, node⟩
  | .isNull expr, node, path => do
    let expr ← lowerExpr expr (part path "expr")
    return ⟨.isNull expr false, node⟩
  | .isNotNull expr, node, path => do
    let expr ← lowerExpr expr (part path "expr")
    return ⟨.isNull expr true, node⟩
  | .tuple exprs, node, path => do
    let items ← lowerExprs exprs (part path "tuple") 0
    return ⟨.tuple items, node⟩
  | .array elem, node, path => do
    let items ← lowerExprs elem (part path "array") 0
    return ⟨.array items, node⟩
  | .other text, node, _ => return ⟨.unsupported ("Unsupported expression `" ++ text ++ "`."), node⟩
termination_by structural x => x

/-- An expression, if there is one. -/
def lowerExprOption : Option Ast.Expr → String → Lowering (Option SyntaxExpr)
  | none, _ => return none
  | some expr, path => do
    let expr ← lowerExpr expr path
    return some expr
termination_by structural x => x

/-- The loop over a list of expressions. -/
def lowerExprs : List Ast.Expr → String → Nat → Lowering (List SyntaxExpr)
  | [], _, _ => return []
  | expr :: exprs, path, idx => do
    let expr ← lowerExpr expr (item path idx)
    let exprs ← lowerExprs exprs path (idx + 1)
    return expr :: exprs
termination_by structural x => x

/-- The loop over the branches of a `CASE`. -/
def lowerWhenThen : List Ast.CaseWhen → String → Nat → Lowering (List SyntaxWhenThen)
  | [], _, _ => return []
  | ⟨condition, result⟩ :: conditions, path, idx => do
    let condition ← lowerExpr condition (part (item path idx) "condition")
    let result ← lowerExpr result (part (item path idx) "result")
    let conditions ← lowerWhenThen conditions path (idx + 1)
    return ⟨condition, result⟩ :: conditions
termination_by structural x => x

/-- `lower_function`. -/
def lowerFunction : Ast.Function → String → Lowering SyntaxFunctionCall
  | ⟨name, usesOdbcSyntax, args, filter, nullTreatment, over_, withinGroup, span⟩, path => do
    reportFunction map ⟨name, usesOdbcSyntax, args, filter, nullTreatment, over_,
      withinGroup, span⟩ path
    let distinct := args.isDistinct
    let args ← lowerFunctionArgs args name.text path
    let filter ← lowerExprOption filter (part path "filter")
    let over_ ← lowerOver over_ path
    return ⟨lowerFunctionRef name, args, distinct, filter, over_⟩
termination_by structural x => x

/-- `lower_function_args`. -/
def lowerFunctionArgs : Ast.FunctionArguments → String → String → Lowering (List SyntaxExpr)
  | .none, _, _ => return []
  | .subquery ⟨with_, body, orderBy, limitClause, fetch, locks, forClause, pipeOperators, settings,
    formatClause, span⟩,
      _, path => do
    let query ← lowerQuery
      ⟨with_, body, orderBy, limitClause, fetch, locks, forClause, pipeOperators, settings,
        formatClause, span⟩
      (part path "subquery")
    return [⟨.scalarSubquery query, lowerNode map span (part path "subquery")⟩]
  | .list _ args, functionName, path => lowerArgs args functionName (part path "args") 0
termination_by structural x => x

/-- The loop over the arguments of a call. -/
def lowerArgs : List Ast.FunctionArg → String → String → Nat → Lowering (List SyntaxExpr)
  | [], _, _, _ => return []
  | arg :: args, functionName, path, idx => do
    let arg ← lowerArg arg functionName (item path idx)
    let args ← lowerArgs args functionName path (idx + 1)
    return arg.toList ++ args
termination_by structural x => x

/-- An argument, if it is one that is lowered. -/
def lowerArg : Ast.FunctionArg → String → String → Lowering (Option SyntaxExpr)
  | .expr expr, _, path => do
    let expr ← lowerExpr expr path
    return some expr
  | .wildcard span, functionName, path =>
    if eqIgnoreAsciiCase functionName "count" then return none
    else
      return some ⟨.unsupported
        "Wildcard function arguments are outside the verified portable subset.",
        lowerNode map span path⟩
  | .named span, _, path => do
    emitUnsupported map span path
      "Named function arguments are outside the verified portable subset."
    return none
termination_by structural x => x

/-- A window, if there is one. -/
def lowerOver : Option Ast.WindowType → String → Lowering (Option WindowSpec)
  | none, _ => return none
  | some window, path => do
    let window ← lowerWindow window path
    return some window
termination_by structural x => x

/-- `lower_window`. -/
def lowerWindow : Ast.WindowType → String → Lowering WindowSpec
  | .windowSpec windowName partitionBy orderBy windowFrame, path => do
    let span := windowSpan map windowName partitionBy orderBy
    reportWindow windowName windowFrame span path
    let partition ← lowerExprs partitionBy (part (part path "over") "partition") 0
    let orderBy ← lowerOrderByExprs orderBy (part (part path "over") "order") 0
    return ⟨partition, orderBy, ⟨span, part path "over"⟩⟩
  | .namedWindow name, path => do
    let span := map.mapSqlSpan name.span
    emitUnsupportedSpan span (part (part path "over") "named")
      "Named windows are outside the verified portable subset."
    return ⟨[], [], ⟨span, part path "over"⟩⟩
termination_by structural x => x

end

end Lowerer

/-! ## Parsing -/

/-- The SQL parser: the statements of a text or the message of an error, and the text of a query. -/
structure SqlParser where
  parseSql : List Char → Except String (List Ast.Statement)
  display : Ast.Query → String

/-- The parsed query, and the metadata of its dialect. -/
def parseSqlWithSourceMap (parser : SqlParser) (dialectName : String) (sourceSql : List Char)
    (sourceMap : SourceMap) (explain : Bool) (dialectMetadata : DialectMetadata) :
    Except QueryFabricError (ParsedQuery × DialectMetadata) :=
  if trim sourceMap.rewrittenSql = [] then .error (.parse "empty query body")
  else
    match parser.parseSql sourceMap.rewrittenSql with
    | .error message => .error (.parse message)
    | .ok [] => .error (.parse "no statement found")
    | .ok (.other :: _) =>
      .error (.unsupportedFeature "non-query statement"
        "QueryFabric currently accepts only SELECT/UNION query statements.")
    | .ok (.query query :: _) =>
      let (syntaxTree, diagnostics) := (lowerQuery sourceMap query "query").run []
      .ok (⟨dialectName, String.ofList sourceSql, parser.display query, explain, syntaxTree,
        diagnostics⟩,
        dialectMetadata)

/-- `parse_sql_query`. -/
def parseSqlQuery (parser : SqlParser) (input : List Char) :
    Except QueryFabricError (ParsedQuery × DialectMetadata) :=
  if trim input = [] then .error (.parse "empty query")
  else
    let (explain, body, bodyOffset) := stripLeadingExplain input
    parseSqlWithSourceMap parser "sql" input (SourceMap.identity body bodyOffset) explain []

/-- What is parsed of a text is the lowered tree of the query that the parser reads in it. -/
theorem lowered_of_parseSqlQuery {parser : SqlParser} {input : List Char} {query : Ast.Query}
    {rest : List Ast.Statement} {parsed : ParsedQuery × DialectMetadata}
    (hparser : parser.parseSql (stripLeadingExplain input).2.1 = .ok (.query query :: rest))
    (h : parseSqlQuery parser input = .ok parsed) :
    parsed.1.sourceSql = String.ofList input ∧ ∃ map, (lowerQuery map query "query").run [] =
      (parsed.1.syntaxTree, parsed.1.loweringDiagnostics) := by
  unfold parseSqlQuery at h
  split at h
  · cases h
  dsimp only at h
  unfold parseSqlWithSourceMap at h
  split at h
  · cases h
  have htext : (SourceMap.identity (stripLeadingExplain input).2.1
      (stripLeadingExplain input).2.2).rewrittenSql = (stripLeadingExplain input).2.1 := rfl
  rw [htext, hparser] at h
  obtain rfl := Except.ok.inj h
  exact ⟨rfl, _, rfl⟩

section Select

variable {input : List Char} (hinput : input.head? = some 'S')

include hinput

/-- Nothing is trimmed in front of an `S`. -/
theorem trimStart_select : trimStart input = input := by
  obtain ⟨cs, rfl⟩ := List.head?_eq_some_iff.mp hinput
  exact List.dropWhile_cons_of_neg (by decide)

/-- A text that begins with an `S` is not blank. -/
theorem trim_select_ne_nil : trim input ≠ [] := by
  intro h
  rw [trim, trimStart_select hinput, trimEnd, List.rdropWhile_eq_nil_iff] at h
  obtain ⟨cs, rfl⟩ := List.head?_eq_some_iff.mp hinput
  have hspace := h 'S' List.mem_cons_self
  revert hspace
  decide

/-- A text that begins with an `S` does not begin with `EXPLAIN`. -/
theorem stripLeadingExplain_select : stripLeadingExplain input = (false, input, 0) := by
  have htrim := trimStart_select hinput
  obtain ⟨cs, rfl⟩ := List.head?_eq_some_iff.mp hinput
  have hupper : toAsciiUppercase ('S' :: cs) = 'S' :: cs.map Char.toUpper := rfl
  simp [stripLeadingExplain, htrim, hupper, List.cons_prefix_cons]

/-- A text that begins with an `S` is parsed to the query that the parser reads in it. -/
theorem parseSqlQuery_select {parser : SqlParser} {query : Ast.Query} {rest : List Ast.Statement}
    (hparser : parser.parseSql input = .ok (.query query :: rest)) :
    parseSqlQuery parser input = .ok (⟨"sql", String.ofList input, parser.display query, false,
      ((lowerQuery (SourceMap.identity input 0) query "query").run []).1,
      ((lowerQuery (SourceMap.identity input 0) query "query").run []).2⟩, []) := by
  have htrim : trim (SourceMap.identity input 0).rewrittenSql ≠ [] := trim_select_ne_nil hinput
  have hquery : parser.parseSql (SourceMap.identity input 0).rewrittenSql = _ := hparser
  rw [parseSqlQuery, if_neg (trim_select_ne_nil hinput), stripLeadingExplain_select hinput]
  dsimp only
  rw [parseSqlWithSourceMap, if_neg htrim, hquery]
  rfl

end Select

end QueryFabric.Dialect
