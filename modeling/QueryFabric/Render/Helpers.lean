import QueryFabric.Catalog.Model
import Mathlib.Data.List.Sort

/-!
# Rendering names, literals and types

The helpers of `crates/queryfabric-catalog/src/render/helpers.rs`. The renderer writes a statement
piece by piece, as `push_str` and `format!` do; `Pieces` is what it has written so far, and the text
of the statement is the pieces joined.
-/

namespace QueryFabric.Render

/-- The pieces of text that the renderer writes, in order. -/
abbrev Pieces := List String

/-- The text of the pieces. -/
def Pieces.text (ps : Pieces) : String := String.join ps

/-- The pieces of several parts with a separator between them, as `join` writes them. -/
def Pieces.join (separator : String) (parts : List Pieces) : Pieces :=
  List.intercalate [separator] parts

/-- `SqlBackend`. -/
inductive SqlBackend
  | clickHouse
  | postgres
deriving DecidableEq, Repr

/-- `SqlBackend::name`. -/
def SqlBackend.name : SqlBackend → String
  | clickHouse => "clickhouse"
  | postgres => "postgres"

/-- `unsupported`. -/
def unsupported (feature detail : String) : QueryFabricError := .unsupportedFeature feature detail

/-- `ordered_parameters`: the schemas of the bound parameters, sorted by reference. -/
def orderedParameters (query : BoundQuery) : List ParameterSchema :=
  (query.parameters.map ParameterBinding.schema).insertionSort
    fun left right => ParameterRef.le left.reference right.reference = true

/-- `render_literal`. -/
def renderLiteral : LiteralValue → String
  | .null => "NULL"
  | .boolean value => if value then "TRUE" else "FALSE"
  | .int64 value => toString value.toInt
  | .float64 text => text
  | .utf8 text => quoted '\'' text

/-- The words that `render_identifier` always quotes. -/
def reservedWords : List String :=
  ["all", "and", "as", "by", "case", "cross", "distinct", "else", "end", "exists", "from", "full",
   "group", "having", "in", "inner", "is", "join", "left", "like", "limit", "not", "null", "offset",
   "on", "or", "order", "right", "select", "then", "union", "when", "where", "with"]

/-- The first characters of an identifier that needs no quotes. -/
def isIdentifierStart (c : Char) : Bool := c == '_' || c.isAlpha

/-- The further characters of an identifier that needs no quotes. -/
def isIdentifierPart (c : Char) : Bool := c == '_' || c == '$' || c.isAlphanum

/-- A name whose characters need no quotes. -/
def isPlainWord (value : String) : Bool :=
  match value.toList with
  | [] => false
  | c :: cs => isIdentifierStart c && cs.all isIdentifierPart

/-- `simple` in `render_identifier`: a plain word that is not reserved. -/
def isSimpleIdentifier (value : String) : Bool :=
  !reservedWords.contains (toAsciiLowercase value) && isPlainWord value

/-- A name that `render_identifier` accepts: not empty, and without control characters. -/
def isIdentifier (value : String) : Bool := value != "" && !value.toList.any isControl

/-- `render_identifier`. Both backends quote with `"`. -/
def renderIdentifier (_backend : SqlBackend) (value : String) : Except QueryFabricError String :=
  if !isIdentifier value then
    .error (unsupported "identifier"
      "identifiers must be non-empty and contain no control characters")
  else if isSimpleIdentifier value then .ok value
  else .ok (quoted '"' value)

/-- `render_qualified_name`: the segments between the dots, each rendered as an identifier. -/
def renderQualifiedName (backend : SqlBackend) (value : String) : Except QueryFabricError Pieces :=
  let segments := splitDots value
  if segments.any fun segment => segment == "" then
    .error (unsupported "identifier" "qualified names cannot contain empty segments")
  else do
    let rendered ← segments.mapM (renderIdentifier backend)
    return rendered.intersperse "."

/-- A namespace and a dot, or nothing. -/
def renderNamespace (backend : SqlBackend) : Option String → Except QueryFabricError Pieces
  | some namespace_ => do return [← renderIdentifier backend namespace_, "."]
  | none => return []

/-- `render_name_ref`. -/
def renderNameRef (backend : SqlBackend) (name : NameRef) : Except QueryFabricError Pieces := do
  let renderedName ← renderIdentifier backend name.name
  return (← renderNamespace backend name.namespace_) ++ [renderedName]

/-- `is_parameterized_function_name`: a plain name, then digits, dots and commas in parentheses. -/
def isParameterizedFunctionName (value : String) : Bool :=
  let name := value.toList.takeWhile fun c => c != '('
  match value.toList.dropWhile fun c => c != '(' with
  | [] => false
  | _ :: inner =>
    inner.getLast? == some ')' && !name.isEmpty &&
      name.all (fun c => c == '_' || c.isAlphanum) &&
      inner.dropLast.all fun c => c.isDigit || c == '.' || c == ','

/-- `render_function_ref`. -/
def renderFunctionRef (backend : SqlBackend) (function : FunctionRef) :
    Except QueryFabricError Pieces := do
  let name ← if isParameterizedFunctionName function.name then pure function.name
    else renderIdentifier backend function.name
  return (← renderNamespace backend function.namespace_) ++ [name]

/-- `render_binary_operator`. -/
def renderBinaryOperator : BinaryOperator → String
  | .add => "+"
  | .subtract => "-"
  | .multiply => "*"
  | .divide => "/"
  | .eq => "="
  | .notEq => "<>"
  | .lt => "<"
  | .ltEq => "<="
  | .gt => ">"
  | .gtEq => ">="
  | .and => "AND"
  | .or => "OR"

/-- The characters of a ClickHouse time zone. -/
def isTimezoneChar (c : Char) : Bool :=
  c.isAlphanum || c == '_' || c == '/' || c == '+' || c == '-'

/-- `backend_type_name`. -/
def backendTypeName : SqlBackend → DataType → Except QueryFabricError String
  | .clickHouse, .boolean => .ok "Bool"
  | .clickHouse, .int32 => .ok "Int32"
  | .clickHouse, .int64 => .ok "Int64"
  | .clickHouse, .float64 => .ok "Float64"
  | .clickHouse, .utf8 => .ok "String"
  | .clickHouse, .uuid => .ok "UUID"
  | .clickHouse, .json => .ok "JSON"
  | .clickHouse, .date => .ok "Date"
  | .clickHouse, .decimal precision scale =>
    .ok ("Decimal(" ++ toString precision.toNat ++ ", " ++ toString scale.toInt ++ ")")
  | .clickHouse, .timestamp (some timezone) =>
    if timezone == "" || !timezone.toList.all isTimezoneChar then
      .error (unsupported "type" "ClickHouse timestamp timezones contain unsupported characters")
    else .ok ("DateTime64(6, '" ++ timezone ++ "')")
  | .clickHouse, .timestamp none => .ok "DateTime64(6)"
  | .clickHouse, .list inner => do return "Array(" ++ (← backendTypeName .clickHouse inner) ++ ")"
  | .postgres, .boolean => .ok "BOOLEAN"
  | .postgres, .int32 => .ok "INTEGER"
  | .postgres, .int64 => .ok "BIGINT"
  | .postgres, .float64 => .ok "DOUBLE PRECISION"
  | .postgres, .utf8 => .ok "TEXT"
  | .postgres, .uuid => .ok "UUID"
  | .postgres, .json => .ok "JSONB"
  | .postgres, .date => .ok "DATE"
  | .postgres, .decimal precision scale =>
    .ok ("NUMERIC(" ++ toString precision.toNat ++ ", " ++ toString scale.toInt ++ ")")
  | .postgres, .timestamp (some _) => .ok "TIMESTAMPTZ"
  | .postgres, .timestamp none => .ok "TIMESTAMP"
  | .postgres, .list inner => do return (← backendTypeName .postgres inner) ++ "[]"
  | _, .struct _ => .error (unsupported "type" "struct parameters are not supported")
  | _, .unknown => .error (unsupported "type" "cannot render unknown type")

/-- `backend_code`. -/
def backendCode (backend : String) : String :=
  if backend == "clickhouse" then "11" else if backend == "postgres" then "21" else "99"

end QueryFabric.Render
