import QueryFabric.Bind.Scope
import QueryFabric.Catalog.Memory

/-!
# The binder's state

The `Binder` of `crates/queryfabric-catalog/src/bind/mod.rs` with its helpers (`helpers.rs`), its
parameter constraints (`params.rs`) and the inference of function types (`functions.rs`). The binder
is a state monad over what binding accumulates: diagnostics, parameter constraints and the next
automatic parameter position.

Beside these the state keeps a log of the unqualified relation references that were resolved, which
the code does not have and no function reads: it is what the statements about name resolution are
about.
-/

namespace QueryFabric.Bind

/-- What a binder is created with. `toLowercase` is `char::to_lowercase`. -/
structure BinderContext where
  catalog : Catalog
  parameters : QueryParameters
  toLowercase : Char → List Char

/-- `NullableConstraint`. -/
inductive NullableConstraint
  | unknown
  | nullable
  | nonNull
deriving DecidableEq, Repr

/-- `NullableConstraint::merge`. -/
def NullableConstraint.merge : NullableConstraint → NullableConstraint → NullableConstraint
  | .nonNull, _ | _, .nonNull => .nonNull
  | .nullable, .nullable => .nullable
  | .nullable, .unknown | .unknown, .nullable => .nullable
  | _, _ => .unknown

/-- `ParameterConstraint`. -/
structure ParameterConstraint where
  dataType : Option DataType
  nullable : NullableConstraint
  span : Option QuerySourceSpan
  nodeId : Option String
deriving DecidableEq, Repr

/-- What the context of an expression expects of it. -/
structure ExpectedType where
  dataType : Option DataType := none
  nullable : NullableConstraint := .unknown

/-- The expectation of a Boolean that is not null. -/
def ExpectedType.boolean : ExpectedType := { dataType := some .boolean, nullable := .nonNull }

/-- The expectation of a value of the type of another one, when that is known. -/
def ExpectedType.sameAs (type : DataType) : ExpectedType :=
  { dataType := if type.isUnknown then none else some type, nullable := .nonNull }

/-- What an unqualified relation reference is resolved to. -/
inductive Resolution
  | cte (definition : SyntaxCte)
  | catalog (schema : RelationSchema)
  | unknown

/-- `Binder`, with the definitions that relations were resolved to. -/
structure Binder where
  diagnostics : List QueryDiagnostic := []
  parameterConstraints : List (ParameterRef × ParameterConstraint) := []
  nextAutoPosition : Nat
  resolutions : List (String × Resolution) := []

/-- Binding changes the binder as it goes. -/
abbrev BindM := StateM Binder

/-- A diagnostic with the place it is about. -/
def locatedDiagnostic (diagnostic : QueryDiagnostic) (node : SyntaxNode)
    (remediation : Option String) : QueryDiagnostic :=
  { diagnostic with nodeId := some node.nodeId, span := node.span, remediation }

/-- `push_error`. -/
def pushError (code message : String) (node : SyntaxNode) (remediation : Option String) :
    BindM Unit :=
  modify fun s => { s with diagnostics :=
    s.diagnostics ++ [locatedDiagnostic (.error code message) node remediation] }

/-- `push_warning`. -/
def pushWarning (code message : String) (node : SyntaxNode) (remediation : Option String) :
    BindM Unit :=
  modify fun s => { s with diagnostics :=
    s.diagnostics ++ [locatedDiagnostic (.warning code message) node remediation] }

/-- The entry of the log for a relation reference, which only unqualified ones have. -/
def logResolution (name : NameRef) (resolution : Resolution) : BindM Unit :=
  modify fun s =>
    if name.namespace_.isNone then
      { s with resolutions := s.resolutions ++ [(name.name, resolution)] }
    else s

/-- `unsupported_expr`. -/
def unsupportedExpr (expr : SyntaxExpr) (code message : String) (remediation : Option String) :
    BindM BoundExpr := do
  pushError code message expr.node remediation
  return { kind := .unsupported expr.node.nodeId, dataType := .unknown, nullable := true,
           node := expr.node }

/-- `bind_literal`. -/
def bindLiteral (node : SyntaxNode) (value : LiteralValue) : BoundExpr :=
  let (dataType, nullable) := match value with
    | .null => (DataType.unknown, true)
    | .boolean _ => (.boolean, false)
    | .int64 _ => (.int64, false)
    | .float64 _ => (.float64, false)
    | .utf8 _ => (.utf8, false)
  { kind := .literal value, dataType, nullable, node }

/-- `expression_name`. -/
def expressionName (expr : SyntaxExpr) : String :=
  match expr.kind with
  | .column _ name => name
  | .function call => call.function.displayName
  | .parameter reference => reference.display
  | _ => expr.node.nodeId

/-! ## Parameters -/

/-- `next_auto_position_seed`. Positions are `u32`, and adding saturates. -/
def nextAutoPositionSeed (parameters : QueryParameters) : Nat :=
  min ((parameters.positional.map Prod.fst).foldl max 0 + 1) (2 ^ 32 - 1)

/-- `Binder::new`. -/
def Binder.new (context : BinderContext) : Binder :=
  { nextAutoPosition := nextAutoPositionSeed context.parameters }

/-- `allocate_parameter`. -/
def allocateParameter : ParameterRef → BindM ParameterRef
  | .positional 0 => do
    let s ← get
    set { s with nextAutoPosition := (s.nextAutoPosition + 1) % 2 ^ 32 }
    return .positional s.nextAutoPosition
  | other => return other

/-- The strict order of parameter references. -/
def parameterRefLt (a b : ParameterRef) : Bool := !ParameterRef.le b a

/-- The update of a constraint in `record_parameter_use`. -/
def ParameterConstraint.record (constraint : ParameterConstraint) (expected : ExpectedType) :
    ParameterConstraint :=
  { constraint with
    nullable := constraint.nullable.merge expected.nullable
    dataType := match expected.dataType.filter fun type => !type.isUnknown with
      | some type => some (match constraint.dataType with
        | some existing => DataType.commonOrUnknown existing type
        | none => type)
      | none => constraint.dataType }

/-- `record_parameter_use`. -/
def recordParameterUse (reference : ParameterRef) (expected : ExpectedType) (node : SyntaxNode) :
    BindM Unit :=
  modify fun s =>
    let constraint := (s.parameterConstraints.lookup reference).getD
      { dataType := none, nullable := .unknown, span := node.span, nodeId := some node.nodeId }
    { s with parameterConstraints :=
        mapInsert parameterRefLt reference (constraint.record expected) s.parameterConstraints }

/-! ## Functions -/

/-- The signature of a called function: the catalog's, or else the builtin one. -/
def BinderContext.signature (context : BinderContext) (function : FunctionRef) :
    Option FunctionSignature :=
  (context.catalog.resolveFunction function.namespace_ function.name).or
    (builtinFunctionSignature function.namespace_ function.name)

/-- The type that a signature expects of an argument. -/
def FunctionSignature.argType (signature : FunctionSignature) (index : Nat) : Option DataType :=
  (signature.argTypes[index]?).or
    (if signature.variadic then signature.argTypes.getLast? else none)

/-- `infer_function_return_type`. -/
def inferFunctionReturnType (signature : FunctionSignature) (args : List BoundExpr) : DataType :=
  if !signature.returnType.isUnknown then signature.returnType
  else if ["coalesce", "greatest", "least", "min", "max", "lag", "lead", "first_value",
      "last_value"].contains signature.name then
    DataType.reduceCommon (args.map BoundExpr.dataType)
  else .unknown

/-- `infer_function_nullability`. -/
def inferFunctionNullability (signature : FunctionSignature) (args : List BoundExpr) : Bool :=
  match signature.kind, signature.name with
  | .aggregate, "count" => false
  | .aggregate, _ => true
  | .window, "rank" | .window, "dense_rank" | .window, "row_number" => false
  | .window, "lag" | .window, "lead" => true
  | _, "coalesce" => args.all BoundExpr.nullable
  | _, _ => args.any BoundExpr.nullable

/-! ## Relations -/

/-- `make_relation_nullable`. -/
def makeRelationNullable : BoundRelation → BoundRelation
  | .table binding node =>
    .table { binding with schema := makeSchemaNullable binding.schema } node
  | .derived binding query node =>
    .derived { binding with schema := makeSchemaNullable binding.schema } query node
  | .nestedJoin binding tableWithJoins node =>
    .nestedJoin { binding with schema := makeSchemaNullable binding.schema } tableWithJoins node
  | .unsupported description bindingName node => .unsupported description bindingName node

/-- `make_join_relations_nullable`. -/
def makeJoinRelationsNullable (joins : List BoundJoin) : List BoundJoin :=
  joins.map fun join => { join with relation := makeRelationNullable join.relation }

/-- The schema of `UNION ALL` in `unify_union_schema`, for equal column counts. -/
def unionSchema (left right : ResultSchema) : ResultSchema :=
  .new ((left.fields.zip right.fields).map fun (left, right) =>
    { name := left.name, dataType := DataType.commonOrUnknown left.dataType right.dataType,
      nullable := left.nullable || right.nullable, metadata := left.metadata })

/-- `unify_union_schema`. -/
def unifyUnionSchema (left right : ResultSchema) (node : SyntaxNode) : BindM ResultSchema :=
  if left.fields.length ≠ right.fields.length then do
    pushError "QF0022" ("UNION ALL requires equal column counts but found " ++
      toString left.fields.length ++ " and " ++ toString right.fields.length ++ ".") node none
    return {}
  else return unionSchema left right

/-- A common table expression in scope: its definition, and the binding of references to it. -/
structure CteEntry where
  definition : SyntaxCte
  binding : BoundRelationBinding

/-- The CTEs in scope, by lowercased name. -/
abbrev CteScope := List (String × CteEntry)

/-- The result schema of a CTE: that of its query, renamed by a column list of the same length. -/
def cteSchema (columns : List String) (schema : ResultSchema) : ResultSchema :=
  if !columns.isEmpty && columns.length == schema.fields.length then
    { schema with fields := (schema.fields.zip columns).map fun (field, alias_) =>
        { field with name := alias_ } }
  else schema

/-- The relation that a table reference means: a CTE when the reference is unqualified and one of
its name is in scope, and otherwise a relation of the catalog. -/
def resolveTable (context : BinderContext) (ctes : CteScope) (name : NameRef) :
    Resolution × Option BoundRelationBinding :=
  match if name.namespace_.isNone then ctes.lookup (toAsciiLowercase name.name) else none with
  | some entry => (.cte entry.definition, some entry.binding)
  | none =>
    match context.catalog.resolveRelation name.namespace_ name.name with
    | some schema => (.catalog schema, some { bindingName := name.name, relationName := some name
                                              schema := schema.toResultSchema })
    | none => (.unknown, none)

/-- The binding name of a derived table or nested join. -/
def derivedName (alias_ : Option String) (node : SyntaxNode) : String :=
  alias_.getD (String.ofList (node.nodeId.toList.map fun c => if c = '.' then '_' else c))

/-- `subquery_single_field`. -/
def subquerySingleField (node : SyntaxNode) (subquery : BoundQueryPlan) (code context : String) :
    BindM (Option ResultField) :=
  match subquery.resultSchema.fields with
  | [field] => return some field
  | fields => do
    pushError code (context ++
      " must project exactly one column in the verified portable subset; found " ++
      toString fields.length ++ ".") node
      (some "Rewrite the subquery to return exactly one projected column.")
    return none

end QueryFabric.Bind
