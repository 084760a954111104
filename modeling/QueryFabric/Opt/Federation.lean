import QueryFabric.Catalog.Features
import QueryFabric.Opt.Relations

/-!
# Planning a federated query

The scatter-gather planner of `crates/queryfabric-opt/src/federation`: a statement that every node
runs, and a statement over the rows that the nodes return. An aggregate is computed of each node's
rows and then of these partial results.
-/

namespace QueryFabric.Opt

/-- `PARTIALS_RELATION`. -/
def partialsRelation : String := "partials"

/-- `FederationError`, with the errors of the compiler beside its own. -/
inductive PlanError
  | federation (error : FederationError)
  | compile (error : QueryFabricError)
deriving DecidableEq, Repr

/-- `ScatterGatherPlan`. -/
structure ScatterGatherPlan where
  scatterSql : String
  gatherSql : String
  fromTarget : String
  resultSchema : ResultSchema
deriving DecidableEq, Repr

/-- What planning uses of a `BackendAdapter`: its name, and the SQL artifact that it emits, if it
emits one. -/
structure BackendAdapter where
  name : String
  emit : BoundQuery → Catalog → Except QueryFabricError (Option SqlArtifact)

/-- The adapter of an SQL backend. -/
def sqlAdapter (backend : Render.SqlBackend) : BackendAdapter where
  name := match backend with
    | .clickHouse => "clickhouse"
    | .postgres => "postgres"
  emit bound catalog := (emit backend bound catalog).map some

/-! ## Aggregates -/

/-- `AggregateRewrite`. -/
structure AggregateRewrite where
  scatterProjection : List BoundProjectionItem
  gatherProjection : BoundProjectionItem

/-- `column_expr`. -/
def columnExpr (name : String) (dataType : DataType) (nullable : Bool) (node : SyntaxNode) :
    BoundExpr :=
  ⟨.column ⟨none, name⟩, dataType, nullable, node⟩

/-- `column_projection`. -/
def columnProjection (name : String) (field : ResultField) (node : SyntaxNode) :
    BoundProjectionItem :=
  .expr ⟨columnExpr name field.dataType field.nullable node, none, field, node⟩

/-- A call of an aggregate with one argument. -/
def aggregateCall (name : String) (arg : BoundExpr) : BoundExprKind :=
  .function ⟨⟨none, name⟩, none, [arg], false, none, none, none⟩

/-- `simple_expr_name`. -/
def simpleExprName (expr : BoundExpr) : Option String :=
  match expr.kind with
  | .column column => some column.name
  | .literal _ => some "literal"
  | _ => none

/-- `auto_aggregate_alias`. -/
def autoAggregateAlias (function : BoundFunctionCall) (index : Nat) : String :=
  let func := toAsciiLowercase function.function.name
  let arg := (function.args.head?.bind simpleExprName).getD "value"
  func ++ "_" ++ arg ++ "_" ++ toString index

/-- `projection_output_name`. -/
def projectionOutputName (details : BoundProjectionExpr) : Option String :=
  details.alias_.or (simpleExprName details.expr)

/-- `field_for_projection`. -/
def fieldForProjection : BoundProjectionItem → Except FederationError ResultField
  | .expr details => .ok details.field
  | _ => .error (.unsupported "federation aggregate planning requires expression projections")

/-- The rewriting of an aggregate that its partial results are merged by `merge`. -/
def mergedBy (merge : String) (details : BoundProjectionExpr) (userAlias : String) (index : Nat)
    (dataType : DataType) (nullable : Bool) : AggregateRewrite :=
  let scatterAlias := "__fed_" ++ userAlias ++ "_" ++ toString index
  let scatterField : ResultField := .new scatterAlias dataType nullable
  let gatherFunction : BoundExpr :=
    ⟨aggregateCall merge (columnExpr scatterAlias dataType nullable details.node),
      details.field.dataType,
      details.field.nullable, details.node⟩
  { scatterProjection := [.expr ⟨details.expr, some scatterAlias, scatterField, details.node⟩]
    gatherProjection := .expr ⟨gatherFunction, some userAlias, details.field, details.node⟩ }

/-- The rewriting of `AVG`: its sum and its count, and the quotient of their sums. -/
def averaged (details : BoundProjectionExpr) (arg : BoundExpr) (userAlias : String) (index : Nat) :
    AggregateRewrite :=
  let sumAlias := "__fed_" ++ userAlias ++ "_sum_" ++ toString index
  let cntAlias := "__fed_" ++ userAlias ++ "_cnt_" ++ toString index
  let node := details.node
  let sumExpr : BoundExpr :=
    ⟨aggregateCall "sum" (columnExpr sumAlias .float64 true node), .float64, true, node⟩
  let cntExpr : BoundExpr :=
    ⟨aggregateCall "sum" (columnExpr cntAlias .int64 false node), .float64, true, node⟩
  let gatherExpr : BoundExpr :=
    ⟨.binary .divide sumExpr cntExpr, details.field.dataType, details.field.nullable, node⟩
  { scatterProjection := [
      .expr ⟨⟨aggregateCall "sum" arg, .float64, true, node⟩, some sumAlias,
        .new sumAlias .float64 true, node⟩,
      .expr ⟨⟨aggregateCall "count" arg, .int64, false, node⟩, some cntAlias,
        .new cntAlias .int64 false, node⟩]
    gatherProjection := .expr ⟨gatherExpr, some userAlias, details.field, node⟩ }

/-- `classify_supported_aggregate`. -/
def classifySupportedAggregate (details : BoundProjectionExpr) (index : Nat) :
    Except FederationError (Option AggregateRewrite) :=
  match details.expr.kind with
  | .function function =>
    -- The modifiers are refused before the function is looked at.
    if function.over_.isSome || function.filter.isSome || function.distinct then
      .error (.unsupported
        "federation aggregate planning does not support DISTINCT, FILTER, or windowed aggregates")
    else
      let functionName := toAsciiLowercase function.function.name
      let userAlias := details.alias_.getD (autoAggregateAlias function index)
      match functionName with
      | "sum" | "min" | "max" =>
        .ok (some (mergedBy functionName details userAlias index details.field.dataType
          details.field.nullable))
      -- A count is merged by a sum.
      | "count" => .ok (some (mergedBy "sum" details userAlias index .int64 false))
      | "avg" =>
        match function.args with
        | arg :: _ => .ok (some (averaged details arg userAlias index))
        | [] => .error (.unsupported "AVG federation decomposition requires a single argument")
      | _ => .error (.unsupported
          ("federation aggregate planning does not support `" ++
            function.function.displayName ++ "`"))
  | _ => .ok none

/-- The functions that `expr_contains_aggregate` looks for. -/
def isAggregateName (name : String) : Bool :=
  ["count", "sum", "avg", "min", "max", "count_distinct"].contains (toAsciiLowercase name)

mutual

/-- `expr_contains_aggregate`. -/
def exprContainsAggregate : BoundExpr → Bool
  | ⟨kind, _, _, _⟩ => kindContainsAggregate kind

/-- Whether the kind of an expression contains an aggregate. -/
def kindContainsAggregate : BoundExprKind → Bool
  | .function ⟨function, _, args, _, filter, _, _⟩ =>
    isAggregateName function.name || exprsContainAggregate args ||
      exprOptionContainsAggregate filter
  | .unary _ expr | .cast expr _ | .isNull expr _ => exprContainsAggregate expr
  | .binary _ left right => exprContainsAggregate left || exprContainsAggregate right
  | .case operand whenThen elseResult =>
    exprOptionContainsAggregate operand || whenThenContainsAggregate whenThen ||
      exprOptionContainsAggregate elseResult
  | .between expr low high _ =>
    exprContainsAggregate expr || exprContainsAggregate low || exprContainsAggregate high
  | .inList expr list _ => exprContainsAggregate expr || exprsContainAggregate list
  | .like expr pattern _ _ => exprContainsAggregate expr || exprContainsAggregate pattern
  | .tuple items | .array items => exprsContainAggregate items
  | .inSubquery .. | .scalarSubquery _ | .exists _ | .column _ | .literal _ | .parameter _
  | .unsupported _ => false

/-- Whether a list of expressions contains an aggregate. -/
def exprsContainAggregate : List BoundExpr → Bool
  | [] => false
  | expr :: exprs => exprContainsAggregate expr || exprsContainAggregate exprs

/-- Whether an optional expression contains an aggregate. -/
def exprOptionContainsAggregate : Option BoundExpr → Bool
  | none => false
  | some expr => exprContainsAggregate expr

/-- Whether the branches of a `CASE` contain an aggregate. -/
def whenThenContainsAggregate : List BoundWhenThen → Bool
  | [] => false
  | ⟨condition, result⟩ :: branches =>
    exprContainsAggregate condition || exprContainsAggregate result ||
      whenThenContainsAggregate branches

end

/-! ## Plans -/

/-- The features that cannot be decomposed, with the name of each. -/
def unsupportedFeatures (features : PlanFeatures) : List String :=
  (if features.hasCtes then ["WITH (CTE)"] else []) ++
    (if features.hasDerivedTables then ["FROM subquery"] else []) ++
    (if features.hasJoins then ["JOIN"] else []) ++
      (if features.hasWindows then ["window functions"] else []) ++
    (if features.hasSetOperations then ["set operations"] else []) ++
    (if features.hasScalarSubqueries then ["scalar subqueries"] else []) ++
    (if features.hasInSubqueries then ["WHERE ... IN (SELECT ...)"] else []) ++
    (if features.hasClickhouseSettings then ["SETTINGS"] else []) ++
    (if features.hasClickhouseFormat then ["FORMAT"] else [])

/-- `validate_federation_shape`. -/
def validateFederationShape (features : PlanFeatures) (bound : BoundQuery) :
    Except FederationError Unit := do
  let unsupported := unsupportedFeatures features
  if !unsupported.isEmpty then
    throw (.unsupported ("distributed execution does not support " ++ ", ".intercalate unsupported))
  let binding ← primaryRelationBinding bound
  if binding.relationName.isNone then
    throw (.unsupported "distributed execution requires a primary base relation")

/-- `from_target`. -/
def baseRelationName (binding : BoundRelationBinding) : Except FederationError String :=
  match binding.relationName with
  | some name => .ok name.displayName
  | none => .error (.unsupported "distributed execution requires a named base relation")

/-- `emit_sql`. -/
def emitSql (adapter : BackendAdapter) (bound : BoundQuery) (catalog : Catalog) :
    Except PlanError SqlArtifact := do
  match ← (adapter.emit bound catalog).mapError PlanError.compile with
  | some artifact => return artifact
  | none => throw (.federation (.unsupported
      ("backend `" ++ adapter.name ++ "` did not produce a SQL artifact for distributed planning")))

/-- The plan without its `ORDER BY`, `LIMIT` and `OFFSET`. -/
def unordered (plan : BoundQueryPlan) : BoundQueryPlan :=
  { plan with orderBy := [], limit := none, offset := none }

/-- `build_federated_passthrough_plan`. -/
def buildFederatedPassthroughPlan (adapter : BackendAdapter) (catalog : Catalog)
    (bound : BoundQuery) (artifact : SqlArtifact) : Except PlanError ScatterGatherPlan := do
  let baseRelation ← (primaryRelationBinding bound).mapError PlanError.federation
  let fromTarget ← (baseRelationName baseRelation).mapError PlanError.federation
  let scatterArtifact ← emitSql adapter (bound.withPlan (unordered bound.plan)) catalog
  let gatherSql ← (wrapQueryOverPartials artifact.text baseRelation).mapError PlanError.federation
  return { scatterSql := scatterArtifact.text, gatherSql, fromTarget,
           resultSchema := artifact.resultSchema }

/-- What the projections of a query come to in the two stages. -/
structure Stages where
  scatterProjection : List BoundProjectionItem := []
  gatherProjection : List BoundProjectionItem := []
  gatherGroupBy : List BoundExpr := []
  scatterFields : List ResultField := []
  aggregateCount : Nat := 0

/-- What is added for one projection, of an index. -/
def Stages.addProjection (stages : Stages) (item : BoundProjectionItem) (index : Nat) :
    Except FederationError Stages := do
  match item.asExpr with
  | none =>
    throw (.unsupported "federation aggregate planning requires explicit projection expressions")
  | some details =>
    match ← classifySupportedAggregate details index with
    -- An aggregate is computed on the nodes and merged.
    | some aggregate =>
      let fields ← aggregate.scatterProjection.mapM fieldForProjection
      return { stages with
        scatterProjection := stages.scatterProjection ++ aggregate.scatterProjection
        gatherProjection := stages.gatherProjection ++ [aggregate.gatherProjection]
        scatterFields := stages.scatterFields ++ fields
        aggregateCount := stages.aggregateCount + 1 }
    | none =>
      if exprContainsAggregate details.expr then
        throw (.unsupported
          "federation aggregate planning only supports top-level SUM/COUNT/AVG/MIN/MAX projections")
      match projectionOutputName details with
      | none => throw (.unsupported
          "federation aggregate planning requires aliases for computed non-aggregate projections")
      -- Anything else groups, under its output name.
      | some outputName =>
        return { stages with
          scatterProjection := stages.scatterProjection ++ [item]
          gatherProjection := stages.gatherProjection ++
            [columnProjection outputName details.field details.node]
          gatherGroupBy := stages.gatherGroupBy ++
            [columnExpr outputName details.field.dataType details.field.nullable details.node]
          scatterFields := stages.scatterFields ++ [details.field] }

/-- The loop of `build_federated_aggregate_plan`. -/
def aggregateStages (projection : List BoundProjectionItem) : Except FederationError Stages :=
  projection.zipIdx.foldlM (fun stages (item, index) => stages.addProjection item index) {}

/-- The select that every node runs. -/
def scatterSelect (select : BoundSelect) (stages : Stages) : BoundSelect :=
  { select with
    projection := stages.scatterProjection
    having := none
    resultSchema := .new stages.scatterFields }

/-- The select over the rows that the nodes return. -/
def gatherSelect (select : BoundSelect) (stages : Stages)
    (placeholderBinding : BoundRelationBinding) (resultSchema : ResultSchema) : BoundSelect where
  distinct := false
  projection := stages.gatherProjection
  from_ := [⟨.table placeholderBinding select.node, [], select.node⟩]
  selection := none
  groupBy := stages.gatherGroupBy
  having := none
  resultSchema
  node := select.node

/-- The checks of `build_federated_aggregate_plan`, and the stages of the query. -/
def checkedStages (bound : BoundQuery) (select : BoundSelect) : Except FederationError Stages := do
  let stages ← aggregateStages select.projection
  if stages.aggregateCount = 0 then
    throw (.unsupported "expected aggregate projections for federation aggregate planning")
  if bound.plan.orderBy.any fun orderBy => exprContainsAggregate orderBy.expr then
    throw (.unsupported
      "federation aggregate ORDER BY must reference projected aliases, not aggregate expressions")
  return stages

/-- What `build_federated_aggregate_plan` refuses of the select and its plan. -/
def checkAggregateShape (bound : BoundQuery) (select : BoundSelect) :
    Except FederationError Unit := do
  if select.distinct then
    throw (.unsupported "federation aggregate planning does not support SELECT DISTINCT")
  if select.having.isSome then
    throw (.unsupported "federation aggregate planning does not yet support HAVING")
  if bound.plan.offset.isSome then
    throw (.unsupported "federation aggregate planning does not yet support OFFSET")

/-- The query that every node runs. -/
def scatterBound (bound : BoundQuery) (select : BoundSelect) (stages : Stages) : BoundQuery :=
  let scatter := scatterSelect select stages
  bound.withPlan { unordered bound.plan with body := .select scatter,
                                             resultSchema := scatter.resultSchema }

/-- The relation that the partial results are bound to. -/
def placeholderBinding (baseRelation : BoundRelationBinding) (schema : ResultSchema) :
    BoundRelationBinding :=
  ⟨baseRelation.bindingName, some ⟨none, partialsRelation⟩, schema⟩

/-- The query over the rows that the nodes return. -/
def gatherBound (bound : BoundQuery) (select : BoundSelect) (stages : Stages)
    (binding : BoundRelationBinding) (resultSchema : ResultSchema) : BoundQuery :=
  bound.withPlan { bound.plan with
    body := .select (gatherSelect select stages binding resultSchema)
    resultSchema }

/-- `build_federated_aggregate_plan`. -/
def buildFederatedAggregatePlan (adapter : BackendAdapter) (catalog : Catalog) (bound : BoundQuery)
    (artifact : SqlArtifact) : Except PlanError ScatterGatherPlan := do
  let originalSelect ← (topLevelSelect bound).mapError PlanError.federation
  (checkAggregateShape bound originalSelect).mapError PlanError.federation
  let baseRelation ← (primaryRelationBinding bound).mapError PlanError.federation
  let fromTarget ← (baseRelationName baseRelation).mapError PlanError.federation
  let stages ← (checkedStages bound originalSelect).mapError PlanError.federation
  let scatterArtifact ← emitSql adapter (scatterBound bound originalSelect stages) catalog
  let binding := placeholderBinding baseRelation scatterArtifact.resultSchema
  let gatherArtifact ← emitSql adapter
    (gatherBound bound originalSelect stages binding artifact.resultSchema) catalog
  let gatherSql ← (wrapPlaceholderRelation gatherArtifact.text binding).mapError
    PlanError.federation
  return { scatterSql := scatterArtifact.text, gatherSql, fromTarget,
           resultSchema := artifact.resultSchema }

/-- `build_scatter_gather_plan`. -/
def buildScatterGatherPlan (adapter : BackendAdapter) (catalog : Catalog) (bound : BoundQuery)
    (features : PlanFeatures) (artifact : SqlArtifact) : Except PlanError ScatterGatherPlan := do
  (validateFederationShape features bound).mapError PlanError.federation
  if features.hasAggregates then buildFederatedAggregatePlan adapter catalog bound artifact
  else buildFederatedPassthroughPlan adapter catalog bound artifact

end QueryFabric.Opt
