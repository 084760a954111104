import QueryFabric.Catalog.Cost
import QueryFabric.Dialect.Lower
import QueryFabric.Ir.Nested

/-!
# The ClickHouse cost estimate

`estimate_clickhouse_cost` of `crates/queryfabric-adapter-clickhouse/src/cost.rs`: the rows,
partitions and memory that a query takes, from the statistics of the relations in its FROM clauses
and those of its CTEs and derived tables.
-/

namespace QueryFabric.ClickHouse

open Lib

/-- The part of the `Catalog` trait that the estimate asks for. -/
structure StatisticsCatalog where
  relationStatistics : Option String → String → Option RelationStatistics
  resolveRelation : Option String → String → Option RelationSchema

/-- `CostEstimateError`. -/
inductive CostEstimateError
  | missingStatistics (message : String)
  | backend (message : String)
deriving DecidableEq, Repr

/-- `EstimatedCost`. -/
structure EstimatedCost where
  memoryBytes : UInt64
  rowsScanned : UInt64
  partitionsTouched : UInt32
  wallclockEstimateMs : UInt64
deriving DecidableEq, Repr

/-! ## Relations -/

/-- `RelationCostContext`, with at least one partition. -/
structure RelationCostContext where
  namespace_ : Option String
  name : String
  bindingName : String
  estimatedRows : UInt64
  averageRowBytes : UInt64
  partitionColumns : List String
  partitionCount : UInt32
  partitionCount_pos : 0 < partitionCount.toNat
deriving DecidableEq, Repr

/-- `partition_columns`: the names in the metadata, trimmed, in lower case and sorted. -/
def partitionColumns (relation : RelationSchema) : List String :=
  match (relation.metadata.lookup "partition_columns").or
    (relation.metadata.lookup "partition_column") with
  | some value =>
    let names := (value.toList.splitOn ',').map Dialect.trim
    let names := (names.filter fun name => decide (name ≠ [])).map fun name =>
      toAsciiLowercase (String.ofList name)
    names.foldl (fun columns name => setInsert (fun a b => decide (a < b)) name columns) []
  | none => []

/-- `relation_partition_count`: at least one. -/
def relationPartitionCount (relation : RelationSchema) : UInt32 :=
  let count := (relation.metadata.lookup "partition_count").bind fun value =>
    Dialect.parseU32 value.toList
  max ((count.map UInt32.ofNat).getD 1) 1

/-- A relation has at least one partition. -/
theorem relationPartitionCount_pos (relation : RelationSchema) :
    0 < (relationPartitionCount relation).toNat := by
  unfold relationPartitionCount
  dsimp only
  rw [toNat_max32]
  exact lt_max_of_lt_right (by decide)

/-- The context of a table. -/
def relationContext (catalog : StatisticsCatalog) (binding : BoundRelationBinding) :
    Except CostEstimateError RelationCostContext :=
  match binding.relationName with
  | none =>
    .error (.missingStatistics ("table binding " ++ binding.bindingName ++ " has no relation name"))
  | some relationName =>
    match catalog.relationStatistics relationName.namespace_ relationName.name with
    | none => .error (.missingStatistics relationName.displayName)
    | some stats =>
      match catalog.resolveRelation relationName.namespace_ relationName.name with
      | none => .error (.missingStatistics relationName.displayName)
      | some schema => .ok
        { namespace_ := relationName.namespace_, name := relationName.name,
          bindingName := binding.bindingName
          estimatedRows := stats.estimatedRows, averageRowBytes := stats.averageRowBytes
          partitionColumns := partitionColumns schema,
          partitionCount := relationPartitionCount schema
          partitionCount_pos := relationPartitionCount_pos schema }

section Collect

variable (catalog : StatisticsCatalog)

mutual

/-- `collect_relation_cost_contexts`. -/
def collectRelationCostContexts :
    BoundQueryPlan → Except CostEstimateError (List RelationCostContext)
  | ⟨_, ctes, body, _, _, _, _, _⟩ => do
    let inCtes ← collectCteRelations ctes
    let inBody ← collectSetExprRelations body
    return inCtes ++ inBody
termination_by structural x => x

/-- The loop over CTEs. -/
def collectCteRelations : List BoundCte → Except CostEstimateError (List RelationCostContext)
  | [] => return []
  | ⟨_, _, query, _, _⟩ :: ctes => do
    let first ← collectRelationCostContexts query
    let rest ← collectCteRelations ctes
    return first ++ rest
termination_by structural x => x

/-- `collect_set_expr_relations`. -/
def collectSetExprRelations : BoundSetExpr → Except CostEstimateError (List RelationCostContext)
  | .select select => collectSelectRelations select
  | .unionAll left right _ _ => do
    let inLeft ← collectSetExprRelations left
    let inRight ← collectSetExprRelations right
    return inLeft ++ inRight
  | .unsupported description _ _ =>
    throw (.backend ("unsupported bound set expression: " ++ description))
termination_by structural x => x

/-- The relations of a select. -/
def collectSelectRelations : BoundSelect → Except CostEstimateError (List RelationCostContext)
  | ⟨_, _, from_, _, _, _, _, _⟩ => collectFromRelations from_
termination_by structural x => x

/-- The loop over a `FROM` clause. -/
def collectFromRelations : List BoundTableWithJoins →
    Except CostEstimateError (List RelationCostContext)
  | [] => return []
  | table :: tables => do
    let first ← collectTableRelations table
    let rest ← collectFromRelations tables
    return first ++ rest
termination_by structural x => x

/-- The relations of a table with its joins. -/
def collectTableRelations : BoundTableWithJoins →
    Except CostEstimateError (List RelationCostContext)
  | ⟨relation, joins, _⟩ => do
    let first ← collectRelation relation
    let rest ← collectJoinRelations joins
    return first ++ rest
termination_by structural x => x

/-- The loop over joins. -/
def collectJoinRelations : List BoundJoin → Except CostEstimateError (List RelationCostContext)
  | [] => return []
  | ⟨_, relation, _, _⟩ :: joins => do
    let first ← collectRelation relation
    let rest ← collectJoinRelations joins
    return first ++ rest
termination_by structural x => x

/-- `collect_relation`. -/
def collectRelation : BoundRelation → Except CostEstimateError (List RelationCostContext)
  | .table binding _ => do
    let context ← relationContext catalog binding
    return [context]
  | .derived _ query _ => collectRelationCostContexts query
  | .nestedJoin _ tableWithJoins _ => collectTableRelations tableWithJoins
  | .unsupported description _ _ => throw (.backend ("unsupported bound relation: " ++ description))
termination_by structural x => x

end

end Collect

/-! ## Partitions -/

/-- `is_partition_column`. -/
def isPartitionColumn (expr : BoundExpr) (relation : RelationCostContext)
    (column : String) : Bool :=
  match expr.kind with
  | .column columnRef =>
    eqIgnoreAsciiCase columnRef.name column &&
      columnRef.relation.all fun qualifier =>
        eqIgnoreAsciiCase qualifier relation.bindingName ||
          eqIgnoreAsciiCase qualifier relation.name ||
          relation.namespace_.any fun namespace_ => eqIgnoreAsciiCase qualifier namespace_
  | _ => false

/-- `is_literal_expr`. -/
def isLiteralExpr (expr : BoundExpr) : Bool :=
  match expr.kind with
  | .literal (.boolean _) | .literal (.int64 _) | .literal (.float64 _) | .literal (.utf8 _) => true
  | _ => false

/-- `compares_partition_to_literal`. -/
def comparesPartitionToLiteral (maybeColumn maybeLiteral : BoundExpr)
    (relation : RelationCostContext) (column : String) : Bool :=
  isPartitionColumn maybeColumn relation column && isLiteralExpr maybeLiteral

/-- Whether an operator compares its operands by order or equality. -/
def comparesOrder : BinaryOperator → Bool
  | .eq | .lt | .ltEq | .gt | .gtEq => true
  | _ => false

section Spans

variable (relation : RelationCostContext) (column : String)

/-- The spans of two conjuncts: the smaller of them. -/
def andSpan : Option UInt32 → Option UInt32 → Option UInt32
  | some left, some right => some (min left right)
  | some count, none | none, some count => some count
  | none, none => none

/-- The spans of two disjuncts: their sum, if there are both. -/
def orSpan : Option UInt32 → Option UInt32 → Option UInt32
  | some left, some right => some (saturatingAdd32 left right)
  | _, _ => none

/-- The spans of the branches of a union: their sum, or the one there is. -/
def unionSpan : Option UInt32 → Option UInt32 → Option UInt32
  | some left, some right => some (saturatingAdd32 left right)
  | some count, none | none, some count => some count
  | none, none => none

mutual

/-- `partition_expr_span`. -/
def partitionExprSpan : BoundExpr → Option UInt32
  | ⟨kind, _, _, _⟩ => partitionKindSpan kind
termination_by structural x => x

/-- The match of `partition_expr_span`. -/
def partitionKindSpan : BoundExprKind → Option UInt32
  | .binary .and left right => andSpan (partitionExprSpan left) (partitionExprSpan right)
  | .binary .or left right => orSpan (partitionExprSpan left) (partitionExprSpan right)
  | .binary op left right =>
    if comparesOrder op && (comparesPartitionToLiteral left right relation column ||
        comparesPartitionToLiteral right left relation column) then some 1
    else none
  | .between expr low high false =>
    if isPartitionColumn expr relation column && isLiteralExpr low && isLiteralExpr high then
      some 2 else none
  | .inList expr list false =>
    if isPartitionColumn expr relation column then
      let literalCount := (list.filter isLiteralExpr).length
      if 0 < literalCount then
        some (if literalCount < 2 ^ 32 then UInt32.ofNat literalCount else 4294967295)
      else none
    else none
  | _ => none
termination_by structural x => x

end

/-- `partition_predicate_span`. -/
def partitionPredicateSpan : BoundSetExpr → Option UInt32
  | .select select => select.selection.bind (partitionExprSpan relation column)
  | .unionAll left right _ _ =>
    unionSpan (partitionPredicateSpan left) (partitionPredicateSpan right)
  | .unsupported .. => none

end Spans

/-- The partitions of a relation that are counted. -/
def touchedPartitions (body : BoundSetExpr) (relation : RelationCostContext) : UInt32 :=
  let pruned := (relation.partitionColumns.filterMap fun column =>
    partitionPredicateSpan relation column body).min?
  pruned.getD relation.partitionCount

/-- `estimate_partitions_touched`. -/
def estimatePartitionsTouched (plan : BoundQueryPlan)
    (relations : List RelationCostContext) : UInt32 :=
  relations.foldl
    (fun touched relation => saturatingAdd32 touched (touchedPartitions plan.body relation)) 0

/-! ## Memory -/

mutual

/-- `data_type_size`. -/
def dataTypeSize : DataType → UInt64
  | .boolean => 1
  | .int32 => 4
  | .int64 => 8
  | .float64 => 8
  | .utf8 => 32
  | .uuid => 16
  | .json => 64
  | .date => 4
  | .decimal .. => 16
  | .timestamp _ => 8
  | .list inner => 8 + dataTypeSize inner
  | .struct fields => wordSum (fieldSizes fields)
  | .unknown => 8
termination_by structural x => x

/-- The size of a field. -/
def fieldSize : ResultField → UInt64
  | ⟨_, dataType, _, _⟩ => dataTypeSize dataType
termination_by structural x => x

/-- The sizes of fields. -/
def fieldSizes : List ResultField → List UInt64
  | [] => []
  | field :: fields => fieldSize field :: fieldSizes fields
termination_by structural x => x

end

/-- The functions that are aggregates by name. -/
def aggregateNames : List String :=
  ["avg", "count", "countmerge", "count_merge", "max", "min", "sum", "summerge", "sum_merge",
    "uniq", "uniqexact",
   "uniq_exact"]

/-- `is_aggregate_function`. -/
def isAggregateFunction (function : FunctionRef) (distinct : Bool) : Bool :=
  aggregateNames.contains (toAsciiLowercase function.name) || distinct

mutual

/-- `expr_aggregate_count`. -/
def exprAggregateCount : BoundExpr → UInt32
  | ⟨kind, _, _, _⟩ => kindAggregateCount kind
termination_by structural x => x

/-- The match of `expr_aggregate_count`. -/
def kindAggregateCount : BoundExprKind → UInt32
  | .function call => callAggregateCount call
  | .unary _ expr | .cast expr _ => exprAggregateCount expr
  | .binary _ left right => saturatingAdd32 (exprAggregateCount left) (exprAggregateCount right)
  | .case operand whenThen elseResult =>
    saturatingAdd32
      (saturatingAdd32 (optionAggregateCount operand) (wordSum32 (branchAggregateCounts whenThen)))
      (optionAggregateCount elseResult)
  | .between expr low high _ =>
    saturatingAdd32 (saturatingAdd32 (exprAggregateCount expr) (exprAggregateCount low))
      (exprAggregateCount high)
  | .inList expr list _ =>
    saturatingAdd32 (exprAggregateCount expr) (wordSum32 (exprAggregateCounts list))
  | .tuple items | .array items => wordSum32 (exprAggregateCounts items)
  | .like expr pattern _ _ => saturatingAdd32 (exprAggregateCount expr) (exprAggregateCount pattern)
  | .isNull expr _ => exprAggregateCount expr
  | .inSubquery expr _ _ => exprAggregateCount expr
  | .column _ | .literal _ | .parameter _ | .scalarSubquery _ | .exists _ | .unsupported _ => 0
termination_by structural x => x

/-- The aggregates of a call, itself among them. -/
def callAggregateCount : BoundFunctionCall → UInt32
  | ⟨function, _, args, distinct, filter, _, _⟩ =>
    let nested := saturatingAdd32 (wordSum32 (exprAggregateCounts args))
      (optionAggregateCount filter)
    if isAggregateFunction function distinct then saturatingAdd32 nested 1 else nested
termination_by structural x => x

/-- The aggregates of each expression of a list. -/
def exprAggregateCounts : List BoundExpr → List UInt32
  | [] => []
  | expr :: exprs => exprAggregateCount expr :: exprAggregateCounts exprs
termination_by structural x => x

/-- The aggregates of an expression, if there is one. -/
def optionAggregateCount : Option BoundExpr → UInt32
  | none => 0
  | some expr => exprAggregateCount expr
termination_by structural x => x

/-- The aggregates of each branch of a `CASE`. -/
def branchAggregateCounts : List BoundWhenThen → List UInt32
  | [] => []
  | ⟨condition, result⟩ :: branches =>
    saturatingAdd32 (exprAggregateCount condition) (exprAggregateCount result) ::
      branchAggregateCounts branches
termination_by structural x => x

end

/-- `select_aggregate_count`. -/
def selectAggregateCount (select : BoundSelect) : UInt32 :=
  let count := (select.projection.filterMap BoundProjectionItem.asExpr).foldl
    (fun count details => saturatingAdd32 count (exprAggregateCount details.expr)) 0
  match select.having with
  | some having => saturatingAdd32 count (exprAggregateCount having)
  | none => count

/-- `estimate_select_memory`. -/
def estimateSelectMemory (select : BoundSelect) (rowsScanned bytesScanned : UInt64) : UInt64 :=
  let aggregateCount := selectAggregateCount select
  if select.groupBy.isEmpty then
    if 0 < aggregateCount then saturatingAdd64 (saturatingMul64 aggregateCount.toUInt64 64) 128
      else bytesScanned
  else
    let groupKeyBytes := max (wordSum (select.groupBy.map fun expr => dataTypeSize expr.dataType)) 8
    let groups :=
      max (min (select.groupBy.foldl (fun acc _ => saturatingMul64 acc 1000) 1) rowsScanned) 1
    let aggregateStateBytes := saturatingMul64 (max aggregateCount 1).toUInt64 64
    saturatingMul64 groups (saturatingAdd64 (saturatingAdd64 groupKeyBytes aggregateStateBytes) 32)

/-- `estimate_set_expr_memory`, which `estimate_memory_bytes` asks for the body of the plan. -/
def estimateSetExprMemory (rowsScanned bytesScanned : UInt64) : BoundSetExpr → UInt64
  | .select select => estimateSelectMemory select rowsScanned bytesScanned
  | .unionAll left right _ _ =>
    saturatingAdd64 (estimateSetExprMemory rowsScanned bytesScanned left)
      (estimateSetExprMemory rowsScanned bytesScanned right)
  | .unsupported .. => 1

/-! ## The estimate -/

/-- `u64::div_ceil`. -/
def divCeil64 (a b : UInt64) : UInt64 := if a % b = 0 then a / b else a / b + 1

/-- The estimate for the relations of a plan. -/
def estimatedCost (plan : BoundQueryPlan) (relations : List RelationCostContext) : EstimatedCost :=
  let rowsScanned := max (wordSum (relations.map RelationCostContext.estimatedRows)) 1
  let bytesScanned :=
    max (wordSum (relations.map fun relation =>
      saturatingMul64 relation.estimatedRows relation.averageRowBytes)) 1
  { memoryBytes := max (estimateSetExprMemory rowsScanned bytesScanned plan.body) 1
    rowsScanned
    partitionsTouched := max (estimatePartitionsTouched plan relations) 1
    wallclockEstimateMs := max (divCeil64 rowsScanned 5000000) 1 }

/-- `estimate_clickhouse_cost` of the plan of a query. -/
def estimateClickhouseCost (plan : BoundQueryPlan) (catalog : StatisticsCatalog) :
    Except CostEstimateError EstimatedCost := do
  let relations ← collectRelationCostContexts catalog plan
  if relations.isEmpty then throw (.missingStatistics "query does not reference a catalog relation")
  else return estimatedCost plan relations

/-- What a returned estimate is of. -/
theorem estimateClickhouseCost_eq_ok {plan : BoundQueryPlan} {catalog : StatisticsCatalog}
    {cost : EstimatedCost} (h : estimateClickhouseCost plan catalog = .ok cost) :
    ∃ relations, collectRelationCostContexts catalog plan = .ok relations ∧ relations ≠ [] ∧
      cost = estimatedCost plan relations := by
  unfold estimateClickhouseCost at h
  cases hcollect : collectRelationCostContexts catalog plan with
  | error e =>
    rw [hcollect] at h
    cases h
  | ok relations =>
    rw [hcollect] at h
    change (if relations.isEmpty then _ else _) = _ at h
    split_ifs at h with hempty
    · cases h
      exact ⟨relations, rfl, fun hnil => hempty (by rw [hnil]; rfl), rfl⟩

end QueryFabric.ClickHouse
