import QueryFabric.Catalog.Model

/-!
# The in-memory catalog

`MemoryCatalog` of `crates/queryfabric-catalog/src/model.rs` over the portable builtin functions of
`builtins.rs`.
-/

namespace QueryFabric

/-- The mappings of a builtin that both backends know under its own name. -/
def bothBackends (name : String) : List BackendFunctionMapping :=
  [{ backend := "clickhouse", namespace_ := none, name },
   { backend := "postgres", namespace_ := none, name }]

/-- The mapping of a builtin that only ClickHouse knows. -/
def clickHouseOnly (name : String) : List BackendFunctionMapping :=
  [{ backend := "clickhouse", namespace_ := none, name }]

/-- The shape that the `builtin_*` constructors share. -/
def builtinFunction (namespace_ : Option String) (name : String) (kind : FunctionKind)
    (returnType : DataType) (variadic : Bool) (backendMappings : List BackendFunctionMapping) :
    FunctionSignature :=
  { namespace_, name, kind, volatility := .immutable, argTypes := [], returnType, variadic,
    coercions := [], backendMappings, metadata := [] }

/-- `builtin_scalar`. -/
def builtinScalar (name : String) (returnType : DataType) (variadic : Bool) : FunctionSignature :=
  builtinFunction none name .scalar returnType variadic (bothBackends name)

/-- `builtin_aggregate`. -/
def builtinAggregate (name : String) (returnType : DataType) : FunctionSignature :=
  builtinFunction none name .aggregate returnType true (bothBackends name)

/-- `builtin_clickhouse_aggregate`. -/
def builtinClickhouseAggregate (name : String) (returnType : DataType) : FunctionSignature :=
  builtinFunction none name .aggregate returnType true (clickHouseOnly name)

/-- `builtin_clickhouse_scalar`. -/
def builtinClickhouseScalar (name : String) (returnType : DataType) (variadic : Bool) :
    FunctionSignature :=
  builtinFunction none name .scalar returnType variadic (clickHouseOnly name)

/-- `builtin_clickhouse_extension`. -/
def builtinClickhouseExtension (namespace_ name clickhouseName : String) (returnType : DataType) :
    FunctionSignature :=
  builtinFunction (some namespace_) name .aggregate returnType true (clickHouseOnly clickhouseName)

/-- `builtin_window`. -/
def builtinWindow (name : String) (returnType : DataType) : FunctionSignature :=
  builtinFunction none name .window returnType true (bothBackends name)

/-- `with_args`. -/
def FunctionSignature.withArgs (s : FunctionSignature) (argTypes : List DataType) :
    FunctionSignature :=
  { s with argTypes }

/-- `with_metadata_flag`. -/
def FunctionSignature.withMetadataFlag (s : FunctionSignature) (key : String) :
    FunctionSignature :=
  { s with metadata := mapInsert (fun a b => decide (a < b)) key "true" s.metadata }

/-- `portable_builtin_functions`. -/
def portableBuiltinFunctions : List FunctionSignature :=
  [builtinScalar "coalesce" .unknown true,
   (builtinScalar "sqrt" .float64 false).withArgs [.float64],
   builtinClickhouseScalar "toString" .utf8 false,
   builtinScalar "greatest" .unknown true,
   builtinScalar "least" .unknown true,
   builtinAggregate "count" .int64,
   builtinAggregate "sum" .float64,
   builtinAggregate "avg" .float64,
   builtinAggregate "min" .unknown,
   builtinAggregate "max" .unknown,
   builtinWindow "rank" .int64,
   builtinWindow "dense_rank" .int64,
   builtinWindow "row_number" .int64,
   builtinWindow "lag" .unknown,
   builtinWindow "lead" .unknown,
   builtinWindow "first_value" .unknown,
   builtinWindow "last_value" .unknown,
   (builtinClickhouseAggregate "quantile" .float64).withMetadataFlag "approximate",
   (builtinClickhouseExtension "ch" "quantile_25" "quantile(0.25)" .float64).withMetadataFlag
     "approximate",
   (builtinClickhouseExtension "ch" "quantile_50" "quantile(0.5)" .float64).withMetadataFlag
     "approximate",
   (builtinClickhouseExtension "ch" "quantile_75" "quantile(0.75)" .float64).withMetadataFlag
     "approximate",
   (builtinClickhouseExtension "ch" "avg_merge" "avgMerge" .float64).withMetadataFlag "state",
   (builtinClickhouseExtension "ch" "count_merge" "countMerge" .int64).withMetadataFlag "state",
   (builtinClickhouseExtension "ch" "min_merge" "minMerge" .unknown).withMetadataFlag "state",
   (builtinClickhouseExtension "ch" "max_merge" "maxMerge" .unknown).withMetadataFlag "state",
   (builtinClickhouseExtension "ch" "stddevpop_merge" "stddevPopMerge" .float64).withMetadataFlag
     "state",
   (builtinClickhouseExtension "ch" "sum_merge" "sumMerge" .float64).withMetadataFlag "state",
   (builtinClickhouseExtension "ch" "varpop_merge" "varPopMerge" .float64).withMetadataFlag
     "state"]

/-- `builtin_function_signature`. -/
def builtinFunctionSignature (namespace_ : Option String) (name : String) :
    Option FunctionSignature :=
  portableBuiltinFunctions.find? fun s =>
    s.namespace_ == namespace_ && eqIgnoreAsciiCase s.name name

/-- The statistics of a relation, for cost estimates. -/
structure RelationStatistics where
  relation : String
  estimatedRows : UInt64
  averageRowBytes : UInt64
  shardCount : Option UInt32
deriving DecidableEq, Repr

/-- `MemoryCatalog`. -/
structure MemoryCatalog where
  snapshotId : String := "memory-catalog"
  relations : List ((Option String × String) × RelationSchema) := []
  functions : List ((Option String × String) × FunctionSignature) := []
  statistics : List ((Option String × String) × RelationStatistics) := []

namespace MemoryCatalog

/-- `set_snapshot_id`. -/
def setSnapshotId (c : MemoryCatalog) (snapshotId : String) : MemoryCatalog := { c with snapshotId }

/-- `register_relation`. -/
def registerRelation (c : MemoryCatalog) (relation : RelationSchema) : MemoryCatalog :=
  let key := (relation.namespace_, toAsciiLowercase relation.name)
  { c with relations := mapInsert nameKeyLt key relation c.relations }

/-- `register_function`. -/
def registerFunction (c : MemoryCatalog) (signature : FunctionSignature) : MemoryCatalog :=
  let key := (signature.namespace_, toAsciiLowercase signature.name)
  { c with functions := mapInsert nameKeyLt key signature c.functions }

/-- `resolve_function`. -/
def resolveFunction (c : MemoryCatalog) (namespace_ : Option String) (name : String) :
    Option FunctionSignature :=
  (c.functions.lookup (namespace_, toAsciiLowercase name)).or
    (builtinFunctionSignature namespace_ name)

/-- `resolve_relation`: the relation registered under the key, or else the first one in key order
whose name or alias matches, whatever its namespace. -/
def resolveRelation (c : MemoryCatalog) (namespace_ : Option String) (name : String) :
    Option RelationSchema :=
  (c.relations.lookup (namespace_, toAsciiLowercase name)).or
    ((c.relations.map Prod.snd).find? fun relation =>
      eqIgnoreAsciiCase relation.name name ||
        relation.aliases.any fun alias_ => eqIgnoreAsciiCase alias_ name)

/-- `set_relation_statistics`. -/
def setRelationStatistics (c : MemoryCatalog) (namespace_ : Option String) (name : String)
    (statistics : RelationStatistics) : MemoryCatalog :=
  let key := match c.resolveRelation namespace_ name with
    | some relation => (relation.namespace_, toAsciiLowercase relation.name)
    | none => (namespace_, toAsciiLowercase name)
  { c with statistics := mapInsert nameKeyLt key statistics c.statistics }

/-- The catalog as the compiler sees it. -/
def toCatalog (c : MemoryCatalog) : Catalog where
  snapshotId := c.snapshotId
  resolveFunction := c.resolveFunction
  resolveRelation := c.resolveRelation

end MemoryCatalog

end QueryFabric
