import QueryFabric.Ir.Query
import QueryFabric.Maps

/-!
# Catalogs and function registries

The catalog side of `crates/queryfabric-catalog/src/model.rs`: relation schemas, function signatures
with their backend mappings, the `Catalog` trait as a record of its resolvers, and the backend
features and capability sets that adapters advertise.

A `BTreeMap` is the list of its entries in key order, as in `QueryFabric.Maps`.
-/

namespace QueryFabric

/-- The order of `Option<String>`: `None` first. -/
def optionLt : Option String → Option String → Bool
  | none, none => false
  | none, some _ => true
  | some _, none => false
  | some a, some b => decide (a < b)

/-- The order of `(Option<String>, String)`, which is also the derived order of `FunctionRef`. -/
def nameKeyLt (a b : Option String × String) : Bool :=
  optionLt a.1 b.1 || (a.1 == b.1 && decide (a.2 < b.2))

/-- The derived order of `FunctionRef`. -/
def FunctionRef.lt (f g : FunctionRef) : Bool :=
  nameKeyLt (f.namespace_, f.name) (g.namespace_, g.name)

/-- `RelationKind`. -/
inductive RelationKind
  | table
  | view
  | materializedView
deriving DecidableEq, Repr

/-- `ColumnSchema`. -/
structure ColumnSchema where
  name : String
  dataType : DataType
  nullable : Bool
  metadata : FieldMetadata := {}
deriving DecidableEq, Repr

/-- `ColumnSchema::to_result_field`. -/
def ColumnSchema.toResultField (c : ColumnSchema) : ResultField :=
  { name := c.name, dataType := c.dataType, nullable := c.nullable, metadata := c.metadata }

/-- `RelationSchema`. -/
structure RelationSchema where
  namespace_ : Option String
  name : String
  aliases : List String
  kind : RelationKind
  columns : List ColumnSchema
  metadata : List (String × String) := []
deriving DecidableEq, Repr

/-- `RelationSchema::to_result_schema`. -/
def RelationSchema.toResultSchema (r : RelationSchema) : ResultSchema :=
  .new (r.columns.map ColumnSchema.toResultField)

/-- `FunctionKind`. -/
inductive FunctionKind
  | scalar
  | aggregate
  | window
deriving DecidableEq, Repr

/-- `FunctionVolatility`. -/
inductive FunctionVolatility
  | immutable
  | stable
  | volatile
deriving DecidableEq, Repr

/-- `TypeCoercionRule`. -/
structure TypeCoercionRule where
  from_ : DataType
  to_ : DataType
  implicit : Bool
deriving DecidableEq, Repr

/-- `BackendFunctionMapping`. -/
structure BackendFunctionMapping where
  backend : String
  namespace_ : Option String
  name : String
deriving DecidableEq, Repr

/-- `BackendFunctionMapping::as_function_ref`. -/
def BackendFunctionMapping.asFunctionRef (m : BackendFunctionMapping) : FunctionRef :=
  { namespace_ := m.namespace_, name := m.name }

/-- `FunctionSignature`. -/
structure FunctionSignature where
  namespace_ : Option String
  name : String
  kind : FunctionKind
  volatility : FunctionVolatility
  argTypes : List DataType
  returnType : DataType
  variadic : Bool
  coercions : List TypeCoercionRule
  backendMappings : List BackendFunctionMapping
  metadata : List (String × String)
deriving DecidableEq, Repr

/-- `FunctionSignature::backend_mapping`. -/
def FunctionSignature.backendMapping (s : FunctionSignature) (backend : String) :
    Option FunctionRef :=
  (s.backendMappings.find? fun m => m.backend == backend).map BackendFunctionMapping.asFunctionRef

/-- `FunctionSignature::metadata_flag`. -/
def FunctionSignature.metadataFlag (s : FunctionSignature) (key : String) : Bool :=
  s.metadata.lookup key == some "true"

/-- The `Catalog` and `FunctionRegistry` traits, as the record of what the compiler asks of them. -/
structure Catalog where
  snapshotId : String
  resolveFunction : Option String → String → Option FunctionSignature
  resolveRelation : Option String → String → Option RelationSchema

/-- `BackendFeature`. -/
inductive BackendFeature
  | commonTableExpressions
  | derivedTables
  | joins
  | windows
  | setOperations
  | aggregates
  | distinctAggregates
  | scalarSubqueries
  | inSubqueries
  | namespacedFunctions
  | approximateAggregates
  | explain
  | limitOffset
  | isolatedExecution
  | uuidToStringInArrowOutput
deriving DecidableEq, Repr

/-- The feature part of a `CapabilitySet`; its limits and formats concern execution only. -/
structure CapabilitySet where
  features : List BackendFeature
deriving DecidableEq, Repr

/-- `CapabilitySet::supports`. -/
def CapabilitySet.supports (c : CapabilitySet) (feature : BackendFeature) : Bool :=
  c.features.contains feature

/-- `EstimatedCostClass`. -/
inductive EstimatedCostClass
  | low
  | medium
  | high
  | unknown
deriving DecidableEq, Repr

/-- What analysis reports. -/
structure BackendAnalysis where
  supported : Bool
  diagnostics : List QueryDiagnostic
  estimatedCostClass : EstimatedCostClass
  resultSchema : ResultSchema
deriving DecidableEq, Repr

/-- An emitted SQL statement. -/
structure SqlArtifact where
  dialect : String
  text : String
  parameters : List ParameterSchema
  resultSchema : ResultSchema
  metadata : List (String × String)
deriving DecidableEq, Repr

end QueryFabric
