import QueryFabric.Ir.Bound

/-!
# Diagnostics, parsed and bound queries

The envelopes around the two trees: structured diagnostics and errors (`diagnostics.rs`,
`error.rs`), and the `ParsedQuery` and `BoundQuery` contracts (`bound.rs`). Provenance receipts,
which hash the query text, and dialect metadata are left out: no modelled function reads them.
-/

namespace QueryFabric

/-- `DiagnosticSeverity`. -/
inductive DiagnosticSeverity
  | error
  | warning
  | note
deriving DecidableEq, Repr

/-- A structured compiler diagnostic. -/
structure QueryDiagnostic where
  code : String
  severity : DiagnosticSeverity
  message : String
  remediation : Option String := none
  backend : Option String := none
  span : Option QuerySourceSpan := none
  nodeId : Option String := none
deriving DecidableEq, Repr

namespace QueryDiagnostic

/-- `QueryDiagnostic::error`. -/
def error (code message : String) : QueryDiagnostic := { code, severity := .error, message }

/-- `QueryDiagnostic::warning`. -/
def warning (code message : String) : QueryDiagnostic := { code, severity := .warning, message }

/-- `QueryDiagnostic::note`. -/
def note (code message : String) : QueryDiagnostic := { code, severity := .note, message }

/-- `QueryDiagnostic::is_error`. -/
def isError (d : QueryDiagnostic) : Bool := d.severity == .error

/-- `QueryDiagnostic::with_backend`. -/
def withBackend (d : QueryDiagnostic) (backend : String) : QueryDiagnostic :=
  { d with backend := some backend }

end QueryDiagnostic

/-- The errors of dialects, binder, analyses and adapters. -/
inductive QueryFabricError
  | parse (message : String)
  | bind (message : String) (sourceSql dialect : Option String)
      (diagnostics : List QueryDiagnostic)
  | unsupportedFeature (feature detail : String)
deriving DecidableEq, Repr

/-- What a query needs of a backend. -/
inductive CapabilityRequirement
  | commonTableExpressions
  | derivedTables
  | joins
  | windows
  | setOperations
  | aggregates
  | distinctAggregates
  | scalarSubqueries
  | inSubqueries
  | explain
  | limitOffset
  | namespacedFunctions
  | approximateAggregates
  | backendSpecific (name : String)
deriving DecidableEq, Repr

/-- The requirements and functions that binding records. -/
structure CapabilityRequirements where
  required : List CapabilityRequirement := []
  referencedFunctions : List FunctionRef := []
deriving DecidableEq, Repr

/-- A parsed query: its texts, its syntax tree and the diagnostics of lowering. -/
structure ParsedQuery where
  dialect : String
  sourceSql : String
  canonicalSql : String
  explain : Bool
  syntaxTree : SyntaxQuery
  loweringDiagnostics : List QueryDiagnostic

/-- A bound query: the parsed query with its plan, parameters, diagnostics and result schema. -/
structure BoundQuery where
  parsed : ParsedQuery
  catalogSnapshot : Option String
  parameters : List ParameterBinding
  diagnostics : List QueryDiagnostic
  capabilityRequirements : CapabilityRequirements
  resultSchema : ResultSchema
  plan : BoundQueryPlan

/-- `BoundQuery::with_plan`: the result schema follows the plan. -/
def BoundQuery.withPlan (query : BoundQuery) (plan : BoundQueryPlan) : BoundQuery :=
  { query with resultSchema := plan.resultSchema, plan }

end QueryFabric
