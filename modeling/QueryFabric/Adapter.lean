import QueryFabric.Render.Analysis
import QueryFabric.Render.Emit
import QueryFabric.ClickHouse.Rewrite

/-!
# The two SQL adapters

`analyze` and `emit` of `crates/queryfabric-adapter-postgres/src/lib.rs` and
`crates/queryfabric-adapter-clickhouse/src/lib.rs`. Both refuse to emit what they do not support;
ClickHouse renders the rewritten query and reports what rewriting recorded.
-/

namespace QueryFabric

open Render ClickHouse

/-- The features that both SQL adapters advertise. -/
def commonFeatures : List BackendFeature :=
  [.commonTableExpressions, .derivedTables, .joins, .windows, .setOperations, .aggregates,
   .distinctAggregates, .scalarSubqueries, .inSubqueries]

/-- `diagnostic_summary`. -/
def diagnosticSummary (diagnostics : List QueryDiagnostic) : String :=
  "; ".intercalate (diagnostics.map QueryDiagnostic.message)

namespace PostgresAdapter

/-- `PostgresAdapter::capabilities`. -/
def capabilities : CapabilitySet := { features := commonFeatures ++ [.explain, .limitOffset] }

/-- `PostgresAdapter::analyze`. -/
def analyze (query : BoundQuery) (catalog : Catalog) : BackendAnalysis :=
  analyzeBackendSupport query catalog "postgres" capabilities false

/-- `PostgresAdapter::emit`. -/
def emit (query : BoundQuery) (catalog : Catalog) : Except QueryFabricError SqlArtifact :=
  let analysis := analyze query catalog
  if !analysis.supported then
    .error (unsupported "postgres-emission" (diagnosticSummary analysis.diagnostics))
  else emitSqlArtifact query catalog .postgres

end PostgresAdapter

namespace ClickHouseAdapter

/-- `ClickHouseAdapter::capabilities`. -/
def capabilities : CapabilitySet :=
  { features := commonFeatures ++ [.namespacedFunctions, .approximateAggregates, .explain,
      .limitOffset, .isolatedExecution, .uuidToStringInArrowOutput] }

/-- `ClickHouseAdapter::uuid_arrow_workaround_enabled`. -/
def uuidArrowWorkaroundEnabled : Bool := capabilities.supports .uuidToStringInArrowOutput

/-- `ClickHouseAdapter::analyze`. -/
def analyze (query : BoundQuery) (catalog : Catalog) : BackendAnalysis :=
  let analysis := analyzeBackendSupport query catalog "clickhouse" capabilities true
  let summary := (rewriteQueryForClickhouse query catalog uuidArrowWorkaroundEnabled).2
  let diagnostics := analysis.diagnostics ++ summary.analysisDiagnostics
  { analysis with diagnostics, supported := !diagnostics.any QueryDiagnostic.isError }

/-- `ClickHouseAdapter::emit`. -/
def emit (query : BoundQuery) (catalog : Catalog) : Except QueryFabricError SqlArtifact :=
  let analysis := analyze query catalog
  if !analysis.supported then
    .error (unsupported "clickhouse-emission" (diagnosticSummary analysis.diagnostics))
  else do
    let (rewritten, summary) := rewriteQueryForClickhouse query catalog uuidArrowWorkaroundEnabled
    let artifact ← emitSqlArtifact rewritten catalog .clickHouse
    match summary.rewrittenToMetadata with
    | none => return artifact
    | some rewrittenTo =>
      return { artifact with
        metadata := mapInsert (fun a b => decide (a < b)) "clickhouse.rewritten_to" rewrittenTo
          artifact.metadata }

end ClickHouseAdapter

/-- `analyze` of the adapter of a backend. -/
def analyze : SqlBackend → BoundQuery → Catalog → BackendAnalysis
  | .clickHouse => ClickHouseAdapter.analyze
  | .postgres => PostgresAdapter.analyze

/-- `emit` of the adapter of a backend. -/
def emit : SqlBackend → BoundQuery → Catalog → Except QueryFabricError SqlArtifact
  | .clickHouse => ClickHouseAdapter.emit
  | .postgres => PostgresAdapter.emit

end QueryFabric
