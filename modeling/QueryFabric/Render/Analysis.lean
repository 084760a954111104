import QueryFabric.Catalog.Features
import QueryFabric.Render.Helpers

/-!
# Backend analysis

`analyze_backend_support` of `crates/queryfabric-catalog/src/render/analysis.rs`: the diagnostics
that decide whether a backend supports a bound query. It reads the features that
`planFeaturesFromBound` collects and checks the clauses and the functions among them.
-/

namespace QueryFabric.Render

/-- An error of the given number on the given backend. -/
def backendError (backend number message : String) : QueryDiagnostic :=
  (QueryDiagnostic.error ("QF" ++ backendCode backend ++ number) message).withBackend backend

/-- The diagnostics of a ClickHouse clause on a backend that does not allow it. -/
def clauseDiagnostics (backend : String) (features : PlanFeatures) (allowClickhouseClauses : Bool) :
    List QueryDiagnostic :=
  (if features.hasClickhouseSettings && !allowClickhouseClauses then
    [backendError backend "101" "ClickHouse SETTINGS are not supported on this backend."]
  else []) ++
  (if features.hasClickhouseFormat && !allowClickhouseClauses then
    [backendError backend "102" "ClickHouse FORMAT is not supported on this backend."]
  else [])

/-- The diagnostics of one function that the plan calls. -/
def functionDiagnostics (catalog : Catalog) (backend : String) (capabilities : CapabilitySet)
    (function : FunctionRef) : List QueryDiagnostic :=
  match catalog.resolveFunction function.namespace_ function.name with
  | none =>
    [backendError backend "103"
      ("Function `" ++ function.displayName ++ "` is not registered in the catalog.")]
  | some signature =>
    (if (signature.backendMapping backend).isNone then
      [backendError backend "104"
        ("Function `" ++ function.displayName ++ "` has no `" ++ backend ++ "` backend mapping.")]
    else []) ++
    (if !capabilities.supports .approximateAggregates && signature.metadataFlag "approximate" then
      [backendError backend "105"
        ("Approximate aggregate `" ++ function.displayName ++ "` is not in the verified `" ++
          backend ++ "` subset.")]
    else []) ++
    (if !capabilities.supports .namespacedFunctions && function.namespace_.isSome then
      [backendError backend "106"
        ("Namespaced function `" ++ function.displayName ++ "` is not in the verified `" ++
          backend ++ "` subset.")]
    else [])

/-- The cost class that the recorded requirements put a query in. -/
def estimatedCostClass (requirements : CapabilityRequirements) : EstimatedCostClass :=
  if requirements.required.contains .windows || requirements.required.contains .joins then .high
  else if requirements.required.contains .setOperations ||
      requirements.required.contains .commonTableExpressions then .medium
  else .low

/-- `analyze_backend_support`. -/
def analyzeBackendSupport (query : BoundQuery) (catalog : Catalog) (backend : String)
    (capabilities : CapabilitySet) (allowClickhouseClauses : Bool) : BackendAnalysis :=
  let features := planFeaturesFromBound catalog query.plan
  let diagnostics := query.diagnostics ++
    clauseDiagnostics backend features allowClickhouseClauses ++
    features.functions.flatMap (functionDiagnostics catalog backend capabilities)
  { supported := !diagnostics.any QueryDiagnostic.isError
    diagnostics
    estimatedCostClass := estimatedCostClass query.capabilityRequirements
    resultSchema := query.resultSchema }

/-- A function that the analysis passes without an error is registered and has a mapping. -/
theorem mapping_of_functionDiagnostics {catalog : Catalog} {backend : String}
    (capabilities : CapabilitySet) {function : FunctionRef}
    (h : ∀ d ∈ functionDiagnostics catalog backend capabilities function, d.isError = false) :
    ∃ signature mapped, catalog.resolveFunction function.namespace_ function.name = some signature ∧
      signature.backendMapping backend = some mapped := by
  unfold functionDiagnostics at h
  split at h
  case h_1 => simp [backendError, QueryDiagnostic.error, QueryDiagnostic.withBackend,
      QueryDiagnostic.isError] at h
  case h_2 signature hsig =>
    -- Without error 104 the mapping is there.
    rcases hmap : signature.backendMapping backend with _ | mapped
    · simp [hmap, backendError, QueryDiagnostic.error, QueryDiagnostic.withBackend,
        QueryDiagnostic.isError] at h
    · exact ⟨signature, mapped, hsig, hmap⟩

/-- Every function that the features list has a mapping, when the query is supported. -/
theorem mapping_of_supported {query : BoundQuery} {catalog : Catalog} {backend : String}
    {capabilities : CapabilitySet} {allow : Bool}
    (h : (analyzeBackendSupport query catalog backend capabilities allow).supported = true)
    {function : FunctionRef}
    (hf : function ∈ (planFeaturesFromBound catalog query.plan).functions) :
    ∃ signature mapped, catalog.resolveFunction function.namespace_ function.name = some signature ∧
      signature.backendMapping backend = some mapped := by
  refine mapping_of_functionDiagnostics capabilities fun d hd => ?_
  simp only [analyzeBackendSupport, Bool.not_eq_true', List.any_eq_false] at h
  have herr := h d (List.mem_append_right _ (List.mem_flatMap.mpr ⟨function, hf, hd⟩))
  simpa using herr

end QueryFabric.Render
