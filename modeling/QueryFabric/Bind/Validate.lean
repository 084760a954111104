import QueryFabric.Bind.References
import QueryFabric.Lib.Succeeds

/-!
# Validation

`bind_and_validate` of `crates/queryfabric-catalog/src/bind/mod.rs`: a query is bound, and if no
error was reported, each constraint that binding recorded becomes a parameter of the bound query
(`finalize_parameters` of `params.rs`), unless its type or nullability stayed open or the supplied
value does not fit. `validated_of_ok` says what is known of a bound query.
-/

namespace QueryFabric.Bind

open Lib

/-- `capability_requirements_from_plan`. -/
def capabilityRequirementsFromPlan (plan : BoundQueryPlan) (explain : Bool) (catalog : Catalog) :
    CapabilityRequirements :=
  let features := planFeaturesFromBound catalog plan
  let required : List (Bool × CapabilityRequirement) :=
    [(features.hasCtes, .commonTableExpressions), (features.hasDerivedTables, .derivedTables),
     (features.hasJoins, .joins), (features.hasWindows, .windows),
     (features.hasSetOperations, .setOperations),
     (features.hasAggregates, .aggregates), (features.hasDistinctAggregates, .distinctAggregates),
     (features.hasScalarSubqueries, .scalarSubqueries), (features.hasInSubqueries, .inSubqueries),
     (explain, .explain), (features.hasLimitOffset, .limitOffset),
     (features.functions.any fun function => function.namespace_.isSome, .namespacedFunctions),
     (features.functions.any fun function =>
       (catalog.resolveFunction function.namespace_ function.name).any
        fun signature => signature.metadataFlag "approximate", .approximateAggregates)]
  { required := (required.filter Prod.fst).map Prod.snd, referencedFunctions := features.functions }

/-- `render_data_type`. -/
def renderDataType : DataType → String
  | .boolean => "BOOLEAN"
  | .int32 => "INT32"
  | .int64 => "INT64"
  | .float64 => "FLOAT64"
  | .utf8 => "UTF8"
  | .uuid => "UUID"
  | .json => "JSON"
  | .date => "DATE"
  | .decimal precision scale =>
    "DECIMAL(" ++ toString precision.toNat ++ "," ++ toString scale.toInt ++ ")"
  | .timestamp (some timezone) => "TIMESTAMP(" ++ timezone ++ ")"
  | .timestamp none => "TIMESTAMP"
  | .list inner => "LIST<" ++ renderDataType inner ++ ">"
  | .struct _ => "STRUCT"
  | .unknown => "UNKNOWN"

mutual

/-- `parameter_value_matches_schema`, with the type and the nullability of the schema. -/
def parameterValueMatchesSchema (dataType : DataType) (nullable : Bool) : ParameterValue → Bool
  | .null => nullable
  | .boolean _ => dataType == .boolean
  | .int64 _ => dataType == .int32 || dataType == .int64
  | .float64 _ => match dataType with
    | .float64 | .decimal _ _ => true
    | _ => false
  | .utf8 _ => dataType == .utf8
  | .uuid _ => dataType == .uuid
  | .json _ => dataType == .json
  | .list values => match dataType with
    | .list inner => parameterValuesMatchSchema inner nullable values
    | _ => false
termination_by structural x => x

/-- Every value of a list matches the schema. -/
def parameterValuesMatchSchema (dataType : DataType) (nullable : Bool) : List ParameterValue → Bool
  | [] => true
  | value :: values =>
    parameterValueMatchesSchema dataType nullable value &&
      parameterValuesMatchSchema dataType nullable values
termination_by structural x => x

end

/-- Whether a value is `ParameterValue::Null`. -/
def isNullValue : ParameterValue → Bool
  | .null => true
  | _ => false

/-- The type of a constraint, when it is resolved. -/
def ParameterConstraint.resolvedType (constraint : ParameterConstraint) : Option DataType :=
  constraint.dataType.filter fun type => !type.isUnknown

/-- The node that the errors about a parameter are reported at. -/
def ParameterConstraint.node (constraint : ParameterConstraint) (reference : ParameterRef) :
    SyntaxNode :=
  { span := constraint.span, nodeId := constraint.nodeId.getD ("param:" ++ reference.display) }

/-- An error about a parameter. -/
def ParameterConstraint.error (constraint : ParameterConstraint) (reference : ParameterRef)
    (code message remediation : String) : QueryDiagnostic :=
  locatedDiagnostic (.error code message) (constraint.node reference) (some remediation)

/-- The errors about a parameter whose type or nullability stayed open. -/
def ParameterConstraint.openErrors (constraint : ParameterConstraint) (reference : ParameterRef) :
    List QueryDiagnostic :=
  (if constraint.resolvedType.isNone then
    [constraint.error reference "QF0018"
      ("Parameter `" ++ reference.display ++ "` has unresolved type.")
      "Cast the parameter or use it in a typed comparison."]
  else []) ++
  (if constraint.nullable = .unknown then
    [constraint.error reference "QF0019"
      ("Parameter `" ++ reference.display ++ "` has unresolved nullability.")
      "Use the parameter in a context that constrains nullability."]
  else [])

/-- The body of the loop of `finalize_parameters`: the errors about a parameter, or its binding. -/
def finalizeParameter (parameters : QueryParameters) (reference : ParameterRef)
    (constraint : ParameterConstraint) : List QueryDiagnostic × Option ParameterBinding :=
  let schema : ParameterSchema :=
    { reference, dataType := constraint.resolvedType.getD .unknown,
      nullable := constraint.nullable == .nullable }
  let value := parameters.lookup reference
  if !(constraint.openErrors reference).isEmpty then (constraint.openErrors reference, none)
  else if value.any fun value =>
      !parameterValueMatchesSchema schema.dataType schema.nullable value then
    ([constraint.error reference "QF0020" ("Parameter `" ++ reference.display ++
        "` value is incompatible with inferred type `" ++ renderDataType schema.dataType ++ "`.")
      "Supply a value that matches the inferred parameter schema."], none)
  else if value.any fun value => isNullValue value && !schema.nullable then
    ([constraint.error reference "QF0021" ("Parameter `" ++ reference.display ++
        "` cannot be NULL in this query.")
      "Supply a non-null parameter value or rewrite the query to allow NULL."], none)
  else ([], some { schema, value })

/-- `finalize_parameters`. -/
def finalizeParameters (parameters : QueryParameters) (binder : Binder) :
    Except QueryFabricError (List ParameterBinding) :=
  let outcomes := binder.parameterConstraints.map fun (reference, constraint) =>
    finalizeParameter parameters reference constraint
  let diagnostics := binder.diagnostics ++ outcomes.flatMap Prod.fst
  match diagnostics.find? QueryDiagnostic.isError with
  | some diagnostic => .error (.bind diagnostic.message none none diagnostics)
  | none => .ok ((outcomes.filterMap Prod.snd).insertionSort
      fun left right => ParameterRef.le left.schema.reference right.schema.reference)

/-- `bind_and_validate`. -/
def bindAndValidate (context : BinderContext) (parsed : ParsedQuery) :
    Except QueryFabricError BoundQuery := do
  let bound := (bindQuery context none parsed.syntaxTree).run (Binder.new context)
  let plan := bound.1
  let binder := bound.2
  let diagnostics := parsed.loweringDiagnostics ++ binder.diagnostics
  match diagnostics.find? QueryDiagnostic.isError with
  | some diagnostic =>
    .error (.bind diagnostic.message (some parsed.sourceSql) (some parsed.dialect) diagnostics)
  | none =>
    let parameters ← finalizeParameters context.parameters binder
    return { parsed, catalogSnapshot := some context.catalog.snapshotId, parameters, diagnostics
             capabilityRequirements :=
               capabilityRequirementsFromPlan plan parsed.explain context.catalog
             resultSchema := plan.resultSchema, plan }

/-! ## What is known of a bound query -/

/-- The diagnostics of an open constraint are errors. -/
theorem isError_of_mem_openErrors {constraint : ParameterConstraint} {reference : ParameterRef}
    {d : QueryDiagnostic} (h : d ∈ constraint.openErrors reference) : d.isError := by
  unfold ParameterConstraint.openErrors at h
  obtain h | h := List.mem_append.mp h
  · split at h
    · rw [List.mem_singleton.mp h]
      rfl
    · cases h
  · split at h
    · rw [List.mem_singleton.mp h]
      rfl
    · cases h

/-- A parameter is finalized with an error, or else to a binding of its reference. -/
theorem finalizeParameter_cases (parameters : QueryParameters) (reference : ParameterRef)
    (constraint : ParameterConstraint) :
    (∃ d ∈ (finalizeParameter parameters reference constraint).1, d.isError) ∨
      ∃ binding, finalizeParameter parameters reference constraint = ([], some binding) ∧
        binding.schema.reference = reference := by
  simp only [finalizeParameter]
  split
  -- An open constraint is an error of its own.
  · rename_i hopen
    left
    cases herrors : constraint.openErrors reference with
    | nil =>
      rw [herrors] at hopen
      cases hopen
    | cons d ds =>
      have hd : d ∈ constraint.openErrors reference := by
        rw [herrors]
        exact List.mem_cons_self
      exact ⟨d, List.mem_cons_self, isError_of_mem_openErrors hd⟩
  -- The errors of the type and of the value; then the binding.
  · split
    · exact .inl ⟨_, List.mem_cons_self, rfl⟩
    · split
      · exact .inl ⟨_, List.mem_cons_self, rfl⟩
      · exact .inr ⟨_, rfl, rfl⟩

/-- The parameters of a query that is finalized are those that were used, in an order of their
references. -/
theorem references_of_finalizeParameters {parameters : QueryParameters} {binder : Binder}
    {bindings : List ParameterBinding} (h : finalizeParameters parameters binder = .ok bindings) :
    (bindings.map fun binding => binding.schema.reference).Perm
      (binder.parameterConstraints.map Prod.fst) := by
  simp only [finalizeParameters] at h
  split at h
  · cases h
  · rename_i hnone
    cases h
    refine ((List.perm_insertionSort _ _).map _).trans (List.Perm.of_eq ?_)
    -- No diagnostic is an error, so every constraint has its binding.
    have hbinding : ∀ entry ∈ binder.parameterConstraints, ∃ binding,
        finalizeParameter parameters entry.1 entry.2 = ([], some binding) ∧
            binding.schema.reference = entry.1 := by
      intro entry hentry
      obtain ⟨d, hd, herror⟩ | hbinding := finalizeParameter_cases parameters entry.1 entry.2
      · have hnot := List.find?_eq_none.mp hnone d (List.mem_append_right _
          (List.mem_flatMap.mpr ⟨_, List.mem_map_of_mem hentry, hd⟩))
        exact absurd herror hnot
      · exact hbinding
    revert hbinding
    -- The induction is on the constraints alone, apart from the binder.
    generalize binder.parameterConstraints = entries
    intro hbinding
    induction entries with
    | nil => rfl
    | cons entry entries ih =>
      obtain ⟨⟨binding, hfinal, hreference⟩, hrest⟩ := List.forall_mem_cons.mp hbinding
      rw [List.map_cons, List.filterMap_cons, hfinal, List.map_cons, List.map_cons, ih hrest,
        hreference]

/-- What is known of a bound query: it was accepted, and its parameters are those that were used. -/
structure Validated (context : BinderContext) (parsed : ParsedQuery)
    (bound : BoundQuery) : Prop where
  accepted : Accepted context parsed.syntaxTree
  plan : bound.plan = boundPlan context parsed.syntaxTree
  references : (bound.parameters.map fun binding => binding.schema.reference).Perm
    (boundAllocation context parsed.syntaxTree).used

/-- What is bound and validated has no errors. -/
theorem validated_of_ok {context : BinderContext} {parsed : ParsedQuery} {bound : BoundQuery}
    (h : bindAndValidate context parsed = .ok bound) : Validated context parsed bound := by
  simp only [bindAndValidate] at h
  split at h
  · cases h
  · rename_i hnone
    obtain ⟨bindings, hbindings, h⟩ := bind_eq_ok.mp h
    obtain rfl := pure_eq_ok.mp h
    refine ⟨fun d hd => ?_, rfl, references_of_finalizeParameters hbindings⟩
    exact Bool.eq_false_iff.mpr (List.find?_eq_none.mp hnone d (List.mem_append_right _ hd))

/-- The parameters of a bound query are different ones. -/
theorem Validated.nodup {context : BinderContext} {parsed : ParsedQuery} {bound : BoundQuery}
    (h : Validated context parsed bound) :
    (bound.parameters.map fun binding => binding.schema.reference).Nodup := by
  refine h.references.nodup_iff.mpr (nodup_of_pairwise isKeyOrder_parameterRefLt ?_)
  exact (binds_query h.accepted).sorted List.Pairwise.nil

/-- The parameters that the plan of a bound query places are among its parameters. -/
theorem Validated.placed {context : BinderContext} {parsed : ParsedQuery} {bound : BoundQuery}
    (h : Validated context parsed bound) {reference : ParameterRef}
    (hplaced : Placed.parameter reference ∈ queryPlaced bound.plan) :
    reference ∈ bound.parameters.map fun binding => binding.schema.reference := by
  rw [h.plan] at hplaced
  exact h.references.mem_iff.mpr ((binds_query h.accepted).mem_used.2 reference hplaced)

end QueryFabric.Bind
