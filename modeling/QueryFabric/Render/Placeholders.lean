import QueryFabric.Bind.Placeholders
import QueryFabric.Render.Qualifiers
import QueryFabric.Render.Written

/-!
# The placeholders of an artifact

What binding used is what the artifact lists, so the renderer finds each parameter of the emitted
plan, and writes it as the placeholder of its place in that list (`placeholders_consistent`). The
text of `SETTINGS` and `FORMAT` is copied, with whatever it holds.
-/

namespace QueryFabric.Render

open QueryFabric.Bind ClickHouse Lib

/-- The parameters of an artifact are those of the bound query, in order. -/
theorem references_orderedParameters (query : BoundQuery) :
    ((orderedParameters query).map ParameterSchema.reference).Perm
      (query.parameters.map fun binding => binding.schema.reference) := by
  have hperm := (List.perm_insertionSort (fun left right : ParameterSchema =>
    ParameterRef.le left.reference right.reference = true)
      (query.parameters.map ParameterBinding.schema)).map ParameterSchema.reference
  rwa [List.map_map] at hperm

/-- The parameters of the emitted plan are those of the bound one. -/
theorem parameters_emittedPlan (catalog : Catalog) (backend : SqlBackend) (plan : BoundQueryPlan) :
    parameters (queryNodes (emittedPlan catalog backend plan)) = parameters (queryNodes plan) := by
  cases backend with
  | clickHouse => exact parameters_rewriteQueryPlan catalog _ plan
  | postgres => rfl

/-- The renderer has a schema for each parameter of the emitted plan. -/
theorem hasSchemas_emittedPlan {context : BinderContext} {parsed : ParsedQuery} {bound : BoundQuery}
    (h : Validated context parsed bound) (backend : SqlBackend) (catalog : Catalog) :
    HasSchemas (emissionRenderer backend bound catalog)
      (queryNodes (emittedPlan catalog backend bound.plan)) := by
  intro reference hreference
  rw [parameters_emittedPlan, ← placedParameters_query, mem_placedParameters] at hreference
  exact (references_orderedParameters bound).mem_iff.mpr (h.placed hreference)

/-- An adapter emits what rendering its plan writes, with the parameters that rendering looked
up. -/
theorem renderable_emit {backend : SqlBackend} {query : BoundQuery} {catalog : Catalog}
    {nodes : List PlanNode}
    (h : Writes (emissionRenderer backend query catalog)
      (renderQuery (emissionRenderer backend query catalog)
      (emittedPlan catalog backend query.plan) query.parsed.explain) nodes) :
    Renderable (emit backend query catalog) fun artifact =>
      artifact.parameters = orderedParameters query ∧
      ∃ ps, artifact.text = ps.text ∧
      Written (emissionRenderer backend query catalog) nodes ps := by
  cases backend with
  | postgres =>
    simp only [emit, PostgresAdapter.emit]
    split
    · exact .throw (not_unknownParameter_feature (by decide))
    · exact h.bind fun ps hps => .pure ⟨rfl, ps, rfl, hps⟩
  | clickHouse =>
    simp only [emit, ClickHouseAdapter.emit]
    split
    · exact .throw (not_unknownParameter_feature (by decide))
    -- The adapter renders the rewritten plan, and its refusals are of another kind.
    · have hemitted : Renderable (emitSqlArtifact (rewriteQueryForClickhouse query catalog
          ClickHouseAdapter.uuidArrowWorkaroundEnabled).1 catalog .clickHouse) fun artifact =>
          artifact.parameters = orderedParameters query ∧
            ∃ ps, artifact.text = ps.text ∧
              Written (emissionRenderer .clickHouse query catalog) nodes ps :=
        h.bind fun ps hps => .pure ⟨rfl, ps, rfl, hps⟩
      refine hemitted.bind fun artifact hartifact => ?_
      split
      · exact .pure hartifact
      · exact .pure hartifact

/-- A bound query is never refused for an unknown parameter, and each parameter expression of the
plan that is rendered, which are those of the bound plan, is written as the placeholder of its
parameter's place in the artifact. -/
theorem placeholders_consistent {context : BinderContext} {parsed : ParsedQuery}
    {bound : BoundQuery}
    (h : bindAndValidate context parsed = .ok bound) (backend : SqlBackend) (catalog : Catalog) :
    (∀ reference : ParameterRef, emit backend bound catalog ≠
      .error (unsupported "render" ("unknown parameter `" ++ reference.display ++ "`"))) ∧
    ∀ artifact, emit backend bound catalog = .ok artifact →
      parameters (queryNodes (emittedPlan catalog backend bound.plan)) =
        parameters (queryNodes bound.plan) ∧
      ∃ ps, artifact.text = ps.text ∧ Written ⟨backend, catalog, artifact.parameters⟩
        (queryNodes (emittedPlan catalog backend bound.plan)) ps := by
  have hvalid := validated_of_ok h
  -- The parameters have different references, as the binder has validated.
  have hnodup : ((orderedParameters bound).map ParameterSchema.reference).Nodup :=
    (references_orderedParameters bound).nodup_iff.mpr hvalid.nodup
  -- An `EXPLAIN` is one more fixed piece in front.
  have hrender : Writes (emissionRenderer backend bound catalog)
    (renderQuery (emissionRenderer backend bound catalog)
      (emittedPlan catalog backend bound.plan) bound.parsed.explain)
      (queryNodes (emittedPlan catalog backend bound.plan)) := by
    refine (writes_query hnodup (hasSchemas_emittedPlan hvalid backend catalog)).bind
      fun ps hps => .pure ?_
    split
    · exact .fixed_append (by decide) hps
    · exact hps
  have hemit := renderable_emit hrender
  refine ⟨fun reference hreference => hemit.error _ hreference ⟨reference, rfl⟩,
    fun artifact hartifact => ?_⟩
  obtain ⟨hparameters, ps, htext, hwritten⟩ := hemit.ok artifact hartifact
  refine ⟨parameters_emittedPlan catalog backend bound.plan, ps, htext, ?_⟩
  rw [hparameters]
  exact hwritten

/-- The query as it is handed to the binder. -/
def placeholderQuery : ParsedQuery := parsedTree nestedPlaceholders

/-- Each of its placeholders is written as that of its parameter on both backends, the one that
stands in both queries in both places. -/
theorem placeholderQuery_consistent : ∃ bound artifact artifact',
    bindAndValidate usersAndEvents placeholderQuery = .ok bound ∧
      emit .postgres bound usersAndEvents.catalog = .ok artifact ∧
      artifact.text = "SELECT events.id FROM events WHERE (((events.id > $1) AND events.id IN " ++
        "(SELECT users.id FROM users WHERE ((users.id = $4) OR (users.id = $2)))) AND " ++
        "((events.id < $3) AND (events.id <> $4)))" ∧
      (∃ ps, artifact.text = ps.text ∧
        Written ⟨.postgres, usersAndEvents.catalog, artifact.parameters⟩
          (queryNodes (emittedPlan usersAndEvents.catalog .postgres bound.plan)) ps) ∧
      emit .clickHouse bound usersAndEvents.catalog = .ok artifact' ∧
      ∃ ps, artifact'.text = ps.text ∧
        Written ⟨.clickHouse, usersAndEvents.catalog, artifact'.parameters⟩
          (queryNodes (emittedPlan usersAndEvents.catalog .clickHouse bound.plan)) ps := by
  -- What is bound and emitted is evaluated first, and taken apart afterwards.
  have htext : ((bindAndValidate usersAndEvents placeholderQuery).toOption.bind fun bound =>
      (emit .postgres bound usersAndEvents.catalog).toOption.map SqlArtifact.text) =
        some ("SELECT events.id FROM events WHERE (((events.id > $1) AND events.id IN " ++
          "(SELECT users.id FROM users WHERE ((users.id = $4) OR (users.id = $2)))) AND " ++
          "((events.id < $3) AND (events.id <> $4)))") := by
    decide +kernel
  have hsome : ((bindAndValidate usersAndEvents placeholderQuery).toOption.bind fun bound =>
      (emit .clickHouse bound usersAndEvents.catalog).toOption).isSome = true := by decide +kernel
  obtain ⟨bound, hbound, htext⟩ := Option.bind_eq_some_iff.mp htext
  rw [hbound, Option.bind_some] at hsome
  obtain ⟨artifact, hpostgres, htext⟩ := Option.map_eq_some_iff.mp htext
  obtain ⟨artifact', hclickHouse⟩ := Option.isSome_iff_exists.mp hsome
  rw [toOption_eq_some_iff] at hbound hpostgres hclickHouse
  have hconsistent := placeholders_consistent hbound
  exact ⟨bound, artifact, artifact', hbound, hpostgres, htext,
    ((hconsistent .postgres _).2 _ hpostgres).2, hclickHouse,
    ((hconsistent .clickHouse _).2 _ hclickHouse).2⟩

/-- `SELECT id FROM events SETTINGS max_threads = $1`. -/
def settingsPlaceholder : SyntaxQuery :=
  { selectId [] (plainTable "events") with
    backendClauses :=
      [.clickHouseSettings "max_threads = $1" { span := none, nodeId := "q.settings" }] }

/-- The placeholder of a setting is copied, and no parameter comes with it. -/
theorem settingsPlaceholder_unbound : ∃ bound artifact,
    bindAndValidate usersAndEvents (parsedTree settingsPlaceholder) = .ok bound ∧
      emit .clickHouse bound usersAndEvents.catalog = .ok artifact ∧
      artifact.text = "SELECT events.id FROM events SETTINGS max_threads = $1" ∧
      (∃ token ∈ Sql.lex SqlBackend.clickHouse.rules artifact.text.toList, token.kind =
        .parameter) ∧
      artifact.parameters = [] :=
  ⟨_, _, rfl, rfl, by decide +kernel, ⟨⟨.parameter, "$1".toList⟩, by decide +kernel, rfl⟩, rfl⟩

end QueryFabric.Render
