import QueryFabric.Adapter
import QueryFabric.Catalog.Memory
import QueryFabric.Render.Obligations

/-!
# Analysis and emission

Analysis visits a plan with the feature visitor, emission with the renderer, and the two do not see
the same functions: the visitor skips `ORDER BY`, `LIMIT` and `OFFSET`, `FILTER`, `OVER` and the
`ON` conditions of nested joins, and it never sees what rewriting adds. Analysis also asks nothing
about names, types and parameters. `emit_succeeds_iff` says exactly when a supported query is
emitted.
-/

namespace QueryFabric.Render

open ClickHouse Lib

section Rewritten

variable (catalog : Catalog)

/-- The demands of an expression that `toString` may be put around. -/
theorem meets_rewriteUuidArrowExpr (r : SqlRenderer) (allow : Bool) (e : BoundExpr) :
    Meets r (exprObligations none none allow (rewriteUuidArrowExpr e true).1) ↔
      Meets r (uuidObligations (some catalog) e) ∧ Meets r (exprObligations none none allow e) := by
  unfold rewriteUuidArrowExpr uuidObligations wrapsUuid
  by_cases h : e.dataType = .uuid <;> by_cases hc : isToStringCall e = true <;>
    simp [h, hc, wrapCall, exprObligations, exprsObligations, exprOptionObligations,
      windowObligations]

/-- An expression is converted to a text when it is wrapped. -/
theorem rewriteUuidArrowExpr_snd (e : BoundExpr) :
    (rewriteUuidArrowExpr e true).2 = wrapsUuid (some catalog) e := by
  unfold rewriteUuidArrowExpr wrapsUuid
  by_cases h : e.dataType = .uuid <;> by_cases hc : isToStringCall e = true <;> simp [h, hc]

/-- The obligations of two projections. -/
theorem projectionObligations_append (scope : Option SelectScope) :
    ∀ items items', projectionObligations none scope (items ++ items') =
      projectionObligations none scope items ++ projectionObligations none scope items'
  | [], items' => by simp [projectionObligations]
  | .expr ⟨e, a, f, nd⟩ :: items, items' => by
    simp [projectionObligations, projectionObligations_append scope items items']
  | .wildcard q fs nd :: items, items' => by
    simp [projectionObligations, projectionObligations_append scope items items']
  | .unsupported d nd :: items, items' => by
    simp [projectionObligations, projectionObligations_append scope items items']

/-- The fields that a wildcard is expanded to meet its obligations. -/
theorem meets_expandField (catalog : Catalog) (r : SqlRenderer) (bindingName : String)
    (node : SyntaxNode) :
    ∀ fields : List ResultField,
      Meets r (projectionObligations none none (fields.map (expandField bindingName node true))) ↔
        Meets r (fields.flatMap (fieldObligations bindingName))
  | [] => by simp [projectionObligations]
  | field :: fields => by
    have ih := meets_expandField catalog r bindingName node fields
    simp only [List.map_cons, expandField, projectionObligations, List.flatMap_cons, meets_append,
      ih, meets_rewriteUuidArrowExpr catalog]
    by_cases h : field.dataType = .uuid <;>
      simp [h, fieldObligations, uuidObligations, wrapsUuid, exprObligations, columnWrapper,
        aliasObligations, isToStringCall]
    grind

/-- The projection of a wildcard after rewriting. -/
theorem meets_wildcard (catalog : Catalog) (r : SqlRenderer) (scope : SelectScope)
    (qualifier : Option String) (fields : List ResultField) (node : SyntaxNode) :
    Meets r (projectionObligations none none
      ((expandWildcardProjection qualifier fields node scope true).getD
        [.wildcard qualifier fields node])) ↔
      Meets r (wildcardObligations (some scope) qualifier fields) := by
  unfold expandWildcardProjection wildcardObligations
  cases h : scope.targetBindingName qualifier with
  | none => simp [h, projectionObligations, wildcardObligations]
  | some bindingName => simp [h, meets_expandField catalog]

variable (r : SqlRenderer)

/-- A rewritten expression is wrapped alike. -/
@[simp]
theorem wrapsUuid_rewriteExpr (scope : Option SelectScope) (allow : Bool) (e : BoundExpr) :
    wrapsUuid (some catalog) (rewriteExpr catalog true scope allow e).1 =
      wrapsUuid (some catalog) e := by
  simp [wrapsUuid, isToStringCall_rewriteExpr]

/-- A rewritten expression is converted alike. -/
@[simp]
theorem uuidObligations_rewriteExpr (scope : Option SelectScope) (allow : Bool) (e : BoundExpr) :
    uuidObligations (some catalog) (rewriteExpr catalog true scope allow e).1 =
      uuidObligations (some catalog) e := by
  simp [uuidObligations]

/-- The alias that a rewritten projection is written under. -/
theorem meets_aliasObligations_rewrite (e e' : BoundExpr) (alias_ : Option String)
    (field field' : ResultField) :
    Meets r (aliasObligations none e' (alias_.orElse fun _ =>
        if (rewriteUuidArrowExpr e true).2 then some field.name else none) field') ↔
      Meets r (aliasObligations (some catalog) e alias_ field) := by
  rw [rewriteUuidArrowExpr_snd catalog]
  cases alias_ with
  | some alias_ => simp [aliasObligations]
  | none => cases h : wrapsUuid (some catalog) e <;> simp [aliasObligations, h]

/-- A rewritten expression has the same alias. -/
theorem aliasObligations_rewriteExpr (scope : Option SelectScope) (allow : Bool) (e : BoundExpr)
    (alias_ : Option String) (field : ResultField) :
    aliasObligations (some catalog) (rewriteExpr catalog true scope allow e).1 alias_ field =
      aliasObligations (some catalog) e alias_ field := by
  simp [aliasObligations]

mutual

/-- A rewritten query meets the obligations of the query. -/
theorem meets_rewriteQueryPlan : ∀ q : BoundQueryPlan,
    Meets r (queryObligations none (rewriteQueryPlan catalog true q).1) ↔
      Meets r (queryObligations (some catalog) q)
  | ⟨nd, ctes, body, orderBy, limit, offset, clauses, schema⟩ => by
    simp only [rewriteQueryPlan, queryObligations, meets_append, meets_rewriteCtes ctes,
      meets_rewriteSetExpr body, meets_rewriteOrderBys none orderBy,
      meets_rewriteExprOption none false false limit,
      meets_rewriteExprOption none false false offset]

/-- Rewritten CTEs meet the obligations of the CTEs. -/
theorem meets_rewriteCtes : ∀ ctes : List BoundCte,
    Meets r (cteObligations none (rewriteCtes catalog true ctes).1) ↔
      Meets r (cteObligations (some catalog) ctes)
  | [] => by simp [rewriteCtes, cteObligations]
  | ⟨name, columns, query, schema, nd⟩ :: ctes => by
    simp only [rewriteCtes, cteObligations, List.cons_append, meets_cons, meets_append,
      meets_rewriteQueryPlan query, meets_rewriteCtes ctes]

/-- A rewritten query body meets the obligations of the body. -/
theorem meets_rewriteSetExpr : ∀ s : BoundSetExpr,
    Meets r (setExprObligations none (rewriteSetExpr catalog true s).1) ↔
      Meets r (setExprObligations (some catalog) s)
  | .select s => by simp only [rewriteSetExpr, setExprObligations, meets_rewriteSelect s]
  | .unionAll left right nd schema => by
    simp only [rewriteSetExpr, setExprObligations, meets_append, meets_rewriteSetExpr left,
      meets_rewriteSetExpr right]
  | .unsupported description nd schema => by simp [rewriteSetExpr, setExprObligations]

/-- A rewritten select meets the obligations of the select. -/
theorem meets_rewriteSelect : ∀ s : BoundSelect,
    Meets r (selectObligations none (rewriteSelect catalog true s).1) ↔
      Meets r (selectObligations (some catalog) s)
  | ⟨distinct, projection, from_, selection, groupBy, having, schema, nd⟩ => by
    simp only [rewriteSelect, selectObligations, meets_append, Option.map_none, Option.map_some,
      scopeFromFromClause_rewriteTables, meets_rewriteProjections _ projection,
      meets_rewriteTables from_, meets_rewriteExprOption _ false false selection,
      meets_groupBy _ groupBy, meets_rewriteExprOption _ true true having,
      flatMap_uuidObligations_none, meets_nil, and_true, and_assoc]

/-- The keys of a `GROUP BY`, each possibly inside `toString`. -/
theorem meets_groupBy (scope : Option SelectScope) : ∀ es : List BoundExpr,
    Meets r (exprsObligations none none false
      ((rewriteExprs catalog true scope false es).1.map fun e => (rewriteUuidArrowExpr e true).1)) ↔
      Meets r (exprsObligations (some catalog) scope false es) ∧
        Meets r (es.flatMap (uuidObligations (some catalog)))
  | [] => by simp [rewriteExprs, exprsObligations]
  | e :: es => by
    simp only [rewriteExprs, exprsObligations, List.map_cons, List.flatMap_cons, meets_append,
      meets_rewriteUuidArrowExpr catalog, meets_groupBy scope es, uuidObligations_rewriteExpr,
      meets_rewriteExpr scope false false e]
    grind

/-- A rewritten projection meets the obligations of the projection. -/
theorem meets_rewriteProjections (scope : SelectScope) : ∀ items : List BoundProjectionItem,
    Meets r (projectionObligations none none (rewriteProjections catalog true scope items).1) ↔
      Meets r (projectionObligations (some catalog) (some scope) items)
  | [] => by simp [rewriteProjections, projectionObligations]
  | .expr ⟨expr, alias_, field, nd⟩ :: items => by
    simp only [rewriteProjections, projectionObligations, meets_append, rewriteProjectionExpr,
      meets_rewriteUuidArrowExpr catalog, uuidObligations_rewriteExpr, uuidObligations_none,
      meets_nil, meets_rewriteProjections scope items,
      meets_rewriteExpr (some scope) true true expr, meets_aliasObligations_rewrite catalog,
      aliasObligations_rewriteExpr]
    grind
  | .wildcard qualifier fields nd :: items => by
    simp only [rewriteProjections, projectionObligations, projectionObligations_append,
      meets_append, meets_wildcard catalog, meets_rewriteProjections scope items]
  | .unsupported description nd :: items => by
    simp only [rewriteProjections, projectionObligations, meets_cons,
      meets_rewriteProjections scope items]

/-- A rewritten `FROM` clause meets the obligations of the clause. -/
theorem meets_rewriteTables : ∀ tables : List BoundTableWithJoins,
    Meets r (tablesObligations none (rewriteTables catalog true tables).1) ↔
      Meets r (tablesObligations (some catalog) tables)
  | [] => by simp [rewriteTables, tablesObligations]
  | table :: tables => by
    simp only [rewriteTables, tablesObligations, meets_append, meets_rewriteTableWithJoins table,
      meets_rewriteTables tables]

/-- A rewritten table meets the obligations of the table. -/
theorem meets_rewriteTableWithJoins : ∀ table : BoundTableWithJoins,
    Meets r (tableWithJoinsObligations none (rewriteTableWithJoins catalog true table).1) ↔
      Meets r (tableWithJoinsObligations (some catalog) table)
  | ⟨relation, joins, nd⟩ => by
    simp only [rewriteTableWithJoins, tableWithJoinsObligations, meets_append,
      meets_rewriteRelation relation, meets_rewriteJoins joins]

/-- Rewritten joins meet the obligations of the joins. -/
theorem meets_rewriteJoins : ∀ joins : List BoundJoin,
    Meets r (joinObligations none (rewriteJoins catalog true joins).1) ↔
      Meets r (joinObligations (some catalog) joins)
  | [] => by simp [rewriteJoins, joinObligations]
  | ⟨kind, relation, on, nd⟩ :: joins => by
    simp only [rewriteJoins, joinObligations, meets_append, meets_rewriteRelation relation,
      meets_rewriteExprOption none false false on, meets_rewriteJoins joins]

/-- A rewritten relation meets the obligations of the relation. -/
theorem meets_rewriteRelation : ∀ relation : BoundRelation,
    Meets r (relationObligations none (rewriteRelation catalog true relation).1) ↔
      Meets r (relationObligations (some catalog) relation)
  | .table binding nd => by simp [rewriteRelation, relationObligations]
  | .derived binding query nd => by
    simp only [rewriteRelation, relationObligations, meets_append, meets_rewriteQueryPlan query]
  | .nestedJoin binding table nd => by
    simp only [rewriteRelation, relationObligations, meets_append,
      meets_rewriteTableWithJoins table]
  | .unsupported description bindingName nd => by simp [rewriteRelation, relationObligations]

/-- A rewritten `ORDER BY` meets the obligations of the clause. -/
theorem meets_rewriteOrderBys (scope : Option SelectScope) : ∀ orders : List BoundOrderByExpr,
    Meets r (orderByObligations none none (rewriteOrderBys catalog true scope orders).1) ↔
      Meets r (orderByObligations (some catalog) scope orders)
  | [] => by simp [rewriteOrderBys, orderByObligations]
  | ⟨expr, asc, nullsFirst, nd⟩ :: orders => by
    simp only [rewriteOrderBys, rewriteOrderByExpr, orderByObligations, meets_append,
      meets_rewriteExpr scope false false expr, meets_rewriteOrderBys scope orders]

/-- A rewritten expression meets the obligations of the expression. -/
theorem meets_rewriteExpr (scope : Option SelectScope) (allow allow' : Bool) : ∀ e : BoundExpr,
    Meets r (exprObligations none none allow' (rewriteExpr catalog true scope allow e).1) ↔
      Meets r (exprObligations (some catalog) scope allow e)
  | ⟨.column c, ty, nu, nd⟩ => by
    rw [rewriteExpr]
    -- A wrapped column is written with its merge function, whose obligations are met by both.
    cases h : columnWrapper scope allow c <;>
      simp [h, exprObligations, exprsObligations, exprOptionObligations, windowObligations,
        wrapCall]
  | ⟨.literal v, ty, nu, nd⟩ => by simp [rewriteExpr, exprObligations]
  | ⟨.parameter reference, ty, nu, nd⟩ => by simp [rewriteExpr, exprObligations]
  | ⟨.unary op x, ty, nu, nd⟩ => by
    simp only [rewriteExpr, exprObligations, meets_rewriteExpr scope allow allow' x]
  | ⟨.binary op x y, ty, nu, nd⟩ => by
    simp only [rewriteExpr, exprObligations, meets_append, meets_rewriteExpr scope allow allow' x,
      meets_rewriteExpr scope allow allow' y]
  | ⟨.function ⟨function, backendName, args, distinct, filter, over_, signatureName⟩, ty,
      nu, nd⟩ => by
    -- Arguments that are kept are a single column, which asks for nothing.
    have hargs : ∀ call : BoundFunctionCall, call.args = args →
        (Meets r (exprsObligations none none allow' (if keepArgs scope allow call then
          (args, ([] : List MvEvent)) else rewriteExprs catalog true scope allow args).1) ↔
        Meets r (exprsObligations (some catalog)
          (if keepArgs scope allow call then none else scope) allow args)) := by
      intro call hcall
      cases hkeep : keepArgs scope allow call with
      | false => simpa using meets_rewriteExprs scope allow allow' args
      | true =>
        obtain ⟨column, ty, nu, nd, hcol⟩ := args_of_keepArgs hkeep
        rw [← hcall, hcol]
        simp [exprsObligations, exprObligations, columnWrapper]
    simp only [rewriteExpr, exprObligations, meets_append, keepArgs_none, ite_self,
      meets_rewriteExprOption scope false false filter, meets_rewriteWindow scope over_]
    rw [hargs _ rfl]
  | ⟨.case operand whenThen elseResult, ty, nu, nd⟩ => by
    simp only [rewriteExpr, exprObligations, meets_append,
      meets_rewriteExprOption scope allow allow' operand,
      meets_rewriteWhenThens scope allow allow' whenThen,
      meets_rewriteExprOption scope allow allow' elseResult]
  | ⟨.cast x type, ty, nu, nd⟩ => by
    simp only [rewriteExpr, exprObligations, meets_append, meets_rewriteExpr scope allow allow' x]
  | ⟨.between x low high negated, ty, nu, nd⟩ => by
    simp only [rewriteExpr, exprObligations, meets_append, meets_rewriteExpr scope allow allow' x,
      meets_rewriteExpr scope allow allow' low, meets_rewriteExpr scope allow allow' high]
  | ⟨.inList x list negated, ty, nu, nd⟩ => by
    simp only [rewriteExpr, exprObligations, meets_append, meets_rewriteExpr scope allow allow' x,
      meets_rewriteExprs scope allow allow' list]
  -- A subquery is rewritten as a query of its own.
  | ⟨.inSubquery x query negated, ty, nu, nd⟩ => by
    simp only [rewriteExpr, exprObligations, meets_append, meets_rewriteExpr scope allow allow' x,
      meets_rewriteQueryPlan query]
  | ⟨.scalarSubquery query, ty, nu, nd⟩ => by
    simp only [rewriteExpr, exprObligations, meets_rewriteQueryPlan query]
  | ⟨.exists query, ty, nu, nd⟩ => by
    simp only [rewriteExpr, exprObligations, meets_rewriteQueryPlan query]
  | ⟨.like x pattern negated caseInsensitive, ty, nu, nd⟩ => by
    simp only [rewriteExpr, exprObligations, meets_append, meets_rewriteExpr scope allow allow' x,
      meets_rewriteExpr scope allow allow' pattern]
  | ⟨.isNull x negated, ty, nu, nd⟩ => by
    simp only [rewriteExpr, exprObligations, meets_rewriteExpr scope allow allow' x]
  | ⟨.tuple items, ty, nu, nd⟩ => by
    simp only [rewriteExpr, exprObligations, meets_rewriteExprs scope allow allow' items]
  | ⟨.array items, ty, nu, nd⟩ => by
    simp only [rewriteExpr, exprObligations, meets_rewriteExprs scope allow allow' items]
  | ⟨.unsupported description, ty, nu, nd⟩ => by simp [rewriteExpr, exprObligations]

/-- A rewritten list of expressions meets the obligations of the list. -/
theorem meets_rewriteExprs (scope : Option SelectScope) (allow allow' : Bool) :
    ∀ es : List BoundExpr,
      Meets r (exprsObligations none none allow' (rewriteExprs catalog true scope allow es).1) ↔
        Meets r (exprsObligations (some catalog) scope allow es)
  | [] => by simp [rewriteExprs, exprsObligations]
  | e :: es => by
    simp only [rewriteExprs, exprsObligations, meets_append, meets_rewriteExpr scope allow allow' e,
      meets_rewriteExprs scope allow allow' es]

/-- A rewritten optional expression meets the obligations of the expression. -/
theorem meets_rewriteExprOption (scope : Option SelectScope) (allow allow' : Bool) :
    ∀ o : Option BoundExpr,
      Meets r (exprOptionObligations none none allow'
        (rewriteExprOption catalog true scope allow o).1) ↔
        Meets r (exprOptionObligations (some catalog) scope allow o)
  | none => by simp [rewriteExprOption, exprOptionObligations]
  | some e => by
    simp only [rewriteExprOption, exprOptionObligations, meets_rewriteExpr scope allow allow' e]

/-- Rewritten branches meet the obligations of the branches. -/
theorem meets_rewriteWhenThens (scope : Option SelectScope) (allow allow' : Bool) :
    ∀ ws : List BoundWhenThen,
      Meets r (whenThenObligations none none allow'
        (rewriteWhenThens catalog true scope allow ws).1) ↔
        Meets r (whenThenObligations (some catalog) scope allow ws)
  | [] => by simp [rewriteWhenThens, whenThenObligations]
  | ⟨condition, result⟩ :: ws => by
    simp only [rewriteWhenThens, whenThenObligations, meets_append,
      meets_rewriteExpr scope allow allow' condition, meets_rewriteExpr scope allow allow' result,
      meets_rewriteWhenThens scope allow allow' ws]

/-- A rewritten window meets the obligations of the window. -/
theorem meets_rewriteWindow (scope : Option SelectScope) : ∀ o : Option BoundWindowSpec,
    Meets r (windowObligations none none (rewriteWindow catalog true scope o).1) ↔
      Meets r (windowObligations (some catalog) scope o)
  | none => by simp [rewriteWindow, windowObligations]
  | some ⟨partitionBy, orderBy, nd⟩ => by
    simp only [rewriteWindow, windowObligations, meets_append,
      meets_rewriteExprs scope false false partitionBy, meets_rewriteOrderBys scope orderBy]

end


end Rewritten

/-- The renderer that emission runs. -/
def emissionRenderer (backend : SqlBackend) (query : BoundQuery) (catalog : Catalog) :
    SqlRenderer :=
  { backend, catalog, parameterOrder := orderedParameters query }

/-- The catalog that emission rewrites with, if it does. -/
def rewritingCatalog : SqlBackend → Catalog → Option Catalog
  | .clickHouse, catalog => some catalog
  | .postgres, _ => none

/-- The demands that analysis leaves to emission: all but the mappings of the functions that the
feature visitor reached. -/
def leftToEmission (query : BoundQuery) (catalog : Catalog) : Obligation → Bool
  | .mapping function => !(planFeaturesFromBound catalog query.plan).functions.contains function
  | _ => true

/-- Every demand that analysis leaves to emission is met. -/
def Emittable (backend : SqlBackend) (query : BoundQuery) (catalog : Catalog) : Prop :=
  ∀ o ∈ queryObligations (rewritingCatalog backend catalog) query.plan,
    leftToEmission query catalog o = true → o.holds (emissionRenderer backend query catalog) = true

/-- Whether a query can be emitted can be checked. -/
instance (backend : SqlBackend) (query : BoundQuery) (catalog : Catalog) :
    Decidable (Emittable backend query catalog) :=
  inferInstanceAs (Decidable (∀ o ∈ _, _ → _))

/-- `emit_sql_artifact` succeeds when the renderer meets the demands of the plan. -/
theorem emitSqlArtifact_succeeds_iff (query : BoundQuery) (catalog : Catalog)
    (backend : SqlBackend) :
    Succeeds (emitSqlArtifact query catalog backend) ↔
      Meets (emissionRenderer backend query catalog) (queryObligations none query.plan) := by
  simp [emitSqlArtifact, renderQuery, emissionRenderer, ← renderQueryInner_succeeds_iff]

/-- What the summary of rewriting adds to the diagnostics is never an error. -/
theorem analyzeBackendSupport_of_supported {backend : SqlBackend} {query : BoundQuery}
    {catalog : Catalog} (h : (analyze backend query catalog).supported = true) :
    ∃ capabilities allow,
      (analyzeBackendSupport query catalog backend.name capabilities allow).supported = true := by
  cases backend with
  | postgres => exact ⟨_, _, h⟩
  | clickHouse =>
    refine ⟨ClickHouseAdapter.capabilities, true, ?_⟩
    simp only [analyze, ClickHouseAdapter.analyze, Bool.not_eq_true', List.any_append,
      Bool.or_eq_false_iff] at h
    simpa [analyzeBackendSupport, SqlBackend.name] using h.1

/-- A mapping that analysis has checked is there for emission. -/
theorem holds_of_supported {backend : SqlBackend} {query : BoundQuery} {catalog : Catalog}
    (h : (analyze backend query catalog).supported = true) {o : Obligation}
    (ho : leftToEmission query catalog o = false) :
    o.holds (emissionRenderer backend query catalog) = true := by
  obtain ⟨capabilities, allow, hs⟩ := analyzeBackendSupport_of_supported h
  cases o with
  | mapping function =>
    have hf : function ∈ (planFeaturesFromBound catalog query.plan).functions := by
      simpa [leftToEmission] using ho
    obtain ⟨signature, mapped, hsig, hmap⟩ := mapping_of_supported hs hf
    simp [Obligation.holds, SqlRenderer.mapping, emissionRenderer, hsig, hmap]
  | _ => simp [leftToEmission] at ho

/-- Emission of a supported query is the emission of the plan it renders. -/
theorem emit_succeeds_iff_artifact {backend : SqlBackend} {query : BoundQuery} {catalog : Catalog}
    (h : (analyze backend query catalog).supported = true) :
    Succeeds (emit backend query catalog) ↔
      Meets (emissionRenderer backend query catalog)
        (queryObligations (rewritingCatalog backend catalog) query.plan) := by
  cases backend with
  | postgres =>
    simp only [analyze] at h
    simp [emit, PostgresAdapter.emit, h, emitSqlArtifact_succeeds_iff, rewritingCatalog]
  | clickHouse =>
    simp only [analyze] at h
    have henabled : ClickHouseAdapter.uuidArrowWorkaroundEnabled = true := by decide
    rw [rewritingCatalog, ← meets_rewriteQueryPlan]
    -- The rewritten query has the parameters of the original one, and so its renderer.
    have hartifact := emitSqlArtifact_succeeds_iff
      (query.withPlan (rewriteQueryPlan catalog true query.plan).1) catalog .clickHouse
    simp only [emit, ClickHouseAdapter.emit, h, henabled, rewriteQueryForClickhouse,
      Bool.not_true, Bool.false_eq_true, if_false]
    refine Iff.trans ?_ hartifact
    cases (mvSummary (rewriteQueryPlan catalog true query.plan).2).rewrittenToMetadata <;> simp

/-- Given a supported query, emission succeeds exactly when every demand that analysis left to it is
met. -/
theorem emit_succeeds_iff (backend : SqlBackend) (query : BoundQuery) (catalog : Catalog)
    (h : (analyze backend query catalog).supported = true) :
    (∃ artifact, emit backend query catalog = .ok artifact) ↔ Emittable backend query catalog := by
  rw [exists_eq_ok, emit_succeeds_iff_artifact h]
  constructor
  · intro hmeets o ho _
    exact hmeets o ho
  · intro hleft o ho
    -- A demand is either left to emission or checked by analysis.
    cases hcheck : leftToEmission query catalog o with
    | true => exact hleft o ho hcheck
    | false => exact holds_of_supported h hcheck

/-- A catalog with one relation, `events (id BIGINT NOT NULL)`. -/
def eventsCatalog : Catalog :=
  (MemoryCatalog.registerRelation {}
    { namespace_ := none, name := "events", aliases := [], kind := .table,
      columns := [{ name := "id", dataType := .int64, nullable := false }] }).toCatalog

/-- A node of the sample queries. -/
def sampleNode (nodeId : String) : SyntaxNode := { span := none, nodeId }

/-- The bound query of `SELECT id FROM events`, with the given `ORDER BY`. -/
def eventsQuery (sourceSql : String) (syntaxOrder : List SyntaxOrderByExpr)
    (boundOrder : List BoundOrderByExpr) : BoundQuery :=
  let schema := ResultSchema.new [ResultField.new "id" .int64 false]
  let syntaxSelect : SyntaxSelect :=
    { distinct := false
      projection := [.expr { expr := { kind := .column none "id", node := sampleNode "0.0" },
                             alias_ := none, node := sampleNode "0.0" }]
      from_ :=
        [{ relation := .table { namespace_ := none, name := "events" } none (sampleNode "0.1"),
                  joins := [], node := sampleNode "0.1" }]
      selection := none, groupBy := [], having := none, node := sampleNode "0" }
  let select : BoundSelect :=
    { distinct := false
      projection := [.expr
        { expr := { kind := .column { relation := some "events", name := "id" }, dataType := .int64,
                    nullable := false, node := sampleNode "0.0" }
          alias_ := none, field := ResultField.new "id" .int64 false, node := sampleNode "0.0" }]
      from_ := [{ relation := .table { bindingName := "events",
                                       relationName :=
                                         some { namespace_ := none, name := "events" },
                                       schema } (sampleNode "0.1")
                  joins := [], node := sampleNode "0.1" }]
      selection := none, groupBy := [], having := none, resultSchema := schema
      node := sampleNode "0" }
  { parsed := { dialect := "generic", sourceSql, canonicalSql := sourceSql, explain := false
                syntaxTree := { node := sampleNode "q", ctes := [], withRecursive := false
                                body := .select syntaxSelect, orderBy := syntaxOrder
                                limit := none, offset := none, backendClauses := [] }
                loweringDiagnostics := [] }
    catalogSnapshot := some "memory-catalog", parameters := [], diagnostics := []
    capabilityRequirements := {}, resultSchema := schema
    plan := { node := sampleNode "q", ctes := [], body := .select select, orderBy := boundOrder
              limit := none, offset := none, backendClauses := [], resultSchema := schema } }

/-- `SELECT id FROM events`. -/
def plainEvents : BoundQuery := eventsQuery "SELECT id FROM events" [] []

/-- `SELECT id FROM events ORDER BY toString(id)`. -/
def eventsByText : BoundQuery :=
  eventsQuery "SELECT id FROM events ORDER BY toString(id)"
    [{ expr :=
        { kind := .function
            { function := { namespace_ := none, name := "toString" }
              args := [{ kind := .column none "id", node := sampleNode "o.0" }]
              distinct := false, filter := none, over_ := none }
          node := sampleNode "o" }
       asc := none, nullsFirst := none, node := sampleNode "o" }]
    [{ expr :=
        { kind := .function
            { function := { namespace_ := none, name := "toString" }, resolvedBackendName := none
              args := [{ kind := .column { relation := some "__output__", name := "id" }
                         dataType := .int64, nullable := false, node := sampleNode "o.0" }]
              distinct := false, filter := none, over_ := none
              resolvedSignatureName := some "toString" }
          dataType := .utf8, nullable := false, node := sampleNode "o" }
       asc := none, nullsFirst := none, node := sampleNode "o" }]

/-- A supported query whose every demand is met is emitted. -/
theorem emit_plainEvents :
    (analyze .postgres plainEvents eventsCatalog).supported = true ∧
      ∃ artifact, emit .postgres plainEvents eventsCatalog = .ok artifact :=
  ⟨by decide,
    (emit_succeeds_iff .postgres plainEvents eventsCatalog (by decide)).mpr (by decide)⟩

/-- `toString` is a ClickHouse function, and analysis does not look at `ORDER BY`: the query is
supported on Postgres, and emission refuses it. -/
theorem emit_eventsByText_fails :
    (analyze .postgres eventsByText eventsCatalog).supported = true ∧
      ¬ ∃ artifact, emit .postgres eventsByText eventsCatalog = .ok artifact := by
  refine ⟨by decide, ?_⟩
  rw [exists_eq_ok, emit_succeeds_iff_artifact (by decide)]
  unfold Meets
  decide

end QueryFabric.Render
