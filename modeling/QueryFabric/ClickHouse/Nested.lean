import QueryFabric.ClickHouse.Rewrite
import QueryFabric.Ir.Nested

/-!
# Rewriting and nested queries

Rewriting a plan rewrites the queries within it, each on its own, and makes no others.
-/

namespace QueryFabric.ClickHouse

section Rewrite

variable (catalog : Catalog) (enabled : Bool)

/-- The rewritten plan. -/
def rewritten (plan : BoundQueryPlan) : BoundQueryPlan := (rewriteQueryPlan catalog enabled plan).1

/-- The text conversion keeps the queries of an expression. -/
theorem exprQueries_rewriteUuidArrowExpr (expr : BoundExpr) :
    exprQueries (rewriteUuidArrowExpr expr enabled).1 = exprQueries expr := by
  unfold rewriteUuidArrowExpr
  split
  · rfl
  · simp [wrapCall, exprQueries, exprsQueries, optionQueries, windowQueries]

/-- The text conversion keeps the queries of a list. -/
theorem exprsQueries_rewriteUuidArrowExpr (exprs : List BoundExpr) :
    exprsQueries (exprs.map fun expr => (rewriteUuidArrowExpr expr enabled).1) =
      exprsQueries exprs := by
  induction exprs with
  | nil => rfl
  | cons expr exprs ih =>
    rw [List.map_cons, exprsQueries, exprsQueries, ih, exprQueries_rewriteUuidArrowExpr]

mutual

/-- The queries of a rewritten expression are rewritten. -/
theorem exprQueries_rewriteExpr (scope : Option SelectScope) (allow : Bool) : ∀ expr : BoundExpr,
    exprQueries (rewriteExpr catalog enabled scope allow expr).1 =
      (exprQueries expr).map (rewritten catalog enabled)
  -- A column may be wrapped in a merge function, which holds no query.
  | ⟨.column column, _, _, _⟩ => by
    rw [rewriteExpr]
    split
    · simp [wrapCall, exprQueries, exprsQueries, optionQueries, windowQueries]
    · simp [exprQueries]
  | ⟨.literal _, _, _, _⟩ => by simp [rewriteExpr, exprQueries]
  | ⟨.parameter _, _, _, _⟩ => by simp [rewriteExpr, exprQueries]
  | ⟨.unsupported _, _, _, _⟩ => by simp [rewriteExpr, exprQueries]
  | ⟨.unary _ inner, _, _, _⟩ => by
    simp [rewriteExpr, exprQueries, exprQueries_rewriteExpr scope allow inner]
  | ⟨.binary _ left right, _, _, _⟩ => by
    simp [rewriteExpr, exprQueries, exprQueries_rewriteExpr scope allow left,
      exprQueries_rewriteExpr scope allow right]
  | ⟨.function ⟨function, backendName, args, distinct, filter, over_, signatureName⟩, _, _, _⟩ => by
    have hargs := exprsQueries_rewriteExprs scope allow args
    -- Where the arguments are kept, they are a single column, and there is no query to rewrite in
    -- it.
    have hkept : ∀ call : BoundFunctionCall, call.args = args → exprsQueries
        (if keepArgs scope allow call then (args, ([] : List MvEvent)) else
          rewriteExprs catalog enabled scope allow args).1 =
            (exprsQueries args).map (rewritten catalog enabled) := by
      intro call hcall
      split
      · rename_i hkeep
        obtain ⟨column, ty, nu, nd, hcolumn⟩ := args_of_keepArgs hkeep
        rw [← hcall, hcolumn]
        simp [exprsQueries, exprQueries]
      · exact hargs
    simp only [rewriteExpr, exprQueries, List.map_append,
      optionQueries_rewriteExprOption scope false filter, windowQueries_rewriteWindow scope over_]
    rw [hkept _ rfl]
  | ⟨.case operand whenThen elseResult, _, _, _⟩ => by
    simp [rewriteExpr, exprQueries, optionQueries_rewriteExprOption scope allow operand,
      whenThenQueries_rewriteWhenThens scope allow whenThen,
      optionQueries_rewriteExprOption scope allow elseResult]
  | ⟨.cast inner _, _, _, _⟩ => by
    simp [rewriteExpr, exprQueries, exprQueries_rewriteExpr scope allow inner]
  | ⟨.between input low high _, _, _, _⟩ => by
    simp [rewriteExpr, exprQueries, exprQueries_rewriteExpr scope allow input,
      exprQueries_rewriteExpr scope allow low, exprQueries_rewriteExpr scope allow high]
  | ⟨.inList input list _, _, _, _⟩ => by
    simp [rewriteExpr, exprQueries, exprQueries_rewriteExpr scope allow input,
      exprsQueries_rewriteExprs scope allow list]
  | ⟨.inSubquery input subquery _, _, _, _⟩ => by
    simp [rewriteExpr, exprQueries, exprQueries_rewriteExpr scope allow input, rewritten]
  | ⟨.scalarSubquery subquery, _, _, _⟩ => by simp [rewriteExpr, exprQueries, rewritten]
  | ⟨.exists subquery, _, _, _⟩ => by simp [rewriteExpr, exprQueries, rewritten]
  | ⟨.like input pattern _ _, _, _, _⟩ => by
    simp [rewriteExpr, exprQueries, exprQueries_rewriteExpr scope allow input,
      exprQueries_rewriteExpr scope allow pattern]
  | ⟨.isNull inner _, _, _, _⟩ => by
    simp [rewriteExpr, exprQueries, exprQueries_rewriteExpr scope allow inner]
  | ⟨.tuple items, _, _, _⟩ => by
    simp [rewriteExpr, exprQueries, exprsQueries_rewriteExprs scope allow items]
  | ⟨.array items, _, _, _⟩ => by
    simp [rewriteExpr, exprQueries, exprsQueries_rewriteExprs scope allow items]
termination_by structural expr => expr

/-- The queries of a rewritten list are rewritten. -/
theorem exprsQueries_rewriteExprs (scope : Option SelectScope) (allow : Bool) :
    ∀ exprs : List BoundExpr, exprsQueries (rewriteExprs catalog enabled scope allow exprs).1 =
      (exprsQueries exprs).map (rewritten catalog enabled)
  | [] => by simp [rewriteExprs, exprsQueries]
  | expr :: exprs => by
    simp [rewriteExprs, exprsQueries, exprQueries_rewriteExpr scope allow expr,
      exprsQueries_rewriteExprs scope allow exprs]
termination_by structural exprs => exprs

/-- The queries of a rewritten optional expression are rewritten. -/
theorem optionQueries_rewriteExprOption (scope : Option SelectScope) (allow : Bool) :
    ∀ expr : Option BoundExpr,
    optionQueries (rewriteExprOption catalog enabled scope allow expr).1 =
      (optionQueries expr).map (rewritten catalog enabled)
  | none => by simp [rewriteExprOption, optionQueries]
  | some expr => by
    simp [rewriteExprOption, optionQueries, exprQueries_rewriteExpr scope allow expr]
termination_by structural expr => expr

/-- The queries of rewritten branches are rewritten. -/
theorem whenThenQueries_rewriteWhenThens (scope : Option SelectScope) (allow : Bool) :
    ∀ pairs : List BoundWhenThen,
      whenThenQueries (rewriteWhenThens catalog enabled scope allow pairs).1 =
        (whenThenQueries pairs).map (rewritten catalog enabled)
  | [] => by simp [rewriteWhenThens, whenThenQueries]
  | ⟨condition, result⟩ :: pairs => by
    simp [rewriteWhenThens, whenThenQueries, exprQueries_rewriteExpr scope allow condition,
      exprQueries_rewriteExpr scope allow result,
      whenThenQueries_rewriteWhenThens scope allow pairs]
termination_by structural pairs => pairs

/-- The queries of a rewritten `ORDER BY` are rewritten. -/
theorem orderByQueries_rewriteOrderBys (scope : Option SelectScope) :
    ∀ orders : List BoundOrderByExpr,
    orderByQueries (rewriteOrderBys catalog enabled scope orders).1 =
      (orderByQueries orders).map (rewritten catalog enabled)
  | [] => by simp [rewriteOrderBys, orderByQueries]
  | ⟨expr, _, _, _⟩ :: orders => by
    simp [rewriteOrderBys, rewriteOrderByExpr, orderByQueries,
      exprQueries_rewriteExpr scope false expr, orderByQueries_rewriteOrderBys scope orders]
termination_by structural orders => orders

/-- The queries of a rewritten window are rewritten. -/
theorem windowQueries_rewriteWindow (scope : Option SelectScope) : ∀ over_ : Option BoundWindowSpec,
    windowQueries (rewriteWindow catalog enabled scope over_).1 =
      (windowQueries over_).map (rewritten catalog enabled)
  | none => by simp [rewriteWindow, windowQueries]
  | some ⟨partitionBy, orderBy, _⟩ => by
    simp [rewriteWindow, windowQueries, exprsQueries_rewriteExprs scope false partitionBy,
      orderByQueries_rewriteOrderBys scope orderBy]
termination_by structural over_ => over_

end

mutual

/-- The queries of a rewritten relation are rewritten. -/
theorem relationQueries_rewriteRelation : ∀ relation : BoundRelation,
    relationQueries (rewriteRelation catalog enabled relation).1 =
      (relationQueries relation).map (rewritten catalog enabled)
  | .table .. => by simp [rewriteRelation, relationQueries]
  | .derived _ query _ => by simp [rewriteRelation, relationQueries, rewritten]
  | .nestedJoin _ ⟨relation, joins, _⟩ _ => by
    simp [rewriteRelation, rewriteTableWithJoins, relationQueries,
      relationQueries_rewriteRelation relation, joinQueries_rewriteJoins joins]
  | .unsupported .. => by simp [rewriteRelation, relationQueries]
termination_by structural relation => relation

/-- The queries of rewritten joins are rewritten. -/
theorem joinQueries_rewriteJoins : ∀ joins : List BoundJoin,
    joinQueries (rewriteJoins catalog enabled joins).1 =
      (joinQueries joins).map (rewritten catalog enabled)
  | [] => by simp [rewriteJoins, joinQueries]
  | ⟨_, relation, on, _⟩ :: joins => by
    simp [rewriteJoins, joinQueries, relationQueries_rewriteRelation relation,
      optionQueries_rewriteExprOption catalog enabled none false on, joinQueries_rewriteJoins joins]
termination_by structural joins => joins

end

/-- The queries of a rewritten `FROM` clause are rewritten. -/
theorem tableQueries_rewriteTables (tables : List BoundTableWithJoins) :
    (rewriteTables catalog enabled tables).1.flatMap tableQueries =
      (tables.flatMap tableQueries).map (rewritten catalog enabled) := by
  induction tables with
  | nil => simp [rewriteTables]
  | cons table tables ih =>
    cases table
    simp [rewriteTables, rewriteTableWithJoins, tableQueries, relationQueries_rewriteRelation,
      joinQueries_rewriteJoins, ih]

/-- Each item of a projection is rewritten on its own. -/
theorem rewriteProjections_append (scope : SelectScope) (items items' : List BoundProjectionItem) :
    (rewriteProjections catalog enabled scope (items ++ items')).1 =
      (rewriteProjections catalog enabled scope items).1 ++
        (rewriteProjections catalog enabled scope items').1 := by
  induction items with
  | nil => simp [rewriteProjections]
  | cons item items ih =>
    rw [List.cons_append]
    cases item with
    | expr details =>
      cases details
      simp [rewriteProjections, ih]
    | _ => simp [rewriteProjections, ih]

/-- What is read off the items of a rewritten projection is read off each of its items. -/
theorem flatMap_rewriteProjections {α : Type} {F G : BoundProjectionItem → List α}
    (scope : SelectScope)
    (h : ∀ item, (rewriteProjections catalog enabled scope [item]).1.flatMap F = G item)
    (items : List BoundProjectionItem) :
    (rewriteProjections catalog enabled scope items).1.flatMap F = items.flatMap G := by
  induction items with
  | nil => simp [rewriteProjections]
  | cons item items ih =>
    rw [← List.singleton_append, rewriteProjections_append, List.flatMap_append, h, ih,
      List.singleton_append, List.flatMap_cons]

/-- The queries of a rewritten projection are rewritten. -/
theorem itemQueries_rewriteProjections (scope : SelectScope) (items : List BoundProjectionItem) :
    (rewriteProjections catalog enabled scope items).1.flatMap itemQueries =
      (items.flatMap itemQueries).map (rewritten catalog enabled) := by
  rw [List.map_flatMap]
  refine flatMap_rewriteProjections catalog enabled scope (fun item => ?_) items
  cases item with
  | expr details =>
    cases details
    simp [rewriteProjections, rewriteProjectionExpr, itemQueries, exprQueries_rewriteUuidArrowExpr,
      exprQueries_rewriteExpr]
  | wildcard qualifier fields node =>
    simp only [rewriteProjections, List.append_nil, expandWildcardProjection]
    cases scope.targetBindingName qualifier with
    | none => simp [itemQueries]
    | some name => simp [expandField, itemQueries, exprQueries_rewriteUuidArrowExpr, exprQueries]
  | unsupported description node => simp [rewriteProjections, itemQueries]

/-- The projection of a rewritten select. -/
theorem projection_rewriteSelect (select : BoundSelect) :
    (rewriteSelect catalog enabled select).1.projection =
      (rewriteProjections catalog enabled
        (scopeFromFromClause catalog select.from_) select.projection).1 := by
  cases select
  simp [rewriteSelect, scopeFromFromClause_rewriteTables]

/-- The queries of a rewritten body are rewritten. -/
theorem setExprQueries_rewriteSetExpr : ∀ body : BoundSetExpr,
    setExprQueries (rewriteSetExpr catalog enabled body).1 =
      (setExprQueries body).map (rewritten catalog enabled)
  | .select ⟨_, projection, from_, selection, groupBy, having, _, _⟩ => by
    simp [rewriteSetExpr, rewriteSelect, setExprQueries, selectQueries,
      itemQueries_rewriteProjections, tableQueries_rewriteTables, optionQueries_rewriteExprOption,
      exprsQueries_rewriteUuidArrowExpr, exprsQueries_rewriteExprs]
  | .unionAll left right _ _ => by
    simp [rewriteSetExpr, setExprQueries, setExprQueries_rewriteSetExpr left,
      setExprQueries_rewriteSetExpr right]
  | .unsupported .. => by simp [rewriteSetExpr, setExprQueries]

/-- The CTEs of a rewritten query. -/
theorem ctes_rewriteCtes (ctes : List BoundCte) :
    (rewriteCtes catalog enabled ctes).1 = ctes.map fun cte =>
      { cte with
        query := rewritten catalog enabled cte.query
        resultSchema := (rewritten catalog enabled cte.query).resultSchema } := by
  induction ctes with
  | nil => simp [rewriteCtes]
  | cons cte ctes ih =>
    cases cte
    simp [rewriteCtes, ih, rewritten]

/-- The queries in a rewritten plan are those of the plan, rewritten. -/
theorem directQueries_rewritten (plan : BoundQueryPlan) :
    directQueries (rewritten catalog enabled plan) =
      (directQueries plan).map (rewritten catalog enabled) := by
  obtain ⟨node, ctes, body, orderBy, limit, offset, clauses, schema⟩ := plan
  simp [directQueries, rewritten, rewriteQueryPlan, ctes_rewriteCtes, setExprQueries_rewriteSetExpr,
    orderByQueries_rewriteOrderBys, optionQueries_rewriteExprOption, Function.comp_def]

/-- The queries within a rewritten plan are those within the plan, rewritten. -/
theorem within_rewritten_iff {plan inner : BoundQueryPlan} :
    Within (rewritten catalog enabled plan) inner ↔
      ∃ original, Within plan original ∧ rewritten catalog enabled original = inner := by
  constructor
  · intro h
    induction h with
    | refl => exact ⟨plan, .refl, rfl⟩
    | tail _ hstep ih =>
      obtain ⟨original, hwithin, rfl⟩ := ih
      rw [directQueries_rewritten] at hstep
      obtain ⟨next, hnext, rfl⟩ := List.mem_map.mp hstep
      exact ⟨next, hwithin.tail hnext, rfl⟩
  · rintro ⟨original, h, rfl⟩
    induction h with
    | refl => exact .refl
    | tail _ hstep ih =>
      refine ih.tail ?_
      rw [directQueries_rewritten]
      exact List.mem_map_of_mem hstep

/-- A property of the rewritten plan at every depth is one of the rewritten queries. -/
theorem allWithin_rewritten_iff {P : BoundQueryPlan → Prop} {plan : BoundQueryPlan} :
    AllWithin P (rewritten catalog enabled plan) ↔
      AllWithin (fun q => P (rewritten catalog enabled q)) plan := by
  constructor
  · intro h q hq
    exact h _ ((within_rewritten_iff catalog enabled).mpr ⟨q, hq, rfl⟩)
  · intro h inner hinner
    obtain ⟨q, hq, rfl⟩ := (within_rewritten_iff catalog enabled).mp hinner
    exact h q hq

end Rewrite

end QueryFabric.ClickHouse
