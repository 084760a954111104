import QueryFabric.Ir.Selects
import QueryFabric.Opt.Transform
import Mathlib.Tactic.Tauto

/-!
# Selection overrides

`apply_selection_overrides` of `syntax.rs` puts a predicate in the place of the selection of each
select that has an override. Its transformer takes the selection of the other selects as it is, so
that a select in a `WHERE` subquery is not reached: `overrides_reach_iff` says for which queries
that makes a difference.
-/

set_option linter.unusedSectionVars false

namespace QueryFabric.Opt

/-- The `selection_overrides`, by select node id. -/
abbrev SelectionOverrides := List (String × Option SyntaxExpr)

/-- The `transform_select` of `SelectionOverrideTransformer`. -/
def transformSelectOverride {m : Type → Type} [Monad m] (T : SyntaxTransformer m)
    (overrides : SelectionOverrides) (select : SyntaxSelect) : m SyntaxSelect := do
  let projection ← select.projection.mapM T.transformProjectionItem
  let from_ ← select.from_.mapM T.transformTableWithJoins
  let selection := (overrides.lookup select.node.nodeId).getD select.selection
  let groupBy ← select.groupBy.mapM T.transformExpr
  let having ← select.having.mapM T.transformExpr
  return { distinct := select.distinct, projection, from_, selection, groupBy, having,
           node := select.node }

/-- The selection that a select has after `transform_select`: that of its override, or its own. -/
def overriddenSelection (overrides : SelectionOverrides) : Replacement :=
  fun select => some ((overrides.lookup select.node.nodeId).getD select.selection)

/-- `SelectionOverrideTransformer`. -/
def selectionOverrideTransformer (overrides : SelectionOverrides) : SyntaxTransformer Id :=
  replacing Id (overriddenSelection overrides)

/-- `apply_selection_overrides`. -/
def applySelectionOverrides (query : SyntaxQuery) (overrides : SelectionOverrides) : SyntaxQuery :=
  transformQueryChildren (selectionOverrideTransformer overrides) query

/-- The methods of the transformer are the defaults, but for `transform_select`. -/
theorem selectionOverrideTransformer_methods (overrides : SelectionOverrides) :
    (∀ select, (selectionOverrideTransformer overrides).transformSelect select =
      transformSelectOverride (selectionOverrideTransformer overrides) overrides select) ∧
      FollowsReplacement (selectionOverrideTransformer overrides)
        (overriddenSelection overrides) := by
  have h : FollowsReplacement (selectionOverrideTransformer overrides)
      (overriddenSelection overrides) :=
    replacing_followsReplacement (m := Id) (overriddenSelection overrides)
  exact ⟨h.select, h⟩

/-- Applying the overrides replaces the selections of the selects that they name. -/
theorem applySelectionOverrides_eq (query : SyntaxQuery) (overrides : SelectionOverrides) :
    applySelectionOverrides query overrides =
      rewriteQuery (overriddenSelection overrides) query := by
  obtain ⟨-, h⟩ := selectionOverrideTransformer_methods overrides
  have hquery := transform_query h query
  rw [h.query] at hquery
  exact hquery

/-- The query with the selection of each select that has an override replaced, at any depth. -/
def replaceSelections (overrides : SelectionOverrides) (query : SyntaxQuery) : SyntaxQuery :=
  rewriteQuery (fun select => overrides.lookup select.node.nodeId) query

/-! ## Where two replacements agree -/

/-- Two replacements select by the same, or both descend. -/
def Agree (replacement replacement' : Replacement) (descend : SyntaxSelect → Bool)
    (select : SyntaxSelect) : Prop :=
  descend select = true ∨
    (replacement select).getD (rewriteExprOption replacement select.selection) =
    (replacement' select).getD (rewriteExprOption replacement' select.selection)

section Agreement

variable {replacement replacement' : Replacement} {descend : SyntaxSelect → Bool}
  (h : ∀ select, descend select = true → replacement select = none ∧ replacement' select = none)

include h

mutual

/-- Two replacements make the same query when they agree on the selects that are reached. -/
theorem rewriteQuery_eq_iff : ∀ query : SyntaxQuery,
    rewriteQuery replacement query = rewriteQuery replacement' query ↔
    ∀ select ∈ querySelects descend query, Agree replacement replacement' descend select
  | ⟨node, ctes, withRecursive, body, orderBy, limit, offset, clauses⟩ => by
    simp only [rewriteQuery, querySelects, SyntaxQuery.mk.injEq, true_and, and_true,
      List.forall_mem_append, and_assoc, rewriteCtes_eq_iff ctes, rewriteSetExpr_eq_iff body,
      rewriteOrderBy_eq_iff orderBy, rewriteExprOption_eq_iff limit,
      rewriteExprOption_eq_iff offset]
termination_by structural x => x

/-- Two replacements make the same CTEs when they agree on the selects there. -/
theorem rewriteCtes_eq_iff : ∀ ctes : List SyntaxCte,
    rewriteCtes replacement ctes = rewriteCtes replacement' ctes ↔
    ∀ select ∈ cteSelects descend ctes, Agree replacement replacement' descend select
  | [] => iff_of_true rfl (List.forall_mem_nil _)
  | ⟨name, columns, query, node⟩ :: ctes => by
    simp only [rewriteCtes, cteSelects, List.cons.injEq, SyntaxCte.mk.injEq, true_and, and_true,
      List.forall_mem_append, rewriteQuery_eq_iff query, rewriteCtes_eq_iff ctes]
termination_by structural x => x

/-- Two replacements make the same set expression when they agree on the selects there. -/
theorem rewriteSetExpr_eq_iff : ∀ expr : SyntaxSetExpr,
    rewriteSetExpr replacement expr = rewriteSetExpr replacement' expr ↔
      ∀ select ∈ setExprSelects descend expr, Agree replacement replacement' descend select
  | .select s => by
    simp only [rewriteSetExpr, setExprSelects, SyntaxSetExpr.select.injEq, rewriteSelect_eq_iff s]
  | .unionAll left right node => by
    simp only [rewriteSetExpr, setExprSelects, SyntaxSetExpr.unionAll.injEq, and_true,
      List.forall_mem_append, rewriteSetExpr_eq_iff left, rewriteSetExpr_eq_iff right]
  | .unsupported description node => iff_of_true rfl (List.forall_mem_nil _)
termination_by structural x => x

/-- Two replacements make the same select when they agree on it and on the selects in it. -/
theorem rewriteSelect_eq_iff : ∀ select : SyntaxSelect,
    rewriteSelect replacement select = rewriteSelect replacement' select ↔
      ∀ other ∈ selectSelects descend select, Agree replacement replacement' descend other
  | ⟨distinct, projection, from_, selection, groupBy, having, node⟩ => by
    obtain ⟨s, hs⟩ :
        ∃ s, s = SyntaxSelect.mk distinct projection from_ selection groupBy having node := ⟨_, rfl⟩
    have hself : Agree replacement replacement' descend s ↔ descend s = true ∨
        (replacement s).getD (rewriteExprOption replacement selection) =
          (replacement' s).getD (rewriteExprOption replacement' selection) := by
      rw [hs]
      exact Iff.rfl
    simp only [rewriteSelect, selectSelects, SyntaxSelect.mk.injEq, true_and, and_true,
      List.forall_mem_cons, List.forall_mem_append, and_assoc, ← hs, hself,
      rewriteProjection_eq_iff projection, rewriteTables_eq_iff from_, rewriteExprs_eq_iff groupBy,
      rewriteExprOption_eq_iff having]
    -- The selection is compared where it is descended into, and replaced or not elsewhere.
    cases hdescend : descend s with
    | true =>
      obtain ⟨hnone, hnone'⟩ := h s hdescend
      rw [hnone, hnone', Option.getD_none, Option.getD_none, rewriteExprOption_eq_iff selection]
      simp only [true_or, true_and, if_true]
    | false =>
      simp only [Bool.false_eq_true, false_or, if_false, List.not_mem_nil, false_imp_iff,
        implies_true, true_and]
      grind
termination_by structural x => x

/-- Two replacements make the same projection when they agree on the selects there. -/
theorem rewriteProjection_eq_iff : ∀ items : List SyntaxProjectionItem,
    rewriteProjection replacement items = rewriteProjection replacement' items ↔
      ∀ select ∈ projectionSelects descend items, Agree replacement replacement' descend select
  | [] => iff_of_true rfl (List.forall_mem_nil _)
  | .wildcard qualifier node :: items => by
    simp only [rewriteProjection, projectionSelects, List.cons.injEq, true_and,
      rewriteProjection_eq_iff items]
  | .expr ⟨expr, alias_, node⟩ :: items => by
    simp only [rewriteProjection, projectionSelects, List.cons.injEq,
      SyntaxProjectionItem.expr.injEq, SyntaxProjectionExpr.mk.injEq, and_true,
      List.forall_mem_append, rewriteExpr_eq_iff expr, rewriteProjection_eq_iff items]
  | .unsupported description node :: items => by
    simp only [rewriteProjection, projectionSelects, List.cons.injEq, true_and,
      rewriteProjection_eq_iff items]
termination_by structural x => x

/-- Two replacements make the same `FROM` when they agree on the selects there. -/
theorem rewriteTables_eq_iff : ∀ tables : List SyntaxTableWithJoins,
    rewriteTables replacement tables = rewriteTables replacement' tables ↔
      ∀ select ∈ tablesSelects descend tables, Agree replacement replacement' descend select
  | [] => iff_of_true rfl (List.forall_mem_nil _)
  | table :: tables => by
    simp only [rewriteTables, tablesSelects, List.cons.injEq, List.forall_mem_append,
      rewriteTable_eq_iff table, rewriteTables_eq_iff tables]
termination_by structural x => x

/-- Two replacements make the same table with its joins when they agree on the selects there. -/
theorem rewriteTable_eq_iff : ∀ table : SyntaxTableWithJoins,
    rewriteTable replacement table = rewriteTable replacement' table ↔
      ∀ select ∈ tableSelects descend table, Agree replacement replacement' descend select
  | ⟨relation, joins, node⟩ => by
    simp only [rewriteTable, tableSelects, SyntaxTableWithJoins.mk.injEq, and_true,
      List.forall_mem_append, rewriteRelation_eq_iff relation, rewriteJoins_eq_iff joins]
termination_by structural x => x

/-- Two replacements make the same joins when they agree on the selects there. -/
theorem rewriteJoins_eq_iff : ∀ joins : List SyntaxJoin,
    rewriteJoins replacement joins = rewriteJoins replacement' joins ↔
      ∀ select ∈ joinSelects descend joins, Agree replacement replacement' descend select
  | [] => iff_of_true rfl (List.forall_mem_nil _)
  | ⟨kind, relation, on, node⟩ :: joins => by
    simp only [rewriteJoins, joinSelects, List.cons.injEq, SyntaxJoin.mk.injEq, true_and, and_true,
      and_assoc, List.forall_mem_append, rewriteRelation_eq_iff relation,
      rewriteExprOption_eq_iff on, rewriteJoins_eq_iff joins]
termination_by structural x => x

/-- Two replacements make the same relation when they agree on the selects there. -/
theorem rewriteRelation_eq_iff : ∀ relation : SyntaxRelation,
    rewriteRelation replacement relation = rewriteRelation replacement' relation ↔
      ∀ select ∈ relationSelects descend relation, Agree replacement replacement' descend select
  | .table name alias_ node => iff_of_true rfl (List.forall_mem_nil _)
  | .derived query alias_ node => by
    simp only [rewriteRelation, relationSelects, SyntaxRelation.derived.injEq, and_true,
      rewriteQuery_eq_iff query]
  | .nestedJoin table alias_ node => by
    simp only [rewriteRelation, relationSelects, SyntaxRelation.nestedJoin.injEq, and_true,
      rewriteTable_eq_iff table]
  | .unsupported description node => iff_of_true rfl (List.forall_mem_nil _)
termination_by structural x => x

/-- Two replacements make the same `ORDER BY` when they agree on the selects there. -/
theorem rewriteOrderBy_eq_iff : ∀ orders : List SyntaxOrderByExpr,
    rewriteOrderBy replacement orders = rewriteOrderBy replacement' orders ↔
      ∀ select ∈ orderBySelects descend orders, Agree replacement replacement' descend select
  | [] => iff_of_true rfl (List.forall_mem_nil _)
  | ⟨expr, asc, nullsFirst, node⟩ :: orders => by
    simp only [rewriteOrderBy, orderBySelects, List.cons.injEq, SyntaxOrderByExpr.mk.injEq,
      and_true, List.forall_mem_append, rewriteExpr_eq_iff expr, rewriteOrderBy_eq_iff orders]
termination_by structural x => x

/-- Two replacements make the same expression when they agree on the selects there. -/
theorem rewriteExpr_eq_iff : ∀ expr : SyntaxExpr,
    rewriteExpr replacement expr = rewriteExpr replacement' expr ↔
    ∀ select ∈ exprSelects descend expr, Agree replacement replacement' descend select
  | ⟨kind, node⟩ => by
    simp only [rewriteExpr, exprSelects, SyntaxExpr.mk.injEq, and_true, rewriteKind_eq_iff kind]
termination_by structural x => x

/-- Two replacements make the same kind of expression when they agree on the selects there. -/
theorem rewriteKind_eq_iff : ∀ kind : SyntaxExprKind,
    rewriteKind replacement kind = rewriteKind replacement' kind ↔
    ∀ select ∈ kindSelects descend kind, Agree replacement replacement' descend select
  -- A leaf holds no select; otherwise the kinds agree just when all the parts do.
  | .column relation name => iff_of_true rfl (List.forall_mem_nil _)
  | .literal value => iff_of_true rfl (List.forall_mem_nil _)
  | .parameter reference => iff_of_true rfl (List.forall_mem_nil _)
  | .unary op expr => by
    simp only [rewriteKind, kindSelects, SyntaxExprKind.unary.injEq, true_and,
      rewriteExpr_eq_iff expr]
  | .binary op left right => by
    simp only [rewriteKind, kindSelects, SyntaxExprKind.binary.injEq, true_and,
      List.forall_mem_append, rewriteExpr_eq_iff left, rewriteExpr_eq_iff right]
  | .function call => by
    simp only [rewriteKind, kindSelects, SyntaxExprKind.function.injEq, rewriteCall_eq_iff call]
  | .case operand whenThen elseResult => by
    simp only [rewriteKind, kindSelects, SyntaxExprKind.case.injEq, List.forall_mem_append,
      and_assoc, rewriteExprOption_eq_iff operand, rewriteWhenThens_eq_iff whenThen,
      rewriteExprOption_eq_iff elseResult]
  | .cast expr dataType => by
    simp only [rewriteKind, kindSelects, SyntaxExprKind.cast.injEq, and_true,
      rewriteExpr_eq_iff expr]
  | .between expr low high negated => by
    simp only [rewriteKind, kindSelects, SyntaxExprKind.between.injEq, and_true,
      List.forall_mem_append, and_assoc, rewriteExpr_eq_iff expr, rewriteExpr_eq_iff low,
      rewriteExpr_eq_iff high]
  | .inList expr list negated => by
    simp only [rewriteKind, kindSelects, SyntaxExprKind.inList.injEq, and_true,
      List.forall_mem_append, rewriteExpr_eq_iff expr, rewriteExprs_eq_iff list]
  -- The selects of a subquery are reached like those of any part.
  | .inSubquery expr subquery negated => by
    simp only [rewriteKind, kindSelects, SyntaxExprKind.inSubquery.injEq, and_true,
      List.forall_mem_append, rewriteExpr_eq_iff expr, rewriteQuery_eq_iff subquery]
  | .scalarSubquery subquery => by
    simp only [rewriteKind, kindSelects, SyntaxExprKind.scalarSubquery.injEq,
      rewriteQuery_eq_iff subquery]
  | .exists subquery => by
    simp only [rewriteKind, kindSelects, SyntaxExprKind.exists.injEq, rewriteQuery_eq_iff subquery]
  | .like expr pattern negated caseInsensitive => by
    simp only [rewriteKind, kindSelects, SyntaxExprKind.like.injEq, and_true,
      List.forall_mem_append, rewriteExpr_eq_iff expr, rewriteExpr_eq_iff pattern]
  | .isNull expr negated => by
    simp only [rewriteKind, kindSelects, SyntaxExprKind.isNull.injEq, and_true,
      rewriteExpr_eq_iff expr]
  | .tuple items => by
    simp only [rewriteKind, kindSelects, SyntaxExprKind.tuple.injEq, rewriteExprs_eq_iff items]
  | .array items => by
    simp only [rewriteKind, kindSelects, SyntaxExprKind.array.injEq, rewriteExprs_eq_iff items]
  | .unsupported description => iff_of_true rfl (List.forall_mem_nil _)
termination_by structural x => x

/-- Two replacements make the same function call when they agree on the selects there. -/
theorem rewriteCall_eq_iff : ∀ call : SyntaxFunctionCall,
    rewriteCall replacement call = rewriteCall replacement' call ↔
    ∀ select ∈ callSelects descend call, Agree replacement replacement' descend select
  | ⟨function, args, distinct, filter, over_⟩ => by
    simp only [rewriteCall, callSelects, SyntaxFunctionCall.mk.injEq, true_and,
      List.forall_mem_append, and_assoc, rewriteExprs_eq_iff args, rewriteExprOption_eq_iff filter,
      rewriteWindow_eq_iff over_]
termination_by structural x => x

/-- Two replacements make the same list of expressions when they agree on the selects there. -/
theorem rewriteExprs_eq_iff : ∀ exprs : List SyntaxExpr,
    rewriteExprs replacement exprs = rewriteExprs replacement' exprs ↔
      ∀ select ∈ exprsSelects descend exprs, Agree replacement replacement' descend select
  | [] => iff_of_true rfl (List.forall_mem_nil _)
  | expr :: exprs => by
    simp only [rewriteExprs, exprsSelects, List.cons.injEq, List.forall_mem_append,
      rewriteExpr_eq_iff expr, rewriteExprs_eq_iff exprs]
termination_by structural x => x

/-- Two replacements make the same optional expression when they agree on the selects there. -/
theorem rewriteExprOption_eq_iff : ∀ expr : Option SyntaxExpr,
    rewriteExprOption replacement expr = rewriteExprOption replacement' expr ↔
      ∀ select ∈ exprOptionSelects descend expr, Agree replacement replacement' descend select
  | none => iff_of_true rfl (List.forall_mem_nil _)
  | some expr => by
    simp only [rewriteExprOption, exprOptionSelects, Option.some_inj, rewriteExpr_eq_iff expr]
termination_by structural x => x

/-- Two replacements make the same `CASE` when they agree on the selects there. -/
theorem rewriteWhenThens_eq_iff : ∀ pairs : List SyntaxWhenThen,
    rewriteWhenThens replacement pairs = rewriteWhenThens replacement' pairs ↔
      ∀ select ∈ whenThenSelects descend pairs, Agree replacement replacement' descend select
  | [] => iff_of_true rfl (List.forall_mem_nil _)
  | ⟨condition, result⟩ :: pairs => by
    simp only [rewriteWhenThens, whenThenSelects, List.cons.injEq, SyntaxWhenThen.mk.injEq,
      List.forall_mem_append, rewriteExpr_eq_iff condition, rewriteExpr_eq_iff result,
      rewriteWhenThens_eq_iff pairs]
termination_by structural x => x

/-- Two replacements make the same window when they agree on the selects there. -/
theorem rewriteWindow_eq_iff : ∀ window : Option WindowSpec,
    rewriteWindow replacement window = rewriteWindow replacement' window ↔
      ∀ select ∈ windowSelects descend window, Agree replacement replacement' descend select
  | none => iff_of_true rfl (List.forall_mem_nil _)
  | some ⟨partitionBy, orderBy, node⟩ => by
    simp only [rewriteWindow, windowSelects, Option.some_inj, WindowSpec.mk.injEq, and_true,
      List.forall_mem_append, rewriteExprs_eq_iff partitionBy, rewriteOrderBy_eq_iff orderBy]
termination_by structural x => x

end

end Agreement

/-! ## The selects that are not reached -/

/-- The selects in the selection of a select without an override, but for those inside of overridden
selections, already have what their overrides give. -/
def NestedSettled (overrides : SelectionOverrides) (query : SyntaxQuery) : Prop :=
  ∀ select ∈ querySelects (fun _ => false) query, overrides.lookup select.node.nodeId = none →
    ∀ nested ∈ exprOptionSelects (fun other =>
      (overrides.lookup other.node.nodeId).isNone) select.selection,
      ∀ selection, overrides.lookup nested.node.nodeId = some selection →
        nested.selection = selection

/-- A selection is kept by the overrides when the selects in it have what these give. -/
theorem rewriteExprOption_eq_self_iff (overrides : SelectionOverrides) (expr : Option SyntaxExpr) :
    rewriteExprOption (fun select => overrides.lookup select.node.nodeId) expr = expr ↔
      ∀ nested ∈ exprOptionSelects (fun other => (overrides.lookup other.node.nodeId).isNone) expr,
        ∀ selection, overrides.lookup nested.node.nodeId = some selection →
        nested.selection = selection := by
  -- A select without an override is left as it is.
  have h : ∀ select : SyntaxSelect, (overrides.lookup select.node.nodeId).isNone = true →
      overrides.lookup select.node.nodeId = none ∧ (none : Option (Option SyntaxExpr)) = none :=
    fun select hnone => ⟨Option.isNone_iff_eq_none.mp hnone, rfl⟩
  have hiff := rewriteExprOption_eq_iff h expr
  rw [rewriteExprOption_none] at hiff
  refine hiff.trans (forall₂_congr fun nested _ => ?_)
  unfold Agree
  dsimp only
  rw [rewriteExprOption_none, Option.getD_none]
  -- With an override it is equal just when the override changes nothing.
  cases overrides.lookup nested.node.nodeId with
  | none => exact iff_of_true (.inl rfl) fun _ hnone => absurd hnone.symm (Option.some_ne_none _)
  | some selection =>
    rw [Option.isNone_some, Option.getD_some, or_iff_right Bool.false_ne_true]
    constructor
    · intro heq other hother
      rw [← heq, Option.some_inj.mp hother]
    · intro hall
      exact (hall selection rfl).symm

/-- The overrides reach every select exactly when those in the selections of selects without an
override have no need of it. -/
theorem overrides_reach_iff (query : SyntaxQuery) (overrides : SelectionOverrides) :
    applySelectionOverrides query overrides = replaceSelections overrides query ↔
      NestedSettled overrides query := by
  have h : ∀ select : SyntaxSelect, false = true → overriddenSelection overrides select = none ∧
      overrides.lookup select.node.nodeId = none := fun _ hfalse => absurd hfalse Bool.false_ne_true
  rw [applySelectionOverrides_eq, replaceSelections, rewriteQuery_eq_iff h, NestedSettled]
  refine forall₂_congr fun select _ => ?_
  rw [← rewriteExprOption_eq_self_iff]
  unfold Agree overriddenSelection
  dsimp only
  rw [Option.getD_some, or_iff_right Bool.false_ne_true]
  cases overrides.lookup select.node.nodeId with
  | none =>
    rw [Option.getD_none, Option.getD_none]
    exact ⟨fun heq _ => heq.symm, fun heq => (heq rfl).symm⟩
  | some selection => exact iff_of_true rfl fun hnone => absurd hnone (Option.some_ne_none _)

/-- `SELECT * FROM a WHERE EXISTS (SELECT * FROM b WHERE TRUE)`. -/
def nestedSelect : SyntaxQuery :=
  let id : String → SyntaxNode := fun nodeId => { span := none, nodeId }
  let table : String → String → SyntaxTableWithJoins := fun name nodeId =>
    { relation := .table { namespace_ := none, name } none (id (nodeId ++ ".relation")),
      joins := [], node := id nodeId }
  let inner : SyntaxSelect :=
    { distinct := false,
      projection := [.wildcard none (id "query.body.where.subquery.body.projection[0]")],
      from_ := [table "b" "query.body.where.subquery.body.from[0]"],
      selection := some ⟨.literal (.boolean true), id "query.body.where.subquery.body.where"⟩,
      groupBy := [], having := none, node := id "query.body.where.subquery.body" }
  let subquery : SyntaxQuery :=
    { node := id "query.body.where.subquery", ctes := [], withRecursive := false,
      body := .select inner, orderBy := [],
      limit := none, offset := none, backendClauses := [] }
  { node := id "query", ctes := [], withRecursive := false,
    body := .select
      { distinct := false, projection := [.wildcard none (id "query.body.projection[0]")],
        from_ := [table "a" "query.body.from[0]"],
        selection := some ⟨.exists subquery, id "query.body.where"⟩, groupBy := [], having := none,
        node := id "query.body" },
    orderBy := [], limit := none, offset := none, backendClauses := [] }

/-- An override of the inner select, without a predicate, leaves its `WHERE TRUE` as it is. -/
theorem nested_select_not_reached :
    applySelectionOverrides nestedSelect [("query.body.where.subquery.body", none)] ≠
      replaceSelections [("query.body.where.subquery.body", none)] nestedSelect := by
  intro heq
  have hselections := congrArg
    (fun query => (querySelects (fun _ => true) query).map fun select =>
      select.selection.isSome) heq
  exact absurd hselections (by decide)

end QueryFabric.Opt
