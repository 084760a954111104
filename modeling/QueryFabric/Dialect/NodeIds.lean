import QueryFabric.Dialect.Lower
import QueryFabric.Ir.Selects
import QueryFabric.Lib.Yields

/-!
# The identities of the selects

Every select that the lowering makes takes its path as its identity, and the paths part wherever the
tree does: the parts of a node have names of their own, and the members of a list their indices. A
parenthesised expression or query passes its path on, but makes no select itself. `selectIds_nodup`
follows by induction over the tree of the parser, one lemma for each function of the lowering: the
identities are distinct, and they are at the path or below the parts of it that the function lowers.
-/

set_option linter.unusedSectionVars false

namespace QueryFabric.Dialect

open Lib Lib.Paths

/-- The identities of selects. -/
def selectIds (selects : List SyntaxSelect) : List String := selects.map fun s => s.node.nodeId

/-- The selects of a query at any depth. -/
abbrev allSelects (query : SyntaxQuery) : List SyntaxSelect := querySelects (fun _ => true) query

/-- No select has no identity. -/
@[simp]
theorem selectIds_nil : selectIds [] = [] := rfl

/-- The identities of two lists of selects are those of the first and then those of the second. -/
@[simp]
theorem selectIds_append (selects selects' : List SyntaxSelect) :
    selectIds (selects ++ selects') = selectIds selects ++ selectIds selects' := by
  unfold selectIds
  rw [List.map_append]

/-- The selects of a projection are those of its first item and then those of the rest. -/
theorem projectionSelects_cons (descend : SyntaxSelect → Bool) (projected : SyntaxProjectionItem)
    (items : List SyntaxProjectionItem) : projectionSelects descend (projected :: items) =
      projectionSelects descend [projected] ++ projectionSelects descend items := by
  cases projected with
  | wildcard qualifier node => rfl
  | expr details =>
    obtain ⟨expr, alias_, node⟩ := details
    simp [projectionSelects]
  | unsupported description node => rfl

/-- The selects of an argument put before a list come first. -/
theorem exprsSelects_append (descend : SyntaxSelect → Bool) (exprs : List SyntaxExpr)
    (arg : Option SyntaxExpr) :
    exprsSelects descend (arg.toList ++ exprs) = exprOptionSelects descend arg ++
      exprsSelects descend exprs := by
  cases arg <;> rfl

section

variable (map : SourceMap)

/-- Nothing that is reported changes what is returned after it. -/
theorem Returns.after {α β : Type} {m : Lowering α} {f : Lowering β} {Q : β → Prop}
    (h : Returns f Q) :
    Returns (m >>= fun _ => f) Q := Returns.bind fun _ => h

mutual

/-- A query lowered at a path names its selects at the path or below it, each once. -/
theorem at_lowerQuery : ∀ (query : Ast.Query) (path : String),
    Returns (lowerQuery map query path) fun out => At path (selectIds (allSelects out))
  | ⟨with_, body, orderBy, limitClause, fetch, locks, forClause, pipeOperators, settings,
      formatClause, span⟩, path => by
    rw [lowerQuery]
    refine Returns.after ?_
    refine (under_lowerLimitClause limitClause path).andThen fun limits hlimits => ?_
    refine (under_lowerWith with_ path).andThen fun ctes hctes => ?_
    refine (at_lowerSetExpr body (part path "body")).andThen fun body hbody => ?_
    refine (from_lowerOrderBy orderBy (part path "order_by")).andThen fun orderBy horder => ?_
    refine Returns.pure ?_
    have hbody := hbody.under (by decide)
    have horder := horder.under (by decide)
    have hall :=
      ((hctes.append hbody (by decide)).append horder (by decide)).append hlimits (by decide)
    simp only [allSelects, querySelects, selectIds_append] at hall ⊢
    rw [← List.append_assoc] at hall
    exact hall.atPath
termination_by structural x => x

/-- The selects of a `LIMIT` clause are below its two parts. -/
theorem under_lowerLimitClause : ∀ (limitClause : Option Ast.LimitClause) (path : String),
    Returns (lowerLimitClause map limitClause path) fun out => Under path ["limit", "offset"]
      (selectIds (exprOptionSelects (fun _ => true) out.1) ++
        selectIds (exprOptionSelects (fun _ => true) out.2))
  | none, path => by
    rw [lowerLimitClause]
    exact Returns.pure Under.nil
  | some (.limitOffset limit offset limitBy span), path => by
    rw [lowerLimitClause]
    refine Returns.after ?_
    refine (at_lowerExprOption limit (part path "limit")).andThen fun limit hlimit => ?_
    refine (at_lowerExprOption offset (part path "offset")).andThen fun offset hoffset => ?_
    exact Returns.pure ((hlimit.under (by decide)).append (hoffset.under (by decide)) (by decide))
  | some (.offsetCommaLimit off lim), path => by
    rw [lowerLimitClause]
    refine (at_lowerExpr off (part path "offset")).andThen fun offset hoffset => ?_
    refine (at_lowerExpr lim (part path "limit")).andThen fun limit hlimit => ?_
    exact Returns.pure ((hlimit.under (by decide)).append (hoffset.under (by decide)) (by decide))
termination_by structural x => x

/-- The selects of a `WITH` are below the part of that name. -/
theorem under_lowerWith : ∀ (with_ : Option Ast.With) (path : String),
    Returns (lowerWith map with_ path) fun out =>
      Under path ["with"] (selectIds (cteSelects (fun _ => true) out.1))
  | none, path => by
    rw [lowerWith]
    exact Returns.pure Under.nil
  | some ⟨recursive, cteTables⟩, path => by
    rw [lowerWith]
    refine (from_lowerCtes cteTables (part path "with") 0).andThen fun ctes hctes => ?_
    exact Returns.pure (hctes.under (by decide))
termination_by structural x => x

/-- The selects of a list of CTEs are below the numbers of the list, from the one it starts at. -/
theorem from_lowerCtes : ∀ (ctes : List Ast.Cte) (path : String) (idx : Nat),
    Returns (lowerCtes map ctes path idx) fun out =>
      From path idx (selectIds (cteSelects (fun _ => true) out))
  | [], path, idx => by
    rw [lowerCtes]
    exact Returns.pure From.nil
  | ⟨aliasName, aliasColumns, query, span⟩ :: ctes, path, idx => by
    rw [lowerCtes]
    refine (at_lowerQuery query (item path idx)).andThen fun query hquery => ?_
    refine (from_lowerCtes ctes path (idx + 1)).andThen fun ctes hctes => ?_
    refine Returns.pure ?_
    rw [cteSelects, selectIds_append]
    exact hquery.cons hctes
termination_by structural x => x

/-- The selects of a set expression are at its path or below it. -/
theorem at_lowerSetExpr : ∀ (expr : Ast.SetExpr) (path : String),
    Returns (lowerSetExpr map expr path) fun out =>
      At path (selectIds (setExprSelects (fun _ => true) out))
  | .select select, path => by
    rw [lowerSetExpr]
    refine (at_lowerSelect select path).andThen fun select hselect => ?_
    exact Returns.pure hselect
  | .query query, path => by
    rw [lowerSetExpr]
    exact at_lowerBody query path
  | .setOperation op setQuantifier left right span, path => by
    rw [lowerSetExpr]
    split_ifs
    · refine (at_lowerSetExpr left (part path "left")).andThen fun left hleft => ?_
      refine (at_lowerSetExpr right (part path "right")).andThen fun right hright => ?_
      refine Returns.pure ?_
      rw [setExprSelects, selectIds_append]
      exact ((hleft.under (by decide)).append (hright.under (by decide)) (by decide)).atPath
    · exact Returns.pure At.nil
  | .other span, path => by
    rw [lowerSetExpr]
    exact Returns.pure At.nil
termination_by structural x => x

/-- The selects of a query's body are at its path or below it. -/
theorem at_lowerBody : ∀ (query : Ast.Query) (path : String),
    Returns (lowerBody map query path) fun out =>
      At path (selectIds (setExprSelects (fun _ => true) out))
  | ⟨_, body, _, _, _, _, _, _, _, _, _⟩, path => by
    rw [lowerBody]
    exact at_lowerSetExpr body path
termination_by structural x => x

/-- The selects of a select are at its path or below it. -/
theorem at_lowerSelect : ∀ (select : Ast.Select) (path : String),
    Returns (lowerSelect map select path) fun out =>
      At path (selectIds (selectSelects (fun _ => true) out))
  | ⟨distinct, projection, from_, selection, groupBy, having, span⟩, path => by
    rw [lowerSelect]
    refine (from_lowerProjection projection (part path "projection") 0).andThen
      fun projection hprojection => ?_
    refine (from_lowerTables from_ (part path "from") 0).andThen fun tables htables => ?_
    refine (at_lowerExprOption selection (part path "where")).andThen fun selection hselection => ?_
    refine (under_lowerGroupBy groupBy span path).andThen fun groupBy hgroupBy => ?_
    refine (at_lowerExprOption having (part path "having")).andThen fun having hhaving => ?_
    refine Returns.pure ?_
    have hprojection := hprojection.under (by decide)
    have htables := htables.under (by decide)
    have hselection := hselection.under (by decide)
    have hhaving := hhaving.under (by decide)
    have hall :=
      (((hprojection.append htables (by decide)).append hselection (by decide)).append hgroupBy
      (by decide)).append hhaving (by decide)
    simp only [selectSelects, ← selectIds_append, if_true] at hall ⊢
    exact hall.cons
termination_by structural x => x

/-- The selects of a `GROUP BY` are below the part of that name. -/
theorem under_lowerGroupBy : ∀ (groupBy : Ast.GroupByExpr) (span : SqlSpan) (path : String),
    Returns (lowerGroupBy map groupBy span path) fun out =>
      Under path ["group_by"] (selectIds (exprsSelects (fun _ => true) out))
  | .expressions exprs, span, path => by
    rw [lowerGroupBy]
    exact fun s => (from_lowerExprs exprs (part path "group_by") 0 s).under (by decide)
  | .all, span, path => by
    rw [lowerGroupBy]
    exact Returns.pure Under.nil
termination_by structural x => x

/-- The selects of a projection are below the numbers of its items. -/
theorem from_lowerProjection : ∀ (items : List Ast.SelectItem) (path : String) (idx : Nat),
    Returns (lowerProjection map items path idx) fun out =>
      From path idx (selectIds (projectionSelects (fun _ => true) out))
  | [], path, idx => by
    rw [lowerProjection]
    exact Returns.pure From.nil
  | projected :: items, path, idx => by
    rw [lowerProjection]
    refine (at_lowerProjectionItem projected (item path idx)).andThen fun projected hprojected => ?_
    refine (from_lowerProjection items path (idx + 1)).andThen fun items hitems => ?_
    refine Returns.pure ?_
    rw [projectionSelects_cons, selectIds_append]
    exact hprojected.cons hitems
termination_by structural x => x

/-- The selects of one projection item are at its path or below it. -/
theorem at_lowerProjectionItem : ∀ (projected : Ast.SelectItem) (path : String),
    Returns (lowerProjectionItem map projected path) fun out =>
      At path (selectIds (projectionSelects (fun _ => true) [out]))
  | .wildcard span, path => by
    rw [lowerProjectionItem]
    exact Returns.pure At.nil
  | .qualifiedWildcard kind span, path => by
    rw [lowerProjectionItem]
    exact Returns.pure At.nil
  | .unnamedExpr expr span, path => by
    rw [lowerProjectionItem]
    refine (at_lowerExpr expr (part path "expr")).andThen fun expr hexpr => ?_
    refine Returns.pure ?_
    rw [projectionSelects, projectionSelects, List.append_nil]
    exact (hexpr.under (by decide)).atPath
  | .exprWithAlias expr alias_ span, path => by
    rw [lowerProjectionItem]
    refine (at_lowerExpr expr (part path "expr")).andThen fun expr hexpr => ?_
    refine Returns.pure ?_
    rw [projectionSelects, projectionSelects, List.append_nil]
    exact (hexpr.under (by decide)).atPath
termination_by structural x => x

/-- The selects of a `FROM` are below the numbers of its tables. -/
theorem from_lowerTables : ∀ (tables : List Ast.TableWithJoins) (path : String) (idx : Nat),
    Returns (lowerTables map tables path idx) fun out =>
      From path idx (selectIds (tablesSelects (fun _ => true) out))
  | [], path, idx => by
    rw [lowerTables]
    exact Returns.pure From.nil
  | table :: tables, path, idx => by
    rw [lowerTables]
    refine (at_lowerTableWithJoins table (item path idx)).andThen fun table htable => ?_
    refine (from_lowerTables tables path (idx + 1)).andThen fun tables htables => ?_
    refine Returns.pure ?_
    rw [tablesSelects, selectIds_append]
    exact htable.cons htables
termination_by structural x => x

/-- The selects of a table with its joins are at its path or below it. -/
theorem at_lowerTableWithJoins : ∀ (table : Ast.TableWithJoins) (path : String),
    Returns (lowerTableWithJoins map table path) fun out =>
      At path (selectIds (tableSelects (fun _ => true) out))
  | ⟨relation, joins, span⟩, path => by
    rw [lowerTableWithJoins]
    refine (at_lowerRelation relation (part path "relation")).andThen fun relation hrelation => ?_
    refine (from_lowerJoins joins (part path "joins") 0).andThen fun joins hjoins => ?_
    refine Returns.pure ?_
    rw [tableSelects, selectIds_append]
    exact ((hrelation.under (by decide)).append (hjoins.under (by decide)) (by decide)).atPath
termination_by structural x => x

/-- The selects of a list of joins are below their numbers. -/
theorem from_lowerJoins : ∀ (joins : List Ast.Join) (path : String) (idx : Nat),
    Returns (lowerJoins map joins path idx) fun out =>
      From path idx (selectIds (joinSelects (fun _ => true) out))
  | [], path, idx => by
    rw [lowerJoins]
    exact Returns.pure From.nil
  | ⟨relation, joinOperator, span⟩ :: joins, path, idx => by
    rw [lowerJoins]
    refine (under_lowerJoinOperator joinOperator span (item path idx)).andThen fun kindOn hon => ?_
    refine (at_lowerRelation relation (part (item path idx) "relation")).andThen
      fun relation hrelation => ?_
    refine (from_lowerJoins joins path (idx + 1)).andThen fun joins hjoins => ?_
    refine Returns.pure ?_
    rw [joinSelects, selectIds_append, selectIds_append]
    exact ((hrelation.under (by decide)).append hon (by decide)).atPath.cons hjoins
termination_by structural x => x

/-- The selects of a join operator are below the part of its condition. -/
theorem under_lowerJoinOperator :
    ∀ (joinOperator : Ast.JoinOperator) (span : SqlSpan) (path : String),
    Returns (lowerJoinOperator map joinOperator span path) fun out =>
      Under path ["on"] (selectIds (exprOptionSelects (fun _ => true) out.2))
  -- A join without an outer side takes any constraint, an outer one only `ON` and `USING`.
  | .join constraint, span, path => by
    rw [lowerJoinOperator]
    exact under_lowerInnerConstraint constraint span path
  | .inner constraint, span, path => by
    rw [lowerJoinOperator]
    exact under_lowerInnerConstraint constraint span path
  | .left constraint, span, path => by
    rw [lowerJoinOperator]
    exact under_lowerOnConstraint constraint .left span path
  | .leftOuter constraint, span, path => by
    rw [lowerJoinOperator]
    exact under_lowerOnConstraint constraint .left span path
  | .right constraint, span, path => by
    rw [lowerJoinOperator]
    exact under_lowerOnConstraint constraint .right span path
  | .rightOuter constraint, span, path => by
    rw [lowerJoinOperator]
    exact under_lowerOnConstraint constraint .right span path
  | .fullOuter constraint, span, path => by
    rw [lowerJoinOperator]
    exact under_lowerOnConstraint constraint .full span path
  -- A cross join has no condition to lower.
  | .crossJoin constraint, span, path => by
    rw [lowerJoinOperator]
    exact Returns.pure Under.nil
  | .other, span, path => by
    rw [lowerJoinOperator]
    exact Returns.after (Returns.pure Under.nil)
termination_by structural x => x

/-- The selects of an outer join's constraint are below the part of its condition. -/
theorem under_lowerOnConstraint :
    ∀ (constraint : Ast.JoinConstraint) (kind : JoinKind) (span : SqlSpan) (path : String),
    Returns (lowerOnConstraint map constraint kind span path) fun out =>
      Under path ["on"] (selectIds (exprOptionSelects (fun _ => true) out.2))
  | .on expr, kind, span, path => by
    rw [lowerOnConstraint]
    refine (at_lowerExpr expr (part path "on")).andThen fun on hon => ?_
    exact Returns.pure (hon.under (by decide))
  | .none, kind, span, path => by
    rw [lowerOnConstraint]
    exact Returns.after (Returns.pure Under.nil)
  | .other, kind, span, path => by
    rw [lowerOnConstraint]
    exact Returns.after (Returns.pure Under.nil)
termination_by structural x => x

/-- The selects of an inner join's constraint are below the part of its condition. -/
theorem under_lowerInnerConstraint :
    ∀ (constraint : Ast.JoinConstraint) (span : SqlSpan) (path : String),
    Returns (lowerInnerConstraint map constraint span path) fun out =>
      Under path ["on"] (selectIds (exprOptionSelects (fun _ => true) out.2))
  | .on expr, span, path => by
    rw [lowerInnerConstraint]
    refine (at_lowerExpr expr (part path "on")).andThen fun on hon => ?_
    exact Returns.pure (hon.under (by decide))
  | .none, span, path => by
    rw [lowerInnerConstraint]
    exact Returns.pure Under.nil
  | .other, span, path => by
    rw [lowerInnerConstraint]
    exact Returns.after (Returns.pure Under.nil)
termination_by structural x => x

/-- The selects of a relation are at its path or below it. -/
theorem at_lowerRelation : ∀ (relation : Ast.TableFactor) (path : String),
    Returns (lowerRelation map relation path) fun out =>
      At path (selectIds (relationSelects (fun _ => true) out))
  | .table name alias_ span, path => by
    rw [lowerRelation]
    exact Returns.pure At.nil
  | .derived subquery alias_ span, path => by
    rw [lowerRelation]
    refine (at_lowerQuery subquery (part path "subquery")).andThen fun query hquery => ?_
    exact Returns.pure (hquery.under (by decide)).atPath
  | .nestedJoin tableWithJoins alias_ span, path => by
    rw [lowerRelation]
    refine (at_lowerTableWithJoins tableWithJoins (part path "nested")).andThen
      fun table htable => ?_
    exact Returns.pure (htable.under (by decide)).atPath
  | .other span, path => by
    rw [lowerRelation]
    exact Returns.pure At.nil
termination_by structural x => x

/-- The selects of an `ORDER BY` are below the numbers of its items. -/
theorem from_lowerOrderBy : ∀ (orderBy : Option Ast.OrderBy) (path : String),
    Returns (lowerOrderBy map orderBy path) fun out =>
      From path 0 (selectIds (orderBySelects (fun _ => true) out))
  | none, path => by
    rw [lowerOrderBy]
    exact Returns.pure From.nil
  | some (.expressions exprs), path => by
    rw [lowerOrderBy]
    exact from_lowerOrderByExprs exprs path 0
  | some (.all span), path => by
    rw [lowerOrderBy]
    exact Returns.after (Returns.pure From.nil)
termination_by structural x => x

/-- The selects of a list of ordered expressions are below their numbers. -/
theorem from_lowerOrderByExprs : ∀ (exprs : List Ast.OrderByExpr) (path : String) (idx : Nat),
    Returns (lowerOrderByExprs map exprs path idx) fun out =>
      From path idx (selectIds (orderBySelects (fun _ => true) out))
  | [], path, idx => by
    rw [lowerOrderByExprs]
    exact Returns.pure From.nil
  | ⟨expr, asc, nullsFirst, span⟩ :: exprs, path, idx => by
    rw [lowerOrderByExprs]
    refine (at_lowerExpr expr (part (item path idx) "expr")).andThen fun expr hexpr => ?_
    refine (from_lowerOrderByExprs exprs path (idx + 1)).andThen fun exprs hexprs => ?_
    refine Returns.pure ?_
    rw [orderBySelects, selectIds_append]
    exact (hexpr.under (by decide)).atPath.cons hexprs
termination_by structural x => x

/-- The selects of an expression are at its path or below it. -/
theorem at_lowerExpr : ∀ (expr : Ast.Expr) (path : String),
    Returns (lowerExpr map expr path) fun out =>
      At path (selectIds (exprSelects (fun _ => true) out))
  | ⟨kind, span⟩, path => by
    rw [lowerExpr]
    exact at_lowerExprKind kind (lowerNode map span path) path
termination_by structural x => x

/-- The selects of an expression's kind are at its path or below it. -/
theorem at_lowerExprKind : ∀ (kind : Ast.ExprKind) (node : SyntaxNode) (path : String),
    Returns (lowerExprKind map kind node path) fun out =>
      At path (selectIds (exprSelects (fun _ => true) out))
  -- A leaf names no select; the parts of any other kind stand under names that differ.
  | .identifier value, node, path => by
    rw [lowerExprKind]
    exact Returns.pure At.nil
  | .compoundIdentifier parts, node, path => by
    rw [lowerExprKind]
    exact Returns.pure At.nil
  | .value value, node, path => by
    rw [lowerExprKind]
    refine Returns.pure ?_
    have hnone : exprSelects (fun _ => true) ⟨lowerValue value, node⟩ = [] := by
      rw [exprSelects, lowerValue.eq_def]
      repeat' split
      all_goals rfl
    rw [hnone]
    exact At.nil
  | .binaryOp left op right, node, path => by
    rw [lowerExprKind]
    split
    · refine (at_lowerExpr left (part path "left")).andThen fun left hleft => ?_
      refine (at_lowerExpr right (part path "right")).andThen fun right hright => ?_
      refine Returns.pure ?_
      rw [exprSelects, kindSelects, selectIds_append]
      exact ((hleft.under (by decide)).append (hright.under (by decide)) (by decide)).atPath
    · exact Returns.pure At.nil
  | .unaryOp op expr, node, path => by
    rw [lowerExprKind]
    split
    · refine (at_lowerExpr expr (part path "expr")).andThen fun expr hexpr => ?_
      exact Returns.pure (hexpr.under (by decide)).atPath
    · exact Returns.pure At.nil
  -- Parentheses keep the path.
  | .nested expr, node, path => by
    rw [lowerExprKind]
    exact at_lowerExpr expr path
  | .function function, node, path => by
    rw [lowerExprKind]
    refine (under_lowerFunction function path).andThen fun call hcall => ?_
    exact Returns.pure hcall.atPath
  | .case operand conditions elseResult, node, path => by
    rw [lowerExprKind]
    refine (at_lowerExprOption operand (part path "operand")).andThen fun operand hoperand => ?_
    refine (from_lowerWhenThen conditions (part path "when_then") 0).andThen
      fun whenThen hwhen => ?_
    refine (at_lowerExprOption elseResult (part path "else")).andThen fun elseResult helse => ?_
    refine Returns.pure ?_
    rw [exprSelects, kindSelects, selectIds_append, selectIds_append]
    exact (((hoperand.under (by decide)).append (hwhen.under (by decide)) (by decide)).append
      (helse.under (by decide)) (by decide)).atPath
  | .cast expr dataType, node, path => by
    rw [lowerExprKind]
    refine (at_lowerExpr expr (part path "expr")).andThen fun expr hexpr => ?_
    exact Returns.pure (hexpr.under (by decide)).atPath
  | .between expr low high negated, node, path => by
    rw [lowerExprKind]
    refine (at_lowerExpr expr (part path "expr")).andThen fun expr hexpr => ?_
    refine (at_lowerExpr low (part path "low")).andThen fun low hlow => ?_
    refine (at_lowerExpr high (part path "high")).andThen fun high hhigh => ?_
    refine Returns.pure ?_
    rw [exprSelects, kindSelects, selectIds_append, selectIds_append]
    exact (((hexpr.under (by decide)).append (hlow.under (by decide)) (by decide)).append
      (hhigh.under (by decide)) (by decide)).atPath
  | .inList expr list negated, node, path => by
    rw [lowerExprKind]
    refine (at_lowerExpr expr (part path "expr")).andThen fun expr hexpr => ?_
    refine (from_lowerExprs list (part path "list") 0).andThen fun list hlist => ?_
    refine Returns.pure ?_
    rw [exprSelects, kindSelects, selectIds_append]
    exact ((hexpr.under (by decide)).append (hlist.under (by decide)) (by decide)).atPath
  -- The operand and the subquery are under different parts, so their identities are apart.
  | .inSubquery expr subquery negated, node, path => by
    rw [lowerExprKind]
    refine (at_lowerExpr expr (part path "expr")).andThen fun expr hexpr => ?_
    refine (at_lowerQuery subquery (part path "subquery")).andThen fun subquery hsubquery => ?_
    refine Returns.pure ?_
    rw [exprSelects, kindSelects, selectIds_append]
    exact ((hexpr.under (by decide)).append (hsubquery.under (by decide)) (by decide)).atPath
  | .subquery subquery, node, path => by
    rw [lowerExprKind]
    refine (at_lowerQuery subquery (part path "subquery")).andThen fun subquery hsubquery => ?_
    exact Returns.pure (hsubquery.under (by decide)).atPath
  | .exists subquery, node, path => by
    rw [lowerExprKind]
    refine (at_lowerQuery subquery (part path "subquery")).andThen fun subquery hsubquery => ?_
    exact Returns.pure (hsubquery.under (by decide)).atPath
  | .like expr pattern negated, node, path => by
    rw [lowerExprKind]
    refine (at_lowerExpr expr (part path "expr")).andThen fun expr hexpr => ?_
    refine (at_lowerExpr pattern (part path "pattern")).andThen fun pattern hpattern => ?_
    refine Returns.pure ?_
    rw [exprSelects, kindSelects, selectIds_append]
    exact ((hexpr.under (by decide)).append (hpattern.under (by decide)) (by decide)).atPath
  | .iLike expr pattern negated, node, path => by
    rw [lowerExprKind]
    refine (at_lowerExpr expr (part path "expr")).andThen fun expr hexpr => ?_
    refine (at_lowerExpr pattern (part path "pattern")).andThen fun pattern hpattern => ?_
    refine Returns.pure ?_
    rw [exprSelects, kindSelects, selectIds_append]
    exact ((hexpr.under (by decide)).append (hpattern.under (by decide)) (by decide)).atPath
  | .isNull expr, node, path => by
    rw [lowerExprKind]
    refine (at_lowerExpr expr (part path "expr")).andThen fun expr hexpr => ?_
    exact Returns.pure (hexpr.under (by decide)).atPath
  | .isNotNull expr, node, path => by
    rw [lowerExprKind]
    refine (at_lowerExpr expr (part path "expr")).andThen fun expr hexpr => ?_
    exact Returns.pure (hexpr.under (by decide)).atPath
  | .tuple exprs, node, path => by
    rw [lowerExprKind]
    refine (from_lowerExprs exprs (part path "tuple") 0).andThen fun items hitems => ?_
    exact Returns.pure (hitems.under (by decide)).atPath
  | .array elem, node, path => by
    rw [lowerExprKind]
    refine (from_lowerExprs elem (part path "array") 0).andThen fun items hitems => ?_
    exact Returns.pure (hitems.under (by decide)).atPath
  | .other text, node, path => by
    rw [lowerExprKind]
    exact Returns.pure At.nil
termination_by structural x => x

/-- The selects of an optional expression are at its path or below it. -/
theorem at_lowerExprOption : ∀ (expr : Option Ast.Expr) (path : String),
    Returns (lowerExprOption map expr path) fun out =>
      At path (selectIds (exprOptionSelects (fun _ => true) out))
  | none, path => by
    rw [lowerExprOption]
    exact Returns.pure At.nil
  | some expr, path => by
    rw [lowerExprOption]
    refine (at_lowerExpr expr path).andThen fun expr hexpr => ?_
    exact Returns.pure hexpr
termination_by structural x => x

/-- The selects of a list of expressions are below their numbers. -/
theorem from_lowerExprs : ∀ (exprs : List Ast.Expr) (path : String) (idx : Nat),
    Returns (lowerExprs map exprs path idx) fun out =>
      From path idx (selectIds (exprsSelects (fun _ => true) out))
  | [], path, idx => by
    rw [lowerExprs]
    exact Returns.pure From.nil
  | expr :: exprs, path, idx => by
    rw [lowerExprs]
    refine (at_lowerExpr expr (item path idx)).andThen fun expr hexpr => ?_
    refine (from_lowerExprs exprs path (idx + 1)).andThen fun exprs hexprs => ?_
    refine Returns.pure ?_
    rw [exprsSelects, selectIds_append]
    exact hexpr.cons hexprs
termination_by structural x => x

/-- The selects of the branches of a `CASE` are below their numbers. -/
theorem from_lowerWhenThen : ∀ (conditions : List Ast.CaseWhen) (path : String) (idx : Nat),
    Returns (lowerWhenThen map conditions path idx) fun out =>
      From path idx (selectIds (whenThenSelects (fun _ => true) out))
  | [], path, idx => by
    rw [lowerWhenThen]
    exact Returns.pure From.nil
  | ⟨condition, result⟩ :: conditions, path, idx => by
    rw [lowerWhenThen]
    refine (at_lowerExpr condition (part (item path idx) "condition")).andThen
      fun condition hcondition => ?_
    refine (at_lowerExpr result (part (item path idx) "result")).andThen fun result hresult => ?_
    refine (from_lowerWhenThen conditions path (idx + 1)).andThen fun conditions hconditions => ?_
    refine Returns.pure ?_
    rw [whenThenSelects, selectIds_append, selectIds_append]
    exact ((hcondition.under (by decide)).append (hresult.under (by decide))
      (by decide)).atPath.cons hconditions
termination_by structural x => x

/-- The selects of a function call are below its four parts. -/
theorem under_lowerFunction : ∀ (function : Ast.Function) (path : String),
    Returns (lowerFunction map function path) fun out =>
      Under path ["args", "subquery", "filter", "over"]
        (selectIds (callSelects (fun _ => true) out))
  | ⟨name, usesOdbcSyntax, args, filter, nullTreatment, over_, withinGroup, span⟩, path => by
    rw [lowerFunction]
    refine Returns.after ?_
    refine (under_lowerFunctionArgs args name.text path).andThen fun args hargs => ?_
    refine (at_lowerExprOption filter (part path "filter")).andThen fun filter hfilter => ?_
    refine (under_lowerOver over_ path).andThen fun over_ hover => ?_
    refine Returns.pure ?_
    rw [callSelects, selectIds_append, selectIds_append]
    exact (hargs.append (hfilter.under (by decide)) (by decide)).append hover (by decide)
termination_by structural x => x

/-- The selects of a function's arguments are below the parts of the arguments. -/
theorem under_lowerFunctionArgs : ∀ (args : Ast.FunctionArguments) (functionName path : String),
    Returns (lowerFunctionArgs map args functionName path) fun out =>
      Under path ["args", "subquery"] (selectIds (exprsSelects (fun _ => true) out))
  | .none, functionName, path => by
    rw [lowerFunctionArgs]
    exact Returns.pure Under.nil
  | .subquery ⟨with_, body, orderBy, limitClause, fetch, locks, forClause, pipeOperators, settings,
    formatClause, span⟩,
      functionName, path => by
    rw [lowerFunctionArgs]
    refine (at_lowerQuery ⟨with_, body, orderBy, limitClause, fetch, locks, forClause,
      pipeOperators, settings,
      formatClause, span⟩ (part path "subquery")).andThen fun query hquery => ?_
    refine Returns.pure ?_
    rw [exprsSelects, exprsSelects, exprSelects, kindSelects, List.append_nil]
    exact (hquery.under (by decide)).mono (by decide)
  | .list duplicateTreatment args, functionName, path => by
    rw [lowerFunctionArgs]
    exact fun s =>
      ((from_lowerArgs args functionName (part path "args") 0 s).under (by decide)).mono (by decide)
termination_by structural x => x

/-- The selects of a list of arguments are below their numbers. -/
theorem from_lowerArgs : ∀ (args : List Ast.FunctionArg) (functionName path : String) (idx : Nat),
    Returns (lowerArgs map args functionName path idx) fun out =>
      From path idx (selectIds (exprsSelects (fun _ => true) out))
  | [], functionName, path, idx => by
    rw [lowerArgs]
    exact Returns.pure From.nil
  | arg :: args, functionName, path, idx => by
    rw [lowerArgs]
    refine (at_lowerArg arg functionName (item path idx)).andThen fun arg harg => ?_
    refine (from_lowerArgs args functionName path (idx + 1)).andThen fun args hargs => ?_
    refine Returns.pure ?_
    rw [exprsSelects_append, selectIds_append]
    exact harg.cons hargs
termination_by structural x => x

/-- The selects of one argument are at its path or below it. -/
theorem at_lowerArg : ∀ (arg : Ast.FunctionArg) (functionName path : String),
    Returns (lowerArg map arg functionName path) fun out =>
      At path (selectIds (exprOptionSelects (fun _ => true) out))
  | .expr expr, functionName, path => by
    rw [lowerArg]
    refine (at_lowerExpr expr path).andThen fun expr hexpr => ?_
    exact Returns.pure hexpr
  | .wildcard span, functionName, path => by
    rw [lowerArg]
    split_ifs
    · exact Returns.pure At.nil
    · exact Returns.pure At.nil
  | .named span, functionName, path => by
    rw [lowerArg]
    exact Returns.after (Returns.pure At.nil)
termination_by structural x => x

/-- The selects of an `OVER` are below the part of that name. -/
theorem under_lowerOver : ∀ (over_ : Option Ast.WindowType) (path : String),
    Returns (lowerOver map over_ path) fun out =>
      Under path ["over"] (selectIds (windowSelects (fun _ => true) out))
  | none, path => by
    rw [lowerOver]
    exact Returns.pure Under.nil
  | some window, path => by
    rw [lowerOver]
    refine (under_lowerWindow window path).andThen fun window hwindow => ?_
    exact Returns.pure hwindow
termination_by structural x => x

/-- The selects of a window are below the part of the `OVER`. -/
theorem under_lowerWindow : ∀ (window : Ast.WindowType) (path : String),
    Returns (lowerWindow map window path) fun out =>
      Under path ["over"] (selectIds (windowSelects (fun _ => true) (some out)))
  | .windowSpec windowName partitionBy orderBy windowFrame, path => by
    rw [lowerWindow]
    refine Returns.after ?_
    refine (from_lowerExprs partitionBy (part (part path "over") "partition") 0).andThen
      fun partition hpartition => ?_
    refine (from_lowerOrderByExprs orderBy (part (part path "over") "order") 0).andThen
      fun orderBy horder => ?_
    refine Returns.pure ?_
    rw [windowSelects, selectIds_append]
    have hboth := (hpartition.under (by decide)).append (horder.under (by decide)) (by decide)
    exact hboth.atPath.under (by decide)
  | .namedWindow name, path => by
    rw [lowerWindow]
    exact Returns.after (Returns.pure Under.nil)
termination_by structural x => x

end

end

/-- Where the keys of a list are distinct, a member's key finds that member only. -/
theorem filter_key_eq_singleton {α κ : Type} [DecidableEq κ] (key : α → κ) {l : List α}
    (h : (l.map key).Nodup) {a : α}
    (ha : a ∈ l) : l.filter (fun b => decide (key b = key a)) = [a] := by
  induction l with
  | nil => cases ha
  | cons b l ih =>
    rw [List.map_cons, List.nodup_cons] at h
    obtain ⟨hb, hl⟩ := h
    obtain rfl | ha := List.mem_cons.mp ha
    · have hnone : l.filter (fun b => decide (key b = key a)) = [] := by
        refine List.filter_eq_nil_iff.mpr fun b hmem hkey => hb ?_
        rw [← of_decide_eq_true hkey]
        exact List.mem_map_of_mem hmem
      rw [List.filter_cons_of_pos (by simp), hnone]
    · have hne : key b ≠ key a := fun heq => hb (heq ▸ List.mem_map_of_mem ha)
      rw [List.filter_cons_of_neg (by simpa using hne), ih hl ha]

/-- No two selects of a lowered query have the same identity, so that an identity addresses one
select. -/
theorem selectIds_unique (map : SourceMap) (query : Ast.Query)
    (diagnostics : List QueryDiagnostic) :
    (selectIds (allSelects ((lowerQuery map query "query").run diagnostics).1)).Nodup ∧
      ∀ s ∈ allSelects ((lowerQuery map query "query").run diagnostics).1,
        (allSelects ((lowerQuery map query "query").run diagnostics).1).filter
          (fun t => decide (t.node.nodeId = s.node.nodeId)) = [s] := by
  have hat := at_lowerQuery map query "query" diagnostics
  exact ⟨hat.nodup,
    fun s hs => filter_key_eq_singleton (fun t : SyntaxSelect => t.node.nodeId) hat.nodup hs⟩

/-- The selects of every query that is parsed have distinct identities. -/
theorem selectIds_parsed {parser : SqlParser} {dialectName : String} {sourceSql : List Char}
    {sourceMap : SourceMap}
    {explain : Bool} {metadata : DialectMetadata} {parsed : ParsedQuery × DialectMetadata}
    (h : parseSqlWithSourceMap parser dialectName sourceSql sourceMap explain metadata =
      .ok parsed) :
    (selectIds (allSelects parsed.1.syntaxTree)).Nodup := by
  unfold parseSqlWithSourceMap at h
  split_ifs at h
  split at h
  · cases h
  · cases h
  · cases h
  · rename_i query rest hparse
    obtain rfl := Except.ok.inj h
    exact (at_lowerQuery sourceMap query "query" []).nodup

end QueryFabric.Dialect
