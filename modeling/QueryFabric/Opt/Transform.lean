import QueryFabric.Ir.Syntax
import Mathlib.Control.Monad.Basic

/-!
# Transformers of the syntax tree

The trait `SyntaxTransformer` of `crates/queryfabric-opt/src/syntax.rs` has a method for each kind
of node, whose default rebuilds the node from its transformed children. A transformer is the record
of its methods, in the monad of its errors and its state. `FollowsReplacement` says that a
transformer overrides nothing, or only what a select is selected by, and `transform_eq_rewrite` says
what such a transformer returns: `rewriteQuery`, the recursion over the tree that its methods come
to.
-/

set_option linter.unusedSectionVars false

namespace QueryFabric.Opt

/-- `SyntaxTransformer`: the methods of a transformer. -/
structure SyntaxTransformer (m : Type → Type) where
  transformQuery : SyntaxQuery → m SyntaxQuery
  transformSetExpr : SyntaxSetExpr → m SyntaxSetExpr
  transformSelect : SyntaxSelect → m SyntaxSelect
  transformProjectionItem : SyntaxProjectionItem → m SyntaxProjectionItem
  transformTableWithJoins : SyntaxTableWithJoins → m SyntaxTableWithJoins
  transformJoin : SyntaxJoin → m SyntaxJoin
  transformRelation : SyntaxRelation → m SyntaxRelation
  transformOrderByExpr : SyntaxOrderByExpr → m SyntaxOrderByExpr
  transformExpr : SyntaxExpr → m SyntaxExpr
  transformWhenThen : SyntaxWhenThen → m SyntaxWhenThen

section Children

variable {m : Type → Type} [Monad m] (T : SyntaxTransformer m)

/-- A CTE with its query transformed, in `transform_query_children`. -/
def transformCte (cte : SyntaxCte) : m SyntaxCte := do
  let query ← T.transformQuery cte.query
  return { name := cte.name, columns := cte.columns, query, node := cte.node }

/-- `transform_query_children`. -/
def transformQueryChildren (query : SyntaxQuery) : m SyntaxQuery := do
  let ctes ← query.ctes.mapM (transformCte T)
  let body ← T.transformSetExpr query.body
  let orderBy ← query.orderBy.mapM T.transformOrderByExpr
  let limit ← query.limit.mapM T.transformExpr
  let offset ← query.offset.mapM T.transformExpr
  return { node := query.node, ctes, withRecursive := query.withRecursive, body, orderBy,
           limit, offset,
           backendClauses := query.backendClauses }

/-- `transform_set_expr_children`. -/
def transformSetExprChildren : SyntaxSetExpr → m SyntaxSetExpr
  | .select select => do
    let select ← T.transformSelect select
    return .select select
  | .unionAll left right node => do
    let left ← T.transformSetExpr left
    let right ← T.transformSetExpr right
    return .unionAll left right node
  | .unsupported description node => return .unsupported description node

/-- `transform_select_children`. -/
def transformSelectChildren (select : SyntaxSelect) : m SyntaxSelect := do
  let projection ← select.projection.mapM T.transformProjectionItem
  let from_ ← select.from_.mapM T.transformTableWithJoins
  let selection ← select.selection.mapM T.transformExpr
  let groupBy ← select.groupBy.mapM T.transformExpr
  let having ← select.having.mapM T.transformExpr
  return { distinct := select.distinct, projection, from_, selection, groupBy, having,
           node := select.node }

/-- `transform_projection_item_children`. -/
def transformProjectionItemChildren : SyntaxProjectionItem → m SyntaxProjectionItem
  | .wildcard qualifier node => return .wildcard qualifier node
  | .expr details => do
    let expr ← T.transformExpr details.expr
    return .expr { expr, alias_ := details.alias_, node := details.node }
  | .unsupported description node => return .unsupported description node

/-- `transform_table_with_joins_children`. -/
def transformTableWithJoinsChildren (table : SyntaxTableWithJoins) : m SyntaxTableWithJoins := do
  let relation ← T.transformRelation table.relation
  let joins ← table.joins.mapM T.transformJoin
  return { relation, joins, node := table.node }

/-- `transform_join_children`. -/
def transformJoinChildren (join : SyntaxJoin) : m SyntaxJoin := do
  let relation ← T.transformRelation join.relation
  let on ← join.on.mapM T.transformExpr
  return { kind := join.kind, relation, on, node := join.node }

/-- `transform_relation_children`. -/
def transformRelationChildren : SyntaxRelation → m SyntaxRelation
  | .table name alias_ node => return .table name alias_ node
  | .derived query alias_ node => do
    let query ← T.transformQuery query
    return .derived query alias_ node
  | .nestedJoin tableWithJoins alias_ node => do
    let tableWithJoins ← T.transformTableWithJoins tableWithJoins
    return .nestedJoin tableWithJoins alias_ node
  | .unsupported description node => return .unsupported description node

/-- `transform_order_by_expr_children`. -/
def transformOrderByExprChildren (order : SyntaxOrderByExpr) : m SyntaxOrderByExpr := do
  let expr ← T.transformExpr order.expr
  return { expr, asc := order.asc, nullsFirst := order.nullsFirst, node := order.node }

/-- The window of a function call, in `transform_expr_children`. -/
def transformWindow (window : WindowSpec) : m WindowSpec := do
  let partitionBy ← window.partitionBy.mapM T.transformExpr
  let orderBy ← window.orderBy.mapM T.transformOrderByExpr
  return { partitionBy, orderBy, node := window.node }

/-- The `Function` arm of `transform_expr_children`. -/
def transformCall (call : SyntaxFunctionCall) : m SyntaxFunctionCall := do
  let args ← call.args.mapM T.transformExpr
  let filter ← call.filter.mapM T.transformExpr
  let over_ ← call.over_.mapM (transformWindow T)
  return { function := call.function, args, distinct := call.distinct, filter, over_ }

/-- The arms of `transform_expr_children`. -/
def transformKind : SyntaxExprKind → m SyntaxExprKind
  | .column relation name => return .column relation name
  | .literal value => return .literal value
  | .parameter reference => return .parameter reference
  | .unary op inner => do
    let inner ← T.transformExpr inner
    return .unary op inner
  | .binary op left right => do
    let left ← T.transformExpr left
    let right ← T.transformExpr right
    return .binary op left right
  | .function call => do
    let call ← transformCall T call
    return .function call
  | .case operand whenThen elseResult => do
    let operand ← operand.mapM T.transformExpr
    let whenThen ← whenThen.mapM T.transformWhenThen
    let elseResult ← elseResult.mapM T.transformExpr
    return .case operand whenThen elseResult
  | .cast inner dataType => do
    let inner ← T.transformExpr inner
    return .cast inner dataType
  | .between inner low high negated => do
    let inner ← T.transformExpr inner
    let low ← T.transformExpr low
    let high ← T.transformExpr high
    return .between inner low high negated
  | .inList inner list negated => do
    let inner ← T.transformExpr inner
    let list ← list.mapM T.transformExpr
    return .inList inner list negated
  | .inSubquery inner subquery negated => do
    let inner ← T.transformExpr inner
    let subquery ← T.transformQuery subquery
    return .inSubquery inner subquery negated
  | .scalarSubquery subquery => do
    let subquery ← T.transformQuery subquery
    return .scalarSubquery subquery
  | .exists subquery => do
    let subquery ← T.transformQuery subquery
    return .exists subquery
  | .like inner pattern negated caseInsensitive => do
    let inner ← T.transformExpr inner
    let pattern ← T.transformExpr pattern
    return .like inner pattern negated caseInsensitive
  | .isNull inner negated => do
    let inner ← T.transformExpr inner
    return .isNull inner negated
  | .tuple items => do
    let items ← items.mapM T.transformExpr
    return .tuple items
  | .array items => do
    let items ← items.mapM T.transformExpr
    return .array items
  | .unsupported description => return .unsupported description

/-- `transform_expr_children`. -/
def transformExprChildren (expr : SyntaxExpr) : m SyntaxExpr := do
  let kind ← transformKind T expr.kind
  return { kind, node := expr.node }

/-- `transform_when_then_children`. -/
def transformWhenThenChildren (branch : SyntaxWhenThen) : m SyntaxWhenThen := do
  let condition ← T.transformExpr branch.condition
  let result ← T.transformExpr branch.result
  return { condition, result }

end Children

/-! ## Transformers that override selections -/

/-- What a select is selected by instead, where a transformer replaces it: `none` where it
descends. -/
abbrev Replacement := SyntaxSelect → Option (Option SyntaxExpr)

section Laws

variable {m : Type → Type} [Monad m]

/-- A select whose selection is replaced, or transformed like the other children. -/
def transformSelectReplacing (T : SyntaxTransformer m) (replacement : Replacement)
    (select : SyntaxSelect) :
    m SyntaxSelect := do
  let projection ← select.projection.mapM T.transformProjectionItem
  let from_ ← select.from_.mapM T.transformTableWithJoins
  let selection ← match replacement select with
    | some selection => pure selection
    | none => select.selection.mapM T.transformExpr
  let groupBy ← select.groupBy.mapM T.transformExpr
  let having ← select.having.mapM T.transformExpr
  return { distinct := select.distinct, projection, from_, selection, groupBy, having,
           node := select.node }

/-- The methods of a transformer are the defaults, but for the replaced selections. -/
structure FollowsReplacement (T : SyntaxTransformer m) (replacement : Replacement) : Prop where
  query : ∀ query, T.transformQuery query = transformQueryChildren T query
  setExpr : ∀ expr, T.transformSetExpr expr = transformSetExprChildren T expr
  select : ∀ select, T.transformSelect select = transformSelectReplacing T replacement select
  projectionItem : ∀ item, T.transformProjectionItem item = transformProjectionItemChildren T item
  tableWithJoins : ∀ table, T.transformTableWithJoins table =
    transformTableWithJoinsChildren T table
  join : ∀ join, T.transformJoin join = transformJoinChildren T join
  relation : ∀ relation, T.transformRelation relation = transformRelationChildren T relation
  orderByExpr : ∀ order, T.transformOrderByExpr order = transformOrderByExprChildren T order
  expr : ∀ expr, T.transformExpr expr = transformExprChildren T expr
  whenThen : ∀ branch, T.transformWhenThen branch = transformWhenThenChildren T branch

end Laws

/-! ## The recursion over the tree -/

mutual

/-- The query with its selections replaced. -/
def rewriteQuery (replacement : Replacement) : SyntaxQuery → SyntaxQuery
  | ⟨node, ctes, withRecursive, body, orderBy, limit, offset, clauses⟩ =>
    ⟨node, rewriteCtes replacement ctes, withRecursive, rewriteSetExpr replacement body,
      rewriteOrderBy replacement orderBy, rewriteExprOption replacement limit,
      rewriteExprOption replacement offset,
      clauses⟩
termination_by structural x => x

/-- The CTEs with every expression replaced. -/
def rewriteCtes (replacement : Replacement) : List SyntaxCte → List SyntaxCte
  | [] => []
  | ⟨name, columns, query, node⟩ :: ctes =>
    ⟨name, columns, rewriteQuery replacement query, node⟩ :: rewriteCtes replacement ctes
termination_by structural x => x

/-- A set expression with every expression replaced. -/
def rewriteSetExpr (replacement : Replacement) : SyntaxSetExpr → SyntaxSetExpr
  | .select s => .select (rewriteSelect replacement s)
  | .unionAll left right node =>
    .unionAll (rewriteSetExpr replacement left) (rewriteSetExpr replacement right) node
  | .unsupported description node => .unsupported description node
termination_by structural x => x

/-- A select with every expression replaced. -/
def rewriteSelect (replacement : Replacement) : SyntaxSelect → SyntaxSelect
  | ⟨distinct, projection, from_, selection, groupBy, having, node⟩ =>
    ⟨distinct, rewriteProjection replacement projection, rewriteTables replacement from_,
      (replacement ⟨distinct, projection, from_, selection, groupBy, having, node⟩).getD
        (rewriteExprOption replacement selection),
      rewriteExprs replacement groupBy, rewriteExprOption replacement having, node⟩
termination_by structural x => x

/-- A projection with every expression replaced. -/
def rewriteProjection (replacement : Replacement) :
    List SyntaxProjectionItem → List SyntaxProjectionItem
  | [] => []
  | .wildcard qualifier node :: items =>
    .wildcard qualifier node :: rewriteProjection replacement items
  | .expr ⟨expr, alias_, node⟩ :: items =>
    .expr ⟨rewriteExpr replacement expr, alias_, node⟩ :: rewriteProjection replacement items
  | .unsupported description node :: items =>
    .unsupported description node :: rewriteProjection replacement items
termination_by structural x => x

/-- The tables of a `FROM` with every expression replaced. -/
def rewriteTables (replacement : Replacement) :
    List SyntaxTableWithJoins → List SyntaxTableWithJoins
  | [] => []
  | table :: tables => rewriteTable replacement table :: rewriteTables replacement tables
termination_by structural x => x

/-- A table with its joins, with every expression replaced. -/
def rewriteTable (replacement : Replacement) : SyntaxTableWithJoins → SyntaxTableWithJoins
  | ⟨relation, joins, node⟩ =>
    ⟨rewriteRelation replacement relation, rewriteJoins replacement joins, node⟩
termination_by structural x => x

/-- The joins with every expression replaced. -/
def rewriteJoins (replacement : Replacement) : List SyntaxJoin → List SyntaxJoin
  | [] => []
  | ⟨kind, relation, on, node⟩ :: joins =>
    ⟨kind, rewriteRelation replacement relation, rewriteExprOption replacement on, node⟩ ::
      rewriteJoins replacement joins
termination_by structural x => x

/-- A relation with every expression replaced. -/
def rewriteRelation (replacement : Replacement) : SyntaxRelation → SyntaxRelation
  | .table name alias_ node => .table name alias_ node
  | .derived query alias_ node => .derived (rewriteQuery replacement query) alias_ node
  | .nestedJoin table alias_ node => .nestedJoin (rewriteTable replacement table) alias_ node
  | .unsupported description node => .unsupported description node
termination_by structural x => x

/-- An `ORDER BY` with every expression replaced. -/
def rewriteOrderBy (replacement : Replacement) : List SyntaxOrderByExpr → List SyntaxOrderByExpr
  | [] => []
  | ⟨expr, asc, nullsFirst, node⟩ :: orders =>
    ⟨rewriteExpr replacement expr, asc, nullsFirst, node⟩ :: rewriteOrderBy replacement orders
termination_by structural x => x

/-- An expression with every part replaced. -/
def rewriteExpr (replacement : Replacement) : SyntaxExpr → SyntaxExpr
  | ⟨kind, node⟩ => ⟨rewriteKind replacement kind, node⟩
termination_by structural x => x

/-- The kind of an expression with every part replaced. -/
def rewriteKind (replacement : Replacement) : SyntaxExprKind → SyntaxExprKind
  | .column relation name => .column relation name
  | .literal value => .literal value
  | .parameter reference => .parameter reference
  | .unary op expr => .unary op (rewriteExpr replacement expr)
  | .binary op left right =>
    .binary op (rewriteExpr replacement left) (rewriteExpr replacement right)
  | .function call => .function (rewriteCall replacement call)
  | .case operand whenThen elseResult =>
    .case (rewriteExprOption replacement operand) (rewriteWhenThens replacement whenThen)
      (rewriteExprOption replacement elseResult)
  | .cast expr dataType => .cast (rewriteExpr replacement expr) dataType
  | .between expr low high negated =>
    .between (rewriteExpr replacement expr) (rewriteExpr replacement low)
      (rewriteExpr replacement high) negated
  | .inList expr list negated =>
    .inList (rewriteExpr replacement expr) (rewriteExprs replacement list) negated
  -- Replacements reach into subqueries as well.
  | .inSubquery expr subquery negated =>
    .inSubquery (rewriteExpr replacement expr) (rewriteQuery replacement subquery) negated
  | .scalarSubquery subquery => .scalarSubquery (rewriteQuery replacement subquery)
  | .exists subquery => .exists (rewriteQuery replacement subquery)
  | .like expr pattern negated caseInsensitive =>
    .like (rewriteExpr replacement expr) (rewriteExpr replacement pattern) negated caseInsensitive
  | .isNull expr negated => .isNull (rewriteExpr replacement expr) negated
  | .tuple items => .tuple (rewriteExprs replacement items)
  | .array items => .array (rewriteExprs replacement items)
  | .unsupported description => .unsupported description
termination_by structural x => x

/-- A function call with every part replaced. -/
def rewriteCall (replacement : Replacement) : SyntaxFunctionCall → SyntaxFunctionCall
  | ⟨function, args, distinct, filter, over_⟩ =>
    ⟨function, rewriteExprs replacement args, distinct, rewriteExprOption replacement filter,
      rewriteWindow replacement over_⟩
termination_by structural x => x

/-- A list of expressions with every part replaced. -/
def rewriteExprs (replacement : Replacement) : List SyntaxExpr → List SyntaxExpr
  | [] => []
  | expr :: exprs => rewriteExpr replacement expr :: rewriteExprs replacement exprs
termination_by structural x => x

/-- An optional expression with every part replaced. -/
def rewriteExprOption (replacement : Replacement) : Option SyntaxExpr → Option SyntaxExpr
  | none => none
  | some expr => some (rewriteExpr replacement expr)
termination_by structural x => x

/-- The branches of a `CASE` with every part replaced. -/
def rewriteWhenThens (replacement : Replacement) : List SyntaxWhenThen → List SyntaxWhenThen
  | [] => []
  | ⟨condition, result⟩ :: pairs =>
    ⟨rewriteExpr replacement condition, rewriteExpr replacement result⟩ ::
      rewriteWhenThens replacement pairs
termination_by structural x => x

/-- A window with every part replaced. -/
def rewriteWindow (replacement : Replacement) : Option WindowSpec → Option WindowSpec
  | none => none
  | some ⟨partitionBy, orderBy, node⟩ =>
    some ⟨rewriteExprs replacement partitionBy, rewriteOrderBy replacement orderBy, node⟩
termination_by structural x => x

end

/-! ## What a transformer returns -/

section Runs

variable {m : Type → Type} [Monad m] [LawfulMonad m]

/-- Where each element gives a value, the list gives their list. -/
theorem mapM_cons_pure {α β : Type} {f : α → m β} {x : α} {y : β} {xs : List α} {ys : List β}
    (hx : f x = pure y) (hxs : xs.mapM f = pure ys) : (x :: xs).mapM f = pure (y :: ys) := by
  rw [List.mapM_cons, hx, hxs, pure_bind, pure_bind]

/-- Where the element gives a value, the option does. -/
theorem mapM_some_pure {α β : Type} {f : α → m β} {x : α} {y : β} (hx : f x = pure y) :
    (some x).mapM f = pure (some y) := by
  rw [Option.mapM_some, hx, map_pure]

variable {T : SyntaxTransformer m} {replacement : Replacement}
  (h : FollowsReplacement T replacement)

include h

mutual

/-- A transformer that follows a replacement takes a query to the replaced one. -/
theorem transform_query : ∀ query : SyntaxQuery,
    T.transformQuery query = pure (rewriteQuery replacement query)
  | ⟨node, ctes, withRecursive, body, orderBy, limit, offset, clauses⟩ => by
    rw [h.query, transformQueryChildren]
    simp only [transform_ctes ctes, transform_setExpr body, transform_orderBy orderBy,
      transform_exprOption limit, transform_exprOption offset, pure_bind]
    rfl
termination_by structural x => x

/-- It takes the CTEs to the replaced ones. -/
theorem transform_ctes : ∀ ctes : List SyntaxCte,
    ctes.mapM (transformCte T) = pure (rewriteCtes replacement ctes)
  | [] => rfl
  | ⟨name, columns, query, node⟩ :: ctes => by
    have hcte : transformCte T ⟨name, columns, query, node⟩ =
        pure ⟨name, columns, rewriteQuery replacement query, node⟩ := by
      rw [transformCte, transform_query query, pure_bind]
    exact mapM_cons_pure hcte (transform_ctes ctes)
termination_by structural x => x

/-- It takes a set expression to the replaced one. -/
theorem transform_setExpr : ∀ expr : SyntaxSetExpr,
    T.transformSetExpr expr = pure (rewriteSetExpr replacement expr)
  | .select s => by
    rw [h.setExpr, transformSetExprChildren, transform_select s, pure_bind]
    rfl
  | .unionAll left right node => by
    rw [h.setExpr, transformSetExprChildren, transform_setExpr left, transform_setExpr right,
      pure_bind, pure_bind]
    rfl
  | .unsupported description node => by
    rw [h.setExpr]
    rfl
termination_by structural x => x

/-- It takes a select to the replaced one. -/
theorem transform_select : ∀ select : SyntaxSelect,
    T.transformSelect select = pure (rewriteSelect replacement select)
  | ⟨distinct, projection, from_, selection, groupBy, having, node⟩ => by
    rw [h.select, transformSelectReplacing, rewriteSelect]
    cases replacement ⟨distinct, projection, from_, selection, groupBy, having, node⟩ with
    | some replaced =>
      simp only [transform_projection projection, transform_tables from_, transform_exprs groupBy,
        transform_exprOption having, pure_bind]
      rfl
    | none =>
      simp only [transform_projection projection, transform_tables from_,
        transform_exprOption selection, transform_exprs groupBy, transform_exprOption having,
        pure_bind]
      rfl
termination_by structural x => x

/-- It takes a projection to the replaced one. -/
theorem transform_projection : ∀ items : List SyntaxProjectionItem,
    items.mapM T.transformProjectionItem = pure (rewriteProjection replacement items)
  | [] => rfl
  | .wildcard qualifier node :: items =>
    mapM_cons_pure (h.projectionItem _) (transform_projection items)
  | .expr ⟨expr, alias_, node⟩ :: items => by
    have hitem : T.transformProjectionItem (.expr ⟨expr, alias_, node⟩) =
        pure (.expr ⟨rewriteExpr replacement expr, alias_, node⟩) := by
      rw [h.projectionItem, transformProjectionItemChildren, transform_expr expr, pure_bind]
    exact mapM_cons_pure hitem (transform_projection items)
  | .unsupported description node :: items =>
    mapM_cons_pure (h.projectionItem _) (transform_projection items)
termination_by structural x => x

/-- It takes the tables of a `FROM` to the replaced ones. -/
theorem transform_tables : ∀ tables : List SyntaxTableWithJoins,
    tables.mapM T.transformTableWithJoins = pure (rewriteTables replacement tables)
  | [] => rfl
  | table :: tables => mapM_cons_pure (transform_table table) (transform_tables tables)
termination_by structural x => x

/-- It takes a table with its joins to the replaced one. -/
theorem transform_table : ∀ table : SyntaxTableWithJoins,
    T.transformTableWithJoins table = pure (rewriteTable replacement table)
  | ⟨relation, joins, node⟩ => by
    rw [h.tableWithJoins, transformTableWithJoinsChildren, transform_relation relation, pure_bind,
      transform_joins joins, pure_bind]
    rfl
termination_by structural x => x

/-- It takes the joins to the replaced ones. -/
theorem transform_joins : ∀ joins : List SyntaxJoin,
    joins.mapM T.transformJoin = pure (rewriteJoins replacement joins)
  | [] => rfl
  | ⟨kind, relation, on, node⟩ :: joins => by
    have hjoin : T.transformJoin ⟨kind, relation, on, node⟩ =
        pure ⟨kind, rewriteRelation replacement relation,
            rewriteExprOption replacement on, node⟩ := by
      rw [h.join, transformJoinChildren, transform_relation relation, pure_bind,
        transform_exprOption on, pure_bind]
    exact mapM_cons_pure hjoin (transform_joins joins)
termination_by structural x => x

/-- It takes a relation to the replaced one. -/
theorem transform_relation : ∀ relation : SyntaxRelation,
    T.transformRelation relation = pure (rewriteRelation replacement relation)
  | .table name alias_ node => h.relation _
  | .derived query alias_ node => by
    rw [h.relation, transformRelationChildren, transform_query query, pure_bind]
    rfl
  | .nestedJoin table alias_ node => by
    rw [h.relation, transformRelationChildren, transform_table table, pure_bind]
    rfl
  | .unsupported description node => h.relation _
termination_by structural x => x

/-- It takes an `ORDER BY` to the replaced one. -/
theorem transform_orderBy : ∀ orders : List SyntaxOrderByExpr,
    orders.mapM T.transformOrderByExpr = pure (rewriteOrderBy replacement orders)
  | [] => rfl
  | ⟨expr, asc, nullsFirst, node⟩ :: orders => by
    have horder : T.transformOrderByExpr ⟨expr, asc, nullsFirst, node⟩ =
        pure ⟨rewriteExpr replacement expr, asc, nullsFirst, node⟩ := by
      rw [h.orderByExpr, transformOrderByExprChildren, transform_expr expr, pure_bind]
    exact mapM_cons_pure horder (transform_orderBy orders)
termination_by structural x => x

/-- It takes an expression to the replaced one. -/
theorem transform_expr : ∀ expr : SyntaxExpr,
    T.transformExpr expr = pure (rewriteExpr replacement expr)
  | ⟨kind, node⟩ => by
    rw [h.expr, transformExprChildren, transform_kind kind, pure_bind]
    rfl
termination_by structural x => x

/-- It takes the kind of an expression to the replaced one. -/
theorem transform_kind : ∀ kind : SyntaxExprKind,
    transformKind T kind = pure (rewriteKind replacement kind)
  | .column relation name => rfl
  | .literal value => rfl
  | .parameter reference => rfl
  | .unary op expr => by
    rw [transformKind, transform_expr expr, pure_bind, rewriteKind]
  | .binary op left right => by
    rw [transformKind, transform_expr left, pure_bind, transform_expr right, pure_bind, rewriteKind]
  | .function call => by
    rw [transformKind, transform_call call, pure_bind, rewriteKind]
  | .case operand whenThen elseResult => by
    rw [transformKind, transform_exprOption operand, pure_bind, transform_whenThens whenThen,
      pure_bind, transform_exprOption elseResult, pure_bind, rewriteKind]
  | .cast expr dataType => by
    rw [transformKind, transform_expr expr, pure_bind, rewriteKind]
  | .between expr low high negated => by
    rw [transformKind, transform_expr expr, pure_bind, transform_expr low, pure_bind,
      transform_expr high, pure_bind, rewriteKind]
  | .inList expr list negated => by
    rw [transformKind, transform_expr expr, pure_bind, transform_exprs list, pure_bind, rewriteKind]
  | .inSubquery expr subquery negated => by
    rw [transformKind, transform_expr expr, pure_bind, transform_query subquery, pure_bind,
      rewriteKind]
  | .scalarSubquery subquery => by
    rw [transformKind, transform_query subquery, pure_bind, rewriteKind]
  | .exists subquery => by
    rw [transformKind, transform_query subquery, pure_bind, rewriteKind]
  | .like expr pattern negated caseInsensitive => by
    rw [transformKind, transform_expr expr, pure_bind, transform_expr pattern, pure_bind,
      rewriteKind]
  | .isNull expr negated => by
    rw [transformKind, transform_expr expr, pure_bind, rewriteKind]
  | .tuple items => by
    rw [transformKind, transform_exprs items, pure_bind, rewriteKind]
  | .array items => by
    rw [transformKind, transform_exprs items, pure_bind, rewriteKind]
  | .unsupported description => rfl
termination_by structural x => x

/-- It takes a function call to the replaced one. -/
theorem transform_call : ∀ call : SyntaxFunctionCall,
    transformCall T call = pure (rewriteCall replacement call)
  | ⟨function, args, distinct, filter, over_⟩ => by
    rw [transformCall, transform_exprs args, pure_bind, transform_exprOption filter, pure_bind,
      transform_window over_, pure_bind, rewriteCall]
termination_by structural x => x

/-- It takes a list of expressions to the replaced one. -/
theorem transform_exprs : ∀ exprs : List SyntaxExpr,
    exprs.mapM T.transformExpr = pure (rewriteExprs replacement exprs)
  | [] => rfl
  | expr :: exprs => mapM_cons_pure (transform_expr expr) (transform_exprs exprs)
termination_by structural x => x

/-- It takes an optional expression to the replaced one. -/
theorem transform_exprOption : ∀ expr : Option SyntaxExpr,
    expr.mapM T.transformExpr = pure (rewriteExprOption replacement expr)
  | none => rfl
  | some expr => mapM_some_pure (transform_expr expr)
termination_by structural x => x

/-- It takes the branches of a `CASE` to the replaced ones. -/
theorem transform_whenThens : ∀ pairs : List SyntaxWhenThen,
    pairs.mapM T.transformWhenThen = pure (rewriteWhenThens replacement pairs)
  | [] => rfl
  | ⟨condition, result⟩ :: pairs => by
    have hpair : T.transformWhenThen ⟨condition, result⟩ =
        pure ⟨rewriteExpr replacement condition, rewriteExpr replacement result⟩ := by
      rw [h.whenThen, transformWhenThenChildren, transform_expr condition, pure_bind,
        transform_expr result, pure_bind]
    exact mapM_cons_pure hpair (transform_whenThens pairs)
termination_by structural x => x

/-- It takes a window to the replaced one. -/
theorem transform_window : ∀ window : Option WindowSpec,
    window.mapM (transformWindow T) = pure (rewriteWindow replacement window)
  | none => rfl
  | some ⟨partitionBy, orderBy, node⟩ => by
    refine mapM_some_pure ?_
    rw [transformWindow, transform_exprs partitionBy, pure_bind, transform_orderBy orderBy,
      pure_bind]
termination_by structural x => x

end

end Runs

/-! ## Overriding nothing -/

mutual

/-- Replacing nothing leaves a query as it is. -/
theorem rewriteQuery_none : ∀ query : SyntaxQuery, rewriteQuery (fun _ => none) query = query
  | ⟨node, ctes, withRecursive, body, orderBy, limit, offset, clauses⟩ => by
    rw [rewriteQuery, rewriteCtes_none ctes, rewriteSetExpr_none body, rewriteOrderBy_none orderBy,
      rewriteExprOption_none limit, rewriteExprOption_none offset]
termination_by structural x => x

/-- Replacing nothing leaves the CTEs as they are. -/
theorem rewriteCtes_none : ∀ ctes : List SyntaxCte, rewriteCtes (fun _ => none) ctes = ctes
  | [] => rfl
  | ⟨name, columns, query, node⟩ :: ctes => by
    rw [rewriteCtes, rewriteQuery_none query, rewriteCtes_none ctes]
termination_by structural x => x

/-- Replacing nothing leaves a set expression as it is. -/
theorem rewriteSetExpr_none : ∀ expr : SyntaxSetExpr, rewriteSetExpr (fun _ => none) expr = expr
  | .select s => by
    rw [rewriteSetExpr, rewriteSelect_none s]
  | .unionAll left right node => by
    rw [rewriteSetExpr, rewriteSetExpr_none left, rewriteSetExpr_none right]
  | .unsupported description node => rfl
termination_by structural x => x

/-- Replacing nothing leaves a select as it is. -/
theorem rewriteSelect_none : ∀ select : SyntaxSelect, rewriteSelect (fun _ => none) select = select
  | ⟨distinct, projection, from_, selection, groupBy, having, node⟩ => by
    rw [rewriteSelect, rewriteProjection_none projection, rewriteTables_none from_,
      Option.getD_none, rewriteExprOption_none selection, rewriteExprs_none groupBy,
      rewriteExprOption_none having]
termination_by structural x => x

/-- Replacing nothing leaves a projection as it is. -/
theorem rewriteProjection_none : ∀ items : List SyntaxProjectionItem,
    rewriteProjection (fun _ => none) items = items
  | [] => rfl
  | .wildcard qualifier node :: items => by
    rw [rewriteProjection, rewriteProjection_none items]
  | .expr ⟨expr, alias_, node⟩ :: items => by
    rw [rewriteProjection, rewriteExpr_none expr, rewriteProjection_none items]
  | .unsupported description node :: items => by
    rw [rewriteProjection, rewriteProjection_none items]
termination_by structural x => x

/-- Replacing nothing leaves the tables of a `FROM` as they are. -/
theorem rewriteTables_none : ∀ tables : List SyntaxTableWithJoins,
    rewriteTables (fun _ => none) tables = tables
  | [] => rfl
  | table :: tables => by
    rw [rewriteTables, rewriteTable_none table, rewriteTables_none tables]
termination_by structural x => x

/-- Replacing nothing leaves a table with its joins as it is. -/
theorem rewriteTable_none : ∀ table : SyntaxTableWithJoins,
    rewriteTable (fun _ => none) table = table
  | ⟨relation, joins, node⟩ => by
    rw [rewriteTable, rewriteRelation_none relation, rewriteJoins_none joins]
termination_by structural x => x

/-- Replacing nothing leaves the joins as they are. -/
theorem rewriteJoins_none : ∀ joins : List SyntaxJoin, rewriteJoins (fun _ => none) joins = joins
  | [] => rfl
  | ⟨kind, relation, on, node⟩ :: joins => by
    rw [rewriteJoins, rewriteRelation_none relation, rewriteExprOption_none on,
      rewriteJoins_none joins]
termination_by structural x => x

/-- Replacing nothing leaves a relation as it is. -/
theorem rewriteRelation_none : ∀ relation : SyntaxRelation,
    rewriteRelation (fun _ => none) relation = relation
  | .table name alias_ node => rfl
  | .derived query alias_ node => by
    rw [rewriteRelation, rewriteQuery_none query]
  | .nestedJoin table alias_ node => by
    rw [rewriteRelation, rewriteTable_none table]
  | .unsupported description node => rfl
termination_by structural x => x

/-- Replacing nothing leaves an `ORDER BY` as it is. -/
theorem rewriteOrderBy_none : ∀ orders : List SyntaxOrderByExpr,
    rewriteOrderBy (fun _ => none) orders = orders
  | [] => rfl
  | ⟨expr, asc, nullsFirst, node⟩ :: orders => by
    rw [rewriteOrderBy, rewriteExpr_none expr, rewriteOrderBy_none orders]
termination_by structural x => x

/-- Replacing nothing leaves an expression as it is. -/
theorem rewriteExpr_none : ∀ expr : SyntaxExpr, rewriteExpr (fun _ => none) expr = expr
  | ⟨kind, node⟩ => by
    rw [rewriteExpr, rewriteKind_none kind]
termination_by structural x => x

/-- Replacing nothing leaves the kind of an expression as it is. -/
theorem rewriteKind_none : ∀ kind : SyntaxExprKind, rewriteKind (fun _ => none) kind = kind
  | .column relation name => rfl
  | .literal value => rfl
  | .parameter reference => rfl
  | .unary op expr => by
    rw [rewriteKind, rewriteExpr_none expr]
  | .binary op left right => by
    rw [rewriteKind, rewriteExpr_none left, rewriteExpr_none right]
  | .function call => by
    rw [rewriteKind, rewriteCall_none call]
  | .case operand whenThen elseResult => by
    rw [rewriteKind, rewriteExprOption_none operand, rewriteWhenThens_none whenThen,
      rewriteExprOption_none elseResult]
  | .cast expr dataType => by
    rw [rewriteKind, rewriteExpr_none expr]
  | .between expr low high negated => by
    rw [rewriteKind, rewriteExpr_none expr, rewriteExpr_none low, rewriteExpr_none high]
  | .inList expr list negated => by
    rw [rewriteKind, rewriteExpr_none expr, rewriteExprs_none list]
  | .inSubquery expr subquery negated => by
    rw [rewriteKind, rewriteExpr_none expr, rewriteQuery_none subquery]
  | .scalarSubquery subquery => by
    rw [rewriteKind, rewriteQuery_none subquery]
  | .exists subquery => by
    rw [rewriteKind, rewriteQuery_none subquery]
  | .like expr pattern negated caseInsensitive => by
    rw [rewriteKind, rewriteExpr_none expr, rewriteExpr_none pattern]
  | .isNull expr negated => by
    rw [rewriteKind, rewriteExpr_none expr]
  | .tuple items => by
    rw [rewriteKind, rewriteExprs_none items]
  | .array items => by
    rw [rewriteKind, rewriteExprs_none items]
  | .unsupported description => rfl
termination_by structural x => x

/-- Replacing nothing leaves a function call as it is. -/
theorem rewriteCall_none : ∀ call : SyntaxFunctionCall, rewriteCall (fun _ => none) call = call
  | ⟨function, args, distinct, filter, over_⟩ => by
    rw [rewriteCall, rewriteExprs_none args, rewriteExprOption_none filter,
      rewriteWindow_none over_]
termination_by structural x => x

/-- Replacing nothing leaves a list of expressions as it is. -/
theorem rewriteExprs_none : ∀ exprs : List SyntaxExpr, rewriteExprs (fun _ => none) exprs = exprs
  | [] => rfl
  | expr :: exprs => by
    rw [rewriteExprs, rewriteExpr_none expr, rewriteExprs_none exprs]
termination_by structural x => x

/-- Replacing nothing leaves an optional expression as it is. -/
theorem rewriteExprOption_none :
    ∀ expr : Option SyntaxExpr, rewriteExprOption (fun _ => none) expr = expr
  | none => rfl
  | some expr => by
    rw [rewriteExprOption, rewriteExpr_none expr]
termination_by structural x => x

/-- Replacing nothing leaves the branches of a `CASE` as they are. -/
theorem rewriteWhenThens_none : ∀ pairs : List SyntaxWhenThen,
    rewriteWhenThens (fun _ => none) pairs = pairs
  | [] => rfl
  | ⟨condition, result⟩ :: pairs => by
    rw [rewriteWhenThens, rewriteExpr_none condition, rewriteExpr_none result,
      rewriteWhenThens_none pairs]
termination_by structural x => x

/-- Replacing nothing leaves a window as it is. -/
theorem rewriteWindow_none : ∀ window : Option WindowSpec,
    rewriteWindow (fun _ => none) window = window
  | none => rfl
  | some ⟨partitionBy, orderBy, node⟩ => by
    rw [rewriteWindow, rewriteExprs_none partitionBy, rewriteOrderBy_none orderBy]
termination_by structural x => x

end

section Default

variable {m : Type → Type} [Monad m]

/-- A transformer that overrides nothing: each method is its default. -/
structure OverridesNothing (T : SyntaxTransformer m) : Prop where
  query : T.transformQuery = transformQueryChildren T
  setExpr : T.transformSetExpr = transformSetExprChildren T
  select : T.transformSelect = transformSelectChildren T
  projectionItem : T.transformProjectionItem = transformProjectionItemChildren T
  tableWithJoins : T.transformTableWithJoins = transformTableWithJoinsChildren T
  join : T.transformJoin = transformJoinChildren T
  relation : T.transformRelation = transformRelationChildren T
  orderByExpr : T.transformOrderByExpr = transformOrderByExprChildren T
  expr : T.transformExpr = transformExprChildren T
  whenThen : T.transformWhenThen = transformWhenThenChildren T

/-- Every method returns its argument, without an error. -/
structure IsIdentity (T : SyntaxTransformer m) : Prop where
  query : ∀ query, T.transformQuery query = pure query
  setExpr : ∀ expr, T.transformSetExpr expr = pure expr
  select : ∀ select, T.transformSelect select = pure select
  projectionItem : ∀ item, T.transformProjectionItem item = pure item
  tableWithJoins : ∀ table, T.transformTableWithJoins table = pure table
  join : ∀ join, T.transformJoin join = pure join
  relation : ∀ relation, T.transformRelation relation = pure relation
  orderByExpr : ∀ order, T.transformOrderByExpr order = pure order
  expr : ∀ expr, T.transformExpr expr = pure expr
  whenThen : ∀ branch, T.transformWhenThen branch = pure branch

/-- A transformer that overrides nothing follows the replacement of nothing. -/
theorem OverridesNothing.followsReplacement {T : SyntaxTransformer m} (h : OverridesNothing T) :
    FollowsReplacement T fun _ => none where
  query := congrFun h.query
  setExpr := congrFun h.setExpr
  select := congrFun h.select
  projectionItem := congrFun h.projectionItem
  tableWithJoins := congrFun h.tableWithJoins
  join := congrFun h.join
  relation := congrFun h.relation
  orderByExpr := congrFun h.orderByExpr
  expr := congrFun h.expr
  whenThen := congrFun h.whenThen

/-- A transformer that overrides nothing is the identity. -/
theorem default_isIdentity [LawfulMonad m] {T : SyntaxTransformer m} (h : OverridesNothing T) :
    IsIdentity T := by
  -- It follows the replacement that replaces nothing, and that leaves a query as it is.
  have hfollows := h.followsReplacement
  have hexpr : ∀ expr, T.transformExpr expr = pure expr := by
    intro expr
    rw [transform_expr hfollows, rewriteExpr_none]
  refine { query := ?_, setExpr := ?_, select := ?_, projectionItem := ?_,
           tableWithJoins := ?_, join := ?_,
           relation := ?_, orderByExpr := ?_, expr := hexpr, whenThen := ?_ }
  · intro query
    rw [transform_query hfollows, rewriteQuery_none]
  · intro expr
    rw [transform_setExpr hfollows, rewriteSetExpr_none]
  · intro select
    rw [transform_select hfollows, rewriteSelect_none]
  · intro item
    rw [h.projectionItem]
    cases item with
    | wildcard qualifier node => rfl
    | expr details =>
      obtain ⟨expr, alias_, node⟩ := details
      rw [transformProjectionItemChildren, hexpr, pure_bind]
    | unsupported description node => rfl
  · intro table
    rw [transform_table hfollows, rewriteTable_none]
  · rintro ⟨kind, relation, on, node⟩
    rw [h.join, transformJoinChildren, transform_relation hfollows, pure_bind,
      transform_exprOption hfollows, pure_bind, rewriteRelation_none, rewriteExprOption_none]
  · intro relation
    rw [transform_relation hfollows, rewriteRelation_none]
  · rintro ⟨expr, asc, nullsFirst, node⟩
    rw [h.orderByExpr, transformOrderByExprChildren, hexpr, pure_bind]
  · rintro ⟨condition, result⟩
    rw [h.whenThen, transformWhenThenChildren, hexpr, hexpr, pure_bind, pure_bind]

end Default

/-! ## The transformer of a replacement -/

section Replacing

/-- The transformer whose methods are the recursion over the tree. -/
def replacing (m : Type → Type) [Monad m] (replacement : Replacement) : SyntaxTransformer m where
  transformQuery query := pure (rewriteQuery replacement query)
  transformSetExpr expr := pure (rewriteSetExpr replacement expr)
  transformSelect select := pure (rewriteSelect replacement select)
  transformProjectionItem
    | .wildcard qualifier node => pure (.wildcard qualifier node)
    | .expr ⟨expr, alias_, node⟩ => pure (.expr ⟨rewriteExpr replacement expr, alias_, node⟩)
    | .unsupported description node => pure (.unsupported description node)
  transformTableWithJoins table := pure (rewriteTable replacement table)
  transformJoin
    | ⟨kind, relation, on, node⟩ =>
      pure ⟨kind, rewriteRelation replacement relation, rewriteExprOption replacement on, node⟩
  transformRelation relation := pure (rewriteRelation replacement relation)
  transformOrderByExpr
    | ⟨expr, asc, nullsFirst, node⟩ => pure ⟨rewriteExpr replacement expr, asc, nullsFirst, node⟩
  transformExpr expr := pure (rewriteExpr replacement expr)
  transformWhenThen
    | ⟨condition, result⟩ =>
      pure ⟨rewriteExpr replacement condition, rewriteExpr replacement result⟩

variable {m : Type → Type} [Monad m] [LawfulMonad m]

/-- A recursion over a list is what its members are mapped to. -/
theorem mapM_eq_pure {α β : Type} {f : α → m β} {F : List α → List β} (hnil : F [] = [])
    (hcons : ∀ x xs, ∃ y, f x = pure y ∧ F (x :: xs) = y :: F xs) (xs : List α) :
    xs.mapM f = pure (F xs) := by
  induction xs with
  | nil => rw [List.mapM_nil, hnil]
  | cons x xs ih =>
    obtain ⟨y, hx, hF⟩ := hcons x xs
    rw [mapM_cons_pure hx ih, hF]

variable (replacement : Replacement)

/-- The replacing transformer takes a query to the replaced one. -/
theorem replacing_query (query : SyntaxQuery) :
    (replacing m replacement).transformQuery query = pure (rewriteQuery replacement query) := rfl

/-- The replacing transformer on a set expression. -/
theorem replacing_setExpr (expr : SyntaxSetExpr) :
    (replacing m replacement).transformSetExpr expr = pure (rewriteSetExpr replacement expr) := rfl

/-- The replacing transformer on a select. -/
theorem replacing_select (select : SyntaxSelect) :
    (replacing m replacement).transformSelect select =
      pure (rewriteSelect replacement select) := rfl

/-- The replacing transformer on a table with its joins. -/
theorem replacing_table (table : SyntaxTableWithJoins) :
    (replacing m replacement).transformTableWithJoins table =
      pure (rewriteTable replacement table) := rfl

/-- The replacing transformer on a relation. -/
theorem replacing_relation (relation : SyntaxRelation) :
    (replacing m replacement).transformRelation relation =
      pure (rewriteRelation replacement relation) := rfl

/-- The replacing transformer on an expression. -/
theorem replacing_expr (expr : SyntaxExpr) :
    (replacing m replacement).transformExpr expr = pure (rewriteExpr replacement expr) := rfl

/-- The replacing transformer on a list of expressions. -/
theorem replacing_exprs (exprs : List SyntaxExpr) :
    exprs.mapM (replacing m replacement).transformExpr = pure (rewriteExprs replacement exprs) :=
  mapM_eq_pure rfl (fun _ _ => ⟨_, rfl, rfl⟩) exprs

/-- The replacing transformer on an optional expression. -/
theorem replacing_exprOption (expr : Option SyntaxExpr) :
    expr.mapM (replacing m replacement).transformExpr =
      pure (rewriteExprOption replacement expr) := by
  cases expr with
  | none => rfl
  | some expr => exact mapM_some_pure rfl

/-- The replacing transformer on an `ORDER BY`. -/
theorem replacing_orderBy (orders : List SyntaxOrderByExpr) :
    orders.mapM (replacing m replacement).transformOrderByExpr =
      pure (rewriteOrderBy replacement orders) := by
  refine mapM_eq_pure rfl ?_ orders
  rintro ⟨expr, asc, nullsFirst, node⟩ orders
  exact ⟨_, rfl, rfl⟩

/-- The replacing transformer on the CTEs. -/
theorem replacing_ctes (ctes : List SyntaxCte) :
    ctes.mapM (transformCte (replacing m replacement)) = pure (rewriteCtes replacement ctes) := by
  refine mapM_eq_pure rfl ?_ ctes
  rintro ⟨name, columns, query, node⟩ ctes
  refine ⟨⟨name, columns, rewriteQuery replacement query, node⟩, ?_, rfl⟩
  rw [transformCte, replacing_query, pure_bind]

/-- The replacing transformer on a projection. -/
theorem replacing_projection (items : List SyntaxProjectionItem) :
    items.mapM (replacing m replacement).transformProjectionItem =
      pure (rewriteProjection replacement items) := by
  refine mapM_eq_pure rfl ?_ items
  rintro (⟨qualifier, node⟩ | ⟨⟨expr, alias_, node⟩⟩ | ⟨description, node⟩) items
  · exact ⟨_, rfl, rfl⟩
  · exact ⟨_, rfl, rfl⟩
  · exact ⟨_, rfl, rfl⟩

/-- The replacing transformer on the tables of a `FROM`. -/
theorem replacing_tables (tables : List SyntaxTableWithJoins) :
    tables.mapM (replacing m replacement).transformTableWithJoins =
      pure (rewriteTables replacement tables) :=
  mapM_eq_pure rfl (fun _ _ => ⟨_, rfl, rfl⟩) tables

/-- The replacing transformer on the joins. -/
theorem replacing_joins (joins : List SyntaxJoin) :
    joins.mapM (replacing m replacement).transformJoin = pure (rewriteJoins replacement joins) := by
  refine mapM_eq_pure rfl ?_ joins
  rintro ⟨kind, relation, on, node⟩ joins
  exact ⟨_, rfl, rfl⟩

/-- The replacing transformer on the branches of a `CASE`. -/
theorem replacing_whenThens (pairs : List SyntaxWhenThen) :
    pairs.mapM (replacing m replacement).transformWhenThen =
      pure (rewriteWhenThens replacement pairs) := by
  refine mapM_eq_pure rfl ?_ pairs
  rintro ⟨condition, result⟩ pairs
  exact ⟨_, rfl, rfl⟩

/-- The replacing transformer on a window. -/
theorem replacing_window (window : Option WindowSpec) :
    window.mapM (transformWindow (replacing m replacement)) =
      pure (rewriteWindow replacement window) := by
  cases window with
  | none => rfl
  | some window =>
    obtain ⟨partitionBy, orderBy, node⟩ := window
    refine mapM_some_pure ?_
    rw [transformWindow, replacing_exprs, pure_bind, replacing_orderBy, pure_bind]

/-- The replacing transformer on the kind of an expression. -/
theorem replacing_kind (kind : SyntaxExprKind) :
    transformKind (replacing m replacement) kind = pure (rewriteKind replacement kind) := by
  cases kind with
  | function call =>
    obtain ⟨function, args, distinct, filter, over_⟩ := call
    rw [transformKind, transformCall, replacing_exprs, pure_bind, replacing_exprOption, pure_bind,
      replacing_window, pure_bind, pure_bind]
    rfl
  | _ =>
    simp only [transformKind, replacing_expr, replacing_query, replacing_exprs,
      replacing_exprOption, replacing_whenThens, pure_bind]
    rfl

/-- The methods of the recursion over the tree are the defaults, but for the replaced selections. -/
theorem replacing_followsReplacement :
    FollowsReplacement (replacing m replacement) replacement where
  query query := by
    obtain ⟨node, ctes, withRecursive, body, orderBy, limit, offset, clauses⟩ := query
    simp only [transformQueryChildren, replacing_ctes, replacing_setExpr, replacing_orderBy,
      replacing_exprOption, pure_bind]
    rfl
  setExpr expr := by
    cases expr <;>
      simp only [transformSetExprChildren, replacing_select, replacing_setExpr, pure_bind] <;> rfl
  -- Only a select that is named is replaced; everything else is rebuilt from its parts.
  select select := by
    obtain ⟨distinct, projection, from_, selection, groupBy, having, node⟩ := select
    rw [replacing_select, rewriteSelect, transformSelectReplacing]
    cases replacement ⟨distinct, projection, from_, selection, groupBy, having, node⟩ with
    | none =>
      simp only [replacing_projection, replacing_tables, replacing_exprOption, replacing_exprs,
        pure_bind, Option.getD_none]
    | some replaced =>
      simp only [replacing_projection, replacing_tables, replacing_exprOption, replacing_exprs,
        pure_bind, Option.getD_some]
  projectionItem item := by
    rcases item with ⟨qualifier, node⟩ | ⟨⟨expr, alias_, node⟩⟩ | ⟨description, node⟩
    · rfl
    · rw [transformProjectionItemChildren, replacing_expr, pure_bind]
      rfl
    · rfl
  tableWithJoins table := by
    obtain ⟨relation, joins, node⟩ := table
    rw [transformTableWithJoinsChildren, replacing_relation, pure_bind, replacing_joins, pure_bind]
    rfl
  join join := by
    obtain ⟨kind, relation, on, node⟩ := join
    rw [transformJoinChildren, replacing_relation, pure_bind, replacing_exprOption, pure_bind]
    rfl
  relation relation := by
    cases relation with
    | table name alias_ node => rfl
    | derived query alias_ node =>
      rw [transformRelationChildren, replacing_query, pure_bind]
      rfl
    | nestedJoin table alias_ node =>
      rw [transformRelationChildren, replacing_table, pure_bind]
      rfl
    | unsupported description node => rfl
  orderByExpr order := by
    obtain ⟨expr, asc, nullsFirst, node⟩ := order
    rw [transformOrderByExprChildren, replacing_expr, pure_bind]
    rfl
  expr expr := by
    obtain ⟨kind, node⟩ := expr
    rw [transformExprChildren, replacing_kind, pure_bind]
    rfl
  whenThen branch := by
    obtain ⟨condition, result⟩ := branch
    rw [transformWhenThenChildren, replacing_expr, replacing_expr, pure_bind, pure_bind]
    rfl

end Replacing

/-- The recursion over the tree without replacements is a transformer that overrides nothing. -/
theorem replacing_none_isIdentity : IsIdentity (replacing (Except String) fun _ => none) := by
  have h : FollowsReplacement (replacing (Except String) fun _ => none) fun _ => none :=
    replacing_followsReplacement fun _ => none
  exact default_isIdentity
    { query := funext h.query, setExpr := funext h.setExpr, select := funext h.select,
      projectionItem := funext h.projectionItem, tableWithJoins := funext h.tableWithJoins,
      join := funext h.join,
      relation := funext h.relation, orderByExpr := funext h.orderByExpr, expr := funext h.expr,
      whenThen := funext h.whenThen }

end QueryFabric.Opt
