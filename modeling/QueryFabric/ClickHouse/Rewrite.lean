import QueryFabric.ClickHouse.Scope
import Mathlib.Data.Option.Basic

/-!
# The ClickHouse rewriter

`crates/queryfabric-adapter-clickhouse/src/rewrite/mod.rs`: the plan that ClickHouse emission
renders in place of the bound one. Three things change: a column of a materialized view that holds
partial states is wrapped in its merge function, a wildcard over one known relation is expanded into
its columns, and a UUID that is projected or grouped by is wrapped in `toString`.

Each function returns the rewritten node and the events it records, in order.
-/

namespace QueryFabric.ClickHouse

/-- `is_to_string_call`. -/
def isToStringCall : BoundExpr → Bool
  | ⟨.function ⟨function, _, [_], false, none, none, _⟩, _, _, _⟩ =>
    function.namespace_.isNone && eqIgnoreAsciiCase function.name "toString"
  | _ => false

/-- The call that a function of one argument is wrapped as. -/
def wrapCall (function : FunctionRef) (expr : BoundExpr) : BoundExprKind :=
  .function { function, resolvedBackendName := none, args := [expr], distinct := false,
              filter := none, over_ := none, resolvedSignatureName := some function.name }

/-- `rewrite_uuid_arrow_expr`. -/
def rewriteUuidArrowExpr (expr : BoundExpr) (enabled : Bool) : BoundExpr × Bool :=
  if !enabled || expr.dataType != .uuid || isToStringCall expr then (expr, false)
  else
    ({ kind := wrapCall { namespace_ := none, name := "toString" } expr
       dataType := .utf8, nullable := expr.nullable, node := expr.node }, true)

/-- `string_result_field`. -/
def stringResultField (field : ResultField) : ResultField := { field with dataType := .utf8 }

/-- The column that a field of an expanded wildcard becomes. -/
def expandField (bindingName : String) (node : SyntaxNode) (enabled : Bool) (field : ResultField) :
    BoundProjectionItem :=
  let column : BoundExpr :=
    { kind := .column { relation := some bindingName, name := field.name }
      dataType := field.dataType, nullable := field.nullable, node }
  let (expr, wrapped) := rewriteUuidArrowExpr column enabled
  .expr { expr, alias_ := some field.name,
          field := if wrapped then stringResultField field else field, node }

/-- `expand_wildcard_projection`. -/
def expandWildcardProjection (qualifier : Option String) (fields : List ResultField)
    (node : SyntaxNode) (scope : SelectScope) (enabled : Bool) :
    Option (List BoundProjectionItem) := do
  let bindingName ← scope.targetBindingName qualifier
  return fields.map (expandField bindingName node enabled)

mutual

/-- `collect_relation_bindings`: the bindings that a relation adds to the scope. -/
def collectRelationBindings (catalog : Catalog) : BoundRelation → SelectScope
  | .table binding _ =>
    match binding.relationName with
    | none => []
    | some name =>
      match catalog.resolveRelation name.namespace_ name.name with
      | none => []
      | some relation =>
        [{ bindingName := binding.bindingName, relationDisplay := name.displayName, relation }]
  | .nestedJoin _ ⟨relation, joins, _⟩ _ =>
    collectRelationBindings catalog relation ++ collectJoinBindings catalog joins
  | .derived .. => []
  | .unsupported .. => []

/-- The bindings of the relations that are joined. -/
def collectJoinBindings (catalog : Catalog) : List BoundJoin → SelectScope
  | [] => []
  | ⟨_, relation, _, _⟩ :: joins =>
    collectRelationBindings catalog relation ++ collectJoinBindings catalog joins

end

/-- `scope_from_from_clause`. -/
def scopeFromFromClause (catalog : Catalog) (from_ : List BoundTableWithJoins) : SelectScope :=
  from_.flatMap fun table =>
    collectRelationBindings catalog table.relation ++ collectJoinBindings catalog table.joins

/-- The projection item that a projected expression is rewritten to. -/
def rewriteProjectionExpr (details : BoundProjectionExpr) (rewritten : BoundExpr) (enabled : Bool) :
    BoundProjectionItem :=
  let (expr, wrapped) := rewriteUuidArrowExpr rewritten enabled
  .expr { expr
          alias_ := details.alias_.orElse fun _ => if wrapped then some details.field.name else none
          field := if wrapped then stringResultField details.field else details.field
          node := details.node }

/-- The fields of a rewritten projection item. -/
def projectionFields : BoundProjectionItem → List ResultField
  | .expr details => [details.field]
  | .wildcard _ fields _ => fields
  | .unsupported .. => []

/-- The wrapper that a column is rewritten with, where wrapping is allowed. -/
def columnWrapper (scope : Option SelectScope) (allow : Bool) (column : BoundColumnRef) :
    Option ResolvedWrapper :=
  match allow, scope with
  | true, some scope => scope.resolveWrapper column.relation column.name
  | _, _ => none

/-- Whether the arguments of a call are kept: it is the wrapper of its column already. -/
def keepArgs (scope : Option SelectScope) (allow : Bool) (function : BoundFunctionCall) : Bool :=
  match allow, scope with
  | true, some scope => scope.isExistingWrapper function
  | _, _ => false

/-- The event of a call in the wrong wrapper. -/
def nearMissEvents (scope : Option SelectScope) (allow : Bool) (function : BoundFunctionCall)
    (node : SyntaxNode) : List MvEvent :=
  match allow, scope with
  | true, some scope =>
    if scope.isExistingWrapper function then []
    else match scope.detectWrapperNearMiss function with
      | some mismatch => [.nearMiss mismatch node]
      | none => []
  | _, _ => []

section Rewrite

variable (catalog : Catalog) (enabled : Bool)

mutual

/-- `rewrite_query_plan`. -/
def rewriteQueryPlan : BoundQueryPlan → BoundQueryPlan × List MvEvent
  | ⟨node, ctes, body, orderBy, limit, offset, backendClauses, _⟩ =>
    let body := rewriteSetExpr body
    let ctes := rewriteCtes ctes
    let orderBy := rewriteOrderBys none orderBy
    let limit := rewriteExprOption none false limit
    let offset := rewriteExprOption none false offset
    (⟨node, ctes.1, body.1, orderBy.1, limit.1, offset.1, backendClauses, body.1.resultSchema⟩,
      body.2 ++ ctes.2 ++ orderBy.2 ++ limit.2 ++ offset.2)

/-- The CTEs of a query, with their queries rewritten. -/
def rewriteCtes : List BoundCte → List BoundCte × List MvEvent
  | [] => ([], [])
  | ⟨name, columns, query, _, node⟩ :: ctes =>
    let query := rewriteQueryPlan query
    let ctes := rewriteCtes ctes
    (⟨name, columns, query.1, query.1.resultSchema, node⟩ :: ctes.1, query.2 ++ ctes.2)

/-- `rewrite_set_expr`. -/
def rewriteSetExpr : BoundSetExpr → BoundSetExpr × List MvEvent
  | .select s =>
    let s := rewriteSelect s
    (.select s.1, s.2)
  | .unionAll left right node _ =>
    let left := rewriteSetExpr left
    let right := rewriteSetExpr right
    (.unionAll left.1 right.1 node left.1.resultSchema, left.2 ++ right.2)
  | .unsupported description node resultSchema =>
    (.unsupported description node resultSchema, [])

/-- `rewrite_select`. -/
def rewriteSelect : BoundSelect → BoundSelect × List MvEvent
  | ⟨distinct, projection, from_, selection, groupBy, having, resultSchema, node⟩ =>
    let from_ := rewriteTables from_
    let scope := scopeFromFromClause catalog from_.1
    let projection := rewriteProjections scope projection
    let selection := rewriteExprOption (some scope) false selection
    let groupBy := rewriteExprs (some scope) false groupBy
    let having := rewriteExprOption (some scope) true having
    (⟨distinct, projection.1, from_.1, selection.1,
      groupBy.1.map fun expr => (rewriteUuidArrowExpr expr enabled).1, having.1,
      { fields := projection.1.flatMap projectionFields, metadata := resultSchema.metadata }, node⟩,
      from_.2 ++ projection.2 ++ selection.2 ++ groupBy.2 ++ having.2)

/-- The projection of a select. A wildcard is expanded when it names one known relation. -/
def rewriteProjections (scope : SelectScope) :
    List BoundProjectionItem → List BoundProjectionItem × List MvEvent
  | [] => ([], [])
  | .expr ⟨expr, alias_, field, node⟩ :: items =>
    let rewritten := rewriteExpr (some scope) true expr
    let items := rewriteProjections scope items
    (rewriteProjectionExpr ⟨expr, alias_, field, node⟩ rewritten.1 enabled :: items.1,
      rewritten.2 ++ items.2)
  | .wildcard qualifier fields node :: items =>
    let items := rewriteProjections scope items
    ((expandWildcardProjection qualifier fields node scope enabled).getD
      [.wildcard qualifier fields node] ++ items.1, items.2)
  | .unsupported description node :: items =>
    let items := rewriteProjections scope items
    (.unsupported description node :: items.1, items.2)

/-- The tables of a `FROM` clause. -/
def rewriteTables : List BoundTableWithJoins → List BoundTableWithJoins × List MvEvent
  | [] => ([], [])
  | table :: tables =>
    let table := rewriteTableWithJoins table
    let tables := rewriteTables tables
    (table.1 :: tables.1, table.2 ++ tables.2)

/-- `rewrite_table_with_joins`. -/
def rewriteTableWithJoins : BoundTableWithJoins → BoundTableWithJoins × List MvEvent
  | ⟨relation, joins, node⟩ =>
    let relation := rewriteRelation relation
    let joins := rewriteJoins joins
    (⟨relation.1, joins.1, node⟩, relation.2 ++ joins.2)

/-- The joins of a table. -/
def rewriteJoins : List BoundJoin → List BoundJoin × List MvEvent
  | [] => ([], [])
  | ⟨kind, relation, on, node⟩ :: joins =>
    let relation := rewriteRelation relation
    let on := rewriteExprOption none false on
    let joins := rewriteJoins joins
    (⟨kind, relation.1, on.1, node⟩ :: joins.1, relation.2 ++ on.2 ++ joins.2)

/-- `rewrite_relation`. -/
def rewriteRelation : BoundRelation → BoundRelation × List MvEvent
  | .table binding node => (.table binding node, [])
  | .derived binding query node =>
    let query := rewriteQueryPlan query
    (.derived binding query.1 node, query.2)
  | .nestedJoin binding tableWithJoins node =>
    let tableWithJoins := rewriteTableWithJoins tableWithJoins
    (.nestedJoin binding tableWithJoins.1 node, tableWithJoins.2)
  | .unsupported description bindingName node => (.unsupported description bindingName node, [])

/-- `rewrite_order_by_expr`. It is only ever called without column wrapping. -/
def rewriteOrderByExpr (scope : Option SelectScope) :
    BoundOrderByExpr → BoundOrderByExpr × List MvEvent
  | ⟨expr, asc, nullsFirst, node⟩ =>
    let expr := rewriteExpr scope false expr
    (⟨expr.1, asc, nullsFirst, node⟩, expr.2)

/-- The sort keys of an `ORDER BY`. -/
def rewriteOrderBys (scope : Option SelectScope) :
    List BoundOrderByExpr → List BoundOrderByExpr × List MvEvent
  | [] => ([], [])
  | order :: orders =>
    let order := rewriteOrderByExpr scope order
    let orders := rewriteOrderBys scope orders
    (order.1 :: orders.1, order.2 ++ orders.2)

/-- `rewrite_expr`. -/
def rewriteExpr (scope : Option SelectScope) (allow : Bool) : BoundExpr → BoundExpr × List MvEvent
  -- A column of a materialized view is wrapped in its merge function, where that is allowed.
  | ⟨.column column, dataType, nullable, node⟩ =>
    match columnWrapper scope allow column with
    | some resolved =>
      (⟨wrapCall resolved.wrapper.functionRef ⟨.column column, dataType, nullable, node⟩, dataType,
        nullable, node⟩, [.wrap resolved])
    | none => (⟨.column column, dataType, nullable, node⟩, [])
  | ⟨.literal value, dataType, nullable, node⟩ => (⟨.literal value, dataType, nullable, node⟩, [])
  | ⟨.parameter reference, dataType, nullable, node⟩ =>
    (⟨.parameter reference, dataType, nullable, node⟩, [])
  | ⟨.unsupported description, dataType, nullable, node⟩ =>
    (⟨.unsupported description, dataType, nullable, node⟩, [])
  | ⟨.unary op inner, dataType, nullable, node⟩ =>
    let inner := rewriteExpr scope allow inner
    (⟨.unary op inner.1, dataType, nullable, node⟩, inner.2)
  | ⟨.binary op left right, dataType, nullable, node⟩ =>
    let left := rewriteExpr scope allow left
    let right := rewriteExpr scope allow right
    (⟨.binary op left.1 right.1, dataType, nullable, node⟩, left.2 ++ right.2)
  | ⟨.function ⟨function, backendName, args, distinct, filter, over_, signatureName⟩, dataType,
      nullable, node⟩ =>
    let call := ⟨function, backendName, args, distinct, filter, over_, signatureName⟩
    let rewrittenArgs :=
      -- The arguments of a merge function that was written out are not wrapped again.
      if keepArgs scope allow call then (args, []) else rewriteExprs scope allow args
    -- Nothing is wrapped in a filter.
    let filter := rewriteExprOption scope false filter
    let over_ := rewriteWindow scope over_
    (⟨.function ⟨function, backendName, rewrittenArgs.1, distinct, filter.1, over_.1,
      signatureName⟩,
      dataType, nullable, node⟩,
      nearMissEvents scope allow call node ++ rewrittenArgs.2 ++ filter.2 ++ over_.2)
  | ⟨.case operand whenThen elseResult, dataType, nullable, node⟩ =>
    let operand := rewriteExprOption scope allow operand
    let whenThen := rewriteWhenThens scope allow whenThen
    let elseResult := rewriteExprOption scope allow elseResult
    (⟨.case operand.1 whenThen.1 elseResult.1, dataType, nullable, node⟩,
      operand.2 ++ whenThen.2 ++ elseResult.2)
  | ⟨.cast inner castType, dataType, nullable, node⟩ =>
    let inner := rewriteExpr scope allow inner
    (⟨.cast inner.1 castType, dataType, nullable, node⟩, inner.2)
  | ⟨.between input low high negated, dataType, nullable, node⟩ =>
    let input := rewriteExpr scope allow input
    let low := rewriteExpr scope allow low
    let high := rewriteExpr scope allow high
    (⟨.between input.1 low.1 high.1 negated, dataType, nullable, node⟩,
      input.2 ++ low.2 ++ high.2)
  | ⟨.inList input list negated, dataType, nullable, node⟩ =>
    let input := rewriteExpr scope allow input
    let list := rewriteExprs scope allow list
    (⟨.inList input.1 list.1 negated, dataType, nullable, node⟩, input.2 ++ list.2)
  | ⟨.inSubquery input subquery negated, dataType, nullable, node⟩ =>
    let input := rewriteExpr scope allow input
    let subquery := rewriteQueryPlan subquery
    (⟨.inSubquery input.1 subquery.1 negated, dataType, nullable, node⟩, input.2 ++ subquery.2)
  | ⟨.scalarSubquery subquery, dataType, nullable, node⟩ =>
    let subquery := rewriteQueryPlan subquery
    (⟨.scalarSubquery subquery.1, dataType, nullable, node⟩, subquery.2)
  | ⟨.exists subquery, dataType, nullable, node⟩ =>
    let subquery := rewriteQueryPlan subquery
    (⟨.exists subquery.1, dataType, nullable, node⟩, subquery.2)
  | ⟨.like input pattern negated caseInsensitive, dataType, nullable, node⟩ =>
    let input := rewriteExpr scope allow input
    let pattern := rewriteExpr scope allow pattern
    (⟨.like input.1 pattern.1 negated caseInsensitive, dataType, nullable, node⟩,
      input.2 ++ pattern.2)
  | ⟨.isNull inner negated, dataType, nullable, node⟩ =>
    let inner := rewriteExpr scope allow inner
    (⟨.isNull inner.1 negated, dataType, nullable, node⟩, inner.2)
  | ⟨.tuple items, dataType, nullable, node⟩ =>
    let items := rewriteExprs scope allow items
    (⟨.tuple items.1, dataType, nullable, node⟩, items.2)
  | ⟨.array items, dataType, nullable, node⟩ =>
    let items := rewriteExprs scope allow items
    (⟨.array items.1, dataType, nullable, node⟩, items.2)

/-- A list of expressions. -/
def rewriteExprs (scope : Option SelectScope) (allow : Bool) :
    List BoundExpr → List BoundExpr × List MvEvent
  | [] => ([], [])
  | expr :: exprs =>
    let expr := rewriteExpr scope allow expr
    let exprs := rewriteExprs scope allow exprs
    (expr.1 :: exprs.1, expr.2 ++ exprs.2)

/-- An expression, if there is one. -/
def rewriteExprOption (scope : Option SelectScope) (allow : Bool) :
    Option BoundExpr → Option BoundExpr × List MvEvent
  | none => (none, [])
  | some expr =>
    let expr := rewriteExpr scope allow expr
    (some expr.1, expr.2)

/-- The branches of a `CASE`. -/
def rewriteWhenThens (scope : Option SelectScope) (allow : Bool) :
    List BoundWhenThen → List BoundWhenThen × List MvEvent
  | [] => ([], [])
  | ⟨condition, result⟩ :: pairs =>
    let condition := rewriteExpr scope allow condition
    let result := rewriteExpr scope allow result
    let pairs := rewriteWhenThens scope allow pairs
    (⟨condition.1, result.1⟩ :: pairs.1, condition.2 ++ result.2 ++ pairs.2)

/-- A window, if there is one. -/
def rewriteWindow (scope : Option SelectScope) :
    Option BoundWindowSpec → Option BoundWindowSpec × List MvEvent
  | none => (none, [])
  | some ⟨partitionBy, orderBy, node⟩ =>
    let partitionBy := rewriteExprs scope false partitionBy
    let orderBy := rewriteOrderBys scope orderBy
    (some ⟨partitionBy.1, orderBy.1, node⟩, partitionBy.2 ++ orderBy.2)

end

end Rewrite

/-- `rewrite_query_for_clickhouse`. -/
def rewriteQueryForClickhouse (query : BoundQuery) (catalog : Catalog) (enabled : Bool) :
    BoundQuery × ClickHouseMvSummary :=
  let plan := rewriteQueryPlan catalog enabled query.plan
  (query.withPlan plan.1, mvSummary plan.2)

/-! ## What rewriting keeps -/

/-- Without a scope no column is wrapped. -/
@[simp]
theorem columnWrapper_none (allow : Bool) (column : BoundColumnRef) :
    columnWrapper none allow column = none := by
  cases allow <;> rfl

/-- Without a scope no argument is kept. -/
@[simp]
theorem keepArgs_none (allow : Bool) (call : BoundFunctionCall) :
    keepArgs none allow call = false := by
  cases allow <;> rfl

mutual

/-- Rewriting keeps the tables of a relation, and so what it adds to the scope. -/
theorem collectRelationBindings_rewriteRelation (catalog : Catalog) (enabled : Bool) :
    ∀ relation : BoundRelation,
      collectRelationBindings catalog (rewriteRelation catalog enabled relation).1 =
        collectRelationBindings catalog relation
  | .table binding nd => by simp [rewriteRelation]
  | .derived binding query nd => by simp [rewriteRelation, collectRelationBindings]
  | .nestedJoin binding ⟨relation, joins, nd'⟩ nd => by
    simp [rewriteRelation, rewriteTableWithJoins, collectRelationBindings,
      collectRelationBindings_rewriteRelation catalog enabled relation,
      collectJoinBindings_rewriteJoins catalog enabled joins]
  | .unsupported description bindingName nd => by simp [rewriteRelation]

/-- Rewriting keeps the bindings of the joined relations. -/
theorem collectJoinBindings_rewriteJoins (catalog : Catalog) (enabled : Bool) :
    ∀ joins : List BoundJoin,
      collectJoinBindings catalog (rewriteJoins catalog enabled joins).1 =
        collectJoinBindings catalog joins
  | [] => by simp [rewriteJoins]
  | ⟨kind, relation, on, nd⟩ :: joins => by
    simp [rewriteJoins, collectJoinBindings,
      collectRelationBindings_rewriteRelation catalog enabled relation,
      collectJoinBindings_rewriteJoins catalog enabled joins]

end

/-- The scope of a select is that of its rewritten `FROM` clause. -/
theorem scopeFromFromClause_rewriteTables (catalog : Catalog) (enabled : Bool)
    (tables : List BoundTableWithJoins) :
    scopeFromFromClause catalog (rewriteTables catalog enabled tables).1 =
      scopeFromFromClause catalog tables := by
  induction tables with
  | nil => simp [rewriteTables]
  | cons table tables ih =>
    obtain ⟨relation, joins, nd⟩ := table
    simp only [scopeFromFromClause] at ih
    simp [scopeFromFromClause, rewriteTables, rewriteTableWithJoins, ih,
      collectRelationBindings_rewriteRelation, collectJoinBindings_rewriteJoins]

/-- No merge function is `toString`. -/
theorem fromMergeFn_name_ne {name : String} {wrapper : WrapperSpec}
    (h : WrapperSpec.fromMergeFn name = some wrapper) :
    eqIgnoreAsciiCase wrapper.name "toString" = false := by
  unfold WrapperSpec.fromMergeFn at h
  split at h <;> cases h <;> decide

/-- No wrapper is `toString`. -/
theorem columnWrapper_name_ne {scope : Option SelectScope} {allow : Bool} {column : BoundColumnRef}
    {resolved : ResolvedWrapper} (h : columnWrapper scope allow column = some resolved) :
    eqIgnoreAsciiCase resolved.wrapper.name "toString" = false := by
  unfold columnWrapper at h
  split at h
  · obtain ⟨binding, -, hb⟩ := List.exists_of_findSome?_eq_some h
    simp only [SelectScope.bindingWrapper, Option.bind_eq_bind, Option.bind_eq_some_iff] at hb
    obtain ⟨c, -, -, -, m, -, w, hw, hr⟩ := hb
    cases hr
    exact fromMergeFn_name_ne hw
  · cases h

/-- A call that keeps its arguments is a call on one column. -/
theorem args_of_keepArgs {scope : Option SelectScope} {allow : Bool} {call : BoundFunctionCall}
    (h : keepArgs scope allow call = true) :
    ∃ column ty nu nd, call.args = [⟨.column column, ty, nu, nd⟩] := by
  unfold keepArgs at h
  split at h
  · unfold SelectScope.isExistingWrapper at h
    split at h
    · cases h
    · rename_i column hcol
      unfold SelectScope.plainColumnArg at hcol
      split at hcol
      · exact ⟨_, _, _, _, rfl⟩
      · cases hcol
  · cases h

variable (catalog : Catalog)

/-- Rewriting keeps the type of an expression. -/
@[simp]
theorem rewriteExpr_dataType (enabled : Bool) (scope : Option SelectScope) (allow : Bool)
    (e : BoundExpr) : (rewriteExpr catalog enabled scope allow e).1.dataType = e.dataType := by
  obtain ⟨kind, ty, nu, nd⟩ := e
  cases kind with
  | column c => rw [rewriteExpr]; split <;> rfl
  | function call => cases call; rw [rewriteExpr]
  | _ => rw [rewriteExpr]

/-- Rewriting keeps the number of expressions. -/
theorem length_rewriteExprs (enabled : Bool) (scope : Option SelectScope) (allow : Bool)
    (es : List BoundExpr) : (rewriteExprs catalog enabled scope allow es).1.length = es.length := by
  induction es with
  | nil => simp [rewriteExprs]
  | cons e es ih => simp [rewriteExprs, ih]

/-- A `toString` call has one argument and no modifiers. -/
theorem isToStringCall_iff (function : FunctionRef) (backendName : Option FunctionRef)
    (args : List BoundExpr) (distinct : Bool) (filter : Option BoundExpr)
    (over_ : Option BoundWindowSpec) (signatureName : Option String) (ty : DataType) (nu : Bool)
    (nd : SyntaxNode) :
    isToStringCall ⟨.function ⟨function, backendName, args, distinct, filter, over_, signatureName⟩,
      ty, nu, nd⟩ = (function.namespace_.isNone && eqIgnoreAsciiCase function.name "toString" &&
        args.length == 1 && !distinct && filter.isNone && over_.isNone) := by
  rcases args with _ | ⟨a, _ | ⟨b, args⟩⟩ <;> cases distinct <;> cases filter <;> cases over_ <;>
    simp [isToStringCall]

/-- Rewriting neither makes nor unmakes a `toString` call. -/
theorem isToStringCall_rewriteExpr (enabled : Bool) (scope : Option SelectScope) (allow : Bool)
    (e : BoundExpr) :
    isToStringCall (rewriteExpr catalog enabled scope allow e).1 = isToStringCall e := by
  obtain ⟨kind, ty, nu, nd⟩ := e
  cases kind with
  | column c =>
    rw [rewriteExpr]
    split
    · rename_i resolved hres
      simp [isToStringCall, wrapCall, WrapperSpec.functionRef, columnWrapper_name_ne hres]
    · rfl
  | function call =>
    obtain ⟨function, backendName, args, distinct, filter, over_, signatureName⟩ := call
    -- The call keeps its head, and each optional part is there after rewriting when it was before.
    have hargs : ∀ keep : Bool, (if keep then (args, ([] : List MvEvent)) else
        rewriteExprs catalog enabled scope allow args).1.length = args.length := by
      intro keep
      cases keep
      · exact length_rewriteExprs catalog enabled scope allow args
      · rfl
    have hfilter : (rewriteExprOption catalog enabled scope false filter).1.isNone =
        filter.isNone := by
      cases filter <;> simp [rewriteExprOption]
    have hover : (rewriteWindow catalog enabled scope over_).1.isNone = over_.isNone := by
      rcases over_ with _ | ⟨_, _, _⟩ <;> simp [rewriteWindow]
    rw [rewriteExpr, isToStringCall_iff, isToStringCall_iff, hfilter, hover]
    simp only [hargs]
  | _ => simp [rewriteExpr, isToStringCall]

end QueryFabric.ClickHouse
