import QueryFabric.Bind.Places
import QueryFabric.ClickHouse.Rewrite
import QueryFabric.Ir.Nodes

/-!
# The parameters that a plan writes

`parameters` are those of the nodes of a plan, in the order in which they are written. They are the
parameters that binding placed (`placedParameters_query`), and rewriting for ClickHouse neither adds
nor moves one (`parameters_rewriteQueryPlan`).
-/

namespace QueryFabric.Render

open QueryFabric.Bind ClickHouse

/-- The parameter of a node. -/
def parameter? : PlanNode → Option ParameterRef
  | .expr ⟨.parameter reference, _, _, _⟩ => some reference
  | _ => none

/-- The parameters of some nodes. -/
def parameters (nodes : List PlanNode) : List ParameterRef := nodes.filterMap parameter?

/-- The parameter of a place. -/
def placedParameter? : Placed → Option ParameterRef
  | .parameter reference => some reference
  | .column .. => none

/-- The parameters of some places. -/
def placedParameters (placed : List Placed) : List ParameterRef := placed.filterMap placedParameter?

/-- The parameters of two lists of nodes are those of the first and then those of the second. -/
@[simp]
theorem parameters_append (ns ms : List PlanNode) :
    parameters (ns ++ ms) = parameters ns ++ parameters ms :=
  List.filterMap_append

/-- The first node's parameter comes first. -/
theorem parameters_cons (n : PlanNode) (ns : List PlanNode) :
    parameters (n :: ns) = (parameter? n).toList ++ parameters ns := by
  rw [parameters, List.filterMap_cons]
  cases parameter? n <;> rfl

/-- No node has no parameter. -/
@[simp]
theorem parameters_nil : parameters [] = [] := rfl

/-- Nodes that are no parameter have none. -/
theorem parameters_map {α : Type} {f : α → PlanNode} (hf : ∀ a, parameter? (f a) = none)
    (as : List α) :
    parameters (as.map f) = [] := by
  rw [parameters, List.filterMap_eq_nil_iff]
  intro n hn
  obtain ⟨a, -, rfl⟩ := List.mem_map.mp hn
  exact hf a

/-- Identifiers are no parameters. -/
@[simp]
theorem parameters_identifiers (values : List String) : parameters (values.map .identifier) = [] :=
  parameters_map (fun _ => rfl) values

/-- Qualified names are no parameters. -/
@[simp]
theorem parameters_qualifiedNames (values : List String) :
    parameters (values.map .qualifiedName) = [] :=
  parameters_map (fun _ => rfl) values

/-- Backend clauses are no parameters. -/
@[simp]
theorem parameters_clauses (clauses : List BackendClause) : parameters (clauses.map .clause) = [] :=
  parameters_map (fun _ => rfl) clauses

/-- The nodes of a table have no parameter. -/
@[simp]
theorem parameters_tableNodes (binding : BoundRelationBinding) :
    parameters (tableNodes binding) = [] := by
  unfold tableNodes
  cases binding.relationName with
  | none => rfl
  | some name =>
    dsimp only
    split <;> simp [parameters_cons, parameter?]

/-- The parameters placed in two lists are those of the first and then those of the second. -/
@[simp]
theorem placedParameters_append (placed placed' : List Placed) :
    placedParameters (placed ++ placed') = placedParameters placed ++ placedParameters placed' :=
  List.filterMap_append

/-- Nothing placed has no parameter. -/
@[simp]
theorem placedParameters_nil : placedParameters [] = [] := rfl

/-- A parameter is placed where it stands in the list. -/
theorem mem_placedParameters {placed : List Placed} {reference : ParameterRef} :
    reference ∈ placedParameters placed ↔ .parameter reference ∈ placed := by
  simp only [placedParameters, List.mem_filterMap]
  constructor
  · rintro ⟨place, hplace, heq⟩
    cases place with
    | column => cases heq
    | parameter r =>
      cases heq
      exact hplace
  · exact fun h => ⟨_, h, rfl⟩

/-! ## Those that binding placed -/

mutual

/-- The parameters placed in a query are those of its nodes, in order. -/
theorem placedParameters_query :
    ∀ q : BoundQueryPlan, placedParameters (queryPlaced q) = parameters (queryNodes q)
  | ⟨_, ctes, body, orderBy, limit, offset, clauses, _⟩ => by
    simp only [queryNodes, queryPlaced, parameters_append, placedParameters_append,
      parameters_clauses, placedParameters_ctes ctes, placedParameters_setExpr body,
      placedParameters_orderBys _ orderBy, placedParameters_option _ limit,
      placedParameters_option _ offset, List.append_assoc, List.append_nil]
termination_by structural x => x

/-- The parameters placed in the CTEs are those of their nodes. -/
theorem placedParameters_ctes : ∀ ctes : List BoundCte,
    placedParameters (ctesPlaced ctes) = parameters (cteNodes ctes)
  | [] => by rw [cteNodes, ctesPlaced]; rfl
  | ⟨_, _, query, _, _⟩ :: ctes => by
    simp only [cteNodes, ctesPlaced, List.cons_append, parameters_cons, parameter?,
      Option.toList_none, List.nil_append, parameters_append, parameters_identifiers,
      placedParameters_append, placedParameters_query query, placedParameters_ctes ctes]
termination_by structural x => x

/-- The parameters placed in a set expression are those of its nodes. -/
theorem placedParameters_setExpr : ∀ s : BoundSetExpr,
    placedParameters (setExprPlaced s) = parameters (setExprNodes s)
  | .select s => by
    rw [setExprNodes, setExprPlaced]
    exact placedParameters_select s
  | .unionAll left right _ _ => by
    simp only [setExprNodes, setExprPlaced, parameters_append, placedParameters_append,
      placedParameters_setExpr left, placedParameters_setExpr right]
  | .unsupported .. => by rw [setExprNodes, setExprPlaced]; rfl
termination_by structural x => x

/-- The parameters placed in a select are those of its nodes. -/
theorem placedParameters_select :
    ∀ s : BoundSelect, placedParameters (selectPlaced s) = parameters (selectNodes s)
  | ⟨_, projection, from_, selection, groupBy, having, _, _⟩ => by
    simp only [selectNodes, selectPlaced, parameters_append, placedParameters_append,
      placedParameters_projections _ projection, placedParameters_tables _ from_,
      placedParameters_option _ selection, placedParameters_exprs _ groupBy,
      placedParameters_option _ having, List.append_assoc]
termination_by structural x => x

/-- The parameters placed in a projection are those of its nodes. -/
theorem placedParameters_projections (scope : Scope) : ∀ items : List BoundProjectionItem,
    placedParameters (projectionPlaced scope items) = parameters (projectionNodes items)
  | [] => by rw [projectionNodes, projectionPlaced]; rfl
  | .expr ⟨expr, _, _, _⟩ :: items => by
    simp only [projectionNodes, projectionPlaced, parameters_append, placedParameters_append,
      parameters_identifiers, List.append_nil, placedParameters_expr scope expr,
      placedParameters_projections scope items]
  | .wildcard .. :: items => by
    simp only [projectionNodes, projectionPlaced, parameters_append, parameters_qualifiedNames,
      List.nil_append, placedParameters_projections scope items]
  | .unsupported .. :: items => by
    simp only [projectionNodes, projectionPlaced, placedParameters_projections scope items]
termination_by structural x => x

/-- The parameters placed in the tables of a `FROM` are those of their nodes. -/
theorem placedParameters_tables (before : Scope) : ∀ tables : List BoundTableWithJoins,
    placedParameters (tablesPlaced before tables) = parameters (tablesNodes tables)
  | [] => by rw [tablesNodes, tablesPlaced]; rfl
  | ⟨relation, joins, _⟩ :: tables => by
    simp only [tablesNodes, tableWithJoinsNodes, tablesPlaced, parameters_append,
      placedParameters_append, placedParameters_relation before relation,
      placedParameters_joins _ joins, placedParameters_tables _ tables, List.append_assoc]
termination_by structural x => x

/-- The parameters placed in the joins are those of their nodes. -/
theorem placedParameters_joins (before : Scope) : ∀ joins : List BoundJoin,
    placedParameters (joinsPlaced before joins) = parameters (joinNodes joins)
  | [] => by rw [joinNodes, joinsPlaced]; rfl
  | ⟨_, relation, on, _⟩ :: joins => by
    simp only [joinNodes, joinsPlaced, parameters_append, placedParameters_append,
      placedParameters_relation before relation, placedParameters_option _ on,
      placedParameters_joins _ joins, List.append_assoc]
termination_by structural x => x

/-- The parameters placed in a relation are those of its nodes. -/
theorem placedParameters_relation (before : Scope) : ∀ relation : BoundRelation,
    placedParameters (relationPlaced before relation) = parameters (relationNodes relation)
  | .table .. => by
    rw [relationNodes, relationPlaced]
    exact (parameters_tableNodes _).symm
  | .derived _ query _ => by
    simp only [relationNodes, relationPlaced, parameters_append, parameters_cons, parameter?,
      Option.toList_none, parameters_nil, List.append_nil, placedParameters_query query]
  | .nestedJoin _ ⟨relation, joins, _⟩ _ => by
    simp only [relationNodes, tableWithJoinsNodes, relationPlaced, parameters_append,
      placedParameters_append, parameters_cons, parameter?, Option.toList_none, parameters_nil,
      List.append_nil, placedParameters_relation before relation, placedParameters_joins _ joins]
  | .unsupported .. => by rw [relationNodes, relationPlaced]; rfl
termination_by structural x => x

/-- The parameters placed in an `ORDER BY` are those of its nodes. -/
theorem placedParameters_orderBys (scope : Scope) : ∀ orders : List BoundOrderByExpr,
    placedParameters (orderByPlaced scope orders) = parameters (orderByNodes orders)
  | [] => by rw [orderByNodes, orderByPlaced]; rfl
  | ⟨expr, _, _, _⟩ :: orders => by
    simp only [orderByNodes, orderByPlaced, parameters_append, placedParameters_append,
      placedParameters_expr scope expr, placedParameters_orderBys scope orders]
termination_by structural x => x

/-- The parameters placed in an expression are those of its nodes. -/
theorem placedParameters_expr (scope : Scope) : ∀ e : BoundExpr,
    placedParameters (exprPlaced scope e) = parameters (exprNodes e)
  -- One case per constructor: both sides list the parameters in the order of the text.
  | ⟨.column column, _, _, _⟩ => by
    simp only [exprNodes, exprPlaced, parameters_cons, parameter?, Option.toList_none,
      List.nil_append, parameters_append, parameters_qualifiedNames, parameters_nil]
    rfl
  | ⟨.literal _, _, _, _⟩ => by rw [exprNodes, exprPlaced]; rfl
  | ⟨.parameter _, _, _, _⟩ => by rw [exprNodes, exprPlaced]; rfl
  | ⟨.unary _ expr, _, _, _⟩ => by
    simp only [exprNodes, exprPlaced, parameters_cons, parameter?, Option.toList_none,
      List.nil_append, placedParameters_expr scope expr]
  | ⟨.binary _ left right, _, _, _⟩ => by
    simp only [exprNodes, exprPlaced, parameters_cons, parameter?, Option.toList_none,
      List.nil_append, parameters_append, placedParameters_append, placedParameters_expr scope left,
      placedParameters_expr scope right]
  | ⟨.function ⟨_, _, args, _, filter, over_, _⟩, _, _, _⟩ => by
    simp only [exprNodes, exprPlaced, parameters_cons, parameter?, Option.toList_none,
      List.nil_append, parameters_append, placedParameters_append,
      placedParameters_exprs scope args, placedParameters_option scope filter,
      placedParameters_window scope over_, List.append_assoc]
  | ⟨.case operand whenThen elseResult, _, _, _⟩ => by
    simp only [exprNodes, exprPlaced, parameters_cons, parameter?, Option.toList_none,
      List.nil_append, parameters_append, placedParameters_append,
      placedParameters_option scope operand, placedParameters_whenThens scope whenThen,
      placedParameters_option scope elseResult, List.append_assoc]
  | ⟨.cast expr _, _, _, _⟩ => by
    simp only [exprNodes, exprPlaced, parameters_cons, parameter?, Option.toList_none,
      List.nil_append, placedParameters_expr scope expr]
  | ⟨.between expr low high _, _, _, _⟩ => by
    simp only [exprNodes, exprPlaced, parameters_cons, parameter?, Option.toList_none,
      List.nil_append, parameters_append, placedParameters_append, placedParameters_expr scope expr,
      placedParameters_expr scope low, placedParameters_expr scope high, List.append_assoc]
  | ⟨.inList expr list _, _, _, _⟩ => by
    simp only [exprNodes, exprPlaced, parameters_cons, parameter?, Option.toList_none,
      List.nil_append, parameters_append, placedParameters_append, placedParameters_expr scope expr,
      placedParameters_exprs scope list]
  | ⟨.inSubquery expr subquery _, _, _, _⟩ => by
    simp only [exprNodes, exprPlaced, parameters_cons, parameter?, Option.toList_none,
      List.nil_append, parameters_append, placedParameters_append, placedParameters_expr scope expr,
      placedParameters_query subquery]
  | ⟨.scalarSubquery subquery, _, _, _⟩ => by
    simp only [exprNodes, exprPlaced, parameters_cons, parameter?, Option.toList_none,
      List.nil_append, placedParameters_query subquery]
  | ⟨.exists subquery, _, _, _⟩ => by
    simp only [exprNodes, exprPlaced, parameters_cons, parameter?, Option.toList_none,
      List.nil_append, placedParameters_query subquery]
  | ⟨.like expr pattern _ _, _, _, _⟩ => by
    simp only [exprNodes, exprPlaced, parameters_cons, parameter?, Option.toList_none,
      List.nil_append, parameters_append, placedParameters_append, placedParameters_expr scope expr,
      placedParameters_expr scope pattern]
  | ⟨.isNull expr _, _, _, _⟩ => by
    simp only [exprNodes, exprPlaced, parameters_cons, parameter?, Option.toList_none,
      List.nil_append, placedParameters_expr scope expr]
  | ⟨.tuple items, _, _, _⟩ => by
    simp only [exprNodes, exprPlaced, parameters_cons, parameter?, Option.toList_none,
      List.nil_append, placedParameters_exprs scope items]
  | ⟨.array items, _, _, _⟩ => by
    simp only [exprNodes, exprPlaced, parameters_cons, parameter?, Option.toList_none,
      List.nil_append, placedParameters_exprs scope items]
  | ⟨.unsupported _, _, _, _⟩ => by rw [exprNodes, exprPlaced]; rfl
termination_by structural x => x

/-- The parameters placed in a list of expressions are those of its nodes. -/
theorem placedParameters_exprs (scope : Scope) : ∀ es : List BoundExpr,
    placedParameters (exprsPlaced scope es) = parameters (exprsNodes es)
  | [] => by rw [exprsNodes, exprsPlaced]; rfl
  | e :: es => by
    simp only [exprsNodes, exprsPlaced, parameters_append, placedParameters_append,
      placedParameters_expr scope e, placedParameters_exprs scope es]
termination_by structural x => x

/-- The parameters placed in an optional expression are those of its nodes. -/
theorem placedParameters_option (scope : Scope) : ∀ o : Option BoundExpr,
    placedParameters (optionPlaced scope o) = parameters (exprOptionNodes o)
  | none => by rw [exprOptionNodes, optionPlaced]; rfl
  | some e => by
    rw [exprOptionNodes, optionPlaced]
    exact placedParameters_expr scope e
termination_by structural x => x

/-- The parameters placed in the branches of a `CASE` are those of their nodes. -/
theorem placedParameters_whenThens (scope : Scope) : ∀ ws : List BoundWhenThen,
    placedParameters (whenThenPlaced scope ws) = parameters (whenThenNodes ws)
  | [] => by rw [whenThenNodes, whenThenPlaced]; rfl
  | ⟨condition, result⟩ :: ws => by
    simp only [whenThenNodes, whenThenPlaced, parameters_append, placedParameters_append,
      placedParameters_expr scope condition, placedParameters_expr scope result,
      placedParameters_whenThens scope ws, List.append_assoc]
termination_by structural x => x

/-- The parameters placed in a window are those of its nodes. -/
theorem placedParameters_window (scope : Scope) : ∀ o : Option BoundWindowSpec,
    placedParameters (windowPlaced scope o) = parameters (windowNodes o)
  | none => by rw [windowNodes, windowPlaced]; rfl
  | some ⟨partitionBy, orderBy, _⟩ => by
    simp only [windowNodes, windowPlaced, parameters_append, placedParameters_append,
      placedParameters_exprs scope partitionBy, placedParameters_orderBys scope orderBy]
termination_by structural x => x

end

/-! ## Rewriting -/

section Rewriting

variable (catalog : Catalog) (enabled : Bool)

/-- A call around an expression writes no parameter of its own. -/
theorem parameters_wrapCall (function : FunctionRef) (e : BoundExpr) (type : DataType)
    (nullable : Bool) (node : SyntaxNode) :
    parameters (exprNodes ⟨wrapCall function e, type, nullable, node⟩) =
      parameters (exprNodes e) := by
  simp only [wrapCall, exprNodes, exprsNodes, exprOptionNodes, windowNodes, parameters_cons,
    parameter?, Option.toList_none, List.nil_append, List.append_nil]

/-- Rewriting a UUID for Arrow keeps the parameters of an expression. -/
theorem parameters_rewriteUuidArrowExpr (e : BoundExpr) :
    parameters (exprNodes (rewriteUuidArrowExpr e enabled).1) = parameters (exprNodes e) := by
  unfold rewriteUuidArrowExpr
  split
  · rfl
  · exact parameters_wrapCall _ _ _ _ _

/-- Rewriting the UUIDs of a `GROUP BY` keeps its parameters. -/
theorem parameters_groupBy (es : List BoundExpr) :
    parameters (exprsNodes (es.map fun e => (rewriteUuidArrowExpr e enabled).1)) =
      parameters (exprsNodes es) := by
  induction es with
  | nil => rfl
  | cons e es ih =>
    rw [List.map_cons, exprsNodes, exprsNodes, parameters_append, parameters_append, ih,
      parameters_rewriteUuidArrowExpr]

/-- The nodes of a projection are those of its first items and then those of the rest. -/
theorem projectionNodes_append (items items' : List BoundProjectionItem) :
    projectionNodes (items ++ items') = projectionNodes items ++ projectionNodes items' := by
  induction items with
  | nil => rfl
  | cons item items ih =>
    cases item with
    | expr details =>
      cases details
      simp only [List.cons_append, projectionNodes, ih, List.append_assoc]
    | wildcard qualifier fields node =>
      simp only [List.cons_append, projectionNodes, ih, List.append_assoc]
    | unsupported description node => simp only [List.cons_append, projectionNodes, ih]

/-- The columns that a wildcard expands to have no parameter. -/
theorem parameters_expandFields (bindingName : String) (node : SyntaxNode)
    (fields : List ResultField) :
    parameters (projectionNodes (fields.map (expandField bindingName node enabled))) = [] := by
  induction fields with
  | nil => rfl
  | cons field fields ih =>
    simp only [List.map_cons, expandField, projectionNodes, parameters_append,
      parameters_identifiers, ih, parameters_rewriteUuidArrowExpr, exprNodes, parameters_cons,
      parameter?, Option.toList_none, List.nil_append, parameters_qualifiedNames, parameters_nil]

/-- Expanding a wildcard adds no parameter. -/
theorem parameters_expandWildcard (scope : SelectScope) (qualifier : Option String)
    (fields : List ResultField) (node : SyntaxNode) :
    parameters (projectionNodes ((expandWildcardProjection qualifier fields node scope enabled).getD
      [.wildcard qualifier fields node])) = [] := by
  unfold expandWildcardProjection
  cases scope.targetBindingName qualifier with
  | none =>
    rw [Option.bind_eq_bind, Option.bind_none, Option.getD_none, projectionNodes, projectionNodes,
      List.append_nil]
    exact parameters_qualifiedNames _
  | some bindingName => exact parameters_expandFields enabled bindingName node fields

mutual

/-- Rewriting a query for ClickHouse keeps its parameters. -/
theorem parameters_rewriteQueryPlan : ∀ q : BoundQueryPlan,
    parameters (queryNodes (rewriteQueryPlan catalog enabled q).1) = parameters (queryNodes q)
  | ⟨_, ctes, body, orderBy, limit, offset, clauses, _⟩ => by
    simp only [rewriteQueryPlan, queryNodes, parameters_append, parameters_rewriteCtes ctes,
      parameters_rewriteSetExpr body, parameters_rewriteOrderBys none orderBy,
      parameters_rewriteExprOption none false limit, parameters_rewriteExprOption none false offset]

/-- Rewriting the CTEs keeps their parameters. -/
theorem parameters_rewriteCtes : ∀ ctes : List BoundCte,
    parameters (cteNodes (rewriteCtes catalog enabled ctes).1) = parameters (cteNodes ctes)
  | [] => by rw [rewriteCtes]
  | ⟨_, _, query, _, _⟩ :: ctes => by
    simp only [rewriteCtes, cteNodes, List.cons_append, parameters_cons, parameters_append,
      parameters_rewriteQueryPlan query, parameters_rewriteCtes ctes]

/-- Rewriting a set expression keeps its parameters. -/
theorem parameters_rewriteSetExpr : ∀ s : BoundSetExpr,
    parameters (setExprNodes (rewriteSetExpr catalog enabled s).1) = parameters (setExprNodes s)
  | .select s => by simp only [rewriteSetExpr, setExprNodes, parameters_rewriteSelect s]
  | .unionAll left right _ _ => by
    simp only [rewriteSetExpr, setExprNodes, parameters_append, parameters_rewriteSetExpr left,
      parameters_rewriteSetExpr right]
  | .unsupported .. => by rw [rewriteSetExpr]

/-- Rewriting a select keeps its parameters. -/
theorem parameters_rewriteSelect : ∀ s : BoundSelect,
    parameters (selectNodes (rewriteSelect catalog enabled s).1) = parameters (selectNodes s)
  | ⟨_, projection, from_, selection, groupBy, having, _, _⟩ => by
    simp only [rewriteSelect, selectNodes, parameters_append, parameters_groupBy,
      parameters_rewriteProjections _ projection, parameters_rewriteTables from_,
      parameters_rewriteExprOption _ false selection, parameters_rewriteExprs _ false groupBy,
      parameters_rewriteExprOption _ true having]

/-- Rewriting a projection keeps its parameters. -/
theorem parameters_rewriteProjections (scope : SelectScope) : ∀ items : List BoundProjectionItem,
    parameters (projectionNodes (rewriteProjections catalog enabled scope items).1) =
      parameters (projectionNodes items)
  | [] => by rw [rewriteProjections]
  | .expr ⟨expr, _, _, _⟩ :: items => by
    simp only [rewriteProjections, rewriteProjectionExpr, projectionNodes, parameters_append,
      parameters_identifiers, parameters_rewriteUuidArrowExpr,
      parameters_rewriteExpr (some scope) true expr, parameters_rewriteProjections scope items]
  | .wildcard qualifier fields _ :: items => by
    simp only [rewriteProjections, projectionNodes_append, projectionNodes, parameters_append,
      parameters_expandWildcard, parameters_qualifiedNames,
      parameters_rewriteProjections scope items]
  | .unsupported .. :: items => by
    simp only [rewriteProjections, projectionNodes, parameters_rewriteProjections scope items]

/-- Rewriting the tables of a `FROM` keeps their parameters. -/
theorem parameters_rewriteTables : ∀ tables : List BoundTableWithJoins,
    parameters (tablesNodes (rewriteTables catalog enabled tables).1) =
      parameters (tablesNodes tables)
  | [] => by rw [rewriteTables]
  | table :: tables => by
    simp only [rewriteTables, tablesNodes, parameters_append,
      parameters_rewriteTableWithJoins table, parameters_rewriteTables tables]

/-- Rewriting a table with its joins keeps their parameters. -/
theorem parameters_rewriteTableWithJoins : ∀ table : BoundTableWithJoins,
    parameters (tableWithJoinsNodes (rewriteTableWithJoins catalog enabled table).1) =
      parameters (tableWithJoinsNodes table)
  | ⟨relation, joins, _⟩ => by
    simp only [rewriteTableWithJoins, tableWithJoinsNodes, parameters_append,
      parameters_rewriteRelation relation, parameters_rewriteJoins joins]

/-- Rewriting the joins keeps their parameters. -/
theorem parameters_rewriteJoins : ∀ joins : List BoundJoin,
    parameters (joinNodes (rewriteJoins catalog enabled joins).1) = parameters (joinNodes joins)
  | [] => by rw [rewriteJoins]
  | ⟨_, relation, on, _⟩ :: joins => by
    simp only [rewriteJoins, joinNodes, parameters_append, parameters_rewriteRelation relation,
      parameters_rewriteExprOption none false on, parameters_rewriteJoins joins]

/-- Rewriting a relation keeps its parameters. -/
theorem parameters_rewriteRelation : ∀ relation : BoundRelation,
    parameters (relationNodes (rewriteRelation catalog enabled relation).1) =
      parameters (relationNodes relation)
  | .table .. => by rw [rewriteRelation]
  | .derived _ query _ => by
    simp only [rewriteRelation, relationNodes, parameters_append, parameters_rewriteQueryPlan query]
  | .nestedJoin _ table _ => by
    simp only [rewriteRelation, relationNodes, parameters_append,
      parameters_rewriteTableWithJoins table]
  | .unsupported .. => by rw [rewriteRelation]

/-- Rewriting an `ORDER BY` keeps its parameters. -/
theorem parameters_rewriteOrderBys (scope : Option SelectScope) : ∀ orders : List BoundOrderByExpr,
    parameters (orderByNodes (rewriteOrderBys catalog enabled scope orders).1) =
      parameters (orderByNodes orders)
  | [] => by rw [rewriteOrderBys]
  | ⟨expr, _, _, _⟩ :: orders => by
    simp only [rewriteOrderBys, rewriteOrderByExpr, orderByNodes, parameters_append,
      parameters_rewriteExpr scope false expr, parameters_rewriteOrderBys scope orders]

/-- Rewriting an expression keeps its parameters. -/
theorem parameters_rewriteExpr (scope : Option SelectScope) (allow : Bool) : ∀ e : BoundExpr,
    parameters (exprNodes (rewriteExpr catalog enabled scope allow e).1) = parameters (exprNodes e)
  -- One case per constructor: only a wrapped column changes, and its wrapper has no parameter.
  | ⟨.column column, _, _, _⟩ => by
    rw [rewriteExpr]
    cases columnWrapper scope allow column with
    | none => rfl
    | some resolved => exact parameters_wrapCall _ _ _ _ _
  | ⟨.literal _, _, _, _⟩ => by rw [rewriteExpr]
  | ⟨.parameter _, _, _, _⟩ => by rw [rewriteExpr]
  | ⟨.unsupported _, _, _, _⟩ => by rw [rewriteExpr]
  | ⟨.unary _ x, _, _, _⟩ => by
    simp only [rewriteExpr, exprNodes, parameters_cons, parameter?,
      parameters_rewriteExpr scope allow x]
  | ⟨.binary _ x y, _, _, _⟩ => by
    simp only [rewriteExpr, exprNodes, parameters_cons, parameter?, parameters_append,
      parameters_rewriteExpr scope allow x, parameters_rewriteExpr scope allow y]
  | ⟨.function ⟨function, _, args, _, filter, over_, _⟩, _, _, _⟩ => by
    -- The arguments are kept or rewritten; either way their parameters stay.
    have hargs (kept : Bool) : parameters (exprsNodes (if kept then (args, ([] : List MvEvent))
        else rewriteExprs catalog enabled scope allow args).1) = parameters (exprsNodes args) := by
      cases kept
      · exact parameters_rewriteExprs scope allow args
      · rfl
    simp only [rewriteExpr, exprNodes, parameters_cons, parameter?, parameters_append, hargs,
      parameters_rewriteExprOption scope false filter, parameters_rewriteWindow scope over_]
  | ⟨.case operand whenThen elseResult, _, _, _⟩ => by
    simp only [rewriteExpr, exprNodes, parameters_cons, parameter?, parameters_append,
      parameters_rewriteExprOption scope allow operand,
      parameters_rewriteWhenThens scope allow whenThen,
      parameters_rewriteExprOption scope allow elseResult]
  | ⟨.cast x _, _, _, _⟩ => by
    simp only [rewriteExpr, exprNodes, parameters_cons, parameter?,
      parameters_rewriteExpr scope allow x]
  | ⟨.between x low high _, _, _, _⟩ => by
    simp only [rewriteExpr, exprNodes, parameters_cons, parameter?, parameters_append,
      parameters_rewriteExpr scope allow x, parameters_rewriteExpr scope allow low,
      parameters_rewriteExpr scope allow high]
  | ⟨.inList x list _, _, _, _⟩ => by
    simp only [rewriteExpr, exprNodes, parameters_cons, parameter?, parameters_append,
      parameters_rewriteExpr scope allow x, parameters_rewriteExprs scope allow list]
  | ⟨.inSubquery x query _, _, _, _⟩ => by
    simp only [rewriteExpr, exprNodes, parameters_cons, parameter?, parameters_append,
      parameters_rewriteExpr scope allow x, parameters_rewriteQueryPlan query]
  | ⟨.scalarSubquery query, _, _, _⟩ => by
    simp only [rewriteExpr, exprNodes, parameters_cons, parameter?,
      parameters_rewriteQueryPlan query]
  | ⟨.exists query, _, _, _⟩ => by
    simp only [rewriteExpr, exprNodes, parameters_cons, parameter?,
      parameters_rewriteQueryPlan query]
  | ⟨.like x pattern _ _, _, _, _⟩ => by
    simp only [rewriteExpr, exprNodes, parameters_cons, parameter?, parameters_append,
      parameters_rewriteExpr scope allow x, parameters_rewriteExpr scope allow pattern]
  | ⟨.isNull x _, _, _, _⟩ => by
    simp only [rewriteExpr, exprNodes, parameters_cons, parameter?,
      parameters_rewriteExpr scope allow x]
  | ⟨.tuple items, _, _, _⟩ => by
    simp only [rewriteExpr, exprNodes, parameters_cons, parameter?,
      parameters_rewriteExprs scope allow items]
  | ⟨.array items, _, _, _⟩ => by
    simp only [rewriteExpr, exprNodes, parameters_cons, parameter?,
      parameters_rewriteExprs scope allow items]

/-- Rewriting a list of expressions keeps its parameters. -/
theorem parameters_rewriteExprs (scope : Option SelectScope) (allow : Bool) : ∀ es : List BoundExpr,
    parameters (exprsNodes (rewriteExprs catalog enabled scope allow es).1) =
      parameters (exprsNodes es)
  | [] => by rw [rewriteExprs]
  | e :: es => by
    simp only [rewriteExprs, exprsNodes, parameters_append, parameters_rewriteExpr scope allow e,
      parameters_rewriteExprs scope allow es]

/-- Rewriting an optional expression keeps its parameters. -/
theorem parameters_rewriteExprOption (scope : Option SelectScope) (allow : Bool) :
    ∀ o : Option BoundExpr,
    parameters (exprOptionNodes (rewriteExprOption catalog enabled scope allow o).1) =
      parameters (exprOptionNodes o)
  | none => by rw [rewriteExprOption]
  | some e => by simp only [rewriteExprOption, exprOptionNodes,
      parameters_rewriteExpr scope allow e]

/-- Rewriting the branches of a `CASE` keeps their parameters. -/
theorem parameters_rewriteWhenThens (scope : Option SelectScope) (allow : Bool) :
    ∀ ws : List BoundWhenThen,
    parameters (whenThenNodes (rewriteWhenThens catalog enabled scope allow ws).1) =
      parameters (whenThenNodes ws)
  | [] => by rw [rewriteWhenThens]
  | ⟨condition, result⟩ :: ws => by
    simp only [rewriteWhenThens, whenThenNodes, parameters_append,
      parameters_rewriteExpr scope allow condition, parameters_rewriteExpr scope allow result,
      parameters_rewriteWhenThens scope allow ws]

/-- Rewriting a window keeps its parameters. -/
theorem parameters_rewriteWindow (scope : Option SelectScope) : ∀ o : Option BoundWindowSpec,
    parameters (windowNodes (rewriteWindow catalog enabled scope o).1) = parameters (windowNodes o)
  | none => by rw [rewriteWindow]
  | some ⟨partitionBy, orderBy, _⟩ => by
    simp only [rewriteWindow, windowNodes, parameters_append,
      parameters_rewriteExprs scope false partitionBy, parameters_rewriteOrderBys scope orderBy]

end

end Rewriting

end QueryFabric.Render
