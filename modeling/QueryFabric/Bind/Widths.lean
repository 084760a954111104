import QueryFabric.Bind.Query
import QueryFabric.Ir.Budget
import QueryFabric.Lib.Yields

/-!
# How many columns binding makes

A wildcard is bound to all the columns in its scope (`bind_select` of
`crates/queryfabric-catalog/src/bind/query.rs`), and nothing limits how many these are but the
number of syntax nodes that the budget counts (`crates/queryfabric-ir/src/budget.rs`).
`columns_bindQuery` is the limit: over relations of at most `base` columns, a query of `n` nodes has
at most `base ^ n` columns, whatever it is and whether it is accepted or not.
-/

set_option linter.unusedSectionVars false

namespace QueryFabric.Bind

open Lib

/-! ## Widths -/

/-- The number of columns of a scope. -/
def Scope.width (scope : Scope) : Nat := scope.expandAll.length

/-- The number of columns of a relation. -/
def relationWidth (relation : BoundRelation) : Nat :=
  (relation.binding.map fun binding => binding.schema.fields.length).getD 0

/-- The number of columns of a table with its joins. -/
def tableWidth (table : BoundTableWithJoins) : Nat :=
  relationWidth table.relation + (table.joins.map fun join => relationWidth join.relation).sum

/-- A relation adds its columns to the width of a scope. -/
theorem width_pushRelation (scope : Scope) (relation : BoundRelation) :
    (scope.pushRelation relation).width = scope.width + relationWidth relation := by
  unfold Scope.pushRelation relationWidth Scope.width Scope.expandAll
  split
  · rename_i binding hbinding
    rw [hbinding, List.flatMap_append, List.length_append, List.flatMap_singleton]
    rfl
  · rename_i hbinding
    rw [hbinding]
    rfl

/-- A table adds its columns to the width of a scope. -/
theorem width_mergeTable (scope : Scope) (table : BoundTableWithJoins) :
    (scope.mergeTable table).width = scope.width + tableWidth table := by
  have hjoins : ∀ (joins : List BoundJoin) (scope : Scope),
      (joins.foldl (fun scope join => scope.pushRelation join.relation) scope).width =
        scope.width + (joins.map fun join => relationWidth join.relation).sum := by
    intro joins
    induction joins with
    | nil => exact fun _ => rfl
    | cons join joins ih =>
      intro scope
      rw [List.foldl_cons, ih, width_pushRelation, List.map_cons, List.sum_cons, Nat.add_assoc]
  unfold Scope.mergeTable tableWidth
  rw [hjoins, width_pushRelation, Nat.add_assoc]

/-- A relation that becomes nullable is as wide. -/
theorem relationWidth_makeRelationNullable (relation : BoundRelation) :
    relationWidth (makeRelationNullable relation) = relationWidth relation := by
  cases relation <;>
    simp [relationWidth, makeRelationNullable, BoundRelation.binding, makeSchemaNullable]

/-- Joins that become nullable are as wide. -/
theorem sum_makeJoinRelationsNullable (joins : List BoundJoin) :
    ((makeJoinRelationsNullable joins).map fun join => relationWidth join.relation).sum =
      (joins.map fun join => relationWidth join.relation).sum := by
  unfold makeJoinRelationsNullable
  rw [List.map_map]
  exact congrArg _
    (List.map_congr_left fun join _ => relationWidth_makeRelationNullable join.relation)

/-- The schema of a table has all its columns. -/
theorem length_scopeSchemaForTable (table : BoundTableWithJoins) :
    (scopeSchemaForTable table).fields.length = tableWidth table := by
  unfold scopeSchemaForTable tableWidth ResultSchema.new
  dsimp only
  rw [List.length_append, List.length_flatMap]
  refine congrArg₂ _ ?_ (congrArg _ (List.map_congr_left fun join _ => ?_))
  · unfold relationWidth
    cases table.relation.binding <;> rfl
  · unfold relationWidth
    cases join.relation.binding <;> rfl

/-- The number of columns of the tables in a state of the loop over joins. -/
def JoinState.width (state : JoinState) : Nat :=
  relationWidth state.relation + (state.joins.map fun join => relationWidth join.relation).sum

/-- A join adds the columns of its relation. -/
theorem JoinState.width_addJoin (state : JoinState) (kind : JoinKind) (joined : BoundRelation)
    (on : Option BoundExpr)
    (node : SyntaxNode) : (state.addJoin kind joined on node).width = state.width +
      relationWidth joined := by
  unfold JoinState.width JoinState.addJoin
  cases kind <;>
    simp only [List.map_append, List.sum_append, List.map_cons, List.map_nil, List.sum_cons,
      List.sum_nil, relationWidth_makeRelationNullable, sum_makeJoinRelationsNullable] <;>
    omega

/-- The schema of a CTE has as many columns as its query. -/
theorem length_cteSchema (columns : List String) (schema : ResultSchema) :
    (cteSchema columns schema).fields.length = schema.fields.length := by
  unfold cteSchema
  split
  · rename_i hcolumns
    have hlength : columns.length = schema.fields.length := by
      have := (Bool.and_eq_true_iff.mp hcolumns).2
      exact beq_iff_eq.mp this
    rw [List.length_map, List.length_zip, hlength, Nat.min_self]
  · rfl

/-- The schema of a union has no more columns than its first branch. -/
theorem length_unionSchema_le (left right : ResultSchema) :
    (unionSchema left right).fields.length ≤ left.fields.length := by
  unfold unionSchema ResultSchema.new
  rw [List.length_map, List.length_zip]
  exact Nat.min_le_left _ _

/-- A qualified wildcard has no more fields than the scope. -/
theorem length_expandQualified_le {scope : Scope} {qualifier : String} {fields : List ResultField}
    (h : scope.expandQualified qualifier = some fields) : fields.length ≤ scope.width := by
  obtain ⟨entry, hentry, rfl⟩ := Option.map_eq_some_iff.mp h
  have hmem := List.mem_map_of_mem (f := fun entry : ScopeEntry => entry.schema.fields)
    (List.mem_of_find?_eq_some hentry)
  unfold Scope.width Scope.expandAll
  rw [List.flatMap_def]
  exact (List.sublist_flatten_of_mem hmem).length_le

/-! ## Nodes -/

/-- The nodes of a usage grow by those that are merged into it. -/
theorem syntaxNodes_merge (target source : QueryBudgetUsage) (extraDepth : Nat) :
    (target.merge source extraDepth).syntaxNodes = target.syntaxNodes + source.syntaxNodes := rfl

/-- An optional expression lowers no count of nodes. -/
theorem syntaxNodes_measureExprOption_ge (depth : Nat) (expr : Option SyntaxExpr)
    (usage : QueryBudgetUsage) :
    usage.syntaxNodes ≤ (measureExprOption depth expr usage).syntaxNodes := by
  cases expr with
  | none => exact Nat.le_refl _
  | some expr => exact Nat.le_add_right _ _

/-- A list of expressions lowers no count of nodes. -/
theorem syntaxNodes_measureExprs_ge (depth : Nat) :
    ∀ (exprs : List SyntaxExpr) (usage : QueryBudgetUsage),
    usage.syntaxNodes ≤ (measureExprs depth exprs usage).syntaxNodes
  | [], _ => Nat.le_refl _
  | expr :: exprs, usage => by
    rw [measureExprs]
    have hrest := syntaxNodes_measureExprs_ge depth exprs (usage.merge (measureExpr depth expr) 0)
    rw [syntaxNodes_merge] at hrest
    omega

/-- An `ORDER BY` lowers no count of nodes. -/
theorem syntaxNodes_measureOrderBy_ge :
    ∀ (orders : List SyntaxOrderByExpr) (usage : QueryBudgetUsage),
    usage.syntaxNodes ≤ (measureOrderBy orders usage).syntaxNodes
  | [], _ => Nat.le_refl _
  | ⟨expr, _, _, _⟩ :: orders, usage => by
    rw [measureOrderBy]
    refine Nat.le_trans ?_ (syntaxNodes_measureOrderBy_ge orders _)
    rw [syntaxNodes_merge]
    dsimp only
    omega

/-- Each item of a projection is a node. -/
theorem syntaxNodes_measureProjection_ge (depth : Nat) :
    ∀ (items : List SyntaxProjectionItem) (usage : QueryBudgetUsage),
      usage.syntaxNodes + items.length ≤ (measureProjection depth items usage).syntaxNodes
  | [], _ => Nat.le_refl _
  | item :: items, usage => by
    have ih := syntaxNodes_measureProjection_ge depth items
    rw [List.length_cons]
    -- Every item is counted once itself, before its expression.
    cases item with
    | wildcard qualifier node =>
      rw [measureProjection]
      have := ih { usage with syntaxNodes := usage.syntaxNodes + 1 }
      dsimp only at this
      omega
    | expr details =>
      obtain ⟨expr, alias_, node⟩ := details
      rw [measureProjection]
      have :=
        ih ({ usage with syntaxNodes := usage.syntaxNodes + 1 }.merge (measureExpr depth expr) 0)
      rw [syntaxNodes_merge] at this
      dsimp only at this
      omega
    | unsupported description node =>
      rw [measureProjection]
      have := ih { usage with syntaxNodes := usage.syntaxNodes + 1 }
      dsimp only at this
      omega

/-- The nodes of tables are added to those that were counted before. -/
theorem syntaxNodes_measureTables (depth : Nat) :
    ∀ (tables : List SyntaxTableWithJoins) (usage : QueryBudgetUsage),
    (measureTables depth tables usage).syntaxNodes =
      usage.syntaxNodes + (tables.map fun table => (measureTable depth table).syntaxNodes).sum
  | [], _ => rfl
  | table :: tables, usage => by
    rw [measureTables, syntaxNodes_measureTables depth tables, syntaxNodes_merge, List.map_cons,
      List.sum_cons, Nat.add_assoc]

/-- The nodes of CTEs add up. -/
theorem syntaxNodes_measureCtes : ∀ (ctes : List SyntaxCte) (usage : QueryBudgetUsage),
    (measureCtes ctes usage).syntaxNodes =
      usage.syntaxNodes + (ctes.map fun cte => (measureCte cte).syntaxNodes).sum
  | [], _ => rfl
  | cte :: ctes, usage => by
    rw [measureCtes, syntaxNodes_measureCtes ctes, syntaxNodes_merge, List.map_cons, List.sum_cons,
      Nat.add_assoc]

/-- A relation has at least one node. -/
theorem one_le_measureRelation (depth : Nat) (relation : SyntaxRelation) :
    1 ≤ (measureRelation depth relation).syntaxNodes := by
  cases relation <;> rw [measureRelation] <;>
    first | exact Nat.le_refl _ | exact Nat.le_add_right _ _

/-! ## The limit -/

/-- The CTEs in scope have no more columns than the limit. -/
def CtesWithin (limit : Nat) (ctes : CteScope) : Prop :=
  ∀ name entry, ctes.lookup name = some entry → entry.binding.schema.fields.length ≤ limit

/-- A CTE that is narrow enough may be added. -/
theorem CtesWithin.insert {limit : Nat} {ctes : CteScope} (h : CtesWithin limit ctes)
    (name : String) {entry : CteEntry} (hentry : entry.binding.schema.fields.length ≤ limit) :
    CtesWithin limit (mapInsert (fun a b => decide (a < b)) name entry ctes) := by
  intro other found hfound
  rw [lookup_mapInsert_string] at hfound
  split at hfound
  · obtain rfl := Option.some.inj hfound
    exact hentry
  · exact h other found hfound

/-- Narrow CTEs are within a greater limit. -/
theorem CtesWithin.mono {limit limit' : Nat} {ctes : CteScope} (h : CtesWithin limit ctes)
    (hle : limit ≤ limit') :
    CtesWithin limit' ctes :=
  fun name entry hfound => Nat.le_trans (h name entry hfound) hle

section Limit

variable {base : Nat} (hbase : 2 ≤ base)

include hbase

/-- Powers of the base grow. -/
theorem pow_le_of_le {m n : Nat} (h : m ≤ n) : base ^ m ≤ base ^ n :=
  Nat.pow_le_pow_right (Nat.le_trans (by decide) hbase) h

/-- Columns add up where nodes do. -/
theorem add_le_pow {c m n x y : Nat} (hm : 1 ≤ m) (hn : 1 ≤ n) (hx : x ≤ base ^ (c + m))
    (hy : y ≤ base ^ (c + n)) :
    x + y ≤ base ^ (c + (m + n)) := by
  have htwo : ∀ {k : Nat}, 1 ≤ k → 2 ≤ base ^ k := fun hk =>
    Nat.le_trans (Nat.le_trans hbase (Nat.le_of_eq (Nat.pow_one base).symm)) (pow_le_of_le hbase hk)
  calc x + y ≤ base ^ (c + m) + base ^ (c + n) := Nat.add_le_add hx hy
    _ = base ^ c * (base ^ m + base ^ n) := by rw [Nat.pow_add, Nat.pow_add, Nat.mul_add]
    _ ≤ base ^ c * (base ^ m * base ^ n) :=
      Nat.mul_le_mul_left _ (Nat.add_le_mul (htwo hm) (htwo hn))
    _ = base ^ (c + (m + n)) := by rw [Nat.pow_add, Nat.pow_add]

/-- As many wildcards as there are items make no more columns than the items are nodes. -/
theorem mul_le_pow {c m x : Nat} (hx : x ≤ base ^ c) : m * max 1 x ≤ base ^ (c + m) := by
  have hpos : 1 ≤ base ^ c := Nat.one_le_pow _ _ (Nat.le_trans (by decide) hbase)
  have hm : m ≤ base ^ m := Nat.le_of_lt (Nat.lt_pow_self hbase)
  calc m * max 1 x ≤ base ^ m * base ^ c := Nat.mul_le_mul hm (Nat.max_le.mpr ⟨hpos, hx⟩)
    _ = base ^ (c + m) := by rw [← Nat.pow_add, Nat.add_comm]

omit hbase in
/-- A wildcard makes the columns of its scope, or of a relation of it, and an expression makes
one. -/
theorem columns_bindProjections (context : BinderContext) (scope : Scope) (outer : Option Scope)
    (items : List SyntaxProjectionItem) :
    Returns (bindProjections context scope outer items) fun bound =>
      bound.2.length ≤ items.length * max 1 scope.width := by
  -- Each item shows at most the columns of the scope, and at least one is counted for it.
  induction items with
  | nil =>
    rw [bindProjections]
    exact Returns.pure (Nat.zero_le _)
  | cons item items ih =>
    cases item with
    -- A wildcard shows no more columns than its scope has, and none where it is refused.
    | wildcard qualifier node =>
      rw [bindProjections]
      refine Returns.andThen (Q := fun fields => fields.length ≤ scope.width) ?_
        fun fields hfields => ?_
      · unfold bindWildcard
        split
        · exact Returns.pure (Nat.le_refl _)
        · split
          · rename_i hexpanded
            exact Returns.pure (length_expandQualified_le hexpanded)
          · exact Returns.bind fun _ => Returns.pure (Nat.zero_le _)
      · refine Returns.andThen ih fun bound hbound => Returns.pure ?_
        rw [List.length_append, List.length_cons, Nat.add_mul]
        omega
    | expr aliased =>
      obtain ⟨expr, alias_, node⟩ := aliased
      rw [bindProjections]
      refine Returns.bind fun _ => ?_
      refine Returns.andThen ih fun bound hbound => Returns.pure ?_
      rw [List.length_cons, List.length_cons, Nat.add_mul]
      omega
    | unsupported description node =>
      rw [bindProjections]
      refine Returns.bind fun _ => ?_
      refine Returns.andThen ih fun bound hbound => Returns.pure ?_
      rw [List.length_cons, Nat.add_mul]
      exact Nat.le_trans hbound (Nat.le_add_right _ _)

variable {context : BinderContext} (hcatalog : ∀ namespace_ name schema,
  context.catalog.resolveRelation namespace_ name = some schema → schema.columns.length ≤ base)

include hcatalog

/-- A table has the columns of a CTE or of a relation of the catalog. -/
theorem columns_bindTable {c : Nat} {ctes : CteScope} (hctes : CtesWithin (base ^ c) ctes)
    (name : NameRef) (alias_ : Option String) (node : SyntaxNode) :
    Returns (bindTable context ctes name alias_ node) fun relation =>
      relationWidth relation ≤ base ^ (c + 1) := by
  unfold bindTable
  refine Returns.bind fun _ => ?_
  split
  · rename_i binding hbinding
    refine Returns.pure ?_
    show binding.schema.fields.length ≤ base ^ (c + 1)
    split at hbinding
    -- A CTE is within its bound.
    · rename_i entry hentry
      obtain rfl := Option.some.inj hbinding
      split at hentry
      · exact Nat.le_trans (hctes _ entry hentry) (pow_le_of_le hbase (Nat.le_succ c))
      · cases hentry
    · split at hbinding
      -- A relation of the catalog is within the base.
      · rename_i schema hschema
        obtain rfl := Option.some.inj hbinding
        refine Nat.le_trans ?_ (pow_le_of_le hbase (Nat.le_add_left 1 c))
        rw [Nat.pow_one]
        refine Nat.le_trans (Nat.le_of_eq ?_) (hcatalog _ _ _ hschema)
        exact List.length_map _
      · cases hbinding
  · exact Returns.bind fun _ => Returns.pure (Nat.zero_le _)

mutual

/-- A query has at most as many columns as a power of its nodes. -/
theorem columns_bindQuery (outer : Option Scope) : ∀ query : SyntaxQuery,
    Returns (bindQuery context outer query) fun plan =>
      plan.resultSchema.fields.length ≤ base ^ (measureQuery query).syntaxNodes
  | ⟨node, ctes, withRecursive, body, orderBy, limit, offset, backendClauses⟩ => by
    rw [bindQuery]
    refine Returns.bind fun _ => ?_
    have hempty : CtesWithin (base ^ 1) [] := fun _ _ hfound => nomatch hfound
    refine Returns.andThen
      (columns_bindCtes ctes [] { syntaxNodes := 1, ctes := ctes.length } (Nat.le_refl 1) hempty)
      fun bound hctes => ?_
    refine Returns.andThen (columns_bindSetExpr outer hctes 1 body) fun set hset => ?_
    repeat refine Returns.bind fun _ => ?_
    refine Returns.pure (Nat.le_trans hset (pow_le_of_le hbase ?_))
    rw [measureQuery]
    refine Nat.le_trans ?_ (syntaxNodes_measureExprOption_ge 1 offset _)
    refine Nat.le_trans ?_ (syntaxNodes_measureExprOption_ge 1 limit _)
    refine Nat.le_trans ?_ (syntaxNodes_measureOrderBy_ge orderBy _)
    exact Nat.le_of_eq (syntaxNodes_merge _ _ _).symm
termination_by structural query => query

/-- The bound CTEs are within the power of their nodes. -/
theorem columns_bindCtes :
    ∀ (ctes : List SyntaxCte) (cteScope : CteScope) (usage : QueryBudgetUsage),
    1 ≤ usage.syntaxNodes → CtesWithin (base ^ usage.syntaxNodes) cteScope →
      Returns (bindCtes context cteScope ctes) fun bound =>
        CtesWithin (base ^ (measureCtes ctes usage).syntaxNodes) bound.1
  | [], cteScope, usage, _, hscope => by
    rw [bindCtes, measureCtes]
    exact Returns.pure hscope
  | ⟨name, columns, query, node⟩ :: ctes, cteScope, usage, husage, hscope => by
    rw [bindCtes, measureCtes]
    refine Returns.andThen (columns_bindQuery none query) fun plan hplan => ?_
    -- The measure of the list counts the CTE's query and what came before it.
    have hcte : (measureQuery query).syntaxNodes ≤
        (usage.merge (measureCte ⟨name, columns, query, node⟩) 1).syntaxNodes := by
      rw [syntaxNodes_merge, measureCte, syntaxNodes_merge]
      omega
    have hkept : usage.syntaxNodes ≤
        (usage.merge (measureCte ⟨name, columns, query, node⟩) 1).syntaxNodes :=
      Nat.le_add_right _ _
    refine Returns.andThen (columns_bindCtes ctes _ _ (Nat.le_trans husage hkept)
      ((hscope.mono (pow_le_of_le hbase hkept)).insert _ ?_)) fun bound hbound =>
        Returns.pure hbound
    rw [length_cteSchema]
    exact Nat.le_trans hplan (pow_le_of_le hbase hcte)
termination_by structural ctes => ctes

/-- A bound query body is within the power of its nodes. -/
theorem columns_bindSetExpr (outer : Option Scope) {c : Nat} {ctes : CteScope}
    (hctes : CtesWithin (base ^ c) ctes)
    (depth : Nat) : ∀ expr : SyntaxSetExpr,
    Returns (bindSetExpr context ctes outer expr) fun bound =>
      bound.resultSchema.fields.length ≤ base ^ (c + (measureSetExpr depth expr).syntaxNodes)
  | .select select => by
    rw [bindSetExpr, measureSetExpr]
    exact Returns.andThen (columns_bindSelect outer hctes depth select) fun bound hbound =>
      Returns.pure hbound
  | .unionAll left right node => by
    rw [bindSetExpr, measureSetExpr]
    refine Returns.andThen (columns_bindSetExpr outer hctes (depth + 1) left) fun l hl => ?_
    refine Returns.bind fun r => ?_
    refine Returns.andThen
      (Q := fun schema => schema.fields.length ≤ l.resultSchema.fields.length) ?_
      fun schema hschema => Returns.pure ?_
    -- The schema of a union has no more columns than its left side.
    · unfold unifyUnionSchema
      split
      · exact Returns.bind fun _ => Returns.pure (Nat.zero_le _)
      · exact Returns.pure (length_unionSchema_le _ _)
    · refine Nat.le_trans hschema (Nat.le_trans hl (pow_le_of_le hbase ?_))
      rw [syntaxNodes_merge, syntaxNodes_merge]
      omega
  | .unsupported description node => by
    rw [bindSetExpr]
    exact Returns.bind fun _ => Returns.pure (Nat.zero_le _)
termination_by structural expr => expr

/-- A bound select is within the power of its nodes. -/
theorem columns_bindSelect (outer : Option Scope) {c : Nat} {ctes : CteScope}
    (hctes : CtesWithin (base ^ c) ctes)
    (depth : Nat) : ∀ select : SyntaxSelect,
    Returns (bindSelect context ctes outer select) fun bound =>
      bound.resultSchema.fields.length ≤ base ^ (c + (measureSelect depth select).syntaxNodes)
  | ⟨distinct, projection, from_, selection, groupBy, having, node⟩ => by
    rw [bindSelect, measureSelect]
    -- The width of the tables is a power of the base, and each projection item multiplies it at
    -- most by the scope.
    refine Returns.andThen
      (columns_bindTables outer hctes depth from_ {} { syntaxNodes := 1 } (Nat.le_refl 1)
      (Nat.zero_le _)) fun bound hbound => ?_
    refine Returns.bind fun _ => Returns.bind fun _ => Returns.bind fun _ => ?_
    refine Returns.andThen (columns_bindProjections context bound.1 outer projection)
        fun fields hfields =>
      Returns.pure ?_
    show fields.2.length ≤ _
    refine Nat.le_trans hfields (Nat.le_trans (mul_le_pow hbase hbound) (pow_le_of_le hbase ?_))
    -- What is left is that the measure counts the nodes of every clause, each on top of the one
    -- before.
    have hprojection :=
      syntaxNodes_measureProjection_ge depth projection { syntaxNodes := 1, nestingDepth := depth }
    have htables := syntaxNodes_measureTables depth from_
      (measureProjection depth projection { syntaxNodes := 1, nestingDepth := depth })
    have hselection := syntaxNodes_measureExprOption_ge depth selection (measureTables depth from_
      (measureProjection depth projection { syntaxNodes := 1, nestingDepth := depth }))
    have hgroupBy := syntaxNodes_measureExprs_ge depth groupBy (measureExprOption depth selection
      (measureTables depth from_
        (measureProjection depth projection { syntaxNodes := 1, nestingDepth := depth })))
    have hhaving := syntaxNodes_measureExprOption_ge depth having (measureExprs depth groupBy
      (measureExprOption depth selection (measureTables depth from_
        (measureProjection depth projection { syntaxNodes := 1, nestingDepth := depth }))))
    rw [syntaxNodes_measureTables]
    dsimp only at *
    omega
termination_by structural select => select

/-- A bound `FROM` clause is within the power of its nodes. -/
theorem columns_bindTables (outer : Option Scope) {c : Nat} {ctes : CteScope}
    (hctes : CtesWithin (base ^ c) ctes)
    (depth : Nat) :
    ∀ (tables : List SyntaxTableWithJoins) (scope : Scope) (usage : QueryBudgetUsage),
      1 ≤ usage.syntaxNodes → scope.width ≤ base ^ (c + usage.syntaxNodes) →
        Returns (bindTables context ctes outer scope tables) fun bound =>
          bound.1.width ≤ base ^ (c + (measureTables depth tables usage).syntaxNodes)
  | [], scope, usage, _, hscope => by
    rw [bindTables, measureTables]
    exact Returns.pure hscope
  | table :: tables, scope, usage, husage, hscope => by
    rw [bindTables, measureTables]
    refine Returns.andThen (columns_bindTableWithJoins outer hctes depth scope table)
      fun bound hbound => ?_
    have hkept := Nat.le_trans husage (Nat.le_add_right _ (measureTable depth table).syntaxNodes)
    refine Returns.andThen (columns_bindTables outer hctes depth tables _ _ hkept ?_)
      fun rest hrest => Returns.pure hrest
    rw [width_mergeTable]
    exact add_le_pow hbase husage hbound.1 hscope hbound.2
termination_by structural tables => tables

/-- A bound table with joins is within the power of its nodes. -/
theorem columns_bindTableWithJoins (outer : Option Scope) {c : Nat} {ctes : CteScope}
    (hctes : CtesWithin (base ^ c) ctes) (depth : Nat) (current : Scope) :
    ∀ table : SyntaxTableWithJoins,
      Returns (bindTableWithJoins context ctes outer current table) fun bound =>
        1 ≤ (measureTable depth table).syntaxNodes ∧
          tableWidth bound ≤ base ^ (c + (measureTable depth table).syntaxNodes)
  | ⟨relation, joins, node⟩ => by
    rw [bindTableWithJoins, measureTable]
    refine Returns.andThen (columns_bindRelation hctes depth current relation)
      fun bound hbound => ?_
    exact Returns.andThen
      (columns_bindJoins outer hctes depth joins _ _ (one_le_measureRelation depth relation) hbound)
      fun state hstate => Returns.pure hstate
termination_by structural table => table

/-- Bound joins are within the power of their nodes. -/
theorem columns_bindJoins (outer : Option Scope) {c : Nat} {ctes : CteScope}
    (hctes : CtesWithin (base ^ c) ctes)
    (depth : Nat) : ∀ (joins : List SyntaxJoin) (state : JoinState) (usage : QueryBudgetUsage),
      1 ≤ usage.syntaxNodes → state.width ≤ base ^ (c + usage.syntaxNodes) →
        Returns (bindJoins context ctes outer state joins) fun bound =>
          1 ≤ (measureJoins depth joins usage).syntaxNodes ∧
            bound.width ≤ base ^ (c + (measureJoins depth joins usage).syntaxNodes)
  | [], state, usage, husage, hstate => by
    rw [bindJoins, measureJoins]
    exact Returns.pure ⟨husage, hstate⟩
  | ⟨kind, relation, on, node⟩ :: joins, state, usage, husage, hstate => by
    rw [bindJoins, measureJoins]
    refine Returns.andThen (columns_bindRelation hctes depth state.joinScope relation)
      fun joined hjoined => ?_
    refine Returns.bind fun on' => ?_
    -- A condition adds nodes and no columns.
    have hnodes := syntaxNodes_measureExprOption_ge depth on
      ({ usage with joins := usage.joins + 1, syntaxNodes := usage.syntaxNodes + 1 }.merge
        (measureRelation depth relation) 0)
    rw [syntaxNodes_merge] at hnodes
    dsimp only at hnodes
    refine columns_bindJoins outer hctes depth joins _ _ (by omega) ?_
    rw [JoinState.width_addJoin]
    -- Widths add up, and the sum of two powers is within the power of the summed exponents.
    exact Nat.le_trans
      (add_le_pow hbase husage (one_le_measureRelation depth relation) hstate hjoined)
      (pow_le_of_le hbase (by omega))
termination_by structural joins => joins

/-- A bound relation is within the power of its nodes. -/
theorem columns_bindRelation {c : Nat} {ctes : CteScope} (hctes : CtesWithin (base ^ c) ctes)
    (depth : Nat) (current : Scope) : ∀ relation : SyntaxRelation,
      Returns (bindRelation context ctes current relation) fun bound =>
        relationWidth bound ≤ base ^ (c + (measureRelation depth relation).syntaxNodes)
  | .table name alias_ node => by
    rw [bindRelation, measureRelation]
    exact columns_bindTable hbase hcatalog hctes name alias_ node
  | .derived query alias_ node => by
    rw [bindRelation, measureRelation]
    refine Returns.andThen (columns_bindQuery (some current) query) fun plan hplan =>
      Returns.pure ?_
    -- The measure of a derived table is that of its query and its own node.
    refine Nat.le_trans hplan (pow_le_of_le hbase ?_)
    rw [syntaxNodes_merge]
    omega
  | .nestedJoin table alias_ node => by
    rw [bindRelation, measureRelation]
    refine Returns.andThen (columns_bindTableWithJoins none hctes (depth + 1) current table)
        fun bound hbound =>
      Returns.pure ?_
    refine Nat.le_trans (Nat.le_of_eq (length_scopeSchemaForTable bound)) ?_
    refine Nat.le_trans hbound.2 (pow_le_of_le hbase ?_)
    rw [syntaxNodes_merge]
    omega
  | .unsupported description node => by
    rw [bindRelation]
    exact Returns.bind fun _ => Returns.pure (Nat.zero_le _)
termination_by structural relation => relation

end

end Limit

end QueryFabric.Bind
