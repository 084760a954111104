import QueryFabric.Bind.Widths
import QueryFabric.Dialect.Lower

/-!
# Nested wildcards

The limit on the number of columns cannot be more than exponential. A query that selects `m`
wildcards from itself, `n` times over, is small in the eyes of the budget (`usage_nestedWildcards`),
and has a number of columns that is a power of `m` (`columns_nestedWildcards`). Whatever spans the
parser gives such a query, it is lowered to one (`nestedWildcards_lowerQuery`), whose nodes have
identities of their own.
-/

namespace QueryFabric

open Lib.Paths (part item)

/-! ## The trees of the parser -/

namespace Dialect.Ast

/-- `SELECT *, …, * FROM relation`, with a span for each wildcard. -/
def wildcardSelect (query select from_ : SqlSpan) (wildcards : List SqlSpan)
    (relation : TableFactor) : Query :=
  { with_ := none, orderBy := none, limitClause := none, fetch := false, locks := false
    forClause := false, pipeOperators := false, settings := none,
    formatClause := none, span := query
    body := .select
      { distinct := false, projection := wildcards.map .wildcard
        from_ := [⟨relation, [], from_⟩], selection := none, groupBy := .expressions []
        having := none, span := select } }

/-- A tree that selects a number of wildcards from itself, on a number of levels, down to
`SELECT * FROM name`. -/
inductive NestedWildcards (name : ObjectName) (wildcards : Nat) : Nat → Query → Prop
  /-- `SELECT * FROM name`. -/
  | table (query select from_ wildcard table : SqlSpan) :
    NestedWildcards name wildcards 0
      (wildcardSelect query select from_ [wildcard] (.table name none table))
  /-- The wildcards of one more level. -/
  | derived {levels : Nat} {inner : Query} {projection : List SqlSpan}
      (query select from_ derived : SqlSpan) (hinner : NestedWildcards name wildcards levels inner)
      (hlength : projection.length = wildcards) :
    NestedWildcards name wildcards (levels + 1)
      (wildcardSelect query select from_ projection (.derived inner none derived))

end Dialect.Ast

/-! ## Their syntax -/

/-- `SELECT *, …, * FROM relation`, with a node for each wildcard. -/
def wildcardSelect (query select from_ : SyntaxNode) (wildcards : List SyntaxNode)
    (relation : SyntaxRelation) : SyntaxQuery :=
  { node := query, ctes := [], withRecursive := false, orderBy := [], limit := none, offset := none
    backendClauses := []
    body := .select
      { distinct := false, projection := wildcards.map (.wildcard none)
        from_ := [{ relation, joins := [], node := from_ }], selection := none, groupBy := []
        having := none, node := select } }

/-- A query that selects a number of wildcards from itself, on a number of levels, down to
`SELECT * FROM name`. -/
inductive NestedWildcards (name : NameRef) (wildcards : Nat) : Nat → SyntaxQuery → Prop
  /-- `SELECT * FROM name`. -/
  | table (query select from_ wildcard table : SyntaxNode) :
    NestedWildcards name wildcards 0
      (wildcardSelect query select from_ [wildcard] (.table name none table))
  /-- The wildcards of one more level. -/
  | derived {levels : Nat} {inner : SyntaxQuery} {projection : List SyntaxNode}
      (query select from_ derived : SyntaxNode)
        (hinner : NestedWildcards name wildcards levels inner)
      (hlength : projection.length = wildcards) :
    NestedWildcards name wildcards (levels + 1)
      (wildcardSelect query select from_ projection (.derived inner none derived))

/-! ## Lowering -/

namespace Dialect

variable {map : SourceMap}

variable (map) in
/-- Wildcards are lowered to as many, each with a node of its own. -/
theorem lowerProjection_wildcards (path : String) : ∀ (spans : List SqlSpan) (idx : Nat),
    ∃ nodes : List SyntaxNode, nodes.length = spans.length ∧
      lowerProjection map (spans.map .wildcard) path idx = pure (nodes.map (.wildcard none))
  | [], _ => ⟨[], rfl, rfl⟩
  | span :: spans, idx => by
    obtain ⟨nodes, hlength, hlower⟩ := lowerProjection_wildcards path spans (idx + 1)
    refine ⟨lowerNode map span (item path idx) :: nodes, congrArg (· + 1) hlength, ?_⟩
    rw [List.map_cons, lowerProjection, hlower]
    rfl

/-- A selection of wildcards is lowered to one, without a diagnostic. -/
theorem run_lowerQuery_wildcardSelect {relation : Ast.TableFactor} {lowered : SyntaxRelation}
    {path : String} {diagnostics : List QueryDiagnostic}
    (h : (lowerRelation map relation (part (item (part (part path "body") "from") 0)
      "relation")).run diagnostics = (lowered, diagnostics))
    (query select from_ : SqlSpan) (wildcards : List SqlSpan) :
    ∃ query' select' from' nodes, nodes.length = wildcards.length ∧
      (lowerQuery map (Ast.wildcardSelect query select from_ wildcards relation) path).run
          diagnostics =
        (QueryFabric.wildcardSelect query' select' from' nodes lowered, diagnostics) := by
  obtain ⟨nodes, hlength, hnodes⟩ :=
    lowerProjection_wildcards map (part (part path "body") "projection") wildcards 0
  refine ⟨lowerNode map query path, lowerNode map select (part path "body"),
    lowerNode map from_ (item (part (part path "body") "from") 0), nodes, hlength, ?_⟩
  simp only [Ast.wildcardSelect, lowerQuery, reportQuery, lowerLimitClause, lowerWith, lowerSetExpr,
    lowerSelect, lowerTables, lowerTableWithJoins, lowerJoins, lowerExprOption, lowerGroupBy,
    lowerExprs, lowerOrderBy, hnodes, StateT.run_bind, StateT.run_pure, h, pure_bind,
    Bool.false_eq_true, if_false]
  rfl

/-- A tree of nested wildcards is lowered to nested wildcards, without a diagnostic. -/
theorem nestedWildcards_lowerQuery {name : Ast.ObjectName} {wildcards levels : Nat}
    {query : Ast.Query} (h : Ast.NestedWildcards name wildcards levels query)
    (diagnostics : List QueryDiagnostic) : ∀ path : String, ∃ tree,
      (lowerQuery map query path).run diagnostics = (tree, diagnostics) ∧
        NestedWildcards (lowerNameRef name) wildcards levels tree := by
  induction h with
  -- The innermost query: one wildcard over the table.
  | table query select from_ wildcard table =>
    intro path
    have hrelation : (lowerRelation map (.table name none table)
        (part (item (part (part path "body") "from") 0) "relation")).run diagnostics =
          (.table (lowerNameRef name) none (lowerNode map table _), diagnostics) := rfl
    obtain ⟨query', select', from', nodes, hlength, hrun⟩ :=
      run_lowerQuery_wildcardSelect hrelation query select from_ [wildcard]
    obtain ⟨node, rfl⟩ := List.length_eq_one_iff.mp hlength
    exact ⟨_, hrun, .table query' select' from' node _⟩
  | @derived levels inner projection query select from_ derived hinner hlength ih =>
    intro path
    -- The inner query is lowered under its own path, without a diagnostic.
    obtain ⟨tree, hrun, htree⟩ :=
      ih (part (part (item (part (part path "body") "from") 0) "relation") "subquery")
    have hrelation : (lowerRelation map (.derived inner none derived)
        (part (item (part (part path "body") "from") 0) "relation")).run diagnostics =
          (.derived tree none (lowerNode map derived
            (part (item (part (part path "body") "from") 0) "relation")), diagnostics) := by
      rw [lowerRelation, StateT.run_bind, hrun]
      rfl
    obtain ⟨query', select', from', nodes, hnodes, hlowered⟩ :=
      run_lowerQuery_wildcardSelect hrelation query select from_ projection
    exact ⟨_, hlowered, .derived query' select' from' _ htree (hnodes.trans hlength)⟩

end Dialect

/-! ## What the budget sees -/

/-- Every wildcard is one node. -/
theorem measureProjection_wildcards (depth : Nat) : ∀ (nodes : List SyntaxNode)
    (usage : QueryBudgetUsage), measureProjection depth (nodes.map (.wildcard none)) usage =
      { usage with syntaxNodes := usage.syntaxNodes + nodes.length }
  | [], _ => rfl
  | node :: nodes, usage => by
    rw [List.map_cons, measureProjection, measureProjection_wildcards depth nodes]
    dsimp only
    rw [List.length_cons, Nat.add_assoc, Nat.add_comm 1]

/-- A selection of wildcards is two nodes beside the wildcards and the relation. -/
theorem usage_wildcardSelect (query select from_ : SyntaxNode) (wildcards : List SyntaxNode)
    (relation : SyntaxRelation) :
    measureQuery (wildcardSelect query select from_ wildcards relation) =
      { syntaxNodes := wildcards.length + 2 + (measureRelation 1 relation).syntaxNodes
        nestingDepth := max 1 (measureRelation 1 relation).nestingDepth
        joins := (measureRelation 1 relation).joins
        ctes := (measureRelation 1 relation).ctes } := by
  simp only [wildcardSelect, measureQuery, measureCtes, measureSetExpr, measureSelect,
    measureProjection_wildcards, measureTables, measureTable, measureJoins, measureExprOption,
    measureExprs, measureOrderBy, List.length_nil, QueryBudgetUsage.merge,
    QueryBudgetUsage.mk.injEq, true_and]
  omega

/-- The budget sees three nodes and two levels of depth at each level, besides the wildcards. -/
theorem usage_nestedWildcards {name : NameRef} {wildcards levels : Nat} {query : SyntaxQuery}
    (h : NestedWildcards name wildcards levels query) :
    measureQuery query =
      { syntaxNodes := levels * (wildcards + 3) + 4, nestingDepth := 2 * levels + 1 } := by
  induction h with
  | table =>
    rw [usage_wildcardSelect, measureRelation, Nat.zero_mul]
    rfl
  | derived _ _ _ _ _ hlength ih =>
    rw [usage_wildcardSelect, measureRelation, ih, hlength]
    simp only [QueryBudgetUsage.merge, QueryBudgetUsage.mk.injEq, true_and, Nat.add_mul,
      Nat.add_zero, and_true]
    omega

/-! ## How many columns there are -/

namespace Bind

variable {context : BinderContext}

/-- Every wildcard is bound to all columns of the scope. -/
theorem bindProjections_wildcards (scope : Scope) (outer : Option Scope) :
    ∀ nodes : List SyntaxNode,
      bindProjections context scope outer (nodes.map (.wildcard none)) =
        pure (nodes.map (.wildcard none scope.expandAll),
          (List.replicate nodes.length scope.expandAll).flatten)
  | [] => rfl
  | node :: nodes => by
    rw [List.map_cons, bindProjections, bindProjections_wildcards scope outer nodes]
    rfl

/-- The columns of the relation are there once for each wildcard. -/
theorem run_bindQuery_wildcardSelect {relation : SyntaxRelation} {bound : BoundRelation}
    {s s' : Binder} (h : (bindRelation context [] {} relation).run s = (bound, s'))
    (outer : Option Scope) (query select from_ : SyntaxNode) (wildcards : List SyntaxNode) :
    ∃ plan, (bindQuery context outer (wildcardSelect query select from_ wildcards relation)).run s =
        (plan, s') ∧
      plan.resultSchema.fields.length = wildcards.length * relationWidth bound := by
  simp only [wildcardSelect, bindQuery, rejectRecursive, bindCtes, bindSetExpr, bindSelect,
    bindTables, bindTableWithJoins, bindJoins, bindExprOption, bindExprs, bindProjections_wildcards,
    bindOrderBys, warnBackendClauses, StateT.run_bind, StateT.run_pure, h, pure_bind,
    Bool.false_eq_true, if_false]
  refine ⟨_, rfl, ?_⟩
  have hwidth : (({} : Scope).mergeTable ⟨bound, [], from_⟩).width = relationWidth bound := by
    rw [width_mergeTable]
    exact Nat.zero_add _
  show (List.replicate wildcards.length
    (({} : Scope).mergeTable ⟨bound, [], from_⟩).expandAll).flatten.length = _
  rw [List.length_flatten, List.map_replicate, List.sum_replicate_nat]
  exact congrArg (wildcards.length * ·) hwidth

/-- A binder that reported nothing and saw no parameter between two states. -/
structure Quiet (s s' : Binder) : Prop where
  diagnostics : s'.diagnostics = s.diagnostics
  parameterConstraints : s'.parameterConstraints = s.parameterConstraints

/-- A relation of the catalog is bound quietly to its columns. -/
theorem run_bindRelation_table {name : NameRef} {schema : RelationSchema}
    (hrelation : context.catalog.resolveRelation name.namespace_ name.name = some schema)
    (node : SyntaxNode) (s : Binder) : ∃ bound s',
      (bindRelation context [] {} (.table name none node)).run s = (bound, s') ∧
        relationWidth bound = schema.columns.length ∧ Quiet s s' := by
  have hresolve : resolveTable context [] name = (.catalog schema, some
      { bindingName := name.name, relationName := some name,
        schema := schema.toResultSchema }) := by
    have hcte : (if name.namespace_.isNone then
        ([] : CteScope).lookup (toAsciiLowercase name.name) else none) = none :=
      ite_self none
    unfold resolveTable
    rw [hcte, hrelation]
  rw [bindRelation, bindTable, hresolve]
  refine ⟨_, _, rfl, List.length_map _, ?_⟩
  dsimp only
  split
  · exact ⟨rfl, rfl⟩
  · exact ⟨rfl, rfl⟩

/-- The columns of the relation are there once for each choice of a wildcard on every level. -/
theorem columns_nestedWildcards {name : NameRef} {schema : RelationSchema} {wildcards levels : Nat}
    {query : SyntaxQuery}
    (hrelation : context.catalog.resolveRelation name.namespace_ name.name = some schema)
    (h : NestedWildcards name wildcards levels query) :
    ∀ (outer : Option Scope) (s : Binder), ∃ plan s',
      (bindQuery context outer query).run s = (plan, s') ∧
        plan.resultSchema.fields.length = schema.columns.length * wildcards ^ levels ∧
        Quiet s s' := by
  induction h with
  -- One wildcard: the columns of the relation.
  | table query select from_ wildcard table =>
    intro outer s
    obtain ⟨bound, s', hrun, hwidth, hquiet⟩ := run_bindRelation_table hrelation table s
    obtain ⟨plan, hplan, hcolumns⟩ :=
      run_bindQuery_wildcardSelect hrun outer query select from_ [wildcard]
    refine ⟨plan, s', hplan, ?_, hquiet⟩
    rw [hcolumns, hwidth, List.length_singleton, Nat.one_mul, Nat.pow_zero, Nat.mul_one]
  | @derived levels inner projection query select from_ derived hinner hlength ih =>
    intro outer s
    obtain ⟨plan, s', hrun, hcolumns, hquiet⟩ := ih (some {}) s
    -- The inner query's columns are the derived table's.
    have hderived : (bindRelation context [] {} (.derived inner none derived)).run s =
        (.derived { bindingName := derivedName none derived, relationName := none
                    schema := plan.resultSchema } plan derived, s') := by
      rw [bindRelation, StateT.run_bind, hrun]
      rfl
    -- Every wildcard shows all of them once.
    obtain ⟨outerPlan, hplan, houter⟩ :=
      run_bindQuery_wildcardSelect hderived outer query select from_ projection
    refine ⟨outerPlan, s', hplan, ?_, hquiet⟩
    rw [houter, hlength, Nat.pow_succ, ← Nat.mul_assoc, Nat.mul_comm, ← hcolumns]
    rfl

end Bind

end QueryFabric
