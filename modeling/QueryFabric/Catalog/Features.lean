import QueryFabric.Catalog.Model

/-!
# Plan features

The two visitors of `crates/queryfabric-catalog/src/features.rs`. `planFeaturesFromSyntax` is what
the federation planner routes by, and `planFeaturesFromBound` is what backend analysis checks. Both
accumulate into the features of the enclosing query; a nested query is visited on its own and then
merged. A list of children is visited by a function of its own, in order.
-/

namespace QueryFabric

/-- The constructs that a plan uses, as far as the visitors reach. -/
structure PlanFeatures where
  hasCtes : Bool := false
  hasRecursiveCtes : Bool := false
  hasDerivedTables : Bool := false
  hasJoins : Bool := false
  hasWindows : Bool := false
  hasSetOperations : Bool := false
  hasAggregates : Bool := false
  hasDistinctAggregates : Bool := false
  hasScalarSubqueries : Bool := false
  hasInSubqueries : Bool := false
  hasClickhouseSettings : Bool := false
  hasClickhouseFormat : Bool := false
  hasLimitOffset : Bool := false
  unsupportedSetOps : List String := []
  functions : List FunctionRef := []
deriving DecidableEq, Repr

namespace PlanFeatures

/-- `functions.insert(f)`. -/
def insertFunction (p : PlanFeatures) (f : FunctionRef) : PlanFeatures :=
  { p with functions := setInsert FunctionRef.lt f p.functions }

/-- `merge_plan_features`. -/
def merge (target other : PlanFeatures) : PlanFeatures where
  hasCtes := target.hasCtes || other.hasCtes
  hasRecursiveCtes := target.hasRecursiveCtes || other.hasRecursiveCtes
  hasDerivedTables := target.hasDerivedTables || other.hasDerivedTables
  hasJoins := target.hasJoins || other.hasJoins
  hasWindows := target.hasWindows || other.hasWindows
  hasSetOperations := target.hasSetOperations || other.hasSetOperations
  hasAggregates := target.hasAggregates || other.hasAggregates
  hasDistinctAggregates := target.hasDistinctAggregates || other.hasDistinctAggregates
  hasScalarSubqueries := target.hasScalarSubqueries || other.hasScalarSubqueries
  hasInSubqueries := target.hasInSubqueries || other.hasInSubqueries
  hasClickhouseSettings := target.hasClickhouseSettings || other.hasClickhouseSettings
  hasClickhouseFormat := target.hasClickhouseFormat || other.hasClickhouseFormat
  hasLimitOffset := target.hasLimitOffset || other.hasLimitOffset
  unsupportedSetOps := target.unsupportedSetOps ++ other.unsupportedSetOps
  functions := other.functions.foldl (fun fs f => setInsert FunctionRef.lt f fs) target.functions

end PlanFeatures

/-- The function names that `visit_syntax_expr` takes for aggregates. -/
def syntaxAggregateNames : List String :=
  ["count", "sum", "avg", "min", "max", "quantile", "avg_merge", "count_merge", "sum_merge"]

mutual

/-- `plan_features_from_syntax`. -/
def planFeaturesFromSyntax : SyntaxQuery → PlanFeatures
  | ⟨_, ctes, withRecursive, body, _, limit, offset, backendClauses⟩ =>
    mergeSyntaxCtes ctes <| visitSyntaxSetExpr body
      { hasCtes := !ctes.isEmpty
        hasRecursiveCtes := withRecursive
        hasClickhouseSettings := backendClauses.any BackendClause.isSettings
        hasClickhouseFormat := backendClauses.any BackendClause.isFormat
        hasLimitOffset := limit.isSome || offset.isSome }

/-- The loop over the CTEs of a query. -/
def mergeSyntaxCtes : List SyntaxCte → PlanFeatures → PlanFeatures
  | [], p => p
  | ⟨_, _, query, _⟩ :: ctes, p => mergeSyntaxCtes ctes (p.merge (planFeaturesFromSyntax query))

/-- `visit_syntax_set_expr`. -/
def visitSyntaxSetExpr : SyntaxSetExpr → PlanFeatures → PlanFeatures
  | .select s, p => visitSyntaxSelect s p
  | .unionAll left right _, p =>
    visitSyntaxSetExpr right (visitSyntaxSetExpr left { p with hasSetOperations := true })
  | .unsupported description _, p =>
    { p with unsupportedSetOps := p.unsupportedSetOps ++ [description] }

/-- `visit_syntax_select`. -/
def visitSyntaxSelect : SyntaxSelect → PlanFeatures → PlanFeatures
  | ⟨_, projection, from_, selection, groupBy, having, _⟩, p =>
    visitSyntaxExprOption having <| visitSyntaxExprs groupBy <| visitSyntaxExprOption selection <|
      visitSyntaxFrom from_ <| visitSyntaxProjection projection p

/-- The loop over a projection. -/
def visitSyntaxProjection : List SyntaxProjectionItem → PlanFeatures → PlanFeatures
  | [], p => p
  | .expr ⟨expr, _, _⟩ :: items, p => visitSyntaxProjection items (visitSyntaxExpr expr p)
  | .wildcard _ _ :: items, p => visitSyntaxProjection items p
  | .unsupported _ _ :: items, p => visitSyntaxProjection items p

/-- The loop over a `FROM` clause. -/
def visitSyntaxFrom : List SyntaxTableWithJoins → PlanFeatures → PlanFeatures
  | [], p => p
  | ⟨relation, joins, _⟩ :: tables, p =>
    visitSyntaxFrom tables <| visitSyntaxJoins joins <| visitSyntaxRelation relation
      { p with hasJoins := p.hasJoins || !joins.isEmpty }

/-- The joins of a `FROM` item: each relation and its `ON` condition. -/
def visitSyntaxJoins : List SyntaxJoin → PlanFeatures → PlanFeatures
  | [], p => p
  | ⟨_, relation, on, _⟩ :: joins, p =>
    visitSyntaxJoins joins (visitSyntaxExprOption on (visitSyntaxRelation relation p))

/-- `visit_syntax_relation`. -/
def visitSyntaxRelation : SyntaxRelation → PlanFeatures → PlanFeatures
  | .derived query _ _, p =>
    { p with hasDerivedTables := true }.merge (planFeaturesFromSyntax query)
  | .nestedJoin ⟨relation, joins, _⟩ _ _, p =>
    visitSyntaxNestedJoins joins (visitSyntaxRelation relation { p with hasDerivedTables := true })
  | .table .., p => p
  | .unsupported .., p => p

/-- The joins of a nested join: the relations only, not the `ON` conditions. -/
def visitSyntaxNestedJoins : List SyntaxJoin → PlanFeatures → PlanFeatures
  | [], p => p
  | ⟨_, relation, _, _⟩ :: joins, p => visitSyntaxNestedJoins joins (visitSyntaxRelation relation p)

/-- `visit_syntax_expr`. -/
def visitSyntaxExpr : SyntaxExpr → PlanFeatures → PlanFeatures
  | ⟨.binary _ left right, _⟩, p => visitSyntaxExpr right (visitSyntaxExpr left p)
  | ⟨.unary _ expr, _⟩, p => visitSyntaxExpr expr p
  | ⟨.cast expr _, _⟩, p => visitSyntaxExpr expr p
  | ⟨.isNull expr _, _⟩, p => visitSyntaxExpr expr p
  | ⟨.function ⟨function, args, distinct, _, over_⟩, _⟩, p =>
    -- The filter and the window's own expressions are not visited.
    let p := p.insertFunction function
    let p := { p with hasDistinctAggregates := p.hasDistinctAggregates || distinct }
    let p := { p with hasWindows := p.hasWindows || over_.isSome }
    let p := { p with
      -- The name is compared as it was written, in any case but lowercase it is no aggregate.
      hasAggregates := p.hasAggregates || syntaxAggregateNames.contains function.name }
    visitSyntaxExprs args p
  | ⟨.case operand whenThen elseResult, _⟩, p =>
    visitSyntaxExprOption elseResult <| visitSyntaxWhenThens whenThen <|
      visitSyntaxExprOption operand p
  | ⟨.between expr low high _, _⟩, p =>
    visitSyntaxExpr high (visitSyntaxExpr low (visitSyntaxExpr expr p))
  | ⟨.inList expr list _, _⟩, p => visitSyntaxExprs list (visitSyntaxExpr expr p)
  | ⟨.inSubquery expr subquery _, _⟩, p =>
    (visitSyntaxExpr expr { p with hasInSubqueries := true }).merge
      (planFeaturesFromSyntax subquery)
  | ⟨.scalarSubquery subquery, _⟩, p =>
    { p with hasScalarSubqueries := true }.merge (planFeaturesFromSyntax subquery)
  | ⟨.exists subquery, _⟩, p =>
    { p with hasScalarSubqueries := true }.merge (planFeaturesFromSyntax subquery)
  | ⟨.like expr pattern _ _, _⟩, p => visitSyntaxExpr pattern (visitSyntaxExpr expr p)
  | ⟨.tuple items, _⟩, p => visitSyntaxExprs items p
  | ⟨.array items, _⟩, p => visitSyntaxExprs items p
  | ⟨.column .., _⟩, p => p
  | ⟨.literal _, _⟩, p => p
  | ⟨.parameter _, _⟩, p => p
  | ⟨.unsupported _, _⟩, p => p

/-- The loop over a list of expressions. -/
def visitSyntaxExprs : List SyntaxExpr → PlanFeatures → PlanFeatures
  | [], p => p
  | expr :: exprs, p => visitSyntaxExprs exprs (visitSyntaxExpr expr p)

/-- An expression, if there is one. -/
def visitSyntaxExprOption : Option SyntaxExpr → PlanFeatures → PlanFeatures
  | none, p => p
  | some expr, p => visitSyntaxExpr expr p

/-- The loop over the branches of a `CASE`. -/
def visitSyntaxWhenThens : List SyntaxWhenThen → PlanFeatures → PlanFeatures
  | [], p => p
  | ⟨condition, result⟩ :: pairs, p =>
    visitSyntaxWhenThens pairs (visitSyntaxExpr result (visitSyntaxExpr condition p))

end

mutual

/-- `plan_features_from_bound`. -/
def planFeaturesFromBound (catalog : Catalog) : BoundQueryPlan → PlanFeatures
  | ⟨_, ctes, body, _, limit, offset, backendClauses, _⟩ =>
    mergeBoundCtes catalog ctes <| visitBoundSetExpr catalog body
      { hasCtes := !ctes.isEmpty
        hasClickhouseSettings := backendClauses.any BackendClause.isSettings
        hasClickhouseFormat := backendClauses.any BackendClause.isFormat
        hasLimitOffset := limit.isSome || offset.isSome }

/-- The loop over the CTEs of a bound query. -/
def mergeBoundCtes (catalog : Catalog) : List BoundCte → PlanFeatures → PlanFeatures
  | [], p => p
  | ⟨_, _, query, _, _⟩ :: ctes, p =>
    mergeBoundCtes catalog ctes (p.merge (planFeaturesFromBound catalog query))

/-- `visit_bound_set_expr`. -/
def visitBoundSetExpr (catalog : Catalog) : BoundSetExpr → PlanFeatures → PlanFeatures
  | .select s, p => visitBoundSelect catalog s p
  | .unionAll left right _ _, p =>
    visitBoundSetExpr catalog right
      (visitBoundSetExpr catalog left { p with hasSetOperations := true })
  | .unsupported .., p => p

/-- `visit_bound_select`. -/
def visitBoundSelect (catalog : Catalog) : BoundSelect → PlanFeatures → PlanFeatures
  | ⟨_, projection, from_, selection, groupBy, having, _, _⟩, p =>
    visitBoundExprOption catalog having <| visitBoundExprs catalog groupBy <|
      visitBoundExprOption catalog selection <| visitBoundFrom catalog from_ <|
        visitBoundProjection catalog projection p

/-- The loop over a bound projection. -/
def visitBoundProjection (catalog : Catalog) :
    List BoundProjectionItem → PlanFeatures → PlanFeatures
  | [], p => p
  | .expr ⟨expr, _, _, _⟩ :: items, p =>
    visitBoundProjection catalog items (visitBoundExpr catalog expr p)
  | .wildcard .. :: items, p => visitBoundProjection catalog items p
  | .unsupported .. :: items, p => visitBoundProjection catalog items p

/-- The loop over a bound `FROM` clause. -/
def visitBoundFrom (catalog : Catalog) : List BoundTableWithJoins → PlanFeatures → PlanFeatures
  | [], p => p
  | ⟨relation, joins, _⟩ :: tables, p =>
    visitBoundFrom catalog tables <| visitBoundJoins catalog joins <|
      visitBoundRelation catalog relation { p with hasJoins := p.hasJoins || !joins.isEmpty }

/-- The joins of a `FROM` item: each relation and its `ON` condition. -/
def visitBoundJoins (catalog : Catalog) : List BoundJoin → PlanFeatures → PlanFeatures
  | [], p => p
  | ⟨_, relation, on, _⟩ :: joins, p =>
    visitBoundJoins catalog joins
      (visitBoundExprOption catalog on (visitBoundRelation catalog relation p))

/-- `visit_bound_relation`. -/
def visitBoundRelation (catalog : Catalog) : BoundRelation → PlanFeatures → PlanFeatures
  | .derived _ query _, p =>
    { p with hasDerivedTables := true }.merge (planFeaturesFromBound catalog query)
  | .nestedJoin _ ⟨relation, joins, _⟩ _, p =>
    visitBoundNestedJoins catalog joins
      (visitBoundRelation catalog relation { p with hasDerivedTables := true })
  | .table .., p => p
  | .unsupported .., p => p

/-- The joins of a nested join: the relations only, not the `ON` conditions. -/
def visitBoundNestedJoins (catalog : Catalog) : List BoundJoin → PlanFeatures → PlanFeatures
  | [], p => p
  | ⟨_, relation, _, _⟩ :: joins, p =>
    visitBoundNestedJoins catalog joins (visitBoundRelation catalog relation p)

/-- `visit_bound_expr`. -/
def visitBoundExpr (catalog : Catalog) : BoundExpr → PlanFeatures → PlanFeatures
  | ⟨.binary _ left right, _, _, _⟩, p =>
    visitBoundExpr catalog right (visitBoundExpr catalog left p)
  | ⟨.unary _ expr, _, _, _⟩, p => visitBoundExpr catalog expr p
  | ⟨.cast expr _, _, _, _⟩, p => visitBoundExpr catalog expr p
  | ⟨.isNull expr _, _, _, _⟩, p => visitBoundExpr catalog expr p
  | ⟨.function ⟨function, _, args, distinct, _, over_, _⟩, _, _, _⟩, p =>
    let p := p.insertFunction function
    -- A function that the catalog does not know is no feature but its name.
    let p := match catalog.resolveFunction function.namespace_ function.name with
      | none => p
      | some signature =>
        let p := match signature.kind with
          | .aggregate => { p with hasAggregates := true }
          | .window => { p with hasWindows := true }
          | .scalar => p
        -- An approximate function counts as an aggregate, whatever its kind.
        if signature.metadataFlag "approximate" then { p with hasAggregates := true } else p
    let p := { p with hasDistinctAggregates := p.hasDistinctAggregates || distinct }
    -- Neither the filter nor the window's own expressions are visited.
    let p := { p with hasWindows := p.hasWindows || over_.isSome }
    visitBoundExprs catalog args p
  | ⟨.case operand whenThen elseResult, _, _, _⟩, p =>
    visitBoundExprOption catalog elseResult <| visitBoundWhenThens catalog whenThen <|
      visitBoundExprOption catalog operand p
  | ⟨.between expr low high _, _, _, _⟩, p =>
    visitBoundExpr catalog high (visitBoundExpr catalog low (visitBoundExpr catalog expr p))
  | ⟨.inList expr list _, _, _, _⟩, p =>
    visitBoundExprs catalog list (visitBoundExpr catalog expr p)
  | ⟨.inSubquery expr subquery _, _, _, _⟩, p =>
    (visitBoundExpr catalog expr { p with hasInSubqueries := true }).merge
      (planFeaturesFromBound catalog subquery)
  | ⟨.scalarSubquery subquery, _, _, _⟩, p =>
    { p with hasScalarSubqueries := true }.merge (planFeaturesFromBound catalog subquery)
  | ⟨.exists subquery, _, _, _⟩, p =>
    { p with hasScalarSubqueries := true }.merge (planFeaturesFromBound catalog subquery)
  | ⟨.like expr pattern _ _, _, _, _⟩, p =>
    visitBoundExpr catalog pattern (visitBoundExpr catalog expr p)
  | ⟨.tuple items, _, _, _⟩, p => visitBoundExprs catalog items p
  | ⟨.array items, _, _, _⟩, p => visitBoundExprs catalog items p
  | ⟨.column _, _, _, _⟩, p => p
  | ⟨.literal _, _, _, _⟩, p => p
  | ⟨.parameter _, _, _, _⟩, p => p
  | ⟨.unsupported _, _, _, _⟩, p => p

/-- The loop over a list of bound expressions. -/
def visitBoundExprs (catalog : Catalog) : List BoundExpr → PlanFeatures → PlanFeatures
  | [], p => p
  | expr :: exprs, p => visitBoundExprs catalog exprs (visitBoundExpr catalog expr p)

/-- A bound expression, if there is one. -/
def visitBoundExprOption (catalog : Catalog) : Option BoundExpr → PlanFeatures → PlanFeatures
  | none, p => p
  | some expr, p => visitBoundExpr catalog expr p

/-- The loop over the branches of a bound `CASE`. -/
def visitBoundWhenThens (catalog : Catalog) : List BoundWhenThen → PlanFeatures → PlanFeatures
  | [], p => p
  | ⟨condition, result⟩ :: pairs, p =>
    visitBoundWhenThens catalog pairs
      (visitBoundExpr catalog result (visitBoundExpr catalog condition p))

end

end QueryFabric
