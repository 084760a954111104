import QueryFabric.Ir.Bound

/-!
# The nodes of a plan

`exprNodes` and its siblings list everything in a plan that is written out when it is rendered: each
expression at any depth, the subqueries' included, each name, each called function and each backend
clause. Conditions on a whole plan are stated over this list.
-/

namespace QueryFabric

/-- A part of a plan that is written out. -/
inductive PlanNode
  | expr (expr : BoundExpr)
  | identifier (value : String)
  | qualifiedName (value : String)
  | function (function : FunctionRef)
  | clause (clause : BackendClause)

/-- The names of a table with its alias. -/
def tableNodes (binding : BoundRelationBinding) : List PlanNode :=
  match binding.relationName with
  | none => [.identifier binding.bindingName]
  | some name =>
    name.namespace_.toList.map .identifier ++ .identifier name.name ::
      if eqIgnoreAsciiCase name.name binding.bindingName then []
      else [.identifier binding.bindingName]

mutual

/-- The nodes of a plan. -/
def queryNodes : BoundQueryPlan → List PlanNode
  | ⟨_, ctes, body, orderBy, limit, offset, backendClauses, _⟩ =>
    cteNodes ctes ++ setExprNodes body ++ orderByNodes orderBy ++ exprOptionNodes limit ++
      exprOptionNodes offset ++ backendClauses.map .clause

/-- The nodes of CTEs. -/
def cteNodes : List BoundCte → List PlanNode
  | [] => []
  | ⟨name, columns, query, _, _⟩ :: ctes =>
    .identifier name :: columns.map .identifier ++ queryNodes query ++ cteNodes ctes

/-- The nodes of a query body. -/
def setExprNodes : BoundSetExpr → List PlanNode
  | .select s => selectNodes s
  | .unionAll left right _ _ => setExprNodes left ++ setExprNodes right
  | .unsupported .. => []

/-- The nodes of a select. -/
def selectNodes : BoundSelect → List PlanNode
  | ⟨_, projection, from_, selection, groupBy, having, _, _⟩ =>
    projectionNodes projection ++ tablesNodes from_ ++ exprOptionNodes selection ++
      exprsNodes groupBy ++ exprOptionNodes having

/-- The nodes of a projection. -/
def projectionNodes : List BoundProjectionItem → List PlanNode
  | [] => []
  | .expr ⟨expr, alias_, _, _⟩ :: items =>
    exprNodes expr ++ alias_.toList.map .identifier ++ projectionNodes items
  | .wildcard qualifier _ _ :: items =>
    qualifier.toList.map .qualifiedName ++ projectionNodes items
  | .unsupported .. :: items => projectionNodes items

/-- The nodes of a `FROM` clause. -/
def tablesNodes : List BoundTableWithJoins → List PlanNode
  | [] => []
  | table :: tables => tableWithJoinsNodes table ++ tablesNodes tables

/-- The nodes of a table with its joins. -/
def tableWithJoinsNodes : BoundTableWithJoins → List PlanNode
  | ⟨relation, joins, _⟩ => relationNodes relation ++ joinNodes joins

/-- The nodes of joins. -/
def joinNodes : List BoundJoin → List PlanNode
  | [] => []
  | ⟨_, relation, on, _⟩ :: joins => relationNodes relation ++ exprOptionNodes on ++ joinNodes joins

/-- The nodes of a relation. -/
def relationNodes : BoundRelation → List PlanNode
  | .table binding _ => tableNodes binding
  | .derived binding query _ => queryNodes query ++ [.identifier binding.bindingName]
  | .nestedJoin binding tableWithJoins _ =>
    tableWithJoinsNodes tableWithJoins ++ [.identifier binding.bindingName]
  | .unsupported .. => []

/-- The nodes of an `ORDER BY`. -/
def orderByNodes : List BoundOrderByExpr → List PlanNode
  | [] => []
  | ⟨expr, _, _, _⟩ :: orders => exprNodes expr ++ orderByNodes orders

/-- An expression with everything below it. -/
def exprNodes : BoundExpr → List PlanNode
  | ⟨.column column, ty, nu, nd⟩ =>
    .expr ⟨.column column, ty, nu, nd⟩ ::
      (column.relation.toList.map .qualifiedName ++ [.identifier column.name])
  | ⟨.literal value, ty, nu, nd⟩ => [.expr ⟨.literal value, ty, nu, nd⟩]
  | ⟨.parameter reference, ty, nu, nd⟩ => [.expr ⟨.parameter reference, ty, nu, nd⟩]
  | ⟨.unary op expr, ty, nu, nd⟩ => .expr ⟨.unary op expr, ty, nu, nd⟩ :: exprNodes expr
  | ⟨.binary op left right, ty, nu, nd⟩ =>
    .expr ⟨.binary op left right, ty, nu, nd⟩ :: (exprNodes left ++ exprNodes right)
  | ⟨.function ⟨function, backendName, args, distinct, filter, over_, signatureName⟩, ty, nu, nd⟩ =>
    -- A call has its function as a node beside its own.
    .expr ⟨.function ⟨function, backendName, args, distinct, filter, over_, signatureName⟩, ty, nu,
      nd⟩ :: .function function ::
      (exprsNodes args ++ exprOptionNodes filter ++ windowNodes over_)
  | ⟨.case operand whenThen elseResult, ty, nu, nd⟩ =>
    .expr ⟨.case operand whenThen elseResult, ty, nu, nd⟩ ::
      (exprOptionNodes operand ++ whenThenNodes whenThen ++ exprOptionNodes elseResult)
  | ⟨.cast expr type, ty, nu, nd⟩ => .expr ⟨.cast expr type, ty, nu, nd⟩ :: exprNodes expr
  | ⟨.between expr low high negated, ty, nu, nd⟩ =>
    .expr ⟨.between expr low high negated, ty, nu, nd⟩ ::
      (exprNodes expr ++ exprNodes low ++ exprNodes high)
  | ⟨.inList expr list negated, ty, nu, nd⟩ =>
    .expr ⟨.inList expr list negated, ty, nu, nd⟩ :: (exprNodes expr ++ exprsNodes list)
  | ⟨.inSubquery expr subquery negated, ty, nu, nd⟩ =>
    .expr ⟨.inSubquery expr subquery negated, ty, nu, nd⟩ :: (exprNodes expr ++ queryNodes subquery)
  | ⟨.scalarSubquery subquery, ty, nu, nd⟩ =>
    .expr ⟨.scalarSubquery subquery, ty, nu, nd⟩ :: queryNodes subquery
  | ⟨.exists subquery, ty, nu, nd⟩ => .expr ⟨.exists subquery, ty, nu, nd⟩ :: queryNodes subquery
  | ⟨.like expr pattern negated caseInsensitive, ty, nu, nd⟩ =>
    .expr ⟨.like expr pattern negated caseInsensitive, ty, nu, nd⟩ ::
      (exprNodes expr ++ exprNodes pattern)
  | ⟨.isNull expr negated, ty, nu, nd⟩ => .expr ⟨.isNull expr negated, ty, nu, nd⟩ :: exprNodes expr
  | ⟨.tuple items, ty, nu, nd⟩ => .expr ⟨.tuple items, ty, nu, nd⟩ :: exprsNodes items
  | ⟨.array items, ty, nu, nd⟩ => .expr ⟨.array items, ty, nu, nd⟩ :: exprsNodes items
  | ⟨.unsupported description, ty, nu, nd⟩ => [.expr ⟨.unsupported description, ty, nu, nd⟩]

/-- The nodes of a list of expressions. -/
def exprsNodes : List BoundExpr → List PlanNode
  | [] => []
  | expr :: exprs => exprNodes expr ++ exprsNodes exprs

/-- The nodes of an expression, if there is one. -/
def exprOptionNodes : Option BoundExpr → List PlanNode
  | none => []
  | some expr => exprNodes expr

/-- The nodes of the branches of a `CASE`. -/
def whenThenNodes : List BoundWhenThen → List PlanNode
  | [] => []
  | ⟨condition, result⟩ :: pairs =>
    exprNodes condition ++ exprNodes result ++ whenThenNodes pairs

/-- The nodes of a window, if there is one. -/
def windowNodes : Option BoundWindowSpec → List PlanNode
  | none => []
  | some ⟨partitionBy, orderBy, _⟩ => exprsNodes partitionBy ++ orderByNodes orderBy

end

end QueryFabric
