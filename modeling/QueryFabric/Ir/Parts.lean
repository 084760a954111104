import QueryFabric.Ir.Syntax

/-!
# The parts of a query

`queryParts` lists the queries, CTEs, joins and expressions of a query at any depth. Each is listed
with its nesting depth: the number of queries and expressions that it is in.
-/

namespace QueryFabric

/-- A part of a query. -/
inductive SyntaxPart
  | query (query : SyntaxQuery)
  | cte (cte : SyntaxCte)
  | join (join : SyntaxJoin)
  | expr (expr : SyntaxExpr)

/-- The part is a CTE. -/
def SyntaxPart.isCte : SyntaxPart → Bool
  | cte _ => true
  | _ => false

/-- The part is a join. -/
def SyntaxPart.isJoin : SyntaxPart → Bool
  | join _ => true
  | _ => false

/-- A part with its nesting depth. -/
structure PlacedPart where
  depth : Nat
  part : SyntaxPart

mutual

/-- The parts of a query, at a depth. -/
def queryParts (depth : Nat) : SyntaxQuery → List PlacedPart
  | ⟨node, ctes, withRecursive, body, orderBy, limit, offset, clauses⟩ =>
    ⟨depth, .query ⟨node, ctes, withRecursive, body, orderBy, limit, offset, clauses⟩⟩ ::
      (cteParts depth ctes ++ setExprParts depth body ++ orderByParts (depth + 1) orderBy ++
        exprOptionParts (depth + 1) limit ++ exprOptionParts (depth + 1) offset)
termination_by structural x => x

/-- The parts of the CTEs of a query of the given depth. -/
def cteParts (depth : Nat) : List SyntaxCte → List PlacedPart
  | [] => []
  | ⟨name, columns, query, node⟩ :: ctes =>
    ⟨depth, .cte ⟨name, columns, query, node⟩⟩ :: queryParts (depth + 1) query ++
      cteParts depth ctes
termination_by structural x => x

/-- The parts of the body of a query of the given depth. -/
def setExprParts (depth : Nat) : SyntaxSetExpr → List PlacedPart
  | .select s => selectParts depth s
  | .unionAll left right _ => setExprParts depth left ++ setExprParts depth right
  | .unsupported .. => []
termination_by structural x => x

/-- The parts of a select. -/
def selectParts (depth : Nat) : SyntaxSelect → List PlacedPart
  | ⟨_, projection, from_, selection, groupBy, having, _⟩ =>
    projectionParts (depth + 1) projection ++ tablesParts depth from_ ++
      exprOptionParts (depth + 1) selection ++
      exprsParts (depth + 1) groupBy ++ exprOptionParts (depth + 1) having
termination_by structural x => x

/-- The parts of a projection. -/
def projectionParts (depth : Nat) : List SyntaxProjectionItem → List PlacedPart
  | [] => []
  | .wildcard .. :: items => projectionParts depth items
  | .expr ⟨expr, _, _⟩ :: items => exprParts depth expr ++ projectionParts depth items
  | .unsupported .. :: items => projectionParts depth items
termination_by structural x => x

/-- The parts of a `FROM` clause. -/
def tablesParts (depth : Nat) : List SyntaxTableWithJoins → List PlacedPart
  | [] => []
  | table :: tables => tableParts depth table ++ tablesParts depth tables
termination_by structural x => x

/-- The parts of a table with its joins. -/
def tableParts (depth : Nat) : SyntaxTableWithJoins → List PlacedPart
  | ⟨relation, joins, _⟩ => relationParts depth relation ++ joinParts depth joins
termination_by structural x => x

/-- The parts of joins. -/
def joinParts (depth : Nat) : List SyntaxJoin → List PlacedPart
  | [] => []
  | ⟨kind, relation, on, node⟩ :: joins =>
    ⟨depth, .join ⟨kind, relation, on, node⟩⟩ ::
      (relationParts depth relation ++ exprOptionParts (depth + 1) on) ++ joinParts depth joins
termination_by structural x => x

/-- The parts of a relation in a query of the given depth. -/
def relationParts (depth : Nat) : SyntaxRelation → List PlacedPart
  | .table .. => []
  | .derived query _ _ => queryParts (depth + 1) query
  | .nestedJoin table _ _ => tableParts depth table
  | .unsupported .. => []
termination_by structural x => x

/-- The parts of an `ORDER BY`. -/
def orderByParts (depth : Nat) : List SyntaxOrderByExpr → List PlacedPart
  | [] => []
  | ⟨expr, _, _, _⟩ :: orders => exprParts depth expr ++ orderByParts depth orders
termination_by structural x => x

/-- The parts of an expression. -/
def exprParts (depth : Nat) : SyntaxExpr → List PlacedPart
  | ⟨kind, node⟩ => ⟨depth, .expr ⟨kind, node⟩⟩ :: kindParts (depth + 1) kind
termination_by structural x => x

/-- The parts below an expression, where its operands have the given depth. -/
def kindParts (depth : Nat) : SyntaxExprKind → List PlacedPart
  | .column .. => []
  | .literal _ => []
  | .parameter _ => []
  | .unary _ expr => exprParts depth expr
  | .binary _ left right => exprParts depth left ++ exprParts depth right
  | .function call => callParts depth call
  | .case operand whenThen elseResult =>
    exprOptionParts depth operand ++ whenThenParts depth whenThen ++
      exprOptionParts depth elseResult
  | .cast expr _ => exprParts depth expr
  | .between expr low high _ => exprParts depth expr ++ exprParts depth low ++ exprParts depth high
  | .inList expr list _ => exprParts depth expr ++ exprsParts depth list
  | .inSubquery expr subquery _ => exprParts depth expr ++ queryParts depth subquery
  | .scalarSubquery subquery => queryParts depth subquery
  | .exists subquery => queryParts depth subquery
  | .like expr pattern _ _ => exprParts depth expr ++ exprParts depth pattern
  | .isNull expr _ => exprParts depth expr
  | .tuple items => exprsParts depth items
  | .array items => exprsParts depth items
  | .unsupported _ => []
termination_by structural x => x

/-- The parts of a call. -/
def callParts (depth : Nat) : SyntaxFunctionCall → List PlacedPart
  | ⟨_, args, _, filter, over_⟩ =>
    exprsParts depth args ++ exprOptionParts depth filter ++ windowParts depth over_
termination_by structural x => x

/-- The parts of a list of expressions. -/
def exprsParts (depth : Nat) : List SyntaxExpr → List PlacedPart
  | [] => []
  | expr :: exprs => exprParts depth expr ++ exprsParts depth exprs
termination_by structural x => x

/-- The parts of an expression, if there is one. -/
def exprOptionParts (depth : Nat) : Option SyntaxExpr → List PlacedPart
  | none => []
  | some expr => exprParts depth expr
termination_by structural x => x

/-- The parts of the branches of a `CASE`. -/
def whenThenParts (depth : Nat) : List SyntaxWhenThen → List PlacedPart
  | [] => []
  | ⟨condition, result⟩ :: pairs =>
    exprParts depth condition ++ exprParts depth result ++ whenThenParts depth pairs
termination_by structural x => x

/-- The parts of a window, if there is one. -/
def windowParts (depth : Nat) : Option WindowSpec → List PlacedPart
  | none => []
  | some ⟨partitionBy, orderBy, _⟩ => exprsParts depth partitionBy ++ orderByParts depth orderBy
termination_by structural x => x

end

/-- The greatest nesting depth of a query or expression. -/
def nestingHeight (query : SyntaxQuery) : Nat :=
  (queryParts 0 query).foldr (fun placed height => max placed.depth height) 0

/-- The number of CTEs of a query, at any depth. -/
def cteCount (query : SyntaxQuery) : Nat :=
  (queryParts 0 query).countP fun placed => placed.part.isCte

/-- The number of joins of a query, at any depth. -/
def joinCount (query : SyntaxQuery) : Nat :=
  (queryParts 0 query).countP fun placed => placed.part.isJoin

end QueryFabric
