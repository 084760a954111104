import QueryFabric.Ir.Syntax

/-!
# The selects of a query

`querySelects` lists the selects of a query at any depth, or without those in the selections of some
of them.
-/

namespace QueryFabric

mutual

/-- The selects of a query at any depth, but for those in the selections that are not descended
into. -/
def querySelects (descend : SyntaxSelect → Bool) : SyntaxQuery → List SyntaxSelect
  | ⟨_, ctes, _, body, orderBy, limit, offset, _⟩ =>
    cteSelects descend ctes ++ setExprSelects descend body ++ orderBySelects descend orderBy ++
      exprOptionSelects descend limit ++ exprOptionSelects descend offset
termination_by structural x => x

/-- The selects of CTEs. -/
def cteSelects (descend : SyntaxSelect → Bool) : List SyntaxCte → List SyntaxSelect
  | [] => []
  | ⟨_, _, query, _⟩ :: ctes => querySelects descend query ++ cteSelects descend ctes
termination_by structural x => x

/-- The selects of a query body. -/
def setExprSelects (descend : SyntaxSelect → Bool) : SyntaxSetExpr → List SyntaxSelect
  | .select s => selectSelects descend s
  | .unionAll left right _ => setExprSelects descend left ++ setExprSelects descend right
  | .unsupported .. => []
termination_by structural x => x

/-- The selects of a select, itself first. -/
def selectSelects (descend : SyntaxSelect → Bool) : SyntaxSelect → List SyntaxSelect
  | ⟨distinct, projection, from_, selection, groupBy, having, node⟩ =>
    ⟨distinct, projection, from_, selection, groupBy, having, node⟩ ::
      (projectionSelects descend projection ++ tablesSelects descend from_ ++
        (if descend ⟨distinct, projection, from_, selection, groupBy, having, node⟩ then
          exprOptionSelects descend selection else []) ++
        exprsSelects descend groupBy ++ exprOptionSelects descend having)
termination_by structural x => x

/-- The selects of a projection. -/
def projectionSelects (descend : SyntaxSelect → Bool) :
    List SyntaxProjectionItem → List SyntaxSelect
  | [] => []
  | .wildcard .. :: items => projectionSelects descend items
  | .expr ⟨expr, _, _⟩ :: items => exprSelects descend expr ++ projectionSelects descend items
  | .unsupported .. :: items => projectionSelects descend items
termination_by structural x => x

/-- The selects of a `FROM` clause. -/
def tablesSelects (descend : SyntaxSelect → Bool) : List SyntaxTableWithJoins → List SyntaxSelect
  | [] => []
  | table :: tables => tableSelects descend table ++ tablesSelects descend tables
termination_by structural x => x

/-- The selects of a table with its joins. -/
def tableSelects (descend : SyntaxSelect → Bool) : SyntaxTableWithJoins → List SyntaxSelect
  | ⟨relation, joins, _⟩ => relationSelects descend relation ++ joinSelects descend joins
termination_by structural x => x

/-- The selects of joins. -/
def joinSelects (descend : SyntaxSelect → Bool) : List SyntaxJoin → List SyntaxSelect
  | [] => []
  | ⟨_, relation, on, _⟩ :: joins =>
    relationSelects descend relation ++ exprOptionSelects descend on ++ joinSelects descend joins
termination_by structural x => x

/-- The selects of a relation. -/
def relationSelects (descend : SyntaxSelect → Bool) : SyntaxRelation → List SyntaxSelect
  | .table .. => []
  | .derived query _ _ => querySelects descend query
  | .nestedJoin table _ _ => tableSelects descend table
  | .unsupported .. => []
termination_by structural x => x

/-- The selects of an `ORDER BY`. -/
def orderBySelects (descend : SyntaxSelect → Bool) : List SyntaxOrderByExpr → List SyntaxSelect
  | [] => []
  | ⟨expr, _, _, _⟩ :: orders => exprSelects descend expr ++ orderBySelects descend orders
termination_by structural x => x

/-- The selects of an expression. -/
def exprSelects (descend : SyntaxSelect → Bool) : SyntaxExpr → List SyntaxSelect
  | ⟨kind, _⟩ => kindSelects descend kind
termination_by structural x => x

/-- The selects of a kind of expression. -/
def kindSelects (descend : SyntaxSelect → Bool) : SyntaxExprKind → List SyntaxSelect
  | .column .. => []
  | .literal _ => []
  | .parameter _ => []
  | .unary _ expr => exprSelects descend expr
  | .binary _ left right => exprSelects descend left ++ exprSelects descend right
  | .function call => callSelects descend call
  | .case operand whenThen elseResult =>
    exprOptionSelects descend operand ++ whenThenSelects descend whenThen ++
      exprOptionSelects descend elseResult
  | .cast expr _ => exprSelects descend expr
  | .between expr low high _ =>
    exprSelects descend expr ++ exprSelects descend low ++ exprSelects descend high
  | .inList expr list _ => exprSelects descend expr ++ exprsSelects descend list
  | .inSubquery expr subquery _ => exprSelects descend expr ++ querySelects descend subquery
  | .scalarSubquery subquery => querySelects descend subquery
  | .exists subquery => querySelects descend subquery
  | .like expr pattern _ _ => exprSelects descend expr ++ exprSelects descend pattern
  | .isNull expr _ => exprSelects descend expr
  | .tuple items => exprsSelects descend items
  | .array items => exprsSelects descend items
  | .unsupported _ => []
termination_by structural x => x

/-- The selects of a call. -/
def callSelects (descend : SyntaxSelect → Bool) : SyntaxFunctionCall → List SyntaxSelect
  | ⟨_, args, _, filter, over_⟩ =>
    exprsSelects descend args ++ exprOptionSelects descend filter ++ windowSelects descend over_
termination_by structural x => x

/-- The selects of a list of expressions. -/
def exprsSelects (descend : SyntaxSelect → Bool) : List SyntaxExpr → List SyntaxSelect
  | [] => []
  | expr :: exprs => exprSelects descend expr ++ exprsSelects descend exprs
termination_by structural x => x

/-- The selects of an expression, if there is one. -/
def exprOptionSelects (descend : SyntaxSelect → Bool) : Option SyntaxExpr → List SyntaxSelect
  | none => []
  | some expr => exprSelects descend expr
termination_by structural x => x

/-- The selects of the branches of a `CASE`. -/
def whenThenSelects (descend : SyntaxSelect → Bool) : List SyntaxWhenThen → List SyntaxSelect
  | [] => []
  | ⟨condition, result⟩ :: pairs =>
    exprSelects descend condition ++ exprSelects descend result ++ whenThenSelects descend pairs
termination_by structural x => x

/-- The selects of a window, if there is one. -/
def windowSelects (descend : SyntaxSelect → Bool) : Option WindowSpec → List SyntaxSelect
  | none => []
  | some ⟨partitionBy, orderBy, _⟩ =>
    exprsSelects descend partitionBy ++ orderBySelects descend orderBy
termination_by structural x => x

end

end QueryFabric
