import QueryFabric.Ir.Nested

/-!
# Column references and membership tests

`exprUses` lists the column references of an expression, each with the type that it carries, and the
tests of membership in a subquery. Those of a subquery are its own.
-/

namespace QueryFabric

/-- What an expression uses: a column, or a subquery that a value of the given type is looked up
in. -/
inductive ExprUse
  | column (column : BoundColumnRef) (type : DataType)
  | membership (type : DataType) (subquery : BoundQueryPlan)

mutual

/-- The uses of an expression, from left to right. -/
def exprUses : BoundExpr → List ExprUse
  | ⟨.column column, type, _, _⟩ => [.column column type]
  | ⟨.literal _, _, _, _⟩ => []
  | ⟨.parameter _, _, _, _⟩ => []
  | ⟨.unary _ expr, _, _, _⟩ => exprUses expr
  | ⟨.binary _ left right, _, _, _⟩ => exprUses left ++ exprUses right
  | ⟨.function ⟨_, _, args, _, filter, over_, _⟩, _, _, _⟩ =>
    exprsUses args ++ optionUses filter ++ windowUses over_
  | ⟨.case operand whenThen elseResult, _, _, _⟩ =>
    optionUses operand ++ whenThenUses whenThen ++ optionUses elseResult
  | ⟨.cast expr _, _, _, _⟩ => exprUses expr
  | ⟨.between expr low high _, _, _, _⟩ => exprUses expr ++ exprUses low ++ exprUses high
  | ⟨.inList expr list _, _, _, _⟩ => exprUses expr ++ exprsUses list
  | ⟨.inSubquery expr subquery _, _, _, _⟩ =>
    exprUses expr ++ [.membership expr.dataType subquery]
  | ⟨.scalarSubquery _, _, _, _⟩ => []
  | ⟨.exists _, _, _, _⟩ => []
  | ⟨.like expr pattern _ _, _, _, _⟩ => exprUses expr ++ exprUses pattern
  | ⟨.isNull expr _, _, _, _⟩ => exprUses expr
  | ⟨.tuple items, _, _, _⟩ => exprsUses items
  | ⟨.array items, _, _, _⟩ => exprsUses items
  | ⟨.unsupported _, _, _, _⟩ => []

/-- The uses in a list of expressions. -/
def exprsUses : List BoundExpr → List ExprUse
  | [] => []
  | expr :: exprs => exprUses expr ++ exprsUses exprs

/-- The uses in an expression, if there is one. -/
def optionUses : Option BoundExpr → List ExprUse
  | none => []
  | some expr => exprUses expr

/-- The uses in the branches of a `CASE`. -/
def whenThenUses : List BoundWhenThen → List ExprUse
  | [] => []
  | ⟨condition, result⟩ :: pairs => exprUses condition ++ exprUses result ++ whenThenUses pairs

/-- The uses in an `ORDER BY`. -/
def orderByUses : List BoundOrderByExpr → List ExprUse
  | [] => []
  | ⟨expr, _, _, _⟩ :: orders => exprUses expr ++ orderByUses orders

/-- The uses in a window, if there is one. -/
def windowUses : Option BoundWindowSpec → List ExprUse
  | none => []
  | some ⟨partitionBy, orderBy, _⟩ => exprsUses partitionBy ++ orderByUses orderBy

end

mutual

/-- The join conditions in a relation. -/
def relationConditions : BoundRelation → List BoundExpr
  | .table .. => []
  | .derived .. => []
  | .nestedJoin _ ⟨relation, joins, _⟩ _ => relationConditions relation ++ joinConditions joins
  | .unsupported .. => []

/-- The conditions of joins. -/
def joinConditions : List BoundJoin → List BoundExpr
  | [] => []
  | ⟨_, relation, on, _⟩ :: joins =>
    relationConditions relation ++ on.toList ++ joinConditions joins

end

/-- The conditions of a table with its joins. -/
def tableConditions (table : BoundTableWithJoins) : List BoundExpr :=
  relationConditions table.relation ++ joinConditions table.joins

/-- The expressions of a select outside its projection. -/
def clauseExprs (select : BoundSelect) : List BoundExpr :=
  select.from_.flatMap tableConditions ++ select.selection.toList ++ select.groupBy ++
    select.having.toList

/-- The expressions of a query that stand after its body. -/
def outputExprs (query : BoundQueryPlan) : List BoundExpr :=
  query.orderBy.map BoundOrderByExpr.expr ++ query.limit.toList ++ query.offset.toList

/-- The uses in a list are those in its expressions. -/
theorem mem_exprsUses {u : ExprUse} {exprs : List BoundExpr} :
    u ∈ exprsUses exprs ↔ ∃ x ∈ exprs, u ∈ exprUses x := by
  induction exprs with
  | nil => simp [exprsUses]
  | cons x exprs ih => simp [exprsUses, ih]

/-- The uses in an expression, if there is one. -/
theorem mem_optionUses {u : ExprUse} {expr : Option BoundExpr} :
    u ∈ optionUses expr ↔ ∃ x ∈ expr, u ∈ exprUses x := by
  cases expr <;> simp [optionUses]

/-- The uses in the branches are those in conditions and results. -/
theorem mem_whenThenUses {u : ExprUse} {pairs : List BoundWhenThen} :
    u ∈ whenThenUses pairs ↔ ∃ w ∈ pairs, u ∈ exprUses w.condition ∨ u ∈ exprUses w.result := by
  induction pairs with
  | nil => simp [whenThenUses]
  | cons w pairs ih =>
    cases w
    simp [whenThenUses, ih, or_assoc]

/-- The uses in an `ORDER BY` are those in its expressions. -/
theorem mem_orderByUses {u : ExprUse} {orders : List BoundOrderByExpr} :
    u ∈ orderByUses orders ↔ ∃ o ∈ orders, u ∈ exprUses o.expr := by
  induction orders with
  | nil => simp [orderByUses]
  | cons o orders ih =>
    cases o
    simp [orderByUses, ih]

/-- The uses in a window are those in its keys. -/
theorem mem_windowUses {u : ExprUse} {over_ : Option BoundWindowSpec} :
    u ∈ windowUses over_ ↔ ∃ w ∈ over_, (∃ x ∈ w.partitionBy, u ∈ exprUses x) ∨
      ∃ o ∈ w.orderBy, u ∈ exprUses o.expr := by
  cases over_ with
  | none => simp [windowUses]
  | some w =>
    cases w
    simp [windowUses, mem_exprsUses, mem_orderByUses]

end QueryFabric
