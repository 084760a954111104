import QueryFabric.Ir.Syntax

/-!
# The references of a query

An outline keeps of a query its column references and placeholders, and the two orders that they
come in: that of the text, and that in which binding visits them. The two differ at a `SELECT`,
whose projection is written first and bound last.
-/

namespace QueryFabric

/-- References in two orders. -/
inductive Outline (α : Type)
  | nil
  | leaf (reference : α)
  | append (first second : Outline α)
  /-- A select: its projection, and the clauses after it, which are visited first. -/
  | select (projection clauses : Outline α)
deriving DecidableEq, Repr

namespace Outline

variable {α : Type}

/-- The references in the order of the text. -/
def text : Outline α → List α
  | nil => []
  | leaf reference => [reference]
  | append first second => text first ++ text second
  | select projection clauses => text projection ++ text clauses

/-- The references in the order in which they are bound. -/
def visited : Outline α → List α
  | nil => []
  | leaf reference => [reference]
  | append first second => visited first ++ visited second
  | select projection clauses => visited clauses ++ visited projection

end Outline

/-- A reference as it is spelled: a column, or a placeholder, which may be the operand of `IS
NULL`. -/
inductive Reference
  | column (relation : Option String) (name : String)
  | parameter (reference : ParameterRef) (tested : Bool)
deriving DecidableEq, Repr

/-- The parameter of a placeholder. -/
def placeholder? : Reference → Option ParameterRef
  | .parameter reference _ => some reference
  | .column .. => none

/-- The placeholders of an outline in the order of the text. -/
def placeholders (outline : Outline Reference) : List ParameterRef :=
  outline.text.filterMap placeholder?

/-- The placeholders of one reference. -/
theorem placeholders_leaf (reference : Reference) :
    placeholders (.leaf reference) = (placeholder? reference).toList := by
  cases h : placeholder? reference <;> simp [placeholders, Outline.text, h]

/-- The placeholders of two outlines. -/
theorem placeholders_append (first second : Outline Reference) :
    placeholders (.append first second) = placeholders first ++ placeholders second := by
  rw [placeholders, Outline.text, List.filterMap_append, placeholders, placeholders]

/-- The placeholders of a select are those of its projection and of its clauses. -/
theorem placeholders_select (projection clauses : Outline Reference) :
    placeholders (.select projection clauses) = placeholders projection ++
      placeholders clauses := by
  rw [placeholders, Outline.text, List.filterMap_append, placeholders, placeholders]

section Syntax

open Outline

/-- The operand of `IS NULL`, when it is a placeholder. -/
def testedParameter? : SyntaxExpr → Option ParameterRef
  | ⟨.parameter reference, _⟩ => some reference
  | _ => none

/-- The references of the operand of `IS NULL`: one that is a placeholder is tested. -/
def operandOutline : Option ParameterRef → Outline Reference → Outline Reference
  | some reference, _ => leaf (.parameter reference true)
  | none, outline => outline

mutual

/-- The outline of a query. -/
def queryOutline : SyntaxQuery → Outline Reference
  | ⟨_, ctes, _, body, orderBy, limit, offset, _⟩ =>
    append (cteOutlines ctes) (append (setExprOutline body) (append (orderByOutlines orderBy)
      (append (optionOutline limit) (optionOutline offset))))
termination_by structural x => x

/-- The outline of CTEs. -/
def cteOutlines : List SyntaxCte → Outline Reference
  | [] => nil
  | ⟨_, _, query, _⟩ :: ctes => append (queryOutline query) (cteOutlines ctes)
termination_by structural x => x

/-- The outline of a query body. -/
def setExprOutline : SyntaxSetExpr → Outline Reference
  | .select s => selectOutline s
  | .unionAll left right _ => append (setExprOutline left) (setExprOutline right)
  | .unsupported .. => nil
termination_by structural x => x

/-- The outline of a select, whose projection is bound last. -/
def selectOutline : SyntaxSelect → Outline Reference
  | ⟨_, projection, from_, selection, groupBy, having, _⟩ =>
    select (projectionOutlines projection)
      (append (tableOutlines from_) (append (optionOutline selection)
      (append (exprOutlines groupBy) (optionOutline having))))
termination_by structural x => x

/-- The outline of a projection. -/
def projectionOutlines : List SyntaxProjectionItem → Outline Reference
  | [] => nil
  | .expr ⟨expr, _, _⟩ :: items => append (exprOutline expr) (projectionOutlines items)
  | .wildcard .. :: items => projectionOutlines items
  | .unsupported .. :: items => projectionOutlines items
termination_by structural x => x

/-- The outline of a `FROM` clause. -/
def tableOutlines : List SyntaxTableWithJoins → Outline Reference
  | [] => nil
  | table :: tables => append (tableOutline table) (tableOutlines tables)
termination_by structural x => x

/-- The outline of a table with its joins. -/
def tableOutline : SyntaxTableWithJoins → Outline Reference
  | ⟨relation, joins, _⟩ => append (relationOutline relation) (joinOutlines joins)
termination_by structural x => x

/-- The outline of joins. -/
def joinOutlines : List SyntaxJoin → Outline Reference
  | [] => nil
  | ⟨_, relation, on, _⟩ :: joins =>
    append (relationOutline relation) (append (optionOutline on) (joinOutlines joins))
termination_by structural x => x

/-- The outline of a relation. -/
def relationOutline : SyntaxRelation → Outline Reference
  | .table .. => nil
  | .derived query _ _ => queryOutline query
  | .nestedJoin table _ _ => tableOutline table
  | .unsupported .. => nil
termination_by structural x => x

/-- The outline of an `ORDER BY`. -/
def orderByOutlines : List SyntaxOrderByExpr → Outline Reference
  | [] => nil
  | ⟨expr, _, _, _⟩ :: orders => append (exprOutline expr) (orderByOutlines orders)
termination_by structural x => x

/-- The outline of an expression. -/
def exprOutline : SyntaxExpr → Outline Reference
  | ⟨.column relation name, _⟩ => leaf (.column relation name)
  | ⟨.literal _, _⟩ => nil
  | ⟨.parameter reference, _⟩ => leaf (.parameter reference false)
  | ⟨.unary _ expr, _⟩ => exprOutline expr
  | ⟨.binary _ left right, _⟩ => append (exprOutline left) (exprOutline right)
  | ⟨.function call, _⟩ => callOutline call
  | ⟨.case operand whenThen elseResult, _⟩ =>
    append (optionOutline operand) (append (whenThenOutlines whenThen) (optionOutline elseResult))
  | ⟨.cast expr _, _⟩ => exprOutline expr
  | ⟨.between expr low high _, _⟩ =>
    append (exprOutline expr) (append (exprOutline low) (exprOutline high))
  | ⟨.inList expr list _, _⟩ => append (exprOutline expr) (exprOutlines list)
  | ⟨.inSubquery expr subquery _, _⟩ => append (exprOutline expr) (queryOutline subquery)
  | ⟨.scalarSubquery subquery, _⟩ => queryOutline subquery
  | ⟨.exists subquery, _⟩ => queryOutline subquery
  | ⟨.like expr pattern _ _, _⟩ => append (exprOutline expr) (exprOutline pattern)
  | ⟨.isNull expr _, _⟩ => operandOutline (testedParameter? expr) (exprOutline expr)
  | ⟨.tuple items, _⟩ => exprOutlines items
  | ⟨.array items, _⟩ => exprOutlines items
  | ⟨.unsupported _, _⟩ => nil
termination_by structural x => x

/-- The outline of a call. -/
def callOutline : SyntaxFunctionCall → Outline Reference
  | ⟨_, args, _, filter, over_⟩ =>
    append (exprOutlines args) (append (optionOutline filter) (windowOutline over_))
termination_by structural x => x

/-- The outline of a list of expressions. -/
def exprOutlines : List SyntaxExpr → Outline Reference
  | [] => nil
  | expr :: exprs => append (exprOutline expr) (exprOutlines exprs)
termination_by structural x => x

/-- The outline of an expression, if there is one. -/
def optionOutline : Option SyntaxExpr → Outline Reference
  | none => nil
  | some expr => exprOutline expr
termination_by structural x => x

/-- The outline of the branches of a `CASE`. -/
def whenThenOutlines : List SyntaxWhenThen → Outline Reference
  | [] => nil
  | ⟨condition, result⟩ :: pairs =>
    append (exprOutline condition) (append (exprOutline result) (whenThenOutlines pairs))
termination_by structural x => x

/-- The outline of a window, if there is one. -/
def windowOutline : Option WindowSpec → Outline Reference
  | none => nil
  | some ⟨partitionBy, orderBy, _⟩ => append (exprOutlines partitionBy) (orderByOutlines orderBy)
termination_by structural x => x

end

end Syntax

end QueryFabric
