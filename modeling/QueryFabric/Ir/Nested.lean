import QueryFabric.Ir.Bound
import Mathlib.Logic.Relation

/-!
# Nested queries

A plan may nest others: as CTEs, as derived tables and as subqueries of expressions. `directQueries`
lists those that stand directly in a plan, and `Within` is their closure, so that a statement at
every nesting depth is one over the plans within a plan.
-/

namespace QueryFabric

mutual

/-- The subqueries of an expression. -/
def exprQueries : BoundExpr → List BoundQueryPlan
  | ⟨.column _, _, _, _⟩ => []
  | ⟨.literal _, _, _, _⟩ => []
  | ⟨.parameter _, _, _, _⟩ => []
  | ⟨.unary _ expr, _, _, _⟩ => exprQueries expr
  | ⟨.binary _ left right, _, _, _⟩ => exprQueries left ++ exprQueries right
  | ⟨.function ⟨_, _, args, _, filter, over_, _⟩, _, _, _⟩ =>
    exprsQueries args ++ optionQueries filter ++ windowQueries over_
  | ⟨.case operand whenThen elseResult, _, _, _⟩ =>
    optionQueries operand ++ whenThenQueries whenThen ++ optionQueries elseResult
  | ⟨.cast expr _, _, _, _⟩ => exprQueries expr
  | ⟨.between expr low high _, _, _, _⟩ => exprQueries expr ++ exprQueries low ++ exprQueries high
  | ⟨.inList expr list _, _, _, _⟩ => exprQueries expr ++ exprsQueries list
  | ⟨.inSubquery expr subquery _, _, _, _⟩ => exprQueries expr ++ [subquery]
  | ⟨.scalarSubquery subquery, _, _, _⟩ => [subquery]
  | ⟨.exists subquery, _, _, _⟩ => [subquery]
  | ⟨.like expr pattern _ _, _, _, _⟩ => exprQueries expr ++ exprQueries pattern
  | ⟨.isNull expr _, _, _, _⟩ => exprQueries expr
  | ⟨.tuple items, _, _, _⟩ => exprsQueries items
  | ⟨.array items, _, _, _⟩ => exprsQueries items
  | ⟨.unsupported _, _, _, _⟩ => []

/-- The queries in a list of expressions. -/
def exprsQueries : List BoundExpr → List BoundQueryPlan
  | [] => []
  | expr :: exprs => exprQueries expr ++ exprsQueries exprs

/-- The queries in an expression, if there is one. -/
def optionQueries : Option BoundExpr → List BoundQueryPlan
  | none => []
  | some expr => exprQueries expr

/-- The queries in the branches of a `CASE`. -/
def whenThenQueries : List BoundWhenThen → List BoundQueryPlan
  | [] => []
  | ⟨condition, result⟩ :: pairs =>
    exprQueries condition ++ exprQueries result ++ whenThenQueries pairs

/-- The queries in an `ORDER BY`. -/
def orderByQueries : List BoundOrderByExpr → List BoundQueryPlan
  | [] => []
  | ⟨expr, _, _, _⟩ :: orders => exprQueries expr ++ orderByQueries orders

/-- The queries in a window, if there is one. -/
def windowQueries : Option BoundWindowSpec → List BoundQueryPlan
  | none => []
  | some ⟨partitionBy, orderBy, _⟩ => exprsQueries partitionBy ++ orderByQueries orderBy

end

mutual

/-- The derived tables of a relation, and the subqueries of the conditions in it. -/
def relationQueries : BoundRelation → List BoundQueryPlan
  | .table .. => []
  | .derived _ query _ => [query]
  | .nestedJoin _ ⟨relation, joins, _⟩ _ => relationQueries relation ++ joinQueries joins
  | .unsupported .. => []

/-- The queries in joins. -/
def joinQueries : List BoundJoin → List BoundQueryPlan
  | [] => []
  | ⟨_, relation, on, _⟩ :: joins =>
    relationQueries relation ++ optionQueries on ++ joinQueries joins

end

/-- The queries in a table with its joins. -/
def tableQueries (table : BoundTableWithJoins) : List BoundQueryPlan :=
  relationQueries table.relation ++ joinQueries table.joins

/-- The queries in a projection item. -/
def itemQueries : BoundProjectionItem → List BoundQueryPlan
  | .expr details => exprQueries details.expr
  | .wildcard .. => []
  | .unsupported .. => []

/-- The queries in a select. -/
def selectQueries (select : BoundSelect) : List BoundQueryPlan :=
  select.projection.flatMap itemQueries ++ select.from_.flatMap tableQueries ++
    optionQueries select.selection ++ exprsQueries select.groupBy ++ optionQueries select.having

/-- The queries in a query body. -/
def setExprQueries : BoundSetExpr → List BoundQueryPlan
  | .select select => selectQueries select
  | .unionAll left right _ _ => setExprQueries left ++ setExprQueries right
  | .unsupported .. => []

/-- The queries that stand directly in a plan. -/
def directQueries (plan : BoundQueryPlan) : List BoundQueryPlan :=
  plan.ctes.map BoundCte.query ++ setExprQueries plan.body ++ orderByQueries plan.orderBy ++
    optionQueries plan.limit ++ optionQueries plan.offset

/-- `inner` is `plan`, or a query within it at some depth. -/
def Within (plan inner : BoundQueryPlan) : Prop :=
  Relation.ReflTransGen (fun outer inner => inner ∈ directQueries outer) plan inner

/-- A property of every query within a plan. -/
def AllWithin (P : BoundQueryPlan → Prop) (plan : BoundQueryPlan) : Prop :=
  ∀ inner, Within plan inner → P inner

/-- Every query within a plan has a property when the plan has it and every query within those that
stand in it directly does. -/
theorem allWithin_iff {P : BoundQueryPlan → Prop} {plan : BoundQueryPlan} :
    AllWithin P plan ↔ P plan ∧ ∀ inner ∈ directQueries plan, AllWithin P inner := by
  constructor
  · intro h
    exact ⟨h plan .refl, fun inner hinner q hq => h q (.head hinner hq)⟩
  · rintro ⟨hplan, hinner⟩ q hq
    obtain rfl | ⟨inner, hdirect, hrest⟩ := hq.cases_head
    · exact hplan
    · exact hinner inner hdirect q hrest

/-- The plans within a plan down to a depth, the plan itself first. -/
def plansWithin : Nat → BoundQueryPlan → List BoundQueryPlan
  | 0, plan => [plan]
  | depth + 1, plan => plan :: (directQueries plan).flatMap (plansWithin depth)

/-- No query stands deeper in a plan. -/
def nestedAtMost : Nat → BoundQueryPlan → Bool
  | 0, plan => (directQueries plan).isEmpty
  | depth + 1, plan => (directQueries plan).all (nestedAtMost depth)

/-- A property of every query within a plan, checked down to the depth of the plan. -/
theorem allWithin_of_plansWithin {P : BoundQueryPlan → Prop} {depth : Nat} {plan : BoundQueryPlan}
    (hdepth : nestedAtMost depth plan = true) (h : ∀ inner ∈ plansWithin depth plan, P inner) :
    AllWithin P plan := by
  induction depth generalizing plan with
  | zero =>
    rw [nestedAtMost, List.isEmpty_iff] at hdepth
    refine allWithin_iff.mpr ⟨h plan List.mem_cons_self, fun inner hinner => ?_⟩
    rw [hdepth] at hinner
    cases hinner
  | succ depth ih =>
    refine allWithin_iff.mpr ⟨h plan List.mem_cons_self, fun inner hinner => ?_⟩
    refine ih (List.all_eq_true.mp hdepth inner hinner) fun q hq => h q ?_
    exact List.mem_cons_of_mem _ (List.mem_flatMap.mpr ⟨inner, hinner, hq⟩)

/-- The set operations and selects of a query body. -/
def setExprs : BoundSetExpr → List BoundSetExpr
  | .unionAll left right node schema =>
    .unionAll left right node schema :: (setExprs left ++ setExprs right)
  | body => [body]

/-- The queries in a list are those in its expressions. -/
theorem mem_exprsQueries {q : BoundQueryPlan} {exprs : List BoundExpr} :
    q ∈ exprsQueries exprs ↔ ∃ x ∈ exprs, q ∈ exprQueries x := by
  induction exprs with
  | nil => simp [exprsQueries]
  | cons x exprs ih => simp [exprsQueries, ih]

/-- The queries in an expression, if there is one. -/
theorem mem_optionQueries {q : BoundQueryPlan} {expr : Option BoundExpr} :
    q ∈ optionQueries expr ↔ ∃ x ∈ expr, q ∈ exprQueries x := by
  cases expr <;> simp [optionQueries]

/-- The queries in the branches are those in conditions and results. -/
theorem mem_whenThenQueries {q : BoundQueryPlan} {pairs : List BoundWhenThen} :
    q ∈ whenThenQueries pairs ↔ ∃ w ∈ pairs, q ∈ exprQueries w.condition ∨
      q ∈ exprQueries w.result := by
  induction pairs with
  | nil => simp [whenThenQueries]
  | cons w pairs ih =>
    cases w
    simp [whenThenQueries, ih, or_assoc]

/-- The queries in an `ORDER BY` are those in its expressions. -/
theorem mem_orderByQueries {q : BoundQueryPlan} {orders : List BoundOrderByExpr} :
    q ∈ orderByQueries orders ↔ ∃ o ∈ orders, q ∈ exprQueries o.expr := by
  induction orders with
  | nil => simp [orderByQueries]
  | cons o orders ih =>
    cases o
    simp [orderByQueries, ih]

/-- The queries in a window are those in its keys. -/
theorem mem_windowQueries {q : BoundQueryPlan} {over_ : Option BoundWindowSpec} :
    q ∈ windowQueries over_ ↔ ∃ w ∈ over_, (∃ x ∈ w.partitionBy, q ∈ exprQueries x) ∨
      ∃ o ∈ w.orderBy, q ∈ exprQueries o.expr := by
  cases over_ with
  | none => simp [windowQueries]
  | some w =>
    cases w
    simp [windowQueries, mem_exprsQueries, mem_orderByQueries]

end QueryFabric
