import QueryFabric.ClickHouse.Nested
import QueryFabric.Ir.Uses

/-!
# Rewriting and what expressions use

Rewriting an expression keeps the columns that it refers to with their types, and rewrites the
subqueries that values are looked up in.
-/

namespace QueryFabric.ClickHouse

section Uses

variable (catalog : Catalog) (enabled : Bool)

/-- A use after rewriting. -/
def rewrittenUse : ExprUse → ExprUse
  | .column column type => .column column type
  | .membership type subquery => .membership type (rewritten catalog enabled subquery)

/-- The text conversion keeps the uses of an expression. -/
theorem exprUses_rewriteUuidArrowExpr (expr : BoundExpr) :
    exprUses (rewriteUuidArrowExpr expr enabled).1 = exprUses expr := by
  unfold rewriteUuidArrowExpr
  split
  · rfl
  · simp [wrapCall, exprUses, exprsUses, optionUses, windowUses]

mutual

/-- The uses of a rewritten expression are rewritten. -/
theorem exprUses_rewriteExpr (scope : Option SelectScope) (allow : Bool) : ∀ expr : BoundExpr,
    exprUses (rewriteExpr catalog enabled scope allow expr).1 =
      (exprUses expr).map (rewrittenUse catalog enabled)
  -- A wrapped column is still the same use, with its scope and its name.
  | ⟨.column column, _, _, _⟩ => by
    rw [rewriteExpr]
    split
    · simp [wrapCall, exprUses, exprsUses, optionUses, windowUses, rewrittenUse]
    · simp [exprUses, rewrittenUse]
  | ⟨.literal _, _, _, _⟩ => by simp [rewriteExpr, exprUses]
  | ⟨.parameter _, _, _, _⟩ => by simp [rewriteExpr, exprUses]
  | ⟨.unsupported _, _, _, _⟩ => by simp [rewriteExpr, exprUses]
  | ⟨.unary _ inner, _, _, _⟩ => by
    simp [rewriteExpr, exprUses, exprUses_rewriteExpr scope allow inner]
  | ⟨.binary _ left right, _, _, _⟩ => by
    simp [rewriteExpr, exprUses, exprUses_rewriteExpr scope allow left,
      exprUses_rewriteExpr scope allow right]
  | ⟨.function ⟨function, backendName, args, distinct, filter, over_, signatureName⟩, _, _, _⟩ => by
    have hargs := exprsUses_rewriteExprs scope allow args
    -- Where the arguments are kept, they are a single column, which the rewriting leaves alone.
    have hkept : ∀ call : BoundFunctionCall, call.args = args → exprsUses
        (if keepArgs scope allow call then (args, ([] : List MvEvent)) else
          rewriteExprs catalog enabled scope allow args).1 =
            (exprsUses args).map (rewrittenUse catalog enabled) := by
      intro call hcall
      split
      · rename_i hkeep
        obtain ⟨column, ty, nu, nd, hcolumn⟩ := args_of_keepArgs hkeep
        rw [← hcall, hcolumn]
        simp [exprsUses, exprUses, rewrittenUse]
      · exact hargs
    simp only [rewriteExpr, exprUses, List.map_append,
      optionUses_rewriteExprOption scope false filter, windowUses_rewriteWindow scope over_]
    rw [hkept _ rfl]
  | ⟨.case operand whenThen elseResult, _, _, _⟩ => by
    simp [rewriteExpr, exprUses, optionUses_rewriteExprOption scope allow operand,
      whenThenUses_rewriteWhenThens scope allow whenThen,
      optionUses_rewriteExprOption scope allow elseResult]
  | ⟨.cast inner _, _, _, _⟩ => by
    simp [rewriteExpr, exprUses, exprUses_rewriteExpr scope allow inner]
  | ⟨.between input low high _, _, _, _⟩ => by
    simp [rewriteExpr, exprUses, exprUses_rewriteExpr scope allow input,
      exprUses_rewriteExpr scope allow low, exprUses_rewriteExpr scope allow high]
  | ⟨.inList input list _, _, _, _⟩ => by
    simp [rewriteExpr, exprUses, exprUses_rewriteExpr scope allow input,
      exprsUses_rewriteExprs scope allow list]
  | ⟨.inSubquery input subquery _, _, _, _⟩ => by
    simp [rewriteExpr, exprUses, exprUses_rewriteExpr scope allow input, rewrittenUse, rewritten]
  | ⟨.scalarSubquery _, _, _, _⟩ => by simp [rewriteExpr, exprUses]
  | ⟨.exists _, _, _, _⟩ => by simp [rewriteExpr, exprUses]
  | ⟨.like input pattern _ _, _, _, _⟩ => by
    simp [rewriteExpr, exprUses, exprUses_rewriteExpr scope allow input,
      exprUses_rewriteExpr scope allow pattern]
  | ⟨.isNull inner _, _, _, _⟩ => by
    simp [rewriteExpr, exprUses, exprUses_rewriteExpr scope allow inner]
  | ⟨.tuple items, _, _, _⟩ => by
    simp [rewriteExpr, exprUses, exprsUses_rewriteExprs scope allow items]
  | ⟨.array items, _, _, _⟩ => by
    simp [rewriteExpr, exprUses, exprsUses_rewriteExprs scope allow items]
termination_by structural expr => expr

/-- The uses of a rewritten list are rewritten. -/
theorem exprsUses_rewriteExprs (scope : Option SelectScope) (allow : Bool) :
    ∀ exprs : List BoundExpr, exprsUses (rewriteExprs catalog enabled scope allow exprs).1 =
      (exprsUses exprs).map (rewrittenUse catalog enabled)
  | [] => by simp [rewriteExprs, exprsUses]
  | expr :: exprs => by
    simp [rewriteExprs, exprsUses, exprUses_rewriteExpr scope allow expr,
      exprsUses_rewriteExprs scope allow exprs]
termination_by structural exprs => exprs

/-- The uses of a rewritten optional expression are rewritten. -/
theorem optionUses_rewriteExprOption (scope : Option SelectScope) (allow : Bool) :
    ∀ expr : Option BoundExpr, optionUses (rewriteExprOption catalog enabled scope allow expr).1 =
      (optionUses expr).map (rewrittenUse catalog enabled)
  | none => by simp [rewriteExprOption, optionUses]
  | some expr => by
    simp [rewriteExprOption, optionUses, exprUses_rewriteExpr scope allow expr]
termination_by structural expr => expr

/-- The uses of rewritten branches are rewritten. -/
theorem whenThenUses_rewriteWhenThens (scope : Option SelectScope) (allow : Bool) :
    ∀ pairs : List BoundWhenThen,
      whenThenUses (rewriteWhenThens catalog enabled scope allow pairs).1 =
        (whenThenUses pairs).map (rewrittenUse catalog enabled)
  | [] => by simp [rewriteWhenThens, whenThenUses]
  | ⟨condition, result⟩ :: pairs => by
    simp [rewriteWhenThens, whenThenUses, exprUses_rewriteExpr scope allow condition,
      exprUses_rewriteExpr scope allow result, whenThenUses_rewriteWhenThens scope allow pairs]
termination_by structural pairs => pairs

/-- The uses of a rewritten `ORDER BY` are rewritten. -/
theorem orderByUses_rewriteOrderBys (scope : Option SelectScope) :
    ∀ orders : List BoundOrderByExpr, orderByUses (rewriteOrderBys catalog enabled scope orders).1 =
      (orderByUses orders).map (rewrittenUse catalog enabled)
  | [] => by simp [rewriteOrderBys, orderByUses]
  | ⟨expr, _, _, _⟩ :: orders => by
    simp [rewriteOrderBys, rewriteOrderByExpr, orderByUses, exprUses_rewriteExpr scope false expr,
      orderByUses_rewriteOrderBys scope orders]
termination_by structural orders => orders

/-- The uses of a rewritten window are rewritten. -/
theorem windowUses_rewriteWindow (scope : Option SelectScope) : ∀ over_ : Option BoundWindowSpec,
    windowUses (rewriteWindow catalog enabled scope over_).1 =
      (windowUses over_).map (rewrittenUse catalog enabled)
  | none => by simp [rewriteWindow, windowUses]
  | some ⟨partitionBy, orderBy, _⟩ => by
    simp [rewriteWindow, windowUses, exprsUses_rewriteExprs scope false partitionBy,
      orderByUses_rewriteOrderBys scope orderBy]
termination_by structural over_ => over_

end

end Uses

end QueryFabric.ClickHouse
