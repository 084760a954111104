import QueryFabric.Bind.Placeholders

/-!
# Inspecting the parameters of a query

`inspect_parameters` of `crates/queryfabric/src/inspect.rs` visits a parsed query and reports the
names of its named placeholders and the highest position of its positional ones, where an anonymous
one counts as position zero. `inspect_agrees_iff` says when that is what the parameters of the bound
query come to.
-/

namespace QueryFabric

open QueryFabric.Bind

/-- The summary of placeholders: the highest position, and the names in order. -/
structure ParameterSummary where
  positionalCount : Nat := 0
  namedParams : List String := []
deriving DecidableEq, Repr

/-- `record_parameter`. -/
def recordParameter (summary : ParameterSummary) : ParameterRef → ParameterSummary
  | .positional position => { summary with positionalCount := max summary.positionalCount position }
  | .named name =>
    let names := summary.namedParams.foldl
      (fun names name => setInsert (fun a b => decide (a < b)) name names) []
    { summary with namedParams := setInsert (fun a b => decide (a < b)) name names }

mutual

/-- `visit_query`. -/
def visitQuery : SyntaxQuery → ParameterSummary → ParameterSummary
  | ⟨_, ctes, _, body, orderBy, limit, offset, _⟩, summary =>
    visitOption offset
      (visitOption limit (visitOrderBys orderBy (visitSetExpr body (visitCtes ctes summary))))
termination_by structural x => x

/-- `visit_query` over the CTEs of a `WITH`. -/
def visitCtes : List SyntaxCte → ParameterSummary → ParameterSummary
  | [], summary => summary
  | ⟨_, _, query, _⟩ :: ctes, summary => visitCtes ctes (visitQuery query summary)
termination_by structural x => x

/-- `visit_set_expr`. -/
def visitSetExpr : SyntaxSetExpr → ParameterSummary → ParameterSummary
  | .select select, summary => visitSelect select summary
  | .unionAll left right _, summary => visitSetExpr right (visitSetExpr left summary)
  | .unsupported .., summary => summary
termination_by structural x => x

/-- `visit_select`. -/
def visitSelect : SyntaxSelect → ParameterSummary → ParameterSummary
  | ⟨_, projection, from_, selection, groupBy, having, _⟩, summary =>
    visitOption having (visitExprs groupBy (visitOption selection
      (visitTables from_ (visitProjection projection summary))))
termination_by structural x => x

/-- `visit_projection_item` over a projection. -/
def visitProjection : List SyntaxProjectionItem → ParameterSummary → ParameterSummary
  | [], summary => summary
  | .expr ⟨expr, _, _⟩ :: items, summary => visitProjection items (visitExpr expr summary)
  | .wildcard .. :: items, summary => visitProjection items summary
  | .unsupported .. :: items, summary => visitProjection items summary
termination_by structural x => x

/-- `visit_table_with_joins` over the tables of a `FROM`. -/
def visitTables : List SyntaxTableWithJoins → ParameterSummary → ParameterSummary
  | [], summary => summary
  | table :: tables, summary => visitTables tables (visitTableWithJoins table summary)
termination_by structural x => x

/-- `visit_table_with_joins`. -/
def visitTableWithJoins : SyntaxTableWithJoins → ParameterSummary → ParameterSummary
  | ⟨relation, joins, _⟩, summary => visitJoins joins (visitRelation relation summary)
termination_by structural x => x

/-- The joins of a table: each relation and then its condition. -/
def visitJoins : List SyntaxJoin → ParameterSummary → ParameterSummary
  | [], summary => summary
  | ⟨_, relation, on, _⟩ :: joins, summary =>
    visitJoins joins (visitOption on (visitRelation relation summary))
termination_by structural x => x

/-- `visit_relation`. -/
def visitRelation : SyntaxRelation → ParameterSummary → ParameterSummary
  | .derived query _ _, summary => visitQuery query summary
  | .nestedJoin table _ _, summary => visitTableWithJoins table summary
  | .table .., summary => summary
  | .unsupported .., summary => summary
termination_by structural x => x

/-- The expressions of an `ORDER BY`. -/
def visitOrderBys : List SyntaxOrderByExpr → ParameterSummary → ParameterSummary
  | [], summary => summary
  | ⟨expr, _, _, _⟩ :: orders, summary => visitOrderBys orders (visitExpr expr summary)
termination_by structural x => x

/-- `visit_expr`. -/
def visitExpr : SyntaxExpr → ParameterSummary → ParameterSummary
  | ⟨.parameter reference, _⟩, summary => recordParameter summary reference
  | ⟨.unary _ expr, _⟩, summary => visitExpr expr summary
  | ⟨.cast expr _, _⟩, summary => visitExpr expr summary
  | ⟨.isNull expr _, _⟩, summary => visitExpr expr summary
  | ⟨.binary _ left right, _⟩, summary => visitExpr right (visitExpr left summary)
  | ⟨.function call, _⟩, summary => visitCall call summary
  | ⟨.case operand whenThen elseResult, _⟩, summary =>
    visitOption elseResult (visitWhenThens whenThen (visitOption operand summary))
  | ⟨.between expr low high _, _⟩, summary =>
    visitExpr high (visitExpr low (visitExpr expr summary))
  | ⟨.inList expr list _, _⟩, summary => visitExprs list (visitExpr expr summary)
  | ⟨.inSubquery expr subquery _, _⟩, summary => visitQuery subquery (visitExpr expr summary)
  | ⟨.scalarSubquery subquery, _⟩, summary => visitQuery subquery summary
  | ⟨.exists subquery, _⟩, summary => visitQuery subquery summary
  | ⟨.like expr pattern _ _, _⟩, summary => visitExpr pattern (visitExpr expr summary)
  | ⟨.tuple items, _⟩, summary => visitExprs items summary
  | ⟨.array items, _⟩, summary => visitExprs items summary
  | ⟨.column _ _, _⟩, summary => summary
  | ⟨.literal _, _⟩, summary => summary
  | ⟨.unsupported _, _⟩, summary => summary
termination_by structural x => x

/-- A function call: its arguments, its filter and its window. -/
def visitCall : SyntaxFunctionCall → ParameterSummary → ParameterSummary
  | ⟨_, args, _, filter, over_⟩, summary =>
    visitWindow over_ (visitOption filter (visitExprs args summary))
termination_by structural x => x

/-- `visit_expr` over a list. -/
def visitExprs : List SyntaxExpr → ParameterSummary → ParameterSummary
  | [], summary => summary
  | expr :: exprs, summary => visitExprs exprs (visitExpr expr summary)
termination_by structural x => x

/-- `visit_expr` over an optional expression. -/
def visitOption : Option SyntaxExpr → ParameterSummary → ParameterSummary
  | none, summary => summary
  | some expr, summary => visitExpr expr summary
termination_by structural x => x

/-- `visit_expr` over the branches of a `CASE`. -/
def visitWhenThens : List SyntaxWhenThen → ParameterSummary → ParameterSummary
  | [], summary => summary
  | ⟨condition, result⟩ :: pairs, summary =>
    visitWhenThens pairs (visitExpr result (visitExpr condition summary))
termination_by structural x => x

/-- `visit_window` over an optional window. -/
def visitWindow : Option WindowSpec → ParameterSummary → ParameterSummary
  | none, summary => summary
  | some ⟨partitionBy, orderBy, _⟩, summary =>
    visitOrderBys orderBy (visitExprs partitionBy summary)
termination_by structural x => x

end

/-- `inspect_parameters`. -/
def inspectParameters (parsed : ParsedQuery) : ParameterSummary := visitQuery parsed.syntaxTree {}

/-! ## What a visit records -/

/-- The summary after placeholders were recorded. -/
def recordAll (references : List ParameterRef) (summary : ParameterSummary) : ParameterSummary :=
  references.foldl recordParameter summary

/-- Two lists of references are recorded one after the other. -/
theorem recordAll_append (first second : List ParameterRef) (summary : ParameterSummary) :
    recordAll (first ++ second) summary = recordAll second (recordAll first summary) :=
  List.foldl_append

/-- A visit of the operand of `IS NULL` records the placeholder that it may be. -/
theorem placeholders_isNull (expr : SyntaxExpr) :
    placeholders (operandOutline (testedParameter? expr) (exprOutline expr)) =
      placeholders (exprOutline expr) := by
  obtain ⟨kind, node⟩ := expr
  cases kind with
  | parameter reference =>
    rw [exprOutline]
    rfl
  | _ => rfl

mutual

/-- Visiting a query records its placeholders in the order of the outline. -/
theorem visitQuery_eq : ∀ (query : SyntaxQuery) (summary : ParameterSummary),
    visitQuery query summary = recordAll (placeholders (queryOutline query)) summary
  | ⟨_, ctes, _, body, orderBy, limit, offset, _⟩, summary => by
    simp only [visitQuery, queryOutline, placeholders_append, recordAll_append, visitCtes_eq ctes,
      visitSetExpr_eq body, visitOrderBys_eq orderBy, visitOption_eq limit, visitOption_eq offset]
termination_by structural x => x

/-- Visiting the CTEs records their placeholders in that order. -/
theorem visitCtes_eq : ∀ (ctes : List SyntaxCte) (summary : ParameterSummary),
    visitCtes ctes summary = recordAll (placeholders (cteOutlines ctes)) summary
  | [], summary => by rw [visitCtes, cteOutlines]; rfl
  | ⟨_, _, query, _⟩ :: ctes, summary => by
    simp only [visitCtes, cteOutlines, placeholders_append, recordAll_append, visitQuery_eq query,
      visitCtes_eq ctes]
termination_by structural x => x

/-- Visiting a set expression records its placeholders in that order. -/
theorem visitSetExpr_eq : ∀ (body : SyntaxSetExpr) (summary : ParameterSummary),
    visitSetExpr body summary = recordAll (placeholders (setExprOutline body)) summary
  | .select select, summary => by
    rw [visitSetExpr, setExprOutline, visitSelect_eq select]
  | .unionAll left right _, summary => by
    simp only [visitSetExpr, setExprOutline, placeholders_append, recordAll_append,
      visitSetExpr_eq left, visitSetExpr_eq right]
  | .unsupported .., summary => by rw [visitSetExpr, setExprOutline]; rfl
termination_by structural x => x

/-- Visiting a select records its placeholders in that order. -/
theorem visitSelect_eq : ∀ (select : SyntaxSelect) (summary : ParameterSummary),
    visitSelect select summary = recordAll (placeholders (selectOutline select)) summary
  | ⟨_, projection, from_, selection, groupBy, having, _⟩, summary => by
    simp only [visitSelect, selectOutline, placeholders_append, placeholders_select,
      recordAll_append, visitProjection_eq projection, visitTables_eq from_,
      visitOption_eq selection, visitExprs_eq groupBy, visitOption_eq having]
termination_by structural x => x

/-- Visiting a projection records its placeholders in that order. -/
theorem visitProjection_eq : ∀ (items : List SyntaxProjectionItem) (summary : ParameterSummary),
    visitProjection items summary = recordAll (placeholders (projectionOutlines items)) summary
  | [], summary => by rw [visitProjection, projectionOutlines]; rfl
  | .expr ⟨expr, _, _⟩ :: items, summary => by
    simp only [visitProjection, projectionOutlines, placeholders_append, recordAll_append,
      visitExpr_eq expr, visitProjection_eq items]
  | .wildcard .. :: items, summary => by
    rw [visitProjection, projectionOutlines, visitProjection_eq items]
  | .unsupported .. :: items, summary => by
    rw [visitProjection, projectionOutlines, visitProjection_eq items]
termination_by structural x => x

/-- Visiting the tables of a `FROM` records their placeholders in that order. -/
theorem visitTables_eq : ∀ (tables : List SyntaxTableWithJoins) (summary : ParameterSummary),
    visitTables tables summary = recordAll (placeholders (tableOutlines tables)) summary
  | [], summary => by rw [visitTables, tableOutlines]; rfl
  | table :: tables, summary => by
    simp only [visitTables, tableOutlines, placeholders_append, recordAll_append,
      visitTableWithJoins_eq table, visitTables_eq tables]
termination_by structural x => x

/-- Visiting a table with its joins records their placeholders in that order. -/
theorem visitTableWithJoins_eq : ∀ (table : SyntaxTableWithJoins) (summary : ParameterSummary),
    visitTableWithJoins table summary = recordAll (placeholders (tableOutline table)) summary
  | ⟨relation, joins, _⟩, summary => by
    simp only [visitTableWithJoins, tableOutline, placeholders_append, recordAll_append,
      visitRelation_eq relation, visitJoins_eq joins]
termination_by structural x => x

/-- Visiting the joins records their placeholders in that order. -/
theorem visitJoins_eq : ∀ (joins : List SyntaxJoin) (summary : ParameterSummary),
    visitJoins joins summary = recordAll (placeholders (joinOutlines joins)) summary
  | [], summary => by rw [visitJoins, joinOutlines]; rfl
  | ⟨_, relation, on, _⟩ :: joins, summary => by
    simp only [visitJoins, joinOutlines, placeholders_append, recordAll_append,
      visitRelation_eq relation, visitOption_eq on, visitJoins_eq joins]
termination_by structural x => x

/-- Visiting a relation records its placeholders in that order. -/
theorem visitRelation_eq : ∀ (relation : SyntaxRelation) (summary : ParameterSummary),
    visitRelation relation summary = recordAll (placeholders (relationOutline relation)) summary
  | .table .., summary => by rw [visitRelation, relationOutline]; rfl
  | .derived query _ _, summary => by rw [visitRelation, relationOutline, visitQuery_eq query]
  | .nestedJoin table _ _, summary => by
    rw [visitRelation, relationOutline, visitTableWithJoins_eq table]
  | .unsupported .., summary => by rw [visitRelation, relationOutline]; rfl
termination_by structural x => x

/-- Visiting an `ORDER BY` records its placeholders in that order. -/
theorem visitOrderBys_eq : ∀ (orders : List SyntaxOrderByExpr) (summary : ParameterSummary),
    visitOrderBys orders summary = recordAll (placeholders (orderByOutlines orders)) summary
  | [], summary => by rw [visitOrderBys, orderByOutlines]; rfl
  | ⟨expr, _, _, _⟩ :: orders, summary => by
    simp only [visitOrderBys, orderByOutlines, placeholders_append, recordAll_append,
      visitExpr_eq expr, visitOrderBys_eq orders]
termination_by structural x => x

/-- Visiting an expression records its placeholders in that order. -/
theorem visitExpr_eq : ∀ (expr : SyntaxExpr) (summary : ParameterSummary),
    visitExpr expr summary = recordAll (placeholders (exprOutline expr)) summary
  -- A leaf is a placeholder or nothing, and the parts of any other kind are visited in the order of
  -- the outline.
  | ⟨.column _ _, _⟩, summary => by rw [visitExpr, exprOutline]; rfl
  | ⟨.literal _, _⟩, summary => by rw [visitExpr, exprOutline]; rfl
  | ⟨.parameter _, _⟩, summary => by rw [visitExpr, exprOutline]; rfl
  | ⟨.unary _ expr, _⟩, summary => by rw [visitExpr, exprOutline, visitExpr_eq expr]
  | ⟨.binary _ left right, _⟩, summary => by
    simp only [visitExpr, exprOutline, placeholders_append, recordAll_append, visitExpr_eq left,
      visitExpr_eq right]
  | ⟨.function call, _⟩, summary => by rw [visitExpr, exprOutline, visitCall_eq call]
  | ⟨.case operand whenThen elseResult, _⟩, summary => by
    simp only [visitExpr, exprOutline, placeholders_append, recordAll_append,
      visitOption_eq operand, visitWhenThens_eq whenThen, visitOption_eq elseResult]
  | ⟨.cast expr _, _⟩, summary => by rw [visitExpr, exprOutline, visitExpr_eq expr]
  | ⟨.between expr low high _, _⟩, summary => by
    simp only [visitExpr, exprOutline, placeholders_append, recordAll_append, visitExpr_eq expr,
      visitExpr_eq low, visitExpr_eq high]
  | ⟨.inList expr list _, _⟩, summary => by
    simp only [visitExpr, exprOutline, placeholders_append, recordAll_append, visitExpr_eq expr,
      visitExprs_eq list]
  | ⟨.inSubquery expr subquery _, _⟩, summary => by
    simp only [visitExpr, exprOutline, placeholders_append, recordAll_append, visitExpr_eq expr,
      visitQuery_eq subquery]
  | ⟨.scalarSubquery subquery, _⟩, summary => by rw [visitExpr, exprOutline, visitQuery_eq subquery]
  | ⟨.exists subquery, _⟩, summary => by rw [visitExpr, exprOutline, visitQuery_eq subquery]
  | ⟨.like expr pattern _ _, _⟩, summary => by
    simp only [visitExpr, exprOutline, placeholders_append, recordAll_append, visitExpr_eq expr,
      visitExpr_eq pattern]
  -- Here the test itself does not count.
  | ⟨.isNull expr _, _⟩, summary => by
    rw [visitExpr, exprOutline, placeholders_isNull, visitExpr_eq expr]
  | ⟨.tuple items, _⟩, summary => by rw [visitExpr, exprOutline, visitExprs_eq items]
  | ⟨.array items, _⟩, summary => by rw [visitExpr, exprOutline, visitExprs_eq items]
  | ⟨.unsupported _, _⟩, summary => by rw [visitExpr, exprOutline]; rfl
termination_by structural x => x

/-- Visiting a function call records its placeholders in that order. -/
theorem visitCall_eq : ∀ (call : SyntaxFunctionCall) (summary : ParameterSummary),
    visitCall call summary = recordAll (placeholders (callOutline call)) summary
  | ⟨_, args, _, filter, over_⟩, summary => by
    simp only [visitCall, callOutline, placeholders_append, recordAll_append, visitExprs_eq args,
      visitOption_eq filter, visitWindow_eq over_]
termination_by structural x => x

/-- Visiting a list of expressions records their placeholders in that order. -/
theorem visitExprs_eq : ∀ (exprs : List SyntaxExpr) (summary : ParameterSummary),
    visitExprs exprs summary = recordAll (placeholders (exprOutlines exprs)) summary
  | [], summary => by rw [visitExprs, exprOutlines]; rfl
  | expr :: exprs, summary => by
    simp only [visitExprs, exprOutlines, placeholders_append, recordAll_append, visitExpr_eq expr,
      visitExprs_eq exprs]
termination_by structural x => x

/-- Visiting an optional expression records its placeholders in that order. -/
theorem visitOption_eq : ∀ (expr : Option SyntaxExpr) (summary : ParameterSummary),
    visitOption expr summary = recordAll (placeholders (optionOutline expr)) summary
  | none, summary => by rw [visitOption, optionOutline]; rfl
  | some expr, summary => by rw [visitOption, optionOutline, visitExpr_eq expr]
termination_by structural x => x

/-- Visiting the branches of a `CASE` records their placeholders in that order. -/
theorem visitWhenThens_eq : ∀ (pairs : List SyntaxWhenThen) (summary : ParameterSummary),
    visitWhenThens pairs summary = recordAll (placeholders (whenThenOutlines pairs)) summary
  | [], summary => by rw [visitWhenThens, whenThenOutlines]; rfl
  | ⟨condition, result⟩ :: pairs, summary => by
    simp only [visitWhenThens, whenThenOutlines, placeholders_append, recordAll_append,
      visitExpr_eq condition, visitExpr_eq result, visitWhenThens_eq pairs]
termination_by structural x => x

/-- Visiting a window records its placeholders in that order. -/
theorem visitWindow_eq : ∀ (over_ : Option WindowSpec) (summary : ParameterSummary),
    visitWindow over_ summary = recordAll (placeholders (windowOutline over_)) summary
  | none, summary => by rw [visitWindow, windowOutline]; rfl
  | some ⟨partitionBy, orderBy, _⟩, summary => by
    simp only [visitWindow, windowOutline, placeholders_append, recordAll_append,
      visitExprs_eq partitionBy, visitOrderBys_eq orderBy]
termination_by structural x => x

end

/-! ## Agreement with the binder -/

/-- The position of a positional reference. -/
def position? : ParameterRef → Option Nat
  | .positional position => some position
  | .named _ => none

/-- The largest positional reference. -/
def largestPosition (references : List ParameterRef) : Nat :=
  (references.filterMap position?).foldl max 0

/-- The references of the parameters of a bound query. -/
def BoundQuery.references (bound : BoundQuery) : List ParameterRef :=
  bound.parameters.map fun binding => binding.schema.reference

/-- Recording references takes the count to the largest position among them. -/
theorem positionalCount_recordAll (references : List ParameterRef) : ∀ summary : ParameterSummary,
    (recordAll references summary).positionalCount =
      (references.filterMap position?).foldl max summary.positionalCount := by
  induction references with
  | nil => intro summary; rfl
  | cons reference references ih =>
    intro summary
    cases reference with
    | positional position => exact ih _
    | named name => exact ih _

/-- Two strings of which neither is before the other are equal. -/
theorem string_trichotomy (a b : String) (hab : decide (a < b) = false)
    (hba : decide (b < a) = false) : a = b :=
  le_antisymm (not_lt.mp (of_decide_eq_false hba)) (not_lt.mp (of_decide_eq_false hab))

/-- The names recorded are the ones there were and the ones of the references. -/
theorem mem_namedParams_recordAll (name : String) (references : List ParameterRef) :
    ∀ summary : ParameterSummary,
    name ∈ (recordAll references summary).namedParams ↔
      name ∈ summary.namedParams ∨ .named name ∈ references := by
  induction references with
  | nil => intro summary; simp [recordAll]
  | cons reference references ih =>
    intro summary
    have hstep := ih (recordParameter summary reference)
    rw [List.mem_cons]
    refine hstep.trans ?_
    cases reference with
    | positional position => simp [recordParameter]
    | named other =>
      rw [recordParameter, mem_setInsert string_trichotomy, mem_foldl_setInsert string_trichotomy]
      simp only [List.not_mem_nil, false_or, ParameterRef.named.injEq]
      grind

/-- A maximum is within a bound where the start and every entry are. -/
theorem le_foldl_max {l : List Nat} {m n : Nat} : l.foldl max m ≤ n ↔ m ≤ n ∧ ∀ k ∈ l, k ≤ n := by
  induction l generalizing m with
  | nil => simp
  | cons k l ih => rw [List.foldl_cons, ih, List.forall_mem_cons, max_le_iff, and_assoc]

/-- A bound on the largest position is one on every position. -/
theorem largestPosition_le {references : List ParameterRef} {n : Nat} :
    largestPosition references ≤ n ↔ ∀ position, .positional position ∈ references →
    position ≤ n := by
  unfold largestPosition
  rw [le_foldl_max, and_iff_right (Nat.zero_le n)]
  constructor
  · intro h position hmem
    exact h position (List.mem_filterMap.mpr ⟨_, hmem, rfl⟩)
  · intro h position hposition
    obtain ⟨reference, hmem, hreference⟩ := List.mem_filterMap.mp hposition
    cases reference with
    | positional n =>
      cases hreference
      exact h _ hmem
    | named _ => cases hreference

/-- The highest position that the counter hands out, if it hands out one, is not above the largest
explicit one. -/
def HandedOutWithin (parameters : QueryParameters) (query : SyntaxQuery) : Prop :=
  allocationCount (queryOutline query) = 0 ∨
    min (nextAutoPositionSeed parameters + allocationCount (queryOutline query) - 1) (2 ^ 32 - 1) ≤
      largestPosition (placeholders (queryOutline query))

/-- Whether the positions handed out stay within the explicit ones is decided by the counts. -/
instance (parameters : QueryParameters) (query : SyntaxQuery) :
    Decidable (HandedOutWithin parameters query) :=
  inferInstanceAs (Decidable (_ ∨ _))

/-- Every position that the counter hands out is within a bound when the highest one is. -/
theorem handedOut_le_iff (seed count n : Nat) (hseed : 1 ≤ seed ∧ seed < 2 ^ 32) :
    (∀ k < count, (seed + k) % 2 ^ 32 ≤ n) ↔ count = 0 ∨
      min (seed + count - 1) (2 ^ 32 - 1) ≤ n := by
  constructor
  · intro h
    by_cases hcount : count = 0
    · exact .inl hcount
    · right
      by_cases hwrap : seed + count - 1 < 2 ^ 32
      · have hlast := h (count - 1) (by omega)
        rw [Nat.mod_eq_of_lt (by omega)] at hlast
        omega
      · have hlast := h (2 ^ 32 - 1 - seed) (by omega)
        rw [Nat.mod_eq_of_lt (by omega)] at hlast
        omega
  · intro h k hk
    have hlt := Nat.mod_lt (seed + k) (Nat.two_pow_pos 32)
    have hle := Nat.mod_le (seed + k) (2 ^ 32)
    omega

/-- The references of a bound query: the explicit placeholders, and what the counter hands out. -/
theorem mem_references_iff {context : BinderContext} {parsed : ParsedQuery} {bound : BoundQuery}
    (h : bindAndValidate context parsed = .ok bound) (r : ParameterRef) :
    r ∈ bound.references ↔ (r ≠ .positional 0 ∧ r ∈ placeholders (queryOutline parsed.syntaxTree)) ∨
      ∃ k < allocationCount (queryOutline parsed.syntaxTree),
        r = .positional ((nextAutoPositionSeed context.parameters + k) % 2 ^ 32) := by
  have hvalid := validated_of_ok h
  have hused :=
    (binds_query hvalid.accepted).used (nextAutoPositionSeed_bounds context.parameters).2 r
  have hempty : r ∉ (Binder.new context).allocation.used := by
    intro hr
    cases hr
  rw [or_iff_right hempty] at hused
  exact hvalid.references.mem_iff.trans hused

/-- The names that are reported are always those of the bound query. The positional count is its
largest positional reference exactly when the counter hands out nothing above the largest explicit
position. -/
theorem inspect_agrees_iff {context : BinderContext} {parsed : ParsedQuery} {bound : BoundQuery}
    (h : bindAndValidate context parsed = .ok bound) :
    ((∀ name, name ∈ (inspectParameters parsed).namedParams ↔ .named name ∈ bound.references) ∧
        (inspectParameters parsed).positionalCount = largestPosition bound.references) ↔
      HandedOutWithin context.parameters parsed.syntaxTree := by
  have hvisit : inspectParameters parsed =
      recordAll (placeholders (queryOutline parsed.syntaxTree)) {} :=
    visitQuery_eq parsed.syntaxTree {}
  have hnames : ∀ name, name ∈ (inspectParameters parsed).namedParams ↔
      .named name ∈ bound.references := by
    intro name
    rw [hvisit, mem_namedParams_recordAll, mem_references_iff h]
    simp
  have hcount : (inspectParameters parsed).positionalCount =
      largestPosition (placeholders (queryOutline parsed.syntaxTree)) := by
    rw [hvisit, positionalCount_recordAll, largestPosition]
  -- The explicit positions are among those of the bound query.
  have hexplicit : largestPosition (placeholders (queryOutline parsed.syntaxTree)) ≤
      largestPosition bound.references := by
    refine largestPosition_le.mpr fun position hmem => ?_
    by_cases hzero : position = 0
    · omega
    · refine largestPosition_le.mp le_rfl position ((mem_references_iff h _).mpr (.inl ⟨?_, hmem⟩))
      intro heq
      exact hzero (ParameterRef.positional.inj heq)
  rw [and_iff_right hnames, hcount]
  have hwithin := handedOut_le_iff _ (allocationCount (queryOutline parsed.syntaxTree))
    (largestPosition (placeholders (queryOutline parsed.syntaxTree)))
    (nextAutoPositionSeed_bounds context.parameters)
  refine Iff.trans ?_ hwithin
  constructor
  · intro heq k hk
    rw [heq]
    exact largestPosition_le.mp le_rfl _ ((mem_references_iff h _).mpr (.inr ⟨k, hk, rfl⟩))
  · intro hall
    refine le_antisymm hexplicit (largestPosition_le.mpr fun position hmem => ?_)
    obtain ⟨-, hplaceholder⟩ | ⟨k, hk, heq⟩ := (mem_references_iff h _).mp hmem
    · exact largestPosition_le.mp le_rfl position hplaceholder
    · cases heq
      exact hall k hk

/-- `SELECT id FROM events WHERE id = $1` has one positional parameter, and that is what is
reported. -/
theorem explicitId_agrees : ∃ bound,
    bindAndValidate usersAndEvents
      (parsedTree (selectWhere (.column none "id") (.parameter (.positional 1)))) =
        .ok bound ∧
      (inspectParameters (parsedTree
        (selectWhere (.column none "id") (.parameter (.positional 1))))).positionalCount =
        largestPosition bound.references :=
  ⟨_, rfl, ((@inspect_agrees_iff usersAndEvents
    (parsedTree (selectWhere (.column none "id") (.parameter (.positional 1))))
    _ rfl).mpr (by decide)).2⟩

/-- `SELECT id FROM events WHERE id = ?` has one positional parameter too. None is reported. -/
theorem anonymousId_unreported : ∃ bound,
    bindAndValidate usersAndEvents
      (parsedTree (selectWhere (.column none "id") (.parameter (.positional 0)))) =
        .ok bound ∧
      bound.references = [.positional 1] ∧ largestPosition bound.references = 1 ∧
      (inspectParameters (parsedTree
        (selectWhere (.column none "id") (.parameter (.positional 0))))).positionalCount = 0 :=
  ⟨_, rfl, rfl, rfl, rfl⟩

end QueryFabric
