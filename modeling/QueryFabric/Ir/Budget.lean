import QueryFabric.Ir.Parts
import QueryFabric.Ir.Query
import Mathlib.Algebra.Ring.Nat

/-!
# Query budgets

`crates/queryfabric-ir/src/budget.rs` measures a parsed query before it is bound, and refuses it
when a measure is above its limit. Each measure adds up what the parts of a query contribute
(`Tallies`). A CTE contributes itself and, by a slip, also the CTEs of its own query, which are
contributed by that query as well: `measured_exactly_iff`.
-/

namespace QueryFabric

/-- The measures that a budget limits. -/
inductive QueryBudgetDimension
  | inputBytes
  | parameters
  | syntaxNodes
  | nestingDepth
  | joins
  | ctes
deriving DecidableEq, Repr

/-- The `Display` text of a dimension. -/
def QueryBudgetDimension.display : QueryBudgetDimension → String
  | inputBytes => "input bytes"
  | parameters => "parameters"
  | syntaxNodes => "syntax nodes"
  | nestingDepth => "nesting depth"
  | joins => "joins"
  | ctes => "CTEs"

/-- `QueryBudget`, with its defaults. -/
structure QueryBudget where
  maxInputBytes : Nat := 1024 * 1024
  maxParameters : Nat := 256
  maxSyntaxNodes : Nat := 10000
  maxNestingDepth : Nat := 64
  maxJoins : Nat := 256
  maxCtes : Nat := 256
deriving DecidableEq, Repr

/-- `QueryBudgetUsage`. -/
structure QueryBudgetUsage where
  inputBytes : Nat := 0
  parameters : Nat := 0
  syntaxNodes : Nat := 0
  nestingDepth : Nat := 0
  joins : Nat := 0
  ctes : Nat := 0
deriving DecidableEq, Repr

/-- `QueryFabricError::BudgetExceeded`. -/
structure BudgetExceeded where
  dimension : QueryBudgetDimension
  limit : Nat
  actual : Nat
deriving DecidableEq, Repr

/-- The text of the error. -/
def BudgetExceeded.message (error : BudgetExceeded) : String :=
  "Query budget exceeded for " ++ error.dimension.display ++ ": limit " ++ toString error.limit ++
    ", actual " ++ toString error.actual

/-- The limit and the measure of each dimension, in the order in which they are checked. -/
def QueryBudget.limits (budget : QueryBudget) (usage : QueryBudgetUsage) : List BudgetExceeded :=
  [⟨.inputBytes, budget.maxInputBytes, usage.inputBytes⟩,
   ⟨.parameters, budget.maxParameters, usage.parameters⟩,
   ⟨.syntaxNodes, budget.maxSyntaxNodes, usage.syntaxNodes⟩,
   ⟨.nestingDepth, budget.maxNestingDepth, usage.nestingDepth⟩,
   ⟨.joins, budget.maxJoins, usage.joins⟩,
   ⟨.ctes, budget.maxCtes, usage.ctes⟩]

/-- `QueryBudget::check`: the first dimension whose measure is above its limit is the error. -/
def QueryBudget.check (budget : QueryBudget) (usage : QueryBudgetUsage) :
    Except BudgetExceeded Unit :=
  match (budget.limits usage).find? fun entry => entry.limit < entry.actual with
  | some error => .error error
  | none => .ok ()

/-- `merge`. -/
def QueryBudgetUsage.merge (target source : QueryBudgetUsage) (extraDepth : Nat) :
    QueryBudgetUsage :=
  { target with
    syntaxNodes := target.syntaxNodes + source.syntaxNodes
    nestingDepth := max target.nestingDepth (source.nestingDepth + extraDepth)
    joins := target.joins + source.joins
    ctes := target.ctes + source.ctes }

mutual

/-- `measure_query`. -/
def measureQuery : SyntaxQuery → QueryBudgetUsage
  | ⟨_, ctes, _, body, orderBy, limit, offset, _⟩ =>
    let usage := measureCtes ctes { syntaxNodes := 1, ctes := ctes.length }
    let usage := usage.merge (measureSetExpr 1 body) 0
    let usage := measureOrderBy orderBy usage
    let usage := measureExprOption 1 limit usage
    measureExprOption 1 offset usage
termination_by structural x => x

/-- The CTEs of a query are merged one after the other. -/
def measureCtes : List SyntaxCte → QueryBudgetUsage → QueryBudgetUsage
  | [], usage => usage
  | cte :: ctes, usage => measureCtes ctes (usage.merge (measureCte cte) 1)
termination_by structural x => x

/-- `measure_cte`. -/
def measureCte : SyntaxCte → QueryBudgetUsage
  | ⟨_, _, query, _⟩ =>
    let usage : QueryBudgetUsage := { syntaxNodes := 1, ctes := query.ctes.length }
    usage.merge (measureQuery query) 1
termination_by structural x => x

/-- The items of `ORDER BY`, each of which is a node of its own. -/
def measureOrderBy : List SyntaxOrderByExpr → QueryBudgetUsage → QueryBudgetUsage
  | [], usage => usage
  | ⟨expr, _, _, _⟩ :: orders, usage =>
    measureOrderBy orders
      ({ usage with syntaxNodes := usage.syntaxNodes + 1 }.merge (measureExpr 1 expr) 0)
termination_by structural x => x

/-- `measure_set_expr`. -/
def measureSetExpr (depth : Nat) : SyntaxSetExpr → QueryBudgetUsage
  | .select s => measureSelect depth s
  | .unionAll left right _ =>
    let usage : QueryBudgetUsage := { syntaxNodes := 1, nestingDepth := depth }
    let usage := usage.merge (measureSetExpr (depth + 1) left) 0
    usage.merge (measureSetExpr (depth + 1) right) 0
  | .unsupported .. => { syntaxNodes := 1, nestingDepth := depth }
termination_by structural x => x

/-- The `Select` arm of `measure_set_expr`. -/
def measureSelect (depth : Nat) : SyntaxSelect → QueryBudgetUsage
  | ⟨_, projection, from_, selection, groupBy, having, _⟩ =>
    let usage := measureProjection depth projection { syntaxNodes := 1, nestingDepth := depth }
    let usage := measureTables depth from_ usage
    let usage := measureExprOption depth selection usage
    let usage := measureExprs depth groupBy usage
    measureExprOption depth having usage
termination_by structural x => x

/-- The items of a projection, each of which is a node of its own. -/
def measureProjection (depth : Nat) :
    List SyntaxProjectionItem → QueryBudgetUsage → QueryBudgetUsage
  | [], usage => usage
  | .wildcard .. :: items, usage =>
    measureProjection depth items { usage with syntaxNodes := usage.syntaxNodes + 1 }
  | .expr ⟨expr, _, _⟩ :: items, usage =>
    measureProjection depth items
      ({ usage with syntaxNodes := usage.syntaxNodes + 1 }.merge (measureExpr depth expr) 0)
  | .unsupported .. :: items, usage =>
    measureProjection depth items { usage with syntaxNodes := usage.syntaxNodes + 1 }
termination_by structural x => x

/-- The loop over a `FROM` clause. -/
def measureTables (depth : Nat) : List SyntaxTableWithJoins → QueryBudgetUsage → QueryBudgetUsage
  | [], usage => usage
  | table :: tables, usage => measureTables depth tables (usage.merge (measureTable depth table) 0)
termination_by structural x => x

/-- `measure_table`. -/
def measureTable (depth : Nat) : SyntaxTableWithJoins → QueryBudgetUsage
  | ⟨relation, joins, _⟩ => measureJoins depth joins (measureRelation depth relation)
termination_by structural x => x

/-- The loop over joins. -/
def measureJoins (depth : Nat) : List SyntaxJoin → QueryBudgetUsage → QueryBudgetUsage
  | [], usage => usage
  | ⟨_, relation, on, _⟩ :: joins, usage =>
    let usage := { usage with joins := usage.joins + 1, syntaxNodes := usage.syntaxNodes + 1 }
    let usage := usage.merge (measureRelation depth relation) 0
    measureJoins depth joins (measureExprOption depth on usage)
termination_by structural x => x

/-- `measure_relation`. -/
def measureRelation (depth : Nat) : SyntaxRelation → QueryBudgetUsage
  | .table .. => { syntaxNodes := 1, nestingDepth := depth }
  | .derived query _ _ =>
    let usage : QueryBudgetUsage := { syntaxNodes := 1, nestingDepth := depth }
    usage.merge (measureQuery query) (depth + 1)
  | .nestedJoin table _ _ =>
    let usage : QueryBudgetUsage := { syntaxNodes := 1, nestingDepth := depth }
    usage.merge (measureTable (depth + 1) table) 0
  | .unsupported .. => { syntaxNodes := 1, nestingDepth := depth }
termination_by structural x => x

/-- `measure_expr`. -/
def measureExpr (depth : Nat) : SyntaxExpr → QueryBudgetUsage
  | ⟨kind, _⟩ => measureKind (depth + 1) kind { syntaxNodes := 1, nestingDepth := depth }
termination_by structural x => x

/-- The operands of an expression, at the depth given. -/
def measureKind (depth : Nat) : SyntaxExprKind → QueryBudgetUsage → QueryBudgetUsage
  | .unary _ expr, usage => usage.merge (measureExpr depth expr) 0
  | .isNull expr _, usage => usage.merge (measureExpr depth expr) 0
  | .cast expr _, usage => usage.merge (measureExpr depth expr) 0
  | .binary _ left right, usage =>
    (usage.merge (measureExpr depth left) 0).merge (measureExpr depth right) 0
  | .function call, usage => measureCall depth call usage
  | .case operand whenThen elseResult, usage =>
    let usage := measureExprOption depth operand usage
    let usage := measureWhenThens depth whenThen usage
    measureExprOption depth elseResult usage
  | .between expr low high _, usage =>
    ((usage.merge (measureExpr depth expr) 0).merge (measureExpr depth low) 0).merge
      (measureExpr depth high) 0
  | .inList expr list _, usage => measureExprs depth list (usage.merge (measureExpr depth expr) 0)
  -- Only a subquery adds to the depth.
  | .inSubquery expr subquery _, usage =>
    (usage.merge (measureExpr depth expr) 0).merge (measureQuery subquery) depth
  | .scalarSubquery subquery, usage => usage.merge (measureQuery subquery) depth
  | .exists subquery, usage => usage.merge (measureQuery subquery) depth
  | .like expr pattern _ _, usage =>
    (usage.merge (measureExpr depth expr) 0).merge (measureExpr depth pattern) 0
  | .tuple items, usage => measureExprs depth items usage
  | .array items, usage => measureExprs depth items usage
  | .column .., usage => usage
  | .literal _, usage => usage
  | .parameter _, usage => usage
  | .unsupported _, usage => usage
termination_by structural x => x

/-- The arguments, the filter and the window of a call. -/
def measureCall (depth : Nat) : SyntaxFunctionCall → QueryBudgetUsage → QueryBudgetUsage
  | ⟨_, args, _, filter, over_⟩, usage =>
    measureWindow depth over_ (measureExprOption depth filter (measureExprs depth args usage))
termination_by structural x => x

/-- A window, if there is one. -/
def measureWindow (depth : Nat) : Option WindowSpec → QueryBudgetUsage → QueryBudgetUsage
  | none, usage => usage
  | some ⟨partitionBy, orderBy, _⟩, usage =>
    measureWindowOrder depth orderBy (measureExprs depth partitionBy usage)
termination_by structural x => x

/-- The order of a window, whose items are no nodes of their own. -/
def measureWindowOrder (depth : Nat) : List SyntaxOrderByExpr → QueryBudgetUsage → QueryBudgetUsage
  | [], usage => usage
  | ⟨expr, _, _, _⟩ :: orders, usage =>
    measureWindowOrder depth orders (usage.merge (measureExpr depth expr) 0)
termination_by structural x => x

/-- The loop over the branches of a `CASE`. -/
def measureWhenThens (depth : Nat) : List SyntaxWhenThen → QueryBudgetUsage → QueryBudgetUsage
  | [], usage => usage
  | ⟨condition, result⟩ :: pairs, usage =>
    measureWhenThens depth pairs
      ((usage.merge (measureExpr depth condition) 0).merge (measureExpr depth result) 0)
termination_by structural x => x

/-- The loop over a list of expressions. -/
def measureExprs (depth : Nat) : List SyntaxExpr → QueryBudgetUsage → QueryBudgetUsage
  | [], usage => usage
  | expr :: exprs, usage => measureExprs depth exprs (usage.merge (measureExpr depth expr) 0)
termination_by structural x => x

/-- An expression, if there is one. -/
def measureExprOption (depth : Nat) : Option SyntaxExpr → QueryBudgetUsage → QueryBudgetUsage
  | none, usage => usage
  | some expr, usage => usage.merge (measureExpr depth expr) 0
termination_by structural x => x

end

/-- `QueryBudgetUsage::for_parsed`. -/
def QueryBudgetUsage.forParsed (parsed : ParsedQuery) : QueryBudgetUsage :=
  { measureQuery parsed.syntaxTree with inputBytes := parsed.sourceSql.utf8ByteSize }

/-- `QueryBudgetUsage::with_parameters`. -/
def QueryBudgetUsage.withParameters (usage : QueryBudgetUsage) (parameters : Nat) :
    QueryBudgetUsage :=
  { usage with parameters }

/-! ## What a measure adds up -/

/-- What a part contributes to the measured CTEs: a CTE and the CTEs of its query. -/
def SyntaxPart.cteWeight : SyntaxPart → Nat
  | cte c => 1 + c.query.ctes.length
  | _ => 0

/-- A usage, measured at a depth, adds up the joins and the CTEs of parts, and is nested as deep as
they are. -/
structure Tallies (base : Nat) (usage : QueryBudgetUsage) (parts : List PlacedPart) : Prop where
  joins : usage.joins = parts.countP fun placed => placed.part.isJoin
  ctes : usage.ctes = (parts.map fun placed => placed.part.cteWeight).sum
  depth : ∀ placed ∈ parts, placed.depth ≤ base + usage.nestingDepth

/-- No parts are tallied by no usage. -/
theorem tallies_nil (base : Nat) {usage : QueryBudgetUsage} (hjoins : usage.joins = 0)
    (hctes : usage.ctes = 0) :
    Tallies base usage [] where
  joins := hjoins
  ctes := hctes
  depth := List.forall_mem_nil _

/-- Merging adds the parts of what is merged. -/
theorem Tallies.merge {base extra : Nat} {usage source : QueryBudgetUsage}
    {parts below : List PlacedPart}
    (h : Tallies base usage parts) (hsource : Tallies (base + extra) source below) :
    Tallies base (usage.merge source extra) (parts ++ below) where
  joins := by
    rw [List.countP_append, ← h.joins, ← hsource.joins]
    rfl
  ctes := by
    rw [List.map_append, List.sum_append, ← h.ctes, ← hsource.ctes]
    rfl
  depth := by
    intro placed hplaced
    unfold QueryBudgetUsage.merge
    dsimp only
    obtain hplaced | hplaced := List.mem_append.mp hplaced
    · have hdepth := h.depth placed hplaced
      omega
    · have hdepth := hsource.depth placed hplaced
      omega

/-- What is measured from the same depth is merged without a further one. -/
theorem Tallies.add {base : Nat} {usage source : QueryBudgetUsage} {parts below : List PlacedPart}
    (h : Tallies base usage parts) (hsource : Tallies base source below) :
    Tallies base (usage.merge source 0) (parts ++ below) := h.merge hsource

/-- A part contributes what is counted of it. -/
theorem Tallies.concat {base : Nat} {usage : QueryBudgetUsage} {parts : List PlacedPart}
    (h : Tallies base usage parts) (placed : PlacedPart) (joins ctes : Nat)
    (hjoins : joins = if placed.part.isJoin then 1 else 0)
    (hctes : ctes = placed.part.cteWeight) (hdepth : placed.depth ≤ base + usage.nestingDepth) :
    Tallies base { usage with joins := usage.joins + joins, ctes := usage.ctes + ctes }
      (parts ++ [placed]) where
  joins := by
    rw [List.countP_append, List.countP_singleton, ← h.joins, hjoins]
  ctes := by
    rw [List.map_append, List.sum_append, ← h.ctes, List.map_singleton, List.sum_singleton, hctes]
  depth := by
    intro other hother
    obtain hother | hother := List.mem_append.mp hother
    · exact h.depth other hother
    · rw [List.mem_singleton.mp hother]
      exact hdepth

/-- The measure of a part that is neither a CTE nor a join. -/
theorem tallies_singleton {base depth : Nat} {placed : PlacedPart}
    (hjoin : placed.part.isJoin = false)
    (hcte : placed.part.cteWeight = 0) (hdepth : placed.depth ≤ base + depth) :
    Tallies base { syntaxNodes := 1, nestingDepth := depth } [placed] := by
  have hjoins : 0 = if placed.part.isJoin then 1 else 0 := by
    rw [hjoin]
    rfl
  have hnil : Tallies base { syntaxNodes := 1, nestingDepth := depth } [] :=
    tallies_nil base rfl rfl
  exact hnil.concat placed 0 0 hjoins hcte.symm hdepth

/-- Another usage of the same counts, nested at least as deep. -/
theorem Tallies.of_le {base : Nat} {usage usage' : QueryBudgetUsage} {parts : List PlacedPart}
    (h : Tallies base usage parts) (hjoins : usage'.joins = usage.joins)
    (hctes : usage'.ctes = usage.ctes)
    (hdepth : usage.nestingDepth ≤ usage'.nestingDepth) : Tallies base usage' parts where
  joins := hjoins.trans h.joins
  ctes := hctes.trans h.ctes
  depth := fun placed hplaced =>
    Nat.le_trans (h.depth placed hplaced) (Nat.add_le_add_left hdepth base)

/-- The count of syntax nodes is not compared. -/
theorem Tallies.countNode {base : Nat} {usage : QueryBudgetUsage} {parts : List PlacedPart}
    (h : Tallies base usage parts) :
    Tallies base { usage with syntaxNodes := usage.syntaxNodes + 1 } parts :=
  h.of_le rfl rfl (Nat.le_refl _)

mutual

/-- The measure of a query tallies its parts. -/
theorem tallies_query : ∀ (query : SyntaxQuery) {base depth : Nat}, depth ≤ base →
    Tallies base (measureQuery query) (queryParts depth query)
  | ⟨node, ctes, withRecursive, body, orderBy, limit, offset, clauses⟩, base, depth, hdepth => by
    have hstart : Tallies base { syntaxNodes := 1 } [⟨depth, .query
        ⟨node, ctes, withRecursive, body, orderBy, limit, offset, clauses⟩⟩] :=
      tallies_singleton rfl rfl (Nat.le_add_right_of_le hdepth)
    have hctes := tallies_ctes ctes hstart hdepth
    have hbody := hctes.add (tallies_setExpr body hdepth (Nat.le_refl 1))
    have horder := tallies_orderBy orderBy hbody (Nat.add_le_add_right hdepth 1)
    have hlimit := tallies_exprOption limit horder (Nat.add_le_add_right hdepth 1)
    have hoffset := tallies_exprOption offset hlimit (Nat.add_le_add_right hdepth 1)
    simpa only [measureQuery, queryParts, List.cons_append, List.nil_append, List.append_assoc,
      Nat.zero_add] using hoffset
termination_by structural x => x

/-- The number of the CTEs is counted before the CTEs themselves are measured. -/
theorem tallies_ctes : ∀ (ctes : List SyntaxCte) {base depth : Nat} {usage : QueryBudgetUsage}
    {parts : List PlacedPart}, Tallies base usage parts → depth ≤ base →
    Tallies base (measureCtes ctes { usage with ctes := usage.ctes + ctes.length })
      (parts ++ cteParts depth ctes)
  | [], base, depth, usage, parts, h, _ => by
    rw [measureCtes, cteParts, List.append_nil]
    exact h
  | ⟨name, columns, query, node⟩ :: ctes, base, depth, usage, parts, h, hdepth => by
    have hquery := tallies_query query (Nat.add_le_add_right hdepth 1)
    have hcte :=
      h.concat ⟨depth, .cte ⟨name, columns, query, node⟩⟩ 0 (1 + query.ctes.length) rfl rfl
      (Nat.le_add_right_of_le hdepth)
    -- The CTE is counted with the others before, and its measure counts those of its query once
    -- more.
    obtain ⟨measured, hmeasured⟩ :
        ∃ measured, measured = measureCte ⟨name, columns, query, node⟩ := ⟨_, rfl⟩
    obtain ⟨counted, hcounted⟩ : ∃ counted, counted = { usage.merge measured 1 with
      ctes := (usage.merge measured 1).ctes + 1 } := ⟨_, rfl⟩
    have hmerged : Tallies base counted (parts ++ [⟨depth, .cte ⟨name, columns, query, node⟩⟩] ++
        queryParts (depth + 1) query) := by
      rw [measureCte] at hmeasured
      refine (hcte.merge hquery).of_le ?_ ?_ ?_ <;> rw [hcounted, hmeasured] <;>
        unfold QueryBudgetUsage.merge <;> dsimp only <;> omega
    have hsame : { usage with ctes := usage.ctes + (ctes.length + 1) }.merge measured 1 =
        { counted with ctes := counted.ctes + ctes.length } := by
      rw [hcounted]
      unfold QueryBudgetUsage.merge
      dsimp only
      congr 1
      omega
    have hrest := tallies_ctes ctes hmerged hdepth
    rw [measureCtes, List.length_cons, ← hmeasured, hsame]
    simpa only [cteParts, List.append_assoc, List.cons_append, List.nil_append] using hrest
termination_by structural x => x

/-- The measure of an `ORDER BY` tallies its parts with those before. -/
theorem tallies_orderBy :
    ∀ (orders : List SyntaxOrderByExpr) {base depth : Nat} {usage : QueryBudgetUsage}
    {parts : List PlacedPart}, Tallies base usage parts → depth ≤ base + 1 →
    Tallies base (measureOrderBy orders usage) (parts ++ orderByParts depth orders)
  | [], base, depth, usage, parts, h, _ => by
    rw [measureOrderBy, orderByParts, List.append_nil]
    exact h
  | ⟨expr, _, _, _⟩ :: orders, base, depth, usage, parts, h, hdepth => by
    have hexpr := h.countNode.add (tallies_expr expr hdepth)
    have hrest := tallies_orderBy orders hexpr hdepth
    rw [measureOrderBy, orderByParts, ← List.append_assoc]
    exact hrest
termination_by structural x => x

/-- The measure of a query body tallies its parts. -/
theorem tallies_setExpr : ∀ (body : SyntaxSetExpr) {base depth measured : Nat},
    depth ≤ base → 1 ≤ measured →
    Tallies base (measureSetExpr measured body) (setExprParts depth body)
  | .select s, base, depth, measured, hdepth, hmeasured => tallies_select s hdepth hmeasured
  | .unionAll left right _, base, _, measured, hdepth, hmeasured => by
    have hdeeper : 1 ≤ measured + 1 := Nat.le_add_left 1 measured
    have hleft := tallies_setExpr left hdepth hdeeper
    have hright := tallies_setExpr right hdepth hdeeper
    exact ((tallies_nil base rfl rfl).add hleft).add hright
  | .unsupported .., _, _, _, _, _ => tallies_nil _ rfl rfl
termination_by structural x => x

/-- The measure of a select tallies its parts. -/
theorem tallies_select : ∀ (select : SyntaxSelect) {base depth measured : Nat},
    depth ≤ base → 1 ≤ measured →
    Tallies base (measureSelect measured select) (selectParts depth select)
  | ⟨distinct, projection, from_, selection, groupBy, having, node⟩, base, depth, measured, hdepth,
      hmeasured => by
    have hbelow : depth + 1 ≤ base + measured := Nat.add_le_add hdepth hmeasured
    have hstart : Tallies base { syntaxNodes := 1, nestingDepth := measured } [] :=
      tallies_nil base rfl rfl
    have hprojection := tallies_projection projection hstart hbelow
    have hfrom := tallies_tables from_ hprojection hdepth hmeasured
    have hselection := tallies_exprOption selection hfrom hbelow
    have hgroup := tallies_exprs groupBy hselection hbelow
    have hhaving := tallies_exprOption having hgroup hbelow
    simpa only [measureSelect, selectParts, List.cons_append, List.nil_append, List.append_assoc]
      using hhaving
termination_by structural x => x

/-- The measure of a projection tallies its parts with those before. -/
theorem tallies_projection : ∀ (items : List SyntaxProjectionItem) {base depth measured : Nat}
    {usage : QueryBudgetUsage} {parts : List PlacedPart}, Tallies base usage parts →
    depth ≤ base + measured →
    Tallies base (measureProjection measured items usage) (parts ++ projectionParts depth items)
  | [], base, depth, measured, usage, parts, h, _ => by
    rw [measureProjection, projectionParts, List.append_nil]
    exact h
  | .wildcard .. :: items, base, depth, measured, usage, parts, h, hdepth =>
    tallies_projection items h.countNode hdepth
  | .expr ⟨expr, _, _⟩ :: items, base, depth, measured, usage, parts, h, hdepth => by
    have hexpr := h.countNode.add (tallies_expr expr hdepth)
    have hrest := tallies_projection items hexpr hdepth
    rw [measureProjection, projectionParts, ← List.append_assoc]
    exact hrest
  | .unsupported .. :: items, base, depth, measured, usage, parts, h, hdepth =>
    tallies_projection items h.countNode hdepth
termination_by structural x => x

/-- The measure of a `FROM` clause tallies its parts with those before. -/
theorem tallies_tables : ∀ (tables : List SyntaxTableWithJoins) {base depth measured : Nat}
    {usage : QueryBudgetUsage} {parts : List PlacedPart}, Tallies base usage parts → depth ≤ base →
    1 ≤ measured →
    Tallies base (measureTables measured tables usage) (parts ++ tablesParts depth tables)
  | [], base, depth, measured, usage, parts, h, _, _ => by
    rw [measureTables, tablesParts, List.append_nil]
    exact h
  | table :: tables, base, depth, measured, usage, parts, h, hdepth, hmeasured => by
    have htable := h.add (tallies_table table hdepth hmeasured)
    have hrest := tallies_tables tables htable hdepth hmeasured
    rw [measureTables, tablesParts, ← List.append_assoc]
    exact hrest
termination_by structural x => x

/-- The measure of a table with its joins tallies its parts. -/
theorem tallies_table : ∀ (table : SyntaxTableWithJoins) {base depth measured : Nat},
    depth ≤ base → 1 ≤ measured →
    Tallies base (measureTable measured table) (tableParts depth table)
  | ⟨relation, joins, _⟩, _, _, _, hdepth, hmeasured =>
    tallies_joins joins (tallies_relation relation hdepth hmeasured) hdepth hmeasured
termination_by structural x => x

/-- The measure of joins tallies their parts with those before. -/
theorem tallies_joins : ∀ (joins : List SyntaxJoin) {base depth measured : Nat}
    {usage : QueryBudgetUsage} {parts : List PlacedPart}, Tallies base usage parts → depth ≤ base →
    1 ≤ measured →
    Tallies base (measureJoins measured joins usage) (parts ++ joinParts depth joins)
  | [], base, depth, measured, usage, parts, h, _, _ => by
    rw [measureJoins, joinParts, List.append_nil]
    exact h
  | ⟨kind, relation, on, node⟩ :: joins, base, depth, measured, usage, parts, h, hdepth,
      hmeasured => by
    have hjoin := (h.concat ⟨depth, .join ⟨kind, relation, on, node⟩⟩ 1 0 rfl rfl
      (Nat.le_add_right_of_le hdepth)).countNode
    have hrelation := hjoin.add (tallies_relation relation hdepth hmeasured)
    have hon := tallies_exprOption on hrelation (Nat.add_le_add hdepth hmeasured)
    have hrest := tallies_joins joins hon hdepth hmeasured
    simpa only [measureJoins, joinParts, Nat.add_zero, List.cons_append, List.nil_append,
      List.append_assoc] using hrest
termination_by structural x => x

/-- The measure of a relation tallies its parts. -/
theorem tallies_relation : ∀ (relation : SyntaxRelation) {base depth measured : Nat},
    depth ≤ base → 1 ≤ measured →
    Tallies base (measureRelation measured relation) (relationParts depth relation)
  | .table .., _, _, _, _, _ => tallies_nil _ rfl rfl
  | .derived query _ _, base, depth, measured, hdepth, hmeasured => by
    have hbelow : depth + 1 ≤ base + (measured + 1) :=
      Nat.add_le_add hdepth (Nat.le_add_left 1 measured)
    exact (tallies_nil base rfl rfl).merge (tallies_query query hbelow)
  | .nestedJoin table _ _, base, depth, measured, hdepth, hmeasured =>
    (tallies_nil base rfl rfl).add (tallies_table table hdepth (Nat.le_add_left 1 measured))
  | .unsupported .., _, _, _, _, _ => tallies_nil _ rfl rfl
termination_by structural x => x

/-- The measure of an expression tallies its parts. -/
theorem tallies_expr : ∀ (expr : SyntaxExpr) {base depth measured : Nat}, depth ≤ base + measured →
    Tallies base (measureExpr measured expr) (exprParts depth expr)
  | ⟨kind, node⟩, base, depth, measured, hdepth => by
    have hstart : Tallies base { syntaxNodes := 1, nestingDepth := measured }
        [⟨depth, .expr ⟨kind, node⟩⟩] :=
      tallies_singleton rfl rfl hdepth
    exact tallies_kind kind hstart (Nat.add_le_add_right hdepth 1)
termination_by structural x => x

/-- The measure of a kind of expression tallies its parts with those before. -/
theorem tallies_kind :
    ∀ (kind : SyntaxExprKind) {base depth measured : Nat} {usage : QueryBudgetUsage}
    {parts : List PlacedPart}, Tallies base usage parts → depth ≤ base + measured →
    Tallies base (measureKind measured kind usage) (parts ++ kindParts depth kind)
  -- The parts are added in the order in which the measure goes through them, at their own depth.
  | .unary _ expr, base, depth, measured, usage, parts, h, hdepth =>
    h.add (tallies_expr expr hdepth)
  | .isNull expr _, base, depth, measured, usage, parts, h, hdepth =>
    h.add (tallies_expr expr hdepth)
  | .cast expr _, base, depth, measured, usage, parts, h, hdepth => h.add (tallies_expr expr hdepth)
  | .binary _ left right, base, depth, measured, usage, parts, h, hdepth => by
    have hboth := (h.add (tallies_expr left hdepth)).add (tallies_expr right hdepth)
    rw [measureKind, kindParts, ← List.append_assoc]
    exact hboth
  | .function call, base, depth, measured, usage, parts, h, hdepth => tallies_call call h hdepth
  | .case operand whenThen elseResult, base, depth, measured, usage, parts, h, hdepth => by
    have hoperand := tallies_exprOption operand h hdepth
    have hwhen := tallies_whenThens whenThen hoperand hdepth
    have helse := tallies_exprOption elseResult hwhen hdepth
    rw [measureKind, kindParts, ← List.append_assoc, ← List.append_assoc]
    exact helse
  | .between expr low high _, base, depth, measured, usage, parts, h, hdepth => by
    have hlow := (h.add (tallies_expr expr hdepth)).add (tallies_expr low hdepth)
    have hhigh := hlow.add (tallies_expr high hdepth)
    rw [measureKind, kindParts, ← List.append_assoc, ← List.append_assoc]
    exact hhigh
  | .inList expr list _, base, depth, measured, usage, parts, h, hdepth => by
    have hlist := tallies_exprs list (h.add (tallies_expr expr hdepth)) hdepth
    rw [measureKind, kindParts, ← List.append_assoc]
    exact hlist
  -- A subquery is measured apart and merged, so its depth starts anew.
  | .inSubquery expr subquery _, base, depth, measured, usage, parts, h, hdepth => by
    have hboth := (h.add (tallies_expr expr hdepth)).merge (tallies_query subquery hdepth)
    rw [measureKind, kindParts, ← List.append_assoc]
    exact hboth
  | .scalarSubquery subquery, base, depth, measured, usage, parts, h, hdepth =>
    h.merge (tallies_query subquery hdepth)
  | .exists subquery, base, depth, measured, usage, parts, h, hdepth =>
    h.merge (tallies_query subquery hdepth)
  | .like expr pattern _ _, base, depth, measured, usage, parts, h, hdepth => by
    have hboth := (h.add (tallies_expr expr hdepth)).add (tallies_expr pattern hdepth)
    rw [measureKind, kindParts, ← List.append_assoc]
    exact hboth
  | .tuple items, base, depth, measured, usage, parts, h, hdepth => tallies_exprs items h hdepth
  | .array items, base, depth, measured, usage, parts, h, hdepth => tallies_exprs items h hdepth
  -- A leaf has no part.
  | .column .., base, depth, measured, usage, parts, h, _
  | .literal _, base, depth, measured, usage, parts, h, _
  | .parameter _, base, depth, measured, usage, parts, h, _
  | .unsupported _, base, depth, measured, usage, parts, h, _ => by
    rw [measureKind, kindParts, List.append_nil]
    exact h
termination_by structural x => x

/-- The measure of a call tallies its parts with those before. -/
theorem tallies_call :
    ∀ (call : SyntaxFunctionCall) {base depth measured : Nat} {usage : QueryBudgetUsage}
    {parts : List PlacedPart}, Tallies base usage parts → depth ≤ base + measured →
    Tallies base (measureCall measured call usage) (parts ++ callParts depth call)
  | ⟨_, args, _, filter, over_⟩, base, depth, measured, usage, parts, h, hdepth => by
    have hargs := tallies_exprs args h hdepth
    have hfilter := tallies_exprOption filter hargs hdepth
    have hwindow := tallies_window over_ hfilter hdepth
    rw [measureCall, callParts, ← List.append_assoc, ← List.append_assoc]
    exact hwindow
termination_by structural x => x

/-- The measure of a window tallies its parts with those before. -/
theorem tallies_window :
    ∀ (window : Option WindowSpec) {base depth measured : Nat} {usage : QueryBudgetUsage}
    {parts : List PlacedPart}, Tallies base usage parts → depth ≤ base + measured →
    Tallies base (measureWindow measured window usage) (parts ++ windowParts depth window)
  | none, base, depth, measured, usage, parts, h, _ => by
    rw [measureWindow, windowParts, List.append_nil]
    exact h
  | some ⟨partitionBy, orderBy, _⟩, base, depth, measured, usage, parts, h, hdepth => by
    have hpartition := tallies_exprs partitionBy h hdepth
    have horder := tallies_windowOrder orderBy hpartition hdepth
    rw [measureWindow, windowParts, ← List.append_assoc]
    exact horder
termination_by structural x => x

/-- The measure of the sort keys of a window tallies their parts with those before. -/
theorem tallies_windowOrder : ∀ (orders : List SyntaxOrderByExpr) {base depth measured : Nat}
    {usage : QueryBudgetUsage} {parts : List PlacedPart}, Tallies base usage parts →
    depth ≤ base + measured →
    Tallies base (measureWindowOrder measured orders usage) (parts ++ orderByParts depth orders)
  | [], base, depth, measured, usage, parts, h, _ => by
    rw [measureWindowOrder, orderByParts, List.append_nil]
    exact h
  | ⟨expr, _, _, _⟩ :: orders, base, depth, measured, usage, parts, h, hdepth => by
    have hrest := tallies_windowOrder orders (h.add (tallies_expr expr hdepth)) hdepth
    rw [measureWindowOrder, orderByParts, ← List.append_assoc]
    exact hrest
termination_by structural x => x

/-- The measure of branches tallies their parts with those before. -/
theorem tallies_whenThens : ∀ (pairs : List SyntaxWhenThen) {base depth measured : Nat}
    {usage : QueryBudgetUsage} {parts : List PlacedPart}, Tallies base usage parts →
    depth ≤ base + measured →
    Tallies base (measureWhenThens measured pairs usage) (parts ++ whenThenParts depth pairs)
  | [], base, depth, measured, usage, parts, h, _ => by
    rw [measureWhenThens, whenThenParts, List.append_nil]
    exact h
  | ⟨condition, result⟩ :: pairs, base, depth, measured, usage, parts, h, hdepth => by
    have hpair := (h.add (tallies_expr condition hdepth)).add (tallies_expr result hdepth)
    have hrest := tallies_whenThens pairs hpair hdepth
    rw [measureWhenThens, whenThenParts, ← List.append_assoc, ← List.append_assoc]
    exact hrest
termination_by structural x => x

/-- The measure of a list of expressions tallies their parts with those before. -/
theorem tallies_exprs :
    ∀ (exprs : List SyntaxExpr) {base depth measured : Nat} {usage : QueryBudgetUsage}
    {parts : List PlacedPart}, Tallies base usage parts → depth ≤ base + measured →
    Tallies base (measureExprs measured exprs usage) (parts ++ exprsParts depth exprs)
  | [], base, depth, measured, usage, parts, h, _ => by
    rw [measureExprs, exprsParts, List.append_nil]
    exact h
  | expr :: exprs, base, depth, measured, usage, parts, h, hdepth => by
    have hrest := tallies_exprs exprs (h.add (tallies_expr expr hdepth)) hdepth
    rw [measureExprs, exprsParts, ← List.append_assoc]
    exact hrest
termination_by structural x => x

/-- The measure of an optional expression tallies its parts with those before. -/
theorem tallies_exprOption :
    ∀ (expr : Option SyntaxExpr) {base depth measured : Nat} {usage : QueryBudgetUsage}
    {parts : List PlacedPart}, Tallies base usage parts → depth ≤ base + measured →
    Tallies base (measureExprOption measured expr usage) (parts ++ exprOptionParts depth expr)
  | none, base, depth, measured, usage, parts, h, _ => by
    rw [measureExprOption, exprOptionParts, List.append_nil]
    exact h
  | some expr, base, depth, measured, usage, parts, h, hdepth => h.add (tallies_expr expr hdepth)
termination_by structural x => x

end

/-! ## Exact measures -/

/-- No CTE of a query, at any depth, has a `WITH` list of its own. -/
def PlainCtes (query : SyntaxQuery) : Prop :=
  ∀ placed ∈ queryParts 0 query, ∀ cte, placed.part = .cte cte → cte.query.ctes = []

/-- A CTE weighs at least one. -/
theorem SyntaxPart.le_cteWeight (part : SyntaxPart) :
    (if part.isCte = true then 1 else 0) ≤ part.cteWeight := by
  cases part with
  | cte c => exact Nat.le_add_right 1 c.query.ctes.length
  | _ => exact Nat.le_refl 0

/-- A CTE is counted once when its query has no CTEs. -/
theorem SyntaxPart.cteWeight_eq_iff (part : SyntaxPart) :
    part.cteWeight = (if part.isCte = true then 1 else 0) ↔ ∀ cte, part = .cte cte →
    cte.query.ctes = [] := by
  cases part with
  | cte c => simp [isCte, cteWeight]
  | _ => simp [isCte, cteWeight]

/-- Each CTE is counted, and with it the CTEs of its query. -/
theorem sum_cteWeight (parts : List PlacedPart) :
    (parts.countP fun placed => placed.part.isCte) ≤
      (parts.map fun placed => placed.part.cteWeight).sum ∧
      ((parts.map fun placed => placed.part.cteWeight).sum =
        (parts.countP fun placed => placed.part.isCte) ↔
        ∀ placed ∈ parts, ∀ cte, placed.part = .cte cte → cte.query.ctes = []) := by
  induction parts with
  | nil => exact ⟨Nat.le_refl 0, iff_of_true rfl (List.forall_mem_nil _)⟩
  | cons placed parts ih =>
    obtain ⟨hle, hiff⟩ := ih
    have hfirst := placed.part.le_cteWeight
    rw [List.countP_cons, List.map_cons, List.sum_cons, List.forall_mem_cons, ← hiff,
      ← placed.part.cteWeight_eq_iff]
    constructor <;> omega

/-- A query is no higher than a bound when none of its parts is deeper. -/
theorem le_nestingHeight {query : SyntaxQuery} {bound : Nat} :
    nestingHeight query ≤ bound ↔ ∀ placed ∈ queryParts 0 query, placed.depth ≤ bound := by
  unfold nestingHeight
  induction queryParts 0 query with
  | nil => simp
  | cons placed parts ih => rw [List.foldr_cons, Nat.max_le, ih, List.forall_mem_cons]

/-- The usage of a query counts its CTEs and joins, covers its nesting, and an error about CTEs or
joins is due. -/
structure MeasuredExactly (query : SyntaxQuery) (usage : QueryBudgetUsage) : Prop where
  ctes : usage.ctes = cteCount query
  joins : usage.joins = joinCount query
  nestingDepth : nestingHeight query ≤ usage.nestingDepth
  within : ∀ budget : QueryBudget, budget.check usage = .ok () → cteCount query ≤ budget.maxCtes ∧
    joinCount query ≤ budget.maxJoins ∧ nestingHeight query ≤ budget.maxNestingDepth
  due : ∀ (budget : QueryBudget) (limit actual : Nat),
    (budget.check usage = .error ⟨.ctes, limit, actual⟩ → budget.maxCtes < cteCount query) ∧
      (budget.check usage = .error ⟨.joins, limit, actual⟩ → budget.maxJoins < joinCount query)

/-- A usage that is accepted is within every limit. -/
theorem le_of_check_ok {budget : QueryBudget} {usage : QueryBudgetUsage}
    (h : budget.check usage = .ok ()) :
    ∀ entry ∈ budget.limits usage, entry.actual ≤ entry.limit := by
  intro entry hentry
  unfold QueryBudget.check at h
  split at h
  · cases h
  · rename_i hnone
    have hnot := List.find?_eq_none.mp hnone entry hentry
    rw [decide_eq_true_eq, Nat.not_lt] at hnot
    exact hnot

/-- The error of a usage is a limit that it is above. -/
theorem lt_of_check_error {budget : QueryBudget} {usage : QueryBudgetUsage} {error : BudgetExceeded}
    (h : budget.check usage = .error error) : error ∈ budget.limits usage ∧
    error.limit < error.actual := by
  unfold QueryBudget.check at h
  split at h
  · rename_i found hfound
    cases h
    have habove := List.find?_some hfound
    exact ⟨List.mem_of_find?_eq_some hfound, of_decide_eq_true habove⟩
  · cases h

/-- A parsed query is measured exactly when no CTE has a `WITH` list of its own. -/
theorem measured_exactly_iff (parsed : ParsedQuery) (parameters : Nat) :
    MeasuredExactly parsed.syntaxTree
      ((QueryBudgetUsage.forParsed parsed).withParameters parameters) ↔
      PlainCtes parsed.syntaxTree := by
  have h := tallies_query parsed.syntaxTree (Nat.le_refl 0)
  -- The usage is named so that its fields are not unfolded.
  obtain ⟨usage, husage⟩ : ∃ usage, usage =
      (QueryBudgetUsage.forParsed parsed).withParameters parameters := ⟨_, rfl⟩
  -- Only the count of the CTEs can be off: the others are counted as they are, or from above.
  have hctes : usage.ctes = cteCount parsed.syntaxTree ↔ PlainCtes parsed.syntaxTree := by
    rw [PlainCtes, ← (sum_cteWeight _).2, ← h.ctes, husage]
    rfl
  have hjoins : usage.joins = joinCount parsed.syntaxTree := by
    rw [joinCount, ← h.joins, husage]
    rfl
  have hnesting : nestingHeight parsed.syntaxTree ≤ usage.nestingDepth := by
    refine le_nestingHeight.mpr fun placed hplaced => ?_
    have hdepth := h.depth placed hplaced
    rw [Nat.zero_add] at hdepth
    rw [husage]
    exact hdepth
  rw [← husage]
  refine ⟨fun hexact => hctes.mp hexact.ctes, fun hplain => ?_⟩
  have hcounted := hctes.mpr hplain
  refine ⟨hcounted, hjoins, hnesting, fun budget hok => ?_,
    fun budget limit actual => ⟨fun herror => ?_, fun herror => ?_⟩⟩
  -- A budget that passes bounds each measure.
  · have hlimits := le_of_check_ok hok
    have hmaxCtes := hlimits ⟨.ctes, budget.maxCtes, usage.ctes⟩ (by simp [QueryBudget.limits])
    have hmaxJoins := hlimits ⟨.joins, budget.maxJoins, usage.joins⟩ (by simp [QueryBudget.limits])
    have hmaxDepth := hlimits ⟨.nestingDepth, budget.maxNestingDepth, usage.nestingDepth⟩
      (by simp [QueryBudget.limits])
    rw [← hcounted, ← hjoins]
    exact ⟨hmaxCtes, hmaxJoins, Nat.le_trans hnesting hmaxDepth⟩
  -- An error names a measure that is over its limit, here the CTEs.
  · obtain ⟨hmem, hlt⟩ := lt_of_check_error herror
    simp only [QueryBudget.limits, List.mem_cons, BudgetExceeded.mk.injEq, reduceCtorEq, false_and,
      false_or, true_and, List.not_mem_nil, or_false] at hmem
    rw [← hcounted, ← hmem.1, ← hmem.2]
    exact hlt
  -- And here the joins.
  · obtain ⟨hmem, hlt⟩ := lt_of_check_error herror
    simp only [QueryBudget.limits, List.mem_cons, BudgetExceeded.mk.injEq, reduceCtorEq, false_and,
      false_or, true_and, List.not_mem_nil, or_false] at hmem
    rw [← hjoins, ← hmem.1, ← hmem.2]
    exact hlt

/-- The query `SELECT *` from a table, with a `WITH` list. -/
def selectAll (ctes : List SyntaxCte) (table : String) : SyntaxQuery :=
  let node : SyntaxNode := { span := none, nodeId := "query" }
  { node, ctes, withRecursive := false,
    body := .select { distinct := false, projection := [.wildcard none node],
                      from_ := [{ relation := .table { namespace_ := none, name := table } none
                                    node, joins := [], node }],
                      selection := none, groupBy := [], having := none, node },
    orderBy := [], limit := none, offset := none, backendClauses := [] }

/-- `WITH a AS (WITH b AS (SELECT * FROM t) SELECT * FROM b) SELECT * FROM a`. -/
def nestedWith : SyntaxQuery :=
  let node : SyntaxNode := { span := none, nodeId := "cte" }
  let b : SyntaxCte := { name := "b", columns := [], query := selectAll [] "t", node }
  let a : SyntaxCte := { name := "a", columns := [], query := selectAll [b] "b", node }
  selectAll [a] "a"

/-- Of the two CTEs of a nested `WITH`, three are counted, and a budget of two refuses the query. -/
theorem nested_with_overcounted :
    let parsed : ParsedQuery :=
      { dialect := "generic_sql"
        sourceSql := "WITH a AS (WITH b AS (SELECT * FROM t) SELECT * FROM b) SELECT * FROM a"
        canonicalSql := "WITH a AS (WITH b AS (SELECT * FROM t) SELECT * FROM b) SELECT * FROM a"
        explain := false, syntaxTree := nestedWith, loweringDiagnostics := [] }
    (QueryBudgetUsage.forParsed parsed).ctes = 3 ∧ cteCount parsed.syntaxTree = 2 ∧
      ({ maxCtes := 2 } : QueryBudget).check (.forParsed parsed) = .error ⟨.ctes, 2, 3⟩ ∧
      ¬ MeasuredExactly parsed.syntaxTree
          ((QueryBudgetUsage.forParsed parsed).withParameters 0) := by
  refine ⟨rfl, rfl, rfl, fun h => ?_⟩
  have hctes := h.ctes
  exact absurd hctes (by decide)

end QueryFabric
