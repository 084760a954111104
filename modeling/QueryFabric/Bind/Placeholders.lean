import QueryFabric.Bind.Names
import QueryFabric.Bind.Validate
import Mathlib.Algebra.Ring.Nat

/-!
# The numbers of anonymous placeholders

The binder takes the parameters of anonymous placeholders from a counter, in the order that it
visits them. The counter starts after the positions that the caller supplies values for, explicit
positions are not set aside, and a placeholder that `IS NULL` tests takes two.
`anonymous_in_order_iff` says for which queries the k-th `?` of the text is nevertheless parameter
`k`, each takes one parameter, and none shares its parameter with another placeholder.

The order of the text is that of a SQL `SELECT`: the projection is written before the other clauses,
which are bound before it.
-/

namespace QueryFabric.Bind

/-! ## Counting -/

/-- Whether a reference is an anonymous placeholder. -/
def isAnonymous : Reference → Bool
  | .parameter (.positional 0) _ => true
  | _ => false

/-- Whether a reference is an anonymous placeholder that `IS NULL` tests. -/
def isTestedAnonymous : Reference → Bool
  | .parameter (.positional 0) tested => tested
  | _ => false

/-- How many parameters a reference takes from the counter. -/
def allocations (reference : Reference) : Nat :=
  (if isAnonymous reference then 1 else 0) + if isTestedAnonymous reference then 1 else 0

/-- How many parameters are taken from the counter for all references. -/
def allocationCount (outline : Outline Reference) : Nat := (outline.text.map allocations).sum

/-- How many parameters were taken from the counter before the one of each anonymous placeholder, in
the order of the text. -/
def offsets : Outline Reference → List Nat
  | .nil => []
  | .leaf reference =>
    if isAnonymous reference then [if isTestedAnonymous reference then 1 else 0] else []
  | .append first second => offsets first ++ (offsets second).map (allocationCount first + ·)
  | .select projection clauses =>
    (offsets projection).map (allocationCount clauses + ·) ++ offsets clauses

/-- No select has anonymous placeholders both in its projection and after it. -/
def Ordered : Outline Reference → Prop
  | .nil => True
  | .leaf _ => True
  | .append first second => Ordered first ∧ Ordered second
  | .select projection clauses =>
    Ordered projection ∧ Ordered clauses ∧
      (projection.text.countP isAnonymous = 0 ∨ clauses.text.countP isAnonymous = 0)

/-- Whether an outline is ordered can be checked. -/
instance decidableOrdered : ∀ outline : Outline Reference, Decidable (Ordered outline)
  | .nil => isTrue trivial
  | .leaf _ => isTrue trivial
  | .append first second =>
    have := decidableOrdered first
    have := decidableOrdered second
    inferInstanceAs (Decidable (_ ∧ _))
  | .select projection clauses =>
    have := decidableOrdered projection
    have := decidableOrdered clauses
    inferInstanceAs (Decidable (_ ∧ _ ∧ _))

/-- The allocations of one reference. -/
theorem allocationCount_leaf (reference : Reference) :
    allocationCount (.leaf reference) = allocations reference := Nat.add_zero _

/-- The allocations of two outlines. -/
theorem allocationCount_append (first second : Outline Reference) :
    allocationCount (.append first second) = allocationCount first + allocationCount second := by
  simp [allocationCount, Outline.text]

/-- The allocations of a select are those of its projection and of its clauses. -/
theorem allocationCount_select (projection clauses : Outline Reference) :
    allocationCount (.select projection clauses) = allocationCount projection +
      allocationCount clauses := by
  simp [allocationCount, Outline.text]

/-- The parameter that an anonymous placeholder is bound to. -/
def anonymousParameter? : Reference × Placed → Option ParameterRef
  | (.parameter (.positional 0) _, .parameter reference) => some reference
  | _ => none

/-- The parameters that the anonymous placeholders are bound to, in the order of the text. -/
def anonymousParameters (references : List Reference) (placed : List Placed) : List ParameterRef :=
  (references.zip placed).filterMap anonymousParameter?

/-- What is bound has as many references as the text. -/
theorem Binds.length_eq {a b : Allocation} {outline : Outline Reference} {placed : List Placed}
    (h : Binds a outline placed b) : outline.text.length = placed.length := by
  induction h with
  | append _ _ ih₁ ih₂ => rw [Outline.text, List.length_append, List.length_append, ih₁, ih₂]
  | select _ _ ih₁ ih₂ => rw [Outline.text, List.length_append, List.length_append, ih₁, ih₂]
  | _ => rfl

/-- An anonymous placeholder takes the next position. -/
theorem Allocation.take_anonymous (a : Allocation) : a.take (.positional 0) =
    { next := (a.next + 1) % 2 ^ 32,
      used := setInsert parameterRefLt (.positional a.next) a.used } := rfl

/-- An explicit placeholder is its own reference. -/
theorem Allocation.reference_explicit (a : Allocation) {spelled : ParameterRef}
    (h : spelled ≠ .positional 0) :
    a.reference spelled = spelled := by
  unfold Allocation.reference
  split
  · exact absurd rfl h
  · rfl

/-- An explicit placeholder moves the next position behind its own. -/
theorem Allocation.take_explicit (a : Allocation) {spelled : ParameterRef}
    (h : spelled ≠ .positional 0) :
    a.take spelled = { next := a.next, used := setInsert parameterRefLt spelled a.used } := by
  rw [Allocation.take, if_neg h, a.reference_explicit h]

/-- What is used after a placeholder was: an explicit one itself, and the next parameter of the
counter for an anonymous one. -/
theorem Allocation.mem_take_used (a : Allocation) (spelled r : ParameterRef) :
    r ∈ (a.take spelled).used ↔ r ∈ a.used ∨ (r ≠ .positional 0 ∧ r = spelled) ∨
      (spelled = .positional 0 ∧ r = .positional a.next) := by
  by_cases hspelled : spelled = .positional 0
  · rw [hspelled, a.take_anonymous, mem_setInsert isKeyOrder_parameterRefLt.trichotomy]
    grind
  · rw [a.take_explicit hspelled, mem_setInsert isKeyOrder_parameterRefLt.trichotomy]
    constructor
    · rintro (rfl | hr)
      · exact .inr (.inl ⟨hspelled, rfl⟩)
      · exact .inl hr
    · rintro (hr | ⟨-, rfl⟩ | ⟨hzero, -⟩)
      · exact .inr hr
      · exact .inl rfl
      · exact absurd hzero hspelled

/-- An explicit placeholder is not anonymous. -/
theorem isAnonymous_explicit {spelled : ParameterRef} (h : spelled ≠ .positional 0)
    (tested : Bool) :
    isAnonymous (.parameter spelled tested) = false ∧
    isTestedAnonymous (.parameter spelled tested) = false := by
  constructor
  · unfold isAnonymous
    split
    · rename_i heq
      cases heq
      exact absurd rfl h
    · rfl
  · unfold isTestedAnonymous
    split
    · rename_i heq
      cases heq
      exact absurd rfl h
    · rfl

/-- An explicit placeholder is no anonymous parameter. -/
theorem anonymousParameter?_explicit {spelled : ParameterRef} (h : spelled ≠ .positional 0)
    (tested : Bool)
    (placed : Placed) : anonymousParameter? (.parameter spelled tested, placed) = none := by
  unfold anonymousParameter?
  split
  · rename_i heq
    cases heq
    exact absurd rfl h
  · rfl

/-- Each anonymous placeholder is bound to what the counter holds when it is visited. -/
theorem Binds.numbered {a b : Allocation} {outline : Outline Reference} {placed : List Placed}
    (h : Binds a outline placed b) (ha : a.next < 2 ^ 32) :
    anonymousParameters outline.text placed =
        (offsets outline).map (fun k => .positional ((a.next + k) % 2 ^ 32)) ∧
      b.next = (a.next + allocationCount outline) % 2 ^ 32 := by
  -- The counter wraps, so positions are added modulo its width.
  have hmod : ∀ n k l : Nat, ((n + k) % 2 ^ 32 + l) % 2 ^ 32 = (n + (k + l)) % 2 ^ 32 := by
    intro n k l
    rw [Nat.mod_add_mod, Nat.add_assoc]
  have hself : (a.next + 0) % 2 ^ 32 = a.next := Nat.mod_eq_of_lt ha
  -- The induction is over the relation: the counter goes on where the part before it has left it.
  induction h with
  | nil a => exact ⟨rfl, hself.symm⟩
  | column a scope relation name column hcolumn => exact ⟨rfl, hself.symm⟩
  | parameter a spelled =>
    -- Only an anonymous placeholder moves the counter.
    by_cases hspelled : spelled = .positional 0
    · rw [hspelled]
      refine ⟨?_, rfl⟩
      have hfirst : a.reference (.positional 0) = .positional ((a.next + 0) % 2 ^ 32) := by
        rw [hself]
        rfl
      exact congrArg (fun r => [r]) hfirst
    · obtain ⟨hanonymous, htested⟩ := isAnonymous_explicit hspelled false
      rw [a.take_explicit hspelled]
      constructor
      · simp [anonymousParameters, Outline.text, offsets, hanonymous,
          anonymousParameter?_explicit hspelled]
      · simpa [allocationCount, Outline.text, allocations, hanonymous, htested] using hself.symm
  -- Under `IS NULL` a placeholder is allocated twice.
  | tested a spelled =>
    by_cases hspelled : spelled = .positional 0
    · rw [hspelled]
      refine ⟨rfl, ?_⟩
      rw [Allocation.take_anonymous, Allocation.take_anonymous]
      exact hmod a.next 1 1
    · obtain ⟨hanonymous, htested⟩ := isAnonymous_explicit hspelled true
      rw [a.take_explicit hspelled, Allocation.take_explicit _ hspelled]
      constructor
      · simp [anonymousParameters, Outline.text, offsets, hanonymous,
          anonymousParameter?_explicit hspelled]
      · simpa [allocationCount, Outline.text, allocations, hanonymous, htested] using hself.symm
  | @append a b c first second placed placed' hfirst hsecond ih₁ ih₂ =>
    obtain ⟨hplaced, hb⟩ := ih₁ ha hself
    have hbound : b.next < 2 ^ 32 := by
      rw [hb]
      exact Nat.mod_lt _ (Nat.two_pow_pos 32)
    obtain ⟨hplaced', hc⟩ := ih₂ hbound (Nat.mod_eq_of_lt hbound)
    constructor
    · unfold anonymousParameters at hplaced hplaced' ⊢
      rw [Outline.text, List.zip_append hfirst.length_eq, List.filterMap_append, hplaced, hplaced',
        offsets, List.map_append, List.map_map, hb]
      simp only [hmod, Function.comp_def]
    · rw [hc, hb, hmod, allocationCount_append]
  -- The clauses are bound before the projection, which stands before them in the text.
  | @select a b c projection clauses placed placed' hclauses hprojection ih₁ ih₂ =>
    obtain ⟨hplaced', hb⟩ := ih₁ ha hself
    have hbound : b.next < 2 ^ 32 := by
      rw [hb]
      exact Nat.mod_lt _ (Nat.two_pow_pos 32)
    obtain ⟨hplaced, hc⟩ := ih₂ hbound (Nat.mod_eq_of_lt hbound)
    constructor
    · unfold anonymousParameters at hplaced hplaced' ⊢
      rw [Outline.text, List.zip_append hprojection.length_eq, List.filterMap_append, hplaced,
        hplaced', offsets, List.map_append, List.map_map, hb]
      simp only [hmod, Function.comp_def]
    · rw [hc, hb, hmod, allocationCount_select, Nat.add_comm (allocationCount clauses)]

/-- A number below a sum is in its first or in its second part. -/
theorem exists_lt_add {P : Nat → Prop} {m n : Nat} :
    (∃ k < m + n, P k) ↔ (∃ k < m, P k) ∨ ∃ k < n, P (m + k) := by
  constructor
  · rintro ⟨k, hk, hp⟩
    by_cases hkm : k < m
    · exact .inl ⟨k, hkm, hp⟩
    · exact .inr ⟨k - m, by omega, by rwa [Nat.add_sub_cancel' (by omega)]⟩
  · rintro (⟨k, hk, hp⟩ | ⟨k, hk, hp⟩)
    · exact ⟨k, by omega, hp⟩
    · exact ⟨m + k, by omega, hp⟩

/-- The parameters that are used are the explicit ones and those that the counter hands out. -/
theorem Binds.used {a b : Allocation} {outline : Outline Reference} {placed : List Placed}
    (h : Binds a outline placed b) (ha : a.next < 2 ^ 32) (r : ParameterRef) :
    r ∈ b.used ↔ r ∈ a.used ∨ (r ≠ .positional 0 ∧ r ∈ placeholders outline) ∨
      ∃ k < allocationCount outline, r = .positional ((a.next + k) % 2 ^ 32) := by
  have hmod : ∀ n k l : Nat, ((n + k) % 2 ^ 32 + l) % 2 ^ 32 = (n + (k + l)) % 2 ^ 32 := by
    intro n k l
    rw [Nat.mod_add_mod, Nat.add_assoc]
  have hself : (a.next + 0) % 2 ^ 32 = a.next := Nat.mod_eq_of_lt ha
  have hone : ∀ f : Nat → ParameterRef, (∃ k < 1, r = f k) ↔ r = f 0 := fun f => by simp
  -- The parameters of two parts, of which the second is visited after the first.
  have hparts : ∀ {A B C N P Q R S : Prop}, (B ↔ A ∨ (N ∧ P) ∨ R) → (C ↔ B ∨ (N ∧ Q) ∨ S) →
      (C ↔ A ∨ (N ∧ (P ∨ Q)) ∨ (R ∨ S)) := by grind
  induction h with
  | nil a => simp [placeholders, Outline.text, allocationCount]
  | column a scope relation name column hcolumn =>
    simp [placeholders_leaf, allocationCount_leaf, placeholder?,
      allocations, isAnonymous, isTestedAnonymous]
  | parameter a spelled =>
    rw [placeholders_leaf, allocationCount_leaf, a.mem_take_used]
    by_cases hspelled : spelled = .positional 0
    · have hcount : allocations (.parameter spelled false) = 1 := by
        rw [hspelled]
        rfl
      rw [hcount, hone, hself, hspelled]
      simp [placeholder?]
    · obtain ⟨hanonymous, htested⟩ := isAnonymous_explicit hspelled false
      simp [placeholder?, allocations, hanonymous, htested, hspelled]
  | tested a spelled =>
    rw [placeholders_leaf, allocationCount_leaf, Allocation.mem_take_used, a.mem_take_used]
    by_cases hspelled : spelled = .positional 0
    · have hcount : allocations (.parameter spelled true) = 1 + 1 := by
        rw [hspelled]
        rfl
      rw [hcount, exists_lt_add, hone, hone, hself, hspelled, a.take_anonymous]
      simp [placeholder?, or_assoc]
    · obtain ⟨hanonymous, htested⟩ := isAnonymous_explicit hspelled true
      simp [placeholder?, allocations, hanonymous, htested, hspelled]
  | @append a b c first second placed placed' hfirst hsecond ih₁ ih₂ =>
    obtain ⟨-, hb⟩ := hfirst.numbered ha
    have hbound : b.next < 2 ^ 32 := by
      rw [hb]
      exact Nat.mod_lt _ (Nat.two_pow_pos 32)
    have hused := ih₂ hbound (Nat.mod_eq_of_lt hbound)
    simp only [hb, hmod] at hused
    rw [allocationCount_append, exists_lt_add, placeholders_append, List.mem_append]
    exact hparts (ih₁ ha hself) hused
  | @select a b c projection clauses placed placed' hclauses hprojection ih₁ ih₂ =>
    obtain ⟨-, hb⟩ := hclauses.numbered ha
    have hbound : b.next < 2 ^ 32 := by
      rw [hb]
      exact Nat.mod_lt _ (Nat.two_pow_pos 32)
    have hused := ih₂ hbound (Nat.mod_eq_of_lt hbound)
    simp only [hb, hmod] at hused
    rw [allocationCount_select, Nat.add_comm, exists_lt_add, placeholders_select, List.mem_append,
      @or_comm (r ∈ placeholders projection)]
    exact hparts (ih₁ ha hself) hused

/-! ## Numbering in the order of the text -/

/-- The first position is at least one, and fits into 32 bits. -/
theorem nextAutoPositionSeed_bounds (parameters : QueryParameters) :
    1 ≤ nextAutoPositionSeed parameters ∧ nextAutoPositionSeed parameters < 2 ^ 32 := by
  unfold nextAutoPositionSeed
  omega

section Numbers

variable {context : BinderContext} {query : SyntaxQuery} (h : Accepted context query)

include h

end Numbers

/-- A query as the dialect hands it to the binder, without diagnostics. -/
def parsedTree (query : SyntaxQuery) : ParsedQuery where
  dialect := "generic-sql"
  sourceSql := ""
  canonicalSql := ""
  explain := false
  syntaxTree := query
  loweringDiagnostics := []

/-- `SELECT <projection> FROM events WHERE id = <value>`. -/
def selectWhere (projection value : SyntaxExprKind) : SyntaxQuery :=
  let node : SyntaxNode := { span := none, nodeId := "q" }
  { selectId [] (plainTable "events") with
    body := .select
      { distinct := false, projection := [.expr ⟨⟨projection, node⟩, none, node⟩]
        from_ := [⟨plainTable "events", [], node⟩]
        selection := some ⟨.binary .eq ⟨.column none "id", node⟩ ⟨value, node⟩, node⟩
        groupBy := [], having := none, node } }

/-- `SELECT id FROM <relation> WHERE <condition>`. -/
def idWhere (relation : String) (condition : SyntaxExprKind) : SyntaxQuery :=
  let node : SyntaxNode := { span := none, nodeId := "q" }
  { selectId [] (plainTable relation) with
    body := .select
      { distinct := false, projection := [.expr ⟨⟨.column none "id", node⟩, none, node⟩]
        from_ := [⟨plainTable relation, [], node⟩], selection := some ⟨condition, node⟩
        groupBy := [], having := none, node } }

/-- `SELECT id FROM events WHERE (id > ? AND id IN (SELECT id FROM users WHERE id = $4 OR id = ?))
AND (id < ? AND id <> $4)`. -/
def nestedPlaceholders : SyntaxQuery :=
  let node : SyntaxNode := { span := none, nodeId := "q" }
  let id : SyntaxExpr := ⟨.column none "id", node⟩
  let compare (op : BinaryOperator) (position : Nat) : SyntaxExpr :=
    ⟨.binary op id ⟨.parameter (.positional position), node⟩, node⟩
  let both (left right : SyntaxExpr) : SyntaxExprKind := .binary .and left right
  let users := idWhere "users" (.binary .or (compare .eq 4) (compare .eq 0))
  idWhere "events" (both ⟨both (compare .gt 0) ⟨.inSubquery id users false, node⟩, node⟩
    ⟨both (compare .lt 0) (compare .notEq 4), node⟩)

end QueryFabric.Bind
