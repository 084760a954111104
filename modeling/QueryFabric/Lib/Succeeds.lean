import Mathlib.Logic.Basic
import Mathlib.Data.List.Basic

/-!
# When a fallible computation succeeds

`Succeeds x` says that an `Except` computation returns a value. The lemmas take a sequence of
computations apart, so that the success of a recursive function can be computed clause by clause;
the `..._eq_ok` lemmas do the same for the value it returns, and turn a sequence of checks with an
early return (`require`) into their conjunction.
-/

namespace Lib

variable {ε α β : Type}

/-- The computation returns a value. -/
def Succeeds (x : Except ε α) : Prop := ∃ a, x = .ok a

/-- A value succeeds. -/
@[simp]
theorem succeeds_ok (a : α) : Succeeds (.ok a : Except ε α) := ⟨a, rfl⟩

/-- A returned value succeeds. -/
@[simp]
theorem succeeds_pure (a : α) : Succeeds (pure a : Except ε α) := ⟨a, rfl⟩

/-- An error does not succeed. -/
@[simp]
theorem not_succeeds_error (e : ε) : ¬ Succeeds (.error e : Except ε α) := by
  rintro ⟨a, h⟩
  cases h

/-- The definition, as the last rewriting step after a sequence has been taken apart. -/
@[simp]
theorem exists_eq_ok {x : Except ε α} : (∃ a, x = .ok a) ↔ Succeeds x := Iff.rfl

/-- The value of a computation, as an option. -/
theorem toOption_eq_some_iff {x : Except ε α} {a : α} : x.toOption = some a ↔ x = .ok a := by
  cases x <;> simp [Except.toOption]

/-- A sequence succeeds when its first part does and the second does on its value. -/
theorem succeeds_bind {x : Except ε α} {f : α → Except ε β} :
    Succeeds (x >>= f) ↔ ∃ a, x = .ok a ∧ Succeeds (f a) := by
  cases x with
  | error e => simp [bind, Except.bind]
  | ok a => simp [bind, Except.bind]

/-- A last step that only computes does not change whether the sequence succeeds. -/
@[simp]
theorem succeeds_map {x : Except ε α} {f : α → β} : Succeeds (f <$> x) ↔ Succeeds x := by
  cases x with
  | error e => simp [Functor.map, Except.map]
  | ok a => simp [Functor.map, Except.map]

/-- `mapM` succeeds when the function succeeds on every member. -/
theorem succeeds_mapM {f : α → Except ε β} {l : List α} :
    Succeeds (l.mapM f) ↔ ∀ a ∈ l, Succeeds (f a) := by
  induction l with
  | nil => simp
  | cons a l ih => simp [succeeds_bind, ih]

/-- The value of a sequence comes from a value of its first part. -/
theorem bind_eq_ok {x : Except ε α} {f : α → Except ε β} {b : β} :
    x >>= f = .ok b ↔ ∃ a, x = .ok a ∧ f a = .ok b := by
  cases x with
  | error e => simp [bind, Except.bind]
  | ok a => simp [bind, Except.bind]

/-- The values of `mapM` are those of the function, where it is known what it returns. -/
theorem mapM_eq_ok {f : α → Except ε β} {g : α → β} (hf : ∀ a b, f a = .ok b → b = g a)
    {l : List α} {bs : List β} (h : l.mapM f = .ok bs) :
    bs = l.map g ∧ ∀ a ∈ l, f a = .ok (g a) := by
  induction l generalizing bs with
  | nil =>
    cases h
    exact ⟨rfl, by simp⟩
  | cons a l ih =>
    rw [List.mapM_cons] at h
    obtain ⟨b, hb, h⟩ := bind_eq_ok.mp h
    obtain ⟨bs', hbs, h⟩ := bind_eq_ok.mp h
    cases h
    obtain ⟨rfl, hrest⟩ := ih hbs
    obtain rfl := hf a b hb
    exact ⟨rfl, List.forall_mem_cons.mpr ⟨hb, hrest⟩⟩

/-- `mapM` returns the values of a function, where it returns them for each member. -/
theorem mapM_ok_map {f : α → Except ε β} {g : α → β} {l : List α} (h : ∀ a ∈ l, f a = .ok (g a)) :
    l.mapM f = .ok (l.map g) := by
  induction l with
  | nil => rfl
  | cons a l ih =>
    obtain ⟨ha, hl⟩ := List.forall_mem_cons.mp h
    rw [List.mapM_cons, ha, ih hl]
    rfl

/-- A value of `mapM` is that of a member. -/
theorem exists_of_mem_mapM {f : α → Except ε β} {l : List α} {bs : List β}
    (h : l.mapM f = .ok bs) {b : β} (hb : b ∈ bs) : ∃ a ∈ l, f a = .ok b := by
  induction l generalizing bs with
  | nil =>
    cases h
    exact nomatch hb
  | cons a l ih =>
    rw [List.mapM_cons] at h
    obtain ⟨first, hfirst, h⟩ := bind_eq_ok.mp h
    obtain ⟨rest, hrest, h⟩ := bind_eq_ok.mp h
    cases h
    rcases List.mem_cons.mp hb with rfl | hb
    · exact ⟨a, List.mem_cons_self, hfirst⟩
    · obtain ⟨a', ha', hvalue⟩ := ih hrest hb
      exact ⟨a', List.mem_cons_of_mem _ ha', hvalue⟩

/-- The value of a computation that only returns. -/
theorem pure_eq_ok {a b : α} : (pure a : Except ε α) = .ok b ↔ a = b := by
  simp [pure, Except.pure]

/-! ## Checks with an early return -/

/-- An early return unless a condition holds. -/
def require (condition : Bool) (error : ε) : Except ε Unit :=
  if condition then .ok () else .error error

/-- What is left of a check that succeeds is its condition. -/
theorem require_eq_ok {condition : Bool} {error : ε} {u : Unit} :
    require condition error = .ok u ↔ condition = true := by
  cases condition <;> simp [require]

/-- Another error for a failure leaves the values as they are. -/
theorem mapError_eq_ok {ε' : Type} {x : Except ε α} {f : ε → ε'} {a : α} :
    x.mapError f = .ok a ↔ x = .ok a := by
  cases x <;> simp [Except.mapError]

end Lib
