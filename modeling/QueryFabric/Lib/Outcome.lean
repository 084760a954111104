import Mathlib.Logic.Basic

/-!
# The outcomes of a fallible computation

`Outcome E x Q` says that an `Except` computation returns only what satisfies `Q` and fails only
with errors that satisfy `E`. The rules follow the computation.
-/

namespace Lib

variable {ε α β : Type} {E : ε → Prop} {x : Except ε α} {f : α → Except ε β} {Q : α → Prop}
  {Q' : β → Prop}

/-- The computation returns what satisfies `Q`, or fails with an error that satisfies `E`. -/
structure Outcome (E : ε → Prop) (x : Except ε α) (Q : α → Prop) : Prop where
  error : ∀ e, x = .error e → E e
  ok : ∀ a, x = .ok a → Q a

/-- A value has its property. -/
theorem Outcome.pure {a : α} (h : Q a) : Outcome E (Pure.pure a) Q where
  error _ he := by cases he
  ok _ ha := by
    cases ha
    exact h

/-- An error has its property. -/
theorem Outcome.throw {e : ε} (h : E e) : Outcome E (.error e) Q where
  error _ he := by
    cases he
    exact h
  ok _ ha := by cases ha

/-- Two computations, one after the other. -/
theorem Outcome.bind (hx : Outcome E x Q) (hf : ∀ a, Q a → Outcome E (f a) Q') :
    Outcome E (x >>= f) Q' := by
  cases x with
  | error e => exact .throw (hx.error e rfl)
  | ok a => exact hf a (hx.ok a rfl)

/-- A property may be weakened. -/
theorem Outcome.mono {P : α → Prop} (hx : Outcome E x Q) (h : ∀ a, Q a → P a) : Outcome E x P where
  error := hx.error
  ok a ha := h a (hx.ok a ha)

/-- What is known of the errors says nothing about the value. -/
theorem Outcome.of_error (h : ∀ e, x = .error e → E e) : Outcome E x fun a => x = .ok a where
  error := h
  ok _ ha := ha

/-- A computation that is made for each member of a list. -/
theorem Outcome.mapM {γ : Type} {g : γ → Except ε α} :
    ∀ {l : List γ}, (∀ c ∈ l, Outcome E (g c) fun _ => True) →
    Outcome E (l.mapM g) fun bs => l.mapM g = .ok bs
  | [], _ => .pure rfl
  | c :: l, h => by
    obtain ⟨hc, hl⟩ := List.forall_mem_cons.mp h
    refine .of_error ?_
    rw [List.mapM_cons]
    exact (hc.bind fun _ _ => (Outcome.mapM hl).bind fun _ _ => (.pure trivial :
      Outcome E _ fun _ => True)).error

end Lib
