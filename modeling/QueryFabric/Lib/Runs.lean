import Mathlib.Data.List.Basic

/-!
# Runs of a transition system

A system is given by a partial function from a state and an action to the next state. `run` takes
the actions of a trace one after the other, and `Guarded` says that each of them meets a condition
in the state where it is taken. `run_invariant` is the induction over a trace.
-/

namespace Lib

section Runs

variable {σ α : Type} (step : σ → α → Option σ)

/-- The state after the actions of a trace, if they can all be taken. -/
def run : σ → List α → Option σ
  | s, [] => some s
  | s, a :: as => (step s a).bind fun t => run t as

/-- Every action of a trace meets the guard in the state where it is taken. -/
def Guarded (guard : σ → α → Prop) : σ → List α → Prop
  | _, [] => True
  | s, a :: as => guard s a ∧ ∀ t, step s a = some t → Guarded guard t as

variable {step}

/-- The first step of a run. -/
theorem run_cons {s t : σ} {a : α} {as : List α} (h : run step s (a :: as) = some t) :
    ∃ u, step s a = some u ∧ run step u as = some t :=
  Option.bind_eq_some_iff.mp h

/-- Two runs, one after the other. -/
theorem run_append {s t : σ} : ∀ {as bs : List α} {u : σ}, run step s as = some u →
    run step u bs = some t → run step s (as ++ bs) = some t
  | [], _, _, hu, ht => by
    cases hu
    exact ht
  | a :: as, bs, u, hu, ht => by
    obtain ⟨v, hv, hrest⟩ := run_cons hu
    exact Option.bind_eq_some_iff.mpr ⟨v, hv, run_append hrest ht⟩

/-- A guard of a run holds on both parts of it. -/
theorem Guarded.append {guard : σ → α → Prop} {s u : σ} : ∀ {as bs : List α},
    Guarded step guard s (as ++ bs) → run step s as = some u →
      Guarded step guard s as ∧ Guarded step guard u bs
  | [], _, h, hu => by
    cases hu
    exact ⟨trivial, h⟩
  | a :: as, bs, ⟨ha, hrest⟩, hu => by
    obtain ⟨v, hv, hrun⟩ := run_cons hu
    obtain ⟨-, hbs⟩ := Guarded.append (hrest v hv) hrun
    refine ⟨⟨ha, fun t ht => ?_⟩, hbs⟩
    cases hv.symm.trans ht
    exact (Guarded.append (hrest v hv) hrun).1

/-- What every guarded step preserves is preserved by a guarded trace. -/
theorem run_invariant {guard : σ → α → Prop} {I : σ → Prop}
    (hstep : ∀ s a t, I s → guard s a → step s a = some t → I t) : ∀ {as : List α} {s t : σ},
    Guarded step guard s as → I s → run step s as = some t → I t
  | [], _, _, _, hI, ht => by
    cases ht
    exact hI
  | a :: as, s, t, ⟨ha, hrest⟩, hI, ht => by
    obtain ⟨u, hu, hrun⟩ := run_cons ht
    exact run_invariant hstep (hrest u hu) (hstep s a u hI ha hu) hrun

/-- What every step preserves is preserved by a trace. -/
theorem run_preserves {I : σ → Prop} (hstep : ∀ s a t, I s → step s a = some t → I t) :
    ∀ {as : List α} {s t : σ},
    I s → run step s as = some t → I t
  | [], _, _, hI, ht => by
    cases ht
    exact hI
  | a :: as, s, t, hI, ht => by
    obtain ⟨u, hu, hrun⟩ := run_cons ht
    exact run_preserves hstep (hstep s a u hI hu) hrun

/-- Two guards that agree where an invariant of the guarded steps holds admit the same traces. -/
theorem guarded_congr {guard guard' : σ → α → Prop} {I : σ → Prop}
    (hstep : ∀ s a t, I s → guard s a → step s a = some t → I t)
    (hguard : ∀ s a, I s → (guard' s a ↔ guard s a)) (as : List α) {s : σ} (hI : I s) :
    Guarded step guard' s as ↔ Guarded step guard s as := by
  induction as generalizing s with
  | nil => exact Iff.rfl
  | cons a as ih =>
    refine and_congr_right_iff.mpr ?_ |>.trans (and_congr_left fun _ => hguard s a hI)
    intro ha
    have hnext (t : σ) (ht : step s a = some t) : I t := hstep s a t hI ((hguard s a hI).mp ha) ht
    exact forall_congr' fun t => forall_congr' fun ht => ih (hnext t ht)

/-- Whether a trace is guarded can be decided by running it. -/
instance decidableGuarded {guard : σ → α → Prop} [∀ s a, Decidable (guard s a)] :
    ∀ (s : σ) (as : List α), Decidable (Guarded step guard s as)
  | _, [] => .isTrue trivial
  | s, a :: as =>
    match hstep : step s a with
    | none => decidable_of_iff (guard s a)
        ⟨fun ha => ⟨ha, fun t ht => by rw [hstep] at ht; cases ht⟩, And.left⟩
    | some t =>
      have : Decidable (Guarded step guard t as) := decidableGuarded t as
      decidable_of_iff (guard s a ∧ Guarded step guard t as)
        ⟨fun ⟨ha, hrest⟩ => ⟨ha, fun u hu => by cases hstep.symm.trans hu; exact hrest⟩,
          fun ⟨ha, hrest⟩ => ⟨ha, hrest t hstep⟩⟩

end Runs

/-! ## Parties in a list

The parties of a system are often kept in a list, where one of them takes a step and new ones are
added at the end. -/

section Parties

variable {α : Type} {l : List α} {a b : α} {i j : Nat}

/-- An entry of a list after one was replaced. -/
theorem getElem?_set_eq_some (h : (l.set i a)[j]? = some b) :
    (j = i ∧ b = a) ∨ (j ≠ i ∧ l[j]? = some b) := by
  rw [List.getElem?_set] at h
  split at h
  · rename_i heq
    split at h
    · cases h
      exact .inl ⟨heq.symm, rfl⟩
    · cases h
  · rename_i hne
    exact .inr ⟨fun heq => hne heq.symm, h⟩

/-- An entry of a list after one was added. -/
theorem getElem?_concat_eq_some (h : (l ++ [a])[j]? = some b) :
    l[j]? = some b ∨ (j = l.length ∧ b = a) := by
  rw [List.getElem?_append] at h
  split at h
  · exact .inl h
  · rename_i hlength
    obtain ⟨hindex, hvalue⟩ := List.getElem?_eq_some_iff.mp h
    rw [List.length_singleton] at hindex
    exact .inr ⟨by omega, (hvalue.symm.trans (List.getElem_singleton _))⟩

end Parties

end Lib
