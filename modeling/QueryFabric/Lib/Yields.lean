import Mathlib.Logic.Basic

/-!
# Computations that may record a failure

A state may record that something has failed, and a failure is never taken back. `Yields failed m Q`
says that a computation `m` keeps a failure that it finds, and that its result satisfies `Q` unless
a failure is recorded at its end. The rules follow the computation. What is known of the result of
its first part is a premise of what is shown of the rest, since the rest is run after a failure as
well.
-/

namespace Lib

variable {σ α β : Type} {failed : σ → Prop} {m : StateM σ α} {f : α → StateM σ β} {Q : α → Prop}
  {Q' : β → Prop}

/-- The computation keeps a failure, and without one its result satisfies `Q`. -/
def Yields (failed : σ → Prop) (m : StateM σ α) (Q : α → Prop) : Prop :=
  ∀ s, (failed s → failed (m.run s).2) ∧ (failed (m.run s).2 ∨ Q (m.run s).1)

/-- A returned value has its property. -/
theorem Yields.pure {a : α} (h : Q a) : Yields failed (Pure.pure a) Q :=
  fun _ => ⟨id, .inr h⟩

/-- What comes after a computation has a property, if it failed or the value has its own. -/
theorem Yields.bind (hm : Yields failed m Q) (hf : ∀ a, Yields failed (f a) fun b => Q a → Q' b) :
    Yields failed (m >>= f) Q' := by
  intro s
  obtain ⟨hkeep, hq⟩ := hm s
  obtain ⟨hkeep', hq'⟩ := hf (m.run s).1 (m.run s).2
  refine ⟨fun hs => hkeep' (hkeep hs), ?_⟩
  obtain hfailed | hq := hq
  · exact .inl (hkeep' hfailed)
  · obtain hfailed | hq' := hq'
    · exact .inl hfailed
    · exact .inr (hq' hq)

/-- A property may be weakened. -/
theorem Yields.mono {P : α → Prop} (hm : Yields failed m Q) (h : ∀ a, Q a → P a) :
    Yields failed m P :=
  fun s => ⟨(hm s).1, (hm s).2.imp_right (h _)⟩

/-- A step that records a failure yields whatever is wanted. -/
theorem Yields.fail {g : σ → σ} (h : ∀ s, failed (g s)) (Q : PUnit → Prop) :
    Yields failed (modify g) Q :=
  fun s => ⟨fun _ => h s, .inl (h s)⟩

/-- A step that only changes the state. -/
theorem Yields.modify {g : σ → σ} (h : ∀ s, failed s → failed (g s)) :
    Yields failed (modify g) fun _ => True :=
  fun s => ⟨h s, .inr trivial⟩

/-- Without a failure the result is as promised. -/
theorem Yields.result (hm : Yields failed m Q) {s : σ} (h : ¬ failed (m.run s).2) : Q (m.run s).1 :=
  (hm s).2.resolve_left h

/-- The result satisfies `Q` from any state, whether a failure is recorded or not. -/
def Returns (m : StateM σ α) (Q : α → Prop) : Prop := ∀ s, Q (m.run s).1

/-- A returned value has its property. -/
theorem Returns.pure {a : α} (h : Q a) : Returns (σ := σ) (Pure.pure a) Q := fun _ => h

/-- What comes last has its property. -/
theorem Returns.bind (h : ∀ a, Returns (f a) Q') : Returns (m >>= f) Q' :=
  fun s => h (m.run s).1 (m.run s).2

/-- What is known of the result of the first part is known in the rest. -/
theorem Returns.andThen (hm : Returns m Q) (hf : ∀ a, Q a → Returns (f a) Q') :
    Returns (m >>= f) Q' :=
  fun s => hf (m.run s).1 (hm s) (m.run s).2

/-- A value has both properties. -/
theorem Yields.and {P : α → Prop} (hm : Yields failed m Q) (h : Returns m P) :
    Yields failed m fun a => Q a ∧ P a :=
  fun s => ⟨(hm s).1, (hm s).2.imp_right fun hq => ⟨hq, h s⟩⟩

end Lib
