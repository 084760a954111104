import Mathlib.Logic.Basic

/-!
# Computations that may record a failure, with their states

`Tracks failed view m R` says that a computation `m` keeps a failure that it finds, and that unless
one is recorded at its end, `R` relates what is seen of the state before it, its result, and what is
seen of the state after it. It is `Yields` with the states; the rules are those of `Yields` as well.
-/

namespace Lib

variable {σ τ α β : Type} {failed : σ → Prop} {view : σ → τ} {m : StateM σ α} {f : α → StateM σ β}
  {R : τ → α → τ → Prop} {R' : τ → β → τ → Prop}

/-- The computation keeps a failure, and without one `R` relates its result to the states. -/
def Tracks (failed : σ → Prop) (view : σ → τ) (m : StateM σ α) (R : τ → α → τ → Prop) : Prop :=
  ∀ s, (failed s → failed (m.run s).2) ∧
    (failed (m.run s).2 ∨ R (view s) (m.run s).1 (view (m.run s).2))

/-- What is returned leaves what is seen of the state. -/
theorem Tracks.pure {a : α} (h : ∀ t, R t a t) : Tracks failed view (Pure.pure a) R :=
  fun s => ⟨id, .inr (h (view s))⟩

/-- Two computations, one after the other. -/
theorem Tracks.bind (hm : Tracks failed view m R)
    (hf : ∀ a, Tracks failed view (f a) fun t' b t'' => ∀ t, R t a t' → R' t b t'') :
    Tracks failed view (m >>= f) R' := by
  intro s
  obtain ⟨hkeep, hr⟩ := hm s
  obtain ⟨hkeep', hr'⟩ := hf (m.run s).1 (m.run s).2
  refine ⟨fun hs => hkeep' (hkeep hs), ?_⟩
  obtain hfailed | hr := hr
  · exact .inl (hkeep' hfailed)
  · obtain hfailed | hr' := hr'
    · exact .inl hfailed
    · exact .inr (hr' (view s) hr)

/-- A relation may be weakened. -/
theorem Tracks.mono {P : τ → α → τ → Prop} (hm : Tracks failed view m R)
    (h : ∀ t a t', R t a t' → P t a t') :
    Tracks failed view m P :=
  fun s => ⟨(hm s).1, (hm s).2.imp_right (h _ _ _)⟩

/-- A step that records a failure is related to whatever is wanted. -/
theorem Tracks.fail {g : σ → σ} (h : ∀ s, failed (g s)) (R : τ → PUnit → τ → Prop) :
    Tracks failed view (modify g) R :=
  fun s => ⟨fun _ => h s, .inl (h s)⟩

/-- A step that changes nothing that is seen of the state. -/
theorem Tracks.modify {g : σ → σ} (hfailed : ∀ s, failed s → failed (g s))
    (hview : ∀ s, view (g s) = view s) :
    Tracks failed view (modify g) fun t _ t' => t' = t :=
  fun s => ⟨hfailed s, .inr (hview s)⟩

/-- Without a failure the result and the states are as promised. -/
theorem Tracks.result (hm : Tracks failed view m R) {s : σ} (h : ¬ failed (m.run s).2) :
    R (view s) (m.run s).1 (view (m.run s).2) :=
  (hm s).2.resolve_left h

end Lib
