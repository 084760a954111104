import Mathlib.Data.List.Basic

/-!
# Computations that append to a log

A state may hold a log that is only ever appended to. `Logs log m l Q` says that a computation `m`
over the state appends exactly `l`, from whatever state it is run, and that its result satisfies
`Q`. The rules follow the computation: nothing is appended by `pure`, and `bind` appends one list
after the other.
-/

namespace Lib

variable {σ α β γ : Type} {log : σ → List γ} {m : StateM σ α} {f : α → StateM σ β} {l l' : List γ}
  {Q : α → Prop} {Q' : β → Prop}

/-- The computation appends `l` to the log, and its result satisfies `Q`. -/
def Logs (log : σ → List γ) (m : StateM σ α) (l : List γ) (Q : α → Prop) : Prop :=
  ∀ s, log (m.run s).2 = log s ++ l ∧ Q (m.run s).1

/-- What is returned logs nothing. -/
theorem Logs.pure {a : α} (h : Q a) : Logs log (Pure.pure a) [] Q :=
  fun _ => ⟨(List.append_nil _).symm, h⟩

/-- A computation logs after what comes before it. -/
theorem Logs.bind (hm : Logs log m l Q) (hf : ∀ a, Q a → Logs log (f a) l' Q') :
    Logs log (m >>= f) (l ++ l') Q' := by
  intro s
  obtain ⟨hlog, hq⟩ := hm s
  obtain ⟨hlog', hq'⟩ := hf _ hq (m.run s).2
  refine ⟨?_, hq'⟩
  rw [← List.append_assoc, ← hlog]
  exact hlog'

/-- A log may be said to return less. -/
theorem Logs.mono {P : α → Prop} (hm : Logs log m l Q) (h : ∀ a, Q a → P a) : Logs log m l P :=
  fun s => ⟨(hm s).1, h _ (hm s).2⟩

/-- A computation that appends nothing, before another. -/
theorem Logs.silent_bind (hm : Logs log m [] Q) (hf : ∀ a, Q a → Logs log (f a) l' Q') :
    Logs log (m >>= f) l' Q' := by
  simpa using hm.bind hf

/-- The last computation of a sequence may append nothing. -/
theorem Logs.bind_silent (hm : Logs log m l Q) (hf : ∀ a, Q a → Logs log (f a) [] Q') :
    Logs log (m >>= f) l Q' := by
  simpa using hm.bind hf

/-- A change of the state logs what it adds. -/
theorem Logs.modify {g : σ → σ} (h : ∀ s, log (g s) = log s ++ l) :
    Logs log (modify g) l fun _ => True :=
  fun s => ⟨h s, trivial⟩

end Lib
