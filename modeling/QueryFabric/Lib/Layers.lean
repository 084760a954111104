import Mathlib.Data.List.Perm.Basic
import Mathlib.Data.Set.Finite.Basic
import Mathlib.Order.WellFounded

/-!
# Orders in which everything comes after what it depends on

`DependenciesFirst R l` says that each element of the list `l` comes after the elements of `l` that
it depends on. Such a list is found in layers: of what remains, take all that depends on nothing
that remains. `Layered R done remaining` is what the layers taken so far keep, and `exists_ready`
says that there is a next one as long as there is no cycle.
-/

namespace Lib

variable {α : Type} {R : α → α → Prop}

/-- Each element of the list comes after the elements of the list that it depends on. -/
def DependenciesFirst (R : α → α → Prop) (l : List α) : Prop :=
  ∀ (before : List α) (a : α) (after : List α), l = before ++ a :: after →
    ∀ b ∈ l, R a b → b ∈ before

/-- Some element depends on itself, directly or through others of the set. -/
def HasCycle (R : α → α → Prop) (S : α → Prop) : Prop :=
  ∃ a, Relation.TransGen (fun a b => S a ∧ S b ∧ R a b) a a

/-- A cycle in a set is a cycle in every larger one. -/
theorem HasCycle.mono {S T : α → Prop} (h : HasCycle R S) (hST : ∀ a, S a → T a) :
    HasCycle R T := by
  obtain ⟨a, ha⟩ := h
  exact ⟨a, Relation.TransGen.mono (fun _ _ ⟨hs, hs', hr⟩ => ⟨hST _ hs, hST _ hs', hr⟩) _ _ ha⟩

/-- Where there is no cycle, something depends on nothing. -/
theorem exists_ready {l : List α} (hne : l ≠ []) (h : ¬ HasCycle R (· ∈ l)) :
    ∃ a ∈ l, ∀ b ∈ l, ¬ R a b := by
  -- Without a cycle, dependency through others is a strict order, and on a finite list it has a
  -- least element.
  let below : {a // a ∈ l} → {a // a ∈ l} → Prop :=
    fun b a => Relation.TransGen (fun a b => a ∈ l ∧ b ∈ l ∧ R a b) a b
  have : IsTrans {a // a ∈ l} below := ⟨fun _ _ _ hba hcb => hcb.trans hba⟩
  have : Std.Irrefl below := ⟨fun a ha => h ⟨a, ha⟩⟩
  have : Finite {a // a ∈ l} := (List.finite_toSet l).to_subtype
  have hwf : WellFounded below := Finite.wellFounded_of_trans_of_irrefl below
  obtain ⟨first, hfirst⟩ := List.exists_mem_of_ne_nil l hne
  obtain ⟨⟨a, ha⟩, -, hmin⟩ := hwf.has_min Set.univ ⟨⟨first, hfirst⟩, trivial⟩
  exact ⟨a, ha, fun b hb hr => hmin ⟨b, hb⟩ trivial (.single ⟨ha, hb, hr⟩)⟩

/-- What is depended on through others of the list comes before. -/
theorem DependenciesFirst.mem_before {l : List α} (h : DependenciesFirst R l) {a b : α}
    (hab : Relation.TransGen (fun a b => a ∈ l ∧ b ∈ l ∧ R a b) a b) {before after : List α}
    (hl : l = before ++ a :: after) : b ∈ before := by
  -- The induction is on the path from `a` to `b`.
  induction hab with
  | single hab => exact h before a after hl _ hab.2.1 hab.2.2
  | @tail b c _ hbc ih =>
    obtain ⟨earlier, between, rfl⟩ := List.append_of_mem ih
    have hl' : l = earlier ++ b :: (between ++ a :: after) := by
      rw [hl, List.append_assoc, List.cons_append]
    exact List.mem_append_left _ (h earlier b _ hl' c hbc.2.1 hbc.2.2)

/-- A list in such an order has no cycle. -/
theorem DependenciesFirst.not_hasCycle {l : List α} (hnodup : l.Nodup) (h : DependenciesFirst R l) :
    ¬ HasCycle R (· ∈ l) := by
  rintro ⟨a, ha⟩
  have hmem : a ∈ l := by
    obtain ⟨c, hac, -⟩ := Relation.TransGen.head'_iff.mp ha
    exact hac.1
  obtain ⟨before, after, rfl⟩ := List.append_of_mem hmem
  have hbefore := h.mem_before ha rfl
  exact (List.nodup_append.mp hnodup).2.2 a hbefore a List.mem_cons_self rfl

/-- An order of the images is one of the elements, where the images tell these apart. -/
theorem DependenciesFirst.of_map {β : Type} {f : β → α} {l : List β}
    (hinj : ∀ a ∈ l, ∀ b ∈ l, f a = f b → a = b) (h : DependenciesFirst R (l.map f)) :
    DependenciesFirst (fun a b => R (f a) (f b)) l := by
  rintro before a after rfl b hb hr
  have himage : f b ∈ before.map f :=
    h (before.map f) (f a) (after.map f) (by rw [List.map_append, List.map_cons]) (f b)
      (List.mem_map_of_mem hb) hr
  obtain ⟨c, hc, heq⟩ := List.mem_map.mp himage
  obtain rfl := hinj c (List.mem_append_left _ hc) b hb heq
  exact hc

/-- A rearrangement of the images is the images of a rearrangement. -/
theorem exists_perm_map_eq {β : Type} {f : β → α} {images : List α} {l : List β}
    (h : images.Perm (l.map f)) : ∃ l' : List β, l'.Perm l ∧ l'.map f = images := by
  -- A rearrangement can be carried through a relation of the elements.
  have himages : List.Forall₂ (fun image a => image = f a) (l.map f) l := by
    rw [List.forall₂_map_left_iff]
    exact List.forall₂_same.mpr fun _ _ => rfl
  obtain ⟨l', hforall, hperm⟩ := List.perm_comp_forall₂ h himages
  refine ⟨l', hperm, ?_⟩
  clear hperm h
  induction hforall with
  | nil => rfl
  | cons heq _ ih => rw [List.map_cons, heq, ih]

/-- What has been taken depends neither on itself, nor on anything taken later, nor on what
remains. -/
structure Layered (R : α → α → Prop) (done remaining : List α) : Prop where
  later : done.Pairwise fun a b => ¬ R a b
  self : ∀ a ∈ done, ¬ R a a
  remaining : ∀ a ∈ done, ∀ b ∈ remaining, ¬ R a b

/-- What remains is layered by nothing. -/
theorem layered_nil (remaining : List α) : Layered R [] remaining :=
  ⟨.nil, nofun, nofun⟩

/-- One more layer is taken. -/
theorem Layered.append {done remaining ready rest : List α} (h : Layered R done remaining)
    (hready : ∀ a ∈ ready, a ∈ remaining ∧ ∀ b ∈ remaining, ¬ R a b)
    (hrest : ∀ b ∈ rest, b ∈ remaining) :
    Layered R (done ++ ready) rest where
  later := by
    have hinner : ready.Pairwise fun a b => ¬ R a b :=
      List.pairwise_of_forall_mem_list fun a ha b hb => (hready a ha).2 b (hready b hb).1
    exact List.pairwise_append.mpr
      ⟨h.later, hinner, fun a ha b hb => h.remaining a ha b (hready b hb).1⟩
  self a ha := by
    obtain ha | ha := List.mem_append.mp ha
    · exact h.self a ha
    · exact (hready a ha).2 a (hready a ha).1
  remaining a ha b hb := by
    obtain ha | ha := List.mem_append.mp ha
    · exact h.remaining a ha b (hrest b hb)
    · exact (hready a ha).2 b (hrest b hb)

/-- When nothing remains the order is right. -/
theorem Layered.dependenciesFirst {done : List α} (h : Layered R done []) :
    DependenciesFirst R done := by
  rintro before a after rfl b hb hr
  obtain ⟨-, hafter, -⟩ := List.pairwise_append.mp h.later
  obtain hb | hb := List.mem_append.mp hb
  · exact hb
  obtain rfl | hb := List.mem_cons.mp hb
  · exact absurd hr (h.self b (by simp))
  · exact absurd hr ((List.pairwise_cons.mp hafter).1 b hb)

end Lib
