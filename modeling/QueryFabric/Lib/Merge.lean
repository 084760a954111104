import Mathlib.Order.BoundedOrder.Basic
import Mathlib.Data.List.Perm.Basic
import Mathlib.Data.List.Pairwise
import Mathlib.Algebra.Group.Nat.Even

/-!
# Merging values whose conflicts are forgotten

Two values of a partial order are merged to the greater one when they are comparable, and to `⊥`
when they are not. Since `⊥` is below everything, a conflict is forgotten by the next merge, and
what a list is merged to may depend on its order. Where the values below a value form a chain,
`mergeAll_perm_iff` says when it does not: the values are a chain, or no two of them are comparable
and their number is even. Without the `⊥` of conflicts the merge of two values is a partial join
(`isPartialJoin_join?`).
-/

namespace Lib

variable {α : Type} [PartialOrder α] [OrderBot α] {a b c s : α} {l l' : List α}

open Classical in
/-- The greater of two comparable values, and `⊥` for others. -/
noncomputable def merge (a b : α) : α := if a ≤ b then b else if b ≤ a then a else ⊥

/-- The values of a list are merged one after the other. -/
noncomputable def mergeAll (l : List α) : α := l.foldl merge ⊥

/-- Any two values of a list are comparable. -/
def Chain (l : List α) : Prop := l.Pairwise fun a b => a ≤ b ∨ b ≤ a

/-- No two values of a list are comparable. -/
def Antichain (l : List α) : Prop := l.Pairwise fun a b => ¬ (a ≤ b ∨ b ≤ a)

/-- The greater of two is their merge. -/
theorem merge_of_le (h : a ≤ b) : merge a b = b := if_pos h

/-- The greater of two is their merge. -/
theorem merge_of_ge (h : b ≤ a) : merge a b = a := by
  unfold merge
  split
  · rename_i hab
    exact le_antisymm h hab
  · rfl

/-- What cannot be compared merges to the least. -/
theorem merge_of_not (h : ¬ (a ≤ b ∨ b ≤ a)) : merge a b = ⊥ := by
  rw [merge, if_neg fun hab => h (.inl hab), if_neg fun hba => h (.inr hba)]

/-- The least is merged away. -/
theorem bot_merge : merge ⊥ a = a := merge_of_le bot_le

/-- The least is merged away. -/
theorem merge_bot : merge a ⊥ = a := merge_of_ge bot_le

/-- `⊥` leaves no trace in what it is merged into. -/
theorem foldl_merge_filter {p : α → Bool} :
    ∀ {l : List α}, (∀ a ∈ l, p a = false → a = ⊥) → ∀ s : α,
    (l.filter p).foldl merge s = l.foldl merge s
  | [], _, _ => rfl
  | a :: l, h, s => by
    obtain ⟨ha, hl⟩ := List.forall_mem_cons.mp h
    cases hp : p a with
    | true =>
      rw [List.filter_cons_of_pos hp, List.foldl_cons, foldl_merge_filter hl, List.foldl_cons]
    | false =>
      have hneg : ¬ p a = true := by rw [hp]; exact Bool.false_ne_true
      rw [List.filter_cons_of_neg hneg, foldl_merge_filter hl, List.foldl_cons, ha hp, merge_bot]

/-- What is the least may be left out. -/
theorem mergeAll_filter {p : α → Bool} (h : ∀ a ∈ l, p a = false → a = ⊥) :
    mergeAll (l.filter p) = mergeAll l :=
  foldl_merge_filter h ⊥

/-- Two values that are not comparable leave no trace. -/
theorem mergeAll_cons_cons (h : ¬ (a ≤ b ∨ b ≤ a)) : mergeAll (a :: b :: l) = mergeAll l := by
  rw [mergeAll, List.foldl_cons, List.foldl_cons, bot_merge, merge_of_not h, mergeAll]

/-- Two more are merged last. -/
theorem mergeAll_concat₂ : mergeAll (l ++ [a, b]) = merge (merge (mergeAll l) a) b := by
  rw [mergeAll, List.foldl_append]
  rfl

/-! ## Chains and antichains -/

/-- A chain above a value is merged to its greatest member. -/
theorem foldl_merge_chain : ∀ {l : List α} {s : α}, Chain l → (∀ a ∈ l, s ≤ a ∨ a ≤ s) →
    (l.foldl merge s = s ∨ l.foldl merge s ∈ l) ∧ s ≤ l.foldl merge s ∧ ∀ a ∈ l, a ≤ l.foldl merge s
  | [], s, _, _ => ⟨.inl rfl, le_rfl, List.forall_mem_nil _⟩
  | a :: l, s, hl, hs => by
    obtain ⟨hhead, htail⟩ := List.pairwise_cons.mp hl
    obtain ⟨hsa, hrest⟩ := List.forall_mem_cons.mp hs
    rw [List.foldl_cons]
    obtain hle | hge := hsa
    · rw [merge_of_le hle]
      obtain ⟨hmem, habove, hall⟩ := foldl_merge_chain htail hhead
      refine ⟨.inr ?_, hle.trans habove, List.forall_mem_cons.mpr ⟨habove, hall⟩⟩
      obtain heq | hmem := hmem
      · rw [heq]
        exact List.mem_cons_self
      · exact List.mem_cons_of_mem _ hmem
    · rw [merge_of_ge hge]
      obtain ⟨hmem, habove, hall⟩ := foldl_merge_chain htail hrest
      exact ⟨hmem.imp_right (List.mem_cons_of_mem _), habove,
        List.forall_mem_cons.mpr ⟨hge.trans habove, hall⟩⟩

/-- A chain merges to one of its members, which is the greatest. -/
theorem mergeAll_chain (h : Chain l) :
    (mergeAll l = ⊥ ∨ mergeAll l ∈ l) ∧ ∀ a ∈ l, a ≤ mergeAll l := by
  obtain ⟨hmem, -, hall⟩ := foldl_merge_chain h fun a _ => .inl (bot_le (a := a))
  exact ⟨hmem, hall⟩

omit [OrderBot α] in
/-- A chain is one in any order. -/
theorem Chain.perm (h : Chain l) (hp : l'.Perm l) : Chain l' :=
  (hp.pairwise_iff fun hab => hab.symm).mpr h

omit [OrderBot α] in
/-- An antichain is one in any order. -/
theorem Antichain.perm (h : Antichain l) (hp : l'.Perm l) : Antichain l' :=
  (hp.pairwise_iff fun hab hba => hab hba.symm).mpr h

/-- A chain is merged to the same value in every order. -/
theorem mergeAll_chain_perm (h : Chain l) (hp : l'.Perm l) : mergeAll l' = mergeAll l := by
  have hle : ∀ {l₁ l₂ : List α}, Chain l₁ → Chain l₂ → l₁.Perm l₂ → mergeAll l₁ ≤ mergeAll l₂ := by
    intro l₁ l₂ h₁ h₂ hp
    obtain hbot | hmem := (mergeAll_chain h₁).1
    · rw [hbot]
      exact bot_le
    · exact (mergeAll_chain h₂).2 _ (hp.mem_iff.mp hmem)
  exact le_antisymm (hle (h.perm hp) h hp) (hle h (h.perm hp) hp.symm)

/-- An antichain of even length is merged to `⊥`, and one of odd length to a member. -/
theorem mergeAll_antichain : ∀ {l : List α}, Antichain l →
    (Even l.length → mergeAll l = ⊥) ∧ (¬ Even l.length → mergeAll l ∈ l)
  | [], _ => ⟨fun _ => rfl, fun h => absurd Even.zero h⟩
  | [a], _ => by
    refine ⟨fun h => absurd h (by simp), fun _ => ?_⟩
    have ha : mergeAll [a] = a := bot_merge
    rw [ha]
    exact List.mem_singleton_self a
  | a :: b :: l, h => by
    obtain ⟨hhead, htail⟩ := List.pairwise_cons.mp h
    obtain ⟨heven, hodd⟩ := mergeAll_antichain (List.pairwise_cons.mp htail).2
    rw [mergeAll_cons_cons (hhead b List.mem_cons_self), List.length_cons, List.length_cons,
      Nat.even_add_one, Nat.even_add_one, not_not]
    exact ⟨heven, fun h => List.mem_cons_of_mem _ (List.mem_cons_of_mem _ (hodd h))⟩

/-! ## Orders of a list -/

/-- An order of what a list is mapped to comes from an order of the list. -/
theorem exists_perm_filterMap {β γ : Type} {f : β → Option γ} : ∀ {l' : List γ} {l : List β},
    l'.Perm (l.filterMap f) → ∃ l'' : List β, l''.Perm l ∧ l''.filterMap f = l'
  | [], l, h => ⟨l, List.Perm.refl l, h.symm.eq_nil⟩
  | b :: l', l, h => by
    obtain ⟨a, ha, hfa⟩ := List.mem_filterMap.mp (h.mem_iff.mp List.mem_cons_self)
    obtain ⟨before, after, rfl⟩ := List.append_of_mem ha
    have hmiddle :
        ((before ++ a :: after).filterMap f).Perm (b :: (before ++ after).filterMap f) := by
      rw [List.filterMap_append, List.filterMap_cons_some hfa, List.filterMap_append]
      exact List.perm_middle
    obtain ⟨rest, hrest, hmapped⟩ := exists_perm_filterMap (h.trans hmiddle).cons_inv
    refine ⟨a :: rest, (hrest.cons a).trans List.perm_middle.symm, ?_⟩
    rw [List.filterMap_cons_some hfa, hmapped]

/-- A list in another order, before it was filtered. -/
theorem exists_perm_filter {β : Type} {p : β → Bool} {l l' : List β} (h : l'.Perm (l.filter p)) :
    ∃ l'' : List β, l''.Perm l ∧ l''.filter p = l' := by
  rw [← List.filterMap_eq_filter] at h ⊢
  exact exists_perm_filterMap h

omit [OrderBot α] in
/-- Two values of a list that is not a chain can be put first. -/
theorem exists_perm_of_not_chain : ∀ {l : List α}, ¬ Chain l →
    ∃ a b r, l.Perm (a :: b :: r) ∧ ¬ (a ≤ b ∨ b ≤ a)
  | [], h => absurd List.Pairwise.nil h
  | x :: l, h => by
    by_cases hl : Chain l
    · have hx : ¬ ∀ y ∈ l, x ≤ y ∨ y ≤ x := fun hx => h (List.pairwise_cons.mpr ⟨hx, hl⟩)
      push Not at hx
      obtain ⟨y, hy, hxy⟩ := hx
      obtain ⟨before, after, rfl⟩ := List.append_of_mem hy
      exact ⟨x, y, before ++ after, List.perm_middle.cons x, not_or.mpr hxy⟩
    · obtain ⟨a, b, r, hp, hab⟩ := exists_perm_of_not_chain hl
      have hmiddle : (a :: b :: x :: r).Perm (x :: a :: b :: r) := @List.perm_middle _ x [a, b] r
      exact ⟨a, b, x :: r, (hp.cons x).trans hmiddle.symm, hab⟩

section Forest

variable (hforest : ∀ {a b c : α}, a ≤ c → b ≤ c → a ≤ b ∨ b ≤ a)

include hforest

/-- Two values that are not comparable change what they are merged into, in one order or the
other. -/
theorem merge_merge_ne (hs : s ≠ ⊥) (hab : ¬ (a ≤ b ∨ b ≤ a)) :
    merge (merge s a) b ≠ s ∨ merge (merge s b) a ≠ s := by
  by_cases hsa : s ≤ a ∨ a ≤ s
  · -- The greater of the two is above `a`, and `b` makes it greater still or loses it.
    left
    intro heq
    have hmerge : a ≤ merge s a := by
      obtain hle | hge := hsa
      · rw [merge_of_le hle]
      · rwa [merge_of_ge hge]
    by_cases hmb : merge s a ≤ b ∨ b ≤ merge s a
    · obtain hle | hge := hmb
      · exact hab (.inl (hmerge.trans hle))
      · exact hab (hforest hmerge hge)
    · rw [merge_of_not hmb] at heq
      exact hs heq.symm
  · -- The value is lost, and found again only when it is `b`, which then comes too early in the
    -- other order.
    by_cases hbs : b = s
    · right
      have hself : merge s s = s := merge_of_le le_rfl
      rw [hbs, hself, merge_of_not hsa]
      exact hs.symm
    · left
      rw [merge_of_not hsa, bot_merge]
      exact hbs

/-- A value that is comparable to one of two that are not is lost with them. -/
theorem merge_merge_eq_bot (hac : a ≤ c ∨ c ≤ a) (hab : ¬ (a ≤ b ∨ b ≤ a)) :
    merge (merge a c) b = ⊥ := by
  have ha : a ≤ merge a c := by
    obtain hle | hge := hac
    · rwa [merge_of_le hle]
    · rw [merge_of_ge hge]
  refine merge_of_not fun h => hab ?_
  obtain hle | hge := h
  · exact .inl (ha.trans hle)
  · exact hforest ha hge

/-- A list that is merged to the same value in every order is a chain, or an antichain of even
length. -/
theorem chain_or_antichain (l : List α) (hl : ∀ a ∈ l, a ≠ ⊥)
    (h : ∀ l' : List α, l'.Perm l → mergeAll l' = mergeAll l) : Chain l ∨
      (Even l.length ∧ Antichain l) := by
  by_cases hchain : Chain l
  · exact .inl hchain
  obtain ⟨a, b, r, hp, hab⟩ := exists_perm_of_not_chain hchain
  have hfirst : ∀ r' : List α, r'.Perm r → mergeAll r' = mergeAll l := by
    intro r' hr
    rw [← h (a :: b :: r') (((hr.cons b).cons a).trans hp.symm), mergeAll_cons_cons hab]
  have hr : ∀ c ∈ r, c ≠ ⊥ := fun c hc =>
    hl c (hp.mem_iff.mpr (List.mem_cons_of_mem _ (List.mem_cons_of_mem _ hc)))
  have hlength : l.length = r.length + 2 := hp.length_eq
  right
  obtain hrest | ⟨heven, hrest⟩ := chain_or_antichain r hr fun r' hr' =>
      (hfirst r' hr').trans (hfirst r (List.Perm.refl r)).symm
  · by_cases hnil : r = []
    · subst hnil
      exact ⟨by rw [hlength]; exact (show Even 2 by decide),
        Antichain.perm (by simpa [Antichain] using hab) hp⟩
    · -- The rest is merged to a member, which the two values cannot both leave as it is.
      exfalso
      have hne : mergeAll r ≠ ⊥ := by
        obtain ⟨c, hc⟩ := List.exists_mem_of_ne_nil r hnil
        intro hbot
        have hle := (mergeAll_chain hrest).2 c hc
        rw [hbot] at hle
        exact hr c hc (le_bot_iff.mp hle)
      have hlast : ∀ {x y}, [x, y].Perm [a, b] → merge (merge (mergeAll r) x) y = mergeAll r := by
        intro x y hxy
        rw [← mergeAll_concat₂, hfirst r (List.Perm.refl r)]
        exact h _ ((hxy.append_left r).trans (List.perm_append_comm.trans hp.symm))
      obtain hne' | hne' := merge_merge_ne hforest hne hab
      · exact hne' (hlast (List.Perm.refl _))
      · exact hne' (hlast (List.Perm.swap a b []))
  · -- A third value that is comparable to one of the two is lost with them, which leaves an odd
    -- number of values.
    have hbot : mergeAll l = ⊥ := by
      rw [← hfirst r (List.Perm.refl r)]
      exact (mergeAll_antichain hrest).1 heven
    have hapart : ∀ {x y}, l.Perm (x :: y :: r) → ¬ (x ≤ y ∨ y ≤ x) → ∀ c ∈ r,
        ¬ (x ≤ c ∨ c ≤ x) := by
      intro x y hp hxy c hc hxc
      obtain ⟨before, after, rfl⟩ := List.append_of_mem hc
      have hwithout : Antichain (before ++ after) :=
        (List.pairwise_cons.mp (hrest.perm List.perm_middle.symm)).2
      have hodd : ¬ Even (before ++ after).length := by
        rw [List.length_append, List.length_cons, ← Nat.add_assoc, ← List.length_append,
          Nat.even_add_one] at heven
        exact heven
      have horder : (x :: c :: y :: (before ++ after)).Perm l :=
        (((List.Perm.swap y c _).trans (List.perm_middle.symm.cons y)).cons x).trans hp.symm
      have hmerged : mergeAll (x :: c :: y :: (before ++ after)) = mergeAll (before ++ after) := by
        rw [mergeAll, List.foldl_cons, List.foldl_cons, List.foldl_cons, bot_merge,
          merge_merge_eq_bot hforest hxc hxy, mergeAll]
      have hmem := (mergeAll_antichain hwithout).2 hodd
      rw [← hmerged, h _ horder, hbot] at hmem
      have hsub : ⊥ ∈ before ++ c :: after := by
        obtain hmem | hmem := List.mem_append.mp hmem
        · exact List.mem_append_left _ hmem
        · exact List.mem_append_right _ (List.mem_cons_of_mem _ hmem)
      exact hr ⊥ hsub rfl
    have hba : ¬ (b ≤ a ∨ a ≤ b) := fun h => hab h.symm
    refine ⟨by rw [hlength]; exact heven.add (by decide), Antichain.perm ?_ hp⟩
    refine List.pairwise_cons.mpr ⟨List.forall_mem_cons.mpr ⟨hab, hapart hp hab⟩, ?_⟩
    exact List.pairwise_cons.mpr ⟨hapart (hp.trans (List.Perm.swap b a r)) hba, hrest⟩
termination_by l.length
decreasing_by
  have hlength := hp.length_eq
  simp only [List.length_cons] at hlength
  omega

/-- What values are merged to does not depend on their order exactly when they are a chain, or an
antichain of even length. -/
theorem mergeAll_perm_iff (l : List α) (hl : ∀ a ∈ l, a ≠ ⊥) :
    (∀ l' : List α, l'.Perm l → mergeAll l' = mergeAll l) ↔ Chain l ∨
      (Even l.length ∧ Antichain l) := by
  refine ⟨chain_or_antichain hforest l hl, ?_⟩
  rintro (hchain | ⟨heven, hanti⟩) l' hp
  · exact mergeAll_chain_perm hchain hp
  · have heven' : Even l'.length := by rwa [hp.length_eq]
    rw [(mergeAll_antichain hanti).1 heven, (mergeAll_antichain (hanti.perm hp)).1 heven']

/-- Where the order does not matter, two values that are not comparable are a conflict that is not
forgotten. -/
theorem mergeAll_eq_bot_of_conflict (h : Chain l ∨ (Even l.length ∧ Antichain l)) (ha : a ∈ l)
    (hb : b ∈ l) (hab : ¬ (a ≤ b ∨ b ≤ a)) : mergeAll l = ⊥ := by
  obtain hchain | ⟨heven, hanti⟩ := h
  · have hgreatest := (mergeAll_chain hchain).2
    exact absurd (hforest (hgreatest a ha) (hgreatest b hb)) hab
  · exact (mergeAll_antichain hanti).1 heven

end Forest

/-! ## Partial joins -/

/-- The laws of a join that need not be defined: those of a join where it is, and it is defined for
the one side of a law when it is for the other. In the order of a join, a value is below another
when their join is the other. -/
structure IsPartialJoin (join : α → α → Option α) (identity : α) : Prop where
  idem : ∀ a, join a a = some a
  comm : ∀ a b, join a b = join b a
  assoc : ∀ a b c, (join a b).bind (fun ab => join ab c) = (join b c).bind (fun bc => join a bc)
  identity_join : ∀ a, join identity a = some a
  upper : ∀ a b c, join a b = some c → join a c = some c ∧ join b c = some c
  least : ∀ a b c, join a b = some c → ∀ d, join a d = some d → join b d = some d →
    join c d = some d

section PartialJoins

omit [OrderBot α]

open Classical in
/-- The greater of two comparable values, and none for others. -/
noncomputable def join? (a b : α) : Option α := if a ≤ b then some b else if b ≤ a then
    some a else none

/-- The greater of two is their join. -/
theorem join?_of_le (h : a ≤ b) : join? a b = some b := if_pos h

/-- Joins are symmetric. -/
theorem join?_comm (a b : α) : join? a b = join? b a := by
  unfold join?
  by_cases hab : a ≤ b
  · by_cases hba : b ≤ a
    · rw [if_pos hab, if_pos hba, le_antisymm hab hba]
    · rw [if_pos hab, if_neg hba, if_pos hab]
  · rw [if_neg hab]
    split
    · rfl
    · rfl

/-- The greater of two is their join. -/
theorem join?_of_ge (h : b ≤ a) : join? a b = some a := by
  rw [join?_comm]
  exact join?_of_le h

/-- What cannot be compared has no join. -/
theorem join?_of_not (h : ¬ (a ≤ b ∨ b ≤ a)) : join? a b = none := by
  rw [join?, if_neg fun hab => h (.inl hab), if_neg fun hba => h (.inr hba)]

/-- A join is the greater of two. -/
theorem join?_eq_some_iff : join? a b = some c ↔ (a ≤ b ∧ c = b) ∨ (b ≤ a ∧ c = a) := by
  constructor
  · intro h
    by_cases hab : a ≤ b
    · rw [join?_of_le hab] at h
      exact .inl ⟨hab, (Option.some.inj h).symm⟩
    · by_cases hba : b ≤ a
      · rw [join?_of_ge hba] at h
        exact .inr ⟨hba, (Option.some.inj h).symm⟩
      · rw [join?_of_not (not_or.mpr ⟨hab, hba⟩)] at h
        cases h
  · rintro (⟨hab, rfl⟩ | ⟨hba, rfl⟩)
    · exact join?_of_le hab
    · exact join?_of_ge hba

/-- The order of the join is the given one. -/
theorem join?_eq_right_iff : join? a b = some b ↔ a ≤ b := by
  rw [join?_eq_some_iff]
  constructor
  · rintro (⟨hab, -⟩ | ⟨-, rfl⟩)
    · exact hab
    · exact le_rfl
  · exact fun hab => .inl ⟨hab, rfl⟩

/-- Where the values below a value are a chain, three values have a join when they are a chain. -/
theorem join?_bind_eq_some (hforest : ∀ {a b c : α}, a ≤ c → b ≤ c → a ≤ b ∨ b ≤ a) {d : α} :
    (join? a b).bind (fun ab => join? ab c) = some d →
      (join? b c).bind (fun bc => join? a bc) = some d := by
  intro h
  obtain ⟨ab, hab, hd⟩ := Option.bind_eq_some_iff.mp h
  refine Option.bind_eq_some_iff.mpr ?_
  obtain ⟨hle, rfl⟩ | ⟨hge, rfl⟩ := join?_eq_some_iff.mp hab
  · -- The second value is the greater one of the first two.
    obtain ⟨hbc, rfl⟩ | ⟨hcb, rfl⟩ := join?_eq_some_iff.mp hd
    · exact ⟨_, join?_of_le hbc, join?_of_le (hle.trans hbc)⟩
    · exact ⟨_, join?_of_ge hcb, join?_of_le hle⟩
  · obtain ⟨hac, rfl⟩ | ⟨hca, rfl⟩ := join?_eq_some_iff.mp hd
    · exact ⟨_, join?_of_le (hge.trans hac), join?_of_le hac⟩
    · -- The last two values are below the first one.
      obtain hbc | hcb := hforest hge hca
      · exact ⟨_, join?_of_le hbc, join?_of_ge hca⟩
      · exact ⟨_, join?_of_ge hcb, join?_of_ge hge⟩

end PartialJoins

/-- The join of comparable values has the laws where the values below a value are a chain. -/
theorem isPartialJoin_join? (hforest : ∀ {a b c : α}, a ≤ c → b ≤ c → a ≤ b ∨ b ≤ a) :
    IsPartialJoin (join? (α := α)) ⊥ where
  idem _ := join?_of_le le_rfl
  comm := join?_comm
  assoc a b c := by
    refine Option.ext fun d => ⟨join?_bind_eq_some hforest, fun h => ?_⟩
    -- The other direction is the same one for the values in reverse.
    have hreverse : (join? c b).bind (fun cb => join? cb a) = some d := by
      simpa only [join?_comm c b, join?_comm _ a] using h
    have hresult := join?_bind_eq_some hforest hreverse
    simpa only [join?_comm b a, join?_comm c _] using hresult
  identity_join _ := join?_of_le bot_le
  upper a b c h := by
    rw [join?_eq_right_iff, join?_eq_right_iff]
    obtain ⟨hab, rfl⟩ | ⟨hba, rfl⟩ := join?_eq_some_iff.mp h
    · exact ⟨hab, le_rfl⟩
    · exact ⟨le_rfl, hba⟩
  least a b c h d had hbd := by
    obtain ⟨-, rfl⟩ | ⟨-, rfl⟩ := join?_eq_some_iff.mp h
    · exact hbd
    · exact had

end Lib
