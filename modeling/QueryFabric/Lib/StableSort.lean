import Mathlib.Data.List.Sort
import Mathlib.Order.Defs.LinearOrder

/-!
# Stable sorting by a key

`StablySorted key l sorted` says that `sorted` is the list `l` in the order of a key, where elements
of one key stay in the order that they have in `l`. There is one such list (`StablySorted.unique`),
and `sortByKey` finds it. A window of keys that is parted at one can be sorted part by part
(`sortByKey_window_append`).
-/

namespace Lib

variable {α β : Type} [LinearOrder β] (key : α → β)

/-- The list in the order of the key. -/
def sortByKey (l : List α) : List α := l.insertionSort fun a b => key a ≤ key b

/-- The elements of one key. -/
def ofKey (k : β) (l : List α) : List α := l.filter fun a => key a = k

/-- The elements of the list in the order of the key, and those of one key in the order of the
list. -/
structure StablySorted (l sorted : List α) : Prop where
  ordered : sorted.Pairwise fun a b => key a ≤ key b
  stable : ∀ k, ofKey key k sorted = ofKey key k l

variable {key}

/-- The entries of one key, in the list. -/
theorem mem_ofKey {k : β} {l : List α} {a : α} : a ∈ ofKey key k l ↔ a ∈ l ∧ key a = k := by
  rw [ofKey, List.mem_filter, decide_eq_true_eq]

/-- An entry of the key is the first of those. -/
theorem ofKey_cons_of_eq {k : β} {a : α} (l : List α) (h : key a = k) :
    ofKey key k (a :: l) = a :: ofKey key k l :=
  List.filter_cons_of_pos (decide_eq_true h)

/-- An entry of another key is left out. -/
theorem ofKey_cons_of_ne {k : β} {a : α} (l : List α) (h : key a ≠ k) :
    ofKey key k (a :: l) = ofKey key k l :=
  List.filter_cons_of_neg (by simpa using h)

/-- The elements of one key are in order as they are, so that sorting leaves them so. -/
theorem sortByKey_stablySorted (l : List α) : StablySorted key l (sortByKey key l) := by
  have : Std.Total fun a b : α => key a ≤ key b := ⟨fun a b => le_total (key a) (key b)⟩
  have : IsTrans α fun a b : α => key a ≤ key b := ⟨fun _ _ _ => le_trans⟩
  refine ⟨List.pairwise_insertionSort _ l, fun k => ?_⟩
  have hordered : (ofKey key k l).Pairwise fun a b => key a ≤ key b :=
    List.pairwise_of_forall_mem_list fun a ha b hb =>
      le_of_eq ((mem_ofKey.mp ha).2.trans (mem_ofKey.mp hb).2.symm)
  have hsub := (List.sublist_insertionSort hordered List.filter_sublist).filter fun a => key a = k
  have hself : (ofKey key k l).filter (fun a => key a = k) = ofKey key k l :=
    List.filter_eq_self.mpr fun a ha => decide_eq_true (mem_ofKey.mp ha).2
  rw [hself] at hsub
  have hperm := (List.perm_insertionSort (fun a b : α => key a ≤ key b) l).filter fun a => key a = k
  exact (hsub.eq_of_length hperm.length_eq.symm).symm

/-- Lists in the order of the key that have the same elements of each key, in the same order, are
the same. -/
theorem eq_of_ordered_of_ofKey_eq : ∀ {s t : List α}, s.Pairwise (fun a b => key a ≤ key b) →
    t.Pairwise (fun a b => key a ≤ key b) → (∀ k, ofKey key k s = ofKey key k t) → s = t
  | [], [], _, _, _ => rfl
  | [], b :: t, _, _, h => by
    have hb := h (key b)
    rw [ofKey_cons_of_eq t rfl] at hb
    cases hb
  | a :: s, [], _, _, h => by
    have ha := h (key a)
    rw [ofKey_cons_of_eq s rfl] at ha
    cases ha
  | a :: s, b :: t, hs, ht, h => by
    -- The least key of one list is one of the other.
    have hle : ∀ {c d : α} {u v : List α}, (d :: v).Pairwise (fun a b => key a ≤ key b) →
        (∀ k, ofKey key k (c :: u) = ofKey key k (d :: v)) → key d ≤ key c := by
      intro c d u v hv h
      have hmem : c ∈ ofKey key (key c) (d :: v) := by
        rw [← h]
        exact mem_ofKey.mpr ⟨List.mem_cons_self, rfl⟩
      obtain rfl | hc := List.mem_cons.mp (mem_ofKey.mp hmem).1
      · exact le_rfl
      · exact (List.pairwise_cons.mp hv).1 c hc
    have hkey : key a = key b := le_antisymm (hle hs fun k => (h k).symm) (hle ht h)
    have hhead := h (key a)
    rw [ofKey_cons_of_eq s rfl, ofKey_cons_of_eq t hkey.symm] at hhead
    obtain ⟨rfl, -⟩ := List.cons.inj hhead
    refine congrArg (a :: ·) (eq_of_ordered_of_ofKey_eq hs.of_cons ht.of_cons fun k => ?_)
    have hk := h k
    by_cases ha : key a = k
    · rw [ofKey_cons_of_eq s ha, ofKey_cons_of_eq t ha] at hk
      exact (List.cons.inj hk).2
    · rwa [ofKey_cons_of_ne s ha, ofKey_cons_of_ne t ha] at hk

/-- A list has one stably sorted order. -/
theorem StablySorted.unique {l s t : List α} (hs : StablySorted key l s)
    (ht : StablySorted key l t) : s = t :=
  eq_of_ordered_of_ofKey_eq hs.ordered ht.ordered fun k => (hs.stable k).trans (ht.stable k).symm

/-- No element is lost or repeated. -/
theorem StablySorted.perm {l sorted : List α} (h : StablySorted key l sorted) : sorted.Perm l := by
  rw [h.unique (sortByKey_stablySorted l)]
  exact List.perm_insertionSort _ l

/-! ## Windows -/

/-- The elements that a test holds of and whose key is from the one on and before the other. -/
def window (key : α → β) (p : α → Bool) (a c : β) (l : List α) : List α :=
  l.filter fun x => p x && (decide (a ≤ key x) && decide (key x < c))

/-- The entries of a window, in the list. -/
theorem mem_window {p : α → Bool} {a c : β} {l : List α} {x : α} :
    x ∈ window key p a c l ↔ x ∈ l ∧ p x = true ∧ a ≤ key x ∧ key x < c := by
  rw [window, List.mem_filter, Bool.and_eq_true, Bool.and_eq_true, decide_eq_true_eq,
    decide_eq_true_eq]

/-- The elements of a key in the window are those that the test holds of, or none. -/
theorem ofKey_window (p : α → Bool) (a c k : β) (l : List α) :
    ofKey key k (window key p a c l) = if a ≤ k ∧ k < c then ofKey key k (l.filter p) else [] := by
  rw [ofKey, window, ofKey, List.filter_filter, List.filter_filter]
  split_ifs with hk
  · refine List.filter_congr fun x _ => ?_
    by_cases hx : key x = k
    · simp [hx, hk]
    · simp [hx]
  · rw [List.filter_eq_nil_iff]
    intro x _ hx
    simp only [Bool.and_eq_true, decide_eq_true_eq] at hx
    obtain ⟨rfl, -, hwindow⟩ := hx
    exact hk hwindow

/-- A window that is parted at a key can be sorted part by part. -/
theorem sortByKey_window_append {p : α → Bool} {a b c : β} (hab : a ≤ b) (hbc : b ≤ c)
    (l : List α) :
    sortByKey key (window key p a c l) = sortByKey key (window key p a b l) ++
      sortByKey key (window key p b c l) := by
  have hfirst : StablySorted key (window key p a b l) _ := sortByKey_stablySorted _
  have hsecond : StablySorted key (window key p b c l) _ := sortByKey_stablySorted _
  refine (sortByKey_stablySorted _).unique ⟨?_, fun k => ?_⟩
  · refine List.pairwise_append.mpr ⟨hfirst.ordered, hsecond.ordered, fun x hx y hy => ?_⟩
    obtain ⟨-, -, -, hxb⟩ := mem_window.mp (hfirst.perm.mem_iff.mp hx)
    obtain ⟨-, -, hby, -⟩ := mem_window.mp (hsecond.perm.mem_iff.mp hy)
    exact le_of_lt (lt_of_lt_of_le hxb hby)
  · have happend : ∀ s t : List α, ofKey key k (s ++ t) = ofKey key k s ++ ofKey key k t :=
      List.filter_append
    rw [happend, hfirst.stable, hsecond.stable, ofKey_window, ofKey_window, ofKey_window]
    -- A key is on one side of the boundary.
    by_cases hkb : k < b
    · rw [if_neg fun h : b ≤ k ∧ k < c => absurd hkb (not_lt_of_ge h.1), List.append_nil]
      exact if_congr (and_congr_right fun _ => iff_of_true hkb (lt_of_lt_of_le hkb hbc)) rfl rfl
    · have hbk : b ≤ k := le_of_not_gt hkb
      rw [if_neg fun h : a ≤ k ∧ k < b => hkb h.2, List.nil_append]
      exact if_congr (and_congr_left fun _ => iff_of_true hbk (le_trans hab hbk)) rfl rfl

end Lib
