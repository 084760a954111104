import Mathlib.Data.List.Basic

/-!
# The first occurrence of a list in another

`replaceFirst` puts a list in the place of the first occurrence of another.
`replaceFirst_eq_some_iff` says what the result is, and `first_eq_of_replaced` when the place that
was replaced is one that is known.
-/

namespace Lib

variable {α : Type}

/-- A list occurs in a text at an index. -/
def OccursAt (target text : List α) (i : Nat) : Prop := target <+: text.drop i

/-- Whether a list occurs at an index can be checked. -/
instance [DecidableEq α] (target text : List α) (i : Nat) : Decidable (OccursAt target text i) :=
  inferInstanceAs (Decidable (_ <+: _))

/-- What occurs at an index has a part of the text before it, of that length. -/
theorem occursAt_iff {target text : List α} {i : Nat} (hi : i ≤ text.length) :
    OccursAt target text i ↔
      ∃ before after : List α, text = before ++ target ++ after ∧ before.length = i := by
  constructor
  · rintro ⟨after, hafter⟩
    refine ⟨text.take i, after, ?_, List.length_take_of_le hi⟩
    rw [List.append_assoc, hafter, List.take_append_drop]
  · rintro ⟨before, after, rfl, rfl⟩
    rw [OccursAt, List.append_assoc, List.drop_left]
    exact List.prefix_append target after

/-- A list occurs behind what is before it. -/
theorem occursAt_middle (before target after : List α) :
    OccursAt target (before ++ target ++ after) before.length :=
  (occursAt_iff (by simp)).mpr ⟨before, after, rfl, rfl⟩

section Replace

variable [DecidableEq α] (target replacement : List α)

/-- The text with the first occurrence of a list replaced, if there is one. -/
def replaceFirst : List α → Option (List α)
  | [] => if target = [] then some replacement else none
  | c :: cs =>
    if target <+: c :: cs then some (replacement ++ (c :: cs).drop target.length)
    else (replaceFirst cs).map fun result => c :: result

/-- A list at the start of a text is replaced there. -/
theorem replaceFirst_of_isPrefix {text : List α} (h : target <+: text) :
    replaceFirst target replacement text = some (replacement ++ text.drop target.length) := by
  cases text with
  | nil =>
    obtain rfl := List.prefix_nil.mp h
    simp [replaceFirst]
  | cons c cs => rw [replaceFirst, if_pos h]

/-- Nothing is replaced just when the list occurs nowhere. -/
theorem replaceFirst_eq_none_iff : ∀ text : List α,
    replaceFirst target replacement text = none ↔ ∀ i ≤ text.length, ¬ OccursAt target text i
  | [] => by
    simp only [replaceFirst, List.length_nil, Nat.le_zero_eq, forall_eq, OccursAt, List.drop_nil,
      List.prefix_nil]
    split <;> simp [*]
  | c :: cs => by
    have ih := replaceFirst_eq_none_iff cs
    rw [replaceFirst]
    split
    · rename_i hprefix
      exact iff_of_false (by simp) fun h => h 0 (Nat.zero_le _) hprefix
    · rename_i hprefix
      rw [Option.map_eq_none_iff, ih]
      constructor
      · rintro h (_ | i) hi
        · exact hprefix
        · exact h i (Nat.le_of_succ_le_succ hi)
      · exact fun h i hi => h (i + 1) (Nat.succ_le_succ hi)

omit [DecidableEq α] in
/-- A text that starts with the target has nothing before its first occurrence. -/
theorem first_iff_of_prefix {text result : List α} (h : target <+: text) :
    (∃ before after : List α, text = before ++ target ++ after ∧
      (∀ i < before.length, ¬ OccursAt target text i) ∧
      result = before ++ replacement ++ after) ↔
        result = replacement ++ text.drop target.length := by
  obtain ⟨after, rfl⟩ := h
  rw [List.drop_left]
  constructor
  · rintro ⟨before, after', htext, hfirst, rfl⟩
    cases before with
    | nil =>
      rw [List.nil_append, List.append_cancel_left_eq] at htext
      rw [htext, List.nil_append]
    | cons b before =>
      exact absurd (List.prefix_append target after) (hfirst 0 (Nat.zero_lt_succ _))
  · rintro rfl
    exact ⟨[], after, rfl, fun i hi => absurd hi (Nat.not_lt_zero i), rfl⟩

/-- The result is the text with the occurrence replaced that no other is before. -/
theorem replaceFirst_eq_some_iff {text result : List α} :
    replaceFirst target replacement text = some result ↔
      ∃ before after : List α, text = before ++ target ++ after ∧
      (∀ i < before.length, ¬ OccursAt target text i) ∧
      result = before ++ replacement ++ after := by
  -- The search moves by a character until the target is a prefix of what is left.
  induction text generalizing result with
  | nil =>
    by_cases hprefix : target <+: []
    · rw [replaceFirst_of_isPrefix target replacement hprefix, Option.some_inj,
        first_iff_of_prefix target replacement hprefix, eq_comm]
    · have hne : target ≠ [] := fun h => hprefix (h ▸ List.nil_prefix)
      rw [replaceFirst, if_neg hne]
      refine iff_of_false (fun h => by cases h) ?_
      rintro ⟨before, after, htext, -, -⟩
      simp only [List.nil_eq, List.append_eq_nil_iff] at htext
      exact hne htext.1.2
  | cons c cs ih =>
    by_cases hprefix : target <+: c :: cs
    · rw [replaceFirst_of_isPrefix target replacement hprefix, Option.some_inj,
        first_iff_of_prefix target replacement hprefix, eq_comm]
    · rw [replaceFirst, if_neg hprefix, Option.map_eq_some_iff]
      simp only [ih]
      -- No prefix here: the first occurrence of the rest is the first of the text, one further on.
      constructor
      · rintro ⟨_, ⟨before, after, rfl, hfirst, rfl⟩, rfl⟩
        refine ⟨c :: before, after, rfl, ?_, rfl⟩
        rintro (_ | i) hi
        · exact hprefix
        · exact hfirst i (Nat.lt_of_succ_lt_succ hi)
      · rintro ⟨before, after, htext, hfirst, rfl⟩
        cases before with
        | nil => exact absurd ⟨after, htext.symm⟩ hprefix
        | cons b before =>
          obtain ⟨rfl, rfl⟩ := List.cons.inj htext
          exact ⟨_, ⟨before, after, rfl, fun i hi => hfirst (i + 1) (Nat.succ_lt_succ hi), rfl⟩,
            rfl⟩

end Replace

/-- The element behind a key in the middle of a text. -/
theorem getElem?_after (before key : List α) (d : α) (ds after : List α) :
    (before ++ (key ++ d :: ds) ++ after)[before.length + key.length]? = some d := by
  rw [List.append_assoc, List.getElem?_append_right (Nat.le_add_right _ _), Nat.add_sub_cancel_left,
    List.append_assoc, List.getElem?_append_right (Nat.le_refl _), Nat.sub_self]
  rfl

/-- Texts that agree up to the end of a key have the same members there. -/
theorem getElem?_before (before key : List α) {i : Nat} (h : i < before.length + key.length)
    (rest rest' after after' : List α) :
    (before ++ (key ++ rest) ++ after)[i]? = (before ++ (key ++ rest') ++ after')[i]? := by
  have hi : i < (before ++ key).length := by
    rw [List.length_append]
    exact h
  simp only [← List.append_assoc before key]
  rw [List.append_assoc, List.append_assoc (before ++ key), List.getElem?_append_left hi,
    List.getElem?_append_left hi]

/-- Where a name after a key was replaced by something that starts differently, and the result is
what replacing an item after the key makes of the text, the name is that item, at its place. The
item is no shorter than the name. -/
theorem first_eq_of_replaced {key name item replacement before after a c : List α}
    (htext : a ++ (key ++ name) ++ c = before ++ (key ++ item) ++ after)
    (hresult : a ++ (key ++ replacement) ++ c = before ++ (key ++ replacement) ++ after)
    (hfirst : ∀ i < a.length, ¬ OccursAt (key ++ name) (a ++ (key ++ name) ++ c) i)
    (hitem : item.length ≤ name.length → name = item)
    (hhead : name = item → ∃ d ds e es, name = d :: ds ∧ replacement = e :: es ∧ d ≠ e) :
    a = before ∧ name = item ∧ c = after := by
  have hlength := congrArg List.length htext
  have hlength' := congrArg List.length hresult
  simp only [List.length_append] at hlength hlength'
  have hname : name = item := hitem (by omega)
  have hplace : a.length = before.length := by
    obtain hlt | heq | hgt := Nat.lt_trichotomy a.length before.length
    · -- The place is before the known one, where the text is kept up to the item.
      obtain ⟨d, ds, e, es, hd, he, hne⟩ := hhead hname
      have hfound : (before ++ (key ++ item) ++ after)[a.length + key.length]? = some d := by
        rw [← htext, hd]
        exact getElem?_after a key d ds c
      have hreplaced : (before ++ (key ++ replacement) ++ after)[a.length + key.length]? =
          some e := by
        rw [← hresult, he]
        exact getElem?_after a key e es c
      rw [getElem?_before before key (by omega) replacement item after after, hfound] at hreplaced
      exact absurd (Option.some_inj.mp hreplaced) hne
    · exact heq
    · have hoccurs : OccursAt (key ++ name) (a ++ (key ++ name) ++ c) before.length := by
        rw [htext, ← hname]
        exact occursAt_middle before (key ++ name) after
      exact absurd hoccurs (hfirst _ hgt)
  rw [hname, List.append_assoc, List.append_assoc before] at htext
  obtain ⟨ha, hrest⟩ := List.append_inj htext hplace
  exact ⟨ha, hname, List.append_cancel_left hrest⟩

end Lib
