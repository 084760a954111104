import Mathlib.Data.List.Basic
import Mathlib.Order.Bounds.Basic
import Mathlib.Order.MinMax

/-!
# The edit distance

`Edits n l m` says that `n` insertions, deletions and substitutions of single elements lead from the
list `l` to `m`. `editDistance` is the recurrence on the first elements, and `isLeast_editDistance`
that it is the least such number. Edits can be made from the other end as well
(`editDistance_reverse`), and with them the recurrence on the last elements
(`editDistance_concat_concat`), which a table of prefixes is filled by.
-/

namespace Lib

variable {α : Type}

/-- One insertion, deletion or substitution of an element, at any place. -/
inductive Edit : List α → List α → Prop
  | insert (a : α) (l : List α) : Edit l (a :: l)
  | delete (a : α) (l : List α) : Edit (a :: l) l
  | substitute (a b : α) (l : List α) : Edit (a :: l) (b :: l)
  | cons (a : α) {l m : List α} (h : Edit l m) : Edit (a :: l) (a :: m)

/-- A number of edits, one after the other. -/
inductive Edits : Nat → List α → List α → Prop
  | refl (l : List α) : Edits 0 l l
  | step {n : Nat} {l m k : List α} (hedit : Edit l m) (hrest : Edits n m k) : Edits (n + 1) l k

/-- Edits behind one element more. -/
theorem Edits.cons {n : Nat} {l m : List α} (h : Edits n l m) (a : α) :
    Edits n (a :: l) (a :: m) := by
  induction h with
  | refl l => exact .refl _
  | step hedit _ ih => exact .step (.cons a hedit) ih

/-! ## From the other end -/

/-- An edit behind a list. -/
theorem Edit.append_left {l m : List α} (h : Edit l m) : ∀ k : List α, Edit (k ++ l) (k ++ m)
  | [] => h
  | a :: k => .cons a (h.append_left k)

/-- An edit before a list. -/
theorem Edit.append_right {l m : List α} (h : Edit l m) (k : List α) : Edit (l ++ k) (m ++ k) := by
  induction h with
  | insert a l => exact .insert a _
  | delete a l => exact .delete a _
  | substitute a b l => exact .substitute a b _
  | cons a _ ih => exact .cons a ih

/-- An edit of reversed lists. -/
theorem Edit.reverse {l m : List α} (h : Edit l m) : Edit l.reverse m.reverse := by
  induction h with
  | insert a l =>
    have hedit := (Edit.insert a []).append_left l.reverse
    rwa [List.append_nil, ← List.reverse_cons] at hedit
  | delete a l =>
    have hedit := (Edit.delete a []).append_left l.reverse
    rwa [List.append_nil, ← List.reverse_cons] at hedit
  | substitute a b l =>
    rw [List.reverse_cons, List.reverse_cons]
    exact (Edit.substitute a b []).append_left l.reverse
  | cons a _ ih =>
    rw [List.reverse_cons, List.reverse_cons]
    exact ih.append_right [a]

/-- Edits of reversed lists. -/
theorem Edits.reverse {n : Nat} {l m : List α} (h : Edits n l m) : Edits n l.reverse m.reverse := by
  induction h with
  | refl l => exact .refl _
  | step hedit _ ih => exact .step hedit.reverse ih

/-- Reversed lists are as far apart. -/
theorem edits_reverse_iff {n : Nat} {l m : List α} : Edits n l.reverse m.reverse ↔ Edits n l m := by
  refine ⟨fun h => ?_, Edits.reverse⟩
  have hback := h.reverse
  rwa [List.reverse_reverse, List.reverse_reverse] at hback

/-! ## The recurrence -/

variable [DecidableEq α]

/-- The distance by the first elements: one of them is deleted, the other inserted, or the one made
the other. -/
def editDistance : List α → List α → Nat
  | [], bs => bs.length
  | as, [] => as.length
  | a :: as, b :: bs =>
    min (min (editDistance as (b :: bs) + 1) (editDistance (a :: as) bs + 1))
      (editDistance as bs + if a = b then 0 else 1)
termination_by as bs => as.length + bs.length

/-- An empty list is as far from a list as this is long. -/
@[simp]
theorem editDistance_nil_left (bs : List α) : editDistance [] bs = bs.length := by rw [editDistance]

/-- An empty list is as far from a list as this is long. -/
@[simp]
theorem editDistance_nil_right (as : List α) : editDistance as [] = as.length := by
  cases as with
  | nil => rw [editDistance]
  | cons a as => rw [editDistance]; exact List.cons_ne_nil a as

/-- The distance by the first elements. -/
theorem editDistance_cons_cons (a b : α) (as bs : List α) : editDistance (a :: as) (b :: bs) =
    min (min (editDistance as (b :: bs) + 1) (editDistance (a :: as) bs + 1))
      (editDistance as bs + if a = b then 0 else 1) := by
  rw [editDistance]

/-- So many edits are enough. -/
theorem edits_editDistance : ∀ as bs : List α, Edits (editDistance as bs) as bs
  | [], [] => by
    rw [editDistance_nil_left]
    exact .refl []
  | [], b :: bs => by
    have ih := (edits_editDistance [] bs).cons b
    rw [editDistance_nil_left] at ih ⊢
    exact .step (.insert b []) ih
  | a :: as, [] => by
    have ih := edits_editDistance as []
    rw [editDistance_nil_right] at ih ⊢
    exact .step (.delete a as) ih
  | a :: as, b :: bs => by
    have hdelete := Edits.step (.delete a as) (edits_editDistance as (b :: bs))
    have hinsert := Edits.step (.insert b (a :: as)) ((edits_editDistance (a :: as) bs).cons b)
    have hsubstitute : Edits (editDistance as bs + if a = b then 0 else 1) (a :: as) (b :: bs) := by
      have ih := (edits_editDistance as bs).cons b
      split_ifs with hab
      · rw [hab]
        exact ih
      · exact .step (.substitute a b as) ih
    rw [editDistance_cons_cons]
    -- The distance is one of the three.
    obtain ⟨heq, -⟩ | ⟨heq, -⟩ := min_cases
        (min (editDistance as (b :: bs) + 1) (editDistance (a :: as) bs + 1))
        (editDistance as bs + if a = b then 0 else 1)
    · rw [heq]
      obtain ⟨heq, -⟩ | ⟨heq, -⟩ :=
        min_cases (editDistance as (b :: bs) + 1) (editDistance (a :: as) bs + 1)
      · rw [heq]
        exact hdelete
      · rw [heq]
        exact hinsert
    · rw [heq]
      exact hsubstitute
termination_by as bs => as.length + bs.length

/-! ## No fewer edits -/

/-- An element more in front of the first list is one edit. -/
theorem editDistance_cons_left_le (a : α) (as bs : List α) :
    editDistance (a :: as) bs ≤ editDistance as bs + 1 := by
  cases bs with
  | nil =>
    rw [editDistance_nil_right, editDistance_nil_right]
    exact le_rfl
  | cons b bs =>
    rw [editDistance_cons_cons]
    exact (min_le_left _ _).trans (min_le_left _ _)

/-- An element more in front of the second list is one edit. -/
theorem editDistance_cons_right_le (b : α) (as bs : List α) :
    editDistance as (b :: bs) ≤ editDistance as bs + 1 := by
  cases as with
  | nil =>
    rw [editDistance_nil_left, editDistance_nil_left]
    exact le_rfl
  | cons a as =>
    rw [editDistance_cons_cons]
    exact (min_le_left _ _).trans (min_le_right _ _)

/-- Two elements in front are one edit at most. -/
theorem editDistance_cons_cons_le (a b : α) (as bs : List α) :
    editDistance (a :: as) (b :: bs) ≤ editDistance as bs + if a = b then 0 else 1 := by
  rw [editDistance_cons_cons]
  exact min_le_right _ _

/-- A bound on the distance to a longer list is one on each of the three ways there. -/
theorem le_editDistance_cons_cons {a b : α} {as bs : List α} {n : Nat}
    (hdelete : n ≤ editDistance as (b :: bs) + 1)
    (hinsert : n ≤ editDistance (a :: as) bs + 1)
    (hsubstitute : n ≤ editDistance as bs + if a = b then 0 else 1) :
    n ≤ editDistance (a :: as) (b :: bs) := by
  rw [editDistance_cons_cons]
  exact le_min (le_min hdelete hinsert) hsubstitute

/-- An element less in front of the first list is one edit. -/
theorem editDistance_le_cons_left (a : α) (as : List α) :
    ∀ bs, editDistance as bs ≤ editDistance (a :: as) bs + 1
  | [] => by
    rw [editDistance_nil_right, editDistance_nil_right, List.length_cons]
    omega
  | b :: bs => by
    have ih := editDistance_le_cons_left a as bs
    have hmore := editDistance_cons_right_le b as bs
    refine Nat.le_add_of_sub_le (le_editDistance_cons_cons ?_ ?_ ?_) <;> omega

/-- An edit brings a list no more than one nearer to another. -/
theorem Edit.editDistance_le {as cs : List α} (h : Edit as cs) :
    ∀ bs, editDistance as bs ≤ editDistance cs bs + 1 := by
  -- An edit is at the head of the texts or behind an equal character.
  induction h with
  | insert a l => exact editDistance_le_cons_left a l
  | delete a l => exact editDistance_cons_left_le a l
  -- A substitution changes the cost of the diagonal by one at most.
  | substitute a c l =>
    intro bs
    induction bs with
    | nil =>
      rw [editDistance_nil_right, editDistance_nil_right]
      exact Nat.le_succ _
    | cons b bs ih =>
      have hdelete := editDistance_cons_left_le a l (b :: bs)
      have hinsert := editDistance_cons_right_le b (a :: l) bs
      have hsubstitute := editDistance_cons_cons_le a b l bs
      refine Nat.le_add_of_sub_le (le_editDistance_cons_cons ?_ ?_ ?_) <;> split_ifs at * <;> omega
  -- Behind an equal character the three neighbours in the table each move by one at most.
  | @cons a l m hedit ihedit =>
    intro bs
    induction bs with
    | nil =>
      have hlength := ihedit []
      rw [editDistance_nil_right, editDistance_nil_right] at hlength ⊢
      exact Nat.succ_le_succ hlength
    | cons b bs ih =>
      have hdelete := editDistance_cons_left_le a l (b :: bs)
      have hinsert := editDistance_cons_right_le b (a :: l) bs
      have hsubstitute := editDistance_cons_cons_le a b l bs
      have hafter := ihedit (b :: bs)
      have hboth := ihedit bs
      refine Nat.le_add_of_sub_le (le_editDistance_cons_cons ?_ ?_ ?_) <;> omega

/-- No edits are fewer than the distance. -/
theorem Edits.editDistance_le {n : Nat} {as bs : List α} (h : Edits n as bs) :
    editDistance as bs ≤ n := by
  induction h with
  | refl l =>
    induction l with
    | nil => rw [editDistance_nil_left]; exact le_rfl
    | cons a l ih =>
      have hsubstitute := editDistance_cons_cons_le a a l l
      rw [if_pos rfl] at hsubstitute
      exact hsubstitute.trans ih
  | step hedit _ ih => exact (hedit.editDistance_le _).trans (Nat.succ_le_succ ih)

/-- The recurrence gives the least number of edits. -/
theorem isLeast_editDistance (as bs : List α) : IsLeast {n | Edits n as bs} (editDistance as bs) :=
  ⟨edits_editDistance as bs, fun _ h => h.editDistance_le⟩

/-! ## The recurrence from the other end -/

/-- Reversed lists are as far apart. -/
theorem editDistance_reverse (as bs : List α) :
    editDistance as.reverse bs.reverse = editDistance as bs := by
  refine (isLeast_editDistance as.reverse bs.reverse).unique ?_
  simp only [edits_reverse_iff]
  exact isLeast_editDistance as bs

/-- The distance by the last elements. -/
theorem editDistance_concat_concat (a b : α) (as bs : List α) :
    editDistance (as ++ [a]) (bs ++ [b]) =
    min (min (editDistance as (bs ++ [b]) + 1) (editDistance (as ++ [a]) bs + 1))
      (editDistance as bs + if a = b then 0 else 1) := by
  rw [← editDistance_reverse, ← editDistance_reverse as, ← editDistance_reverse (as ++ [a]) bs,
    ← editDistance_reverse as bs, List.reverse_concat, List.reverse_concat]
  exact editDistance_cons_cons a b as.reverse bs.reverse

end Lib
