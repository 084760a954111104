import Mathlib.Algebra.Ring.Nat
import Mathlib.Data.List.Basic
import Mathlib.Order.Lattice

/-!
# Fixed-width arithmetic

Saturating operations on machine words as the natural numbers that they compute, and sums of words.
A sum of words wraps around; it is the sum of their values exactly when that fits into a word
(`toNat_wordSum_eq_iff`).
-/

namespace Lib

/-! ## Words of 64 bits -/

/-- `u64::saturating_add`. -/
def saturatingAdd64 (a b : UInt64) : UInt64 := UInt64.ofNat (min (a.toNat + b.toNat) (2 ^ 64 - 1))

/-- `u64::saturating_mul`. -/
def saturatingMul64 (a b : UInt64) : UInt64 := UInt64.ofNat (min (a.toNat * b.toNat) (2 ^ 64 - 1))

/-- The sum of an iterator of words, which wraps around. -/
def wordSum (words : List UInt64) : UInt64 := words.foldl (· + ·) 0

/-- The sum of the values of words. -/
def valueSum (words : List UInt64) : Nat := (words.map UInt64.toNat).sum

/-- A saturating sum by its value. -/
@[simp]
theorem toNat_saturatingAdd64 (a b : UInt64) :
    (saturatingAdd64 a b).toNat = min (a.toNat + b.toNat) (2 ^ 64 - 1) := by
  unfold saturatingAdd64
  exact UInt64.toNat_ofNat_of_lt' (by rw [UInt64.size]; omega)

/-- A saturating product by its value. -/
@[simp]
theorem toNat_saturatingMul64 (a b : UInt64) :
    (saturatingMul64 a b).toNat = min (a.toNat * b.toNat) (2 ^ 64 - 1) := by
  unfold saturatingMul64
  exact UInt64.toNat_ofNat_of_lt' (by rw [UInt64.size]; omega)

/-- The greater of two words by its value. -/
@[simp]
theorem toNat_max64 (a b : UInt64) : (max a b).toNat = max a.toNat b.toNat := by
  show (if a ≤ b then b else a).toNat = max a.toNat b.toNat
  split_ifs with h
  · rw [max_eq_right (UInt64.le_iff_toNat_le.mp h)]
  · rw [UInt64.le_iff_toNat_le] at h
    rw [max_eq_left (Nat.le_of_not_le h)]

/-- The lesser of two words by its value. -/
@[simp]
theorem toNat_min64 (a b : UInt64) : (min a b).toNat = min a.toNat b.toNat := by
  show (if a ≤ b then a else b).toNat = min a.toNat b.toNat
  split_ifs with h
  · rw [min_eq_left (UInt64.le_iff_toNat_le.mp h)]
  · rw [UInt64.le_iff_toNat_le] at h
    rw [min_eq_right (Nat.le_of_not_le h)]

/-- A sum of words wraps around. -/
theorem toNat_foldl_add (words : List UInt64) (start : UInt64) :
    (words.foldl (· + ·) start).toNat = (start.toNat + valueSum words) % 2 ^ 64 := by
  induction words generalizing start with
  | nil => exact (Nat.mod_eq_of_lt start.toNat_lt).symm
  | cons word words ih =>
    rw [List.foldl_cons, ih, UInt64.toNat_add, Nat.mod_add_mod, Nat.add_assoc]
    rfl

/-- A sum of words wraps around. -/
theorem toNat_wordSum (words : List UInt64) : (wordSum words).toNat = valueSum words % 2 ^ 64 := by
  unfold wordSum
  rw [toNat_foldl_add, UInt64.toNat_zero, Nat.zero_add]

/-- A sum of words does not wrap around exactly when the sum of their values fits. -/
theorem toNat_wordSum_eq_iff (words : List UInt64) :
    (wordSum words).toNat = valueSum words ↔ valueSum words < 2 ^ 64 := by
  rw [toNat_wordSum]
  exact ⟨fun h => h ▸ Nat.mod_lt _ (by decide), Nat.mod_eq_of_lt⟩

/-- The values of a list, with one more. -/
theorem valueSum_cons (word : UInt64) (words : List UInt64) :
    valueSum (word :: words) = word.toNat + valueSum words := by
  unfold valueSum
  rw [List.map_cons, List.sum_cons]

/-- No word of a list is greater than the sum of their values. -/
theorem toNat_le_valueSum {words : List UInt64} {word : UInt64} (h : word ∈ words) :
    word.toNat ≤ valueSum words := by
  induction words with
  | nil => cases h
  | cons first words ih =>
    rw [valueSum_cons]
    obtain rfl | h := List.mem_cons.mp h
    · exact Nat.le_add_right _ _
    · have hrest := ih h
      omega

/-- Larger words have a larger sum of values. -/
theorem valueSum_le_valueSum {words words' : List UInt64} (h : List.Forall₂ (· ≤ ·) words words') :
    valueSum words ≤ valueSum words' := by
  induction h with
  | nil => exact Nat.le_refl _
  | cons hle h ih =>
    rw [valueSum_cons, valueSum_cons]
    exact Nat.add_le_add (UInt64.le_iff_toNat_le.mp hle) ih

/-! ## Words of 32 bits -/

/-- `u32::saturating_add`. -/
def saturatingAdd32 (a b : UInt32) : UInt32 := UInt32.ofNat (min (a.toNat + b.toNat) (2 ^ 32 - 1))

/-- The sum of an iterator of words, which wraps around. -/
def wordSum32 (words : List UInt32) : UInt32 := words.foldl (· + ·) 0

/-- A saturating sum of 32 bits by its value. -/
@[simp]
theorem toNat_saturatingAdd32 (a b : UInt32) :
    (saturatingAdd32 a b).toNat = min (a.toNat + b.toNat) (2 ^ 32 - 1) := by
  unfold saturatingAdd32
  exact UInt32.toNat_ofNat_of_lt' (by rw [UInt32.size]; omega)

/-- The greater of two words of 32 bits by its value. -/
@[simp]
theorem toNat_max32 (a b : UInt32) : (max a b).toNat = max a.toNat b.toNat := by
  show (if a ≤ b then b else a).toNat = max a.toNat b.toNat
  split_ifs with h
  · rw [max_eq_right (UInt32.le_iff_toNat_le.mp h)]
  · rw [UInt32.le_iff_toNat_le] at h
    rw [max_eq_left (Nat.le_of_not_le h)]

/-- The lesser of two words of 32 bits by its value. -/
@[simp]
theorem toNat_min32 (a b : UInt32) : (min a b).toNat = min a.toNat b.toNat := by
  show (if a ≤ b then a else b).toNat = min a.toNat b.toNat
  split_ifs with h
  · rw [min_eq_left (UInt32.le_iff_toNat_le.mp h)]
  · rw [UInt32.le_iff_toNat_le] at h
    rw [min_eq_right (Nat.le_of_not_le h)]

end Lib
