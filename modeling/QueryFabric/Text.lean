import Mathlib.Data.List.Basic

/-!
# Strings as the crates use them

The Rust crates compare names without regard to ASCII letter case, split qualified names at dots,
and double quote characters. The functions here are those operations of the standard library, on the
characters of a string, so that the kernel can evaluate them and a proof can reason about the
characters. `toLower`, `isAlpha`, `isDigit` and `isAlphanum` of `Char` are the ASCII versions, as
the `is_ascii_*` methods are.
-/

namespace QueryFabric

/-- `str::to_ascii_lowercase`. -/
def toAsciiLowercase (s : String) : String := String.ofList (s.toList.map Char.toLower)

/-- `str::eq_ignore_ascii_case`. -/
def eqIgnoreAsciiCase (a b : String) : Bool := toAsciiLowercase a == toAsciiLowercase b

/-- `char::is_control`: the Unicode category Cc, which is C0, DEL and C1. -/
def isControl (c : Char) : Bool := c.val ≤ 0x1f || (0x7f ≤ c.val && c.val ≤ 0x9f)

/-- The characters of `s.replace(quote, quote ++ quote)`: every occurrence of `quote` is doubled. -/
def doubleQuotes (quote : Char) : List Char → List Char
  | [] => []
  | c :: cs =>
    if c = quote then quote :: quote :: doubleQuotes quote cs else c :: doubleQuotes quote cs

/-- `s.replace(quote, quote ++ quote)`, between two further quotes. -/
def quoted (quote : Char) (s : String) : String :=
  String.ofList (quote :: (doubleQuotes quote s.toList ++ [quote]))

/-- `s.split('.')`. -/
def splitDots (s : String) : List String := (s.toList.splitOn '.').map String.ofList

/-- The upper case letters by their codes. -/
theorem isUpper_iff {c : Char} : c.isUpper = true ↔ 'A'.val ≤ c.val ∧ c.val ≤ 'Z'.val :=
  decide_eq_true_iff

/-- The lower case letters by their codes. -/
theorem isLower_iff {c : Char} : c.isLower = true ↔ 'a'.val ≤ c.val ∧ c.val ≤ 'z'.val :=
  (Bool.and_eq_true_iff (x := decide (c.val ≥ 'a'.val))).trans
    (and_congr decide_eq_true_iff decide_eq_true_iff)

/-- The alphanumeric characters are letters and digits. -/
theorem isAlphanum_eq (c : Char) : c.isAlphanum = ((c.isUpper || c.isLower) || c.isDigit) := rfl

/-- Only upper case letters have another lower case. -/
theorem toLower_of_isUpper_eq_false {c : Char} (h : c.isUpper = false) : c.toLower = c :=
  dif_neg fun hupper => Bool.false_ne_true (h.symm.trans (isUpper_iff.mpr hupper))

/-- A digit is no upper case letter. -/
theorem isUpper_of_isDigit {c : Char} (h : c.isDigit = true) : c.isUpper = false := by
  rw [← Bool.not_eq_true, isUpper_iff]
  simp only [Char.isDigit, Bool.and_eq_true, decide_eq_true_eq, ge_iff_le, UInt32.le_iff_toNat_le,
    Char.reduceVal, UInt32.reduceToNat] at h ⊢
  omega

/-- Comparison without regard to ASCII case is equality of the lowercased strings. -/
theorem eqIgnoreAsciiCase_iff {a b : String} :
    eqIgnoreAsciiCase a b = true ↔ toAsciiLowercase a = toAsciiLowercase b := by
  simp [eqIgnoreAsciiCase]

/-- Comparison without regard to ASCII case is reflexive. -/
@[simp]
theorem eqIgnoreAsciiCase_refl (a : String) : eqIgnoreAsciiCase a a = true := by
  simp [eqIgnoreAsciiCase]

/-- A name is one segment exactly when there is no dot in it. -/
theorem splitDots_eq_singleton_iff {s segment : String} :
    splitDots s = [segment] ↔ '.' ∉ s.toList ∧ s = segment := by
  constructor
  · intro h
    have hdot : '.' ∉ s.toList := by
      intro hmem
      obtain ⟨before, after, heq⟩ := List.append_of_mem hmem
      rw [splitDots, heq, List.splitOn_append_cons_of_beq _ _ (by simp)] at h
      have hlength := congrArg List.length h
      have hbefore := List.length_pos_iff.mpr (List.splitOn_ne_nil '.' before)
      have hafter := List.length_pos_iff.mpr (List.splitOn_ne_nil '.' after)
      simp only [List.length_map, List.length_append, List.length_singleton] at hlength
      omega
    rw [splitDots, List.splitOn_eq_singleton hdot] at h
    exact ⟨hdot, by simpa using h⟩
  · rintro ⟨hdot, rfl⟩
    rw [splitDots, List.splitOn_eq_singleton hdot]
    simp

end QueryFabric
