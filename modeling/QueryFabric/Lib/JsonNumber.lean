import Mathlib.Algebra.Order.Field.Power
import Mathlib.Data.Rat.Cast.Order
import Mathlib.Tactic.FieldSimp
import Mathlib.Tactic.Positivity

/-!
# The number grammar of JSON

`JsonInteger` and `JsonNumber` are the derivations of `-?(0|[1-9][0-9]*)` and of
`-?(0|[1-9][0-9]*)(\.[0-9]+)?([eE][+-]?[0-9]+)?`, with the texts that they derive and the numbers
that these stand for. `abs_value` brings a number into the form of an integer mantissa and a power
of ten.
-/

namespace Lib

/-- `[0-9]+` -/
def IsDigits (ds : List Char) : Prop := ds ≠ [] ∧ ∀ d ∈ ds, d.isDigit = true

/-- `0|[1-9][0-9]*` -/
def IsWhole (ds : List Char) : Prop := ds = ['0'] ∨ (IsDigits ds ∧ ds.head? ≠ some '0')

/-- The number that digits stand for. -/
def natValue (ds : List Char) : Nat := Nat.ofDigitChars 10 ds 0

/-- Digits start with one. -/
theorem IsDigits.head {ds : List Char} (h : IsDigits ds) : ∃ d ∈ ds.head?, d.isDigit = true := by
  obtain ⟨hne, hdigits⟩ := h
  obtain ⟨d, rest, rfl⟩ := List.exists_cons_of_ne_nil hne
  exact ⟨d, rfl, hdigits d List.mem_cons_self⟩

/-- The digits of a whole number are digits. -/
theorem IsWhole.isDigits {ds : List Char} (h : IsWhole ds) : IsDigits ds := by
  obtain rfl | ⟨hdigits, -⟩ := h
  · exact ⟨List.cons_ne_nil _ _, List.forall_mem_singleton.mpr rfl⟩
  · exact hdigits

/-- The value of digits before others. -/
theorem natValue_append (ds es : List Char) :
    natValue (ds ++ es) = natValue ds * 10 ^ es.length + natValue es := by
  unfold natValue
  rw [Nat.ofDigitChars_append, Nat.ofDigitChars_eq_ofDigitChars_zero, Nat.mul_comm]

/-! ## Integers -/

/-- `-?(0|[1-9][0-9]*)` -/
structure JsonInteger where
  negative : Bool
  whole : List Char
  isWhole : IsWhole whole

namespace JsonInteger

/-- The characters of an integer. -/
def text (n : JsonInteger) : List Char := if n.negative then '-' :: n.whole else n.whole

/-- The value of an integer. -/
def value (n : JsonInteger) : Int := if n.negative then -natValue n.whole else natValue n.whole

end JsonInteger

/-! ## Numbers -/

/-- The sign of an exponent. -/
inductive ExponentSign
  | absent
  | plus
  | minus
deriving DecidableEq, Repr

/-- The characters of a sign. -/
def ExponentSign.text : ExponentSign → List Char
  | absent => []
  | plus => ['+']
  | minus => ['-']

/-- `[eE][+-]?[0-9]+` -/
structure JsonExponent where
  capital : Bool
  sign : ExponentSign
  digits : List Char
  isDigits : IsDigits digits

namespace JsonExponent

/-- The characters of an exponent. -/
def text (e : JsonExponent) : List Char :=
  (if e.capital then 'E' else 'e') :: (e.sign.text ++ e.digits)

/-- The value of an exponent. -/
def value (e : JsonExponent) : Int :=
  if e.sign = .minus then -natValue e.digits else natValue e.digits

end JsonExponent

/-- `-?(0|[1-9][0-9]*)(\.[0-9]+)?([eE][+-]?[0-9]+)?` -/
structure JsonNumber extends JsonInteger where
  fraction : Option {ds : List Char // IsDigits ds}
  exponent : Option JsonExponent

namespace JsonNumber

/-- The digits after the point. -/
def fractionDigits (n : JsonNumber) : List Char := n.fraction.elim [] Subtype.val

/-- The characters of a fraction, if there is one. -/
def fractionText (n : JsonNumber) : List Char := n.fraction.elim [] fun ds => '.' :: ds.val

/-- The characters of an exponent, if there is one. -/
def exponentText (n : JsonNumber) : List Char := n.exponent.elim [] JsonExponent.text

/-- The text without its sign. -/
def unsigned (n : JsonNumber) : List Char := n.whole ++ (n.fractionText ++ n.exponentText)

/-- The characters of a number. -/
def text (n : JsonNumber) : List Char := if n.negative then '-' :: n.unsigned else n.unsigned

/-- The value of an exponent, if there is one. -/
def exponentValue (n : JsonNumber) : Int := n.exponent.elim 0 JsonExponent.value

/-- The value of a number. -/
def value (n : JsonNumber) : ℚ :=
  (if n.negative then -1 else 1) *
    (natValue n.whole + natValue n.fractionDigits / 10 ^ n.fractionDigits.length) * 10 ^
      n.exponentValue

/-- The digits make up an integer, whose last ones stand after the point. -/
theorem abs_value (n : JsonNumber) : |n.value| =
    natValue (n.whole ++ n.fractionDigits) * 10 ^ (n.exponentValue - n.fractionDigits.length) := by
  have hten : (10 : ℚ) ≠ 0 := by norm_num
  have hsign : |(if n.negative then -1 else 1 : ℚ)| = 1 := by split_ifs <;> simp
  have hsum : (0 : ℚ) ≤ natValue n.whole + natValue n.fractionDigits / 10 ^
      n.fractionDigits.length := by positivity
  have hpower : (0 : ℚ) ≤ 10 ^ n.exponentValue := by positivity
  unfold value
  rw [abs_mul, abs_mul, hsign, one_mul, abs_of_nonneg hsum, abs_of_nonneg hpower, zpow_sub₀ hten,
    zpow_natCast, natValue_append]
  push_cast
  field_simp

end JsonNumber

end Lib
