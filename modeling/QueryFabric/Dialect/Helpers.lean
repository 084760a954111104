import QueryFabric.Dialect.SourceMap
import QueryFabric.Lib.Substrings
import Mathlib.Data.List.DropRight

/-!
# What the dialects do to their input

Trimming, letter case and searching as the standard library has them, and `strip_leading_explain` of
`crates/queryfabric-dialect-sql/src/helpers.rs`, of which the SyQL crate has a copy.
-/

namespace QueryFabric.Dialect

open Lib

/-- `char::is_whitespace`: the Unicode property White_Space. -/
def isWhitespace (c : Char) : Bool :=
  (0x9 ≤ c.toNat && c.toNat ≤ 0xd) || c.toNat == 0x20 || c.toNat == 0x85 || c.toNat == 0xa0 ||
    c.toNat == 0x1680 ||
    (0x2000 ≤ c.toNat && c.toNat ≤ 0x200a) || c.toNat == 0x2028 || c.toNat == 0x2029 ||
      c.toNat == 0x202f ||
    c.toNat == 0x205f || c.toNat == 0x3000

/-- `str::trim_start`. -/
def trimStart (text : List Char) : List Char := text.dropWhile isWhitespace

/-- `str::trim_end`. -/
def trimEnd (text : List Char) : List Char := text.rdropWhile isWhitespace

/-- `str::trim`. -/
def trim (text : List Char) : List Char := trimEnd (trimStart text)

/-- `str::to_ascii_uppercase`. -/
def toAsciiUppercase (text : List Char) : List Char := text.map Char.toUpper

/-- `str::strip_prefix`. -/
def stripPrefix (pre text : List Char) : Option (List Char) :=
  if pre <+: text then some (text.drop pre.length) else none

/-- `str::rfind`, in characters. -/
def rfind (needle : List Char) : List Char → Option Nat
  | [] => if needle = [] then some 0 else none
  | c :: cs =>
    match rfind needle cs with
    | some i => some (i + 1)
    | none => if needle <+: c :: cs then some 0 else none

/-- Whether a text is empty or starts with white space. -/
def breaks (rest : List Char) : Bool := rest.isEmpty || rest.head?.any isWhitespace

/-- Whether the text starts with a leading EXPLAIN, what follows it and the offset of that. -/
def stripLeadingExplain (input : List Char) : Bool × List Char × Nat :=
  let trimmedStart := utf8Len input - utf8Len (trimStart input)
  let trimmed := trimStart input
  let upper := toAsciiUppercase trimmed
  if upper = "EXPLAIN".toList then (true, [], utf8Len input)
  else if "EXPLAIN".toList <+: upper ∧ breaks (trimmed.drop 7) then
    let explainRest := trimmed.drop 7
    let restTrimmed := trimStart explainRest
    let bodyOffset := utf8Len input - utf8Len restTrimmed
    (true, restTrimmed, bodyOffset)
  else (false, trimmed, trimmedStart)

/-- A trimmed text is the end of the text. -/
theorem trimStart_isSuffix (text : List Char) : trimStart text <:+ text := List.dropWhile_suffix _

/-- A trimmed text is the start of the text. -/
theorem trimEnd_isPrefix (text : List Char) : trimEnd text <+: text := List.rdropWhile_prefix _ text

/-- Upper case texts are as long. -/
@[simp]
theorem length_toAsciiUppercase (text : List Char) :
    (toAsciiUppercase text).length = text.length := by
  unfold toAsciiUppercase
  rw [List.length_map]

/-- A character that has another upper case form is a lower case letter, and its form is an upper
case one. -/
theorem toUpper_cases (c : Char) :
    c.toUpper = c ∨ (c.toUpper.isUpper = true ∧ c.isLower = true) := by
  unfold Char.toUpper
  split_ifs with hlower
  · have hle := UInt32.le_iff_toNat_le.mp hlower.1
    have hle' := UInt32.le_iff_toNat_le.mp hlower.2
    have ha : 'a'.val.toNat = 97 := by decide
    have hz : 'z'.val.toNat = 122 := by decide
    have hA : 'A'.val.toNat = 65 := by decide
    have hZ : 'Z'.val.toNat = 90 := by decide
    have hshift : (c.val + ('A'.val - 'a'.val)).toNat = c.val.toNat - 32 := by
      have h : ('A'.val - 'a'.val).toNat = 2 ^ 32 - 32 := by decide
      rw [UInt32.toNat_add, h]
      omega
    delta Char.isUpper Char.isLower
    simp only [decide_eq_true_eq, Bool.and_eq_true, ge_iff_le, UInt32.le_iff_toNat_le, hshift]
    omega
  · exact .inl rfl

/-- The end of a text starts where the rest of its bytes begin. -/
theorem slice_of_isSuffix {text rest : List Char} (h : rest <:+ text) :
    Slice text (utf8Len text - utf8Len rest) rest := by
  obtain ⟨before, rfl⟩ := h
  refine ⟨before, [], by simp, ?_⟩
  rw [utf8Len_append, Nat.add_sub_cancel]

/-- What is trimmed of a text starts after its leading white space. -/
theorem slice_trim (text : List Char) :
    Slice text (utf8Len text - utf8Len (trimStart text)) (trim text) :=
  (slice_of_isSuffix (trimStart_isSuffix text)).isPrefix (trimEnd_isPrefix _)

/-- The body after a leading EXPLAIN is the end of the input, and its offset is where it starts. -/
theorem slice_stripLeadingExplain (input : List Char) :
    Slice input (stripLeadingExplain input).2.2 (stripLeadingExplain input).2.1 := by
  have hsuffix := trimStart_isSuffix input
  unfold stripLeadingExplain
  dsimp only
  split_ifs
  · exact ⟨input, [], by simp, rfl⟩
  · have hrest : trimStart ((trimStart input).drop 7) <:+ input :=
      (trimStart_isSuffix _).trans ((List.drop_suffix 7 _).trans hsuffix)
    exact slice_of_isSuffix hrest
  · exact slice_of_isSuffix hsuffix

end QueryFabric.Dialect
