import QueryFabric.Lib.JsonNumber
import QueryFabric.Portability.Tabular

/-!
# The lexical rules of the numbers

What `valid_integer` and `valid_float` of `crates/queryfabric-portability/src/import.rs` accept.
Both are compared with the number grammar of JSON, and with the number that a text of it stands for:
`validInteger` accepts the integers that an `i64` holds, and `validFloat` the numbers that round to
a finite `f64`.

The standard library reads more than the grammar (a plus sign, the names of the special values, a
number that begins or ends with a point), so its parsers are only computed on the texts of the
grammar, by `parseI64_text` and `parseF64_text`.
-/

namespace QueryFabric.Portability

open Lib

/-! ## Digits -/

/-- The digits have their decimal value. -/
theorem digitsValue_eq (digits : List Char) : digitsValue digits = natValue digits :=
  Nat.ofDigitChars_eq_foldl.symm

/-- A text is split at the first character without a property. -/
theorem span_eq_iff {p : Char → Bool} {text before after : List Char} :
    text.span p = (before, after) ↔
      text = before ++ after ∧ (∀ c ∈ before, p c = true) ∧ ∀ c ∈ after.head?, p c = false := by
  rw [List.span_eq_takeWhile_dropWhile, Prod.mk.injEq]
  constructor
  · rintro ⟨rfl, rfl⟩
    refine ⟨List.takeWhile_append_dropWhile.symm, List.all_eq_true.mp List.all_takeWhile,
      fun c hc => ?_⟩
    have hhead := List.head?_dropWhile_not p text
    rw [hc] at hhead
    simpa using hhead
  · rintro ⟨rfl, hbefore, hafter⟩
    rw [List.takeWhile_append_of_pos hbefore, List.dropWhile_append_of_pos hbefore]
    cases after with
    | nil => simp
    | cons c after =>
      have hc : ¬ p c = true := by simp [hafter c rfl]
      rw [List.takeWhile_cons_of_neg hc, List.dropWhile_cons_of_neg hc]
      simp

/-- What the two parts of a split text are. -/
theorem span_spec (p : Char → Bool) (text : List Char) :
    text = (text.span p).1 ++ (text.span p).2 ∧ (∀ c ∈ (text.span p).1, p c = true) ∧
      ∀ c ∈ (text.span p).2.head?, p c = false :=
  span_eq_iff.mp rfl

/-- A digit is no other character. -/
theorem digit_ne {c d : Char} (hc : c.isDigit = true) (hd : d.isDigit = false) : c ≠ d := by
  rintro rfl
  rw [hc] at hd
  cases hd

/-! ## Integers -/

/-- A negative number is parsed when it fits into 64 bits. -/
theorem parseI64_minus {ds : List Char} (h : IsDigits ds) : parseI64 ('-' :: ds) =
    if -2 ^ 63 ≤ -(natValue ds : Int) ∧ -(natValue ds : Int) < 2 ^ 63 then
      some (-(natValue ds : Int)) else none := by
  obtain ⟨hne, hdigits⟩ := h
  simp only [parseI64, List.all_eq_true.mpr hdigits, List.isEmpty_eq_false_iff.mpr hne,
    digitsValue_eq, not_true_eq_false, decide_false, Bool.or_self, Bool.false_eq_true, if_false,
    if_true]

/-- A number is parsed when it fits into 64 bits. -/
theorem parseI64_digits {ds : List Char} (h : IsDigits ds) : parseI64 ds =
    if -2 ^ 63 ≤ (natValue ds : Int) ∧ (natValue ds : Int) < 2 ^ 63 then
      some (natValue ds : Int) else none := by
  obtain ⟨d, hhead, hd⟩ := h.head
  obtain ⟨rest, rfl⟩ := List.head?_eq_some_iff.mp hhead
  have hdigits := List.all_eq_true.mpr h.2
  unfold parseI64
  split
  rename_i negative digits hsign
  split at hsign
  · rename_i heq
    exact absurd (List.cons.inj heq).1 (digit_ne hd rfl)
  · rename_i heq
    exact absurd (List.cons.inj heq).1 (digit_ne hd rfl)
  · obtain ⟨rfl, rfl⟩ := Prod.mk.inj hsign
    simp only [hdigits, digitsValue_eq, List.isEmpty_cons, not_true_eq_false, decide_false,
      Bool.or_self, Bool.false_eq_true, if_false]

/-- The standard library reads an integer, unless it is out of range. -/
theorem parseI64_text (n : JsonInteger) :
    parseI64 n.text = if -2 ^ 63 ≤ n.value ∧ n.value < 2 ^ 63 then some n.value else none := by
  obtain ⟨negative, whole, hwhole⟩ := n
  cases negative with
  | true => exact parseI64_minus hwhole.isDigits
  | false => exact parseI64_digits hwhole.isDigits

/-- The text after a minus sign. -/
def afterMinus : List Char → List Char
  | '-' :: digits => digits
  | digits => digits

/-- What `valid_integer` and `valid_float` look at before the digits: there is no plus sign, and a
minus sign is skipped. -/
theorem afterMinus_signed {text digits : List Char} (negative : Bool)
    (hdigits : ∃ d ∈ digits.head?, d.isDigit = true)
    (htext : text = if negative then '-' :: digits else digits) :
    text ≠ [] ∧ text.head? ≠ some '+' ∧ afterMinus text = digits := by
  obtain ⟨d, hhead, hd⟩ := hdigits
  obtain ⟨rest, rfl⟩ := List.head?_eq_some_iff.mp hhead
  subst htext
  cases negative with
  | true => exact ⟨List.cons_ne_nil _ _, fun heq => absurd (Option.some.inj heq) (by decide), rfl⟩
  | false =>
    refine ⟨List.cons_ne_nil _ _, fun heq => digit_ne hd rfl (Option.some.inj heq), ?_⟩
    unfold afterMinus
    split
    · rename_i heq
      exact absurd (List.cons.inj heq).1 (digit_ne hd rfl)
    · rfl

/-- The conditions on the text of an integer. -/
theorem validInteger_eq_true_iff {value : String} :
    validInteger value = true ↔ value.toList ≠ [] ∧ value.toList.head? ≠ some '+' ∧
      (parseI64 value.toList).isSome = true ∧ (∀ c ∈ afterMinus value.toList, c.isDigit = true) ∧
      (afterMinus value.toList = ['0'] ∨ (afterMinus value.toList).head? ≠ some '0') := by
  have hbody : validInteger value =
      if value.toList.isEmpty || value.toList.head? = some '+' ||
        (parseI64 value.toList).isNone then false
      else (afterMinus value.toList = ['0'] || (afterMinus value.toList).head? ≠ some '0') &&
        (afterMinus value.toList).all Char.isDigit := rfl
  rw [hbody]
  cases hparse : parseI64 value.toList <;> simp [and_assoc, and_comm]

/-- An integer is valid if an `i64` holds it. -/
theorem validInteger_text {value : String} {n : JsonInteger} (h : n.text = value.toList) :
    validInteger value = true ↔ -2 ^ 63 ≤ n.value ∧ n.value < 2 ^ 63 := by
  have hparse := parseI64_text n
  have hdigits := n.isWhole.isDigits
  have hzero : n.whole = ['0'] ∨ n.whole.head? ≠ some '0' := n.isWhole.imp_right And.right
  obtain ⟨hne, hplus, hafter⟩ :=
    afterMinus_signed n.negative hdigits.head (show n.text = _ from rfl)
  rw [validInteger_eq_true_iff, ← h, hparse, hafter]
  constructor
  · rintro ⟨-, -, hsome, -⟩
    by_contra hrange
    rw [if_neg hrange] at hsome
    cases hsome
  · intro hrange
    rw [if_pos hrange]
    exact ⟨hne, hplus, rfl, hdigits.2, hzero⟩

/-- A valid integer is a text of the grammar. -/
theorem exists_integer_of_valid {value : String} (h : validInteger value = true) :
    ∃ n : JsonInteger, n.text = value.toList := by
  obtain ⟨hne, -, hparse, hdigits, hzero⟩ := validInteger_eq_true_iff.mp h
  have hwhole : afterMinus value.toList ≠ [] → IsWhole (afterMinus value.toList) :=
    fun hempty => hzero.imp_right fun hzero => ⟨⟨hempty, hdigits⟩, hzero⟩
  unfold afterMinus at hwhole
  split at hwhole
  · rename_i digits htext
    have hempty : digits ≠ [] := by
      rintro rfl
      rw [htext] at hparse
      cases hparse
    exact ⟨⟨true, digits, hwhole hempty⟩, htext.symm⟩
  · exact ⟨⟨false, value.toList, hwhole hne⟩, rfl⟩

/-! ## What the parser of `f64` makes of a number -/

/-- The difference of powers of two as a fraction. -/
theorem cast_pow_sub_pow {m n : ℕ} (h : n ≤ m) : ((2 ^ m - 2 ^ n : ℕ) : ℚ) = 2 ^ m - 2 ^ n := by
  rw [Nat.cast_sub (Nat.pow_le_pow_right Nat.two_pos h), Nat.cast_pow, Nat.cast_pow, Nat.cast_ofNat]

/-- The test without a division compares the number itself. -/
theorem isFiniteFloat_iff (mantissa : ℕ) (exponent : ℤ) :
    isFiniteFloat mantissa exponent = true ↔
      (mantissa : ℚ) * 10 ^ exponent < 2 ^ 1024 - 2 ^ 970 := by
  have hten : (0 : ℚ) < 10 := by norm_num
  unfold isFiniteFloat
  rw [← cast_pow_sub_pow (show 970 ≤ 1024 by decide)]
  -- the powers must not be evaluated
  generalize (2 ^ 1024 - 2 ^ 970 : ℕ) = limit
  split
  · rename_i hexponent
    obtain ⟨power, rfl⟩ := Int.eq_ofNat_of_zero_le hexponent
    rw [decide_eq_true_iff, Int.toNat_natCast, zpow_natCast]
    exact_mod_cast Iff.rfl
  · rename_i hexponent
    obtain ⟨power, hpower⟩ :=
      Int.eq_ofNat_of_zero_le (Int.neg_nonneg_of_nonpos (not_le.mp hexponent).le)
    obtain rfl : exponent = -(power : ℤ) := by omega
    rw [decide_eq_true_iff, neg_neg, Int.toNat_natCast, zpow_neg, zpow_natCast, ← div_eq_mul_inv,
      div_lt_iff₀ (pow_pos hten power)]
    exact_mod_cast Iff.rfl

/-- The digits that `parseF64` reads after the point, and what follows. -/
def readFraction (text : List Char) : List Char × List Char :=
  match text with
  | '.' :: rest => rest.span Char.isDigit
  | rest => ([], rest)

/-- The sign of an exponent, and its digits. -/
def readPower (text : List Char) : Bool × List Char :=
  match text with
  | '-' :: power => (true, power)
  | '+' :: power => (false, power)
  | power => (false, power)

/-- The exponent that `parseF64` reads at the end. -/
def readExponent (text : List Char) : Option Int :=
  match text with
  | [] => some 0
  | c :: rest =>
    if c = 'e' || c = 'E' then
      let (negative, power) := readPower rest
      if power.isEmpty || ¬ power.all Char.isDigit then none
      else some (if negative then -digitsValue power else digitsValue power)
    else none

/-- The text after a sign. -/
def afterSign : List Char → List Char
  | '-' :: text => text
  | '+' :: text => text
  | text => text

/-- A number is parsed after its sign. -/
theorem parseF64_eq (text : List Char) : parseF64 text =
    let text := afterSign text
    let word := toAsciiLowercase (String.ofList text)
    let digits := (text.span Char.isDigit).1
    let fraction := (readFraction (text.span Char.isDigit).2).1
    if word = "nan" then some .nan
    else if word = "inf" || word = "infinity" then some .infinite
    else if digits.isEmpty && fraction.isEmpty then none
    else (readExponent (readFraction (text.span Char.isDigit).2).2).map fun exponent =>
      if isFiniteFloat (digitsValue (digits ++ fraction)) (exponent - fraction.length) then .finite
      else .infinite := rfl

/-- A text that begins with a digit is not the name of a special value. -/
theorem word_ne {d : Char} {rest : List Char} (hd : d.isDigit = true) {word : String}
    (hword : word.toList.head?.any Char.isDigit = false) :
    toAsciiLowercase (String.ofList (d :: rest)) ≠ word := by
  rintro rfl
  have hhead : (toAsciiLowercase (String.ofList (d :: rest))).toList.head? = some d := by
    simp [toAsciiLowercase, toLower_of_isUpper_eq_false (isUpper_of_isDigit hd)]
  rw [hhead, Option.any_some, hd] at hword
  cases hword

/-- A digit is no sign. -/
theorem afterSign_digit {text : List Char} (h : ∃ d ∈ text.head?, d.isDigit = true) :
    afterSign text = text := by
  obtain ⟨d, hhead, hd⟩ := h
  unfold afterSign
  split
  · exact absurd (Option.some.inj hhead).symm (digit_ne hd rfl)
  · exact absurd (Option.some.inj hhead).symm (digit_ne hd rfl)
  · rfl

/-- A number that starts with a digit is parsed part by part. -/
theorem parseF64_digits {text : List Char} (h : ∃ d ∈ text.head?, d.isDigit = true) :
    parseF64 text =
      (readExponent (readFraction (text.span Char.isDigit).2).2).map fun exponent =>
        if isFiniteFloat
            (digitsValue
              ((text.span Char.isDigit).1 ++ (readFraction (text.span Char.isDigit).2).1))
            (exponent - (readFraction (text.span Char.isDigit).2).1.length) then
              .finite else .infinite := by
  rw [parseF64_eq, afterSign_digit h]
  obtain ⟨d, hhead, hd⟩ := h
  obtain ⟨rest, rfl⟩ := List.head?_eq_some_iff.mp hhead
  have hempty : ((d :: rest).span Char.isDigit).1.isEmpty = false := by
    simp [List.span_eq_takeWhile_dropWhile, List.takeWhile_cons_of_pos hd]
  have hnan : toAsciiLowercase (String.ofList (d :: rest)) ≠ "nan" := word_ne hd (by decide)
  have hinf : toAsciiLowercase (String.ofList (d :: rest)) ≠ "inf" := word_ne hd (by decide)
  have hinfinity : toAsciiLowercase (String.ofList (d :: rest)) ≠ "infinity" :=
    word_ne hd (by decide)
  simp only [hnan, hinf, hinfinity, hempty, decide_false, Bool.or_self, Bool.false_and,
    Bool.false_eq_true, if_false]

/-- A minus sign before a digit does not matter for whether a number is finite. -/
theorem parseF64_minus {text : List Char} (h : ∃ d ∈ text.head?, d.isDigit = true) :
    parseF64 ('-' :: text) = parseF64 text := by
  rw [parseF64_eq, parseF64_eq, afterSign_digit h]
  rfl

/-! ## The parts of a number -/

/-- Digits before something else are split there. -/
theorem span_digits {ds rest : List Char} (hds : ∀ d ∈ ds, d.isDigit = true)
    (hrest : ∀ c ∈ rest.head?, c.isDigit = false) : (ds ++ rest).span Char.isDigit = (ds, rest) :=
  span_eq_iff.mpr ⟨rfl, hds, hrest⟩

/-- An exponent starts with its letter. -/
theorem exponentText_head (n : JsonNumber) : ∀ c ∈ n.exponentText.head?, c = 'e' ∨ c = 'E' := by
  unfold JsonNumber.exponentText
  cases n.exponent with
  | none => rintro c ⟨⟩
  | some e =>
    rintro c hc
    obtain rfl := Option.some.inj hc
    split_ifs
    · exact .inr rfl
    · exact .inl rfl

/-- An exponent starts with no digit. -/
theorem exponentText_head_isDigit (n : JsonNumber) :
    ∀ c ∈ n.exponentText.head?, c.isDigit = false := by
  intro c hc
  obtain rfl | rfl := exponentText_head n c hc <;> rfl

/-- A number without its sign starts with a digit. -/
theorem unsigned_head (n : JsonNumber) : ∃ d ∈ n.unsigned.head?, d.isDigit = true := by
  obtain ⟨d, hd, hdigit⟩ := n.isWhole.isDigits.head
  refine ⟨d, ?_, hdigit⟩
  rw [JsonNumber.unsigned, List.head?_append, Option.mem_def.mp hd]
  rfl

/-- The digits of the whole part end where the fraction or the exponent begins. -/
theorem span_unsigned (n : JsonNumber) :
    n.unsigned.span Char.isDigit = (n.whole, n.fractionText ++ n.exponentText) := by
  refine span_digits n.isWhole.isDigits.2 ?_
  unfold JsonNumber.fractionText
  cases n.fraction with
  | none => exact exponentText_head_isDigit n
  | some ds =>
    rintro c hc
    obtain rfl := Option.some.inj hc
    rfl

/-- The fraction of a number is read. -/
theorem readFraction_text (n : JsonNumber) :
    readFraction (n.fractionText ++ n.exponentText) = (n.fractionDigits, n.exponentText) := by
  unfold JsonNumber.fractionText JsonNumber.fractionDigits
  cases n.fraction with
  | some ds => exact span_digits ds.property.2 (exponentText_head_isDigit n)
  | none =>
    -- without a fraction the exponent follows, which does not begin with a point
    rw [Option.elim_none, Option.elim_none, List.nil_append]
    unfold readFraction
    split
    · rename_i rest htext
      have hhead := exponentText_head n '.' (by rw [htext]; rfl)
      simp at hhead
    · rfl

/-- The sign of an exponent is read. -/
theorem readPower_text (sign : ExponentSign) {digits : List Char} (h : IsDigits digits) :
    readPower (sign.text ++ digits) = (decide (sign = .minus), digits) := by
  cases sign with
  | plus => rfl
  | minus => rfl
  | absent =>
    obtain ⟨d, hhead, hd⟩ := h.head
    rw [ExponentSign.text, List.nil_append]
    unfold readPower
    split
    · exact absurd (Option.some.inj hhead).symm (digit_ne hd rfl)
    · exact absurd (Option.some.inj hhead).symm (digit_ne hd rfl)
    · rfl

/-- The letter of an exponent is one of two. -/
theorem letter_eq (capital : Bool) :
    (decide ((if capital then 'E' else 'e') = 'e') ||
      decide ((if capital then 'E' else 'e') = 'E')) = true := by
  cases capital <;> rfl

/-- The exponent is `0` if it is left out. -/
theorem readExponent_text (n : JsonNumber) :
    readExponent n.exponentText = some n.exponentValue := by
  unfold JsonNumber.exponentText JsonNumber.exponentValue
  cases n.exponent with
  | none => rfl
  | some e =>
    obtain ⟨capital, sign, digits, hdigits⟩ := e
    have hall : digits.all Char.isDigit = true := List.all_eq_true.mpr hdigits.2
    have hempty : digits.isEmpty = false := List.isEmpty_eq_false_iff.mpr hdigits.1
    simp only [Option.elim_some, JsonExponent.text, JsonExponent.value, readExponent, letter_eq,
      if_true, readPower_text sign hdigits, hall, hempty, digitsValue_eq, not_true_eq_false,
      decide_false, Bool.or_self, Bool.false_eq_true, if_false, decide_eq_true_eq]

/-- The standard library reads a number, and rounds it to a finite one below the midpoint after the
largest one. -/
theorem parseF64_text (n : JsonNumber) :
    parseF64 n.text = some (if |n.value| < 2 ^ 1024 - 2 ^ 970 then .finite else .infinite) := by
  have hhead := unsigned_head n
  have hunsigned : parseF64 n.text = parseF64 n.unsigned := by
    unfold JsonNumber.text
    cases n.negative with
    | true => exact parseF64_minus hhead
    | false => rfl
  rw [hunsigned, parseF64_digits hhead, span_unsigned, readFraction_text, readExponent_text,
    Option.map_some, digitsValue_eq, n.abs_value]
  simp only [isFiniteFloat_iff]

/-! ## The grammar of `validFloat` -/

/-- Whether there are digits after the point that `validFloatDigits` finds, and what follows. -/
def fractionPart (text : List Char) : Bool × List Char :=
  match text with
  | '.' :: rest => (!(rest.span Char.isDigit).1.isEmpty, (rest.span Char.isDigit).2)
  | rest => (true, rest)

/-- Whether there are digits in the exponent that `validFloatDigits` finds, and what follows. -/
def exponentPart (text : List Char) : Bool × List Char :=
  match text with
  | c :: rest =>
    if c = 'e' || c = 'E' then
      (!((readPower rest).2.span Char.isDigit).1.isEmpty, ((readPower rest).2.span Char.isDigit).2)
    else (true, c :: rest)
  | [] => (true, [])

/-- An exponent is read after its sign. -/
theorem readPower_eq (text : List Char) : (readPower text).2 = match text with
    | '+' :: rest => rest
    | '-' :: rest => rest
    | rest => rest := by
  -- the source looks for the plus sign first
  unfold readPower
  split
  · rfl
  · rfl
  · rename_i hminus hplus
    split
    · rename_i rest
      exact absurd rfl (hplus rest)
    · rename_i rest
      exact absurd rfl (hminus rest)
    · rfl

/-- The conditions on the digits of a number. -/
theorem validFloatDigits_eq_true_iff {text : List Char} : validFloatDigits text = true ↔
    (text.span Char.isDigit).1 ≠ [] ∧
      ¬ (1 < (text.span Char.isDigit).1.length ∧ (text.span Char.isDigit).1.head? = some '0') ∧
      (fractionPart (text.span Char.isDigit).2).1 = true ∧
      (exponentPart (fractionPart (text.span Char.isDigit).2).2).1 = true ∧
      (exponentPart (fractionPart (text.span Char.isDigit).2).2).2 = [] := by
  have hbody : validFloatDigits text =
      if (text.span Char.isDigit).1.isEmpty ||
          ((text.span Char.isDigit).1.length > 1 && (text.span Char.isDigit).1.head? =
            some '0') then false
      else (fractionPart (text.span Char.isDigit).2).1 &&
        (exponentPart (fractionPart (text.span Char.isDigit).2).2).1 &&
        (exponentPart (fractionPart (text.span Char.isDigit).2).2).2.isEmpty := by
    unfold exponentPart
    simp only [readPower_eq]
    rfl
  rw [hbody]
  simp [and_assoc, imp_iff_not_or]

/-- The fraction of a number has its form. -/
theorem fractionPart_text (n : JsonNumber) :
    fractionPart (n.fractionText ++ n.exponentText) = (true, n.exponentText) := by
  have hread := readFraction_text n
  unfold JsonNumber.fractionText JsonNumber.fractionDigits at *
  cases hfraction : n.fraction with
  | some ds =>
    rw [hfraction] at hread
    have hspan : (ds.val ++ n.exponentText).span Char.isDigit = (ds.val, n.exponentText) := hread
    have hempty : ds.val.isEmpty = false := List.isEmpty_eq_false_iff.mpr ds.property.1
    simp only [Option.elim_some, List.cons_append, fractionPart, hspan, hempty, Bool.not_false]
  | none =>
    rw [Option.elim_none, List.nil_append]
    unfold fractionPart
    split
    · rename_i rest htext
      have hhead := exponentText_head n '.' (by rw [htext]; rfl)
      simp at hhead
    · rfl

/-- The exponent of a number has its form. -/
theorem exponentPart_text (n : JsonNumber) : exponentPart n.exponentText = (true, []) := by
  unfold JsonNumber.exponentText
  cases n.exponent with
  | none => rfl
  | some e =>
    obtain ⟨capital, sign, digits, hdigits⟩ := e
    have hspan : digits.span Char.isDigit = (digits, []) := by
      simpa using @span_digits digits [] hdigits.2 (by simp)
    have hempty : digits.isEmpty = false := List.isEmpty_eq_false_iff.mpr hdigits.1
    simp only [Option.elim_some, JsonExponent.text, exponentPart, letter_eq, if_true,
      readPower_text sign hdigits, hspan, hempty, Bool.not_false]

/-- A number without its sign has the form. -/
theorem validFloatDigits_unsigned (n : JsonNumber) : validFloatDigits n.unsigned = true := by
  rw [validFloatDigits_eq_true_iff, span_unsigned, fractionPart_text, exponentPart_text]
  refine ⟨n.isWhole.isDigits.1, ?_, rfl, rfl, rfl⟩
  rintro ⟨hlength, hzero⟩
  obtain hwhole | ⟨-, hwhole⟩ := n.isWhole
  · simp [hwhole] at hlength
  · exact hwhole hzero

/-- Before what follows, there is a point with digits or nothing. -/
theorem exists_fraction_of_part {text : List Char} (h : (fractionPart text).1 = true) :
    ∃ fraction : Option {ds : List Char // IsDigits ds},
      text = fraction.elim [] (fun ds => '.' :: ds.val) ++ (fractionPart text).2 := by
  unfold fractionPart at *
  split at h
  · rename_i rest
    obtain ⟨hrest, hdigits, -⟩ := span_spec Char.isDigit rest
    have hne : (rest.span Char.isDigit).1 ≠ [] := by simpa using h
    exact ⟨some ⟨_, hne, hdigits⟩, congrArg ('.' :: ·) hrest⟩
  · exact ⟨none, rfl⟩

/-- A text starts with a sign, or with none. -/
theorem exists_sign (text : List Char) :
    ∃ sign : ExponentSign, text = sign.text ++ (readPower text).2 := by
  unfold readPower
  split
  · exact ⟨.minus, rfl⟩
  · exact ⟨.plus, rfl⟩
  · exact ⟨.absent, rfl⟩

/-- At the end of the text there is an exponent or nothing. -/
theorem exists_exponent_of_part {text : List Char} (h : (exponentPart text).1 = true)
    (hend : (exponentPart text).2 = []) :
    ∃ exponent : Option JsonExponent, text = exponent.elim [] JsonExponent.text := by
  unfold exponentPart at h hend
  cases text with
  | nil => exact ⟨none, rfl⟩
  | cons c rest =>
    dsimp only at h hend
    split at h
    · rename_i hletter
      rw [if_pos hletter] at hend
      -- Behind the letter stand a sign or none, and the digits.
      obtain ⟨sign, hsign⟩ := exists_sign rest
      obtain ⟨hpower, hdigits, -⟩ := span_spec Char.isDigit (readPower rest).2
      have hne : ((readPower rest).2.span Char.isDigit).1 ≠ [] := by simpa using h
      -- The letter may be a capital.
      have hcapital : c = if decide (c = 'E') then 'E' else 'e' := by
        rw [Bool.or_eq_true, decide_eq_true_eq, decide_eq_true_eq] at hletter
        obtain rfl | rfl := hletter <;> rfl
      rw [hend, List.append_nil] at hpower
      exact ⟨some ⟨decide (c = 'E'), sign, _, hne, hdigits⟩,
        congrArg₂ List.cons hcapital (hsign.trans (congrArg (sign.text ++ ·) hpower))⟩
    · rename_i hletter
      rw [if_neg hletter] at hend
      cases hend

/-- What `validFloatDigits` accepts is a number of the grammar. -/
theorem exists_number_of_digits {text : List Char} (h : validFloatDigits text = true)
    (negative : Bool) :
    ∃ n : JsonNumber, n.negative = negative ∧ n.unsigned = text := by
  obtain ⟨hne, hzero, hfraction, hexponent, hend⟩ := validFloatDigits_eq_true_iff.mp h
  obtain ⟨htext, hdigits, -⟩ := span_spec Char.isDigit text
  obtain ⟨fraction, hfraction⟩ := exists_fraction_of_part hfraction
  obtain ⟨exponent, hexponent⟩ := exists_exponent_of_part hexponent hend
  have hwhole : IsWhole (text.span Char.isDigit).1 := by
    -- a zero in front is the whole part
    by_cases hhead : (text.span Char.isDigit).1.head? = some '0'
    · obtain ⟨rest, hrest⟩ := List.head?_eq_some_iff.mp hhead
      have hlength : ¬ 1 < (text.span Char.isDigit).1.length :=
        fun hlength => hzero ⟨hlength, hhead⟩
      rw [hrest, List.length_cons] at hlength
      obtain rfl : rest = [] := List.eq_nil_of_length_eq_zero (by omega)
      exact .inl hrest
    · exact .inr ⟨⟨hne, hdigits⟩, hhead⟩
  refine ⟨⟨⟨negative, _, hwhole⟩, fraction, exponent⟩, rfl, ?_⟩
  conv_rhs => rw [htext, hfraction, hexponent]
  rfl

/-! ## Numbers -/

/-- The conditions on the text of a number. -/
theorem validFloat_eq_true_iff {value : String} :
    validFloat value = true ↔ value.toList ≠ [] ∧ value.toList.head? ≠ some '+' ∧
      validFloatDigits (afterMinus value.toList) = true ∧ parseF64 value.toList = some .finite := by
  have hbody : validFloat value =
      if value.toList.isEmpty || value.toList.head? = some '+' ||
        (parseF64 value.toList).isNone then false
      else validFloatDigits (afterMinus value.toList) && parseF64 value.toList = some .finite := rfl
  rw [hbody]
  cases parseF64 value.toList <;> simp [and_assoc]

/-- A number is valid if it rounds to a finite one. -/
theorem validFloat_text {value : String} {n : JsonNumber} (h : n.text = value.toList) :
    validFloat value = true ↔ |n.value| < 2 ^ 1024 - 2 ^ 970 := by
  obtain ⟨hne, hplus, hafter⟩ :=
    afterMinus_signed n.negative (unsigned_head n) (show n.text = _ from rfl)
  rw [validFloat_eq_true_iff, ← h, hafter, parseF64_text]
  constructor
  · rintro ⟨-, -, -, hparse⟩
    by_contra hvalue
    rw [if_neg hvalue] at hparse
    cases hparse
  · intro hvalue
    rw [if_pos hvalue]
    exact ⟨hne, hplus, validFloatDigits_unsigned n, rfl⟩

/-- A valid number is a text of the grammar. -/
theorem exists_number_of_valid {value : String} (h : validFloat value = true) :
    ∃ n : JsonNumber, n.text = value.toList := by
  obtain ⟨-, -, hdigits, -⟩ := validFloat_eq_true_iff.mp h
  have hnumber := exists_number_of_digits hdigits
  unfold afterMinus at hnumber
  split at hnumber
  · rename_i digits htext
    obtain ⟨n, hnegative, hunsigned⟩ := hnumber true
    exact ⟨n, by rw [JsonNumber.text, hnegative, hunsigned, htext]; rfl⟩
  · obtain ⟨n, hnegative, hunsigned⟩ := hnumber false
    exact ⟨n, by rw [JsonNumber.text, hnegative, hunsigned]; rfl⟩

/-- The lexical rules are the grammar and the range of the type. The largest finite `f64` is `2 ^
1024 - 2 ^ 971`, and the midpoint of it and `2 ^ 1024` is the first number that rounds to
infinity. -/
theorem scalarRules_exact (value : String) :
    (validInteger value = true ↔ ∃ n : JsonInteger, n.text = value.toList ∧ -2 ^ 63 ≤ n.value ∧
      n.value < 2 ^ 63) ∧
    (validFloat value = true ↔ ∃ n : JsonNumber, n.text = value.toList ∧
      |n.value| < 2 ^ 1024 - 2 ^ 970) := by
  refine ⟨⟨fun h => ?_, ?_⟩, ⟨fun h => ?_, ?_⟩⟩
  · obtain ⟨n, hn⟩ := exists_integer_of_valid h
    exact ⟨n, hn, (validInteger_text hn).mp h⟩
  · rintro ⟨n, hn, hrange⟩
    exact (validInteger_text hn).mpr hrange
  · obtain ⟨n, hn⟩ := exists_number_of_valid h
    exact ⟨n, hn, (validFloat_text hn).mp h⟩
  · rintro ⟨n, hn, hrange⟩
    exact (validFloat_text hn).mpr hrange

end QueryFabric.Portability
