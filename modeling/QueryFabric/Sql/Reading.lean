import QueryFabric.Sql.Lexer

/-!
# Reading a text from the left

One lemma per kind of token says how a text that starts with such a token is read, whatever the rest
of the text is, as long as the token does not reach into it. `Safe` is the kind of rest that no
token reaches into: it is empty, or starts with a space, a comma, a colon or a bracket.
-/

namespace Sql

variable (R : LexRules)

/-- No character of a text's rest continues a run. -/
def Stops (p : Char → Bool) (rest : List Char) : Prop := ∀ c ∈ rest.head?, p c = false

/-- Nothing stops everything. -/
theorem Stops.nil (p : Char → Bool) : Stops p [] := by simp [Stops]

/-- What is taken ends before what stops it. -/
theorem takeWhile_append_stops {p : Char → Bool} {rest : List Char} (hrest : Stops p rest) :
    ∀ cs : List Char, (cs ++ rest).takeWhile p = cs.takeWhile p
  | [] => by
    cases rest with
    | nil => rfl
    | cons c rest => simp [hrest c (by simp)]
  | c :: cs => by
    simp only [List.cons_append, List.takeWhile_cons, takeWhile_append_stops hrest cs]

/-- What is dropped ends before what stops it. -/
theorem dropWhile_append_stops {p : Char → Bool} {rest : List Char} (hrest : Stops p rest) :
    ∀ cs : List Char, (cs ++ rest).dropWhile p = cs.dropWhile p ++ rest
  | [] => by
    cases rest with
    | nil => rfl
    | cons c rest => simp [hrest c (by simp)]
  | c :: cs => by
    simp only [List.cons_append, List.dropWhile_cons, dropWhile_append_stops hrest cs]
    split <;> rfl

/-- A run is read up to the rest that stops it. -/
theorem takeWhile_run {p : Char → Bool} {cs rest : List Char} (h : cs.all p = true)
    (hrest : Stops p rest) : (cs ++ rest).takeWhile p = cs := by
  rw [takeWhile_append_stops hrest, List.takeWhile_eq_self_iff]
  simpa using h

/-- A run is dropped up to what stops it. -/
theorem dropWhile_run {p : Char → Bool} {cs rest : List Char} (h : cs.all p = true)
    (hrest : Stops p rest) : (cs ++ rest).dropWhile p = rest := by
  rw [dropWhile_append_stops hrest, List.dropWhile_eq_nil_iff.mpr (by simpa using h),
    List.nil_append]

/-- The first characters of words are none of the characters that tokens of other kinds start
with. -/
theorem isWordStart_ne {c d : Char} (h : R.isWordStart c = true) (hd : d.toNat ≤ 127)
    (hd₁ : d ≠ '_') (hd₂ : d.isAlpha = false) : c ≠ d := by
  rintro rfl
  simp only [LexRules.isWordStart, hd₂, Bool.or_false, Bool.or_eq_true, beq_iff_eq, hd₁,
    false_or] at h
  have := R.extendedStart_gt c h
  omega

/-- The three quotes. -/
theorem isQuote_cases {c : Char} (h : isQuote R c = true) : c = '\'' ∨ c = '"' ∨ c = '`' := by
  simp only [isQuote, Bool.or_eq_true, beq_iff_eq, List.contains_iff_mem] at h
  rcases h with h | h
  · exact .inl h
  · exact .inr (R.quotes_subset c h)

/-- A comment starts with a minus or a slash. -/
theorem startsComment_cons {c : Char} {cs : List Char} (h₁ : c ≠ '-') (h₂ : c ≠ '/') :
    startsComment (c :: cs) = false := by
  unfold startsComment
  split <;> simp_all

/-- A word is read up to the first character that is not part of one. -/
theorem lex_word {c : Char} {cs rest : List Char} (hc : R.isWordStart c = true)
    (hcs : cs.all R.isWordPart = true) (hrest : Stops R.isWordPart rest) :
    lex R (c :: cs ++ rest) = ⟨.word, c :: cs⟩ :: lex R rest := by
  have hne : ∀ d : Char, d.toNat ≤ 127 → d ≠ '_' → d.isAlpha = false → c ≠ d := fun d =>
    isWordStart_ne R hc
  have hspace : isSpace c = false := by simp [isSpace, hne]
  have hquote : isQuote R c = false := by
    by_contra h
    rcases isQuote_cases R (by simpa using h) with h | h | h
    · exact hne _ (by decide) (by decide) (by decide) h
    · exact hne _ (by decide) (by decide) (by decide) h
    · exact hne _ (by decide) (by decide) (by decide) h
  have hcomment : startsComment (c :: (cs ++ rest)) = false :=
    startsComment_cons (hne _ (by decide) (by decide) (by decide))
      (hne _ (by decide) (by decide) (by decide))
  rw [List.cons_append, lex_token R hspace hcomment]
  simp only [lexToken, hquote, hc, Bool.false_eq_true, if_false, if_true,
    takeWhile_run hcs hrest, dropWhile_run hcs hrest]

/-- A character that starts neither a comment, a quoted text, a word nor a number. -/
def isPlain (c : Char) : Bool :=
  !isSpace c && c != '-' && c != '/' && c != '\'' && c != '"' && c != '`' && c != '_' &&
    !c.isAlpha && !c.isDigit && c.toNat ≤ 127

/-- A plain character starts no word. -/
theorem isWordStart_of_isPlain {c : Char} (h : isPlain c = true) : R.isWordStart c = false := by
  by_contra hw
  simp only [isPlain, Bool.and_eq_true, bne_iff_ne, Bool.not_eq_true', decide_eq_true_eq] at h
  exact isWordStart_ne R (by simpa using hw) h.2 h.1.1.1.2 h.1.1.2 rfl

/-- A plain character is no quote. -/
theorem isQuote_of_isPlain {c : Char} (h : isPlain c = true) : isQuote R c = false := by
  by_contra hq
  rcases isQuote_cases R (by simpa using hq) with rfl | rfl | rfl <;> cases h

/-- Punctuation is plain, and no dollar sign. -/
theorem isPlain_of_isPunctuation {c : Char} (hc : isPunctuation c = true) :
    isPlain c = true ∧ c ≠ '$' := by
  simp only [isPunctuation, Bool.or_eq_true, beq_iff_eq] at hc
  rcases hc with ((((((((rfl | rfl) | rfl) | rfl) | rfl) | rfl) | rfl) | rfl) | rfl) | rfl <;>
    decide

/-- Punctuation is a token by itself. -/
theorem lexToken_punctuation {c : Char} {cs : List Char} (hc : isPunctuation c = true)
    (hnum : startsNumber (c :: cs) = false) : lexToken R (c :: cs) = (⟨.symbol, [c]⟩, cs) := by
  obtain ⟨hp, hdollar⟩ := isPlain_of_isPunctuation hc
  simp [lexToken, isQuote_of_isPlain R hp, isWordStart_of_isPlain R hp, hnum, hdollar, hc]

/-- Punctuation is a token by itself; a dot is, unless a digit follows. -/
theorem lex_punctuation {c : Char} {cs : List Char} (hc : isPunctuation c = true)
    (hnum : startsNumber (c :: cs) = false) : lex R (c :: cs) = ⟨.symbol, [c]⟩ :: lex R cs := by
  have hp := (isPlain_of_isPunctuation hc).1
  simp only [isPlain, Bool.and_eq_true, bne_iff_ne, Bool.not_eq_true'] at hp
  rw [lex_token R hp.1.1.1.1.1.1.1.1.1 (startsComment_cons hp.1.1.1.1.1.1.1.1.2 hp.1.1.1.1.1.1.1.2),
    lexToken_punctuation R hc hnum]

/-- A quoted text is read up to its closing quote. -/
theorem lex_quoted {c : Char} {cs body rest : List Char} (hc : isQuote R c = true)
    (hscan : scanQuoted R.escapes c cs = some (body, rest)) :
    lex R (c :: cs) = ⟨quotedKind c, c :: body⟩ :: lex R rest := by
  have hne : isSpace c = false ∧ c ≠ '-' ∧ c ≠ '/' := by
    rcases isQuote_cases R hc with rfl | rfl | rfl <;> decide
  rw [lex_token R hne.1 (startsComment_cons hne.2.1 hne.2.2)]
  simp [lexToken, hc, hscan]

/-- A quoted text that is not closed is an error up to the end. -/
theorem lex_unclosed {c : Char} {cs : List Char} (hc : isQuote R c = true)
    (hscan : scanQuoted R.escapes c cs = none) : lex R (c :: cs) = [⟨.error, c :: cs⟩] := by
  have hne : isSpace c = false ∧ c ≠ '-' ∧ c ≠ '/' := by
    rcases isQuote_cases R hc with rfl | rfl | rfl <;> decide
  rw [lex_token R hne.1 (startsComment_cons hne.2.1 hne.2.2)]
  simp [lexToken, hc, hscan]

/-- A digit is none of the characters that tokens of other kinds start with. -/
theorem isDigit_ne {c d : Char} (h : c.isDigit = true) (hd : d.isDigit = false) : c ≠ d := by
  rintro rfl
  rw [h] at hd
  cases hd

/-- A digit is no letter. -/
theorem isAlpha_of_isDigit {c : Char} (h : c.isDigit = true) : c.isAlpha = false := by
  simp only [Char.isDigit, Bool.and_eq_true, decide_eq_true_eq, ge_iff_le,
    UInt32.le_iff_toNat_le] at h
  change (decide (c.val ≥ 'A'.val ∧ c.val ≤ 'Z'.val) ||
    (decide (c.val ≥ 'a'.val) && decide (c.val ≤ 'z'.val))) = false
  simp only [Bool.or_eq_false_iff, Bool.and_eq_false_iff, decide_eq_false_iff_not, ge_iff_le,
    UInt32.le_iff_toNat_le]
  have h1 : '9'.val.toNat = 57 := rfl
  have h2 : 'A'.val.toNat = 65 := rfl
  have h3 : 'a'.val.toNat = 97 := rfl
  omega

/-- A digit is an ASCII character. -/
theorem toNat_le_of_isDigit {c : Char} (h : c.isDigit = true) : c.toNat ≤ 127 := by
  simp only [Char.isDigit, Bool.and_eq_true, decide_eq_true_eq, ge_iff_le,
    UInt32.le_iff_toNat_le] at h
  have h1 : '9'.val.toNat = 57 := rfl
  have h2 : c.toNat = c.val.toNat := rfl
  omega

/-- A digit starts no word. -/
theorem isWordStart_of_isDigit {c : Char} (h : c.isDigit = true) : R.isWordStart c = false := by
  by_contra hw
  exact isWordStart_ne R (by simpa using hw) (toNat_le_of_isDigit h) (isDigit_ne h (by decide))
    (isAlpha_of_isDigit h) rfl

/-- A number is read as the scanner reads it. -/
theorem lex_number {cs : List Char} (h : startsNumber cs = true) :
    lex R cs = ⟨.number, (scanNumber cs).1⟩ :: lex R (scanNumber cs).2 := by
  cases cs with
  | nil => cases h
  | cons c cs =>
    have hc : c = '.' ∨ c.isDigit = true := by
      unfold startsNumber at h
      split at h <;> simp_all
    -- A point or a digit is no blank, no sign and no slash.
    have hne : ∀ d : Char, d ≠ '.' → d.isDigit = false → c ≠ d := by
      intro d hd hdigit
      rcases hc with rfl | hc
      · exact hd.symm
      · exact isDigit_ne hc hdigit
    have hspace : isSpace c = false := by simp [isSpace, hne]
    -- So it starts neither a quote nor a word.
    have hquote : isQuote R c = false := by
      by_contra hq
      rcases isQuote_cases R (by simpa using hq) with rfl | rfl | rfl <;> simp_all [Char.isDigit]
    have hword : R.isWordStart c = false := by
      rcases hc with rfl | hc
      · exact isWordStart_of_isPlain R (by decide)
      · exact isWordStart_of_isDigit R hc
    rw [lex_token R hspace (startsComment_cons (hne _ (by decide) (by decide))
      (hne _ (by decide) (by decide)))]
    simp [lexToken, hquote, hword, h]

/-- The characters that end every token that is not quoted. -/
def isBoundary (c : Char) : Bool :=
  [' ', ')', ',', ']', '(', '[', '\x7d', ':'].contains c

/-- A rest of the text that no token before it reaches into. -/
abbrev Safe (rest : List Char) : Prop := Stops (fun c => !isBoundary c) rest

/-- A boundary stops what no boundary has. -/
theorem Safe.stops {rest : List Char} (h : Safe rest) {p : Char → Bool}
    (hp : ∀ c, isBoundary c = true → p c = false) : Stops p rest := fun c hc =>
  hp c (by simpa using h c hc)

/-- The boundaries. -/
theorem isBoundary_cases {c : Char} (h : isBoundary c = true) :
    c = ' ' ∨ c = ')' ∨ c = ',' ∨ c = ']' ∨ c = '(' ∨ c = '[' ∨ c = '\x7d' ∨ c = ':' := by
  simpa [isBoundary] using h

/-- A boundary stops a word. -/
theorem Safe.stops_wordPart {rest : List Char} (h : Safe rest) : Stops R.isWordPart rest := by
  refine h.stops fun c hc => ?_
  have hstart : R.isWordStart c = false := by
    by_contra hw
    rcases isBoundary_cases hc with rfl | rfl | rfl | rfl | rfl | rfl | rfl | rfl <;>
      exact isWordStart_ne R (by simpa using hw) (by decide) (by decide) (by decide) rfl
  rcases isBoundary_cases hc with
    rfl | rfl | rfl | rfl | rfl | rfl | rfl | rfl <;> simp [LexRules.isWordPart, hstart]

/-- A boundary stops digits. -/
theorem Safe.stops_digit {rest : List Char} (h : Safe rest) : Stops Char.isDigit rest :=
  h.stops fun c hc => by
    rcases isBoundary_cases hc with rfl | rfl | rfl | rfl | rfl | rfl | rfl | rfl <;> decide

/-- A boundary stops an operator. -/
theorem Safe.stops_operator {rest : List Char} (h : Safe rest) : Stops R.isOperator rest := by
  refine h.stops fun c hc => ?_
  by_contra ho
  have := R.mem_operatorChars c (by simpa using ho)
  rcases isBoundary_cases hc with
    rfl | rfl | rfl | rfl | rfl | rfl | rfl | rfl <;> revert this <;> decide

/-- A fraction ends at a boundary. -/
theorem scanFraction_safe {rest : List Char} (h : Safe rest) (cs : List Char) :
    scanFraction (cs ++ rest) = ((scanFraction cs).1, (scanFraction cs).2 ++ rest) := by
  rcases cs with _ | ⟨c, cs⟩
  · rcases rest with _ | ⟨c, rest⟩
    · rfl
    · rcases isBoundary_cases (by simpa using h c (by simp)) with
        rfl | rfl | rfl | rfl | rfl | rfl | rfl | rfl <;> rfl
  · by_cases hc : c = '.'
    · subst hc
      simp [scanFraction, takeWhile_append_stops h.stops_digit,
        dropWhile_append_stops h.stops_digit]
    · simp [scanFraction, hc]

/-- An exponent ends at a boundary. -/
theorem scanExponent_safe {rest : List Char} (h : Safe rest) (cs : List Char) :
    scanExponent (cs ++ rest) = ((scanExponent cs).1, (scanExponent cs).2 ++ rest) := by
  rcases cs with _ | ⟨e, _ | ⟨c, cs⟩⟩
  · rcases rest with _ | ⟨c, _ | ⟨d, rest⟩⟩
    · rfl
    · rfl
    · rcases isBoundary_cases (by simpa using h c (by simp)) with
        rfl | rfl | rfl | rfl | rfl | rfl | rfl | rfl <;>
        simp [scanExponent]
  · -- A lone `e` is not an exponent, and no boundary character makes it one.
    rcases rest with _ | ⟨c, rest⟩
    · rfl
    · rcases isBoundary_cases (by simpa using h c (by simp)) with
        rfl | rfl | rfl | rfl | rfl | rfl | rfl | rfl <;>
        simp [scanExponent, Char.isDigit]
  · simp only [List.cons_append, scanExponent, takeWhile_append_stops h.stops_digit,
      dropWhile_append_stops h.stops_digit]
    split_ifs <;> rfl

/-- A number ends at a boundary. -/
theorem scanNumber_safe {rest : List Char} (h : Safe rest) (cs : List Char) :
    scanNumber (cs ++ rest) = ((scanNumber cs).1, (scanNumber cs).2 ++ rest) := by
  simp only [scanNumber, takeWhile_append_stops h.stops_digit, dropWhile_append_stops h.stops_digit,
    scanFraction_safe h, scanExponent_safe h]

/-- The texts that are one number. -/
def isNumberText (cs : List Char) : Bool := startsNumber cs && (scanNumber cs).2.isEmpty

/-- A text that is one number is read as one before a boundary. -/
theorem lex_numberText {cs rest : List Char} (h : isNumberText cs = true) (hrest : Safe rest) :
    lex R (cs ++ rest) = ⟨.number, cs⟩ :: lex R rest := by
  simp only [isNumberText, Bool.and_eq_true, List.isEmpty_iff] at h
  have hstart : startsNumber (cs ++ rest) = true := by
    have hs := h.1
    unfold startsNumber at hs
    split at hs
    · simpa [startsNumber] using hs
    · rename_i c tl hdot
      rcases hc : decide (c = '.') with _ | _
      · simp only [decide_eq_false_iff_not] at hc
        simpa [startsNumber, hc] using hs
      · simp only [decide_eq_true_eq] at hc
        subst hc
        cases hs
    · cases hs
  have happ := scanNumber_append cs
  rw [h.2, List.append_nil] at happ
  rw [lex_number R hstart, scanNumber_safe hrest, happ, h.2, List.nil_append]

/-- The first characters of standard operators start no token of another kind. -/
theorem operator_first {c : Char} (h : c ∈ ['+', '-', '*', '/', '<', '>', '=']) (cs : List Char) :
    isSpace c = false ∧ isQuote R c = false ∧ R.isWordStart c = false ∧
      startsNumber (c :: cs) = false ∧ (c == '$') = false ∧ isPunctuation c = false ∧
      R.isOperator c = true := by
  have hstd := R.isOperator_standard c h
  simp only [List.mem_cons, List.not_mem_nil, or_false] at h
  have hne : c.toNat ≤ 127 ∧ c ≠ '_' ∧ c.isAlpha = false ∧ c ≠ '\'' ∧ c ≠ '"' ∧ c ≠ '`' := by
    rcases h with rfl | rfl | rfl | rfl | rfl | rfl | rfl <;> decide
  have hword : R.isWordStart c = false := by
    by_contra hw
    exact isWordStart_ne R (by simpa using hw) hne.1 hne.2.1 hne.2.2.1 rfl
  have hquote : isQuote R c = false := by
    by_contra hq
    rcases isQuote_cases R (by simpa using hq) with hq | hq | hq <;> simp_all
  refine ⟨?_, hquote, hword, ?_, ?_, ?_, hstd⟩ <;>
    rcases h with rfl | rfl | rfl | rfl | rfl | rfl | rfl <;> rfl

/-- A sign or operator character opens no comment before a character that is no operator. -/
theorem startsComment_of_stops {c : Char} {rest : List Char} (hrest : Stops R.isOperator rest) :
    startsComment (c :: rest) = false := by
  have hstd := R.isOperator_standard
  rcases rest with _ | ⟨d, rest⟩
  · unfold startsComment
    split <;> simp_all
  · have hd := hrest d (by simp)
    have h₁ : d ≠ '-' := by rintro rfl; simp [hstd] at hd
    have h₂ : d ≠ '*' := by rintro rfl; simp [hstd] at hd
    unfold startsComment
    split <;> simp_all

/-- A standard operator is a token before a character that is not part of one. -/
theorem lex_operator {op rest : List Char} (hop : op ∈ standardOperators)
    (hrest : Stops R.isOperator rest) : lex R (op ++ rest) = ⟨.symbol, op⟩ :: lex R rest := by
  have hstandard : ∀ op ∈ standardOperators,
      op.all (['+', '-', '*', '/', '<', '>', '='].contains ·) = true := by decide
  -- A standard operator is of operator characters of either backend.
  have hall : ∀ c ∈ op, c ∈ ['+', '-', '*', '/', '<', '>', '='] := fun c hc => by
    simpa using List.all_eq_true.mp (hstandard op hop) c hc
  -- The run of operator characters is the operator itself.
  have hrun : (op ++ rest).takeWhile R.isOperator = op := by
    refine takeWhile_run (List.all_eq_true.mpr fun c hc => ?_) hrest
    exact R.isOperator_standard c (hall c hc)
  have hcomment : startsComment (op ++ rest) = false := by
    simp only [standardOperators, List.mem_cons, List.not_mem_nil, or_false] at hop
    rcases hop with rfl | rfl | rfl | rfl | rfl | rfl | rfl | rfl | rfl | rfl
    all_goals first
      | exact startsComment_of_stops R hrest
      | exact startsComment_cons (by decide) (by decide)
  have hlen := R.operatorLength_standard op hop
  rcases op with _ | ⟨c, cs⟩
  · exact absurd hop (by decide)
  · obtain ⟨h₁, h₂, h₃, h₄, h₅, h₆, h₇⟩ :=
      operator_first R (hall c (by simp)) (cs ++ rest)
    rw [List.cons_append] at hrun hcomment ⊢
    rw [lex_token R h₁ hcomment]
    simp [lexToken, h₂, h₃, h₄, h₅, h₆, h₇, hrun, hlen]

/-- A sign before signs and a character that is not an operator is a token, unless it opens a
comment. -/
theorem lex_sign {c : Char} {signs rest : List Char} (hc : isSign c = true)
    (hsigns : signs.all isSign = true) (hrest : Stops R.isOperator rest)
    (hcomment : startsComment (c :: (signs ++ rest)) = false) :
    lex R (c :: (signs ++ rest)) = ⟨.symbol, [c]⟩ :: lex R (signs ++ rest) := by
  have hsign : ∀ d, isSign d = true → d ∈ ['+', '-', '*', '/', '<', '>', '='] := by
    intro d hd
    simp only [isSign, Bool.or_eq_true, beq_iff_eq] at hd
    rcases hd with rfl | rfl <;> decide
  have hall : ∀ d ∈ c :: signs, isSign d = true := by
    simpa [hc] using hsigns
  have hrun : (c :: (signs ++ rest)).takeWhile R.isOperator = c :: signs := by
    rw [← List.cons_append]
    refine takeWhile_run (List.all_eq_true.mpr fun d hd => ?_) hrest
    exact R.isOperator_standard d (hsign d (hall d hd))
  obtain ⟨h₁, h₂, h₃, h₄, h₅, h₆, h₇⟩ := operator_first R (hsign c hc) (signs ++ rest)
  rw [lex_token R h₁ hcomment]
  simp [lexToken, h₂, h₃, h₄, h₅, h₆, h₇, hrun, R.operatorLength_signs c signs hall]

end Sql
