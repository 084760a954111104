import QueryFabric.Render.Helpers
import QueryFabric.Sql.Dialects

/-!
# Quoted literals and names

The renderer quotes by doubling quotes, on both backends, and so does `render_table_identifier` of
the ClickHouse driver. `readsBack_iff` says which values survive: on Postgres all of them, on
ClickHouse those in which no backslash starts an escape.
-/

namespace QueryFabric.Render

open Sql

/-- The lexical rules of a backend. -/
def SqlBackend.rules : SqlBackend → LexRules
  | clickHouse => clickHouseRules
  | postgres => postgresRules

/-- The segment of a table name as `render_table_identifier` writes it. -/
def renderTableSegment (segment : String) : String :=
  if isPlainWord segment then segment else quoted '`' segment

/-- `render_table_identifier` of the ClickHouse driver, with the message of its error. -/
def renderTableIdentifier (tableFqn : String) : Except String String :=
  if tableFqn == "" || tableFqn.toList.any isControl then
    .error "table names must be non-empty and contain no control characters"
  else if (splitDots tableFqn).any fun segment => segment == "" then
    .error "qualified table names cannot contain empty segments"
  else .ok (".".intercalate ((splitDots tableFqn).map renderTableSegment))

/-! ## Doubled quotes -/


/-- Doubled quotes are twice as many. -/
theorem count_doubleQuotes (q : Char) : ∀ cs, (doubleQuotes q cs).count q = 2 * cs.count q
  | [] => rfl
  | c :: cs => by
    rw [doubleQuotes]
    have ih := count_doubleQuotes q cs
    split_ifs with h
    · subst h
      simp only [List.count_cons_self, ih]
      omega
    · rw [List.count_cons_of_ne h, List.count_cons_of_ne h, ih]

/-- A text with doubled quotes is as much longer. -/
theorem length_doubleQuotes (q : Char) : ∀ cs, (doubleQuotes q cs).length = cs.length + cs.count q
  | [] => rfl
  | c :: cs => by
    rw [doubleQuotes]
    have ih := length_doubleQuotes q cs
    split_ifs with h
    · subst h
      simp only [List.count_cons_self, List.length_cons, ih]
      omega
    · rw [List.count_cons_of_ne h, List.length_cons, List.length_cons, ih]
      omega

/-- Other characters are not doubled. -/
theorem doubleQuotes_cons_of_ne {q c : Char} (h : c ≠ q) (cs : List Char) :
    doubleQuotes q (c :: cs) = c :: doubleQuotes q cs := by
  rw [doubleQuotes, if_neg h]

/-- Doubling the quotes puts no character between a backslash and the one after it. -/
theorem escapeFree_doubleQuotes {q : Char} (hq : q ∈ quoteChars) (cs : List Char) :
    escapeFree (doubleQuotes q cs) = escapeFree cs := by
  obtain ⟨hq₁, -, hq₃, -⟩ := quote_facts hq
  fun_induction escapeFree cs with
  | case1 => rfl
  | case2 => rw [doubleQuotes_cons_of_ne hq₁.symm]; rfl
  | case3 c cs ih =>
    rw [doubleQuotes_cons_of_ne hq₁.symm, doubleQuotes]
    split_ifs with hc
    · subst hc
      simp [escapeFree, hq₃]
    · simp [escapeFree, ih]
  -- The character is no backslash: it would have been one of the first cases.
  | case4 c cs h₁ h₂ ih =>
    have hc : c ≠ '\\' := by
      rintro rfl
      cases cs with
      | nil => exact h₁ rfl rfl
      | cons d ds => exact h₂ d ds rfl rfl
    rw [doubleQuotes]
    split_ifs with hcq
    · subst hcq
      rw [escapeFree_cons hc, escapeFree_cons hc, ih]
    · rw [escapeFree_cons hc, ih]

section Steps

variable {escapes : Bool} {q : Char}

/-- Doubled quotes are decoded to one. -/
theorem decodeQuoted_doubled (cs : List Char) :
    decodeQuoted escapes q (q :: q :: cs) = (decodeQuoted escapes q cs).map (q :: ·) := by
  simp [decodeQuoted]

/-- Plain characters are decoded to themselves. -/
theorem decodeQuoted_plain {c : Char} (hc : c ≠ q) (hesc : escapes = true → c ≠ '\\')
    (cs : List Char) : decodeQuoted escapes q (c :: cs) =
      (decodeQuoted escapes q cs).map (c :: ·) := by
  have : (escapes && c == '\\') = false := by cases escapes <;> simp_all
  rw [decodeQuoted.eq_def]
  simp [hc, this]

/-- A backslash before a character that it does not escape is kept. -/
theorem decodeQuoted_inactive (hq : q ≠ '\\') {d : Char} (hd : isActiveEscape d = false)
    (cs : List Char) :
    decodeQuoted true q ('\\' :: d :: cs) = (decodeQuoted true q cs).map (['\\', d] ++ ·) := by
  have hx : d ≠ 'x' := by rintro rfl; revert hd; decide
  have hv : escapeValue d = ['\\', d] := by simp [escapeValue, hd]
  rw [decodeQuoted.eq_def]
  simp only [hq.symm, if_false, Bool.true_and, beq_self_eq_true, if_true]
  split <;> simp_all

/-- Doubled quotes do not close a text. -/
theorem scanQuoted_doubled (cs : List Char) :
    scanQuoted escapes q (q :: q :: cs) =
      (scanQuoted escapes q cs).map fun p => (q :: q :: p.1, p.2) := by
  simp [scanQuoted]

/-- Plain characters do not close a text. -/
theorem scanQuoted_plain {c : Char} (hc : c ≠ q) (hesc : escapes = true → c ≠ '\\')
    (cs : List Char) :
    scanQuoted escapes q (c :: cs) = (scanQuoted escapes q cs).map fun p => (c :: p.1, p.2) := by
  have : (escapes && c == '\\') = false := by cases escapes <;> simp_all
  rw [scanQuoted.eq_def]
  simp [hc, this]

/-- Escaped characters do not close a text. -/
theorem scanQuoted_escaped (hq : q ≠ '\\') (d : Char) (cs : List Char) :
    scanQuoted true q ('\\' :: d :: cs) =
      (scanQuoted true q cs).map fun p => ('\\' :: d :: p.1, p.2) := by
  rw [scanQuoted.eq_def]
  simp [hq.symm]

/-- A quote closes a text that no other quote follows. -/
theorem scanQuoted_close {rest : List Char} (hrest : Stops (· == q) rest) :
    scanQuoted escapes q (q :: rest) = some ([q], rest) := by
  rcases rest with _ | ⟨c, rest⟩
  · simp [scanQuoted]
  · have hc : c ≠ q := by simpa using hrest c (by simp)
    simp [scanQuoted, hc]

end Steps

/-- A doubled text is read up to the closing quote, and decodes to the text, unless a backslash
escapes something in it. -/
theorem read_doubleQuotes {escapes : Bool} {q : Char} (hq : q ∈ quoteChars) (cs : List Char)
    (h : escapes = true → escapeFree cs = true) {rest : List Char} (hrest : Stops (· == q) rest) :
    decodeQuoted escapes q (doubleQuotes q cs) = some cs ∧
      scanQuoted escapes q (doubleQuotes q cs ++ q :: rest) =
        some (doubleQuotes q cs ++ [q], rest) := by
  obtain ⟨hq₁, -, hq₃, -⟩ := quote_facts hq
  -- One character that no escape touches.
  have hstep : ∀ (c : Char) (cs : List Char), (escapes = true → c ≠ '\\') →
      (decodeQuoted escapes q (doubleQuotes q cs) = some cs ∧
        scanQuoted escapes q (doubleQuotes q cs ++ q :: rest) =
          some (doubleQuotes q cs ++ [q], rest)) →
      decodeQuoted escapes q (doubleQuotes q (c :: cs)) = some (c :: cs) ∧
        scanQuoted escapes q (doubleQuotes q (c :: cs) ++ q :: rest) =
          some (doubleQuotes q (c :: cs) ++ [q], rest) := by
    rintro c cs hc ⟨ihd, ihs⟩
    by_cases hcq : c = q
    · subst hcq
      rw [doubleQuotes, if_pos rfl]
      simp [decodeQuoted_doubled, scanQuoted_doubled, ihd, ihs]
    · rw [doubleQuotes_cons_of_ne hcq]
      simp [decodeQuoted_plain hcq hc, scanQuoted_plain hcq hc, ihd, ihs]
  fun_induction escapeFree cs with
  | case1 => exact ⟨rfl, scanQuoted_close hrest⟩
  | case2 =>
    refine hstep _ _ ?_ ⟨rfl, scanQuoted_close hrest⟩
    rintro rfl
    simp at h
  | case3 c cs ih =>
    cases escapes with
    | false => exact hstep _ _ (by simp) (hstep _ _ (by simp) (ih (by simp)))
    | true =>
      have hc := h rfl
      simp only [Bool.and_eq_true, Bool.not_eq_true'] at hc
      obtain ⟨ihd, ihs⟩ := ih fun _ => hc.2
      have hcq : c ≠ q := by rintro rfl; simp [hq₃] at hc
      rw [doubleQuotes_cons_of_ne hq₁.symm, doubleQuotes_cons_of_ne hcq]
      simp [decodeQuoted_inactive hq₁ hc.1, scanQuoted_escaped hq₁, ihd, ihs]
  | case4 c cs h₁ h₂ ih =>
    refine hstep _ _ (fun _ => ?_) (ih h)
    rintro rfl
    cases cs with
    | nil => exact h₁ rfl rfl
    | cons d ds => exact h₂ d ds rfl rfl

/-- A doubled text decodes to the text only when no backslash escapes anything in it. -/
theorem escapeFree_of_decodeQuoted {q : Char} (hq : q ∈ quoteChars) {cs : List Char}
    (h : decodeQuoted true q (doubleQuotes q cs) = some cs) : escapeFree cs = true := by
  have hlen := length_decodeQuoted hq h
  rw [length_doubleQuotes, count_doubleQuotes, escapeFree_doubleQuotes hq] at hlen
  by_contra hne
  rw [Bool.not_eq_true] at hne
  simp [hne] at hlen
  omega

/-! ## What a backend reads -/

/-- The value of a token: a word is its text, and a quoted token is decoded between its quotes. -/
def tokenValue (R : LexRules) (token : Token) : Option (List Char) :=
  match token.kind, token.text with
  | .word, text => some text
  | .string, quote :: text => decodeQuoted R.escapes quote text.dropLast
  | .identifier, quote :: text => decodeQuoted R.escapes quote text.dropLast
  | _, _ => none

/-- The text is one token, and its value is the given one. -/
def readsBack (R : LexRules) (text value : String) : Bool :=
  match lex R text.toList with
  | [token] => tokenValue R token == some value.toList
  | _ => false

/-- The characters of a plain word, as a dialect reads them. -/
theorem plainWord_facts (R : LexRules) {value : String} (h : isPlainWord value = true) :
    ∃ c cs, value.toList = c :: cs ∧ isIdentifierStart c = true ∧ R.isWordStart c = true ∧
      cs.all R.isWordPart = true ∧ '\\' ∉ value.toList := by
  unfold isPlainWord at h
  cases hv : value.toList with
  | nil => simp [hv] at h
  | cons c cs =>
    simp only [hv, Bool.and_eq_true] at h
    refine ⟨c, cs, rfl, h.1, ?_, List.all_eq_true.mpr fun d hd => ?_, fun hmem => ?_⟩
    · have := h.1
      simp only [isIdentifierStart, Bool.or_eq_true] at this
      simp only [LexRules.isWordStart, Bool.or_eq_true]
      grind
    · have := List.all_eq_true.mp h.2 d hd
      simp only [isIdentifierPart, Char.isAlphanum, Bool.or_eq_true] at this
      simp only [LexRules.isWordPart, LexRules.isWordStart, Bool.or_eq_true]
      grind
    · rcases List.mem_cons.mp hmem with rfl | hmem
      · exact absurd h.1 (by decide)
      · exact absurd (List.all_eq_true.mp h.2 _ hmem) (by decide)

/-- A plain word is one token, whose value is itself. -/
theorem readsBack_plainWord (R : LexRules) {value : String} (h : isPlainWord value = true) :
    readsBack R value value = true := by
  obtain ⟨c, cs, hv, -, hstart, hparts, -⟩ := plainWord_facts R h
  have hlex := lex_word R hstart hparts (Stops.nil _)
  rw [List.append_nil, lex_nil] at hlex
  simp [readsBack, hv, hlex, tokenValue]

/-- Without backslashes a text is free of escapes. -/
theorem escapeFree_of_not_mem : ∀ {cs : List Char}, '\\' ∉ cs → escapeFree cs = true
  | [], _ => rfl
  | c :: cs, h => by
    simp only [List.mem_cons, not_or] at h
    rw [escapeFree_cons (Ne.symm h.1), escapeFree_of_not_mem h.2]

/-- A word has no backslash. -/
theorem escapeFree_plainWord {value : String} (h : isPlainWord value = true) :
    escapeFree value.toList = true := by
  obtain ⟨c, cs, -, -, -, -, hb⟩ := plainWord_facts postgresRules h
  exact escapeFree_of_not_mem hb

/-- What the scanner reads ends in the closing quote. -/
theorem scanQuoted_eq_append {escapes : Bool} {q : Char} {cs body rest : List Char}
    (h : scanQuoted escapes q cs = some (body, rest)) : ∃ inner, body = inner ++ [q] := by
  fun_induction scanQuoted escapes q cs generalizing body rest with
  | case1 => cases h
  | case2 => cases h; exact ⟨[], rfl⟩
  | case4 => cases h; exact ⟨[], rfl⟩
  | case5 => cases h
  | case3 ds ih =>
    obtain ⟨p, hp, heq⟩ := Option.map_eq_some_iff.mp h
    obtain ⟨inner, hinner⟩ := ih hp
    cases heq
    exact ⟨q :: q :: inner, by simp [hinner]⟩
  | case6 c _ _ d ds ih =>
    obtain ⟨p, hp, heq⟩ := Option.map_eq_some_iff.mp h
    obtain ⟨inner, hinner⟩ := ih hp
    cases heq
    exact ⟨c :: d :: inner, by simp [hinner]⟩
  | case7 c cs _ _ ih =>
    obtain ⟨p, hp, heq⟩ := Option.map_eq_some_iff.mp h
    obtain ⟨inner, hinner⟩ := ih hp
    cases heq
    exact ⟨c :: inner, by simp [hinner]⟩

/-- The value of a quoted token is decoded between its quotes. -/
theorem tokenValue_quoted (R : LexRules) (q : Char) (inner : List Char) :
    tokenValue R ⟨quotedKind q, q :: (inner ++ [q])⟩ = decodeQuoted R.escapes q inner := by
  unfold tokenValue quotedKind
  split_ifs <;> simp

/-- A text that closes before its last quote decodes to less than was quoted. -/
theorem rest_eq_nil_of_decodeQuoted {escapes : Bool} {q : Char} (hq : q ∈ quoteChars)
    {value inner rest : List Char} (happ : inner ++ [q] ++ rest = doubleQuotes q value ++ [q])
    (h : decodeQuoted escapes q inner = some value) : rest = [] := by
  have hlen := congrArg List.length happ
  have hcount := congrArg (List.count q) happ
  have hdecode := length_decodeQuoted hq h
  have hle := rest.count_le_length (a := q)
  simp only [List.length_append, List.count_append, List.length_singleton,
    List.count_singleton_self, length_doubleQuotes, count_doubleQuotes] at hlen hcount
  exact List.length_eq_zero_iff.mp (by omega)

/-- A quoted value is one token that decodes to it exactly when no backslash escapes anything. -/
theorem readsBack_quoted_iff {R : LexRules} {q : Char} (hq : isQuote R q = true) (value : String) :
    readsBack R (quoted q value) value = true ↔
      (R.escapes = true → escapeFree value.toList = true) := by
  have hmem : q ∈ quoteChars := by
    rcases isQuote_cases R hq with rfl | rfl | rfl <;> decide
  have htext : (quoted q value).toList = q :: (doubleQuotes q value.toList ++ [q]) := by
    simp [quoted]
  rw [readsBack, htext]
  constructor
  · intro h hesc
    cases hscan : scanQuoted R.escapes q (doubleQuotes q value.toList ++ [q]) with
    | none =>
      -- The text is not closed: it is read as an error.
      rw [lex_unclosed R hq hscan] at h
      simp [tokenValue] at h
    | some p =>
      obtain ⟨body, rest⟩ := p
      obtain ⟨inner, rfl⟩ := scanQuoted_eq_append hscan
      have happ := append_of_scanQuoted hscan
      rw [lex_quoted R hq hscan] at h
      cases hrest : lex R rest with
      | cons t ts => simp [hrest] at h
      | nil =>
        simp only [hrest, tokenValue_quoted, beq_iff_eq] at h
        have hnil := rest_eq_nil_of_decodeQuoted hmem happ h
        subst hnil
        rw [List.append_nil, List.append_cancel_right_eq] at happ
        rw [happ, hesc] at h
        exact escapeFree_of_decodeQuoted hmem h
  · intro h
    obtain ⟨hdecode, hscan⟩ := read_doubleQuotes hmem value.toList h (Stops.nil _)
    rw [lex_quoted R hq hscan]
    simp [tokenValue_quoted, hdecode]

/-- The texts that stand for literals and names in what is sent to a backend, with their values. -/
inductive EmittedText : SqlBackend → String → String → Prop
  | literal (backend : SqlBackend) (value : String) :
    EmittedText backend value (renderLiteral (.utf8 value))
  | identifier (backend : SqlBackend) (value text : String) :
    renderIdentifier backend value = .ok text → EmittedText backend value text
  | tableSegment (tableFqn text segment : String) :
    renderTableIdentifier tableFqn = .ok text → segment ∈ splitDots tableFqn →
    EmittedText .clickHouse segment (renderTableSegment segment)

/-- A literal or name is read back as one token with its value exactly when, on ClickHouse, no
backslash in it starts an escape. -/
theorem readsBack_iff {backend : SqlBackend} {value text : String}
    (h : EmittedText backend value text) :
    readsBack backend.rules text value = true ↔
      (backend = .clickHouse → escapeFree value.toList = true) := by
  have hesc : backend.rules.escapes = true ↔ backend = .clickHouse := by
    cases backend <;> decide
  -- A plain word is written as it is, and has no backslash.
  have hword : isPlainWord value = true → (readsBack backend.rules value value = true ↔
      (backend = .clickHouse → escapeFree value.toList = true)) := by
    intro hw
    simp [readsBack_plainWord _ hw, escapeFree_plainWord hw]
  -- Everything else is quoted, where only ClickHouse reads escapes.
  cases h with
  | literal =>
    rw [← hesc]
    exact readsBack_quoted_iff (by cases backend <;> decide) value
  | identifier _ _ _ hok =>
    unfold renderIdentifier at hok
    split_ifs at hok with hid hsimple
    · cases hok
      exact hword (by simp only [isSimpleIdentifier, Bool.and_eq_true] at hsimple; exact hsimple.2)
    · cases hok
      rw [← hesc]
      exact readsBack_quoted_iff (by cases backend <;> decide) value
  | tableSegment tableFqn full _ _ =>
    rw [renderTableSegment]
    split_ifs with hw
    · exact hword hw
    · rw [← hesc]
      exact readsBack_quoted_iff (by decide) value

/-- A literal with a quote and a backslash that escapes nothing is read back. -/
theorem readsBack_percent :
    EmittedText .clickHouse "it's 100\\%" "'it''s 100\\%'" ∧
      readsBack clickHouseRules "'it''s 100\\%'" "it's 100\\%" = true :=
  ⟨.literal .clickHouse "it's 100\\%", (readsBack_iff (.literal .clickHouse "it's 100\\%")).mpr
    (by decide)⟩

/-- On ClickHouse the backslash escapes the doubled quote: the literal ends early, and the rest of
its value is read as SQL. -/
theorem literal_not_readsBack :
    EmittedText .clickHouse "\\' OR 1 = 1 --" (renderLiteral (.utf8 "\\' OR 1 = 1 --")) ∧
      readsBack clickHouseRules (renderLiteral (.utf8 "\\' OR 1 = 1 --")) "\\' OR 1 = 1 --" =
        false ∧
      lex clickHouseRules (renderLiteral (.utf8 "\\' OR 1 = 1 --")).toList =
        [⟨.string, ['\'', '\\', '\'', '\'']⟩, ⟨.word, ['O', 'R']⟩, ⟨.number, ['1']⟩,
          ⟨.symbol, ['=']⟩, ⟨.number, ['1']⟩] :=
  ⟨.literal _ _, by decide +kernel, by decide +kernel⟩

end QueryFabric.Render
