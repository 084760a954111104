import QueryFabric.Dialect.Kept
import QueryFabric.Dialect.PlainTokens

/-!
# What the SyQL rewriting preserves

`Preserves` says that the rewritten text has the tokens and the comments of the input, without a
leading EXPLAIN and the directives and with `SELECT *` in front when the first token is FROM, for
any tokenizer that goes by white space. It does so exactly when the input is `Harmless`
(`preserves_iff`): the rewriting goes by trimmed lines, so that a line comment takes in the lines
after it and a line break within a literal or a comment becomes a space.
-/

namespace QueryFabric.Dialect

open Sql

/-! ## Directives -/

/-- The directive lines, each with what is kept before it. -/
def lineDirectives (before : List Char) : List (List Char) → List (List Char × List Char)
  | [] => []
  | line :: lines =>
    if isDirectiveLine line then (before, line) :: lineDirectives (before ++ ['\n']) lines
    else lineDirectives (before ++ line ++ ['\n']) lines

/-- The directives at the end of the last line that is not blank, with what is kept before them. -/
def endDirectives (before : List Char) : List (List Char) → List (List Char × List Char)
  | [] => []
  | line :: lines =>
    if lines.all isBlank then
      if stripTrailingDirective (trim line) = none then []
      else [(before ++ cutLine line, line.drop (cutLine line).length)]
    else endDirectives (before ++ line ++ ['\n']) lines

/-- The directives of the input, each with what is kept before it. -/
def directives (input : List Char) : List (List Char × List Char) :=
  lineDirectives [] (bodyLines input) ++ endDirectives [] ((bodyLines input).map keptLine)

/-- Whether the input starts with EXPLAIN and white space, or is EXPLAIN. -/
def explainFirst (input : List Char) : Bool :=
  "EXPLAIN".toList.isPrefixOf (toAsciiUppercase (trimStart input)) &&
    breaks ((trimStart input).drop 7)

/-- Whether the first line that is left starts with FROM and a space. -/
def fromLine (input : List Char) : Bool :=
  (texts (keptLines input)).head?.any fun text => "FROM ".toList.isPrefixOf (toAsciiUppercase text)

variable (T : Tokenizer isWhitespace)

/-- Whether the first token of a text is a keyword. -/
def FirstToken (keyword : String) (text : List Char) : Prop :=
  (T.firstToken text).map toAsciiUppercase = some keyword.toList

/-- Whether a keyword is the first token is decided by the tokenizer. -/
instance (keyword : String) (text : List Char) : Decidable (FirstToken T keyword text) :=
  inferInstanceAs (Decidable (_ = _))

/-- Neither a literal nor a comment reaches into a directive or out of it. -/
def Outside (directive : List Char × List Char) : Prop :=
  T.complete directive.1 = true ∧ T.complete (directive.2 ++ ['\n']) = true

/-- The tokens and comments of a text, after `SELECT *` when its first token is FROM. -/
def selectLexemes (text : List Char) : Option (List Lexeme) :=
  (T.lexemes text).map fun ls =>
    if FirstToken T "FROM" text then ⟨false, "SELECT".toList⟩ :: ⟨false, "*".toList⟩ :: ls else ls

/-- The rewriting takes off an EXPLAIN that is the first token, takes only directives out that are
outside of literals and comments, and keeps the tokens and the comments of the rest. -/
structure Preserves (input : List Char) : Prop where
  explain : (parseSyql input).explain = true ↔ FirstToken T "EXPLAIN" input
  outside : ∀ directive ∈ directives input, Outside T directive
  tokens : T.lexemes (parseSyql input).sourceMap.rewrittenSql = selectLexemes T (keptText input)

/-- White space follows EXPLAIN, directives are outside of literals and comments, nothing is read
after a line comment, which does not end in white space, no token or comment holds a line break, and
a space follows FROM on the first line. -/
structure Harmless (input : List Char) : Prop where
  explain : FirstToken T "EXPLAIN" input → explainFirst input = true
  outside : ∀ directive ∈ directives input, Outside T directive
  comments : Tokenizer.quiet isWhitespace (T.events (keptText input)) = true
  lines : ∀ ls, T.lexemes (keptText input) = some ls → ∀ l ∈ ls, '\n' ∉ l.text
  from_ : (T.lexemes (keptText input)).isSome → FirstToken T "FROM" (keptText input) →
    fromLine input = true

/-! ## EXPLAIN -/

/-- A text starts with an `EXPLAIN` of its own where the word is followed by a break. -/
theorem explainFirst_iff (input : List Char) : explainFirst input = true ↔
    "EXPLAIN".toList <+: toAsciiUppercase (trimStart input) ∧
    breaks ((trimStart input).drop 7) = true := by
  unfold explainFirst
  rw [Bool.and_eq_true, List.isPrefixOf_iff_prefix]

/-- What is taken off before the lines are read. -/
theorem stripLeadingExplain_spec (input : List Char) :
    (stripLeadingExplain input).1 = explainFirst input ∧
    (stripLeadingExplain input).2.1 =
      if explainFirst input then trimStart ((trimStart input).drop 7) else trimStart input := by
  have hiff := explainFirst_iff input
  generalize explainFirst input = explain at hiff
  unfold stripLeadingExplain
  dsimp only
  by_cases hall : toAsciiUppercase (trimStart input) = "EXPLAIN".toList
  · -- EXPLAIN alone is an EXPLAIN that nothing follows.
    have hlength := congrArg List.length hall
    rw [length_toAsciiUppercase] at hlength
    have hdrop : (trimStart input).drop 7 = [] := List.drop_eq_nil_of_le (Nat.le_of_eq hlength)
    obtain rfl : explain = true := hiff.mpr ⟨hall ▸ List.prefix_rfl, by rw [hdrop]; rfl⟩
    rw [if_pos hall, hdrop]
    exact ⟨rfl, rfl⟩
  · rw [if_neg hall]
    by_cases hstart : "EXPLAIN".toList <+: toAsciiUppercase (trimStart input) ∧
        breaks ((trimStart input).drop 7) = true
    · obtain rfl : explain = true := hiff.mpr hstart
      rw [if_pos hstart]
      exact ⟨rfl, rfl⟩
    · obtain rfl : explain = false := Bool.eq_false_iff.mpr fun h => hstart (hiff.mp h)
      rw [if_neg hstart]
      exact ⟨rfl, rfl⟩

/-- The flag that `parse_syql` sets is the one read off the start of the text. -/
theorem explain_eq (input : List Char) : (parseSyql input).explain = explainFirst input :=
  (stripLeadingExplain_spec input).1

/-- A text whose upper case form is letters is letters. -/
theorem all_isAlpha_of_toAsciiUppercase {w : List Char}
    (h : (toAsciiUppercase w).all Char.isAlpha = true) :
    w.all Char.isAlpha = true := by
  rw [List.all_eq_true] at h ⊢
  intro c hc
  have hupper := h c.toUpper (List.mem_map_of_mem hc)
  obtain hsame | ⟨-, hlower⟩ := toUpper_cases c
  · rwa [hsame] at hupper
  · show (c.isUpper || c.isLower) = true
    rw [hlower, Bool.or_true]

/-- A token can end before a text that starts with a break. -/
theorem endsHere_eq_breaks (rest : List Char) : endsHere isWhitespace rest = breaks rest := by
  cases rest <;> rfl

/-- A keyword in any case is read as a token when white space follows. -/
theorem lexemes_keyword {keyword : String} {w rest : List Char}
    (hkeyword : keyword.toList.all Char.isAlpha = true)
    (hw : toAsciiUppercase w = keyword.toList) (hne : w ≠ [])
    (hrest : endsHere isWhitespace rest = true) :
    T.lexemes (w ++ rest) = (T.lexemes rest).map (⟨false, w⟩ :: ·) ∧
    FirstToken T keyword (w ++ rest) := by
  have halpha := all_isAlpha_of_toAsciiUppercase (by rw [hw]; exact hkeyword)
  obtain ⟨hlexemes, hfirst⟩ := T.lexemes_word hne halpha hrest
  refine ⟨hlexemes, ?_⟩
  rw [FirstToken, hfirst, Option.map_some, hw]

/-- Trimming takes whitespace off the start of a text. -/
theorem trimStart_spec (text : List Char) : ∃ gap, gap.all isWhitespace = true ∧
    text = gap ++ trimStart text :=
  ⟨text.takeWhile isWhitespace, List.all_takeWhile, List.takeWhile_append_dropWhile.symm⟩

/-- Whitespace at the start of a text gives no token. -/
theorem lexemes_trimStart (text : List Char) : T.lexemes (trimStart text) = T.lexemes text := by
  obtain ⟨gap, hgap, htext⟩ := trimStart_spec text
  have h := T.lexemes_spaces hgap (trimStart text)
  rw [← htext] at h
  exact h.symm

/-- Whitespace at the start of a text changes no first token. -/
theorem firstToken_trimStart (text : List Char) :
    T.firstToken (trimStart text) = T.firstToken text := by
  obtain ⟨gap, hgap, htext⟩ := trimStart_spec text
  have h := T.firstToken_spaces hgap (trimStart text)
  rw [← htext] at h
  exact h.symm

/-- An EXPLAIN that is taken off is read as the first token. -/
theorem lexemes_explain {input : List Char} (h : explainFirst input = true) : ∃ w,
    toAsciiUppercase w = "EXPLAIN".toList ∧
    T.lexemes input = (T.lexemes ((trimStart input).drop 7)).map (⟨false, w⟩ :: ·) ∧
    FirstToken T "EXPLAIN" input := by
  obtain ⟨hstart, hbreaks⟩ := (explainFirst_iff input).mp h
  have hw : toAsciiUppercase ((trimStart input).take 7) = "EXPLAIN".toList := by
    rw [toAsciiUppercase, List.map_take]
    exact (List.prefix_iff_eq_take.mp hstart).symm
  have hne : (trimStart input).take 7 ≠ [] := by
    intro hnil
    rw [hnil] at hw
    cases hw
  obtain ⟨hlexemes, hfirst⟩ :=
    lexemes_keyword T (by decide) hw hne ((endsHere_eq_breaks _).trans hbreaks)
  rw [List.take_append_drop] at hlexemes hfirst
  rw [lexemes_trimStart] at hlexemes
  rw [FirstToken, firstToken_trimStart] at hfirst
  exact ⟨_, hw, hlexemes, hfirst⟩

/-- Nothing but a leading EXPLAIN is taken off the tokens and comments of the input before its lines
are read. -/
theorem lexemes_body (input : List Char) : ∃ explain : List Lexeme,
    explain.map (fun l => toAsciiUppercase l.text) =
      (if explainFirst input then ["EXPLAIN".toList] else []) ∧
    T.lexemes input = (T.lexemes (stripLeadingExplain input).2.1).map (explain ++ ·) := by
  rw [(stripLeadingExplain_spec input).2]
  split_ifs with h
  · obtain ⟨w, hw, hread, -⟩ := lexemes_explain T h
    refine ⟨[⟨false, w⟩], by rw [List.map_singleton, hw], ?_⟩
    rw [lexemes_trimStart, hread]
    rfl
  · refine ⟨[], rfl, ?_⟩
    rw [lexemes_trimStart]
    simp

/-! ## Tokens -/

/-- Whitespace at the start of a text changes no event. -/
theorem events_trimStart (text : List Char) : T.events (trimStart text) = T.events text := by
  obtain ⟨gap, hgap, htext⟩ := trimStart_spec text
  have h := T.events_spaces hgap (trimStart text)
  rw [← htext] at h
  exact h.symm

/-- The first fragment starts with `FROM` as the first kept line does. -/
theorem fromFirst_eq (input : List Char) : fromFirst (syqlFragments input) = fromLine input := by
  unfold fromLine
  rw [← texts_keptLines, List.head?_map]
  unfold fromFirst
  cases (syqlFragments input).head? <;> rfl

/-- A text that starts with FROM and a space in any case. -/
theorem from_spec {text : List Char} (h : "FROM ".toList <+: toAsciiUppercase text) :
    ∃ w rest, toAsciiUppercase w = "FROM".toList ∧ text = w ++ ' ' :: rest := by
  obtain ⟨more, hmore⟩ := h
  have hsplit : toAsciiUppercase text = "FROM".toList ++ ' ' :: more := hmore.symm
  obtain ⟨w, rest, rfl, hw, hrest⟩ := List.map_eq_append_iff.mp hsplit
  obtain ⟨c, rest, rfl, hc, -⟩ := List.map_eq_cons_iff.mp hrest
  refine ⟨w, rest, hw, ?_⟩
  obtain hsame | ⟨hupper, -⟩ := toUpper_cases c
  · rw [← hsame, hc]
  · rw [hc] at hupper
    cases hupper

/-- A FROM that the first line starts with is the first token. -/
theorem firstToken_of_fromLine {input : List Char} (h : fromLine input = true) :
    FirstToken T "FROM" (keptText input) := by
  have hjoined := joined_keptText input
  unfold fromLine at h
  cases htexts : texts (keptLines input) with
  | nil =>
    rw [htexts] at h
    cases h
  | cons text more =>
    rw [htexts, List.head?_cons, Option.any_some, List.isPrefixOf_iff_prefix] at h
    obtain ⟨w, rest, hw, rfl⟩ := from_spec h
    rw [htexts, intercalate_eq_flatMap, List.append_assoc, List.cons_append] at hjoined
    have halpha := all_isAlpha_of_toAsciiUppercase (by rw [hw]; decide)
    have hsolid : ∀ c ∈ w, isWhitespace c = false :=
      fun c hc => T.isSpace_alpha c (List.all_eq_true.mp halpha c hc)
    obtain ⟨rest', heq, hrest⟩ := hjoined.word_left hsolid T.isSpace_space
    have hne : w ≠ [] := by
      rintro rfl
      cases hw
    obtain ⟨-, hfirst⟩ := lexemes_keyword T (by decide) hw hne hrest
    rwa [← heq, FirstToken, firstToken_trimStart] at hfirst

/-- `SELECT *` in front is read as two tokens. -/
theorem lexemes_select (text : List Char) : T.lexemes ("SELECT * ".toList ++ text) =
    (T.lexemes text).map fun ls => ⟨false, "SELECT".toList⟩ :: ⟨false, "*".toList⟩ :: ls := by
  have hspace : ∀ rest, endsHere isWhitespace ([' '] ++ rest) = true := fun rest => T.isSpace_space
  have hgap : [' '].all isWhitespace = true := by decide
  have happ : "SELECT * ".toList ++ text = "SELECT".toList ++
      ([' '] ++ '*' :: ([' '] ++ text)) := rfl
  rw [happ, (T.lexemes_word (by decide) (by decide) (hspace _)).1, T.lexemes_spaces hgap,
    T.lexemes_star (hspace text), T.lexemes_spaces hgap, Option.map_map]
  rfl

/-- The tokens and the comments are preserved exactly when nothing follows a line comment, it does
not end in white space, none of them holds a line break, and a FROM that is the first token is
seen. -/
theorem lexemes_rewritten_iff (input : List Char) :
    T.lexemes (parseSyql input).sourceMap.rewrittenSql = selectLexemes T (keptText input) ↔
      Tokenizer.quiet isWhitespace (T.events (keptText input)) = true ∧
      (∀ ls, T.lexemes (keptText input) = some ls → ∀ l ∈ ls, '\n' ∉ l.text) ∧
      ((T.lexemes (keptText input)).isSome → FirstToken T "FROM" (keptText input) →
        fromLine input = true) := by
  have hjoined := joined_keptText input
  have hsolid := endsSolid_texts (keptLines input)
  have hiff := T.lexemes_joined_iff hjoined hsolid
  rw [lexemes_trimStart, events_trimStart] at hiff
  rw [rewrittenSql_eq, fromFirst_eq, ← and_assoc, ← hiff]
  unfold selectLexemes
  by_cases hfrom : fromLine input = true
  · have hinj : Function.Injective fun ls : List Lexeme =>
        (⟨false, "SELECT".toList⟩ :: ⟨false, "*".toList⟩ :: ls : List Lexeme) := fun a b hab =>
      (List.cons.inj (List.cons.inj hab).2).2
    rw [if_pos hfrom, lexemes_select]
    simp only [if_pos (firstToken_of_fromLine T hfrom)]
    rw [(Option.map_injective hinj).eq_iff]
    exact ⟨fun h => ⟨h, fun _ _ => hfrom⟩, fun h => h.1⟩
  · rw [if_neg hfrom, List.nil_append]
    by_cases hfirst : FirstToken T "FROM" (keptText input)
    · simp only [if_pos hfirst]
      cases hkept : T.lexemes (keptText input) with
      | none => simp
      | some ls =>
        -- Joining adds no tokens, so that `SELECT *` is missing.
        refine iff_of_false (fun h => ?_) fun h => hfrom (h.2 rfl hfirst)
        have hkept' : T.lexemes (trimStart (keptText input)) = some ls := by
          rw [lexemes_trimStart, hkept]
        have hle := T.length_lexemes_joined_le hjoined hsolid hkept' h
        rw [List.length_cons, List.length_cons] at hle
        omega
    · simp only [if_neg hfirst, Option.map_id']
      exact ⟨fun h => ⟨h, fun _ hf => absurd hf hfirst⟩, fun h => h.1⟩

/-- The rewriting preserves the tokens and the comments exactly when it can do no harm. -/
theorem preserves_iff (input : List Char) : Preserves T input ↔ Harmless T input := by
  have hexplain := explain_eq input
  have htokens := lexemes_rewritten_iff T input
  constructor
  · intro h
    obtain ⟨hcomments, hlines, hfrom⟩ := htokens.mp h.tokens
    exact ⟨fun hfirst => hexplain ▸ h.explain.mpr hfirst, h.outside, hcomments, hlines, hfrom⟩
  · intro h
    refine ⟨?_, h.outside, htokens.mpr ⟨h.comments, h.lines, h.from_⟩⟩
    rw [hexplain]
    exact ⟨fun hfirst => (lexemes_explain T hfirst).choose_spec.2.2, h.explain⟩

/-- The line comment takes in the line after it. -/
theorem not_preserves_lineComment :
    ¬Preserves plainTokenizer "SELECT 1 -- c\nFROM t".toList := fun h =>
  absurd h.tokens (by decide)

/-! ## Without directives -/

/-- Lines without a directive are kept as they are. -/
theorem lineDirectives_eq_nil {before : List Char} {lines : List (List Char)}
    (h : lineDirectives before lines = []) :
    lines.map keptLine = lines := by
  induction lines generalizing before with
  | nil => rfl
  | cons line lines ih =>
    rw [lineDirectives] at h
    split_ifs at h with hdirective
    rw [List.map_cons, ih h, keptLine, if_neg hdirective]

/-- Lines without a directive at their end lose nothing at the last cut. -/
theorem endDirectives_eq_nil {before : List Char} {lines : List (List Char)}
    (h : endDirectives before lines = []) :
    cutLast lines = lines := by
  induction lines generalizing before with
  | nil => rfl
  | cons line lines ih =>
    rw [endDirectives] at h
    rw [cutLast]
    split_ifs at h ⊢ with hblank hnone
    · rw [cutLine, if_pos hnone]
    · rw [ih h]

/-- Without directives all of the input is kept that the generic dialect hands to the parser. -/
theorem keptText_of_directives {input : List Char} (h : directives input = []) :
    keptText input = (stripLeadingExplain input).2.1 := by
  obtain ⟨hlines, hend⟩ := List.append_eq_nil_iff.mp h
  have hmap := lineDirectives_eq_nil hlines
  rw [hmap] at hend
  rw [keptText, keptLines, hmap, endDirectives_eq_nil hend, bodyLines, List.intercalate_splitOn]

/-- A harmless query without directives that does not start with FROM is read as the generic dialect
reads it. -/
theorem lexemes_of_directives {input : List Char} (h : Harmless T input)
    (hdirectives : directives input = [])
    (hfrom : ¬FirstToken T "FROM" (keptText input)) :
    T.lexemes (parseSyql input).sourceMap.rewrittenSql =
      T.lexemes (SourceMap.identity (stripLeadingExplain input).2.1
        (stripLeadingExplain input).2.2).rewrittenSql := by
  have htokens := ((preserves_iff T input).mpr h).tokens
  have hbody : (SourceMap.identity (stripLeadingExplain input).2.1
    (stripLeadingExplain input).2.2).rewrittenSql =
      (stripLeadingExplain input).2.1 := rfl
  unfold selectLexemes at htokens
  simp only [if_neg hfrom, Option.map_id'] at htokens
  rw [htokens, hbody, keptText_of_directives hdirectives]

end QueryFabric.Dialect
