import QueryFabric.Sql.Lexer

/-!
# Tokenizers and line breaks

A tokenizer of SQL text that is known by what it does with white space: it skips white space, it
knows how far the token or block comment that a text starts with reaches, and which white space
stands where there is some makes no difference to that. `events` is the reading of a text: its
tokens and comments in order, and a failure where a literal or a block comment does not end.

When the line breaks of a text are joined, each with the white space around it, into one space
(`Joined`), the reading stays the same up to the first line comment, which then takes in all that
follows (`reads_joined`). So the tokens and the comments are the same exactly when none of them
holds a line break and nothing follows a line comment (`lexemes_joined_iff`).
-/

namespace Sql

/-- A text and what becomes of it when its line breaks are joined: each of them, with the white
space around it, is one space, or nothing at the end. -/
inductive Joined (isSpace : Char → Bool) : List Char → List Char → Prop
  | char {c : Char} {s t : List Char} (hc : c ≠ '\n') (h : Joined isSpace s t) :
    Joined isSpace (c :: s) (c :: t)
  | gap {gap s t : List Char} (hgap : gap.all isSpace = true) (hfeed : '\n' ∈ gap)
    (h : Joined isSpace s t) :
    Joined isSpace (gap ++ s) (' ' :: t)
  | trail {gap : List Char} (hgap : gap.all isSpace = true) : Joined isSpace gap []

section Joined

variable {isSpace : Char → Bool}

/-- A joined text has no line feed. -/
theorem Joined.not_mem {s t : List Char} (h : Joined isSpace s t) : '\n' ∉ t := by
  induction h with
  | char hc h ih =>
    rw [List.mem_cons, not_or]
    exact ⟨hc.symm, ih⟩
  | gap hgap hfeed h ih =>
    rw [List.mem_cons, not_or]
    exact ⟨by decide, ih⟩
  | trail hgap => exact List.not_mem_nil

/-- Only white space becomes nothing. -/
theorem Joined.blank_of_nil {s : List Char} (h : Joined isSpace s []) : s.all isSpace = true := by
  cases h with
  | trail hgap => exact hgap

/-- What is joined of spaces is spaces. -/
theorem Joined.all_isSpace {s t : List Char} (h : Joined isSpace s t) (hspace : isSpace ' ' = true)
    (hs : s.all isSpace = true) : t.all isSpace = true := by
  induction h with
  | char hc h ih =>
    rw [List.all_cons, Bool.and_eq_true] at hs ⊢
    exact ⟨hs.1, ih hs.2⟩
  | gap hgap hfeed h ih =>
    rw [List.all_append, Bool.and_eq_true] at hs
    rw [List.all_cons, hspace, ih hs.2]
    rfl
  | trail hgap => rfl

/-- Whether a text is empty or starts with white space. -/
def endsHere (isSpace : Char → Bool) (rest : List Char) : Bool := rest.head?.all isSpace

/-- A word before a space has been a word before white space. -/
theorem Joined.word_left {w s t : List Char} (hw : ∀ c ∈ w, isSpace c = false)
    (hspace : isSpace ' ' = true) (h : Joined isSpace s (w ++ ' ' :: t)) : ∃ rest, s = w ++ rest ∧
    endsHere isSpace rest = true := by
  induction w generalizing s with
  -- The word is over, and so it is before the joining.
  | nil =>
    rw [List.nil_append] at h
    refine ⟨s, rfl, ?_⟩
    cases h with
    | char hc h => exact hspace
    | gap hgap hfeed h =>
      rename_i gap s
      obtain ⟨c, gap, rfl⟩ := List.exists_cons_of_ne_nil (List.ne_nil_of_mem hfeed)
      rw [List.all_cons, Bool.and_eq_true] at hgap
      exact hgap.1
  | cons c w ih =>
    rw [List.forall_mem_cons] at hw
    rw [List.cons_append] at h
    generalize w ++ ' ' :: t = t' at h ih
    cases h with
    | char hc h =>
      obtain ⟨rest, rfl, hrest⟩ := ih hw.2 h
      exact ⟨rest, rfl, hrest⟩
    -- A gap is read as a blank, which is no character of the word.
    | gap hgap hfeed h =>
      rw [hspace] at hw
      cases hw.1

/-- Whether a text does not end in white space. -/
def endsSolid (isSpace : Char → Bool) (text : List Char) : Bool :=
  text.getLast?.all fun c => !isSpace c

/-- The end of a solid text is solid. -/
theorem endsSolid_of_suffix {s t : List Char} (h : t <:+ s) (hs : endsSolid isSpace s = true) :
    endsSolid isSpace t = true := by
  obtain ⟨before, rfl⟩ := h
  obtain rfl | ⟨init, c, rfl⟩ := t.eq_nil_or_concat'
  · rfl
  · unfold endsSolid at hs ⊢
    rwa [← List.append_assoc, List.getLast?_concat, ← List.getLast?_concat (l := init)] at hs

/-- A text that ends in white space only when it is empty. -/
theorem eq_nil_of_endsSolid {text : List Char} (h : endsSolid isSpace text = true)
    (hall : text.all isSpace = true) :
    text = [] := by
  obtain rfl | ⟨init, c, rfl⟩ := text.eq_nil_or_concat'
  · rfl
  · have hc : isSpace c = true := List.all_eq_true.mp hall c (by simp)
    unfold endsSolid at h
    rw [List.getLast?_concat, Option.all_some, hc] at h
    cases h

/-- A text without line breaks that does not end in white space stays as it is. -/
theorem Joined.eq_of_not_mem {s t : List Char} (h : Joined isSpace s t) (hfeed : '\n' ∉ s)
    (hsolid : endsSolid isSpace s = true) : s = t := by
  induction h with
  | char hc h ih =>
    rename_i c s t
    rw [List.mem_cons, not_or] at hfeed
    exact congrArg (c :: ·) (ih hfeed.2 (endsSolid_of_suffix (List.suffix_cons c s) hsolid))
  | gap hgap hmem h ih => exact absurd (List.mem_append_left _ hmem) hfeed
  | trail hgap => exact eq_nil_of_endsSolid hsolid hgap

/-- A character other than white space is the first on both sides or on none. -/
theorem Joined.head_iff {s t : List Char} (h : Joined isSpace s t) {d : Char}
    (hd : isSpace d = false) (hspace : d ≠ ' ') : s.head? = some d ↔ t.head? = some d := by
  cases h with
  | char hc h => exact Iff.rfl
  | gap hgap hfeed h =>
    rename_i gap s t
    cases gap with
    | nil => cases hfeed
    | cons c gap =>
      have hc : isSpace c = true := by
        rw [List.all_cons, Bool.and_eq_true] at hgap
        exact hgap.1
      refine iff_of_false (fun heq => ?_) fun heq => hspace (Option.some.inj heq).symm
      obtain rfl := Option.some.inj heq
      rw [hc] at hd
      cases hd
  | trail hgap =>
    refine iff_of_false (fun heq => ?_) fun heq => by cases heq
    rw [List.all_eq_true] at hgap
    rw [hgap d (List.mem_of_mem_head? heq)] at hd
    cases hd

/-- What is before white space at the end stays as it is, when no white space is left at the end. -/
theorem Joined.eq_of_blank_end {u gap t : List Char} (h : Joined isSpace (u ++ gap) t)
    (hspace : isSpace ' ' = true)
    (hfeed : '\n' ∉ u) (hu : endsSolid isSpace u = true) (hgap : gap.all isSpace = true)
    (ht : endsSolid isSpace t = true) : t = u := by
  induction u generalizing t with
  | nil => exact eq_nil_of_endsSolid ht (h.all_isSpace hspace hgap)
  | cons c u ih =>
    rw [List.mem_cons, not_or] at hfeed
    have hrest := endsSolid_of_suffix (List.suffix_cons c u) hu
    -- The text is not white space up to its end.
    have hblank : ¬(c :: u ++ gap).all isSpace = true := by
      intro hall
      rw [List.all_append, Bool.and_eq_true] at hall
      cases eq_nil_of_endsSolid hu hall.1
    generalize hs : c :: u ++ gap = s at h hblank
    cases h with
    | char hne h =>
      obtain ⟨rfl, rfl⟩ := List.cons.inj hs
      rw [ih h hfeed.2 hrest (endsSolid_of_suffix (List.suffix_cons _ _) ht)]
    | gap hgap' hmem h =>
      rename_i gap' s' t'
      -- The line break is not within what stays, so that the white space before it is.
      obtain ⟨rest, hrest, -⟩ | ⟨rest, hrest, -⟩ := List.append_eq_append_iff.mp hs
      · rw [hrest, List.all_append, Bool.and_eq_true] at hgap'
        cases eq_nil_of_endsSolid hu hgap'.1
      · have hmem' : '\n' ∈ c :: u := by
          rw [hrest]
          exact List.mem_append_left _ hmem
        exact absurd hmem' (by rw [List.mem_cons, not_or]; exact hfeed)
    | trail hall => exact absurd hall hblank

/-- Nothing follows the last line. -/
theorem afterLine_eq_nil {cs : List Char} (h : '\n' ∉ cs) : afterLine cs = [] := by
  induction cs with
  | nil => rfl
  | cons c cs ih =>
    rw [List.mem_cons, not_or] at h
    have hc : (c == '\n') = false := by simpa using fun heq : c = '\n' => h.1 heq.symm
    rw [afterLine, hc, if_neg Bool.false_ne_true, ih h.2]

/-- The rest of a line. -/
def lineText (cs : List Char) : List Char := cs.takeWhile fun c => c != '\n'

/-- The text of a line has no line feed. -/
theorem lineText_not_mem (cs : List Char) : '\n' ∉ lineText cs := fun hmem => by
  have h := List.mem_takeWhile_imp hmem
  cases h

/-- A text without line feeds is one line. -/
theorem lineText_eq_self {cs : List Char} (h : '\n' ∉ cs) : lineText cs = cs := by
  refine List.takeWhile_eq_self_iff.mpr fun c hc => ?_
  rw [bne_iff_ne]
  rintro rfl
  exact h hc

/-- A text is the rest of its line, a line break when there is one, and what follows it. -/
theorem lineText_append (hfeed : isSpace '\n' = true) (cs : List Char) :
    ∃ gap, gap.all isSpace = true ∧ cs = lineText cs ++ (gap ++ afterLine cs) := by
  induction cs with
  | nil => exact ⟨[], rfl, rfl⟩
  | cons c cs ih =>
    obtain ⟨gap, hgap, heq⟩ := ih
    unfold lineText afterLine
    by_cases hc : c = '\n'
    · subst hc
      exact ⟨['\n'], by simpa using hfeed, rfl⟩
    · have hkeep : (c :: cs).takeWhile (fun d => d != '\n') = c :: lineText cs :=
        List.takeWhile_cons_of_pos (by simpa using hc)
      have hbeq : (c == '\n') = false := by simpa using hc
      refine ⟨gap, hgap, ?_⟩
      rw [hkeep, hbeq, if_neg Bool.false_ne_true, List.cons_append]
      exact congrArg (c :: ·) heq

end Joined

/-- Whether a text starts with a line comment. -/
def startsLine : List Char → Bool
  | '-' :: '-' :: _ => true
  | _ => false

/-- Whether a text starts with a block comment. -/
def startsBlock : List Char → Bool
  | '/' :: '*' :: _ => true
  | _ => false

/-- A text and the text that it is joined to are split at places that are joined to each other, or
neither of them is split. -/
def SplitTogether (isSpace : Char → Bool) (s t : List Char) : Option Nat → Option Nat → Prop
  | none, none => True
  | some n, some m => Joined isSpace (s.take n) (t.take m) ∧ Joined isSpace (s.drop n) (t.drop m)
  | _, _ => False

namespace SplitTogether

variable {isSpace : Char → Bool} {s t : List Char} {a b : Option Nat}

/-- Both are split one character later after a character before them. -/
theorem char {c : Char} (hc : c ≠ '\n') (h : SplitTogether isSpace s t a b) :
    SplitTogether isSpace (c :: s) (c :: t) (a.map (· + 1)) (b.map (· + 1)) := by
  cases a <;> cases b
  · trivial
  · cases h
  · cases h
  · exact ⟨Joined.char hc h.1, h.2⟩

/-- Both are split later after white space with a line break, and the space for it. -/
theorem gap {gap : List Char} (hgap : gap.all isSpace = true) (hfeed : '\n' ∈ gap)
    (h : SplitTogether isSpace s t a b) :
    SplitTogether isSpace (gap ++ s) (' ' :: t) (a.map (· + gap.length)) (b.map (· + 1)) := by
  cases a <;> cases b
  · trivial
  · cases h
  · cases h
  · rename_i n m
    have htake : (gap ++ s).take (n + gap.length) = gap ++ s.take n := by
      rw [List.take_append, List.take_of_length_le (Nat.le_add_left _ _), Nat.add_sub_cancel]
    have hdrop : (gap ++ s).drop (n + gap.length) = s.drop n := by
      rw [List.drop_append, List.drop_eq_nil_of_le (Nat.le_add_left _ _), Nat.add_sub_cancel,
        List.nil_append]
    refine ⟨?_, ?_⟩
    · rw [htake]
      exact Joined.gap hgap hfeed h.1
    · rw [hdrop]
      exact h.2

end SplitTogether

/-- A tokenizer, by the reach of its lexemes. -/
structure Tokenizer (isSpace : Char → Bool) where
  /-- How far the token or block comment reaches that a text starts with, if it ends. -/
  lexemeLength : List Char → Option Nat
  lexemeLength_bounds : ∀ cs n, lexemeLength cs = some n → 0 < n ∧ n ≤ cs.length
  /-- A lexeme does not end in white space. -/
  lexemeLength_last : ∀ cs n, lexemeLength cs = some n → endsSolid isSpace (cs.take n) = true
  /-- Joining line breaks leaves lexemes where they are. -/
  lexemeLength_joined : ∀ c s t, isSpace c = false → Joined isSpace s t →
    SplitTogether isSpace (c :: s) (c :: t) (lexemeLength (c :: s)) (lexemeLength (c :: t))
  /-- A run of letters before white space is a token, and so is a star. -/
  lexemeLength_word : ∀ w rest, w ≠ [] → w.all Char.isAlpha = true → endsHere isSpace rest = true →
    lexemeLength (w ++ rest) = some w.length
  lexemeLength_star : ∀ rest, endsHere isSpace rest = true → lexemeLength ('*' :: rest) = some 1
  isSpace_space : isSpace ' ' = true
  isSpace_feed : isSpace '\n' = true
  isSpace_alpha : ∀ c, c.isAlpha = true → isSpace c = false
  isSpace_mark : ∀ c ∈ ['-', '/', '*'], isSpace c = false

/-- A token or a comment. -/
structure Lexeme where
  isComment : Bool
  text : List Char
deriving DecidableEq, Repr

/-- What is read of a text: a token or block comment, a line comment with whether a line break ends
it, or a failure. -/
inductive Event
  | lexeme (block : Bool) (text : List Char)
  | lineComment (text : List Char) (closed : Bool)
  | failure
deriving DecidableEq, Repr

namespace Event

/-- The token or comment that is read. -/
def lexeme? : Event → Option Lexeme
  | lexeme block text => some ⟨block, text⟩
  | lineComment text _ => some ⟨true, text⟩
  | failure => none

/-- The text of a token. -/
def token? : Event → Option (List Char)
  | lexeme false text => some text
  | _ => none

end Event

namespace Tokenizer

variable {isSpace : Char → Bool} (T : Tokenizer isSpace)

/-- What is read of a text, with fuel. -/
def eventsFuel : Nat → List Char → List Event
  | 0, _ => []
  | _ + 1, [] => []
  | fuel + 1, c :: cs =>
    if isSpace c then eventsFuel fuel cs
    else if startsLine (c :: cs) then
      .lineComment (c :: lineText cs) (decide ('\n' ∈ cs)) :: eventsFuel fuel (afterLine cs)
    else
      match T.lexemeLength (c :: cs) with
      | none => [.failure]
      | some n =>
        .lexeme (startsBlock (c :: cs)) ((c :: cs).take n) :: eventsFuel fuel ((c :: cs).drop n)

/-- What is read of a text. -/
def events (cs : List Char) : List Event := T.eventsFuel cs.length cs

/-- The tokens and comments that have been read, unless reading has failed. -/
def readLexemes (es : List Event) : Option (List Lexeme) :=
  if .failure ∈ es then none else some (es.filterMap Event.lexeme?)

/-- The tokens and comments of a text, unless its reading fails. -/
def lexemes (cs : List Char) : Option (List Lexeme) := readLexemes (T.events cs)

/-- The first token of a text, if it is read. -/
def firstToken (cs : List Char) : Option (List Char) := (T.events cs).findSome? Event.token?

/-- Whether a text ends outside of literals and comments. -/
def complete (cs : List Char) : Bool :=
  (T.events cs).all fun e =>
    match e with
    | .lexeme _ _ => true
    | .lineComment _ closed => closed
    | .failure => false

/-- Whether nothing is read after a line comment, which does not end in white space. -/
def quiet (isSpace : Char → Bool) : List Event → Bool
  | [] => true
  | .lineComment text _ :: es => es.isEmpty && endsSolid isSpace text
  | _ :: es => quiet isSpace es

/-! ## Reading from the left -/

/-- The fuel does not matter, if there is enough of it. -/
theorem eventsFuel_eq_eventsFuel : ∀ (m n : Nat) (cs : List Char), cs.length ≤ m → cs.length ≤ n →
    T.eventsFuel m cs = T.eventsFuel n cs
  | 0, 0, _, _, _ => rfl
  | 0, n + 1, [], _, _ => rfl
  | m + 1, 0, [], _, _ => rfl
  | m + 1, n + 1, [], _, _ => rfl
  | m + 1, n + 1, c :: cs, hm, hn => by
    rw [List.length_cons] at hm hn
    have hline := (afterLine_suffix cs).length_le
    -- Whatever is read, the rest is shorter and so within both fuels.
    have hcs := eventsFuel_eq_eventsFuel m n cs (by omega) (by omega)
    have hafter := eventsFuel_eq_eventsFuel m n (afterLine cs) (by omega) (by omega)
    rw [eventsFuel, eventsFuel, hcs, hafter]
    split_ifs
    · rfl
    · rfl
    · split
      · rfl
      · rename_i k hk
        have hpos := (T.lexemeLength_bounds _ k hk).1
        have hdrop : ((c :: cs).drop k).length ≤ cs.length := by
          rw [List.length_drop, List.length_cons]
          omega
        rw [eventsFuel_eq_eventsFuel m n _ (by omega) (by omega)]

/-- An empty text has no events. -/
@[simp]
theorem events_nil : T.events [] = [] := rfl

/-- A space before a text is no event. -/
theorem events_space {c : Char} (hc : isSpace c = true) (cs : List Char) :
    T.events (c :: cs) = T.events cs := by
  rw [events, List.length_cons, eventsFuel, if_pos hc, events]

/-- White space at the start is skipped. -/
theorem events_spaces {gap : List Char} (hgap : gap.all isSpace = true) (cs : List Char) :
    T.events (gap ++ cs) = T.events cs := by
  induction gap with
  | nil => rfl
  | cons c gap ih =>
    rw [List.all_cons, Bool.and_eq_true] at hgap
    rw [List.cons_append, T.events_space hgap.1, ih hgap.2]

/-- Spaces are no events. -/
theorem events_blank {gap : List Char} (hgap : gap.all isSpace = true) : T.events gap = [] := by
  have h := T.events_spaces hgap []
  rwa [List.append_nil, events_nil] at h

/-- A line comment is an event. -/
theorem events_line {cs : List Char} (h : startsLine ('-' :: cs) = true) :
    T.events ('-' :: cs) = .lineComment ('-' :: lineText cs) (decide ('\n' ∈ cs)) ::
      T.events (afterLine cs) := by
  have hle := (afterLine_suffix cs).length_le
  have hspace : isSpace '-' = false := T.isSpace_mark '-' (by simp)
  rw [events, List.length_cons, eventsFuel, if_neg (by simp [hspace]), if_pos h, events]
  rw [T.eventsFuel_eq_eventsFuel cs.length _ _ hle (Nat.le_refl _)]

/-- A text that starts no lexeme fails. -/
theorem events_failure {c : Char} {cs : List Char} (hc : isSpace c = false)
    (hline : startsLine (c :: cs) = false)
    (h : T.lexemeLength (c :: cs) = none) : T.events (c :: cs) = [.failure] := by
  rw [events, List.length_cons, eventsFuel, if_neg (by simp [hc]), if_neg (by simp [hline]), h]

/-- The first lexeme of a text is its first event. -/
theorem events_lexeme {c : Char} {cs : List Char} {n : Nat} (hc : isSpace c = false)
    (hline : startsLine (c :: cs) = false) (h : T.lexemeLength (c :: cs) = some n) :
    T.events (c :: cs) =
      .lexeme (startsBlock (c :: cs)) ((c :: cs).take n) :: T.events ((c :: cs).drop n) := by
  have hpos := (T.lexemeLength_bounds _ n h).1
  have hdrop : ((c :: cs).drop n).length ≤ cs.length := by
    rw [List.length_drop, List.length_cons]
    omega
  rw [events, List.length_cons, eventsFuel, if_neg (by simp [hc]), if_neg (by simp [hline]), h]
  dsimp only
  rw [T.eventsFuel_eq_eventsFuel cs.length _ _ hdrop (Nat.le_refl _), events]

/-- Nothing is read of white space only. -/
theorem events_eq_nil_iff (cs : List Char) : T.events cs = [] ↔ cs.all isSpace = true := by
  refine ⟨fun h => ?_, T.events_blank⟩
  induction cs with
  | nil => rfl
  | cons c cs ih =>
    by_cases hc : isSpace c = true
    · rw [T.events_space hc] at h
      rw [List.all_cons, hc, ih h]
      rfl
    rw [events, List.length_cons, eventsFuel, if_neg hc] at h
    split_ifs at h
    split at h <;> cases h

/-! ## Tokens and comments -/

/-- A lexeme is read with those behind it. -/
@[simp]
theorem readLexemes_lexeme (block : Bool) (u : List Char) (es : List Event) :
    readLexemes (.lexeme block u :: es) = (readLexemes es).map (⟨block, u⟩ :: ·) := by
  unfold readLexemes
  by_cases h : Event.failure ∈ es
  · simp [h]
  · simp [h, Event.lexeme?]

/-- A line comment is read with the lexemes behind it. -/
@[simp]
theorem readLexemes_lineComment (u : List Char) (closed : Bool) (es : List Event) :
    readLexemes (.lineComment u closed :: es) = (readLexemes es).map (⟨true, u⟩ :: ·) := by
  unfold readLexemes
  by_cases h : Event.failure ∈ es
  · simp [h]
  · simp [h, Event.lexeme?]

/-- No lexemes are read of no events only. -/
theorem readLexemes_eq_nil_iff (es : List Event) : readLexemes es = some [] ↔ es = [] := by
  cases es with
  | nil => exact iff_of_true rfl rfl
  | cons e es =>
    cases e with
    | lexeme block u => simp
    | lineComment u closed => simp
    | failure => simp [readLexemes]

/-- A line comment starts with two minuses. -/
theorem startsLine_cons (c : Char) (cs : List Char) :
    startsLine (c :: cs) = (decide (c = '-') && decide (cs.head? = some '-')) := by
  cases cs with
  | nil => simp [startsLine]
  | cons d cs => by_cases hc : c = '-' <;> by_cases hd : d = '-' <;> simp [startsLine, hc, hd]

/-- A block comment starts with a slash and a star. -/
theorem startsBlock_cons (c : Char) (cs : List Char) :
    startsBlock (c :: cs) = (decide (c = '/') && decide (cs.head? = some '*')) := by
  cases cs with
  | nil => simp [startsBlock]
  | cons d cs => by_cases hc : c = '/' <;> by_cases hd : d = '*' <;> simp [startsBlock, hc, hd]

/-- A token at the start of a text that is neither a comment nor white space. -/
theorem lexemes_token {c : Char} {cs : List Char} {n : Nat} (hc : isSpace c = false)
    (hminus : c ≠ '-') (hslash : c ≠ '/') (h : T.lexemeLength (c :: cs) = some n) :
    T.lexemes (c :: cs) = (T.lexemes ((c :: cs).drop n)).map (⟨false, (c :: cs).take n⟩ :: ·) ∧
      T.firstToken (c :: cs) = some ((c :: cs).take n) := by
  have hline : startsLine (c :: cs) = false := by simp [startsLine_cons, hminus]
  have hblock : startsBlock (c :: cs) = false := by simp [startsBlock_cons, hslash]
  have hevents := T.events_lexeme hc hline h
  rw [hblock] at hevents
  constructor
  · rw [lexemes, hevents, readLexemes_lexeme, lexemes]
  · rw [firstToken, hevents]
    rfl

/-- A run of letters before white space is read as a token. -/
theorem lexemes_word {w rest : List Char} (hne : w ≠ []) (hw : w.all Char.isAlpha = true)
    (hrest : endsHere isSpace rest = true) :
    T.lexemes (w ++ rest) = (T.lexemes rest).map (⟨false, w⟩ :: ·) ∧
    T.firstToken (w ++ rest) = some w := by
  obtain ⟨c, cs, rfl⟩ := List.exists_cons_of_ne_nil hne
  have hlength : T.lexemeLength (c :: (cs ++ rest)) = some (c :: cs).length :=
    T.lexemeLength_word (c :: cs) rest hne hw hrest
  have hc : c.isAlpha = true := by
    rw [List.all_cons, Bool.and_eq_true] at hw
    exact hw.1
  have hminus : c ≠ '-' := by
    rintro rfl
    cases hc
  have hslash : c ≠ '/' := by
    rintro rfl
    cases hc
  have hlexeme := T.lexemes_token (T.isSpace_alpha c hc) hminus hslash hlength
  rwa [← List.cons_append, List.take_left, List.drop_left] at hlexeme

/-- A star is a lexeme before what ends it. -/
theorem lexemes_star {rest : List Char} (hrest : endsHere isSpace rest = true) :
    T.lexemes ('*' :: rest) = (T.lexemes rest).map (⟨false, ['*']⟩ :: ·) :=
  (T.lexemes_token (T.isSpace_mark '*' (by simp)) (by decide) (by decide)
    (T.lexemeLength_star rest hrest)).1

/-- Spaces before a text are no lexemes. -/
theorem lexemes_spaces {gap : List Char} (hgap : gap.all isSpace = true) (cs : List Char) :
    T.lexemes (gap ++ cs) = T.lexemes cs := by
  rw [lexemes, T.events_spaces hgap, lexemes]

/-- Spaces before a text are no token. -/
theorem firstToken_spaces {gap : List Char} (hgap : gap.all isSpace = true) (cs : List Char) :
    T.firstToken (gap ++ cs) = T.firstToken cs := by
  rw [firstToken, T.events_spaces hgap, firstToken]

/-! ## Joining line breaks -/

/-- What is read of a text, and what is read when its line breaks are joined: the same lexemes up to
the first line comment, which takes in the rest and is the same comment when there is none. -/
inductive Reads (isSpace : Char → Bool) : List Event → List Event → Prop
  | nil : Reads isSpace [] []
  | failure : Reads isSpace [.failure] [.failure]
  | lexeme (block : Bool) {u v : List Char} {es fs : List Event} (huv : Joined isSpace u v)
    (hlast : endsSolid isSpace u = true) (h : Reads isSpace es fs) :
    Reads isSpace (.lexeme block u :: es) (.lexeme block v :: fs)
  | lineComment (closed : Bool) {u v : List Char} {es : List Event} (hfeed : '\n' ∉ u)
    (huv : es = [] → (v = u ↔ endsSolid isSpace u = true)) :
    Reads isSpace (.lineComment u closed :: es) [.lineComment v false]

/-- Joining line breaks keeps what is read up to the first line comment. -/
theorem reads_joined {s t : List Char} (h : Joined isSpace s t) (ht : endsSolid isSpace t = true) :
    Reads isSpace (T.events s) (T.events t) := by
  induction hn : s.length using Nat.strong_induction_on generalizing s t with
  | _ n ih =>
    subst hn
    cases h with
    | trail hgap =>
      rw [T.events_blank hgap]
      exact Reads.nil
    | gap hgap hfeed h =>
      rename_i gap s t
      rw [T.events_spaces hgap, T.events_space T.isSpace_space]
      refine ih s.length ?_ h (endsSolid_of_suffix (List.suffix_cons _ _) ht) rfl
      have hpos := List.length_pos_of_mem hfeed
      rw [List.length_append]
      omega
    | char hne h =>
      rename_i c s t
      by_cases hc : isSpace c = true
      · rw [T.events_space hc, T.events_space hc]
        exact ih s.length (by simp) h (endsSolid_of_suffix (List.suffix_cons _ _) ht) rfl
      rw [Bool.not_eq_true] at hc
      have hjoined := Joined.char hne h
      -- What a comment starts with is kept.
      have hminus := h.head_iff (T.isSpace_mark '-' (by simp)) (by decide)
      have hstar := h.head_iff (T.isSpace_mark '*' (by simp)) (by decide)
      have hline : startsLine (c :: s) = startsLine (c :: t) := by
        rw [startsLine_cons, startsLine_cons, decide_eq_decide.mpr hminus]
      have hblock : startsBlock (c :: s) = startsBlock (c :: t) := by
        rw [startsBlock_cons, startsBlock_cons, decide_eq_decide.mpr hstar]
      by_cases hcomment : startsLine (c :: s) = true
      · have hcomment' := hline ▸ hcomment
        obtain rfl : c = '-' := by
          rw [startsLine_cons, Bool.and_eq_true] at hcomment
          exact of_decide_eq_true hcomment.1
        rw [T.events_line hcomment, T.events_line hcomment', afterLine_eq_nil h.not_mem, events_nil,
          decide_eq_false h.not_mem, lineText_eq_self h.not_mem]
        have hfeed : '\n' ∉ '-' :: lineText s := by
          rw [List.mem_cons, not_or]
          exact ⟨by decide, lineText_not_mem s⟩
        refine Reads.lineComment _ hfeed fun hnil => ⟨fun heq => heq ▸ ht, fun hsolid => ?_⟩
        -- Only white space follows the comment.
        obtain ⟨gap, hgap, heq⟩ := lineText_append T.isSpace_feed s
        have hblank : (gap ++ afterLine s).all isSpace = true := by
          rw [List.all_append, hgap, (T.events_eq_nil_iff _).mp hnil]
          rfl
        rw [heq, ← List.cons_append] at hjoined
        exact hjoined.eq_of_blank_end T.isSpace_space hfeed hsolid hblank ht
      · rw [Bool.not_eq_true] at hcomment
        have hsplit := T.lexemeLength_joined c s t hc h
        cases hlength : T.lexemeLength (c :: s) <;> cases hm :
          T.lexemeLength (c :: t) <;> rw [hlength, hm] at hsplit
        · rw [T.events_failure hc hcomment hlength, T.events_failure hc (hline ▸ hcomment) hm]
          exact Reads.failure
        · cases hsplit
        · cases hsplit
        · rename_i n m
          obtain ⟨htake, hdrop⟩ := hsplit
          have hpos := (T.lexemeLength_bounds _ n hlength).1
          have hrest := ih _ (by rw [List.length_drop, List.length_cons]; omega) hdrop
            (endsSolid_of_suffix (List.drop_suffix _ _) ht) rfl
          rw [T.events_lexeme hc hcomment hlength, T.events_lexeme hc (hline ▸ hcomment) hm,
            ← hblock]
          exact Reads.lexeme _ htake (T.lexemeLength_last _ n hlength) hrest

/-- The tokens and comments stay the same exactly when nothing follows a line comment, it does not
end in white space, and none of them holds a line break. -/
theorem Reads.readLexemes_iff {es fs : List Event} (h : Reads isSpace es fs) :
    readLexemes fs = readLexemes es ↔
      quiet isSpace es = true ∧ ∀ ls, readLexemes es = some ls → ∀ l ∈ ls, '\n' ∉ l.text := by
  induction h with
  | nil => simp [readLexemes, quiet]
  | failure => simp [readLexemes, quiet]
  -- A lexeme is read alike exactly when it has no line feed.
  | lexeme block huv hlast h ih =>
    rename_i u v es fs
    have hquiet : quiet isSpace (.lexeme block u :: es) = quiet isSpace es := rfl
    have heq : v = u ↔ '\n' ∉ u :=
      ⟨fun heq => heq ▸ huv.not_mem, fun hfeed => (huv.eq_of_not_mem hfeed hlast).symm⟩
    rw [readLexemes_lexeme, readLexemes_lexeme, hquiet]
    cases hes : readLexemes es with
    | none =>
      rw [hes] at ih
      simpa using ih
    | some ls =>
      rw [hes] at ih
      cases hfs : readLexemes fs with
      | none =>
        rw [hfs] at ih
        simp only [reduceCtorEq, false_iff, not_and, Option.some.injEq, forall_eq'] at ih
        simp only [Option.map_none, Option.map_some, reduceCtorEq, false_iff, not_and,
          Option.some.injEq, forall_eq']
        exact fun hq hall => ih hq fun l hl => hall l (List.mem_cons_of_mem _ hl)
      | some ms =>
        rw [hfs] at ih
        simp only [Option.some.injEq, forall_eq'] at ih
        simp only [Option.map_some, Option.some.injEq, List.cons.injEq, Lexeme.mk.injEq, true_and,
          forall_eq', List.forall_mem_cons, heq, ih]
        exact and_left_comm
  -- The comment swallows what follows it on the joined line.
  | lineComment closed hfeed huv =>
    rename_i u v es
    have hnil : readLexemes [] = some [] := rfl
    rw [readLexemes_lineComment, readLexemes_lineComment, hnil, quiet, Bool.and_eq_true,
      List.isEmpty_iff]
    constructor
    · intro h
      cases hes : readLexemes es with
      | none =>
        rw [hes] at h
        cases h
      | some ls =>
        rw [hes] at h
        obtain ⟨hhead, rfl⟩ := List.cons.inj (Option.some.inj h)
        have hempty := (readLexemes_eq_nil_iff es).mp hes
        refine ⟨⟨hempty, (huv hempty).mp (congrArg Lexeme.text hhead)⟩, fun ms hms l hl => ?_⟩
        obtain rfl := Option.some.inj hms
        obtain rfl := List.mem_singleton.mp hl
        exact hfeed
    · intro h
      obtain ⟨⟨rfl, hsolid⟩, -⟩ := h
      rw [(huv rfl).mpr hsolid, hnil]

/-- Joining line breaks adds no tokens and comments. -/
theorem Reads.length_le {es fs : List Event} (h : Reads isSpace es fs) {ls ms : List Lexeme}
    (hls : readLexemes es = some ls) (hms : readLexemes fs = some ms) : ms.length ≤ ls.length := by
  induction h generalizing ls ms with
  | nil =>
    rw [hls] at hms
    obtain rfl := Option.some.inj hms
    exact Nat.le_refl _
  | failure => simp [readLexemes] at hls
  | lexeme block huv hlast h ih =>
    rw [readLexemes_lexeme] at hls hms
    obtain ⟨ls', hls', rfl⟩ := Option.map_eq_some_iff.mp hls
    obtain ⟨ms', hms', rfl⟩ := Option.map_eq_some_iff.mp hms
    have hle := ih hls' hms'
    rw [List.length_cons, List.length_cons]
    omega
  | lineComment closed hfeed huv =>
    rw [readLexemes_lineComment] at hls hms
    obtain ⟨ls', hls', rfl⟩ := Option.map_eq_some_iff.mp hls
    obtain ⟨ms', hms', rfl⟩ := Option.map_eq_some_iff.mp hms
    obtain rfl := Option.some.inj hms'
    rw [List.length_cons, List.length_cons]
    exact Nat.succ_le_succ (Nat.zero_le _)

/-- The tokens and comments of a text whose line breaks are joined are those of the text exactly
when nothing follows a line comment, it does not end in white space, and none of them holds a line
break. -/
theorem lexemes_joined_iff {s t : List Char} (h : Joined isSpace s t)
    (ht : endsSolid isSpace t = true) :
    T.lexemes t = T.lexemes s ↔
      quiet isSpace (T.events s) = true ∧ ∀ ls, T.lexemes s = some ls → ∀ l ∈ ls, '\n' ∉ l.text :=
  (T.reads_joined h ht).readLexemes_iff

/-- A joined text has no more lexemes. -/
theorem length_lexemes_joined_le {s t : List Char} (h : Joined isSpace s t)
    (ht : endsSolid isSpace t = true)
    {ls ms : List Lexeme} (hls : T.lexemes s = some ls) (hms : T.lexemes t = some ms) :
    ms.length ≤ ls.length :=
  (T.reads_joined h ht).length_le hls hms

end Tokenizer

end Sql
