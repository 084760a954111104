import QueryFabric.Dialect.Helpers
import QueryFabric.Sql.Tokenizer

/-!
# Plain tokens

A tokenizer of what most queries are written with: words, literals and identifiers in quotes without
escapes, block comments that do not nest, and single characters. It goes by white space as every
`Tokenizer` does: a scan goes on over white space or ends before it, whatever white space it is
(`scanLength_joined`).
-/

namespace QueryFabric.Dialect

open Sql

/-- Whether a character is of a word. -/
def isWordChar (c : Char) : Bool := c.isAlphanum || c == '_'

/-- What a scan is in, after its first character. -/
inductive Scan
  | word
  | mark
  | slash
  | quoted (quote : Char)
  | block (star : Bool)
deriving DecidableEq, Repr

namespace Scan

/-- Whether what is scanned may end before any character. -/
def isClosed : Scan → Bool
  | word | mark | slash => true
  | quoted _ | block _ => false

/-- What a character does to a scan: it goes on, or ends before or after the character. -/
def step : Scan → Char → Scan ⊕ Nat
  | word, c => if isWordChar c then .inl word else .inr 0
  | mark, _ => .inr 0
  | slash, c => if c = '*' then .inl (block false) else .inr 0
  | quoted quote, c => if c = quote then .inr 1 else .inl (quoted quote)
  | block star, c => if star ∧ c = '/' then .inr 1 else .inl (block (c = '*'))

/-- A quote is not white space. -/
def Proper : Scan → Prop
  | quoted quote => isWhitespace quote = false
  | _ => True

end Scan

/-- How many characters a scan goes on for, if it ends. -/
def scanLength : Scan → List Char → Option Nat
  | state, [] => if state.isClosed then some 0 else none
  | state, c :: cs =>
    match state.step c with
    | .inl state => (scanLength state cs).map (· + 1)
    | .inr n => some n

/-- What a scan is in after its first character. -/
def startScan (c : Char) : Scan :=
  if c = '\'' ∨ c = '"' then .quoted c else if isWordChar c then .word else if c = '/' then
    .slash else .mark

/-- How far a lexeme reaches. -/
def plainLength : List Char → Option Nat
  | [] => none
  | c :: cs => if isWhitespace c then none else (scanLength (startScan c) cs).map (· + 1)

/-! ## Characters -/

/-- A character of a word is a letter, a digit or the underscore. -/
theorem toNat_of_isWordChar {c : Char} (h : isWordChar c = true) : (97 ≤ c.toNat ∧ c.toNat ≤ 122) ∨
    (65 ≤ c.toNat ∧ c.toNat ≤ 90) ∨ (48 ≤ c.toNat ∧ c.toNat ≤ 57) ∨ c.toNat = 95 := by
  delta isWordChar Char.isAlphanum Char.isAlpha Char.isUpper Char.isLower Char.isDigit at h
  simp only [Bool.or_eq_true, Bool.and_eq_true, decide_eq_true_eq, UInt32.le_iff_toNat_le,
    ge_iff_le, beq_iff_eq] at h
  have hval : c.toNat = c.val.toNat := rfl
  have hA : 'A'.val.toNat = 65 := rfl
  have hZ : 'Z'.val.toNat = 90 := rfl
  have ha : 'a'.val.toNat = 97 := rfl
  have hz : 'z'.val.toNat = 122 := rfl
  have h0 : '0'.val.toNat = 48 := rfl
  have h9 : '9'.val.toNat = 57 := rfl
  obtain ((hupper | hlower) | hdigit) | rfl := h
  · omega
  · omega
  · omega
  · decide

/-- A character of a word is no whitespace. -/
theorem isWhitespace_of_isWordChar {c : Char} (h : isWordChar c = true) :
    isWhitespace c = false := by
  have hcode := toNat_of_isWordChar h
  simp only [isWhitespace, Bool.or_eq_false_iff, Bool.and_eq_false_iff, decide_eq_false_iff_not,
    beq_eq_false_iff_ne, ne_eq]
  omega

/-! ## Scans -/

/-- What white space does to a scan: it ends before it, or goes on as it does over all white
space. -/
theorem step_blank {state : Scan} {c : Char} (hstate : state.Proper) (hc : isWhitespace c = true) :
    (state.isClosed = true ∧ state.step c = .inr 0) ∨
      (state.isClosed = false ∧ ∃ next, next.Proper ∧ next.isClosed = false ∧
        ∀ d, isWhitespace d = true → state.step d = .inl next ∧ next.step d = .inl next) := by
  -- A blank neither opens nor closes a comment.
  have hmark : ∀ d, isWhitespace d = true → d ≠ '/' ∧ d ≠ '*' := by
    intro d hd
    constructor <;>
    · rintro rfl
      revert hd
      decide
  -- Only a quoted text and a block comment go on over a blank.
  cases state with
  | word =>
    refine .inl ⟨rfl, if_neg fun hword => ?_⟩
    rw [isWhitespace_of_isWordChar hword] at hc
    cases hc
  | mark => exact .inl ⟨rfl, rfl⟩
  | slash => exact .inl ⟨rfl, if_neg (hmark c hc).2⟩
  | quoted quote =>
    refine .inr ⟨rfl, .quoted quote, hstate, rfl, fun d hd => ?_⟩
    have hne : d ≠ quote := by
      rintro rfl
      rw [Scan.Proper, hd] at hstate
      cases hstate
    exact ⟨if_neg hne, if_neg hne⟩
  | block star =>
    refine .inr ⟨rfl, .block false, trivial, rfl, fun d hd => ?_⟩
    obtain ⟨hslash, hstar⟩ := hmark d hd
    constructor <;> simp [Scan.step, hslash, hstar]

/-- A step of the scan keeps a proper state proper. -/
theorem proper_step {state next : Scan} {c : Char} (hstate : state.Proper)
    (h : state.step c = .inl next) :
    next.Proper := by
  cases state <;> simp only [Scan.step] at h
  · split_ifs at h
    cases h
    trivial
  · cases h
  · split_ifs at h
    cases h
    trivial
  · split_ifs at h
    cases h
    exact hstate
  · split_ifs at h
    cases h
    trivial

/-- A scan that does not end before white space goes over all of it. -/
theorem scanLength_gap {gap : List Char} (hgap : gap.all isWhitespace = true) (cs : List Char)
    {state : Scan} (hstate : ∀ d, isWhitespace d = true → state.step d = .inl state) :
    scanLength state (gap ++ cs) = (scanLength state cs).map (· + gap.length) := by
  induction gap with
  | nil => simp
  | cons c gap ih =>
    rw [List.all_cons, Bool.and_eq_true] at hgap
    rw [List.cons_append, scanLength, hstate c hgap.1]
    dsimp only
    rw [ih hgap.2, Option.map_map, List.length_cons]
    congr 1

/-- A scan that stops stops before the character or right after it. -/
theorem step_le {state : Scan} {c : Char} {n : Nat} (h : state.step c = .inr n) :
    n = 0 ∨ n = 1 := by
  cases state <;> simp only [Scan.step] at h <;>
    first
    | split_ifs at h <;> cases h <;> simp
    | (cases h; simp)

/-- A text that ends leaves a token where the scan's state is closed. -/
theorem scanLength_nil (state : Scan) : scanLength state [] = if state.isClosed then
    some 0 else none := rfl

/-- A scan that may end before white space ends there. -/
theorem scanLength_closed {state : Scan} {gap : List Char} (hstate : state.Proper)
    (hclosed : state.isClosed = true)
    (hgap : gap.all isWhitespace = true) (cs : List Char) (hcs : gap = [] → cs = []) :
    scanLength state (gap ++ cs) = some 0 := by
  cases gap with
  | nil => rw [hcs rfl, List.append_nil, scanLength_nil, if_pos hclosed]
  | cons c gap =>
    rw [List.all_cons, Bool.and_eq_true] at hgap
    obtain ⟨-, hstep⟩ | ⟨hopen, -⟩ := step_blank hstate hgap.1
    · rw [List.cons_append, scanLength, hstep]
    · rw [hclosed] at hopen
      cases hopen

/-- Joining line breaks leaves the end of a scan where it is. -/
theorem scanLength_joined {s t : List Char} (h : Joined isWhitespace s t) {state : Scan}
    (hstate : state.Proper) :
    SplitTogether isWhitespace s t (scanLength state s) (scanLength state t) := by
  have hblank : isWhitespace ' ' = true := by decide
  -- The induction is over how the two texts correspond, with the state in which the token is
  -- scanned.
  induction h generalizing state with
  | char hc h ih =>
    rename_i c s t
    rw [scanLength, scanLength]
    -- The same character moves both scans, or ends both tokens.
    cases hstep : state.step c with
    | inl next => exact (ih (proper_step hstate hstep)).char hc
    | inr n =>
      obtain rfl | rfl := step_le hstep
      · exact ⟨Joined.trail rfl, Joined.char hc h⟩
      · exact ⟨Joined.char hc (Joined.trail rfl), h⟩
  | gap hgap hfeed h ih =>
    rename_i gap s t
    have hspace := step_blank hstate hblank
    -- A gap ends a token that can end there; within a quoted text or a comment it is part of the
    -- token.
    cases hclosed : state.isClosed with
    | true =>
      have hgap' : gap = [] → s = [] := fun hnil => by rw [hnil] at hfeed; cases hfeed
      have hs := scanLength_closed hstate hclosed hgap s hgap'
      have ht : scanLength state ([' '] ++ t) = some 0 :=
        scanLength_closed hstate hclosed (by decide) t (by simp)
      rw [List.singleton_append] at ht
      rw [hs, ht]
      exact ⟨Joined.trail rfl, Joined.gap hgap hfeed h⟩
    | false =>
      obtain ⟨htrue, -⟩ | ⟨-, next, hnext, -, hgo⟩ := hspace
      · rw [hclosed] at htrue
        cases htrue
      · obtain ⟨c, gap, rfl⟩ := List.exists_cons_of_ne_nil (List.ne_nil_of_mem hfeed)
        have hall := hgap
        rw [List.all_cons, Bool.and_eq_true] at hall
        have hgap' := scanLength_gap hall.2 s fun d hd => (hgo d hd).2
        have hs : scanLength state (c :: gap ++ s) =
            (scanLength next s).map (· + (c :: gap).length) := by
          rw [List.cons_append, scanLength, (hgo c hall.1).1]
          dsimp only
          rw [hgap', Option.map_map, List.length_cons]
          congr 1
        have ht : scanLength state (' ' :: t) = (scanLength next t).map (· + 1) := by
          rw [scanLength, (hgo ' ' hblank).1]
        rw [hs, ht]
        exact (ih hnext).gap hgap hfeed
  -- At the end of the text one side has a gap left and the other has nothing.
  | trail hgap =>
    rename_i gap
    cases hclosed : state.isClosed with
    | true =>
      have hs := scanLength_closed hstate hclosed hgap [] fun _ => rfl
      rw [List.append_nil] at hs
      rw [hs, scanLength_nil, hclosed, if_pos rfl]
      exact ⟨Joined.trail rfl, Joined.trail hgap⟩
    | false =>
      have hs : scanLength state gap = none := by
        cases gap with
        | nil => rw [scanLength_nil, hclosed, if_neg Bool.false_ne_true]
        | cons c gap =>
          rw [List.all_cons, Bool.and_eq_true] at hgap
          obtain ⟨htrue, -⟩ | ⟨-, next, hnext, hopen, hgo⟩ := step_blank hstate hgap.1
          · rw [hclosed] at htrue
            cases htrue
          · have hgap' := scanLength_gap hgap.2 [] fun d hd => (hgo d hd).2
            rw [List.append_nil, scanLength_nil, hopen, if_neg Bool.false_ne_true] at hgap'
            rw [scanLength, (hgo c hgap.1).1]
            dsimp only
            rw [hgap']
            rfl
      rw [hs, scanLength_nil, hclosed, if_neg Bool.false_ne_true]
      trivial

/-! ## The tokenizer -/

/-- A token is no longer than the text it is read from. -/
theorem scanLength_le {cs : List Char} {state : Scan} {n : Nat} (h : scanLength state cs = some n) :
    n ≤ cs.length := by
  induction cs generalizing state n with
  | nil =>
    rw [scanLength_nil] at h
    split_ifs at h
    cases h
    exact Nat.le_refl _
  | cons c cs ih =>
    rw [scanLength] at h
    rw [List.length_cons]
    cases hstep : state.step c with
    | inl next =>
      rw [hstep] at h
      obtain ⟨m, hm, rfl⟩ := Option.map_eq_some_iff.mp h
      exact Nat.succ_le_succ (ih hm)
    | inr m =>
      rw [hstep] at h
      obtain rfl := Option.some.inj h
      have hle := step_le hstep
      omega

/-- A text that ends without whitespace still does with a character before it. -/
theorem endsSolid_cons {c : Char} {cs : List Char} (h : endsSolid isWhitespace cs = true)
    (hne : cs ≠ []) :
    endsSolid isWhitespace (c :: cs) = true := by
  obtain ⟨init, d, rfl⟩ := cs.eq_nil_or_concat'.resolve_left hne
  unfold endsSolid at h ⊢
  rw [List.getLast?_concat] at h
  rwa [← List.cons_append, List.getLast?_concat]

/-- What a scan goes over does not end in white space, with the character before it when the scan
may end there. -/
theorem endsSolid_scanLength {cs : List Char} {state : Scan} {n : Nat} {c : Char}
    (hstate : state.Proper)
    (hc : state.isClosed = true → isWhitespace c = false) (h : scanLength state cs = some n) :
    endsSolid isWhitespace (c :: cs.take n) = true := by
  -- A token that is one character is solid where the character is.
  have hsingle : ∀ d, isWhitespace d = false → endsSolid isWhitespace [d] = true := fun d hd => by
    rw [endsSolid, List.getLast?_singleton, Option.all_some, hd]
    rfl
  -- The scan reads a character and goes on, so its last character is the one that decides.
  induction cs generalizing state n c with
  | nil =>
    rw [scanLength_nil] at h
    split_ifs at h with hclosed
    cases h
    exact hsingle c (hc hclosed)
  | cons d cs ih =>
    rw [scanLength] at h
    cases hstep : state.step d with
    | inl next =>
      rw [hstep] at h
      obtain ⟨m, hm, rfl⟩ := Option.map_eq_some_iff.mp h
      -- A blank that goes into a token leaves it open.
      have hd : next.isClosed = true → isWhitespace d = false := by
        intro hclosed
        cases hwhite : isWhitespace d with
        | false => rfl
        | true =>
          obtain ⟨-, hstop⟩ | ⟨-, next', -, hopen, hgo⟩ := step_blank hstate hwhite
          · rw [hstop] at hstep
            cases hstep
          · rw [(hgo d hwhite).1] at hstep
            cases hstep
            rw [hopen] at hclosed
            cases hclosed
      exact endsSolid_cons (ih (proper_step hstate hstep) hd hm) (List.cons_ne_nil _ _)
    | inr m =>
      rw [hstep] at h
      obtain rfl := Option.some.inj h
      -- The token ends before this character or right after it.
      obtain rfl | rfl := step_le hstep
      · refine hsingle c (hc ?_)
        cases state <;> simp only [Scan.step] at hstep <;>
          first | rfl | (split_ifs at hstep; cases hstep)
      · have hd : isWhitespace d = false := by
          cases hwhite : isWhitespace d with
          | false => rfl
          | true =>
            obtain ⟨-, hstop⟩ | ⟨-, next', -, -, hgo⟩ := step_blank hstate hwhite
            · rw [hstop] at hstep
              cases hstep
            · rw [(hgo d hwhite).1] at hstep
              cases hstep
        exact endsSolid_cons (hsingle d hd) (List.cons_ne_nil _ _)

/-- The state a token starts in is proper. -/
theorem proper_startScan {c : Char} (hc : isWhitespace c = false) : (startScan c).Proper := by
  unfold startScan
  split_ifs
  · exact hc
  · trivial
  · trivial
  · trivial

/-- A word is read to its last letter. -/
theorem scanLength_word {w rest : List Char} (hw : w.all Char.isAlpha = true)
    (hrest : endsHere isWhitespace rest = true) : scanLength .word (w ++ rest) = some w.length := by
  induction w with
  | nil =>
    cases rest with
    | nil => rfl
    | cons c rest =>
      have hc : isWhitespace c = true := hrest
      have hword : ¬isWordChar c = true := fun hword => by
        rw [isWhitespace_of_isWordChar hword] at hc
        cases hc
      rw [List.nil_append, scanLength, Scan.step, if_neg hword]
      rfl
  | cons c w ih =>
    rw [List.all_cons, Bool.and_eq_true] at hw
    have hword : isWordChar c = true := by simp [isWordChar, Char.isAlphanum, hw.1]
    rw [List.cons_append, scanLength, Scan.step, if_pos hword]
    dsimp only
    rw [ih hw.2]
    rfl

/-- A letter starts a word. -/
theorem startScan_of_isAlpha {c : Char} (hc : c.isAlpha = true) : startScan c = .word := by
  have hquote : ¬(c = '\'' ∨ c = '"') := by
    rintro (rfl | rfl) <;> cases hc
  have hword : isWordChar c = true := by simp [isWordChar, Char.isAlphanum, hc]
  rw [startScan, if_neg hquote, if_pos hword]

/-- The tokenizer of words, numbers, quoted texts, comments and single characters. -/
def plainTokenizer : Tokenizer isWhitespace where
  lexemeLength := plainLength
  lexemeLength_bounds := by
    intro cs n h
    cases cs with
    | nil => cases h
    | cons c cs =>
      rw [plainLength] at h
      split_ifs at h
      obtain ⟨m, hm, rfl⟩ := Option.map_eq_some_iff.mp h
      exact ⟨Nat.succ_pos m, Nat.succ_le_succ (scanLength_le hm)⟩
  -- A token starts with a character that is no whitespace, and the scan keeps it solid.
  lexemeLength_last := by
    intro cs n h
    cases cs with
    | nil => cases h
    | cons c cs =>
      rw [plainLength] at h
      split_ifs at h with hc
      rw [Bool.not_eq_true] at hc
      obtain ⟨m, hm, rfl⟩ := Option.map_eq_some_iff.mp h
      exact endsSolid_scanLength (proper_startScan hc) (fun _ => hc) hm
  -- Joining lines changes white space only, and the scan splits both texts together.
  lexemeLength_joined := by
    intro c s t hc h
    have hne : c ≠ '\n' := by
      rintro rfl
      cases hc
    rw [plainLength, plainLength, hc, if_neg Bool.false_ne_true, if_neg Bool.false_ne_true]
    exact (scanLength_joined h (proper_startScan hc)).char hne
  -- A word runs to the first character that is no letter.
  lexemeLength_word := by
    intro w rest hne hw hrest
    obtain ⟨c, w, rfl⟩ := List.exists_cons_of_ne_nil hne
    rw [List.all_cons, Bool.and_eq_true] at hw
    have hword : isWordChar c = true := by simp [isWordChar, Char.isAlphanum, hw.1]
    rw [List.cons_append, plainLength, isWhitespace_of_isWordChar hword, if_neg Bool.false_ne_true,
      startScan_of_isAlpha hw.1, scanLength_word hw.2 hrest]
    rfl
  lexemeLength_star := by
    intro rest hrest
    cases rest <;> rfl
  isSpace_space := by decide
  isSpace_feed := by decide
  isSpace_alpha := by
    intro c hc
    have hword : isWordChar c = true := by simp [isWordChar, Char.isAlphanum, hc]
    exact isWhitespace_of_isWordChar hword
  isSpace_mark := by
    rw [List.forall_mem_cons, List.forall_mem_cons, List.forall_mem_singleton]
    exact ⟨rfl, rfl, rfl⟩

end QueryFabric.Dialect
