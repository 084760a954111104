import Mathlib.Data.List.Basic
import Mathlib.Data.List.TakeWhile
import Mathlib.Tactic.Linarith

/-!
# SQL lexical rules

A lexer for SQL text, over the rules in which the backends differ: which characters quote, whether a
backslash escapes inside quotes, which characters make up words and operators. A token keeps its
source characters, and `decodeQuoted` reads the value of a quoted one.

A token is a piece of the text (`lexToken_append`), so a text is read as no more than it shows:
`weight_lex_le` bounds the characters of its tokens by its visible characters, and a comment makes
the bound strict (`weight_lex_comment_lt`).
-/

namespace Sql

/-- The kinds of token. -/
inductive TokenKind
  | word
  | number
  | string
  | identifier
  | parameter
  | symbol
  | error
deriving DecidableEq, Repr

/-- A token with its source characters. -/
structure Token where
  kind : TokenKind
  text : List Char
deriving DecidableEq, Repr

/-- The signs, which are operators and prefixes alike. -/
def isSign (c : Char) : Bool := c == '+' || c == '-'

/-- The operators of standard SQL. -/
def standardOperators : List (List Char) :=
  [['+'], ['-'], ['*'], ['/'], ['='], ['<', '>'], ['<'], ['<', '='], ['>'], ['>', '=']]

/-- The characters that operators of any dialect are made of. -/
def operatorChars : List Char :=
  ['+', '-', '*', '/', '<', '>', '=', '~', '!', '@', '#', '%', '^', '&', '|', '`', '?']

/-- The rules in which SQL dialects differ, and what they have in common. -/
structure LexRules where
  /-- The characters that quote an identifier. -/
  identifierQuotes : List Char
  /-- Whether a backslash escapes the next character inside quotes. -/
  escapes : Bool
  /-- The characters that a word may start with, beside ASCII letters and the underscore. -/
  extendedStart : Char → Bool
  /-- The characters of operators. -/
  isOperator : Char → Bool
  /-- How many characters of a run of operator characters form its first token. -/
  operatorLength : List Char → Nat
  quotes_subset : ∀ c ∈ identifierQuotes, c = '"' ∨ c = '`'
  extendedStart_gt : ∀ c, extendedStart c = true → 127 < c.toNat
  mem_operatorChars : ∀ c, isOperator c = true → c ∈ operatorChars
  isOperator_standard : ∀ c ∈ ['+', '-', '*', '/', '<', '>', '='], isOperator c = true
  doubleQuote_mem : '"' ∈ identifierQuotes
  operatorLength_pos : ∀ run, 0 < operatorLength run
  operatorLength_le : ∀ c cs, operatorLength (c :: cs) ≤ (c :: cs).length
  operatorLength_standard : ∀ op ∈ standardOperators, operatorLength op = op.length
  operatorLength_signs : ∀ c cs, (∀ d ∈ c :: cs, isSign d = true) → operatorLength (c :: cs) = 1

namespace LexRules

variable (R : LexRules)

/-- The first characters of a word. -/
def isWordStart (c : Char) : Bool := c == '_' || c.isAlpha || R.extendedStart c

/-- The further characters of a word. -/
def isWordPart (c : Char) : Bool := R.isWordStart c || c == '$' || c.isDigit

end LexRules

/-- White space. -/
def isSpace (c : Char) : Bool :=
  c == ' ' || c == '\t' || c == '\n' || c == '\r' || c == '\x0b' || c == '\x0c'

/-- Punctuation that is a token by itself. -/
def isPunctuation (c : Char) : Bool :=
  c == '(' || c == ')' || c == ',' || c == '.' || c == '[' || c == ']' || c == '\x7b' ||
    c == '\x7d' || c == ':' || c == ';'

/-- A quoted text up to its closing quote, from after the opening one: the characters read, and the
rest. A doubled quote does not close, and neither does an escaped one. -/
def scanQuoted (escapes : Bool) (quote : Char) : List Char → Option (List Char × List Char)
  | [] => none
  | c :: cs =>
    if c = quote then
      match cs with
      | [] => some ([c], [])
      | d :: ds =>
        if d = quote then (scanQuoted escapes quote ds).map fun p => (c :: d :: p.1, p.2)
        else some ([c], d :: ds)
    else if escapes && c == '\\' then
      match cs with
      | [] => none
      | d :: ds => (scanQuoted escapes quote ds).map fun p => (c :: d :: p.1, p.2)
    else (scanQuoted escapes quote cs).map fun p => (c :: p.1, p.2)

/-- The rest of a text after a line comment. -/
def afterLine : List Char → List Char
  | [] => []
  | c :: cs => if c == '\n' then cs else afterLine cs

/-- The rest of a text after a block comment. -/
def afterBlock : List Char → List Char
  | '*' :: '/' :: cs => cs
  | _ :: cs => afterBlock cs
  | [] => []

/-- The digits of an exponent after `e` or `E`, with their sign, when there are any. -/
def scanExponent : List Char → List Char × List Char
  | e :: c :: cs =>
    if e == 'e' || e == 'E' then
      if c.isDigit then (e :: c :: cs.takeWhile Char.isDigit, cs.dropWhile Char.isDigit)
      else if (c == '+' || c == '-') && !(cs.takeWhile Char.isDigit).isEmpty then
        (e :: c :: cs.takeWhile Char.isDigit, cs.dropWhile Char.isDigit)
      else ([], e :: c :: cs)
    else ([], e :: c :: cs)
  | cs => ([], cs)

/-- The fraction after a dot. -/
def scanFraction : List Char → List Char × List Char
  | '.' :: cs => ('.' :: cs.takeWhile Char.isDigit, cs.dropWhile Char.isDigit)
  | cs => ([], cs)

/-- A number: digits, a fraction and an exponent. -/
def scanNumber (cs : List Char) : List Char × List Char :=
  let fraction := scanFraction (cs.dropWhile Char.isDigit)
  let exponent := scanExponent fraction.2
  (cs.takeWhile Char.isDigit ++ fraction.1 ++ exponent.1, exponent.2)

/-- Whether a text starts with a number: a digit, or a dot and a digit. -/
def startsNumber : List Char → Bool
  | '.' :: c :: _ => c.isDigit
  | c :: _ => c.isDigit
  | [] => false

/-- Whether a text starts with a comment. -/
def startsComment : List Char → Bool
  | '-' :: '-' :: _ => true
  | '/' :: '*' :: _ => true
  | _ => false

/-- The rest of a text after the comment that it starts with. -/
def afterComment : List Char → List Char
  | '-' :: '-' :: cs => afterLine cs
  | _ :: _ :: cs => afterBlock cs
  | _ => []

section Lex

variable (R : LexRules)

/-- The quotes of a dialect. -/
def isQuote (c : Char) : Bool := c == '\'' || R.identifierQuotes.contains c

/-- The kind of a quoted token. -/
def quotedKind (c : Char) : TokenKind := if c = '\'' then .string else .identifier

/-- The first token of a text that does not start with white space or a comment, and the rest. -/
def lexToken : List Char → Token × List Char
  | [] => (⟨.error, []⟩, [])
  | c :: cs =>
    if isQuote R c then
      match scanQuoted R.escapes c cs with
      | some (body, rest) => (⟨quotedKind c, c :: body⟩, rest)
      | none => (⟨.error, c :: cs⟩, [])
    else if R.isWordStart c then
      (⟨.word, c :: cs.takeWhile R.isWordPart⟩, cs.dropWhile R.isWordPart)
    else if startsNumber (c :: cs) then
      (⟨.number, (scanNumber (c :: cs)).1⟩, (scanNumber (c :: cs)).2)
    else if c == '$' then
      (⟨.parameter, c :: cs.takeWhile Char.isDigit⟩, cs.dropWhile Char.isDigit)
    else if isPunctuation c then (⟨.symbol, [c]⟩, cs)
    else if R.isOperator c then
      let n := R.operatorLength ((c :: cs).takeWhile R.isOperator)
      (⟨.symbol, (c :: cs).take n⟩, (c :: cs).drop n)
    else (⟨.error, [c]⟩, cs)

/-- The tokens of a text, with fuel. -/
def lexFuel : Nat → List Char → List Token
  | 0, _ => []
  | _ + 1, [] => []
  | fuel + 1, c :: cs =>
    if isSpace c then lexFuel fuel cs
    else if startsComment (c :: cs) then lexFuel fuel (afterComment (c :: cs))
    else
      (lexToken R (c :: cs)).1 :: lexFuel fuel (lexToken R (c :: cs)).2

/-- The tokens of a text. -/
def lex (cs : List Char) : List Token := lexFuel R cs.length cs

end Lex

/-! ## Tokens are pieces of the text -/

/-- A quoted text and what follows it make up the text. -/
theorem append_of_scanQuoted {escapes : Bool} {quote : Char} {cs body rest : List Char}
    (h : scanQuoted escapes quote cs = some (body, rest)) : body ++ rest = cs := by
  fun_induction scanQuoted escapes quote cs generalizing body rest with
  | case1 => cases h
  | case2 => cases h; rfl
  | case4 => cases h; rfl
  | case5 => cases h
  | case3 ds ih | case6 c _ _ d ds ih | case7 c cs _ _ ih =>
    obtain ⟨p, hp, heq⟩ := Option.map_eq_some_iff.mp h
    cases heq
    simp [ih hp]

/-- A fraction and what follows it make up the text. -/
theorem scanFraction_append (cs : List Char) : (scanFraction cs).1 ++ (scanFraction cs).2 = cs := by
  unfold scanFraction
  split
  · simp
  · rfl

/-- An exponent and what follows it make up the text. -/
theorem scanExponent_append (cs : List Char) : (scanExponent cs).1 ++ (scanExponent cs).2 = cs := by
  unfold scanExponent
  split
  · rename_i e c cs
    split_ifs with he hd hs
    · simp
    · simp
    · rfl
    · rfl
  · rfl

/-- A number and what follows it make up the text. -/
theorem scanNumber_append (cs : List Char) : (scanNumber cs).1 ++ (scanNumber cs).2 = cs := by
  have h₁ : cs.takeWhile Char.isDigit ++ cs.dropWhile Char.isDigit = cs :=
    List.takeWhile_append_dropWhile
  have h₂ := scanFraction_append (cs.dropWhile Char.isDigit)
  have h₃ := scanExponent_append (scanFraction (cs.dropWhile Char.isDigit)).2
  simp only [scanNumber, List.append_assoc]
  rw [h₃, h₂, h₁]

variable (R : LexRules)

/-- A token and the rest after it are the text. -/
theorem lexToken_append (cs : List Char) : (lexToken R cs).1.text ++ (lexToken R cs).2 = cs := by
  unfold lexToken
  split
  · rfl
  · rename_i c cs
    split_ifs
    · split
      · rename_i body rest h
        simpa using append_of_scanQuoted h
      · simp
    · simp
    · exact scanNumber_append (c :: cs)
    · simp
    · rfl
    · exact List.take_append_drop _ _
    · rfl

/-- A number has a character. -/
theorem scanNumber_ne_nil {cs : List Char} (h : startsNumber cs = true) :
    (scanNumber cs).1 ≠ [] := by
  have hdot : Char.isDigit '.' = false := by decide
  unfold startsNumber at h
  split at h
  · simp [scanNumber, scanFraction, hdot]
  · simp [scanNumber, h]
  · cases h

/-- A token has at least one character. -/
theorem lexToken_text_ne_nil (c : Char) (cs : List Char) : (lexToken R (c :: cs)).1.text ≠ [] := by
  simp only [lexToken]
  split_ifs with h₁ h₂ h₃ h₄ h₅ h₆
  · split <;> simp
  · simp
  · exact scanNumber_ne_nil h₃
  · simp
  · simp
  · have := R.operatorLength_pos ((c :: cs).takeWhile R.isOperator)
    obtain ⟨n, hn⟩ := Nat.exists_eq_succ_of_ne_zero this.ne'
    simp [hn]
  · simp

/-- What follows a line is the end of the text. -/
theorem afterLine_suffix : ∀ cs : List Char, afterLine cs <:+ cs
  | [] => List.suffix_rfl
  | c :: cs => by
    rw [afterLine]
    split_ifs
    · exact List.suffix_cons c cs
    · exact (afterLine_suffix cs).trans (List.suffix_cons c cs)

/-- What follows a block is the end of the text. -/
theorem afterBlock_suffix (cs : List Char) : afterBlock cs <:+ cs := by
  fun_induction afterBlock cs with
  | case1 cs => exact (List.suffix_cons _ cs).trans (List.suffix_cons _ _)
  | case2 c cs _ ih => exact ih.trans (List.suffix_cons c cs)
  | case3 => exact List.suffix_rfl

/-- What follows a comment is a part of the text, after the two characters that open it. -/
theorem afterComment_suffix {cs : List Char} (h : startsComment cs = true) :
    ∃ a b tail, cs = a :: b :: tail ∧ isSpace a = false ∧ isSpace b = false ∧
      afterComment cs <:+ tail := by
  unfold startsComment at h
  split at h
  · rename_i cs
    exact ⟨_, _, cs, rfl, by decide, by decide, afterLine_suffix cs⟩
  · rename_i cs
    exact ⟨_, _, cs, rfl, by decide, by decide, afterBlock_suffix cs⟩
  · cases h

/-- A comment has a character. -/
theorem length_afterComment_lt {cs : List Char} (h : startsComment cs = true) :
    (afterComment cs).length < cs.length := by
  obtain ⟨a, b, tail, rfl, -, -, hsuffix⟩ := afterComment_suffix h
  have := hsuffix.length_le
  simp only [List.length_cons]
  omega

/-- A token has a character. -/
theorem length_lexToken_lt (c : Char) (cs : List Char) :
    (lexToken R (c :: cs)).2.length < (c :: cs).length := by
  have h := congrArg List.length (lexToken_append R (c :: cs))
  have hpos := List.length_pos_iff.mpr (lexToken_text_ne_nil R c cs)
  rw [List.length_append] at h
  omega

/-- Any two amounts of fuel that reach to the end of a text give the same tokens. -/
theorem lexFuel_eq_lexFuel : ∀ (m n : Nat) (cs : List Char), cs.length ≤ m → cs.length ≤ n →
    lexFuel R m cs = lexFuel R n cs
  | 0, 0, _, _, _ => rfl
  | 0, n + 1, [], _, _ => rfl
  | m + 1, 0, [], _, _ => rfl
  | m + 1, n + 1, [], _, _ => rfl
  | m + 1, n + 1, c :: cs, hm, hn => by
    rw [List.length_cons] at hm hn
    rw [lexFuel, lexFuel]
    split_ifs with hspace hcomment
    · exact lexFuel_eq_lexFuel m n cs (by omega) (by omega)
    · have hlt := length_afterComment_lt hcomment
      rw [List.length_cons] at hlt
      exact lexFuel_eq_lexFuel m n _ (by omega) (by omega)
    · have hlt := length_lexToken_lt R c cs
      rw [List.length_cons] at hlt
      rw [lexFuel_eq_lexFuel m n _ (by omega) (by omega)]

/-! ## Reading from the left -/

/-- There are no tokens in an empty text. -/
@[simp]
theorem lex_nil : lex R [] = [] := rfl

/-- A space before a text is no token. -/
theorem lex_space {c : Char} (h : isSpace c = true) (cs : List Char) :
    lex R (c :: cs) = lex R cs := by
  rw [lex, List.length_cons, lexFuel, if_pos h, lex]

/-- A comment before a text is no token. -/
theorem lex_comment {cs : List Char} (h : startsComment cs = true) :
    lex R cs = lex R (afterComment cs) := by
  have hlt := length_afterComment_lt h
  cases cs with
  | nil => cases h
  | cons c cs =>
    have hspace : isSpace c = false := by
      obtain ⟨a, b, tail, heq, ha, -⟩ := afterComment_suffix h
      cases heq
      exact ha
    rw [lex, List.length_cons, lexFuel, if_neg (by simp [hspace]), if_pos h]
    rw [List.length_cons] at hlt
    exact lexFuel_eq_lexFuel R _ _ _ (by omega) (le_refl _)

/-- The first token of a text. -/
theorem lex_token {c : Char} {cs : List Char} (hspace : isSpace c = false)
    (hcomment : startsComment (c :: cs) = false) :
    lex R (c :: cs) = (lexToken R (c :: cs)).1 :: lex R (lexToken R (c :: cs)).2 := by
  have hlt := length_lexToken_lt R c cs
  rw [List.length_cons] at hlt
  rw [lex, List.length_cons, lexFuel, if_neg (by simp [hspace]), if_neg (by simp [hcomment])]
  rw [lexFuel_eq_lexFuel R _ _ _ (by omega) (le_refl _), lex]

/-- The characters of a text other than white space. -/
def visible (cs : List Char) : Nat := cs.countP fun c => !isSpace c

/-- The characters of tokens other than white space. -/
def weight (tokens : List Token) : Nat := (tokens.map fun t => visible t.text).sum

/-- The visible characters of two texts. -/
@[simp]
theorem visible_append (cs ds : List Char) : visible (cs ++ ds) = visible cs + visible ds :=
  List.countP_append

/-- The weight of a token and of those behind it. -/
@[simp]
theorem weight_cons (t : Token) (ts : List Token) :
    weight (t :: ts) = visible t.text + weight ts := by
  simp [weight]

/-- The weight of two lists of tokens. -/
@[simp]
theorem weight_append (ts us : List Token) : weight (ts ++ us) = weight ts + weight us := by
  simp [weight]

/-- A comment opens with two visible characters, which no token has. -/
theorem visible_afterComment {cs : List Char} (h : startsComment cs = true) :
    visible (afterComment cs) + 2 ≤ visible cs := by
  obtain ⟨a, b, tail, hcs, ha, hb, hsuffix⟩ := afterComment_suffix h
  have hle := hsuffix.sublist.countP_le (p := fun c => !isSpace c)
  rw [hcs] at hle ⊢
  simpa [visible, ha, hb] using hle

/-- The tokens of a text have no more visible characters than it. -/
theorem weight_lex_le (cs : List Char) : weight (lex R cs) ≤ visible cs := by
  induction hn : cs.length using Nat.strong_induction_on generalizing cs with
  | _ n ih =>
    subst hn
    cases cs with
    | nil => simp [weight, visible]
    | cons c cs =>
      by_cases hspace : isSpace c = true
      · have := ih cs.length (by simp) cs rfl
        rw [lex_space R hspace]
        simp only [visible, List.countP_cons, hspace] at this ⊢
        simpa using this
      by_cases hcomment : startsComment (c :: cs) = true
      · have := ih _ (length_afterComment_lt hcomment) _ rfl
        have := visible_afterComment hcomment
        rw [lex_comment R hcomment]
        omega
      · have := ih _ (length_lexToken_lt R c cs) _ rfl
        have happ := congrArg visible (lexToken_append R (c :: cs))
        rw [lex_token R (by simpa using hspace) (by simpa using hcomment), weight_cons]
        rw [visible_append] at happ
        omega

/-- A text that starts with a comment is read as less than it shows. -/
theorem weight_lex_comment_lt {cs : List Char} (h : startsComment cs = true) :
    weight (lex R cs) < visible cs := by
  rw [lex_comment R h]
  have := weight_lex_le R (afterComment cs)
  have := visible_afterComment h
  omega

end Sql
