import QueryFabric.Sql.Reading

/-!
# The lexical rules of Postgres and ClickHouse

Postgres, with `standard_conforming_strings`, knows no escapes: inside quotes only the doubled quote
is special. ClickHouse reads a backslash inside any quotes as an escape character: before the
characters of `isActiveEscape` it is dropped and the escape decoded, and before any other character
it stands for itself, but the scanner still skips the character after it.

`decodeQuoted` reads the value of the text between two quotes. `length_decodeQuoted` weighs what a
text decodes to against its quotes: every escape that is decoded makes the value shorter than
doubled quotes account for.
-/

namespace Sql

/-- The part of a run of operator characters before a comment. -/
def beforeComment : List Char → List Char
  | [] => []
  | c :: cs => if startsComment cs then [c] else c :: beforeComment cs

/-- The characters that let a Postgres operator end in a sign. -/
def isSpecialOperator (c : Char) : Bool :=
  ['~', '!', '@', '#', '%', '^', '&', '|', '`', '?'].contains c

/-- A Postgres operator is the whole run up to a comment, without the signs at its end unless it has
a special character. -/
def postgresOperatorLength (run : List Char) : Nat :=
  let run := beforeComment run
  if run.any isSpecialOperator then max 1 run.length
  else max 1 (run.reverse.dropWhile isSign).length

/-- What stands before a comment is the start of the run. -/
theorem beforeComment_isPrefix : ∀ run : List Char, beforeComment run <+: run
  | [] => List.prefix_rfl
  | c :: cs => by
    rw [beforeComment]
    split_ifs
    · exact ⟨cs, rfl⟩
    · exact (List.prefix_cons_inj c).mpr (beforeComment_isPrefix cs)

/-- An operator of PostgreSQL has a character. -/
theorem postgresOperatorLength_pos (run : List Char) : 0 < postgresOperatorLength run := by
  unfold postgresOperatorLength
  dsimp only
  split <;> omega

/-- An operator of PostgreSQL is within its run. -/
theorem postgresOperatorLength_le (c : Char) (cs : List Char) :
    postgresOperatorLength (c :: cs) ≤ (c :: cs).length := by
  have hlen := (beforeComment_isPrefix (c :: cs)).length_le
  have hdrop := ((beforeComment (c :: cs)).reverse.dropWhile_suffix isSign).length_le
  rw [List.length_reverse] at hdrop
  simp only [List.length_cons] at hlen
  simp only [postgresOperatorLength, List.length_cons]
  split <;> omega

/-- The rules of Postgres. -/
def postgresRules : LexRules where
  identifierQuotes := ['"']
  escapes := false
  extendedStart c := decide (127 < c.toNat)
  isOperator c := operatorChars.contains c
  operatorLength := postgresOperatorLength
  quotes_subset := by simp
  extendedStart_gt c h := by simpa using h
  mem_operatorChars c h := by simpa using h
  isOperator_standard := List.all_eq_true.mp (by decide)
  doubleQuote_mem := by decide
  operatorLength_pos := postgresOperatorLength_pos
  operatorLength_le := postgresOperatorLength_le
  operatorLength_standard := by decide
  -- A run of signs alone keeps no trailing sign: only its first character is read.
  operatorLength_signs c cs h := by
    have hall : ∀ d ∈ beforeComment (c :: cs), isSign d = true := fun d hd =>
      h d ((beforeComment_isPrefix _).subset hd)
    have hspecial : (beforeComment (c :: cs)).any isSpecialOperator = false := by
      rw [List.any_eq_false]
      intro d hd
      have := hall d hd
      simp only [isSign, Bool.or_eq_true, beq_iff_eq] at this
      rcases this with rfl | rfl <;> decide
    have hdrop : (beforeComment (c :: cs)).reverse.dropWhile isSign = [] := by
      rw [List.dropWhile_eq_nil_iff]
      exact fun d hd => hall d (List.mem_reverse.mp hd)
    simp [postgresOperatorLength, hspecial, hdrop]

/-- The ClickHouse operators of more than one character. -/
def clickHouseOperatorLength : List Char → Nat
  | '<' :: '=' :: '>' :: _ => 3
  | '<' :: '=' :: _ => 2
  | '<' :: '>' :: _ => 2
  | '>' :: '=' :: _ => 2
  | '=' :: '=' :: _ => 2
  | '!' :: '=' :: _ => 2
  | '-' :: '>' :: _ => 2
  | '|' :: '|' :: _ => 2
  | _ => 1

/-- An operator of ClickHouse is within its run. -/
theorem clickHouseOperatorLength_le (c : Char) (cs : List Char) :
    clickHouseOperatorLength (c :: cs) ≤ (c :: cs).length := by
  generalize hrun : c :: cs = run
  have hpos : 0 < run.length := by rw [← hrun]; simp
  unfold clickHouseOperatorLength
  split
  all_goals simp_all
  omega

/-- The rules of ClickHouse. -/
def clickHouseRules : LexRules where
  identifierQuotes := ['"', '`']
  escapes := true
  extendedStart _ := false
  isOperator c := ['+', '-', '*', '/', '<', '>', '=', '!', '@', '%', '^', '|', '?'].contains c
  operatorLength := clickHouseOperatorLength
  quotes_subset := by simp
  extendedStart_gt c h := by simp at h
  mem_operatorChars c h := by
    have hall : ['+', '-', '*', '/', '<', '>', '=', '!', '@', '%', '^', '|', '?'].all
        (operatorChars.contains ·) = true := by decide
    simp only [List.contains_eq_mem, decide_eq_true_eq] at h
    simpa using List.all_eq_true.mp hall c h
  isOperator_standard := List.all_eq_true.mp (by decide)
  doubleQuote_mem := by decide
  operatorLength_pos run := by
    unfold clickHouseOperatorLength
    split <;> decide
  operatorLength_le := clickHouseOperatorLength_le
  operatorLength_standard := by decide
  -- No longer operator of ClickHouse is made of signs alone.
  operatorLength_signs c cs h := by
    have hc := h c List.mem_cons_self
    simp only [isSign, Bool.or_eq_true, beq_iff_eq] at hc
    unfold clickHouseOperatorLength
    split <;> simp_all [isSign]

/-! ## The value of a quoted text -/

/-- The value of a hexadecimal digit. -/
def hexDigit (c : Char) : Option Nat :=
  if c.isDigit then some (c.toNat - '0'.toNat)
  else if 'a' ≤ c && c ≤ 'f' then some (c.toNat - 'a'.toNat + 10)
  else if 'A' ≤ c && c ≤ 'F' then some (c.toNat - 'A'.toNat + 10)
  else none

/-- The escapes of one character and the characters they stand for. -/
def escapeTable : List (Char × List Char) :=
  [('a', ['\x07']), ('b', ['\x08']), ('e', ['\x1b']), ('f', ['\x0c']), ('n', ['\n']), ('r', ['\r']),
   ('t', ['\t']), ('v', ['\x0b']), ('0', ['\x00']), ('N', []), ('\\', ['\\']), ('\'', ['\'']),
   ('"', ['"']), ('`', ['`']), ('/', ['/']), ('=', ['='])]

/-- The characters before which a backslash loses its literal meaning. -/
def isActiveEscape (c : Char) : Bool :=
  c == 'x' || (escapeTable.lookup c).isSome || decide (c.toNat < 32)

/-- The characters that an escape of one character stands for. -/
def escapeValue (c : Char) : List Char :=
  if isActiveEscape c then (escapeTable.lookup c).getD [c] else ['\\', c]

/-- The value of the text between two quotes: a doubled quote is one, and with escapes a backslash
and what follows it are decoded. -/
def decodeQuoted (escapes : Bool) (quote : Char) : List Char → Option (List Char)
  | [] => some []
  | c :: cs =>
    if c = quote then
      match cs with
      | [] => none
      | d :: ds => if d = quote then (decodeQuoted escapes quote ds).map (quote :: ·) else none
    else if escapes && c == '\\' then
      match cs with
      | [] => none
      | 'x' :: h :: l :: ds =>
        match hexDigit h, hexDigit l with
        | some h, some l =>
          (decodeQuoted escapes quote ds).map (Char.ofNat (16 * h + l) :: ·)
        | _, _ => none
      | ['x'] => none
      | ['x', _] => none
      | d :: ds => (decodeQuoted escapes quote ds).map (escapeValue d ++ ·)
    else (decodeQuoted escapes quote cs).map (c :: ·)

/-- Every backslash of a text stands for itself: a character follows it that is no active
escape. -/
def escapeFree : List Char → Bool
  | [] => true
  | ['\\'] => false
  | '\\' :: c :: cs => !isActiveEscape c && escapeFree cs
  | _ :: cs => escapeFree cs

/-- The quotes of both dialects. -/
def quoteChars : List Char := ['\'', '"', '`']

/-- A quote is an escape of itself. -/
theorem quote_facts {q : Char} (h : q ∈ quoteChars) :
    q ≠ '\\' ∧ q ≠ 'x' ∧ isActiveEscape q = true ∧ hexDigit q = none := by
  simp only [quoteChars, List.mem_cons, List.not_mem_nil, or_false] at h
  rcases h with rfl | rfl | rfl <;> decide

/-- An escape stands for at most two characters, its backslash among them. -/
theorem length_escapeValue (c : Char) :
    (escapeValue c).length + (if isActiveEscape c then 1 else 0) ≤ 2 := by
  unfold escapeValue
  split_ifs with h
  · have : ∀ p ∈ escapeTable, p.2.length ≤ 1 := by decide
    cases hl : escapeTable.lookup c with
    | none => simp
    | some v =>
      obtain ⟨l₁, l₂, heq, -⟩ := List.lookup_eq_some_iff.mp hl
      simpa using this (c, v) (by simp [heq])
  · simp

/-- Without a backslash in front a text is as free of escapes. -/
theorem escapeFree_cons {c : Char} (hc : c ≠ '\\') (cs : List Char) :
    escapeFree (c :: cs) = escapeFree cs := by
  rw [escapeFree.eq_def]
  split <;> simp_all

/-- What a text decodes to, weighed against its quotes: a doubled quote costs the one character that
its two quotes account for, and an escape costs more than the quote it may cover. -/
theorem length_decodeQuoted {escapes : Bool} {q : Char} (hq : q ∈ quoteChars)
    {body out : List Char} (h : decodeQuoted escapes q body = some out) :
    2 * out.length + body.count q + (if escapes && !escapeFree body then 1 else 0) ≤
      2 * body.length := by
  obtain ⟨hq₁, hq₂, hq₃, hq₄⟩ := quote_facts hq
  fun_induction decodeQuoted escapes q body generalizing out with
  | case1 => cases h; simp [escapeFree]
  | case2 => cases h
  | case3 d ih =>
    obtain ⟨out', hout, rfl⟩ := Option.map_eq_some_iff.mp h
    have := ih hout
    simp only [escapeFree_cons hq₁, List.count_cons_self, List.length_cons]
    omega
  | case4 => cases h
  | case5 => cases h
  | case6 c hc hesc d₁ d₂ ds _ _ hl hh ih =>
    obtain ⟨out', hout, rfl⟩ := Option.map_eq_some_iff.mp h
    have := ih hout
    have hhq : d₁ ≠ q := by rintro rfl; simp [hq₄] at hh
    have hlq : d₂ ≠ q := by rintro rfl; simp [hq₄] at hl
    rw [List.count_cons_of_ne hc, List.count_cons_of_ne hq₂.symm, List.count_cons_of_ne hhq,
      List.count_cons_of_ne hlq]
    simp only [List.length_cons]
    split_ifs at this ⊢ <;> omega
  | case7 | case8 | case9 => cases h
  | case10 c hc hesc d ds _ _ _ ih =>
    obtain ⟨out', hout, rfl⟩ := Option.map_eq_some_iff.mp h
    have := ih hout
    simp only [Bool.and_eq_true, beq_iff_eq] at hesc
    obtain ⟨rfl, rfl⟩ := hesc
    have hval := length_escapeValue d
    rw [List.count_cons_of_ne hc]
    simp only [List.length_cons, List.length_append, Bool.true_and, escapeFree] at this ⊢
    -- An active escape shortens the text by more than the quote it may cover accounts for.
    cases hactive : isActiveEscape d with
    | true =>
      have hcount : (d :: ds).count q ≤ ds.count q + 1 := by
        rw [List.count_cons]; split <;> omega
      simp only [hactive, if_true] at hval
      split_ifs at this ⊢ <;> omega
    | false =>
      have hdq : d ≠ q := by rintro rfl; simp [hq₃] at hactive
      rw [List.count_cons_of_ne hdq]
      simp only [hactive, Bool.false_eq_true, if_false] at hval
      simp only [Bool.not_false, Bool.true_and]
      split_ifs at this ⊢ <;> omega
  | case11 c cs hc hesc ih =>
    obtain ⟨out', hout, rfl⟩ := Option.map_eq_some_iff.mp h
    have := ih hout
    rw [List.count_cons_of_ne hc]
    simp only [List.length_cons] at this ⊢
    cases escapes with
    | false => simp at this ⊢; omega
    | true =>
      rw [escapeFree_cons (by simpa using hesc)]
      omega

end Sql
