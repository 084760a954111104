import QueryFabric.Lib.Lines
import Mathlib.Data.List.TakeWhile

/-!
# Plain YAML documents

A reader for block mappings whose values are scalars, sequences of scalars and sequences of
mappings, with each scalar on one line: plain and double-quoted scalars of YAML 1.2, which the core
schema resolves. It refuses the rest of YAML.

A scalar is pasted into a line without an escape. `quotedEntry`, `plainEntry` and their like say
when it is read back: in quotes when there is no quote, backslash or control character in it, and as
it is when it is a plain scalar (`isPlain`) that the core schema does not take for something else
(`isText`).
-/

namespace Lib.Yaml

/-- A scalar as the core schema resolves it. -/
inductive Scalar
  | null
  | bool (value : Bool)
  | number (text : String)
  | string (text : String)
deriving DecidableEq, Repr

/-- An item of a sequence. -/
inductive Item
  | scalar (value : Scalar)
  | mapping (first : String × Scalar) (others : List (String × Scalar))
deriving DecidableEq, Repr

/-- The value of a key. -/
inductive Node
  | scalar (value : Scalar)
  | sequence (first : Item) (others : List Item)
deriving DecidableEq, Repr

/-- The keys of a document and their values, in order. -/
abbrev Document := List (String × Node)

/-- What a line says. -/
inductive Line
  /-- `key: value`, or `key:` before a sequence. -/
  | entry (key : String) (value : Option Scalar)
  /-- `- value`. -/
  | item (value : Scalar)
  /-- `- key: value`, where a mapping starts. -/
  | itemEntry (key : String) (value : Scalar)
  /-- `key: value` in the mapping of an item. -/
  | nested (key : String) (value : Scalar)
deriving DecidableEq, Repr

/-! ## Characters -/

/-- A blank or a tab. -/
def isWhite (c : Char) : Bool := c == ' ' || c == '\t'

/-- The characters that may stand in quotes, line breaks apart. -/
def isQuotable (c : Char) : Bool := c == '\t' || 0x20 ≤ c.val

/-- The characters that may stand outside of quotes, line breaks apart. -/
def isPrintable (c : Char) : Bool :=
  c == '\t' || (0x20 ≤ c.val && c.val ≤ 0x7e) || c.val == 0x85 ||
    (0xa0 ≤ c.val && c.val ≤ 0xd7ff) ||
    (0xe000 ≤ c.val && c.val ≤ 0xfffd && c.val != 0xfeff) || 0x10000 ≤ c.val

/-- A printable character that is not white. -/
def isSolid (c : Char) : Bool := isPrintable c && !isWhite c

/-- The indicators that may start a plain scalar in front of a solid character. -/
def isLead (c : Char) : Bool := c == '-' || c == '?' || c == ':'

/-- The characters that a plain scalar does not start with by themselves. -/
def isIndicator (c : Char) : Bool :=
  isLead c ||
    [',', '[', ']', '{', '}', '#', '&', '*', '!', '|', '>', '\'', '"', '%', '@', '`'].contains c

/-- A character that stands for itself in quotes. -/
def isVerbatim (c : Char) : Bool := isQuotable c && c != '"' && c != '\\'

/-! ## Plain scalars -/

/-- A plain scalar goes on with these characters, after the given one. -/
def isPlainAfter : Char → List Char → Bool
  | previous, [] => !isWhite previous
  | previous, c :: cs =>
    isPrintable c &&
      (if c == '#' then !isWhite previous else if c == ':' then cs.head?.any isSolid else true) &&
        isPlainAfter c cs

/-- A plain scalar on one line. -/
def isPlain : List Char → Bool
  | [] => false
  | c :: cs =>
    isSolid c && (!isIndicator c || (isLead c && cs.head?.any isSolid)) && isPlainAfter c cs

/-- A list of digits. -/
def isDigits (cs : List Char) : Bool := !cs.isEmpty && cs.all Char.isDigit

/-- The characters after a sign. -/
def dropSign : List Char → List Char
  | '-' :: cs => cs
  | '+' :: cs => cs
  | cs => cs

/-- The integers of the core schema. -/
def isInteger : List Char → Bool
  | '0' :: 'o' :: cs => !cs.isEmpty && cs.all fun c => c.isDigit && c != '8' && c != '9'
  | '0' :: 'x' :: cs =>
    !cs.isEmpty && cs.all fun c => c.isDigit || ('a' ≤ c && c ≤ 'f') || ('A' ≤ c && c ≤ 'F')
  | cs => isDigits (dropSign cs)

/-- The exponent of a number, if there is one. -/
def isExponent : List Char → Bool
  | [] => true
  | c :: cs => (c == 'e' || c == 'E') && isDigits (dropSign cs)

/-- The floating-point numbers of the core schema. -/
def isFloat (cs : List Char) : Bool :=
  let body := dropSign cs
  let whole := body.takeWhile Char.isDigit
  [".inf", ".Inf", ".INF"].contains (String.ofList body) ||
    [".nan", ".NaN", ".NAN"].contains (String.ofList cs) ||
    match body.dropWhile Char.isDigit with
    | '.' :: rest =>
      (!whole.isEmpty || !(rest.takeWhile Char.isDigit).isEmpty) &&
        isExponent (rest.dropWhile Char.isDigit)
    | rest => !whole.isEmpty && isExponent rest

/-- The spellings of `null`. -/
def isNull (cs : List Char) : Bool := ["null", "Null", "NULL", "~"].contains (String.ofList cs)

/-- The spellings of `true`. -/
def isTrue (cs : List Char) : Bool := ["true", "True", "TRUE"].contains (String.ofList cs)

/-- The spellings of `false`. -/
def isFalse (cs : List Char) : Bool := ["false", "False", "FALSE"].contains (String.ofList cs)

/-- The core schema takes a plain scalar for a string. -/
def isText (cs : List Char) : Bool :=
  !isNull cs && !isTrue cs && !isFalse cs && !isInteger cs && !isFloat cs

/-- What a plain scalar resolves to. -/
def resolve (cs : List Char) : Scalar :=
  if isNull cs then .null
  else if isTrue cs then .bool true
  else if isFalse cs then .bool false
  else if isInteger cs || isFloat cs then .number (String.ofList cs)
  else .string (String.ofList cs)

/-! ## Double-quoted scalars -/

/-- What comes after a backslash: a character, or digits of one. -/
inductive Escape
  | char (value : Char)
  | digits (count : Nat)

/-- What an escaped character stands for. -/
def escape : Char → Option Escape
  | '0' => some (.char '\x00')
  | 'a' => some (.char '\x07')
  | 'b' => some (.char '\x08')
  | 't' | '\t' => some (.char '\t')
  | 'n' => some (.char '\n')
  | 'v' => some (.char '\x0b')
  | 'f' => some (.char '\x0c')
  | 'r' => some (.char '\r')
  | 'e' => some (.char '\x1b')
  | ' ' => some (.char ' ')
  | '"' => some (.char '"')
  | '/' => some (.char '/')
  | '\\' => some (.char '\\')
  | 'N' => some (.char '\u0085')
  | '_' => some (.char '\u00a0')
  | 'L' => some (.char '\u2028')
  | 'P' => some (.char '\u2029')
  | 'x' => some (.digits 2)
  | 'u' => some (.digits 4)
  | 'U' => some (.digits 8)
  | _ => none

/-- The value of a hexadecimal digit. -/
def hexDigit (c : Char) : Option Nat :=
  if c.isDigit then some (c.toNat - '0'.toNat)
  else if 'a' ≤ c && c ≤ 'f' then some (c.toNat - 'a'.toNat + 10)
  else if 'A' ≤ c && c ≤ 'F' then some (c.toNat - 'A'.toNat + 10)
  else none

/-- Where the reader of a double-quoted scalar is. -/
inductive Scan
  | text
  | escaped
  /-- Before the last digits of an escape, with the value of the first ones. -/
  | digits (count value : Nat)

/-- The scalar up to its closing quote, which ends the line. -/
def decode : Scan → List Char → Option (List Char)
  | _, [] => none
  | .text, c :: cs =>
    if c == '"' then if cs.isEmpty then some [] else none
    else if c == '\\' then decode .escaped cs
    else if isQuotable c then (decode .text cs).map (c :: ·)
    else none
  | .escaped, c :: cs =>
    match escape c with
    | some (.char d) => (decode .text cs).map (d :: ·)
    | some (.digits count) => decode (.digits (count - 1) 0) cs
    | none => none
  | .digits count value, c :: cs =>
    match hexDigit c with
    | none => none
    | some digit =>
      match count with
      -- The last digit of an escape gives its character, if it is one.
      | count + 1 => decode (.digits count (16 * value + digit)) cs
      | 0 =>
        if (16 * value + digit).isValidChar then
          (decode .text cs).map (Char.ofNat (16 * value + digit) :: ·)
        else none

/-- Every character that is read takes at least one of the text. -/
theorem length_of_decode : ∀ {cs : List Char} {scan : Scan} {value : List Char},
    decode scan cs = some value → value.length + 1 ≤ cs.length
  | [], scan, value, h => by cases scan <;> cases h
  -- Each character adds one to the value at most, and the closing quote adds none.
  | c :: cs, .text, value, h => by
    rw [decode] at h
    split_ifs at h with hquote hend hbackslash hquotable
    · cases h
      exact Nat.le_add_left 1 cs.length
    · have ih := length_of_decode h
      rw [List.length_cons]
      omega
    · obtain ⟨rest, hrest, rfl⟩ := Option.map_eq_some_iff.mp h
      have ih := length_of_decode hrest
      rw [List.length_cons, List.length_cons]
      omega
  | c :: cs, .escaped, value, h => by
    rw [decode] at h
    split at h
    · obtain ⟨rest, hrest, rfl⟩ := Option.map_eq_some_iff.mp h
      have ih := length_of_decode hrest
      rw [List.length_cons, List.length_cons]
      omega
    · have ih := length_of_decode h
      rw [List.length_cons]
      omega
    · cases h
  -- The digits of an escape make up one character at their end.
  | c :: cs, .digits count number, value, h => by
    rw [decode] at h
    split at h
    · cases h
    · split at h
      · have ih := length_of_decode h
        rw [List.length_cons]
        omega
      · split_ifs at h
        obtain ⟨rest, hrest, rfl⟩ := Option.map_eq_some_iff.mp h
        have ih := length_of_decode hrest
        rw [List.length_cons, List.length_cons]
        omega

/-- A text in quotes is read as it is when each character stands for itself. -/
theorem decode_concat_iff (value : List Char) :
    decode .text (value ++ ['"']) = some value ↔ value.all isVerbatim = true := by
  induction value with
  | nil => exact iff_of_true rfl rfl
  | cons c cs ih =>
    rw [List.cons_append, decode, List.all_cons, Bool.and_eq_true, ← ih, isVerbatim]
    by_cases hquote : c = '"'
    · simp [hquote]
    by_cases hbackslash : c = '\\'
    · -- An escape is longer than what it stands for.
      have hlength : decode .escaped (cs ++ ['"']) ≠ some (c :: cs) := by
        intro h
        have := length_of_decode h
        simp only [List.length_cons, List.length_append, List.length_nil] at this
        omega
      simp only [hbackslash] at hlength ⊢
      simpa using hlength
    · cases hquotable : isQuotable c <;> simp [hquote, hbackslash]

/-! ## Lines -/

/-- The scalar that a text is. -/
def readScalar : List Char → Option Scalar
  | '"' :: cs => (decode .text cs).map fun value => .string (String.ofList value)
  | cs => if isPlain cs then some (resolve cs) else none

/-- The scalar after a key or a dash. -/
def readValue (cs : List Char) : Option Scalar := readScalar (cs.dropWhile isWhite)

/-- The text up to a colon that ends a key, and the text after it. -/
def splitKey : List Char → Option (List Char × List Char)
  | [] => none
  | c :: cs =>
    if c == ':' && cs.head?.all isWhite then some ([], cs) else (splitKey cs).map fun (key, rest) =>
      (c :: key, rest)

/-- A key that is a plain scalar, and the text after its colon. -/
def readKey (cs : List Char) : Option (String × List Char) :=
  match splitKey cs with
  | some (key, rest) => if isPlain key && isText key then some (String.ofList key, rest) else none
  | none => none

/-- What comes after the dash of an item. -/
def readItem (cs : List Char) : Option Line :=
  let text := cs.dropWhile isWhite
  if text.head? = some '"' || (splitKey text).isNone then (readScalar text).map .item
  else do
    let (key, rest) ← readKey cs
    let value ← readValue rest
    return .itemEntry key value

/-- A line of a mapping at the margin, of a sequence in it, or of a mapping in this. -/
def readLine : List Char → Option Line
  | ' ' :: ' ' :: '-' :: ' ' :: cs => readItem cs
  | ' ' :: ' ' :: ' ' :: ' ' :: cs => do
    let (key, rest) ← readKey cs
    let value ← readValue rest
    return .nested key value
  | cs => do
    let (key, rest) ← readKey cs
    if rest.all isWhite then return .entry key none
    else
      let value ← readValue rest
      return .entry key (some value)

/-! ## Plain texts -/

/-- A solid character is printable and not white. -/
theorem isSolid_iff {c : Char} : isSolid c = true ↔ isPrintable c = true ∧ isWhite c = false := by
  simp [isSolid]

/-- A printable character breaks no line. -/
theorem not_isLineBreak_of_isPrintable {c : Char} (h : isPrintable c = true) :
    isLineBreak c = false :=
  not_isLineBreak_of (by decide) (by decide) h

/-- A plain scalar is on one line after each of its characters. -/
theorem unbroken_of_isPlainAfter : ∀ {cs : List Char} {previous : Char},
    isPlainAfter previous cs = true → Unbroken cs
  | [], _, _ => List.forall_mem_nil _
  | c :: cs, previous, h => by
    simp only [isPlainAfter, Bool.and_eq_true] at h
    exact List.forall_mem_cons.mpr
      ⟨not_isLineBreak_of_isPrintable h.1.1, unbroken_of_isPlainAfter h.2⟩

/-- What the first character of a plain scalar allows. -/
theorem isPlain_cons {c : Char} {cs : List Char} (h : isPlain (c :: cs) = true) :
    isSolid c = true ∧ (isIndicator c = true → isLead c = true ∧ cs.head?.any isSolid = true) ∧
      isPlainAfter c cs = true := by
  simp only [isPlain, Bool.and_eq_true, Bool.or_eq_true, Bool.not_eq_true'] at h
  refine ⟨h.1.1, fun hindicator => ?_, h.2⟩
  obtain hnone | hlead := h.1.2
  · rw [hnone] at hindicator
    cases hindicator
  · exact hlead

/-- A plain scalar is on one line. -/
theorem unbroken_of_isPlain {cs : List Char} (h : isPlain cs = true) : Unbroken cs := by
  cases cs with
  | nil => exact List.forall_mem_nil _
  | cons c cs =>
    obtain ⟨hsolid, -, hafter⟩ := isPlain_cons h
    exact List.forall_mem_cons.mpr
      ⟨not_isLineBreak_of_isPrintable (isSolid_iff.mp hsolid).1, unbroken_of_isPlainAfter hafter⟩

/-- A solid character is not white. -/
theorem head_not_white {cs : List Char} (h : cs.head?.any isSolid = true) :
    cs.head?.all isWhite = false := by
  cases cs with
  | nil => cases h
  | cons c cs => simpa using (isSolid_iff.mp (by simpa using h)).2

/-- A colon in a plain scalar has a solid character after it, and ends no key. -/
theorem splitKey_of_isPlainAfter : ∀ {cs : List Char} {previous : Char},
    isPlainAfter previous cs = true → splitKey cs = none
  | [], _, _ => rfl
  | c :: cs, previous, h => by
    simp only [isPlainAfter, Bool.and_eq_true] at h
    rw [splitKey, splitKey_of_isPlainAfter h.2]
    by_cases hcolon : c = ':'
    · have hnext : cs.head?.any isSolid = true := by simpa [hcolon] using h.1.2
      simp [head_not_white hnext]
    · simp [hcolon]

/-- A plain scalar has no key. -/
theorem splitKey_of_isPlain {cs : List Char} (h : isPlain cs = true) : splitKey cs = none := by
  cases cs with
  | nil => rfl
  | cons c cs =>
    obtain ⟨-, hindicator, hafter⟩ := isPlain_cons h
    rw [splitKey, splitKey_of_isPlainAfter hafter]
    by_cases hcolon : c = ':'
    · subst hcolon
      simp [head_not_white (hindicator rfl).2]
    · simp [hcolon]

/-- The core schema takes a text for the string that it is, or for something else. -/
theorem resolve_eq_string_iff {cs : List Char} {text : String} :
    resolve cs = .string text ↔ isText cs = true ∧ String.ofList cs = text := by
  unfold resolve isText
  cases isNull cs <;> cases isTrue cs <;> cases isFalse cs <;> cases isInteger cs <;>
    cases isFloat cs <;> simp

/-- A string is not longer than its text. -/
theorem length_of_readValue {cs : List Char} {text : String}
    (h : readValue cs = some (.string text)) :
    text.toList.length ≤ cs.length := by
  have hdrop : (cs.dropWhile isWhite).length ≤ cs.length := (List.dropWhile_suffix _).length_le
  rw [readValue] at h
  -- In quotes a text is longer than its value, and as a plain scalar it is its value.
  generalize cs.dropWhile isWhite = rest at h hdrop
  unfold readScalar at h
  split at h
  · obtain ⟨value, hvalue, htext⟩ := Option.map_eq_some_iff.mp h
    have hlength := length_of_decode hvalue
    cases htext
    rw [String.toList_ofList]
    simp only [List.length_cons] at hdrop
    omega
  · split_ifs at h
    obtain ⟨-, rfl⟩ := resolve_eq_string_iff.mp (Option.some.inj h)
    rw [String.toList_ofList]
    exact hdrop

/-- A text is read as it is when it is a plain scalar and a string for the core schema. -/
theorem readValue_eq_string_iff (text : String) :
    readValue text.toList = some (.string text) ↔ isPlain text.toList = true ∧
    isText text.toList = true := by
  constructor
  · intro h
    have hdrop : (text.toList.dropWhile isWhite).length ≤ text.toList.length :=
      (List.dropWhile_suffix _).length_le
    rw [readValue] at h
    generalize text.toList.dropWhile isWhite = rest at h hdrop
    unfold readScalar at h
    split at h
    · -- In quotes it would be longer.
      obtain ⟨value, hvalue, htext⟩ := Option.map_eq_some_iff.mp h
      have hlength := length_of_decode hvalue
      have hvalues : value = text.toList := by
        cases htext
        exact String.toList_ofList.symm
      rw [hvalues] at hlength
      simp only [List.length_cons] at hdrop
      omega
    · split_ifs at h with hplain
      obtain ⟨htext, rfl⟩ := resolve_eq_string_iff.mp (Option.some.inj h)
      rw [String.toList_ofList]
      exact ⟨hplain, htext⟩
  · rintro ⟨hplain, htext⟩
    -- A plain scalar starts with neither white space nor a quote.
    have hfirst : ∃ c cs, text.toList = c :: cs ∧ isWhite c = false ∧ c ≠ '"' := by
      cases hcs : text.toList with
      | nil => rw [hcs] at hplain; cases hplain
      | cons c cs =>
        rw [hcs] at hplain
        obtain ⟨hsolid, hindicator, -⟩ := isPlain_cons hplain
        refine ⟨c, cs, rfl, (isSolid_iff.mp hsolid).2, ?_⟩
        rintro rfl
        exact absurd (hindicator rfl).1 (by decide)
    obtain ⟨c, cs, hcs, hwhite, hquote⟩ := hfirst
    have hdrop : text.toList.dropWhile isWhite = text.toList := by
      rw [hcs, List.dropWhile_cons_of_neg (by simp [hwhite])]
    have hresolve : resolve text.toList = .string text :=
      resolve_eq_string_iff.mpr ⟨htext, String.ofList_toList⟩
    rw [readValue, hdrop, readScalar, if_pos hplain, hresolve]
    rw [hcs]
    rintro rest heq
    exact hquote (List.cons.inj heq).1

/-! ## Places for a value -/

/-- A text that is a key as it is. -/
def IsKey (key : String) : Prop := isPlain key.toList = true ∧ isText key.toList = true ∧
    ':' ∉ key.toList

/-- Whether a text is a key can be checked. -/
instance (key : String) : Decidable (IsKey key) := inferInstanceAs (Decidable (_ ∧ _ ∧ _))

/-- A key ends at the first colon. -/
theorem splitKey_append {key cs : List Char} (hkey : ':' ∉ key)
    (hcs : cs.head?.all isWhite = true) :
    splitKey (key ++ ':' :: cs) = some (key, cs) := by
  induction key with
  | nil => simp [splitKey, hcs]
  | cons c key ih =>
    obtain ⟨hc, hkey⟩ : ':' ≠ c ∧ ':' ∉ key := by simpa using hkey
    rw [List.cons_append, splitKey, ih hkey]
    simp [Ne.symm hc]

/-- A key is read back. -/
theorem readKey_append {key : String} (h : IsKey key) {cs : List Char}
    (hcs : cs.head?.all isWhite = true) :
    readKey (key.toList ++ ':' :: cs) = some (key, cs) := by
  obtain ⟨hplain, htext, hcolon⟩ := h
  simp [readKey, splitKey_append hcolon hcs, hplain, htext]

/-- A line that starts with a key is one of a mapping at the margin. -/
theorem readLine_key {key : String} (h : IsKey key) {cs : List Char}
    (hcs : cs.head?.all isWhite = true) :
    readLine (key.toList ++ ':' :: cs) =
      if cs.all isWhite then some (.entry key none) else (readValue cs).map fun value =>
        .entry key (some value) := by
  have hkey := readKey_append h hcs
  -- A key starts with no space, so that the line is read as one at the margin.
  obtain ⟨c, rest, hline, hwhite⟩ : ∃ c rest, key.toList ++ ':' :: cs = c :: rest ∧ c ≠ ' ' := by
    obtain ⟨hplain, -, -⟩ := h
    cases hchars : key.toList with
    | nil => rw [hchars] at hplain; cases hplain
    | cons c key =>
      rw [hchars] at hplain
      refine ⟨c, key ++ ':' :: cs, rfl, ?_⟩
      rintro rfl
      exact absurd (isPlain_cons hplain).1 (by decide)
  rw [hline] at hkey ⊢
  rw [readLine]
  · simp only [hkey, Option.bind_eq_bind, Option.bind_some]
    split_ifs
    · rfl
    · cases readValue cs <;> rfl
  · rintro rest' heq
    exact hwhite (List.cons.inj heq).1
  · rintro rest' heq
    exact hwhite (List.cons.inj heq).1

/-- A place for a value: a start of lines that are read as `line` says when a string comes after
it. -/
structure ValuePlace where
  start : List Char
  line : String → Line
  start_ne : start ≠ []
  unbroken : Unbroken start
  read_iff : ∀ cs text, readLine (start ++ cs) = some (line text) ↔
    readValue cs = some (.string text)

/-- White characters before a value are skipped. -/
theorem readValue_white {c : Char} (hc : isWhite c = true) (cs : List Char) :
    readValue (c :: cs) = readValue cs := by
  rw [readValue, List.dropWhile_cons_of_pos hc, readValue]

/-- A quoted value is read when its text is decoded. -/
theorem readValue_quote_iff (cs : List Char) (text : String) :
    readValue ('"' :: cs) = some (.string text) ↔ decode .text cs = some text.toList := by
  have hread : readValue ('"' :: cs) = (decode .text cs).map fun value =>
      .string (String.ofList value) := rfl
  rw [hread, Option.map_eq_some_iff]
  constructor
  · rintro ⟨value, hvalue, htext⟩
    cases htext
    rw [hvalue, String.toList_ofList]
  · intro h
    exact ⟨_, h, by rw [String.ofList_toList]⟩

namespace ValuePlace

/-- `key: `. -/
def entry (key : String) (h : IsKey key) : ValuePlace where
  start := key.toList ++ [':', ' ']
  line text := .entry key (some (.string text))
  start_ne := by simp
  unbroken := (unbroken_of_isPlain h.1).append (by decide)
  read_iff cs text := by
    rw [List.append_assoc, List.cons_append, List.cons_append, List.nil_append, readLine_key h rfl,
      readValue_white rfl]
    split_ifs with hwhite
    · -- Nothing but white space comes after the key.
      have hdrop : cs.dropWhile isWhite = [] := by
        refine List.dropWhile_eq_nil_iff.mpr fun c hc => ?_
        rw [List.all_cons, Bool.and_eq_true] at hwhite
        exact List.all_eq_true.mp hwhite.2 c hc
      refine iff_of_false (by simp) ?_
      rw [readValue, hdrop]
      simp [readScalar, isPlain]
    · simp [Option.map_eq_some_iff]

/-- `key: ` in the mapping of an item. -/
def nested (key : String) (h : IsKey key) : ValuePlace where
  start := ' ' :: ' ' :: ' ' :: ' ' :: (key.toList ++ [':', ' '])
  line text := .nested key (.string text)
  start_ne := List.cons_ne_nil _ _
  unbroken := by
    have hkey : Unbroken (key.toList ++ [':', ' ']) := (unbroken_of_isPlain h.1).append (by decide)
    exact (show Unbroken [' ', ' ', ' ', ' '] by decide).append hkey
  read_iff cs text := by
    simp only [List.cons_append, List.append_assoc, List.nil_append, readLine]
    cases hvalue : readValue cs <;> simp [readKey_append h, readValue_white, isWhite, hvalue]

/-- `- `. -/
def item : ValuePlace where
  start := [' ', ' ', '-', ' ']
  line text := .item (.string text)
  start_ne := List.cons_ne_nil _ _
  unbroken := by decide
  read_iff cs text := by
    simp only [List.cons_append, List.nil_append, readLine, readItem]
    split_ifs with hscalar
    · rw [readValue, Option.map_eq_some_iff]
      simp
    · -- A text with a key in it is no scalar.
      simp only [Bool.or_eq_true, decide_eq_true_eq, Option.isNone_iff_eq_none, not_or] at hscalar
      refine iff_of_false (fun h => ?_) fun h => ?_
      · obtain ⟨_, -, h⟩ := Option.bind_eq_some_iff.mp h
        obtain ⟨_, -, h⟩ := Option.bind_eq_some_iff.mp h
        cases h
      · rw [readValue] at h
        generalize cs.dropWhile isWhite = rest at h hscalar
        unfold readScalar at h
        split at h
        · exact hscalar.1 rfl
        · split_ifs at h with hplain
          exact hscalar.2 (splitKey_of_isPlain hplain)

variable (place : ValuePlace) (value : String)

/-- The value in quotes. -/
def quoted : LineField readLine where
  before := place.start ++ ['"']
  value := value.toList
  after := ['"']
  line := place.line value
  Harmless := value.toList.all isVerbatim = true
  before_ne := by simp
  before_unbroken := place.unbroken.append (by decide)
  after_unbroken := by decide
  unbroken h c hc := not_isLineBreak_of (by decide) (by decide) (List.all_eq_true.mp h c hc)
  read_iff _ := by
    rw [List.append_assoc, List.append_assoc, List.singleton_append, place.read_iff,
      readValue_quote_iff]
    exact decode_concat_iff value.toList
  read_part part hpart := by
    rw [List.append_assoc, List.singleton_append, ne_eq, place.read_iff, readValue_quote_iff]
    intro h
    have hlength := length_of_decode h
    rw [String.length_toList] at hlength
    exact absurd hpart (Nat.not_lt.mpr ((Nat.le_succ _).trans hlength))

/-- The value as it is. -/
def plain : LineField readLine where
  before := place.start
  value := value.toList
  after := []
  line := place.line value
  Harmless := isPlain value.toList = true ∧ isText value.toList = true
  before_ne := place.start_ne
  before_unbroken := place.unbroken
  after_unbroken := unbroken_nil
  unbroken h := unbroken_of_isPlain h.1
  read_iff _ := by
    rw [List.append_nil, place.read_iff]
    exact readValue_eq_string_iff value
  read_part part hpart := by
    rw [ne_eq, place.read_iff]
    exact fun h => absurd (length_of_readValue h) (Nat.not_le.mpr hpart)

end ValuePlace

/-! ## Documents -/

/-- The lines of a mapping in an item, its first one apart. -/
def nestedLines (entries : List (String × Scalar)) : List Line :=
  entries.map fun (key, value) => .nested key value

/-- The lines of an item. -/
def Item.lines : Item → List Line
  | .scalar value => [.item value]
  | .mapping (key, value) others => .itemEntry key value :: nestedLines others

/-- The lines of an entry. -/
def entryLines : String × Node → List Line
  | (key, .scalar value) => [.entry key (some value)]
  | (key, .sequence first others) => .entry key none :: (first :: others).flatMap Item.lines

/-- The lines of a document. -/
def Document.lines (document : Document) : List Line := document.flatMap entryLines

/-- What some last lines of a document are: the rest of a mapping in an item, the rest of a
sequence, and entries. -/
structure Groups where
  nested : List (String × Scalar)
  items : List Item
  entries : Document

/-- The lines of groups. -/
def Groups.lines (groups : Groups) : List Line :=
  nestedLines groups.nested ++ (groups.items.flatMap Item.lines ++ groups.entries.lines)

/-- A line before the others. A mapping needs its first key before it, and a sequence the key that
it belongs to. -/
def addLine : Line → Groups → Option Groups
  | .nested key value, ⟨nested, items, entries⟩ => some ⟨(key, value) :: nested, items, entries⟩
  | .itemEntry key value, ⟨nested, items, entries⟩ =>
    some ⟨[], .mapping (key, value) nested :: items, entries⟩
  | .item value, ⟨[], items, entries⟩ => some ⟨[], .scalar value :: items, entries⟩
  | .entry key (some value), ⟨[], [], entries⟩ => some ⟨[], [], (key, .scalar value) :: entries⟩
  | .entry key none, ⟨[], first :: others, entries⟩ =>
    some ⟨[], [], (key, .sequence first others) :: entries⟩
  | _, _ => none

/-- The groups of lines. -/
def group : List Line → Option Groups
  | [] => some ⟨[], [], []⟩
  | line :: lines => (group lines).bind (addLine line)

/-- A line more stands before the others. -/
theorem lines_of_addLine {line : Line} {groups groups' : Groups}
    (h : addLine line groups = some groups') :
    groups'.lines = line :: groups.lines := by
  unfold addLine at h
  split at h
  all_goals cases h
  all_goals simp [Groups.lines, nestedLines, Item.lines, Document.lines, entryLines]

/-- Where a line stands first, the others are lines of groups that it is added to. -/
theorem exists_addLine {line : Line} {lines : List Line} {groups : Groups}
    (h : groups.lines = line :: lines) :
    ∃ before, before.lines = lines ∧ addLine line before = some groups := by
  obtain ⟨nested, items, entries⟩ := groups
  -- The first line is one of the first group that is not empty.
  cases nested with
  | cons entry nested =>
    obtain ⟨rfl, rfl⟩ := List.cons.inj h
    exact ⟨⟨nested, items, entries⟩, rfl, rfl⟩
  | nil =>
    cases items with
    | cons item items =>
      cases item with
      | scalar value =>
        obtain ⟨rfl, rfl⟩ := List.cons.inj h
        exact ⟨⟨[], items, entries⟩, rfl, rfl⟩
      | mapping first others =>
        obtain ⟨rfl, rfl⟩ := List.cons.inj h
        exact ⟨⟨others, items, entries⟩, (List.append_assoc _ _ _).symm, rfl⟩
    | nil =>
      cases entries with
      | nil => cases h
      | cons entry entries =>
        obtain ⟨key, node⟩ := entry
        cases node with
        | scalar value =>
          obtain ⟨rfl, rfl⟩ := List.cons.inj h
          exact ⟨⟨[], [], entries⟩, rfl, rfl⟩
        | sequence first others =>
          obtain ⟨rfl, rfl⟩ := List.cons.inj h
          exact ⟨⟨[], first :: others, entries⟩, rfl, rfl⟩

/-- Lines are grouped into what has these lines. -/
theorem group_eq_some_iff : ∀ {lines : List Line} {groups : Groups},
    group lines = some groups ↔ groups.lines = lines
  | [], groups => by
    constructor
    · intro h
      cases h
      rfl
    · intro h
      -- No lines are in no groups: any other group has a line of its own.
      obtain ⟨nested, items, entries⟩ := groups
      cases nested with
      | cons _ _ => cases h
      | nil =>
        cases items with
        | cons item _ => cases item <;> cases h
        | nil =>
          cases entries with
          | nil => rfl
          | cons entry _ =>
            obtain ⟨_, node⟩ := entry
            cases node <;> cases h
  | line :: lines, groups => by
    rw [group, Option.bind_eq_some_iff]
    constructor
    · rintro ⟨before, hbefore, hadd⟩
      rw [lines_of_addLine hadd, group_eq_some_iff.mp hbefore]
    · intro h
      obtain ⟨before, hbefore, hadd⟩ := exists_addLine h
      exact ⟨before, group_eq_some_iff.mpr hbefore, hadd⟩

/-- The reader of documents. -/
def readDocument (text : List Char) : Option Document := do
  let lines ← (textLines text).mapM readLine
  match ← group lines with
  | ⟨[], [], document⟩ => return document
  | _ => none

/-- A text is read as a document when its lines are read as the lines of the document. -/
theorem readDocument_eq_some_iff (text : List Char) (document : Document) :
    readDocument text = some document ↔ (textLines text).mapM readLine = some document.lines := by
  constructor
  · intro h
    obtain ⟨lines, hlines, h⟩ := Option.bind_eq_some_iff.mp h
    obtain ⟨groups, hgroups, h⟩ := Option.bind_eq_some_iff.mp h
    split at h
    · cases h
      rw [hlines, ← group_eq_some_iff.mp hgroups]
      rfl
    · cases h
  · intro h
    have hgroup : group document.lines = some ⟨[], [], document⟩ := group_eq_some_iff.mpr rfl
    simp [readDocument, h, hgroup]

end Lib.Yaml
