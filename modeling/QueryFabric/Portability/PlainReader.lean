import QueryFabric.Paseto.Separation
import QueryFabric.Portability.BundleJson
import QueryFabric.Portability.Documents
import QueryFabric.Portability.Scalars

/-!
# A reader of plain values

An instance of the reader and the identifiers that the bundles are stated over: numbers are
integers, a string is escaped at its quotes, backslashes and line feeds, and a text has no blanks.
Nothing is stated over this instance beside the cases of general theorems.
-/

namespace QueryFabric.Portability.Plain

open Lib Lib.Json

/-! ## Documents -/

/-- A writer of numbers and strings with a reader of what it writes. -/
structure ScalarReader (ν : Type) extends ValueText ν where
  readNumber : List Char → Option (ν × List Char)
  readString : List Char → Option (String × List Char)
  readNumber_number : ∀ n r, (∀ c ∈ r.head?, isNumberChar c = false) →
    readNumber (number n ++ r) = some (n, r)
  readString_string : ∀ s r, readString (string s ++ r) = some (s, r)

/-- What stands in front of the next element: the mark that closes the array or object, or the
element. -/
inductive NextElement
  /-- The mark that closes. -/
  | done (rest : List Char)
  /-- The element. -/
  | element (text : List Char)

/-- What stands next in an array or object, whose elements have commas between them. -/
def nextElement (close : Char) (first : Bool) : List Char → Option NextElement
  | [] => none
  | c :: rest =>
    if c = close then some (.done rest)
    else if first then some (.element (c :: rest))
    else if c = ',' then some (.element rest)
    else none

/-- Reads a word. -/
def parseIdent {α : Type} (word : String) (value : α) (text : List Char) : Option (α × List Char) :=
  if word.toList.isPrefixOf text then some (value, text.drop word.toList.length) else none

section Parse

variable {ν : Type} (reader : ScalarReader ν)

mutual

/-- Reads a value of no more than a depth. -/
def parseValue : (fuel depth : Nat) → List Char → Option (Value ν × List Char)
  | 0, _, _ | _ + 1, _, [] => none
  | fuel + 1, depth, c :: rest =>
    match kindOfChar c with
    | .null => parseIdent "null" .null (c :: rest)
    | .bool true => parseIdent "true" (.bool true) (c :: rest)
    | .bool false => parseIdent "false" (.bool false) (c :: rest)
    | .number => (reader.readNumber (c :: rest)).map fun (n, rest) => (.number n, rest)
    | .string => (reader.readString (c :: rest)).map fun (s, rest) => (.string s, rest)
    | .array =>
      if depth = 0 then none
      else (parseItems fuel (depth - 1) true rest).map fun (items, rest) => (.array items, rest)
    | .object =>
      if depth = 0 then none
      else (parseEntries fuel (depth - 1) true rest).map fun (map, rest) => (.object map, rest)
termination_by structural fuel => fuel

/-- Reads the items of an array, up to its end. -/
def parseItems : (fuel depth : Nat) → (first : Bool) → List Char →
    Option (List (Value ν) × List Char)
  | 0, _, _, _ => none
  | fuel + 1, depth, first, text =>
    match nextElement ']' first text with
    | none => none
    | some (.done rest) => some ([], rest)
    | some (.element text) => do
      let (item, rest) ← parseValue fuel depth text
      let (items, rest) ← parseItems fuel depth false rest
      return (item :: items, rest)
termination_by structural fuel => fuel

/-- Reads the entries of an object, up to its end. -/
def parseEntries : (fuel depth : Nat) → (first : Bool) → List Char →
    Option (List (String × Value ν) × List Char)
  | 0, _, _, _ => none
  | fuel + 1, depth, first, text =>
    match nextElement '\x7d' first text with
    | none => none
    | some (.done rest) => some ([], rest)
    | some (.element text) => do
      let (key, rest) ← reader.readString text
      match rest with
      | ':' :: rest =>
        let (value, rest) ← parseValue fuel depth rest
        let (entries, rest) ← parseEntries fuel depth false rest
        return ((key, value) :: entries, rest)
      | _ => none
termination_by structural fuel => fuel

end

/-- Reads a whole text. -/
def parseDocument (text : List Char) : Option (Value ν) :=
  match parseValue reader (text.length + 1) 127 text with
  | some (value, []) => some value
  | _ => none

end Parse

/-! ## What is written is read -/

section RoundTrip

variable {ν : Type} (reader : ScalarReader ν)

/-- The text of a value begins with the mark of its kind. -/
theorem compactText_head (text : ValueText ν) (value : Value ν) :
    ∃ c rest, compactText text value = c :: rest ∧ kindOfChar c = value.kind ∧ c ≠ ']' := by
  cases value with
  | null => exact ⟨'n', _, rfl, rfl, by decide⟩
  | bool b =>
    cases b with
    | false => exact ⟨'f', _, rfl, rfl, by decide⟩
    | true => exact ⟨'t', _, rfl, rfl, by decide⟩
  | number n =>
    obtain ⟨c, rest, heq⟩ := List.exists_cons_of_ne_nil (text.number_ne_nil n)
    have hnumber := text.number_chars n c (by rw [heq]; exact List.mem_cons_self)
    have hne : c ≠ ']' := fun hc => absurd hnumber (by rw [hc]; decide)
    exact ⟨c, rest, heq, if_pos hnumber, hne⟩
  | string s =>
    obtain ⟨body, heq, -⟩ := text.string_quoted s
    exact ⟨'"', _, heq, rfl, by decide⟩
  | array items => exact ⟨'[', _, rfl, rfl, by decide⟩
  | object map => exact ⟨'\x7b', _, rfl, rfl, by decide⟩

/-- The text of an entry begins with the quote of its key. -/
theorem entryText_head (text : ValueText ν) (entry : String × Value ν) :
    ∃ rest, entryText text entry = '"' :: rest := by
  obtain ⟨body, hkey, -⟩ := text.string_quoted entry.1
  exact ⟨_, by rw [entryText, hkey]; rfl⟩

/-- The mark that closes is the end. -/
theorem nextElement_close (close : Char) (first : Bool) (rest : List Char) :
    nextElement close first (close :: rest) = some (.done rest) := if_pos rfl

/-- The first element has no comma. -/
theorem nextElement_first {close c : Char} (hne : c ≠ close) (rest : List Char) :
    nextElement close true (c :: rest) = some (.element (c :: rest)) :=
  (if_neg hne).trans (if_pos rfl)

/-- A later element stands behind a comma. -/
theorem nextElement_comma {close : Char} (hcomma : close ≠ ',') (rest : List Char) :
    nextElement close false (',' :: rest) = some (.element rest) :=
  (if_neg hcomma.symm).trans ((if_neg Bool.false_ne_true).trans (if_pos rfl))

/-- A word is read. -/
theorem parseIdent_append {α : Type} (word : String) (value : α) (r : List Char) :
    parseIdent word value (word.toList ++ r) = some (value, r) := by
  rw [parseIdent, if_pos (List.isPrefixOf_iff_prefix.mpr (List.prefix_append _ _)), List.drop_left]

/-- What a text of a value in front of something else is read as. -/
def ReadsBack (value : Value ν) : Prop := ∀ fuel depth r, FollowsValue r →
  (compactText reader.toValueText value).length ≤ fuel →
  parseValue reader fuel depth (compactText reader.toValueText value ++ r) =
    if value.fits depth then some (value, r) else none

/-- The text of a scalar has no depth. -/
theorem readsBack_of_scalar {value : Value ν} (hfits : ∀ depth, value.fits depth = true)
    (h : ∀ fuel depth c rest r, FollowsValue r → compactText reader.toValueText value = c :: rest →
      kindOfChar c = value.kind →
      parseValue reader (fuel + 1) depth (c :: (rest ++ r)) = some (value, r)) :
    ReadsBack reader value := by
  intro fuel depth r hr hfuel
  obtain ⟨c, rest, hvalue, hkind, -⟩ := compactText_head reader.toValueText value
  obtain ⟨fuel, rfl⟩ : ∃ n, fuel = n + 1 := by
    rw [hvalue, List.length_cons] at hfuel
    exact ⟨fuel - 1, by omega⟩
  rw [hfits, if_pos rfl, hvalue]
  exact h fuel depth c rest r hr hvalue hkind

/-- `null` is read back. -/
theorem readsBack_null : ReadsBack reader .null := by
  refine readsBack_of_scalar reader (fun depth => by cases depth <;> rfl) ?_
  intro fuel depth c rest r _ hvalue hkind
  rw [parseValue, hkind, ← List.cons_append, ← hvalue]
  exact parseIdent_append "null" Value.null r

/-- A boolean is read back. -/
theorem readsBack_bool (b : Bool) : ReadsBack reader (.bool b) := by
  refine readsBack_of_scalar reader (fun depth => by cases depth <;> rfl) ?_
  intro fuel depth c rest r _ hvalue hkind
  rw [parseValue, hkind, ← List.cons_append, ← hvalue]
  cases b with
  | true => exact parseIdent_append "true" (Value.bool true) r
  | false => exact parseIdent_append "false" (Value.bool false) r

/-- A number is read back. -/
theorem readsBack_number (n : ν) : ReadsBack reader (.number n) := by
  refine readsBack_of_scalar reader (fun depth => by cases depth <;> rfl) ?_
  intro fuel depth c rest r hr hvalue hkind
  rw [parseValue, hkind, ← List.cons_append, ← hvalue]
  exact congrArg (Option.map _) (reader.readNumber_number n r hr.not_number)

/-- A string is read back. -/
theorem readsBack_string (s : String) : ReadsBack reader (.string s) := by
  refine readsBack_of_scalar reader (fun depth => by cases depth <;> rfl) ?_
  intro fuel depth c rest r _ hvalue hkind
  rw [parseValue, hkind, ← List.cons_append, ← hvalue]
  exact congrArg (Option.map _) (reader.readString_string s r)

/-- What comes after an element may follow a value. -/
theorem followsValue_textsAfter {β : Type} (text : β → List Char) {close : Char}
    (hclose : close = ']' ∨ close = '\x7d') (items : List β) (r : List Char) :
    FollowsValue (textsAfter text ',' close items r) :=
  follows_textsAfter (followsValue_cons (.inl rfl)) (followsValue_cons (.inr hclose)) items r

/-- Something comes after every element. -/
theorem length_textsAfter_pos {β : Type} (text : β → List Char) (close : Char) (items : List β) :
    0 < (textsAfter text ',' close items []).length := by
  cases items <;> exact Nat.succ_pos _

/-- An item is read, and then those after it. -/
theorem parseItems_element {item : Value ν} (hitem : ReadsBack reader item) {first : Bool}
    {text rest : List Char} (hrest : FollowsValue rest) {fuel : Nat}
    (hfuel : (compactText reader.toValueText item).length ≤ fuel)
    (hnext : nextElement ']' first text =
      some (.element (compactText reader.toValueText item ++ rest))) (depth : Nat) :
    parseItems reader (fuel + 1) depth first text = if item.fits depth then
        (parseItems reader fuel depth false rest).map fun (items, rest) => (item :: items, rest)
      else none := by
  rw [parseItems, hnext]
  dsimp only
  rw [hitem fuel depth rest hrest hfuel]
  split
  · cases hitems : parseItems reader fuel depth false rest <;> simp [hitems]
  · rfl

/-- The items after the first are read up to the end of the array. -/
theorem parseItems_textsAfter {items : List (Value ν)} (h : ∀ item ∈ items, ReadsBack reader item) :
    ∀ fuel depth r,
      (textsAfter (compactText reader.toValueText) ',' ']' items []).length ≤ fuel →
      parseItems reader fuel depth false
          (textsAfter (compactText reader.toValueText) ',' ']' items r) =
        if Value.fitItems depth items then some (items, r) else none := by
  induction items with
  | nil =>
    intro fuel depth r hfuel
    obtain ⟨fuel, rfl⟩ : ∃ n, fuel = n + 1 := ⟨fuel - 1, (Nat.sub_add_cancel hfuel).symm⟩
    rw [textsAfter, parseItems, nextElement_close, Value.fitItems, if_pos rfl]
  | cons item items ih =>
    intro fuel depth r hfuel
    obtain ⟨hitem, hitems⟩ := List.forall_mem_cons.mp h
    rw [textsAfter, closedTexts_cons, List.length_cons, List.length_append] at hfuel
    obtain ⟨fuel, rfl⟩ : ∃ n, fuel = n + 1 := ⟨fuel - 1, by omega⟩
    -- The item stands behind a comma.
    have hnext : nextElement ']' false
        (textsAfter (compactText reader.toValueText) ',' ']' (item :: items) r) =
          some (.element (compactText reader.toValueText item ++
            textsAfter (compactText reader.toValueText) ',' ']' items r)) := by
      rw [textsAfter, closedTexts_cons]
      exact nextElement_comma (by decide) _
    rw [parseItems_element reader hitem (followsValue_textsAfter _ (.inl rfl) items r) (by omega)
      hnext, ih hitems fuel depth r (by omega), Value.fitItems]
    cases item.fits depth <;> cases Value.fitItems depth items <;> rfl

/-- The items of an array are read up to its end. -/
theorem parseItems_closedTexts {items : List (Value ν)}
    (h : ∀ item ∈ items, ReadsBack reader item) (fuel depth : Nat) (r : List Char)
    (hfuel : (closedTexts (compactText reader.toValueText) ',' ']' items []).length ≤ fuel) :
    parseItems reader fuel depth true
        (closedTexts (compactText reader.toValueText) ',' ']' items r) =
      if Value.fitItems depth items then some (items, r) else none := by
  cases items with
  | nil =>
    obtain ⟨fuel, rfl⟩ : ∃ n, fuel = n + 1 := ⟨fuel - 1, (Nat.sub_add_cancel hfuel).symm⟩
    have htext : closedTexts (compactText reader.toValueText) ',' ']' [] r = ']' :: r := rfl
    rw [htext, parseItems, nextElement_close, Value.fitItems, if_pos rfl]
  | cons item items =>
    obtain ⟨hitem, hitems⟩ := List.forall_mem_cons.mp h
    -- A value does not begin with the closing bracket.
    obtain ⟨c, rest, hvalue, -, hclose⟩ := compactText_head reader.toValueText item
    have hlength : 0 < (compactText reader.toValueText item).length := by
      rw [hvalue]
      exact Nat.succ_pos _
    have hmark := length_textsAfter_pos (compactText reader.toValueText) ']' items
    rw [closedTexts_cons, List.length_append] at hfuel
    obtain ⟨fuel, rfl⟩ : ∃ n, fuel = n + 1 := ⟨fuel - 1, by omega⟩
    -- The first item stands right behind the opening bracket.
    have hnext : nextElement ']' true
        (closedTexts (compactText reader.toValueText) ',' ']' (item :: items) r) =
          some (.element (compactText reader.toValueText item ++
            textsAfter (compactText reader.toValueText) ',' ']' items r)) := by
      rw [closedTexts_cons, hvalue, List.cons_append]
      exact nextElement_first hclose _
    rw [parseItems_element reader hitem (followsValue_textsAfter _ (.inl rfl) items r) (by omega)
      hnext, parseItems_textsAfter reader hitems fuel depth r (by omega), Value.fitItems]
    cases item.fits depth <;> cases Value.fitItems depth items <;> rfl

/-- An array is read back if its items are. -/
theorem readsBack_array {items : List (Value ν)} (h : ∀ item ∈ items, ReadsBack reader item) :
    ReadsBack reader (.array items) := by
  intro fuel depth r hr hfuel
  have htext : ∀ r, compactText reader.toValueText (.array items) ++ r =
      '[' :: closedTexts (compactText reader.toValueText) ',' ']' items r := by
    intro r
    rw [compactText, itemTexts_eq, closedTexts, List.cons_append, List.append_assoc]
    rfl
  have hnil := htext []
  rw [List.append_nil] at hnil
  rw [hnil, List.length_cons] at hfuel
  obtain ⟨fuel, rfl⟩ : ∃ n, fuel = n + 1 := ⟨fuel - 1, by omega⟩
  have hkind : kindOfChar '[' = .array := rfl
  rw [htext, parseValue, hkind]
  dsimp only
  cases depth with
  | zero => rfl
  | succ n =>
    rw [if_neg (Nat.succ_ne_zero n), Nat.add_sub_cancel,
      parseItems_closedTexts reader h fuel n r (by omega), Value.fits]
    split <;> rfl

/-- An entry is read, and then those after it. -/
theorem parseEntries_element {entry : String × Value ν} (hentry : ReadsBack reader entry.2)
    {first : Bool} {text rest : List Char} (hrest : FollowsValue rest) {fuel : Nat}
    (hfuel : (entryText reader.toValueText entry).length ≤ fuel)
    (hnext : nextElement '\x7d' first text =
      some (.element (entryText reader.toValueText entry ++ rest))) (depth : Nat) :
    parseEntries reader (fuel + 1) depth first text = if entry.2.fits depth then
        (parseEntries reader fuel depth false rest).map fun (map, rest) => (entry :: map, rest)
      else none := by
  have htext : entryText reader.toValueText entry ++ rest =
      reader.string entry.1 ++ ':' :: (compactText reader.toValueText entry.2 ++ rest) := by
    rw [entryText, List.append_assoc]
    rfl
  have hlength : (compactText reader.toValueText entry.2).length ≤ fuel := by
    rw [entryText, List.length_append, List.length_cons] at hfuel
    omega
  rw [parseEntries, hnext, htext]
  simp only [Option.bind_eq_bind, reader.readString_string, Option.bind_some]
  rw [hentry fuel depth rest hrest hlength]
  split
  · cases hentries : parseEntries reader fuel depth false rest <;> simp [hentries]
  · rfl

/-- The entries after the first are read up to the end of the object. -/
theorem parseEntries_textsAfter {entries : List (String × Value ν)}
    (h : ∀ entry ∈ entries, ReadsBack reader entry.2) : ∀ fuel depth r,
      (textsAfter (entryText reader.toValueText) ',' '\x7d' entries []).length ≤ fuel →
      parseEntries reader fuel depth false
          (textsAfter (entryText reader.toValueText) ',' '\x7d' entries r) =
        if Value.fitEntries depth entries then some (entries, r) else none := by
  induction entries with
  | nil =>
    intro fuel depth r hfuel
    obtain ⟨fuel, rfl⟩ : ∃ n, fuel = n + 1 := ⟨fuel - 1, (Nat.sub_add_cancel hfuel).symm⟩
    rw [textsAfter, parseEntries, nextElement_close, Value.fitEntries, if_pos rfl]
  | cons entry entries ih =>
    intro fuel depth r hfuel
    obtain ⟨hentry, hentries⟩ := List.forall_mem_cons.mp h
    rw [textsAfter, closedTexts_cons, List.length_cons, List.length_append] at hfuel
    obtain ⟨fuel, rfl⟩ : ∃ n, fuel = n + 1 := ⟨fuel - 1, by omega⟩
    -- The entry stands behind a comma.
    have hnext : nextElement '\x7d' false
        (textsAfter (entryText reader.toValueText) ',' '\x7d' (entry :: entries) r) =
          some (.element (entryText reader.toValueText entry ++
            textsAfter (entryText reader.toValueText) ',' '\x7d' entries r)) := by
      rw [textsAfter, closedTexts_cons]
      exact nextElement_comma (by decide) _
    rw [parseEntries_element reader hentry (followsValue_textsAfter _ (.inr rfl) entries r)
      (by omega) hnext, ih hentries fuel depth r (by omega), Value.fitEntries]
    cases entry.2.fits depth <;> cases Value.fitEntries depth entries <;> rfl

/-- The entries of an object are read up to its end. -/
theorem parseEntries_closedTexts {entries : List (String × Value ν)}
    (h : ∀ entry ∈ entries, ReadsBack reader entry.2) (fuel depth : Nat) (r : List Char)
    (hfuel : (closedTexts (entryText reader.toValueText) ',' '\x7d' entries []).length ≤ fuel) :
    parseEntries reader fuel depth true
        (closedTexts (entryText reader.toValueText) ',' '\x7d' entries r) =
      if Value.fitEntries depth entries then some (entries, r) else none := by
  -- No entry closes the object at once.
  cases entries with
  | nil =>
    obtain ⟨fuel, rfl⟩ : ∃ n, fuel = n + 1 := ⟨fuel - 1, (Nat.sub_add_cancel hfuel).symm⟩
    have htext : closedTexts (entryText reader.toValueText) ',' '\x7d' [] r = '\x7d' :: r := rfl
    rw [htext, parseEntries, nextElement_close, Value.fitEntries, if_pos rfl]
  | cons entry entries =>
    obtain ⟨hentry, hentries⟩ := List.forall_mem_cons.mp h
    obtain ⟨rest, hhead⟩ := entryText_head reader.toValueText entry
    -- Each entry takes a unit of the fuel and at least a character of the text.
    have hlength : 0 < (entryText reader.toValueText entry).length := by
      rw [hhead]
      exact Nat.succ_pos _
    have hmark := length_textsAfter_pos (entryText reader.toValueText) '\x7d' entries
    rw [closedTexts_cons, List.length_append] at hfuel
    obtain ⟨fuel, rfl⟩ : ∃ n, fuel = n + 1 := ⟨fuel - 1, by omega⟩
    -- The first entry starts with a quote, and no comma stands before it.
    have hnext : nextElement '\x7d' true
        (closedTexts (entryText reader.toValueText) ',' '\x7d' (entry :: entries) r) =
          some (.element (entryText reader.toValueText entry ++
            textsAfter (entryText reader.toValueText) ',' '\x7d' entries r)) := by
      rw [closedTexts_cons, hhead, List.cons_append]
      exact nextElement_first (by decide) _
    rw [parseEntries_element reader hentry (followsValue_textsAfter _ (.inr rfl) entries r)
      (by omega) hnext, parseEntries_textsAfter reader hentries fuel depth r (by omega),
      Value.fitEntries]
    cases entry.2.fits depth <;> cases Value.fitEntries depth entries <;> rfl

/-- An object is read back if the values of its entries are. -/
theorem readsBack_object {map : List (String × Value ν)}
    (h : ∀ entry ∈ map, ReadsBack reader entry.2) : ReadsBack reader (.object map) := by
  intro fuel depth r hr hfuel
  have htext : ∀ r, compactText reader.toValueText (.object map) ++ r =
      '\x7b' :: closedTexts (entryText reader.toValueText) ',' '\x7d' map r := by
    intro r
    rw [compactText, entryTexts_eq, closedTexts, List.cons_append, List.append_assoc]
    rfl
  have hnil := htext []
  rw [List.append_nil] at hnil
  rw [hnil, List.length_cons] at hfuel
  obtain ⟨fuel, rfl⟩ : ∃ n, fuel = n + 1 := ⟨fuel - 1, by omega⟩
  have hkind : kindOfChar '\x7b' = .object := rfl
  rw [htext, parseValue, hkind]
  dsimp only
  cases depth with
  | zero => rfl
  | succ n =>
    rw [if_neg (Nat.succ_ne_zero n), Nat.add_sub_cancel,
      parseEntries_closedTexts reader h fuel n r (by omega), Value.fits]
    split <;> rfl

/-- What is written is read back, up to the depth. -/
theorem readsBack : ∀ value : Value ν, ReadsBack reader value :=
  Value.Cases.all {
    null := readsBack_null reader
    bool := readsBack_bool reader
    number := readsBack_number reader
    string := readsBack_string reader
    array := fun _ ih => readsBack_array reader ih
    object := fun _ ih => readsBack_object reader ih }

/-- The text of a value is read as the value, unless more than 127 arrays and objects are in each
other. -/
theorem parseDocument_compactText (value : Value ν) :
    parseDocument reader (compactText reader.toValueText value) =
      if value.fits 127 then some value else none := by
  have hread := readsBack reader value ((compactText reader.toValueText value).length + 1) 127 []
    (fun c hc => by cases hc) (Nat.le_succ _)
  rw [List.append_nil] at hread
  rw [parseDocument, hread]
  cases value.fits 127 <;> rfl

/-- The document of some bytes. -/
def documentOf (bytes : ByteArray) : Option (Value ν) :=
  (String.fromUTF8? bytes).bind fun text => parseDocument reader text.toList

/-- The bytes of the text of a value are read as the text is. -/
theorem documentOf_compactText (value : Value ν) :
    documentOf reader (String.ofList (compactText reader.toValueText value)).toUTF8 =
      if value.fits 127 then some value else none := by
  rw [documentOf, fromUTF8?_eq_some_iff.mpr rfl, Option.bind_some, String.toList_ofList,
    parseDocument_compactText]

/-- A reader of documents, from one of numbers and strings. -/
def ScalarReader.toJsonReader {φ : Type} (reader : ScalarReader (Number φ)) : JsonReader φ where
  toValueText := reader.toValueText
  document := documentOf reader
  document_int value range :=
    documentOf_compactText reader (.number (.int value range))
  document_text value h _ := (documentOf_compactText reader value).trans (if_pos h)
  document_deep value h :=
    (documentOf_compactText reader value).trans (if_neg (Bool.eq_false_iff.mp h))

end RoundTrip

/-! ## Integers -/

/-- An integer as it is printed. -/
def integerText (value : Int) : List Char :=
  (if value < 0 then ['-'] else []) ++ Nat.toDigits 10 value.natAbs

/-- The number of digits, with a sign, if it is in the range. -/
def readMagnitude (negative : Bool) (text : List Char) : Option (Number Empty × List Char) :=
  let (digits, rest) := text.span Char.isDigit
  let magnitude : Int := Nat.ofDigitChars 10 digits 0
  let value := if negative then -magnitude else magnitude
  if range : -2 ^ 63 ≤ value ∧ value < 2 ^ 64 then some (.int value range, rest) else none

/-- A number with or without a minus. -/
def readInteger (text : List Char) : Option (Number Empty × List Char) :=
  if text.head? = some '-' then readMagnitude true text.tail else readMagnitude false text

/-- The digits of a number are digits. -/
theorem isDigit_of_mem_toDigits (n : Nat) : ∀ c ∈ Nat.toDigits 10 n, c.isDigit = true :=
  fun _ hc => Nat.isDigit_of_mem_toDigits (by decide) (by decide) hc

/-- The digits of a number are read back. -/
theorem readMagnitude_toDigits {negative : Bool} {value : Int}
    (range : -2 ^ 63 ≤ value ∧ value < 2 ^ 64)
    (hvalue : (if negative then -(value.natAbs : Int) else value.natAbs) = value) {r : List Char}
    (hr : ∀ c ∈ r.head?, c.isDigit = false) :
    readMagnitude negative (Nat.toDigits 10 value.natAbs ++ r) = some (.int value range, r) := by
  rw [readMagnitude, span_digits (isDigit_of_mem_toDigits _) hr]
  dsimp only
  simp only [Nat.ofDigitChars_ten_toDigits, hvalue, range, and_self, dite_true]

/-- The text of an integer is read back. -/
theorem readInteger_integerText {value : Int} (range : -2 ^ 63 ≤ value ∧ value < 2 ^ 64)
    {r : List Char} (hr : ∀ c ∈ r.head?, c.isDigit = false) :
    readInteger (integerText value ++ r) = some (.int value range, r) := by
  rw [integerText]
  split
  · rename_i hneg
    exact readMagnitude_toDigits range (by rw [if_pos rfl]; omega) hr
  · rename_i hneg
    have hvalue : (if false then -(value.natAbs : Int) else value.natAbs) = value := by
      rw [if_neg Bool.false_ne_true]
      omega
    have hhead : (Nat.toDigits 10 value.natAbs ++ r).head? ≠ some '-' := by
      intro hc
      rw [List.head?_append_of_ne_nil _ Nat.toDigits_ne_nil] at hc
      exact absurd (isDigit_of_mem_toDigits value.natAbs '-' (List.mem_of_mem_head? hc)) (by decide)
    rw [List.nil_append, readInteger, if_neg hhead]
    exact readMagnitude_toDigits range hvalue hr

/-! ## Strings -/

/-- Quotes, backslashes and line feeds are escaped. -/
def escape (c : Char) : List Char := if c = '\n' then ['\\', 'n'] else escapeChar c

/-- The text of a string, with its escapes. -/
def stringText (s : String) : List Char := '"' :: (s.toList.flatMap escape ++ ['"'])

/-- The characters of a string, up to the quote that ends it. A backslash stands in front of what is
escaped. -/
def readBody : (escaped : Bool) → List Char → Option (List Char × List Char)
  | _, [] => none
  | true, c :: rest =>
    (readBody false rest).map fun (body, rest) => ((if c = 'n' then '\n' else c) :: body, rest)
  | false, c :: rest =>
    if c = '"' then some ([], rest)
    else if c = '\\' then readBody true rest
    else (readBody false rest).map fun (body, rest) => (c :: body, rest)

/-- A string in quotes. -/
def readString : List Char → Option (String × List Char)
  | '"' :: rest => (readBody false rest).map fun (body, rest) => (String.ofList body, rest)
  | _ => none

/-- The body of a string is read back. -/
theorem readBody_flatMap (cs r : List Char) :
    readBody false (cs.flatMap escape ++ '"' :: r) = some (cs, r) := by
  induction cs with
  | nil => rfl
  | cons c cs ih =>
    rw [List.flatMap_cons, List.append_assoc, escape, escapeChar]
    split_ifs with hline hescape
    · rw [hline]
      simp [readBody, ih]
    · obtain rfl | rfl := hescape <;> simp [readBody, ih]
    · rw [not_or] at hescape
      simp [readBody, hescape, ih]

/-- A string is read back. -/
theorem readString_stringText (s : String) (r : List Char) :
    readString (stringText s ++ r) = some (s, r) := by
  have htext : stringText s ++ r = '"' :: (s.toList.flatMap escape ++ '"' :: r) := by
    rw [stringText, List.cons_append, List.append_assoc]
    rfl
  rw [htext, readString, readBody_flatMap, Option.map_some]
  dsimp only
  rw [String.ofList_toList]

/-- An escaped text is the body of a string. -/
theorem escapedBody_flatMap_escape (cs : List Char) : EscapedBody (cs.flatMap escape) := by
  induction cs with
  | nil => exact .nil
  | cons c cs ih =>
    rw [List.flatMap_cons, escape, escapeChar]
    split_ifs with hline hescape
    · exact .escape 'n' ih
    · exact .escape c ih
    · exact .plain (fun h => hescape (.inl h)) (fun h => hescape (.inr h)) ih

/-- The text of a number. -/
def numberText : Number Empty → List Char
  | .int value _ => integerText value

/-- A digit is a character of numbers. -/
theorem isNumberChar_of_isDigit {c : Char} (h : c.isDigit = true) : isNumberChar c = true := by
  rw [isNumberChar, h, Bool.true_or]

/-- The text of a number has only characters of numbers. -/
theorem numberText_chars (n : Number Empty) : ∀ c ∈ numberText n, isNumberChar c = true := by
  obtain ⟨value, range⟩ | value := n
  · have hdigits : ∀ c ∈ Nat.toDigits 10 value.natAbs, isNumberChar c = true := fun c hc =>
      isNumberChar_of_isDigit (isDigit_of_mem_toDigits _ c hc)
    rw [numberText, integerText]
    split
    · exact List.forall_mem_cons.mpr ⟨by decide, hdigits⟩
    · exact hdigits
  · cases value

/-- A number is read back. -/
theorem readInteger_numberText (n : Number Empty) (r : List Char)
    (hr : ∀ c ∈ r.head?, isNumberChar c = false) :
    readInteger (numberText n ++ r) = some (n, r) := by
  obtain ⟨value, range⟩ | value := n
  · refine readInteger_integerText range fun c hc => ?_
    rw [← Bool.not_eq_true]
    exact fun hdigit => Bool.false_ne_true ((hr c hc).symm.trans (isNumberChar_of_isDigit hdigit))
  · cases value

/-- `serde_json` on numbers without a fraction, and on strings of no control characters but line
feeds. -/
def scalars : ScalarReader (Number Empty) where
  number := numberText
  string := stringText
  number_inj m n h := by
    have hnil : ∀ c ∈ ([] : List Char).head?, isNumberChar c = false := fun c hc => by cases hc
    have hread := readInteger_numberText m [] hnil
    rw [h, readInteger_numberText n [] hnil] at hread
    exact (Prod.mk.inj (Option.some.inj hread)).1.symm
  number_ne_nil n := by
    obtain ⟨value, range⟩ | value := n
    · exact List.append_ne_nil_of_right_ne_nil _ Nat.toDigits_ne_nil
    · cases value
  number_chars := numberText_chars
  string_inj s t h := by
    have hread := readString_stringText s []
    rw [h, readString_stringText t []] at hread
    exact (Prod.mk.inj (Option.some.inj hread)).1.symm
  string_quoted s := ⟨_, rfl, escapedBody_flatMap_escape s.toList⟩
  readNumber := readInteger
  readString := readString
  readNumber_number := readInteger_numberText
  readString_string := readString_stringText

/-- The reader of documents of such numbers and strings. -/
def reader : JsonReader Empty := scalars.toJsonReader

/-- All numbers without a fraction are read back. -/
theorem roundTrips_number (n : Number Empty) : reader.RoundTrips n := by
  obtain ⟨value, range⟩ | value := n
  · exact reader.document_int value range
  · cases value

/-- Identifiers in the form with hyphens. -/
def uuids : UuidText where
  print id := String.ofList (Paseto.Ideal.hyphenate (Paseto.Ideal.hexDigits 32 id.toNat))
  parse := Paseto.Ideal.parseUuid
  parse_print := Paseto.Ideal.parseUuid_format

end QueryFabric.Portability.Plain
