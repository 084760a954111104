import Mathlib.Data.List.TakeWhile

/-!
# BibTeX entries

A reader for an entry whose fields are in braces. A field ends at the brace that closes it, and the
braces in it have to be balanced: `readFields_iff` says that this is all that matters.
-/

namespace Lib.Bibtex

/-- An entry. -/
structure Entry where
  kind : String
  key : String
  fields : List (String × String)
deriving DecidableEq, Repr

/-- The characters between the parts of an entry. -/
def isSpace (c : Char) : Bool := c == ' ' || c == '\n' || c == '\t' || c == '\r'

/-- The characters of a key: a comma, a closing brace or white space ends it. -/
def isKeyChar (c : Char) : Bool := !isSpace c && c != ',' && c != '}'

/-- The text up to the brace that closes it, with so many braces open in it, and the text after
this. -/
def readBraced : Nat → List Char → Option (List Char × List Char)
  | _, [] => none
  | depth, c :: cs =>
    if c == '}' then
      match depth with
      | 0 => some ([], cs)
      | depth + 1 => (readBraced depth cs).map fun (text, rest) => (c :: text, rest)
    else (readBraced (if c == '{' then depth + 1 else depth) cs).map fun (text, rest) =>
      (c :: text, rest)

/-- The braces close each other, after so many that are open. -/
def balanced : Nat → List Char → Bool
  | depth, [] => depth == 0
  | depth, c :: cs =>
    if c == '}' then
      match depth with
      | 0 => false
      | depth + 1 => balanced depth cs
    else balanced (if c == '{' then depth + 1 else depth) cs

/-- A field: a name and a value in braces. -/
def readField (cs : List Char) : Option ((String × String) × List Char) :=
  let cs := cs.dropWhile isSpace
  match (cs.dropWhile Char.isAlpha).dropWhile isSpace with
  | '=' :: rest =>
    match rest.dropWhile isSpace with
    | '{' :: rest => (readBraced 0 rest).map fun (value, rest) =>
        ((String.ofList (cs.takeWhile Char.isAlpha), String.ofList value), rest)
    | _ => none
  | _ => none

/-- The fields up to the end of the entry, which is that of the text. -/
def readFields : Nat → List Char → Option (List (String × String))
  | 0, _ => none
  | fuel + 1, cs =>
    match cs.dropWhile isSpace with
    | ',' :: rest => do
      let (field, rest) ← readField rest
      let fields ← readFields fuel rest
      return field :: fields
    | '}' :: rest => if rest.all isSpace then some [] else none
    | _ => none

/-- The reader of entries. -/
def readEntry : List Char → Option Entry
  | '@' :: cs =>
    match cs.dropWhile Char.isAlpha with
    | '{' :: rest => (readFields rest.length (rest.dropWhile isKeyChar)).map fun fields =>
        { kind := String.ofList (cs.takeWhile Char.isAlpha),
          key := String.ofList (rest.takeWhile isKeyChar), fields }
    | _ => none
  | _ => none

/-! ## What is read back -/

/-- A text is read up to the brace after it exactly when its braces are balanced. -/
theorem readBraced_iff {depth : Nat} {text cs rest : List Char} :
    readBraced depth (text ++ '}' :: cs) = some (text, rest) ↔ balanced depth text = true ∧
    rest = cs := by
  induction text generalizing depth with
  | nil =>
    cases depth with
    | zero => simp [readBraced, balanced, eq_comm]
    | succ depth => simp [readBraced, balanced]
  | cons c text ih =>
    by_cases hclose : c = '}'
    · cases depth with
      | zero => simp [readBraced, balanced, hclose]
      | succ depth => simp [readBraced, balanced, hclose, ih]
    · cases depth <;> simp [readBraced, balanced, hclose, ih]

/-- A field as it is written after another one or after the key. -/
def fieldText (field : String × String) : List Char :=
  ",\n  ".toList ++ (field.1.toList ++ (" = \x7b".toList ++ (field.2.toList ++ ['}'])))

/-- A name of letters. -/
def IsName (name : String) : Prop := name.toList ≠ [] ∧ ∀ c ∈ name.toList, c.isAlpha = true

/-- Whether a text is a name can be checked. -/
instance (name : String) : Decidable (IsName name) :=
  @instDecidableAnd _ _ inferInstance (List.decidableBAll (fun c => c.isAlpha = true) name.toList)

/-- A letter is no space. -/
theorem isSpace_of_isAlpha {c : Char} (h : c.isAlpha = true) : isSpace c = false := by
  by_contra hspace
  simp only [Bool.not_eq_false, isSpace, Bool.or_eq_true, beq_iff_eq] at hspace
  obtain ((rfl | rfl) | rfl) | rfl := hspace <;> revert h <;> decide

/-- A field is read back when its value is balanced. -/
theorem readField_iff {field : String × String} (h : IsName field.1) {cs rest : List Char} :
    readField
      ("\n  ".toList ++ (field.1.toList ++ (" = \x7b".toList ++ (field.2.toList ++ '}' :: cs)))) =
        some (field, rest) ↔
      balanced 0 field.2.toList = true ∧ rest = cs := by
  obtain ⟨name, value⟩ := field
  obtain ⟨hne, halpha⟩ := h
  dsimp only at hne halpha ⊢
  -- The name, the equals sign and the brace are read off one after the other.
  have hstart : ∀ after : List Char, ("\n  ".toList ++ (name.toList ++ after)).dropWhile isSpace =
      name.toList ++ after := by
    intro after
    obtain ⟨c, letters, hletters⟩ := List.exists_cons_of_ne_nil hne
    have hc : isSpace c = false := isSpace_of_isAlpha (halpha c (hletters ▸ List.mem_cons_self))
    rw [List.dropWhile_append_of_pos (List.all_eq_true.mp (by decide)), hletters, List.cons_append,
      List.dropWhile_cons_of_neg (by simp [hc])]
  have hname : ∀ after : List Char,
  (name.toList ++ (" = \x7b".toList ++ after)).takeWhile Char.isAlpha =
      name.toList := by
    intro after
    rw [List.takeWhile_append_of_pos halpha]
    exact List.append_nil _
  have hvalue : ∀ after : List Char,
  ((name.toList ++ (" = \x7b".toList ++ after)).dropWhile Char.isAlpha).dropWhile
      isSpace = "= \x7b".toList ++ after := by
    intro after
    rw [List.dropWhile_append_of_pos halpha]
    rfl
  have hread :
  readField ("\n  ".toList ++ (name.toList ++ (" = \x7b".toList ++ (value.toList ++ '}' :: cs)))) =
      (readBraced 0 (value.toList ++ '}' :: cs)).map fun (value, rest) =>
        ((name, String.ofList value), rest) := by
    unfold readField
    simp only [hstart, hname, hvalue, String.ofList_toList]
    rfl
  rw [hread, Option.map_eq_some_iff, ← readBraced_iff]
  constructor
  · rintro ⟨⟨text, rest'⟩, hbraced, heq⟩
    obtain ⟨hpair, rfl⟩ := Prod.mk.inj heq
    obtain ⟨-, rfl⟩ := Prod.mk.inj hpair
    rw [String.toList_ofList]
    exact (String.toList_ofList ▸ hbraced :)
  · intro hbraced
    exact ⟨_, hbraced, by simp only [String.ofList_toList]⟩

/-- Fields are read back exactly when the braces of each are balanced. -/
theorem readFields_iff {fields : List (String × String)} (hnames : ∀ field ∈ fields, IsName field.1)
    {fuel : Nat}
    (hfuel : fields.length < fuel) :
    readFields fuel (fields.flatMap fieldText ++ "\n\x7d".toList) = some fields ↔
      ∀ field ∈ fields, balanced 0 field.2.toList = true := by
  -- A field at a time, each with a unit of the fuel.
  induction fields generalizing fuel with
  | nil =>
    obtain ⟨fuel, rfl⟩ := Nat.exists_eq_add_of_lt hfuel
    exact iff_of_true rfl (List.forall_mem_nil _)
  | cons field fields ih =>
    obtain ⟨hname, hnames⟩ := List.forall_mem_cons.mp hnames
    obtain ⟨fuel, rfl⟩ : ∃ n, fuel = n + 1 := Nat.exists_eq_add_one_of_ne_zero (by omega)
    have hrest : readFields fuel (fields.flatMap fieldText ++ "\n\x7d".toList) = some fields ↔
        ∀ field ∈ fields, balanced 0 field.2.toList = true := ih hnames (by simpa using hfuel)
    -- The text of the fields starts with a comma, the name and the value of the first one.
    have htext : (field :: fields).flatMap fieldText ++ "\n\x7d".toList =
        ',' :: ("\n  ".toList ++ (field.1.toList ++ (" = \x7b".toList ++ (field.2.toList ++
          '}' :: (fields.flatMap fieldText ++ "\n\x7d".toList))))) := by
      have hcomma : ",\n  ".toList = ',' :: "\n  ".toList := rfl
      simp only [List.flatMap_cons, fieldText, hcomma, List.append_assoc, List.cons_append,
        List.nil_append]
    have hread : ∀ after, readFields (fuel + 1) (',' :: after) = (readField after).bind fun read =>
        (readFields fuel read.2).bind fun others => some (read.1 :: others) := fun _ => rfl
    rw [htext, hread, List.forall_mem_cons, ← hrest, Option.bind_eq_some_iff]
    -- The first value is read back just when it is balanced, and the rest by the induction.
    constructor
    · rintro ⟨⟨read, rest⟩, hfield, hothers⟩
      obtain ⟨others, hothers, heq⟩ := Option.bind_eq_some_iff.mp hothers
      cases heq
      obtain ⟨hbalanced, rfl⟩ := (readField_iff hname).mp hfield
      exact ⟨hbalanced, hothers⟩
    · rintro ⟨hbalanced, hothers⟩
      refine ⟨_, (readField_iff hname).mpr ⟨hbalanced, rfl⟩, ?_⟩
      simp only [hothers, Option.bind_some]

/-- Each field has a character at least. -/
theorem length_le_flatMap_fieldText (fields : List (String × String)) :
    fields.length ≤ (fields.flatMap fieldText).length := by
  induction fields with
  | nil => exact Nat.zero_le _
  | cons field fields ih =>
    have htext : 1 ≤ (fieldText field).length := List.length_pos_iff.mpr (List.cons_ne_nil _ _)
    rw [List.flatMap_cons, List.length_append, List.length_cons]
    omega

/-- What comes after the key ends it. -/
theorem exists_key_end (fields : List (String × String)) : ∃ c cs,
    fields.flatMap fieldText ++ "\n\x7d".toList = c :: cs ∧ isKeyChar c = false := by
  cases fields with
  | nil => exact ⟨'\n', ['}'], rfl, rfl⟩
  | cons field fields => exact ⟨',', _, rfl, rfl⟩

/-- An entry is read back exactly when its key has no character that ends it and the braces of each
field are balanced. -/
theorem readEntry_iff {kind key : String} {fields : List (String × String)} (hkind : IsName kind)
    (hnames : ∀ field ∈ fields, IsName field.1) :
    readEntry ('@' ::
      (kind.toList ++ '{' :: (key.toList ++ (fields.flatMap fieldText ++ "\n\x7d".toList)))) =
        some ⟨kind, key, fields⟩ ↔
      key.toList.all isKeyChar = true ∧ ∀ field ∈ fields, balanced 0 field.2.toList = true := by
  -- The key is read up to what comes after it exactly when no character of it ends it before.
  obtain ⟨c, cs, hafter, hc⟩ := exists_key_end fields
  have hlength : fields.length <
    (key.toList ++ (fields.flatMap fieldText ++ "\n\x7d".toList)).length := by
    have hle := length_le_flatMap_fieldText fields
    have hend : "\n\x7d".toList.length = 2 := rfl
    rw [List.length_append, List.length_append, hend]
    omega
  have hread : ∀ rest, readEntry ('@' :: (kind.toList ++ '{' :: rest)) =
      (readFields rest.length (rest.dropWhile isKeyChar)).map fun fields =>
        ⟨kind, String.ofList (rest.takeWhile isKeyChar), fields⟩ := by
    intro rest
    have htake : (kind.toList ++ '{' :: rest).takeWhile Char.isAlpha = kind.toList := by
      rw [List.takeWhile_append_of_pos hkind.2]
      exact List.append_nil _
    have hdrop : (kind.toList ++ '{' :: rest).dropWhile Char.isAlpha = '{' :: rest := by
      rw [List.dropWhile_append_of_pos hkind.2]
      rfl
    simp only [readEntry, htake, hdrop, String.ofList_toList]
  rw [hread, Option.map_eq_some_iff, ← readFields_iff hnames hlength]
  constructor
  · rintro ⟨read, hfields, heq⟩
    obtain ⟨-, hkey, rfl⟩ := Entry.mk.inj heq
    have hall : ∀ d ∈ key.toList, isKeyChar d = true := by
      intro d hd
      rw [← hkey, String.toList_ofList] at hd
      exact List.mem_takeWhile_imp hd
    rw [List.dropWhile_append_of_pos hall, hafter, List.dropWhile_cons_of_neg (by simp [hc]),
      ← hafter] at hfields
    exact ⟨List.all_eq_true.mpr hall, hfields⟩
  · rintro ⟨hall, hfields⟩
    have hall := List.all_eq_true.mp hall
    refine ⟨fields, ?_, ?_⟩
    · rw [List.dropWhile_append_of_pos hall, hafter,
        List.dropWhile_cons_of_neg (by simp [hc]), ← hafter]
      exact hfields
    · rw [List.takeWhile_append_of_pos hall, hafter, List.takeWhile_cons_of_neg (by simp [hc]),
        List.append_nil, String.ofList_toList]

end Lib.Bibtex
