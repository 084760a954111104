import QueryFabric.Lib.Delimited
import Mathlib.Data.String.Basic

/-!
# JSON values

The values of JSON over any type of numbers. A value stands for a document, whose objects keep their
entries as they are written, and for a value of maps, whose entries are in the order of their keys
(`Value.Sorted`). Beside these are the numbers of a value (`Value.Numbers`), its nesting
(`Value.fits`), its parts (`Value.At`) and its text without blanks (`compactText`), which rests on
the texts of numbers and strings (`ValueText`).
-/

namespace Lib.Json

/-- A JSON value over a type of numbers. The entries of an object are in the order in which they
stand. -/
inductive Value (ν : Type)
  /-- `null`. -/
  | null
  /-- `true` and `false`. -/
  | bool (value : Bool)
  /-- A number. -/
  | number (value : ν)
  /-- A string, without its quotes and escapes. -/
  | string (value : String)
  /-- An array. -/
  | array (items : List (Value ν))
  /-- An object. -/
  | object (map : List (String × Value ν))

namespace Value

variable {ν : Type}

/-! ## Equality -/

section Decide

variable [DecidableEq ν]

mutual

/-- Whether two values are equal. -/
def decEq : (a b : Value ν) → Decidable (a = b)
  | .null, b => match b with
    | .null => isTrue rfl
    | .bool _ | .number _ | .string _ | .array _ | .object _ => isFalse nofun
  | .bool a, b => match b with
    | .bool b => decidable_of_iff (a = b) ⟨congrArg _, Value.bool.inj⟩
    | .null | .number _ | .string _ | .array _ | .object _ => isFalse nofun
  | .number a, b => match b with
    | .number b => decidable_of_iff (a = b) ⟨congrArg _, Value.number.inj⟩
    | .null | .bool _ | .string _ | .array _ | .object _ => isFalse nofun
  | .string a, b => match b with
    | .string b => decidable_of_iff (a = b) ⟨congrArg _, Value.string.inj⟩
    | .null | .bool _ | .number _ | .array _ | .object _ => isFalse nofun
  | .array a, b => match b with
    | .array b => @decidable_of_iff _ (a = b) ⟨congrArg _, Value.array.inj⟩ (decEqItems a b)
    | .null | .bool _ | .number _ | .string _ | .object _ => isFalse nofun
  | .object a, b => match b with
    | .object b => @decidable_of_iff _ (a = b) ⟨congrArg _, Value.object.inj⟩ (decEqEntries a b)
    | .null | .bool _ | .number _ | .string _ | .array _ => isFalse nofun

/-- Whether the items of two arrays are equal. -/
def decEqItems : (a b : List (Value ν)) → Decidable (a = b)
  | [], [] => isTrue rfl
  | [], _ :: _ | _ :: _, [] => isFalse nofun
  | a :: as, b :: bs =>
    have := decEq a b
    have := decEqItems as bs
    decidable_of_iff (a = b ∧ as = bs) (by simp)

/-- Whether the entries of two objects are equal. -/
def decEqEntries : (a b : List (String × Value ν)) → Decidable (a = b)
  | [], [] => isTrue rfl
  | [], _ :: _ | _ :: _, [] => isFalse nofun
  | (name, a) :: as, (name', b) :: bs =>
    have := decEq a b
    have := decEqEntries as bs
    decidable_of_iff ((name = name' ∧ a = b) ∧ as = bs) (by simp)

end

/-- Equality of values is decided by comparing them. -/
instance : DecidableEq (Value ν) := decEq

end Decide

/-! ## Induction -/

/-- What an induction over a value has to show. -/
structure Cases (P : Value ν → Prop) : Prop where
  null : P .null
  bool : ∀ b, P (.bool b)
  number : ∀ n, P (.number n)
  string : ∀ s, P (.string s)
  array : ∀ items, (∀ item ∈ items, P item) → P (.array items)
  object : ∀ map, (∀ entry ∈ map, P entry.2) → P (.object map)

mutual

/-- What every case shows holds of every value. -/
theorem Cases.all {P : Value ν → Prop} (C : Cases P) : ∀ value : Value ν, P value
  | .null => C.null
  | .bool b => C.bool b
  | .number n => C.number n
  | .string s => C.string s
  | .array items => C.array items (C.all_items items)
  | .object map => C.object map (C.all_entries map)

/-- It holds of the items of an array. -/
theorem Cases.all_items {P : Value ν → Prop} (C : Cases P) :
    ∀ items : List (Value ν), ∀ item ∈ items, P item
  | [] => List.forall_mem_nil _
  | item :: items => List.forall_mem_cons.mpr ⟨C.all item, C.all_items items⟩

/-- It holds of the values of an object. -/
theorem Cases.all_entries {P : Value ν → Prop} (C : Cases P) :
    ∀ entries : List (String × Value ν), ∀ entry ∈ entries, P entry.2
  | [] => List.forall_mem_nil _
  | (_, value) :: entries => List.forall_mem_cons.mpr ⟨C.all value, C.all_entries entries⟩

end

/-! ## Keys -/

mutual

/-- The keys of every object are distinct, as those of a map are. -/
def Distinct : Value ν → Prop
  | .null | .bool _ | .number _ | .string _ => True
  | .array items => DistinctItems items
  | .object map => (map.map Prod.fst).Nodup ∧ DistinctEntries map
termination_by structural v => v

/-- The keys are distinct in every item. -/
def DistinctItems : List (Value ν) → Prop
  | [] => True
  | item :: items => Distinct item ∧ DistinctItems items
termination_by structural items => items

/-- The keys are distinct in the value of every entry. -/
def DistinctEntries : List (String × Value ν) → Prop
  | [] => True
  | (_, value) :: entries => Distinct value ∧ DistinctEntries entries
termination_by structural entries => entries

end

mutual

/-- The entries of every object are in the order of their keys, as those of a `BTreeMap` are. -/
def Sorted : Value ν → Prop
  | .null | .bool _ | .number _ | .string _ => True
  | .array items => SortedItems items
  | .object map => (map.map Prod.fst).Pairwise (· < ·) ∧ SortedEntries map
termination_by structural v => v

/-- Every item is in the order of its keys. -/
def SortedItems : List (Value ν) → Prop
  | [] => True
  | item :: items => Sorted item ∧ SortedItems items
termination_by structural items => items

/-- The value of every entry is in the order of its keys. -/
def SortedEntries : List (String × Value ν) → Prop
  | [] => True
  | (_, value) :: entries => Sorted value ∧ SortedEntries entries
termination_by structural entries => entries

end

/-- The items are distinct in their keys when each of them is. -/
theorem distinctItems_iff {items : List (Value ν)} :
    DistinctItems items ↔ ∀ item ∈ items, item.Distinct := by
  induction items with
  | nil => exact iff_of_true trivial (List.forall_mem_nil _)
  | cons item items ih => rw [DistinctItems, ih, List.forall_mem_cons]

/-- The entries are distinct in their keys when each of their values is. -/
theorem distinctEntries_iff {entries : List (String × Value ν)} :
    DistinctEntries entries ↔ ∀ entry ∈ entries, entry.2.Distinct := by
  induction entries with
  | nil => exact iff_of_true trivial (List.forall_mem_nil _)
  | cons entry entries ih => rw [DistinctEntries, ih, List.forall_mem_cons]

/-- The items are in order when each of them is. -/
theorem sortedItems_iff {items : List (Value ν)} :
    SortedItems items ↔ ∀ item ∈ items, item.Sorted := by
  induction items with
  | nil => exact iff_of_true trivial (List.forall_mem_nil _)
  | cons item items ih => rw [SortedItems, ih, List.forall_mem_cons]

/-- The values of the entries are in order when each of them is. -/
theorem sortedEntries_iff {entries : List (String × Value ν)} :
    SortedEntries entries ↔ ∀ entry ∈ entries, entry.2.Sorted := by
  induction entries with
  | nil => exact iff_of_true trivial (List.forall_mem_nil _)
  | cons entry entries ih => rw [SortedEntries, ih, List.forall_mem_cons]

/-! ## Numbers -/

section Numbers

variable (P : ν → Prop)

mutual

/-- Every number of a value has a property. -/
def Numbers : Value ν → Prop
  | .null | .bool _ | .string _ => True
  | .number n => P n
  | .array items => NumbersItems items
  | .object map => NumbersEntries map
termination_by structural v => v

/-- Every number of every item has a property. -/
def NumbersItems : List (Value ν) → Prop
  | [] => True
  | item :: items => Numbers item ∧ NumbersItems items
termination_by structural items => items

/-- Every number of the value of every entry has a property. -/
def NumbersEntries : List (String × Value ν) → Prop
  | [] => True
  | (_, value) :: entries => Numbers value ∧ NumbersEntries entries
termination_by structural entries => entries

end

variable {P}

/-- The numbers of the items have a property when those of each item do. -/
theorem numbersItems_iff {items : List (Value ν)} :
    NumbersItems P items ↔ ∀ item ∈ items, item.Numbers P := by
  induction items with
  | nil => exact iff_of_true trivial (List.forall_mem_nil _)
  | cons item items ih => rw [NumbersItems, ih, List.forall_mem_cons]

/-- The numbers of the entries have a property when those of each of their values do. -/
theorem numbersEntries_iff {entries : List (String × Value ν)} :
    NumbersEntries P entries ↔ ∀ entry ∈ entries, entry.2.Numbers P := by
  induction entries with
  | nil => exact iff_of_true trivial (List.forall_mem_nil _)
  | cons entry entries ih => rw [NumbersEntries, ih, List.forall_mem_cons]

/-- What every number has, those of a value have. -/
theorem numbers_of_forall (h : ∀ n, P n) : ∀ value : Value ν, value.Numbers P :=
  Cases.all {
    null := trivial
    bool := fun _ => trivial
    number := h
    string := fun _ => trivial
    array := fun _ ih => numbersItems_iff.mpr ih
    object := fun _ ih => numbersEntries_iff.mpr ih }

end Numbers

/-! ## Nesting and parts -/

mutual

/-- No more than a number of arrays and objects are in each other. -/
def fits : (depth : Nat) → Value ν → Bool
  | _, .null | _, .bool _ | _, .number _ | _, .string _ => true
  | 0, .array _ | 0, .object _ => false
  | depth + 1, .array items => fitItems depth items
  | depth + 1, .object map => fitEntries depth map
termination_by structural _ v => v

/-- No item has more than a number of arrays and objects in each other. -/
def fitItems : (depth : Nat) → List (Value ν) → Bool
  | _, [] => true
  | depth, item :: items => fits depth item && fitItems depth items
termination_by structural _ items => items

/-- No value of an entry has more than a number of arrays and objects in each other. -/
def fitEntries : (depth : Nat) → List (String × Value ν) → Bool
  | _, [] => true
  | depth, (_, value) :: entries => fits depth value && fitEntries depth entries
termination_by structural _ entries => entries

end

/-- The items fit when each of them does. -/
theorem fitItems_iff {depth : Nat} {items : List (Value ν)} :
    fitItems depth items = true ↔ ∀ item ∈ items, item.fits depth = true := by
  induction items with
  | nil => exact iff_of_true rfl (List.forall_mem_nil _)
  | cons item items ih => rw [fitItems, Bool.and_eq_true, ih, List.forall_mem_cons]

/-- The entries fit when each of their values does. -/
theorem fitEntries_iff {depth : Nat} {entries : List (String × Value ν)} :
    fitEntries depth entries = true ↔ ∀ entry ∈ entries, entry.2.fits depth = true := by
  induction entries with
  | nil => exact iff_of_true rfl (List.forall_mem_nil _)
  | cons entry entries ih => rw [fitEntries, Bool.and_eq_true, ih, List.forall_mem_cons]

/-- `value.At depth part` says that `part` stands in `value`, inside of `depth` arrays and
objects. -/
inductive At : Value ν → Nat → Value ν → Prop
  /-- The value itself. -/
  | root (value : Value ν) : At value 0 value
  /-- What stands in an item. -/
  | item {items : List (Value ν)} {item part : Value ν} {depth : Nat} (hitem : item ∈ items)
      (hpart : At item depth part) : At (.array items) (depth + 1) part
  /-- What stands in the value of an entry. -/
  | entry {map : List (String × Value ν)} {entry : String × Value ν} {part : Value ν} {depth : Nat}
      (hentry : entry ∈ map) (hpart : At entry.2 depth part) : At (.object map) (depth + 1) part

/-- All that stands in an array: itself, and what stands in its items. -/
theorem forall_at_array {items : List (Value ν)} {P : Nat → Value ν → Prop} :
    (∀ depth part, At (.array items) depth part → P depth part) ↔
      P 0 (.array items) ∧ ∀ item ∈ items, ∀ depth part, At item depth part →
      P (depth + 1) part := by
  constructor
  · intro h
    exact ⟨h 0 _ (.root _), fun item hitem depth part hpart => h _ part (.item hitem hpart)⟩
  · rintro ⟨hself, hitems⟩ depth part hpart
    cases hpart with
    | root => exact hself
    | item hitem hpart => exact hitems _ hitem _ part hpart

/-- All that stands in an object: itself, and what stands in the values of its entries. -/
theorem forall_at_object {map : List (String × Value ν)} {P : Nat → Value ν → Prop} :
    (∀ depth part, At (.object map) depth part → P depth part) ↔
      P 0 (.object map) ∧
        ∀ entry ∈ map, ∀ depth part, At entry.2 depth part → P (depth + 1) part := by
  constructor
  · intro h
    exact ⟨h 0 _ (.root _), fun entry hentry depth part hpart => h _ part (.entry hentry hpart)⟩
  · rintro ⟨hself, hentries⟩ depth part hpart
    cases hpart with
    | root => exact hself
    | entry hentry hpart => exact hentries _ hentry _ part hpart

/-! ## Parts of one kind -/

/-- The entries of an object. -/
def entries? : Value ν → Option (List (String × Value ν))
  | .object map => some map
  | _ => none

/-- The items of an array. -/
def items? : Value ν → Option (List (Value ν))
  | .array items => some items
  | _ => none

/-- The text of a string. -/
def string? : Value ν → Option String
  | .string s => some s
  | _ => none

/-- The value of a boolean. -/
def bool? : Value ν → Option Bool
  | .bool b => some b
  | _ => none

/-- Whether a value is `null`. -/
def isNull : Value ν → Bool
  | .null => true
  | _ => false

end Value

/-! ## What a value stands for -/

/-- A value whose objects are finite maps. -/
inductive Reading (ν : Type)
  /-- `null`. -/
  | null
  /-- `true` and `false`. -/
  | bool (value : Bool)
  /-- A number. -/
  | number (value : ν)
  /-- A string. -/
  | string (value : String)
  /-- An array. -/
  | array (items : List (Reading ν))
  /-- An object, by what it says of each key. -/
  | object (fields : String → Option (Reading ν))

namespace Value

variable {ν : Type}

mutual

/-- What a value stands for. -/
def read : Value ν → Reading ν
  | .null => .null
  | .bool b => .bool b
  | .number n => .number n
  | .string s => .string s
  | .array items => .array (readItems items)
  | .object map => .object fun key => (readEntries map).lookup key
termination_by structural v => v

/-- What the items of an array stand for. -/
def readItems : List (Value ν) → List (Reading ν)
  | [] => []
  | item :: items => read item :: readItems items
termination_by structural items => items

/-- The keys of an object with what their values stand for. -/
def readEntries : List (String × Value ν) → List (String × Reading ν)
  | [] => []
  | (key, value) :: entries => (key, read value) :: readEntries entries
termination_by structural entries => entries

end

/-- What the items stand for is what each of them stands for. -/
theorem readItems_eq (items : List (Value ν)) : readItems items = items.map read := by
  induction items with
  | nil => rfl
  | cons item items ih => rw [readItems, ih, List.map_cons]

/-- What the entries stand for is what each of their values stands for. -/
theorem readEntries_eq (entries : List (String × Value ν)) :
    readEntries entries = entries.map fun entry => (entry.1, entry.2.read) := by
  induction entries with
  | nil => rfl
  | cons entry entries ih => rw [readEntries, ih, List.map_cons]

end Value

/-! ## Texts -/

/-- The characters that a number is printed with. -/
def isNumberChar (c : Char) : Bool := c.isDigit || ['-', '+', '.', 'e', 'E'].contains c

/-- What a writer of JSON prints of numbers and strings. A number is printed by the grammar of JSON,
and a string stands in quotes, with those that it contains escaped. -/
structure ValueText (ν : Type) where
  number : ν → List Char
  string : String → List Char
  number_inj : Function.Injective number
  number_ne_nil : ∀ n, number n ≠ []
  number_chars : ∀ n, ∀ c ∈ number n, isNumberChar c = true
  string_inj : Function.Injective string
  string_quoted : ∀ s, ∃ body, string s = '"' :: (body ++ ['"']) ∧ EscapedBody body

/-- The kinds of values that begin differently. -/
inductive ValueKind
  /-- `null`. -/
  | null
  /-- One of the two booleans. -/
  | bool (value : Bool)
  /-- A number. -/
  | number
  /-- A string. -/
  | string
  /-- An array. -/
  | array
  /-- An object. -/
  | object

/-- The kind of a value. -/
def Value.kind {ν : Type} : Value ν → ValueKind
  | .null => .null
  | .bool b => .bool b
  | .number _ => .number
  | .string _ => .string
  | .array _ => .array
  | .object _ => .object

/-- The kind of value that a character begins. -/
def kindOfChar (c : Char) : ValueKind :=
  if isNumberChar c then .number
  else if c = 't' then .bool true
  else if c = 'f' then .bool false
  else if c = '"' then .string
  else if c = '[' then .array
  else if c = '\x7b' then .object
  else .null

section Text

variable {ν : Type} (text : ValueText ν)

mutual

/-- The text of a value without blanks, with the entries of its objects as they stand. -/
def compactText : Value ν → List Char
  | .null => "null".toList
  | .bool b => if b then "true".toList else "false".toList
  | .number n => text.number n
  | .string s => text.string s
  | .array items => '[' :: ([','].intercalate (itemTexts items) ++ [']'])
  | .object map => '\x7b' :: ([','].intercalate (entryTexts map) ++ ['\x7d'])
termination_by structural v => v

/-- The texts of the items of an array. -/
def itemTexts : List (Value ν) → List (List Char)
  | [] => []
  | item :: items => compactText item :: itemTexts items
termination_by structural items => items

/-- The texts of the entries of an object. -/
def entryTexts : List (String × Value ν) → List (List Char)
  | [] => []
  | (key, value) :: entries => (text.string key ++ ':' :: compactText value) :: entryTexts entries
termination_by structural entries => entries

end

/-- The text of an entry: its key and its value, with a colon between them. -/
def entryText (entry : String × Value ν) : List Char :=
  text.string entry.1 ++ ':' :: compactText text entry.2

/-- The texts of the items are those of each. -/
theorem itemTexts_eq (items : List (Value ν)) :
    itemTexts text items = items.map (compactText text) := by
  induction items with
  | nil => rfl
  | cons item items ih => rw [itemTexts, ih, List.map_cons]

/-- The texts of the entries are those of each. -/
theorem entryTexts_eq (entries : List (String × Value ν)) :
    entryTexts text entries = entries.map (entryText text) := by
  induction entries with
  | nil => rfl
  | cons entry entries ih =>
    rw [entryTexts, ih, List.map_cons]
    rfl

end Text

end Lib.Json
