import QueryFabric.Portability.JsonReader

/-!
# Structs as JSON objects

What the derived `Serialize` and `Deserialize` of a struct do with a `Value`: the fields that are
not skipped are inserted to the map of an object, and each is looked up in it. Fields that are
missing take their default, or are an error. A struct that is written as an array is not modelled.
-/

namespace QueryFabric.Portability

open Lib.Json

variable {ν α : Type}

/-! ## Writing -/

/-- The map of a struct. A field without a value is skipped. -/
def structMap (fields : List (String × Option (Value ν))) : List (String × Value ν) :=
  (fields.filterMap fun field => field.2.map fun value => (field.1, value)).foldl
    (fun map entry => mapInsert (fun a b => decide (a < b)) entry.1 entry.2 map) []

/-- The object of a structure. -/
def structValue (fields : List (String × Option (Value ν))) : Value ν := .object (structMap fields)

/-- The keys of a structure's map are sorted. -/
theorem keysSorted_structMap (fields : List (String × Option (Value ν))) :
    KeysSorted (fun a b => decide (a < b)) (structMap fields) :=
  keysSorted_foldl_mapInsert isKeyOrder_string Prod.fst Prod.snd _ List.Pairwise.nil

/-- The entries are the fields with a value. -/
theorem mem_structMap {fields : List (String × Option (Value ν))}
    (hnodup : (fields.map Prod.fst).Nodup)
    {entry : String × Value ν} : entry ∈ structMap fields ↔ (entry.1, some entry.2) ∈ fields := by
  have hkeys : ((fields.filterMap fun field => field.2.map fun value => (field.1, value)).map
      Prod.fst).Nodup := by
    refine hnodup.sublist ?_
    induction fields with
    | nil => exact List.Sublist.slnil
    | cons field fields ih =>
      obtain ⟨key, value⟩ := field
      have ih := ih (List.nodup_cons.mp hnodup).2
      cases value with
      | none => exact ih.cons key
      | some value => exact ih.cons_cons key
  rw [structMap, mem_foldl_mapInsert_iff isKeyOrder_string Prod.snd entry List.Pairwise.nil hkeys]
  constructor
  · rintro (⟨hnil, -⟩ | ⟨field, hfield, rfl⟩)
    · cases hnil
    · obtain ⟨⟨key, value⟩, hmem, hvalue⟩ := List.mem_filterMap.mp hfield
      obtain ⟨value, rfl, rfl⟩ := Option.map_eq_some_iff.mp hvalue
      exact hmem
  · exact fun hmem => .inr ⟨entry, List.mem_filterMap.mpr ⟨_, hmem, rfl⟩, rfl⟩

/-- A field is found under its key. -/
theorem lookup_structMap {fields : List (String × Option (Value ν))}
    (hnodup : (fields.map Prod.fst).Nodup)
    (key : String) : (structMap fields).lookup key = (fields.lookup key).join := by
  -- The fields have different names, so a lookup finds the only one.
  have hmem : ∀ value, (key, some value) ∈ fields ↔ (fields.lookup key).join = some value := by
    intro value
    induction fields with
    | nil => simp
    | cons field fields ih =>
      obtain ⟨hkey, hfields⟩ := List.nodup_cons.mp hnodup
      rw [lookup_cons_eq, List.mem_cons]
      split
      · rename_i heq
        have hnot : (key, some value) ∉ fields := fun hmem => hkey (heq ▸ List.mem_map_of_mem hmem)
        rw [Option.join_some, heq]
        constructor
        · rintro (hfield | hmem)
          · rw [← hfield]
          · exact absurd (heq ▸ hmem) hnot
        · rintro hvalue
          exact .inl (by rw [← hvalue])
      · rename_i hne
        rw [← ih hfields]
        exact or_iff_right fun hfield => hne (congrArg Prod.fst hfield)
  refine Option.ext fun value => ?_
  rw [lookup_eq_some_iff isKeyOrder_string key value (keysSorted_structMap fields),
    mem_structMap hnodup]
  exact hmem value

/-- A property that booleans and strings have, and that passes from the members of an array and of
an object of a map to it. -/
structure Inherited (P : Value ν → Prop) : Prop where
  bool : ∀ b, P (.bool b)
  string : ∀ s, P (.string s)
  array : ∀ items, (∀ item ∈ items, P item) → P (.array items)
  object : ∀ map, KeysSorted (fun a b => decide (a < b)) map → (∀ entry ∈ map, P entry.2) →
    P (.object map)

/-- The order of the keys is such a property. -/
theorem inherited_sorted : Inherited (@Value.Sorted ν) where
  bool _ := trivial
  string _ := trivial
  array _ h := Value.sortedItems_iff.mpr h
  object _ hkeys h := ⟨keysSorted_string_iff.mp hkeys, Value.sortedEntries_iff.mpr h⟩

/-- A property of all numbers is such a property. -/
theorem inherited_numbers (P : ν → Prop) : Inherited (Value.Numbers P) where
  bool _ := trivial
  string _ := trivial
  array _ h := Value.numbersItems_iff.mpr h
  object _ _ h := Value.numbersEntries_iff.mpr h

/-- The object of a structure inherits a property from its fields. -/
theorem Inherited.structValue {P : Value ν → Prop} (hP : Inherited P)
    {fields : List (String × Option (Value ν))} (hnodup : (fields.map Prod.fst).Nodup)
    (h : ∀ field ∈ fields, ∀ value ∈ field.2, P value) : P (structValue fields) := by
  refine hP.object _ (keysSorted_structMap fields) fun entry hentry => ?_
  exact h _ ((mem_structMap hnodup).mp hentry) entry.2 rfl

/-- The object of a structure is as deep as its fields. -/
theorem fits_structValue {fields : List (String × Option (Value ν))}
    (hnodup : (fields.map Prod.fst).Nodup) (depth : Nat) :
    (structValue fields).fits (depth + 1) = true ↔ ∀ field ∈ fields, ∀ value ∈ field.2,
    value.fits depth = true := by
  rw [structValue, Value.fits, Value.fitEntries_iff]
  constructor
  · rintro h ⟨key, value⟩ hfield value rfl
    exact h (key, value) ((mem_structMap hnodup).mpr hfield)
  · intro h entry hentry
    exact h _ ((mem_structMap hnodup).mp hentry) entry.2 rfl

/-! ## Reading -/

/-- A field that has to be there. -/
def required (map : List (String × Value ν)) (key : String)
    (decode : Value ν → Option α) : Option α :=
  (map.lookup key).bind decode

/-- An `Option`, which is missing or `null` if it is `None`. -/
def decodeOption (decode : Value ν → Option α) : Option (Value ν) → Option (Option α)
  | none | some .null => some none
  | some value => (decode value).map some

/-- A field of an `Option`. -/
def optional (map : List (String × Value ν)) (key : String) (decode : Value ν → Option α) :
    Option (Option α) :=
  decodeOption decode (map.lookup key)

/-- A field with a default. -/
def defaulted (map : List (String × Value ν)) (key : String) (default : α)
    (decode : Value ν → Option α) : Option α :=
  (map.lookup key).elim (some default) decode

section Struct

variable {fields : List (String × Option (Value ν))} (hnodup : (fields.map Prod.fst).Nodup)
  {key : String} {decode : Value ν → Option α}

include hnodup

/-- A required field of a structure is read of its value. -/
theorem required_structMap : required (structMap fields) key decode =
    (fields.lookup key).join.bind decode := by
  rw [required, lookup_structMap hnodup]

/-- An optional field of a structure is read of its value, if there is one. -/
theorem optional_structMap :
    optional (structMap fields) key decode = decodeOption decode (fields.lookup key).join := by
  rw [optional, lookup_structMap hnodup]

/-- A defaulted field of a structure is read of its value, or has its default. -/
theorem defaulted_structMap {default : α} :
    defaulted (structMap fields) key default decode =
      (fields.lookup key).join.elim (some default) decode := by
  rw [defaulted, lookup_structMap hnodup]

end Struct

/-- An optional field is read back, as no value of it is written as `null`. -/
theorem decodeOption_map {encode : α → Value ν} {decode : Value ν → Option α} (value : Option α)
    (hnull : ∀ a, (encode a).isNull = false) (hdecode : ∀ a ∈ value, decode (encode a) = some a) :
    decodeOption decode (value.map encode) = some value := by
  cases value with
  | none => rfl
  | some a =>
    have hne : encode a ≠ .null :=
      fun heq => Bool.false_ne_true ((hnull a).symm.trans (congrArg Value.isNull heq))
    rw [Option.map_some, decodeOption, hdecode a rfl, Option.map_some]
    exact hne

/-- A list is read back if its items are. -/
theorem mapM_map_of {β : Type} {encode : α → β} {decode : β → Option α} {items : List α}
    (h : ∀ a ∈ items, decode (encode a) = some a) :
    (items.map encode).mapM decode = some items := by
  induction items with
  | nil => rfl
  | cons a items ih =>
    obtain ⟨ha, hitems⟩ := List.forall_mem_cons.mp h
    rw [List.map_cons, List.mapM_cons, ha, ih hitems]
    rfl

end QueryFabric.Portability
