import Mathlib.Algebra.Group.Nat.Defs
import Mathlib.Algebra.Ring.Int.Defs
import QueryFabric.Portability.Canonical

/-!
# Reading JSON

`parse_json_without_duplicate_keys` of `crates/queryfabric-portability/src/import.rs`. `serde_json`
reads a text as a document, no deeper than 127 arrays and objects in each other: its deserializer
starts with a recursion limit of 128, which each of them lowers by one, and refuses the one that
brings it to zero. What it reads and writes is a parameter (`JsonReader`).

The visitor of the crate takes a document to a value of maps. It refuses a key that stands twice in
an object, and what it makes of the others is the value of maps that stands for the same
(`strictValue_eq_some_iff`). The maps are `BTreeMap`s, with their entries in the order of the keys.
-/

namespace QueryFabric.Portability

open Lib Lib.Json

/-- `serde_json::Number` over the numbers with a fraction or an exponent: an integer is that of an
`i64` or a `u64`. -/
inductive Number (φ : Type)
  /-- An integer. -/
  | int (value : Int) (range : -2 ^ 63 ≤ value ∧ value < 2 ^ 64)
  /-- A number with a fraction or an exponent. -/
  | float (value : φ)

/-- `serde_json` as a writer of numbers and strings and as a reader of texts. `document` is what
`Deserializer::from_slice` shows a visitor of some bytes up to their end, with the entries of
objects as they stand. It reads integers back, and with them the texts of all values whose numbers
it reads back: without its feature `float_roundtrip` a fraction can come back as one beside it.
Texts past the recursion limit of 128 it refuses. -/
structure JsonReader (φ : Type) extends ValueText (Number φ) where
  document : ByteArray → Option (Value (Number φ))
  document_int : ∀ value range, document (String.ofList (number (.int value range))).toUTF8 =
    some (.number (.int value range))
  document_text : ∀ value : Value (Number φ), value.fits 127 = true →
    (value.Numbers fun n => document (String.ofList (number n)).toUTF8 = some (.number n)) →
    document (String.ofList (compactText toValueText value)).toUTF8 = some value
  document_deep : ∀ value : Value (Number φ), value.fits 127 = false →
    document (String.ofList (compactText toValueText value)).toUTF8 = none

/-- A number that is read back from its text. -/
def JsonReader.RoundTrips {φ : Type} (reader : JsonReader φ) (n : Number φ) : Prop :=
  reader.document (String.ofList (reader.number n)).toUTF8 = some (.number n)

/-! ## Strict reading -/

section Strict

variable {ν : Type}

mutual

/-- `StrictValueVisitor` on a document. No number of a text is infinite. -/
def strictValue : Value ν → Option (Value ν)
  | .null => some .null
  | .bool value => some (.bool value)
  | .number value => some (.number value)
  | .string value => some (.string value)
  | .array items => (strictItems items).map .array
  | .object entries => (strictEntries [] entries).map .object
termination_by structural document => document

/-- The loop of `visit_seq`. -/
def strictItems : List (Value ν) → Option (List (Value ν))
  | [] => some []
  | item :: items => do
    let value ← strictValue item
    let values ← strictItems items
    return value :: values
termination_by structural items => items

/-- The loop of `visit_map`, with the map that it has filled so far. -/
def strictEntries : (values entries : List (String × Value ν)) → Option (List (String × Value ν))
  | values, [] => some values
  | values, (key, item) :: entries =>
    if values.any fun entry => entry.1 = key then none
    else do
      let value ← strictValue item
      strictEntries (mapInsert (fun a b => decide (a < b)) key value values) entries
termination_by structural _ entries => entries

end

end Strict

/-! ## Maps in key order -/

/-- Strings are in a linear order. -/
theorem isKeyOrder_string : IsKeyOrder fun a b : String => decide (a < b) where
  irrefl a := by simp
  trans hab hbc := decide_eq_true (lt_trans (of_decide_eq_true hab) (of_decide_eq_true hbc))
  trichotomy a b hab hba := by
    simp only [decide_eq_false_iff_not, not_lt] at hab hba
    exact le_antisymm hba hab

section Order

variable {ν α : Type}

/-- The keys of a map are in order when each comes before the later ones. -/
theorem keysSorted_string_iff {entries : List (String × α)} :
    KeysSorted (fun a b => decide (a < b)) entries ↔ (entries.map Prod.fst).Pairwise (· < ·) := by
  rw [keysSorted_iff]
  simp only [decide_eq_true_eq]

/-- The members of a map in key order are its entries. -/
theorem members_of_keysSorted {entries : List (String × α)}
    (h : KeysSorted (fun a b => decide (a < b)) entries) : members entries = entries := by
  have hkeys : sortKeys (entries.map Prod.fst) = entries.map Prod.fst :=
    List.Pairwise.insertionSort_eq ((keysSorted_iff.mp h).imp fun hlt => (of_decide_eq_true hlt).le)
  have hlookup : ∀ entry ∈ entries,
      (entries.lookup entry.1).map (fun value => (entry.1, value)) = some entry := by
    intro entry hentry
    rw [(lookup_eq_some_iff isKeyOrder_string entry.1 entry.2 h).mpr hentry]
    rfl
  rw [members, hkeys, List.filterMap_map]
  exact (List.filterMap_congr hlookup).trans List.filterMap_some

/-- A value in key order has no key twice. -/
theorem distinct_of_sorted : ∀ value : Value ν, value.Sorted → value.Distinct :=
  Value.Cases.all {
    null := fun _ => trivial
    bool := fun _ _ => trivial
    number := fun _ _ => trivial
    string := fun _ _ => trivial
    array := fun _ ih hsorted => Value.distinctItems_iff.mpr fun item hitem =>
      ih item hitem (Value.sortedItems_iff.mp hsorted item hitem)
    object := fun _ ih hsorted => ⟨hsorted.1.imp ne_of_lt,
      Value.distinctEntries_iff.mpr fun entry hentry =>
        ih entry hentry (Value.sortedEntries_iff.mp hsorted.2 entry hentry)⟩ }

/-- A value in key order is written as it stands. -/
theorem writeCanonical_eq_compactText (text : ValueText ν) : ∀ value : Value ν, value.Sorted →
    writeCanonical text value = compactText text value :=
  Value.Cases.all {
    null := fun _ => rfl
    bool := fun _ _ => rfl
    number := fun _ _ => rfl
    string := fun _ _ => rfl
    array := fun items ih hsorted => by
      have hitems : items.map (writeCanonical text) = items.map (compactText text) :=
        List.map_congr_left fun item hitem =>
          ih item hitem (Value.sortedItems_iff.mp hsorted item hitem)
      rw [writeCanonical, writeItems_eq, compactText, itemTexts_eq, hitems]
    object := fun map ih hsorted => by
      have hentries : map.map (memberText text) = map.map (entryText text) := by
        refine List.map_congr_left fun entry hentry => ?_
        rw [memberText, entryText,
          ih entry hentry (Value.sortedEntries_iff.mp hsorted.2 entry hentry)]
      rw [writeCanonical_object, compactText, entryTexts_eq,
        members_of_keysSorted (keysSorted_string_iff.mpr hsorted.1), hentries] }

/-- Lists that are read alike are equal where their members are. -/
theorem eq_of_map_eq {α β : Type} {reading : α → β} : ∀ {as bs : List α},
    as.map reading = bs.map reading →
      (∀ a ∈ as, ∀ b ∈ bs, reading a = reading b → a = b) → as = bs := by
  intro as bs heq h
  have hmap : as.map id = bs.map id := map_eq_map_of_map_eq heq h
  rwa [List.map_id, List.map_id] at hmap

/-- Values in key order that stand for the same are equal. -/
theorem eq_of_read_eq : ∀ value : Value ν, value.Sorted → ∀ other : Value ν, other.Sorted →
    value.read = other.read → value = other := by
  -- Equal readings are of one kind, and sorted keys leave one order for the members.
  refine Value.Cases.all ⟨?_, ?_, ?_, ?_, ?_, ?_⟩
  · intro _ other _ heq
    cases other with
    | null => rfl
    | _ => cases heq
  · intro b _ other _ heq
    cases other with
    | bool b' => cases heq; rfl
    | _ => cases heq
  · intro n _ other _ heq
    cases other with
    | number n' => cases heq; rfl
    | _ => cases heq
  · intro s _ other _ heq
    cases other with
    | string s' => cases heq; rfl
    | _ => cases heq
  · intro items ih hsorted other hsorted' heq
    cases other with
    | array items' =>
      rw [Value.read, Value.read, Value.readItems_eq, Value.readItems_eq,
        Reading.array.injEq] at heq
      refine congrArg Value.array (eq_of_map_eq heq fun item hitem item' hitem' => ?_)
      exact ih item hitem (Value.sortedItems_iff.mp hsorted item hitem) item'
        (Value.sortedItems_iff.mp hsorted' item' hitem')
    | _ => cases heq
  · intro map ih hsorted other hsorted' heq
    cases other with
    | object map' =>
      -- Sorted entries are their own members.
      have hmembers := members_reading_eq (hsorted.1.imp ne_of_lt) (hsorted'.1.imp ne_of_lt) heq
      rw [members_of_keysSorted (keysSorted_string_iff.mpr hsorted.1),
        members_of_keysSorted (keysSorted_string_iff.mpr hsorted'.1)] at hmembers
      refine congrArg Value.object (eq_of_map_eq hmembers fun entry hentry entry' hentry' h => ?_)
      obtain ⟨hkey, hvalue⟩ := Prod.mk.inj h
      exact Prod.ext hkey (ih entry hentry (Value.sortedEntries_iff.mp hsorted.2 entry hentry)
        entry'.2 (Value.sortedEntries_iff.mp hsorted'.2 entry' hentry') hvalue)
    | _ => cases heq

end Order

/-! ## What is read strictly -/

section Strict

variable {ν : Type}

/-- What the visitor makes of a document: the value of maps that stands for the same. -/
structure Collects (document value : Value ν) : Prop where
  strict : strictValue document = some value
  sorted : value.Sorted
  read : value.read = document.read

/-- The items of an array are read one after the other. -/
theorem strictItems_of_collects {items : List (Value ν)}
    (h : ∀ item ∈ items, ∃ value, Collects item value) :
    ∃ values, strictItems items = some values ∧ Value.SortedItems values ∧
      Value.readItems values = Value.readItems items := by
  induction items with
  | nil => exact ⟨[], rfl, trivial, rfl⟩
  | cons item items ih =>
    obtain ⟨hitem, hitems⟩ := List.forall_mem_cons.mp h
    obtain ⟨value, hvalue⟩ := hitem
    obtain ⟨values, hvalues, hsorted, hread⟩ := ih hitems
    refine ⟨value :: values, ?_, ⟨hvalue.sorted, hsorted⟩, ?_⟩
    · rw [strictItems, hvalue.strict, hvalues]
      rfl
    · rw [Value.readItems, Value.readItems, hvalue.read, hread]

/-- Inserting an entry leaves the values of a map in key order. -/
theorem sortedEntries_mapInsert {values : List (String × Value ν)} {key : String} {value : Value ν}
    (hkeys : KeysSorted (fun a b => decide (a < b)) values) (hvalues : Value.SortedEntries values)
    (hvalue : value.Sorted) :
    Value.SortedEntries (mapInsert (fun a b => decide (a < b)) key value values) := by
  rw [Value.sortedEntries_iff] at hvalues ⊢
  intro entry hentry
  rcases (mem_mapInsert_iff isKeyOrder_string key value entry hkeys).mp hentry with rfl | ⟨-, hold⟩
  · exact hvalue
  · exact hvalues entry hold

/-- The entries of an object are inserted one after the other. What the map says of a key in the end
is what the entries say of it, or what it said before. -/
theorem strictEntries_of_collects {entries : List (String × Value ν)}
    (h : ∀ entry ∈ entries, ∃ value, Collects entry.2 value)
    (hnodup : (entries.map Prod.fst).Nodup) :
    ∀ values : List (String × Value ν), KeysSorted (fun a b => decide (a < b)) values →
      Value.SortedEntries values → (∀ entry ∈ entries, entry.1 ∉ values.map Prod.fst) →
      ∃ final, strictEntries values entries = some final ∧
        KeysSorted (fun a b => decide (a < b)) final ∧ Value.SortedEntries final ∧
        ∀ key, (final.lookup key).map Value.read =
          ((entries.lookup key).map Value.read).or ((values.lookup key).map Value.read) := by
  -- An entry at a time into a map whose keys are sorted; the new keys are apart from those in it.
  induction entries with
  | nil => exact fun values hkeys hvalues _ => ⟨values, rfl, hkeys, hvalues, fun key => rfl⟩
  | cons entry entries ih =>
    intro values hkeys hvalues hfree
    obtain ⟨key, item⟩ := entry
    obtain ⟨⟨value, hvalue⟩, hentries⟩ := List.forall_mem_cons.mp h
    obtain ⟨hfirst, hrest⟩ := List.forall_mem_cons.mp hfree
    obtain ⟨hnew, hnodup⟩ := List.nodup_cons.mp hnodup
    -- The key is not in the map, so it is no duplicate.
    have hnone : (values.any fun entry => entry.1 = key) = false := by
      rw [List.any_eq_false]
      intro entry hentry heq
      exact hfirst (List.mem_map.mpr ⟨entry, hentry, of_decide_eq_true heq⟩)
    -- The later keys are not in the map with this one either.
    have hfree' : ∀ other ∈ entries,
        other.1 ∉ (mapInsert (fun a b => decide (a < b)) key value values).map Prod.fst := by
      intro other hother hmem
      rcases (mem_keys_mapInsert isKeyOrder_string.trichotomy key value _ values).mp hmem
        with heq | hold
      · exact hnew (List.mem_map.mpr ⟨other, hother, heq⟩)
      · exact hrest other hother hold
    obtain ⟨final, hfinal, hsorted, hfinals, hlookup⟩ := ih hentries hnodup _
      (keysSorted_mapInsert isKeyOrder_string key value hkeys)
      (sortedEntries_mapInsert hkeys hvalues hvalue.sorted) hfree'
    refine ⟨final, ?_, hsorted, hfinals, fun other => ?_⟩
    · rw [strictEntries, hnone, if_neg Bool.false_ne_true, hvalue.strict]
      exact hfinal
    · rw [hlookup, lookup_mapInsert_string, lookup_cons_eq]
      -- A lookup finds the new entry, or what it found before.
      split
      · rename_i heq
        have hlater : entries.lookup other = none := by
          rw [← Option.not_isSome_iff_eq_none, lookup_isSome_iff, heq]
          exact hnew
        rw [hlater, Option.map_some, hvalue.read]
        rfl
      · rfl

/-- A document without repeated keys is read. -/
theorem collects_of_distinct : ∀ document : Value ν, document.Distinct →
    ∃ value, Collects document value :=
  Value.Cases.all {
    null := fun _ => ⟨.null, rfl, trivial, rfl⟩
    bool := fun b _ => ⟨.bool b, rfl, trivial, rfl⟩
    number := fun n _ => ⟨.number n, rfl, trivial, rfl⟩
    string := fun s _ => ⟨.string s, rfl, trivial, rfl⟩
    -- One case per constructor: an array collects its items, an object its entries.
    array := fun items ih hdistinct => by
      obtain ⟨values, hvalues, hsorted, hread⟩ := strictItems_of_collects fun item hitem =>
        ih item hitem (Value.distinctItems_iff.mp hdistinct item hitem)
      refine ⟨.array values, ?_, hsorted, ?_⟩
      · rw [strictValue, hvalues, Option.map_some]
      · rw [Value.read, Value.read, hread]
    object := fun entries ih hdistinct => by
      -- No key is met twice, so the map takes every entry.
      obtain ⟨final, hfinal, hkeys, hvalues, hlookup⟩ := strictEntries_of_collects
        (fun entry hentry => ih entry hentry
          (Value.distinctEntries_iff.mp hdistinct.2 entry hentry))
        hdistinct.1 [] List.Pairwise.nil trivial fun _ _ => List.not_mem_nil
      refine ⟨.object final, ?_, ⟨keysSorted_string_iff.mp hkeys, hvalues⟩, ?_⟩
      · rw [strictValue, hfinal, Option.map_some]
      · rw [Value.read, Value.read]
        refine congrArg Reading.object (funext fun key => ?_)
        have hkey := hlookup key
        rw [List.lookup_nil, Option.map_none, Option.or_none] at hkey
        rw [Value.readEntries_eq, Value.readEntries_eq, lookup_map_value, lookup_map_value, hkey] }

/-- The keys of the entries that are inserted are new to the map and to each other. -/
theorem distinct_of_strictEntries {entries : List (String × Value ν)}
    (h : ∀ entry ∈ entries, ∀ value, strictValue entry.2 = some value → entry.2.Distinct) :
    ∀ {values final : List (String × Value ν)}, strictEntries values entries = some final →
      (entries.map Prod.fst).Nodup ∧ Value.DistinctEntries entries ∧
        ∀ entry ∈ entries, entry.1 ∉ values.map Prod.fst := by
  induction entries with
  | nil => exact fun _ => ⟨List.nodup_nil, trivial, List.forall_mem_nil _⟩
  | cons entry entries ih =>
    intro values final hfinal
    obtain ⟨key, item⟩ := entry
    obtain ⟨hitem, hentries⟩ := List.forall_mem_cons.mp h
    rw [strictEntries] at hfinal
    split at hfinal
    · cases hfinal
    -- The key is new, and is known to the entries after it.
    rename_i hnone
    obtain ⟨value, hvalue, hfinal⟩ := Option.bind_eq_some_iff.mp hfinal
    obtain ⟨hnodup, hdistinct, hfree⟩ := ih hentries hfinal
    have hkeys := mem_keys_mapInsert isKeyOrder_string.trichotomy key value
    -- No later entry has this key, no earlier one has it, and the later keys are new too.
    refine ⟨List.nodup_cons.mpr ⟨fun hmem => ?_, hnodup⟩, ⟨hitem value hvalue, hdistinct⟩,
      List.forall_mem_cons.mpr ⟨fun hmem => hnone ?_, fun other hother hmem => ?_⟩⟩
    · obtain ⟨other, hother, heq⟩ := List.mem_map.mp hmem
      exact hfree other hother ((hkeys _ values).mpr (.inl heq))
    · obtain ⟨old, hold, heq⟩ := List.mem_map.mp hmem
      exact List.any_eq_true.mpr ⟨old, hold, decide_eq_true heq⟩
    · exact hfree other hother ((hkeys _ values).mpr (.inr hmem))

/-- Items that are read have no key twice. -/
theorem distinct_of_strictItems {items : List (Value ν)}
    (h : ∀ item ∈ items, ∀ value, strictValue item = some value → item.Distinct) :
    ∀ {values : List (Value ν)}, strictItems items = some values → Value.DistinctItems items := by
  induction items with
  | nil => exact fun _ => trivial
  | cons item items ih =>
    intro values hvalues
    obtain ⟨hitem, hitems⟩ := List.forall_mem_cons.mp h
    obtain ⟨value, hvalue, hrest⟩ := Option.bind_eq_some_iff.mp hvalues
    obtain ⟨values, hvalues, -⟩ := Option.bind_eq_some_iff.mp hrest
    exact ⟨hitem value hvalue, ih hitems hvalues⟩

/-- A document that is read has no key twice. -/
theorem distinct_of_strictValue : ∀ document value : Value ν, strictValue document = some value →
    document.Distinct :=
  Value.Cases.all {
    null := fun _ _ => trivial
    bool := fun _ _ _ => trivial
    number := fun _ _ _ => trivial
    string := fun _ _ _ => trivial
    array := fun items ih value hvalue => by
      obtain ⟨values, hvalues, -⟩ := Option.map_eq_some_iff.mp hvalue
      exact distinct_of_strictItems ih hvalues
    object := fun entries ih value hvalue => by
      obtain ⟨final, hfinal, -⟩ := Option.map_eq_some_iff.mp hvalue
      obtain ⟨hnodup, hdistinct, -⟩ := distinct_of_strictEntries ih hfinal
      exact ⟨hnodup, hdistinct⟩ }

/-- A document is read as a value exactly when it repeats no key, and the value is the one of maps
that stands for the same. -/
theorem strictValue_eq_some_iff {document value : Value ν} :
    strictValue document = some value ↔
      document.Distinct ∧ value.Sorted ∧ value.read = document.read := by
  constructor
  · intro h
    have hdistinct := distinct_of_strictValue document value h
    obtain ⟨found, hfound⟩ := collects_of_distinct document hdistinct
    obtain rfl := Option.some.inj (hfound.strict.symm.trans h)
    exact ⟨hdistinct, hfound.sorted, hfound.read⟩
  · rintro ⟨hdistinct, hsorted, hread⟩
    obtain ⟨found, hfound⟩ := collects_of_distinct document hdistinct
    rw [hfound.strict,
      eq_of_read_eq found hfound.sorted value hsorted (hfound.read.trans hread.symm)]

/-- A value in key order is read as it stands. -/
theorem strictValue_of_sorted {value : Value ν} (h : value.Sorted) :
    strictValue value = some value :=
  strictValue_eq_some_iff.mpr ⟨distinct_of_sorted value h, h, rfl⟩

end Strict

/-- The canonical text of a value in key order whose numbers are read back is read as the value,
unless more than 127 arrays and objects are in each other. -/
theorem document_writeCanonical {φ : Type} (reader : JsonReader φ) {value : Value (Number φ)}
    (h : value.Sorted) (hnumbers : value.Numbers reader.RoundTrips) :
    reader.document (canonicalJsonString reader.toValueText value).toUTF8 =
      if value.fits 127 then some value else none := by
  rw [canonicalJsonString, writeCanonical_eq_compactText reader.toValueText value h]
  split
  · exact reader.document_text value ‹_› hnumbers
  · exact reader.document_deep value (Bool.eq_false_iff.mpr ‹_›)

end QueryFabric.Portability
