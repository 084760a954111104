import QueryFabric.Lib.Json
import QueryFabric.Maps
import Mathlib.Data.List.Sort
import Mathlib.Data.String.Basic

/-!
# Canonical JSON

`canonical_json_string` of `crates/queryfabric-portability/src/canonical.rs`, which content hashes
and signatures of bundles rest on. What it prints of numbers and strings is `serde_json`'s
(`ValueText`). `Value.read` says what a value stands for, with its objects as finite maps, and
`canonicalJsonString_eq_iff` that the text says no more and no less.
-/

namespace QueryFabric.Portability

open Lib Lib.Json

/-! ## The text -/

section Write

variable {ν : Type} (text : ValueText ν)

/-- `sort_unstable` of the keys, which are distinct. -/
def sortKeys (keys : List String) : List String := keys.insertionSort (· ≤ ·)

mutual

/-- `write_canonical`. -/
def writeCanonical : Value ν → List Char
  | .null => "null".toList
  | .bool b => if b then "true".toList else "false".toList
  | .number n => text.number n
  | .string s => text.string s
  | .array items => '[' :: ([','].intercalate (writeItems items) ++ [']'])
  | .object map =>
    let written := writeEntries map
    let keys := sortKeys (written.map Prod.fst)
    '\x7b' :: ([','].intercalate
      (keys.map fun key => text.string key ++ ':' :: (written.lookup key).getD []) ++ ['\x7d'])
termination_by structural v => v

/-- The texts of the items of an array. -/
def writeItems : List (Value ν) → List (List Char)
  | [] => []
  | item :: items => writeCanonical item :: writeItems items
termination_by structural items => items

/-- The keys of an object with the texts of their values. -/
def writeEntries : List (String × Value ν) → List (String × List Char)
  | [] => []
  | (key, value) :: entries => (key, writeCanonical value) :: writeEntries entries
termination_by structural entries => entries

end

/-- `canonical_json_string`. -/
def canonicalJsonString (value : Value ν) : String := String.ofList (writeCanonical text value)

/-- The items of an array are written one by one. -/
theorem writeItems_eq (items : List (Value ν)) :
    writeItems text items = items.map (writeCanonical text) := by
  induction items with
  | nil => rfl
  | cons item items ih => rw [writeItems, ih, List.map_cons]

/-- The members of an object are written one by one. -/
theorem writeEntries_eq (entries : List (String × Value ν)) :
    writeEntries text entries = entries.map fun entry =>
      (entry.1, writeCanonical text entry.2) := by
  induction entries with
  | nil => rfl
  | cons entry entries ih => rw [writeEntries, ih, List.map_cons]

end Write

/-! ## The members of an object -/

section Members

variable {α β : Type}

/-- Keys are sorted the same in any order. -/
theorem sortKeys_eq_of_perm {keys keys' : List String} (h : keys.Perm keys') :
    sortKeys keys = sortKeys keys' := by
  have hperm : (sortKeys keys).Perm (sortKeys keys') :=
    (List.perm_insertionSort _ keys).trans (h.trans (List.perm_insertionSort _ keys').symm)
  refine hperm.eq_of_pairwise ?_ (List.pairwise_insertionSort _ keys)
    (List.pairwise_insertionSort _ keys')
  exact fun a b _ _ hab hba => le_antisymm hab hba

/-- Sorting keeps the keys. -/
theorem mem_sortKeys {keys : List String} {key : String} : key ∈ sortKeys keys ↔ key ∈ keys :=
  (List.perm_insertionSort _ keys).mem_iff

/-- A key is found when it is there. -/
theorem lookup_isSome_iff (entries : List (String × α)) (key : String) :
    (entries.lookup key).isSome ↔ key ∈ entries.map Prod.fst := by
  induction entries with
  | nil => simp
  | cons entry entries ih =>
    rw [lookup_cons_eq, List.map_cons, List.mem_cons]
    by_cases hkey : key = entry.1
    · simp [hkey]
    · simp [hkey, ih]

/-- A mapped value is found under its key. -/
theorem lookup_map_value (f : α → β) (entries : List (String × α)) (key : String) :
    (entries.map fun entry => (entry.1, f entry.2)).lookup key = (entries.lookup key).map f := by
  induction entries with
  | nil => rfl
  | cons entry entries ih =>
    rw [List.map_cons, lookup_cons_eq, lookup_cons_eq, ih]
    split <;> rfl

/-- The entries that are printed: the keys in order, with the values that they stand for. -/
def members (entries : List (String × α)) : List (String × α) :=
  (sortKeys (entries.map Prod.fst)).filterMap fun key => (entries.lookup key).map fun value =>
    (key, value)

/-- The members of an object are among its entries. -/
theorem mem_of_mem_members {entries : List (String × α)} {entry : String × α}
    (h : entry ∈ members entries) :
    entry ∈ entries := by
  obtain ⟨key, -, hkey⟩ := List.mem_filterMap.mp h
  obtain ⟨value, hvalue, rfl⟩ := Option.map_eq_some_iff.mp hkey
  obtain ⟨before, after, rfl, -⟩ := List.lookup_eq_some_iff.mp hvalue
  exact List.mem_append_right _ List.mem_cons_self

/-- A function of the values may be taken before or after. -/
theorem members_map (f : α → β) (entries : List (String × α)) :
    members (entries.map fun entry => (entry.1, f entry.2)) =
      (members entries).map fun entry => (entry.1, f entry.2) := by
  unfold members
  rw [List.map_filterMap, List.map_map]
  refine congrArg (List.filterMap · _) (funext fun key => ?_)
  rw [lookup_map_value, Option.map_map, Option.map_map]
  rfl

/-- Each key in order is one of a member. -/
theorem map_sortKeys (g : String → Option α → β) (entries : List (String × α)) :
    ((sortKeys (entries.map Prod.fst)).map fun key => g key (entries.lookup key)) =
      (members entries).map fun entry => g entry.1 (some entry.2) := by
  unfold members
  have hkeys (key : String) (hkey : key ∈ sortKeys (entries.map Prod.fst)) :
      (entries.lookup key).isSome :=
    (lookup_isSome_iff entries key).mpr (mem_sortKeys.mp hkey)
  generalize sortKeys (entries.map Prod.fst) = keys at hkeys ⊢
  induction keys with
  | nil => rfl
  | cons key keys ih =>
    obtain ⟨hhead, htail⟩ := List.forall_mem_cons.mp hkeys
    obtain ⟨value, hvalue⟩ := Option.isSome_iff_exists.mp hhead
    rw [List.map_cons, ih htail, List.filterMap_cons, hvalue]
    rfl

/-- The members say what each key stands for. -/
theorem lookup_members (entries : List (String × α)) (key : String) :
    (members entries).lookup key = entries.lookup key := by
  -- A list of keys gives the entries of its keys, the first of each name.
  have hlookup (keys : List String) :
      (keys.filterMap fun key => (entries.lookup key).map fun value =>
      (key, value)).lookup key = if key ∈ keys then entries.lookup key else none := by
    induction keys with
    | nil => rfl
    | cons first keys ih =>
      rw [List.filterMap_cons]
      by_cases hkey : key = first
      · rw [← hkey, if_pos List.mem_cons_self]
        cases hvalue : entries.lookup key with
        | none =>
          rw [Option.map_none, ih, hvalue]
          exact ite_self _
        | some value => rw [Option.map_some, lookup_cons_eq, if_pos rfl]
      · have hmem : key ∈ first :: keys ↔ key ∈ keys := by simp [hkey]
        cases hvalue : entries.lookup first with
        | none => rw [Option.map_none, ih, if_congr hmem rfl rfl]
        | some value => rw [Option.map_some, lookup_cons_eq, if_neg hkey, ih, if_congr hmem rfl rfl]
  unfold members
  rw [hlookup]
  split
  · rfl
  -- A key that is not among the sorted ones has no entry.
  · rename_i hnot
    have hnone := mt (lookup_isSome_iff entries key).mp (fun hmem => hnot (mem_sortKeys.mpr hmem))
    exact (Option.not_isSome_iff_eq_none.mp hnone).symm

/-- Maps that say the same of each key have the same members. -/
theorem members_eq {entries entries' : List (String × α)} (h : (entries.map Prod.fst).Nodup)
    (h' : (entries'.map Prod.fst).Nodup) (heq : ∀ key, entries.lookup key = entries'.lookup key) :
    members entries = members entries' := by
  have hperm : (entries.map Prod.fst).Perm (entries'.map Prod.fst) := by
    refine (List.perm_ext_iff_of_nodup h h').mpr fun key => ?_
    rw [← lookup_isSome_iff, ← lookup_isSome_iff, heq]
  unfold members
  rw [sortKeys_eq_of_perm hperm]
  refine congrArg (List.filterMap · _) (funext fun key => ?_)
  rw [heq]

end Members

/-! ## The text says what the value stands for -/

section Canonical

variable {ν : Type} (text : ValueText ν)

/-- The text of a member of an object. -/
def memberText (member : String × Value ν) : List Char :=
  text.string member.1 ++ ':' :: writeCanonical text member.2

/-- What a member of an object stands for. -/
def memberReading (member : String × Value ν) : String × Reading ν := (member.1, member.2.read)

/-- The text of an object. -/
theorem writeCanonical_object (map : List (String × Value ν)) :
    writeCanonical text (.object map) =
      '\x7b' :: ([','].intercalate ((members map).map (memberText text)) ++ ['\x7d']) := by
  have hmembers := map_sortKeys (fun key written => text.string key ++ ':' :: written.getD [])
    (writeEntries text map)
  rw [writeEntries_eq, members_map] at hmembers
  rw [writeCanonical, writeEntries_eq, hmembers, List.map_map]
  rfl

/-- Objects stand for the same map when their members stand for the same. -/
theorem read_object_eq {map map' : List (String × Value ν)}
    (h : (members map).map memberReading = (members map').map memberReading) :
    (Value.object map).read = (Value.object map').read := by
  have hlookup (map : List (String × Value ν)) (key : String) :
      (Value.readEntries map).lookup key = ((members map).map memberReading).lookup key := by
    rw [Value.readEntries_eq, ← lookup_members, members_map]
    rfl
  rw [Value.read, Value.read]
  refine congrArg Reading.object (funext fun key => ?_)
  rw [hlookup, hlookup, h]

/-- Objects that stand for the same map have members that stand for the same. -/
theorem members_reading_eq {map map' : List (String × Value ν)}
    (hdistinct : (map.map Prod.fst).Nodup)
    (hdistinct' : (map'.map Prod.fst).Nodup)
    (h : (Value.object map).read = (Value.object map').read) :
    (members map).map memberReading = (members map').map memberReading := by
  have hkeys (map : List (String × Value ν)) :
      (Value.readEntries map).map Prod.fst = map.map Prod.fst := by
    rw [Value.readEntries_eq, List.map_map]
    rfl
  rw [Value.read, Value.read, Reading.object.injEq] at h
  have heq : members (Value.readEntries map) = members (Value.readEntries map') :=
    members_eq (by rwa [hkeys]) (by rwa [hkeys]) (congrFun h)
  rw [Value.readEntries_eq, Value.readEntries_eq, members_map, members_map] at heq
  exact heq

/-- The text of a value starts as its kind does. -/
theorem writeCanonical_eq_cons (value : Value ν) :
    ∃ c rest, writeCanonical text value = c :: rest ∧ kindOfChar c = value.kind ∧ c ≠ ']' := by
  cases value with
  | null => exact ⟨'n', _, rfl, rfl, by decide⟩
  | bool b =>
    cases b with
    | false => exact ⟨'f', _, rfl, rfl, by decide⟩
    | true => exact ⟨'t', _, rfl, rfl, by decide⟩
  | number n =>
    obtain ⟨c, rest, heq⟩ := List.exists_cons_of_ne_nil (text.number_ne_nil n)
    have hnumber := text.number_chars n c (by rw [heq]; exact List.mem_cons_self)
    have hne : c ≠ ']' := fun hc => absurd hnumber (by rw [hc]; decide)
    exact ⟨c, rest, heq, if_pos hnumber, hne⟩
  | string s =>
    obtain ⟨body, heq, -⟩ := text.string_quoted s
    exact ⟨'"', _, heq, rfl, by decide⟩
  | array items => exact ⟨'[', _, rfl, rfl, by decide⟩
  | object map => exact ⟨'\x7b', _, rfl, rfl, by decide⟩

/-- What may stand behind a value. -/
def FollowsValue (r : List Char) : Prop := ∀ c ∈ r.head?, c = ',' ∨ c = ']' ∨ c = '\x7d'

/-- What follows a value continues no number. -/
theorem FollowsValue.not_number {r : List Char} (h : FollowsValue r) :
    ∀ c ∈ r.head?, isNumberChar c = false := by
  intro c hc
  obtain rfl | rfl | rfl := h c hc <;> rfl

/-- A value is followed by a delimiter. -/
theorem followsValue_cons {c : Char} (h : c = ',' ∨ c = ']' ∨ c = '\x7d') (r : List Char) :
    FollowsValue (c :: r) := by
  intro c' hc'
  cases hc'
  exact h

/-- The text of a string ends with its quote. -/
theorem string_append_inj {s t : String} {r r' : List Char}
    (h : text.string s ++ r = text.string t ++ r') :
    s = t ∧ r = r' := by
  obtain ⟨body, hs, hbody⟩ := text.string_quoted s
  obtain ⟨body', ht, hbody'⟩ := text.string_quoted t
  have hquotes : body ++ '"' :: r = body' ++ '"' :: r' := by
    rw [hs, ht] at h
    simpa using h
  obtain ⟨heq, hrest⟩ := hbody.append_inj hbody' hquotes
  exact ⟨text.string_inj (by rw [hs, ht, heq]), hrest⟩

/-- The text of a member says what it stands for, as that of its value does. -/
theorem delimits_member {member : String × Value ν}
    (h : Delimits (writeCanonical text) Value.read FollowsValue member.2) :
    Delimits (memberText text) memberReading FollowsValue member := by
  intro other r r' hr hr' heq
  unfold memberText at heq
  rw [List.append_assoc, List.append_assoc] at heq
  obtain ⟨hkey, hrest⟩ := string_append_inj text heq
  obtain ⟨hvalue, hend⟩ := h other.2 r r' hr hr' (List.cons.inj hrest).2
  exact ⟨by rw [memberReading, memberReading, hkey, hvalue], hend⟩

/-- Texts of values of different kinds begin differently. -/
theorem kind_eq_of_append_eq {value other : Value ν} {r r' : List Char}
    (heq : writeCanonical text value ++ r = writeCanonical text other ++ r') :
    value.kind = other.kind := by
  obtain ⟨c, rest, hvalue, hc, -⟩ := writeCanonical_eq_cons text value
  obtain ⟨c', rest', hother, hc', -⟩ := writeCanonical_eq_cons text other
  rw [hvalue, hother] at heq
  rw [← hc, ← hc', (List.cons.inj heq).1]

/-- No value begins with the mark that closes an array. -/
theorem writeCanonical_opens (value : Value ν) : ∃ c rest, writeCanonical text value = c :: rest ∧
    c ≠ ']' := by
  obtain ⟨c, rest, hvalue, -, hne⟩ := writeCanonical_eq_cons text value
  exact ⟨c, rest, hvalue, hne⟩

/-- No member begins with the mark that closes an object. -/
theorem memberText_opens (member : String × Value ν) :
    ∃ c rest, memberText text member = c :: rest ∧ c ≠ '\x7d' := by
  obtain ⟨body, hkey, -⟩ := text.string_quoted member.1
  exact ⟨'"', _, by rw [memberText, hkey]; rfl, by decide⟩

/-- The text of a value says what it stands for and where it ends. -/
theorem delimits_writeCanonical : ∀ value : Value ν,
    Delimits (writeCanonical text) Value.read FollowsValue value := by
  have hcomma (r : List Char) : FollowsValue (',' :: r) := followsValue_cons (.inl rfl) r
  -- The first character tells the kind of a value, so only values of one kind have to be compared.
  refine Value.Cases.all ⟨?_, ?_, ?_, ?_, ?_, ?_⟩
  · intro other r r' _ _ heq
    cases other with
    | null => exact ⟨rfl, List.append_cancel_left heq⟩
    | _ => cases kind_eq_of_append_eq text heq
  · intro b other r r' _ _ heq
    cases other with
    | bool b' =>
      -- Two booleans that are written alike are equal.
      cases kind_eq_of_append_eq text heq
      exact ⟨rfl, List.append_cancel_left heq⟩
    | _ => cases kind_eq_of_append_eq text heq
  · intro n other r r' hr hr' heq
    cases other with
    | number n' =>
      -- A number ends where no character of a number follows.
      obtain ⟨hn, hend⟩ := append_inj_of_all (text.number_chars n)
        (text.number_chars n') hr.not_number hr'.not_number heq
      exact ⟨by rw [text.number_inj hn], hend⟩
    | _ => cases kind_eq_of_append_eq text heq
  · intro s other r r' _ _ heq
    cases other with
    | string s' =>
      obtain ⟨hs, hend⟩ := string_append_inj text heq
      exact ⟨by rw [hs], hend⟩
    | _ => cases kind_eq_of_append_eq text heq
  · intro items ih other r r' _ _ heq
    cases other with
    | array items' =>
      rw [writeCanonical, writeCanonical, writeItems_eq, writeItems_eq, List.cons_append,
        List.cons_append] at heq
      have hitems := (List.cons.inj heq).2
      rw [List.append_assoc, List.append_assoc] at hitems
      -- Items end at a comma or at the bracket.
      obtain ⟨hreadings, hend⟩ :=
        delimits_intercalate (by decide) (writeCanonical_opens text) hcomma
        (followsValue_cons (.inr (.inl rfl))) ih hitems
      exact ⟨by rw [Value.read, Value.read, Value.readItems_eq, Value.readItems_eq, hreadings],
        hend⟩
    | _ => cases kind_eq_of_append_eq text heq
  · intro map ih other r r' _ _ heq
    cases other with
    | object map' =>
      rw [writeCanonical_object, writeCanonical_object, List.cons_append, List.cons_append] at heq
      have hmembers := (List.cons.inj heq).2
      rw [List.append_assoc, List.append_assoc] at hmembers
      -- Members end at a comma or at the brace.
      obtain ⟨hreadings, hend⟩ := delimits_intercalate (by decide) (memberText_opens text) hcomma
        (followsValue_cons (.inr (.inr rfl)))
        (fun member hmem => delimits_member text (ih member (mem_of_mem_members hmem))) hmembers
      exact ⟨read_object_eq hreadings, hend⟩
    | _ => cases kind_eq_of_append_eq text heq

omit text in
/-- Lists that are read alike are written alike where their members are. -/
theorem map_eq_map_of_map_eq {α β γ : Type} {reading : α → β} {written : α → γ} :
    ∀ {as bs : List α},
    as.map reading = bs.map reading →
    (∀ a ∈ as, ∀ b ∈ bs, reading a = reading b → written a = written b) →
      as.map written = bs.map written
  | [], bs, heq, _ => by rw [List.map_eq_nil_iff.mp heq.symm]
  | a :: as, bs, heq, h => by
    obtain ⟨b, bs, rfl⟩ := List.exists_cons_of_ne_nil fun hnil : bs = [] => by
      rw [hnil] at heq; cases heq
    rw [List.map_cons, List.map_cons] at heq ⊢
    obtain ⟨hhead, htail⟩ := List.cons.inj heq
    have hrest := map_eq_map_of_map_eq htail fun a' ha' b' hb' =>
      h a' (List.mem_cons_of_mem _ ha') b' (List.mem_cons_of_mem _ hb')
    rw [h a List.mem_cons_self b List.mem_cons_self hhead, hrest]

/-- Values that stand for the same have the same text. -/
theorem writeCanonical_eq_of_read : ∀ value : Value ν, value.Distinct → ∀ other : Value ν,
    other.Distinct →
    value.read = other.read → writeCanonical text value = writeCanonical text other := by
  -- Equal readings are of one kind, and their parts have equal readings.
  refine Value.Cases.all ⟨?_, ?_, ?_, ?_, ?_, ?_⟩
  · intro _ other _ heq
    cases other with
    | null => rfl
    | _ => cases heq
  · intro b _ other _ heq
    cases other with
    | bool b' =>
      cases heq
      rfl
    | _ => cases heq
  · intro n _ other _ heq
    cases other with
    | number n' =>
      cases heq
      rfl
    | _ => cases heq
  · intro s _ other _ heq
    cases other with
    | string s' =>
      cases heq
      rfl
    | _ => cases heq
  · intro items ih hdistinct other hdistinct' heq
    cases other with
    | array items' =>
      rw [Value.read, Value.read, Value.readItems_eq, Value.readItems_eq, Reading.array.injEq]
        at heq
      have htexts := map_eq_map_of_map_eq heq fun item hmem item' hmem' =>
        ih item hmem (Value.distinctItems_iff.mp hdistinct item hmem) item'
        (Value.distinctItems_iff.mp hdistinct' item' hmem')
      rw [writeCanonical, writeCanonical, writeItems_eq, writeItems_eq, htexts]
    | _ => cases heq
  · intro map ih hdistinct other hdistinct' heq
    cases other with
    | object map' =>
      -- The members are compared in the order of their keys, in which they are written.
      have hmembers := members_reading_eq hdistinct.1 hdistinct'.1 heq
      have htexts : (members map).map (memberText text) = (members map').map (memberText text) := by
        refine map_eq_map_of_map_eq hmembers fun member hmem member' hmem' hreading => ?_
        have hentry := mem_of_mem_members hmem
        have hentry' := mem_of_mem_members hmem'
        obtain ⟨hkey, hvalue⟩ := Prod.mk.inj hreading
        have htext :=
          ih member hentry (Value.distinctEntries_iff.mp hdistinct.2 member hentry) member'.2
          (Value.distinctEntries_iff.mp hdistinct'.2 member' hentry') hvalue
        rw [memberText, memberText, hkey, htext]
      rw [writeCanonical_object, writeCanonical_object, htexts]
    | _ => cases heq

/-- Two values have the same text exactly when they stand for the same. -/
theorem canonicalJsonString_eq_iff {value other : Value ν} (h : value.Distinct)
    (h' : other.Distinct) :
    canonicalJsonString text value = canonicalJsonString text other ↔ value.read = other.read := by
  unfold canonicalJsonString
  rw [String.ofList_inj]
  constructor
  · intro heq
    have hend : FollowsValue [] := fun c hc => by cases hc
    exact (delimits_writeCanonical text value other [] [] hend hend (by rw [heq])).1
  · exact writeCanonical_eq_of_read text value h other h'

end Canonical

/-! ## Texts without control characters -/

/-- A quote and a backslash stand behind a backslash. -/
def escapeChar (c : Char) : List Char := if c = '"' ∨ c = '\\' then ['\\', c] else [c]

/-- The text of a character ends with it. -/
theorem escapeChar_append_inj {c d : Char} {r r' : List Char}
    (h : escapeChar c ++ r = escapeChar d ++ r') :
    c = d ∧ r = r' := by
  unfold escapeChar at h
  split_ifs at h with hc hd hd
  · obtain ⟨-, htail⟩ := List.cons.inj h
    exact List.cons.inj htail
  · exact absurd (.inr (List.cons.inj h).1.symm) hd
  · exact absurd (.inr (List.cons.inj h).1) hc
  · exact List.cons.inj h

/-- Escaped texts are equal when the texts are. -/
theorem flatMap_escapeChar_inj {cs ds : List Char}
    (h : cs.flatMap escapeChar = ds.flatMap escapeChar) : cs = ds := by
  have hne (c : Char) (rest : List Char) : escapeChar c ++ rest ≠ [] := by
    unfold escapeChar
    split <;> simp
  induction cs generalizing ds with
  | nil =>
    cases ds with
    | nil => rfl
    | cons d ds =>
      rw [List.flatMap_cons] at h
      exact absurd h.symm (hne d _)
  | cons c cs ih =>
    cases ds with
    | nil =>
      rw [List.flatMap_cons] at h
      exact absurd h (hne c _)
    | cons d ds =>
      rw [List.flatMap_cons, List.flatMap_cons] at h
      obtain ⟨hc, hrest⟩ := escapeChar_append_inj h
      rw [hc, ih hrest]

/-- An escaped text is the body of a string. -/
theorem escapedBody_flatMap (cs : List Char) : EscapedBody (cs.flatMap escapeChar) := by
  induction cs with
  | nil => exact .nil
  | cons c cs ih =>
    rw [List.flatMap_cons]
    unfold escapeChar
    split_ifs with hc
    · exact .escape c ih
    · exact .plain (fun h => hc (.inl h)) (fun h => hc (.inr h)) ih

/-- A number as it is written. -/
abbrev WrittenNumber : Type := { text : List Char // text ≠ [] ∧ text.all isNumberChar = true }

/-- Numbers as they are written, and strings of no control characters. -/
def plainText : ValueText WrittenNumber where
  number n := n.1
  string s := '"' :: (s.toList.flatMap escapeChar ++ ['"'])
  number_inj := Subtype.val_injective
  number_ne_nil n := n.2.1
  number_chars n := List.all_eq_true.mp n.2.2
  string_inj := by
    intro s t h
    have hbody := List.append_cancel_right (List.cons.inj h).2
    exact String.toList_inj.mp (flatMap_escapeChar_inj hbody)
  string_quoted s := ⟨s.toList.flatMap escapeChar, rfl, escapedBody_flatMap s.toList⟩

/-- An object in one order of its keys and in another. -/
theorem read_reordered :
    let one : Value WrittenNumber := .number ⟨['1'], by decide, by decide⟩
    (Value.object [("b", .array [one, .null]), ("a", .string "x")]).read =
      (Value.object [("a", .string "x"), ("b", .array [one, .null])]).read := by
  refine (canonicalJsonString_eq_iff plainText ?_ ?_).mp rfl
  · exact ⟨by decide, ⟨trivial, trivial, trivial⟩, trivial, trivial⟩
  · exact ⟨by decide, trivial, ⟨trivial, trivial, trivial⟩, trivial⟩

end QueryFabric.Portability
