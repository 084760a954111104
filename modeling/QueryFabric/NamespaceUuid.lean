import Mathlib.Algebra.Ring.Nat
import Mathlib.Data.List.Basic

/-!
# Ids from composite keys

`joined_uuid` of `crates/queryfabric-namespace-uuid/src/lib.rs`. The parts of a key are written into
a stack buffer with colons between them, and the whole join is made on the heap when a part does not
fit. A colon that does not fit is left out without a word. When the next part has bytes it does not
fit either, so that only empty parts at the end of a key lose their colons (`joinedName_eq_iff`).
-/

namespace QueryFabric.NamespaceUuid

/-- The bytes that the stack buffer holds. -/
def bufferSize : Nat := 256

/-- The stack buffer, as the bytes before its position. -/
@[ext]
structure StackBuffer where
  bytes : ByteArray
  fits : bytes.size ≤ bufferSize

namespace StackBuffer

/-- The empty buffer. -/
def empty : StackBuffer := ⟨.empty, Nat.zero_le _⟩

/-- The colon before a part is written where there is room. -/
def pushColon (buf : StackBuffer) : StackBuffer :=
  if h : buf.bytes.size < bufferSize then
    ⟨buf.bytes ++ ":".toByteArray, by rw [ByteArray.size_append]; exact h⟩
  else buf

/-- A part is written where there is room, or not at all. -/
def pushPart (buf : StackBuffer) (part : String) : Option StackBuffer :=
  if h : buf.bytes.size + part.toByteArray.size ≤ bufferSize then
    some ⟨buf.bytes ++ part.toByteArray, by rw [ByteArray.size_append]; exact h⟩
  else none

/-- The loop of `joined_uuid` for the parts from an index on. It comes to nothing where a part does
not fit. -/
def pushParts : Nat → StackBuffer → List String → Option StackBuffer
  | _, buf, [] => some buf
  | i, buf, part :: parts =>
    match (if 0 < i then buf.pushColon else buf).pushPart part with
    | some buf => buf.pushParts (i + 1) parts
    | none => none

end StackBuffer

/-- `parts.join(":")`. -/
def join (parts : List String) : String := ":".intercalate parts

/-- The bytes that `joined_uuid` hashes. -/
def joinedName (parts : List String) : ByteArray :=
  match StackBuffer.empty.pushParts 0 parts with
  | some buf => buf.bytes
  | none => (join parts).toByteArray

section Ids

variable {Uuid : Type} (newV5 : Uuid → ByteArray → Uuid) (namespaceId : Uuid)

/-- `joined_uuid`, and with it `from_parts`, for a `Uuid::new_v5`. -/
def joinedUuid (parts : List String) : Uuid := newV5 namespaceId (joinedName parts)

/-- `from_str_key`. -/
def fromStrKey (key : String) : Uuid := newV5 namespaceId key.toByteArray

end Ids

/-! ## Joins -/

/-- Two lists of parts are joined with a colon. -/
theorem join_append {before after : List String} (hbefore : before ≠ []) (hafter : after ≠ []) :
    join (before ++ after) = join before ++ ":" ++ join after :=
  String.intercalate_append_of_ne_nil hbefore hafter

/-- The bytes of two joined lists. -/
theorem utf8ByteSize_join_append {before after : List String} (hbefore : before ≠ [])
    (hafter : after ≠ []) :
    (join (before ++ after)).utf8ByteSize = (join before).utf8ByteSize + 1 +
      (join after).utf8ByteSize := by
  rw [join_append hbefore hafter, String.utf8ByteSize_append, String.utf8ByteSize_append]
  rfl

/-- One part is joined to itself. -/
theorem join_singleton (part : String) : join [part] = part := String.intercalate_singleton

/-- More parts have no fewer bytes. -/
theorem utf8ByteSize_join_le (before after : List String) :
    (join before).utf8ByteSize ≤ (join (before ++ after)).utf8ByteSize := by
  by_cases hbefore : before = []
  · rw [hbefore]
    exact Nat.zero_le _
  by_cases hafter : after = []
  · have hsame : before ++ after = before := by rw [hafter, List.append_nil]
    exact Nat.le_of_eq (by rw [hsame])
  · rw [utf8ByteSize_join_append hbefore hafter]
    omega

/-! ## Lost colons -/

/-- After some parts, others fill the buffer and are followed by empty parts only. -/
def ColonsLost (before parts : List String) : Prop :=
  ∃ first rest, parts = first ++ rest ∧ rest ≠ [] ∧ (∀ part ∈ rest, part = "") ∧
    (join (before ++ first)).utf8ByteSize = bufferSize

/-- No colon is lost without parts. -/
theorem not_colonsLost_nil (before : List String) : ¬ColonsLost before [] := by
  rintro ⟨first, rest, heq, hrest, -⟩
  exact hrest (List.append_eq_nil_iff.mp heq.symm).2

/-- Where a colon is lost the parts before it fit into the buffer. -/
theorem ColonsLost.le {before parts : List String} (h : ColonsLost before parts) :
    (join before).utf8ByteSize ≤ bufferSize := by
  obtain ⟨first, rest, -, -, -, hsize⟩ := h
  rw [← hsize]
  exact utf8ByteSize_join_le before first

/-- A colon is lost before a part, or later. -/
theorem colonsLost_cons {before parts : List String} {part : String} :
    ColonsLost before (part :: parts) ↔
      ((join before).utf8ByteSize = bufferSize ∧ ∀ other ∈ part :: parts, other = "") ∨
        ColonsLost (before ++ [part]) parts := by
  constructor
  · rintro ⟨first, rest, heq, hrest, hempty, hsize⟩
    cases first with
    | nil =>
      rw [List.append_nil] at hsize
      rw [List.nil_append] at heq
      exact .inl ⟨hsize, by rw [heq]; exact hempty⟩
    | cons other first =>
      obtain ⟨rfl, hparts⟩ := List.cons.inj heq
      exact .inr ⟨first, rest, hparts, hrest, hempty, by rw [List.append_assoc]; exact hsize⟩
  · rintro (⟨hsize, hempty⟩ | ⟨first, rest, rfl, hrest, hempty, hsize⟩)
    · exact ⟨[], part :: parts, rfl, List.cons_ne_nil _ _, hempty,
        by rw [List.append_nil]; exact hsize⟩
    · exact ⟨part :: first, rest, rfl, hrest, hempty,
        by rw [List.append_assoc] at hsize; exact hsize⟩

/-! ## The loop -/

namespace StackBuffer

/-- The loop, in the terms of its first step. -/
theorem pushParts_cons (i : Nat) (buf : StackBuffer) (part : String) (parts : List String) :
    buf.pushParts i (part :: parts) =
      ((if 0 < i then buf.pushColon else buf).pushPart part).bind fun next =>
        next.pushParts (i + 1) parts := by
  rw [pushParts]
  cases (if 0 < i then buf.pushColon else buf).pushPart part <;> rfl

section Full

variable {buf : StackBuffer} (hfull : buf.bytes.size = bufferSize)
include hfull

/-- A full buffer takes no colon. -/
theorem pushColon_full : buf.pushColon = buf := dif_neg (by omega)

/-- A full buffer takes an empty part. -/
theorem pushPart_full_empty : buf.pushPart "" = some buf := by
  have hfits : buf.bytes.size + "".toByteArray.size ≤ bufferSize := Nat.le_of_eq hfull
  unfold pushPart
  rw [dif_pos hfits]
  exact congrArg some (StackBuffer.ext ByteArray.append_empty)

/-- A full buffer takes no other part. -/
theorem pushPart_full {part : String} (hpart : part ≠ "") : buf.pushPart part = none := by
  have hpos : part.toByteArray.size ≠ 0 :=
    fun hzero => hpart (String.utf8ByteSize_eq_zero_iff.mp hzero)
  exact dif_neg (by omega)

/-- A full buffer stays as it is while the parts are empty. -/
theorem pushParts_full_of_empty : ∀ {parts : List String} {i : Nat},
    0 < i → (∀ part ∈ parts, part = "") →
    buf.pushParts i parts = some buf
  | [], _, _, _ => rfl
  | part :: parts, i, hi, h => by
    obtain ⟨rfl, hrest⟩ := List.forall_mem_cons.mp h
    rw [pushParts_cons, if_pos hi, pushColon_full hfull, pushPart_full_empty hfull]
    exact pushParts_full_of_empty (Nat.succ_pos i) hrest

/-- It takes no part that has bytes. -/
theorem pushParts_full_of_not_empty : ∀ {parts : List String} {i : Nat},
    0 < i → (¬∀ part ∈ parts, part = "") →
    buf.pushParts i parts = none
  | [], _, _, h => absurd (List.forall_mem_nil _) h
  | part :: parts, i, hi, h => by
    rw [pushParts_cons, if_pos hi, pushColon_full hfull]
    by_cases hpart : part = ""
    · rw [hpart, pushPart_full_empty hfull]
      refine pushParts_full_of_not_empty (Nat.succ_pos i) fun hrest => h ?_
      exact List.forall_mem_cons.mpr ⟨hpart, hrest⟩
    · rw [pushPart_full hfull hpart]
      rfl

end Full

/-- In a buffer with room the next colon and part are written as they are joined. -/
theorem pushPart_spec {buf : StackBuffer} {before : List String}
    (hbuf : buf.bytes = (join before).toByteArray)
    (hroom : buf.bytes.size < bufferSize) (part : String) :
    match (if 0 < before.length then buf.pushColon else buf).pushPart part with
    | some next => next.bytes = (join (before ++ [part])).toByteArray
    | none => bufferSize < (join (before ++ [part])).utf8ByteSize := by
  -- The parts so far, the colon and this part are the joined name.
  have hjoin : (if 0 < before.length then buf.pushColon else buf).bytes ++ part.toByteArray =
      (join (before ++ [part])).toByteArray := by
    by_cases hbefore : before = []
    · rw [if_neg (by simp [hbefore]), hbuf, hbefore]
      exact ByteArray.empty_append.trans (congrArg String.toByteArray (join_singleton part).symm)
    · have hcolon : buf.pushColon.bytes = buf.bytes ++ ":".toByteArray := by
        unfold pushColon
        rw [dif_pos hroom]
      rw [if_pos (List.length_pos_iff.mpr hbefore), hcolon, hbuf,
        join_append hbefore (List.cons_ne_nil part []), join_singleton, String.toByteArray_append,
        String.toByteArray_append]
  generalize (if 0 < before.length then buf.pushColon else buf) = written at hjoin
  unfold pushPart
  -- What does not fit is longer than the buffer.
  split_ifs with hfits
  · exact hjoin
  · rw [← ByteArray.size_append, hjoin] at hfits
    exact Nat.not_le.mp hfits

/-- The loop comes to the join of all parts just when no colons are lost. -/
theorem pushParts_eq_join_iff : ∀ {parts before : List String} {buf : StackBuffer},
    buf.bytes = (join before).toByteArray →
      ((buf.pushParts before.length parts).elim
        (join (before ++ parts)).toByteArray StackBuffer.bytes =
        (join (before ++ parts)).toByteArray ↔ ¬ColonsLost before parts)
  | [], before, buf, hbuf => by
    refine iff_of_true ?_ (not_colonsLost_nil before)
    rw [List.append_nil]
    exact hbuf
  | part :: parts, before, buf, hbuf => by
    have hsize : buf.bytes.size = (join before).utf8ByteSize := congrArg ByteArray.size hbuf
    rw [colonsLost_cons, ← hsize]
    by_cases hfull : buf.bytes.size = bufferSize
    · -- The colons are lost where all other parts are empty, and are not missed where one of them
      -- is not.
      have hbefore : before ≠ [] := by
        rintro rfl
        rw [hfull] at hsize
        exact absurd hsize (by decide)
      have hlength : 0 < before.length := List.length_pos_iff.mpr hbefore
      by_cases hempty : ∀ other ∈ part :: parts, other = ""
      · rw [pushParts_full_of_empty hfull hlength hempty]
        refine iff_of_false (fun h => ?_) (not_not_intro (.inl ⟨hfull, hempty⟩))
        have hsame := congrArg ByteArray.size h
        have hlonger := utf8ByteSize_join_append hbefore (List.cons_ne_nil part parts)
        change buf.bytes.size = (join (before ++ part :: parts)).utf8ByteSize at hsame
        omega
      · rw [pushParts_full_of_not_empty hfull hlength hempty]
        refine iff_of_true rfl ?_
        rintro (h | h)
        · exact hempty h.2
        · have hle := h.le
          have hlonger := utf8ByteSize_join_append hbefore (List.cons_ne_nil part [])
          omega
    · have hroom : buf.bytes.size < bufferSize := Nat.lt_of_le_of_ne buf.fits hfull
      have hspec := pushPart_spec hbuf hroom part
      rw [or_iff_right fun h => hfull h.1, pushParts_cons]
      cases hnext : (if 0 < before.length then buf.pushColon else buf).pushPart part with
      | some next =>
        rw [hnext] at hspec
        have ih := @pushParts_eq_join_iff parts _ next hspec
        rw [List.length_append, List.append_assoc] at ih
        exact ih
      | none =>
        rw [hnext] at hspec
        exact iff_of_true rfl fun h => Nat.not_le.mpr hspec h.le

end StackBuffer

/-- The name is that in the buffer, or that on the heap. -/
theorem joinedName_eq_elim (parts : List String) :
    joinedName parts = (StackBuffer.empty.pushParts 0 parts).elim
      (join parts).toByteArray StackBuffer.bytes := by
  unfold joinedName
  cases StackBuffer.empty.pushParts 0 parts <;> rfl

/-- The empty buffer has the bytes of no parts. -/
theorem empty_bytes : StackBuffer.empty.bytes = (join []).toByteArray :=
  congrArg String.toByteArray String.intercalate_nil.symm

/-- The name is the joined parts when no colon is lost. -/
theorem joinedName_eq_join {parts : List String} (h : ¬ColonsLost [] parts) :
    joinedName parts = (join parts).toByteArray := by
  rw [joinedName_eq_elim]
  exact (StackBuffer.pushParts_eq_join_iff empty_bytes).mpr h

/-- The bytes that are hashed are those of the join just when no colons are lost: unless parts of a
key, joined, fill the buffer and all others are empty. -/
theorem joinedName_eq_iff (parts : List String) :
    joinedName parts = (join parts).toByteArray ↔ ¬ColonsLost [] parts := by
  refine ⟨fun h => ?_, joinedName_eq_join⟩
  rw [joinedName_eq_elim] at h
  exact (StackBuffer.pushParts_eq_join_iff empty_bytes).mp h

/-- Empty parts after one that fills the buffer leave no trace. -/
theorem joinedName_fullPart {part : String} (hpart : part.utf8ByteSize = bufferSize)
    {others : List String}
    (hothers : ∀ other ∈ others, other = "") : joinedName (part :: others) = part.toByteArray := by
  have hfits : StackBuffer.empty.bytes.size + part.toByteArray.size ≤ bufferSize := by
    rw [← hpart]
    exact Nat.le_of_eq (Nat.zero_add _)
  have hpush : ∃ buf, StackBuffer.empty.pushPart part = some buf ∧ buf.bytes = part.toByteArray :=
    ⟨_, dif_pos hfits, ByteArray.empty_append⟩
  obtain ⟨buf, hbuf, hbytes⟩ := hpush
  have hfull : buf.bytes.size = bufferSize := by
    rw [hbytes]
    exact hpart
  rw [joinedName_eq_elim, StackBuffer.pushParts_cons, if_neg (Nat.lt_irrefl 0), hbuf,
    Option.bind_some, StackBuffer.pushParts_full_of_empty hfull Nat.one_pos hothers]
  exact hbytes

/-- A part of `2 ^ n` bytes. -/
def doubled : Nat → String
  | 0 => "x"
  | n + 1 => doubled n ++ doubled n

/-- A doubled text has a power of two of bytes. -/
theorem utf8ByteSize_doubled : ∀ n : Nat, (doubled n).utf8ByteSize = 2 ^ n
  | 0 => rfl
  | n + 1 => by
    rw [doubled, String.utf8ByteSize_append, utf8ByteSize_doubled n, Nat.pow_succ]
    omega

/-- An empty part comes after one that fills the buffer. -/
theorem not_joinedName_fullPart :
    ¬∀ parts : List String, joinedName parts = (join parts).toByteArray := by
  intro h
  have hname : joinedName [doubled 8, ""] = (doubled 8).toByteArray :=
    joinedName_fullPart (utf8ByteSize_doubled 8) fun other hother => List.mem_singleton.mp hother
  have hsame := congrArg ByteArray.size ((h [doubled 8, ""]).symm.trans hname)
  have hlonger := utf8ByteSize_join_append (List.cons_ne_nil (doubled 8) [])
    (List.cons_ne_nil "" [])
  change (join ([doubled 8] ++ [""])).utf8ByteSize = (doubled 8).utf8ByteSize at hsame
  rw [join_singleton] at hlonger
  omega

section Ids

variable {Uuid : Type} (newV5 : Uuid → ByteArray → Uuid) (namespaceId : Uuid)

/-- A key without lost colons has the id of its join. -/
theorem joinedUuid_eq_fromStrKey {parts : List String} (h : ¬ColonsLost [] parts) :
    joinedUuid newV5 namespaceId parts = fromStrKey newV5 namespaceId (join parts) :=
  congrArg (newV5 namespaceId) (joinedName_eq_join h)

/-- Keys that differ in empty parts after one that fills the buffer have one id. -/
theorem joinedUuid_fullPart {part : String} (hpart : part.utf8ByteSize = bufferSize)
    {others : List String} (hothers : ∀ other ∈ others, other = "") :
    joinedUuid newV5 namespaceId (part :: others) = joinedUuid newV5 namespaceId [part] := by
  unfold joinedUuid
  rw [joinedName_fullPart hpart hothers, joinedName_fullPart hpart (List.forall_mem_nil _)]

end Ids

end QueryFabric.NamespaceUuid
