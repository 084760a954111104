import QueryFabric.Access
import QueryFabric.Lib.StableSort
import QueryFabric.Portability.Tabular

/-!
# The provenance log

`VecProvenanceStore` of `crates/queryfabric-provenance/src/store.rs`: a log of entries behind a
mutex, and the histories that are asked of it. A history is the stable sort of the entries that
match (`history_ok_iff`), so that two histories of adjoining windows make up the one of both
(`history_windows`).
-/

namespace QueryFabric.Provenance

open Access (Uuid ResourceRef Subject)
open Portability (Json)

/-! ## Entries -/

variable {J : Type}

/-- The universal activities, with `NodeId` as its `Uuid`. -/
inductive Activity
  | created
  | deleted (reason : String)
  | restored
  | accessed (rows : UInt64)
  | modified (field : String)
  | ownershipTransferred (source target : Uuid)
  | contentHashRecorded (algo hash : String)
  | federationFlow (nodes : List Uuid) (latenciesMs : List UInt32)
  | backupAnchor (location contentHash : String)
deriving DecidableEq, Repr

/-- `Activity::tag`. -/
def Activity.tag : Activity → String
  | created => "created"
  | deleted _ => "deleted"
  | restored => "restored"
  | accessed _ => "accessed"
  | modified _ => "modified"
  | ownershipTransferred _ _ => "ownership_transferred"
  | contentHashRecorded _ _ => "content_hash_recorded"
  | federationFlow _ _ => "federation_flow"
  | backupAnchor _ _ => "backup_anchor"

/-- The payload of a domain activity is never looked at. -/
inductive RecordedActivity (J : Type)
  | core (activity : Activity)
  | domain (kind : String) (payload : J)

/-- `RecordedActivity::tag`. -/
def RecordedActivity.tag : RecordedActivity J → String
  | core activity => activity.tag
  | domain kind _ => kind

/-- `ProvenanceEntry`, with any type for the JSON of an activity. -/
structure ProvenanceEntry (J : Type) where
  id : Uuid
  resource : ResourceRef
  actor : Option Subject
  activity : RecordedActivity J
  description : Option String
  occurredAtUnixMs : Int

/-- `ProvenanceHistory`. -/
structure ProvenanceHistory (J : Type) where
  resource : ResourceRef
  entries : List (ProvenanceEntry J)

/-- `HistoryFilter`. -/
structure HistoryFilter where
  activityTag : Option String := none
  actor : Option Uuid := none
  fromUnixMs : Option Int := none
  untilUnixMs : Option Int := none
deriving DecidableEq, Repr

/-- `HistoryFilter::matches`. -/
def HistoryFilter.matches_ (filter : HistoryFilter) (entry : ProvenanceEntry J) : Bool :=
  let tagOk := filter.activityTag.all fun tag => entry.activity.tag = tag
  let actorOk := filter.actor.all fun actor => entry.actor.map Subject.id = some actor
  let fromOk := filter.fromUnixMs.all fun start => start ≤ entry.occurredAtUnixMs
  let untilOk := filter.untilUnixMs.all fun stop => entry.occurredAtUnixMs < stop
  tagOk && actorOk && fromOk && untilOk

/-! ## The store -/

/-- The errors of `ProvenanceError` that the store reports. -/
inductive ProvenanceError
  | storage (message : String)
deriving DecidableEq, Repr

/-- The log behind its mutex, which is poisoned when a holder of the lock has panicked. -/
structure VecProvenanceStore (J : Type) where
  entries : List (ProvenanceEntry J)
  poisoned : Bool

namespace VecProvenanceStore

/-- `VecProvenanceStore::new`. -/
def new : VecProvenanceStore J := ⟨[], false⟩

/-- The entries behind the mutex, unless it is poisoned. -/
def lock (store : VecProvenanceStore J) : Except ProvenanceError (List (ProvenanceEntry J)) :=
  if store.poisoned then .error (.storage "provenance store mutex poisoned") else .ok store.entries

/-- `append`. -/
def append (store : VecProvenanceStore J) (entry : ProvenanceEntry J) :
    Except ProvenanceError (VecProvenanceStore J) := do
  let entries ← store.lock
  return { store with entries := entries ++ [entry] }

/-- `history`. -/
def history (store : VecProvenanceStore J) (resource : ResourceRef) (filter : HistoryFilter) :
    Except ProvenanceError (ProvenanceHistory J) := do
  let entries ← store.lock
  let matched := entries.filter fun entry => entry.resource = resource && filter.matches_ entry
  return ⟨resource, Lib.sortByKey ProvenanceEntry.occurredAtUnixMs matched⟩

/-- A sequence of appends, from an empty store on. -/
def appendAll (log : List (ProvenanceEntry J)) : Except ProvenanceError (VecProvenanceStore J) :=
  log.foldlM append new

/-- Nothing that is appended is lost, and no append fails. -/
theorem appendAll_eq (log : List (ProvenanceEntry J)) : appendAll log = .ok ⟨log, false⟩ := by
  have hrun : ∀ (log before : List (ProvenanceEntry J)),
      log.foldlM append ⟨before, false⟩ = .ok (⟨before ++ log, false⟩ : VecProvenanceStore J) := by
    intro log
    induction log with
    | nil =>
      intro before
      rw [List.append_nil]
      rfl
    | cons entry log ih =>
      intro before
      have hstep : append ⟨before, false⟩ entry = .ok ⟨before ++ [entry], false⟩ := rfl
      have hlog : before ++ entry :: log = before ++ [entry] ++ log :=
        (List.append_cons before entry log)
      rw [List.foldlM_cons, hstep, hlog]
      exact ih (before ++ [entry])
  exact hrun log []

end VecProvenanceStore

/-! ## Windows -/

/-- What is asked for apart from the time. -/
def Concerns (resource : ResourceRef) (tag : Option String) (actor : Option Uuid)
    (entry : ProvenanceEntry J) : Prop :=
  entry.resource = resource ∧ (∀ t ∈ tag, entry.activity.tag = t) ∧
    ∀ id ∈ actor, ∃ subject ∈ entry.actor, subject.id = id

/-- Whether an entry concerns a resource, a tag and an actor can be checked. -/
instance (resource : ResourceRef) (tag : Option String) (actor : Option Uuid) :
    DecidablePred (Concerns resource tag actor : ProvenanceEntry J → Prop) := fun entry => by
  unfold Concerns
  infer_instance

/-- The entries of a log that are asked for, with their times from the one on and before the
other. -/
def asked (resource : ResourceRef) (tag : Option String) (actor : Option Uuid) (start stop : Int)
    (log : List (ProvenanceEntry J)) : List (ProvenanceEntry J) :=
  Lib.window ProvenanceEntry.occurredAtUnixMs
    (fun entry => Concerns resource tag actor entry) start stop log

variable {resource : ResourceRef} {tag : Option String} {actor : Option Uuid}

/-- The test of the store for a window is what is asked. -/
theorem matches_eq (start stop : Int) (entry : ProvenanceEntry J) :
    (decide (entry.resource = resource) &&
      HistoryFilter.matches_ ⟨tag, actor, some start, some stop⟩ entry) =
      (decide (Concerns resource tag actor entry) &&
        (decide (start ≤ entry.occurredAtUnixMs) && decide (entry.occurredAtUnixMs < stop))) := by
  have htag : (tag.all fun tag => decide (entry.activity.tag = tag)) = true ↔ ∀ t ∈ tag,
      entry.activity.tag = t := by
    cases tag <;> simp
  have hactor : (actor.all fun actor => decide (entry.actor.map Subject.id = some actor)) = true ↔
      ∀ id ∈ actor, ∃ subject ∈ entry.actor, subject.id = id := by
    cases actor <;> simp
  rw [Bool.eq_iff_iff]
  simp only [HistoryFilter.matches_, Bool.and_eq_true, decide_eq_true_eq, htag, hactor,
    Option.all_some]
  unfold Concerns
  constructor
  · rintro ⟨hresource, ⟨⟨htag, hactor⟩, hstart⟩, hstop⟩
    exact ⟨⟨hresource, htag, hactor⟩, hstart, hstop⟩
  · rintro ⟨⟨hresource, htag, hactor⟩, hstart, hstop⟩
    exact ⟨hresource, ⟨⟨htag, hactor⟩, hstart⟩, hstop⟩

/-- The history of a window is the stable sort of what is asked. -/
theorem history_window (log : List (ProvenanceEntry J)) (start stop : Int) :
    VecProvenanceStore.history ⟨log, false⟩ resource ⟨tag, actor, some start, some stop⟩ =
      .ok ⟨resource, Lib.sortByKey ProvenanceEntry.occurredAtUnixMs
        (asked resource tag actor start stop log)⟩ := by
  have hmatched : (log.filter fun entry => decide (entry.resource = resource) &&
      HistoryFilter.matches_ ⟨tag, actor, some start, some stop⟩ entry) =
        asked resource tag actor start stop log :=
    List.filter_congr fun entry _ => matches_eq start stop entry
  rw [← hmatched]
  rfl

/-- Every entry that is asked for, once, in the order of the times, and in the order of the log for
one time. -/
structure IsHistory (log entries : List (ProvenanceEntry J)) : Prop where
  perm : entries.Perm log
  sorted : Lib.StablySorted ProvenanceEntry.occurredAtUnixMs log entries

/-- After any appends, the history from `a` to `c` is the one from `a` to `b` and then the one from
`b` to `c`. -/
theorem history_windows (log : List (ProvenanceEntry J)) (resource : ResourceRef)
    (tag : Option String) (actor : Option Uuid) {a b c : Int} (hab : a ≤ b) (hbc : b ≤ c) :
    ∃ store whole first second, VecProvenanceStore.appendAll log = .ok store ∧
      store.history resource ⟨tag, actor, some a, some c⟩ = .ok ⟨resource, whole⟩ ∧
      store.history resource ⟨tag, actor, some a, some b⟩ = .ok ⟨resource, first⟩ ∧
      store.history resource ⟨tag, actor, some b, some c⟩ = .ok ⟨resource, second⟩ ∧
      whole = first ++ second ∧ IsHistory (asked resource tag actor a c log) whole ∧
        IsHistory (asked resource tag actor a b log) first ∧
        IsHistory (asked resource tag actor b c log) second := by
  have hhistory : ∀ log : List (ProvenanceEntry J),
      IsHistory log (Lib.sortByKey ProvenanceEntry.occurredAtUnixMs log) := fun log =>
    ⟨(Lib.sortByKey_stablySorted log).perm, Lib.sortByKey_stablySorted log⟩
  exact ⟨_, _, _, _, VecProvenanceStore.appendAll_eq log, history_window log a c,
    history_window log a b,
    history_window log b c, Lib.sortByKey_window_append hab hbc log, hhistory _,
      hhistory _, hhistory _⟩

/-- An entry of a tag at a time. -/
def entryAt (id : Uuid) (time : Int) : ProvenanceEntry Json :=
  ⟨id, ⟨1, 1⟩, none, .core .created, none, time⟩

/-- Two entries at the boundary, out of order. -/
theorem history_windows_boundary : ∃ store whole first second,
    VecProvenanceStore.appendAll [entryAt 1 20, entryAt 2 10, entryAt 3 20] = .ok store ∧
      store.history ⟨1, 1⟩ ⟨some "created", none, some 10, some 30⟩ = .ok ⟨⟨1, 1⟩, whole⟩ ∧
      store.history ⟨1, 1⟩ ⟨some "created", none, some 10, some 20⟩ = .ok ⟨⟨1, 1⟩, first⟩ ∧
      store.history ⟨1, 1⟩ ⟨some "created", none, some 20, some 30⟩ = .ok ⟨⟨1, 1⟩, second⟩ ∧
      whole = first ++ second ∧
      IsHistory (asked ⟨1, 1⟩ (some "created") none 10 30
        [entryAt 1 20, entryAt 2 10, entryAt 3 20]) whole ∧
        IsHistory (asked ⟨1, 1⟩ (some "created") none 10 20
          [entryAt 1 20, entryAt 2 10, entryAt 3 20]) first ∧
          IsHistory (asked ⟨1, 1⟩
            (some "created") none 20 30 [entryAt 1 20, entryAt 2 10, entryAt 3 20]) second :=
  history_windows _ _ _ _ (by decide) (by decide)

end QueryFabric.Provenance
