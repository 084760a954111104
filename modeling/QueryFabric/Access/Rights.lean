import QueryFabric.Lib.Runs
import QueryFabric.Lib.Succeeds
import QueryFabric.Provenance

/-!
# Data rights

`DataRights` of `crates/queryfabric-access/src/rights.rs`, over a provenance store that any number
of operations share. An operation appends what it has done as its last step. An access export reads
the history first, and the others and the rest of the host may append between the two; a caller may
give up in between.

`audited_run` says what the log is then worth: every operation that has returned is in it exactly
once, one that has not is not in it, and an export shows the log as it was at one moment after it
was asked for and before its own entry.

Every entry is marked with the operation that appended it, and every operation knows how long the
log was when it began and when it read; no step reads these.
-/

namespace QueryFabric.Access.Rights

open Lib
open Provenance (Activity ProvenanceEntry ProvenanceError ProvenanceHistory VecProvenanceStore)

/-! ## Operations -/

/-- The operations of a data subject. -/
inductive Operation (P : Type)
  | accessExport (resource : ResourceRef) (subject : Subject) (policy : P)
  | rectify (resource : ResourceRef) (actor : Option Subject) (field : String)
  | softDelete (resource : ResourceRef) (actor : Option Subject) (reason : String)
  | restore (resource : ResourceRef) (actor : Option Subject)

/-- An operation, at the time that the caller supplies. -/
structure Request (P : Type) where
  operation : Operation P
  nowUnixMs : Int

/-- `AccessExportRecord`. -/
structure AccessExportRecord (J P : Type) where
  resource : ResourceRef
  subjectId : Uuid
  policy : P
  history : ProvenanceHistory J
  exportedAtUnixMs : Int

/-- `RectifyReceipt`. -/
structure RectifyReceipt where
  resource : ResourceRef
  field : String
  rectifiedAtUnixMs : Int
deriving DecidableEq, Repr

/-- `SoftDeletion`. -/
structure SoftDeletion where
  resource : ResourceRef
  reason : String
  deletedAtUnixMs : Int
deriving DecidableEq, Repr

/-- What an operation returns. -/
inductive Receipt (J P : Type)
  | accessExport (record : AccessExportRecord J P)
  | rectify (receipt : RectifyReceipt)
  | softDelete (deletion : SoftDeletion)
  | restore

section Steps

variable {J P : Type}

/-- The entry that `record` appends. -/
def record (id : Uuid) (resource : ResourceRef) (actor : Option Subject) (activity : Activity)
    (nowUnixMs : Int) :
    ProvenanceEntry J := ⟨id, resource, actor, .core activity, none, nowUnixMs⟩

/-- What an operation appends and returns, once an export has read its history. -/
def Request.outcome (request : Request P) (id : Uuid)
    (history : ResourceRef → ProvenanceHistory J) :
    ProvenanceEntry J × Receipt J P :=
  let now := request.nowUnixMs
  match request.operation with
  | .accessExport resource subject policy =>
    (record id resource (some subject)
      (.accessed (UInt64.ofNat (history resource).entries.length)) now,
      .accessExport ⟨resource, subject.id, policy, history resource, now⟩)
  | .rectify resource actor field =>
    (record id resource actor (.modified field) now, .rectify ⟨resource, field, now⟩)
  | .softDelete resource actor reason =>
    (record id resource actor (.deleted reason) now, .softDelete ⟨resource, reason, now⟩)
  | .restore resource actor => (record id resource actor .restored now, .restore)

/-- Where an operation stands. -/
inductive CallPhase (J P : Type)
  | starting
  /-- An export, with the history that it has read and how long the log was then. -/
  | recording (history : ProvenanceHistory J) (read : Nat)
  | returned (receipt : Receipt J P)
  | failed (error : ProvenanceError)
  | dropped

/-- A call under way: its request, how many entries there were when it came, and where it is. -/
structure Call (J P : Type) where
  request : Request P
  since : Nat
  phase : CallPhase J P

/-- The store with the calls on it, and for each entry the call that appended it. -/
structure System (J P : Type) where
  store : VecProvenanceStore J
  marks : List (Option Nat)
  calls : List (Call J P)

/-- What may happen next. -/
inductive Action (J P : Type)
  | call (request : Request P)
  /-- An operation goes on, with the identifier of the entry that it may append. -/
  | resume (index : Nat) (id : Uuid)
  | drop (index : Nat)
  /-- The rest of the host appends an entry. -/
  | append (entry : ProvenanceEntry J)

namespace System

/-- A store before its first operation. -/
def start (store : VecProvenanceStore J) : System J P :=
  ⟨store, store.entries.map fun _ => none, []⟩

/-- A call goes on to a phase. -/
def setPhase (s : System J P) (index : Nat) (call : Call J P) (phase : CallPhase J P) :
    System J P :=
  { s with calls := s.calls.set index { call with phase } }

/-- An operation appends its entry and returns. -/
def finish (s : System J P) (index : Nat) (call : Call J P)
    (outcome : ProvenanceEntry J × Receipt J P) : System J P :=
  match s.store.append outcome.1 with
  | .ok store =>
    { s with store, marks := s.marks ++ [some index] }.setPhase index call (.returned outcome.2)
  | .error error => s.setPhase index call (.failed error)

/-- An operation goes on to its next `await`, or to its end. -/
def resume (s : System J P) (index : Nat) (call : Call J P) (id : Uuid) : Option (System J P) :=
  match call.phase, call.request.operation with
  | .starting, .accessExport resource _ _ =>
    match s.store.history resource {} with
    | .ok history => some (s.setPhase index call (.recording history s.store.entries.length))
    | .error error => some (s.setPhase index call (.failed error))
  | .starting, _ =>
    some (s.finish index call (call.request.outcome id fun resource => ⟨resource, []⟩))
  | .recording history _, _ => some (s.finish index call (call.request.outcome id fun _ => history))
  | _, _ => none

/-- A step of the system, if it can be taken. -/
def step (s : System J P) : Action J P → Option (System J P)
  | .call request =>
    some { s with calls := s.calls ++ [⟨request, s.store.entries.length, .starting⟩] }
  | .resume index id => do
    let call ← s.calls[index]?
    s.resume index call id
  | .drop index => do
    let call ← s.calls[index]?
    match call.phase with
    | .starting | .recording _ _ => some (s.setPhase index call .dropped)
    | _ => none
  | .append entry =>
    match s.store.append entry with
    | .ok store => some { s with store, marks := s.marks ++ [none] }
    | .error _ => none

end System

end Steps

/-! ## The log -/

section Log

variable {J P : Type}

/-- The history of a resource in a log. -/
def historyOf (log : List (ProvenanceEntry J)) (resource : ResourceRef) : ProvenanceHistory J :=
  ⟨resource,
    sortByKey ProvenanceEntry.occurredAtUnixMs (log.filter fun entry => entry.resource = resource)⟩

/-- The history without a filter has all entries of the resource. -/
theorem history_eq {store : VecProvenanceStore J} {resource : ResourceRef}
    {history : ProvenanceHistory J}
    (h : store.history resource {} = .ok history) : history = historyOf store.entries resource := by
  obtain ⟨entries, hentries, h⟩ := bind_eq_ok.mp h
  rw [VecProvenanceStore.lock] at hentries
  split_ifs at hentries
  obtain rfl := Except.ok.inj hentries
  obtain rfl := Except.ok.inj h
  simp [historyOf, Provenance.HistoryFilter.matches_]

/-- An entry is appended after the others. -/
theorem append_eq {store next : VecProvenanceStore J} {entry : ProvenanceEntry J}
    (h : store.append entry = .ok next) :
    next.entries = store.entries ++ [entry] := by
  obtain ⟨entries, hentries, h⟩ := bind_eq_ok.mp h
  rw [VecProvenanceStore.lock] at hentries
  split_ifs at hentries
  obtain rfl := Except.ok.inj hentries
  obtain rfl := Except.ok.inj h
  rfl

/-- An operation is in the log: its entry stands at one place, and an export has read the log before
that. -/
def IsRecorded (log : List (ProvenanceEntry J)) (marks : List (Option Nat)) (index : Nat)
    (call : Call J P) (receipt : Receipt J P) : Prop :=
  ∃ read written id, call.since ≤ read ∧ read ≤ written ∧
    (∃ entry, log[written]? = some entry ∧
      call.request.outcome id (historyOf (log.take read)) = (entry, receipt)) ∧
    ∀ i, marks[i]? = some (some index) ↔ i = written

/-- What holds of an operation between steps. -/
def CallAudited (log : List (ProvenanceEntry J)) (marks : List (Option Nat)) (index : Nat)
    (call : Call J P) : Prop :=
  match call.phase with
  | .returned receipt => IsRecorded log marks index call receipt
  | .recording history read => some index ∉ marks ∧ call.since ≤ read ∧ read ≤ log.length ∧
      ∃ resource subject policy, call.request.operation = .accessExport resource subject policy ∧
        history = historyOf (log.take read) resource
  | _ => some index ∉ marks

/-- What holds between steps. -/
structure Audited (seeded : List (ProvenanceEntry J)) (s : System J P) : Prop where
  seeded : seeded <+: s.store.entries
  marked : s.marks.length = s.store.entries.length
  known : ∀ index, some index ∈ s.marks → index < s.calls.length
  since : ∀ call ∈ s.calls, call.since ≤ s.store.entries.length
  calls : ∀ index call, s.calls[index]? = some call → CallAudited s.store.entries s.marks index call

/-- At the start there are no calls to audit. -/
theorem audited_start (store : VecProvenanceStore J) :
    Audited (P := P) store.entries (.start store) where
  seeded := List.prefix_rfl
  marked := List.length_map _
  known index h := by
    obtain ⟨entry, -, hmark⟩ := List.mem_map.mp h
    cases hmark
  since := List.forall_mem_nil _
  calls _ _ h := nomatch h

/-- Only an export looks at a history. -/
theorem outcome_eq_of_not_export {request : Request P} (id : Uuid)
    {f g : ResourceRef → ProvenanceHistory J}
    (h : ∀ resource subject policy, request.operation ≠ .accessExport resource subject policy) :
    request.outcome id f = request.outcome id g := by
  unfold Request.outcome
  split
  · rename_i heq
    exact absurd heq (h _ _ _)
  all_goals rfl

/-- An export looks at the history of its resource only. -/
theorem outcome_eq_of_export {request : Request P} (id : Uuid) {resource : ResourceRef}
    {subject : Subject} {policy : P}
    {f g : ResourceRef → ProvenanceHistory J}
    (h : request.operation = .accessExport resource subject policy)
    (hhistory : f resource = g resource) : request.outcome id f = request.outcome id g := by
  unfold Request.outcome
  rw [h]
  dsimp only
  rw [hhistory]

section Steps

variable {seeded log : List (ProvenanceEntry J)} {marks : List (Option Nat)} {s t : System J P}
  {index : Nat} {call : Call J P}

/-- What holds of an operation holds when the log grows by an entry that is not its own. -/
theorem CallAudited.append {entry : ProvenanceEntry J} {mark : Option Nat}
    (h : CallAudited log marks index call)
    (hmark : mark ≠ some index) : CallAudited (log ++ [entry]) (marks ++ [mark]) index call := by
  have hmem : some index ∈ marks ++ [mark] ↔ some index ∈ marks := by
    rw [List.mem_append, List.mem_singleton]
    exact or_iff_left fun heq => hmark heq.symm
  -- What the call has read of the log is the same after the new entry.
  have htake {read : Nat} (hread : read ≤ log.length) :
      (log ++ [entry]).take read = log.take read :=
    List.take_append_of_le_length hread
  unfold CallAudited at h ⊢
  split at h
  -- A finished call: its entry stays where it is, and no other entry is its own.
  · obtain ⟨read, written, id, hsince, hread, ⟨found, hfound, houtcome⟩, hplace⟩ := h
    have hwritten := (List.getElem?_eq_some_iff.mp hfound).1
    refine ⟨read, written, id, hsince, hread, ⟨found, ?_, ?_⟩, fun i => ?_⟩
    · rw [List.getElem?_append_left hwritten, hfound]
    · rw [htake (hread.trans hwritten.le), houtcome]
    · rw [← hplace]
      by_cases hi : i < marks.length
      · rw [List.getElem?_append_left hi]
      · have hnone : marks[i]? = none := List.getElem?_eq_none (Nat.le_of_not_lt hi)
        rw [hnone, List.getElem?_append_right (Nat.le_of_not_lt hi)]
        refine ⟨fun hsome => ?_, fun hsome => nomatch hsome⟩
        exact absurd (List.mem_singleton.mp (List.mem_of_getElem? hsome)).symm hmark
  -- A call that has read the history has not written yet.
  · obtain ⟨hnot, hsince, hread, resource, subject, policy, hoperation, hhistory⟩ := h
    refine ⟨fun hin => hnot (hmem.mp hin), hsince, ?_, resource, subject, policy, hoperation, ?_⟩
    · rw [List.length_append]
      exact hread.trans (Nat.le_add_right _ _)
    · rw [htake hread, hhistory]
  · exact fun hin => h (hmem.mp hin)

/-- An operation moves to another phase, and the log may grow. -/
theorem Audited.update (hs : Audited seeded s) (hcall : s.calls[index]? = some call)
    {phase : CallPhase J P}
    (hcalls : t.calls = s.calls.set index { call with phase })
    (hlog : s.store.entries <+: t.store.entries) (hmarked : t.marks.length = t.store.entries.length)
    (hknown : ∀ i, some i ∈ t.marks → some i ∈ s.marks ∨ i = index)
    (hothers : ∀ i (found : Call J P), i ≠ index → CallAudited s.store.entries s.marks i found →
      CallAudited t.store.entries t.marks i found)
    (hself : CallAudited t.store.entries t.marks index { call with phase }) : Audited seeded t := by
  have hindex := (List.getElem?_eq_some_iff.mp hcall).1
  refine ⟨hs.seeded.trans hlog, hmarked, fun i hi => ?_, fun found hfound => ?_,
    fun i found hfound => ?_⟩
  · rw [hcalls, List.length_set]
    -- A mark is an old one or that of the call that moves.
    obtain hold | rfl := hknown i hi
    · exact hs.known i hold
    · exact hindex
  · rw [hcalls] at hfound
    obtain hold | rfl := List.mem_or_eq_of_mem_set hfound
    · exact (hs.since found hold).trans hlog.length_le
    · exact (hs.since call (List.mem_of_getElem? hcall)).trans hlog.length_le
  · rw [hcalls] at hfound
    -- The moved call is audited by hypothesis, every other one as before.
    by_cases heq : index = i
    · subst heq
      rw [List.getElem?_set_self hindex] at hfound
      obtain rfl := Option.some.inj hfound
      exact hself
    · rw [List.getElem?_set_ne heq] at hfound
      exact hothers i found (Ne.symm heq) (hs.calls i found hfound)

/-- A call that goes on is audited, and the others stay so. -/
theorem Audited.setPhase (hs : Audited seeded s) (hcall : s.calls[index]? = some call)
    {phase : CallPhase J P} (h : CallAudited s.store.entries s.marks index { call with phase }) :
    Audited seeded (s.setPhase index call phase) :=
  hs.update hcall rfl List.prefix_rfl hs.marked (fun _ hi => .inl hi) (fun _ _ _ hfound => hfound) h

/-- An operation that is not in the log appends what it returns. -/
theorem Audited.finish (hs : Audited seeded s) (hcall : s.calls[index]? = some call)
    (hnot : some index ∉ s.marks)
    {id : Uuid} {f : ResourceRef → ProvenanceHistory J} {read : Nat} (hsince : call.since ≤ read)
    (hread : read ≤ s.store.entries.length)
    (houtcome : call.request.outcome id f =
      call.request.outcome id (historyOf (s.store.entries.take read))) :
    Audited seeded (s.finish index call (call.request.outcome id f)) := by
  unfold System.finish
  cases happend : s.store.append (call.request.outcome id f).1 with
  | error error => exact hs.setPhase hcall hnot
  | ok store =>
    have hentries := append_eq happend
    refine hs.update hcall rfl ?_ ?_ (fun i hi => ?_) (fun i found hne hfound => ?_) ?_
    · exact ⟨_, hentries.symm⟩
    · simp only [System.setPhase, hentries, List.length_append, List.length_singleton, hs.marked]
    · obtain hold | hnew := List.mem_append.mp hi
      · exact .inl hold
      · exact .inr (Option.some.inj (List.mem_singleton.mp hnew))
    · dsimp only [System.setPhase]
      rw [hentries]
      exact hfound.append fun heq => hne (Option.some.inj heq).symm
    · -- its entry is the last of the log
      dsimp only [System.setPhase]
      rw [hentries]
      refine ⟨read, s.store.entries.length, id, hsince, hread, ⟨_, List.getElem?_concat_length, ?_⟩,
        fun i => ?_⟩
      · rw [List.take_append_of_le_length hread]
        exact houtcome.symm
      · rw [← hs.marked]
        constructor
        · intro hi
          by_contra hne
          by_cases hlt : i < s.marks.length
          · rw [List.getElem?_append_left hlt] at hi
            exact hnot (List.mem_of_getElem? hi)
          · rw [List.getElem?_eq_none
              (by simp only [List.length_append, List.length_singleton]; omega)] at hi
            cases hi
        · rintro rfl
          exact List.getElem?_concat_length

/-- Whatever a resumed call does, the system stays audited. -/
theorem Audited.resume (hs : Audited seeded s) (hcall : s.calls[index]? = some call) {id : Uuid}
    (h : s.resume index call id = some t) : Audited seeded t := by
  have hcurrent := hs.calls index call hcall
  have hsince := hs.since call (List.mem_of_getElem? hcall)
  unfold System.resume at h
  unfold CallAudited at hcurrent
  split at h
  -- An export reads the history first.
  · rename_i resource subject policy hphase hoperation
    rw [hphase] at hcurrent
    split at h
    · rename_i history hhistory
      obtain rfl := Option.some.inj h
      refine hs.setPhase hcall ⟨hcurrent, hsince, le_rfl, resource, subject, policy, hoperation, ?_⟩
      rw [List.take_length]
      exact history_eq hhistory
    · obtain rfl := Option.some.inj h
      exact hs.setPhase hcall hcurrent
  -- Every other operation is finished at once.
  · rename_i hphase hother
    rw [hphase] at hcurrent
    obtain rfl := Option.some.inj h
    exact hs.finish hcall hcurrent hsince le_rfl
        (outcome_eq_of_not_export id fun resource subject policy hexport =>
      hother resource subject policy hexport)
  -- An export that has its history is finished with it.
  · rename_i history read hphase
    rw [hphase] at hcurrent
    obtain ⟨hnot, hread, hlength, resource, subject, policy, hoperation, hhistory⟩ := hcurrent
    obtain rfl := Option.some.inj h
    exact hs.finish hcall hnot hread hlength (outcome_eq_of_export id hoperation hhistory)
  · cases h

/-- A step keeps the system audited. -/
theorem Audited.step (hs : Audited seeded s) {action : Action J P} (h : s.step action = some t) :
    Audited seeded t := by
  cases action with
  | call request =>
    obtain rfl := Option.some.inj h
    refine ⟨hs.seeded, hs.marked, fun i hi => ?_, fun found hfound => ?_, fun i found hfound => ?_⟩
    · rw [List.length_append]
      exact (hs.known i hi).trans_le (Nat.le_add_right _ _)
    · obtain hold | hnew := List.mem_append.mp hfound
      · exact hs.since found hold
      · rw [List.mem_singleton.mp hnew]
    · by_cases hi : i < s.calls.length
      · rw [List.getElem?_append_left hi] at hfound
        exact hs.calls i found hfound
      · -- the new operation, that has left nothing yet
        rw [List.getElem?_append_right (Nat.le_of_not_lt hi)] at hfound
        obtain rfl := List.mem_singleton.mp (List.mem_of_getElem? hfound)
        exact fun hin => hi (hs.known i hin)
  | resume index id =>
    obtain ⟨call, hcall, h⟩ := Option.bind_eq_some_iff.mp h
    exact hs.resume hcall h
  | drop index =>
    obtain ⟨call, hcall, h⟩ := Option.bind_eq_some_iff.mp h
    have hcurrent := hs.calls index call hcall
    unfold CallAudited at hcurrent
    split at h
    · rename_i hphase
      rw [hphase] at hcurrent
      obtain rfl := Option.some.inj h
      exact hs.setPhase hcall hcurrent
    · rename_i hphase
      rw [hphase] at hcurrent
      obtain rfl := Option.some.inj h
      exact hs.setPhase hcall hcurrent.1
    · cases h
  | append entry =>
    dsimp only [System.step] at h
    split at h
    · rename_i store happend
      have hentries := append_eq happend
      obtain rfl := Option.some.inj h
      refine ⟨hs.seeded.trans ⟨_, hentries.symm⟩, ?_, fun i hi => ?_, fun found hfound => ?_,
        fun i found hfound => ?_⟩
      · simp only [hentries, List.length_append, List.length_singleton, hs.marked]
      · obtain hold | hnew := List.mem_append.mp hi
        · exact hs.known i hold
        · cases List.mem_singleton.mp hnew
      · rw [hentries, List.length_append]
        exact (hs.since found hfound).trans (Nat.le_add_right _ _)
      · rw [hentries]
        exact (hs.calls i found hfound).append nofun
    · cases h

end Steps

/-- However the operations interleave with each other and with the rest of the host, and whoever
gives up waiting. -/
theorem audited_run (store : VecProvenanceStore J) {actions : List (Action J P)} {s : System J P}
    (h : run System.step (.start store) actions = some s) : Audited store.entries s :=
  run_preserves (fun _ _ _ hs hstep => hs.step hstep) (audited_start store) h

end Log

/-! An export reads the log, a rectification and the host append to it, and only then the export
does. -/

namespace Interleaving

/-- A resource. -/
def account : ResourceRef := ⟨1, 2⟩

/-- Its owner. -/
def owner : Subject := ⟨7, true, []⟩

/-- The entry of its creation. -/
def created : ProvenanceEntry String := ⟨10, account, some owner, .core .created, none, 1000⟩

/-- Two interleaved calls of the owner. -/
def actions : List (Action String String) := [
  .call ⟨.accessExport account owner "private", 2000⟩,
  .call ⟨.rectify account (some owner) "email", 1500⟩,
  .resume 0 20,
  .resume 1 21,
  .append created,
  .call ⟨.restore account none, 2500⟩,
  .drop 2,
  .resume 0 22]

end Interleaving

open Interleaving in
/-- Both entries are appended by their own calls. -/
theorem audited_run_interleaved :
    ∃ s, run System.step (.start ⟨[created], false⟩) actions = some s ∧
    s.marks = [none, some 1, none, some 0] ∧ Audited [created] s :=
  have hrun : run System.step (.start ⟨[created], false⟩) actions = some _ := rfl
  ⟨_, hrun, rfl, audited_run ⟨[created], false⟩ hrun⟩

end QueryFabric.Access.Rights
