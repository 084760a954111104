import QueryFabric.K8s.Driver

/-!
# The one-shot worker

`WorkerFlightService` of `crates/queryfabric-worker/src/lib.rs`. A request is checked and starts the
executor; when the executor has returned a stream, the request takes the sender of the shutdown
signal, if it is still there, and is answered with the stream. Requests overlap while their
executors run, and others arrive until the server has seen the signal. Nothing keeps a request from
being served after another was: `worker_one_shot_iff` says that the worker is one-shot just in the
runs where every request that starts the executor, and every one whose executor returns, finds the
sender still there.

The mutex around the sender is never poisoned, as nothing panics while it is held. The state keeps a
log of the executors that were started and of the requests that were answered with a stream, with
the newest entry first, which no step reads.
-/

namespace QueryFabric.Worker

open Lib K8s

/-- `Status`, with the codes that the service answers. -/
inductive Status
  | invalidArgument (message : String)
  | permissionDenied (message : String)
  | internal (message : String)
deriving DecidableEq, Repr

/-- The check of the ticket in `do_get`. -/
def checkTicket (spec : IsolatedJobSpec) (ticket : ByteArray) : Except Status Unit :=
  match String.fromUTF8? ticket with
  | none => .error (.invalidArgument "ticket must be UTF-8 query hash")
  | some ticketHash =>
    if ticketHash ≠ spec.query.provenance.queryHash then
      .error (.permissionDenied "ticket hash mismatch")
    else .ok ()

/-- Where a request stands. -/
inductive RequestPhase
  | executing
  | served
  | failed (status : Status)
  | dropped
deriving DecidableEq, Repr

/-- What is logged: an execution started and one served. -/
inductive Event
  | started (request : Nat)
  | served (request : Nat)
deriving DecidableEq, Repr

/-- Whether an entry of the log is a start. -/
def Event.isStarted : Event → Bool
  | .started _ => true
  | .served _ => false

/-- Whether an entry of the log is a query served. -/
def Event.isServed : Event → Bool
  | .started _ => false
  | .served _ => true

/-- A worker. `shutdown` says that the sender of the signal is still there, and `stopped` that the
server has seen the signal. -/
structure Service where
  spec : IsolatedJobSpec
  shutdown : Bool
  stopped : Bool
  requests : List RequestPhase
  log : List Event

/-- What can happen next: a request, the end of its execution, its drop or the shutdown. -/
inductive Action
  | doGet (ticket : ByteArray)
  | executed (request : Nat) (error : Option String)
  | drop (request : Nat)
  | stop

namespace Service

/-- `WorkerFlightService::new`. -/
def new (spec : IsolatedJobSpec) : Service :=
  { spec, shutdown := true, stopped := false, requests := [], log := [] }

/-- `do_get` up to the call of the executor. -/
def doGet (s : Service) (ticket : ByteArray) : Service :=
  match checkTicket s.spec ticket with
  | .error status => { s with requests := s.requests ++ [.failed status] }
  | .ok () =>
    { s with
      requests := s.requests ++ [.executing], log := .started s.requests.length :: s.log }

/-- `do_get` from the result of the executor. -/
def executed (s : Service) (request : Nat) : Option String → Service
  | some error =>
    { s with requests := s.requests.set request
               (.failed (.internal ("execution failed: " ++ error))) }
  | none =>
    { s with
      shutdown := false, requests := s.requests.set request .served,
      log := .served request :: s.log }

/-- One step of the service. -/
def step (s : Service) : Action → Option Service
  | .doGet ticket => if s.stopped then none else some (s.doGet ticket)
  | .executed request error =>
    if s.requests[request]? = some .executing then some (s.executed request error) else none
  | .drop request =>
    if s.requests[request]? = some .executing then
      some { s with requests := s.requests.set request .dropped }
    else none
  | .stop => if s.shutdown then none else some { s with stopped := true }

/-- At most one request is answered with a stream, and no executor is started after that. -/
structure OneShot (log : List Event) : Prop where
  servedOnce : (log.filter Event.isServed).length ≤ 1
  notRestarted : log.Pairwise fun newer older => older.isServed = true → newer.isStarted = false

/-- The worker is still one-shot after the step. -/
def KeepsOneShot (s : Service) (a : Action) : Prop := ∀ t, s.step a = some t → OneShot t.log

/-- A request that starts the executor, or whose executor has returned, finds the sender there. -/
def FindsSender (s : Service) : Action → Prop
  | .doGet ticket => s.stopped = false → checkTicket s.spec ticket = .ok () → s.shutdown = true
  | .executed request none => s.requests[request]? = some .executing → s.shutdown = true
  | _ => True

/-- The sender is there until a request is served. -/
structure Tracked (s : Service) : Prop where
  oneShot : OneShot s.log
  sender : s.shutdown = true ↔ s.log.filter Event.isServed = []

/-- A new service is tracked. -/
theorem tracked_new (spec : IsolatedJobSpec) : Tracked (new spec) where
  oneShot := ⟨Nat.zero_le _, List.Pairwise.nil⟩
  sender := by simp [new]

section Steps

variable {s t : Service} {a : Action}

/-- A log stays one-shot at a start where nothing was served before. -/
theorem oneShot_started {log : List Event} (request : Nat) (h : OneShot log) :
    OneShot (.started request :: log) ↔ log.filter Event.isServed = [] := by
  constructor
  · intro hlog
    rw [List.filter_eq_nil_iff]
    intro event hevent hserved
    cases (List.pairwise_cons.mp hlog.notRestarted).1 event hevent hserved
  · intro hnone
    refine ⟨by simpa [Event.isServed] using h.servedOnce,
      List.pairwise_cons.mpr ⟨?_, h.notRestarted⟩⟩
    intro event hevent hserved
    exact absurd hserved (List.filter_eq_nil_iff.mp hnone event hevent)

/-- A log stays one-shot at a query served where none was served before. -/
theorem oneShot_served {log : List Event} (request : Nat) (h : OneShot log) :
    OneShot (.served request :: log) ↔ log.filter Event.isServed = [] := by
  have hlength : ((Event.served request :: log).filter Event.isServed).length =
      (log.filter Event.isServed).length + 1 := rfl
  constructor
  · intro hlog
    have honce := hlog.servedOnce
    rw [← List.length_eq_zero_iff]
    omega
  · intro hnone
    refine ⟨?_, List.pairwise_cons.mpr ⟨fun _ _ _ => rfl, h.notRestarted⟩⟩
    rw [hlength, hnone, List.length_nil]

/-- A step of a run that always found the sender keeps the worker one-shot just when it finds it
too. -/
theorem Tracked.keepsOneShot_iff (hs : Tracked s) : KeepsOneShot s a ↔ FindsSender s a := by
  cases a with
  -- A request that is let in only starts: nothing is served by it yet.
  | doGet ticket =>
    unfold KeepsOneShot FindsSender Service.step
    cases hstopped : s.stopped with
    | true => simp
    | false =>
      cases hticket : checkTicket s.spec ticket with
      | error status => simpa [Service.doGet, hticket] using hs.oneShot
      | ok _ => simp [Service.doGet, hticket, oneShot_started _ hs.oneShot, hs.sender]
  -- Only an execution that succeeds serves the request.
  | executed request error =>
    unfold KeepsOneShot FindsSender Service.step
    by_cases hrequest : s.requests[request]? = some .executing
    · cases error with
      | some error => simpa [Service.executed, hrequest] using hs.oneShot
      | none => simp [Service.executed, hrequest, oneShot_served _ hs.oneShot, hs.sender]
    · cases error <;> simp [hrequest]
  -- A dropped request and a stop serve nothing.
  | drop request =>
    refine ⟨fun _ => trivial, fun _ t ht => ?_⟩
    simp only [Service.step] at ht
    split at ht
    · cases ht
      exact hs.oneShot
    · cases ht
  | stop =>
    refine ⟨fun _ => trivial, fun _ t ht => ?_⟩
    simp only [Service.step] at ht
    split at ht
    · cases ht
    · cases ht
      exact hs.oneShot

/-- A guarded step keeps the service tracked. -/
theorem Tracked.step (hs : Tracked s) (hguard : FindsSender s a) (h : s.step a = some t) :
    Tracked t := by
  refine ⟨hs.keepsOneShot_iff.mpr hguard t h, ?_⟩
  cases a with
  -- The sender is gone exactly when a request was served.
  | doGet ticket =>
    simp only [Service.step, Service.doGet] at h
    split at h
    · cases h
    · split at h
      · cases h
        exact hs.sender
      · cases h
        simpa [Event.isServed] using hs.sender
  | executed request error =>
    simp only [Service.step] at h
    split at h
    · cases error with
      | some error =>
        cases h
        exact hs.sender
      | none =>
        cases h
        simp [Service.executed, Event.isServed]
    · cases h
  | drop request =>
    simp only [Service.step] at h
    split at h
    · cases h
      exact hs.sender
    · cases h
  | stop =>
    simp only [Service.step] at h
    split at h
    · cases h
    · cases h
      exact hs.sender

end Steps

/-- In a run at most one request is served, and no executor is started after that, just when every
request that starts the executor and every one whose executor returns finds the sender of the
signal. -/
theorem worker_one_shot_iff (spec : IsolatedJobSpec) (actions : List Action) :
    Guarded Service.step KeepsOneShot (new spec) actions ↔
      Guarded Service.step FindsSender (new spec) actions :=
  guarded_congr (fun _ _ _ hs hguard h => Tracked.step hs hguard h)
    (fun _ _ hs => hs.keepsOneShot_iff) actions (tracked_new spec)

/-- Two requests with the right ticket whose executors run at the same time. -/
def overlapping (ticket : ByteArray) : List Action :=
  [.doGet ticket, .doGet ticket, .executed 0 none]

/-- The run that serves two overlapping requests is not guarded. -/
theorem overlapping_served_twice :
    ¬Guarded Service.step KeepsOneShot (new selectOneSpec)
      (overlapping selectOneSpec.query.provenance.queryHash.toUTF8 ++ [.executed 1 none]) := by
  intro h
  obtain ⟨s, hs⟩ : ∃ s, run Service.step (new selectOneSpec)
      (overlapping selectOneSpec.query.provenance.queryHash.toUTF8) = some s := ⟨_, rfl⟩
  obtain ⟨-, hlast, -⟩ := h.append hs
  cases hs
  have honce := (hlast _ rfl).servedOnce
  exact absurd honce (by decide)

end Service

end QueryFabric.Worker
