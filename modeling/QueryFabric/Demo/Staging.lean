import QueryFabric.Demo.Exactness

/-!
# Staged imports

`import_dry_run` and `import_apply` of `crates/queryfabric-demo/src/http.rs`. A dry run stages the
bytes of an artifact under a path for its plan; an apply reads them, makes a call of the database,
and removes them when the call fails. Any number of requests run side by side: a step takes one of
them to its next `await`.

What `prepare_import` makes of a request is a parameter, and so is what authentication says. A
request that ends before its first `await` changes nothing and is not kept. The objects are texts,
as the artifacts are.

The staging object of an import that is committed stays where it is, and a replay of the import gets
its receipt, as long as no other apply of the plan fails beside it or after it (`replayable_run`).
-/

namespace QueryFabric.Demo

open Lib Portability

/-! ## Requests -/

/-- `ApiError`. -/
inductive ApiError
  | badRequest (message : String)
  | notFound (message : String)
  | forbidden (message : String)
  | dependency (message : String)
  | unauthorized (message : String)
  | conflict (message : String)
deriving DecidableEq, Repr

/-- The text of a database error. -/
def DbError.message : DbError → String
  | .connect error => "postgres connection failed: " ++ error
  | .statement error => "postgres statement failed: " ++ error
  | .invalidImport message => "import row is invalid: " ++ message
  | .conflictingReplay key =>
    "existing import receipt does not match the requested plan (" ++ key ++ ")"
  | .injectedFailure stage => "import transaction failure injected at " ++ stage

/-- `ApiError::from`. -/
def ApiError.ofDb : DbError → ApiError
  | .conflictingReplay key => .conflict key
  | error => .dependency error.message

/-- `ImportRequest`. -/
structure ImportRequest where
  bundle : String
  artifact : String
  expectedBundleDigest : String
  target : String
  targetRevision : Option String
  planDigest : Option String
  stagedObject : Option String
deriving DecidableEq, Repr

/-- What `prepare_import` makes of a request: the digest of the artifact, and the import with the
digest of its plan. -/
structure Prepared where
  artifactDigest : String
  commit : ImportCommit

/-- `replace(':', "-")`. -/
def dashed (text : String) : String :=
  String.ofList (text.toList.map fun c => if c = ':' then '-' else c)

namespace Prepared

/-- The digest of the plan of a request. -/
def planDigest (prepared : Prepared) : String := prepared.commit.planDigest

/-- The path of the staging object of a plan. -/
def stagedPath (prepared : Prepared) : String :=
  "imports/staging/" ++ dashed prepared.artifactDigest ++ "/" ++ dashed prepared.planDigest ++
    "/artifact.csv"

end Prepared

/-- `ImportResponse`. -/
inductive ImportResponse
  | dryRun (stagedObject planDigest : String)
  | applied (receipt : Json) (stagedObject : String) (replayed : Bool)

/-- Where a request stands. -/
inductive RequestPhase
  /-- A dry run, before it looks for the staging object and before it writes one. -/
  | looking
  | writing
  /-- An apply, before it reads the staging object, while its call runs, and before it removes the
  object. -/ | reading
  | calling
  | removing (error : DbError)
  | responded (response : Except ApiError ImportResponse)
  | dropped

/-- Whether an apply has still to read the staging object. -/
def RequestPhase.isReading : RequestPhase → Bool
  | .reading => true
  | _ => false

/-- A request, with the number of its call of the database. -/
structure Request where
  request : ImportRequest
  prepared : Prepared
  call : Option Nat
  phase : RequestPhase

/-- The path of the staged object. -/
def Request.stagedPath (r : Request) : String := r.prepared.stagedPath

/-- What becomes of a write or a removal. The answer to one that took effect may be lost. -/
inductive StoreOutcome
  | answered
  | lost (error : String)
  | refused (error : String)

/-- The error that the store answers, if there is one. -/
def StoreOutcome.error? : StoreOutcome → Option String
  | .answered => none
  | .lost error | .refused error => some error

/-- Whether the store did what it was asked. -/
def StoreOutcome.takesEffect : StoreOutcome → Bool
  | .answered | .lost _ => true
  | .refused _ => false

/-- The database, the store and the requests under way. -/
structure Server where
  db : System
  store : String → Option String
  requests : List Request

/-- What may happen next. -/
inductive ServerAction
  | dryRun (request : ImportRequest) (subject : Except ApiError Unit)
  | apply (request : ImportRequest) (subject : Except ApiError Unit)
  /-- A request reads its staging object. -/
  | get (index : Nat) (error : Option String)
  | put (index : Nat) (outcome : StoreOutcome)
  /-- The call of a request takes a step. -/
  | database (action : Action)
  /-- A request goes on with what its call has returned. -/
  | resume (index : Nat)
  | delete (index : Nat) (outcome : StoreOutcome)
  | drop (index : Nat)

namespace Server

/-- A server before its first request. -/
def start (seeded : List Reading) (store : String → Option String) : Server :=
  { db := .start seeded, store, requests := [] }

/-- A request moves to another phase. -/
def setPhase (s : Server) (index : Nat) (r : Request) (phase : RequestPhase) : Server :=
  { s with requests := s.requests.set index { r with phase } }

/-- A request is answered. -/
def respond (s : Server) (index : Nat) (r : Request)
    (response : Except ApiError ImportResponse) : Server :=
  s.setPhase index r (.responded response)

section Step

variable (env : Environment) (prepare : ImportRequest → Except ApiError Prepared)

/-- `import_dry_run` up to its first `await`. -/
def acceptDryRun (request : ImportRequest) (subject : Except ApiError Unit) :
    Except ApiError Request := do
  subject
  let prepared ← prepare request
  return { request, prepared, call := none, phase := .looking }

/-- `import_apply` up to its first `await`. -/
def acceptApply (request : ImportRequest) (subject : Except ApiError Unit) :
    Except ApiError Request := do
  subject
  let expectedPlanDigest ← match request.planDigest with
    | some digest => .ok digest
    | none => .error (.badRequest "apply requires the planDigest returned by dry-run")
  let expectedStagedObject ← match request.stagedObject with
    | some path => .ok path
    | none => .error (.badRequest "apply requires the stagedObject returned by dry-run")
  let prepared ← prepare request
  if expectedPlanDigest ≠ prepared.planDigest then
    .error (.conflict "planDigest does not match the current validated import plan")
  else if expectedStagedObject ≠ prepared.stagedPath then
    .error (.conflict "stagedObject does not match the content-addressed artifact")
  else .ok { request, prepared, call := none, phase := .reading }

/-- A request is kept when it comes to its first `await`. -/
def accept (s : Server) : Except ApiError Request → Server
  | .ok r => { s with requests := s.requests ++ [r] }
  | .error _ => s

/-- An apply makes its call. -/
def callDatabase (s : Server) (index : Nat) (r : Request) : Server :=
  { s with
    db := { s.db with calls := s.db.calls ++ [⟨r.prepared.commit, .connecting⟩] }
    requests := s.requests.set index { r with call := some s.db.calls.length, phase := .calling } }

/-- A request has read its staging object, or got an error. -/
def get (s : Server) (index : Nat) (r : Request) (error : Option String) : Option Server :=
  let found := match error with
    | some _ => none
    | none => s.store r.stagedPath
  match r.phase, found with
  | .looking, some bytes =>
    if bytes ≠ r.request.artifact then
      some (s.respond index r
        (.error (.conflict "content-addressed staging object already contains different bytes")))
    else some (s.respond index r (.ok (.dryRun r.stagedPath r.prepared.planDigest)))
  | .looking, none => some (s.setPhase index r .writing)
  | .reading, some bytes =>
    if bytes ≠ r.request.artifact then
      some (s.respond index r (.error (.conflict "staged bytes differ from the apply request")))
    else some (s.callDatabase index r)
  | .reading, none =>
    some (s.respond index r
      (.error (.badRequest "the dry-run staging object is no longer available")))
  | _, _ => none

/-- The object of a path becomes another. -/
def setObject (s : Server) (path : String) (object : Option String) : Server :=
  { s with store := fun other => if other = path then object else s.store other }

/-- A dry run has written its staging object, or got an error. -/
def put (s : Server) (index : Nat) (r : Request) (outcome : StoreOutcome) : Option Server :=
  match r.phase with
  | .writing =>
    let written := if outcome.takesEffect then
      s.setObject r.stagedPath (some r.request.artifact) else s
    some (written.respond index r (match outcome.error? with
      | none => .ok (.dryRun r.stagedPath r.prepared.planDigest)
      | some error => .error (.dependency error)))
  | _ => none

/-- The phase of the call of a request. -/
def callPhase (s : Server) (r : Request) : Option CallPhase :=
  r.call.bind fun index => s.db.calls[index]?.map Call.phase

/-- An apply goes on when its call has returned. -/
def resume (s : Server) (index : Nat) (r : Request) : Option Server :=
  match r.phase, s.callPhase r with
  | .calling, some (.returned receipt replayed) =>
    some (s.respond index r (.ok (.applied receipt r.stagedPath replayed)))
  | .calling, some (.failed error) | .calling, some (.unanswered error) =>
    some (s.setPhase index r (.removing error))
  | _, _ => none

/-- An apply whose call failed has removed its staging object, or got an error, which is logged. -/
def delete (s : Server) (index : Nat) (r : Request) (outcome : StoreOutcome) : Option Server :=
  match r.phase with
  | .removing error =>
    let removed := if outcome.takesEffect then s.setObject r.stagedPath none else s
    some (removed.respond index r (.error (.ofDb error)))
  | _ => none

/-- A request is dropped, and with it its call. -/
def drop (s : Server) (index : Nat) (r : Request) : Option Server :=
  match r.phase with
  | .looking | .writing | .reading | .removing _ => some (s.setPhase index r .dropped)
  | .calling =>
    let db := (r.call.bind fun call => s.db.step env (.drop call)).getD s.db
    some ({ s with db }.setPhase index r .dropped)
  | .responded _ | .dropped => none

/-- A step that is neither a new call nor the end of one. -/
def isCallStep : Action → Bool
  | .call _ | .drop _ => false
  | _ => true

/-- A step of the server, if it can be taken. -/
def step (s : Server) : ServerAction → Option Server
  | .dryRun request subject => some (s.accept (acceptDryRun prepare request subject))
  | .apply request subject => some (s.accept (acceptApply prepare request subject))
  | .database action =>
    if isCallStep action then (s.db.step env action).map fun db => { s with db } else none
  | .get index error => do
    let r ← s.requests[index]?
    s.get index r error
  | .put index outcome => do
    let r ← s.requests[index]?
    s.put index r outcome
  | .resume index => do
    let r ← s.requests[index]?
    s.resume index r
  | .delete index outcome => do
    let r ← s.requests[index]?
    s.delete index r outcome
  | .drop index => do
    let r ← s.requests[index]?
    s.drop env index r

end Step

/-! ## What may go wrong -/

/-- Whether a call has failed, or looks so to the request. -/
def hasFailed : CallPhase → Bool
  | .failed _ | .unanswered _ => true
  | _ => false

/-- The call of a request runs. -/
def isLive (s : Server) (r : Request) : Bool := (s.callPhase r).any CallPhase.isRunning

/-- The call of a request has failed, and the request has still to remove the staging object. -/
def isFailing (s : Server) (r : Request) : Bool :=
  match r.phase with
  | .calling => (s.callPhase r).any hasFailed
  | .removing _ => true
  | _ => false

/-- The call of a request has a committed receipt. -/
def isRecorded (s : Server) (r : Request) : Bool :=
  s.db.receipts.any fun receipt => r.call = some receipt.call

/-- A step makes the call of a request fail. -/
def fails (env : Environment) (s : Server) (action : Action) (r : Request) : Bool :=
  (s.db.step env action).any fun db =>
    !s.isFailing r && { s with db }.isFailing r

/-- The plan of a request has no receipt, and no other apply of it has passed its check of the
staging object. -/
def Undisturbed (s : Server) (r : Request) : Prop :=
  ∀ other ∈ s.requests, other.stagedPath = r.stagedPath → other.call ≠ r.call →
    s.isLive other = false ∧ s.isRecorded other = false

/-- The commit of a call takes effect, and its answer is lost. -/
def losesAnswer : Action → Bool
  | .commit _ (.lost _) => true
  | _ => false

/-- What keeps the staging objects: no call of an apply fails while its plan has a receipt or
another apply of it is under way, none fails although its commit took effect, and no apply reads an
object that one that failed has still to remove. -/
def Careful (env : Environment) (s : Server) : ServerAction → Prop
  | .database action => System.FreshIds s.db action ∧
    (∀ r ∈ s.requests, s.fails env action r = true → s.Undisturbed r) ∧ losesAnswer action = false
  | .get index _ => ∀ r ∈ s.requests[index]?, r.phase.isReading = true → ∀ other ∈ s.requests,
    other.stagedPath = r.stagedPath → s.isFailing other = false
  | _ => True

/-! ## What the steps keep -/

/-- The path of a staging object tells its bytes, as the digest in it does. -/
def Addressed (prepare : ImportRequest → Except ApiError Prepared) : Prop :=
  ∀ request other prepared prepared', prepare request = .ok prepared →
    prepare other = .ok prepared' →
    prepared.stagedPath = prepared'.stagedPath → request.artifact = other.artifact

/-- What holds between steps: every call is that of a request, the staging object of a call that
runs or has a receipt is there, and no request that will remove an object has the plan of such a
call. -/
structure Staged (env : Environment) (prepare : ImportRequest → Except ApiError Prepared)
    (s : Server) : Prop where
  kept : System.Kept env s.db
  prepared : ∀ r ∈ s.requests, prepare r.request = .ok r.prepared
  unread : ∀ r ∈ s.requests, r.phase = .reading → r.call = none
  linked : ∀ r ∈ s.requests, ∀ index, r.call = some index →
    (s.db.calls.map Call.request)[index]? = some r.prepared.commit
  owned : ∀ index, index < s.db.calls.length → ∃ r ∈ s.requests, r.call = some index
  present : ∀ r ∈ s.requests, s.isLive r = true ∨ s.isRecorded r = true →
    s.store r.stagedPath = some r.request.artifact
  apart : ∀ r ∈ s.requests, s.isFailing r = true → ∀ other ∈ s.requests,
    other.stagedPath = r.stagedPath →
    s.isLive other = false ∧ s.isRecorded other = false

section Steps

variable {env : Environment} {prepare : ImportRequest → Except ApiError Prepared} {s : Server}
  {index : Nat} {r : Request}

/-- At the start there are no requests. -/
theorem staged_start (seeded : List Reading) (store : String → Option String) :
    Staged env prepare (start seeded store) where
  kept := System.kept_start seeded
  prepared := List.forall_mem_nil _
  unread := List.forall_mem_nil _
  linked := List.forall_mem_nil _
  owned _ h := absurd h (Nat.not_lt_zero _)
  present := List.forall_mem_nil _
  apart := List.forall_mem_nil _

omit r in
/-- What holds of the requests and of one that takes the place of another holds of all. -/
theorem forall_mem_set {P : Request → Prop} {requests : List Request} {moved : Request}
    (hold : ∀ other ∈ requests, P other) (hmoved : P moved) : ∀ other ∈ requests.set index moved,
    P other := by
  intro other hother
  obtain hother | rfl := List.mem_or_eq_of_mem_set hother
  · exact hold other hother
  · exact hmoved

/-- The call of a request is one of those made. -/
theorem Staged.past (hs : Staged env prepare s) {other : Request} (h : other ∈ s.requests) {i : Nat}
    (hi : other.call = some i) : i < s.db.calls.length := by
  have hlength := (List.getElem?_eq_some_iff.mp (hs.linked other h i hi)).1
  rwa [List.length_map] at hlength

/-- A request in another phase has the call that it had. -/
theorem exists_mem_set {phase : RequestPhase} (hr : s.requests[index]? = some r) {other : Request}
    (h : other ∈ s.requests) : ∃ found ∈ s.requests.set index { r with phase }, found.call =
      other.call := by
  obtain ⟨j, hj⟩ := List.getElem?_of_mem h
  by_cases heq : index = j
  · subst heq
    obtain rfl := Option.some.inj (hr.symm.trans hj)
    have hlength := (List.getElem?_eq_some_iff.mp hr).1
    exact ⟨{ r with phase }, List.mem_of_getElem? (by rw [List.getElem?_set_self hlength]), rfl⟩
  · exact ⟨other, List.mem_of_getElem? (by rw [List.getElem?_set_ne heq, hj]), rfl⟩

/-- A request moves to another phase, and objects that no call needs may change. -/
theorem Staged.setPhase (hs : Staged env prepare s) (hr : s.requests[index]? = some r)
    {phase : RequestPhase} {store : String → Option String} (hreading : phase ≠ .reading)
    (hfailing : s.isFailing { r with phase } = true → s.isFailing r = true)
    (hstore : ∀ other ∈ s.requests, s.isLive other = true ∨ s.isRecorded other = true →
      store other.stagedPath = some other.request.artifact) :
    Staged env prepare { s with store, requests := s.requests.set index { r with phase } } := by
  have hmem : r ∈ s.requests := List.mem_of_getElem? hr
  refine ⟨hs.kept, forall_mem_set hs.prepared (hs.prepared r hmem),
    forall_mem_set hs.unread fun h => absurd h hreading,
    forall_mem_set hs.linked (hs.linked r hmem), fun i hi => ?_,
      forall_mem_set hstore (hstore r hmem), ?_⟩
  · obtain ⟨other, hother, hindex⟩ := hs.owned i hi
    obtain ⟨found, hfound, hcall⟩ := exists_mem_set hr hother
    exact ⟨found, hfound, hcall.trans hindex⟩
  · have hkeep {other : Request} (hother : other ∈ s.requests) (h : s.isFailing other = true) :
        ∀ found ∈ s.requests.set index { r with phase }, found.stagedPath = other.stagedPath →
          s.isLive found = false ∧ s.isRecorded found = false :=
      forall_mem_set (hs.apart other hother h) (hs.apart other hother h r hmem)
    exact forall_mem_set (fun other hother h => hkeep hother h) fun h found hfound hpath =>
      hkeep hmem (hfailing h) found hfound hpath

/-- A request makes one call more. -/
theorem calls_callDatabase (s : Server) (index : Nat) (r : Request) :
    (s.callDatabase index r).db.calls = s.db.calls ++ [⟨r.prepared.commit, .connecting⟩] := rfl

/-- An apply that has read its staging object makes its call. -/
theorem Staged.callDatabase (hs : Staged env prepare s) (hr : s.requests[index]? = some r)
    (hreading : r.phase = .reading) (hfound : s.store r.stagedPath = some r.request.artifact)
    (hfree : ∀ other ∈ s.requests, other.stagedPath = r.stagedPath → s.isFailing other = false) :
    Staged env prepare (s.callDatabase index r) := by
  have hmem : r ∈ s.requests := List.mem_of_getElem? hr
  let called : Request := { r with call := some s.db.calls.length, phase := .calling }
  -- The calls that were there have not moved.
  have hphase {other : Request} (hother : other ∈ s.requests) :
      (s.callDatabase index r).callPhase other = s.callPhase other := by
    unfold callPhase
    cases hcall : other.call with
    | none => rfl
    | some i =>
      have hpast := hs.past hother hcall
      rw [Option.bind_some, Option.bind_some, calls_callDatabase, List.getElem?_append_left hpast]
  have hnew : (s.callDatabase index r).callPhase called = some .connecting := by
    unfold callPhase
    rw [Option.bind_some, calls_callDatabase, List.getElem?_concat_length]
    rfl
  have hfailing : (s.callDatabase index r).isFailing called = false := by
    unfold isFailing
    rw [hnew]
    rfl
  have hrecorded : (s.callDatabase index r).isRecorded called = false := by
    refine List.any_eq_false.mpr fun receipt hreceipt heq => ?_
    have hpast := hs.kept.receipt_past hreceipt
    have hlast : s.db.calls.length = receipt.call := Option.some.inj (of_decide_eq_true heq)
    omega
  have hlive {other : Request} (hother : other ∈ s.requests) :
      (s.callDatabase index r).isLive other = s.isLive other := by
    unfold isLive
    rw [hphase hother]
  have hfails {other : Request} (hother : other ∈ s.requests) :
      (s.callDatabase index r).isFailing other = s.isFailing other := by
    unfold isFailing
    rw [hphase hother]
  refine ⟨hs.kept.called r.prepared.commit, forall_mem_set hs.prepared (hs.prepared r hmem),
    forall_mem_set hs.unread (by rintro ⟨⟩),
    forall_mem_set (fun other hother i hi => ?_) fun i hi => ?_,
    fun i hi => ?_,
    forall_mem_set (fun other hother h => ?_) fun _ => hfound,
    forall_mem_set (fun other hother h => ?_) fun h =>
      absurd (hfailing.symm.trans h) Bool.false_ne_true⟩
  · have hpast := hs.past hother hi
    rw [calls_callDatabase, List.map_append, List.getElem?_append_left (by rwa [List.length_map])]
    exact hs.linked other hother i hi
  · obtain rfl := Option.some.inj hi
    rw [calls_callDatabase, List.getElem?_map, List.getElem?_concat_length]
    rfl
  · by_cases hold : i < s.db.calls.length
    · obtain ⟨other, hother, hindex⟩ := hs.owned i hold
      obtain ⟨j, hj⟩ := List.getElem?_of_mem hother
      -- The request that makes the call had none.
      have hne : index ≠ j := by
        rintro rfl
        obtain rfl := Option.some.inj (hr.symm.trans hj)
        rw [hs.unread r hmem hreading] at hindex
        cases hindex
      exact ⟨other, List.mem_of_getElem? ((List.getElem?_set_ne hne).trans hj), hindex⟩
    · rw [calls_callDatabase, List.length_append, List.length_singleton] at hi
      have hlast : s.db.calls.length = i := by omega
      have hplace := (List.getElem?_eq_some_iff.mp hr).1
      exact ⟨called, List.mem_of_getElem? (List.getElem?_set_self hplace), congrArg some hlast⟩
  · rw [hlive hother] at h
    exact hs.present other hother h
  · rw [hfails hother] at h
    have hapart := hs.apart other hother h
    refine forall_mem_set (fun found hfound hpath => ?_) fun hpath => ?_
    · rw [hlive hfound]
      exact hapart found hfound hpath
    · have hnot := hfree other hother hpath.symm
      rw [hnot] at h
      cases h

/-- A step of the database moves one call, which ran, and commits no receipt but its own. -/
theorem exists_call_of_step {db t : System} {action : Action} (hkept : System.Kept env db)
    (h : db.step env action = some t) (hcall : ∀ request, action ≠ .call request) :
    ∃ i call phase, db.calls[i]? = some call ∧ call.phase.isRunning = true ∧
      t.calls = db.calls.set i { call with phase } ∧
      (∀ receipt ∈ t.receipts, receipt ∈ db.receipts ∨ receipt.call = i) ∧
      ∀ error, phase = .unanswered error → losesAnswer action = true := by
  -- A step of the database is a step of one of its calls.
  cases System.step_moves h with
  | called request => exact absurd rfl (hcall request)
  | moved _ i call phase hi hrunning hphase =>
    refine ⟨i, call, phase, hi, hrunning, rfl, fun receipt => .inl, fun error herror => ?_⟩
    rw [herror] at hphase
    obtain hbare | hdropped := hphase
    · cases hbare
    · cases hdropped
  | prepared i call hi hphase =>
    have hrunning : call.phase.isRunning = true := by rw [hphase]; rfl
    exact ⟨i, call, _, hi, hrunning, rfl, fun receipt => .inl, fun error herror => by cases herror⟩
  | inserted i call ordinal rows row reading hi hphase =>
    have hrunning : call.phase.isRunning = true := by rw [hphase]; rfl
    exact ⟨i, call, _, hi, hrunning, rfl, fun receipt => .inl, fun error herror => by cases herror⟩
  | reserved i call ordinal rows receiptId hi hphase =>
    have hrunning : call.phase.isRunning = true := by rw [hphase]; rfl
    exact ⟨i, call, _, hi, hrunning, rfl, fun receipt => .inl, fun error herror => by cases herror⟩
  -- Only a commit records a receipt, its own call's, and only one whose answer is lost leaves it
  -- unanswered.
  | committed i call rows receipt outcome hi hphase =>
    have hrunning : call.phase.isRunning = true := by rw [hphase]; rfl
    refine ⟨i, call, _, hi, hrunning, rfl, fun other hother => ?_, fun error herror => ?_⟩
    · obtain hold | hnew := List.mem_append.mp hother
      · exact .inl hold
      · rw [List.mem_singleton.mp hnew]
        obtain ⟨receiptId, hreceipt⟩ :=
          ((hkept.calls i call hi).committing rows receipt hphase).receipt
        exact .inr (by rw [hreceipt]; rfl)
    · cases outcome with
      | lost error' => rfl
      | _ => cases herror

/-- The phases of the calls when one call has moved. -/
theorem callPhase_set {db : System} {i : Nat} {call : Call} {phase : CallPhase}
    (hi : s.db.calls[i]? = some call)
    (hcalls : db.calls = s.db.calls.set i { call with phase }) (r : Request) :
    ({ s with db } : Server).callPhase r = if r.call = some i then
      some phase else s.callPhase r := by
  unfold callPhase
  show (r.call.bind fun index => db.calls[index]?.map Call.phase) = _
  rw [hcalls]
  split_ifs with hcall
  · rw [hcall, Option.bind_some, List.getElem?_set_self (List.getElem?_eq_some_iff.mp hi).1]
    rfl
  · cases hr : r.call with
    | none => rfl
    | some j =>
      have hne : i ≠ j := fun heq => hcall (by rw [hr, heq])
      rw [Option.bind_some, Option.bind_some, List.getElem?_set_ne hne]

/-- A request whose call has just failed. -/
theorem failed_of_isFailing {db : System} {i : Nat} {call : Call} {phase : CallPhase}
    (hi : s.db.calls[i]? = some call)
    (hcalls : db.calls = s.db.calls.set i { call with phase }) (hold : ¬s.isFailing r = true)
    (hfailing : ({ s with db } : Server).isFailing r = true) : r.call = some i ∧
    hasFailed phase = true := by
  unfold isFailing at hfailing hold
  cases hr : r.phase <;> simp only [hr, callPhase_set hi hcalls] at hfailing hold
  case calling =>
    split_ifs at hfailing with hcall
    · exact ⟨hcall, by simpa using hfailing⟩
    · exact absurd hfailing hold
  case removing => exact absurd trivial hold
  all_goals cases hfailing

/-- A call takes a step. -/
theorem Staged.database (hs : Staged env prepare s) {action : Action} {db : System}
    (h : s.db.step env action = some db)
    (hcall : ∀ request, action ≠ .call request) (hfresh : System.FreshIds s.db action)
    (hfails : ∀ r ∈ s.requests, s.fails env action r = true → s.Undisturbed r)
    (hlost : losesAnswer action = false) : Staged env prepare { s with db } := by
  obtain ⟨i, call, phase, hi, hrunning, hcalls, hreceipts, hunanswered⟩ :=
    exists_call_of_step hs.kept h hcall
  have hkept := hs.kept.step hfresh h
  have hphase := callPhase_set hi hcalls
  have hlive (r : Request) (hr : ({ s with db } : Server).isLive r = true) : s.isLive r = true := by
    unfold isLive at hr ⊢
    rw [hphase] at hr
    split_ifs at hr with hcall
    · unfold callPhase
      rw [hcall]
      simp [hi, hrunning]
    · exact hr
  have hrecorded (r : Request) (hr : ({ s with db } : Server).isRecorded r = true) :
      s.isLive r = true ∨ s.isRecorded r = true := by
    obtain ⟨receipt, hreceipt, hcall⟩ := List.any_eq_true.mp hr
    obtain hold | hnew := hreceipts receipt hreceipt
    · exact .inr (List.any_eq_true.mpr ⟨receipt, hold, hcall⟩)
    · refine .inl ?_
      unfold isLive callPhase
      rw [of_decide_eq_true hcall, hnew]
      simp [hi, hrunning]
  have hnot {r : Request} (hr : s.isLive r = false ∧ s.isRecorded r = false) :
      ({ s with db } : Server).isLive r = false ∧
          ({ s with db } : Server).isRecorded r = false := by
    refine ⟨Bool.eq_false_iff.mpr fun h => ?_, Bool.eq_false_iff.mpr fun h => ?_⟩
    · rw [hlive r h] at hr
      cases hr.1
    · obtain hlive | hrecorded := hrecorded r h
      · rw [hlive] at hr
        cases hr.1
      · rw [hrecorded] at hr
        cases hr.2
  have hrequests : db.calls.map Call.request = s.db.calls.map Call.request := by
    rw [hcalls]
    exact System.requests_setPhase phase hi
  refine ⟨hkept, hs.prepared, hs.unread, fun r hr index hindex => ?_, fun index hindex => ?_,
    fun r hr h => ?_,
    fun r hr hfailing other hother hpath => ?_⟩
  · show (db.calls.map Call.request)[index]? = _
    rw [hrequests]
    exact hs.linked r hr index hindex
  · change index < db.calls.length at hindex
    rw [hcalls, List.length_set] at hindex
    exact hs.owned index hindex
  · obtain hlives | hrec := h
    · exact hs.present r hr (.inl (hlive r hlives))
    · exact hs.present r hr (hrecorded r hrec)
  · by_cases hold : s.isFailing r = true
    · exact hnot (hs.apart r hr hold other hother hpath)
    · -- The call of this request has just failed.
      have hnew : s.fails env action r = true := by
        unfold fails
        rw [h, Bool.eq_false_iff.mpr hold]
        simp [hfailing]
      by_cases hsame : other.call = r.call
      · obtain ⟨hindex, hfailed⟩ := failed_of_isFailing hi hcalls hold hfailing
        obtain ⟨error, rfl⟩ : ∃ error, phase = .failed error := by
          cases phase <;> try cases hfailed
          case failed error => exact ⟨error, rfl⟩
          case unanswered error =>
            exact absurd (hlost.symm.trans (hunanswered error rfl)) Bool.false_ne_true
        have hget : db.calls[i]? = some { call with phase := .failed error } := by
          rw [hcalls]
          exact List.getElem?_set_self (List.getElem?_eq_some_iff.mp hi).1
        have hnone := (hkept.calls i _ hget).unrecorded (.inl trivial)
        refine ⟨?_, List.any_eq_false.mpr fun receipt hreceipt heq => ?_⟩
        · unfold isLive
          rw [hphase, hsame, hindex, if_pos rfl]
          rfl
        · have hown : some i = some receipt.call := by
            rw [← hindex, ← hsame]
            exact of_decide_eq_true heq
          exact hnone.noReceipt receipt hreceipt (Option.some.inj hown).symm
      · exact hnot (hfails r hr hnew other hother hpath hsame)

/-- A request without a call is kept. -/
theorem Staged.accept (hs : Staged env prepare s) {accepted : Except ApiError Request}
    (h : ∀ r, accepted = .ok r → prepare r.request = .ok r.prepared ∧ r.call = none ∧
      (r.phase = .looking ∨ r.phase = .reading)) :
    Staged env prepare (s.accept accepted) := by
  cases accepted with
  | error error => exact hs
  | ok r =>
    obtain ⟨hprepared, hcall, hphase⟩ := h r rfl
    -- An accepted request has no call yet, so it is neither live nor recorded nor failing.
    have hnone : s.callPhase r = none := by
      unfold callPhase
      rw [hcall]
      rfl
    have hlive : s.isLive r = false := by
      unfold isLive
      rw [hnone]
      rfl
    have hrecorded : s.isRecorded r = false := by
      refine List.any_eq_false.mpr fun receipt _ heq => ?_
      rw [hcall] at heq
      cases of_decide_eq_true heq
    have hfailing : s.isFailing r = false := by
      unfold isFailing
      obtain hphase | hphase := hphase <;> rw [hphase]
    -- What holds of the old requests and of the new one holds of all.
    have hcases {P : Request → Prop} (hold : ∀ other ∈ s.requests, P other) (hnew : P r) :
        ∀ other ∈ s.requests ++ [r], P other :=
      List.forall_mem_append.mpr ⟨hold, List.forall_mem_singleton.mpr hnew⟩
    refine ⟨hs.kept, hcases hs.prepared hprepared, hcases hs.unread fun _ => hcall,
      hcases hs.linked fun i hi => ?_,
      fun i hi => ?_, hcases hs.present fun h => ?_, hcases (fun other hother h => ?_) fun h => ?_⟩
    · rw [hcall] at hi
      cases hi
    · obtain ⟨other, hother, hindex⟩ := hs.owned i hi
      exact ⟨other, List.mem_append_left _ hother, hindex⟩
    · obtain h | h := h
      · exact absurd (hlive.symm.trans h) Bool.false_ne_true
      · exact absurd (hrecorded.symm.trans h) Bool.false_ne_true
    · exact hcases (hs.apart other hother h) fun _ => ⟨hlive, hrecorded⟩
    · exact absurd (hfailing.symm.trans h) Bool.false_ne_true

/-- What an accepted dry run is. -/
theorem acceptDryRun_ok {request : ImportRequest} {subject : Except ApiError Unit}
    (h : acceptDryRun prepare request subject = .ok r) :
    prepare r.request = .ok r.prepared ∧ r.call = none ∧ r.phase = .looking := by
  unfold acceptDryRun at h
  cases subject with
  | error error => cases h
  | ok =>
    cases hprepare : prepare request with
    | error error =>
      rw [hprepare] at h
      cases h
    | ok prepared =>
      rw [hprepare] at h
      cases h
      exact ⟨hprepare, rfl, rfl⟩

/-- What an accepted apply is. -/
theorem acceptApply_ok {request : ImportRequest} {subject : Except ApiError Unit}
    (h : acceptApply prepare request subject = .ok r) :
    prepare r.request = .ok r.prepared ∧ r.call = none ∧ r.phase = .reading := by
  unfold acceptApply at h
  cases subject with
  | error error => cases h
  | ok =>
    -- A request without a digest or without a staged object is refused.
    cases hdigest : request.planDigest with
    | none =>
      rw [hdigest] at h
      cases h
    | some digest =>
      cases hobject : request.stagedObject with
      | none =>
        rw [hdigest, hobject] at h
        cases h
      | some path =>
        cases hprepare : prepare request with
        | error error =>
          rw [hdigest, hobject, hprepare] at h
          cases h
        | ok prepared =>
          rw [hdigest, hobject, hprepare] at h
          change (if _ then _ else if _ then _ else _) = _ at h
          -- The digest and the path are those of the plan.
          split_ifs at h
          cases h
          exact ⟨hprepare, rfl, rfl⟩

/-- A request whose phase changes to one without a call is not failing by that. -/
theorem not_isFailing_of_phase {phase : RequestPhase}
    (h : phase = .writing ∨ phase = .dropped ∨ ∃ response, phase = .responded response) :
    s.isFailing { r with phase } = false := by
  unfold isFailing
  obtain rfl | rfl | ⟨response, rfl⟩ := h <;> rfl

/-- A request leaves for a phase in which it does not fail. -/
theorem Staged.leave (hs : Staged env prepare s) (hr : s.requests[index]? = some r)
    {phase : RequestPhase}
    (h : phase = .writing ∨ phase = .dropped ∨ ∃ response, phase = .responded response) :
    Staged env prepare (s.setPhase index r phase) := by
  have hreading : phase ≠ .reading := by
    obtain rfl | rfl | ⟨response, rfl⟩ := h <;> exact fun heq => by cases heq
  refine hs.setPhase hr hreading (fun hfailing => ?_) hs.present
  exact absurd ((not_isFailing_of_phase h).symm.trans hfailing) Bool.false_ne_true

/-- A response keeps the invariant. -/
theorem Staged.respond (hs : Staged env prepare s) (hr : s.requests[index]? = some r)
    (response : Except ApiError ImportResponse) : Staged env prepare (s.respond index r response) :=
  hs.leave hr (.inr (.inr ⟨response, rfl⟩))

/-- Reading the staged object keeps the invariant. -/
theorem Staged.get (hs : Staged env prepare s) (hr : s.requests[index]? = some r)
    {error : Option String} {t : Server} (h : s.get index r error = some t)
    (hfree : r.phase.isReading = true → ∀ other ∈ s.requests, other.stagedPath = r.stagedPath →
      s.isFailing other = false) : Staged env prepare t := by
  unfold Server.get at h
  dsimp only at h
  split at h
  · split_ifs at h <;> cases h
    · exact hs.respond hr _
    · exact hs.respond hr _
  · cases h
    exact hs.leave hr (.inl rfl)
  -- The object was there: the artifact is compared before the database is called.
  · rename_i bytes hphase hfound
    split_ifs at h with hdiffer <;> cases h
    · exact hs.respond hr _
    · have hstored : s.store r.stagedPath = some r.request.artifact := by
        rw [← of_not_not hdiffer]
        cases error with
        | none => exact hfound
        | some error => cases hfound
      exact hs.callDatabase hr hphase hstored (hfree (by rw [hphase]; rfl))
  · cases h
    exact hs.respond hr _
  · cases h

/-- The store after one object was set. -/
theorem store_setObject (s : Server) (path : String) (object : Option String) (other : String) :
    (s.setObject path object).store other = if other = path then object else s.store other := rfl

/-- A response leaves the store. -/
theorem store_respond (s : Server) (index : Nat) (r : Request)
    (response : Except ApiError ImportResponse) :
    (s.respond index r response).store = s.store := rfl

/-- A dry run writes the bytes that an apply of its plan has read. -/
theorem Staged.put (hs : Staged env prepare s) (haddressed : Addressed prepare)
    (hr : s.requests[index]? = some r)
    {outcome : StoreOutcome} {t : Server} (h : s.put index r outcome = some t) :
    Staged env prepare t := by
  have hmem : r ∈ s.requests := List.mem_of_getElem? hr
  have hstore : ∀ other ∈ s.requests, s.isLive other = true ∨ s.isRecorded other = true →
      (s.setObject r.stagedPath (some r.request.artifact)).store other.stagedPath =
          some other.request.artifact := by
    intro other hother hneeded
    rw [store_setObject]
    split_ifs with hpath
    · rw [haddressed _ _ _ _ (hs.prepared r hmem) (hs.prepared other hother) hpath.symm]
    · exact hs.present other hother hneeded
  unfold Server.put at h
  dsimp only at h
  split at h
  · cases h
    split_ifs
    · exact hs.setPhase hr (fun heq => by cases heq) (fun hfailing => by cases hfailing) hstore
    · exact hs.respond hr _
  · cases h

/-- A resumed request keeps the invariant. -/
theorem Staged.resume (hs : Staged env prepare s) (hr : s.requests[index]? = some r) {t : Server}
    (h : s.resume index r = some t) : Staged env prepare t := by
  unfold Server.resume at h
  split at h
  case h_1 => cases h; exact hs.respond hr _
  case h_4 => cases h
  case h_2 hphase hcall | h_3 hphase hcall =>
    cases h
    refine hs.setPhase hr (fun heq => by cases heq) (fun _ => ?_) hs.present
    unfold isFailing
    rw [hphase]
    show (s.callPhase r).any hasFailed = true
    rw [hcall]
    rfl

/-- A request that will remove an object is failing. -/
theorem isFailing_of_removing {error : DbError} (h : r.phase = .removing error) :
    s.isFailing r = true := by
  unfold isFailing
  rw [h]

/-- An object that is removed is one that no call needs. -/
theorem Staged.delete (hs : Staged env prepare s) (hr : s.requests[index]? = some r)
    {outcome : StoreOutcome} {t : Server}
    (h : s.delete index r outcome = some t) : Staged env prepare t := by
  have hmem : r ∈ s.requests := List.mem_of_getElem? hr
  unfold Server.delete at h
  dsimp only at h
  split at h
  · rename_i error hphase
    have hapart := hs.apart r hmem (isFailing_of_removing hphase)
    -- No request of that path is live or recorded, so removing the object hurts none.
    have hstore : ∀ other ∈ s.requests, s.isLive other = true ∨ s.isRecorded other = true →
        (s.setObject r.stagedPath none).store other.stagedPath = some other.request.artifact := by
      intro other hother hneeded
      rw [store_setObject]
      split_ifs with hpath
      · obtain ⟨hlive, hrecorded⟩ := hapart other hother hpath
        rw [hlive, hrecorded] at hneeded
        obtain h | h := hneeded <;> cases h
      · exact hs.present other hother hneeded
    cases h
    split_ifs
    · exact hs.setPhase hr (fun heq => by cases heq) (fun hfailing => by cases hfailing) hstore
    · exact hs.respond hr _
  · cases h

/-- A call that is dropped does not fail. -/
theorem not_fails_drop {i : Nat} (r : Request) : s.fails env (.drop i) r = false := by
  unfold fails
  cases hdb : s.db.step env (.drop i) with
  | none => rfl
  | some db =>
    obtain ⟨call, hi, hrest⟩ := Option.bind_eq_some_iff.mp hdb
    obtain ⟨phase, hphase, hset⟩ := Option.bind_eq_some_iff.mp hrest
    obtain rfl := Option.some.inj hset
    have hdropped : phase = .dropped := by
      change (if call.phase.isRunning = true then some CallPhase.dropped else none) =
        some phase at hphase
      split_ifs at hphase
      exact (Option.some.inj hphase).symm
    by_cases hold : s.isFailing r = true
    · simp [hold]
    · have hnew : ({ s with db := s.db.setPhase i call phase } : Server).isFailing r = false := by
        refine Bool.eq_false_iff.mpr fun hfailing => ?_
        have hfailed := (failed_of_isFailing hi rfl hold hfailing).2
        rw [hdropped] at hfailed
        cases hfailed
      simp [hnew]

/-- A dropped request keeps the invariant. -/
theorem Staged.drop (hs : Staged env prepare s) (hr : s.requests[index]? = some r) {t : Server}
    (h : s.drop env index r = some t) : Staged env prepare t := by
  unfold Server.drop at h
  split at h
  case h_5 =>
    cases h
    cases hdb : r.call.bind fun call => s.db.step env (.drop call) with
    | none => exact hs.leave hr (.inr (.inl rfl))
    | some db =>
      obtain ⟨i, -, hstep⟩ := Option.bind_eq_some_iff.mp hdb
      have hdropped : Staged env prepare { s with db } :=
        hs.database hstep (fun request heq => by cases heq) trivial
        (fun r _ hfails => absurd ((not_fails_drop r).symm.trans hfails) Bool.false_ne_true) rfl
      exact hdropped.leave hr (.inr (.inl rfl))
  case h_6 | h_7 => cases h
  all_goals
    cases h
    exact hs.leave hr (.inr (.inl rfl))

/-- Every careful step keeps the staging objects. -/
theorem Staged.step (hs : Staged env prepare s) (haddressed : Addressed prepare)
    {action : ServerAction} {t : Server}
    (hcareful : s.Careful env action) (h : s.step env prepare action = some t) :
    Staged env prepare t := by
  -- Each step by its own lemma; a database step and a read use what the guard says of them.
  cases action with
  | dryRun request subject =>
    cases h
    exact hs.accept fun r hr => (acceptDryRun_ok hr).imp_right (And.imp_right .inl)
  | apply request subject =>
    cases h
    exact hs.accept fun r hr => (acceptApply_ok hr).imp_right (And.imp_right .inr)
  | database action =>
    obtain ⟨hfresh, hfails, hlost⟩ := hcareful
    change (if isCallStep action = true then _ else _) = _ at h
    split_ifs at h with hstep
    obtain ⟨db, hdb, rfl⟩ := Option.map_eq_some_iff.mp h
    refine hs.database hdb (fun request heq => ?_) hfresh hfails hlost
    rw [heq] at hstep
    cases hstep
  | get index error =>
    obtain ⟨r, hr, hget⟩ := Option.bind_eq_some_iff.mp h
    exact hs.get hr hget (hcareful r hr)
  | put index outcome =>
    obtain ⟨r, hr, hput⟩ := Option.bind_eq_some_iff.mp h
    exact hs.put haddressed hr hput
  | resume index =>
    obtain ⟨r, hr, hresume⟩ := Option.bind_eq_some_iff.mp h
    exact hs.resume hr hresume
  | delete index outcome =>
    obtain ⟨r, hr, hdelete⟩ := Option.bind_eq_some_iff.mp h
    exact hs.delete hr hdelete
  | drop index =>
    obtain ⟨r, hr, hdrop⟩ := Option.bind_eq_some_iff.mp h
    exact hs.drop hr hdrop

end Steps

/-! ## Runs -/

/-- A replay of an apply whose call is the last one: it reads the staging object, and its call finds
the receipt. -/
def replaying (index call : Nat) : List ServerAction :=
  [.get index none, .database (.connect call .connected), .database (.lookup call none),
    .resume index]

/-- Every receipt is that of an apply, whose staging object is there and stays there whatever step
is taken, so that a replay of the apply is answered with the receipt. -/
structure Replayable (env : Environment) (prepare : ImportRequest → Except ApiError Prepared)
    (s : Server) : Prop where
  owned : ∀ receipt ∈ s.db.receipts, ∃ r ∈ s.requests, r.call = some receipt.call
  held : ∀ r ∈ s.requests, s.isRecorded r = true → s.store r.stagedPath = some r.request.artifact
  kept : ∀ r ∈ s.requests, s.isRecorded r = true → ∀ action t, s.step env prepare action = some t →
    t.store r.stagedPath = some r.request.artifact
  replayed : ∀ receipt ∈ s.db.receipts, ∀ r ∈ s.requests, r.call = some receipt.call →
    receipt.receiptJson = env.jsonb (r.prepared.commit.receipt receipt.receiptId) ∧
    ∀ index replay, s.requests[index]? = some replay → replay.phase = .reading →
      replay.stagedPath = r.stagedPath →
        System.Repeats env r.prepared.commit replay.prepared.commit →
        ∃ t answered, run (step env prepare) s (replaying index s.db.calls.length) = some t ∧
          t.requests[index]? = some answered ∧
          answered.phase = .responded (.ok (.applied receipt.receiptJson replay.stagedPath true))

section Runs

variable {env : Environment} {prepare : ImportRequest → Except ApiError Prepared} {s : Server}

/-- Only writing and removing change objects. -/
theorem Staged.store_eq (hs : Staged env prepare s) (haddressed : Addressed prepare) {r : Request}
    (hr : r ∈ s.requests)
    (hrecorded : s.isRecorded r = true) {action : ServerAction} {t : Server}
    (h : s.step env prepare action = some t) :
    t.store r.stagedPath = some r.request.artifact := by
  -- A recorded artifact is stored, and a step could only overwrite it or delete it.
  have hheld := hs.present r hr (.inr hrecorded)
  cases action with
  -- A path tells the artifact, so writing it again writes the same text.
  | put index outcome =>
    obtain ⟨other, hother, hput⟩ := Option.bind_eq_some_iff.mp h
    have hwritten :
      (s.setObject other.stagedPath (some other.request.artifact)).store r.stagedPath =
        some r.request.artifact := by
      rw [store_setObject]
      split_ifs with hpath
      · rw [haddressed _ _ _ _ (hs.prepared other (List.mem_of_getElem? hother))
          (hs.prepared r hr) hpath.symm]
      · exact hheld
    unfold Server.put at hput
    dsimp only at hput
    split at hput
    · cases hput
      rw [store_respond]
      split_ifs
      · exact hwritten
      · exact hheld
    · cases hput
  -- A request that deletes its object has failed, and one at the same path would have recorded
  -- nothing.
  | delete index outcome =>
    obtain ⟨other, hother, hdelete⟩ := Option.bind_eq_some_iff.mp h
    unfold Server.delete at hdelete
    dsimp only at hdelete
    split at hdelete
    · rename_i error hphase
      have hremoved : (s.setObject other.stagedPath none).store r.stagedPath =
          some r.request.artifact := by
        rw [store_setObject]
        split_ifs with hpath
        · have hapart := hs.apart other (List.mem_of_getElem? hother)
            (isFailing_of_removing hphase) r hr hpath
          exact absurd (hapart.2.symm.trans hrecorded) Bool.false_ne_true
        · exact hheld
      cases hdelete
      rw [store_respond]
      split_ifs
      · exact hremoved
      · exact hheld
    · cases hdelete
  -- The other steps leave the objects alone.
  | dryRun request subject =>
    cases h
    cases acceptDryRun prepare request subject <;> exact hheld
  | apply request subject =>
    cases h
    cases acceptApply prepare request subject <;> exact hheld
  | database action =>
    change (if isCallStep action = true then _ else _) = _ at h
    split_ifs at h
    obtain ⟨db, -, rfl⟩ := Option.map_eq_some_iff.mp h
    exact hheld
  | get index error =>
    obtain ⟨other, -, hget⟩ := Option.bind_eq_some_iff.mp h
    unfold Server.get at hget
    dsimp only at hget
    split at hget
    case h_5 => cases hget
    case h_1 | h_3 => split_ifs at hget <;> cases hget <;> exact hheld
    case h_2 | h_4 => cases hget; exact hheld
  | resume index =>
    obtain ⟨other, -, hresume⟩ := Option.bind_eq_some_iff.mp h
    unfold Server.resume at hresume
    split at hresume <;> cases hresume <;> exact hheld
  | drop index =>
    obtain ⟨other, -, hdrop⟩ := Option.bind_eq_some_iff.mp h
    unfold Server.drop at hdrop
    split at hdrop <;> cases hdrop <;> exact hheld

/-- The database takes a call that connects. -/
theorem step_connect {db : System} {i : Nat} {call : Call} (hi : db.calls[i]? = some call)
    (hphase : call.phase = .connecting) :
    db.step env (.connect i .connected) = some (db.setPhase i call .looking) := by
  simp [System.step, System.nextPhase, System.caller?, System.connect, hi, hphase]

/-- The database takes a call that looks its key up. -/
theorem step_lookup {db : System} {i : Nat} {call : Call} (hi : db.calls[i]? = some call)
    (hphase : call.phase = .looking) :
    db.step env (.lookup i none) = some (db.setPhase i call (db.lookup call.request none)) := by
  simp [System.step, System.nextPhase, System.caller?, hi, hphase]

/-- A step of the database is one of the server. -/
theorem step_database {db : System} {action : Action} (hcall : isCallStep action = true)
    (h : s.db.step env action = some db) :
    s.step env prepare (.database action) = some { s with db } := by
  simp [Server.step, hcall, h]

/-- A call that has moved is where it was. -/
theorem getElem?_setPhase_self {db : System} {i : Nat} {call : Call} (hi : db.calls[i]? = some call)
    (phase : CallPhase) :
    (db.setPhase i call phase).calls[i]? = some { call with phase } :=
  List.getElem?_set_self (List.getElem?_eq_some_iff.mp hi).1

/-- A replay takes its steps when the staging object is there and the lookup finds the receipt. -/
theorem run_replaying {index : Nat} {replay : Request} {receipt : Json}
    (hreplay : s.requests[index]? = some replay)
    (hreading : replay.phase = .reading)
    (hfound : s.store replay.stagedPath = some replay.request.artifact)
    (hlookup : s.db.lookup replay.prepared.commit none = .returned receipt true) :
    ∃ t answered, run (step env prepare) s (replaying index s.db.calls.length) = some t ∧
      t.requests[index]? = some answered ∧
      answered.phase = .responded (.ok (.applied receipt replay.stagedPath true)) := by
  have hplace := (List.getElem?_eq_some_iff.mp hreplay).1
  let n := s.db.calls.length
  let call : Call := ⟨replay.prepared.commit, .connecting⟩
  let called : Request := { replay with call := some n, phase := .calling }
  let calling := s.callDatabase index replay
  have hget : s.step env prepare (.get index none) = some calling := by
    simp [Server.step, Server.get, hreplay, hreading, hfound, calling]
  -- The call connects,
  have hcall : calling.db.calls[n]? = some call := List.getElem?_concat_length
  let looking := calling.db.setPhase n call .looking
  have hconnect : calling.step env prepare (.database (.connect n .connected)) =
      some { calling with db := looking } :=
    step_database rfl (step_connect hcall rfl)
  -- and finds the receipt.
  have hconnected := getElem?_setPhase_self hcall .looking
  let returned := looking.setPhase n { call with phase := .looking } (.returned receipt true)
  have hreturn : ({ calling with db := looking } : Server).step env prepare
    (.database (.lookup n none)) =
      some { calling with db := returned } := by
    have hfinds : looking.lookup replay.prepared.commit none = .returned receipt true := hlookup
    have hstep := @step_lookup env looking n { call with phase := .looking } hconnected rfl
    rw [hfinds] at hstep
    exact step_database rfl hstep
  have hreturned := getElem?_setPhase_self hconnected (.returned receipt true)
  have hanswering : calling.requests[index]? = some called := List.getElem?_set_self hplace
  have hphase : ({ calling with db := returned } : Server).callPhase called =
      some (.returned receipt true) :=
    congrArg (Option.map Call.phase) hreturned
  have hresume : ({ calling with db := returned } : Server).step env prepare (.resume index) =
      some (({ calling with db := returned } : Server).respond index called
        (.ok (.applied receipt replay.stagedPath true))) := by
    have hresumes : ({ calling with db := returned } : Server).resume index called =
        some (({ calling with db := returned } : Server).respond index called
          (.ok (.applied receipt replay.stagedPath true))) := by
      unfold Server.resume
      rw [hphase]
      rfl
    exact Option.bind_eq_some_iff.mpr ⟨called, hanswering, hresumes⟩
  let answered : Request :=
    { called with phase := .responded (.ok (.applied receipt replay.stagedPath true)) }
  have hanswered : (({ calling with db := returned } : Server).respond index called
      (.ok (.applied receipt replay.stagedPath true))).requests[index]? = some answered :=
    List.getElem?_set_self (List.getElem?_eq_some_iff.mp hanswering).1
  refine ⟨_, answered, ?_, hanswered, rfl⟩
  unfold replaying
  rw [run, hget, Option.bind_some, run, hconnect, Option.bind_some, run, hreturn, Option.bind_some,
    run, hresume]
  rfl

/-- Every receipt can be replayed. -/
theorem Staged.replayable (hs : Staged env prepare s) (haddressed : Addressed prepare) :
    Replayable env prepare s where
  owned receipt hreceipt := hs.owned receipt.call (hs.kept.receipt_past hreceipt)
  held r hr hrecorded := hs.present r hr (.inr hrecorded)
  kept r hr hrecorded action t h := hs.store_eq haddressed hr hrecorded h
  replayed receipt hreceipt r hr hcall := by
    obtain ⟨request, hrequest, hrow⟩ := hs.kept.receipts receipt hreceipt
    obtain rfl : request = r.prepared.commit :=
      Option.some.inj (hrequest.symm.trans (hs.linked r hr receipt.call hcall))
    refine ⟨?_, fun index replay hreplay hreading hpath hrepeats => ?_⟩
    · obtain ⟨receiptId, hrow⟩ := hrow
      rw [hrow]
      rfl
    · have hrecorded : s.isRecorded r = true :=
        List.any_eq_true.mpr ⟨receipt, hreceipt, decide_eq_true hcall⟩
      have hfound : s.store replay.stagedPath = some replay.request.artifact := by
        rw [hpath, hs.present r hr (.inr hrecorded), haddressed _ _ _ _ (hs.prepared r hr)
          (hs.prepared replay (List.mem_of_getElem? hreplay)) hpath.symm]
      exact run_replaying hreplay hreading hfound (hrepeats.lookup_eq hs.kept hreceipt hrow)

/-- In every run of careful steps the receipts can be replayed. -/
theorem replayable_run (haddressed : Addressed prepare) (seeded : List Reading)
    (store : String → Option String)
    (actions : List ServerAction)
    (hcareful : Guarded (step env prepare) (Careful env) (start seeded store) actions)
    (h : run (step env prepare) (start seeded store) actions = some s) : Replayable env prepare s :=
  (run_invariant (fun _ _ _ hs hcareful h => Staged.step hs haddressed hcareful h) hcareful
    (staged_start seeded store) h).replayable haddressed

end Runs

/-- Whether a step is careful can be checked. -/
instance (env : Environment) (s : Server) :
    (action : ServerAction) → Decidable (s.Careful env action)
  | .database action => by unfold Careful Undisturbed; infer_instance
  | .get index error => by unfold Careful; infer_instance
  | .dryRun .. | .apply .. | .put .. | .resume _ | .delete .. | .drop _ =>
    inferInstanceAs (Decidable True)

/-! ## Two applies of a plan -/

/-- The import of a row. -/
def rowImport : ImportCommit := { System.oneRow with bundleDigest := "sha256:9f" }

/-- The artifact of the row. -/
def rowArtifact : String := "measured_at,pm25,no2,ozone\n2026-01-01T00:00:00Z,8.5,14,31.2\n"

/-- A server that knows the bundle of the row only. -/
def prepareRow (request : ImportRequest) : Except ApiError Prepared :=
  if request.artifact = rowArtifact then .ok ⟨"sha256:c4", rowImport⟩
  else .error (.badRequest "artifact digest does not match the bundle")

/-- Each request is prepared under its own path. -/
theorem addressed_prepareRow : Addressed prepareRow := by
  intro request other prepared prepared' h h' _
  unfold prepareRow at h h'
  split_ifs at h h' with hartifact hartifact'
  rw [hartifact, hartifact']

/-- A dry run of one row. -/
def dryRunRow : ImportRequest :=
  { bundle := "{}", artifact := rowArtifact, expectedBundleDigest := "sha256:9f", target := "bergen"
    targetRevision := none, planDigest := none, stagedObject := none }

/-- An apply of that row. -/
def applyRow : ImportRequest :=
  { dryRunRow with
    planDigest := some "sha256:7a",
    stagedObject := some "imports/staging/sha256-c4/sha256-7a/artifact.csv" }

/-- A dry run, and two applies that have read what it staged. -/
def stageTwice : List ServerAction :=
  [.dryRun dryRunRow (.ok ()), .get 0 none, .put 0 .answered, .apply applyRow (.ok ()), .get 1 none,
    .apply applyRow (.ok ()), .get 2 none]

/-- A call up to its commit. -/
def importRow (call : Nat) (id : Uuid) : List ServerAction :=
  [.database (.connect call .connected), .database (.lookup call none),
    .database (.prepare call none),
    .database (.insertRow call id none)]

/-- The first apply imports the row. -/
def importOnce : List ServerAction :=
  stageTwice ++ importRow 0 10 ++
    ([.database (.insertReceipt 0 11 none), .database (.commit 0 .answered), .resume 1] :
      List ServerAction)

/-- After the row was imported its receipt can be replayed. -/
theorem replayable_importOnce : ∃ s, run (step System.plainEnvironment prepareRow)
    (start [] fun _ => none) importOnce =
    some s ∧ Replayable System.plainEnvironment prepareRow s := by
  refine ⟨_, rfl, replayable_run addressed_prepareRow [] (fun _ => none) importOnce ?_ rfl⟩
  decide

/-- The second apply loses the race for the key, and removes the staging object of the first. -/
theorem not_replayable_race : ¬∀ (actions : List ServerAction) (s : Server),
    run (step System.plainEnvironment prepareRow) (start [] fun _ => none) actions = some s →
      Replayable System.plainEnvironment prepareRow s := by
  intro h
  have hrace : ∃ s, run (step System.plainEnvironment prepareRow) (start [] fun _ => none)
      (stageTwice ++ importRow 0 10 ++ importRow 1 12 ++ ([.database (.insertReceipt 0 11 none),
        .database (.commit 0 .answered), .database (.insertReceipt 1 13 none), .resume 2,
        .delete 2 .answered] : List ServerAction)) =
      some s ∧ ∃ r ∈ s.requests, s.isRecorded r = true ∧ s.store r.stagedPath = none :=
    ⟨_, rfl, _, List.mem_cons_of_mem _ List.mem_cons_self, rfl, rfl⟩
  obtain ⟨s, hrun, r, hr, hrecorded, hnone⟩ := hrace
  have hheld := (h _ s hrun).held r hr hrecorded
  rw [hnone] at hheld
  cases hheld

end Server

end QueryFabric.Demo
