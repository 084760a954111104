import QueryFabric.JobQueue.Runner
import QueryFabric.Lib.Runs

/-!
# The job queue as a system of tasks

The actor of `crates/queryfabric-job-queue/src/actor.rs` and the worker tasks that it spawns, with
what they share: the storage, the runner and the actor's mailbox. A step takes one task to its next
`await` that another task can observe: a storage call, the sending of a message, the drop of a
permit. Between any two steps of one task the others may take theirs.

A storage call takes effect or reports an error; an executor returns a result, reports an error or
panics. Which of these happens is part of the action. The metrics that the observer is told of are
left out. Beside these the state keeps a log of the executors that were started, which no step
reads.
-/

namespace QueryFabric.JobQueue

/-- The messages of the actor. -/
inductive Message (ι κ : Type)
  | submitJob (jobId : ι) (priority : Int) (kind : κ)
  | dispatchNext
  | cancelJob (jobId : ι)
  | cleanupExpired
deriving DecidableEq, Repr

/-- Where the actor stands: in `on_start`, between messages, or in a handler. -/
inductive Phase (ι κ : Type)
  | markStale
  | readPending
  | requeue (jobs : List (ι × Int × κ))
  | idle
  | tellDispatch
  | spawn (dispatch : Dispatch ι κ)
  | loadCancelled (jobId : ι)
  | cancelStored (jobId : ι)
  | queryExpired
  | deleteExpired (jobs : List ι)
deriving DecidableEq, Repr

/-- Where a worker stands. `finish` holds the error of the job, if there was one. -/
inductive Stage
  | markRunning
  | loadJob
  | execute
  | completeJob (result : JobExecutionResult)
  | finish (error : Option String)
  | failJob (error : String)
  | tellDispatch
  | releasePermit
deriving DecidableEq, Repr

/-- A worker of the pool with the job it runs. -/
structure Worker (ι κ : Type) where
  jobId : ι
  kind : κ
  token : Nat
  stage : Stage
deriving DecidableEq, Repr

/-- The storage, the runner, the actor's mailbox and phase, the workers and the tokens. -/
structure System (ι κ : Type) where
  storage : JobStorage ι κ
  runner : PriorityRunner ι κ
  mailbox : List (Message ι κ)
  phase : Phase ι κ
  workers : List (Worker ι κ)
  started : List ι

/-- What comes of the call that a task waits for. -/
inductive Reply (ι : Type)
  | ok
  | error (message : String)
  | executed (result : JobExecutionResult)
  | panicked
  | expired (jobs : List ι)

/-- What can happen next: a host's call, a step of the actor or one of a worker. -/
inductive Action (ι κ : Type)
  | insertPending (jobId : ι) (record : JobRecord κ)
  | tell (message : Message ι κ)
  | actor (reply : Reply ι)
  | worker (index : Nat) (reply : Reply ι)

section Steps

variable {ι κ : Type}

/-- The system as `spawn_and_start` makes it. -/
def System.start (storage : JobStorage ι κ) (permits : Nat) : System ι κ :=
  { storage, runner := { available := permits }, mailbox := [], phase := .markStale, workers := []
    started := [] }

/-- `actor_ref.tell(..)`. -/
def System.tell (s : System ι κ) (message : Message ι κ) : System ι κ :=
  { s with mailbox := s.mailbox ++ [message] }

variable [DecidableEq ι]

/-- What a handler does with its message before it first waits. -/
def System.handle (s : System ι κ) : Message ι κ → System ι κ
  | .submitJob jobId priority kind =>
    { s with runner := s.runner.submit jobId priority kind, phase := .tellDispatch }
  | .dispatchNext =>
    match s.runner.tryDispatch with
    | none => s
    | some (dispatch, runner) => { s with runner, phase := .spawn dispatch }
  | .cancelJob jobId => { s with runner := s.runner.cancel jobId, phase := .loadCancelled jobId }
  | .cleanupExpired => { s with phase := .queryExpired }

/-- The error that `on_start` gives to stale jobs is an argument of the actor. -/
def System.actorStep (restartError : String) (s : System ι κ) (reply : Reply ι) :
    Option (System ι κ) :=
  match s.phase, reply with
  -- Recovery: jobs that were running are failed, then those that are pending are read and sent
  -- again.
  | .markStale, .ok =>
    some { s with storage := s.storage.markStaleRunningFailed restartError, phase := .readPending }
  | .markStale, .error _ => some { s with phase := .readPending }
  | .readPending, .ok => some { s with phase := .requeue s.storage.pendingJobs }
  | .readPending, .error _ => some { s with phase := .idle }
  | .requeue [], .ok => some { s with phase := .idle }
  | .requeue ((jobId, priority, kind) :: jobs), .ok =>
    some ({ s with phase := .requeue jobs }.tell (.submitJob jobId priority kind))
  -- The actor takes its next message.
  | .idle, .ok =>
    match s.mailbox with
    | [] => none
    | message :: mailbox => some ({ s with mailbox }.handle message)
  | .tellDispatch, .ok => some ({ s with phase := .idle }.tell .dispatchNext)
  -- The dispatch goes to a worker of its own.
  | .spawn dispatch, .ok =>
    some { s with
      phase := .idle
      workers := s.workers ++ [{ jobId := dispatch.jobId, kind := dispatch.kind
                                 token := dispatch.token, stage := .markRunning }] }
  | .loadCancelled jobId, .ok => some { s with phase := .cancelStored jobId }
  | .loadCancelled _, .error _ => some { s with phase := .idle }
  | .cancelStored jobId, .ok =>
    some { s with storage := (s.storage.cancelJob jobId).getD s.storage, phase := .idle }
  | .cancelStored _, .error _ => some { s with phase := .idle }
  -- The storage answers with jobs that are over.
  | .queryExpired, .expired jobs =>
    if ∀ jobId ∈ jobs, (s.storage.status jobId).any JobStatus.isTerminal then
      some { s with phase := .deleteExpired jobs }
    else none
  | .queryExpired, .error _ => some { s with phase := .idle }
  | .deleteExpired [], .ok => some { s with phase := .idle }
  | .deleteExpired (jobId :: jobs), .ok =>
    some { s with storage := s.storage.deleteJob jobId, phase := .deleteExpired jobs }
  -- A job that cannot be deleted is passed over.
  | .deleteExpired (_ :: jobs), .error _ => some { s with phase := .deleteExpired jobs }
  | _, _ => none

/-- What a step of the actor can do. -/
inductive System.ActorStep (restartError : String) (s : System ι κ) : System ι κ → Prop
  | markStale (hphase : s.phase = .markStale) : ActorStep restartError s
      { s with storage := s.storage.markStaleRunningFailed restartError, phase := .readPending }
  | staleUnmarked (hphase : s.phase = .markStale) : ActorStep restartError s
      { s with phase := .readPending }
  | readPending (hphase : s.phase = .readPending) : ActorStep restartError s
      { s with phase := .requeue s.storage.pendingJobs }
  | pendingUnread (hphase : s.phase = .readPending) : ActorStep restartError s
      { s with phase := .idle }
  | requeue (jobId : ι) (priority : Int) (kind : κ) (jobs : List (ι × Int × κ))
      (hphase : s.phase = .requeue ((jobId, priority, kind) :: jobs)) : ActorStep restartError s
      ({ s with phase := .requeue jobs }.tell (.submitJob jobId priority kind))
  | requeued (hphase : s.phase = .requeue []) : ActorStep restartError s { s with phase := .idle }
  | take (message : Message ι κ) (mailbox : List (Message ι κ)) (hphase : s.phase = .idle)
      (hmailbox : s.mailbox = message :: mailbox) : ActorStep restartError s
      ({ s with mailbox }.handle message)
  | tellDispatch (hphase : s.phase = .tellDispatch) : ActorStep restartError s
      ({ s with phase := .idle }.tell .dispatchNext)
  | spawn (dispatch : Dispatch ι κ) (hphase : s.phase = .spawn dispatch) : ActorStep restartError s
      { s with
        phase := .idle
        workers := s.workers ++ [{ jobId := dispatch.jobId, kind := dispatch.kind
                                   token := dispatch.token, stage := .markRunning }] }
  | loadCancelled (jobId : ι) (hphase : s.phase = .loadCancelled jobId) : ActorStep restartError s
      { s with phase := .cancelStored jobId }
  | cancelStored (jobId : ι) (hphase : s.phase = .cancelStored jobId) : ActorStep restartError s
      { s with storage := (s.storage.cancelJob jobId).getD s.storage, phase := .idle }
  | cancelFailed (jobId : ι)
      (hphase : s.phase = .loadCancelled jobId ∨ s.phase = .cancelStored jobId) :
      ActorStep restartError s { s with phase := .idle }
  | queryExpired (jobs : List ι) (hphase : s.phase = .queryExpired)
      (hterminal : ∀ jobId ∈ jobs, (s.storage.status jobId).any JobStatus.isTerminal) :
      ActorStep restartError s { s with phase := .deleteExpired jobs }
  | queryFailed (hphase : s.phase = .queryExpired) : ActorStep restartError s
      { s with phase := .idle }
  | deleteExpired (jobId : ι) (jobs : List ι) (hphase : s.phase = .deleteExpired (jobId :: jobs)) :
      ActorStep restartError s
      { s with storage := s.storage.deleteJob jobId, phase := .deleteExpired jobs }
  | deleteFailed (jobId : ι) (jobs : List ι) (hphase : s.phase = .deleteExpired (jobId :: jobs)) :
      ActorStep restartError s { s with phase := .deleteExpired jobs }
  | deleted (hphase : s.phase = .deleteExpired []) : ActorStep restartError s
      { s with phase := .idle }

/-- What a step of the actor does. -/
theorem System.actorStep_cases {restartError : String} {s t : System ι κ} {reply : Reply ι}
    (h : s.actorStep restartError reply = some t) : s.ActorStep restartError t := by
  unfold System.actorStep at h
  -- The goals are in the order of the branches of the code.
  split at h
  · cases h
    exact .markStale ‹_›
  · cases h
    exact .staleUnmarked ‹_›
  · cases h
    exact .readPending ‹_›
  · cases h
    exact .pendingUnread ‹_›
  · cases h
    exact .requeued ‹_›
  · cases h
    exact .requeue _ _ _ _ ‹_›
  · have hphase : s.phase = .idle := ‹_›
    cases hmailbox : s.mailbox with
    | nil => simp [hmailbox] at h
    | cons message mailbox =>
      simp only [hmailbox, Option.some.injEq] at h
      subst h
      exact .take message mailbox hphase hmailbox
  · cases h
    exact .tellDispatch ‹_›
  · cases h
    exact .spawn _ ‹_›
  · cases h
    exact .loadCancelled _ ‹_›
  · cases h
    exact .cancelFailed _ (.inl ‹_›)
  · cases h
    exact .cancelStored _ ‹_›
  · cases h
    exact .cancelFailed _ (.inr ‹_›)
  · have hphase : s.phase = .queryExpired := ‹_›
    split at h
    · cases h
      exact .queryExpired _ hphase ‹_›
    · cases h
  · cases h
    exact .queryFailed ‹_›
  · cases h
    exact .deleted ‹_›
  · cases h
    exact .deleteExpired _ _ ‹_›
  · cases h
    exact .deleteFailed _ _ ‹_›
  · cases h

variable [ToString ι]

/-- A worker's step: what it does to the system, and the worker as it goes on, unless it ends. -/
def Worker.step (w : Worker ι κ) (s : System ι κ) (reply : Reply ι) :
    Option (System ι κ × Option (Worker ι κ)) :=
  match w.stage, reply with
  | .markRunning, .ok =>
    match s.storage.markRunning w.jobId with
    | some storage => some ({ s with storage }, some { w with stage := .loadJob })
    | none => some (s, some { w with stage := .finish (some (notFound w.jobId)) })
  | .loadJob, .ok =>
    match s.storage.loadJob w.jobId with
    | some _ =>
      some ({ s with started := s.started ++ [w.jobId] }, some { w with stage := .execute })
    | none => some (s, some { w with stage := .finish (some (notFound w.jobId)) })
  | .execute, .executed result => some (s, some { w with stage := .completeJob result })
  -- The permit is dropped as the stack unwinds, and nothing after the executor is run.
  | .execute, .panicked => some ({ s with runner := s.runner.release }, none)
  | .completeJob result, .ok =>
    match s.storage.completeJob w.jobId result with
    | some storage => some ({ s with storage }, some { w with stage := .finish none })
    | none => some (s, some { w with stage := .finish (some (notFound w.jobId)) })
  | .markRunning, .error message | .loadJob, .error message | .execute, .error message
  | .completeJob _, .error message => some (s, some { w with stage := .finish (some message) })
  | .finish none, .ok =>
    some ({ s with runner := s.runner.finish w.jobId }, some { w with stage := .tellDispatch })
  | .finish (some error), .ok =>
    some ({ s with runner := s.runner.finish w.jobId }, some { w with stage := .failJob error })
  | .failJob error, .ok =>
    some ({ s with storage := (s.storage.failJob w.jobId error).getD s.storage },
      some { w with stage := .tellDispatch })
  | .failJob _, .error _ => some (s, some { w with stage := .tellDispatch })
  | .tellDispatch, .ok => some (s.tell .dispatchNext, some { w with stage := .releasePermit })
  | .releasePermit, .ok => some ({ s with runner := s.runner.release }, none)
  | _, _ => none

/-- One step of the system. -/
def System.step (restartError : String) (s : System ι κ) : Action ι κ → Option (System ι κ)
  | .insertPending jobId record => some { s with storage := s.storage.insertPending jobId record }
  | .tell message => some (s.tell message)
  | .actor reply => s.actorStep restartError reply
  | .worker index reply =>
    match s.workers.drop index with
    | [] => none
    | w :: after =>
      (w.step s reply).map fun (next, w') =>
        { next with workers := s.workers.take index ++ w'.toList ++ after }

/-- What a step of a worker can do. -/
inductive Worker.Step (w : Worker ι κ) (s : System ι κ) (reply : Reply ι) :
    System ι κ → Option (Worker ι κ) → Prop
  | markRunning (storage : JobStorage ι κ) (hstage : w.stage = .markRunning)
      (hstorage : s.storage.markRunning w.jobId = some storage) :
      w.Step s reply { s with storage } (some { w with stage := .loadJob })
  | loadJob (hstage : w.stage = .loadJob) :
      w.Step s reply { s with started := s.started ++ [w.jobId] }
        (some { w with stage := .execute })
  | executed (result : JobExecutionResult) (hstage : w.stage = .execute) :
      w.Step s reply s (some { w with stage := .completeJob result })
  | panicked (hstage : w.stage = .execute) (hreply : reply = .panicked) :
      w.Step s reply { s with runner := s.runner.release } none
  | completeJob (result : JobExecutionResult) (storage : JobStorage ι κ)
      (hstage : w.stage = .completeJob result)
      (hstorage : s.storage.completeJob w.jobId result = some storage) :
      w.Step s reply { s with storage } (some { w with stage := .finish none })
  | failed (error : String) (hstage : w.stage = .markRunning ∨ w.stage = .loadJob ∨
      w.stage = .execute ∨ ∃ result, w.stage = .completeJob result) :
      w.Step s reply s (some { w with stage := .finish (some error) })
  | finish (error : Option String) (hstage : w.stage = .finish error) :
      w.Step s reply { s with runner := s.runner.finish w.jobId }
        (some { w with stage := error.elim .tellDispatch .failJob })
  | failJob (error : String) (hstage : w.stage = .failJob error) :
      w.Step s reply { s with storage := (s.storage.failJob w.jobId error).getD s.storage }
        (some { w with stage := .tellDispatch })
  | failUnstored (error : String) (hstage : w.stage = .failJob error) :
      w.Step s reply s (some { w with stage := .tellDispatch })
  | tellDispatch (hstage : w.stage = .tellDispatch) :
      w.Step s reply (s.tell .dispatchNext) (some { w with stage := .releasePermit })
  | releasePermit (hstage : w.stage = .releasePermit) :
      w.Step s reply { s with runner := s.runner.release } none

/-- What a step of a worker does. -/
theorem Worker.step_cases {w : Worker ι κ} {s next : System ι κ} {reply : Reply ι}
    {w' : Option (Worker ι κ)} (h : w.step s reply = some (next, w')) : w.Step s reply next w' := by
  unfold Worker.step at h
  split at h
  -- The cases stand in the order of the stages; a failure of the storage ends most of them alike.
  · have hstage : w.stage = .markRunning := ‹_›
    split at h
    · cases h
      exact .markRunning _ hstage ‹_›
    · cases h
      exact .failed _ (.inl hstage)
  · have hstage : w.stage = .loadJob := ‹_›
    split at h
    · cases h
      exact .loadJob hstage
    · cases h
      exact .failed _ (.inr (.inl hstage))
  · cases h
    exact .executed _ ‹_›
  · cases h
    exact .panicked ‹_› rfl
  · have hstage : ∃ result, w.stage = .completeJob result := ⟨_, ‹_›⟩
    split at h
    · cases h
      exact .completeJob _ _ ‹_› ‹_›
    · cases h
      exact .failed _ (.inr (.inr (.inr hstage)))
  · cases h
    exact .failed _ (.inl ‹_›)
  · cases h
    exact .failed _ (.inr (.inl ‹_›))
  · cases h
    exact .failed _ (.inr (.inr (.inl ‹_›)))
  · cases h
    exact .failed _ (.inr (.inr (.inr ⟨_, ‹_›⟩)))
  · cases h
    exact .finish none ‹_›
  · cases h
    exact .finish (some _) ‹_›
  · cases h
    exact .failJob _ ‹_›
  · cases h
    exact .failUnstored _ ‹_›
  · cases h
    exact .tellDispatch ‹_›
  · cases h
    exact .releasePermit ‹_›
  · cases h

/-- A worker that panics drops its permit and ends. -/
theorem Worker.step_panicked {w : Worker ι κ} {s next : System ι κ} {w' : Option (Worker ι κ)}
    (h : w.step s .panicked = some (next, w')) :
    next = { s with runner := s.runner.release } ∧ w' = none := by
  unfold Worker.step at h
  cases hstage : w.stage with
  | execute =>
    simp only [hstage, Option.some.injEq, Prod.mk.injEq] at h
    exact ⟨h.1.symm, h.2.symm⟩
  | finish error => cases error <;> simp [hstage] at h
  | markRunning | loadJob | completeJob result | failJob error | tellDispatch | releasePermit =>
    simp [hstage] at h

/-- A worker's step changes that worker only. -/
theorem System.worker_step_cases {restartError : String} {s t : System ι κ} {index : Nat}
    {reply : Reply ι} (h : s.step restartError (.worker index reply) = some t) :
    ∃ (before : List (Worker ι κ)) (w : Worker ι κ) (after : List (Worker ι κ)) (next : System ι κ)
      (w' : Option (Worker ι κ)), s.workers = before ++ w :: after ∧ before.length = index ∧
      w.step s reply = some (next, w') ∧
      t = { next with workers := before ++ w'.toList ++ after } := by
  rw [System.step] at h
  split at h
  · cases h
  · rename_i w after hdrop
    obtain ⟨⟨next, w'⟩, hstep, rfl⟩ := Option.map_eq_some_iff.mp h
    have hlt : index < s.workers.length := by
      by_contra hge
      rw [List.drop_eq_nil_of_le (by omega)] at hdrop
      cases hdrop
    refine ⟨s.workers.take index, w, after, next, w', ?_, ?_, hstep, rfl⟩
    · rw [← hdrop, List.take_append_drop]
    · rw [List.length_take]
      omega

end Steps

end QueryFabric.JobQueue
