import QueryFabric.JobQueue.System

/-!
# Whether a job is executed twice

A host inserts each job into the storage as pending and then submits it. The actor submits the
pending jobs that it finds in the storage when it starts, and the queue does not look for repeated
ids: a job that is inserted before the actor has read the storage, and submitted by the host as
well, is executed twice. `started_at_most_once` says that no job is, when hosts insert jobs only
after that.

The host is added to the system as another task. It makes up a new id for every job, so that it
never submits a job that was stored before.
-/

namespace QueryFabric.JobQueue

open Lib

variable {ι κ : Type}

/-- The system with a host: the ids that are taken, and the jobs that are inserted and not yet
submitted. -/
structure Hosted (ι κ : Type) where
  system : System ι κ
  used : List ι
  unsent : List ι

/-- What can happen next to a host that recovers its jobs. -/
inductive HostedAction (ι κ : Type)
  | insertPending (jobId : ι) (record : JobRecord κ)
  | submit (jobId : ι) (priority : Int) (kind : κ)
  | dispatch
  | cancel (jobId : ι)
  | cleanup
  | actor (reply : Reply ι)
  | worker (index : Nat) (reply : Reply ι)

/-- The message is the submission of the job. -/
def Message.submits [DecidableEq ι] (jobId : ι) : Message ι κ → Bool
  | .submitJob submitted _ _ => submitted = jobId
  | _ => false

/-- A worker at this stage has still to start the executor. -/
def Stage.isBeforeStart : Stage → Bool
  | .markRunning | .loadJob => true
  | _ => false

/-- The pending jobs of the storage have not been read yet. -/
def Phase.isBeforeRead : Phase ι κ → Bool
  | .markStale | .readPending => true
  | _ => false

namespace Hosted

/-- The system as it starts over a storage. -/
def start (storage : JobStorage ι κ) (permits : Nat) : Hosted ι κ :=
  { system := .start storage permits, used := storage.keys, unsent := [] }

section Step

variable [DecidableEq ι] [ToString ι]

/-- One step of the system with its host. -/
def step (restartError : String) (h : Hosted ι κ) : HostedAction ι κ → Option (Hosted ι κ)
  | .insertPending jobId record =>
    if jobId ∈ h.used then none
    else
      some { system := { h.system with storage := h.system.storage.insertPending jobId record }
             used := jobId :: h.used, unsent := jobId :: h.unsent }
  | .submit jobId priority kind =>
    if jobId ∈ h.unsent then
      some { h with
        system := h.system.tell (.submitJob jobId priority kind), unsent := h.unsent.erase jobId }
    else none
  | .dispatch => some { h with system := h.system.tell .dispatchNext }
  | .cancel jobId => some { h with system := h.system.tell (.cancelJob jobId) }
  | .cleanup => some { h with system := h.system.tell .cleanupExpired }
  | .actor reply =>
    (h.system.step restartError (.actor reply)).map fun system => { h with system }
  | .worker index reply =>
    (h.system.step restartError (.worker index reply)).map fun system => { h with system }

end Step

/-- Jobs are inserted only after the actor has read the pending ones. -/
def InsertsAfterRead (h : Hosted ι κ) : HostedAction ι κ → Prop
  | .insertPending .. => h.system.phase.isBeforeRead = false
  | _ => True

/-- Whether a record is inserted after the read is decided by the recovery's phase. -/
instance (h : Hosted ι κ) : ∀ a, Decidable (h.InsertsAfterRead a)
  | .insertPending .. => inferInstanceAs (Decidable (_ = false))
  | .submit .. | .dispatch | .cancel _ | .cleanup | .actor _ | .worker _ _ => .isTrue trivial

end Hosted

/-! ## Counting executions -/

section Count

variable [DecidableEq ι]

/-- The executions of the job that an `on_start` or a dispatch in progress stands for. -/
def Phase.executions (jobId : ι) (storage : JobStorage ι κ) : Phase ι κ → Nat
  | .markStale | .readPending => if (storage.status jobId).isSome then 1 else 0
  | .requeue jobs => jobs.countP fun job => decide (job.1 = jobId)
  | .spawn dispatch => if dispatch.jobId = jobId then 1 else 0
  | _ => 0

/-- The worker has still to start an execution of the job. -/
def Worker.starts (jobId : ι) (w : Worker ι κ) : Bool := w.jobId = jobId && w.stage.isBeforeStart

/-- The executions of the job that the system has started or will: those in the log, those in the
mailbox and the queue, and those of workers that have still to start one. -/
def System.executions (s : System ι κ) (jobId : ι) : Nat :=
  s.started.count jobId + s.mailbox.countP (Message.submits jobId) +
    s.runner.pending.countP (fun entry => decide (entry.jobId = jobId)) +
    s.phase.executions jobId s.storage +
    s.workers.countP (Worker.starts jobId)

/-- Recovery submits each stored job at most once. -/
theorem JobStorage.countP_pendingJobs_le (storage : JobStorage ι κ) (jobId : ι) :
    storage.pendingJobs.countP (fun job => decide (job.1 = jobId)) ≤
      if (storage.status jobId).isSome then 1 else 0 := by
  have hperm := (List.perm_insertionSort (fun a b : ι × Int × κ => a.2.1 ≤ b.2.1)
    ((storage.entries.filter fun job => job.2.status = .pending).map fun job =>
      (job.1, job.2.priority, job.2.kind))).countP_eq fun job => decide (job.1 = jobId)
  have hle : storage.pendingJobs.countP (fun job => decide (job.1 = jobId)) ≤
      storage.keys.count jobId := by
    rw [JobStorage.pendingJobs, hperm, List.countP_map, AList.keys, List.keys, List.count,
      List.countP_map]
    refine (List.filter_sublist.countP_le).trans (Nat.le_of_eq (List.countP_congr fun job _ => ?_))
    simp
  refine hle.trans ?_
  split
  · exact List.nodup_iff_count_le_one.mp storage.keys_nodup jobId
  · rename_i hnone
    have hmem : jobId ∉ storage.keys := by
      rw [← AList.mem_keys, ← AList.lookup_isSome]
      simpa [JobStorage.status] using hnone
    exact Nat.le_of_eq (List.count_eq_zero_of_not_mem hmem)

namespace System

/-- Handling a message adds no execution: a submission becomes a queue entry, and a queue entry
becomes a dispatch. -/
theorem executions_handle_le {s : System ι κ} {message : Message ι κ} {mailbox : List (Message ι κ)}
    (hphase : s.phase = .idle) (hmailbox : s.mailbox = message :: mailbox) (jobId : ι) :
    ({ s with mailbox }.handle message).executions jobId ≤ s.executions jobId := by
  -- Each message that the actor takes is handed on at most once.
  cases message with
  | submitJob submitted priority kind =>
    simp only [System.handle, executions, hmailbox, hphase, PriorityRunner.submit, Phase.executions,
      List.countP_cons, Message.submits, decide_eq_true_eq]
    omega
  | dispatchNext =>
    simp only [System.handle]
    cases hdispatch : s.runner.tryDispatch with
    | none =>
      simp only [executions, hmailbox, hphase, Phase.executions, List.countP_cons, Message.submits]
      omega
    -- The entry leaves the queue and is now the dispatch that the actor holds.
    | some p =>
      obtain ⟨dispatch, runner⟩ := p
      obtain ⟨entry, rest, hperm, hjob, hpending, -⟩ := PriorityRunner.tryDispatch_eq_some hdispatch
      simp only [executions, hmailbox, hphase, hpending, hperm.countP_eq, Phase.executions,
        List.countP_cons, Message.submits, hjob, decide_eq_true_eq]
      omega
  | cancelJob cancelled =>
    -- A cancellation takes entries out.
    have hpending : (s.runner.cancel cancelled).pending.countP
        (fun entry => decide (entry.jobId = jobId)) ≤
          s.runner.pending.countP fun entry => decide (entry.jobId = jobId) := by
      unfold PriorityRunner.cancel
      split
      · exact Nat.le_refl _
      · exact List.filter_sublist.countP_le
    simp only [System.handle, executions, hmailbox, hphase, Phase.executions, List.countP_cons,
      Message.submits]
    omega
  | cleanupExpired =>
    simp only [System.handle, executions, hmailbox, hphase, Phase.executions, List.countP_cons,
      Message.submits]
    omega

/-- A step of the actor adds no execution: recovery submits each job that is stored at most once. -/
theorem executions_actorStep_le {restartError : String} {s t : System ι κ}
    (hstep : s.ActorStep restartError t) (jobId : ι) : t.executions jobId ≤ s.executions jobId := by
  -- What can still be executed moves from the storage to the mailbox, the queue, the dispatch and
  -- the worker.
  cases hstep with
  | markStale hphase =>
    simp only [executions, hphase, Phase.executions, JobStorage.status_markStaleRunningFailed,
      Option.isSome_map]
    omega
  | readPending hphase =>
    have hread := s.storage.countP_pendingJobs_le jobId
    simp only [executions, hphase, Phase.executions]
    omega
  -- A job that was read is sent to the actor itself.
  | requeue submitted priority kind jobs hphase =>
    simp only [executions, System.tell, hphase, Phase.executions, List.countP_append,
      List.countP_cons, List.countP_nil, Message.submits, decide_eq_true_eq]
    omega
  | take message mailbox hphase hmailbox => exact executions_handle_le hphase hmailbox jobId
  | tellDispatch hphase =>
    simp only [executions, System.tell, hphase, Phase.executions, List.countP_append,
      List.countP_cons, List.countP_nil, Message.submits, Bool.false_eq_true, if_false]
    omega
  -- The dispatch becomes a worker that has not started.
  | spawn dispatch hphase =>
    simp only [executions, hphase, Phase.executions, List.countP_append, List.countP_cons,
      List.countP_nil, Worker.starts, Stage.isBeforeStart, Bool.and_true, decide_eq_true_eq]
    omega
  | cancelFailed cancelled hphase =>
    obtain hphase | hphase := hphase <;> simp only [executions, hphase, Phase.executions] <;> omega
  | staleUnmarked hphase | pendingUnread hphase | requeued hphase | loadCancelled cancelled hphase
  | cancelStored cancelled hphase | queryExpired jobs hphase hterminal | queryFailed hphase
  | deleteExpired deleted jobs hphase | deleteFailed deleted jobs hphase | deleted hphase =>
    simp only [executions, hphase, Phase.executions]
    omega

/-- Storages that know the same jobs give a phase the same executions. -/
theorem phase_executions_congr {jobId : ι} {storage storage' : JobStorage ι κ}
    (h : (storage'.status jobId).isSome = (storage.status jobId).isSome) (phase : Phase ι κ) :
    phase.executions jobId storage' = phase.executions jobId storage := by
  unfold Phase.executions
  split <;> simp [h]

/-- A worker stores no job that is not there. -/
theorem worker_isSome {s next : System ι κ} {w : Worker ι κ} {w' : Option (Worker ι κ)}
    {reply : Reply ι} (hstep : w.Step s reply next w') (jobId : ι) :
    (next.storage.status jobId).isSome = (s.storage.status jobId).isSome := by
  cases hstep with
  | markRunning storage hstage hstorage =>
    rw [JobStorage.status_of_update hstorage (fun _ => rfl)]
    split <;> simp
  | completeJob result storage hstage hstorage =>
    rw [JobStorage.status_of_update hstorage (fun _ => rfl)]
    split <;> simp
  | failJob error hstage =>
    show (JobStorage.status ((s.storage.failJob w.jobId error).getD s.storage) jobId).isSome = _
    rw [JobStorage.status_failJob]
    split <;> simp
  | loadJob | executed | panicked | failed | finish | failUnstored | tellDispatch
  | releasePermit => rfl

/-- A worker's step leaves the queue and the phase as they are, and sends no submission. An
execution that it starts is one that it had still to start. -/
theorem worker_executions {s next : System ι κ} {w : Worker ι κ} {w' : Option (Worker ι κ)}
    {reply : Reply ι} (hstep : w.Step s reply next w') (jobId : ι) :
    next.runner.pending = s.runner.pending ∧ next.phase = s.phase ∧
      next.mailbox.countP (Message.submits jobId) = s.mailbox.countP (Message.submits jobId) ∧
      next.started.count jobId + (if w'.any (Worker.starts jobId) then 1 else 0) ≤
        s.started.count jobId + if w.starts jobId then 1 else 0 := by
  -- Only loading the job starts it; it counts as started from then on.
  cases hstep with
  | loadJob hstage =>
    refine ⟨rfl, rfl, rfl, ?_⟩
    simp only [List.count_append, List.count_singleton, Option.any_some, Worker.starts, hstage,
      Stage.isBeforeStart, Bool.and_true, Bool.and_false, beq_iff_eq, decide_eq_true_eq,
      Bool.false_eq_true, if_false]
    omega
  | tellDispatch hstage =>
    refine ⟨rfl, rfl, ?_, ?_⟩
    · simp [System.tell, List.countP_append, Message.submits]
    · simp [System.tell, Worker.starts, hstage, Stage.isBeforeStart]
  | finish error hstage =>
    refine ⟨rfl, rfl, rfl, ?_⟩
    cases error <;> simp [Worker.starts, hstage, Stage.isBeforeStart]
  | markRunning storage hstage | executed result hstage | completeJob result storage hstage
  | failJob error hstage | failUnstored error hstage | panicked hstage | releasePermit hstage
  | failed error hstage =>
    refine ⟨rfl, rfl, rfl, ?_⟩
    simp [Worker.starts, hstage, Stage.isBeforeStart]

/-- A step of a worker adds no execution. -/
theorem executions_workerStep_le {s next : System ι κ} {before after : List (Worker ι κ)}
    {w : Worker ι κ} {w' : Option (Worker ι κ)} {reply : Reply ι}
    (hworkers : s.workers = before ++ w :: after) (hstep : w.Step s reply next w') (jobId : ι) :
    { next with workers := before ++ w'.toList ++ after }.executions jobId ≤
      s.executions jobId := by
  obtain ⟨hpending, hphase, hmailbox, hstarted⟩ := worker_executions hstep jobId
  have hcount : w'.toList.countP (Worker.starts jobId) =
      if w'.any (Worker.starts jobId) then 1 else 0 := by
    cases w' with
    | none => rfl
    | some v => exact List.countP_singleton
  simp only [executions, hpending, hphase, hmailbox, hworkers, List.countP_append, List.countP_cons,
    hcount, phase_executions_congr (worker_isSome hstep jobId)]
  omega

variable [ToString ι]

/-- The actor and the workers add no execution. -/
theorem executions_step_le {restartError : String} {s t : System ι κ} {reply : Reply ι}
    (jobId : ι) :
    (s.step restartError (.actor reply) = some t → t.executions jobId ≤ s.executions jobId) ∧
    ∀ index, s.step restartError (.worker index reply) = some t →
      t.executions jobId ≤ s.executions jobId := by
  refine ⟨fun hstep => executions_actorStep_le (actorStep_cases hstep) jobId, fun index hstep => ?_⟩
  obtain ⟨before, w, after, next, w', hworkers, -, hw, rfl⟩ := worker_step_cases hstep
  exact executions_workerStep_le hworkers (Worker.step_cases hw) jobId

end System

namespace Hosted

/-- The executions of a job that were started or will be, with the one that the host will ask
for. -/
def executions (h : Hosted ι κ) (jobId : ι) : Nat :=
  h.system.executions jobId + h.unsent.count jobId

/-- The invariant: a job is executed at most once, and a job of an unused id is not executed. -/
structure AtMostOnce (h : Hosted ι κ) : Prop where
  once : ∀ jobId, h.executions jobId ≤ 1
  fresh : ∀ jobId, jobId ∉ h.used → h.executions jobId = 0

/-- At the start no job was executed. -/
theorem atMostOnce_start (storage : JobStorage ι κ) (permits : Nat) :
    (start storage permits).AtMostOnce := by
  have hexecutions : ∀ jobId, (start storage permits).executions jobId =
      if (storage.status jobId).isSome then 1 else 0 := by
    intro jobId
    simp only [executions, System.executions, start, System.start, List.count_nil, List.countP_nil,
      Nat.zero_add, Nat.add_zero]
    rfl
  refine ⟨fun jobId => ?_, fun jobId hused => ?_⟩
  · rw [hexecutions]
    split <;> omega
  · have hnone : storage.lookup jobId = none :=
      AList.lookup_eq_none.mpr fun hmem => hused (AList.mem_keys.mp hmem)
    rw [hexecutions, JobStorage.status, hnone]
    rfl

/-- A step that uses up no id and adds no execution keeps the invariant. -/
theorem AtMostOnce.of_le {h next : Hosted ι κ} (hinv : h.AtMostOnce) (hused : next.used = h.used)
    (hle : ∀ jobId, next.executions jobId ≤ h.executions jobId) : next.AtMostOnce where
  once jobId := (hle jobId).trans (hinv.once jobId)
  fresh jobId hnot := Nat.le_zero.mp (hinv.fresh jobId (hused ▸ hnot) ▸ hle jobId)

/-- A message that is not a submission asks for no execution. -/
theorem AtMostOnce.tell {h : Hosted ι κ} (hinv : h.AtMostOnce) {message : Message ι κ}
    (hm : ∀ jobId, message.submits jobId = false) :
    { h with system := h.system.tell message }.AtMostOnce := by
  refine hinv.of_le rfl fun jobId => Nat.le_of_eq ?_
  simp [executions, System.executions, System.tell, hm]

/-- The host's submission is the one that it had still to make. -/
theorem AtMostOnce.submit {h : Hosted ι κ} (hinv : h.AtMostOnce) {jobId : ι} (priority : Int)
    (kind : κ) (hunsent : jobId ∈ h.unsent) :
    { h with
      system := h.system.tell (.submitJob jobId priority kind)
      unsent := h.unsent.erase jobId }.AtMostOnce := by
  refine hinv.of_le rfl fun other => Nat.le_of_eq ?_
  have hcount : h.unsent.count other =
      (h.unsent.erase jobId).count other + if jobId = other then 1 else 0 := by
    rw [(List.perm_cons_erase hunsent).count_eq, List.count_cons]
    simp
  simp only [executions, System.executions, System.tell, hcount, List.countP_append,
    List.countP_singleton, Message.submits, decide_eq_true_eq]
  omega

/-- A job that is inserted after the pending ones were read is executed for the host only. -/
theorem AtMostOnce.insertPending {h : Hosted ι κ} (hinv : h.AtMostOnce) {jobId : ι}
    (record : JobRecord κ) (hused : jobId ∉ h.used) (hread : h.system.phase.isBeforeRead = false) :
    AtMostOnce (κ := κ)
      { system := { h.system with storage := h.system.storage.insertPending jobId record }
        used := jobId :: h.used, unsent := jobId :: h.unsent } := by
  -- The actor is past its reading of the storage, so the new row is not in its phase.
  have hphase : ∀ other storage, h.system.phase.executions other storage =
      h.system.phase.executions other h.system.storage := by
    intro other storage
    cases hcase : h.system.phase <;> simp_all [Phase.executions, Phase.isBeforeRead]
  -- The identifier will be sent once more than before, and the others not.
  have hexecutions : ∀ other, Hosted.executions (κ := κ)
      { system := { h.system with storage := h.system.storage.insertPending jobId record }
        used := jobId :: h.used, unsent := jobId :: h.unsent } other =
        h.executions other + if jobId = other then 1 else 0 := by
    intro other
    simp only [executions, System.executions, hphase, List.count_cons, beq_iff_eq]
    omega
  refine ⟨fun other => ?_, fun other hnot => ?_⟩
  · rw [hexecutions]
    split
    · subst_vars
      rw [hinv.fresh _ hused]
    · exact hinv.once other
  · obtain ⟨hne, hnot⟩ := List.ne_and_not_mem_of_not_mem_cons hnot
    rw [hexecutions, if_neg (Ne.symm hne), hinv.fresh other hnot]

variable [ToString ι]

/-- A guarded step keeps every job to one execution. -/
theorem AtMostOnce.step {restartError : String} (h : Hosted ι κ) (a : HostedAction ι κ)
    (next : Hosted ι κ) (hinv : h.AtMostOnce) (hguard : h.InsertsAfterRead a)
    (hstep : h.step restartError a = some next) : next.AtMostOnce := by
  -- Only the host's own calls can add an execution, and those by the guard only for a new job.
  cases a with
  | insertPending jobId record =>
    rw [Hosted.step] at hstep
    split at hstep
    · cases hstep
    · cases hstep
      exact hinv.insertPending record ‹_› hguard
  | submit jobId priority kind =>
    rw [Hosted.step] at hstep
    split at hstep
    · cases hstep
      exact hinv.submit priority kind ‹_›
    · cases hstep
  | dispatch =>
    cases hstep
    exact hinv.tell fun _ => rfl
  | cancel jobId =>
    cases hstep
    exact hinv.tell fun _ => rfl
  | cleanup =>
    cases hstep
    exact hinv.tell fun _ => rfl
  -- A step of the actor hands on what there was.
  | actor reply =>
    obtain ⟨system, hsystem, rfl⟩ := Option.map_eq_some_iff.mp hstep
    refine hinv.of_le rfl fun jobId => Nat.add_le_add_right ?_ _
    exact (System.executions_step_le jobId).1 hsystem
  | worker index reply =>
    obtain ⟨system, hsystem, rfl⟩ := Option.map_eq_some_iff.mp hstep
    refine hinv.of_le rfl fun jobId => Nat.add_le_add_right ?_ _
    exact (System.executions_step_le jobId).2 index hsystem

/-- In every run in which jobs are inserted after the actor has read the pending ones, the executor
of a job is started at most once. -/
theorem started_at_most_once (restartError : String) (storage : JobStorage ι κ) (permits : Nat)
    {trace : List (HostedAction ι κ)} {h : Hosted ι κ}
    (hguarded : Guarded (Hosted.step restartError) InsertsAfterRead (start storage permits) trace)
    (hrun : run (Hosted.step restartError) (start storage permits) trace = some h) (jobId : ι) :
    h.system.started.count jobId ≤ 1 := by
  have hinv : h.AtMostOnce :=
    run_invariant AtMostOnce.step hguarded (atMostOnce_start storage permits) hrun
  have honce := hinv.once jobId
  unfold executions System.executions at honce
  omega

end Hosted

end Count

/-- A pending job. -/
def pendingRecord : JobRecord Unit := { status := .pending, priority := 0, kind := () }

/-- The steps of the actor and of a worker that execute one submitted job. -/
def executeOne : List (HostedAction Nat Unit) :=
  [.actor .ok, .actor .ok, .actor .ok, .actor .ok, .worker 0 .ok, .worker 0 .ok,
   .worker 0 (.executed { status := .completed }), .worker 0 .ok, .worker 0 .ok, .worker 0 .ok,
   .worker 0 .ok]

/-- The actor starts over an empty storage, and then a job is inserted and submitted. -/
def insertAfterStart : List (HostedAction Nat Unit) :=
  ([.actor .ok, .actor .ok, .actor .ok, .insertPending 1 pendingRecord, .submit 1 0 ()] :
    List (HostedAction Nat Unit)) ++ executeOne

/-- The job is executed, and once. -/
theorem insertAfterStart_once :
    ∃ h, run (Hosted.step "restart") (Hosted.start ∅ 1) insertAfterStart = some h ∧
      h.system.started = [1] ∧ h.system.started.count 1 ≤ 1 := by
  have hguarded : Guarded (Hosted.step "restart") Hosted.InsertsAfterRead (Hosted.start ∅ 1)
      insertAfterStart := by decide
  exact ⟨_, rfl, rfl, Hosted.started_at_most_once "restart" ∅ 1 hguarded rfl 1⟩

/-- A job is inserted before the actor reads the storage, and submitted afterwards. -/
def insertBeforeRead : List (HostedAction Nat Unit) :=
  ([.actor .ok, .insertPending 1 pendingRecord, .actor .ok, .actor .ok, .actor .ok] :
      List (HostedAction Nat Unit)) ++ executeOne ++
    ([.submit 1 0 (), .actor .ok] : List (HostedAction Nat Unit)) ++ executeOne

/-- Recovery submits the job, the host submits it too, and it is executed twice. -/
theorem insertBeforeRead_twice :
    ∃ h, run (Hosted.step "restart") (Hosted.start ∅ 1) insertBeforeRead = some h ∧
      h.system.started = [1, 1] :=
  ⟨_, rfl, rfl⟩

end QueryFabric.JobQueue
