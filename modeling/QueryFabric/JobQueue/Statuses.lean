import QueryFabric.JobQueue.System

/-!
# Whether terminal statuses are final

The actor and the workers write the status of a job without looking at what is stored. A terminal
status stays only when nobody is left who will write another one. An owner of a job is a queue
entry, a dispatch or a worker that has still to write its status. `Orderly` asks that a job is
submitted only when it has no owner and is not over, and cancelled only when no worker owns it and
it is not over; `status_absorbing` says that terminal statuses are final in every run of such steps.
-/

namespace QueryFabric.JobQueue

open Lib

variable {ι κ : Type} [DecidableEq ι]

/-- A worker at this stage has still to write the status of its job. -/
def Stage.writes : Stage → Bool
  | .markRunning | .loadJob | .execute | .completeJob _ | .finish (some _) | .failJob _ => true
  | .finish none | .tellDispatch | .releasePermit => false

/-- A worker that has still to write the status of the job. -/
def Worker.owns (jobId : ι) (w : Worker ι κ) : Bool := w.jobId = jobId && w.stage.writes

/-- A dispatch of the job that has not been given to a worker. -/
def Phase.owners (jobId : ι) : Phase ι κ → Nat
  | .spawn dispatch => if dispatch.jobId = jobId then 1 else 0
  | _ => 0

/-- The job is being cancelled. -/
def Phase.Cancels (jobId : ι) (phase : Phase ι κ) : Prop :=
  phase = .loadCancelled jobId ∨ phase = .cancelStored jobId

/-- The actor is between messages. -/
def Phase.isIdle : Phase ι κ → Bool
  | .idle => true
  | _ => false

/-- Expired jobs are being deleted. -/
def Phase.cleans : Phase ι κ → Bool
  | .queryExpired | .deleteExpired _ => true
  | _ => false

namespace System

/-- The queue entries of a job. -/
def queued (s : System ι κ) (jobId : ι) : Nat :=
  s.runner.pending.countP fun entry => decide (entry.jobId = jobId)

/-- The workers that have still to write the status of a job. -/
def writers (s : System ι κ) (jobId : ι) : Nat := s.workers.countP (Worker.owns jobId)

/-- The owners of a job: its entries, its workers and the actor's phase. -/
def owners (s : System ι κ) (jobId : ι) : Nat :=
  s.queued jobId + s.writers jobId + s.phase.owners jobId

/-- The stored status of the job is terminal. -/
def Over (s : System ι κ) (jobId : ι) : Prop := ∃ st ∈ s.storage.status jobId, st.isTerminal

/-- The conditions under which the actor takes up a message: a job is submitted when it is neither
over nor queued nor has a worker that will write its status, and it is cancelled when it has no such
worker, is not over (or was cancelled before), and is not both queued and listed as running. The
deletion of expired jobs is left out. -/
def OrderlyMessage (s : System ι κ) : Message ι κ → Prop
  | .submitJob jobId _ _ => s.queued jobId = 0 ∧ s.writers jobId = 0 ∧ ¬ s.Over jobId
  | .dispatchNext => True
  | .cancelJob jobId => s.writers jobId = 0 ∧
      (s.Over jobId → s.storage.status jobId = some .cancelled) ∧
      ((s.runner.running.lookup jobId).isSome → s.queued jobId = 0)
  | .cleanupExpired => False

/-- The conditions on a step: messages are taken up as above, and a job is inserted under a new id
and as pending. -/
def Orderly (s : System ι κ) : Action ι κ → Prop
  | .insertPending jobId record => s.storage.status jobId = none ∧ record.status = .pending
  | .actor _ => s.phase.isIdle → ∀ message ∈ s.mailbox.head?, s.OrderlyMessage message
  | .tell _ | .worker _ _ => True

/-- Whether a job is over is decided by its status. -/
instance (s : System ι κ) (jobId : ι) : Decidable (s.Over jobId) :=
  inferInstanceAs (Decidable (∃ st ∈ s.storage.status jobId, _))

/-- Whether a message is orderly is decided by the storage and the owners. -/
instance (s : System ι κ) : ∀ message, Decidable (s.OrderlyMessage message)
  | .submitJob .. => inferInstanceAs (Decidable (_ ∧ _ ∧ _))
  | .dispatchNext => .isTrue trivial
  | .cancelJob _ => inferInstanceAs (Decidable (_ ∧ (_ → _) ∧ (_ → _)))
  | .cleanupExpired => .isFalse id

/-- Whether an action is orderly is decided by the system. -/
instance (s : System ι κ) : ∀ a, Decidable (s.Orderly a)
  | .insertPending .. => inferInstanceAs (Decidable (_ ∧ _))
  | .actor _ => inferInstanceAs (Decidable (_ → ∀ message ∈ s.mailbox.head?, _))
  | .tell _ | .worker _ _ => .isTrue trivial

/-- The invariant of orderly runs: a job has at most one owner, a job with an owner is not over, and
neither is a job that is being cancelled, unless it was cancelled before. -/
structure SingleOwner (s : System ι κ) : Prop where
  owners_le : ∀ jobId, s.owners jobId ≤ 1
  not_over : ∀ jobId, 0 < s.owners jobId → ¬ s.Over jobId
  cancelling : ∀ jobId, s.phase.Cancels jobId → s.owners jobId = 0 ∧
    (s.Over jobId → s.storage.status jobId = some .cancelled)
  starting : s.phase = .markStale → ∀ jobId, s.owners jobId = 0
  not_cleaning : s.phase.cleans = false

/-- At the start no job has two owners. -/
theorem singleOwner_start (storage : JobStorage ι κ) (permits : Nat) :
    (start storage permits).SingleOwner where
  owners_le _ := Nat.zero_le _
  not_over _ h := absurd h (Nat.lt_irrefl 0)
  cancelling _ h := by
    obtain h | h := h
    · cases h
    · cases h
  starting _ _ := rfl
  not_cleaning := rfl

/-- What a step may do to the invariant: it adds no owner, and what it writes is not terminal, or is
about a job without an owner that is not being cancelled. -/
theorem SingleOwner.of_le {s t : System ι κ} (h : s.SingleOwner)
    (howners : ∀ jobId, t.owners jobId ≤ s.owners jobId)
    (hstatus : ∀ jobId, t.storage.status jobId = s.storage.status jobId ∨ ¬ t.Over jobId ∨
      (t.owners jobId = 0 ∧ ¬ t.phase.Cancels jobId))
    (hcancels : ∀ jobId, t.phase.Cancels jobId → s.phase.Cancels jobId)
    (hstarting : t.phase = .markStale → s.phase = .markStale) (hcleans : t.phase.cleans = false) :
    t.SingleOwner where
  owners_le jobId := (howners jobId).trans (h.owners_le jobId)
  not_over jobId howner hover := by
    -- The status is the old one, or not over, or nobody owns the job.
    obtain hsame | hnot | ⟨hzero, -⟩ := hstatus jobId
    · refine h.not_over jobId (lt_of_lt_of_le howner (howners jobId)) ?_
      rwa [Over, ← hsame]
    · exact hnot hover
    · omega
  cancelling jobId hphase := by
    obtain ⟨hzero, hcancelled⟩ := h.cancelling jobId (hcancels jobId hphase)
    refine ⟨Nat.le_zero.mp (hzero ▸ howners jobId), fun hover => ?_⟩
    obtain hsame | hnot | ⟨-, hnot⟩ := hstatus jobId
    · rw [hsame]
      refine hcancelled ?_
      rwa [Over, ← hsame]
    · exact absurd hover hnot
    · exact absurd hphase hnot
  starting hphase jobId := Nat.le_zero.mp (h.starting (hstarting hphase) jobId ▸ howners jobId)
  not_cleaning := hcleans

/-- A step of the actor that changes its phase only, outside of cancelling and cleaning. -/
theorem SingleOwner.move {s : System ι κ} (h : s.SingleOwner) {phase : Phase ι κ}
    (howners : ∀ jobId, phase.owners jobId = 0) (hcancels : ∀ jobId, ¬ phase.Cancels jobId)
    (hstarting : phase ≠ .markStale) (hcleans : phase.cleans = false) :
    { s with phase }.SingleOwner := by
  refine h.of_le (fun jobId => ?_) (fun _ => .inl rfl) (fun jobId hc => absurd hc (hcancels jobId))
    (fun hphase => absurd hphase hstarting) hcleans
  simp only [owners, howners jobId]
  exact Nat.le_add_right _ _

/-- An actor that goes idle leaves every job with one owner at most. -/
theorem SingleOwner.idle {s : System ι κ} (h : s.SingleOwner) :
    { s with phase := .idle }.SingleOwner :=
  h.move (fun _ => rfl) (by simp [Phase.Cancels]) (by simp) rfl

/-- The mailbox has no part in the invariant. -/
theorem SingleOwner.mailbox {s : System ι κ} (h : s.SingleOwner) (mailbox : List (Message ι κ)) :
    { s with mailbox }.SingleOwner :=
  ⟨h.owners_le, h.not_over, h.cancelling, h.starting, h.not_cleaning⟩

/-- After cancelling, a job that no worker owns has no owner. -/
theorem queued_cancel {s : System ι κ} {jobId : ι}
    (h : (s.runner.running.lookup jobId).isSome → s.queued jobId = 0) (phase : Phase ι κ) :
    { s with runner := s.runner.cancel jobId, phase }.queued jobId = 0 := by
  simp only [queued, PriorityRunner.cancel]
  split
  · rename_i hlookup
    exact h (by simp [hlookup])
  · rw [List.countP_eq_zero]
    intro entry hmem
    simpa using (List.mem_filter.mp hmem).2

/-- A cancellation leaves no more entries of a job. -/
theorem queued_cancel_le (s : System ι κ) (jobId other : ι) (phase : Phase ι κ) :
    { s with runner := s.runner.cancel jobId, phase }.queued other ≤ s.queued other := by
  simp only [queued, PriorityRunner.cancel]
  split
  · exact Nat.le_refl _
  · exact List.filter_sublist.countP_le

/-- Handling a message in an orderly way. -/
theorem SingleOwner.handle {s : System ι κ} {message : Message ι κ} {mailbox : List (Message ι κ)}
    (h : s.SingleOwner) (hphase : s.phase = .idle) (hmailbox : s.mailbox = message :: mailbox)
    {reply : Reply ι} (horderly : s.Orderly (.actor reply)) :
    ({ s with mailbox }.handle message).SingleOwner := by
  have hmessage : s.OrderlyMessage message :=
    horderly (by rw [hphase]; rfl) message (by rw [hmailbox]; rfl)
  have hidle : ∀ jobId, s.phase.owners jobId = 0 := by simp [hphase, Phase.owners]
  cases message with
  | submitJob jobId priority kind =>
    obtain ⟨hqueued, hwriters, hover⟩ := hmessage
    have howners : ∀ other,
      ({ s with mailbox }.handle (.submitJob jobId priority kind)).owners other =
        s.owners other + if jobId = other then 1 else 0 := by
      intro other
      simp only [owners, queued, writers, System.handle, PriorityRunner.submit, List.countP_cons,
        hphase, Phase.owners, decide_eq_true_eq]
      omega
    have hzero : s.owners jobId = 0 := by
      rw [owners, hqueued, hwriters, hidle]
    refine ⟨fun other => ?_, fun other howner => ?_, fun other hc => ?_, fun hp => ?_, rfl⟩
    · rw [howners]
      split
      · subst_vars
        omega
      · exact h.owners_le other
    · rw [howners] at howner
      split at howner
      · subst_vars
        exact hover
      · exact h.not_over other howner
    · simp [System.handle, Phase.Cancels] at hc
    · simp [System.handle] at hp
  | dispatchNext =>
    simp only [System.handle]
    cases hdispatch : s.runner.tryDispatch with
    | none => exact h.mailbox mailbox
    | some p =>
      obtain ⟨dispatch, runner⟩ := p
      obtain ⟨entry, rest, hperm, hjob, hpending, -⟩ := PriorityRunner.tryDispatch_eq_some hdispatch
      refine h.of_le (fun jobId => ?_) (fun _ => .inl rfl) (by simp [Phase.Cancels]) (by simp) rfl
      -- The entry that leaves the queue becomes the dispatch.
      simp only [owners, queued, writers, hpending, hperm.countP_eq, List.countP_cons, Phase.owners,
        hjob, decide_eq_true_eq]
      omega
  | cancelJob jobId =>
    obtain ⟨hwriters, hover, hrunning⟩ := hmessage
    have howners : ∀ other, ({ s with mailbox }.handle (.cancelJob jobId)).owners other ≤
        s.owners other := fun other =>
      Nat.add_le_add (Nat.add_le_add_right (queued_cancel_le s jobId other .idle) _) (Nat.zero_le _)
    have hzero : ({ s with mailbox }.handle (.cancelJob jobId)).owners jobId = 0 := by
      have hqueued := queued_cancel hrunning (.loadCancelled jobId)
      show _ + s.writers jobId + 0 = 0
      rw [hwriters]
      exact hqueued
    refine ⟨fun other => (howners other).trans (h.owners_le other), fun other howner => ?_,
      fun other hc => ?_, fun hp => ?_, rfl⟩
    · exact h.not_over other (lt_of_lt_of_le howner (howners other))
    · have heq : jobId = other := by simpa [System.handle, Phase.Cancels] using hc
      subst heq
      exact ⟨hzero, hover⟩
    · simp [System.handle] at hp
  | cleanupExpired => exact hmessage.elim

/-- The steps of the actor in an orderly run. -/
theorem SingleOwner.actorStep {restartError : String} {s t : System ι κ} {reply : Reply ι}
    (h : s.SingleOwner) (horderly : s.Orderly (.actor reply))
    (hstep : s.ActorStep restartError t) : t.SingleOwner := by
  cases hstep with
  | markStale hphase =>
    have hzero := h.starting hphase
    refine h.of_le (fun jobId => ?_) (fun jobId => .inr (.inr ⟨?_, by simp [Phase.Cancels]⟩))
      (by simp [Phase.Cancels]) (by simp) rfl
    · exact Nat.add_le_add_left (Nat.zero_le _) _
    · exact Nat.le_zero.mp (hzero jobId ▸ Nat.add_le_add_left (Nat.zero_le _) _)
  | staleUnmarked hphase =>
    exact h.move (fun _ => rfl) (by simp [Phase.Cancels]) (by simp) rfl
  | readPending hphase =>
    exact h.move (fun _ => rfl) (by simp [Phase.Cancels]) (by simp) rfl
  | pendingUnread hphase => exact h.idle
  | requeue jobId priority kind jobs hphase =>
    exact (h.move (fun _ => rfl) (by simp [Phase.Cancels]) (by simp) rfl).mailbox _
  | requeued hphase => exact h.idle
  | take message mailbox hphase hmailbox => exact h.handle hphase hmailbox horderly
  | tellDispatch hphase => exact h.idle.mailbox _
  | spawn dispatch hphase =>
    refine h.of_le (fun jobId => ?_) (fun _ => .inl rfl) (by simp [Phase.Cancels]) (by simp) rfl
    -- The dispatch becomes a worker.
    simp only [owners, queued, writers, hphase, Phase.owners, List.countP_append, List.countP_cons,
      List.countP_nil, Worker.owns, Stage.writes, Bool.and_true, decide_eq_true_eq]
    omega
  | loadCancelled jobId hphase =>
    refine h.of_le (fun _ => Nat.add_le_add_left (Nat.zero_le _) _) (fun _ => .inl rfl)
      (fun other hc => ?_) (by simp) rfl
    have heq : jobId = other := by simpa [Phase.Cancels] using hc
    exact .inl (heq ▸ hphase)
  | cancelStored jobId hphase =>
    obtain ⟨hzero, -⟩ := h.cancelling jobId (.inr hphase)
    have howners : ∀ other, { s with
        storage := (s.storage.cancelJob jobId).getD s.storage, phase := .idle }.owners other ≤
          s.owners other := fun other => Nat.add_le_add_left (Nat.zero_le _) _
    refine h.of_le howners (fun other => ?_) (by simp [Phase.Cancels]) (by simp) rfl
    by_cases heq : other = jobId
    · subst heq
      exact .inr (.inr ⟨Nat.le_zero.mp (hzero ▸ howners other), by simp [Phase.Cancels]⟩)
    · exact .inl ((JobStorage.status_cancelJob s.storage jobId other).trans (if_neg heq))
  | cancelFailed jobId hphase => exact h.idle
  | queryExpired jobs hphase hterminal | queryFailed hphase | deleteExpired jobId jobs hphase
  | deleteFailed jobId jobs hphase | deleted hphase =>
    have hcleans := h.not_cleaning
    rw [hphase] at hcleans
    cases hcleans

/-- A step of a worker touches the runner's pending jobs, the phase and the workers in no other way
than by the worker's own progress. -/
theorem worker_frame {s next : System ι κ} {w : Worker ι κ} {w' : Option (Worker ι κ)}
    {reply : Reply ι} (hstep : w.Step s reply next w') :
    next.runner.pending = s.runner.pending ∧ next.phase = s.phase ∧
      ∀ jobId, w'.any (Worker.owns jobId) → w.owns jobId := by
  cases hstep with
  | markRunning storage hstage | executed result hstage | completeJob result storage hstage
  | failJob error hstage | failUnstored error hstage | panicked hstage | loadJob hstage
  | tellDispatch hstage | releasePermit hstage =>
    refine ⟨rfl, rfl, fun jobId => ?_⟩
    simp [Worker.owns, Stage.writes, hstage]
  | failed error hstage =>
    refine ⟨rfl, rfl, fun jobId => ?_⟩
    obtain hstage | hstage | hstage | ⟨result, hstage⟩ := hstage <;>
      simp [Worker.owns, Stage.writes, hstage]
  | finish error hstage =>
    refine ⟨rfl, rfl, fun jobId => ?_⟩
    cases error <;> simp [Worker.owns, Stage.writes, hstage]

/-- The status that a worker's step writes is that of its own job, and it owns the job before it.
What it writes is not terminal, or the worker does not own the job afterwards. -/
theorem worker_status {s next : System ι κ} {w : Worker ι κ} {w' : Option (Worker ι κ)}
    {reply : Reply ι} (hstep : w.Step s reply next w') (jobId : ι) :
    next.storage.status jobId = s.storage.status jobId ∨
      w.owns jobId ∧ (¬ next.Over jobId ∨ ¬ w'.any (Worker.owns jobId)) := by
  -- A worker writes to the record of its own job.
  by_cases hjob : jobId = w.jobId
  · subst hjob
    cases hstep with
    -- A job that is marked running is not over.
    | markRunning storage hstage hstorage =>
      refine .inr ⟨by simp [Worker.owns, Stage.writes, hstage], .inl ?_⟩
      rintro ⟨st, hst, hterminal⟩
      rw [JobStorage.status_of_update hstorage (fun _ => rfl), if_pos rfl] at hst
      obtain ⟨_, -, rfl⟩ := Option.map_eq_some_iff.mp hst
      cases hterminal
    -- One that is completed or failed is over, but the worker does not own it any more.
    | completeJob result storage hstage hstorage =>
      exact .inr ⟨by simp [Worker.owns, Stage.writes, hstage],
        .inr (by simp [Worker.owns, Stage.writes])⟩
    | failJob error hstage =>
      exact .inr ⟨by simp [Worker.owns, Stage.writes, hstage],
        .inr (by simp [Worker.owns, Stage.writes])⟩
    | loadJob | executed | panicked | failed | finish | failUnstored | tellDispatch
    | releasePermit => exact .inl rfl
  · refine .inl ?_
    cases hstep with
    | markRunning storage hstage hstorage =>
      rw [JobStorage.status_of_update hstorage (fun _ => rfl), if_neg hjob]
    | completeJob result storage hstage hstorage =>
      rw [JobStorage.status_of_update hstorage (fun _ => rfl), if_neg hjob]
    | failJob error hstage =>
      exact (JobStorage.status_failJob s.storage w.jobId error jobId).trans (if_neg hjob)
    | loadJob | executed | panicked | failed | finish | failUnstored | tellDispatch
    | releasePermit => rfl

/-- A worker's step leaves every job with one owner at most. -/
theorem SingleOwner.workerStep {s next : System ι κ} {before after : List (Worker ι κ)}
    {w : Worker ι κ} {w' : Option (Worker ι κ)} {reply : Reply ι} (h : s.SingleOwner)
    (hworkers : s.workers = before ++ w :: after) (hstep : w.Step s reply next w') :
    { next with workers := before ++ w'.toList ++ after }.SingleOwner := by
  obtain ⟨hpending, hphase, howns⟩ := worker_frame hstep
  have hbefore : ∀ jobId, s.owners jobId = s.queued jobId + (before.countP (Worker.owns jobId) +
      (after.countP (Worker.owns jobId) + if w.owns jobId then 1 else 0)) +
        s.phase.owners jobId := by
    intro jobId
    rw [owners, writers, hworkers, List.countP_append, List.countP_cons]
  have hafter : ∀ jobId, { next with workers := before ++ w'.toList ++ after }.owners jobId =
      s.queued jobId + (before.countP (Worker.owns jobId) +
        (after.countP (Worker.owns jobId) + if w'.any (Worker.owns jobId) then 1 else 0)) +
          s.phase.owners jobId := by
    intro jobId
    simp only [owners, queued, writers, hpending, hphase, List.countP_append]
    cases w' with
    | none => simp
    | some v =>
      simp only [Option.toList_some, List.countP_singleton, Option.any_some]
      omega
  have hle : ∀ jobId, { next with workers := before ++ w'.toList ++ after }.owners jobId ≤
      s.owners jobId := by
    intro jobId
    rw [hbefore, hafter]
    by_cases hw' : w'.any (Worker.owns jobId)
    · rw [if_pos hw', if_pos (howns jobId hw')]
    · rw [if_neg hw']
      omega
  refine h.of_le hle (fun jobId => ?_) (fun jobId hc => hphase ▸ hc) (fun hp => hphase ▸ hp)
    (hphase ▸ h.not_cleaning)
  obtain hsame | ⟨hw, hnot | hw'⟩ := worker_status hstep jobId
  · exact .inl hsame
  · exact .inr (.inl hnot)
  · -- The worker was the only owner of the job, so it was not being cancelled.
    have hone := h.owners_le jobId
    have hpos : 0 < s.owners jobId := by
      rw [hbefore, if_pos hw]
      omega
    refine .inr (.inr ⟨?_, fun hc => ?_⟩)
    · rw [hbefore, if_pos hw] at hone
      rw [hafter, if_neg hw']
      omega
    · have hc' : s.phase.Cancels jobId := hphase ▸ hc
      exact absurd (h.cancelling jobId hc').1 (by omega)

/-- Handling a message writes nothing to the storage. -/
@[simp]
theorem handle_storage (s : System ι κ) (message : Message ι κ) :
    (s.handle message).storage = s.storage := by
  unfold System.handle
  split
  · rfl
  · split <;> rfl
  · rfl
  · rfl

/-- A step of the actor leaves a terminal status as it is. -/
theorem SingleOwner.actor_status {restartError : String} {s t : System ι κ} (h : s.SingleOwner)
    (hstep : s.ActorStep restartError t) {jobId : ι} {st : JobStatus}
    (hst : s.storage.status jobId = some st) (hterminal : st.isTerminal) :
    t.storage.status jobId = some st := by
  cases hstep with
  | markStale hphase =>
    show (s.storage.markStaleRunningFailed restartError).status jobId = some st
    rw [JobStorage.status_markStaleRunningFailed, hst, Option.map_some, if_neg]
    rintro rfl
    cases hterminal
  | cancelStored cancelled hphase =>
    refine (JobStorage.status_cancelJob s.storage cancelled jobId).trans ?_
    by_cases heq : jobId = cancelled
    · -- The job is over, so it was cancelled before.
      subst heq
      have hcancelled := (h.cancelling jobId (.inr hphase)).2 ⟨st, hst, hterminal⟩
      rw [if_pos rfl, hcancelled, Option.map_some, ← hcancelled, hst]
    · rw [if_neg heq, hst]
  | deleteExpired deleted jobs hphase =>
    have hcleans := h.not_cleaning
    rw [hphase] at hcleans
    cases hcleans
  | take message mailbox hphase hmailbox =>
    rw [handle_storage]
    exact hst
  | staleUnmarked | readPending | pendingUnread | requeue | requeued | tellDispatch | spawn
  | loadCancelled | cancelFailed | queryExpired | queryFailed | deleteFailed | deleted => exact hst

variable [ToString ι]

/-- An orderly step leaves every job with one owner at most. -/
theorem SingleOwner.step {restartError : String} (s : System ι κ) (a : Action ι κ)
    (t : System ι κ) (h : s.SingleOwner) (horderly : s.Orderly a)
    (hstep : s.step restartError a = some t) : t.SingleOwner := by
  cases a with
  -- The host only inserts pending rows, so the job is not over.
  | insertPending jobId record =>
    cases hstep
    obtain ⟨-, hpending⟩ := horderly
    refine h.of_le (fun _ => Nat.le_refl _) (fun other => ?_) (fun _ => id) id h.not_cleaning
    have hstatus := JobStorage.status_insert s.storage jobId record other
    by_cases heq : other = jobId
    · refine .inr (.inl ?_)
      rintro ⟨st, hst, hterminal⟩
      rw [if_pos heq] at hstatus
      cases hst.symm.trans hstatus
      rw [hpending] at hterminal
      cases hterminal
    · exact .inl (hstatus.trans (if_neg heq))
  | tell message =>
    cases hstep
    exact h.mailbox _
  | actor reply => exact h.actorStep horderly (actorStep_cases hstep)
  | worker index reply =>
    obtain ⟨before, w, after, next, w', hworkers, -, hw, rfl⟩ := worker_step_cases hstep
    exact h.workerStep hworkers (Worker.step_cases hw)

/-- An orderly step leaves a terminal status as it is. -/
theorem SingleOwner.status_step {restartError : String} {s t : System ι κ} {a : Action ι κ}
    (h : s.SingleOwner) (horderly : s.Orderly a) (hstep : s.step restartError a = some t)
    {jobId : ι} {st : JobStatus} (hst : s.storage.status jobId = some st)
    (hterminal : st.isTerminal) : t.storage.status jobId = some st := by
  cases a with
  | insertPending inserted record =>
    cases hstep
    obtain ⟨hnone, -⟩ := horderly
    refine (JobStorage.status_insert s.storage inserted record jobId).trans ?_
    rw [if_neg, hst]
    rintro rfl
    cases hnone.symm.trans hst
  | tell message =>
    cases hstep
    exact hst
  | actor reply => exact h.actor_status (actorStep_cases hstep) hst hterminal
  | worker index reply =>
    obtain ⟨before, w, after, next, w', hworkers, -, hw, rfl⟩ := worker_step_cases hstep
    obtain hsame | ⟨howns, -⟩ := worker_status (Worker.step_cases hw) jobId
    · exact hsame.trans hst
    · -- A job with an owner is not over.
      have hpos : 0 < s.owners jobId := by
        rw [owners, writers, hworkers, List.countP_append, List.countP_cons, if_pos howns]
        omega
      exact absurd ⟨st, hst, hterminal⟩ (h.not_over jobId hpos)

/-- In every run of orderly steps, a terminal status is never changed again. -/
theorem status_absorbing (restartError : String) (storage : JobStorage ι κ) (permits : Nat)
    {trace rest : List (Action ι κ)} {s t : System ι κ}
    (horderly : Guarded (System.step restartError) Orderly (start storage permits) (trace ++ rest))
    (hs : run (System.step restartError) (start storage permits) trace = some s)
    (ht : run (System.step restartError) s rest = some t)
    {jobId : ι} {st : JobStatus} (hst : s.storage.status jobId = some st)
    (hterminal : st.isTerminal) : t.storage.status jobId = some st := by
  obtain ⟨hbefore, hafter⟩ := horderly.append hs
  have howner : s.SingleOwner :=
    run_invariant SingleOwner.step hbefore (singleOwner_start storage permits) hs
  have hpair : ∀ (u : System ι κ) (a : Action ι κ) (v : System ι κ), u.SingleOwner ∧
    u.storage.status jobId = some st → u.Orderly a →
      u.step restartError a = some v → v.SingleOwner ∧ v.storage.status jobId = some st :=
    fun u a v ⟨hu, hust⟩ ha hv => ⟨hu.step u a v ha hv, hu.status_step ha hv hust hterminal⟩
  exact (run_invariant hpair hafter ⟨howner, hst⟩ ht).2

end System

/-- The queue starts, and a job is inserted, submitted, dispatched and given to a worker. -/
def startJob : List (Action Nat Unit) :=
  [.actor .ok, .actor .ok, .actor .ok,
   .insertPending 1 { status := .pending, priority := 0, kind := () }, .tell (.submitJob 1 0 ()),
   .actor .ok, .actor .ok, .actor .ok, .actor .ok]

/-- The worker runs the job and stores its result. -/
def completeStarted : List (Action Nat Unit) :=
  [.worker 0 .ok, .worker 0 .ok, .worker 0 (.executed { status := .completed }), .worker 0 .ok]

/-- The worker ends, and the actor takes up its message. -/
def endStarted : List (Action Nat Unit) :=
  [.worker 0 .ok, .worker 0 .ok, .actor .ok, .worker 0 .ok]

/-- A job that was completed is still completed when its worker has ended. -/
theorem completed_stays :
    ∃ s t, run (System.step "restart") (System.start ∅ 1) (startJob ++ completeStarted) = some s ∧
      s.storage.status 1 = some .completed ∧
      run (System.step "restart") s endStarted = some t ∧ t.storage.status 1 = some .completed := by
  have horderly : Guarded (System.step "restart") System.Orderly (System.start ∅ 1)
      ((startJob ++ completeStarted) ++ endStarted) := by decide
  exact ⟨_, _, rfl, rfl, rfl, System.status_absorbing "restart" ∅ 1 horderly rfl rfl rfl rfl⟩

/-- The job is cancelled after its worker was spawned and before the worker has marked it as
running. -/
theorem cancelled_runs :
    ∃ s t, run (System.step "restart") (System.start ∅ 1)
        (startJob ++ ([.tell (.cancelJob 1), .actor .ok, .actor .ok, .actor .ok] :
          List (Action Nat Unit))) = some s ∧
      s.storage.status 1 = some .cancelled ∧
      run (System.step "restart") s [.worker 0 .ok] = some t ∧
      t.storage.status 1 = some .running :=
  ⟨_, _, rfl, rfl, rfl, rfl⟩

end QueryFabric.JobQueue
