import QueryFabric.JobQueue.System

/-!
# Whether pending jobs are stranded

A pending job is dispatched only by a `DispatchNext` that finds a free permit. A worker sends one
when it is done, and drops its permit afterwards; a worker whose executor panics sends none. A state
is awake when a message is in flight that leads to a dispatch, or a worker has still to send one.
`KeepsAwake` says of a step that it leaves an awake state behind when jobs are pending;
`stranded_iff` says that exactly the steps that do not can strand them.
-/

namespace QueryFabric.JobQueue

open Lib

variable {ι κ : Type}

/-- The messages that lead to a dispatch. -/
def Message.wakes : Message ι κ → Bool
  | .submitJob .. | .dispatchNext => true
  | .cancelJob _ | .cleanupExpired => false

/-- The handlers of these messages. -/
def Phase.wakes : Phase ι κ → Bool
  | .tellDispatch | .spawn _ => true
  | _ => false

namespace System

/-- A `SubmitJob` or a `DispatchNext` waits in the mailbox, or is being handled. -/
def InFlight (s : System ι κ) : Prop := (∃ m ∈ s.mailbox, m.wakes) ∨ s.phase.wakes

/-- A dispatch is bound to be tried: a message is in flight, or a worker has still to send one. -/
def Awake (s : System ι κ) : Prop := s.InFlight ∨ ∃ w ∈ s.workers, w.stage ≠ .releasePermit

/-- Jobs are pending and a permit is free, but nothing is left that leads to a dispatch. -/
def Stranded (s : System ι κ) : Prop :=
  ¬ s.InFlight ∧ s.workers = [] ∧ s.runner.pending ≠ [] ∧ 0 < s.runner.available

/-- A step does not take the last thing that leads to a dispatch while jobs are pending. A
`DispatchNext` that finds no free permit leaves a message behind or a worker that has still to send
its own, and so does a worker that panics. -/
def KeepsAwake (s : System ι κ) : Action ι κ → Prop
  | .actor _ => ∀ mailbox, s.phase = .idle → s.mailbox = .dispatchNext :: mailbox →
      s.runner.pending ≠ [] → s.runner.available = 0 → s.workers ≠ [] →
        { s with mailbox }.Awake
  | .worker index .panicked => s.runner.pending ≠ [] →
      { s with workers := s.workers.take index ++ s.workers.drop (index + 1) }.Awake
  | _ => True

/-- Pending jobs are waited on, unless there is no permit at all. -/
def Attended (s : System ι κ) : Prop :=
  s.runner.pending ≠ [] → s.Awake ∨ (s.workers = [] ∧ s.runner.available = 0)

/-- A queue that is attended is not stranded. -/
theorem Attended.not_stranded {s : System ι κ} (h : s.Attended) : ¬ s.Stranded := by
  rintro ⟨hflight, hworkers, hpending, havailable⟩
  obtain (hawake | ⟨w, hw, -⟩) | ⟨-, hzero⟩ := h hpending
  · exact hflight hawake
  · rw [hworkers] at hw
    cases hw
  · omega

/-- A message that wakes the actor is still in flight after another is sent. -/
theorem InFlight.tell {s : System ι κ} (h : s.InFlight) (message : Message ι κ) :
    (s.tell message).InFlight := by
  obtain ⟨m, hm, hwakes⟩ | hphase := h
  · exact .inl ⟨m, List.mem_append_left _ hm, hwakes⟩
  · exact .inr hphase

/-- A message that wakes the actor is in flight once it is sent. -/
theorem inFlight_tell {s : System ι κ} {message : Message ι κ} (h : message.wakes) :
    (s.tell message).InFlight :=
  .inl ⟨message, List.mem_append_right _ (List.mem_singleton.mpr rfl), h⟩

/-- Taking a message that does not wake leaves the others in flight. -/
theorem InFlight.take {s : System ι κ} {message : Message ι κ} {mailbox : List (Message ι κ)}
    (h : s.InFlight) (hmailbox : s.mailbox = message :: mailbox) (hphase : s.phase = .idle)
    (hm : message.wakes = false) : ∃ m ∈ mailbox, m.wakes := by
  obtain ⟨m, hmem, hwakes⟩ | hwakes := h
  · rw [hmailbox] at hmem
    obtain rfl | hrest := List.mem_cons.mp hmem
    · rw [hm] at hwakes
      cases hwakes
    · exact ⟨m, hrest, hwakes⟩
  · rw [hphase] at hwakes
    cases hwakes

end System

namespace System

/-- Only the mailbox, the phase, the pending jobs and the workers matter. -/
theorem Attended.congr {s t : System ι κ} (h : s.Attended)
    (hmailbox : t.mailbox = s.mailbox) (hphase : s.phase.wakes → t.phase.wakes)
    (hrunner : t.runner = s.runner) (hworkers : t.workers = s.workers) : t.Attended := by
  unfold Attended Awake InFlight at h ⊢
  rw [hmailbox, hrunner, hworkers]
  intro hpending
  obtain ((hm | hp) | hw) | hnone := h hpending
  · exact .inl (.inl (.inl hm))
  · exact .inl (.inl (.inr (hphase hp)))
  · exact .inl (.inr hw)
  · exact .inr hnone

/-- A step of the actor in a phase that does not wake, and that changes no more than the storage. -/
theorem Attended.move {s : System ι κ} (h : s.Attended) (hphase : s.phase.wakes = false)
    (storage : JobStorage ι κ) (phase : Phase ι κ) : { s with storage, phase }.Attended :=
  h.congr rfl (by simp [hphase]) rfl rfl

/-- A message sent leaves the queue attended. -/
theorem Attended.tell {s : System ι κ} (h : s.Attended) (message : Message ι κ) :
    (s.tell message).Attended := by
  intro hpending
  obtain (hflight | hworker) | hnone := h hpending
  · exact .inl (.inl (hflight.tell message))
  · exact .inl (.inr hworker)
  · exact .inr hnone

end System

section Steps

variable [DecidableEq ι]

/-- Cancelling adds no pending job. -/
theorem PriorityRunner.cancel_pending_subset (runner : PriorityRunner ι κ) (jobId : ι) :
    (runner.cancel jobId).pending ⊆ runner.pending := by
  unfold PriorityRunner.cancel
  split
  · exact List.Subset.refl _
  · exact fun _ hmem => (List.mem_filter.mp hmem).1

/-- A cancellation in the runner frees no permit. -/
theorem PriorityRunner.cancel_available (runner : PriorityRunner ι κ) (jobId : ι) :
    (runner.cancel jobId).available = runner.available := by
  unfold PriorityRunner.cancel
  split <;> rfl

namespace System

/-- Handling a message leaves pending jobs attended. -/
theorem Attended.handle {s : System ι κ} {message : Message ι κ} {mailbox : List (Message ι κ)}
    (h : s.Attended) (hphase : s.phase = .idle) (hmailbox : s.mailbox = message :: mailbox)
    {reply : Reply ι} (hkeeps : s.KeepsAwake (.actor reply)) :
    ({ s with mailbox }.handle message).Attended := by
  intro hpending
  -- After a message either another is in flight or nothing was there to be waited on.
  cases message with
  | submitJob jobId priority kind => exact .inl (.inl (.inr rfl))
  | dispatchNext =>
    simp only [System.handle] at hpending ⊢
    cases hdispatch : s.runner.tryDispatch with
    | some p => exact .inl (.inl (.inr rfl))
    -- A dispatch that finds no permit is the case that the guard is about.
    | none =>
      simp only [hdispatch] at hpending ⊢
      have hzero : s.runner.available = 0 :=
        (PriorityRunner.tryDispatch_eq_none hdispatch).resolve_right hpending
      by_cases hworkers : s.workers = []
      · exact .inr ⟨hworkers, hzero⟩
      · exact .inl (hkeeps mailbox hphase hmailbox hpending hzero hworkers)
  | cancelJob jobId =>
    -- What is still pending was pending before.
    have hsubset := s.runner.cancel_pending_subset jobId
    have hbefore : s.runner.pending ≠ [] := fun hnil =>
      hpending (List.subset_nil.mp (hnil ▸ hsubset))
    obtain (hflight | hworker) | ⟨hworkers, hzero⟩ := h hbefore
    · exact .inl (.inl (.inl (hflight.take hmailbox hphase rfl)))
    · exact .inl (.inr hworker)
    · exact .inr ⟨hworkers, (s.runner.cancel_available jobId).trans hzero⟩
  | cleanupExpired =>
    obtain (hflight | hworker) | hnone := h hpending
    · exact .inl (.inl (.inl (hflight.take hmailbox hphase rfl)))
    · exact .inl (.inr hworker)
    · exact .inr hnone

/-- A step of the actor that keeps the queue awake leaves it attended. -/
theorem Attended.actorStep {restartError : String} {s t : System ι κ} {reply : Reply ι}
    (h : s.Attended) (hkeeps : s.KeepsAwake (.actor reply))
    (hstep : s.ActorStep restartError t) : t.Attended := by
  cases hstep with
  | take message mailbox hphase hmailbox => exact h.handle hphase hmailbox hkeeps
  | tellDispatch hphase => exact fun _ => .inl (.inl (inFlight_tell rfl))
  | spawn dispatch hphase =>
    refine fun _ => .inl (.inr ⟨_, List.mem_append_right _ (List.mem_singleton.mpr rfl), ?_⟩)
    exact Stage.noConfusion
  | requeue jobId priority kind jobs hphase =>
    exact Attended.tell (h.move (by rw [hphase]; rfl) s.storage (.requeue jobs)) _
  | cancelFailed jobId hphase =>
    refine h.move ?_ s.storage .idle
    obtain hphase | hphase := hphase <;> rw [hphase] <;> rfl
  | markStale hphase | staleUnmarked hphase | readPending hphase | pendingUnread hphase
  | requeued hphase | loadCancelled jobId hphase | cancelStored jobId hphase
  | queryExpired jobs hphase hterminal | queryFailed hphase | deleteExpired jobId jobs hphase
  | deleteFailed jobId jobs hphase | deleted hphase =>
    exact h.move (by rw [hphase]; rfl) _ _

/-- Pending jobs stay attended when a worker other than the last one to wake goes on or ends. -/
theorem Attended.workerStep {s next : System ι κ} {before after : List (Worker ι κ)}
    {w : Worker ι κ} {w' : Option (Worker ι κ)} {reply : Reply ι} (h : s.Attended)
    (hworkers : s.workers = before ++ w :: after)
    (hkeeps : s.KeepsAwake (.worker before.length reply)) (hstep : w.Step s reply next w') :
    { next with workers := before ++ w'.toList ++ after }.Attended := by
  -- A worker that goes on to a stage before the last one has still to send its message.
  have hstays : ∀ (u : System ι κ) (stage : Stage), stage ≠ .releasePermit →
      { u with workers := before ++ (some { w with stage }).toList ++ after }.Attended :=
    fun u stage hstage _ => .inl (.inr ⟨{ w with stage }, by simp, hstage⟩)
  cases hstep with
  | markRunning storage => exact hstays _ _ Stage.noConfusion
  | loadJob => exact hstays _ _ Stage.noConfusion
  | executed result => exact hstays _ _ Stage.noConfusion
  | completeJob result storage => exact hstays _ _ Stage.noConfusion
  | failed error => exact hstays _ _ Stage.noConfusion
  | finish error =>
    refine hstays _ _ ?_
    cases error <;> exact Stage.noConfusion
  | failJob error => exact hstays _ _ Stage.noConfusion
  | failUnstored error => exact hstays _ _ Stage.noConfusion
  | tellDispatch =>
    intro _
    exact .inl
      (.inl (.inl ⟨.dispatchNext, List.mem_append_right _ (List.mem_singleton.mpr rfl), rfl⟩))
  | panicked hstage hreply =>
    subst hreply
    intro hpending
    have hdrop : (before ++ w :: after).drop (before.length + 1) = after := by simp
    have hawake := hkeeps hpending
    rw [hworkers, List.take_left, hdrop] at hawake
    rw [Option.toList_none, List.append_nil]
    exact .inl hawake
  | releasePermit hstage =>
    intro hpending
    rw [Option.toList_none, List.append_nil]
    obtain (hflight | ⟨v, hv, hne⟩) | ⟨hnil, -⟩ := h hpending
    · exact .inl (.inl hflight)
    · -- The worker that keeps the system awake is another one.
      rw [hworkers] at hv
      refine .inl (.inr ⟨v, ?_, hne⟩)
      obtain hv | hv := List.mem_append.mp hv
      · exact List.mem_append_left _ hv
      · obtain rfl | hv := List.mem_cons.mp hv
        · exact absurd hstage hne
        · exact List.mem_append_right _ hv
    · rw [hnil] at hworkers
      exact absurd hworkers.symm (List.append_ne_nil_of_right_ne_nil _ (List.cons_ne_nil _ _))

variable [ToString ι]

/-- A step that keeps the queue awake leaves it attended. -/
theorem Attended.step {restartError : String} (s : System ι κ) (a : Action ι κ) (t : System ι κ)
    (h : s.Attended) (hkeeps : s.KeepsAwake a) (hstep : s.step restartError a = some t) :
    t.Attended := by
  cases a with
  | insertPending jobId record =>
    cases hstep
    exact h.congr rfl id rfl rfl
  | tell message =>
    cases hstep
    exact h.tell message
  | actor reply => exact h.actorStep hkeeps (actorStep_cases hstep)
  | worker index reply =>
    obtain ⟨before, w, after, next, w', hworkers, rfl, hw, rfl⟩ := worker_step_cases hstep
    exact h.workerStep hworkers hkeeps (Worker.step_cases hw)

/-! ## Steps that do not keep the system awake -/

/-- The state after all workers have dropped their permits. -/
def released (s : System ι κ) : System ι κ :=
  { s with
    runner := { s.runner with available := s.runner.available + s.workers.length }, workers := [] }

/-- Workers that have sent their messages can drop their permits before anything else happens. -/
theorem run_released (restartError : String) : ∀ (workers : List (Worker ι κ)) (s : System ι κ),
    s.workers = workers → (∀ w ∈ workers, w.stage = .releasePermit) →
      run (System.step restartError) s (workers.map fun _ => .worker 0 .ok) = some s.released
  | [], s, hworkers, _ => by
    obtain ⟨storage, runner, mailbox, phase, _, started⟩ := s
    subst hworkers
    rfl
  | w :: workers, s, hworkers, hall => by
    obtain ⟨storage, runner, mailbox, phase, _, started⟩ := s
    subst hworkers
    have hstage : w.stage = .releasePermit := hall w List.mem_cons_self
    have hstep : System.step restartError ⟨storage, runner, mailbox, phase, w :: workers, started⟩
        (.worker 0 .ok) =
          some ⟨storage, runner.release, mailbox, phase, workers, started⟩ := by
      simp [System.step, Worker.step, hstage]
    have hrest := run_released restartError workers
      ⟨storage, runner.release, mailbox, phase, workers, started⟩ rfl
      fun v hv => hall v (List.mem_cons_of_mem _ hv)
    rw [List.map_cons, run, hstep, Option.bind_some, hrest]
    simp only [released, PriorityRunner.release, List.length_cons, Option.some.injEq,
      System.mk.injEq, PriorityRunner.mk.injEq, true_and, and_true]
    omega

/-- Jobs are pending in a state that is not awake, and a permit is free or held by a worker. -/
theorem exists_stranded (restartError : String) {s : System ι κ} (hawake : ¬ s.Awake)
    (hpending : s.runner.pending ≠ []) (hpermit : 0 < s.runner.available + s.workers.length) :
    ∃ trace t, run (System.step restartError) s trace = some t ∧ t.Stranded := by
  have hall : ∀ w ∈ s.workers, w.stage = .releasePermit := fun w hw =>
    by_contra fun hne => hawake (.inr ⟨w, hw, hne⟩)
  exact ⟨_, _, run_released restartError s.workers s rfl hall,
    fun hflight => hawake (.inl hflight), rfl, hpending, hpermit⟩

/-- A step that does not keep the system awake can strand the pending jobs: it is enough that the
workers drop their permits next. -/
theorem exists_stranded_of_step {restartError : String} {s t : System ι κ} {a : Action ι κ}
    (hkeeps : ¬ s.KeepsAwake a) (hstep : s.step restartError a = some t) :
    ∃ trace u, run (System.step restartError) t trace = some u ∧ u.Stranded := by
  cases a with
  | insertPending jobId record => exact absurd trivial hkeeps
  | tell message => exact absurd trivial hkeeps
  | actor reply =>
    simp only [KeepsAwake, not_forall] at hkeeps
    obtain ⟨mailbox, hphase, hmailbox, hpending, hzero, hworkers, hawake⟩ := hkeeps
    -- The message was the last in flight, and nothing was dispatched.
    have ht : t = { s with mailbox } := by
      cases reply with
      | ok =>
        simp [System.step, System.actorStep, hphase, hmailbox, System.handle,
          PriorityRunner.tryDispatch, hzero] at hstep
        rw [← hstep, hphase]
      | error message => simp [System.step, System.actorStep, hphase] at hstep
      | executed result => simp [System.step, System.actorStep, hphase] at hstep
      | panicked => simp [System.step, System.actorStep, hphase] at hstep
      | expired jobs => simp [System.step, System.actorStep, hphase] at hstep
    subst ht
    have hlength : 0 < s.workers.length := List.length_pos_iff.mpr hworkers
    -- Once the workers have given back their permits, the jobs are pending and nothing wakes the
    -- actor.
    exact exists_stranded restartError hawake hpending (Nat.add_pos_right _ hlength)
  | worker index reply =>
    cases reply with
    | ok => exact absurd trivial hkeeps
    | error message => exact absurd trivial hkeeps
    | executed result => exact absurd trivial hkeeps
    | expired jobs => exact absurd trivial hkeeps
    | panicked =>
      -- A worker that panics gives back its permit and sends no message.
      obtain ⟨before, w, after, next, w', hworkers, rfl, hw, rfl⟩ := worker_step_cases hstep
      simp only [KeepsAwake, not_forall] at hkeeps
      obtain ⟨hpending, hawake⟩ := hkeeps
      have hdrop : (before ++ w :: after).drop (before.length + 1) = after := by simp
      rw [hworkers, List.take_left, hdrop] at hawake
      obtain ⟨rfl, rfl⟩ := Worker.step_panicked hw
      rw [Option.toList_none, List.append_nil]
      exact exists_stranded restartError hawake hpending
        (Nat.add_pos_left (Nat.succ_pos s.runner.available) _)

/-- Whether pending jobs are stranded is up to the steps that do not keep the system awake. In a run
without such steps they never are, and after one the workers can strand them by dropping their
permits. -/
theorem stranded_iff (restartError : String) (storage : JobStorage ι κ) (permits : Nat) :
    (∀ trace s, Guarded (System.step restartError) KeepsAwake (start storage permits) trace →
      run (System.step restartError) (start storage permits) trace = some s → ¬ s.Stranded) ∧
    ∀ trace s a t, run (System.step restartError) (start storage permits) trace = some s →
      ¬ s.KeepsAwake a → s.step restartError a = some t →
        ∃ rest u, run (System.step restartError) (start storage permits)
          (trace ++ a :: rest) = some u ∧
          u.Stranded := by
  constructor
  · intro trace s hguarded hrun
    have hstart : (start storage permits).Attended := fun hpending => absurd rfl hpending
    exact (run_invariant Attended.step hguarded hstart hrun).not_stranded
  · intro trace s a t hrun hkeeps hstep
    obtain ⟨rest, u, hrest, hstranded⟩ := exists_stranded_of_step hkeeps hstep
    refine ⟨rest, u, run_append hrun ?_, hstranded⟩
    rw [run, hstep]
    exact hrest

end System

end Steps

/-- Two jobs are submitted where one can run. The actor takes up the `DispatchNext` of the first
one's worker before the worker has dropped its permit. -/
def earlyDispatch : List (Action Nat Unit) :=
  let record : JobRecord Unit := { status := .pending, priority := 0, kind := () }
  [.actor .ok, .actor .ok, .actor .ok,
   .insertPending 1 record, .tell (.submitJob 1 0 ()), .insertPending 2 record,
   .tell (.submitJob 2 0 ()),
   .actor .ok, .actor .ok, .actor .ok, .actor .ok, .actor .ok, .actor .ok, .actor .ok,
   .worker 0 .ok, .worker 0 .ok, .worker 0 (.executed { status := .completed }), .worker 0 .ok,
   .worker 0 .ok, .worker 0 .ok, .actor .ok, .worker 0 .ok]

/-- The second job is left in the queue with the only permit free. -/
theorem earlyDispatch_stranded :
    ∃ s, run (System.step "restart") (System.start ∅ 1) earlyDispatch = some s ∧ s.Stranded := by
  refine ⟨_, rfl, ?_⟩
  refine ⟨?_, rfl, List.cons_ne_nil _ _, Nat.one_pos⟩
  rintro (⟨m, hm, -⟩ | hphase)
  · cases hm
  · cases hphase

end QueryFabric.JobQueue
