import QueryFabric.K8s.Driver

/-!
# Whether executions touch each other

The name of a Job is made from the first characters of the query's hash, and the watcher, the
clean-up and the search for pods of an execution go by that name for as long as they last. An
execution that runs the same query again gets the name as soon as the cluster has let it go: a late
cancellation of the first one then deletes the Job of the second, and a pod of the first one that is
still there is found by the second. `executions_isolated` says that nothing of the kind happens in a
run where a Job is created only once nothing of another execution goes by its name.
-/

namespace QueryFabric.K8s

open Lib

/-- The execution may yet delete its Job or connect to a pod. -/
def Execution.isActive (execution : Execution) : Bool :=
  execution.watcher || execution.cleanup || execution.phase.isConnecting ||
    execution.phase = .streaming

namespace System

/-- Every Job that was deleted and every pod that was connected to is of the execution that did
it. -/
def Isolated (s : System) : Prop :=
  (∀ request ∈ s.deletes, ∀ job, request.target = some job → job.creator = request.execution) ∧
    ∀ connection ∈ s.connections, connection.2.creator = connection.1

/-- Nothing of another execution goes by the name: no execution that is active and no pod. -/
def NameFree (s : System) (index : Nat) (name : String) : Prop :=
  (∀ (other : Nat) (execution : Execution), s.executions[other]? = some execution → other ≠ index →
    execution.isActive = true → jobNameFor execution.spec ≠ name) ∧
  ∀ pod ∈ s.pods, selects name pod.labels = false

/-- A Job is created only under a name that is free. -/
def CreatesUnderFreeName (s : System) (a : Action) : Prop :=
  match a with
  | .create index .answered | .create index (.unanswered _) =>
    ∀ execution : Execution, s.executions[index]? = some execution →
      s.NameFree index (jobNameFor execution.spec)
  | _ => True

/-- What holds between the steps of a run whose Jobs are created under free names: what goes by the
name of an active execution is its own. -/
structure Separate (s : System) : Prop where
  isolated : s.Isolated
  names : ∀ (i j : Nat) (a b : Execution), s.executions[i]? = some a → s.executions[j]? = some b →
    a.isActive = true →
    b.isActive = true → jobNameFor a.spec = jobNameFor b.spec → i = j
  jobs : ∀ (i : Nat) (a : Execution), s.executions[i]? = some a → a.isActive = true →
    ∀ job ∈ s.jobs,
    job.name = jobNameFor a.spec → job.creator = i
  pods : ∀ (i : Nat) (a : Execution), s.executions[i]? = some a → a.isActive = true →
    ∀ pod ∈ s.pods,
    selects (jobNameFor a.spec) pod.labels = true → pod.creator = i
  labels : ∀ job ∈ s.jobs, ∀ name, selects name job.labels = decide (job.name = name)

/-- At the start no execution has touched another's job. -/
theorem separate_start : Separate start where
  isolated := ⟨fun _ h => absurd h List.not_mem_nil, fun _ h => absurd h List.not_mem_nil⟩
  names _ _ _ _ h := by cases h
  jobs _ _ h := by cases h
  pods _ _ h := by cases h
  labels _ h := absurd h List.not_mem_nil

section Steps

variable {driver : Driver} {s t : System} {a : Action}

/-- Nothing changes when no execution becomes active and nothing is added to the cluster. -/
theorem Separate.of_quiet (hs : Separate s) (hisolated : t.Isolated)
    (hexecutions : ∀ (i : Nat) (b : Execution), t.executions[i]? = some b → b.isActive = true →
      ∃ a : Execution, s.executions[i]? = some a ∧ a.isActive = true ∧ a.spec = b.spec)
    (hjobs : ∀ job ∈ t.jobs, job ∈ s.jobs) (hpods : ∀ pod ∈ t.pods, pod ∈ s.pods) : Separate t := by
  refine ⟨hisolated, ?_, ?_, ?_, fun job hjob => hs.labels job (hjobs job hjob)⟩
  · intro i j a b ha hb haactive hbactive hname
    obtain ⟨a', ha', ha'active, haspec⟩ := hexecutions i a ha haactive
    obtain ⟨b', hb', hb'active, hbspec⟩ := hexecutions j b hb hbactive
    exact hs.names i j a' b' ha' hb' ha'active hb'active (by rw [haspec, hbspec, hname])
  · intro i a ha hactive job hjob hname
    obtain ⟨a', ha', ha'active, hspec⟩ := hexecutions i a ha hactive
    exact hs.jobs i a' ha' ha'active job (hjobs job hjob) (by rw [hspec, hname])
  · intro i a ha hactive pod hpod hselects
    obtain ⟨a', ha', ha'active, hspec⟩ := hexecutions i a ha hactive
    exact hs.pods i a' ha' ha'active pod (hpods pod hpod) (by rw [hspec, hselects])

/-- An execution that goes on without becoming active. -/
theorem active_put {index : Nat} {execution new : Execution}
    (hexecution : s.executions[index]? = some execution) (hspec : new.spec = execution.spec)
    (hactive : new.isActive = true → execution.isActive = true) (i : Nat) (b : Execution)
    (hb : (s.put index new).executions[i]? = some b) (hbactive : b.isActive = true) :
    ∃ a : Execution, s.executions[i]? = some a ∧ a.isActive = true ∧ a.spec = b.spec := by
  rcases executions_put hb with ⟨rfl, rfl⟩ | ⟨-, hb⟩
  · exact ⟨execution, hexecution, hactive hbactive, hspec.symm⟩
  · exact ⟨b, hb, hbactive, rfl⟩

/-- A step within an execution that neither deletes nor connects. -/
theorem Separate.put (hs : Separate s) {index : Nat} {execution new : Execution}
    (hexecution : s.executions[index]? = some execution) (hspec : new.spec = execution.spec)
    (hactive : new.isActive = true → execution.isActive = true) : Separate (s.put index new) :=
  hs.of_quiet hs.isolated (active_put hexecution hspec hactive) (fun _ h => h) fun _ h => h

/-- The Job that an active execution deletes is its own. -/
theorem Separate.delete (hs : Separate s) {index : Nat} {execution new : Execution}
    (delivered : Bool)
    (hexecution : s.executions[index]? = some execution) (hspec : new.spec = execution.spec)
    (hactive : execution.isActive = true) :
    Separate ((s.put index new).delete index (jobNameFor execution.spec) delivered) := by
  refine hs.of_quiet ⟨fun request hrequest job hjob => ?_, hs.isolated.2⟩
    (active_put hexecution hspec fun _ => hactive) (fun job hjob => ?_) fun _ h => h
  · simp only [System.delete, System.put, List.mem_append, List.mem_singleton] at hrequest
    rcases hrequest with hrequest | rfl
    · exact hs.isolated.1 request hrequest job hjob
    · dsimp only at hjob ⊢
      split at hjob
      · have hmem := List.mem_of_find?_eq_some hjob
        have hname := List.find?_some hjob
        exact hs.jobs index execution hexecution hactive job hmem (by simpa using hname)
      · cases hjob
  · simp only [System.delete, System.put] at hjob
    split at hjob
    · exact List.mem_of_mem_filter hjob
    · exact hjob

/-- An execution that connects is active. -/
theorem isActive_of_connecting {execution : Execution} (h : execution.phase.isConnecting = true) :
    execution.isActive = true := by
  simp [Execution.isActive, h]

/-- A Job that is created under a free name belongs to nobody else. -/
theorem Separate.create (hs : Separate s) {index : Nat} {execution new : Execution}
    (hspec : new.spec = execution.spec) (hfree : s.job? (jobNameFor execution.spec) = none)
    (hname : s.NameFree index (jobNameFor execution.spec)) :
    Separate ({ s with jobs := s.jobs ++ [jobOf driver index execution] }.put index new) := by
  have hnone : ∀ job ∈ s.jobs, job.name ≠ jobNameFor execution.spec := fun job hjob => by
    simpa using List.find?_eq_none.mp hfree job hjob
  -- An active execution is this one, or it was active and has another name.
  have hother {i : Nat} {a : Execution}
      (ha :
        ({ s with jobs := s.jobs ++ [jobOf driver index execution] }.put index new).executions[i]? =
        some a) (hactive : a.isActive = true) :
      (i = index ∧ a.spec = execution.spec) ∨ (i ≠ index ∧ s.executions[i]? = some a ∧
        jobNameFor a.spec ≠ jobNameFor execution.spec) := by
    rcases executions_put ha with ⟨hi, rfl⟩ | ⟨hi, ha⟩
    · exact .inl ⟨hi, hspec⟩
    · exact .inr ⟨hi, ha, hname.1 i a ha hi hactive⟩
  refine ⟨hs.isolated, ?_, ?_, ?_, ?_⟩
  · intro i j a b ha hb haactive hbactive hab
    rcases hother ha haactive with ⟨rfl, haspec⟩ | ⟨hi, ha', hane⟩ <;>
      rcases hother hb hbactive with ⟨rfl, hbspec⟩ | ⟨hj, hb', hbne⟩
    · rfl
    · exact absurd (by rw [← haspec, hab]) hbne
    · exact absurd (by rw [hab, hbspec]) hane
    · exact hs.names i j a b ha' hb' haactive hbactive hab
  · intro i a ha hactive job hjob hjobname
    rw [System.put, List.mem_append, List.mem_singleton] at hjob
    rcases hother ha hactive with ⟨rfl, haspec⟩ | ⟨hi, ha', hane⟩
    · rcases hjob with hjob | rfl
      · exact absurd (by rw [hjobname, haspec]) (hnone job hjob)
      · rfl
    · rcases hjob with hjob | rfl
      · exact hs.jobs i a ha' hactive job hjob hjobname
      · exact absurd hjobname.symm hane
  · intro i a ha hactive pod hpod hselects
    rcases hother ha hactive with ⟨rfl, haspec⟩ | ⟨hi, ha', hane⟩
    · rw [haspec, hname.2 pod hpod] at hselects
      cases hselects
    · exact hs.pods i a ha' hactive pod hpod hselects
  · intro job hjob name
    rw [System.put, List.mem_append, List.mem_singleton] at hjob
    rcases hjob with hjob | rfl
    · exact hs.labels job hjob name
    · exact selects_labelsForJob name _ _

/-- A guarded step keeps the executions separate. -/
theorem Separate.step (hs : Separate s) (hguard : CreatesUnderFreeName s a)
    (h : s.step driver a = some t) : Separate t := by
  -- By what a step can do: only a creation labels a new job, and by the guard its name is free.
  cases step_effect h with
  | spawned spec token phase hphase =>
    refine hs.of_quiet hs.isolated (fun i b hb hactive => ?_) (fun _ h => h) fun _ h => h
    rw [List.getElem?_append] at hb
    split at hb
    · exact ⟨b, hb, hactive, rfl⟩
    · obtain rfl := List.mem_singleton.mp (List.mem_of_getElem? hb)
      rcases hphase with rfl | ⟨error, rfl⟩ <;>
        simp [Execution.isActive, Phase.isConnecting] at hactive
  | cancelled token =>
    exact hs.of_quiet hs.isolated (fun i b hb hactive => ⟨b, hb, hactive, rfl⟩)
      (fun _ h => h) fun _ h => h
  -- The cluster drops jobs, and makes pods with the labels and the creator of a job that is there.
  | cluster jobs pods hjobs hpods =>
    refine ⟨hs.isolated, hs.names, fun i a ha hactive job hjob => hs.jobs i a ha hactive job
      (hjobs job hjob), fun i a ha hactive pod hpod hselects => ?_, fun job hjob => hs.labels job
      (hjobs job hjob)⟩
    rcases hpods pod hpod with ⟨old, hold, hlabels, hcreator⟩ | ⟨job, hjob, hlabels, hcreator⟩
    · rw [← hcreator]
      exact hs.pods i a ha hactive old hold (by rw [hlabels, hselects])
    · rw [← hcreator]
      rw [← hlabels, hs.labels job hjob, decide_eq_true_eq] at hselects
      exact hs.jobs i a ha hactive job hjob hselects
  | created index execution haction hexecution hphase hfree =>
    subst haction
    exact hs.create rfl hfree (hguard execution hexecution)
  | refused index execution error haction hexecution hphase =>
    exact hs.put hexecution rfl (by
      simp [Execution.isActive, createError, Phase.isConnecting]; grind)
  | lost index execution error haction hexecution hphase hfree =>
    subst haction
    exact hs.create rfl hfree (hguard execution hexecution)
  -- The other steps change the phase of an execution and leave the cluster alone.
  | moved index execution phase hactor hexecution hfrom =>
    exact hs.put hexecution rfl fun _ => isActive_of_connecting hfrom
  -- The pod was selected by the execution's own labels, so it belongs to its own job.
  | connected index execution pod endpoint hactor hexecution hphase hpod =>
    have hactive : execution.isActive = true := isActive_of_connecting (by rw [hphase]; rfl)
    refine hs.of_quiet ⟨hs.isolated.1, fun connection hconnection => ?_⟩
      (active_put hexecution rfl fun _ => hactive) (fun _ h => h) fun _ h => h
    simp only [System.put, List.mem_append, List.mem_singleton] at hconnection
    rcases hconnection with hconnection | rfl
    · exact hs.isolated.2 connection hconnection
    · obtain ⟨hmem, hselects⟩ := List.mem_filter.mp hpod
      exact hs.pods index execution hexecution hactive pod hmem hselects
  | aborted index execution error hactor hexecution hfrom =>
    exact hs.put hexecution rfl fun _ => isActive_of_connecting hfrom
  | ended index execution phase hactor hexecution hphase =>
    exact hs.put hexecution rfl fun _ => by simp [Execution.isActive, hphase]
  | dropped index execution hactor hexecution hphase =>
    exact hs.put hexecution rfl (by simp [Execution.isActive, Phase.isConnecting, hphase])
  | watched index execution delivered hactor hexecution hwatcher =>
    exact hs.delete delivered hexecution rfl (by simp [Execution.isActive, hwatcher])
  | cleaned index execution delivered hactor hexecution hcleanup =>
    exact hs.delete delivered hexecution rfl (by simp [Execution.isActive, hcleanup])

end Steps

/-- In every run whose Jobs are created under free names, every Job that is deleted and every pod
that is connected to belongs to the execution that does it. -/
theorem executions_isolated (driver : Driver) (actions : List Action) (t : System)
    (hguard : Guarded (System.step driver) CreatesUnderFreeName start actions)
    (hrun : run (System.step driver) start actions = some t) : t.Isolated :=
  (run_invariant (fun _ _ _ hs hguard h => Separate.step hs hguard h) hguard separate_start
    hrun).isolated

/-- An execution of `SELECT 2`. -/
def selectTwoSpec : IsolatedJobSpec :=
  { selectOneSpec with
    query := .new "sql" "SELECT 2"
      "690a2e1e95fc4f4f6ae79bc0fb8637f738be1d56396f871e24229d8954dd6887" ⟨0, 8⟩ }

/-- Two executions side by side, of which the first is cancelled while the second is connected to
its pod. -/
def cancelledBeside : List Action :=
  [.spawn selectOneSpec 1, .create 0 .answered, .cluster (.podCreated 0 (some "worker-0")),
    .spawn selectTwoSpec 2, .create 1 .answered, .cluster (.podCreated 1 (some "worker-1")),
    .cluster (.podStatus 1 ⟨some "10.0.0.8", some "Running", some [("Ready", "True")]⟩),
    .poll 1 false, .list 1 none, .connect 1 .ok, .cancel 1, .watch 0 true]

/-- The Job of the second execution is created beside the first one and its pod, under a name that
they do not go by. -/
theorem cancelledBeside_guarded :
    Guarded (System.step plainDriver) CreatesUnderFreeName start cancelledBeside := by
  -- The two creations are the guarded steps: the first, and the one after the pod.
  refine ⟨trivial, fun s hfirst => ⟨?_, fun s hcreated => ⟨trivial, fun s hpod => ⟨trivial,
    fun s hsecond => ⟨?_, fun s _ => ?_⟩⟩⟩⟩⟩
  · cases hfirst
    intro execution _
    refine ⟨fun other found hfound hother => ?_, List.forall_mem_nil _⟩
    match other, hfound with
    | 0, _ => exact absurd rfl hother
    | other + 1, hfound => cases hfound
  · cases hfirst
    cases hcreated
    cases hpod
    cases hsecond
    intro execution hexecution
    cases hexecution
    refine ⟨fun other found hfound hother _ => ?_,
      List.forall_mem_singleton.mpr (by decide +kernel)⟩
    -- The other execution is under another job name.
    match other, hfound with
    | 0, hfound =>
      cases hfound
      decide +kernel
    | 1, _ => exact absurd rfl hother
    | other + 2, hfound => cases hfound
  · iterate 7 refine ⟨trivial, fun _ _ => ?_⟩
    exact trivial

/-- The first execution deletes its own Job, and the second one is connected to its own pod. -/
theorem cancelledBeside_isolated :
    ∃ t, run (System.step plainDriver) start cancelledBeside = some t ∧ t.Isolated ∧
      t.deletes.map (fun request => (request.execution, request.target.map Job.creator)) =
        [(0, some 0)] ∧
      t.connections.map Prod.fst = [1] :=
  ⟨_, rfl, executions_isolated plainDriver cancelledBeside _ cancelledBeside_guarded rfl, rfl, rfl⟩

/-- The same query runs again after its first execution has ended, and the first one is cancelled
late. -/
def cancelledAfterRerun : List Action :=
  [.spawn selectOneSpec 1, .create 0 .answered, .cluster (.podCreated 0 (some "worker-0")),
    .cluster (.podStatus 0 ⟨some "10.0.0.7", some "Running", some [("Ready", "True")]⟩),
    .poll 0 false, .list 0 none, .connect 0 .ok, .doGet 0 .ok, .endStream 0, .cleanup 0 true,
    .cluster (.podRemoved 0), .spawn selectOneSpec 2, .create 1 .answered, .cancel 1, .watch 0 true]

/-- The watcher of the first execution deletes the Job of the second. -/
theorem cancelledAfterRerun_deletes_other :
    ∃ t, run (System.step plainDriver) start cancelledAfterRerun = some t ∧ ¬t.Isolated := by
  refine ⟨_, rfl, fun h => ?_⟩
  have hcreator := h.1 _ (List.mem_of_getElem? (i := 1) rfl) _ rfl
  revert hcreator
  decide

end System

end QueryFabric.K8s
