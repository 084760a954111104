import QueryFabric.JobQueue.Runner
import QueryFabric.Lib.Runs
import Mathlib.Data.List.Perm.Basic

/-!
# The runner is a priority queue that is first in, first out

`PriorityRunner` under any sequence of its operations. A `Session` keeps beside the runner the
permits that its callers hold and a log of what was submitted, dispatched and removed, which no
operation of the runner reads. The jobs of the log that still wait, in the order of submission, say
what the heap stands for (`Session.waiting`), and `isFifo_run` says that the heap is never more or
less than these.
-/

namespace QueryFabric.JobQueue

/-! ## The order of dispatch -/

section Order

variable {ι κ : Type}

/-- An entry is before another by priority and then by its number. -/
theorem Entry.before_iff {a b : Entry ι κ} :
    a.before b = true ↔ a.priority < b.priority ∨ (a.priority = b.priority ∧ a.seq < b.seq) := by
  simp [Entry.before]

/-- The order of entries is transitive. -/
theorem Entry.before_trans {a b c : Entry ι κ} (hab : a.before b = true) (hbc : b.before c = true) :
    a.before c = true := by
  rw [Entry.before_iff] at hab hbc ⊢
  omega

/-- Of two entries only one is before the other. -/
theorem Entry.not_before {a b : Entry ι κ} (hab : a.before b = true) : b.before a ≠ true := by
  intro hba
  rw [Entry.before_iff] at hab hba
  omega

/-- Of two entries with different numbers one is before the other. -/
theorem Entry.before_of_not {a b : Entry ι κ} (hseq : a.seq ≠ b.seq) (h : ¬a.before b = true) :
    b.before a = true := by
  rw [Entry.before_iff] at h ⊢
  omega

/-- The sequence numbers of entries are distinct. -/
def Numbered (entries : List (Entry ι κ)) : Prop := entries.Pairwise fun a b => a.seq ≠ b.seq

/-- The numbers of a queue are those of its permutations. -/
theorem Numbered.perm {entries entries' : List (Entry ι κ)} (h : Numbered entries)
    (hperm : entries.Perm entries') :
    Numbered entries' :=
  (hperm.pairwise_iff fun hne => hne.symm).mp h

/-- The entry that is popped comes before all others. -/
theorem pop_before : ∀ {entries : List (Entry ι κ)} {first : Entry ι κ} {rest : List (Entry ι κ)},
    Numbered entries →
    pop entries = some (first, rest) → ∀ entry ∈ rest, first.before entry = true
  | [], _, _, _, h => by cases h
  | entry :: entries, first, rest, hnumbered, h => by
    obtain ⟨hne, htail⟩ := List.pairwise_cons.mp hnumbered
    rw [pop] at h
    split at h
    · cases h
      exact List.forall_mem_nil _
    · rename_i least others hpop
      have hleast := pop_before htail hpop
      have hmem : least ∈ entries := (pop_perm hpop).mem_iff.mpr List.mem_cons_self
      split at h
      · rename_i hbefore
        cases h
        exact List.forall_mem_cons.mpr ⟨hbefore, hleast⟩
      · rename_i hnot
        cases h
        have hfirst := Entry.before_of_not (hne least hmem).symm hnot
        exact List.forall_mem_cons.mpr
          ⟨hfirst, fun other hother => Entry.before_trans hfirst (hleast other hother)⟩

/-- So many entries, each popped from the heap that the others leave. -/
def drain : Nat → List (Entry ι κ) → List (Entry ι κ)
  | 0, _ => []
  | n + 1, entries =>
    match pop entries with
    | none => []
    | some (first, rest) => first :: drain n rest

/-- The entries of a heap in the order in which they would be popped. -/
def dispatchOrder (entries : List (Entry ι κ)) : List (Entry ι κ) := drain entries.length entries

/-- Popping a queue to its end takes every entry once. -/
theorem drain_perm : ∀ {n : Nat} {entries : List (Entry ι κ)},
    entries.length = n → (drain n entries).Perm entries
  | 0, entries, h => by
    rw [List.eq_nil_of_length_eq_zero h]
    exact .nil
  | n + 1, entries, h => by
    unfold drain
    split
    · rename_i hnone
      rw [pop_eq_none hnone]
    · rename_i first rest hsome
      have hperm := pop_perm hsome
      have hlength := hperm.length_eq
      rw [List.length_cons] at hlength
      exact ((drain_perm (by omega)).cons first).trans hperm.symm

/-- An entry that is popped was in the queue. -/
theorem mem_of_mem_drain : ∀ {n : Nat} {entries : List (Entry ι κ)} {entry : Entry ι κ},
    entry ∈ drain n entries →
    entry ∈ entries
  | 0, _, _, h => by cases h
  | n + 1, entries, entry, h => by
    unfold drain at h
    split at h
    · cases h
    · rename_i first rest hsome
      refine (pop_perm hsome).mem_iff.mpr ?_
      obtain rfl | hmem := List.mem_cons.mp h
      · exact List.mem_cons_self
      · exact List.mem_cons_of_mem _ (mem_of_mem_drain hmem)

/-- The entries come out in their order. -/
theorem pairwise_drain : ∀ {n : Nat} {entries : List (Entry ι κ)}, Numbered entries →
    (drain n entries).Pairwise fun a b => a.before b = true
  | 0, _, _ => .nil
  | n + 1, entries, h => by
    unfold drain
    split
    · exact .nil
    · rename_i first rest hsome
      have hrest : Numbered rest := (List.pairwise_cons.mp (h.perm (pop_perm hsome))).2
      refine .cons (fun entry hentry => ?_) (pairwise_drain hrest)
      -- What is drained later was in the heap that the first left.
      have hmem : entry ∈ rest := mem_of_mem_drain hentry
      exact pop_before h hsome entry hmem

/-- The order of dispatch does not depend on how the heap lies. -/
theorem dispatchOrder_eq {entries sorted : List (Entry ι κ)} (h : Numbered entries)
    (hperm : sorted.Perm entries)
    (hsorted : sorted.Pairwise fun a b => a.before b = true) : dispatchOrder entries = sorted := by
  have hdrain : (dispatchOrder entries).Perm sorted := (drain_perm rfl).trans hperm.symm
  refine hdrain.eq_of_pairwise ?_ (pairwise_drain h) hsorted
  exact fun a b _ _ hab hba => absurd hba (Entry.not_before hab)

/-- Taking entries out leaves the order of the others. -/
theorem dispatchOrder_filter {entries : List (Entry ι κ)} (h : Numbered entries)
    (p : Entry ι κ → Bool) :
    dispatchOrder (entries.filter p) = (dispatchOrder entries).filter p := by
  have hperm : ((dispatchOrder entries).filter p).Perm (entries.filter p) :=
    (drain_perm rfl).filter p
  exact dispatchOrder_eq (h.sublist List.filter_sublist) hperm
    ((pairwise_drain h).sublist List.filter_sublist)

end Order

/-! ## Sessions -/

/-- What was submitted. -/
structure Job (ι κ : Type) where
  jobId : ι
  priority : Int
  kind : κ
deriving DecidableEq, Repr

/-- The job of an entry. -/
def Entry.job {ι κ : Type} (entry : Entry ι κ) : Job ι κ :=
  { jobId := entry.jobId, priority := entry.priority, kind := entry.kind }

/-- What `PriorityRunner::cancel` did with the request. -/
inductive CancelOutcome
  | removedFromQueue
  | signalledRunning
  | notFound
deriving DecidableEq, Repr

/-- The outcome that `PriorityRunner::cancel` returns. -/
def PriorityRunner.cancelOutcome {ι κ : Type} [DecidableEq ι] (runner : PriorityRunner ι κ)
    (jobId : ι) :
    CancelOutcome :=
  match runner.running.lookup jobId with
  | some _ => .signalledRunning
  | none => if runner.pending.any fun entry => decide (entry.jobId = jobId) then
      .removedFromQueue else .notFound

/-- A runner with the permits that its callers hold, and a log of the jobs that were submitted, and
of those that were dispatched or removed from the queue. -/
structure Session (ι κ : Type) where
  runner : PriorityRunner ι κ
  held : List (Dispatch ι κ) := []
  submitted : List (Job ι κ) := []
  dispatched : List ι := []
  removed : List ι := []

/-- What can happen next to a session. -/
inductive SessionAction (ι κ : Type)
  | submit (job : Job ι κ)
  | tryDispatch
  | cancel (jobId : ι)
  | finish (jobId : ι)
  | release (dispatch : Dispatch ι κ)

namespace Session

variable {ι κ : Type}

/-- A runner with so many permits. -/
def start (permits : Nat) : Session ι κ := { runner := { available := permits } }

/-- The ids of the jobs submitted so far. -/
def submittedIds (s : Session ι κ) : List ι := s.submitted.map Job.jobId

variable [DecidableEq ι]

/-- The jobs that are neither dispatched nor removed, in the order of their submission. -/
def waiting (s : Session ι κ) : List (Job ι κ) :=
  s.submitted.filter fun job => decide (job.jobId ∉ s.dispatched ∧ job.jobId ∉ s.removed)

/-- A job is submitted once. The permit of a job is held as long as it runs: a worker drops its
permit after `finish`, or when it was cancelled. -/
def step [DecidableEq κ] (s : Session ι κ) : SessionAction ι κ → Option (Session ι κ)
  | .submit job =>
    if job.jobId ∈ s.submittedIds then none
    else some { s with
      runner := s.runner.submit job.jobId job.priority job.kind
      submitted := s.submitted ++ [job] }
  | .tryDispatch =>
    match s.runner.tryDispatch with
    | none => some s
    | some (dispatch, runner) => some { s with
      runner
      held := dispatch :: s.held
      dispatched := dispatch.jobId :: s.dispatched }
  | .cancel jobId => some { s with
      runner := s.runner.cancel jobId
      removed := if s.runner.cancelOutcome jobId = .removedFromQueue then
        jobId :: s.removed else s.removed }
  | .finish jobId => some { s with runner := s.runner.finish jobId }
  | .release dispatch =>
    if dispatch ∈ s.held ∧ dispatch.jobId ∉ s.runner.running then
      some { s with runner := s.runner.release, held := s.held.erase dispatch }
    else none

/-- The runner of a session is a priority queue, first in first out: the heap holds the waiting jobs
and no others, a dispatch takes the first of the least priority among them and cancelling leaves the
order of the others, no job is dispatched twice or both dispatched and removed, and no more jobs run
than permits are held. -/
structure IsFifo (permits : Nat) (s : Session ι κ) : Prop where
  pending : (s.runner.pending.map Entry.job).Perm s.waiting
  dispatch : ∀ dispatch next, s.runner.tryDispatch = some (dispatch, next) →
    ∃ (before : List (Job ι κ)) (job : Job ι κ) (after : List (Job ι κ)), s.waiting = before ++
      job :: after ∧ dispatch.jobId = job.jobId ∧ dispatch.kind = job.kind ∧
      (∀ other ∈ before, job.priority < other.priority) ∧ ∀ other ∈ after,
        job.priority ≤ other.priority
  cancel : ∀ jobId, dispatchOrder (s.runner.cancel jobId).pending =
    (dispatchOrder s.runner.pending).filter fun entry => decide (entry.jobId ≠ jobId)
  once : s.dispatched.Nodup
  removed : ∀ jobId ∈ s.removed, jobId ∉ s.dispatched
  running : s.runner.running.keys.length ≤ s.held.length
  permits : s.runner.available + s.held.length = permits

/-! ## What every operation keeps -/

/-- Entries stand for jobs: in the order of their numbers, none of which is used again. -/
structure Lists (entries : List (Entry ι κ)) (runner : PriorityRunner ι κ)
    (jobs : List (Job ι κ)) : Prop where
  perm : entries.Perm runner.pending
  sorted : entries.Pairwise fun a b => a.seq < b.seq
  jobs : entries.map Entry.job = jobs
  seq : ∀ entry ∈ entries, entry.seq ≤ runner.seq

omit [DecidableEq ι] in
/-- A queue that lists jobs is numbered. -/
theorem Lists.numbered {entries : List (Entry ι κ)} {runner : PriorityRunner ι κ}
    {jobs : List (Job ι κ)} (h : Lists entries runner jobs) : Numbered runner.pending :=
  Numbered.perm (h.sorted.imp fun hlt => Nat.ne_of_lt hlt) h.perm

omit [DecidableEq ι] in
/-- Submitting a job puts it at the end of the jobs listed. -/
theorem Lists.submit {entries : List (Entry ι κ)} {runner : PriorityRunner ι κ}
    {jobs : List (Job ι κ)} (h : Lists entries runner jobs) (job : Job ι κ) :
    ∃ entries', Lists entries' (runner.submit job.jobId job.priority job.kind) (jobs ++ [job]) := by
  refine ⟨entries ++ [⟨job.jobId, job.priority, runner.seq + 1, job.kind⟩], ?_, ?_, ?_, ?_⟩
  · exact List.perm_append_singleton _ _ |>.trans (h.perm.cons _)
  · refine List.pairwise_append.mpr
      ⟨h.sorted, List.pairwise_singleton _ _, fun entry hentry last hlast => ?_⟩
    have hle := h.seq entry hentry
    rw [List.mem_singleton.mp hlast]
    exact Nat.lt_succ_of_le hle
  · rw [List.map_append, h.jobs]
    rfl
  · intro entry hentry
    obtain hentry | hentry := List.mem_append.mp hentry
    · exact Nat.le_succ_of_le (h.seq entry hentry)
    · rw [List.mem_singleton.mp hentry]
      exact Nat.le_refl _

/-- Taking the entries of a job out of the heap takes the job out. -/
theorem Lists.remove {entries : List (Entry ι κ)} {runner : PriorityRunner ι κ}
    {jobs : List (Job ι κ)}
    (h : Lists entries runner jobs) (jobId : ι) {next : PriorityRunner ι κ}
    (hseq : next.seq = runner.seq) (hpending :
      next.pending.Perm (runner.pending.filter fun entry => decide (entry.jobId ≠ jobId))) :
    Lists (entries.filter fun entry => decide (entry.jobId ≠ jobId)) next
      (jobs.filter fun job => decide (job.jobId ≠ jobId)) where
  perm := (h.perm.filter _).trans hpending.symm
  sorted := h.sorted.sublist List.filter_sublist
  jobs := by
    rw [← h.jobs, List.filter_map]
    rfl
  seq := by
    intro entry hentry
    rw [hseq]
    exact h.seq entry (List.mem_of_mem_filter hentry)

omit [DecidableEq ι] in
/-- The heap and its numbers are all that matters of the runner. -/
theorem Lists.congr {entries : List (Entry ι κ)} {runner next : PriorityRunner ι κ}
    {jobs : List (Job ι κ)}
    (h : Lists entries runner jobs) (hseq : next.seq = runner.seq)
    (hpending : next.pending = runner.pending) :
    Lists entries next jobs where
  perm := hpending ▸ h.perm
  sorted := h.sorted
  jobs := h.jobs
  seq := hseq ▸ h.seq

/-- What a session keeps: the heap stands for the waiting jobs, the log is of submitted jobs and
says each thing once, and the permits of the running jobs are held. -/
structure Keeps (permits : Nat) (s : Session ι κ) : Prop where
  queue : ∃ entries, Lists entries s.runner s.waiting
  ids : s.submittedIds.Nodup
  dispatchedIds : s.dispatched ⊆ s.submittedIds
  removedIds : s.removed ⊆ s.submittedIds
  once : s.dispatched.Nodup
  removed : ∀ jobId ∈ s.removed, jobId ∉ s.dispatched
  held : ∀ jobId ∈ s.runner.running, jobId ∈ s.held.map Dispatch.jobId
  heldIds : s.held.map Dispatch.jobId ⊆ s.dispatched
  permits : s.runner.available + s.held.length = permits

section Steps

variable {permits : Nat} {s : Session ι κ}

/-- A waiting job is submitted, and neither dispatched nor removed. -/
theorem mem_submittedIds_of_waiting {job : Job ι κ} (h : job ∈ s.waiting) :
    job.jobId ∈ s.submittedIds ∧ job.jobId ∉ s.dispatched ∧ job.jobId ∉ s.removed := by
  obtain ⟨hmem, hnot⟩ := List.mem_filter.mp h
  exact ⟨List.mem_map_of_mem hmem, of_decide_eq_true hnot⟩

/-- No job waits twice. -/
theorem Keeps.waiting_nodup (h : Keeps permits s) : (s.waiting.map Job.jobId).Nodup :=
  h.ids.sublist (List.filter_sublist.map Job.jobId)

/-- The jobs that wait when one more is out. -/
theorem filter_waiting {t : Session ι κ} {jobId : ι} (hsubmitted : t.submitted = s.submitted)
    (hout : ∀ id, id ∈ t.dispatched ∨ id ∈ t.removed ↔ id = jobId ∨ id ∈ s.dispatched ∨
      id ∈ s.removed) :
    (s.waiting.filter fun job => decide (job.jobId ≠ jobId)) = t.waiting := by
  unfold waiting
  rw [List.filter_filter, hsubmitted]
  refine List.filter_congr fun job _ => ?_
  have hjob := not_congr (hout job.jobId)
  rw [not_or, not_or, not_or] at hjob
  rw [← Bool.decide_and]
  exact decide_eq_decide.mpr hjob.symm

/-- The heap holds the waiting jobs. -/
theorem Keeps.pending_perm (h : Keeps permits s) :
    (s.runner.pending.map Entry.job).Perm s.waiting := by
  obtain ⟨entries, hlists⟩ := h.queue
  rw [← hlists.jobs]
  exact (hlists.perm.map Entry.job).symm

/-- Submitting a new job keeps the session's invariant. -/
theorem Keeps.submit (h : Keeps permits s) {job : Job ι κ} (hnew : job.jobId ∉ s.submittedIds) :
    Keeps permits { s with
      runner := s.runner.submit job.jobId job.priority job.kind,
      submitted := s.submitted ++ [job] } := by
  have hids : (s.submitted ++ [job]).map Job.jobId = s.submittedIds ++ [job.jobId] :=
    List.map_append
  have hmore : s.submittedIds ⊆ (s.submitted ++ [job]).map Job.jobId := by
    rw [hids]
    exact List.subset_append_left _ _
  obtain ⟨entries, hlists⟩ := h.queue
  -- The new job was neither dispatched nor removed, so it waits last.
  have hwaiting : (s.submitted ++ [job]).filter
      (fun job => decide (job.jobId ∉ s.dispatched ∧ job.jobId ∉ s.removed)) =
          s.waiting ++ [job] := by
    have hout : job.jobId ∉ s.dispatched ∧ job.jobId ∉ s.removed :=
      ⟨fun hmem => hnew (h.dispatchedIds hmem), fun hmem => hnew (h.removedIds hmem)⟩
    rw [List.filter_append, List.filter_singleton, decide_eq_true hout]
    rfl
  refine { h with queue := ?_, ids := ?_, dispatchedIds := ?_, removedIds := ?_ }
  · show ∃ entries, Lists entries _ (List.filter _ (s.submitted ++ [job]))
    rw [hwaiting]
    exact hlists.submit job
  · show ((s.submitted ++ [job]).map Job.jobId).Nodup
    rw [hids]
    refine List.nodup_append.mpr
      ⟨h.ids, List.nodup_singleton _, fun jobId hmem last hlast heq => hnew ?_⟩
    rw [← List.mem_singleton.mp hlast, ← heq]
    exact hmem
  · exact List.Subset.trans h.dispatchedIds hmore
  · exact List.Subset.trans h.removedIds hmore

/-- What a dispatch takes out of the heap. -/
theorem tryDispatch_eq {runner next : PriorityRunner ι κ} {dispatch : Dispatch ι κ}
    (h : runner.tryDispatch = some (dispatch, next)) :
    ∃ entry rest, pop runner.pending = some (entry, rest) ∧ runner.available ≠ 0 ∧
      dispatch = { jobId := entry.jobId, kind := entry.kind, token := runner.nextToken } ∧
      next = { runner with
        available := runner.available - 1
        pending := rest
        running := runner.running.insert entry.jobId (runner.nextToken, entry.kind)
        nextToken := runner.nextToken + 1 } := by
  unfold PriorityRunner.tryDispatch at h
  split at h
  · cases h
  · rename_i havailable
    obtain ⟨popped, hpop, heq⟩ := Option.map_eq_some_iff.mp h
    cases heq
    exact ⟨popped.1, popped.2, hpop, havailable, rfl, rfl⟩

/-- The heap without its first entry holds the entries of all other jobs. -/
theorem Keeps.rest_perm (h : Keeps permits s) {entry : Entry ι κ} {rest : List (Entry ι κ)}
    (hpop : pop s.runner.pending = some (entry, rest)) :
    rest.Perm (s.runner.pending.filter fun other => decide (other.jobId ≠ entry.jobId)) := by
  have hperm := pop_perm hpop
  have hids : (s.runner.pending.map Entry.jobId).Nodup := by
    have hmap := (h.pending_perm.map Job.jobId).nodup_iff.mpr h.waiting_nodup
    rwa [List.map_map] at hmap
  have hcons := (hperm.map Entry.jobId).nodup_iff.mp hids
  have hothers (other : Entry ι κ) (hother : other ∈ rest) :
      decide (other.jobId ≠ entry.jobId) = true :=
    decide_eq_true fun heq => (List.nodup_cons.mp hcons).1 (heq ▸ List.mem_map_of_mem hother)
  have hfilter := hperm.filter fun other => decide (other.jobId ≠ entry.jobId)
  rw [List.filter_cons_of_neg (by simp), List.filter_eq_self.mpr hothers] at hfilter
  exact hfilter.symm

/-- A dispatch keeps the session's invariant. -/
theorem Keeps.dispatch (h : Keeps permits s) {dispatch : Dispatch ι κ} {next : PriorityRunner ι κ}
    (hdispatch : s.runner.tryDispatch = some (dispatch, next)) :
    Keeps permits { s with
      runner := next, held := dispatch :: s.held,
      dispatched := dispatch.jobId :: s.dispatched } := by
  -- The entry is the one that the heap pops, and it takes a permit.
  obtain ⟨entry, rest, hpop, havailable, rfl, rfl⟩ := tryDispatch_eq hdispatch
  obtain ⟨entries, hlists⟩ := h.queue
  -- It was waiting, so it was neither dispatched nor removed.
  have hwaits : entry.job ∈ s.waiting :=
    h.pending_perm.mem_iff.mp (List.mem_map_of_mem ((pop_perm hpop).mem_iff.mpr List.mem_cons_self))
  obtain ⟨hsubmitted, hfresh, hnot⟩ := mem_submittedIds_of_waiting hwaits
  have hwaiting :=
    @filter_waiting ι κ _ s { s with dispatched := entry.jobId :: s.dispatched } entry.jobId rfl
    fun id => by rw [List.mem_cons, or_assoc]
  -- Without its job the entries list the jobs that still wait.
  have hremoved : Lists (entries.filter fun other => decide (other.jobId ≠ entry.jobId))
      { s.runner with
        available := s.runner.available - 1
        pending := rest
        running := s.runner.running.insert entry.jobId (s.runner.nextToken, entry.kind)
        nextToken := s.runner.nextToken + 1 }
          (s.waiting.filter fun job => decide (job.jobId ≠ entry.jobId)) :=
    hlists.remove entry.jobId rfl (h.rest_perm hpop)
  refine { h with queue := ⟨_, hwaiting ▸ hremoved⟩
                  dispatchedIds := ?_, once := ?_, removed := ?_, held := ?_, heldIds := ?_,
                  permits := ?_ }
  · exact List.cons_subset.mpr ⟨hsubmitted, h.dispatchedIds⟩
  · exact List.nodup_cons.mpr ⟨hfresh, h.once⟩
  · intro jobId hmem hdispatched
    obtain rfl | hold := List.mem_cons.mp hdispatched
    · exact hnot hmem
    · exact h.removed jobId hmem hold
  · intro jobId hmem
    obtain rfl | hold := (AList.mem_insert _).mp hmem
    · exact List.mem_cons_self
    · exact List.mem_cons_of_mem _ (h.held jobId hold)
  · exact List.cons_subset_cons _ h.heldIds
  -- The permit goes from the free ones to the held ones.
  · have hpermits := h.permits
    show s.runner.available - 1 + (s.held.length + 1) = permits
    omega

/-- The cancelled job is in the heap just when it waits. -/
theorem Keeps.any_pending_iff (h : Keeps permits s) (jobId : ι) :
    (s.runner.pending.any fun entry => decide (entry.jobId = jobId)) = true ↔
      ∃ job ∈ s.waiting, job.jobId = jobId := by
  rw [List.any_eq_true]
  constructor
  · rintro ⟨entry, hentry, heq⟩
    exact ⟨entry.job, h.pending_perm.mem_iff.mp (List.mem_map_of_mem hentry), of_decide_eq_true heq⟩
  · rintro ⟨job, hjob, heq⟩
    obtain ⟨entry, hentry, rfl⟩ := List.mem_map.mp (h.pending_perm.mem_iff.mpr hjob)
    exact ⟨entry, hentry, decide_eq_true heq⟩

/-- A cancellation keeps the session's invariant. -/
theorem Keeps.cancel (h : Keeps permits s) (jobId : ι) :
    Keeps permits { s with
      runner := s.runner.cancel jobId
      removed := if s.runner.cancelOutcome jobId = .removedFromQueue then
        jobId :: s.removed else s.removed } := by
  obtain ⟨entries, hlists⟩ := h.queue
  unfold PriorityRunner.cancel PriorityRunner.cancelOutcome
  cases hrunning : s.runner.running.lookup jobId with
  | some running =>
    -- A running job is not in the heap.
    have hrest (id : ι) (hmem : id ∈ s.runner.running.erase jobId) :
        id ∈ s.held.map Dispatch.jobId :=
      h.held id (AList.mem_erase.mp hmem).2
    exact { h with queue := ⟨entries, hlists.congr rfl rfl⟩, held := hrest }
  | none =>
    have hremoved : Lists (entries.filter fun entry => decide (entry.jobId ≠ jobId))
        { s.runner with pending := s.runner.pending.filter fun entry =>
                          decide (entry.jobId ≠ jobId) }
        (s.waiting.filter fun job => decide (job.jobId ≠ jobId)) :=
          hlists.remove jobId rfl (.refl _)
    by_cases hany : (s.runner.pending.any fun entry => decide (entry.jobId = jobId)) = true
    · obtain ⟨job, hjob, rfl⟩ := (h.any_pending_iff jobId).mp hany
      obtain ⟨hsubmitted, hfresh, -⟩ := mem_submittedIds_of_waiting hjob
      have hwaiting :=
        @filter_waiting ι κ _ s { s with removed := job.jobId :: s.removed } job.jobId rfl
        fun id => by rw [List.mem_cons, or_left_comm]
      rw [hany]
      refine { h with queue := ⟨_, hwaiting ▸ hremoved⟩, removedIds := ?_, removed := ?_ }
      · exact List.cons_subset.mpr ⟨hsubmitted, h.removedIds⟩
      · exact List.forall_mem_cons.mpr ⟨hfresh, h.removed⟩
    · have hall (job : Job ι κ) (hjob : job ∈ s.waiting) : decide (job.jobId ≠ jobId) = true :=
        decide_eq_true fun heq => hany ((h.any_pending_iff jobId).mpr ⟨job, hjob, heq⟩)
      rw [List.filter_eq_self.mpr hall] at hremoved
      rw [Bool.not_eq_true _ |>.mp hany]
      exact { h with queue := ⟨_, hremoved⟩ }

/-- A finished job keeps the session's invariant. -/
theorem Keeps.finish (h : Keeps permits s) (jobId : ι) :
    Keeps permits { s with runner := s.runner.finish jobId } := by
  obtain ⟨entries, hlists⟩ := h.queue
  have hrest (id : ι) (hmem : id ∈ s.runner.running.erase jobId) : id ∈ s.held.map Dispatch.jobId :=
    h.held id (AList.mem_erase.mp hmem).2
  exact { h with queue := ⟨entries, hlists.congr rfl rfl⟩, held := hrest }

/-- A released permit keeps the session's invariant. -/
theorem Keeps.release [DecidableEq κ] (h : Keeps permits s) {dispatch : Dispatch ι κ}
    (hheld : dispatch ∈ s.held) (hdone : dispatch.jobId ∉ s.runner.running) :
    Keeps permits { s with runner := s.runner.release, held := s.held.erase dispatch } := by
  obtain ⟨entries, hlists⟩ := h.queue
  refine { h with queue := ⟨entries, hlists.congr rfl rfl⟩, held := ?_, heldIds := ?_,
                  permits := ?_ }
  · intro jobId hmem
    obtain ⟨other, hother, rfl⟩ := List.mem_map.mp (h.held jobId hmem)
    have hne : other ≠ dispatch := fun heq => hdone (heq ▸ hmem)
    exact List.mem_map_of_mem ((List.mem_erase_of_ne hne).mpr hother)
  · exact fun jobId hmem => h.heldIds (List.map_subset _ List.erase_subset hmem)
  · have hpermits := h.permits
    have hlength := List.length_erase_of_mem hheld
    have hpos := List.length_pos_of_mem hheld
    show s.runner.available + 1 + (s.held.erase dispatch).length = permits
    omega

/-- Every operation of a session keeps what it keeps. -/
theorem Keeps.step [DecidableEq κ] {t : Session ι κ} {action : SessionAction ι κ}
    (h : Keeps permits s) (hstep : s.step action = some t) : Keeps permits t := by
  unfold Session.step at hstep
  -- An action that the session refuses changes nothing.
  cases action with
  | submit job =>
    dsimp only at hstep
    split at hstep
    · cases hstep
    · rename_i hnew
      cases hstep
      exact h.submit hnew
  | tryDispatch =>
    dsimp only at hstep
    split at hstep
    · cases hstep
      exact h
    · rename_i dispatch next hdispatch
      cases hstep
      exact h.dispatch hdispatch
  | cancel jobId =>
    cases hstep
    exact h.cancel jobId
  | finish jobId =>
    cases hstep
    exact h.finish jobId
  | release dispatch =>
    dsimp only at hstep
    split at hstep
    · rename_i hrelease
      cases hstep
      exact h.release hrelease.1 hrelease.2
    · cases hstep

/-- At the start the invariant holds. -/
theorem keeps_start : Keeps permits (start permits : Session ι κ) where
  queue := ⟨[], .nil, .nil, rfl, List.forall_mem_nil _⟩
  ids := List.nodup_nil
  dispatchedIds := List.nil_subset _
  removedIds := List.nil_subset _
  once := List.nodup_nil
  removed := List.forall_mem_nil _
  held := fun jobId hmem => absurd hmem (AList.notMem_empty jobId)
  heldIds := List.nil_subset _
  permits := rfl

/-! ## Dispatch order -/

omit [DecidableEq ι] in
/-- The popped entry is the first of the least priority. -/
theorem Lists.pop {entries : List (Entry ι κ)} {runner : PriorityRunner ι κ} {jobs : List (Job ι κ)}
    (h : Lists entries runner jobs) {first : Entry ι κ} {rest : List (Entry ι κ)}
    (hpop : pop runner.pending = some (first, rest)) :
    ∃ before after : List (Job ι κ), jobs = before ++ first.job :: after ∧
      (∀ other ∈ before, first.priority < other.priority) ∧
      ∀ other ∈ after, first.priority ≤ other.priority := by
  have hperm := pop_perm hpop
  have hfirst : first ∈ entries := h.perm.mem_iff.mpr (hperm.mem_iff.mpr List.mem_cons_self)
  obtain ⟨before, after, hsplit⟩ := List.append_of_mem hfirst
  have hsorted := h.sorted
  rw [hsplit, List.pairwise_append, List.pairwise_cons] at hsorted
  obtain ⟨-, ⟨hafter, -⟩, hbefore⟩ := hsorted
  -- The other entries stay in the heap, behind the first.
  have hbehind (other : Entry ι κ) (hmem : other ∈ entries) (hne : other.seq ≠ first.seq) :
      first.before other = true := by
    have hpending : other ∈ first :: rest := hperm.mem_iff.mp (h.perm.mem_iff.mp hmem)
    obtain rfl | hrest := List.mem_cons.mp hpending
    · exact absurd rfl hne
    · exact pop_before h.numbered hpop other hrest
  refine ⟨before.map Entry.job, after.map Entry.job, ?_, ?_, ?_⟩
  · rw [← h.jobs, hsplit, List.map_append, List.map_cons]
  · refine List.forall_mem_map.mpr fun other hmem => ?_
    have hseq := hbefore other hmem first List.mem_cons_self
    have hin : other ∈ entries := hsplit ▸ List.mem_append_left _ hmem
    have hahead := Entry.before_iff.mp (hbehind other hin (Nat.ne_of_lt hseq))
    show first.priority < other.priority
    omega
  · refine List.forall_mem_map.mpr fun other hmem => ?_
    have hseq := hafter other hmem
    have hin : other ∈ entries := hsplit ▸ List.mem_append_right _ (List.mem_cons_of_mem _ hmem)
    have hahead := Entry.before_iff.mp (hbehind other hin (Nat.ne_of_gt hseq))
    show first.priority ≤ other.priority
    omega

/-- Cancelling a job takes it out of the order of dispatch and leaves the rest. -/
theorem Keeps.dispatchOrder_cancel (h : Keeps permits s) (jobId : ι) :
    dispatchOrder (s.runner.cancel jobId).pending =
      (dispatchOrder s.runner.pending).filter fun entry => decide (entry.jobId ≠ jobId) := by
  obtain ⟨entries, hlists⟩ := h.queue
  unfold PriorityRunner.cancel
  cases hrunning : s.runner.running.lookup jobId with
  | none => exact dispatchOrder_filter hlists.numbered _
  | some running =>
    have hdispatched : jobId ∈ s.dispatched :=
      h.heldIds (h.held jobId (AList.lookup_isSome.mp (by rw [hrunning]; rfl)))
    refine (List.filter_eq_self.mpr fun entry hentry =>
      decide_eq_true (Ne.intro fun heq => ?_)).symm
    have hpending : entry ∈ entries := hlists.perm.mem_iff.mpr ((drain_perm rfl).mem_iff.mp hentry)
    have hwaits : entry.job ∈ s.waiting := by
      rw [← hlists.jobs]
      exact List.mem_map_of_mem hpending
    have hnot : entry.jobId ∉ s.dispatched := (mem_submittedIds_of_waiting hwaits).2.1
    exact hnot (heq ▸ hdispatched)

/-- The invariant gives the order, the jobs and the permits of the run. -/
theorem Keeps.isFifo (h : Keeps permits s) : IsFifo permits s := by
  refine ⟨h.pending_perm, fun dispatch next hdispatch => ?_, h.dispatchOrder_cancel, h.once,
    h.removed, ?_, h.permits⟩
  · obtain ⟨entries, hlists⟩ := h.queue
    obtain ⟨entry, rest, hpop, -, rfl, -⟩ := tryDispatch_eq hdispatch
    obtain ⟨before, after, hsplit, hbefore, hafter⟩ := hlists.pop hpop
    exact ⟨before, entry.job, after, hsplit, rfl, rfl, hbefore, hafter⟩
  · have hsubset : s.runner.running.keys ⊆ s.held.map Dispatch.jobId := fun jobId hmem =>
      h.held jobId (AList.mem_keys.mpr hmem)
    have hle := (List.subperm_of_subset s.runner.running.keys_nodup hsubset).length_le
    rwa [List.length_map] at hle

end Steps

/-- In every run of its operations the runner is a priority queue, first in first out. -/
theorem isFifo_run [DecidableEq κ] {permits : Nat} {actions : List (SessionAction ι κ)}
    {s : Session ι κ}
    (h : Lib.run Session.step (start permits) actions = some s) : IsFifo permits s :=
  (Lib.run_preserves (fun _ _ _ hkeeps hstep => Keeps.step hkeeps hstep) keeps_start h).isFifo

/-- Two jobs of one priority and one that goes first, with a permit for each. -/
def threeJobs : List (SessionAction Nat Nat) :=
  [.submit ⟨1, 5, 0⟩, .submit ⟨2, 5, 0⟩, .submit ⟨3, -1, 0⟩, .tryDispatch, .cancel 1, .tryDispatch]

/-- Three jobs of which one is cancelled: the others go in the order of their priorities. -/
theorem isFifo_threeJobs : ∃ s, Lib.run Session.step (start 3) threeJobs = some s ∧
    s.dispatched = [2, 3] ∧ s.removed = [1] ∧ IsFifo 3 s :=
  ⟨_, rfl, rfl, rfl, @isFifo_run Nat Nat _ _ 3 threeJobs _ rfl⟩

end Session

end QueryFabric.JobQueue
