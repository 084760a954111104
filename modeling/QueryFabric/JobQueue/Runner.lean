import QueryFabric.JobQueue.Storage

/-!
# The priority runner

`PriorityRunner` of `crates/queryfabric-job-queue/src/priority.rs`: the queue of pending jobs, the
semaphore that bounds the running ones, and the map of running jobs with their cancellation tokens.
The semaphore and the map are shared with the worker tasks.

A heap is the list of its entries, of which `pop` takes the first in the order of priority and
sequence number. A cancellation token is the number of its dispatch.
-/

namespace QueryFabric.JobQueue

/-- `Entry`: a job in the queue. -/
structure Entry (ι κ : Type) where
  jobId : ι
  priority : Int
  seq : Nat
  kind : κ
deriving DecidableEq, Repr

/-- The order of dispatch: lower priorities first, and older entries first among equals. -/
def Entry.before {ι κ : Type} (a b : Entry ι κ) : Bool :=
  a.priority < b.priority || (a.priority == b.priority && a.seq < b.seq)

/-- `BinaryHeap::pop`. -/
def pop {ι κ : Type} : List (Entry ι κ) → Option (Entry ι κ × List (Entry ι κ))
  | [] => none
  | entry :: entries =>
    match pop entries with
    | none => some (entry, [])
    | some (first, rest) =>
      if first.before entry then some (first, entry :: rest) else some (entry, first :: rest)

/-- Only an empty queue pops nothing. -/
theorem pop_eq_none {ι κ : Type} : ∀ {entries : List (Entry ι κ)}, pop entries = none → entries = []
  | [], _ => rfl
  | entry :: entries, h => by
    rw [pop] at h
    split at h
    · cases h
    · split at h <;> cases h

/-- Popping takes one entry out. -/
theorem pop_perm {ι κ : Type} : ∀ {entries : List (Entry ι κ)} {first : Entry ι κ}
    {rest : List (Entry ι κ)}, pop entries = some (first, rest) → entries.Perm (first :: rest)
  | [], _, _, h => by cases h
  | entry :: entries, first, rest, h => by
    rw [pop] at h
    split at h
    · rename_i hnone
      cases h
      rw [pop_eq_none hnone]
    · rename_i first' rest' hsome
      have hperm : (entry :: entries).Perm (entry :: first' :: rest') := (pop_perm hsome).cons entry
      split at h
      · cases h
        exact hperm.trans (.swap _ _ _)
      · cases h
        exact hperm

/-- `PriorityRunner`. -/
structure PriorityRunner (ι κ : Type) where
  /-- The free permits of the semaphore. -/
  available : Nat
  pending : List (Entry ι κ) := []
  seq : Nat := 0
  running : AList (fun _ : ι => Nat × κ) := ∅
  /-- The next token, and those that were signalled. -/
  nextToken : Nat := 0
  signalled : List Nat := []

/-- A successful dispatch; it holds a permit. -/
structure Dispatch (ι κ : Type) where
  jobId : ι
  kind : κ
  token : Nat
deriving DecidableEq, Repr

namespace PriorityRunner

variable {ι κ : Type}

/-- `PriorityRunner::submit`. -/
def submit (runner : PriorityRunner ι κ) (jobId : ι) (priority : Int) (kind : κ) :
    PriorityRunner ι κ :=
  { runner with
    seq := runner.seq + 1
    pending := { jobId, priority, seq := runner.seq + 1, kind } :: runner.pending }

variable [DecidableEq ι]

/-- `PriorityRunner::try_dispatch`. A permit that was acquired for an empty queue is given back. -/
def tryDispatch (runner : PriorityRunner ι κ) : Option (Dispatch ι κ × PriorityRunner ι κ) :=
  if runner.available = 0 then none
  else
    (pop runner.pending).map fun (entry, rest) =>
      ({ jobId := entry.jobId, kind := entry.kind, token := runner.nextToken },
        { runner with
          available := runner.available - 1
          pending := rest
          running := runner.running.insert entry.jobId (runner.nextToken, entry.kind)
          nextToken := runner.nextToken + 1 })

/-- `PriorityRunner::cancel`: a running job is signalled, and a queued one is removed. -/
def cancel (runner : PriorityRunner ι κ) (jobId : ι) : PriorityRunner ι κ :=
  match runner.running.lookup jobId with
  | some (token, _) =>
    { runner with
      running := runner.running.erase jobId, signalled := token :: runner.signalled }
  | none =>
    { runner with pending := runner.pending.filter fun entry => decide (entry.jobId ≠ jobId) }

/-- `RunnerHandle::finish`. -/
def finish (runner : PriorityRunner ι κ) (jobId : ι) : PriorityRunner ι κ :=
  { runner with running := runner.running.erase jobId }

/-- Dropping a permit. -/
def release (runner : PriorityRunner ι κ) : PriorityRunner ι κ :=
  { runner with available := runner.available + 1 }

/-- A dispatch fails for want of a permit or of a job. -/
theorem tryDispatch_eq_none {runner : PriorityRunner ι κ} (h : runner.tryDispatch = none) :
    runner.available = 0 ∨ runner.pending = [] := by
  unfold tryDispatch at h
  split at h
  · exact .inl ‹_›
  · exact .inr (pop_eq_none (by simpa using h))

/-- A dispatch takes a permit and one of the pending jobs. -/
theorem tryDispatch_eq_some {runner next : PriorityRunner ι κ} {dispatch : Dispatch ι κ}
    (h : runner.tryDispatch = some (dispatch, next)) :
    ∃ entry rest, runner.pending.Perm (entry :: rest) ∧ entry.jobId = dispatch.jobId ∧
      next.pending = rest ∧ next.available + 1 = runner.available := by
  unfold tryDispatch at h
  split at h
  · cases h
  · rename_i havailable
    obtain ⟨⟨entry, rest⟩, hpop, heq⟩ := Option.map_eq_some_iff.mp h
    cases heq
    refine ⟨entry, rest, pop_perm hpop, rfl, rfl, ?_⟩
    show runner.available - 1 + 1 = runner.available
    omega

end PriorityRunner

end QueryFabric.JobQueue
