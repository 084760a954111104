import Mathlib.Data.List.AList
import Mathlib.Data.List.Sort

/-!
# The job storage

The records of `crates/queryfabric-job-queue/src/schema.rs` and the storage calls of `JobStorage`,
as the in-memory storage of the crate's tests implements them: every call is applied
unconditionally, and reports an error only for a job that it does not hold. A hash map is an
association list without repeated keys; its order stands for the unspecified order of iteration.

The owner, the payload and the timestamps of a record are read by no function that is modelled here.
-/

namespace QueryFabric.JobQueue

/-- `JobStatus`. -/
inductive JobStatus
  | pending
  | running
  | completed
  | failed
  | cancelled
deriving DecidableEq, Repr

/-- The states that a job ends in. -/
def JobStatus.isTerminal : JobStatus → Bool
  | pending | running => false
  | completed | failed | cancelled => true

/-- `JobRecord`. -/
structure JobRecord (κ : Type) where
  status : JobStatus
  priority : Int
  kind : κ
  resultPath : Option String := none
  rowCount : Option Int := none
  byteCount : Option Int := none
  error : Option String := none
deriving DecidableEq, Repr

/-- What an executor reports. -/
structure JobExecutionResult where
  status : JobStatus
  resultPath : Option String := none
  rowCount : Option Int := none
  byteCount : Option Int := none
  error : Option String := none
deriving DecidableEq, Repr

/-- `JobStorage`: a record for each job. -/
abbrev JobStorage (ι κ : Type) := AList fun _ : ι => JobRecord κ

/-- `JobQueueError::not_found`, as it is displayed. -/
def notFound {ι : Type} [ToString ι] (jobId : ι) : String := "job not found: " ++ toString jobId

namespace JobStorage

variable {ι κ : Type} [DecidableEq ι]

/-- The calls that change the record of a job; `none` is their error for a job that is not there. -/
def update (storage : JobStorage ι κ) (jobId : ι) (f : JobRecord κ → JobRecord κ) :
    Option (JobStorage ι κ) :=
  (storage.lookup jobId).map fun record => storage.insert jobId (f record)

/-- `load_job`. -/
def loadJob (storage : JobStorage ι κ) (jobId : ι) : Option (JobRecord κ) := storage.lookup jobId

/-- `insert_pending`. -/
def insertPending (storage : JobStorage ι κ) (jobId : ι) (record : JobRecord κ) : JobStorage ι κ :=
  storage.insert jobId record

/-- `mark_running`. -/
def markRunning (storage : JobStorage ι κ) (jobId : ι) : Option (JobStorage ι κ) :=
  update storage jobId fun record => { record with status := .running }

/-- `complete_job`. -/
def completeJob (storage : JobStorage ι κ) (jobId : ι) (result : JobExecutionResult) :
    Option (JobStorage ι κ) :=
  update storage jobId fun record =>
    { record with
      status := result.status, resultPath := result.resultPath, rowCount := result.rowCount
      byteCount := result.byteCount, error := result.error }

/-- `fail_job`. -/
def failJob (storage : JobStorage ι κ) (jobId : ι) (error : String) : Option (JobStorage ι κ) :=
  update storage jobId fun record => { record with status := .failed, error := some error }

/-- `cancel_job`. -/
def cancelJob (storage : JobStorage ι κ) (jobId : ι) : Option (JobStorage ι κ) :=
  update storage jobId fun record => { record with status := .cancelled }

/-- `delete_job`. -/
def deleteJob (storage : JobStorage ι κ) (jobId : ι) : JobStorage ι κ := storage.erase jobId

/-- `pending_jobs`: the pending jobs, stably sorted by priority. -/
def pendingJobs (storage : JobStorage ι κ) : List (ι × Int × κ) :=
  let jobs := (storage.entries.filter fun job => job.2.status = .pending).map fun job =>
    (job.1, job.2.priority, job.2.kind)
  jobs.insertionSort fun a b => a.2.1 ≤ b.2.1

/-- The record of a job that was running when the process stopped. -/
def failStale (error : String) (record : JobRecord κ) : JobRecord κ :=
  if record.status = .running then
    { record with status := .failed, error := some error } else record

/-- `mark_stale_running_failed`. -/
def markStaleRunningFailed (storage : JobStorage ι κ) (error : String) : JobStorage ι κ where
  entries := storage.entries.map (.map id fun _ => failStale error)
  nodupKeys := by
    rw [List.NodupKeys, List.keys, List.map_map]
    exact storage.nodupKeys

/-- The stored status of a job. -/
def status (storage : JobStorage ι κ) (jobId : ι) : Option JobStatus :=
  (storage.lookup jobId).map JobRecord.status

/-- The status of a job after one record is written. -/
theorem status_insert (storage : JobStorage ι κ) (jobId : ι) (record : JobRecord κ) (other : ι) :
    status (storage.insert jobId record) other =
      if other = jobId then some record.status else status storage other := by
  unfold status
  by_cases h : other = jobId
  · subst h
    rw [AList.lookup_insert, if_pos rfl]
    rfl
  · rw [AList.lookup_insert_ne h, if_neg h]

/-- A call that writes a status writes it for the job that it is about, if the job is there. -/
theorem status_update {f : JobRecord κ → JobRecord κ} {next : JobStatus}
    (hf : ∀ record, (f record).status = next) (storage : JobStorage ι κ) (jobId other : ι) :
    status ((update storage jobId f).getD storage) other =
      if other = jobId then (status storage other).map fun _ => next else status storage other := by
  unfold update
  cases hlookup : storage.lookup jobId with
  | none =>
    by_cases h : other = jobId
    · subst h
      simp [status, hlookup]
    · simp [h]
  | some record =>
    simp only [Option.map_some, Option.getD_some]
    rw [status_insert, hf]
    by_cases h : other = jobId
    · subst h
      simp [status, hlookup]
    · rw [if_neg h, if_neg h]

/-- The status of the job that an update is for. -/
theorem status_of_update {f : JobRecord κ → JobRecord κ} {storage storage' : JobStorage ι κ}
    {jobId : ι} (h : update storage jobId f = some storage') {next : JobStatus}
    (hf : ∀ record, (f record).status = next) (other : ι) :
    status storage' other =
      if other = jobId then (status storage other).map fun _ => next else status storage other := by
  have hgetD := status_update hf storage jobId other
  rwa [h] at hgetD

/-- Cancelling a job changes its status and no other. -/
theorem status_cancelJob (storage : JobStorage ι κ) (jobId other : ι) :
    status ((storage.cancelJob jobId).getD storage) other =
      if other = jobId then (status storage other).map fun _ => .cancelled
      else status storage other := by
  refine status_update (fun record => ?_) storage jobId other
  rfl

/-- Failing a job changes its status and no other. -/
theorem status_failJob (storage : JobStorage ι κ) (jobId : ι) (error : String) (other : ι) :
    status ((storage.failJob jobId error).getD storage) other =
      if other = jobId then (status storage other).map fun _ => .failed
      else status storage other := by
  refine status_update (fun record => ?_) storage jobId other
  rfl

/-- Only the status of running jobs is changed. -/
theorem status_markStaleRunningFailed (storage : JobStorage ι κ) (error : String) (jobId : ι) :
    status (storage.markStaleRunningFailed error) jobId =
      (status storage jobId).map fun st => if st = .running then .failed else st := by
  have hlookup : (storage.markStaleRunningFailed error).lookup jobId =
      (storage.lookup jobId).map (failStale error) :=
    List.dlookup_map₂ (f := fun _ => failStale error) jobId
  unfold status
  rw [hlookup, Option.map_map, Option.map_map]
  congr 1
  funext record
  simp only [Function.comp_apply, failStale]
  split <;> rfl

end JobStorage

end QueryFabric.JobQueue
