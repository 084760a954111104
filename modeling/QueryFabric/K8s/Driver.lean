import QueryFabric.Ir.Query
import QueryFabric.Lib.Runs
import Mathlib.Data.List.AList

/-!
# Isolated execution on Kubernetes

`K8sIsolatedDriver::spawn` of `crates/queryfabric-runtime-k8s`, with the stream it returns and the
tasks it leaves behind: the watcher that deletes the Job when the token is cancelled, and the
clean-up that the stream schedules when it ends or is dropped. Any number of executions run on one
driver, over one namespace of a cluster that creates and deletes Jobs by name. A step takes one
execution, one of its tasks or the cluster to its next `await`; between any two steps of one the
others may take theirs.

A request and its effect on the cluster are one step; what the cluster and the workers answer is
part of the action. Of a manifest only the name and the labels are kept, by which Jobs and pods are
found. The batches of a stream and the time between polls are left out.

Every Job is marked with the execution that created it, and every pod with that of its Job. Beside
these the state keeps the requests to delete a Job, with the Job that was there under the name, and
the pods that executions have connected to. No step reads the marks or these logs.
-/

namespace QueryFabric.K8s

/-! ## Job specifications -/

/-- `ProvenanceReceipt`: the fields that the driver reads. -/
structure ProvenanceReceipt where
  queryHash : String
  compilerVersion : String
  catalogSnapshot : Option String
  dialect : String
  backend : Option String
  capabilityDecision : Option String
  artifactIdentity : Option String
deriving DecidableEq, Repr

/-- A bound query with its provenance. -/
structure ProvenQuery extends BoundQuery where
  provenance : ProvenanceReceipt

/-- `ProvenanceReceipt::for_query`, from the hash of the text. -/
def ProvenanceReceipt.forQuery (queryHash dialect : String) : ProvenanceReceipt :=
  { queryHash, compilerVersion := "unknown", catalogSnapshot := none, dialect, backend := none
    capabilityDecision := none, artifactIdentity := none }

/-- `BoundQuery::new` of a text that was not parsed, from the hash of the text. -/
def ProvenQuery.new (dialect sql queryHash : String) (span : QuerySourceSpan) : ProvenQuery :=
  { parsed :=
      { dialect, sourceSql := sql, canonicalSql := sql, explain := false
        syntaxTree :=
          { node := ⟨some span, "syntax.unsupported"⟩, ctes := [], withRecursive := false
            body := .unsupported "query syntax missing" ⟨some span, "unsupported"⟩, orderBy := []
            limit := none, offset := none, backendClauses := [] }
        loweringDiagnostics := [] }
    catalogSnapshot := none, parameters := [], diagnostics := [], capabilityRequirements := {}
    resultSchema := {}
    plan :=
      { node := ⟨some span, "bound.unsupported"⟩, ctes := []
        body := .unsupported "query has not been bound" ⟨some span, "bound.unsupported.body"⟩ {}
        orderBy := [], limit := none, offset := none, backendClauses := [], resultSchema := {} }
    provenance := .forQuery queryHash dialect }

/-- `ObjectStoreFormat`. -/
inductive ObjectStoreFormat
  | parquet
  | arrow
  | csv
deriving DecidableEq, Repr

/-- `StorageAccessMode`. -/
inductive StorageAccessMode
  | replicatedReadOnly
  | snapshotClone (sourcePvc snapshotClass : String)
  | objectStore (uri : String) (format : ObjectStoreFormat)
deriving DecidableEq, Repr

/-- `ResourceRequest`. -/
structure ResourceRequest where
  cpuRequest : String
  memoryRequest : String
  cpuLimit : String
  memoryLimit : String
deriving DecidableEq, Repr

/-- `IsolatedJobSpec`. -/
structure IsolatedJobSpec where
  query : ProvenQuery
  storage : StorageAccessMode
  resources : ResourceRequest
  timeout : Nat

/-- An execution of `SELECT 1`. -/
def selectOneSpec : IsolatedJobSpec :=
  { query := .new "sql" "SELECT 1"
      "dd0b347a314192aa24f2b937cf6aaccf958473f0f49f6af460a5d3d1053ac475" ⟨0, 8⟩
    storage := .replicatedReadOnly, resources := ⟨"500m", "1Gi", "600m", "1200Mi"⟩, timeout := 300 }

/-- `DriverError`. -/
inductive DriverError
  | spawn (message : String)
  | timeout
  | cancelled
  | workerFailure (exitCode : Int) (message : String)
deriving DecidableEq, Repr

/-! ## Jobs and pods -/

/-- The labels of a job or a pod. -/
abbrev Labels := AList fun _ : String => String

/-- `MANAGED_BY`. -/
def managedBy : String := "queryfabric-runtime-k8s"
/-- `LABEL_ISOLATED_JOB`. -/
def labelIsolatedJob : String := "queryfabric.io/isolated-job"
/-- `JOB_NAME_PREFIX`. -/
def jobNamePrefix : String := "qf-isolated-"
/-- `WORKER_CONTAINER`. -/
def workerContainer : String := "burst-worker"

/-- `job_name_for`. -/
def jobNameFor (spec : IsolatedJobSpec) : String :=
  jobNamePrefix ++ String.ofList (spec.query.provenance.queryHash.toList.take 12)

/-- `labels_for_job`. -/
def labelsForJob (name : String) (podTemplateLabels : Labels) : Labels :=
  ((podTemplateLabels.insert "app.kubernetes.io/name" workerContainer).insert
    "app.kubernetes.io/managed-by" managedBy).insert labelIsolatedJob name

/-- Whether labels match `job_label_selector`. -/
def selects (name : String) (labels : Labels) : Bool :=
  labels.lookup "app.kubernetes.io/managed-by" = some managedBy &&
    labels.lookup labelIsolatedJob = some name

/-- The labels of a Job's pods match the selector of its name, and no other. -/
theorem selects_labelsForJob (name other : String) (podTemplateLabels : Labels) :
    selects name (labelsForJob other podTemplateLabels) = decide (other = name) := by
  have hne : "app.kubernetes.io/managed-by" ≠ labelIsolatedJob := by decide
  unfold selects labelsForJob
  rw [AList.lookup_insert, AList.lookup_insert_ne hne, AList.lookup_insert]
  simp

/-- A job of the cluster, with the execution that created it. -/
structure Job where
  name : String
  labels : Labels
  creator : Nat

/-- The fields of a pod's status that the driver reads. -/
structure PodStatus where
  podIp : Option String
  phase : Option String
  conditions : Option (List (String × String))
deriving DecidableEq, Repr

/-- A pod of the cluster, with the execution whose job it belongs to. -/
structure Pod where
  name : Option String
  labels : Labels
  status : Option PodStatus
  creator : Nat

/-- `pod_is_ready`. -/
def podIsReady (pod : Pod) : Bool :=
  (pod.status.bind PodStatus.conditions).any fun conditions =>
    conditions.any fun condition => condition.1 = "Ready" && condition.2 = "True"

/-- `pod_is_failed`. -/
def podIsFailed (pod : Pod) : Bool :=
  (pod.status.bind PodStatus.phase).any fun phase => phase = "Failed"

/-- `pod_failure_message`. -/
def podFailureMessage (pod : Pod) : String :=
  pod.name.getD "<unknown isolated worker pod>" ++ " entered phase " ++
    (pod.status.bind PodStatus.phase).getD "Failed"

/-- `pod_flight_endpoint`. -/
def podFlightEndpoint (pod : Pod) (flightPort : Nat) : Except DriverError String :=
  match pod.status with
  | none => .error (.spawn "Ready worker pod is missing status")
  | some status =>
    match status.podIp with
    | none => .error (.spawn "Ready worker pod is missing pod IP")
    | some ip => .ok (ip ++ ":" ++ toString flightPort)

/-- What the loop of `wait_for_ready_pod` makes of a list of pods. -/
inductive PodSearch
  | failed (pod : Pod)
  | ready (pod : Pod)
  | notYet

/-- The loop over the listed pods: the first that failed or is ready decides. -/
def searchPods : List Pod → PodSearch
  | [] => .notYet
  | pod :: pods =>
    if podIsFailed pod then .failed pod
    else if podIsReady pod then .ready pod
    else searchPods pods

/-- The pod that a search comes to is one of those searched. -/
theorem mem_of_searchPods {pods : List Pod} {pod : Pod} (h : searchPods pods = .ready pod) :
    pod ∈ pods := by
  induction pods with
  | nil => cases h
  | cons first pods ih =>
    unfold searchPods at h
    split at h
    · cases h
    · split at h
      · cases h
        exact List.mem_cons_self
      · exact List.mem_cons_of_mem _ (ih h)

/-! ## Executions -/

/-- Where `spawn` or the stream that it returned stands. -/
inductive Phase
  | creating
  | polling
  | listing
  | sleeping
  | connecting (endpoint : String)
  | doGet (endpoint : String)
  | streaming
  | ended
  | dropped
  | failed (error : DriverError)
deriving DecidableEq, Repr

/-- An execution with its tasks. `watcher` says that the watcher waits for the token, `cleanup` that
a clean-up is scheduled, and `created` that the execution has created a Job. -/
structure Execution where
  spec : IsolatedJobSpec
  token : Nat
  phase : Phase
  watcher : Bool := false
  cleanup : Bool := false
  created : Bool := false

/-- A request to delete a job by name, and the job it met. -/
structure DeleteRequest where
  execution : Nat
  name : String
  target : Option Job

/-- The cluster, the executions of the driver, the tokens cancelled and the requests made. -/
structure System where
  jobs : List Job
  pods : List Pod
  executions : List Execution
  cancelled : List Nat
  deletes : List DeleteRequest
  connections : List (Nat × Pod)

/-- The driver: whether it has a client, the feature `snapshot-clone`, and its configuration. -/
structure Driver where
  hasClient : Bool
  snapshotClone : Bool
  flightPort : Nat
  podTemplateLabels : Labels

/-- A driver with a client and without the feature. -/
def plainDriver : Driver :=
  { hasClient := true, snapshotClone := false, flightPort := 8815, podTemplateLabels := ∅ }

/-- The error of `build_job`, if there is one: it is that of the storage mode. -/
def buildJobError (driver : Driver) (spec : IsolatedJobSpec) : Option DriverError :=
  match spec.storage with
  | .snapshotClone _ _ =>
    if driver.snapshotClone then none
    else some (.spawn "SnapshotClone not enabled; install with feature `snapshot-clone`")
  | _ => none

/-- What comes of a request to create a Job: it is answered, it is refused or not received, or it
takes effect and the answer does not arrive. -/
inductive CreateReply
  | answered
  | refused (error : String)
  | unanswered (error : String)

/-- What connecting to the worker can answer. -/
inductive ConnectReply
  | ok
  | invalidEndpoint (error : String)
  | failed (error : String)

/-- What `do_get` can answer. -/
inductive DoGetReply
  | ok
  | failed (error : String)
  | cancelled

/-- What the cluster does of itself: the controller makes a pod for a Job, a pod changes its status,
and pods and Jobs are removed. -/
inductive ClusterEvent
  | podCreated (job : Nat) (name : Option String)
  | podStatus (pod : Nat) (status : PodStatus)
  | podRemoved (pod : Nat)
  | jobRemoved (job : Nat)

/-- What can happen next: a host's call, an answer of the cluster or an event of its own. -/
inductive Action
  | spawn (spec : IsolatedJobSpec) (token : Nat)
  | create (execution : Nat) (reply : CreateReply)
  | poll (execution : Nat) (pastDeadline : Bool)
  | list (execution : Nat) (error : Option String)
  | wake (execution : Nat) (cancelled : Bool)
  | connect (execution : Nat) (reply : ConnectReply)
  | doGet (execution : Nat) (reply : DoGetReply)
  | endStream (execution : Nat)
  | dropStream (execution : Nat)
  | cancel (token : Nat)
  | watch (execution : Nat) (delivered : Bool)
  | cleanup (execution : Nat) (delivered : Bool)
  | cluster (event : ClusterEvent)

namespace System

/-- No job, no pod and no execution. -/
def start : System :=
  { jobs := [], pods := [], executions := [], cancelled := [], deletes := [], connections := [] }

/-- Whether the token of an execution is cancelled. -/
def isCancelled (s : System) (execution : Execution) : Bool := s.cancelled.contains execution.token

/-- The execution goes on with this in its place. -/
def put (s : System) (index : Nat) (execution : Execution) : System :=
  { s with executions := s.executions.set index execution }

/-- The Job of a name. -/
def job? (s : System) (name : String) : Option Job := s.jobs.find? fun job => job.name = name

/-- `spawn` up to the request to create the Job. -/
def spawn (driver : Driver) (s : System) (spec : IsolatedJobSpec) (token : Nat) : System :=
  let phase : Phase :=
    if s.cancelled.contains token then .failed .cancelled
    else if !driver.hasClient then .failed (.spawn "Kubernetes client is not configured")
    else
      match buildJobError driver spec with
      | some error => .failed error
      | none => .creating
  { s with executions := s.executions ++ [{ spec, token, phase }] }

/-- The Job that an execution asks for. -/
def jobOf (driver : Driver) (index : Nat) (execution : Execution) : Job :=
  { name := jobNameFor execution.spec
    labels := labelsForJob (jobNameFor execution.spec) driver.podTemplateLabels, creator := index }

/-- `create isolated Job`, as `spawn` reports its error. -/
def createError (execution : Execution) (error : String) : Phase :=
  .failed (.spawn ("create isolated Job " ++ jobNameFor execution.spec ++ ": " ++ error))

/-- The answer to the request that creates the job. -/
def create (driver : Driver) (s : System) (index : Nat) (execution : Execution) :
    CreateReply → Option System
  | .answered =>
    match s.job? (jobNameFor execution.spec) with
    | some _ => none
    | none =>
      some ({ s with jobs := s.jobs ++ [jobOf driver index execution] }.put index
        { execution with phase := .polling, watcher := true, created := true })
  | .refused error => some (s.put index { execution with phase := createError execution error })
  | .unanswered error =>
    match s.job? (jobNameFor execution.spec) with
    | some _ => none
    | none =>
      some ({ s with jobs := s.jobs ++ [jobOf driver index execution] }.put index
        { execution with phase := createError execution error, created := true })

/-- The loop of `wait_for_ready_pod` from its top to the request for the list of pods. -/
def poll (s : System) (index : Nat) (execution : Execution) (pastDeadline : Bool) : System :=
  let phase : Phase :=
    if s.isCancelled execution then .failed .cancelled
    else if pastDeadline then .failed .timeout
    else .listing
  s.put index { execution with phase }

/-- The pods that a list request finds. -/
def podsOf (s : System) (execution : Execution) : List Pod :=
  s.pods.filter fun pod => selects (jobNameFor execution.spec) pod.labels

/-- From the list of pods to the next sleep, or to the connection. -/
def list (driver : Driver) (s : System) (index : Nat) (execution : Execution) :
    Option String → System
  | some error =>
    s.put index
      { execution with phase := .failed (.spawn ("list isolated worker pods: " ++ error)) }
  | none =>
    match searchPods (s.podsOf execution) with
    | .failed pod =>
      s.put index { execution with phase := .failed (.workerFailure 1 (podFailureMessage pod)) }
    | .notYet => s.put index { execution with phase := .sleeping }
    | .ready pod =>
      match podFlightEndpoint pod driver.flightPort with
      | .error error => s.put index { execution with phase := .failed error }
      | .ok endpoint =>
        { s with connections := s.connections ++ [(index, pod)] }.put index
          { execution with phase := .connecting endpoint }

/-- The end of a sleep between two polls, or of the token. -/
def wake (s : System) (index : Nat) (execution : Execution) (cancelled : Bool) : Option System :=
  if cancelled then
    if s.isCancelled execution then
      some (s.put index { execution with phase := .failed .cancelled })
    else none
  else some (s.put index { execution with phase := .polling })

/-- `connect_flight`. -/
def connect (s : System) (index : Nat) (execution : Execution) (endpoint : String) :
    ConnectReply → System
  | .ok => s.put index { execution with phase := .doGet endpoint }
  | .invalidEndpoint error =>
    s.put index
      { execution with
        phase := .failed (.spawn
          ("build tonic channel from isolated worker Flight endpoint " ++ endpoint ++
            ": " ++ error)) }
  | .failed error =>
    s.put index
      { execution with
        phase := .failed (.spawn
          ("connect to isolated worker Flight endpoint " ++ endpoint ++ ": " ++ error)) }

/-- The answer to `do_get`. -/
def doGet (s : System) (index : Nat) (execution : Execution) (endpoint : String) :
    DoGetReply → Option System
  | .ok => some (s.put index { execution with phase := .streaming })
  | .failed error =>
    some (s.put index
      { execution with
        phase := .failed (.spawn
          ("issue Flight DoGet to isolated worker endpoint " ++ endpoint ++ ": " ++ error)) })
  | .cancelled =>
    if s.isCancelled execution then
      some (s.put index { execution with phase := .failed .cancelled })
    else none

/-- `delete_job_background`: the cluster deletes whatever Job has the name. -/
def delete (s : System) (index : Nat) (name : String) (delivered : Bool) : System :=
  let target := if delivered then s.job? name else none
  { s with
    jobs := if delivered then s.jobs.filter fun job => job.name ≠ name else s.jobs
    deletes := s.deletes ++ [{ execution := index, name, target }] }

/-- An event of the cluster. -/
def cluster (s : System) : ClusterEvent → Option System
  | .podCreated job name =>
    s.jobs[job]?.map fun job =>
      { s with pods := s.pods ++
                 [{ name, labels := job.labels, status := none, creator := job.creator }] }
  | .podStatus pod status =>
    s.pods[pod]?.map fun found =>
      { s with pods := s.pods.set pod { found with status := some status } }
  | .podRemoved pod => some { s with pods := s.pods.eraseIdx pod }
  | .jobRemoved job => some { s with jobs := s.jobs.eraseIdx job }

/-- A step of the execution with this index. -/
def stepOf (driver : Driver) (s : System) (index : Nat) (execution : Execution) (a : Action) :
    Option System :=
  match a, execution.phase with
  | .create _ reply, .creating => s.create driver index execution reply
  | .poll _ pastDeadline, .polling => some (s.poll index execution pastDeadline)
  | .list _ error, .listing => some (s.list driver index execution error)
  | .wake _ cancelled, .sleeping => s.wake index execution cancelled
  | .connect _ reply, .connecting endpoint => some (s.connect index execution endpoint reply)
  | .doGet _ reply, .doGet endpoint => s.doGet index execution endpoint reply
  | .endStream _, .streaming =>
    some (s.put index { execution with phase := .ended, cleanup := true })
  | .dropStream _, .streaming =>
    some (s.put index { execution with phase := .dropped, cleanup := true })
  | .dropStream _, .ended => some (s.put index { execution with phase := .dropped })
  -- The watcher deletes the job once, whatever the execution does meanwhile.
  | .watch _ delivered, _ =>
    if execution.watcher && s.isCancelled execution then
      some ((s.put index { execution with watcher := false }).delete index
        (jobNameFor execution.spec) delivered)
    else none
  | .cleanup _ delivered, _ =>
    if execution.cleanup then
      some ((s.put index { execution with cleanup := false }).delete index
        (jobNameFor execution.spec) delivered)
    else none
  | _, _ => none

/-- The execution that an action is a step of. -/
def actor? : Action → Option Nat
  | .create index _ | .poll index _ | .list index _ | .wake index _ | .connect index
    _ | .doGet index _
  | .endStream index | .dropStream index | .watch index _ | .cleanup index _ => some index
  | .spawn _ _ | .cancel _ | .cluster _ => none

/-- One step of the system. -/
def step (driver : Driver) (s : System) (a : Action) : Option System :=
  match a with
  | .spawn spec token => some (s.spawn driver spec token)
  | .cancel token => some { s with cancelled := token :: s.cancelled }
  | .cluster event => s.cluster event
  | a => (actor? a).bind fun index => s.executions[index]?.bind fun execution =>
      s.stepOf driver index execution a

/-- The execution read after it is written. -/
theorem getElem?_put {s : System} {index : Nat} {execution : Execution}
    (h : s.executions[index]? = some execution) (new : Execution) :
    (s.put index new).executions[index]? = some new :=
  List.getElem?_set_self (List.getElem?_eq_some_iff.mp h).1

/-- After an execution has gone on, the others are as they were. -/
theorem executions_put {s : System} {index other : Nat} {new execution : Execution}
    (h : (s.put index new).executions[other]? = some execution) :
    (other = index ∧ execution = new) ∨ (other ≠ index ∧ s.executions[other]? = some execution) :=
  Lib.getElem?_set_eq_some h

/-! ## What a step can do -/

/-- The step is an error of `spawn` that is not `Cancelled`, after the Job was created. -/
def fails (driver : Driver) (s : System) (execution : Execution) (a : Action) : Bool :=
  match a, execution.phase with
  | .create _ (.unanswered _), .creating => (s.job? (jobNameFor execution.spec)).isNone
  | .poll _ pastDeadline, .polling => pastDeadline
  | .list _ (some _), .listing => true
  | .list _ none, .listing =>
    match searchPods (s.podsOf execution) with
    | .failed _ => true
    | .ready pod =>
      match podFlightEndpoint pod driver.flightPort with
      | .error _ => true
      | .ok _ => false
    | .notYet => false
  | .connect _ (.invalidEndpoint _), .connecting _ => true
  | .connect _ (.failed _), .connecting _ => true
  | .doGet _ (.failed _), .doGet _ => true
  | _, _ => false

end System

/-- The phases between the creation of the Job and the return of the stream. -/
def Phase.isConnecting : Phase → Bool
  | .polling | .listing | .sleeping | .connecting _ | .doGet _ => true
  | _ => false

namespace System

/-- What a step can do. -/
inductive Effect (driver : Driver) (s : System) (a : Action) : System → Prop
  | spawned (spec : IsolatedJobSpec) (token : Nat) (phase : Phase)
      (hphase : phase = .creating ∨ ∃ error, phase = .failed error) (hactor : actor? a = none) :
      Effect driver s a { s with executions := s.executions ++ [{ spec, token, phase }] }
  | cancelled (token : Nat) (hactor : actor? a = none) :
      Effect driver s a { s with cancelled := token :: s.cancelled }
  | cluster (jobs : List Job) (pods : List Pod) (hjobs : ∀ job ∈ jobs, job ∈ s.jobs)
      (hpods : ∀ pod ∈ pods,
        (∃ old ∈ s.pods, old.labels = pod.labels ∧ old.creator = pod.creator) ∨
          ∃ job ∈ s.jobs, job.labels = pod.labels ∧ job.creator = pod.creator)
      (hactor : actor? a = none) : Effect driver s a { s with jobs, pods }
  | created (index : Nat) (execution : Execution) (haction : a = .create index .answered)
      (hexecution : s.executions[index]? = some execution) (hphase : execution.phase = .creating)
      (hfree : s.job? (jobNameFor execution.spec) = none) :
      Effect driver s a ({ s with jobs := s.jobs ++ [jobOf driver index execution] }.put index
        { execution with phase := .polling, watcher := true, created := true })
  | refused (index : Nat) (execution : Execution) (error : String)
      (haction : a = .create index (.refused error))
      (hexecution : s.executions[index]? = some execution) (hphase : execution.phase = .creating) :
      Effect driver s a (s.put index { execution with phase := createError execution error })
  | lost (index : Nat) (execution : Execution) (error : String)
      (haction : a = .create index (.unanswered error))
      (hexecution : s.executions[index]? = some execution) (hphase : execution.phase = .creating)
      (hfree : s.job? (jobNameFor execution.spec) = none) :
      Effect driver s a ({ s with jobs := s.jobs ++ [jobOf driver index execution] }.put index
        { execution with phase := createError execution error, created := true })
  | moved (index : Nat) (execution : Execution) (phase : Phase) (hactor : actor? a = some index)
      (hexecution : s.executions[index]? = some execution)
        (hfrom : execution.phase.isConnecting = true)
      (hto : phase.isConnecting = true ∨ phase = .streaming)
      (hfails : s.fails driver execution a = false) :
      Effect driver s a (s.put index { execution with phase })
  | connected (index : Nat) (execution : Execution) (pod : Pod) (endpoint : String)
      (hactor : actor? a = some index)
      (hexecution : s.executions[index]? = some execution) (hphase : execution.phase = .listing)
      (hpod : pod ∈ s.podsOf execution) (hfails : s.fails driver execution a = false) :
      Effect driver s a ({ s with connections := s.connections ++ [(index, pod)] }.put index
        { execution with phase := .connecting endpoint })
  | aborted (index : Nat) (execution : Execution) (error : DriverError)
    (hactor : actor? a = some index)
      (hexecution : s.executions[index]? = some execution)
        (hfrom : execution.phase.isConnecting = true)
      (hcause : s.isCancelled execution = true ∨ s.fails driver execution a = true) :
      Effect driver s a (s.put index { execution with phase := .failed error })
  | ended (index : Nat) (execution : Execution) (phase : Phase) (hactor : actor? a = some index)
      (hexecution : s.executions[index]? = some execution) (hphase : execution.phase = .streaming)
      (hto : phase = .ended ∨ phase = .dropped) (hfails : s.fails driver execution a = false) :
      Effect driver s a (s.put index { execution with phase, cleanup := true })
  | dropped (index : Nat) (execution : Execution) (hactor : actor? a = some index)
      (hexecution : s.executions[index]? = some execution) (hphase : execution.phase = .ended)
      (hfails : s.fails driver execution a = false) :
      Effect driver s a (s.put index { execution with phase := .dropped })
  | watched (index : Nat) (execution : Execution) (delivered : Bool)
    (hactor : actor? a = some index)
      (hexecution : s.executions[index]? = some execution) (hwatcher : execution.watcher = true)
      (hcancelled : s.isCancelled execution = true) (hfails : s.fails driver execution a = false) :
      Effect driver s a ((s.put index { execution with watcher := false }).delete index
        (jobNameFor execution.spec) delivered)
  | cleaned (index : Nat) (execution : Execution) (delivered : Bool)
    (hactor : actor? a = some index)
      (hexecution : s.executions[index]? = some execution) (hcleanup : execution.cleanup = true)
      (hfails : s.fails driver execution a = false) :
      Effect driver s a ((s.put index { execution with cleanup := false }).delete index
        (jobNameFor execution.spec) delivered)

variable {driver : Driver} {s t : System} {index : Nat} {execution : Execution}

/-- What a spawn changes. -/
theorem spawn_effect (spec : IsolatedJobSpec) (token : Nat) :
    Effect driver s (.spawn spec token) (s.spawn driver spec token) := by
  unfold System.spawn
  refine .spawned spec token _ ?_ rfl
  split
  · exact .inr ⟨_, rfl⟩
  · split
    · exact .inr ⟨_, rfl⟩
    · split
      · exact .inr ⟨_, rfl⟩
      · exact .inl rfl

/-- What an event of the cluster changes. -/
theorem cluster_effect {event : ClusterEvent} (h : s.cluster event = some t) :
    Effect driver s (.cluster event) t := by
  cases event with
  -- A new pod carries the labels of its job.
  | podCreated job name =>
    obtain ⟨found, hfound, rfl⟩ := Option.map_eq_some_iff.mp h
    refine .cluster _ _ (fun _ h => h) (fun pod hpod => ?_) rfl
    rw [List.mem_append, List.mem_singleton] at hpod
    rcases hpod with hpod | rfl
    · exact .inl ⟨pod, hpod, rfl, rfl⟩
    · exact .inr ⟨found, List.mem_of_getElem? hfound, rfl, rfl⟩
  | podStatus index status =>
    obtain ⟨found, hfound, rfl⟩ := Option.map_eq_some_iff.mp h
    refine .cluster _ _ (fun _ h => h) (fun pod hpod => ?_) rfl
    rcases List.mem_or_eq_of_mem_set hpod with hpod | rfl
    · exact .inl ⟨pod, hpod, rfl, rfl⟩
    · exact .inl ⟨found, List.mem_of_getElem? hfound, rfl, rfl⟩
  -- The remaining pods and jobs are old ones.
  | podRemoved index =>
    cases h
    exact .cluster _ _ (fun _ h => h)
      (fun pod hpod => .inl ⟨pod, List.mem_of_mem_eraseIdx hpod, rfl, rfl⟩) rfl
  | jobRemoved index =>
    cases h
    exact .cluster _ _ (fun _ hjob => List.mem_of_mem_eraseIdx hjob)
      (fun pod hpod => .inl ⟨pod, hpod, rfl, rfl⟩) rfl

/-- What the answer to a creation changes. -/
theorem create_effect {reply : CreateReply} (hexecution : s.executions[index]? = some execution)
    (hphase : execution.phase = .creating) (h : s.create driver index execution reply = some t) :
    Effect driver s (.create index reply) t := by
  cases reply with
  | answered =>
    simp only [System.create] at h
    split at h
    · cases h
    · rename_i hfree
      cases h
      exact .created index execution rfl hexecution hphase hfree
  | refused error =>
    cases h
    exact .refused index execution error rfl hexecution hphase
  | unanswered error =>
    simp only [System.create] at h
    split at h
    · cases h
    · rename_i hfree
      cases h
      exact .lost index execution error rfl hexecution hphase hfree

/-- What a poll changes. -/
theorem poll_effect (hexecution : s.executions[index]? = some execution)
    (hphase : execution.phase = .polling) (pastDeadline : Bool) :
    Effect driver s (.poll index pastDeadline) (s.poll index execution pastDeadline) := by
  have hfrom : execution.phase.isConnecting = true := by rw [hphase]; rfl
  have hfails : s.fails driver execution (.poll index pastDeadline) = pastDeadline := by
    simp only [fails, hphase]
  unfold System.poll
  dsimp only
  split
  · rename_i hcancelled
    exact .aborted index execution .cancelled rfl hexecution hfrom (.inl hcancelled)
  · split
    · rename_i hdeadline
      exact .aborted index execution .timeout rfl hexecution hfrom (.inr (hfails.trans hdeadline))
    · rename_i hdeadline
      exact .moved index execution .listing rfl hexecution hfrom (.inl rfl)
        (hfails.trans (Bool.eq_false_iff.mpr hdeadline))

/-- What the listing of the pods changes. -/
theorem list_effect (hexecution : s.executions[index]? = some execution)
    (hphase : execution.phase = .listing) (error : Option String) :
    Effect driver s (.list index error) (s.list driver index execution error) := by
  have hfrom : execution.phase.isConnecting = true := by rw [hphase]; rfl
  cases error with
  | some error =>
    refine .aborted index execution _ rfl hexecution hfrom (.inr ?_)
    simp only [fails, hphase]
  | none =>
    unfold System.list
    dsimp only
    -- A failed pod ends the execution, none yet makes it sleep, a ready one is connected to.
    cases hsearch : searchPods (s.podsOf execution) with
    | failed pod =>
      refine .aborted index execution _ rfl hexecution hfrom (.inr ?_)
      simp only [fails, hphase, hsearch]
    | notYet =>
      refine .moved index execution .sleeping rfl hexecution hfrom (.inl rfl) ?_
      simp only [fails, hphase, hsearch]
    | ready pod =>
      dsimp only
      cases hendpoint : podFlightEndpoint pod driver.flightPort with
      | error error =>
        refine .aborted index execution error rfl hexecution hfrom (.inr ?_)
        simp only [fails, hphase, hsearch, hendpoint]
      | ok endpoint =>
        refine .connected index execution pod endpoint rfl hexecution hphase
          (mem_of_searchPods hsearch) ?_
        simp only [fails, hphase, hsearch, hendpoint]

/-- What the end of a pause changes. -/
theorem wake_effect {cancelled : Bool} (hexecution : s.executions[index]? = some execution)
    (hphase : execution.phase = .sleeping) (h : s.wake index execution cancelled = some t) :
    Effect driver s (.wake index cancelled) t := by
  have hfrom : execution.phase.isConnecting = true := by rw [hphase]; rfl
  unfold System.wake at h
  split at h
  · split at h
    · rename_i hcancelled
      cases h
      exact .aborted index execution .cancelled rfl hexecution hfrom (.inl hcancelled)
    · cases h
  · cases h
    exact .moved index execution .polling rfl hexecution hfrom (.inl rfl) rfl

/-- What the answer to a connection changes. -/
theorem connect_effect {endpoint : String} (hexecution : s.executions[index]? = some execution)
    (hphase : execution.phase = .connecting endpoint) (reply : ConnectReply) :
    Effect driver s (.connect index reply) (s.connect index execution endpoint reply) := by
  have hfrom : execution.phase.isConnecting = true := by rw [hphase]; rfl
  cases reply with
  | ok => exact .moved index execution _ rfl hexecution hfrom (.inl rfl) rfl
  | invalidEndpoint error =>
    exact .aborted index execution _ rfl hexecution hfrom (.inr (by unfold fails; rw [hphase]))
  | failed error =>
    exact .aborted index execution _ rfl hexecution hfrom (.inr (by unfold fails; rw [hphase]))

/-- What the answer to `do_get` changes. -/
theorem doGet_effect {endpoint : String} {reply : DoGetReply}
    (hexecution : s.executions[index]? = some execution)
    (hphase : execution.phase = .doGet endpoint)
    (h : s.doGet index execution endpoint reply = some t) :
    Effect driver s (.doGet index reply) t := by
  have hfrom : execution.phase.isConnecting = true := by rw [hphase]; rfl
  cases reply with
  | ok =>
    cases h
    exact .moved index execution .streaming rfl hexecution hfrom (.inr rfl) rfl
  | failed error =>
    cases h
    exact .aborted index execution _ rfl hexecution hfrom (.inr (by unfold fails; rw [hphase]))
  | cancelled =>
    simp only [System.doGet] at h
    split at h
    · rename_i hcancelled
      cases h
      exact .aborted index execution .cancelled rfl hexecution hfrom (.inl hcancelled)
    · cases h

/-- What the step of an execution changes. -/
theorem stepOf_effect {a : Action} (hexecution : s.executions[index]? = some execution)
    (hactor : actor? a = some index) (h : s.stepOf driver index execution a = some t) :
    Effect driver s a t := by
  unfold System.stepOf at h
  -- The goals are in the order of the branches of the code.
  split at h
  · cases hactor
    exact create_effect hexecution ‹_› h
  · cases hactor
    cases h
    exact poll_effect hexecution ‹_› _
  · cases hactor
    cases h
    exact list_effect hexecution ‹_› _
  · cases hactor
    exact wake_effect hexecution ‹_› h
  · cases hactor
    cases h
    exact connect_effect hexecution ‹_› _
  · cases hactor
    exact doGet_effect hexecution ‹_› h
  · cases h
    exact .ended index execution .ended hactor hexecution ‹_› (.inl rfl) rfl
  · cases h
    exact .ended index execution .dropped hactor hexecution ‹_› (.inr rfl) rfl
  · cases h
    exact .dropped index execution hactor hexecution ‹_› rfl
  · split at h
    · rename_i hready
      cases h
      rw [Bool.and_eq_true] at hready
      exact .watched index execution _ hactor hexecution hready.1 hready.2 rfl
    · cases h
  · split at h
    · rename_i hcleanup
      cases h
      exact .cleaned index execution _ hactor hexecution hcleanup rfl
    · cases h
  · cases h

/-- What each step of the system changes. -/
theorem step_effect {a : Action} (h : s.step driver a = some t) : Effect driver s a t := by
  unfold System.step at h
  split at h
  · cases h
    exact spawn_effect _ _
  · cases h
    exact .cancelled _ rfl
  · exact cluster_effect h
  · obtain ⟨index, hactor, h⟩ := Option.bind_eq_some_iff.mp h
    obtain ⟨execution, hexecution, h⟩ := Option.bind_eq_some_iff.mp h
    exact stepOf_effect hexecution hactor h

end System

end QueryFabric.K8s
