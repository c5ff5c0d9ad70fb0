/-
HeteroSched/Scheduler.lean

The running system, from `scheduler/main.py` and `agent/executor.py`: the
dispatcher thread, one `dispatch_job` thread for each placed job, the handlers of
`POST /jobs`, `/job_callback`, `/runs/start` and `/runs/finish`, the agents and
their jobs, all interleaved in any order.

Design.  A step is what one thread does between two points where another thread
can run: one call of a method of `ClusterState` (each holds the lock), one
database transaction, one reading or writing of a global variable, one message.
Threads of one kind are a list, and a step of one of them splits the list around
it.  `dispatch_job` may raise anywhere in its `try` block; whether the agent had
accepted the job by then is its position (`posting` or later).  An agent works
under the node id it registered, so an accepted job runs on the node it was
posted to, and its result names that node.

`History` is not part of the program: it records what has happened so far, for
statements about runs.
-/
import HeteroSched.Dispatcher
import HeteroSched.Database
import HeteroSched.Lib.Transition

namespace HeteroSched

/-! ### Threads and handlers -/

/-- The part of `shared/config.py` the scheduler reads. -/
structure Config where
  maxDispatchAttempts : ℤ := 3
  deriving DecidableEq, Repr

/-- Where a `dispatch_job` thread is.  In the `try` block: the job is posted;
the agent has accepted it; the response is in; the database has the dispatch.
In the `except` block: about to release the slot; to count the failure; to
compare the count; to mark the job failed. -/
inductive DispatchPc
  | posting
  | accepted
  | responded
  | recorded
  | raised
  | released
  | counted (attempts : ℕ)
  | abandoning
  deriving DecidableEq, Repr

/-- A thread running `dispatch_job`, with its arguments and the time it was started. -/
structure DispatchThread where
  job : JobRequest
  node : NodeView
  dispatchedAt : Timestamp
  pc : DispatchPc
  deriving DecidableEq

/-- The thread at another place. -/
def DispatchThread.goto (t : DispatchThread) (pc : DispatchPc) : DispatchThread :=
  { t with pc := pc }

@[simp] theorem DispatchThread.goto_pc (t : DispatchThread) (pc : DispatchPc) :
    (t.goto pc).pc = pc := rfl

@[simp] theorem DispatchThread.goto_job (t : DispatchThread) (pc : DispatchPc) :
    (t.goto pc).job = t.job := rfl

@[simp] theorem DispatchThread.goto_node (t : DispatchThread) (pc : DispatchPc) :
    (t.goto pc).node = t.node := rfl

/-- A `submit_job` handler after `enqueue_job`: about to read the active run, or
about to insert the row with the run and the time it read. -/
inductive SubmitHandler
  | enqueued (job : JobRequest)
  | tagged (job : JobRequest) (runId : Option RunId) (submittedAt : Timestamp)
  deriving DecidableEq

/-- A job an agent has accepted and not reported yet.  When the POST of its report fails,
`run_and_callback` only logs the error, and nobody reports the job any more. -/
structure Execution where
  job : JobRequest
  nodeId : NodeId
  lost : Bool := false
  deriving DecidableEq

/-- Where the handler that holds `run_lock` is.  `start_run`: no run is open; the
queue was counted; the slot counters were read too and nothing is in flight; the
policy is swapped; the nodes are listed; the row is inserted.  `finish_run`: a
run is open; its row is closed. -/
inductive RunLock
  | free
  | starting (request : RunStartRequest)
  | counted (request : RunStartRequest) (queueSize : ℕ)
  | drained (request : RunStartRequest)
  | swapped (request : RunStartRequest)
  | listed (request : RunStartRequest) (clusterSnapshot : List SnapshotNode)
  | inserted (runId : RunId)
  | finishing (runId : RunId)
  | finished (runId : RunId)
  deriving DecidableEq

/-- What has happened so far: the jobs submitted; the calls of `enqueue_job` and
the successful calls of `reserve_slot` in order; what agents accepted and jobs
called back; the dispatches that returned normally and the jobs given up; the
number of policy instances made before the current one, and which of them was
asked about which job; for the last run opened, its policy instance and the jobs
submitted before. -/
structure History where
  submitted : List JobRequest := []
  enqueued : List JobRequest := []
  reserved : List JobRequest := []
  accepted : List (JobId × NodeId) := []
  calledBack : List JobId := []
  returned : List JobId := []
  abandoned : List JobId := []
  instances : ℕ := 0
  asked : List (ℕ × JobId) := []
  opened : Option (ℕ × List JobId) := none
  deriving DecidableEq

/-- The scheduler process with its database, and the agents with what they run.  `late` are
the POSTs of processes that have ended, which an agent may still accept. -/
structure Scheduler (P : PolicyRegistry) where
  cluster : ClusterState := {}
  db : Database := {}
  policy : P.Instance
  policyName : String
  activeRunId : Option RunId := none
  runLock : RunLock := .free
  dispatcher : Dispatcher := .idle
  threads : List DispatchThread := []
  submissions : List SubmitHandler := []
  executing : List Execution := []
  late : List DispatchThread := []
  results : List JobResult := []
  history : History := {}

namespace Scheduler

variable {P : PolicyRegistry}

/-- The ids of the jobs submitted so far. -/
def submittedIds (s : Scheduler P) : List JobId := s.history.submitted.map fun job => job.jobId

/-- The fresh policy instance of a new run, with its name. -/
def newPolicy (s : Scheduler P) (request : RunStartRequest) : Option (P.Instance × String) :=
  match request.policy with
  | some name => (P.getPolicy name).map fun policy => (policy, name.toLower)
  | none => (P.getPolicy s.policyName).map fun policy => (policy, s.policyName)

/-- A run that names no policy gets a fresh instance of the one in place. -/
theorem newPolicy_round_robin {s : Scheduler policies} (h : s.policyName = "round_robin") :
    s.newPolicy {} = some (.roundRobin {}, "round_robin") := by
  show (getPolicy s.policyName).map (fun policy => (policy, s.policyName)) = _
  rw [h, getPolicy_round_robin]
  rfl

/-- The `cluster_snapshot` of a new run. -/
def clusterSnapshot (s : Scheduler P) : List SnapshotNode :=
  s.cluster.getNodes.map fun n =>
    { nodeId := n.nodeId
      hostname := n.hostname
      cpus := n.profile.capabilities.cpus
      physicalCores := n.profile.capabilities.physicalCores
      memoryMb := n.profile.capabilities.memoryMb
      architecture := n.profile.capabilities.architecture
      gpu := n.profile.capabilities.gpu }

/-! ### Steps -/

/-- What happens next, and to which job, thread or request. -/
inductive Event
  | register (registration : NodeRegistration)
  | heartbeat (heartbeat : NodeHeartbeat) (now : ℚ)
  | expire (timeoutSeconds now : ℚ)
  | submit (job : JobRequest)
  | tagSubmission (job : JobRequest) (now : Timestamp)
  | insertSubmission (job : JobRequest) (now : Timestamp)
  | failSubmission (job : JobRequest)
  | dequeue (job : JobRequest)
  | offer (job : JobRequest)
  | answer (job : JobRequest)
  | claim (job : JobRequest) (node : NodeView)
  | refuseClaim (job : JobRequest) (node : NodeView)
  | spawn (job : JobRequest) (node : NodeView) (now : Timestamp)
  | accept (t : DispatchThread)
  | respond (t : DispatchThread)
  | raise (t : DispatchThread)
  | recordDispatch (t : DispatchThread) (now : Timestamp)
  | forgetAttempts (t : DispatchThread)
  | release (t : DispatchThread)
  | countFailure (t : DispatchThread)
  | requeue (t : DispatchThread)
  | giveUp (t : DispatchThread)
  | markFailed (t : DispatchThread)
  | failMarkFailed (t : DispatchThread)
  | callback (result : JobResult)
  | loseCallback (e : Execution)
  | recordResult (result : JobResult) (now : Timestamp)
  | failRecordResult (result : JobResult)
  | startRun (request : RunStartRequest)
  | refuseStart (request : RunStartRequest)
  | countQueue
  | readCounters
  | refuseInFlight
  | swapPolicy
  | refusePolicy
  | listNodes
  | insertRun (runId : RunId) (now : Timestamp)
  | failInsertRun
  | openRun
  | finishRun
  | refuseFinish
  | closeRow (now : Timestamp)
  | failCloseRow
  | closeRun

/-- One step of the system. -/
inductive Step (cfg : Config) (s : Scheduler P) : Event → Scheduler P → Prop
  -- agents register, send heartbeats and expire
  | register (registration : NodeRegistration) :
      Step cfg s (.register registration) { s with cluster := s.cluster.registerNode registration }
  | heartbeat (heartbeat : NodeHeartbeat) (now : ℚ) :
      Step cfg s (.heartbeat heartbeat now)
        { s with cluster := s.cluster.registerHeartbeat heartbeat now }
  | expire (timeoutSeconds now : ℚ) :
      Step cfg s (.expire timeoutSeconds now)
        { s with cluster := s.cluster.removeExpiredNodes timeoutSeconds now }
  -- `submit_job`: the job is queued before its row is inserted
  | submit (job : JobRequest) :
      Step cfg s (.submit job)
        { s with
          cluster := s.cluster.enqueueJob job
          submissions := .enqueued job :: s.submissions
          history := { s.history with
            submitted := s.history.submitted ++ [job]
            enqueued := s.history.enqueued ++ [job] } }
  | tagSubmission {job : JobRequest} {pre post : List SubmitHandler} (now : Timestamp)
      (hs : s.submissions = pre ++ .enqueued job :: post) :
      Step cfg s (.tagSubmission job now)
        { s with
          submissions :=
            pre ++ .tagged job s.activeRunId (job.submittedAt.getD now) :: post }
  | insertSubmission {job : JobRequest} {runId : Option RunId} {submittedAt : Timestamp}
      {pre post : List SubmitHandler} {db : Database} (now : Timestamp)
      (hs : s.submissions = pre ++ .tagged job runId submittedAt :: post)
      (hdb : s.db.submitJob job.jobId job.image job.command runId (some submittedAt)
        (some job.requirements) now = some db) :
      Step cfg s (.insertSubmission job now) { s with db := db, submissions := pre ++ post }
  | failSubmission {job : JobRequest} {runId : Option RunId} {submittedAt : Timestamp}
      {pre post : List SubmitHandler}
      (hs : s.submissions = pre ++ .tagged job runId submittedAt :: post) :
      Step cfg s (.failSubmission job) { s with submissions := pre ++ post }
  -- `dispatcher_loop` and `select_node_for`
  | dequeue {job : JobRequest} {cluster : ClusterState} (hd : s.dispatcher = .idle)
      (hq : s.cluster.dequeueJob = (some job, cluster)) :
      Step cfg s (.dequeue job) { s with cluster := cluster, dispatcher := .asking job }
  | offer {job : JobRequest} (hd : s.dispatcher = .asking job) :
      Step cfg s (.offer job)
        { s with dispatcher := .offered job (s.cluster.getAvailableNodes job) }
  | answer {job : JobRequest} {available : List NodeView}
      (hd : s.dispatcher = .offered job available) :
      Step cfg s (.answer job)
        { s with
          policy := (P.selectNode s.policy available job).2
          dispatcher := .answered job available (P.selectNode s.policy available job).1
          history := { s.history with
            asked := s.history.asked ++ [(s.history.instances, job.jobId)] } }
  | claim {job : JobRequest} {node : NodeView} {cluster : ClusterState}
      (hd : s.dispatcher = .chosen job node)
      (hr : s.cluster.reserveSlot node.nodeId job = (true, cluster)) :
      Step cfg s (.claim job node)
        { s with
          cluster := cluster
          dispatcher := .reserved job node true
          history := { s.history with reserved := s.history.reserved ++ [job] } }
  | refuseClaim {job : JobRequest} {node : NodeView} {cluster : ClusterState}
      (hd : s.dispatcher = .chosen job node)
      (hr : s.cluster.reserveSlot node.nodeId job = (false, cluster)) :
      Step cfg s (.refuseClaim job node)
        { s with cluster := cluster, dispatcher := .reserved job node false }
  | spawn {job : JobRequest} {node : NodeView} (now : Timestamp)
      (hd : s.dispatcher = .placed job node) :
      Step cfg s (.spawn job node now)
        { s with dispatcher := .idle, threads := ⟨job, node, now, .posting⟩ :: s.threads }
  -- `dispatch_job`: the `try` block
  | accept {t : DispatchThread} {pre post : List DispatchThread}
      (ht : s.threads = pre ++ t :: post) (hpc : t.pc = .posting) :
      Step cfg s (.accept t)
        { s with
          threads := pre ++ t.goto .accepted :: post
          executing := ⟨t.job, t.node.nodeId, false⟩ :: s.executing
          history := { s.history with
            accepted := s.history.accepted ++ [(t.job.jobId, t.node.nodeId)] } }
  | respond {t : DispatchThread} {pre post : List DispatchThread}
      (ht : s.threads = pre ++ t :: post) (hpc : t.pc = .accepted) :
      Step cfg s (.respond t) { s with threads := pre ++ t.goto .responded :: post }
  | recordDispatch {t : DispatchThread} {pre post : List DispatchThread} (now : Timestamp)
      (ht : s.threads = pre ++ t :: post) (hpc : t.pc = .responded) :
      Step cfg s (.recordDispatch t now)
        { s with
          db := s.db.dispatchJob t.job.jobId t.node.nodeId (some t.dispatchedAt) now
          threads := pre ++ t.goto .recorded :: post }
  | forgetAttempts {t : DispatchThread} {pre post : List DispatchThread}
      (ht : s.threads = pre ++ t :: post) (hpc : t.pc = .recorded) :
      Step cfg s (.forgetAttempts t)
        { s with
          cluster := s.cluster.forgetDispatchAttempts t.job.jobId
          threads := pre ++ post
          history := { s.history with returned := s.history.returned ++ [t.job.jobId] } }
  | raise {t : DispatchThread} {pre post : List DispatchThread}
      (ht : s.threads = pre ++ t :: post)
      (hpc : t.pc = .posting ∨ t.pc = .accepted ∨ t.pc = .responded) :
      Step cfg s (.raise t) { s with threads := pre ++ t.goto .raised :: post }
  -- `dispatch_job`: the `except` block
  | release {t : DispatchThread} {pre post : List DispatchThread}
      (ht : s.threads = pre ++ t :: post) (hpc : t.pc = .raised) :
      Step cfg s (.release t)
        { s with
          cluster := s.cluster.releaseSlot t.job.jobId
          threads := pre ++ t.goto .released :: post }
  | countFailure {t : DispatchThread} {pre post : List DispatchThread}
      (ht : s.threads = pre ++ t :: post) (hpc : t.pc = .released) :
      Step cfg s (.countFailure t)
        { s with
          cluster := (s.cluster.recordDispatchFailure t.job.jobId).2
          threads :=
            pre ++ t.goto (.counted (s.cluster.recordDispatchFailure t.job.jobId).1) :: post }
  | requeue {t : DispatchThread} {pre post : List DispatchThread} {attempts : ℕ}
      (ht : s.threads = pre ++ t :: post) (hpc : t.pc = .counted attempts)
      (hmax : ¬ (attempts : ℤ) ≥ cfg.maxDispatchAttempts) :
      Step cfg s (.requeue t)
        { s with
          cluster := s.cluster.enqueueJob t.job
          threads := pre ++ post
          history := { s.history with enqueued := s.history.enqueued ++ [t.job] } }
  | giveUp {t : DispatchThread} {pre post : List DispatchThread} {attempts : ℕ}
      (ht : s.threads = pre ++ t :: post) (hpc : t.pc = .counted attempts)
      (hmax : (attempts : ℤ) ≥ cfg.maxDispatchAttempts) :
      Step cfg s (.giveUp t)
        { s with
          cluster := s.cluster.forgetDispatchAttempts t.job.jobId
          threads := pre ++ t.goto .abandoning :: post }
  | markFailed {t : DispatchThread} {pre post : List DispatchThread}
      (ht : s.threads = pre ++ t :: post) (hpc : t.pc = .abandoning) :
      Step cfg s (.markFailed t)
        { s with
          db := s.db.markJobFailed t.job.jobId
          threads := pre ++ post
          history := { s.history with abandoned := s.history.abandoned ++ [t.job.jobId] } }
  | failMarkFailed {t : DispatchThread} {pre post : List DispatchThread}
      (ht : s.threads = pre ++ t :: post) (hpc : t.pc = .abandoning) :
      Step cfg s (.failMarkFailed t)
        { s with
          threads := pre ++ post
          history := { s.history with abandoned := s.history.abandoned ++ [t.job.jobId] } }
  -- an agent reports a job that has ended; `job_callback`
  | callback {result : JobResult} {e : Execution} {pre post : List Execution}
      (he : s.executing = pre ++ e :: post) (hjob : result.jobId = e.job.jobId)
      (hnode : result.nodeId = e.nodeId) (hlost : e.lost = false) :
      Step cfg s (.callback result)
        { s with
          cluster := s.cluster.releaseSlot result.jobId
          executing := pre ++ post
          results := result :: s.results
          history := { s.history with calledBack := s.history.calledBack ++ [result.jobId] } }
  | loseCallback {e : Execution} {pre post : List Execution}
      (he : s.executing = pre ++ e :: post) (hlost : e.lost = false) :
      Step cfg s (.loseCallback e)
        { s with executing := pre ++ { e with lost := true } :: post }
  | recordResult {result : JobResult} {pre post : List JobResult} (now : Timestamp)
      (hr : s.results = pre ++ result :: post) :
      Step cfg s (.recordResult result now)
        { s with
          db := s.db.recordJobResult result.jobId result.nodeId result.success
            result.runtimeSeconds result.exitCode (some (result.completedAt.getD now)) now
          results := pre ++ post }
  | failRecordResult {result : JobResult} {pre post : List JobResult}
      (hr : s.results = pre ++ result :: post) :
      Step cfg s (.failRecordResult result) { s with results := pre ++ post }
  -- `start_run`, under `run_lock`
  | startRun {request : RunStartRequest} (hl : s.runLock = .free) (ha : s.activeRunId = none) :
      Step cfg s (.startRun request) { s with runLock := .starting request }
  | refuseStart {request : RunStartRequest} {runId : RunId} (hl : s.runLock = .free)
      (ha : s.activeRunId = some runId) :
      Step cfg s (.refuseStart request) s
  | countQueue {request : RunStartRequest} (hl : s.runLock = .starting request) :
      Step cfg s .countQueue { s with runLock := .counted request s.cluster.queueSize }
  | readCounters {request : RunStartRequest} {queueSize : ℕ}
      (hl : s.runLock = .counted request queueSize)
      (hdrained : ¬ (queueSize : ℤ) + s.cluster.runningTotal > 0) :
      Step cfg s .readCounters { s with runLock := .drained request }
  | refuseInFlight {request : RunStartRequest} {queueSize : ℕ}
      (hl : s.runLock = .counted request queueSize)
      (hdrained : (queueSize : ℤ) + s.cluster.runningTotal > 0) :
      Step cfg s .refuseInFlight { s with runLock := .free }
  | swapPolicy {request : RunStartRequest} {policy : P.Instance} {policyName : String}
      (hl : s.runLock = .drained request) (hp : s.newPolicy request = some (policy, policyName)) :
      Step cfg s .swapPolicy
        { s with
          policy := policy
          policyName := policyName
          runLock := .swapped request
          history := { s.history with instances := s.history.instances + 1 } }
  | refusePolicy {request : RunStartRequest} (hl : s.runLock = .drained request)
      (hp : s.newPolicy request = none) :
      Step cfg s .refusePolicy { s with runLock := .free }
  | listNodes {request : RunStartRequest} (hl : s.runLock = .swapped request) :
      Step cfg s .listNodes { s with runLock := .listed request s.clusterSnapshot }
  | insertRun {request : RunStartRequest} {snapshot : List SnapshotNode} {db : Database}
      (runId : RunId) (now : Timestamp) (hl : s.runLock = .listed request snapshot)
      (hdb : s.db.startRun runId s.policyName request.label request.trace (some snapshot)
        request.notes now = some db) :
      Step cfg s (.insertRun runId now) { s with db := db, runLock := .inserted runId }
  | failInsertRun {request : RunStartRequest} {snapshot : List SnapshotNode}
      (hl : s.runLock = .listed request snapshot) :
      Step cfg s .failInsertRun { s with runLock := .free }
  | openRun {runId : RunId} (hl : s.runLock = .inserted runId) :
      Step cfg s .openRun
        { s with
          activeRunId := some runId
          runLock := .free
          history := { s.history with
            opened := some (s.history.instances, s.submittedIds) } }
  -- `finish_run`, under `run_lock`
  | finishRun {runId : RunId} (hl : s.runLock = .free) (ha : s.activeRunId = some runId) :
      Step cfg s .finishRun { s with runLock := .finishing runId }
  | refuseFinish (hl : s.runLock = .free) (ha : s.activeRunId = none) :
      Step cfg s .refuseFinish s
  | closeRow {runId : RunId} (now : Timestamp) (hl : s.runLock = .finishing runId) :
      Step cfg s (.closeRow now) { s with db := s.db.finishRun runId now, runLock := .finished runId }
  | failCloseRow {runId : RunId} (hl : s.runLock = .finishing runId) :
      Step cfg s .failCloseRow { s with runLock := .free }
  | closeRun {runId : RunId} (hl : s.runLock = .finished runId) :
      Step cfg s .closeRun { s with activeRunId := none, runLock := .free }

/-- The scheduler after start-up: nothing registered, nothing submitted. -/
def init (policy : P.Instance) (policyName : String) : Scheduler P where
  policy := policy
  policyName := policyName

/-! ### Assumptions on runs -/

/-- Every submission has a job id of its own. -/
def FreshIds (s : Scheduler P) : Event → Prop
  | .submit job => job.jobId ∉ s.submittedIds
  | _ => True

/-- No registered node expires, and every node keeps the capabilities it
registered with. -/
def SteadyNodes (s : Scheduler P) : Event → Prop
  | .register registration =>
      ∀ old ∈ s.cluster.registrations.get? registration.nodeId,
        old.profile.capabilities = registration.profile.capabilities
  | .expire timeoutSeconds now =>
      ∀ n ∈ s.cluster.registrations, n ∉ s.cluster.expiredNodes timeoutSeconds now
  | _ => True

/-- The row of a job is inserted before the dispatcher takes the job. -/
def RowFirst (s : Scheduler P) : Event → Prop
  | .dequeue job => job.jobId ∈ s.db.jobs
  | _ => True

end Scheduler

end HeteroSched
