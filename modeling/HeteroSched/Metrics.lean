/-
HeteroSched/Metrics.lean

A recorded run turned into numbers, from `experiments/metrics.py`, and the query
`get_run_jobs` of `scheduler/db.py` that feeds it.

Design.  Everything is computed exactly: durations are rational seconds, and a
standard deviation is kept as the variance it is the square root of.  A field a
row may lack is an `Option`; where the source tests `if x` a missing value and a
zero (or an empty string) both count as false, and so they do here.  The
dictionaries the source groups rows in are `Dict`s; `sorted(d.items())` is the
list of their entries by key.
-/
import HeteroSched.Database

namespace HeteroSched

/-! ### The jobs of a run -/

/-- A job of a run with its result attached, a row of `get_run_jobs`. -/
structure RunJob where
  jobId : JobId
  image : String
  command : Option String
  status : String
  runId : Option RunId
  submittedAt : Option Timestamp
  dispatchedAt : Option Timestamp
  dispatchedToNode : Option NodeId
  workloadType : Option String
  cpuRequest : Option ℤ
  memoryMb : Option ℤ
  requiresGpu : Option Bool
  jobSize : Option ℤ
  success : Option Bool
  runtimeSeconds : Option ℚ
  exitCode : Option ℤ
  completedAt : Option Timestamp
  deriving DecidableEq, Repr

/-- A row of `jobs` joined with the row of `job_results` under the same key; of a
job without a result the columns of the result are NULL. -/
def joinedRow (jobId : JobId) (row : JobRow) (result : Option JobResultRow) : RunJob where
  jobId := jobId
  image := row.image
  command := row.command
  status := row.status
  runId := row.runId
  submittedAt := some row.submittedAt
  dispatchedAt := row.dispatchedAt
  dispatchedToNode := row.dispatchedToNode
  workloadType := row.workloadType
  cpuRequest := row.cpuRequest
  memoryMb := row.memoryMb
  requiresGpu := row.requiresGpu
  jobSize := row.jobSize
  success := result.map fun r => r.success
  runtimeSeconds := result.map fun r => r.runtimeSeconds
  exitCode := result.map fun r => r.exitCode
  completedAt := result.map fun r => r.completedAt

/-- Every job in a run with its execution result attached. -/
def Database.getRunJobs (db : Database) (runId : RunId) : List RunJob :=
  let jobs := db.jobs.entries.filter fun e => e.2.runId = some runId
  let ordered := jobs.insertionSort fun e e' => e.2.submittedAt ≤ e'.2.submittedAt
  ordered.map fun e => joinedRow e.1 e.2 (db.jobResults.get? e.1)

/-- What the summary reads of a node in the stored `cluster_snapshot`. -/
structure SnapshotEntry where
  nodeId : NodeId
  cpus : Option ℤ
  deriving DecidableEq, Repr

/-- The metadata of a run, as `get_run` gives it. -/
structure RunInfo where
  runId : RunId
  label : Option String := none
  policy : String
  trace : Option String := none
  startedAt : Timestamp
  finishedAt : Option Timestamp := none
  clusterSnapshot : Option (List SnapshotEntry) := none
  deriving DecidableEq, Repr

/-! ### Summary statistics -/

/-- Elapsed seconds between two stored timestamps, if both are there. -/
def secondsBetween (start finish : Option Timestamp) : Option ℚ :=
  match start, finish with
  | some start, some finish => some ((finish - start) / 1000000)
  | _, _ => none

/-- The nearest integer, a half going to the even one, as Python's `round`. -/
def roundHalfEven (q : ℚ) : ℤ :=
  let rest := q - q.floor
  if rest < 1 / 2 then q.floor
  else if 1 / 2 < rest then q.floor + 1
  else if q.floor % 2 = 0 then q.floor
  else q.floor + 1

/-- Nearest-rank percentile; the rank is rounded half to even. -/
def percentile (values : List ℚ) (pct : ℚ) : Option ℚ :=
  if values = [] then none
  else
    let ordered := values.insertionSort (· ≤ ·)
    let rank := max 1 (roundHalfEven (pct / 100 * ordered.length))
    ordered[(min rank ordered.length - 1).toNat]?

/-- The function `statistics.fmean`. -/
def fmean (values : List ℚ) : ℚ := values.sum / values.length

/-- The function `statistics.median`, of a list that is not empty. -/
def median (values : List ℚ) : Option ℚ :=
  let ordered := values.insertionSort (· ≤ ·)
  let n := ordered.length
  if n % 2 = 1 then ordered[n / 2]?
  else
    match ordered[n / 2 - 1]?, ordered[n / 2]? with
    | some low, some high => some ((low + high) / 2)
    | _, _ => none

/-- A standard deviation, as the variance it is the square root of. -/
structure Stdev where
  variance : ℚ
  deriving DecidableEq, Repr

/-- The function `statistics.stdev`, of a sample of at least two. -/
def stdev (values : List ℚ) : Stdev where
  variance := (values.map fun v => (v - fmean values) ^ 2).sum / (values.length - 1)

/-- Summary statistics for a set of measurements. -/
structure Distribution where
  n : ℕ := 0
  mean : Option ℚ := none
  median : Option ℚ := none
  stdev : Option Stdev := none
  min : Option ℚ := none
  p95 : Option ℚ := none
  max : Option ℚ := none
  deriving DecidableEq, Repr

/-- Summary statistics for a set of measurements; missing ones are left out. -/
def distribution (values : List (Option ℚ)) : Distribution :=
  let clean := values.reduceOption
  if clean = [] then {}
  else
    { n := clean.length
      mean := some (fmean clean)
      median := median clean
      stdev := some (if clean.length > 1 then stdev clean else ⟨0⟩)
      min := clean.min?
      p95 := percentile clean 95
      max := clean.max? }

/-- Jain's fairness index. -/
def jainsFairness (values : List ℚ) : Option ℚ :=
  let total := values.sum
  let squares := (values.map fun v => v * v).sum
  if values = [] then none
  else if total = 0 then none
  else if squares = 0 then none
  else some (total * total / (values.length * squares))

/-! ### Records of jobs -/

/-- A job with the derived durations attached. -/
structure JobRecord where
  jobId : JobId
  image : String
  command : Option String
  status : String
  nodeId : Option NodeId
  workloadType : Option String
  jobSize : Option ℤ
  cpuRequest : Option ℤ
  memoryMb : Option ℤ
  submittedAt : Option Timestamp
  dispatchedAt : Option Timestamp
  completedAt : Option Timestamp
  queueWaitS : Option ℚ
  runtimeS : Option ℚ
  turnaroundS : Option ℚ
  overheadS : Option ℚ
  success : Option Bool
  exitCode : Option ℤ
  deriving DecidableEq, Repr

/-- The record of a job with the derived durations attached. -/
def jobRecord (job : RunJob) : JobRecord :=
  let queueWait := secondsBetween job.submittedAt job.dispatchedAt
  let turnaround := secondsBetween job.submittedAt job.completedAt
  let runtime := job.runtimeSeconds
  let overhead := match turnaround, queueWait, runtime with
    | some turnaround, some queueWait, some runtime => some (turnaround - queueWait - runtime)
    | _, _, _ => none
  { jobId := job.jobId
    image := job.image
    command := job.command
    status := job.status
    nodeId := job.dispatchedToNode
    workloadType := job.workloadType
    jobSize := job.jobSize
    cpuRequest := job.cpuRequest
    memoryMb := job.memoryMb
    submittedAt := job.submittedAt
    dispatchedAt := job.dispatchedAt
    completedAt := job.completedAt
    queueWaitS := queueWait
    runtimeS := runtime
    turnaroundS := turnaround
    overheadS := overhead
    success := job.success
    exitCode := job.exitCode }

/-- Per-job records with the derived durations attached. -/
def jobRows (jobs : List RunJob) : List JobRecord := jobs.map jobRecord

/-! ### Tables by node and by workload -/

/-- The entries of a dictionary by key. -/
def sortedItems {α : Type*} (d : Dict String α) : List (String × α) :=
  d.entries.insertionSort fun e e' => e.1 ≤ e'.1

/-- The call `groups.setdefault(key, []).append(row)`. -/
def appendTo {α : Type*} (groups : Dict String (List α)) (key : String) (row : α) :
    Dict String (List α) :=
  groups.set key (groups.getD key [] ++ [row])

/-- The expression `n.get("cpus") or default`. -/
def SnapshotEntry.cpusOr (n : SnapshotEntry) (default : ℤ) : ℤ :=
  match n.cpus with
  | some cpus => if cpus = 0 then default else cpus
  | none => default

/-- The totals of a node in a run. -/
structure NodeStats where
  nodeId : NodeId
  cpus : ℤ
  jobs : ℕ
  jobsPerCpu : Option ℚ
  successful : ℕ
  failed : ℕ
  busyTimeS : ℚ
  meanRuntimeS : Option ℚ
  utilisation : Option ℚ
  deriving DecidableEq, Repr

/-- The rows of each node, starting from the nodes of the snapshot. -/
def rowsByNode (rows : List JobRecord) (cluster : List SnapshotEntry) :
    Dict NodeId (List JobRecord) :=
  let byNode := cluster.foldl (fun d n => d.set n.nodeId []) ∅
  rows.foldl (fun d row =>
    match row.nodeId with
    | some nodeId => appendTo d nodeId row
    | none => d) byNode

/-- The cores of each node of the snapshot; the last entry of a node counts. -/
def cpusByNode (cluster : List SnapshotEntry) : Dict NodeId ℤ :=
  cluster.foldl (fun d n => d.set n.nodeId (n.cpusOr 1)) ∅

/-- The totals of one node. -/
def nodeStats (nodeId : NodeId) (nodeJobs : List JobRecord) (cpus : ℤ) (makespan : Option ℚ) :
    NodeStats :=
  let runtimes := (nodeJobs.map fun r => r.runtimeS).reduceOption
  let busy := runtimes.sum
  { nodeId := nodeId
    cpus := cpus
    jobs := nodeJobs.length
    jobsPerCpu := if cpus = 0 then none else some (nodeJobs.length / cpus)
    successful := nodeJobs.countP fun r => r.success = some true
    failed := nodeJobs.countP fun r => r.success = some false
    busyTimeS := busy
    meanRuntimeS := if runtimes = [] then none else some (fmean runtimes)
    utilisation := match makespan with
      | some makespan =>
          if makespan = 0 ∨ cpus = 0 then none else some (busy / (makespan * cpus))
      | none => none }

/-- Per-node totals, by node id, also of nodes that received no job. -/
def nodeRows (rows : List JobRecord) (cluster : List SnapshotEntry) (makespan : Option ℚ) :
    List NodeStats :=
  (sortedItems (rowsByNode rows cluster)).map fun e =>
    nodeStats e.1 e.2 ((cpusByNode cluster).getD e.1 1) makespan

/-- The expression `row.get("workload_type") or "unspecified"`. -/
def JobRecord.workload (row : JobRecord) : String :=
  match row.workloadType with
  | some workloadType => if workloadType = "" then "unspecified" else workloadType
  | none => "unspecified"

/-- The metrics of the jobs of one workload type. -/
structure WorkloadStats where
  jobs : ℕ
  completed : ℕ
  failed : ℕ
  runtimeS : Distribution
  queueWaitS : Distribution
  turnaroundS : Distribution
  placement : Dict NodeId ℕ
  deriving DecidableEq

/-- How many rows of a group each node received. -/
def placement (group : List JobRecord) : Dict NodeId ℕ :=
  group.foldl (fun d row =>
    match row.nodeId with
    | some nodeId => if nodeId = "" then d else d.set nodeId (d.getD nodeId 0 + 1)
    | none => d) ∅

/-- Metrics split by workload type. -/
def byWorkload (rows : List JobRecord) : List (String × WorkloadStats) :=
  let groups := rows.foldl (fun d row => appendTo d row.workload row) ∅
  (sortedItems groups).map fun e =>
    (e.1,
      { jobs := e.2.length
        completed := e.2.countP fun r => r.success = some true
        failed := e.2.countP fun r => r.success = some false
        runtimeS := distribution (e.2.map fun r => r.runtimeS)
        queueWaitS := distribution (e.2.map fun r => r.queueWaitS)
        turnaroundS := distribution (e.2.map fun r => r.turnaroundS)
        placement := placement e.2 })

/-- The mean runtime of the jobs of one workload type on one node. -/
structure NodeRuntime where
  jobs : ℕ
  meanRuntimeS : ℚ
  deriving DecidableEq, Repr

/-- Mean runtime for each pair of node and workload type. -/
def runtimeByNodeAndWorkload (rows : List JobRecord) :
    List (String × List (NodeId × NodeRuntime)) :=
  let groups := rows.foldl (fun d row =>
    match row.nodeId, row.runtimeS with
    | some nodeId, some runtime =>
        d.set row.workload (appendTo (d.getD row.workload ∅) nodeId runtime)
    | _, _ => d) (∅ : Dict String (Dict NodeId (List ℚ)))
  (sortedItems groups).map fun e =>
    (e.1, (sortedItems e.2).map fun node => (node.1, ⟨node.2.length, fmean node.2⟩))

/-! ### The summary -/

/-- How many jobs a run has, and how they ended. -/
structure JobCounts where
  total : ℕ
  completed : ℕ
  failed : ℕ
  incomplete : ℕ
  deriving DecidableEq, Repr

/-- The summary of a run. -/
structure Summary where
  runId : RunId
  label : Option String
  policy : String
  trace : Option String
  startedAt : Timestamp
  finishedAt : Option Timestamp
  nodes : ℕ
  totalCpus : ℤ
  jobs : JobCounts
  makespanS : Option ℚ
  throughputJobsPerS : Option ℚ
  queueWaitS : Distribution
  runtimeS : Distribution
  turnaroundS : Distribution
  overheadS : Distribution
  fairnessJobs : Option ℚ
  fairnessJobsPerCpu : Option ℚ
  nodesDetail : List NodeStats
  byWorkload : List (String × WorkloadStats)
  runtimeByNodeAndWorkload : List (String × List (NodeId × NodeRuntime))
  deriving DecidableEq

/-- The three groups `summarise` counts: by the result, twice, and by the status. -/
def jobCounts (rows : List JobRecord) : JobCounts where
  total := rows.length
  completed := rows.countP fun r => r.success = some true
  failed := rows.countP fun r => r.success = some false
  incomplete := rows.countP fun r => r.status ∉ ["completed", "failed"]

/-- First submission to last completion. -/
def makespan (rows : List JobRecord) : Option ℚ :=
  let submitted := (rows.map fun r => r.submittedAt).reduceOption
  let completed := (rows.map fun r => r.completedAt).reduceOption
  secondsBetween submitted.min? completed.max?

/-- Aggregate metrics for one run. -/
def summarise (run : RunInfo) (jobs : List RunJob) : Summary :=
  let rows := jobRows jobs
  let cluster := run.clusterSnapshot.getD []
  let makespan := makespan rows
  let counts := jobCounts rows
  let nodeStats := nodeRows rows cluster makespan
  { runId := run.runId
    label := run.label
    policy := run.policy
    trace := run.trace
    startedAt := run.startedAt
    finishedAt := run.finishedAt
    nodes := cluster.length
    totalCpus := (cluster.map fun n => n.cpusOr 0).sum
    jobs := counts
    makespanS := makespan
    throughputJobsPerS := match makespan with
      | some makespan => if makespan = 0 then none else some (counts.completed / makespan)
      | none => none
    queueWaitS := distribution (rows.map fun r => r.queueWaitS)
    runtimeS := distribution (rows.map fun r => r.runtimeS)
    turnaroundS := distribution (rows.map fun r => r.turnaroundS)
    overheadS := distribution (rows.map fun r => r.overheadS)
    fairnessJobs := jainsFairness (nodeStats.map fun n => n.jobs)
    fairnessJobsPerCpu := jainsFairness (nodeStats.map fun n => n.jobsPerCpu).reduceOption
    nodesDetail := nodeStats
    byWorkload := byWorkload rows
    runtimeByNodeAndWorkload := runtimeByNodeAndWorkload rows }

end HeteroSched
