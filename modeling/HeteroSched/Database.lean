/-
HeteroSched/Database.lean

The job and run tables of the scheduler's database, from `scheduler/db.py`.

Design.  A table is a dictionary by its primary key and every function of the
source is one transaction, so one function on `Database`.  An INSERT under a key
that exists raises and rolls back (`none`); an UPDATE whose WHERE clause matches
no row changes nothing and raises nothing (`Dict.modify`).  SQLite does not
enforce the declared foreign keys here (the pragma is never set), and the column
`status` is plain text.

Each write of the life of a job changes one row of `jobs` by a function of that
row (`dispatchedRow`, `finishedRow`), so that what holds of all rows can be
argued one row at a time.  The INSERT of a job also raises when a value cannot be
stored: `to_iso` refuses an instant outside of the years of `datetime`, and SQLite
an integer of more than 64 bits (`JobRow.Storable`).
-/
import HeteroSched.Schemas

namespace HeteroSched

/-! ### Rows -/

/-- A row of `jobs`; the key `job_id` is kept by the table. -/
structure JobRow where
  image : String
  command : Option String
  status : String
  submittedAt : Timestamp
  runId : Option RunId
  workloadType : Option String
  cpuRequest : Option ℤ
  memoryMb : Option ℤ
  requiresGpu : Option Bool
  jobSize : Option ℤ
  dispatchedAt : Option Timestamp := none
  dispatchedToNode : Option NodeId := none
  deriving DecidableEq, Repr

/-- A row of `job_results`. -/
structure JobResultRow where
  nodeId : NodeId
  success : Bool
  runtimeSeconds : ℚ
  exitCode : ℤ
  completedAt : Timestamp
  deriving DecidableEq, Repr

/-- The integer fits a column of SQLite, which has 64 bits. -/
def FitsInteger (n : ℤ) : Prop := -9223372036854775808 ≤ n ∧ n < 9223372036854775808

instance (n : ℤ) : Decidable (FitsInteger n) := inferInstanceAs (Decidable (_ ∧ _))

/-- The values of the row can be written. -/
def JobRow.Storable (row : JobRow) : Prop :=
  Representable row.submittedAt ∧ (∀ n ∈ row.cpuRequest, FitsInteger n) ∧
    (∀ n ∈ row.memoryMb, FitsInteger n) ∧ ∀ n ∈ row.jobSize, FitsInteger n

instance (row : JobRow) : Decidable row.Storable := inferInstanceAs (Decidable (_ ∧ _))

/-- What a run remembers of a node that took part in it. -/
structure SnapshotNode where
  nodeId : NodeId
  hostname : String
  cpus : ℤ
  physicalCores : ℤ
  memoryMb : ℤ
  architecture : String
  gpu : Bool
  deriving DecidableEq, Repr

/-- A row of `runs`. -/
structure RunRow where
  label : Option String
  policy : String
  trace : Option String
  startedAt : Timestamp
  finishedAt : Option Timestamp := none
  clusterSnapshot : Option (List SnapshotNode)
  notes : Option String
  deriving DecidableEq, Repr

/-- The tables of the database that jobs and runs are kept in. -/
structure Database where
  jobs : Dict JobId JobRow := ∅
  jobResults : Dict JobId JobResultRow := ∅
  runs : Dict RunId RunRow := ∅
  deriving DecidableEq

/-- How far a run is. -/
structure RunProgress where
  total : ℕ
  queued : ℕ
  dispatched : ℕ
  completed : ℕ
  failed : ℕ
  terminal : ℕ
  deriving DecidableEq, Repr

namespace Database

/-! ### Jobs -/

/-- The row of a job that was just submitted. -/
def queuedRow (image : String) (command : Option String) (runId : Option RunId)
    (submittedAt : Timestamp) (requirements : Option JobRequirements) : JobRow where
  image := image
  command := command
  status := "queued"
  submittedAt := submittedAt
  runId := runId
  workloadType := requirements.map fun r => r.workloadType.value
  cpuRequest := requirements.map fun r => r.cpuRequest
  memoryMb := requirements.bind fun r => r.memoryMb
  requiresGpu := requirements.map fun r => r.requiresGpu
  jobSize := requirements.bind fun r => r.size

/-- Record a job submission. -/
def submitJob (db : Database) (jobId : JobId) (image : String) (command : Option String)
    (runId : Option RunId) (submittedAt : Option Timestamp)
    (requirements : Option JobRequirements) (now : Timestamp) : Option Database :=
  let row := queuedRow image command runId (submittedAt.getD now) requirements
  if row.Storable ∧ jobId ∉ db.jobs then some { db with jobs := db.jobs.set jobId row }
  else none

/-- The row after `dispatch_job`: the status is only advanced when it is not
already terminal. -/
def dispatchedRow (nodeId : NodeId) (dispatchedAt : Timestamp) (row : JobRow) : JobRow :=
  { row with
    dispatchedAt := some dispatchedAt
    dispatchedToNode := some nodeId
    status := if row.status ∈ ["completed", "failed"] then row.status else "dispatched" }

/-- Record the dispatch of a job to a node. -/
def dispatchJob (db : Database) (jobId : JobId) (nodeId : NodeId)
    (dispatchedAt : Option Timestamp) (now : Timestamp) : Database :=
  let dispatchedAt := dispatchedAt.getD now
  { db with jobs := db.jobs.modify jobId (dispatchedRow nodeId dispatchedAt) }

/-- The row with a new status, whatever the old one was. -/
def finishedRow (status : String) (row : JobRow) : JobRow := { row with status := status }

/-- Record the result of a job: its row of `job_results`, and its status. -/
def recordJobResult (db : Database) (jobId : JobId) (nodeId : NodeId) (success : Bool)
    (runtimeSeconds : ℚ) (exitCode : ℤ) (completedAt : Option Timestamp) (now : Timestamp) :
    Database :=
  let completedAt := completedAt.getD now
  let status := if success then "completed" else "failed"
  { db with
    jobResults := db.jobResults.set jobId ⟨nodeId, success, runtimeSeconds, exitCode, completedAt⟩
    jobs := db.jobs.modify jobId (finishedRow status) }

/-- Mark a job as failed without a result. -/
def markJobFailed (db : Database) (jobId : JobId) : Database :=
  { db with jobs := db.jobs.modify jobId (finishedRow "failed") }

/-! ### Runs -/

/-- Open a run. -/
def startRun (db : Database) (runId : RunId) (policy : String) (label trace : Option String)
    (clusterSnapshot : Option (List SnapshotNode)) (notes : Option String) (now : Timestamp) :
    Option Database :=
  if runId ∈ db.runs then none
  else
    some { db with
      runs := db.runs.set runId
        { label := label
          policy := policy
          trace := trace
          startedAt := now
          clusterSnapshot := clusterSnapshot
          notes := notes } }

/-- Close a run. -/
def finishRun (db : Database) (runId : RunId) (now : Timestamp) : Database :=
  { db with runs := db.runs.modify runId fun row => { row with finishedAt := some now } }

/-- The rows a run's progress is counted over; `run_id = ?` matches no NULL. -/
def runJobs (db : Database) (runId : RunId) : List JobRow :=
  db.jobs.values.filter fun row => row.runId = some runId

/-- The status counts of a run. -/
def getRunProgress (db : Database) (runId : RunId) : RunProgress :=
  let rows := db.runJobs runId
  let count := fun status => rows.countP fun row => row.status = status
  { total := rows.length
    queued := count "queued"
    dispatched := count "dispatched"
    completed := count "completed"
    failed := count "failed"
    terminal := count "completed" + count "failed" }

/-! ### What the writes do to the tables -/

variable {db : Database}

theorem submitJob_eq_some {jobId : JobId} {image : String} {command : Option String}
    {runId : Option RunId} {submittedAt : Option Timestamp}
    {requirements : Option JobRequirements} {now : Timestamp} {db' : Database}
    (h : db.submitJob jobId image command runId submittedAt requirements now = some db') :
    jobId ∉ db.jobs ∧
    db' = { db with
      jobs := db.jobs.set jobId
        (queuedRow image command runId (submittedAt.getD now) requirements) } := by
  unfold submitJob at h
  obtain ⟨⟨-, hnew⟩, heq⟩ := Option.ite_none_right_eq_some.mp h
  exact ⟨hnew, (Option.some.inj heq).symm⟩

theorem startRun_eq_some {runId : RunId} {policy : String} {label trace notes : Option String}
    {snapshot : Option (List SnapshotNode)} {now : Timestamp} {db' : Database}
    (h : db.startRun runId policy label trace snapshot notes now = some db') :
    db'.jobs = db.jobs ∧ db'.jobResults = db.jobResults := by
  unfold startRun at h
  by_cases hmem : runId ∈ db.runs
  · rw [if_pos hmem] at h
    cases h
  · rw [if_neg hmem] at h
    obtain rfl := Option.some.inj h
    exact ⟨rfl, rfl⟩

@[simp] theorem dispatchJob_jobs (jobId : JobId) (nodeId : NodeId) (at? : Option Timestamp)
    (now : Timestamp) :
    (db.dispatchJob jobId nodeId at? now).jobs
      = db.jobs.modify jobId (dispatchedRow nodeId (at?.getD now)) := rfl

@[simp] theorem dispatchJob_jobResults (jobId : JobId) (nodeId : NodeId)
    (at? : Option Timestamp) (now : Timestamp) :
    (db.dispatchJob jobId nodeId at? now).jobResults = db.jobResults := rfl

@[simp] theorem recordJobResult_jobs (jobId : JobId) (nodeId : NodeId) (success : Bool)
    (runtime : ℚ) (exitCode : ℤ) (at? : Option Timestamp) (now : Timestamp) :
    (db.recordJobResult jobId nodeId success runtime exitCode at? now).jobs
      = db.jobs.modify jobId (finishedRow (if success then "completed" else "failed")) := rfl

@[simp] theorem recordJobResult_jobResults (jobId : JobId) (nodeId : NodeId) (success : Bool)
    (runtime : ℚ) (exitCode : ℤ) (at? : Option Timestamp) (now : Timestamp) :
    (db.recordJobResult jobId nodeId success runtime exitCode at? now).jobResults
      = db.jobResults.set jobId ⟨nodeId, success, runtime, exitCode, at?.getD now⟩ := rfl

@[simp] theorem markJobFailed_jobs (jobId : JobId) :
    (db.markJobFailed jobId).jobs = db.jobs.modify jobId (finishedRow "failed") := rfl

@[simp] theorem markJobFailed_jobResults (jobId : JobId) :
    (db.markJobFailed jobId).jobResults = db.jobResults := rfl

end Database

end HeteroSched
