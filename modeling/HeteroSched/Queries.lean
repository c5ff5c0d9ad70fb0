/-
HeteroSched/Queries.lean

The queries of `scheduler/db.py` that the monitoring endpoints answer with, on any
database that scheduler processes leave.

Design.  A listing is the rows that meet the WHERE clause, sorted; of rows with equal
times SQL promises no order.  SUM, AVG, MIN and MAX of no rows are NULL.

The listings by status and the listings by run are two partitions of the jobs: every
row has one of the four statuses, whatever steps a process took before it stopped,
and the run it names has a row.  So the totals of `get_job_statistics` are the totals
of the runs and of the jobs outside of runs.
-/
import HeteroSched.ForeignKeys
import HeteroSched.Lib.Grouping
import HeteroSched.RunLifecycle
import HeteroSched.RunSummary

namespace HeteroSched

open Transition

/-- What the summary reads of a node of the snapshot. -/
def SnapshotNode.entry (n : SnapshotNode) : SnapshotEntry := ⟨n.nodeId, some n.cpus⟩

/-- What the endpoints and the export read of the row of a run. -/
def RunRow.info (runId : RunId) (row : RunRow) : RunInfo where
  runId := runId
  label := row.label
  policy := row.policy
  trace := row.trace
  startedAt := row.startedAt
  finishedAt := row.finishedAt
  clusterSnapshot := row.clusterSnapshot.map fun nodes => nodes.map SnapshotNode.entry

namespace Database

/-! ### Rows -/

/-- The clause ORDER BY submitted_at DESC. -/
def newestFirst (rows : List (JobId × JobRow)) : List (JobId × JobRow) :=
  rows.insertionSort fun e e' => e'.2.submittedAt ≤ e.2.submittedAt

/-- All jobs, newest first. -/
def getAllJobs (db : Database) : List (JobId × JobRow) := newestFirst db.jobs.entries

/-- The jobs with a status, newest first. -/
def getJobsByStatus (db : Database) (status : String) : List (JobId × JobRow) :=
  newestFirst (db.jobs.entries.filter fun e => e.2.status = status)

/-- The row of a run. -/
def getRun (db : Database) (runId : RunId) : Option RunInfo :=
  (db.runs.get? runId).map (RunRow.info runId)

/-- All runs, newest first. -/
def getAllRuns (db : Database) : List (RunId × RunRow) :=
  db.runs.entries.insertionSort fun e e' => e'.2.startedAt ≤ e.2.startedAt

/-! ### Statistics -/

/-- The expression SUM(CASE WHEN p THEN 1 ELSE 0 END). -/
def sumCase {α : Type*} (rows : List α) (p : α → Bool) : Option ℕ :=
  if rows.isEmpty then none else some (rows.countP p)

/-- The expression AVG(value). -/
def avg (values : List ℚ) : Option ℚ := if values.isEmpty then none else some (fmean values)

/-- The columns of the query of `get_job_statistics`; a sum of no rows is NULL. -/
structure JobStatistics where
  totalJobs : ℕ
  completed : Option ℕ
  failed : Option ℕ
  dispatched : Option ℕ
  queued : Option ℕ
  successfulJobs : ℕ
  avgRuntimeSeconds : Option ℚ
  minRuntimeSeconds : Option ℚ
  maxRuntimeSeconds : Option ℚ
  deriving DecidableEq, Repr

/-- Counts of all jobs by status, and the runtimes of the successful ones. -/
def getJobStatistics (db : Database) : JobStatistics :=
  let rows := db.jobs.values
  let count := fun status => sumCase rows fun row => row.status = status
  let runtimes := (db.jobResults.values.filter fun r => r.success).map fun r => r.runtimeSeconds
  { totalJobs := rows.length
    completed := count "completed"
    failed := count "failed"
    dispatched := count "dispatched"
    queued := count "queued"
    successfulJobs := runtimes.length
    avgRuntimeSeconds := avg runtimes
    minRuntimeSeconds := runtimes.min?
    maxRuntimeSeconds := runtimes.max? }

/-- The columns of the query of `get_node_job_summary`. -/
structure NodeJobSummary where
  totalJobsOnNode : ℕ
  successful : Option ℕ
  failed : Option ℕ
  avgRuntimeSeconds : Option ℚ
  deriving DecidableEq, Repr

/-- The results recorded of a node. -/
def getNodeJobSummary (db : Database) (nodeId : NodeId) : NodeJobSummary :=
  let rows := db.jobResults.values.filter fun r => r.nodeId = nodeId
  { totalJobsOnNode := rows.length
    successful := sumCase rows fun r => r.success
    failed := sumCase rows fun r => !r.success
    avgRuntimeSeconds := avg (rows.map fun r => r.runtimeSeconds) }

@[simp] theorem sumCase_getD {α : Type*} (rows : List α) (p : α → Bool) :
    (sumCase rows p).getD 0 = rows.countP p := by
  cases rows <;> rfl

/-! ### Partitions -/

variable {db : Database}

/-- The jobs outside of runs. -/
def untagged (db : Database) : List (JobId × JobRow) :=
  db.jobs.entries.filter fun e => e.2.runId = none

theorem newestFirst_perm (rows : List (JobId × JobRow)) : (newestFirst rows).Perm rows :=
  List.perm_insertionSort _ rows

theorem getAllRuns_perm (db : Database) : db.getAllRuns.Perm db.runs.entries :=
  List.perm_insertionSort _ db.runs.entries

theorem nodup_getAllRuns (db : Database) : (db.getAllRuns.map Prod.fst).Nodup :=
  (db.getAllRuns_perm.map Prod.fst).nodup_iff.mpr db.runs.nodup_keys

/-- By the run a row names. -/
theorem perm_by_run (h : Scheduler.JobsNameRuns db) :
    db.jobs.entries.Perm (db.untagged ++ db.getAllRuns.flatMap fun run =>
      db.jobs.entries.filter fun e => e.2.runId = some run.1) := by
  have hnamed : ∀ e ∈ db.jobs.entries, ∀ r, e.2.runId = some r →
      r ∈ db.getAllRuns.map Prod.fst := by
    intro e he r hr
    have hmem := h e.1 e.2 (Dict.get?_eq_some_iff.mpr he) r hr
    exact (db.getAllRuns_perm.map Prod.fst).mem_iff.mpr hmem
  have htagged := Grouping.perm_by_key db.nodup_getAllRuns hnamed
  rw [List.flatMap_map] at htagged
  have hsplit : (db.untagged ++ db.jobs.entries.filter fun e => e.2.runId.isSome).Perm
      db.jobs.entries := by
    have hnot : ∀ e : JobId × JobRow, e.2.runId.isSome = !decide (e.2.runId = none) := by
      intro e
      rcases e.2.runId with - | r <;> simp
    simp only [hnot]
    exact List.filter_append_perm _ _
  exact hsplit.symm.trans (htagged.append_left _)

theorem countP_runJobs (run : RunId) (p : JobRow → Bool) :
    (db.runJobs run).countP p
      = (db.jobs.entries.filter fun e => e.2.runId = some run).countP fun e => p e.2 := by
  rw [runJobs, Dict.values, List.filter_map, List.countP_map]
  rfl

/-- So any count over the jobs is the sum of the counts over the runs and outside. -/
theorem countP_by_run (h : Scheduler.JobsNameRuns db) (p : JobRow → Bool) :
    db.jobs.values.countP p = db.untagged.countP (fun e => p e.2)
      + (db.getAllRuns.map fun run => (db.runJobs run.1).countP p).sum := by
  simp only [countP_runJobs]
  rw [Dict.values, List.countP_map, (perm_by_run h).countP_eq, List.countP_append,
    List.countP_flatMap]
  rfl

/-- By status. -/
theorem perm_by_status (h : StatusesValid db) :
    db.getAllJobs.Perm (statuses.flatMap db.getJobsByStatus) := by
  have hstatus : ∀ e ∈ db.jobs.entries, ∀ status, some e.2.status = some status →
      status ∈ statuses := by
    rintro e he status hs
    obtain rfl := Option.some.inj hs
    exact h e.1 e.2 (Dict.get?_eq_some_iff.mpr he)
  have hgroups : (db.jobs.entries.filter fun e => (some e.2.status).isSome).Perm _ :=
    Grouping.perm_by_key (by decide) hstatus
  simp only [Option.isSome_some, List.filter_true, Option.some_inj] at hgroups
  refine (newestFirst_perm _).trans (hgroups.trans ?_)
  exact List.Perm.flatMap_left _ fun status _ => (newestFirst_perm _).symm

theorem length_getJobsByStatus (status : String) :
    (db.getJobsByStatus status).length = db.jobs.values.countP fun row => row.status = status := by
  rw [getJobsByStatus, (newestFirst_perm _).length_eq, ← List.countP_eq_length_filter,
    Dict.values, List.countP_map]
  rfl

/-- The four statuses add up to all jobs. -/
theorem length_by_status (h : StatusesValid db) :
    db.jobs.values.length = (db.jobs.values.countP fun row => row.status = "queued")
      + (db.jobs.values.countP fun row => row.status = "dispatched")
      + (db.jobs.values.countP fun row => row.status = "completed")
      + (db.jobs.values.countP fun row => row.status = "failed") := by
  have hlength := (perm_by_status h).length_eq
  rw [getAllJobs, (newestFirst_perm _).length_eq, List.length_flatMap] at hlength
  simp only [statuses, List.map_cons, List.map_nil, List.sum_cons, List.sum_nil,
    length_getJobsByStatus] at hlength
  have hvalues : db.jobs.values.length = db.jobs.entries.length := List.length_map _
  omega

theorem getRunJobs_ids (run : RunId) :
    ((db.getRunJobs run).map fun job => job.jobId).Perm
      ((db.jobs.entries.filter fun e => e.2.runId = some run).map Prod.fst) := by
  rw [getRunJobs, List.map_map]
  exact (List.perm_insertionSort _ _).map _

theorem countP_status_getRunJobs (run : RunId) (status : String) :
    ((db.getRunJobs run).countP fun job => job.status = status)
      = (db.runJobs run).countP fun row => row.status = status := by
  rw [getRunJobs, List.countP_map, (List.perm_insertionSort _ _).countP_eq, countP_runJobs]
  rfl

end Database

namespace Scheduler

open Database (StatusesValid statusesValid_init)

variable {P : PolicyRegistry} {cfg : Config} {s t : Scheduler P} {e : Event}

/-- Every step leaves every row with one of the four statuses. -/
theorem Step.statusesValid (h : Step cfg s e t) (hs : StatusesValid s.db) : StatusesValid t.db := by
  cases h with
  | @insertSubmission job runId at' pre post db now hsub hdb =>
      have happly := hs.apply (.submitJob job.jobId job.image job.command runId (some at')
        (some job.requirements) now)
      simpa only [Database.JobOp.apply, hdb, Option.getD_some] using happly
  | @recordDispatch th pre post now ht hpc =>
      exact hs.apply (.dispatchJob th.job.jobId th.node.nodeId (some th.dispatchedAt) now)
  | @markFailed th pre post ht hpc => exact hs.apply (.markJobFailed th.job.jobId)
  | @recordResult result pre post now hr =>
      exact hs.apply (.recordJobResult result.jobId result.nodeId result.success
        result.runtimeSeconds result.exitCode (some (result.completedAt.getD now)) now)
  | insertRun runId now hl hdb =>
      obtain ⟨hjobs, -⟩ := Database.startRun_eq_some hdb
      intro j row hrow
      exact hs j row (hjobs ▸ hrow)
  | _ => exact hs

theorem Stored.statusesValid {db : Database} (h : Stored db) : StatusesValid db := by
  induction h with
  | empty => exact statusesValid_init
  | @left db P cfg policy policyName tr s hdb hrun ih =>
      exact hrun.invariant (I := fun s => StatusesValid s.db) ih fun hs hstep =>
        hstep.statusesValid hs

end Scheduler

namespace Database

variable {db : Database}

/-- On every database that scheduler processes leave, whichever step they stopped at:
the listings by status are a partition of all jobs; so are the listings by run and
the jobs outside of runs; and each total of the statistics is the sum of the
totals of the runs and of those jobs, the four statuses adding up to all jobs. -/
theorem listings_partition (h : Scheduler.Stored db) :
    db.getAllJobs.Perm (statuses.flatMap db.getJobsByStatus) ∧
    (db.getAllJobs.map Prod.fst).Perm (db.untagged.map Prod.fst ++
      db.getAllRuns.flatMap fun run => (db.getRunJobs run.1).map fun job => job.jobId) ∧
    (let stats := db.getJobStatistics
     let progress := db.getAllRuns.map fun run => db.getRunProgress run.1
     let outside := fun status => db.untagged.countP fun e => e.2.status = status
     stats.totalJobs = db.untagged.length + (progress.map fun p => p.total).sum ∧
     stats.queued.getD 0 = outside "queued" + (progress.map fun p => p.queued).sum ∧
     stats.dispatched.getD 0 = outside "dispatched" + (progress.map fun p => p.dispatched).sum ∧
     stats.completed.getD 0 = outside "completed" + (progress.map fun p => p.completed).sum ∧
     stats.failed.getD 0 = outside "failed" + (progress.map fun p => p.failed).sum ∧
     stats.totalJobs = stats.queued.getD 0 + stats.dispatched.getD 0 + stats.completed.getD 0
       + stats.failed.getD 0) := by
  have hnamed := h.jobsNameRuns
  have hvalid := h.statusesValid
  refine ⟨perm_by_status hvalid, ?_, ?_⟩
  · have hruns := ((newestFirst_perm _).trans (perm_by_run hnamed)).map Prod.fst
    rw [List.map_append, List.map_flatMap] at hruns
    refine hruns.trans (List.Perm.append_left _ (List.Perm.flatMap_left _ fun run _ => ?_))
    exact (getRunJobs_ids run.1).symm
  · intro stats progress outside
    have hcount : ∀ status, (sumCase db.jobs.values fun row => row.status = status).getD 0
        = outside status + (db.getAllRuns.map fun run =>
            (db.runJobs run.1).countP fun row => row.status = status).sum := by
      intro status
      rw [sumCase_getD, countP_by_run hnamed]
    refine ⟨?_, ?_, ?_, ?_, ?_, ?_⟩
    · have htotal := countP_by_run hnamed fun _ => true
      simp only [List.countP_true] at htotal
      rw [List.map_map]
      exact htotal
    · rw [List.map_map]
      exact hcount "queued"
    · rw [List.map_map]
      exact hcount "dispatched"
    · rw [List.map_map]
      exact hcount "completed"
    · rw [List.map_map]
      exact hcount "failed"
    · have hlength := length_by_status hvalid
      simp only [stats, getJobStatistics, sumCase_getD]
      exact hlength

/-- A process that was stopped with a job in its closed run and one outside of runs. -/
theorem listings_partition_two_jobs :
    ∃ db, Scheduler.Stored db ∧ db.getAllJobs.map Prod.fst = ["k", "j"] ∧
      db.untagged.map Prod.fst = ["k"] ∧ db.getAllRuns.map Prod.fst = ["r"] ∧
      db.getAllJobs.Perm (statuses.flatMap db.getJobsByStatus) ∧
      db.getJobStatistics.totalJobs = db.untagged.length
        + ((db.getAllRuns.map fun run => db.getRunProgress run.1).map fun p => p.total).sum := by
  have h₀ : Run (Scheduler.Step {}) (Scheduler.startOn {} (.roundRobin {} : Policy) "round_robin")
    [] (Scheduler.startOn (P := policies) {} (.roundRobin {}) "round_robin") := .refl
  have h₁ := h₀.tail (@Scheduler.Step.startRun _ _ _ {} rfl rfl)
  have h₂ := h₁.tail (.countQueue rfl)
  have h₃ := h₂.tail (.readCounters rfl (by decide))
  have h₄ := h₃.tail (@Scheduler.Step.swapPolicy policies _ _ {} (.roundRobin {}) "round_robin"
    rfl (Scheduler.newPolicy_round_robin rfl))
  have h₅ := h₄.tail (.listNodes rfl)
  have h₆ := h₅.tail (.insertRun "r" 0 rfl rfl)
  have h₇ := h₆.tail (.openRun rfl)
  have h₈ := h₇.tail (.submit (ClusterState.jobOf "j"))
  have h₉ := h₈.tail (@Scheduler.Step.tagSubmission _ _ _ _ [] _ 0 rfl)
  have h₁₀ := h₉.tail (@Scheduler.Step.insertSubmission _ _ _ _ _ _ [] _ _ 0 rfl rfl)
  have h₁₁ := h₁₀.tail (.finishRun rfl rfl)
  have h₁₂ := h₁₁.tail (.closeRow 1 rfl)
  have h₁₃ := h₁₂.tail (.closeRun rfl)
  have h₁₄ := h₁₃.tail (.submit (ClusterState.jobOf "k"))
  have h₁₅ := h₁₄.tail (@Scheduler.Step.tagSubmission _ _ _ _ [] _ 2 rfl)
  have h₁₆ := h₁₅.tail (@Scheduler.Step.insertSubmission _ _ _ _ _ _ [] _ _ 2 rfl rfl)
  have hstored := Scheduler.Stored.left .empty h₁₆
  have hpartition := listings_partition hstored
  exact ⟨_, hstored, by decide +kernel, by decide +kernel, by decide +kernel, hpartition.1,
    hpartition.2.2.1⟩

/-! ### Summaries of the nodes -/

/-- The results of a node, counted. -/
theorem countP_by_node {nodes : List NodeId} (hnodes : nodes.Nodup)
    (h : ∀ j r, db.jobResults.get? j = some r → r.nodeId ∈ nodes) (p : JobResultRow → Bool) :
    (nodes.map fun n => (db.jobResults.values.filter fun r => r.nodeId = n).countP p).sum
      = db.jobResults.values.countP p := by
  have hkeys : ∀ r ∈ db.jobResults.values, ∀ n, some r.nodeId = some n → n ∈ nodes := by
    rintro r hr n hn
    obtain rfl := Option.some.inj hn
    obtain ⟨e, he, rfl⟩ := List.mem_map.mp hr
    exact h e.1 e.2 (Dict.get?_eq_some_iff.mpr he)
  have hcount : (nodes.map fun n =>
      (db.jobResults.values.filter fun r => some r.nodeId = some n).countP p).sum = _ :=
    Grouping.countP_by_key hnodes p hkeys
  simpa only [Option.some_inj, Option.isSome_some, List.filter_true] using hcount

end Database

namespace Registry

variable {P : PolicyRegistry} {cfg : Config} {s : Registry P}

/-- In every run in which no insertion of a node or of a job fails, once no
registration is under way: the summaries of the nodes in the tables count every
result exactly once, as successful or as failed, and the successful ones are those
of the statistics. -/
theorem node_summaries_cover {policy : P.Instance} {policyName : String}
    {tr : List (Registry P × Event)}
    (h : Run (restrict (Step cfg) InsertsSucceed) (init policy policyName) tr s)
    (hdone : s.registering = []) :
    let db := s.scheduler.db
    let summaries := s.tables.getAllNodes.map fun node => db.getNodeJobSummary node.1
    (summaries.map fun n => n.totalJobsOnNode).sum = db.jobResults.values.length ∧
    (∀ n ∈ summaries, n.totalJobsOnNode = n.successful.getD 0 + n.failed.getD 0) ∧
    (summaries.map fun n => n.successful.getD 0).sum = db.getJobStatistics.successfulJobs := by
  intro db summaries
  have hexpected := run_expected h
  have hnodes : ∀ j r, db.jobResults.get? j = some r → r.nodeId ∈ s.tables.nodes.keys :=
    fun j r hr => (hexpected.nodes.jobResults j r hr).mem_nodes hdone
  have hcount := Database.countP_by_node s.tables.nodes.nodup_keys hnodes
  refine ⟨?_, fun n hn => ?_, ?_⟩
  · have htotal := hcount fun _ => true
    simp only [List.countP_true, List.map_map] at htotal
    rw [List.map_map]
    exact htotal
  · obtain ⟨node, -, rfl⟩ := List.mem_map.mp hn
    simp only [Database.getNodeJobSummary, Database.sumCase_getD]
    simpa using List.length_eq_countP_add_countP fun r : JobResultRow => r.success
  · have hsuccess := hcount fun r => r.success
    simp only [List.map_map] at hsuccess
    rw [List.map_map]
    simp only [Function.comp_def, Database.getNodeJobSummary, Database.sumCase_getD,
      Database.getJobStatistics, List.length_map, ← List.countP_eq_length_filter]
    exact hsuccess

/-- One result, of the node in the tables. -/
theorem node_summaries_cover_one_job :
    ∃ tr s, Run (restrict (Step {}) InsertsSucceed)
        (init (P := policies) (.roundRobin {}) "round_robin") tr s ∧
      s.tables.nodes.keys = ["n"] ∧
      ((s.tables.getAllNodes.map fun node => s.scheduler.db.getNodeJobSummary node.1).map fun n =>
        n.totalJobsOnNode).sum = s.scheduler.db.jobResults.values.length := by
  obtain ⟨tr, s, hrun, hregistering, -, -, hnodes, -⟩ := one_job_run
  exact ⟨tr, s, hrun, hnodes, (node_summaries_cover hrun hregistering).1⟩

end Registry

end HeteroSched
