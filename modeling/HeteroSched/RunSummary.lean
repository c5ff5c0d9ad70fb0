/-
HeteroSched/RunSummary.lean

Which jobs of a run the summary of `experiments/metrics.py` counts, after any
sequence of writes of `scheduler/db.py` on inserted jobs.

Design.  The summary reads two sources: the result that was joined to a job and
the status of its row.  What each of them says is known from the calls made so
far (`Outcomes`): a job has a result when `record_job_result` was called for it,
and its row is terminal when `record_job_result` or `mark_job_failed` was.  So
exactly the jobs that were only ever marked failed fall between the groups.
-/
import HeteroSched.JobStatus
import HeteroSched.Lib.Transition
import HeteroSched.Metrics

namespace HeteroSched

open Transition

namespace Database

/-! ### Calls on inserted jobs -/

/-- A call, as a step between databases. -/
def JobOp.Step (db : Database) (op : JobOp) (db' : Database) : Prop := db' = op.apply db

/-- The job the call is about has been inserted, unless the call inserts it. -/
def JobOp.OnInserted (db : Database) : JobOp → Prop
  | .submitJob .. => True
  | .dispatchJob jobId .. => jobId ∈ db.jobs
  | .recordJobResult jobId .. => jobId ∈ db.jobs
  | .markJobFailed jobId => jobId ∈ db.jobs

/-- The call records a result of the job. -/
def JobOp.Records (j : JobId) : JobOp → Prop
  | .recordJobResult jobId .. => jobId = j
  | _ => False

/-- The call gives the job up. -/
def JobOp.GivesUp (j : JobId) : JobOp → Prop
  | .markJobFailed jobId => jobId = j
  | _ => False

/-- A result of the job was recorded. -/
def Recorded (tr : List (Database × JobOp)) (j : JobId) : Prop := ∃ p ∈ tr, p.2.Records j

/-- The job was marked failed. -/
def GivenUp (tr : List (Database × JobOp)) (j : JobId) : Prop := ∃ p ∈ tr, p.2.GivesUp j

/-- What the tables say of a job, by the calls that were made for it. -/
structure Outcomes (tr : List (Database × JobOp)) (db : Database) : Prop where
  result_iff : ∀ j, j ∈ db.jobResults ↔ Recorded tr j
  terminal_iff : ∀ j row, db.jobs.get? j = some row →
    (statusRank row.status = 2 ↔ Recorded tr j ∨ GivenUp tr j)
  inserted : ∀ j, Recorded tr j ∨ GivenUp tr j → j ∈ db.jobs

/-! ### Step lemmas -/

variable {db : Database} {tr : List (Database × JobOp)}

theorem recorded_snoc {op : JobOp} {j : JobId} :
    Recorded (tr ++ [(db, op)]) j ↔ Recorded tr j ∨ op.Records j :=
  exists_mem_snoc (C := fun p : Database × JobOp => p.2.Records j)

theorem givenUp_snoc {op : JobOp} {j : JobId} :
    GivenUp (tr ++ [(db, op)]) j ↔ GivenUp tr j ∨ op.GivesUp j :=
  exists_mem_snoc (C := fun p : Database × JobOp => p.2.GivesUp j)

/-- Only `record_job_result` adds a result. -/
theorem mem_jobResults_apply (op : JobOp) (j : JobId) :
    j ∈ (op.apply db).jobResults ↔ j ∈ db.jobResults ∨ op.Records j := by
  cases op with
  | submitJob jobId image command runId submittedAt requirements now =>
      simp only [JobOp.apply, JobOp.Records, or_false]
      rcases h : db.submitJob jobId image command runId submittedAt requirements now with - | db'
      · exact Iff.rfl
      · obtain ⟨-, rfl⟩ := submitJob_eq_some h
        exact Iff.rfl
  | dispatchJob jobId nodeId dispatchedAt now =>
      simp only [JobOp.apply, JobOp.Records, or_false, dispatchJob_jobResults]
  | recordJobResult jobId nodeId success runtimeSeconds exitCode completedAt now =>
      simp only [JobOp.apply, JobOp.Records, recordJobResult_jobResults]
      rw [Dict.mem_set, or_comm, eq_comm]
  | markJobFailed jobId =>
      simp only [JobOp.apply, JobOp.Records, or_false, markJobFailed_jobResults]

theorem rank_dispatchedRow (nodeId : NodeId) (at' : Timestamp) (row : JobRow) :
    statusRank (dispatchedRow nodeId at' row).status = 2 ↔ statusRank row.status = 2 := by
  simp only [dispatchedRow]
  split
  · exact Iff.rfl
  · next h =>
      have hrow : statusRank row.status ≠ 2 := by
        simpa only [ne_eq, statusRank_eq_two, List.mem_cons, List.not_mem_nil, or_false] using h
      exact ⟨fun hd => absurd hd (by decide), fun hr => absurd hr hrow⟩

/-- Where the row of a job is terminal after a call, it was so before, or the
call recorded a result of the job or gave it up. -/
theorem rank_apply {op : JobOp} {j : JobId} {row' : JobRow}
    (h : (op.apply db).jobs.get? j = some row') :
    statusRank row'.status = 2 ↔
      (∃ row, db.jobs.get? j = some row ∧ statusRank row.status = 2) ∨
        op.Records j ∨ op.GivesUp j := by
  have hbefore : ∀ {row}, db.jobs.get? j = some row →
      ((∃ row, db.jobs.get? j = some row ∧ statusRank row.status = 2) ↔
        statusRank row.status = 2) := by
    intro row hrow
    constructor
    · rintro ⟨row₁, hrow₁, hr⟩
      obtain rfl := Option.some.inj (hrow.symm.trans hrow₁)
      exact hr
    · exact fun hr => ⟨row, hrow, hr⟩
  cases op with
  | submitJob jobId image command runId submittedAt requirements now =>
      simp only [JobOp.Records, JobOp.GivesUp, or_false]
      simp only [JobOp.apply] at h
      rcases hs : db.submitJob jobId image command runId submittedAt requirements now with - | db'
      · rw [hs] at h
        exact (hbefore h).symm
      · obtain ⟨hnew, rfl⟩ := submitJob_eq_some hs
        rw [hs, Option.getD_some, Dict.get?_set] at h
        split at h
        · next hj =>
            -- the new row is queued, and there was none before
            obtain rfl := Option.some.inj h
            have hqueued : statusRank "queued" ≠ 2 := by decide
            refine ⟨fun hr => absurd hr hqueued, fun hex => ?_⟩
            obtain ⟨row, hrow, -⟩ := hex
            exact absurd (Dict.mem_of_get? (hj ▸ hrow)) hnew
        · exact (hbefore h).symm
  | dispatchJob jobId nodeId dispatchedAt now =>
      simp only [JobOp.Records, JobOp.GivesUp, or_false]
      simp only [JobOp.apply, dispatchJob_jobs] at h
      obtain ⟨row, hrow, rfl⟩ := Dict.of_get?_modify h
      rw [hbefore hrow]
      split
      · exact rank_dispatchedRow ..
      · exact Iff.rfl
  | recordJobResult jobId nodeId success runtimeSeconds exitCode completedAt now =>
      simp only [JobOp.Records, JobOp.GivesUp, or_false]
      simp only [JobOp.apply, recordJobResult_jobs] at h
      obtain ⟨row, hrow, rfl⟩ := Dict.of_get?_modify h
      rw [hbefore hrow]
      split
      · next hj => exact ⟨fun _ => Or.inr hj.symm, fun _ => if_pos (terminal_status success)⟩
      · next hj => exact (or_iff_left (Ne.symm hj)).symm
  | markJobFailed jobId =>
      simp only [JobOp.Records, JobOp.GivesUp, false_or]
      simp only [JobOp.apply, markJobFailed_jobs] at h
      obtain ⟨row, hrow, rfl⟩ := Dict.of_get?_modify h
      rw [hbefore hrow]
      split
      · next hj => exact ⟨fun _ => Or.inr hj.symm, fun _ => statusRank_eq_two.mpr (Or.inr rfl)⟩
      · next hj => exact (or_iff_left (Ne.symm hj)).symm

theorem Outcomes.apply (h : Outcomes tr db) {op : JobOp} (hop : op.OnInserted db) :
    Outcomes (tr ++ [(db, op)]) (op.apply db) := by
  have hkept : ∀ j, j ∈ db.jobs → j ∈ (op.apply db).jobs := by
    intro j hj
    obtain ⟨row, hrow⟩ := Dict.mem_iff_get?.mp hj
    obtain ⟨row', hrow', -⟩ := forward_apply op j row hrow
    exact Dict.mem_of_get? hrow'
  refine ⟨fun j => ?_, fun j row' hrow' => ?_, fun j hj => ?_⟩
  · rw [mem_jobResults_apply, h.result_iff, recorded_snoc]
  · rw [rank_apply hrow', recorded_snoc, givenUp_snoc]
    have hbefore : (∃ row, db.jobs.get? j = some row ∧ statusRank row.status = 2) ↔
        Recorded tr j ∨ GivenUp tr j := by
      constructor
      · rintro ⟨row, hrow, hr⟩
        exact (h.terminal_iff j row hrow).mp hr
      · intro hj
        obtain ⟨row, hrow⟩ := Dict.mem_iff_get?.mp (h.inserted j hj)
        exact ⟨row, hrow, (h.terminal_iff j row hrow).mpr hj⟩
    rw [hbefore]
    tauto
  · rw [recorded_snoc, givenUp_snoc] at hj
    refine hkept j ?_
    rcases hj with (hj | hj) | hj | hj
    · exact h.inserted j (Or.inl hj)
    · cases op with
      | recordJobResult jobId nodeId success runtimeSeconds exitCode completedAt now =>
          exact (show jobId = j from hj) ▸ hop
      | _ => exact absurd hj (by simp [JobOp.Records])
    · exact h.inserted j (Or.inr hj)
    · cases op with
      | markJobFailed jobId => exact (show jobId = j from hj) ▸ hop
      | _ => exact absurd hj (by simp [JobOp.GivesUp])

theorem outcomes_init : Outcomes [] {} := by
  have hnone : ∀ j, ¬ (Recorded [] j ∨ GivenUp [] j) := by
    rintro j (⟨p, hp, -⟩ | ⟨p, hp, -⟩) <;> exact List.not_mem_nil hp
  refine ⟨fun j => ?_, fun j row h => ?_, fun j hj => absurd hj (hnone j)⟩
  · exact ⟨fun h => absurd h (Dict.not_mem_empty j), fun h => absurd (Or.inl h) (hnone j)⟩
  · simp at h

theorem run_outcomes (h : Run (restrict JobOp.Step JobOp.OnInserted) {} tr db) :
    Outcomes tr db :=
  h.invariant_trace outcomes_init fun _ ho hs => hs.2 ▸ ho.apply hs.1

/-! ### The groups of the summary -/

/-- In how many of the three groups the summary counts a job. -/
def groupsOf (r : JobRecord) : ℕ :=
  [decide (r.success = some true), decide (r.success = some false),
    decide (r.status ∉ ["completed", "failed"])].count true

/-- A job is counted exactly once when it has a result just if it is terminal. -/
theorem groupsOf_eq_one (r : JobRecord) :
    groupsOf r = 1 ↔ (r.success.isSome ↔ statusRank r.status = 2) := by
  have hrank : statusRank r.status = 2 ↔ r.status ∈ ["completed", "failed"] := by
    rw [statusRank_eq_two]
    simp only [List.mem_cons, List.not_mem_nil, or_false]
  rw [groupsOf, hrank]
  by_cases ht : r.status ∈ ["completed", "failed"]
  · rcases r.success with - | - | - <;> simp [ht]
  · rcases r.success with - | - | - <;> simp [ht]

theorem jobCounts_sum (rows : List JobRecord) :
    (jobCounts rows).completed + (jobCounts rows).failed + (jobCounts rows).incomplete
      = (rows.map groupsOf).sum := by
  simp only [jobCounts]
  induction rows with
  | nil => rfl
  | cons r rest ih =>
      simp only [List.map_cons, List.sum_cons, ← ih, List.countP_cons, groupsOf, List.count_cons,
        List.count_nil, beq_iff_eq]
      omega

/-- The rows of the query are the rows of the run's jobs. -/
theorem mem_getRunJobs {run : RunId} {job : RunJob} :
    job ∈ db.getRunJobs run ↔ ∃ j row, db.jobs.get? j = some row ∧ row.runId = some run ∧
      job = joinedRow j row (db.jobResults.get? j) := by
  simp only [getRunJobs, List.mem_map, List.mem_insertionSort, List.mem_filter, Prod.exists,
    decide_eq_true_eq, ← Dict.get?_eq_some_iff, and_assoc, eq_comm (a := job)]

theorem length_getRunJobs (run : RunId) :
    (db.getRunJobs run).length = (db.runJobs run).length := by
  simp only [getRunJobs, runJobs, List.length_map, List.length_insertionSort, Dict.values,
    ← List.countP_eq_length_filter, List.countP_map]
  rfl

/-! ### The theorem -/

/-- After any calls on inserted jobs the summary of a run has the number of its
jobs as total, and it counts each of them exactly once if and only if every job
of the run that was given up also had a result recorded. -/
theorem summary_partition_iff (h : Run (restrict JobOp.Step JobOp.OnInserted) {} tr db)
    (run : RunInfo) :
    let rows := jobRows (db.getRunJobs run.runId)
    let jobs := (summarise run (db.getRunJobs run.runId)).jobs
    jobs.total = (db.runJobs run.runId).length ∧
    ((jobs.completed + jobs.failed + jobs.incomplete = jobs.total ∧ ∀ r ∈ rows, groupsOf r = 1) ↔
      ∀ j row, db.jobs.get? j = some row → row.runId = some run.runId →
        GivenUp tr j → Recorded tr j) := by
  intro rows jobs
  have hout := run_outcomes h
  have htotal : jobs.total = (db.runJobs run.runId).length := by
    rw [← length_getRunJobs]
    exact List.length_map _
  -- whether a job is counted once is decided by the calls made for it
  have hone : ∀ j row, db.jobs.get? j = some row →
      (groupsOf (jobRecord (joinedRow j row (db.jobResults.get? j))) = 1 ↔
        (GivenUp tr j → Recorded tr j)) := by
    intro j row hrow
    rw [groupsOf_eq_one]
    show (((db.jobResults.get? j).map fun r => r.success).isSome ↔ statusRank row.status = 2) ↔ _
    rw [Option.isSome_map, Dict.get?_isSome_iff, hout.result_iff, hout.terminal_iff j row hrow]
    tauto
  have hall : (∀ r ∈ rows, groupsOf r = 1) ↔ ∀ j row, db.jobs.get? j = some row →
      row.runId = some run.runId → GivenUp tr j → Recorded tr j := by
    constructor
    · intro hr j row hrow hin
      refine (hone j row hrow).mp (hr _ (List.mem_map_of_mem ?_))
      exact mem_getRunJobs.mpr ⟨j, row, hrow, hin, rfl⟩
    · intro hcalls r hr
      obtain ⟨job, hjob, rfl⟩ := List.mem_map.mp hr
      obtain ⟨j, row, hrow, hin, rfl⟩ := mem_getRunJobs.mp hjob
      exact (hone j row hrow).mpr (hcalls j row hrow hin)
  refine ⟨htotal, ?_⟩
  rw [← hall]
  refine ⟨And.right, fun hr => ⟨?_, hr⟩⟩
  calc jobs.completed + jobs.failed + jobs.incomplete
      = (rows.map groupsOf).sum := jobCounts_sum rows
    _ = (rows.map fun _ => 1).sum := by rw [List.map_congr_left hr]
    _ = rows.length := by simp

/-- The writes of a job that is given up and has a result recorded afterwards. -/
def lateResult : List JobOp :=
  [.submitJob "j" "img" none (some "r") none none 0, .markJobFailed "j",
    .recordJobResult "j" "n" true 2 0 none 5]

theorem summary_partition_late_result :
    let jobs := (summarise { runId := "r", policy := "round_robin", startedAt := 0 }
      ((applyAll {} lateResult).getRunJobs "r")).jobs
    jobs.completed + jobs.failed + jobs.incomplete = jobs.total := by
  have hrun : Run (restrict JobOp.Step JobOp.OnInserted) {} (traceOf JobOp.apply {} lateResult)
      (applyAll {} lateResult) := by
    refine Run.of_traceOf fun p hp => ?_
    simp only [lateResult, traceOf, List.mem_cons, List.not_mem_nil, or_false] at hp
    rcases hp with rfl | rfl | rfl
    · trivial
    · exact List.mem_cons_self
    · exact List.mem_cons_self
  refine ((summary_partition_iff hrun
    { runId := "r", policy := "round_robin", startedAt := 0 }).2.mpr ?_).1
  rintro j row - - ⟨p, hp, hj⟩
  simp only [lateResult, traceOf, List.mem_cons, List.not_mem_nil, or_false] at hp
  rcases hp with rfl | rfl | rfl
  · cases hj
  · exact ⟨_, List.mem_cons_of_mem _ (List.mem_cons_of_mem _ List.mem_cons_self), hj⟩
  · cases hj

/-- The dispatcher gives up a job that never ran: the summary has it in no group. -/
theorem summary_loses_given_up :
    let ops := [JobOp.submitJob "j" "img" none (some "r") none none 0, .markJobFailed "j"]
    let db := applyAll {} ops
    Run (restrict JobOp.Step JobOp.OnInserted) {} (traceOf JobOp.apply {} ops) db ∧
    (summarise { runId := "r", policy := "round_robin", startedAt := 0 }
      (db.getRunJobs "r")).jobs
      = { total := 1, completed := 0, failed := 0, incomplete := 0 } := by
  intro ops db
  refine ⟨Run.of_traceOf fun p hp => ?_, by decide +kernel⟩
  simp only [ops, traceOf, List.mem_cons, List.not_mem_nil, or_false] at hp
  rcases hp with rfl | rfl
  · trivial
  · exact List.mem_cons_self

end Database

end HeteroSched
