/-
HeteroSched/JobRows.lean

When the row of a job agrees with the row of its result.

Three threads write about one job: the dispatch thread records the node, the
callback records the result, and a dispatch thread that gives up marks the job
failed.  None of them looks at what the others wrote.  Each of the three writes
keeps the two rows in agreement under a condition on what it finds, and breaks
it otherwise, so the rows agree throughout a run exactly when every write meets
its condition (`rows_agree_iff`).

The condition fails when a job was accepted although its dispatch raised: the
job is then given up after it succeeded, or recorded on one node and run on
another (`rows_disagree`).  When dispatches fail only cleanly, every write meets
it (`writeAgrees_of_clean`).
-/
import HeteroSched.AtMostOnce
import HeteroSched.Conservation
import HeteroSched.Provenance

namespace HeteroSched

open Transition

/-! ### Agreement of the two tables -/

namespace Database

/-- The status is terminal as the result says, and the recorded node, if any, is
the node of the result. -/
structure RowAgrees (row : JobRow) (r : JobResultRow) : Prop where
  completed : row.status = "completed" ↔ r.success = true
  failed : row.status = "failed" ↔ r.success = false
  node : ∀ n, row.dispatchedToNode = some n → n = r.nodeId

/-- Every result belongs to a job whose row agrees with it. -/
def RowsAgree (db : Database) : Prop :=
  ∀ j r, db.jobResults.get? j = some r → ∃ row, db.jobs.get? j = some row ∧ RowAgrees row r

variable {db : Database}

/-- A status that agrees with a result is terminal. -/
theorem RowAgrees.terminal {row : JobRow} {r : JobResultRow} (h : RowAgrees row r) :
    row.status ∈ ["completed", "failed"] := by
  rcases hs : r.success with - | -
  · rw [h.failed.mpr hs]
    decide
  · rw [h.completed.mpr hs]
    decide

/-- Rewriting the row of one job, without a new result, keeps the agreement when
the new row agrees with the result that is there, and only then. -/
theorem rowsAgree_modify {db' : Database} {jobId : JobId} {f : JobRow → JobRow} (h : RowsAgree db)
    (hjobs : db'.jobs = db.jobs.modify jobId f) (hresults : db'.jobResults = db.jobResults) :
    RowsAgree db' ↔
      ∀ r row, db.jobResults.get? jobId = some r → db.jobs.get? jobId = some row →
        RowAgrees (f row) r := by
  constructor
  · intro h' r row hr hrow
    obtain ⟨row', hrow', hagree⟩ := h' jobId r (by rw [hresults, hr])
    rw [hjobs, Dict.get?_modify, if_pos rfl, hrow, Option.map_some] at hrow'
    exact Option.some.inj hrow' ▸ hagree
  · intro hcond j r hr
    rw [hresults] at hr
    obtain ⟨row, hrow, hagree⟩ := h j r hr
    rw [hjobs, Dict.get?_modify]
    by_cases hj : j = jobId
    · subst hj
      exact ⟨f row, by rw [if_pos rfl, hrow, Option.map_some], hcond r row hr hrow⟩
    · exact ⟨row, by rw [if_neg hj, hrow], hagree⟩

theorem rowAgrees_dispatchedRow {row : JobRow} {r : JobResultRow} (h : RowAgrees row r)
    (nodeId : NodeId) (at' : Timestamp) :
    RowAgrees (dispatchedRow nodeId at' row) r ↔ r.nodeId = nodeId := by
  constructor
  · intro h'
    exact (h'.node nodeId rfl).symm
  · rintro rfl
    refine ⟨?_, ?_, fun n hn => (Option.some.inj hn).symm⟩
    · simp only [dispatchedRow, if_pos h.terminal]
      exact h.completed
    · simp only [dispatchedRow, if_pos h.terminal]
      exact h.failed

theorem rowAgrees_failedRow {row : JobRow} {r : JobResultRow} (h : RowAgrees row r) :
    RowAgrees (finishedRow "failed" row) r ↔ r.success = false := by
  constructor
  · intro h'
    exact h'.failed.mp rfl
  · intro hr
    refine ⟨?_, iff_of_true rfl hr, h.node⟩
    simp [finishedRow, hr]

/-- Recording a dispatch keeps the agreement exactly when a result that is there
names the same node. -/
theorem RowsAgree.dispatchJob_iff (h : RowsAgree db) (jobId : JobId) (nodeId : NodeId)
    (at? : Option Timestamp) (now : Timestamp) :
    RowsAgree (db.dispatchJob jobId nodeId at? now) ↔
      ∀ r, db.jobResults.get? jobId = some r → r.nodeId = nodeId := by
  refine (rowsAgree_modify h (dispatchJob_jobs ..) (dispatchJob_jobResults ..)).trans ?_
  constructor
  · intro hcond r hr
    obtain ⟨row, hrow, hagree⟩ := h jobId r hr
    exact (rowAgrees_dispatchedRow hagree nodeId _).mp (hcond r row hr hrow)
  · intro hcond r row hr hrow
    obtain ⟨row', hrow', hagree⟩ := h jobId r hr
    obtain rfl := Option.some.inj (hrow.symm.trans hrow')
    exact (rowAgrees_dispatchedRow hagree nodeId _).mpr (hcond r hr)

/-- Marking a job failed keeps the agreement exactly when it has no successful
result. -/
theorem RowsAgree.markJobFailed_iff (h : RowsAgree db) (jobId : JobId) :
    RowsAgree (db.markJobFailed jobId) ↔
      ∀ r, db.jobResults.get? jobId = some r → r.success = false := by
  refine (rowsAgree_modify h (markJobFailed_jobs ..) (markJobFailed_jobResults ..)).trans ?_
  constructor
  · intro hcond r hr
    obtain ⟨row, hrow, hagree⟩ := h jobId r hr
    exact (rowAgrees_failedRow hagree).mp (hcond r row hr hrow)
  · intro hcond r row hr hrow
    obtain ⟨row', hrow', hagree⟩ := h jobId r hr
    obtain rfl := Option.some.inj (hrow.symm.trans hrow')
    exact (rowAgrees_failedRow hagree).mpr (hcond r hr)

/-- Recording a result keeps the agreement exactly when the recorded node, if
any, is the one that reports it. -/
theorem RowsAgree.recordJobResult_iff (h : RowsAgree db) {jobId : JobId} (hrow : jobId ∈ db.jobs)
    (nodeId : NodeId) (success : Bool) (runtime : ℚ) (exitCode : ℤ) (at? : Option Timestamp)
    (now : Timestamp) :
    RowsAgree (db.recordJobResult jobId nodeId success runtime exitCode at? now) ↔
      ∀ row n, db.jobs.get? jobId = some row → row.dispatchedToNode = some n → n = nodeId := by
  obtain ⟨row, hrow⟩ := Dict.mem_iff_get?.mp hrow
  constructor
  · intro h' row' n hrow' hn
    obtain rfl := Option.some.inj (hrow.symm.trans hrow')
    obtain ⟨row'', hrow'', hagree⟩ := h' jobId _ (Dict.get?_set_self _ _ _)
    rw [recordJobResult_jobs, Dict.get?_modify, if_pos rfl, hrow, Option.map_some] at hrow''
    obtain rfl := Option.some.inj hrow''
    exact hagree.node n hn
  · intro hcond j r hr
    rw [recordJobResult_jobResults, Dict.get?_set] at hr
    rw [recordJobResult_jobs, Dict.get?_modify]
    by_cases hj : j = jobId
    · rw [if_pos hj] at hr
      obtain rfl := Option.some.inj hr
      refine ⟨finishedRow (if success then "completed" else "failed") row,
        by rw [if_pos hj, hrow, Option.map_some], ?_, ?_, fun n hn => hcond row n hrow hn⟩
      · cases success <;> simp [finishedRow]
      · cases success <;> simp [finishedRow]
    · rw [if_neg hj] at hr ⊢
      exact h j r hr

/-- A new row has no result yet. -/
theorem RowsAgree.submitJob (h : RowsAgree db) {db' : Database} {jobId : JobId} {row : JobRow}
    (hnew : jobId ∉ db.jobs) (hjobs : db'.jobs = db.jobs.set jobId row)
    (hresults : db'.jobResults = db.jobResults) : RowsAgree db' := by
  intro j r hr
  rw [hresults] at hr
  obtain ⟨row', hrow', hagree⟩ := h j r hr
  have hne : j ≠ jobId := fun hj => hnew (hj ▸ Dict.mem_of_get? hrow')
  exact ⟨row', by rw [hjobs, Dict.get?_set_ne _ _ hne, hrow'], hagree⟩

end Database

namespace Scheduler

variable {P : PolicyRegistry} {cfg : Config} {s t : Scheduler P} {e : Event}

/-! ### Every job in flight has a row -/

/-- The rows of `jobs` are never removed. -/
theorem Step.mem_jobs (h : Step cfg s e t) {j : JobId} (hj : j ∈ s.db.jobs) : j ∈ t.db.jobs := by
  cases h with
  | insertSubmission now hs hdb =>
      obtain ⟨-, rfl⟩ := Database.submitJob_eq_some hdb
      exact Dict.mem_set.mpr (Or.inr hj)
  | recordDispatch now ht hpc => exact Dict.mem_modify.mpr hj
  | markFailed ht hpc => exact Dict.mem_modify.mpr hj
  | recordResult now hr => exact Dict.mem_modify.mpr hj
  | insertRun runId now hl hdb =>
      obtain ⟨hjobs, -⟩ := Database.startRun_eq_some hdb
      exact hjobs ▸ hj
  | _ => exact hj

/-- Every job in flight and every job with a result to be recorded has a row. -/
structure Rows (s : Scheduler P) : Prop where
  inFlight : InFlight (fun job => job.jobId ∈ s.db.jobs) s
  results : ∀ r ∈ s.results, r.jobId ∈ s.db.jobs

theorem rows_init (policy : P.Instance) (policyName : String) : Rows (init policy policyName) where
  inFlight := inFlight_init policy policyName
  results := fun _ h => absurd h List.not_mem_nil

/-- A result to be recorded was there before, or is of a job an agent ran. -/
theorem Step.mem_results (h : Step cfg s e t) {r : JobResult} (hr : r ∈ t.results) :
    r ∈ s.results ∨ ∃ ex ∈ s.executing, r.jobId = ex.job.jobId ∧ r.nodeId = ex.nodeId := by
  cases h with
  | @callback result ex pre post he hjob hnode =>
      rcases List.mem_cons.mp hr with rfl | hr
      · exact Or.inr ⟨ex, by rw [he]; simp, hjob, hnode⟩
      · exact Or.inl hr
  | recordResult now hs =>
      rw [hs]
      exact Or.inl (mem_split_of_mem hr)
  | failRecordResult hs =>
      rw [hs]
      exact Or.inl (mem_split_of_mem hr)
  | _ => exact Or.inl hr

theorem Rows.step (h : Rows s) (hrow : RowFirst s e) (hs : Step cfg s e t) : Rows t where
  inFlight := by
    refine hs.inFlight (h.inFlight.mono fun job hj => hs.mem_jobs hj) fun job he => ?_
    subst he
    exact hs.mem_jobs hrow
  results := by
    intro r hr
    rcases hs.mem_results hr with hr | ⟨ex, hex, hjob, -⟩
    · exact hs.mem_jobs (h.results r hr)
    · rw [hjob]
      exact hs.mem_jobs (h.inFlight.executing ex hex)

theorem rowsAgree_init (policy : P.Instance) (policyName : String) :
    (init policy policyName).db.RowsAgree := by
  intro j r h
  cases h

/-! ### Writes -/

/-- What the three writes need to find: `mark_job_failed` no successful result,
`dispatch_job` no result of another node, `record_job_result` no other node in
the job's row. -/
def WriteAgrees (s : Scheduler P) : Event → Prop
  | .markFailed t => ∀ r, s.db.jobResults.get? t.job.jobId = some r → r.success = false
  | .recordDispatch t _ =>
      ∀ r, s.db.jobResults.get? t.job.jobId = some r → r.nodeId = t.node.nodeId
  | .recordResult result _ =>
      ∀ row n, s.db.jobs.get? result.jobId = some row → row.dispatchedToNode = some n →
        n = result.nodeId
  | _ => True

/-- A step keeps the agreement exactly when its write finds what it needs. -/
theorem Step.rowsAgree_iff (h : Step cfg s e t) (hs : s.db.RowsAgree) (hrows : Rows s) :
    t.db.RowsAgree ↔ WriteAgrees s e := by
  cases h with
  | insertSubmission now hsub hdb =>
      obtain ⟨hnew, rfl⟩ := Database.submitJob_eq_some hdb
      exact iff_of_true (hs.submitJob hnew rfl rfl) trivial
  | recordDispatch now ht hpc => exact hs.dispatchJob_iff ..
  | markFailed ht hpc => exact hs.markJobFailed_iff _
  | @recordResult result pre post now hr =>
      exact hs.recordJobResult_iff (hrows.results result (by rw [hr]; simp)) ..
  | insertRun runId now hl hdb =>
      obtain ⟨hjobs, hresults⟩ := Database.startRun_eq_some hdb
      refine iff_of_true (fun j r hr => ?_) trivial
      rw [hresults] at hr
      rw [hjobs]
      exact hs j r hr
  | _ => exact iff_of_true hs trivial

/-! ### Runs with clean failures -/

/-- Whoever waits for a job, runs it or has written down where it went names a
node that accepted it. -/
structure Traced (s : Scheduler P) : Prop where
  threads : ∀ a ∈ attemptsAt DispatchPc.isWaiting s.threads, a ∈ s.history.accepted
  executing : ∀ ex ∈ s.executing, ex.attempt ∈ s.history.accepted
  results : ∀ r ∈ s.results, (r.jobId, r.nodeId) ∈ s.history.accepted
  jobResults : ∀ j r, s.db.jobResults.get? j = some r → (j, r.nodeId) ∈ s.history.accepted
  rows : ∀ j row n, s.db.jobs.get? j = some row → row.dispatchedToNode = some n →
    (j, n) ∈ s.history.accepted

theorem traced_init (policy : P.Instance) (policyName : String) :
    Traced (init policy policyName) where
  threads := fun _ h => absurd h (Multiset.notMem_zero _)
  executing := fun _ h => absurd h List.not_mem_nil
  results := fun _ h => absurd h List.not_mem_nil
  jobResults := by
    intro j r h
    cases h
  rows := by
    intro j row n h
    cases h

theorem Step.accepted_subset (h : Step cfg s e t) {a : JobId × NodeId}
    (ha : a ∈ s.history.accepted) : a ∈ t.history.accepted := by
  cases h with
  | accept ht hpc => exact List.mem_append_left _ ha
  | _ => exact ha

/-- An attempt that waits was waiting before, or has just been accepted. -/
theorem Step.mem_waiting (h : Step cfg s e t) {a : JobId × NodeId}
    (ha : a ∈ attemptsAt DispatchPc.isWaiting t.threads) :
    a ∈ attemptsAt DispatchPc.isWaiting s.threads ∨ a ∈ t.history.accepted := by
  cases h with
  | spawn now hd =>
      rw [attemptsAt_cons] at ha
      exact Or.inl ha
  | accept ht hpc =>
      rw [attemptsAt_split_of_pos rfl] at ha
      rcases Multiset.mem_cons.mp ha with rfl | ha
      · exact Or.inr (List.mem_append_right _ (List.mem_singleton.mpr rfl))
      · left
        rw [ht, attemptsAt_split, hpc]
        exact ha
  | respond ht hpc =>
      rw [attemptsAt_goto (by rw [hpc]; rfl), ← ht] at ha
      exact Or.inl ha
  | recordDispatch now ht hpc =>
      rw [attemptsAt_goto (by rw [hpc]; rfl), ← ht] at ha
      exact Or.inl ha
  | raise ht hpc =>
      rw [attemptsAt_split] at ha
      exact Or.inl (ht ▸ mem_attemptsAt_split ha)
  | release ht hpc =>
      rw [attemptsAt_split] at ha
      exact Or.inl (ht ▸ mem_attemptsAt_split ha)
  | countFailure ht hpc =>
      rw [attemptsAt_split] at ha
      exact Or.inl (ht ▸ mem_attemptsAt_split ha)
  | giveUp ht hpc hmax =>
      rw [attemptsAt_split] at ha
      exact Or.inl (ht ▸ mem_attemptsAt_split ha)
  | forgetAttempts ht hpc => exact Or.inl (ht ▸ mem_attemptsAt_split ha)
  | requeue ht hpc hmax => exact Or.inl (ht ▸ mem_attemptsAt_split ha)
  | markFailed ht hpc => exact Or.inl (ht ▸ mem_attemptsAt_split ha)
  | failMarkFailed ht hpc => exact Or.inl (ht ▸ mem_attemptsAt_split ha)
  | _ => exact Or.inl ha

/-- An attempt that is accepted is in the history. -/
theorem Step.attempt_mem_accepted {th : DispatchThread} (h : Step cfg s (.accept th) t) :
    th.attempt ∈ t.history.accepted := by
  cases h with
  | accept ht hpc => exact List.mem_append_right _ (List.mem_singleton.mpr rfl)

/-- A result in the database was there before, or a callback brought it. -/
theorem Step.jobResults (h : Step cfg s e t) {j : JobId} {r : JobResultRow}
    (hr : t.db.jobResults.get? j = some r) :
    s.db.jobResults.get? j = some r ∨
      ∃ result ∈ s.results, result.jobId = j ∧ result.nodeId = r.nodeId := by
  cases h with
  | insertSubmission now hs hdb =>
      obtain ⟨-, rfl⟩ := Database.submitJob_eq_some hdb
      exact Or.inl hr
  | @recordResult result pre post now hs =>
      rw [Database.recordJobResult_jobResults, Dict.get?_set] at hr
      split at hr
      · next hj =>
          obtain rfl := Option.some.inj hr
          exact Or.inr ⟨result, by rw [hs]; simp, hj.symm, rfl⟩
      · exact Or.inl hr
  | insertRun runId now hl hdb =>
      obtain ⟨-, hresults⟩ := Database.startRun_eq_some hdb
      exact Or.inl (by rwa [hresults] at hr)
  | _ => exact Or.inl hr

/-- The node in a row was there before, or is the node of a thread that records
its dispatch. -/
theorem Step.dispatchedToNode (h : Step cfg s e t) {j : JobId} {row : JobRow} {n : NodeId}
    (hrow : t.db.jobs.get? j = some row) (hn : row.dispatchedToNode = some n) :
    (∃ row', s.db.jobs.get? j = some row' ∧ row'.dispatchedToNode = some n) ∨
      ∃ th ∈ s.threads, th.pc = .responded ∧ th.attempt = (j, n) := by
  -- a write of the status leaves the node alone
  have hstatus : ∀ {k : JobId} {status : String},
      (s.db.jobs.modify k (Database.finishedRow status)).get? j = some row →
      ∃ row', s.db.jobs.get? j = some row' ∧ row'.dispatchedToNode = some n := by
    intro k status hget
    obtain ⟨row', hrow', rfl⟩ := Dict.of_get?_modify hget
    refine ⟨row', hrow', ?_⟩
    split at hn
    · exact hn
    · exact hn
  cases h with
  | insertSubmission now hs hdb =>
      obtain ⟨-, rfl⟩ := Database.submitJob_eq_some hdb
      rw [Dict.get?_set] at hrow
      split at hrow
      · obtain rfl := Option.some.inj hrow
        cases hn
      · exact Or.inl ⟨row, hrow, hn⟩
  | @recordDispatch th pre post now ht hpc =>
      rw [Database.dispatchJob_jobs] at hrow
      obtain ⟨row', hrow', rfl⟩ := Dict.of_get?_modify hrow
      split at hn
      · next hj =>
          obtain rfl := Option.some.inj hn
          exact Or.inr ⟨th, by rw [ht]; simp, hpc, by rw [hj]; rfl⟩
      · exact Or.inl ⟨row', hrow', hn⟩
  | markFailed ht hpc => exact Or.inl (hstatus hrow)
  | recordResult now hr => exact Or.inl (hstatus hrow)
  | insertRun runId now hl hdb =>
      obtain ⟨hjobs, -⟩ := Database.startRun_eq_some hdb
      exact Or.inl ⟨row, by rwa [hjobs] at hrow, hn⟩
  | _ => exact Or.inl ⟨row, hrow, hn⟩

theorem Traced.step (h : Traced s) (hs : Step cfg s e t) : Traced t where
  threads := by
    intro a ha
    rcases hs.mem_waiting ha with ha | hacc
    · exact hs.accepted_subset (h.threads a ha)
    · exact hacc
  executing := by
    intro ex hex
    rcases hs.mem_executing hex with ⟨ex', hex', hjob, hnode, -⟩ | ⟨th, -, rfl, hjob, hnode⟩
    · rw [Execution.attempt, ← hjob, ← hnode]
      exact hs.accepted_subset (h.executing ex' hex')
    · rw [Execution.attempt, ← hjob, ← hnode]
      exact hs.attempt_mem_accepted
  results := by
    intro r hr
    rcases hs.mem_results hr with hr | ⟨ex, hex, hjob, hnode⟩
    · exact hs.accepted_subset (h.results r hr)
    · rw [hjob, hnode]
      exact hs.accepted_subset (h.executing ex hex)
  jobResults := by
    intro j r hr
    rcases hs.jobResults hr with hr | ⟨result, hresult, hj, hnode⟩
    · exact hs.accepted_subset (h.jobResults j r hr)
    · rw [← hj, ← hnode]
      exact hs.accepted_subset (h.results result hresult)
  rows := by
    intro j row n hrow hn
    rcases hs.dispatchedToNode hrow hn with ⟨row', hrow', hn'⟩ | ⟨th, hth, hpc, hattempt⟩
    · exact hs.accepted_subset (h.rows j row' n hrow' hn')
    · have hwaiting : (j, n) ∈ attemptsAt DispatchPc.isWaiting s.threads :=
        mem_attemptsAt.mpr ⟨th, hth, by rw [hpc]; rfl, hattempt⟩
      exact hs.accepted_subset (h.threads (j, n) hwaiting)

/-- A job that is accepted once is accepted by one node. -/
theorem node_unique (h : JobFlow.Staged s.flow) {j : JobId} {m n : NodeId}
    (hm : (j, m) ∈ s.history.accepted) (hn : (j, n) ∈ s.history.accepted) : m = n := by
  have hnodup : (s.history.accepted.map Prod.fst).Nodup := by
    rw [List.nodup_iff_count_le_one]
    intro k
    have hle := h.accepted_le k
    simp only [flow, Multiset.coe_count] at hle
    omega
  exact (Prod.mk.inj (List.inj_on_of_nodup_map hnodup hm hn rfl)).2

/-- When each job is accepted once and is not given up then, every write finds
what it needs. -/
theorem Traced.writeAgrees (h : Traced s) (hstaged : JobFlow.Staged s.flow)
    (hs : Step cfg s e t) : WriteAgrees s e := by
  cases hs with
  | @recordDispatch th pre post now ht hpc =>
      intro r hr
      have hwaiting : th.attempt ∈ s.history.accepted :=
        h.threads _ (mem_attemptsAt.mpr ⟨th, by rw [ht]; simp, by rw [hpc]; rfl, rfl⟩)
      exact node_unique hstaged (h.jobResults _ r hr) hwaiting
  | @recordResult result pre post now hr =>
      intro row n hrow hn
      have hresult := h.results result (by rw [hr]; simp)
      exact node_unique hstaged (h.rows _ row n hrow hn) hresult
  | @markFailed th pre post ht hpc =>
      intro r hr
      exfalso
      have hle := hstaged.accepted_le th.job.jobId
      have haccepted : 0 < s.flow.accepted.count th.job.jobId :=
        Multiset.count_pos.mpr (List.mem_map.mpr ⟨_, h.jobResults _ r hr, rfl⟩)
      have hreleased : 0 < s.flow.released.count th.job.jobId := by
        have hmem : th.attempt ∈ attemptsAt DispatchPc.isReleased s.threads :=
          mem_attemptsAt.mpr ⟨th, by rw [ht]; simp, by rw [hpc]; rfl, rfl⟩
        exact Multiset.count_pos.mpr (Multiset.mem_map_of_mem Prod.fst hmem)
      omega
  | _ => trivial

/-- What holds in every run in which dispatches fail only cleanly and a job's row
comes first. -/
structure CleanRows (s : Scheduler P) : Prop where
  agree : s.db.RowsAgree
  rows : Rows s
  traced : Traced s
  staged : JobFlow.Staged s.flow

theorem cleanRows_init (policy : P.Instance) (policyName : String) :
    CleanRows (init policy policyName) where
  agree := rowsAgree_init policy policyName
  rows := rows_init policy policyName
  traced := traced_init policy policyName
  staged := staged_init policy policyName

theorem CleanRows.step (h : CleanRows s)
    (hs : restrict (Step cfg) (fun s e => CleanFailures s e ∧ RowFirst s e) s e t) :
    CleanRows t := by
  obtain ⟨⟨hclean, hrow⟩, hstep⟩ := hs
  have hwrite := h.traced.writeAgrees h.staged hstep
  exact ⟨(hstep.rowsAgree_iff h.agree h.rows).mpr hwrite, h.rows.step hrow hstep,
    h.traced.step hstep, hstep.staged hclean h.staged⟩

/-- When dispatches fail only cleanly, every write finds what it needs. -/
theorem writeAgrees_of_clean {policy : P.Instance} {policyName : String}
    {tr : List (Scheduler P × Event)}
    (h : Run (restrict (Step cfg) fun s e => CleanFailures s e ∧ RowFirst s e)
      (init policy policyName) tr s) : ∀ p ∈ tr, WriteAgrees p.1 p.2 :=
  h.forall_trace (cleanRows_init policy policyName) CleanRows.step
    fun hI hs => hI.traced.writeAgrees hI.staged hs.2

/-! ### The theorem -/

/-- In every run in which a job's row is inserted before the dispatcher takes the
job, the rows agree with the results in every state exactly when every write
finds what it needs. -/
theorem rows_agree_iff {policy : P.Instance} {policyName : String}
    {tr : List (Scheduler P × Event)}
    (h : Run (restrict (Step cfg) fun s e => FreshIds s e ∧ RowFirst s e)
      (init policy policyName) tr s) :
    Throughout (fun s => s.db.RowsAgree) tr s ↔ ∀ p ∈ tr, WriteAgrees p.1 p.2 := by
  refine h.always_iff (I := fun s => s.db.RowsAgree ∧ Rows s) ?_ (fun hI => hI.1) ?_ ?_
  · exact ⟨rowsAgree_init policy policyName, rows_init policy policyName⟩
  · rintro s e t ⟨hs, hrows⟩ hwrite ⟨hA, hstep⟩
    exact ⟨(hstep.rowsAgree_iff hs hrows).mpr hwrite, hrows.step hA.2 hstep⟩
  · rintro s e t ⟨hs, hrows⟩ ⟨-, hstep⟩ ht
    exact (hstep.rowsAgree_iff hs hrows).mp ht

/-- A job whose response was lost is recorded on the second node and reported by
the first. -/
theorem rows_disagree :
    ∃ tr s, Run (restrict (Step {}) fun s e => FreshIds s e ∧ RowFirst s e) defaultInit tr s ∧
      ¬ s.db.RowsAgree := by
  obtain ⟨tr, s, hrun, -, hexecuting, hthreads, -⟩ := lost_response_run
  have h₀ := hrun.mono (B := fun s e => FreshIds s e ∧ RowFirst s e) fun h => ⟨h.1, h.2.2⟩
  have hrow : "j" ∈ s.db.jobs := by
    have hrows : Rows s := h₀.invariant (rows_init _ _) fun hs ⟨hA, hstep⟩ => hs.step hA.2 hstep
    exact hrows.inFlight.executing ⟨ClusterState.jobOf "j", "n", false⟩ (by rw [hexecuting]; simp)
  have h₁ := h₀.tail_restrict (@Step.respond _ _ _ _ [] [] hthreads rfl) ⟨trivial, trivial⟩
  have h₂ := h₁.tail_restrict (@Step.recordDispatch _ _ _ _ [] [] 0 rfl rfl) ⟨trivial, trivial⟩
  have h₃ := h₂.tail_restrict
    (@Step.callback _ _ _ (successOn "n") _ [⟨ClusterState.jobOf "j", "m", false⟩] [] hexecuting rfl rfl rfl)
    ⟨trivial, trivial⟩
  have h₄ := h₃.tail_restrict (@Step.recordResult _ _ _ (successOn "n") [] _ 0 rfl)
    ⟨trivial, trivial⟩
  refine ⟨_, _, h₄, fun hagree => ?_⟩
  obtain ⟨row, hget⟩ := Dict.mem_iff_get?.mp hrow
  obtain ⟨row', hget', hrow'⟩ := hagree "j" _ (Dict.get?_set_self _ _ _)
  have hjobs : ((s.db.jobs.modify "j" (Database.dispatchedRow "m" 0)).modify "j"
      (Database.finishedRow "completed")).get? "j" = some row' := hget'
  rw [Dict.get?_modify, if_pos rfl, Dict.get?_modify, if_pos rfl, hget] at hjobs
  obtain rfl := Option.some.inj hjobs
  exact absurd (hrow'.node "m" rfl) (by decide)

/-- A job that runs on the node it was recorded on, and all its threads are done. -/
theorem recorded_run :
    ∃ tr s, Run (restrict (Step {}) fun s e => CleanFailures s e ∧ RowFirst s e) defaultInit tr s ∧
      s.history.accepted = [("j", "n")] ∧ s.history.calledBack = ["j"] ∧
      s.submissions = [] ∧ s.threads = [] ∧ s.results = [] ∧ "j" ∈ s.db.jobResults := by
  have h₀ : Run (restrict (Step {}) fun s e => CleanFailures s e ∧ RowFirst s e)
    defaultInit [] defaultInit := .refl
  have h₁ := h₀.tail_restrict (.register (ClusterState.nodeOf "n" 1 64)) ⟨trivial, trivial⟩
  have h₂ := h₁.tail_restrict (.submit (ClusterState.jobOf "j")) ⟨List.not_mem_nil, trivial⟩
  have h₃ := h₂.tail_restrict (@Step.tagSubmission _ _ _ _ [] _ 0 rfl) ⟨trivial, trivial⟩
  have h₄ := h₃.tail_restrict (@Step.insertSubmission _ _ _ _ _ _ [] _ _ 0 rfl rfl)
    ⟨trivial, trivial⟩
  have h₅ := h₄.tail_restrict (.dequeue rfl rfl) ⟨trivial, List.mem_cons_self⟩
  have h₆ := h₅.tail_restrict (.offer rfl) ⟨trivial, trivial⟩
  have h₇ := h₆.tail_restrict (.answer rfl) ⟨trivial, trivial⟩
  have h₈ := h₇.tail_restrict (@Step.claim _ _ _ (ClusterState.jobOf "j") (idleView "n") _
    (by decide +kernel) (Prod.ext (by decide +kernel) rfl)) ⟨trivial, trivial⟩
  have h₉ := h₈.tail_restrict (.spawn 0 rfl) ⟨trivial, trivial⟩
  have h₁₀ := h₉.tail_restrict (@Step.accept _ _ _ _ [] _ rfl rfl) ⟨trivial, trivial⟩
  have h₁₁ := h₁₀.tail_restrict (@Step.respond _ _ _ _ [] _ rfl rfl) ⟨trivial, trivial⟩
  have h₁₂ := h₁₁.tail_restrict (@Step.recordDispatch _ _ _ _ [] _ 0 rfl rfl) ⟨trivial, trivial⟩
  have h₁₃ := h₁₂.tail_restrict (@Step.forgetAttempts _ _ _ _ [] _ rfl rfl) ⟨trivial, trivial⟩
  have h₁₄ := h₁₃.tail_restrict (@Step.callback _ _ _ (successOn "n") _ [] _ rfl rfl rfl rfl)
    ⟨trivial, trivial⟩
  have h₁₅ := h₁₄.tail_restrict (@Step.recordResult _ _ _ (successOn "n") [] _ 0 rfl)
    ⟨trivial, trivial⟩
  exact ⟨_, _, h₁₅, rfl, rfl, rfl, rfl, rfl, List.mem_cons_self⟩

/-- A job that runs on the node it was recorded on agrees with its result. -/
theorem rows_agree_recorded :
    ∃ tr s, Run (restrict (Step {}) fun s e => FreshIds s e ∧ RowFirst s e) defaultInit tr s ∧
      "j" ∈ s.db.jobResults ∧ Throughout (fun s => s.db.RowsAgree) tr s := by
  obtain ⟨tr, s, hrun, -, -, -, -, -, hresult⟩ := recorded_run
  have hfresh := hrun.mono (B := fun s e => FreshIds s e ∧ RowFirst s e)
    fun h => ⟨h.1.freshIds, h.2⟩
  exact ⟨tr, s, hfresh, hresult, (rows_agree_iff hfresh).mpr (writeAgrees_of_clean hrun)⟩

end Scheduler

end HeteroSched
