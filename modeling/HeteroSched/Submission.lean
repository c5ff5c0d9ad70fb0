/-
HeteroSched/Submission.lean

When the updates of a job reach its row.

`submit_job` queues the job before it inserts the row, so the dispatcher, the
agent and the callback may be done with the job while there is no row yet.  Their
updates then change nothing and raise nothing, and the row that is inserted in
the end stays that of a queued job (`row_left_queued`).  No update of a job is
lost when each of them finds the row (`updates_recorded`).

Each record of what happened to a job is owed by somebody until it is written:
the dispatch by the thread the agent has accepted, the outcome by the callback's
handler (`Recorded`).  When nobody who owes anything is left, everything is
written.
-/
import HeteroSched.JobRows

namespace HeteroSched

open Transition

/-! ### What a row records -/

namespace Database

/-- The job has a row, and `Q` holds of it. -/
def RowIs (db : Database) (j : JobId) (Q : JobRow → Prop) : Prop :=
  ∃ row, db.jobs.get? j = some row ∧ Q row

/-- The dispatch is recorded. -/
def Dispatched (row : JobRow) : Prop := row.dispatchedAt ≠ none ∧ row.dispatchedToNode ≠ none

/-- The outcome is recorded. -/
def Terminal (row : JobRow) : Prop := row.status = "completed" ∨ row.status = "failed"

/-- The row is that of a failed job. -/
def Failed (row : JobRow) : Prop := row.status = "failed"

variable {db db' : Database} {j k : JobId} {Q : JobRow → Prop} {f : JobRow → JobRow}

/-- A write to one row keeps what it keeps of that row. -/
theorem RowIs.modify (h : db.RowIs j Q) (hjobs : db'.jobs = db.jobs.modify k f)
    (hf : j = k → ∀ row, Q row → Q (f row)) : db'.RowIs j Q := by
  obtain ⟨row, hrow, hQ⟩ := h
  by_cases hj : j = k
  · exact ⟨f row, by rw [hjobs, Dict.get?_modify, if_pos hj, ← hj, hrow]; rfl, hf hj row hQ⟩
  · exact ⟨row, by rw [hjobs, Dict.get?_modify, if_neg hj, hrow], hQ⟩

/-- A write that finds the row leaves in it what it writes. -/
theorem rowIs_modify (h : j ∈ db.jobs) (hjobs : db'.jobs = db.jobs.modify j f)
    (hf : ∀ row, Q (f row)) : db'.RowIs j Q := by
  obtain ⟨row, hrow⟩ := Dict.mem_iff_get?.mp h
  exact ⟨f row, by rw [hjobs, Dict.get?_modify, if_pos rfl, hrow]; rfl, hf row⟩

theorem Terminal.dispatchedRow {row : JobRow} (h : Terminal row) (n : NodeId) (at' : Timestamp) :
    (Database.dispatchedRow n at' row).status = row.status := by
  have hmem : row.status ∈ ["completed", "failed"] := by
    rcases h with h | h <;> rw [h] <;> decide
  rw [Database.dispatchedRow, if_pos hmem]

end Database

/-- The thread has been accepted and has not recorded the dispatch. -/
@[simp] def DispatchPc.isUnrecorded : DispatchPc → Bool
  | .accepted | .responded => true
  | _ => false

/-- The job of a `submit_job` handler. -/
def SubmitHandler.job : SubmitHandler → JobRequest
  | .enqueued job => job
  | .tagged job _ _ => job

namespace Scheduler

variable {P : PolicyRegistry} {cfg : Config} {s t : Scheduler P} {e : Event} {j : JobId}

/-- Every update of a job finds its row. -/
def UpdatesFindRow (s : Scheduler P) : Event → Prop
  | .recordDispatch t _ => t.job.jobId ∈ s.db.jobs
  | .recordResult result _ => result.jobId ∈ s.db.jobs
  | .markFailed t => t.job.jobId ∈ s.db.jobs
  | _ => True

/-- Every handler and every thread that was started for the job has finished. -/
structure Settled (s : Scheduler P) (j : JobId) : Prop where
  submissions : ∀ handler ∈ s.submissions, handler.job.jobId ≠ j
  threads : ∀ th ∈ s.threads, th.job.jobId ≠ j
  results : ∀ r ∈ s.results, r.jobId ≠ j

theorem settled_of_nil (hsub : s.submissions = []) (hthreads : s.threads = [])
    (hresults : s.results = []) : Settled s j where
  submissions := fun _ h => absurd (hsub ▸ h) List.not_mem_nil
  threads := fun _ h => absurd (hthreads ▸ h) List.not_mem_nil
  results := fun _ h => absurd (hresults ▸ h) List.not_mem_nil

/-! ### Rows keep what they record -/

/-- A row keeps whatever the two kinds of writes keep: the record of a dispatch,
and the outcome, where a completed one comes from a result. -/
theorem Step.rowIs (h : Step cfg s e t) {Q : JobRow → Prop} (hrow : s.db.RowIs j Q)
    (hdispatched : ∀ n at' row, Q row → Q (Database.dispatchedRow n at' row))
    (hfailed : ∀ row, Q row → Q (Database.finishedRow "failed" row))
    (hcompleted : ∀ row, (∃ r ∈ s.results, r.jobId = j) → Q row →
      Q (Database.finishedRow "completed" row)) :
    t.db.RowIs j Q := by
  cases h with
  | @insertSubmission job runId at' pre post db now hs hdb =>
      -- a row that is there is not inserted again
      obtain ⟨hnew, rfl⟩ := Database.submitJob_eq_some hdb
      obtain ⟨row, hget, hQ⟩ := hrow
      have hne : j ≠ job.jobId := fun hj => hnew (hj ▸ Dict.mem_of_get? hget)
      exact ⟨row, by rw [Dict.get?_set_ne _ _ hne, hget], hQ⟩
  | recordDispatch now ht hpc =>
      exact hrow.modify (Database.dispatchJob_jobs ..) fun _ => hdispatched _ _
  | markFailed ht hpc => exact hrow.modify (Database.markJobFailed_jobs _) fun _ => hfailed
  | @recordResult result pre post now hr =>
      refine hrow.modify (Database.recordJobResult_jobs ..) fun hj row hQ => ?_
      split
      · exact hcompleted row ⟨result, by rw [hr]; simp, hj.symm⟩ hQ
      · exact hfailed row hQ
  | insertRun runId now hl hdb =>
      obtain ⟨hjobs, -⟩ := Database.startRun_eq_some hdb
      rwa [Database.RowIs, hjobs]
  | _ => exact hrow

theorem Step.rowIs_dispatched (h : Step cfg s e t) (hrow : s.db.RowIs j Database.Dispatched) :
    t.db.RowIs j Database.Dispatched :=
  h.rowIs hrow (fun _ _ _ _ => ⟨nofun, nofun⟩) (fun _ hQ => hQ) fun _ _ hQ => hQ

theorem Step.rowIs_terminal (h : Step cfg s e t) (hrow : s.db.RowIs j Database.Terminal) :
    t.db.RowIs j Database.Terminal := by
  refine h.rowIs hrow (fun n at' row hQ => ?_) (fun _ _ => Or.inr rfl) fun _ _ _ => Or.inl rfl
  rw [Database.Terminal, hQ.dispatchedRow]
  exact hQ

/-- A failed job stays failed, unless a result for it is waiting to be recorded. -/
theorem Step.rowIs_failed (h : Step cfg s e t) (hrow : s.db.RowIs j Database.Failed)
    (hresults : ∀ r ∈ s.results, r.jobId ≠ j) : t.db.RowIs j Database.Failed := by
  refine h.rowIs hrow (fun n at' row hQ => ?_) (fun _ _ => rfl) ?_
  · rw [Database.Failed, Database.Terminal.dispatchedRow (Or.inr hQ)]
    exact hQ
  · rintro row ⟨r, hr, hj⟩ -
    exact absurd hj (hresults r hr)

/-! ### Who owes a record -/

/-- A thread that owes the record of its dispatch goes on owing it, or has
written it. -/
theorem Step.unrecorded (h : Step cfg s e t) (hclean : CleanFailures s e)
    (hfind : UpdatesFindRow s e) {a : JobId × NodeId}
    (ha : a ∈ attemptsAt DispatchPc.isUnrecorded s.threads) :
    a ∈ attemptsAt DispatchPc.isUnrecorded t.threads ∨
      t.db.RowIs a.1 Database.Dispatched := by
  cases h with
  | spawn now hd =>
      rw [attemptsAt_cons]
      exact Or.inl ha
  | accept ht hpc =>
      rw [ht, attemptsAt_split, hpc] at ha
      rw [attemptsAt_split]
      exact Or.inl (Multiset.mem_cons_of_mem ha)
  | respond ht hpc =>
      rw [attemptsAt_goto (by rw [hpc]; rfl), ← ht]
      exact Or.inl ha
  | @recordDispatch th pre post now ht hpc =>
      rw [ht, attemptsAt_split_of_pos (by rw [hpc]; rfl)] at ha
      rcases Multiset.mem_cons.mp ha with rfl | ha
      · exact Or.inr (Database.rowIs_modify hfind (Database.dispatchJob_jobs ..)
          fun row => ⟨nofun, nofun⟩)
      · rw [attemptsAt_split]
        exact Or.inl ha
  | @raise th pre post ht hpc =>
      -- a clean failure is one of a thread that owes nothing
      have hposting : th.pc = .posting := hclean
      rw [attemptsAt_goto (by rw [hposting]; rfl), ← ht]
      exact Or.inl ha
  | release ht hpc =>
      rw [attemptsAt_goto (by rw [hpc]; rfl), ← ht]
      exact Or.inl ha
  | countFailure ht hpc =>
      rw [attemptsAt_goto (by rw [hpc]; rfl), ← ht]
      exact Or.inl ha
  | giveUp ht hpc hmax =>
      rw [attemptsAt_goto (by rw [hpc]; rfl), ← ht]
      exact Or.inl ha
  | forgetAttempts ht hpc =>
      rw [ht, attemptsAt_split, hpc] at ha
      exact Or.inl ha
  | requeue ht hpc hmax =>
      rw [ht, attemptsAt_split, hpc] at ha
      exact Or.inl ha
  | markFailed ht hpc =>
      rw [ht, attemptsAt_split, hpc] at ha
      exact Or.inl ha
  | failMarkFailed ht hpc => exact hclean.elim
  | _ => exact Or.inl ha

/-- A result goes on waiting to be recorded, or has been. -/
theorem Step.unreported (h : Step cfg s e t) (hclean : CleanFailures s e)
    (hfind : UpdatesFindRow s e) {r : JobResult} (hr : r ∈ s.results) :
    r ∈ t.results ∨ t.db.RowIs r.jobId Database.Terminal := by
  cases h with
  | callback he hjob hnode => exact Or.inl (List.mem_cons_of_mem _ hr)
  | @recordResult result pre post now hs =>
      rw [hs] at hr
      rcases List.mem_cons.mp (List.perm_middle.mem_iff.mp hr) with rfl | hr
      · right
        refine Database.rowIs_modify hfind (Database.recordJobResult_jobs ..) fun row => ?_
        rcases r.success with - | -
        · exact Or.inr rfl
        · exact Or.inl rfl
      · exact Or.inl hr
  | failRecordResult hs => exact hclean.elim
  | _ => exact Or.inl hr

/-- A job that has just been accepted has a thread that owes the record. -/
theorem Step.mem_accepted (h : Step cfg s e t) {a : JobId × NodeId}
    (ha : a ∈ t.history.accepted) :
    a ∈ s.history.accepted ∨ a ∈ attemptsAt DispatchPc.isUnrecorded t.threads := by
  cases h with
  | accept ht hpc =>
      rcases List.mem_append.mp ha with ha | ha
      · exact Or.inl ha
      · obtain rfl := List.mem_singleton.mp ha
        right
        rw [attemptsAt_split_of_pos rfl]
        exact Multiset.mem_cons_self ..
  | _ => exact Or.inl ha

/-- A job that has just been called back has a result to be recorded. -/
theorem Step.mem_calledBack (h : Step cfg s e t) (hj : j ∈ t.history.calledBack) :
    j ∈ s.history.calledBack ∨ ∃ r ∈ t.results, r.jobId = j := by
  cases h with
  | @callback result ex pre post he hjob hnode =>
      rcases List.mem_append.mp hj with hj | hj
      · exact Or.inl hj
      · exact Or.inr ⟨result, List.mem_cons_self, (List.mem_singleton.mp hj).symm⟩
  | _ => exact Or.inl hj

/-- A job that has just been given up is marked failed. -/
theorem Step.mem_abandoned (h : Step cfg s e t) (hclean : CleanFailures s e)
    (hfind : UpdatesFindRow s e) (hj : j ∈ t.history.abandoned) :
    j ∈ s.history.abandoned ∨ t.db.RowIs j Database.Failed := by
  cases h with
  | markFailed ht hpc =>
      rcases List.mem_append.mp hj with hj | hj
      · exact Or.inl hj
      · obtain rfl := List.mem_singleton.mp hj
        exact Or.inr (Database.rowIs_modify hfind (Database.markJobFailed_jobs _) fun _ => rfl)
  | failMarkFailed ht hpc => exact hclean.elim
  | _ => exact Or.inl hj

/-- What happened to a job is in its row, or somebody is about to write it. -/
structure Recorded (s : Scheduler P) : Prop where
  accepted : ∀ a ∈ s.history.accepted,
    a ∈ attemptsAt DispatchPc.isUnrecorded s.threads ∨ s.db.RowIs a.1 Database.Dispatched
  calledBack : ∀ j ∈ s.history.calledBack,
    (∃ r ∈ s.results, r.jobId = j) ∨ s.db.RowIs j Database.Terminal
  abandoned : ∀ j ∈ s.history.abandoned, s.db.RowIs j Database.Failed
  results : ∀ r ∈ s.results, r.jobId ∈ s.history.calledBack

theorem recorded_init (policy : P.Instance) (policyName : String) :
    Recorded (init policy policyName) where
  accepted := fun _ h => absurd h List.not_mem_nil
  calledBack := fun _ h => absurd h List.not_mem_nil
  abandoned := fun _ h => absurd h List.not_mem_nil
  results := fun _ h => absurd h List.not_mem_nil

theorem Recorded.step (h : Recorded s) (hstaged : JobFlow.Staged s.flow)
    (hclean : CleanFailures s e) (hfind : UpdatesFindRow s e) (hs : Step cfg s e t) :
    Recorded t where
  accepted := by
    intro a ha
    rcases hs.mem_accepted ha with ha | ha
    · rcases h.accepted a ha with howed | hrow
      · exact hs.unrecorded hclean hfind howed
      · exact Or.inr (hs.rowIs_dispatched hrow)
    · exact Or.inl ha
  calledBack := by
    intro j hj
    rcases hs.mem_calledBack hj with hj | hj
    · rcases h.calledBack j hj with ⟨r, hr, rfl⟩ | hrow
      · exact (hs.unreported hclean hfind hr).imp_left fun hr => ⟨r, hr, rfl⟩
      · exact Or.inr (hs.rowIs_terminal hrow)
    · exact Or.inl hj
  abandoned := by
    intro j hj
    rcases hs.mem_abandoned hclean hfind hj with hj | hrow
    · refine hs.rowIs_failed (h.abandoned j hj) fun r hr heq => ?_
      -- a job that was given up is not called back
      have hreported : 0 < s.flow.reported.count j :=
        Multiset.count_pos.mpr (Multiset.mem_coe.mpr (heq ▸ h.results r hr))
      have habandoned : 0 < s.flow.abandoned.count j :=
        Multiset.count_pos.mpr (Multiset.mem_coe.mpr hj)
      have hle := hstaged.stages_le j
      simp only [JobFlow.stages] at hle
      omega
    · exact hrow
  results := by
    intro r hr
    cases hs with
    | callback he hjob hnode =>
        rcases List.mem_cons.mp hr with rfl | hr
        · exact List.mem_append_right _ (List.mem_singleton.mpr rfl)
        · exact List.mem_append_left _ (h.results r hr)
    | recordResult now heq => exact h.results r (by rw [heq]; exact mem_split_of_mem hr)
    | failRecordResult heq => exact hclean.elim
    | _ => exact h.results r hr

/-! ### The theorem -/

/-- In every run with clean failures in which every update finds its row: once
every handler and thread of a job has finished, an accepted job has its dispatch
recorded, a job that was called back is completed or failed, and a job that was
given up is failed. -/
theorem updates_recorded {policy : P.Instance} {policyName : String}
    {tr : List (Scheduler P × Event)}
    (h : Run (restrict (Step cfg) CleanFailures) (init policy policyName) tr s)
    (hcond : ∀ p ∈ tr, UpdatesFindRow p.1 p.2) (hj : Settled s j) :
    (j ∈ s.history.accepted.map Prod.fst →
      ∃ row, s.db.jobs.get? j = some row ∧
        row.dispatchedAt ≠ none ∧ row.dispatchedToNode ≠ none) ∧
    (j ∈ s.history.calledBack →
      ∃ row, s.db.jobs.get? j = some row ∧
        (row.status = "completed" ∨ row.status = "failed")) ∧
    (j ∈ s.history.abandoned →
      ∃ row, s.db.jobs.get? j = some row ∧ row.status = "failed") := by
  have hrec : Recorded s ∧ JobFlow.Staged s.flow := by
    refine h.invariant_of (I := fun s => Recorded s ∧ JobFlow.Staged s.flow)
      ⟨recorded_init policy policyName, staged_init policy policyName⟩ ?_ hcond
    rintro s e t ⟨hrec, hstaged⟩ hfind ⟨hclean, hstep⟩
    exact ⟨hrec.step hstaged hclean hfind hstep, hstep.staged hclean hstaged⟩
  refine ⟨fun hacc => ?_, fun hback => ?_, fun hgone => hrec.1.abandoned j hgone⟩
  · obtain ⟨a, ha, rfl⟩ := List.mem_map.mp hacc
    refine (hrec.1.accepted a ha).resolve_left fun howed => ?_
    obtain ⟨th, hth, -, rfl⟩ := mem_attemptsAt.mp howed
    exact hj.threads th hth rfl
  · refine (hrec.1.calledBack j hback).resolve_left ?_
    rintro ⟨r, hr, heq⟩
    exact hj.results r hr heq

/-- A job whose row is inserted after its result was recorded keeps the row of a
queued job. -/
theorem row_left_queued :
    ∃ tr s, Run (restrict (Step {}) CleanFailures) defaultInit tr s ∧ Settled s "j" ∧
      "j" ∈ s.history.accepted.map Prod.fst ∧ "j" ∈ s.history.calledBack ∧
      (s.db.jobs.get? "j").map (fun row => (row.status, row.dispatchedAt, row.dispatchedToNode))
        = some ("queued", none, none) := by
  have h₀ : Run (restrict (Step {}) CleanFailures) defaultInit [] defaultInit := .refl
  have h₁ := h₀.tail_restrict (.register (ClusterState.nodeOf "n" 1 64)) trivial
  have h₂ := h₁.tail_restrict (.submit (ClusterState.jobOf "j")) List.not_mem_nil
  -- the job is taken, run and reported before `submit_job` goes on
  have h₃ := h₂.tail_restrict (.dequeue rfl rfl) trivial
  have h₄ := h₃.tail_restrict (.offer rfl) trivial
  have h₅ := h₄.tail_restrict (.answer rfl) trivial
  have h₆ := h₅.tail_restrict (@Step.claim _ _ _ (ClusterState.jobOf "j") (idleView "n") _
    (by decide +kernel) (Prod.ext (by decide +kernel) rfl)) trivial
  have h₇ := h₆.tail_restrict (.spawn 0 rfl) trivial
  have h₈ := h₇.tail_restrict (@Step.accept _ _ _ _ [] _ rfl rfl) trivial
  have h₉ := h₈.tail_restrict (@Step.respond _ _ _ _ [] _ rfl rfl) trivial
  have h₁₀ := h₉.tail_restrict (@Step.recordDispatch _ _ _ _ [] _ 0 rfl rfl) trivial
  have h₁₁ := h₁₀.tail_restrict (@Step.forgetAttempts _ _ _ _ [] _ rfl rfl) trivial
  have h₁₂ := h₁₁.tail_restrict (@Step.callback _ _ _ (successOn "n") _ [] _ rfl rfl rfl rfl) trivial
  have h₁₃ := h₁₂.tail_restrict (@Step.recordResult _ _ _ (successOn "n") [] _ 0 rfl) trivial
  have h₁₄ := h₁₃.tail_restrict (@Step.tagSubmission _ _ _ _ [] _ 0 rfl) trivial
  have h₁₅ := h₁₄.tail_restrict (@Step.insertSubmission _ _ _ _ _ _ [] _ _ 0 rfl rfl) trivial
  exact ⟨_, _, h₁₅, settled_of_nil rfl rfl rfl, List.mem_cons_self, List.mem_cons_self,
    by decide +kernel⟩

/-- A row that is inserted before the dispatcher takes the job is found by every
update. -/
theorem Step.updatesFindRow (h : Step cfg s e t) (hrows : Rows s) : UpdatesFindRow s e := by
  cases h with
  | @recordDispatch th pre post now ht hpc => exact hrows.inFlight.threads th (by rw [ht]; simp)
  | @markFailed th pre post ht hpc => exact hrows.inFlight.threads th (by rw [ht]; simp)
  | @recordResult result pre post now hr => exact hrows.results result (by rw [hr]; simp)
  | _ => trivial

/-- The job whose row came first has its dispatch and its outcome recorded. -/
theorem updates_recorded_row_first :
    ∃ tr s, Run (restrict (Step {}) CleanFailures) defaultInit tr s ∧
      (∃ row, s.db.jobs.get? "j" = some row ∧
        row.dispatchedAt ≠ none ∧ row.dispatchedToNode ≠ none) ∧
      ∃ row, s.db.jobs.get? "j" = some row ∧
        (row.status = "completed" ∨ row.status = "failed") := by
  obtain ⟨tr, s, hrun, haccepted, hback, hsub, hthreads, hresults, -⟩ := recorded_run
  have hclean := hrun.mono (B := CleanFailures) fun h => h.1
  have hfind : ∀ p ∈ tr, UpdatesFindRow p.1 p.2 :=
    hrun.forall_trace (rows_init _ _) (fun hI hs => hI.step hs.1.2 hs.2)
      fun hI hs => hs.2.updatesFindRow hI
  have hrec := updates_recorded hclean hfind (settled_of_nil (j := "j") hsub hthreads hresults)
  exact ⟨tr, s, hclean, hrec.1 (by rw [haccepted]; decide), hrec.2.1 (by rw [hback]; decide)⟩

end Scheduler

end HeteroSched
