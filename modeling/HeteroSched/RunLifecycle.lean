/-
HeteroSched/RunLifecycle.lean

The open run: `active_run_id` and the row of `runs` that is not finished.

Design.  The two are written one after the other by a handler that holds
`run_lock`, so they differ while it is between the two writes and at no other
time.  `openRow` is the run whose row is open at each moment, and that it is
that run is an invariant of every step, failed transactions and refused requests
included (`Lifecycle`).  A row is closed only while it is open and never opened
again, so no `finished_at` is written twice (`Closed`).

Submissions read `active_run_id` without the lock, and may read it between the
two writes; but every run it ever names has a row (`Tagged`).  A process starts
on the database that earlier processes left (`Stored`), whichever step they
stopped at.
-/
import HeteroSched.JobStatus
import HeteroSched.Submission

namespace HeteroSched

open Transition

/-! ### Rows of runs -/

namespace Database

/-- The run has a row whose `finished_at` is NULL. -/
def OpenRun (db : Database) (runId : RunId) : Prop :=
  ∃ row, db.runs.get? runId = some row ∧ row.finishedAt = none

variable {db db' : Database} {runId r : RunId}

theorem OpenRun.mem (h : db.OpenRun runId) : runId ∈ db.runs := by
  obtain ⟨row, hrow, -⟩ := h
  exact Dict.mem_of_get? hrow

theorem startRun_runs {policy : String} {label trace notes : Option String}
    {snapshot : Option (List SnapshotNode)} {now : Timestamp}
    (h : db.startRun runId policy label trace snapshot notes now = some db') :
    runId ∉ db.runs ∧ ∃ row : RunRow, row.finishedAt = none ∧ db'.runs = db.runs.set runId row := by
  unfold startRun at h
  by_cases hmem : runId ∈ db.runs
  · rw [if_pos hmem] at h
    cases h
  · rw [if_neg hmem] at h
    obtain rfl := Option.some.inj h
    exact ⟨hmem, _, rfl, rfl⟩

theorem openRun_startRun {row : RunRow} (hrow : row.finishedAt = none)
    (hruns : db'.runs = db.runs.set runId row) :
    db'.OpenRun r ↔ r = runId ∨ db.OpenRun r ∧ r ≠ runId := by
  unfold OpenRun
  rw [hruns, Dict.get?_set]
  by_cases hr : r = runId
  · rw [if_pos hr]
    exact ⟨fun _ => Or.inl hr, fun _ => ⟨row, rfl, hrow⟩⟩
  · rw [if_neg hr]
    exact ⟨fun h => Or.inr ⟨h, hr⟩, fun h => (h.resolve_left hr).1⟩

theorem openRun_finishRun (now : Timestamp) :
    (db.finishRun runId now).OpenRun r ↔ db.OpenRun r ∧ r ≠ runId := by
  have hget : (db.finishRun runId now).runs.get? r
      = if r = runId then (db.runs.get? runId).map fun row => { row with finishedAt := some now }
        else db.runs.get? r := Dict.get?_modify ..
  unfold OpenRun
  rw [hget]
  by_cases hr : r = runId
  · rw [if_pos hr]
    constructor
    · rintro ⟨row', hrow', hnone⟩
      obtain ⟨row, -, rfl⟩ := Option.map_eq_some_iff.mp hrow'
      cases hnone
    · exact fun h => absurd hr h.2
  · rw [if_neg hr]
    exact ⟨fun h => ⟨h, hr⟩, fun h => h.1⟩

end Database

/-- The run the holder of `run_lock` works on, once it is known. -/
def RunLock.runId : RunLock → Option RunId
  | .inserted runId => some runId
  | .finishing runId => some runId
  | .finished runId => some runId
  | _ => none

namespace Scheduler

variable {P : PolicyRegistry} {cfg : Config} {s t : Scheduler P} {e : Event} {r : RunId}
variable {tr : List (Scheduler P × Event)} {db : Database}

/-! ### The open row -/

/-- The run whose row is open: that of `active_run_id`, except between the write
of the row and the write of the variable. -/
def openRow (s : Scheduler P) : Option RunId :=
  match s.runLock with
  | .inserted runId => some runId
  | .finished _ => none
  | _ => s.activeRunId

/-- What the holder of `run_lock` knows about `active_run_id`. -/
def LockAgrees (s : Scheduler P) : Prop :=
  match s.runLock with
  | .free => True
  | .finishing runId => s.activeRunId = some runId
  | .finished runId => s.activeRunId = some runId
  | _ => s.activeRunId = none

/-- The open rows are those of `openRow`. -/
structure Lifecycle (s : Scheduler P) : Prop where
  lock : LockAgrees s
  rows : ∀ r, s.db.OpenRun r ↔ s.openRow = some r

/-- Only `start_run` and `finish_run` write to the table `runs`. -/
theorem Step.runs_eq (h : Step cfg s e t) (hinsert : ∀ runId now, e ≠ .insertRun runId now)
    (hclose : ∀ now, e ≠ .closeRow now) : t.db.runs = s.db.runs := by
  cases h with
  | insertSubmission now hs hdb =>
      obtain ⟨-, rfl⟩ := Database.submitJob_eq_some hdb
      rfl
  | insertRun runId now hl hdb => exact absurd rfl (hinsert runId now)
  | closeRow now hl => exact absurd rfl (hclose now)
  | _ => rfl

theorem Step.openRun_iff (h : Step cfg s e t) (hinsert : ∀ runId now, e ≠ .insertRun runId now)
    (hclose : ∀ now, e ≠ .closeRow now) (r : RunId) : t.db.OpenRun r ↔ s.db.OpenRun r := by
  unfold Database.OpenRun
  rw [h.runs_eq hinsert hclose]

theorem Step.mem_runs (h : Step cfg s e t) (hr : r ∈ s.db.runs) : r ∈ t.db.runs := by
  by_cases hinsert : ∃ runId now, e = .insertRun runId now
  · obtain ⟨runId, now, rfl⟩ := hinsert
    cases h with
    | insertRun runId now hl hdb =>
        obtain ⟨-, row, -, hruns⟩ := Database.startRun_runs hdb
        rw [hruns, Dict.mem_set]
        exact Or.inr hr
  · by_cases hclose : ∃ now, e = .closeRow now
    · obtain ⟨now, rfl⟩ := hclose
      cases h with
      | closeRow now hl => exact Dict.mem_modify.mpr hr
    · rw [h.runs_eq (fun runId now he => hinsert ⟨runId, now, he⟩)
        fun now he => hclose ⟨now, he⟩]
      exact hr

/-- A row that is not open is never opened again: the only row that is inserted
open has a run id that was in no row. -/
theorem Step.not_openRun (h : Step cfg s e t) (hr : r ∈ s.db.runs) (hclosed : ¬ s.db.OpenRun r) :
    ¬ t.db.OpenRun r := by
  intro hopen
  by_cases hinsert : ∃ runId now, e = .insertRun runId now
  · obtain ⟨runId, now, rfl⟩ := hinsert
    cases h with
    | insertRun runId now hl hdb =>
        obtain ⟨hnew, row, hrow, hruns⟩ := Database.startRun_runs hdb
        rcases (Database.openRun_startRun hrow hruns).mp hopen with rfl | ho
        · exact hnew hr
        · exact hclosed ho.1
  · by_cases hclose : ∃ now, e = .closeRow now
    · obtain ⟨now, rfl⟩ := hclose
      cases h with
      | closeRow now hl => exact hclosed ((Database.openRun_finishRun now).mp hopen).1
    · exact hclosed ((h.openRun_iff (fun runId now he => hinsert ⟨runId, now, he⟩)
        (fun now he => hclose ⟨now, he⟩) r).mp hopen)

theorem Lifecycle.step (h : Lifecycle s) (hs : Step cfg s e t) : Lifecycle t := by
  have hlock := h.lock
  have hrows := h.rows
  unfold LockAgrees at hlock
  unfold openRow at hrows
  cases hs with
  | insertSubmission now hsub hdb =>
      obtain ⟨-, rfl⟩ := Database.submitJob_eq_some hdb
      exact ⟨h.lock, h.rows⟩
  | startRun hl ha =>
      rw [hl] at hrows
      exact ⟨ha, hrows⟩
  | countQueue hl =>
      rw [hl] at hlock hrows
      exact ⟨hlock, hrows⟩
  | readCounters hl hdrained =>
      rw [hl] at hlock hrows
      exact ⟨hlock, hrows⟩
  | refuseInFlight hl hdrained =>
      rw [hl] at hrows
      exact ⟨trivial, hrows⟩
  | swapPolicy hl hp =>
      rw [hl] at hlock hrows
      exact ⟨hlock, hrows⟩
  | refusePolicy hl hp =>
      rw [hl] at hrows
      exact ⟨trivial, hrows⟩
  | listNodes hl =>
      rw [hl] at hlock hrows
      exact ⟨hlock, hrows⟩
  | insertRun runId now hl hdb =>
      -- no row was open, so the new one is the only one
      rw [hl] at hlock hrows
      obtain ⟨-, row, hrow, hruns⟩ := Database.startRun_runs hdb
      refine ⟨hlock, fun r => ?_⟩
      show _ ↔ some runId = some r
      rw [Database.openRun_startRun hrow hruns, hrows, hlock, Option.some.injEq, eq_comm]
      simp
  | failInsertRun hl =>
      rw [hl] at hrows
      exact ⟨trivial, hrows⟩
  | openRun hl =>
      rw [hl] at hrows
      exact ⟨trivial, hrows⟩
  | finishRun hl ha =>
      rw [hl] at hrows
      exact ⟨ha, hrows⟩
  | @closeRow runId now hl =>
      -- the only open row is the one that is closed
      rw [hl] at hlock hrows
      refine ⟨hlock, fun r => ?_⟩
      show _ ↔ none = some r
      rw [Database.openRun_finishRun, hrows, hlock, Option.some.injEq]
      simp [eq_comm]
  | failCloseRow hl =>
      rw [hl] at hrows
      exact ⟨trivial, hrows⟩
  | closeRun hl =>
      rw [hl] at hrows
      exact ⟨trivial, hrows⟩
  | _ => exact ⟨h.lock, h.rows⟩

/-! ### Rows are closed once -/

/-- The run whose `finished_at` a step writes. -/
def finishes : Scheduler P × Event → Option RunId
  | (s, .closeRow _) => s.runLock.runId
  | _ => none

/-- The runs whose `finished_at` was written, in order. -/
def finishedIn (tr : List (Scheduler P × Event)) : List RunId := tr.filterMap finishes

theorem finishedIn_snoc (p : Scheduler P × Event) :
    finishedIn (tr ++ [p]) = finishedIn tr ++ (finishes p).toList := by
  rw [finishedIn, List.filterMap_append]
  rcases hp : finishes p with - | r
  · rw [List.filterMap_cons_none hp]
    rfl
  · rw [List.filterMap_cons_some hp]
    rfl

theorem finishedIn_snoc_of_not (he : ∀ now, e ≠ .closeRow now) :
    finishedIn (tr ++ [(s, e)]) = finishedIn tr := by
  rw [finishedIn_snoc]
  cases e with
  | closeRow now => exact absurd rfl (he now)
  | _ => exact List.append_nil _

/-- A run that started on `db` with no open row: the rows of `db` and the rows
closed since are there and not open, and no row was closed twice. -/
structure Closed (db : Database) (tr : List (Scheduler P × Event)) (s : Scheduler P) : Prop where
  lifecycle : Lifecycle s
  closed : ∀ r, r ∈ db.runs ∨ r ∈ finishedIn tr → r ∈ s.db.runs ∧ ¬ s.db.OpenRun r
  nodup : (finishedIn tr).Nodup
  new : ∀ r ∈ finishedIn tr, r ∉ db.runs

theorem Closed.step (h : Closed db tr s) (hs : Step cfg s e t) : Closed db (tr ++ [(s, e)]) t := by
  have hlifecycle := h.lifecycle.step hs
  have hkept : ∀ r, r ∈ db.runs ∨ r ∈ finishedIn tr → r ∈ t.db.runs ∧ ¬ t.db.OpenRun r := by
    intro r hr
    obtain ⟨hmem, hclosed⟩ := h.closed r hr
    exact ⟨hs.mem_runs hmem, hs.not_openRun hmem hclosed⟩
  by_cases hclose : ∃ now, e = .closeRow now
  · obtain ⟨now, rfl⟩ := hclose
    cases hs with
    | @closeRow runId now hl =>
        have hsnoc : finishedIn (tr ++ [(s, .closeRow now)]) = finishedIn tr ++ [runId] := by
          rw [finishedIn_snoc, finishes, hl]
          rfl
        -- the row that is closed is the open one, so it is none of those before
        have hopen : s.db.OpenRun runId := by
          have hlock := h.lifecycle.lock
          unfold LockAgrees at hlock
          rw [hl] at hlock
          rw [h.lifecycle.rows, openRow, hl]
          exact hlock
        refine ⟨hlifecycle, fun r hr => ?_, ?_, fun r hr => ?_⟩
        · rw [hsnoc, List.mem_append, List.mem_singleton, ← or_assoc] at hr
          rcases hr with hr | rfl
          · exact hkept r hr
          · rw [Database.openRun_finishRun]
            exact ⟨Dict.mem_modify.mpr hopen.mem, fun ho => ho.2 rfl⟩
        · rw [hsnoc]
          refine List.nodup_append.mpr ⟨h.nodup, List.nodup_singleton _, fun a ha b hb hab => ?_⟩
          obtain rfl := List.mem_singleton.mp hb
          exact (h.closed b (Or.inr (hab ▸ ha))).2 hopen
        · rw [hsnoc, List.mem_append, List.mem_singleton] at hr
          rcases hr with hr | rfl
          · exact h.new r hr
          · exact fun hold => (h.closed r (Or.inl hold)).2 hopen
  · have hsnoc : finishedIn (tr ++ [(s, e)]) = finishedIn tr :=
      finishedIn_snoc_of_not fun now he => hclose ⟨now, he⟩
    refine ⟨hlifecycle, ?_, ?_, ?_⟩
    · rw [hsnoc]
      exact hkept
    · rw [hsnoc]
      exact h.nodup
    · rw [hsnoc]
      exact h.new

/-! ### Every run a job names has a row -/

/-- The rows of jobs, the handlers of `submit_job` that have read the variable,
the variable and the holder of `run_lock` name runs that have a row. -/
structure Tagged (s : Scheduler P) : Prop where
  jobs : ∀ j row, s.db.jobs.get? j = some row → ∀ r, row.runId = some r → r ∈ s.db.runs
  handlers : ∀ job r at', SubmitHandler.tagged job (some r) at' ∈ s.submissions → r ∈ s.db.runs
  active : ∀ r, s.activeRunId = some r → r ∈ s.db.runs
  lock : ∀ r, s.runLock.runId = some r → r ∈ s.db.runs

/-- A row was there before, with the same run id, or it is inserted now, with the
run id its handler has read. -/
theorem Step.row_origin (h : Step cfg s e t) {j : JobId} {row : JobRow}
    (hrow : t.db.jobs.get? j = some row) :
    (∃ old, s.db.jobs.get? j = some old ∧ old.runId = row.runId) ∨
      ∃ job now at', e = .insertSubmission job now ∧ j = job.jobId ∧ job.jobId ∉ s.db.jobs ∧
        SubmitHandler.tagged job row.runId at' ∈ s.submissions := by
  cases h with
  | @insertSubmission job runId at' pre post db now hs hdb =>
      obtain ⟨hnew, rfl⟩ := Database.submitJob_eq_some hdb
      rw [Dict.get?_set] at hrow
      split at hrow
      · next hj =>
          obtain rfl := Option.some.inj hrow
          refine Or.inr ⟨job, now, at', rfl, hj, hnew, ?_⟩
          rw [hs]
          exact List.mem_append_right _ List.mem_cons_self
      · exact Or.inl ⟨row, hrow, rfl⟩
  | recordDispatch now ht hpc =>
      rw [Database.dispatchJob_jobs] at hrow
      exact Or.inl (Database.runId_of_modify hrow fun _ => rfl)
  | markFailed ht hpc =>
      rw [Database.markJobFailed_jobs] at hrow
      exact Or.inl (Database.runId_of_modify hrow fun _ => rfl)
  | recordResult now hr =>
      rw [Database.recordJobResult_jobs] at hrow
      exact Or.inl (Database.runId_of_modify hrow fun _ => rfl)
  | insertRun runId now hl hdb =>
      rw [(Database.startRun_eq_some hdb).1] at hrow
      exact Or.inl ⟨row, hrow, rfl⟩
  | _ => exact Or.inl ⟨row, hrow, rfl⟩

/-- A handler that has read the variable had read it before, or reads it now. -/
theorem Step.mem_tagged (h : Step cfg s e t) {job : JobRequest} {run : Option RunId}
    {at' : Timestamp} (hm : SubmitHandler.tagged job run at' ∈ t.submissions) :
    SubmitHandler.tagged job run at' ∈ s.submissions ∨ run = s.activeRunId := by
  cases h with
  | submit job' =>
      rcases List.mem_cons.mp hm with hm | hm
      · cases hm
      · exact Or.inl hm
  | tagSubmission now hs =>
      rw [hs]
      rcases List.mem_append.mp hm with hm | hm
      · exact Or.inl (List.mem_append_left _ hm)
      · rcases List.mem_cons.mp hm with hm | hm
        · exact Or.inr (SubmitHandler.tagged.inj hm).2.1
        · exact Or.inl (List.mem_append_right _ (List.mem_cons_of_mem _ hm))
  | insertSubmission now hs hdb =>
      rw [hs]
      exact Or.inl (mem_split_of_mem hm)
  | failSubmission hs =>
      rw [hs]
      exact Or.inl (mem_split_of_mem hm)
  | _ => exact Or.inl hm

/-- The variable and the lock name what they named before, or each other's run,
or the run whose row is inserted. -/
theorem Step.named (h : Step cfg s e t) :
    (∀ r, t.activeRunId = some r → s.activeRunId = some r ∨ s.runLock.runId = some r) ∧
    (∀ r, t.runLock.runId = some r →
      s.activeRunId = some r ∨ s.runLock.runId = some r ∨ r ∈ t.db.runs) := by
  cases h with
  | startRun hl ha => exact ⟨fun _ => Or.inl, nofun⟩
  | countQueue hl => exact ⟨fun _ => Or.inl, nofun⟩
  | readCounters hl hdrained => exact ⟨fun _ => Or.inl, nofun⟩
  | refuseInFlight hl hdrained => exact ⟨fun _ => Or.inl, nofun⟩
  | swapPolicy hl hp => exact ⟨fun _ => Or.inl, nofun⟩
  | refusePolicy hl hp => exact ⟨fun _ => Or.inl, nofun⟩
  | listNodes hl => exact ⟨fun _ => Or.inl, nofun⟩
  | insertRun runId now hl hdb =>
      obtain ⟨-, row, -, hruns⟩ := Database.startRun_runs hdb
      refine ⟨fun _ => Or.inl, fun r hr => Or.inr (Or.inr ?_)⟩
      obtain rfl := Option.some.inj hr
      rw [hruns, Dict.mem_set]
      exact Or.inl rfl
  | failInsertRun hl => exact ⟨fun _ => Or.inl, nofun⟩
  | openRun hl =>
      refine ⟨fun r hr => Or.inr ?_, nofun⟩
      rw [hl]
      exact hr
  | finishRun hl ha =>
      refine ⟨fun _ => Or.inl, fun r hr => Or.inl ?_⟩
      rw [ha]
      exact hr
  | closeRow now hl =>
      refine ⟨fun _ => Or.inl, fun r hr => Or.inr (Or.inl ?_)⟩
      rw [hl]
      exact hr
  | failCloseRow hl => exact ⟨fun _ => Or.inl, nofun⟩
  | closeRun hl => exact ⟨nofun, nofun⟩
  | _ => exact ⟨fun _ => Or.inl, fun _ hr => Or.inr (Or.inl hr)⟩

theorem Tagged.step (h : Tagged s) (hs : Step cfg s e t) : Tagged t where
  jobs := by
    intro j row hrow r hr
    rcases hs.row_origin hrow with ⟨old, hold, hsame⟩ | ⟨job, -, at', -, -, -, hm⟩
    · exact hs.mem_runs (h.jobs j old hold r (hsame.trans hr))
    · rw [hr] at hm
      exact hs.mem_runs (h.handlers job r at' hm)
  handlers := by
    intro job r at' hm
    rcases hs.mem_tagged hm with hm | hr
    · exact hs.mem_runs (h.handlers job r at' hm)
    · exact hs.mem_runs (h.active r hr.symm)
  active := by
    intro r hr
    rcases hs.named.1 r hr with ha | hl
    · exact hs.mem_runs (h.active r ha)
    · exact hs.mem_runs (h.lock r hl)
  lock := by
    intro r hr
    rcases hs.named.2 r hr with ha | hl | hm
    · exact hs.mem_runs (h.active r ha)
    · exact hs.mem_runs (h.lock r hl)
    · exact hm

/-! ### Processes on a stored database -/

/-- The scheduler after start-up, on the database that is there. -/
def startOn (db : Database) (policy : P.Instance) (policyName : String) : Scheduler P :=
  { init policy policyName with db := db }

/-- The databases that scheduler processes leave, one process after the other,
each stopped at any step. -/
inductive Stored : Database → Prop
  | empty : Stored {}
  | left {db : Database} {P : PolicyRegistry} {cfg : Config} {policy : P.Instance}
      {policyName : String} {tr : List (Scheduler P × Event)} {s : Scheduler P} (hdb : Stored db)
      (h : Run (Step cfg) (startOn db policy policyName) tr s) : Stored s.db

/-- Every run a row of `jobs` names has a row. -/
def JobsNameRuns (db : Database) : Prop :=
  ∀ j row, db.jobs.get? j = some row → ∀ r, row.runId = some r → r ∈ db.runs

theorem JobsNameRuns.tagged (hdb : JobsNameRuns db) (policy : P.Instance) (policyName : String) :
    Tagged (startOn db policy policyName) where
  jobs := hdb
  handlers := fun _ _ _ hm => absurd hm List.not_mem_nil
  active := nofun
  lock := nofun

theorem Stored.jobsNameRuns (h : Stored db) : JobsNameRuns db := by
  induction h with
  | empty =>
      intro j row hrow
      cases hrow
  | left hdb h ih => exact (h.invariant (ih.tagged _ _) fun ht hs => ht.step hs).jobs

theorem closed_startOn (hdb : ∀ r, ¬ db.OpenRun r) (policy : P.Instance) (policyName : String) :
    Closed db [] (startOn db policy policyName) where
  lifecycle := ⟨trivial, fun r => iff_of_false (hdb r) nofun⟩
  closed := fun r hr => ⟨hr.resolve_right List.not_mem_nil, hdb r⟩
  nodup := List.nodup_nil
  new := fun _ hr => absurd hr List.not_mem_nil

/-- The rows of `jobs` keep their run ids to the end of a run. -/
theorem run_keeps_runId {policy : P.Instance} {policyName : String}
    (h : Run (Step cfg) (startOn db policy policyName) tr s) :
    ∀ p ∈ tr, ∀ j run, p.1.db.RowIs j (fun row => row.runId = run) →
      s.db.RowIs j fun row => row.runId = run := by
  have hstep : ∀ {s t : Scheduler P} {e : Event}, Step cfg s e t → ∀ {j : JobId} {run : Option RunId},
      s.db.RowIs j (fun row => row.runId = run) → t.db.RowIs j fun row => row.runId = run :=
    fun hs _ _ hrow =>
      hs.rowIs hrow (fun _ _ _ hQ => hQ) (fun _ hQ => hQ) fun _ _ hQ => hQ
  refine h.invariant_trace (I := fun tr s => ∀ p ∈ tr, ∀ j run,
    p.1.db.RowIs j (fun row => row.runId = run) → s.db.RowIs j fun row => row.runId = run)
    (fun p hp => absurd hp List.not_mem_nil) ?_
  intro tr t e u _ ih hs
  refine forall_mem_snoc.mpr ⟨fun p hp j run hrow => hstep hs (ih p hp j run hrow), ?_⟩
  exact fun j run hrow => hstep hs hrow

/-- In every run of a process that starts with no unfinished row, requests that
are refused or fail included: while `run_lock` is free, the unfinished rows are
that of `active_run_id`; there is never more than one; no `finished_at` is
written twice; and the run id of every row of `jobs` is NULL or has a row, and
never changes. -/
theorem run_lifecycle {policy : P.Instance} {policyName : String} (hdb : Stored db)
    (hfinished : ∀ runId, ¬ db.OpenRun runId)
    (h : Run (Step cfg) (startOn db policy policyName) tr s) :
    (s.runLock = .free → ∀ runId, s.db.OpenRun runId ↔ s.activeRunId = some runId) ∧
    (∀ a b, s.db.OpenRun a → s.db.OpenRun b → a = b) ∧
    ((finishedIn tr).Nodup ∧ ∀ runId ∈ finishedIn tr, runId ∉ db.runs) ∧
    (∀ j row, s.db.jobs.get? j = some row → ∀ runId, row.runId = some runId →
      runId ∈ s.db.runs) ∧
    (∀ p ∈ tr, ∀ j row, p.1.db.jobs.get? j = some row →
      ∃ row', s.db.jobs.get? j = some row' ∧ row'.runId = row.runId) := by
  have hclosed : Closed db tr s :=
    h.invariant_trace (closed_startOn hfinished policy policyName) fun _ hc hs => hc.step hs
  have htagged : Tagged s :=
    h.invariant (hdb.jobsNameRuns.tagged policy policyName) fun ht hs => ht.step hs
  have hrows := hclosed.lifecycle.rows
  refine ⟨fun hl runId => ?_, fun a b ha hb => ?_, ⟨hclosed.nodup, hclosed.new⟩, htagged.jobs,
    fun p hp j row hrow => run_keeps_runId h p hp j row.runId ⟨row, hrow, rfl⟩⟩
  · rw [hrows, openRow, hl]
  · exact Option.some.inj (((hrows a).mp ha).symm.trans ((hrows b).mp hb))

/-- On a new database a run is opened, gets a job and is closed. -/
theorem run_lifecycle_one_run :
    ∃ (tr : List (Scheduler policies × Event)) (s : Scheduler policies),
      Run (Step {}) (startOn {} (.roundRobin {} : Policy) "round_robin") tr s ∧
      finishedIn tr = ["r"] ∧ (∃ row, s.db.jobs.get? "j" = some row ∧ row.runId = some "r") ∧
      (s.runLock = .free → ∀ runId, s.db.OpenRun runId ↔ s.activeRunId = some runId) ∧
      (∀ a b, s.db.OpenRun a → s.db.OpenRun b → a = b) ∧
      ((finishedIn tr).Nodup ∧ ∀ runId ∈ finishedIn tr, runId ∉ ({} : Database).runs) ∧
      (∀ j row, s.db.jobs.get? j = some row → ∀ runId, row.runId = some runId →
        runId ∈ s.db.runs) ∧
      ∀ p ∈ tr, ∀ j row, p.1.db.jobs.get? j = some row →
        ∃ row', s.db.jobs.get? j = some row' ∧ row'.runId = row.runId := by
  have h₀ : Run (Step {}) (startOn {} (.roundRobin {} : Policy) "round_robin" : Scheduler policies)
    [] _ := .refl
  have h₁ := h₀.tail (@Step.startRun _ _ _ {} rfl rfl)
  have h₂ := h₁.tail (.countQueue rfl)
  have h₃ := h₂.tail (.readCounters rfl (by decide))
  have h₄ := h₃.tail (@Step.swapPolicy policies _ _ {} (.roundRobin {}) "round_robin" rfl
    (newPolicy_round_robin rfl))
  have h₅ := h₄.tail (.listNodes rfl)
  have h₆ := h₅.tail (.insertRun "r" 0 rfl rfl)
  have h₇ := h₆.tail (.openRun rfl)
  have h₈ := h₇.tail (.submit (ClusterState.jobOf "j"))
  have h₉ := h₈.tail (@Step.tagSubmission _ _ _ _ [] _ 0 rfl)
  have h₁₀ := h₉.tail (@Step.insertSubmission _ _ _ _ _ _ [] _ _ 0 rfl rfl)
  have h₁₁ := h₁₀.tail (.finishRun rfl rfl)
  have h₁₂ := h₁₁.tail (.closeRow 1 rfl)
  have h₁₃ := h₁₂.tail (.closeRun rfl)
  refine ⟨_, _, h₁₃, rfl, ⟨_, rfl, rfl⟩, run_lifecycle .empty ?_ h₁₃⟩
  rintro runId ⟨row, hrow, -⟩
  cases hrow

end Scheduler

end HeteroSched
