/-
HeteroSched/JobStatus.lean

The status of a job only moves forward, and the progress of a run partitions its
jobs, whatever order the writes of `scheduler/db.py` arrive in.

Both follow from one relation between two states of the database (`Forward`):
every job of the first is still there in the second, in the same run, with a
status that is not behind.  Each write gives it, and it composes along a
sequence of writes; the counts of a run are then compared job by job
(`Dict.countOn_le`), never by following what a write does to a sum.
-/
import HeteroSched.Database

namespace HeteroSched

namespace Database

/-! ### Writes in any order -/

/-- A call of one of the functions that write the rows of jobs. -/
inductive JobOp
  | submitJob (jobId : JobId) (image : String) (command : Option String) (runId : Option RunId)
      (submittedAt : Option Timestamp) (requirements : Option JobRequirements) (now : Timestamp)
  | dispatchJob (jobId : JobId) (nodeId : NodeId) (dispatchedAt : Option Timestamp)
      (now : Timestamp)
  | recordJobResult (jobId : JobId) (nodeId : NodeId) (success : Bool) (runtimeSeconds : ℚ)
      (exitCode : ℤ) (completedAt : Option Timestamp) (now : Timestamp)
  | markJobFailed (jobId : JobId)

/-- The database after a call; a submission that raises leaves it unchanged. -/
def JobOp.apply (db : Database) : JobOp → Database
  | .submitJob jobId image command runId submittedAt requirements now =>
      (db.submitJob jobId image command runId submittedAt requirements now).getD db
  | .dispatchJob jobId nodeId dispatchedAt now => db.dispatchJob jobId nodeId dispatchedAt now
  | .recordJobResult jobId nodeId success runtimeSeconds exitCode completedAt now =>
      db.recordJobResult jobId nodeId success runtimeSeconds exitCode completedAt now
  | .markJobFailed jobId => db.markJobFailed jobId

/-- The calls that submit a job to a run. -/
def JobOp.SubmitsTo (run : RunId) : JobOp → Prop
  | .submitJob _ _ _ runId _ _ _ => runId = some run
  | _ => False

/-- The database after a sequence of calls. -/
def applyAll (db : Database) (ops : List JobOp) : Database := ops.foldl JobOp.apply db

/-! ### Statuses -/

/-- The statuses a job can have. -/
def statuses : List String := ["queued", "dispatched", "completed", "failed"]

/-- How far along a job is; both terminal statuses rank alike. -/
def statusRank (status : String) : ℕ :=
  if status ∈ ["completed", "failed"] then 2
  else if status = "dispatched" then 1
  else 0

/-- Every row has one of the four statuses. -/
def StatusesValid (db : Database) : Prop :=
  ∀ j row, db.jobs.get? j = some row → row.status ∈ statuses

/-- A row is followed by another one of the same run that is not behind it. -/
def RowForward (row row' : JobRow) : Prop :=
  statusRank row.status ≤ statusRank row'.status ∧ row'.runId = row.runId

/-- No row is lost, and each is followed by one that is not behind it. -/
def Forward (db db' : Database) : Prop :=
  ∀ j row, db.jobs.get? j = some row → ∃ row', db'.jobs.get? j = some row' ∧ RowForward row row'

theorem RowForward.refl (row : JobRow) : RowForward row row := ⟨le_rfl, rfl⟩

theorem RowForward.trans {row₁ row₂ row₃ : JobRow} (h₁ : RowForward row₁ row₂)
    (h₂ : RowForward row₂ row₃) : RowForward row₁ row₃ :=
  ⟨h₁.1.trans h₂.1, h₂.2.trans h₁.2⟩

theorem Forward.refl (db : Database) : Forward db db :=
  fun _ row h => ⟨row, h, .refl row⟩

theorem Forward.trans {db₁ db₂ db₃ : Database} (h₁ : Forward db₁ db₂) (h₂ : Forward db₂ db₃) :
    Forward db₁ db₃ := by
  intro j row h
  obtain ⟨row', h', hf⟩ := h₁ j row h
  obtain ⟨row'', h'', hf'⟩ := h₂ j row' h'
  exact ⟨row'', h'', hf.trans hf'⟩

theorem statusRank_le_two (status : String) : statusRank status ≤ 2 := by
  unfold statusRank
  split
  · exact le_rfl
  · split <;> omega

theorem rowForward_dispatchedRow (nodeId : NodeId) (at' : Timestamp) (row : JobRow) :
    RowForward row (dispatchedRow nodeId at' row) := by
  refine ⟨?_, rfl⟩
  simp only [dispatchedRow]
  split
  · exact le_rfl
  · next hterminal =>
      -- a status that is not terminal ranks below "dispatched"
      rw [statusRank, if_neg hterminal, show statusRank "dispatched" = 1 by decide]
      split <;> omega

theorem rowForward_finishedRow {status : String} (h : status ∈ ["completed", "failed"])
    (row : JobRow) : RowForward row (finishedRow status row) := by
  refine ⟨?_, rfl⟩
  simp only [finishedRow]
  rw [show statusRank status = 2 from if_pos h]
  exact statusRank_le_two row.status

variable {db : Database}

/-- Rewriting one row forward moves the table forward. -/
theorem forward_modify {db' : Database} {jobId : JobId} {f : JobRow → JobRow}
    (hjobs : db'.jobs = db.jobs.modify jobId f) (hf : ∀ row, RowForward row (f row)) :
    Forward db db' := by
  intro j row h
  rw [hjobs, Dict.get?_modify]
  by_cases hj : j = jobId
  · exact ⟨f row, by rw [if_pos hj, ← hj, h, Option.map_some], hf row⟩
  · exact ⟨row, by rw [if_neg hj, h], .refl row⟩

theorem terminal_status (success : Bool) :
    (if success then "completed" else "failed") ∈ ["completed", "failed"] := by
  cases success <;> simp

theorem forward_apply (op : JobOp) : Forward db (op.apply db) := by
  cases op with
  | submitJob jobId image command runId submittedAt requirements now =>
      simp only [JobOp.apply]
      rcases h : db.submitJob jobId image command runId submittedAt requirements now with - | db'
      · exact .refl db
      · obtain ⟨hnew, rfl⟩ := submitJob_eq_some h
        intro j row hrow
        have hne : j ≠ jobId := fun hj => hnew (hj ▸ Dict.mem_of_get? hrow)
        refine ⟨row, ?_, .refl row⟩
        rw [Option.getD_some, Dict.get?_set_ne _ _ hne]
        exact hrow
  | dispatchJob jobId nodeId dispatchedAt now =>
      exact forward_modify rfl fun row => rowForward_dispatchedRow nodeId _ row
  | recordJobResult jobId nodeId success runtimeSeconds exitCode completedAt now =>
      exact forward_modify rfl fun row => rowForward_finishedRow (terminal_status success) row
  | markJobFailed jobId =>
      exact forward_modify rfl fun row => rowForward_finishedRow (by decide) row

theorem forward_applyAll (ops : List JobOp) : Forward db (db.applyAll ops) := by
  induction ops generalizing db with
  | nil => exact .refl db
  | cons op rest ih => exact (forward_apply op).trans ih

/-! ### Valid statuses -/

theorem statusesValid_modify {db' : Database} {jobId : JobId} {f : JobRow → JobRow}
    (h : StatusesValid db) (hjobs : db'.jobs = db.jobs.modify jobId f)
    (hf : ∀ row, row.status ∈ statuses → (f row).status ∈ statuses) : StatusesValid db' := by
  intro j row' hrow'
  rw [hjobs] at hrow'
  obtain ⟨row, hrow, rfl⟩ := Dict.of_get?_modify hrow'
  split
  · exact hf row (h j row hrow)
  · exact h j row hrow

theorem StatusesValid.apply (h : StatusesValid db) (op : JobOp) : StatusesValid (op.apply db) := by
  cases op with
  | submitJob jobId image command runId submittedAt requirements now =>
      simp only [JobOp.apply]
      rcases hs : db.submitJob jobId image command runId submittedAt requirements now with - | db'
      · exact h
      · obtain ⟨-, rfl⟩ := submitJob_eq_some hs
        intro j row hrow
        rw [Option.getD_some, Dict.get?_set] at hrow
        split at hrow
        · obtain rfl := Option.some.inj hrow
          exact List.mem_cons_self
        · exact h j row hrow
  | dispatchJob jobId nodeId dispatchedAt now =>
      refine statusesValid_modify h rfl fun row hrow => ?_
      simp only [dispatchedRow]
      split
      · exact hrow
      · decide
  | recordJobResult jobId nodeId success runtimeSeconds exitCode completedAt now =>
      refine statusesValid_modify h rfl fun row _ => ?_
      cases success
      · show "failed" ∈ statuses
        decide
      · show "completed" ∈ statuses
        decide
  | markJobFailed jobId =>
      refine statusesValid_modify h rfl fun row _ => ?_
      show "failed" ∈ statuses
      decide

theorem StatusesValid.applyAll (h : StatusesValid db) (ops : List JobOp) :
    StatusesValid (db.applyAll ops) := by
  induction ops generalizing db with
  | nil => exact h
  | cons op rest ih => exact ih (h.apply op)

theorem statusesValid_init : StatusesValid {} := by
  intro j row h
  simp at h

/-! ### The counts of a run -/

/-- The jobs of a run, and those of them that are terminal. -/
def InRun (run : RunId) (_ : JobId) (row : JobRow) : Prop := row.runId = some run

/-- The row belongs to the run and its job is completed or failed. -/
def TerminalInRun (run : RunId) (_ : JobId) (row : JobRow) : Prop :=
  row.runId = some run ∧ statusRank row.status = 2

instance (run : RunId) (j : JobId) (row : JobRow) : Decidable (InRun run j row) :=
  inferInstanceAs (Decidable (_ = _))

instance (run : RunId) (j : JobId) (row : JobRow) : Decidable (TerminalInRun run j row) :=
  inferInstanceAs (Decidable (_ ∧ _))

theorem statusRank_eq_two {status : String} :
    statusRank status = 2 ↔ status = "completed" ∨ status = "failed" := by
  unfold statusRank
  simp only [List.mem_cons, List.not_mem_nil, or_false]
  split
  · next h => simp [h]
  · next h =>
      split <;> simp [h]

theorem getRunProgress_total (run : RunId) :
    (db.getRunProgress run).total = db.jobs.countOn (InRun run) := by
  show (db.runJobs run).length = _
  rw [runJobs, ← List.countP_eq_length_filter, Dict.values, List.countP_map]
  rfl

/-- A terminal job counts as completed or as failed, and never as both. -/
theorem countP_terminal (rows : List JobRow) :
    rows.countP (fun row => row.status = "completed") + rows.countP (fun row => row.status = "failed")
      = rows.countP fun row => statusRank row.status = 2 := by
  induction rows with
  | nil => rfl
  | cons row rest ih =>
      rw [List.countP_cons, List.countP_cons, List.countP_cons, ← ih]
      simp only [decide_eq_true_eq, statusRank_eq_two]
      by_cases hc : row.status = "completed" <;> by_cases hf : row.status = "failed"
      · exact absurd (hc.symm.trans hf) (by decide)
      · rw [if_pos hc, if_neg hf, if_pos (Or.inl hc)]
        omega
      · rw [if_neg hc, if_pos hf, if_pos (Or.inr hf)]
        omega
      · rw [if_neg hc, if_neg hf, if_neg (not_or.mpr ⟨hc, hf⟩)]
        omega

theorem getRunProgress_terminal (run : RunId) :
    (db.getRunProgress run).terminal = db.jobs.countOn (TerminalInRun run) := by
  show (db.runJobs run).countP _ + (db.runJobs run).countP _ = _
  rw [countP_terminal, runJobs, List.countP_filter, Dict.values, List.countP_map]
  unfold Dict.countOn
  congr 1
  funext e
  rw [Bool.eq_iff_iff, decide_eq_true_iff, Function.comp, Bool.and_eq_true, decide_eq_true_iff,
    decide_eq_true_iff]
  exact and_comm

theorem terminal_le_total (run : RunId) :
    (db.getRunProgress run).terminal ≤ (db.getRunProgress run).total := by
  rw [getRunProgress_terminal, getRunProgress_total]
  exact Dict.countOn_le fun j row hrow ht => ⟨row, hrow, ht.1⟩

/-- The four counts add up, because every job has one of the four statuses. -/
theorem StatusesValid.total_eq (h : StatusesValid db) (run : RunId) :
    (db.getRunProgress run).total
      = (db.getRunProgress run).queued + (db.getRunProgress run).dispatched
        + (db.getRunProgress run).completed + (db.getRunProgress run).failed := by
  have hrows : ∀ row ∈ db.runJobs run, row.status ∈ statuses := by
    intro row hrow
    obtain ⟨⟨j, row'⟩, he, rfl⟩ := List.mem_map.mp (List.mem_filter.mp hrow).1
    exact h j row' (Dict.get?_eq_some_iff.mpr he)
  simp only [getRunProgress]
  generalize db.runJobs run = rows at hrows
  induction rows with
  | nil => rfl
  | cons row rest ih =>
      obtain ⟨hhead, hrest⟩ := List.forall_mem_cons.mp hrows
      simp only [List.countP_cons, List.length_cons, ih hrest, decide_eq_true_eq]
      simp only [statuses, List.mem_cons, List.not_mem_nil, or_false] at hhead
      rcases hhead with hs | hs | hs | hs <;> simp [hs] <;> omega

theorem Forward.total_le {db' : Database} (h : Forward db db') (run : RunId) :
    (db.getRunProgress run).total ≤ (db'.getRunProgress run).total := by
  rw [getRunProgress_total, getRunProgress_total]
  refine Dict.countOn_le fun j row hrow hin => ?_
  obtain ⟨row', hrow', hf⟩ := h j row hrow
  exact ⟨row', hrow', hf.2.trans hin⟩

theorem Forward.terminal_le {db' : Database} (h : Forward db db') (run : RunId) :
    (db.getRunProgress run).terminal ≤ (db'.getRunProgress run).terminal := by
  rw [getRunProgress_terminal, getRunProgress_terminal]
  refine Dict.countOn_le fun j row hrow hin => ?_
  obtain ⟨row', hrow', hrank, hrun⟩ := h j row hrow
  have hle := statusRank_le_two row'.status
  exact ⟨row', hrow', hrun.trans hin.1, by have := hin.2; omega⟩

/-! ### Runs nobody submits to -/

/-- Rewriting a row keeps its run, so it was in the run before. -/
theorem runId_of_modify {d : Dict JobId JobRow} {f : JobRow → JobRow} {j k : JobId} {row : JobRow}
    (hrow : (d.modify k f).get? j = some row) (hf : ∀ row, (f row).runId = row.runId) :
    ∃ old, d.get? j = some old ∧ old.runId = row.runId := by
  obtain ⟨old, hold, rfl⟩ := Dict.of_get?_modify hrow
  refine ⟨old, hold, ?_⟩
  split
  · exact (hf old).symm
  · rfl

/-- A call that does not submit to the run adds no job to it. -/
theorem total_apply_le {op : JobOp} {run : RunId} (hop : ¬ op.SubmitsTo run) :
    ((op.apply db).getRunProgress run).total ≤ (db.getRunProgress run).total := by
  rw [getRunProgress_total, getRunProgress_total]
  have hmodify : ∀ (jobId : JobId) (f : JobRow → JobRow), (∀ row, (f row).runId = row.runId) →
      ∀ j row', (db.jobs.modify jobId f).get? j = some row' → InRun run j row' →
      ∃ row, db.jobs.get? j = some row ∧ InRun run j row := by
    intro jobId f hf j row' hrow' hin
    obtain ⟨row, hrow, hsame⟩ := runId_of_modify hrow' hf
    exact ⟨row, hrow, hsame.trans hin⟩
  refine Dict.countOn_le ?_
  cases op with
  | submitJob jobId image command runId submittedAt requirements now =>
      simp only [JobOp.apply]
      rcases h : db.submitJob jobId image command runId submittedAt requirements now with - | db'
      · exact fun j row hrow hin => ⟨row, hrow, hin⟩
      · obtain ⟨-, rfl⟩ := submitJob_eq_some h
        intro j row' hrow' hin
        rw [Option.getD_some, Dict.get?_set] at hrow'
        split at hrow'
        · obtain rfl := Option.some.inj hrow'
          exact absurd hin hop
        · exact ⟨row', hrow', hin⟩
  | dispatchJob jobId nodeId dispatchedAt now => exact hmodify jobId _ fun _ => rfl
  | recordJobResult jobId nodeId success runtimeSeconds exitCode completedAt now =>
      exact hmodify jobId _ fun _ => rfl
  | markJobFailed jobId => exact hmodify jobId _ fun _ => rfl

theorem total_applyAll_eq {ops : List JobOp} {run : RunId} (hops : ∀ op ∈ ops, ¬ op.SubmitsTo run) :
    ((db.applyAll ops).getRunProgress run).total = (db.getRunProgress run).total := by
  refine le_antisymm ?_ ((forward_applyAll ops).total_le run)
  induction ops generalizing db with
  | nil => exact le_rfl
  | cons op rest ih =>
      obtain ⟨hop, hrest⟩ := List.forall_mem_cons.mp hops
      exact (ih hrest).trans (total_apply_le hop)

/-! ### The theorem -/

/-- The total of a run counts its rows. -/
theorem total_eq_countP (db : Database) (run : RunId) :
    (db.getRunProgress run).total = db.jobs.values.countP fun row => row.runId = some run :=
  List.countP_eq_length_filter.symm

/-- Between any two moments of any sequence of writes: every job row stays, with
one of the four statuses, in its run, and not behind where it was; the progress
of every run counts its rows, partitions them by status and never shrinks; and a run whose
jobs are all terminal stays so unless a job is added to it. -/
theorem status_forward (ops₁ ops₂ : List JobOp) :
    let db₁ := applyAll {} ops₁
    let db₂ := db₁.applyAll ops₂
    (∀ j row₁, db₁.jobs.get? j = some row₁ →
      row₁.status ∈ ["queued", "dispatched", "completed", "failed"] ∧
      ∃ row₂, db₂.jobs.get? j = some row₂ ∧
        statusRank row₁.status ≤ statusRank row₂.status ∧ row₂.runId = row₁.runId) ∧
    ∀ run : RunId,
      let p₁ := db₁.getRunProgress run
      let p₂ := db₂.getRunProgress run
      p₁.total = db₁.jobs.values.countP (fun row => row.runId = some run) ∧
      p₁.total = p₁.queued + p₁.dispatched + p₁.completed + p₁.failed ∧
      p₁.terminal = p₁.completed + p₁.failed ∧
      p₁.terminal ≤ p₁.total ∧
      p₁.total ≤ p₂.total ∧
      p₁.terminal ≤ p₂.terminal ∧
      (p₁.terminal = p₁.total → p₂.total = p₁.total → p₂.terminal = p₂.total) ∧
      ((∀ op ∈ ops₂, ¬ op.SubmitsTo run) → p₂.total = p₁.total) := by
  intro db₁ db₂
  have hvalid : StatusesValid db₁ := statusesValid_init.applyAll ops₁
  have hforward : Forward db₁ db₂ := forward_applyAll ops₂
  constructor
  · intro j row₁ hrow₁
    obtain ⟨row₂, hrow₂, hrank, hrun⟩ := hforward j row₁ hrow₁
    exact ⟨hvalid j row₁ hrow₁, row₂, hrow₂, hrank, hrun⟩
  · intro run p₁ p₂
    have hterminal := hforward.terminal_le run
    have hle : p₂.terminal ≤ p₂.total := terminal_le_total run
    refine ⟨total_eq_countP db₁ run, hvalid.total_eq run, rfl, terminal_le_total run,
      hforward.total_le run, hterminal, ?_, fun hops => total_applyAll_eq hops⟩
    intro hdone htotal
    exact le_antisymm hle ((htotal.trans hdone.symm).le.trans hterminal)

end Database

end HeteroSched
