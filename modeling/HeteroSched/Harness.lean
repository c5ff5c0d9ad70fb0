/-
HeteroSched/Harness.lean

The experiment harness, from `run_once` of `experiments/run_experiment.py`, at
work on a scheduler that other clients submit jobs to.

Design.  The harness is one more party of the system: it opens a run, submits its
jobs one after the other, polls the progress of the run until enough jobs are
terminal, and closes the run.  A step of the pair is a step of the harness or of
anything else (`DrivenStep`); `run_lock` is taken for the harness only.

`wait_for_drain` compares the terminal rows of the run with the number of jobs the
harness has submitted.  As long as every row of the run has one of the harness's
ids, the run has no more rows than that, so the comparison holds only when all of
them are terminal (`Database.terminal_of_length_le`).  A row of somebody else in
the run counts for a job of the harness that is not done.
-/
import HeteroSched.RunLifecycle
import HeteroSched.AtMostOnce

namespace HeteroSched

open Transition

/-! ### The jobs of the harness -/

/-- A job of an expanded trace; its `delay_before` is a wait of the harness and
left out. -/
structure TraceJob where
  image : String
  command : Option String := none
  requirements : JobRequirements := {}

/-- The id of a submitted job: the run and the index, in four digits or more. -/
def harnessJobId (runId : RunId) (index : ℕ) : JobId :=
  runId ++ "-" ++ String.ofList ((Nat.toDigits 10 index).leftpad 4 '0')

/-- The body of `POST /jobs`. -/
def TraceJob.payload (job : TraceJob) (runId : RunId) (index : ℕ) (now : Timestamp) :
    JobRequest where
  jobId := harnessJobId runId index
  image := job.image
  command := job.command
  submittedAt := some now
  requirements := job.requirements

/-! ### The harness -/

/-- Where `run_once` is: before its first request; waiting for the answer to
`POST /runs/start`; about to submit the next job, or waiting for the answer to
it, before and after the handler has read the active run; in the loop of
`wait_for_drain`; after a return from inside the loop; after the deadline or an
exception; with the run to be closed; or gone because no run was opened. -/
inductive Harness
  | ready
  | starting
  | submitting (runId : RunId) (index : ℕ)
  | posted (runId : RunId) (index : ℕ) (job : JobRequest)
  | tagged (runId : RunId) (index : ℕ) (job : JobRequest) (tag : Option RunId)
  | waiting (runId : RunId) (total : ℕ)
  | drained (runId : RunId) (progress : RunProgress)
  | leaving
  | finishing
  | exited
  deriving DecidableEq

/-- The harness has asked for a run and is not done with it. -/
def Harness.isDriving : Harness → Bool
  | .ready | .leaving | .finishing | .exited => false
  | _ => true

/-- The harness is in its `try` block and has not returned from `wait_for_drain`. -/
def Harness.mayLeave : Harness → Bool
  | .submitting .. | .posted .. | .tagged .. | .waiting .. => true
  | _ => false

/-- A scheduler and the harness that drives it. -/
structure Driven (P : PolicyRegistry) where
  scheduler : Scheduler P
  harness : Harness

/-- The requests that take `run_lock`. -/
def TakesRunLock : Scheduler.Event → Prop
  | .startRun _ | .refuseStart _ | .finishRun | .refuseFinish => True
  | _ => False

/-- What happens next: a step of the harness, or anything else. -/
inductive HarnessEvent
  | other (e : Scheduler.Event)
  | startRun (request : RunStartRequest)
  | refused (request : RunStartRequest)
  | started (runId : RunId)
  | notStarted
  | post (job : JobRequest)
  | tag (job : JobRequest) (now : Timestamp)
  | insert (job : JobRequest) (now : Timestamp)
  | submitted
  | poll
  | leave
  | finish

/-- One step of the pair, where the harness submits `jobs`. -/
inductive DrivenStep {P : PolicyRegistry} (cfg : Config) (jobs : List TraceJob) (d : Driven P) :
    HarnessEvent → Driven P → Prop
  -- agents, dispatcher, handlers, and the requests of other clients
  | other {e : Scheduler.Event} {t : Scheduler P} (he : ¬ TakesRunLock e)
      (h : Scheduler.Step cfg d.scheduler e t) : DrivenStep cfg jobs d (.other e) ⟨t, d.harness⟩
  -- `POST /runs/start`, and its answer
  | startRun {request : RunStartRequest} {t : Scheduler P} (hh : d.harness = .ready)
      (h : Scheduler.Step cfg d.scheduler (.startRun request) t) :
      DrivenStep cfg jobs d (.startRun request) ⟨t, .starting⟩
  | refused {request : RunStartRequest} {t : Scheduler P} (hh : d.harness = .ready)
      (h : Scheduler.Step cfg d.scheduler (.refuseStart request) t) :
      DrivenStep cfg jobs d (.refused request) ⟨t, .exited⟩
  | started {runId : RunId} (hh : d.harness = .starting) (hl : d.scheduler.runLock = .free)
      (ha : d.scheduler.activeRunId = some runId) :
      DrivenStep cfg jobs d (.started runId) ⟨d.scheduler, .submitting runId 0⟩
  | notStarted (hh : d.harness = .starting) (hl : d.scheduler.runLock = .free)
      (ha : d.scheduler.activeRunId = none) :
      DrivenStep cfg jobs d .notStarted ⟨d.scheduler, .exited⟩
  -- `submit_jobs`: the next job is posted when the handler of the one before has returned
  | post {runId : RunId} {index : ℕ} {job : TraceJob} {t : Scheduler P} (now : Timestamp)
      (hh : d.harness = .submitting runId index) (hjob : jobs[index]? = some job)
      (h : Scheduler.Step cfg d.scheduler (.submit (job.payload runId index now)) t) :
      DrivenStep cfg jobs d (.post (job.payload runId index now))
        ⟨t, .posted runId index (job.payload runId index now)⟩
  | tag {runId : RunId} {index : ℕ} {job : JobRequest} {t : Scheduler P} {now : Timestamp}
      (hh : d.harness = .posted runId index job)
      (h : Scheduler.Step cfg d.scheduler (.tagSubmission job now) t) :
      DrivenStep cfg jobs d (.tag job now) ⟨t, .tagged runId index job d.scheduler.activeRunId⟩
  | insert {runId : RunId} {index : ℕ} {job : JobRequest} {tag : Option RunId}
      {t : Scheduler P} {now : Timestamp} (hh : d.harness = .tagged runId index job tag)
      (h : Scheduler.Step cfg d.scheduler (.insertSubmission job now) t)
      (hrow : t.db.RowIs job.jobId fun row => row.runId = tag) :
      DrivenStep cfg jobs d (.insert job now) ⟨t, .submitting runId (index + 1)⟩
  | submitted {runId : RunId} {index : ℕ} (hh : d.harness = .submitting runId index)
      (hend : jobs[index]? = none) :
      DrivenStep cfg jobs d .submitted ⟨d.scheduler, .waiting runId jobs.length⟩
  -- `wait_for_drain`
  | poll {runId : RunId} {total : ℕ} (hh : d.harness = .waiting runId total) :
      DrivenStep cfg jobs d .poll
        ⟨d.scheduler,
          if (d.scheduler.db.getRunProgress runId).terminal ≥ total
          then .drained runId (d.scheduler.db.getRunProgress runId)
          else .waiting runId total⟩
  -- the deadline, a request that fails or one that gets no answer
  | leave (hh : d.harness.mayLeave = true) : DrivenStep cfg jobs d .leave ⟨d.scheduler, .leaving⟩
  -- the `finally` block
  | finish {e : Scheduler.Event} {t : Scheduler P}
      (hh : d.harness = .leaving ∨ ∃ runId progress, d.harness = .drained runId progress)
      (he : e = .finishRun ∨ e = .refuseFinish) (h : Scheduler.Step cfg d.scheduler e t) :
      DrivenStep cfg jobs d .finish ⟨t, .finishing⟩

/-! ### Counting the rows of a run -/

/-- When the rows of a run have ids from a list and as many of them are terminal
as the list is long, all of them are terminal. -/
theorem Database.terminal_of_length_le {db : Database} {run : RunId} (ids : List JobId)
    (hids : ∀ j row, db.jobs.get? j = some row → row.runId = some run → j ∈ ids)
    (hle : ids.length ≤ (db.getRunProgress run).terminal) {j : JobId} {row : JobRow}
    (hrow : db.jobs.get? j = some row) (hrun : row.runId = some run) : Database.Terminal row := by
  have htotal : (db.getRunProgress run).total ≤ ids.length := by
    rw [Database.getRunProgress_total]
    exact Dict.countOn_le_length hids
  have hall : (db.runJobs run).countP (fun row => statusRank row.status = 2)
      = (db.runJobs run).length := by
    rw [← Database.countP_terminal]
    exact le_antisymm (Database.terminal_le_total run) (htotal.trans hle)
  have hmem : row ∈ db.runJobs run := by
    refine List.mem_filter.mpr ⟨?_, decide_eq_true hrun⟩
    exact List.mem_map.mpr ⟨(j, row), Dict.get?_eq_some_iff.mp hrow, rfl⟩
  exact Database.statusRank_eq_two.mp (of_decide_eq_true (List.countP_eq_length.mp hall row hmem))

namespace Scheduler

variable {P : PolicyRegistry} {cfg : Config} {s t : Scheduler P} {e : Event} {r : RunId} {n : ℕ}

/-! ### The run of the harness -/

/-- The run is open and nobody is about to open or close one. -/
def RunOpen (r : RunId) (s : Scheduler P) : Prop := s.runLock = .free ∧ s.activeRunId = some r

/-- The rows of the run have ids of the harness. -/
def RowsOwned (n : ℕ) (r : RunId) (s : Scheduler P) : Prop :=
  ∀ j row, s.db.jobs.get? j = some row → row.runId = some r →
    ∃ index < n, j = harnessJobId r index

/-- The first `n` jobs of the harness have rows in the run. -/
def Posted (n : ℕ) (r : RunId) (s : Scheduler P) : Prop :=
  ∀ index < n, s.db.RowIs (harnessJobId r index) fun row => row.runId = some r

/-- A row that is inserted into the run has an id of the harness. -/
def InsertsOwn (n : ℕ) (r : RunId) (s : Scheduler P) (e : Event) : Prop :=
  ∀ job now at', e = .insertSubmission job now → .tagged job (some r) at' ∈ s.submissions →
    ∃ index < n, job.jobId = harnessJobId r index

theorem RunOpen.step (h : RunOpen r s) (hs : Step cfg s e t) (he : ¬ TakesRunLock e) :
    RunOpen r t := by
  obtain ⟨hl, ha⟩ := h
  have hne : ∀ l : RunLock, s.runLock = l → l = .free := fun l hl' => hl'.symm.trans hl
  cases hs with
  | startRun hl' ha' => exact absurd trivial he
  | refuseStart hl' ha' => exact absurd trivial he
  | finishRun hl' ha' => exact absurd trivial he
  | refuseFinish hl' ha' => exact absurd trivial he
  | countQueue hl' => exact nomatch hne _ hl'
  | readCounters hl' hdrained => exact nomatch hne _ hl'
  | refuseInFlight hl' hdrained => exact nomatch hne _ hl'
  | swapPolicy hl' hp => exact nomatch hne _ hl'
  | refusePolicy hl' hp => exact nomatch hne _ hl'
  | listNodes hl' => exact nomatch hne _ hl'
  | insertRun runId now hl' hdb => exact nomatch hne _ hl'
  | failInsertRun hl' => exact nomatch hne _ hl'
  | openRun hl' => exact nomatch hne _ hl'
  | closeRow now hl' => exact nomatch hne _ hl'
  | failCloseRow hl' => exact nomatch hne _ hl'
  | closeRun hl' => exact nomatch hne _ hl'
  | _ => exact ⟨hl, ha⟩

theorem RowsOwned.step (h : RowsOwned n r s) (hs : Step cfg s e t) (hown : InsertsOwn n r s e) :
    RowsOwned n r t := by
  intro j row hrow hrun
  rcases hs.row_origin hrow with ⟨old, hold, hsame⟩ | ⟨job, now, at', he, rfl, -, hm⟩
  · exact h j old hold (hsame.trans hrun)
  · rw [hrun] at hm
    exact hown job now at' he hm

theorem Posted.step (h : Posted n r s) (hs : Step cfg s e t) : Posted n r t :=
  fun index hi => hs.rowIs (h index hi) (fun _ _ _ hQ => hQ) (fun _ hQ => hQ) fun _ _ hQ => hQ

/-- Once all jobs of the harness have rows, the run gets no more, so that it stays
terminal. -/
theorem Step.terminal_rows (hs : Step cfg s e t) (hposted : Posted n r s)
    (hown : InsertsOwn n r s e)
    (h : ∀ j row, s.db.jobs.get? j = some row → row.runId = some r → Database.Terminal row)
    {j : JobId} {row : JobRow} (hrow : t.db.jobs.get? j = some row) (hrun : row.runId = some r) :
    Database.Terminal row := by
  rcases hs.row_origin hrow with ⟨old, hold, hsame⟩ | ⟨job, now, at', he, rfl, hnew, hm⟩
  · obtain ⟨row', hrow', hterminal⟩ :=
      hs.rowIs_terminal ⟨old, hold, h j old hold (hsame.trans hrun)⟩
    obtain rfl := Option.some.inj (hrow.symm.trans hrow')
    exact hterminal
  · rw [hrun] at hm
    obtain ⟨index, hi, hid⟩ := hown job now at' he hm
    obtain ⟨row', hrow', -⟩ := hposted index hi
    exact absurd (hid ▸ Dict.mem_of_get? hrow') hnew

/-! ### Opening the run -/

/-- No row and no handler names the run. -/
structure Untouched (r : RunId) (s : Scheduler P) : Prop where
  rows : ∀ j row, s.db.jobs.get? j = some row → row.runId ≠ some r
  handlers : ∀ job at', .tagged job (some r) at' ∉ s.submissions

/-- While the run is opened for the harness: nothing names it before it is open,
and then only the rows of the harness do. -/
def Opening (n : ℕ) (s : Scheduler P) : Prop :=
  match s.runLock with
  | .free => ∀ r, s.activeRunId = some r → RowsOwned n r s
  | .inserted r => s.activeRunId = none ∧ Untouched r s
  | .finishing _ => False
  | .finished _ => False
  | _ => s.activeRunId = none

theorem Opening.step (h : Opening n s) (htagged : Tagged s) (hs : Step cfg s e t)
    (he : ¬ TakesRunLock e) (hown : ∀ r, s.activeRunId = some r → InsertsOwn n r s e) :
    Opening n t := by
  -- what happens next to the handler that holds the lock
  have hother : t.runLock = s.runLock → t.activeRunId = s.activeRunId → Opening n t := by
    intro hlock hactive
    unfold Opening at h ⊢
    rw [hlock, hactive]
    cases hl : s.runLock with
    | free =>
        rw [hl] at h
        exact fun r hr => (h r hr).step hs (hown r hr)
    | inserted r =>
        rw [hl] at h
        obtain ⟨hnone, huntouched⟩ := h
        refine ⟨hnone, fun j row hrow hrun => ?_, fun job at' hm => ?_⟩
        · rcases hs.row_origin hrow with ⟨old, hold, hsame⟩ | ⟨job, -, at', -, -, -, hm⟩
          · exact huntouched.rows j old hold (hsame.trans hrun)
          · exact huntouched.handlers job at' (hrun ▸ hm)
        · rcases hs.mem_tagged hm with hm | hr
          · exact huntouched.handlers job at' hm
          · exact nomatch hr.trans hnone
    | finishing r =>
        rw [hl] at h
        exact h
    | finished r =>
        rw [hl] at h
        exact h
    | _ =>
        rw [hl] at h
        exact h
  unfold Opening at h
  cases hs with
  | startRun hl ha => exact absurd trivial he
  | refuseStart hl ha => exact absurd trivial he
  | finishRun hl ha => exact absurd trivial he
  | refuseFinish hl ha => exact absurd trivial he
  | countQueue hl =>
      rw [hl] at h
      exact h
  | readCounters hl hdrained =>
      rw [hl] at h
      exact h
  | swapPolicy hl hp =>
      rw [hl] at h
      exact h
  | listNodes hl =>
      rw [hl] at h
      exact h
  | refuseInFlight hl hin =>
      rw [hl] at h
      exact fun r hr => nomatch hr.symm.trans h
  | refusePolicy hl hp =>
      rw [hl] at h
      exact fun r hr => nomatch hr.symm.trans h
  | failInsertRun hl =>
      rw [hl] at h
      exact fun r hr => nomatch hr.symm.trans h
  | insertRun runId now hl hdb =>
      -- the run id is new, so nothing names it
      rw [hl] at h
      obtain ⟨hnew, -⟩ := Database.startRun_runs hdb
      refine ⟨h, fun j row hrow hrun => ?_, fun job at' hm => ?_⟩
      · rw [(Database.startRun_eq_some hdb).1] at hrow
        exact hnew (htagged.jobs j row hrow runId hrun)
      · exact hnew (htagged.handlers job runId at' hm)
  | openRun hl =>
      rw [hl] at h
      intro r hr j row hrow hrun
      obtain rfl := Option.some.inj hr
      exact absurd hrun (h.2.rows j row hrow)
  | closeRow now hl =>
      rw [hl] at h
      exact h.elim
  | failCloseRow hl =>
      rw [hl] at h
      exact h.elim
  | closeRun hl =>
      rw [hl] at h
      exact h.elim
  | _ => exact hother rfl rfl

end Scheduler

/-! ### The pair -/

variable {P : PolicyRegistry} {cfg : Config} {jobs : List TraceJob} {d d' : Driven P}
variable {a : HarnessEvent}

open Scheduler

/-- When `wait_for_drain` has returned from its loop, every row of the run is
terminal, and every job of the harness has such a row. -/
def DrainSound (jobs : List TraceJob) (d : Driven P) : Prop :=
  ∀ runId progress, d.harness = .drained runId progress →
    (∀ j row, d.scheduler.db.jobs.get? j = some row → row.runId = some runId →
      Database.Terminal row) ∧
    ∀ index < jobs.length, d.scheduler.db.RowIs (harnessJobId runId index) fun row =>
      row.runId = some runId ∧ Database.Terminal row

/-- While the harness is at work, no row is inserted into the open run under an id
that is not one of the harness's. -/
def OwnRowsOnly (jobs : List TraceJob) (d : Driven P) : HarnessEvent → Prop
  | .other e => d.harness.isDriving = true → ∀ runId, d.scheduler.activeRunId = some runId →
      InsertsOwn jobs.length runId d.scheduler e
  | _ => True

/-- What holds of the scheduler by the place of the harness: the run is open for
it, the rows of the run are its own, and the jobs it has submitted have rows. -/
def Drives (jobs : List TraceJob) (s : Scheduler P) : Harness → Prop
  | .starting => Opening jobs.length s
  | .submitting r index => RunOpen r s ∧ RowsOwned jobs.length r s ∧ Posted index r s
  | .posted r index job =>
      RunOpen r s ∧ RowsOwned jobs.length r s ∧ Posted index r s ∧ index < jobs.length ∧
        job.jobId = harnessJobId r index
  | .tagged r index job tag =>
      RunOpen r s ∧ RowsOwned jobs.length r s ∧ Posted index r s ∧ index < jobs.length ∧
        job.jobId = harnessJobId r index ∧ tag = some r
  | .waiting r total =>
      RunOpen r s ∧ RowsOwned jobs.length r s ∧ Posted jobs.length r s ∧ total = jobs.length
  | .drained r _ =>
      RunOpen r s ∧ RowsOwned jobs.length r s ∧ Posted jobs.length r s ∧
        ∀ j row, s.db.jobs.get? j = some row → row.runId = some r → Database.Terminal row
  | _ => True

/-- Whatever else happens does not take this away. -/
theorem Drives.other {s t : Scheduler P} {e : Event} {harness : Harness}
    (h : Drives jobs s harness) (htagged : Tagged s) (hs : Step cfg s e t) (he : ¬ TakesRunLock e)
    (hown : harness.isDriving = true → ∀ r, s.activeRunId = some r →
      InsertsOwn jobs.length r s e) : Drives jobs t harness := by
  cases harness with
  | starting => exact h.step htagged hs he (hown rfl)
  | submitting r index =>
      obtain ⟨hopen, hrows, hposted⟩ := h
      exact ⟨hopen.step hs he, hrows.step hs (hown rfl r hopen.2), hposted.step hs⟩
  | posted r index job =>
      obtain ⟨hopen, hrows, hposted, hjob⟩ := h
      exact ⟨hopen.step hs he, hrows.step hs (hown rfl r hopen.2), hposted.step hs, hjob⟩
  | tagged r index job tag =>
      obtain ⟨hopen, hrows, hposted, hjob⟩ := h
      exact ⟨hopen.step hs he, hrows.step hs (hown rfl r hopen.2), hposted.step hs, hjob⟩
  | waiting r total =>
      obtain ⟨hopen, hrows, hposted, htotal⟩ := h
      exact ⟨hopen.step hs he, hrows.step hs (hown rfl r hopen.2), hposted.step hs, htotal⟩
  | drained r progress =>
      obtain ⟨hopen, hrows, hposted, hterminal⟩ := h
      have hinserts := hown rfl r hopen.2
      exact ⟨hopen.step hs he, hrows.step hs hinserts, hposted.step hs,
        fun j row hrow hrun => hs.terminal_rows hposted hinserts hterminal hrow hrun⟩
  | _ => trivial

/-- A step that inserts no row inserts none of somebody else. -/
theorem insertsOwn_of_not {n : ℕ} {r : RunId} {s : Scheduler P} {e : Event}
    (he : ∀ job now, e ≠ .insertSubmission job now) : InsertsOwn n r s e :=
  fun job now _ heq => absurd heq (he job now)

/-- The harness goes on when its own handler has done its part. -/
theorem DrivenStep.drives (hs : DrivenStep cfg jobs d a d') (htagged : Tagged d.scheduler)
    (h : Drives jobs d.scheduler d.harness) (hown : OwnRowsOnly jobs d a) :
    Drives jobs d'.scheduler d'.harness := by
  cases hs with
  | other he hs => exact h.other htagged hs he hown
  | startRun hh hs =>
      cases hs with
      | startRun hl ha => exact ha
  | refused hh hs => trivial
  | started hh hl ha =>
      rw [hh] at h
      have hopening : Opening jobs.length d.scheduler := h
      unfold Opening at hopening
      rw [hl] at hopening
      exact ⟨⟨hl, ha⟩, hopening _ ha, fun index hi => absurd hi (Nat.not_lt_zero index)⟩
  | notStarted hh hl ha => trivial
  | @post r index job t now hh hjob hs =>
      rw [hh] at h
      obtain ⟨hopen, hrows, hposted⟩ := h
      exact ⟨hopen.step hs id, hrows.step hs (insertsOwn_of_not fun _ _ => nofun),
        hposted.step hs, (List.getElem?_eq_some_iff.mp hjob).1, rfl⟩
  | tag hh hs =>
      rw [hh] at h
      obtain ⟨hopen, hrows, hposted, hi, hid⟩ := h
      exact ⟨hopen.step hs id, hrows.step hs (insertsOwn_of_not fun _ _ => nofun),
        hposted.step hs, hi, hid, hopen.2⟩
  | @insert r index job tag t now hh hs hrow =>
      rw [hh] at h
      obtain ⟨hopen, hrows, hposted, hi, hid, rfl⟩ := h
      refine ⟨hopen.step hs id, hrows.step hs ?_, fun i hlt => ?_⟩
      · rintro job' now' at' heq -
        cases heq
        exact ⟨index, hi, hid⟩
      · rcases Nat.lt_succ_iff_lt_or_eq.mp hlt with hlt | rfl
        · exact hposted.step hs i hlt
        · exact hid ▸ hrow
  | submitted hh hend =>
      rw [hh] at h
      obtain ⟨hopen, hrows, hposted⟩ := h
      have hle := List.getElem?_eq_none_iff.mp hend
      exact ⟨hopen, hrows, fun index hi => hposted index (hi.trans_le hle), rfl⟩
  | @poll r total hh =>
      rw [hh] at h
      obtain ⟨hopen, hrows, hposted, rfl⟩ := h
      show Drives jobs d.scheduler (if _ then _ else _)
      split
      · next hdone =>
          -- the ids of the harness are as many as the terminal rows
          refine ⟨hopen, hrows, hposted, fun j row hrow hrun => ?_⟩
          refine Database.terminal_of_length_le
            ((List.range jobs.length).map (harnessJobId r)) ?_ ?_ hrow hrun
          · intro j row hrow hrun
            obtain ⟨index, hi, rfl⟩ := hrows j row hrow hrun
            exact List.mem_map_of_mem (List.mem_range.mpr hi)
          · rw [List.length_map, List.length_range]
            exact hdone
      · exact ⟨hopen, hrows, hposted, rfl⟩
  | leave hh => trivial
  | finish hh he hs => trivial

/-- Every step of the pair is a step of the scheduler, or leaves it as it is. -/
theorem DrivenStep.scheduler (hs : DrivenStep cfg jobs d a d') :
    (∃ e, Step cfg d.scheduler e d'.scheduler) ∨ d'.scheduler = d.scheduler := by
  cases hs with
  | other he hs => exact Or.inl ⟨_, hs⟩
  | startRun hh hs => exact Or.inl ⟨_, hs⟩
  | refused hh hs => exact Or.inl ⟨_, hs⟩
  | post now hh hjob hs => exact Or.inl ⟨_, hs⟩
  | tag hh hs => exact Or.inl ⟨_, hs⟩
  | insert hh hs hrow => exact Or.inl ⟨_, hs⟩
  | finish hh he hs => exact Or.inl ⟨_, hs⟩
  | _ => exact Or.inr rfl

theorem DrivenStep.tagged (hs : DrivenStep cfg jobs d a d') (h : Tagged d.scheduler) :
    Tagged d'.scheduler := by
  rcases hs.scheduler with ⟨e, hs⟩ | heq
  · exact h.step hs
  · rw [heq]
    exact h

theorem Drives.drainSound (h : Drives jobs d.scheduler d.harness) : DrainSound jobs d := by
  intro r progress hh
  rw [hh] at h
  obtain ⟨-, -, hposted, hterminal⟩ := h
  refine ⟨hterminal, fun index hi => ?_⟩
  obtain ⟨row, hrow, hrun⟩ := hposted index hi
  exact ⟨row, hrow, hrun, hterminal _ row hrow hrun⟩

/-- **The wait for drain is sound** in every run in which nobody else gets a row
into the run of the harness: from any state of the scheduler, with anything else
happening in between, when the wait returns before its deadline every row of the
run is terminal, those of all jobs of the harness among them. -/
theorem drain_sound {db : Database} {policy : P.Instance} {policyName : String}
    {s₀ : Scheduler P} {tr₀ : List (Scheduler P × Event)} {tr : List (Driven P × HarnessEvent)}
    (hdb : Stored db) (h₀ : Run (Step cfg) (startOn db policy policyName) tr₀ s₀)
    (h : Run (DrivenStep cfg jobs) ⟨s₀, .ready⟩ tr d)
    (hown : ∀ p ∈ tr, OwnRowsOnly jobs p.1 p.2) : DrainSound jobs d := by
  have htagged : Tagged s₀ :=
    h₀.invariant (hdb.jobsNameRuns.tagged policy policyName) fun ht hs => ht.step hs
  have hdrives := h.invariant_of
    (I := fun d : Driven P => Tagged d.scheduler ∧ Drives jobs d.scheduler d.harness)
    ⟨htagged, trivial⟩
    (fun hd hc hs => ⟨hs.tagged hd.1, hs.drives hd.1 hd.2 hc⟩) hown
  exact hdrives.2.drainSound

/-! ### One job of the harness -/

/-- One job, submitted to a scheduler with one node. -/
def oneJob : List TraceJob :=
  [{ image := "alpine", requirements := (ClusterState.jobOf "j").requirements }]

/-- The first job of a run, as the harness posts it. -/
def oneRequest : JobRequest :=
  TraceJob.payload { image := "alpine", requirements := (ClusterState.jobOf "j").requirements } "r" 0 0

/-- The scheduler with a node and a run that was just opened. -/
def runOpened : Scheduler policies :=
  { defaultInit with
    cluster := defaultInit.cluster.registerNode (ClusterState.nodeOf "n" 1 64)
    activeRunId := some "r"
    db := { runs := (∅ : Dict RunId RunRow).set "r" ⟨none, "round_robin", none, 0, none,
      some [⟨"n", "n", 1, 1, 64, "x86_64", false⟩], none⟩ }
    history := { instances := 1, opened := some (1, []) } }

theorem other_ownRowsOnly {d : Driven policies} {e : Event}
    (he : ∀ job now, e ≠ .insertSubmission job now) : OwnRowsOnly oneJob d (.other e) :=
  fun _ _ _ => insertsOwn_of_not he

theorem run_opened :
    ∃ tr, Run (restrict (DrivenStep {} oneJob) (OwnRowsOnly oneJob)) ⟨defaultInit, .ready⟩ tr
      ⟨runOpened, .submitting "r" 0⟩ := by
  have h₀ : Run (restrict (DrivenStep {} oneJob) (OwnRowsOnly oneJob)) ⟨defaultInit, .ready⟩ []
    ⟨defaultInit, .ready⟩ := .refl
  have h₁ := h₀.tail_restrict (.other id (.register (ClusterState.nodeOf "n" 1 64)))
    (other_ownRowsOnly fun _ _ => nofun)
  have h₂ := h₁.tail_restrict (.startRun rfl (@Step.startRun _ _ _ {} rfl rfl)) trivial
  have h₃ := h₂.tail_restrict (.other id (.countQueue rfl)) (other_ownRowsOnly fun _ _ => nofun)
  have h₄ := h₃.tail_restrict (.other id (.readCounters rfl (by decide +kernel)))
    (other_ownRowsOnly fun _ _ => nofun)
  have h₅ := h₄.tail_restrict (.other id (@Step.swapPolicy policies _ _ {} (.roundRobin {})
    "round_robin" rfl (newPolicy_round_robin rfl)))
    (other_ownRowsOnly fun _ _ => nofun)
  have h₆ := h₅.tail_restrict (.other id (.listNodes rfl)) (other_ownRowsOnly fun _ _ => nofun)
  have h₇ := h₆.tail_restrict (.other id (.insertRun "r" 0 rfl rfl))
    (other_ownRowsOnly fun _ _ => nofun)
  have h₈ := h₇.tail_restrict (.other id (.openRun rfl)) (other_ownRowsOnly fun _ _ => nofun)
  have h₉ := h₈.tail_restrict (.started rfl rfl rfl) trivial
  exact ⟨_, h₉⟩

/-- The job of the harness is placed, ends, and its result is recorded; then the
wait returns. -/
theorem drain_sound_one_job :
    ∃ (tr : List (Driven policies × HarnessEvent)) (d : Driven policies),
      Run (DrivenStep {} oneJob) ⟨defaultInit, .ready⟩ tr d ∧
      d.harness = .drained "r" ⟨1, 0, 0, 1, 0, 1⟩ ∧ DrainSound oneJob d := by
  obtain ⟨tr, h₀⟩ := run_opened
  have h₁ := h₀.tail_restrict (.post 0 rfl rfl (.submit _)) trivial
  have h₂ := h₁.tail_restrict (.tag rfl (@Step.tagSubmission _ _ _ _ [] _ 0 rfl)) trivial
  have h₃ := h₂.tail_restrict
    (.insert rfl (@Step.insertSubmission _ _ _ _ _ _ [] _ _ 0 rfl rfl) ⟨_, rfl, rfl⟩) trivial
  have h₄ := h₃.tail_restrict (.submitted rfl rfl) trivial
  have h₅ := h₄.tail_restrict (.other id (.dequeue rfl rfl)) (other_ownRowsOnly fun _ _ => nofun)
  have h₆ := h₅.tail_restrict (.other id (.offer rfl)) (other_ownRowsOnly fun _ _ => nofun)
  have h₇ := h₆.tail_restrict (.other id (.answer rfl)) (other_ownRowsOnly fun _ _ => nofun)
  have h₈ := h₇.tail_restrict (.other id (@Step.claim _ _ _ oneRequest (idleView "n") _
    (by decide +kernel) (Prod.ext (by decide +kernel) rfl))) (other_ownRowsOnly fun _ _ => nofun)
  have h₉ := h₈.tail_restrict (.other id (.spawn 0 rfl)) (other_ownRowsOnly fun _ _ => nofun)
  have h₁₀ := h₉.tail_restrict (.other id (@Step.accept _ _ _ _ [] _ rfl rfl))
    (other_ownRowsOnly fun _ _ => nofun)
  have h₁₁ := h₁₀.tail_restrict (.other id (@Step.callback _ _ _
    { successOn "n" with jobId := harnessJobId "r" 0 } _ [] _ rfl rfl rfl rfl))
    (other_ownRowsOnly fun _ _ => nofun)
  have h₁₂ := h₁₁.tail_restrict (.other id (@Step.recordResult _ _ _ _ [] _ 0 rfl))
    (other_ownRowsOnly fun _ _ => nofun)
  have h₁₃ := h₁₂.tail_restrict (.poll rfl) trivial
  obtain ⟨hrun, hown⟩ := h₁₃.of_restrict
  exact ⟨_, _, hrun, by decide +kernel, drain_sound .empty (.refl) hrun hown⟩

/-- Another client's job is in the run and ends before the job of the harness is
placed: the wait returns while that job is queued. -/
theorem drained_before_done :
    Stored {} ∧ Run (Step {}) (startOn {} (.roundRobin {} : Policy) "round_robin") [] defaultInit ∧
    ∃ (tr : List (Driven policies × HarnessEvent)) (d : Driven policies),
      Run (DrivenStep {} oneJob) ⟨defaultInit, .ready⟩ tr d ∧
      d.harness = .drained "r" ⟨2, 1, 0, 1, 0, 1⟩ ∧
      d.scheduler.db.RowIs (harnessJobId "r" 0) (fun row => row.status = "queued") ∧
      ¬ DrainSound oneJob d := by
  refine ⟨.empty, .refl, ?_⟩
  obtain ⟨tr, h₀⟩ := run_opened
  replace h₀ := h₀.of_restrict.1
  -- the other client's job
  have h₁ := h₀.tail (.other id (.submit (ClusterState.jobOf "j")))
  have h₂ := h₁.tail (.other id (@Step.tagSubmission _ _ _ _ [] _ 0 rfl))
  have h₃ := h₂.tail (.other id (@Step.insertSubmission _ _ _ _ _ _ [] _ _ 0 rfl rfl))
  have h₄ := h₃.tail (.other id (.dequeue rfl rfl))
  have h₅ := h₄.tail (.other id (.offer rfl))
  have h₆ := h₅.tail (.other id (.answer rfl))
  have h₇ := h₆.tail (.other id (@Step.claim _ _ _ (ClusterState.jobOf "j") (idleView "n") _
    (by decide +kernel) (Prod.ext (by decide +kernel) rfl)))
  have h₈ := h₇.tail (.other id (.spawn 0 rfl))
  have h₉ := h₈.tail (.other id (@Step.accept _ _ _ _ [] _ rfl rfl))
  have h₁₀ := h₉.tail (.other id (@Step.callback _ _ _ (successOn "n") _ [] _ rfl rfl rfl rfl))
  have h₁₁ := h₁₀.tail (.other id (@Step.recordResult _ _ _ _ [] _ 0 rfl))
  -- the job of the harness
  have h₁₂ := h₁₁.tail (.post 0 rfl rfl (.submit _))
  have h₁₃ := h₁₂.tail (.tag rfl (@Step.tagSubmission _ _ _ _ [] _ 0 rfl))
  have h₁₄ := h₁₃.tail
    (.insert rfl (@Step.insertSubmission _ _ _ _ _ _ [] _ _ 0 rfl rfl) ⟨_, rfl, rfl⟩)
  have h₁₅ := h₁₄.tail (.submitted rfl rfl)
  have h₁₆ := h₁₅.tail (.poll rfl)
  obtain ⟨tr, d, hrun, hdrained, hqueued⟩ : ∃ tr d,
      Run (DrivenStep {} oneJob) ⟨defaultInit, .ready⟩ tr d ∧
      d.harness = .drained "r" ⟨2, 1, 0, 1, 0, 1⟩ ∧
      d.scheduler.db.RowIs (harnessJobId "r" 0) (fun row => row.status = "queued") :=
    ⟨_, _, h₁₆, by decide +kernel, _, rfl, rfl⟩
  refine ⟨tr, d, hrun, hdrained, hqueued, fun hsound => ?_⟩
  obtain ⟨row, hrow, -, hterminal⟩ := (hsound "r" _ hdrained).2 0 (by decide)
  obtain ⟨row', hrow', hstatus⟩ := hqueued
  obtain rfl := Option.some.inj (hrow.symm.trans hrow')
  rw [Database.Terminal, hstatus] at hterminal
  exact absurd hterminal (by decide)

end HeteroSched
