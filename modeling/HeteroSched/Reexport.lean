/-
HeteroSched/Reexport.lean

A recorded run exported again: `export_run` from the database file and
`export_run_via_http` from the scheduler.

Design.  The export over HTTP asks two endpoints, `get_run` and `get_run_jobs`, and each
of them reads the database twice, so it is a function of four states of the database.
JSON carries the rows as they are.

A run is concluded when it is closed, no handler is about to insert a row into it, and
nothing is under way of the jobs it has (`Concluded`).  As long as job ids are new, no step
writes then to its row, to the rows of its jobs or to their results, and no job is added
(`Concluded.step`), and a restart writes nothing at all.  So whoever exports it, at whatever
moments and by either way, gets the same files.
-/
import HeteroSched.Export
import HeteroSched.Restarts

namespace HeteroSched

open Transition

/-! ### The endpoints -/

namespace Database

/-- The endpoint `GET /runs/{run_id}` of the scheduler: the row is read before the
progress is; the error is the detail of the 404. -/
def getRunEndpoint (db db' : Database) (runId : RunId) : Except String (RunInfo × RunProgress) :=
  match db.getRun runId with
  | none => .error ("Unknown run: " ++ runId)
  | some run => .ok (run, db'.getRunProgress runId)

/-- The endpoint `GET /runs/{run_id}/jobs`. -/
def getRunJobsEndpoint (db db' : Database) (runId : RunId) : Except String (List RunJob) :=
  match db.getRun runId with
  | none => .error ("Unknown run: " ++ runId)
  | some _ => .ok (db'.getRunJobs runId)

end Database

/-- Export a run by asking the scheduler, which reads the database at four moments.  The
body of a 404 does not have the key that is looked up, which is the error. -/
def exportRunViaHttp (floatText : ℚ → String) (reads : Fin 4 → Database) (runId : RunId)
    (outDir : String) : Except String ExportFiles :=
  match Database.getRunEndpoint (reads 0) (reads 1) runId with
  | .error _ => .error "'run'"
  | .ok (run, _) =>
      match Database.getRunJobsEndpoint (reads 2) (reads 3) runId with
      | .error _ => .error "'jobs'"
      | .ok jobs => .ok (writeExport floatText run jobs outDir)

/-! ### What an export reads -/

/-- The row belongs to the run. -/
def InRun (r : RunId) (e : JobId × JobRow) : Bool := decide (e.2.runId = some r)

/-- The two databases have the same of a run. -/
structure SameRun (r : RunId) (db db' : Database) : Prop where
  run : db'.runs.get? r = db.runs.get? r
  jobs : db'.jobs.entries.filter (InRun r) = db.jobs.entries.filter (InRun r)
  results : ∀ e ∈ db.jobs.entries.filter (InRun r),
    db'.jobResults.get? e.1 = db.jobResults.get? e.1

namespace SameRun

variable {r : RunId} {db db' db'' : Database}

theorem refl (r : RunId) (db : Database) : SameRun r db db := ⟨rfl, rfl, fun _ _ => rfl⟩

theorem trans (h : SameRun r db db') (h' : SameRun r db' db'') : SameRun r db db'' where
  run := h'.run.trans h.run
  jobs := h'.jobs.trans h.jobs
  results := fun e he => (h'.results e (h.jobs ▸ he)).trans (h.results e he)

theorem getRun_eq (h : SameRun r db db') : db'.getRun r = db.getRun r := by
  rw [Database.getRun, Database.getRun, h.run]

theorem getRunJobs_eq (h : SameRun r db db') : db'.getRunJobs r = db.getRunJobs r := by
  show ((db'.jobs.entries.filter (InRun r)).insertionSort _).map _
    = ((db.jobs.entries.filter (InRun r)).insertionSort _).map _
  rw [h.jobs]
  refine List.map_congr_left fun e he => ?_
  rw [h.results e ((List.mem_insertionSort _).mp he)]

theorem exportRun_eq (h : SameRun r db db') (floatText : ℚ → String) (outDir : String) :
    exportRun floatText db' r outDir = exportRun floatText db r outDir := by
  rw [exportRun, exportRun, h.getRun_eq, h.getRunJobs_eq]

/-- Over HTTP, from four databases that have the same of the run, the export is the plain
one. -/
theorem exportRunViaHttp_eq {reads : Fin 4 → Database} (h : ∀ i, SameRun r db (reads i))
    {run : RunInfo} (hrun : db.getRun r = some run) (floatText : ℚ → String) (outDir : String) :
    exportRunViaHttp floatText reads r outDir = exportRun floatText db r outDir := by
  rw [exportRunViaHttp, Database.getRunEndpoint, Database.getRunJobsEndpoint,
    (h 0).getRun_eq, (h 2).getRun_eq, (h 3).getRunJobs_eq, exportRun, hrun]

end SameRun

namespace Scheduler

variable {P : PolicyRegistry} {cfg : Config} {s t : Scheduler P} {e : Event} {j : JobId}
  {r : RunId} {row : RunRow}

/-! ### Jobs of which nothing is under way -/

/-- No thread, no handler and no agent has the job, and no POST of it is in flight. -/
structure Quiet (s : Scheduler P) (j : JobId) : Prop where
  submitted : j ∈ s.submittedIds
  memory : j ∉ s.memoryIds
  submissions : ∀ handler ∈ s.submissions, handler.job.jobId ≠ j
  executing : ∀ ex ∈ s.executing, ex.job.jobId ≠ j
  late : ∀ th ∈ s.late, th.job.jobId ≠ j
  results : ∀ result ∈ s.results, result.jobId ≠ j

/-- It is as if the scheduler had been restarted here. -/
theorem Quiet.leftBehind (h : Quiet s j) : LeftBehind s j s where
  submitted := h.submitted
  memory := h.memory
  submissions := h.submissions
  accepted := by rw [posts_of_not_mem h.memory]
  row := fun row hrow => ⟨row.status, Or.inl rfl, hrow⟩
  noRow := fun h => h
  idle := fun hidle _ => ⟨hidle, h.late, h.results, rfl⟩

/-- Nothing that happens brings the job back. -/
theorem Quiet.lifeStep {l : Life P} (h : Quiet s j) (hf : InLife FreshIds s l)
    (hs : LifeStep cfg s l t) : Quiet t j := by
  have hleft := h.leftBehind.lifeStep hf hs
  have hposts : ∀ th ∈ s.posts, th.job.jobId ≠ j := by
    intro th hth
    rcases mem_posts.mp hth with hth | ⟨hth, -⟩
    · exact h.late th hth
    · rintro rfl
      exact h.memory (mem_memoryIds_of_thread hth)
  obtain ⟨hexecuting, hlate, hresults, -⟩ := hleft.idle h.executing hposts
  exact ⟨hleft.submitted, hleft.memory, hleft.submissions, hexecuting, hlate, hresults⟩

theorem Quiet.not_thread (h : Quiet s j) {th : DispatchThread} (hth : th ∈ s.threads) :
    th.job.jobId ≠ j := by
  rintro rfl
  exact h.memory (mem_memoryIds_of_thread hth)

/-- A result is only written when one is waiting. -/
theorem Step.jobResults_eq (h : Step cfg s e t) (hresults : ∀ result ∈ s.results, result.jobId ≠ j) :
    t.db.jobResults.get? j = s.db.jobResults.get? j := by
  cases h with
  | insertSubmission now hs hdb =>
      obtain ⟨-, rfl⟩ := Database.submitJob_eq_some hdb
      rfl
  | @recordResult result pre post now hr =>
      have hne := hresults result (by rw [hr]; simp)
      exact Dict.get?_set_ne _ _ hne.symm
  | insertRun runId now hl hdb => rw [(Database.startRun_eq_some hdb).2]
  | _ => rfl

/-! ### Concluded runs -/

/-- The run is closed for good, no handler has read that it was open, and nothing is
under way of its jobs. -/
structure Concluded (r : RunId) (row : RunRow) (s : Scheduler P) : Prop where
  left : RunLeft r row s
  handlers : ∀ job at', .tagged job (some r) at' ∉ s.submissions
  jobs : ∀ j row, s.db.jobs.get? j = some row → row.runId = some r → Quiet s j

/-- A row that a thread or a result is about to rewrite is not one of the run. -/
theorem Concluded.filter_modify (h : Concluded r row s) {f : JobRow → JobRow}
    (hf : ∀ row, (f row).runId = row.runId) (hj : ¬ Quiet s j) :
    (s.db.jobs.modify j f).entries.filter (InRun r) = s.db.jobs.entries.filter (InRun r) := by
  refine Dict.filter_entries_modify fun v hv => ?_
  have hne : v.runId ≠ some r := fun hrun => hj (h.jobs j v hv hrun)
  exact ⟨decide_eq_false hne, decide_eq_false (by rwa [hf])⟩

theorem Concluded.entries (h : Concluded r row s) (hs : Step cfg s e t) :
    t.db.jobs.entries.filter (InRun r) = s.db.jobs.entries.filter (InRun r) := by
  cases hs with
  | @insertSubmission job runId at' pre post db now hs hdb =>
      obtain ⟨hnew, rfl⟩ := Database.submitJob_eq_some hdb
      -- the handler has read another run, or none
      refine Dict.filter_entries_set hnew (decide_eq_false fun hrun => ?_)
      have hrun : runId = some r := hrun
      subst hrun
      exact h.handlers job at' (by rw [hs]; simp)
  | @recordDispatch th pre post now ht hpc =>
      exact h.filter_modify (fun _ => rfl) fun hq => hq.not_thread (by rw [ht]; simp) rfl
  | @markFailed th pre post ht hpc =>
      exact h.filter_modify (fun _ => rfl) fun hq => hq.not_thread (by rw [ht]; simp) rfl
  | @recordResult result pre post now hr =>
      exact h.filter_modify (fun _ => rfl) fun hq => hq.results result (by rw [hr]; simp) rfl
  | insertRun runId now hl hdb => rw [(Database.startRun_eq_some hdb).1]
  | _ => rfl

theorem Concluded.step (h : Concluded r row s) (hf : FreshIds s e) (hs : Step cfg s e t) :
    Concluded r row t ∧ SameRun r s.db t.db := by
  have hleft := h.left.step hs
  have hkept : ∀ j, Quiet s j → Quiet t j := fun j hj =>
    hj.lifeStep (show InLife FreshIds s (.step e) from hf) (.step hs)
  refine ⟨⟨hleft, fun job at' hm => ?_, fun j jobRow hget hrun => ?_⟩,
    hleft.row.trans h.left.row.symm, h.entries hs, ?_⟩
  · rcases hs.mem_tagged hm with hm | hactive
    · exact h.handlers job at' hm
    · exact h.left.active hactive.symm
  · rcases hs.row_origin hget with ⟨old, hold, hsame⟩ | ⟨job, -, at', -, -, -, hm⟩
    · exact hkept j (h.jobs j old hold (hsame.trans hrun))
    · exact absurd (hrun ▸ hm) (h.handlers job at')
  · rintro ⟨j, jobRow⟩ he
    obtain ⟨hentry, hrun⟩ := List.mem_filter.mp he
    have hquiet := h.jobs j jobRow (Dict.get?_eq_some_iff.mpr hentry) (of_decide_eq_true hrun)
    exact hs.jobResults_eq hquiet.results

theorem Concluded.lifeStep {l : Life P} (h : Concluded r row s) (hf : InLife FreshIds s l)
    (hs : LifeStep cfg s l t) : Concluded r row t ∧ SameRun r s.db t.db := by
  cases hs with
  | step hs => exact h.step hf hs
  | restart policy policyName =>
      refine ⟨⟨⟨h.left.row, nofun, nofun⟩, fun _ _ hm => absurd hm List.not_mem_nil, ?_⟩,
        SameRun.refl r s.db⟩
      exact fun j jobRow hget hrun =>
        (h.jobs j jobRow hget hrun).lifeStep hf (@LifeStep.restart P cfg s policy policyName)
  | acceptLate hlate =>
      refine ⟨⟨⟨h.left.row, h.left.active, h.left.lock⟩, h.handlers, ?_⟩, SameRun.refl r s.db⟩
      exact fun j jobRow hget hrun =>
        (h.jobs j jobRow hget hrun).lifeStep hf (@LifeStep.acceptLate P cfg s _ _ _ hlate)

/-- A state that the system gets to, restarts included, when job ids are new. -/
def Later (cfg : Config) (s t : Scheduler P) : Prop :=
  ∃ tr, Run (LifeStep cfg) s tr t ∧ ∀ p ∈ tr, InLife FreshIds p.1 p.2

theorem Concluded.later (h : Concluded r row s) (ht : Later cfg s t) : SameRun r s.db t.db := by
  obtain ⟨tr, hrun, hfresh⟩ := ht
  have hboth : Concluded r row t ∧ SameRun r s.db t.db := by
    refine hrun.invariant_of (I := fun t => Concluded r row t ∧ SameRun r s.db t.db)
      ⟨h, SameRun.refl r s.db⟩ ?_ hfresh
    rintro t e u ⟨hdone, hsame⟩ hf hs
    obtain ⟨hdone', hsame'⟩ := hdone.lifeStep hf hs
    exact ⟨hdone', hsame.trans hsame'⟩
  exact hboth.2

/-! ### The theorem -/

/-- Once a run is concluded, whatever happens afterwards with new job ids, further runs, late
or failing requests and restarts included: an export from the database writes the files it
would have written then, and so does an export over HTTP, although the scheduler reads the
run and its jobs at different moments. -/
theorem export_repeatable (h : Concluded r row s) (floatText : ℚ → String) (outDir : String) :
    ∃ files, exportRun floatText s.db r outDir = .ok files ∧
      (∀ t, Later cfg s t → exportRun floatText t.db r outDir = .ok files) ∧
      ∀ reads : Fin 4 → Scheduler P, (∀ i, Later cfg s (reads i)) →
        exportRunViaHttp floatText (fun i => (reads i).db) r outDir = .ok files := by
  have hrun : s.db.getRun r = some (RunRow.info r row) := by
    rw [Database.getRun, h.left.row]
    rfl
  have hexport : exportRun floatText s.db r outDir
      = .ok (writeExport floatText (RunRow.info r row) (s.db.getRunJobs r) outDir) := by
    rw [exportRun, hrun]
  refine ⟨_, hexport, fun t ht => ?_, fun reads hreads => ?_⟩
  · rw [(h.later ht).exportRun_eq, hexport]
  · rw [SameRun.exportRunViaHttp_eq (fun i => h.later (hreads i)) hrun, hexport]

/-- A run is closed while its job is in the queue, and the scheduler is restarted; a node
registers between the two requests of an export. -/
theorem export_repeatable_restarted :
    ∃ (s₀ s t : Scheduler policies) (files : ExportFiles),
      s₀.memoryIds = ["j"] ∧ s = s₀.restarted (.roundRobin {}) "round_robin" ∧
      s.db.jobs.keys = ["j"] ∧ Later {} s t ∧ t.cluster.registrations.keys = ["n"] ∧
      exportRun (fun _ => "0.0") s.db "r" "results" = .ok files ∧
      exportRunViaHttp (fun _ => "0.0") (fun i => (![s, s, t, t] i).db) "r" "results"
        = .ok files := by
  have h₀ : Run (Step {}) defaultInit [] defaultInit := .refl
  have h₁ := h₀.tail (@Step.startRun _ _ _ {} rfl rfl)
  have h₂ := h₁.tail (.countQueue rfl)
  have h₃ := h₂.tail (.readCounters rfl (by decide))
  have h₄ := h₃.tail (@Step.swapPolicy policies _ _ {} (.roundRobin {}) "round_robin" rfl
    (newPolicy_round_robin rfl))
  have h₅ := h₄.tail (.listNodes rfl)
  have h₆ := h₅.tail (.insertRun "r" 0 rfl rfl)
  have h₇ := h₆.tail (.openRun rfl)
  have h₈ := h₇.tail (.submit (ClusterState.jobOf "j"))
  have h₉ := h₈.tail (@Step.tagSubmission _ _ _ _ [] _ 0 rfl)
  have h₁₀ := h₉.tail (@Step.insertSubmission _ _ _ _ _ _ [] _ _ 0 rfl rfl)
  have h₁₁ := h₁₀.tail (.finishRun rfl rfl)
  have h₁₂ := h₁₁.tail (.closeRow 1 rfl)
  have h₁₃ := h₁₂.tail (.closeRun rfl)
  obtain ⟨tr, s₀, -, hmemory, hids, hexecuting, hposts, hkeys, row, hrow⟩ :
      ∃ tr s₀, Run (Step {}) defaultInit tr s₀ ∧ s₀.memoryIds = ["j"] ∧ s₀.submittedIds = ["j"] ∧
        s₀.executing = [] ∧ s₀.posts = [] ∧ s₀.db.jobs.keys = ["j"] ∧
        ∃ row, s₀.db.runs.get? "r" = some row :=
    ⟨_, _, h₁₃, rfl, rfl, rfl, rfl, rfl, _, rfl⟩
  let s : Scheduler policies := s₀.restarted (.roundRobin {}) "round_robin"
  have hdone : Concluded "r" row s := by
    refine ⟨⟨hrow, nofun, nofun⟩, fun _ _ hm => absurd hm List.not_mem_nil,
      fun j jobRow hget _ => ?_⟩
    have hj : j ∈ ["j"] := hkeys ▸ Dict.mem_of_get? hget
    obtain rfl := List.mem_singleton.mp hj
    refine ⟨?_, List.not_mem_nil, fun _ hm => absurd hm List.not_mem_nil, ?_, ?_,
      fun _ hm => absurd hm List.not_mem_nil⟩
    · exact hids ▸ List.mem_singleton.mpr rfl
    · exact fun _ hex => absurd (hexecuting ▸ hex) List.not_mem_nil
    · show ∀ th ∈ s₀.posts, th.job.jobId ≠ "j"
      rw [hposts]
      exact fun _ hth => absurd hth List.not_mem_nil
  have g₀ : Run (restrict (LifeStep {}) (InLife FreshIds)) s [] s := .refl
  have g₁ := g₀.tail_restrict (.step (.register (ClusterState.nodeOf "n" 1 64))) trivial
  have hsame : Later {} s s := ⟨[], .refl, fun _ hp => absurd hp List.not_mem_nil⟩
  obtain ⟨t, ht, hnodes⟩ : ∃ t, Later {} s t ∧ t.cluster.registrations.keys = ["n"] :=
    ⟨_, ⟨_, g₁.of_restrict⟩, rfl⟩
  obtain ⟨files, hfiles, -, hhttp⟩ := export_repeatable hdone (fun _ => "0.0") "results"
  refine ⟨s₀, s, t, files, hmemory, rfl, hkeys, ht, hnodes, hfiles, hhttp ![s, s, t, t] ?_⟩
  intro i
  fin_cases i
  · exact hsame
  · exact hsame
  · exact ht
  · exact ht

end Scheduler

end HeteroSched
