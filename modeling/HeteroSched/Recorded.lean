/-
HeteroSched/Recorded.lean

What the database keeps of an experiment: the jobs the harness has submitted.

Design.  A row is inserted with the columns of its job and no later write changes them
(`JobRow.declaration`).  While the harness is the only one to get rows into its run, the
rows of the run are those of the jobs it has submitted so far, each under its own id
(`JobsRecorded`); the ids are distinct, so no job is counted twice
(`harnessJobId_injective`).
-/
import HeteroSched.Margins
import HeteroSched.Queries
import HeteroSched.Traces

namespace HeteroSched

open Transition Scheduler

/-! ### Ids and declarations -/

theorem harnessJobId_injective (r : RunId) : Function.Injective (harnessJobId r) := by
  intro i j h
  have hlist : (Nat.toDigits 10 i).leftpad 4 '0' = (Nat.toDigits 10 j).leftpad 4 '0' := by
    have htext := congrArg String.toList h
    simpa [harnessJobId] using htext
  have hvalue : ∀ n, Nat.ofDigitChars 10 ((Nat.toDigits 10 n).leftpad 4 '0') 0 = n := by
    intro n
    rw [List.leftpad, Nat.ofDigitChars_append, Nat.ofDigitChars_replicate_zero, Nat.mul_zero,
      Nat.ofDigitChars_ten_toDigits]
  rw [← hvalue i, hlist, hvalue j]

/-- The columns a job is submitted with. -/
structure Declaration where
  image : String
  command : Option String
  workloadType : Option String
  cpuRequest : Option ℤ
  memoryMb : Option ℤ
  requiresGpu : Option Bool
  jobSize : Option ℤ
  deriving DecidableEq

/-- What a row says the job declared. -/
def JobRow.declaration (row : JobRow) : Declaration where
  image := row.image
  command := row.command
  workloadType := row.workloadType
  cpuRequest := row.cpuRequest
  memoryMb := row.memoryMb
  requiresGpu := row.requiresGpu
  jobSize := row.jobSize

/-- What a job of the trace declares. -/
def TraceJob.declaration (job : TraceJob) : Declaration where
  image := job.image
  command := job.command
  workloadType := some job.requirements.workloadType.value
  cpuRequest := some job.requirements.cpuRequest
  memoryMb := job.requirements.memoryMb
  requiresGpu := some job.requirements.requiresGpu
  jobSize := job.requirements.size

variable {P : PolicyRegistry} {cfg : Config} {jobs : List TraceJob} {d d' : Driven P}
variable {a : HarnessEvent} {s t : Scheduler P} {e : Event} {r : RunId} {n : ℕ}

/-- The rows of the run are those of the first `n` jobs. -/
structure JobsRecorded (jobs : List TraceJob) (n : ℕ) (r : RunId) (s : Scheduler P) : Prop where
  rows : ∀ index < n, ∃ job, jobs[index]? = some job ∧
    s.db.RowIs (harnessJobId r index) fun row =>
      row.runId = some r ∧ row.declaration = job.declaration
  only : RowsOwned n r s

theorem Scheduler.InsertsOwn.mono {m : ℕ} (h : InsertsOwn n r s e) (hle : n ≤ m) : InsertsOwn m r s e := by
  intro job now at' he hm
  obtain ⟨index, hi, hid⟩ := h job now at' he hm
  exact ⟨index, hi.trans_le hle, hid⟩

/-- When there is no next job, all are recorded. -/
theorem JobsRecorded.length_eq (h : JobsRecorded jobs n r s) (hend : jobs[n]? = none) :
    n = jobs.length := by
  have hle := List.getElem?_eq_none_iff.mp hend
  rcases hle.lt_or_eq with hlt | heq
  · obtain ⟨job, hjob, -⟩ := h.rows jobs.length hlt
    exact nomatch (List.getElem?_eq_none le_rfl).symm.trans hjob
  · exact heq.symm

/-- A step that gets nobody else's row into the run keeps the rows of the run. -/
theorem JobsRecorded.step (h : JobsRecorded jobs n r s) (hs : Step cfg s e t)
    (hown : InsertsOwn n r s e) : JobsRecorded jobs n r t where
  rows := by
    intro index hi
    obtain ⟨job, hjob, hrow⟩ := h.rows index hi
    exact ⟨job, hjob, hs.rowIs hrow (fun _ _ _ hQ => hQ) (fun _ hQ => hQ) fun _ _ hQ => hQ⟩
  only := h.only.step hs hown

/-- The row of the next job. -/
theorem JobsRecorded.insert {job : TraceJob} {now now' : Timestamp} (h : JobsRecorded jobs n r s)
    (hjob : jobs[n]? = some job)
    (hs : Step cfg s (.insertSubmission (job.payload r n now) now') t)
    (hrow : t.db.RowIs (harnessJobId r n) fun row => row.runId = some r) :
    JobsRecorded jobs (n + 1) r t where
  rows := by
    intro index hi
    rcases Nat.lt_succ_iff_lt_or_eq.mp hi with hi | rfl
    · obtain ⟨job', hjob', hrow'⟩ := h.rows index hi
      exact ⟨job', hjob', hs.rowIs hrow' (fun _ _ _ hQ => hQ) (fun _ hQ => hQ) fun _ _ hQ => hQ⟩
    · refine ⟨job, hjob, ?_⟩
      obtain ⟨row, hget, hrun⟩ := hrow
      refine ⟨row, hget, hrun, ?_⟩
      cases hs with
      | insertSubmission _ hpending hdb =>
          obtain ⟨-, rfl⟩ := Database.submitJob_eq_some hdb
          obtain rfl := Option.some.inj ((Dict.get?_set_self _ _ _).symm.trans hget)
          rfl
  only := by
    intro j row hrow' hrun
    rcases hs.row_origin hrow' with ⟨old, hold, hsame⟩ | ⟨job', now', at', he, rfl, -, -⟩
    · obtain ⟨index, hi, hid⟩ := h.only j old hold (hsame.trans hrun)
      exact ⟨index, hi.trans (Nat.lt_succ_self n), hid⟩
    · cases he
      exact ⟨n, Nat.lt_succ_self n, rfl⟩

/-! ### The run of the harness -/

/-- What the database has of the run, by the place of the harness. -/
def Records (jobs : List TraceJob) (s : Scheduler P) : Harness → Prop
  | .starting => Opening 0 s
  | .submitting r index => RunOpen r s ∧ JobsRecorded jobs index r s
  | .posted r index job =>
      RunOpen r s ∧ JobsRecorded jobs index r s ∧
        ∃ traceJob now, jobs[index]? = some traceJob ∧ job = traceJob.payload r index now
  | .tagged r index job tag =>
      RunOpen r s ∧ JobsRecorded jobs index r s ∧ tag = some r ∧
        ∃ traceJob now, jobs[index]? = some traceJob ∧ job = traceJob.payload r index now
  | .waiting r _ | .drained r _ => RunOpen r s ∧ JobsRecorded jobs jobs.length r s
  | _ => True

theorem Records.other {harness : Harness} (h : Records jobs s harness) (htagged : Tagged s)
    (hs : Step cfg s e t) (he : ¬ TakesRunLock e)
    (hown : harness.isDriving = true → ∀ r, s.activeRunId = some r → InsertsOwn 0 r s e) :
    Records jobs t harness := by
  have hkeep : ∀ {r n}, harness.isDriving = true → RunOpen r s → JobsRecorded jobs n r s →
      RunOpen r t ∧ JobsRecorded jobs n r t := by
    intro r n hdriving hopen hrecorded
    exact ⟨hopen.step hs he,
      hrecorded.step hs ((hown hdriving r hopen.2).mono (Nat.zero_le _))⟩
  cases harness with
  | starting => exact h.step htagged hs he (hown rfl)
  | submitting r index => exact hkeep rfl h.1 h.2
  | posted r index job =>
      obtain ⟨hopen, hrecorded⟩ := hkeep rfl h.1 h.2.1
      exact ⟨hopen, hrecorded, h.2.2⟩
  | tagged r index job tag =>
      obtain ⟨hopen, hrecorded⟩ := hkeep rfl h.1 h.2.1
      exact ⟨hopen, hrecorded, h.2.2⟩
  | waiting r total => exact hkeep rfl h.1 h.2
  | drained r progress => exact hkeep rfl h.1 h.2
  | _ => trivial

/-- Only the harness gets rows into the run that is open while it is at work. -/
def AloneInRun (d : Driven P) : HarnessEvent → Prop
  | .other e => d.harness.isDriving = true → ∀ r, d.scheduler.activeRunId = some r →
      InsertsOwn 0 r d.scheduler e
  | _ => True

theorem DrivenStep.records (hs : DrivenStep cfg jobs d a d') (htagged : Tagged d.scheduler)
    (h : Records jobs d.scheduler d.harness) (halone : AloneInRun d a) :
    Records jobs d'.scheduler d'.harness := by
  cases hs with
  | other he hs => exact h.other htagged hs he halone
  | startRun hh hs =>
      cases hs with
      | startRun hl ha => exact ha
  | refused hh hs => trivial
  | started hh hl ha =>
      -- the run is new, so it has no rows yet
      rw [hh] at h
      have hopening : Opening 0 d.scheduler := h
      unfold Opening at hopening
      rw [hl] at hopening
      exact ⟨⟨hl, ha⟩, fun index hi => absurd hi (Nat.not_lt_zero index), hopening _ ha⟩
  | notStarted hh hl ha => trivial
  | @post r index job t now hh hjob hs =>
      rw [hh] at h
      obtain ⟨hopen, hrecorded⟩ := h
      exact ⟨hopen.step hs id, hrecorded.step hs (insertsOwn_of_not fun _ _ => nofun),
        job, now, hjob, rfl⟩
  | tag hh hs =>
      rw [hh] at h
      obtain ⟨hopen, hrecorded, hjob⟩ := h
      exact ⟨hopen.step hs id, hrecorded.step hs (insertsOwn_of_not fun _ _ => nofun), hopen.2,
        hjob⟩
  | @insert r index job tag t now hh hs hrow =>
      rw [hh] at h
      obtain ⟨hopen, hrecorded, rfl, traceJob, now', hjob, rfl⟩ := h
      exact ⟨hopen.step hs id, hrecorded.insert hjob hs hrow⟩
  | submitted hh hend =>
      rw [hh] at h
      obtain ⟨hopen, hrecorded⟩ := h
      exact ⟨hopen, hrecorded.length_eq hend ▸ hrecorded⟩
  | @poll r total hh =>
      rw [hh] at h
      show Records jobs d.scheduler (if _ then _ else _)
      split
      · exact h
      · exact h
  | leave hh => trivial
  | finish hh he hs => trivial

/-! ### The rows of the run -/

theorem filterMap_getElem?_range {α : Type*} (l : List α) :
    (List.range l.length).filterMap (fun i => l[i]?) = l := by
  induction l with
  | nil => rfl
  | cons a l ih =>
      rw [List.length_cons, List.range_succ_eq_map, List.filterMap_cons, List.filterMap_map]
      exact congrArg _ ih

/-- The rows of the run are the submitted jobs, each once. -/
theorem JobsRecorded.declarations (h : JobsRecorded jobs jobs.length r s) :
    ((s.db.runJobs r).map JobRow.declaration).Perm (jobs.map TraceJob.declaration) := by
  have hids : ((List.range jobs.length).map (harnessJobId r)).Nodup :=
    List.nodup_range.map (harnessJobId_injective r)
  have hperm : (s.db.runJobs r).Perm
      (((List.range jobs.length).map (harnessJobId r)).filterMap s.db.jobs.get?) := by
    refine Dict.filter_values_perm hids fun k => ?_
    constructor
    · intro hk
      obtain ⟨index, hi, rfl⟩ := List.mem_map.mp hk
      obtain ⟨job, -, row, hget, hrun, -⟩ := h.rows index (List.mem_range.mp hi)
      exact ⟨row, hget, decide_eq_true hrun⟩
    · rintro ⟨row, hget, hrun⟩
      obtain ⟨index, hi, rfl⟩ := h.only k row hget (of_decide_eq_true hrun)
      exact List.mem_map_of_mem (List.mem_range.mpr hi)
  have hrows : (((List.range jobs.length).map (harnessJobId r)).filterMap s.db.jobs.get?).map
      JobRow.declaration = jobs.map TraceJob.declaration := by
    rw [List.filterMap_map, List.map_filterMap, ← filterMap_getElem?_range (jobs.map _),
      List.length_map]
    refine List.filterMap_congr fun index hi => ?_
    obtain ⟨job, hjob, row, hget, -, hdecl⟩ := h.rows index (List.mem_range.mp hi)
    rw [Function.comp_apply, hget, List.getElem?_map, hjob, Option.map_some, Option.map_some,
      hdecl]
  rw [← hrows]
  exact hperm.map _

/-- The table by workload has the workloads of the rows, with how many rows each has. -/
theorem mem_byWorkload_jobs (rows : List JobRecord) (w : String) (n : ℕ) :
    (w, n) ∈ (byWorkload rows).map (fun e => (e.1, e.2.jobs)) ↔
      0 < n ∧ n = rows.countP fun row => row.workload = w := by
  have hcount : ∀ w', (workloadStats (rowsFor rows w')).jobs =
      rows.countP fun row => row.workload = w' := fun w' => List.countP_eq_length_filter.symm
  have hmem : w ∈ listedWorkloads rows ↔ 0 < rows.countP fun row => row.workload = w := by
    rw [listedWorkloads, mem_keys_sortedItems, mem_rowsByWorkload, List.countP_pos_iff]
    simp only [decide_eq_true_eq]
  rw [byWorkload_eq, List.map_map, List.mem_map]
  constructor
  · rintro ⟨w', hw', heq⟩
    obtain ⟨rfl, rfl⟩ := Prod.mk.inj heq
    exact ⟨(hcount w').symm ▸ hmem.mp hw', hcount w'⟩
  · rintro ⟨hpos, rfl⟩
    exact ⟨w, hmem.mpr hpos, Prod.ext rfl (hcount w)⟩

/-- The name under which the summary counts a row with this workload type. -/
def Declaration.workload (declaration : Declaration) : String :=
  match declaration.workloadType with
  | some workloadType => if workloadType = "" then "unspecified" else workloadType
  | none => "unspecified"

theorem TraceJob.declaration_workload (job : TraceJob) :
    job.declaration.workload = job.requirements.workloadType.value := by
  unfold Declaration.workload TraceJob.declaration
  cases job.requirements.workloadType <;> rfl

/-- The summary counts the rows of the run under the workloads their jobs declared. -/
theorem countP_workload_getRunJobs {db : Database} (w : String)
    (h : ((db.runJobs r).map JobRow.declaration).Perm (jobs.map TraceJob.declaration)) :
    (jobRows (db.getRunJobs r)).countP (fun row => row.workload = w) =
      jobs.countP fun job => job.requirements.workloadType.value = w := by
  calc (jobRows (db.getRunJobs r)).countP (fun row => row.workload = w)
      = (db.runJobs r).countP fun row => row.declaration.workload = w := by
        rw [jobRows, List.countP_map, Database.getRunJobs, List.countP_map,
          (List.perm_insertionSort _ _).countP_eq, Database.countP_runJobs]
        rfl
    _ = ((db.runJobs r).map JobRow.declaration).countP fun declaration =>
          declaration.workload = w := by
        rw [List.countP_map]
        rfl
    _ = (jobs.map TraceJob.declaration).countP fun declaration => declaration.workload = w :=
        h.countP_eq _
    _ = jobs.countP fun job => job.requirements.workloadType.value = w := by
        rw [List.countP_map]
        refine List.countP_congr fun job _ => ?_
        rw [Function.comp_apply, job.declaration_workload]

/-- **A trace is recorded as it is submitted**: in every run in which the harness is the
only one to get rows into its run, once it has submitted its jobs the run has one row for
each, under its own id and with the columns the job declared, and no other row.  The
table by workload of the summary then counts the jobs of the trace. -/
theorem trace_recorded {db : Database} {policy : P.Instance} {policyName : String}
    {s₀ : Scheduler P} {tr₀ : List (Scheduler P × Event)} {tr : List (Driven P × HarnessEvent)}
    (hdb : Stored db) (h₀ : Run (Step cfg) (startOn db policy policyName) tr₀ s₀)
    (h : Run (DrivenStep cfg jobs) ⟨s₀, .ready⟩ tr d)
    (halone : ∀ p ∈ tr, AloneInRun p.1 p.2) (r : RunId)
    (hr : (∃ total, d.harness = .waiting r total) ∨ ∃ progress, d.harness = .drained r progress) :
    (∀ index job, jobs[index]? = some job →
      d.scheduler.db.RowIs (harnessJobId r index) fun row =>
        row.runId = some r ∧ row.declaration = job.declaration) ∧
    ((d.scheduler.db.runJobs r).map JobRow.declaration).Perm (jobs.map TraceJob.declaration) ∧
    ∀ w n, (w, n) ∈ (byWorkload (jobRows (d.scheduler.db.getRunJobs r))).map
        (fun e => (e.1, e.2.jobs)) ↔
      0 < n ∧ n = jobs.countP fun job => job.requirements.workloadType.value = w := by
  have htagged : Tagged s₀ :=
    h₀.invariant (hdb.jobsNameRuns.tagged policy policyName) fun ht hs => ht.step hs
  have hrecords := h.invariant_of
    (I := fun d : Driven P => Tagged d.scheduler ∧ Records jobs d.scheduler d.harness)
    ⟨htagged, trivial⟩
    (fun hd hc hs => ⟨hs.tagged hd.1, hs.records hd.1 hd.2 hc⟩) halone
  have hrecorded : JobsRecorded jobs jobs.length r d.scheduler := by
    rcases hr with ⟨total, hh⟩ | ⟨progress, hh⟩
    · have hdone := hrecords.2
      rw [hh] at hdone
      exact hdone.2
    · have hdone := hrecords.2
      rw [hh] at hdone
      exact hdone.2
  refine ⟨fun index job hjob => ?_, hrecorded.declarations, fun w n => ?_⟩
  · obtain ⟨job', hjob', hrow⟩ := hrecorded.rows index (List.getElem?_eq_some_iff.mp hjob).1
    obtain rfl := Option.some.inj (hjob.symm.trans hjob')
    exact hrow
  · rw [mem_byWorkload_jobs, countP_workload_getRunJobs w hrecorded.declarations]

/-- Two jobs of different workloads. -/
def twoJobs : List TraceJob :=
  [{ image := "alpine", requirements := (ClusterState.jobOf "j").requirements },
    { image := "busybox"
      requirements := { (ClusterState.jobOf "j").requirements with workloadType := .memory } }]

/-- Two jobs, on a scheduler without nodes: they wait, and are counted. -/
theorem trace_recorded_two_jobs :
    ∃ (tr : List (Driven policies × HarnessEvent)) (d : Driven policies),
      Run (DrivenStep {} twoJobs) ⟨defaultInit, .ready⟩ tr d ∧ d.harness = .waiting "r" 2 ∧
      (d.scheduler.db.RowIs (harnessJobId "r" 1) fun row => row.image = "busybox") ∧
      ("mixed", 1) ∈ (byWorkload (jobRows (d.scheduler.db.getRunJobs "r"))).map
        (fun e => (e.1, e.2.jobs)) ∧
      ("memory", 1) ∈ (byWorkload (jobRows (d.scheduler.db.getRunJobs "r"))).map
        (fun e => (e.1, e.2.jobs)) := by
  have hother : ∀ (d : Driven policies) (e : Event), (∀ job now, e ≠ .insertSubmission job now) →
      AloneInRun d (.other e) := fun _ _ he _ _ _ => insertsOwn_of_not he
  have h₀ : Run (restrict (DrivenStep {} twoJobs) AloneInRun) ⟨defaultInit, .ready⟩ []
    ⟨defaultInit, .ready⟩ := .refl
  have h₁ := h₀.tail_restrict (.startRun rfl (@Step.startRun _ _ _ {} rfl rfl)) trivial
  have h₂ := h₁.tail_restrict (.other id (.countQueue rfl)) (hother _ _ fun _ _ => nofun)
  have h₃ := h₂.tail_restrict (.other id (.readCounters rfl (by decide +kernel)))
    (hother _ _ fun _ _ => nofun)
  have h₄ := h₃.tail_restrict (.other id (@Step.swapPolicy policies _ _ {} (.roundRobin {})
    "round_robin" rfl (newPolicy_round_robin rfl))) (hother _ _ fun _ _ => nofun)
  have h₅ := h₄.tail_restrict (.other id (.listNodes rfl)) (hother _ _ fun _ _ => nofun)
  have h₆ := h₅.tail_restrict (.other id (.insertRun "r" 0 rfl rfl)) (hother _ _ fun _ _ => nofun)
  have h₇ := h₆.tail_restrict (.other id (.openRun rfl)) (hother _ _ fun _ _ => nofun)
  have h₈ := h₇.tail_restrict (.started rfl rfl rfl) trivial
  have h₉ := h₈.tail_restrict (.post 0 rfl rfl (.submit _)) trivial
  have h₁₀ := h₉.tail_restrict (.tag rfl (@Step.tagSubmission _ _ _ _ [] _ 0 rfl)) trivial
  have h₁₁ := h₁₀.tail_restrict
    (.insert rfl (@Step.insertSubmission _ _ _ _ _ _ [] _ _ 0 rfl rfl) ⟨_, rfl, rfl⟩) trivial
  have h₁₂ := h₁₁.tail_restrict (.post 1 rfl rfl (.submit _)) trivial
  have h₁₃ := h₁₂.tail_restrict (.tag rfl (@Step.tagSubmission _ _ _ _ [] _ 1 rfl)) trivial
  have h₁₄ := h₁₃.tail_restrict
    (.insert rfl (@Step.insertSubmission _ _ _ _ _ _ [] _ _ 1 rfl rfl) ⟨_, rfl, rfl⟩) trivial
  have h₁₅ := h₁₄.tail_restrict (.submitted rfl rfl) trivial
  obtain ⟨hrun, halone⟩ := h₁₅.of_restrict
  obtain ⟨hrows, -, hcounts⟩ := trace_recorded .empty .refl hrun halone "r" (.inl ⟨2, rfl⟩)
  obtain ⟨row, hrow, -, hdeclared⟩ := hrows 1 _ rfl
  exact ⟨_, _, hrun, rfl, ⟨row, hrow, congrArg Declaration.image hdeclared⟩,
    (hcounts "mixed" 1).mpr ⟨by decide, by decide⟩,
    (hcounts "memory" 1).mpr ⟨by decide, by decide⟩⟩

end HeteroSched
