/-
HeteroSched/Utilisation.lean

What the utilisation of a node in `experiments/metrics.py` says about the jobs
that ran there.

Design.  A job executes from its runtime before its completion until its
completion (`JobRecord.execution`), inside the makespan of the run.  The busy
time is the total length of these intervals, so as many jobs as the node has
cores at any instant cannot fill more than its share of the makespan
(`Overlap.sum_length_le`).  The busy time does not know how many cores a job
held; what that makes of the utilisation is the last section.
-/
import HeteroSched.Lib.Overlap
import HeteroSched.Margins

namespace HeteroSched

/-! ### Executions -/

/-- A stored timestamp in seconds. -/
def seconds (t : Timestamp) : ℚ := t / 1000000

/-- When a job executed, if its result is known. -/
def JobRecord.execution (row : JobRecord) : Option (ℚ × ℚ) :=
  match row.completedAt, row.runtimeS with
  | some completedAt, some runtime => some (seconds completedAt - runtime, seconds completedAt)
  | _, _ => none

theorem JobRecord.execution_eq_some {row : JobRecord} {i : ℚ × ℚ} (h : row.execution = some i) :
    ∃ c runtime, row.completedAt = some c ∧ row.runtimeS = some runtime ∧
      i = (seconds c - runtime, seconds c) := by
  rw [execution] at h
  split at h
  · next c runtime hc hrun => exact ⟨c, runtime, hc, hrun, (Option.some.inj h).symm⟩
  · exact absurd h nofun

/-- The job executes at an instant. -/
def JobRecord.executingAt (t : ℚ) (row : JobRecord) : Bool :=
  row.execution.any fun i => i.1 ≤ t ∧ t ≤ i.2

/-- The number of jobs of a node that execute at an instant. -/
def executing (rows : List JobRecord) (n : NodeId) (t : ℚ) : ℕ :=
  (rowsOf rows n).countP (JobRecord.executingAt t)

/-- A row with a runtime tells when the job executed, and not before its submission. -/
def JobRecord.Timed (row : JobRecord) : Prop :=
  ∀ runtime, row.runtimeS = some runtime →
    0 ≤ runtime ∧ ∃ submittedAt completedAt, row.submittedAt = some submittedAt ∧
      row.completedAt = some completedAt ∧ seconds submittedAt ≤ seconds completedAt - runtime

variable {rows : List JobRecord}

/-- The executions of the rows. -/
def executions (rows : List JobRecord) : List (ℚ × ℚ) := rows.filterMap JobRecord.execution

/-- The busy time is the total length of the executions. -/
theorem sum_executions (h : ∀ row ∈ rows, row.Timed) :
    ((executions rows).map fun i => i.2 - i.1).sum =
      busyTime rows := by
  induction rows with
  | nil => rfl
  | cons row rows ih =>
      obtain ⟨hrow, hrest⟩ := List.forall_mem_cons.mp h
      rw [executions, List.filterMap_cons, busyTime_cons]
      rcases hrun : row.runtimeS with - | runtime
      · have hnone : row.execution = none := by
          rw [JobRecord.execution, hrun]
          rcases row.completedAt with - | c
          · rfl
          · rfl
        rw [hnone, Option.getD_none, zero_add]
        exact ih hrest
      · obtain ⟨-, s, c, -, hc, -⟩ := hrow runtime hrun
        have hsome : row.execution = some (seconds c - runtime, seconds c) := by
          rw [JobRecord.execution, hc, hrun]
        rw [hsome, Option.getD_some, ← ih hrest]
        show (((seconds c - runtime, seconds c) :: executions rows).map _).sum = _
        rw [List.map_cons, List.sum_cons, sub_sub_cancel]

/-- A makespan is the length of a window around all submissions and completions. -/
theorem exists_window {m : ℚ} (h : makespan rows = some m) :
    ∃ first last : ℚ, m = last - first ∧
      (∀ row ∈ rows, ∀ t, row.submittedAt = some t → first ≤ seconds t) ∧
      ∀ row ∈ rows, ∀ t, row.completedAt = some t → seconds t ≤ last := by
  rw [makespan] at h
  have hmono : ∀ {t t' : Timestamp}, t ≤ t' → seconds t ≤ seconds t' := by
    intro t t' hle
    have hcast : (t : ℚ) ≤ t' := Int.cast_le.mpr hle
    exact div_le_div_of_nonneg_right hcast (by norm_num)
  rcases hmin : (rows.map fun r => r.submittedAt).reduceOption.min? with - | first
  · rw [hmin] at h
    exact absurd h nofun
  · rcases hmax : (rows.map fun r => r.completedAt).reduceOption.max? with - | last
    · rw [hmin, hmax] at h
      exact absurd h nofun
    · rw [hmin, hmax] at h
      obtain ⟨-, hfirst⟩ := List.min?_eq_some_iff.mp hmin
      obtain ⟨-, hlast⟩ := List.max?_eq_some_iff.mp hmax
      refine ⟨seconds first, seconds last, ?_, ?_, ?_⟩
      · rw [← Option.some.inj h, sub_div]
        rfl
      · intro row hrow t ht
        refine hmono (hfirst t (List.reduceOption_mem_iff.mpr ?_))
        exact List.mem_map.mpr ⟨row, hrow, ht⟩
      · intro row hrow t ht
        refine hmono (hlast t (List.reduceOption_mem_iff.mpr ?_))
        exact List.mem_map.mpr ⟨row, hrow, ht⟩

/-! ### Oversubscription -/

/-- The executions as intervals of the real line. -/
def spans (rows : List JobRecord) : List (ℝ × ℝ) :=
  (executions rows).map fun i => ((i.1 : ℝ), (i.2 : ℝ))

theorem spans_inside {first last : ℚ} (htimed : ∀ row ∈ rows, row.Timed)
    (hfirst : ∀ row ∈ rows, ∀ t, row.submittedAt = some t → first ≤ seconds t)
    (hlast : ∀ row ∈ rows, ∀ t, row.completedAt = some t → seconds t ≤ last) :
    ∀ i ∈ spans rows, (first : ℝ) ≤ i.1 ∧ i.1 ≤ i.2 ∧ i.2 ≤ (last : ℝ) := by
  intro i hi
  obtain ⟨j, hj, rfl⟩ := List.mem_map.mp hi
  obtain ⟨row, hrow, hexec⟩ := List.mem_filterMap.mp hj
  obtain ⟨c, runtime, hc, hrun, rfl⟩ := JobRecord.execution_eq_some hexec
  obtain ⟨hnonneg, s, c', hs, hc', hle⟩ := htimed row hrow runtime hrun
  obtain rfl := Option.some.inj (hc.symm.trans hc')
  refine ⟨?_, ?_, ?_⟩
  · exact Rat.cast_le.mpr ((hfirst row hrow s hs).trans hle)
  · exact Rat.cast_le.mpr (sub_le_self _ hnonneg)
  · exact Rat.cast_le.mpr (hlast row hrow c hc)

/-- At a rational instant no more intervals overlap than jobs execute. -/
theorem depth_spans_le (t : ℚ) :
    Overlap.depth (spans rows) t ≤ rows.countP (JobRecord.executingAt t) := by
  show ((executions rows).map _).countP _ ≤ _
  rw [List.countP_map, executions, List.countP_filterMap]
  refine List.countP_mono_left fun row _ hin => ?_
  rw [JobRecord.executingAt]
  rcases hexec : row.execution with - | e
  · rw [hexec] at hin
    exact absurd hin Bool.false_ne_true
  · rw [hexec] at hin
    obtain ⟨hstart, hend⟩ := of_decide_eq_true hin
    exact decide_eq_true ⟨Rat.cast_le.mp hstart, (Rat.cast_lt.mp hend).le⟩

theorem sum_spans (h : ∀ row ∈ rows, row.Timed) :
    ((spans rows).map fun i => i.2 - i.1).sum = (busyTime rows : ℚ) := by
  rw [← sum_executions h, spans, List.map_map, Rat.cast_list_sum, List.map_map]
  refine congrArg _ (List.map_congr_left fun i _ => ?_)
  exact (Rat.cast_sub _ _).symm

/-- Jobs inside a window, at most `k` of them at any instant, fill at most `k` windows. -/
theorem busy_le {first last : ℚ} {k : ℕ} (htimed : ∀ row ∈ rows, row.Timed)
    (hfirst : ∀ row ∈ rows, ∀ t, row.submittedAt = some t → first ≤ seconds t)
    (hlast : ∀ row ∈ rows, ∀ t, row.completedAt = some t → seconds t ≤ last)
    (hwindow : first ≤ last) (hk : ∀ t, rows.countP (JobRecord.executingAt t) ≤ k) :
    busyTime rows ≤ k * (last - first) := by
  have hdepth : ∀ i ∈ spans rows, Overlap.depth (spans rows) i.1 ≤ k := by
    intro i hi
    obtain ⟨j, -, rfl⟩ := List.mem_map.mp hi
    exact (depth_spans_le j.1).trans (hk j.1)
  have hbound := Overlap.sum_length_le (Rat.cast_le.mpr hwindow)
    (spans_inside htimed hfirst hlast) hdepth
  rw [sum_spans htimed] at hbound
  exact_mod_cast hbound

theorem nodeStats_utilisation {n : NodeId} {l : List JobRecord} {cpus : ℤ} {m : ℚ} (hm : 0 < m)
    (hcpus : 0 < cpus) :
    (nodeStats n l cpus (some m)).utilisation =
      some (busyTime l / (m * cpus)) := by
  show (if m = 0 ∨ cpus = 0 then none else some _) = some _
  refine if_neg ?_
  rintro (h | h)
  · exact hm.ne' h
  · exact hcpus.ne' h

/-- **A utilisation above one means oversubscription**: at some instant more jobs
of the node execute than it has cores; and while no more than that execute, the
utilisation is a fraction. -/
theorem oversubscribed_of_utilisation (run : RunInfo) (jobs : List RunJob)
    (htimed : ∀ row ∈ jobRows jobs, row.Timed) (node : NodeStats)
    (hnode : node ∈ (summarise run jobs).nodesDetail) (hcpus : 0 < node.cpus) (m : ℚ)
    (hmakespan : (summarise run jobs).makespanS = some m) (hpos : 0 < m) :
    ∃ u, node.utilisation = some u ∧
      (1 < u → ∃ t, node.cpus < executing (jobRows jobs) node.nodeId t) ∧
      ((∀ t, (executing (jobRows jobs) node.nodeId t : ℤ) ≤ node.cpus) → 0 ≤ u ∧ u ≤ 1) := by
  replace hmakespan : makespan (jobRows jobs) = some m := hmakespan
  replace hnode : node ∈ nodeRows (jobRows jobs) (run.clusterSnapshot.getD [])
    (makespan (jobRows jobs)) := hnode
  rw [hmakespan] at hnode
  have hstats := mem_nodeRows hnode
  obtain ⟨first, last, rfl, hfirst, hlast⟩ := exists_window hmakespan
  have hmem : ∀ row ∈ rowsOf (jobRows jobs) node.nodeId, row ∈ jobRows jobs :=
    fun row hrow => List.mem_of_mem_filter hrow
  have hnonneg : 0 ≤ busyTime (rowsOf (jobRows jobs) node.nodeId) := by
    refine List.sum_nonneg fun r hr => ?_
    obtain ⟨row, hrow, hrun⟩ := List.mem_map.mp (List.reduceOption_mem_iff.mp hr)
    exact (htimed row (hmem row hrow) r hrun).1
  have hcpus' : (0 : ℚ) < node.cpus := Int.cast_pos.mpr hcpus
  have hbusy : (∀ t, (executing (jobRows jobs) node.nodeId t : ℤ) ≤ node.cpus) →
      busyTime (rowsOf (jobRows jobs) node.nodeId)
        ≤ node.cpus * (last - first) := by
    intro hfit
    have hbound := busy_le (k := node.cpus.toNat) (fun row hrow => htimed row (hmem row hrow))
      (fun row hrow => hfirst row (hmem row hrow)) (fun row hrow => hlast row (hmem row hrow))
      (sub_pos.mp hpos).le (fun t => by
        have := hfit t
        rw [executing] at this
        omega)
    have hcast : ((node.cpus.toNat : ℕ) : ℚ) = node.cpus := by
      exact_mod_cast Int.toNat_of_nonneg hcpus.le
    rwa [hcast] at hbound
  refine ⟨busyTime (rowsOf (jobRows jobs) node.nodeId)
    / ((last - first) * node.cpus), ?_, ?_, ?_⟩
  · rw [hstats]
    exact nodeStats_utilisation hpos (by rw [hstats] at hcpus; exact hcpus)
  · intro hover
    by_contra hnone
    have hfit : ∀ t, (executing (jobRows jobs) node.nodeId t : ℤ) ≤ node.cpus :=
      fun t => not_lt.mp fun hlt => hnone ⟨t, hlt⟩
    rw [lt_div_iff₀ (mul_pos hpos hcpus'), one_mul, mul_comm] at hover
    exact absurd (hbusy hfit) (not_le.mpr hover)
  · intro hfit
    refine ⟨div_nonneg hnonneg (mul_pos hpos hcpus').le, ?_⟩
    rw [div_le_one (mul_pos hpos hcpus'), mul_comm]
    exact hbusy hfit

/-- A job that held one node for the two seconds of a run. -/
def twoSeconds (jobId : JobId) (cpus : ℤ) : RunJob where
  jobId := jobId
  image := "busybox"
  command := none
  status := "completed"
  runId := some "r1"
  submittedAt := some 0
  dispatchedAt := some 0
  dispatchedToNode := some "n1"
  workloadType := none
  cpuRequest := some cpus
  memoryMb := none
  requiresGpu := none
  jobSize := none
  success := some true
  runtimeSeconds := some 2
  exitCode := some 0
  completedAt := some 2000000

/-- A run on one node. -/
def onOneNode (cpus : ℤ) : RunInfo where
  runId := "r1"
  policy := "round_robin"
  startedAt := 0
  clusterSnapshot := some [⟨"n1", some cpus⟩]

theorem timed_twoSeconds (jobId : JobId) (cpus : ℤ) : (jobRecord (twoSeconds jobId cpus)).Timed := by
  intro r hr
  obtain rfl := Option.some.inj hr
  exact ⟨by norm_num, 0, 2000000, rfl, rfl, by norm_num [seconds]⟩

/-- Two jobs at once on one core. -/
theorem oversubscribed_two :
    ∃ t, 1 < executing (jobRows [twoSeconds "a" 1, twoSeconds "b" 1]) "n1" t := by
  have htimed : ∀ row ∈ jobRows [twoSeconds "a" 1, twoSeconds "b" 1], row.Timed := by
    intro row hrow
    obtain ⟨job, hjob, rfl⟩ := List.mem_map.mp hrow
    simp only [List.mem_cons, List.not_mem_nil, or_false] at hjob
    rcases hjob with rfl | rfl
    · exact timed_twoSeconds "a" 1
    · exact timed_twoSeconds "b" 1
  obtain ⟨u, hu, hover, -⟩ := oversubscribed_of_utilisation (onOneNode 1)
    [twoSeconds "a" 1, twoSeconds "b" 1] htimed
    ⟨"n1", 1, 2, some 2, 2, 0, 4, some 2, some 2⟩ (by decide +kernel) (by decide) 2
    (by decide +kernel) (by norm_num)
  obtain rfl := Option.some.inj hu
  obtain ⟨t, ht⟩ := hover (by norm_num)
  exact ⟨t, Int.ofNat_lt.mp ht⟩

/-! ### Occupied cores -/

/-- What a job contributes when its runtime is weighed by a number of its cores. -/
def JobRecord.weighed (weight : ℤ → ℚ) (row : JobRecord) : Option ℚ :=
  match row.cpuRequest, row.runtimeS with
  | some cpus, some runtime => some (weight cpus * runtime)
  | _, _ => none

/-- The core-seconds the jobs held: of each, all the cores it asked for. -/
def coreSeconds (rows : List JobRecord) : ℚ :=
  (rows.filterMap (JobRecord.weighed fun cpus => cpus)).sum

/-- The core-seconds the jobs held beyond one core each. -/
def extraCoreSeconds (rows : List JobRecord) : ℚ :=
  (rows.filterMap (JobRecord.weighed fun cpus => cpus - 1)).sum

/-- The utilisation of a node is the fraction of its core-seconds its jobs held;
so it is one where they held all of them. -/
def MeasuresCores (rows : List JobRecord) (makespan : ℚ) (node : NodeStats) : Prop :=
  node.utilisation = some (coreSeconds (rowsOf rows node.nodeId) / (makespan * node.cpus)) ∧
    (coreSeconds (rowsOf rows node.nodeId) = makespan * node.cpus → node.utilisation = some 1)

/-- The busy time leaves out every core of a job but one. -/
theorem coreSeconds_eq (h : ∀ row ∈ rows, ∃ cpus, row.cpuRequest = some cpus) :
    coreSeconds rows = busyTime rows + extraCoreSeconds rows := by
  induction rows with
  | nil => exact (add_zero _).symm
  | cons row rows ih =>
      obtain ⟨⟨cpus, hcpus⟩, hrest⟩ := List.forall_mem_cons.mp h
      have hih := ih hrest
      rw [coreSeconds, extraCoreSeconds] at hih ⊢
      rw [List.filterMap_cons, List.filterMap_cons, busyTime_cons]
      rcases hrun : row.runtimeS with - | runtime
      · simp only [JobRecord.weighed, hcpus, hrun, Option.getD_none, zero_add]
        exact hih
      · simp only [JobRecord.weighed, hcpus, hrun, Option.getD_some, List.sum_cons, hih]
        ring

theorem extra_nonneg {cpus : ℤ} {runtime : ℚ} (hcpus : 1 ≤ cpus) (hruntime : 0 ≤ runtime) :
    0 ≤ ((cpus : ℚ) - 1) * runtime := by
  have hone : (1 : ℚ) ≤ cpus := by exact_mod_cast hcpus
  exact mul_nonneg (sub_nonneg.mpr hone) hruntime

theorem extraCoreSeconds_nonneg (h : ∀ row ∈ rows,
    (∀ cpus, row.cpuRequest = some cpus → 1 ≤ cpus) ∧
      ∀ runtime, row.runtimeS = some runtime → 0 ≤ runtime) : 0 ≤ extraCoreSeconds rows := by
  refine List.sum_nonneg fun x hx => ?_
  obtain ⟨row, hrow, hweighed⟩ := List.mem_filterMap.mp hx
  obtain ⟨hone, hpos⟩ := h row hrow
  rw [JobRecord.weighed] at hweighed
  split at hweighed
  · next cpus runtime hc hrun =>
      obtain rfl := Option.some.inj hweighed
      exact extra_nonneg (hone cpus hc) (hpos runtime hrun)
  · exact absurd hweighed nofun

/-- Where jobs ask for at least a core, none holds more than one exactly when they
hold nothing beyond one core each. -/
theorem extraCoreSeconds_eq_zero_iff (hcpus : ∀ row ∈ rows, ∃ cpus, row.cpuRequest = some cpus)
    (hvalid : ∀ row ∈ rows, (∀ cpus, row.cpuRequest = some cpus → 1 ≤ cpus) ∧
      ∀ runtime, row.runtimeS = some runtime → 0 ≤ runtime) :
    extraCoreSeconds rows = 0 ↔
      ∀ row ∈ rows, ∀ runtime, row.runtimeS = some runtime → runtime ≠ 0 →
        row.cpuRequest = some 1 := by
  induction rows with
  | nil => exact ⟨fun _ _ hrow => absurd hrow List.not_mem_nil, fun _ => rfl⟩
  | cons row rows ih =>
      obtain ⟨⟨cpus, hc⟩, hcrest⟩ := List.forall_mem_cons.mp hcpus
      obtain ⟨⟨hone, hpos⟩, hvrest⟩ := List.forall_mem_cons.mp hvalid
      rw [List.forall_mem_cons]
      refine Iff.trans ?_ (and_congr_right fun _ => ih hcrest hvrest)
      rw [extraCoreSeconds, List.filterMap_cons]
      rcases hrun : row.runtimeS with - | runtime
      · simp only [JobRecord.weighed, hc, hrun]
        exact (and_iff_right fun _ h => absurd h nofun).symm
      · simp only [JobRecord.weighed, hc, hrun, List.sum_cons]
        have hprod := extra_nonneg (hone cpus hc) (hpos runtime hrun)
        rw [← extraCoreSeconds, add_eq_zero_iff_of_nonneg hprod (extraCoreSeconds_nonneg hvrest),
          mul_eq_zero, sub_eq_zero]
        refine and_congr_left fun _ => ?_
        constructor
        · rintro hor r hr hne
          obtain rfl := Option.some.inj hr
          exact congrArg some (by exact_mod_cast hor.resolve_right hne)
        · intro himp
          by_cases hzero : runtime = 0
          · exact Or.inr hzero
          · have hcore := Option.some.inj (himp runtime rfl hzero)
            exact Or.inl (by exact_mod_cast hcore)

/-- **The utilisation measures the cores held exactly where the jobs of the node
held nothing beyond one core each**; of requests for at least a core, that is
where every job that ran asked for one. -/
theorem measuresCores_iff (rows : List JobRecord) (cluster : List SnapshotEntry) (m : ℚ)
    (hrequests : ∀ row ∈ rows, ∃ cpus, row.cpuRequest = some cpus)
    (hcluster : ∀ e ∈ cluster, ∃ cpus, e.cpus = some cpus ∧ 0 < cpus) (hm : 0 < m)
    (node : NodeStats) (hnode : node ∈ nodeRows rows cluster (some m)) :
    (MeasuresCores rows m node ↔ extraCoreSeconds (rowsOf rows node.nodeId) = 0) ∧
      ((∀ row ∈ rowsOf rows node.nodeId,
          (∀ cpus, row.cpuRequest = some cpus → 1 ≤ cpus) ∧
            ∀ runtime, row.runtimeS = some runtime → 0 ≤ runtime) →
        (MeasuresCores rows m node ↔
          ∀ row ∈ rowsOf rows node.nodeId, ∀ runtime, row.runtimeS = some runtime →
            runtime ≠ 0 → row.cpuRequest = some 1)) := by
  have hstats := mem_nodeRows hnode
  have hcpus : 0 < node.cpus := by
    rw [hstats]
    refine cpusByNode_pos (fun e he cpus hcpus => ?_) node.nodeId
    obtain ⟨c, hc, hpos⟩ := hcluster e he
    exact (Option.some.inj (hc.symm.trans hcpus)) ▸ hpos.le
  have hcpus' : (0 : ℚ) < node.cpus := Int.cast_pos.mpr hcpus
  have hof : ∀ row ∈ rowsOf rows node.nodeId, ∃ cpus, row.cpuRequest = some cpus :=
    fun row hrow => hrequests row (List.mem_of_mem_filter hrow)
  have hutil : node.utilisation =
      some (busyTime (rowsOf rows node.nodeId) / (m * node.cpus)) := by
    have hstats' := nodeStats_utilisation (n := node.nodeId) (l := rowsOf rows node.nodeId) hm hcpus
    rw [hstats] at hstats' ⊢
    exact hstats'
  have hiff : MeasuresCores rows m node ↔ extraCoreSeconds (rowsOf rows node.nodeId) = 0 := by
    rw [MeasuresCores, hutil, coreSeconds_eq hof]
    constructor
    · rintro ⟨heq, -⟩
      have := (div_left_inj' (mul_pos hm hcpus').ne').mp (Option.some.inj heq)
      linarith
    · intro hextra
      rw [hextra, add_zero]
      refine ⟨rfl, fun hfull => ?_⟩
      rw [hfull, div_self (mul_pos hm hcpus').ne']
  refine ⟨hiff, fun hvalid => ?_⟩
  rw [hiff]
  exact extraCoreSeconds_eq_zero_iff hof hvalid

/-- The entry of the node that ran one job for a whole run. -/
def fullNode : NodeStats := ⟨"n1", 2, 1, some (1 / 2), 1, 0, 2, some 2, some (1 / 2)⟩

/-- Two jobs of one core on a node with two, and one of three cores on another node. -/
def mixedJobs : List RunJob :=
  [twoSeconds "a" 1, twoSeconds "b" 1, { twoSeconds "c" 3 with dispatchedToNode := some "n2" }]

/-- The jobs of one core fill their node, which reports it; the job of three cores fills most
of a node with four, which reports a quarter. -/
theorem measuresCores_iff_mixed :
    let one : NodeStats := ⟨"n1", 2, 2, some 1, 2, 0, 4, some 2, some 1⟩
    let three : NodeStats := ⟨"n2", 4, 1, some (1 / 4), 1, 0, 2, some 2, some (1 / 4)⟩
    nodeRows (jobRows mixedJobs) [⟨"n1", some 2⟩, ⟨"n2", some 4⟩] (some 2) = [one, three] ∧
      MeasuresCores (jobRows mixedJobs) 2 one ∧ ¬ MeasuresCores (jobRows mixedJobs) 2 three := by
  intro one three
  have hrows : nodeRows (jobRows mixedJobs) [⟨"n1", some 2⟩, ⟨"n2", some 4⟩] (some 2)
      = [one, three] := by decide +kernel
  have hiff := fun node hnode =>
    (measuresCores_iff (jobRows mixedJobs) [⟨"n1", some 2⟩, ⟨"n2", some 4⟩] 2
      (by
        intro row hrow
        obtain ⟨job, hjob, rfl⟩ := List.mem_map.mp hrow
        simp only [mixedJobs, List.mem_cons, List.not_mem_nil, or_false] at hjob
        rcases hjob with rfl | rfl | rfl
        · exact ⟨1, rfl⟩
        · exact ⟨1, rfl⟩
        · exact ⟨3, rfl⟩)
      (by
        intro e he
        simp only [List.mem_cons, List.not_mem_nil, or_false] at he
        rcases he with rfl | rfl
        · exact ⟨2, rfl, by decide⟩
        · exact ⟨4, rfl, by decide⟩)
      (by norm_num) node hnode).1
  rw [hrows] at hiff
  refine ⟨hrows, (hiff one List.mem_cons_self).mpr (by decide +kernel), fun hmeasures => ?_⟩
  have hextra := (hiff three (List.mem_cons_of_mem _ List.mem_cons_self)).mp hmeasures
  have hfour : extraCoreSeconds (rowsOf (jobRows mixedJobs) "n2") = 4 := by decide +kernel
  exact absurd (hextra.symm.trans hfour) (by norm_num)

/-- A job of two cores fills both, and the node reports a half. -/
theorem not_measuresCores_two :
    fullNode ∈ nodeRows (jobRows [twoSeconds "a" 2]) [⟨"n1", some 2⟩] (some 2) ∧
      ¬ MeasuresCores (jobRows [twoSeconds "a" 2]) 2 fullNode := by
  refine ⟨by decide +kernel, fun h => ?_⟩
  have hfull : coreSeconds (rowsOf (jobRows [twoSeconds "a" 2]) "n1") = 2 * 2 := by decide +kernel
  have hhalf : (1 / 2 : ℚ) = 1 := Option.some.inj (h.2 hfull)
  norm_num at hhalf

end HeteroSched
