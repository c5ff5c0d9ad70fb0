/-
HeteroSched/Fairness.lean

Jain's fairness index of `experiments/metrics.py`, and what a run with index one
over its jobs per core has in common with the capacity of its nodes.

Design.  The index is the general index of evenness, where it is defined
(`jainsFairness_eq`), and so it is one for equal values only.  Every listed node
reports at least one core, so each has a value in the list the summary hands over
(`jobsPerCpu_eq`), and equal jobs per core are jobs in proportion to the cores.
-/
import HeteroSched.Lib.Evenness
import HeteroSched.Margins

namespace HeteroSched

/-! ### The index -/

/-- Of values that are not negative nor all zero, the index is that of evenness. -/
theorem jainsFairness_eq {values : List ℚ} (hnonneg : ∀ v ∈ values, 0 ≤ v)
    (h : ∃ v ∈ values, v ≠ 0) : jainsFairness values = some (Evenness.index values) := by
  obtain ⟨v, hv, hne⟩ := h
  have hsum : values.sum ≠ 0 := fun hzero =>
    hne ((Evenness.sum_eq_zero_iff hnonneg).mp hzero v hv)
  have hsquares : Evenness.squares values ≠ 0 := fun hzero =>
    hne (Evenness.squares_eq_zero_iff.mp hzero v hv)
  rw [jainsFairness, if_neg (List.ne_nil_of_mem hv), if_neg hsum]
  exact if_neg hsquares

theorem jainsFairness_eq_one_iff {values : List ℚ} (hnonneg : ∀ v ∈ values, 0 ≤ v)
    (h : ∃ v ∈ values, v ≠ 0) :
    jainsFairness values = some 1 ↔ ∀ v ∈ values, ∀ w ∈ values, v = w := by
  rw [jainsFairness_eq hnonneg h, Option.some_inj]
  exact Evenness.index_eq_one_iff h

/-! ### Jobs per core -/

/-- The nodes received jobs in proportion to their cores. -/
def Proportional (nodes : List NodeStats) : Prop :=
  ∃ share : ℚ, ∀ node ∈ nodes, (node.jobs : ℚ) = share * node.cpus

variable {rows : List JobRecord} {cluster : List SnapshotEntry} {makespan : Option ℚ}

/-- Every listed node has cores, and jobs per core. -/
theorem jobsPerCpu_of_mem (hcluster : ∀ e ∈ cluster, ∀ cpus, e.cpus = some cpus → 0 ≤ cpus)
    {node : NodeStats} (h : node ∈ nodeRows rows cluster makespan) :
    0 < node.cpus ∧ node.jobsPerCpu = some ((node.jobs : ℚ) / node.cpus) := by
  have hstats := mem_nodeRows h
  have hcpus := cpusByNode_pos hcluster node.nodeId
  rw [hstats]
  exact ⟨hcpus, if_neg hcpus.ne'⟩

/-- The list the summary computes the index of. -/
theorem jobsPerCpu_eq (hcluster : ∀ e ∈ cluster, ∀ cpus, e.cpus = some cpus → 0 ≤ cpus) :
    ((nodeRows rows cluster makespan).map fun node => node.jobsPerCpu).reduceOption =
      (nodeRows rows cluster makespan).map fun node => (node.jobs : ℚ) / node.cpus := by
  have hmap : (nodeRows rows cluster makespan).map (fun node => node.jobsPerCpu) =
      ((nodeRows rows cluster makespan).map fun node => (node.jobs : ℚ) / node.cpus).map some := by
    rw [List.map_map]
    exact List.map_congr_left fun node hnode => (jobsPerCpu_of_mem hcluster hnode).2
  rw [hmap, List.reduceOption, List.filterMap_map]
  exact List.filterMap_some

/-- A row with a node is a job of a listed node. -/
theorem exists_jobs_pos (h : ∃ row ∈ rows, row.nodeId ≠ none) :
    ∃ node ∈ nodeRows rows cluster makespan, 0 < node.jobs := by
  obtain ⟨row, hrow, hnode⟩ := h
  obtain ⟨n, hn⟩ := Option.ne_none_iff_exists'.mp hnode
  refine ⟨nodeStats n (rowsOf rows n) ((cpusByNode cluster).getD n 1) makespan, ?_, ?_⟩
  · rw [nodeRows_eq]
    exact List.mem_map_of_mem (nodeIds_mem_of_row rows cluster row hrow n hn)
  · exact List.length_pos_of_mem (List.mem_filter.mpr ⟨hrow, decide_eq_true hn⟩)

/-- Equal jobs per core are jobs in proportion to the cores. -/
theorem proportional_iff {nodes : List NodeStats} (h : ∀ node ∈ nodes, 0 < node.cpus) :
    Proportional nodes ↔
      ∀ node ∈ nodes, ∀ node' ∈ nodes,
        (node.jobs : ℚ) / node.cpus = (node'.jobs : ℚ) / node'.cpus := by
  have hcpus : ∀ node ∈ nodes, (node.cpus : ℚ) ≠ 0 :=
    fun node hnode => Int.cast_ne_zero.mpr (h node hnode).ne'
  constructor
  · rintro ⟨share, hshare⟩ node hnode node' hnode'
    rw [hshare node hnode, hshare node' hnode', mul_div_cancel_right₀ _ (hcpus node hnode),
      mul_div_cancel_right₀ _ (hcpus node' hnode')]
  · intro heq
    rcases nodes with - | ⟨first, rest⟩
    · exact ⟨0, fun node hnode => absurd hnode List.not_mem_nil⟩
    · refine ⟨(first.jobs : ℚ) / first.cpus, fun node hnode => ?_⟩
      rw [heq first List.mem_cons_self node hnode, div_mul_cancel₀ _ (hcpus node hnode)]

theorem fairnessJobsPerCpu_eq_one_iff
    (hcluster : ∀ e ∈ cluster, ∀ cpus, e.cpus = some cpus → 0 ≤ cpus)
    (h : ∃ row ∈ rows, row.nodeId ≠ none) :
    jainsFairness ((nodeRows rows cluster makespan).map fun node => node.jobsPerCpu).reduceOption
        = some 1 ↔ Proportional (nodeRows rows cluster makespan) := by
  have hcpus : ∀ node ∈ nodeRows rows cluster makespan, 0 < node.cpus :=
    fun node hnode => (jobsPerCpu_of_mem hcluster hnode).1
  rw [jobsPerCpu_eq hcluster, proportional_iff hcpus, jainsFairness_eq_one_iff]
  · simp only [List.forall_mem_map]
  · intro v hv
    obtain ⟨node, hnode, rfl⟩ := List.mem_map.mp hv
    exact div_nonneg (Nat.cast_nonneg _) (Int.cast_nonneg (hcpus node hnode).le)
  · obtain ⟨node, hnode, hjobs⟩ := exists_jobs_pos h
    refine ⟨_, List.mem_map_of_mem hnode, div_ne_zero ?_ ?_⟩
    · exact Nat.cast_ne_zero.mpr hjobs.ne'
    · exact Int.cast_ne_zero.mpr (hcpus node hnode).ne'

/-- **Jain's index lies between one in `n` and one**; it is one for equal values,
least where one value holds everything, and sees neither the order of the values
nor their unit.  Over the jobs per core of a run it is one exactly where the
nodes received jobs in proportion to their cores. -/
theorem jains_fairness_extremes :
    (∀ values : List ℚ, (∀ v ∈ values, 0 ≤ v) → (∃ v ∈ values, v ≠ 0) →
      ∃ index : ℚ, jainsFairness values = some index ∧
        (1 / (values.length : ℚ) ≤ index ∧ index ≤ 1) ∧
        (index = 1 ↔ ∀ v ∈ values, ∀ w ∈ values, v = w) ∧
        (index = 1 / values.length ↔ values.countP (· ≠ 0) = 1) ∧
        (∀ values', values.Perm values' → jainsFairness values' = some index) ∧
        ∀ c : ℚ, 0 < c → jainsFairness (values.map fun v => c * v) = some index) ∧
    ∀ (run : RunInfo) (jobs : List RunJob),
      (∀ e ∈ run.clusterSnapshot.getD [], ∀ cpus, e.cpus = some cpus → 0 ≤ cpus) →
      (∃ job ∈ jobs, job.dispatchedToNode ≠ none) →
        ((summarise run jobs).fairnessJobsPerCpu = some 1 ↔
          Proportional (summarise run jobs).nodesDetail) := by
  constructor
  · intro values hnonneg hne
    have hindex := jainsFairness_eq hnonneg hne
    refine ⟨Evenness.index values, hindex, ⟨?_, ?_⟩, ?_, ?_, ?_, ?_⟩
    · exact Evenness.inv_length_le_index hnonneg hne
    · exact Evenness.index_le_one hne
    · exact Evenness.index_eq_one_iff hne
    · exact Evenness.index_eq_inv_length_iff hnonneg hne
    · intro values' hperm
      rw [Evenness.index_perm hperm]
      obtain ⟨v, hv, hv0⟩ := hne
      exact jainsFairness_eq (fun w hw => hnonneg w (hperm.mem_iff.mpr hw))
        ⟨v, hperm.mem_iff.mp hv, hv0⟩
    · intro c hc
      rw [← Evenness.index_smul hc.ne' values]
      refine jainsFairness_eq ?_ ?_
      · intro v hv
        obtain ⟨w, hw, rfl⟩ := List.mem_map.mp hv
        exact mul_nonneg hc.le (hnonneg w hw)
      · obtain ⟨v, hv, hv0⟩ := hne
        exact ⟨c * v, List.mem_map_of_mem hv, mul_ne_zero hc.ne' hv0⟩
  · intro run jobs hcluster hjobs
    refine fairnessJobsPerCpu_eq_one_iff hcluster ?_
    obtain ⟨job, hjob, hnode⟩ := hjobs
    exact ⟨jobRecord job, List.mem_map_of_mem hjob, hnode⟩

/-- A job that was sent to a node and has not ended. -/
def sentTo (jobId : JobId) (nodeId : NodeId) : RunJob where
  jobId := jobId
  image := "busybox"
  command := none
  status := "running"
  runId := some "r1"
  submittedAt := some 0
  dispatchedAt := some 0
  dispatchedToNode := some nodeId
  workloadType := none
  cpuRequest := some 1
  memoryMb := none
  requiresGpu := none
  jobSize := none
  success := none
  runtimeSeconds := none
  exitCode := none
  completedAt := none

/-- A run on a node of two cores and one that reports none. -/
def onTwoNodes : RunInfo where
  runId := "r1"
  policy := "round_robin"
  startedAt := 0
  clusterSnapshot := some [⟨"n1", some 2⟩, ⟨"n2", none⟩]

/-- Everything on one of two values, and three jobs on three cores. -/
theorem jains_fairness_extremes_two :
    jainsFairness [0, 3] = some (1 / 2) ∧
      Proportional
        (summarise onTwoNodes [sentTo "a" "n1", sentTo "b" "n2", sentTo "c" "n1"]).nodesDetail := by
  constructor
  · obtain ⟨index, hindex, -, -, hleast, -⟩ := jains_fairness_extremes.1 [0, 3] (by decide +kernel)
      ⟨3, by simp, by norm_num⟩
    rw [hindex, hleast.mpr (by decide +kernel)]
    norm_num
  · refine (jains_fairness_extremes.2 onTwoNodes _ ?_ ⟨sentTo "a" "n1", by simp, nofun⟩).mp
      (by decide +kernel)
    intro e he cpus hcpus
    simp only [onTwoNodes, Option.getD_some, List.mem_cons, List.not_mem_nil, or_false] at he
    rcases he with rfl | rfl
    · obtain rfl := Option.some.inj hcpus
      decide
    · exact absurd hcpus nofun

end HeteroSched
