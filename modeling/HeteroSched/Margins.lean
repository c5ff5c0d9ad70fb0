/-
HeteroSched/Margins.lean

The tables of `experiments/metrics.py` and the rows they are made of.

Design.  Each table groups the same rows by a key of its own: the node, the
workload, or both.  A table is therefore one entry for every key, computed from
the rows of that key (`nodeRows_eq`, `byWorkload_eq`), and totals over the keys
are totals over the rows (`Grouping.sum_by_key`).
-/
import HeteroSched.Lib.Grouping
import HeteroSched.Statistics

namespace HeteroSched

open Grouping

/-! ### Sorted dictionaries -/

section Sorted

variable {α β : Type*} (d : Dict String α)

theorem mem_sortedItems (e : String × α) : e ∈ sortedItems d ↔ d.get? e.1 = some e.2 := by
  rw [sortedItems, List.mem_insertionSort, Dict.get?_eq_some_iff]

theorem nodup_sortedItems : ((sortedItems d).map Prod.fst).Nodup :=
  ((List.perm_insertionSort _ d.entries).map Prod.fst).nodup_iff.mpr d.nodup_keys

theorem mem_keys_sortedItems (k : String) : k ∈ (sortedItems d).map Prod.fst ↔ k ∈ d :=
  ((List.perm_insertionSort _ d.entries).map Prod.fst).mem_iff

/-- A key has one entry, if any. -/
theorem filter_sortedItems (k : String) :
    (sortedItems d).filter (fun e => e.1 = k) = (d.get? k).toList.map fun a => (k, a) := by
  have hnodup : ((sortedItems d).filter fun e => e.1 = k).Nodup :=
    (nodup_sortedItems d).of_map.filter _
  rcases h : d.get? k with - | a
  · refine List.filter_eq_nil_iff.mpr fun e he heq => ?_
    rw [mem_sortedItems, of_decide_eq_true heq, h] at he
    exact absurd he nofun
  · refine List.perm_singleton.mp ?_
    rw [List.perm_ext_iff_of_nodup hnodup (List.nodup_singleton _)]
    rintro ⟨k', a'⟩
    rw [List.mem_filter, mem_sortedItems, decide_eq_true_eq, List.mem_singleton, Prod.mk.injEq]
    constructor
    · rintro ⟨hget, rfl⟩
      exact ⟨rfl, Option.some.inj (hget.symm.trans h)⟩
    · rintro ⟨rfl, rfl⟩
      exact ⟨h, rfl⟩

/-- What is computed from the entries is computed from the keys, where the keys
determine the entries. -/
theorem map_sortedItems {d : Dict String α} {g : String → α}
    (h : ∀ k a, d.get? k = some a → a = g k) (f : String × α → β) :
    (sortedItems d).map f = ((sortedItems d).map Prod.fst).map fun k => f (k, g k) := by
  rw [List.map_map]
  refine List.map_congr_left fun e he => ?_
  show f e = f (e.1, g e.1)
  rw [← h e.1 e.2 ((mem_sortedItems d e).mp he)]

end Sorted

/-! ### Rows by node -/

variable (rows : List JobRecord) (cluster : List SnapshotEntry)

/-- The rows of one node. -/
def rowsOf (n : NodeId) : List JobRecord := rows.filter fun row => row.nodeId = some n

/-- The total runtime of the rows that have one. -/
def busyTime (rows : List JobRecord) : ℚ := (rows.map fun r => r.runtimeS).reduceOption.sum

theorem busyTime_cons (row : JobRecord) (rows : List JobRecord) :
    busyTime (row :: rows) = row.runtimeS.getD 0 + busyTime rows := by
  rw [busyTime, busyTime, List.map_cons]
  rcases row.runtimeS with - | runtime
  · rw [List.reduceOption_cons_of_none, Option.getD_none, zero_add]
  · rw [List.reduceOption_cons_of_some, Option.getD_some, List.sum_cons]

theorem rowsByNode_eq :
    rowsByNode rows cluster =
      aggregate JobRecord.nodeId (fun group row => group ++ [row]) []
        (aggregate (fun n : SnapshotEntry => some n.nodeId) (fun _ _ => []) [] ∅ cluster) rows := by
  rw [rowsByNode, aggregate, aggregate]
  congr 1
  funext d row
  rcases row.nodeId with - | n
  · rfl
  · rfl

theorem mem_rowsByNode (n : NodeId) :
    n ∈ rowsByNode rows cluster ↔
      n ∈ cluster.map SnapshotEntry.nodeId ∨ ∃ row ∈ rows, row.nodeId = some n := by
  rw [rowsByNode_eq, mem_aggregate, mem_aggregate, or_iff_right (Dict.not_mem_empty n)]
  simp only [List.mem_map, Option.some_inj]

theorem get?_rowsByNode {n : NodeId} {group : List JobRecord}
    (h : (rowsByNode rows cluster).get? n = some group) : group = rowsOf rows n := by
  rw [rowsByNode_eq] at h
  have hempty : ∀ l : List SnapshotEntry, l.foldl (fun (_ : List JobRecord) _ => []) [] = [] := by
    intro l
    induction l with
    | nil => rfl
    | cons n l ih => exact ih
  rw [get?_aggregate h, getD_aggregate, Dict.getD_empty, hempty, foldl_snoc, List.map_id',
    List.nil_append, rowsOf]

/-- The ids the table of the nodes lists, in its order. -/
def nodeIds : List NodeId := (sortedItems (rowsByNode rows cluster)).map Prod.fst

theorem nodup_nodeIds : (nodeIds rows cluster).Nodup := nodup_sortedItems _

theorem mem_nodeIds (n : NodeId) :
    n ∈ nodeIds rows cluster ↔
      n ∈ cluster.map SnapshotEntry.nodeId ∨ ∃ row ∈ rows, row.nodeId = some n := by
  rw [nodeIds, mem_keys_sortedItems, mem_rowsByNode]

theorem nodeRows_eq (makespan : Option ℚ) :
    nodeRows rows cluster makespan = (nodeIds rows cluster).map fun n =>
      nodeStats n (rowsOf rows n) ((cpusByNode cluster).getD n 1) makespan := by
  rw [nodeRows, map_sortedItems fun k a h => get?_rowsByNode rows cluster h, nodeIds]

/-- The entry of a node is computed from the rows of that node. -/
theorem mem_nodeRows {rows : List JobRecord} {cluster : List SnapshotEntry} {makespan : Option ℚ}
    {node : NodeStats} (h : node ∈ nodeRows rows cluster makespan) :
    node = nodeStats node.nodeId (rowsOf rows node.nodeId)
      ((cpusByNode cluster).getD node.nodeId 1) makespan := by
  rw [nodeRows_eq] at h
  obtain ⟨n, -, rfl⟩ := List.mem_map.mp h
  rfl

/-- Missing cores and no cores count as one core. -/
theorem SnapshotEntry.cpusOr_pos {e : SnapshotEntry}
    (h : ∀ cpus, e.cpus = some cpus → 0 ≤ cpus) : 0 < e.cpusOr 1 := by
  rw [cpusOr]
  rcases hcpus : e.cpus with - | cpus
  · exact one_pos
  · have hnonneg := h cpus hcpus
    by_cases hzero : cpus = 0
    · rw [hzero]
      exact one_pos
    · show 0 < if cpus = 0 then 1 else cpus
      rw [if_neg hzero]
      omega

/-- So the table of the nodes reports at least one core for each. -/
theorem cpusByNode_pos {cluster : List SnapshotEntry}
    (h : ∀ e ∈ cluster, ∀ cpus, e.cpus = some cpus → 0 ≤ cpus) (n : NodeId) :
    0 < (cpusByNode cluster).getD n 1 := by
  have hfold : ∀ (l : List SnapshotEntry) (c : ℤ), 0 < c → (∀ e ∈ l, 0 < e.cpusOr 1) →
      0 < l.foldl (fun _ e => e.cpusOr 1) c := by
    intro l
    induction l with
    | nil => exact fun c hc _ => hc
    | cons e l ih =>
        intro c _ hl
        exact ih _ (hl e List.mem_cons_self) fun e' he' => hl e' (List.mem_cons_of_mem _ he')
  have heq : cpusByNode cluster = aggregate (fun e : SnapshotEntry => some e.nodeId)
      (fun _ e => e.cpusOr 1) 1 ∅ cluster := rfl
  rw [heq, getD_aggregate]
  exact hfold _ _ one_pos fun e he => SnapshotEntry.cpusOr_pos (h e (List.mem_of_mem_filter he))

theorem nodeIds_mem_of_row : ∀ row ∈ rows, ∀ n, row.nodeId = some n → n ∈ nodeIds rows cluster :=
  fun row hrow n hn => (mem_nodeIds rows cluster n).mpr (Or.inr ⟨row, hrow, hn⟩)

/-! ### Rows by workload -/

/-- The rows of one workload. -/
def rowsFor (w : String) : List JobRecord := rows.filter fun row => row.workload = w

/-- The rows by workload, before the totals. -/
def rowsByWorkload : Dict String (List JobRecord) :=
  rows.foldl (fun d row => appendTo d row.workload row) ∅

theorem rowsByWorkload_eq :
    rowsByWorkload rows =
      aggregate (fun row => some row.workload) (fun group row => group ++ [row]) [] ∅ rows := rfl

theorem mem_rowsByWorkload (w : String) :
    w ∈ rowsByWorkload rows ↔ ∃ row ∈ rows, row.workload = w := by
  rw [rowsByWorkload_eq, mem_aggregate, or_iff_right (Dict.not_mem_empty w)]
  simp only [Option.some_inj]

theorem get?_rowsByWorkload {w : String} {group : List JobRecord}
    (h : (rowsByWorkload rows).get? w = some group) : group = rowsFor rows w := by
  rw [rowsByWorkload_eq] at h
  rw [get?_aggregate h, Dict.getD_empty, foldl_snoc, List.map_id', List.nil_append, rowsFor]
  simp only [Option.some_inj]

/-- The workloads the table lists, in its order. -/
def listedWorkloads : List String := (sortedItems (rowsByWorkload rows)).map Prod.fst

theorem nodup_listedWorkloads : (listedWorkloads rows).Nodup := nodup_sortedItems _

theorem mem_listedWorkloads :
    ∀ row ∈ rows, ∀ w, some row.workload = some w → w ∈ listedWorkloads rows := by
  intro row hrow w hw
  rw [listedWorkloads, mem_keys_sortedItems, mem_rowsByWorkload]
  exact ⟨row, hrow, Option.some.inj hw⟩

/-- The entry of the table by workload of the rows of one workload. -/
def workloadStats (group : List JobRecord) : WorkloadStats where
  jobs := group.length
  completed := group.countP fun r => r.success = some true
  failed := group.countP fun r => r.success = some false
  runtimeS := distribution (group.map fun r => r.runtimeS)
  queueWaitS := distribution (group.map fun r => r.queueWaitS)
  turnaroundS := distribution (group.map fun r => r.turnaroundS)
  placement := placement group

theorem byWorkload_eq :
    byWorkload rows = (listedWorkloads rows).map fun w => (w, workloadStats (rowsFor rows w)) :=
  map_sortedItems (d := rowsByWorkload rows) (fun _ _ h => get?_rowsByWorkload rows h)
    fun e => (e.1, workloadStats e.2)

theorem placement_eq (group : List JobRecord) :
    placement group =
      aggregate (fun row => row.nodeId.filter (· ≠ "")) (fun count _ => count + 1) 0 ∅ group := by
  rw [placement, aggregate]
  congr 1
  funext d row
  rcases row.nodeId with - | n
  · rfl
  · by_cases hn : n = ""
    · subst hn
      rfl
    · rw [Option.filter_some_pos (by simpa using hn)]
      exact if_neg hn

/-- The placement counts the rows of each node with an id. -/
theorem getD_placement (group : List JobRecord) {n : NodeId} (hn : n ≠ "") :
    (placement group).getD n 0 = group.countP fun row => row.nodeId = some n := by
  have hcount : ∀ (l : List JobRecord) (c : ℕ), l.foldl (fun count _ => count + 1) c
      = c + l.length := by
    intro l
    induction l with
    | nil => exact fun _ => rfl
    | cons a l ih =>
        intro c
        rw [List.foldl_cons, ih, List.length_cons]
        omega
  rw [placement_eq, getD_aggregate, Dict.getD_empty, hcount, zero_add, ← List.countP_eq_length_filter]
  refine List.countP_congr fun row _ => ?_
  rw [decide_eq_true_eq, decide_eq_true_eq, Option.filter_eq_some_iff]
  exact and_iff_left_of_imp fun _ => by simpa using hn

/-! ### Runtimes by workload and node -/

/-- The workload, the node and the runtime of the rows that have the last two. -/
def samples : List (String × NodeId × ℚ) :=
  rows.filterMap fun row =>
    match row.nodeId, row.runtimeS with
    | some nodeId, some runtime => some (row.workload, nodeId, runtime)
    | _, _ => none

/-- The samples of one workload by node. -/
def runtimesByNode (samples : List (String × NodeId × ℚ)) : Dict NodeId (List ℚ) :=
  samples.foldl (fun d s => appendTo d s.2.1 s.2.2) ∅

theorem runtimesByNode_eq (samples : List (String × NodeId × ℚ)) :
    runtimesByNode samples =
      aggregate (fun s => some s.2.1) (fun group s => group ++ [s.2.2]) [] ∅ samples := rfl

theorem getD_runtimesByNode (samples : List (String × NodeId × ℚ)) (n : NodeId) :
    (runtimesByNode samples).getD n [] =
      (samples.filter fun s => s.2.1 = n).map fun s => s.2.2 := by
  rw [runtimesByNode_eq, getD_aggregate, Dict.getD_empty, foldl_snoc, List.nil_append]
  simp only [Option.some_inj]

/-- The runtimes by workload and node, before the means. -/
def runtimesByWorkload : Dict String (Dict NodeId (List ℚ)) :=
  rows.foldl (fun d row =>
    match row.nodeId, row.runtimeS with
    | some nodeId, some runtime =>
        d.set row.workload (appendTo (d.getD row.workload ∅) nodeId runtime)
    | _, _ => d) ∅

theorem runtimesByWorkload_eq :
    runtimesByWorkload rows =
      aggregate (fun s => some s.1) (fun d s => appendTo d s.2.1 s.2.2) ∅ ∅ (samples rows) := by
  rw [runtimesByWorkload, aggregate, samples, List.foldl_filterMap]
  congr 1
  funext d row
  rcases row.nodeId with - | n
  · rfl
  · rcases row.runtimeS with - | runtime
    · rfl
    · rfl

theorem get?_runtimesByWorkload {w : String} {d : Dict NodeId (List ℚ)}
    (h : (runtimesByWorkload rows).get? w = some d) :
    d = runtimesByNode ((samples rows).filter fun s => s.1 = w) := by
  rw [runtimesByWorkload_eq] at h
  rw [get?_aggregate h, Dict.getD_empty, runtimesByNode]
  simp only [Option.some_inj]

/-- The workloads of the table of runtimes, in its order. -/
def sampledWorkloads : List String := (sortedItems (runtimesByWorkload rows)).map Prod.fst

theorem mem_sampledWorkloads :
    ∀ s ∈ samples rows, ∀ w, some s.1 = some w → w ∈ sampledWorkloads rows := by
  intro s hs w hw
  rw [sampledWorkloads, mem_keys_sortedItems, runtimesByWorkload_eq, mem_aggregate]
  exact Or.inr ⟨s, hs, hw⟩

/-- Means of the runtimes of one workload by node. -/
def nodeRuntimes (d : Dict NodeId (List ℚ)) : List (NodeId × NodeRuntime) :=
  (sortedItems d).map fun node => (node.1, ⟨node.2.length, fmean node.2⟩)

theorem runtimeByNodeAndWorkload_eq :
    runtimeByNodeAndWorkload rows = (sampledWorkloads rows).map fun w =>
      (w, nodeRuntimes (runtimesByNode ((samples rows).filter fun s => s.1 = w))) :=
  map_sortedItems (d := runtimesByWorkload rows) (fun _ _ h => get?_runtimesByWorkload rows h)
    fun e => (e.1, nodeRuntimes e.2)

/-- The entries of a node in the table of runtimes. -/
def runtimeEntries (table : List (String × List (NodeId × NodeRuntime))) (n : NodeId) :
    List NodeRuntime :=
  table.flatMap fun e => (e.2.filter fun node => node.1 = n).map Prod.snd

/-- The entries of a node are the means of its samples of each workload. -/
theorem sum_runtimeEntries {M : Type*} [AddCommMonoid M] (f : NodeRuntime → M) (g : List ℚ → M)
    (hfg : ∀ l : List ℚ, f ⟨l.length, fmean l⟩ = g l) (hnil : g [] = 0) (n : NodeId) :
    ((runtimeEntries (runtimeByNodeAndWorkload rows) n).map f).sum =
      ((sampledWorkloads rows).map fun w =>
        g ((((samples rows).filter fun s => s.1 = w).filter fun s => s.2.1 = n).map
          fun s => s.2.2)).sum := by
  have hentry : ∀ d : Dict NodeId (List ℚ),
      ((((nodeRuntimes d).filter fun node => node.1 = n).map Prod.snd).map f).sum
        = g (d.getD n []) := by
    intro d
    have hone := filter_sortedItems d n
    rw [nodeRuntimes, List.filter_map, List.map_map, List.map_map]
    show (((sortedItems d).filter fun e => e.1 = n).map _).sum = _
    rw [hone, Dict.getD]
    rcases d.get? n with - | runtimes
    · exact hnil.symm
    · exact (List.sum_singleton).trans (hfg runtimes)
  rw [runtimeEntries, runtimeByNodeAndWorkload_eq, List.flatMap_def, List.map_flatten,
    List.sum_flatten, List.map_map, List.map_map, List.map_map]
  congr 1
  refine List.map_congr_left fun w _ => ?_
  rw [← getD_runtimesByNode]
  exact hentry _

/-- The samples of a node are the runtimes of its rows. -/
theorem runtimes_samples (n : NodeId) :
    ((samples rows).filter fun s => s.2.1 = n).map (fun s => s.2.2) =
      ((rowsOf rows n).map fun r => r.runtimeS).reduceOption := by
  induction rows with
  | nil => rfl
  | cons row rows ih =>
      rw [samples, rowsOf, List.filterMap_cons, List.filter_cons]
      rcases hnode : row.nodeId with - | m
      · exact ih
      · by_cases hm : m = n
        · rcases hrun : row.runtimeS with - | runtime
          · simp only [hm, decide_true, if_true, List.map_cons, hrun, List.reduceOption_cons_of_none]
            exact ih
          · simp only [hm, decide_true, if_true, List.map_cons, hrun, List.reduceOption_cons_of_some,
              List.filter_cons]
            exact congrArg _ ih
        · have hm' : ¬ some m = some n := fun h => hm (Option.some.inj h)
          rcases hrun : row.runtimeS with - | runtime
          · simp only [hm', decide_false, Bool.false_eq_true, if_false]
            exact ih
          · simp only [hm, hm', decide_false, Bool.false_eq_true, if_false, List.filter_cons]
            exact ih

/-! ### Totals over the tables -/

/-- The rows of all listed nodes are the rows that have a node. -/
theorem sum_jobs_nodeRows (makespan : Option ℚ) :
    ((nodeRows rows cluster makespan).map NodeStats.jobs).sum =
      rows.countP fun row => row.nodeId.isSome := by
  have hsum := countP_by_key (nodup_nodeIds rows cluster) (fun _ => true)
    (nodeIds_mem_of_row rows cluster)
  simp only [List.countP_true] at hsum
  rw [nodeRows_eq, List.map_map, List.countP_eq_length_filter, ← hsum]
  rfl

/-- What counts the rows of each workload counts the rows. -/
theorem countP_by_workload (p : JobRecord → Bool) :
    ((listedWorkloads rows).map fun w => (rowsFor rows w).countP p).sum = rows.countP p := by
  have hsum := countP_by_key (nodup_listedWorkloads rows) p (mem_listedWorkloads rows)
  simp only [Option.some_inj, Option.isSome_some, List.filter_true] at hsum
  exact hsum

theorem rowsOf_eq_nil {n : NodeId} (h : n ∉ nodeIds rows cluster) : rowsOf rows n = [] := by
  refine List.filter_eq_nil_iff.mpr fun row hrow hn => h ?_
  exact nodeIds_mem_of_row rows cluster row hrow n (of_decide_eq_true hn)

/-- A total over the entries of a node is that of its rows. -/
theorem sum_filter_nodeRows {M : Type*} [AddCommMonoid M] (f : NodeStats → M)
    (g : List JobRecord → M) (makespan : Option ℚ)
    (hfg : ∀ n l cpus, f (nodeStats n l cpus makespan) = g l) (hnil : g [] = 0) (n : NodeId) :
    (((nodeRows rows cluster makespan).filter fun s => s.nodeId = n).map f).sum =
      g (rowsOf rows n) := by
  rw [nodeRows_eq, List.filter_map]
  show ((((nodeIds rows cluster).filter fun m => m = n).map _).map f).sum = _
  rw [List.filter_eq, (nodup_nodeIds rows cluster).count]
  split
  · exact (List.sum_singleton).trans (hfg _ _ _)
  · next h => rw [rowsOf_eq_nil rows cluster h, hnil, List.replicate_zero, List.map_nil, List.map_nil,
      List.sum_nil]

theorem sum_placement {n : NodeId} (hn : n ≠ "") :
    ((byWorkload rows).map fun e => e.2.placement.getD n 0).sum = (rowsOf rows n).length := by
  rw [byWorkload_eq, List.map_map, rowsOf, ← List.countP_eq_length_filter, ← countP_by_workload]
  congr 1
  exact List.map_congr_left fun w _ => getD_placement (rowsFor rows w) hn

/-- The entries of a node in the table of runtimes count its rows with a runtime. -/
theorem sum_runtimeEntries_jobs (n : NodeId) :
    ((runtimeEntries (runtimeByNodeAndWorkload rows) n).map NodeRuntime.jobs).sum =
      (rowsOf rows n).countP fun row => row.runtimeS.isSome := by
  have hsum := countP_by_key (nodup_sortedItems (runtimesByWorkload rows))
    (fun s : String × NodeId × ℚ => decide (s.2.1 = n)) (mem_sampledWorkloads rows)
  simp only [Option.some_inj, Option.isSome_some, List.filter_true] at hsum
  rw [sum_runtimeEntries rows NodeRuntime.jobs List.length (fun _ => rfl) rfl]
  simp only [List.length_map, ← List.countP_eq_length_filter]
  rw [sampledWorkloads, hsum, List.countP_eq_length_filter, ← List.length_map (fun s => s.2.2),
    runtimes_samples, List.reduceOption_length_eq, List.filter_map, List.length_map,
    List.countP_eq_length_filter]
  rfl

/-- Their means add up to its busy time. -/
theorem sum_runtimeEntries_busy (n : NodeId) :
    ((runtimeEntries (runtimeByNodeAndWorkload rows) n).map
        fun e => (e.jobs : ℚ) * e.meanRuntimeS).sum =
      busyTime (rowsOf rows n) := by
  have hmean : ∀ l : List ℚ, (l.length : ℚ) * fmean l = l.sum := by
    intro l
    by_cases hl : l = []
    · rw [hl]
      simp only [List.length_nil, Nat.cast_zero, zero_mul, List.sum_nil]
    · rw [mul_comm, fmean_mul_length hl]
  have hmem : ∀ s ∈ (samples rows).filter (fun s => s.2.1 = n), ∀ w, some s.1 = some w →
      w ∈ sampledWorkloads rows :=
    fun s hs => mem_sampledWorkloads rows s (List.mem_of_mem_filter hs)
  have hsum := sum_by_key (nodup_sortedItems _) (fun s => s.2.2) hmem
  simp only [Option.some_inj, Option.isSome_some, List.filter_true] at hsum
  rw [sum_runtimeEntries rows _ List.sum hmean rfl, busyTime, ← runtimes_samples, ← hsum]
  congr 1
  refine List.map_congr_left fun w _ => ?_
  rw [List.filter_comm]

/-- **The tables agree on their margins**, each a total of the same rows. -/
theorem tables_margins (jobs : List RunJob) (cluster : List SnapshotEntry)
    (makespan : Option ℚ) :
    let rows := jobRows jobs
    let nodes := nodeRows rows cluster makespan
    let entriesOf := fun n => nodes.filter fun s => s.nodeId = n
    let runtimesOf := fun n => runtimeEntries (runtimeByNodeAndWorkload rows) n
    ((nodes.map NodeStats.nodeId).Nodup ∧
      (∀ n, n ∈ nodes.map NodeStats.nodeId ↔
        n ∈ cluster.map SnapshotEntry.nodeId ∨ ∃ row ∈ rows, row.nodeId = some n) ∧
      (nodes.map NodeStats.jobs).sum = rows.countP fun row => row.nodeId.isSome) ∧
    (((byWorkload rows).map fun e => e.2.jobs).sum = rows.length ∧
      ((byWorkload rows).map fun e => e.2.completed).sum =
        rows.countP (fun row => row.success = some true) ∧
      ((byWorkload rows).map fun e => e.2.failed).sum =
        rows.countP fun row => row.success = some false) ∧
    (∀ n, n ≠ "" →
      ((byWorkload rows).map fun e => e.2.placement.getD n 0).sum =
        ((entriesOf n).map NodeStats.jobs).sum) ∧
    ∀ n,
      ((runtimesOf n).map NodeRuntime.jobs).sum =
          rows.countP (fun row => row.nodeId = some n ∧ row.runtimeS.isSome) ∧
        ((runtimesOf n).map fun e => (e.jobs : ℚ) * e.meanRuntimeS).sum =
          ((entriesOf n).map NodeStats.busyTimeS).sum := by
  intro rows nodes entriesOf runtimesOf
  have hids : nodes.map NodeStats.nodeId = nodeIds rows cluster := by
    rw [show nodes = _ from nodeRows_eq rows cluster makespan, List.map_map]
    exact List.map_id' _
  refine ⟨⟨?_, ?_, sum_jobs_nodeRows rows cluster makespan⟩, ⟨?_, ?_, ?_⟩, ?_, ?_⟩
  · rw [hids]
    exact nodup_nodeIds rows cluster
  · rw [hids]
    exact mem_nodeIds rows cluster
  · have hsum := countP_by_workload rows fun _ => true
    simp only [List.countP_true] at hsum
    rw [← hsum, byWorkload_eq, List.map_map]
    rfl
  · rw [← countP_by_workload, byWorkload_eq, List.map_map]
    rfl
  · rw [← countP_by_workload, byWorkload_eq, List.map_map]
    rfl
  · intro n hn
    rw [sum_placement rows hn]
    exact (sum_filter_nodeRows rows cluster NodeStats.jobs List.length makespan
      (fun _ _ _ => rfl) rfl n).symm
  · intro n
    constructor
    · rw [sum_runtimeEntries_jobs, rowsOf, List.countP_filter]
      refine List.countP_congr fun row _ => ?_
      rw [Bool.and_eq_true, decide_eq_true_eq, decide_eq_true_eq, and_comm]
    · rw [sum_runtimeEntries_busy]
      exact (sum_filter_nodeRows rows cluster NodeStats.busyTimeS
        busyTime makespan (fun _ _ _ => rfl) rfl n).symm

end HeteroSched
