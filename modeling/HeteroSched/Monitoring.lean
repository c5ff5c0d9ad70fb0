/-
HeteroSched/Monitoring.lean

What `GET /metrics` and `GET /cluster` of `scheduler/main.py` report of the cluster.

Design.  `metrics` reads the state of the scheduler a dozen times, and other threads
run between the reads: the nodes, the available ones, the counter of each node (twice),
the queue and the sum of the counters are of different moments (`MetricsReads`).  When
the capabilities of a node never change, whatever it registers again with, a node that
is listed at one moment has at any other no more slots in use than its cores, so the
capacity reported is that of a cluster that is not oversubscribed.

At one moment the figures fit together: the slots in use are the sum of the counters,
because the registered nodes are the ones with a counter, and a busy node is one
without a free core.
-/
import HeteroSched.Counters
import HeteroSched.HeadOfLine
import HeteroSched.Queries
import HeteroSched.Statistics

namespace HeteroSched

open Transition

/-! ### The reports -/

/-- A node in the report of `metrics`. -/
structure NodeMetrics where
  nodeId : NodeId
  hostname : String
  cpus : ℤ
  memoryMb : ℤ
  currentLoad : ℚ
  runningJobs : ℤ
  deriving DecidableEq, Repr

/-- The answer of `GET /metrics`. -/
structure Metrics where
  nodesTotal : ℕ
  nodesAvailable : ℕ
  nodesBusy : ℤ
  totalCpus : ℤ
  usedCpus : ℤ
  availableCpus : ℤ
  utilizationPct : ℚ
  queued : ℕ
  running : ℤ
  jobs : Database.JobStatistics
  nodes : List NodeMetrics
  deriving DecidableEq, Repr

/-- What `metrics` reads, each at a moment of its own: the nodes; the available ones;
the job statistics; the counter of each node for the capacity; the queue; the sum of
the counters; the counter of each node for the list. -/
structure MetricsReads where
  nodes : ClusterState
  available : ClusterState
  stats : Database
  used : NodeId → ClusterState
  queue : ClusterState
  running : ClusterState
  detail : NodeId → ClusterState

/-- A nominal job with one slot and no special requirements. -/
def metricsProbe : JobRequest := { ClusterState.jobOf "__metrics_probe__" with image := "" }

/-- The call `round(q, 1)`. -/
def roundTenth (q : ℚ) : ℚ := roundHalfEven (q * 10) / 10

/-- The report made of what was read. -/
def metrics (r : MetricsReads) : Metrics :=
  let nodes := r.nodes.getNodes
  let availableNodes := r.available.getAvailableNodes metricsProbe
  let totalCapacity := (nodes.map fun n => n.profile.capabilities.cpus).sum
  let usedCapacity := (nodes.map fun n => (r.used n.nodeId).runningJobs.getD n.nodeId 0).sum
  { nodesTotal := nodes.length
    nodesAvailable := availableNodes.length
    nodesBusy := nodes.length - availableNodes.length
    totalCpus := totalCapacity
    usedCpus := usedCapacity
    availableCpus := totalCapacity - usedCapacity
    utilizationPct :=
      roundTenth (if totalCapacity > 0 then usedCapacity / totalCapacity * 100 else 0)
    queued := r.queue.queueSize
    running := r.running.runningTotal
    jobs := r.stats.getJobStatistics
    nodes := nodes.map fun n =>
      { nodeId := n.nodeId
        hostname := n.hostname
        cpus := n.profile.capabilities.cpus
        memoryMb := n.profile.capabilities.memoryMb
        currentLoad := n.currentLoad
        runningJobs := (r.detail n.nodeId).runningJobs.getD n.nodeId 0 } }

/-- A node in the report of `cluster_status`. -/
structure NodeStatus where
  nodeId : NodeId
  load : ℚ
  runningJobs : ℤ
  cpus : ℤ
  memoryMb : ℤ
  deriving DecidableEq, Repr

/-- The answer of `GET /cluster/status`. -/
structure ClusterStatus where
  nodes : ℕ
  queuedJobs : ℕ
  nodeStatus : List NodeStatus
  deriving DecidableEq, Repr

/-- The nodes are read at one moment, with their counters, and the queue at a later
one. -/
def clusterStatus (c c' : ClusterState) : ClusterStatus :=
  let nodes := c.getNodes
  { nodes := nodes.length
    queuedJobs := c'.queueSize
    nodeStatus := nodes.map fun n =>
      { nodeId := n.nodeId
        load := n.currentLoad
        runningJobs := n.runningJobs
        cpus := n.profile.capabilities.cpus
        memoryMb := n.profile.capabilities.memoryMb } }

namespace ClusterState

variable {c : ClusterState}

/-! ### Nodes and counters -/

/-- A node that is listed shows its registration and its counter. -/
theorem getNodes_shows {v : NodeView} (h : v ∈ c.getNodes) :
    ∃ reg, c.registrations.get? v.nodeId = some reg ∧ v.profile = reg.profile ∧
      v.runningJobs = c.runningJobs.getD v.nodeId 0 := by
  have hv := mem_getNodes.mp h
  unfold getNodeView at hv
  rcases hreg : c.registrations.get? v.nodeId with - | reg
  · rw [hreg] at hv
    cases hv
  · rw [hreg] at hv
    obtain hv := Option.some.inj hv
    refine ⟨reg, rfl, ?_, ?_⟩
    · rw [← hv]
    · conv_lhs => rw [← hv]
      rfl

/-- The registered nodes are the nodes with a counter, so that the sum of the counters
is the sum over the nodes. -/
theorem Keyed.runningTotal_eq (h : Keyed c) :
    c.runningTotal = (c.getNodes.map fun n => c.runningJobs.getD n.nodeId 0).sum := by
  have hvalues : c.runningJobs.values = c.runningJobs.keys.map fun n => c.runningJobs.getD n 0 := by
    rw [Dict.values, Dict.keys, List.map_map]
    refine List.map_congr_left fun e he => ?_
    exact (Dict.getD_of_get? (Dict.get?_eq_some_iff.mpr he) 0).symm
  have hkeys : c.runningJobs.keys.Perm c.registrations.keys :=
    (List.perm_ext_iff_of_nodup c.runningJobs.nodup_keys c.registrations.nodup_keys).mpr
      h.mem_runningJobs
  rw [runningTotal, hvalues, (hkeys.map _).sum_eq, ← getNodes_ids, List.map_map]
  rfl

/-- A node is available to the probe when it has a free core. -/
theorem Keyed.canTake_probe (h : Keyed c) {n : NodeId} {reg : NodeRegistration}
    (hreg : c.registrations.get? n = some reg) :
    c.canTake n metricsProbe = true ↔ c.runningJobs.getD n 0 < reg.profile.capabilities.cpus := by
  have hid := h.nodeId_eq hreg
  rw [canTake_iff]
  constructor
  · rintro ⟨reg', hreg', hfits⟩
    obtain rfl := Option.some.inj (hreg.symm.trans hreg')
    obtain ⟨-, hcpu, -⟩ := (c.fits_iff reg metricsProbe).mp hfits
    rw [hid] at hcpu
    exact Int.lt_iff_add_one_le.mpr hcpu
  · intro hlt
    refine ⟨reg, hreg, (c.fits_iff reg metricsProbe).mpr ⟨nofun, ?_, nofun⟩⟩
    rw [hid]
    exact Int.lt_iff_add_one_le.mp hlt

end ClusterState

/-- A percentage rounds to a percentage. -/
theorem roundTenth_mem {q : ℚ} (hnonneg : 0 ≤ q) (hle : q ≤ 100) :
    0 ≤ roundTenth q ∧ roundTenth q ≤ 100 := by
  have hlow : 0 ≤ roundHalfEven (q * 10) := by
    refine le_roundHalfEven ?_
    push_cast
    linarith
  have hhigh : roundHalfEven (q * 10) ≤ 1000 := by
    have hceil : ⌈q * 10⌉ ≤ 1000 := by
      rw [Int.ceil_le]
      push_cast
      linarith
    rw [roundHalfEven_eq]
    split <;> omega
  have hlow' : (0 : ℚ) ≤ roundHalfEven (q * 10) := by exact_mod_cast hlow
  have hhigh' : (roundHalfEven (q * 10) : ℚ) ≤ 1000 := by exact_mod_cast hhigh
  unfold roundTenth
  constructor <;> linarith

/-- What is between none and all of a positive capacity is a percentage of it. -/
theorem utilization_mem {used total : ℤ} (hused : 0 ≤ used) (hle : used ≤ total) :
    0 ≤ roundTenth (if total > 0 then (used : ℚ) / total * 100 else 0) ∧
      roundTenth (if total > 0 then (used : ℚ) / total * 100 else 0) ≤ 100 := by
  by_cases hpos : total > 0
  · have htotal : (0 : ℚ) < total := by exact_mod_cast hpos
    have hused' : (0 : ℚ) ≤ used := by exact_mod_cast hused
    have hle' : (used : ℚ) ≤ total := by exact_mod_cast hle
    have hdiv : (used : ℚ) / total ≤ 1 := (div_le_one htotal).mpr hle'
    have hnonneg : 0 ≤ (used : ℚ) / total := div_nonneg hused' htotal.le
    rw [if_pos hpos]
    exact roundTenth_mem (by linarith) (by linarith)
  · rw [if_neg hpos]
    exact roundTenth_mem le_rfl (by norm_num)

namespace Scheduler

open ClusterState (Bounded CapabilitiesKept bounded_init)

variable {P : PolicyRegistry} {cfg : Config} {s t u : Scheduler P} {e : Event}
  {tr : List (Scheduler P × Event)} {caps : NodeId → NodeCapabilities}

/-! ### Moments of a run -/

/-- The run is in the state at some moment. -/
def Visited (tr : List (Scheduler P × Event)) (t u : Scheduler P) : Prop :=
  (∃ p ∈ tr, p.1 = u) ∨ u = t

/-- A run is in its first state at some moment. -/
theorem visited_first {step : Scheduler P → Event → Scheduler P → Prop} (h : Run step s tr t) :
    Visited tr t s := by
  induction h with
  | refl => exact Or.inr rfl
  | @tail tr t e u _ _ ih =>
      rcases ih with ⟨p, hp, heq⟩ | rfl
      · exact Or.inl ⟨p, List.mem_append_left _ hp, heq⟩
      · exact Or.inl ⟨(s, e), List.mem_append_right _ (List.mem_singleton.mpr rfl), rfl⟩

/-- Everything that is read is of some moment of the run. -/
structure ReadIn (tr : List (Scheduler P × Event)) (t : Scheduler P) (r : MetricsReads) : Prop where
  nodes : ∃ u, Visited tr t u ∧ u.cluster = r.nodes
  available : ∃ u, Visited tr t u ∧ u.cluster = r.available
  stats : ∃ u, Visited tr t u ∧ u.db = r.stats
  used : ∀ n, ∃ u, Visited tr t u ∧ u.cluster = r.used n
  queue : ∃ u, Visited tr t u ∧ u.cluster = r.queue
  running : ∃ u, Visited tr t u ∧ u.cluster = r.running
  detail : ∀ n, ∃ u, Visited tr t u ∧ u.cluster = r.detail n

/-- The reads of a report at one moment. -/
def readsAt (s : Scheduler P) : MetricsReads where
  nodes := s.cluster
  available := s.cluster
  stats := s.db
  used := fun _ => s.cluster
  queue := s.cluster
  running := s.cluster
  detail := fun _ => s.cluster

/-- A node has the same capabilities whenever it registers, and not negative ones. -/
def FixedCapabilities (caps : NodeId → NodeCapabilities) (_ : Scheduler P) : Event → Prop
  | .register reg => reg.profile.capabilities = caps reg.nodeId ∧
      0 ≤ (caps reg.nodeId).cpus ∧ 0 ≤ (caps reg.nodeId).memoryMb
  | _ => True

/-- The counters are within the capabilities, which are the fixed ones. -/
structure Capped (caps : NodeId → NodeCapabilities) (s : Scheduler P) : Prop where
  bounded : Bounded s.cluster.tables
  fixed : ∀ n reg, s.cluster.registrations.get? n = some reg →
    reg.profile.capabilities = caps n

theorem capped_init (policy : P.Instance) (policyName : String) :
    Capped caps (init policy policyName) where
  bounded := bounded_init
  fixed := by
    intro n reg h
    cases h

theorem Capped.step (h : Capped caps s) (he : FixedCapabilities caps s e) (hs : Step cfg s e t) :
    Capped caps t where
  bounded := by
    refine hs.tables_keeps h.bounded fun o ho => h.bounded.apply ?_
    cases e with
    | register reg =>
        obtain rfl := Option.some.inj ho
        obtain ⟨hcaps, hcpus, hmemory⟩ := he
        refine ⟨hcaps ▸ hcpus, hcaps ▸ hmemory, fun old hold => ?_⟩
        rw [hcaps]
        exact h.fixed reg.nodeId old hold
    | heartbeat _ _ | expire _ _ | claim _ _ | release _ | callback _ =>
        obtain rfl := Option.some.inj ho
        trivial
    | _ => cases ho
  fixed := by
    intro n reg hreg
    by_cases hregister : ∃ new, e = .register new
    · obtain ⟨new, rfl⟩ := hregister
      cases hs
      simp only [ClusterState.registerNode_registrations, Dict.get?_set] at hreg
      split at hreg
      · next hn =>
          obtain rfl := Option.some.inj hreg
          rw [hn]
          exact he.1
      · exact h.fixed n reg hreg
    · exact h.fixed n reg (hs.registrations_get? (fun new hnew => hregister ⟨new, hnew⟩) hreg)

/-- At every moment of a run. -/
theorem run_capped {policy : P.Instance} {policyName : String}
    (h : Run (restrict (Step cfg) (FixedCapabilities caps)) (init policy policyName) tr s)
    (hu : Visited tr s u) : Capped caps u := by
  rcases hu with ⟨p, hp, rfl⟩ | rfl
  · exact h.forall_trace (I := Capped caps) (C := fun t _ => Capped caps t)
      (capped_init policy policyName) (fun ht hstep => ht.step hstep.1 hstep.2)
      (fun ht _ => ht) p hp
  · exact h.invariant (capped_init policy policyName) fun ht hstep => ht.step hstep.1 hstep.2

/-- A node that is listed at one moment has at another no more slots in use than
its cores. -/
theorem Capped.used_mem (h : Capped caps s) (h' : Capped caps t) {v : NodeView}
    (hv : v ∈ s.cluster.getNodes) :
    0 ≤ t.cluster.runningJobs.getD v.nodeId 0 ∧
      t.cluster.runningJobs.getD v.nodeId 0 ≤ v.profile.capabilities.cpus := by
  obtain ⟨reg, hreg, hprofile, -⟩ := ClusterState.getNodes_shows hv
  have hcaps := h.fixed v.nodeId reg hreg
  have hcpus : 0 ≤ reg.profile.capabilities.cpus := (h.bounded.nonneg hreg).1
  rw [hprofile, hcaps]
  rw [hcaps] at hcpus
  rcases hreg' : t.cluster.registrations.get? v.nodeId with - | reg'
  · -- a node that is not registered has no counter
    have hnone : v.nodeId ∉ t.cluster.runningJobs := fun hmem =>
      Dict.get?_eq_none_iff.mp hreg' ((h'.bounded.keyed.mem_runningJobs v.nodeId).mp hmem)
    rw [Dict.getD_of_not_mem hnone]
    exact ⟨le_rfl, hcpus⟩
  · have hbound : 0 ≤ t.cluster.runningJobs.getD v.nodeId 0 ∧
        t.cluster.runningJobs.getD v.nodeId 0 ≤ reg'.profile.capabilities.cpus :=
      h'.bounded.runningJobs hreg'
    rw [h'.fixed v.nodeId reg' hreg'] at hbound
    exact hbound

/-! ### The reports of a run -/

/-- In every run in which a node has the same capabilities whenever it registers,
whatever steps are taken between the reads of `metrics` and whatever expires: the
slots in use lie between zero and the capacity, in total and of every node that is
reported, and the utilization is a percentage. -/
theorem metrics_within_capacity {policy : P.Instance} {policyName : String} {r : MetricsReads}
    (h : Run (restrict (Step cfg) (FixedCapabilities caps)) (init policy policyName) tr s)
    (hr : ReadIn tr s r) :
    let m := metrics r
    (0 ≤ m.usedCpus ∧ m.usedCpus ≤ m.totalCpus ∧ m.availableCpus = m.totalCpus - m.usedCpus) ∧
    (0 ≤ m.utilizationPct ∧ m.utilizationPct ≤ 100) ∧
    ∀ n ∈ m.nodes, 0 ≤ n.runningJobs ∧ n.runningJobs ≤ n.cpus := by
  intro m
  obtain ⟨u, hu, hnodes⟩ := hr.nodes
  have hcapped := run_capped h hu
  have hused : ∀ v ∈ r.nodes.getNodes, 0 ≤ (r.used v.nodeId).runningJobs.getD v.nodeId 0 ∧
      (r.used v.nodeId).runningJobs.getD v.nodeId 0 ≤ v.profile.capabilities.cpus := by
    intro v hv
    obtain ⟨w, hw, heq⟩ := hr.used v.nodeId
    rw [← heq]
    exact hcapped.used_mem (run_capped h hw) (hnodes ▸ hv)
  have hnonneg : 0 ≤ m.usedCpus := List.sum_nonneg fun x hx => by
    obtain ⟨v, hv, rfl⟩ := List.mem_map.mp hx
    exact (hused v hv).1
  have hle : m.usedCpus ≤ m.totalCpus := List.sum_le_sum fun v hv => (hused v hv).2
  refine ⟨⟨hnonneg, hle, rfl⟩, utilization_mem hnonneg hle, fun n hn => ?_⟩
  obtain ⟨v, hv, rfl⟩ := List.mem_map.mp hn
  obtain ⟨w, hw, heq⟩ := hr.detail v.nodeId
  show 0 ≤ (r.detail v.nodeId).runningJobs.getD v.nodeId 0 ∧
    (r.detail v.nodeId).runningJobs.getD v.nodeId 0 ≤ v.profile.capabilities.cpus
  rw [← heq]
  exact hcapped.used_mem (run_capped h hw) (hnodes ▸ hv)

/-- The only node has its core in use when the counters are read, and was not
registered yet when the available nodes were. -/
theorem metrics_within_capacity_interleaved :
    ∃ tr s r, Run (restrict (Step {}) (FixedCapabilities fun _ =>
        (ClusterState.nodeOf "n" 1 64).profile.capabilities)) defaultInit tr s ∧
      ReadIn tr s r ∧ (metrics r).nodesBusy = 1 ∧ (metrics r).usedCpus = 1 ∧
      (metrics r).utilizationPct ≤ 100 := by
  have h₀ : Run (restrict (Step {}) (FixedCapabilities fun _ =>
    (ClusterState.nodeOf "n" 1 64).profile.capabilities)) defaultInit [] defaultInit := .refl
  have h₁ := h₀.tail_restrict (.register (ClusterState.nodeOf "n" 1 64))
    ⟨rfl, by decide, by decide⟩
  have h₂ := h₁.tail_restrict (.submit (ClusterState.jobOf "j")) trivial
  have h₃ := h₂.tail_restrict (.dequeue rfl rfl) trivial
  have h₄ := h₃.tail_restrict (.offer rfl) trivial
  have h₅ := h₄.tail_restrict (.answer rfl) trivial
  have h₆ := h₅.tail_restrict (@Step.claim _ _ _ (ClusterState.jobOf "j") (idleView "n") _
    (by decide +kernel) (Prod.ext (by decide +kernel) rfl)) trivial
  obtain ⟨tr, s, hrun, hids, hused⟩ : ∃ tr s, Run (restrict (Step {}) (FixedCapabilities fun _ =>
        (ClusterState.nodeOf "n" 1 64).profile.capabilities)) defaultInit tr s ∧
      s.cluster.getNodes.map (fun v => v.nodeId) = ["n"] ∧
      s.cluster.runningJobs.getD "n" 0 = 1 :=
    ⟨_, _, h₆, by decide +kernel, by decide +kernel⟩
  have hlast : ∃ u, Visited tr s u ∧ u.cluster = s.cluster := ⟨s, Or.inr rfl, rfl⟩
  let r : MetricsReads := { readsAt s with available := defaultInit.cluster }
  have hreads : ReadIn tr s r :=
    ⟨hlast, ⟨defaultInit, visited_first hrun, rfl⟩, ⟨s, Or.inr rfl, rfl⟩, fun _ => hlast, hlast,
      hlast, fun _ => hlast⟩
  refine ⟨tr, s, r, hrun, hreads, ?_, ?_, (metrics_within_capacity hrun hreads).2.1.2⟩
  · have hlength := congrArg List.length hids
    rw [List.length_map] at hlength
    show (s.cluster.getNodes.length : ℤ) - (0 : ℕ) = 1
    rw [hlength]
    rfl
  · have hsum := congrArg (fun ids => (ids.map fun n => s.cluster.runningJobs.getD n 0).sum) hids
    rw [List.map_map] at hsum
    exact hsum.trans (by simp [hused])

/-- In every state of every run, of a process on any database that was left to it: the
report of one moment has as running what it has as used, as busy the nodes without a
free core, and as total of the jobs those of the four statuses; and `cluster_status`
reports the same counters. -/
theorem metrics_at_one_moment {db : Database} {policy : P.Instance} {policyName : String}
    (hdb : Stored db) (h : Run (Step cfg) (startOn db policy policyName) tr s) :
    let m := metrics (readsAt s)
    m.running = m.usedCpus ∧
    m.nodesBusy = (s.cluster.getNodes.countP fun n =>
      n.profile.capabilities.cpus ≤ s.cluster.runningJobs.getD n.nodeId 0) ∧
    m.jobs.totalJobs = m.jobs.queued.getD 0 + m.jobs.dispatched.getD 0 + m.jobs.completed.getD 0
      + m.jobs.failed.getD 0 ∧
    (clusterStatus s.cluster s.cluster).nodeStatus.map (fun n => (n.nodeId, n.runningJobs))
      = m.nodes.map fun n => (n.nodeId, n.runningJobs) := by
  intro m
  have hsound : s.cluster.Sound := by
    refine h.invariant (I := fun s => s.cluster.Sound) ClusterState.sound_init ?_
    exact fun hs hstep => hstep.sound hs
  refine ⟨hsound.keyed.runningTotal_eq, ?_, ?_, ?_⟩
  · -- a node is busy when it is not on the list of the available ones
    have hsplit := List.length_eq_countP_add_countP
      (fun v => s.cluster.nodeHasCapacity v metricsProbe) (l := s.cluster.getNodes)
    have hbusy : (s.cluster.getNodes.countP fun v =>
          ¬ s.cluster.nodeHasCapacity v metricsProbe = true)
        = s.cluster.getNodes.countP fun n =>
          n.profile.capabilities.cpus ≤ s.cluster.runningJobs.getD n.nodeId 0 := by
      refine List.countP_congr fun v hv => ?_
      obtain ⟨reg, hreg, hprofile, -⟩ := ClusterState.getNodes_shows hv
      rw [decide_eq_true_iff, decide_eq_true_iff, ClusterState.nodeHasCapacity_eq,
        hsound.keyed.canTake_probe hreg, hprofile, not_lt]
    have havailable : (s.cluster.getAvailableNodes metricsProbe).length
        = s.cluster.getNodes.countP fun v => s.cluster.nodeHasCapacity v metricsProbe := by
      rw [ClusterState.getAvailableNodes, List.countP_eq_length_filter]
    show (s.cluster.getNodes.length : ℤ) - (s.cluster.getAvailableNodes metricsProbe).length = _
    rw [havailable, ← hbusy]
    omega
  · have hvalid : Database.StatusesValid s.db := (Stored.left hdb h).statusesValid
    have hlength := Database.length_by_status hvalid
    simp only [m, metrics, readsAt, Database.getJobStatistics, Database.sumCase_getD]
    exact hlength
  · simp only [m, metrics, clusterStatus, readsAt, List.map_map]
    refine List.map_congr_left fun v hv => ?_
    obtain ⟨-, -, -, hrunning⟩ := ClusterState.getNodes_shows hv
    simp only [Function.comp_apply, hrunning]

/-- A job is claimed on the first of two nodes: one node is busy. -/
theorem metrics_at_one_moment_busy :
    ∃ tr s, Run (Step {}) (startOn (P := policies) {} (.roundRobin {}) "round_robin") tr s ∧
      s.cluster.registrations.keys = ["m", "n"] ∧
      (metrics (readsAt s)).running = (metrics (readsAt s)).usedCpus ∧
      (metrics (readsAt s)).nodesBusy = 1 := by
  have h₀ : Run (Step {}) (startOn (P := policies) {} (.roundRobin {}) "round_robin") [] _ := .refl
  have h₁ := h₀.tail (.register (ClusterState.nodeOf "m" 1 64))
  have h₂ := h₁.tail (.register (ClusterState.nodeOf "n" 1 64))
  have h₃ := h₂.tail (.submit (ClusterState.jobOf "j"))
  have h₄ := h₃.tail (.dequeue rfl rfl)
  have h₅ := h₄.tail (.offer rfl)
  have h₆ := h₅.tail (.answer rfl)
  have h₇ := h₆.tail (@Step.claim _ _ _ (ClusterState.jobOf "j") (idleView "m") _
    (by decide +kernel) (Prod.ext (by decide +kernel) rfl))
  obtain ⟨hrunning, hbusy, -, -⟩ := metrics_at_one_moment .empty h₇
  exact ⟨_, _, h₇, by decide +kernel, hrunning, hbusy.trans (by decide +kernel)⟩

end Scheduler

end HeteroSched
