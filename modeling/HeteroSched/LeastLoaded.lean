/-
HeteroSched/LeastLoaded.lean

A burst of one-slot jobs under the least-loaded policy is spread in proportion to
the cores of the nodes.

The occupancy a policy is shown is the node's slot counter over its cores, and a
node that is not on the list of available nodes is full, so its occupancy is at
least one.  The chosen node is therefore the least occupied of all registered
nodes, which is the rule of `Balance`; the reported loads only decide ties.  The
counters do not change between the listing and the reservation, because only the
dispatcher raises them and heartbeats write other tables.
-/
import HeteroSched.Availability
import HeteroSched.Counters
import HeteroSched.Lib.Balance

namespace HeteroSched

open Transition

namespace ClusterState

/-! ### The burst -/

/-- A job that asks for one slot and nothing else. -/
def OneSlot (job : JobRequest) : Prop :=
  job.requirements.cpuRequest = 1 ∧ job.requirements.memoryMb = none ∧
    job.requirements.requiresGpu = false

/-- One-slot jobs, placed as the least-loaded policy answers, with heartbeats as
the only other calls. -/
def LeastLoadedBurst (s : Selecting) : SelectEvent → Prop
  | .call op => ∃ heartbeat now, op = .registerHeartbeat heartbeat now
  | .start job => OneSlot job
  | .answer node => ∀ job available, s.dispatcher = .offered job available →
      node = LeastLoadedPolicy.selectNode {} available job
  | _ => True

/-- The step is a reservation that succeeds. -/
def isPlacement : Selecting × SelectEvent → Bool
  | (s, .reserve) =>
      match s.dispatcher with
      | .chosen job node => (s.cluster.reserveSlot node.nodeId job).1
      | _ => false
  | _ => false

@[simp] theorem isPlacement_reserve (k : ClusterState) (job : JobRequest) (node : NodeView) :
    isPlacement (⟨k, .chosen job node⟩, .reserve) = (k.reserveSlot node.nodeId job).1 := rfl

/-! ### Occupancies -/

/-- The cores a registered node reports, and the slots in use on it. -/
def cores (c : ClusterState) (n : NodeId) : ℚ :=
  (((c.capabilitiesOf n).map fun capabilities => capabilities.cpus).getD 0 : ℤ)

/-- The cores charged to a node, as a rational number. -/
def slots (c : ClusterState) (n : NodeId) : ℚ := (c.runningJobs.getD n 0 : ℤ)

/-- The registered nodes. -/
def nodeSet (c : ClusterState) : Finset NodeId := c.registrations.keys.toFinset

variable {c c₀ : ClusterState} {n : NodeId} {job : JobRequest} {reg : NodeRegistration}

theorem mem_nodeSet : n ∈ c.nodeSet ↔ ∃ reg, c.registrations.get? n = some reg := by
  rw [nodeSet, List.mem_toFinset, ← Dict.mem_def, Dict.mem_iff_get?]

theorem cores_of_get? (h : c.registrations.get? n = some reg) :
    c.cores n = reg.profile.capabilities.cpus := by
  rw [cores, capabilitiesOf, h, Option.map_some, Option.map_some, Option.getD_some]

/-- Every registered node reports at least one core. -/
def HasCores (c : ClusterState) : Prop :=
  ∀ n reg, c.registrations.get? n = some reg → 1 ≤ reg.profile.capabilities.cpus

theorem HasCores.pos (h : HasCores c) (hn : n ∈ c.nodeSet) : 0 < c.cores n := by
  obtain ⟨reg, hreg⟩ := mem_nodeSet.mp hn
  have hcpus := h n reg hreg
  rw [cores_of_get? hreg]
  exact_mod_cast hcpus

/-- The occupancy of a view is the share of the slots in use. -/
theorem HasCores.slotOccupancy (h : HasCores c) {v : NodeView} (hv : c.getNodeView n = some v) :
    v.slotOccupancy = c.slots n / c.cores n := by
  unfold getNodeView at hv
  rcases hreg : c.registrations.get? n with - | reg
  · rw [hreg] at hv
    cases hv
  · rw [hreg] at hv
    obtain rfl := Option.some.inj hv
    show ((c.getRunningJobs n : ℚ) / (max 1 reg.profile.capabilities.cpus : ℤ)) = _
    rw [max_eq_right (h n reg hreg), cores_of_get? hreg]
    rfl

/-- A one-slot job fits a registered node with a free slot. -/
theorem Keyed.canTake_oneSlot (hk : Keyed c) (hjob : OneSlot job) (hn : n ∈ c.nodeSet) :
    c.canTake n job = true ↔ c.slots n + 1 ≤ c.cores n := by
  obtain ⟨reg, hreg⟩ := mem_nodeSet.mp hn
  obtain ⟨hcpu, hmem, hgpu⟩ := hjob
  have hfits : c.fits reg job = true ↔
      c.runningJobs.getD n 0 + 1 ≤ reg.profile.capabilities.cpus := by
    rw [fits_iff, hcpu, hmem, hgpu, hk.nodeId_eq hreg]
    simp
  rw [canTake_iff, cores_of_get? hreg, slots]
  constructor
  · rintro ⟨reg', hreg', hf⟩
    obtain rfl := Option.some.inj (hreg.symm.trans hreg')
    exact_mod_cast hfits.mp hf
  · intro hle
    exact ⟨reg, hreg, hfits.mpr (by exact_mod_cast hle)⟩

/-- A registered node that cannot take a one-slot job is full. -/
theorem Keyed.one_le_of_not_canTake (hk : Keyed c) (hc : HasCores c) (hjob : OneSlot job)
    (hn : n ∈ c.nodeSet) (h : ¬ c.canTake n job = true) : 1 ≤ c.slots n / c.cores n := by
  obtain ⟨reg, hreg⟩ := mem_nodeSet.mp hn
  rw [hk.canTake_oneSlot hjob hn, not_le, cores_of_get? hreg, slots] at h
  rw [le_div_iff₀ (hc.pos hn), one_mul, cores_of_get? hreg, slots]
  have hlt : reg.profile.capabilities.cpus < c.runningJobs.getD n 0 + 1 := by exact_mod_cast h
  exact_mod_cast Int.lt_add_one_iff.mp hlt

/-! ### What the dispatcher knows -/

/-- What the dispatcher has seen is still so: the occupancies on its list are the
current ones, and the list has every node that can take the job; the chosen node
is the least occupied registered node. -/
def Informed (c : ClusterState) : Dispatcher → Prop
  | .asking job => OneSlot job
  | .offered job available => OneSlot job ∧
      (∀ v ∈ available, v.slotOccupancy = c.slots v.nodeId / c.cores v.nodeId ∧
        v.nodeId ∈ c.nodeSet ∧ c.canTake v.nodeId job = true) ∧
      ∀ n ∈ c.nodeSet, c.canTake n job = true → ∃ v ∈ available, v.nodeId = n
  | .chosen job node => OneSlot job ∧
      ∀ n ∈ c.nodeSet, c.slots node.nodeId / c.cores node.nodeId ≤ c.slots n / c.cores n
  | _ => True

/-- The state of a burst from `c₀`: the nodes are those of `c₀`, the slots are
balanced and there are as many as placements were made. -/
structure Burst (c₀ : ClusterState) (tr : List (Selecting × SelectEvent)) (s : Selecting) :
    Prop where
  keyed : Keyed s.cluster
  nonneg : CountersNonneg s.cluster
  registrations : s.cluster.registrations = c₀.registrations
  balanced : Balance.Balanced s.cluster.nodeSet s.cluster.cores s.cluster.slots
  total : ∑ n ∈ s.cluster.nodeSet, s.cluster.slots n = tr.countP isPlacement
  informed : Informed s.cluster s.dispatcher

variable {tr : List (Selecting × SelectEvent)} {s s' : Selecting} {e : SelectEvent}

/-- The policy's answer: a node of the list, least occupied of all nodes. -/
theorem Informed.answer {available : List NodeView} (hk : Keyed c) (hc : HasCores c)
    (h : Informed c (.offered job available)) :
    Informed c (.answered job available (LeastLoadedPolicy.selectNode {} available job)) := by
  obtain ⟨hjob, hviews, hall⟩ := h
  unfold Dispatcher.answered vetAnswer
  rcases hs : LeastLoadedPolicy.selectNode {} available job with - | v
  · exact hjob
  · obtain ⟨hmem, hleast⟩ := LeastLoadedPolicy.selectNode_eq_some hs
    simp only [if_pos hmem]
    refine ⟨hjob, fun n hn => ?_⟩
    obtain ⟨hocc, hv, htake⟩ := hviews v hmem
    by_cases hn' : c.canTake n job = true
    · obtain ⟨w, hw, rfl⟩ := hall n hn hn'
      rw [← hocc, ← (hviews w hw).1]
      exact hleast w hw
    · -- a node that was not offered is full, and the chosen one is not
      have hfull := hk.one_le_of_not_canTake hc hjob hn hn'
      have hfree := (hk.canTake_oneSlot hjob hv).mp htake
      refine le_trans ?_ hfull
      rw [div_le_one (hc.pos hv)]
      linarith

theorem slots_reserved (hjob : OneSlot job) (m : NodeId) :
    (c.reserved m job).slots = Function.update c.slots m (c.slots m + 1) := by
  funext n
  rw [slots, reserved_runningJobs, Dict.getD_set, Function.update_apply, hjob.1]
  split
  · rw [slots]
    push_cast
    rfl
  · rfl

/-- One more slot on a registered node. -/
theorem sum_slots_reserved (hjob : OneSlot job) {m : NodeId} (hm : m ∈ c.nodeSet) :
    ∑ n ∈ c.nodeSet, (c.reserved m job).slots n = ∑ n ∈ c.nodeSet, c.slots n + 1 := by
  rw [slots_reserved hjob, Finset.sum_update_of_mem hm, ← Finset.add_sum_erase _ _ hm,
    Finset.sdiff_singleton_eq_erase]
  ring

/-- A step of the dispatcher that is no placement. -/
theorem Burst.moved {k : ClusterState} {d d' : Dispatcher} {p : Selecting × SelectEvent}
    (h : Burst c₀ tr ⟨k, d⟩) (hp : isPlacement p = false) (hd : Informed k d') :
    Burst c₀ (tr ++ [p]) ⟨k, d'⟩ := by
  refine ⟨h.keyed, h.nonneg, h.registrations, h.balanced, ?_, hd⟩
  rw [List.countP_append, List.countP_singleton, hp]
  exact h.total

/-- A placement on the least occupied node keeps the balance. -/
theorem Burst.placed {k : ClusterState} {node : NodeView} (h : Burst c₀ tr ⟨k, .chosen job node⟩)
    (hcores : HasCores k) (hreg : k.registrations.get? node.nodeId = some reg)
    (hr : k.reserveSlot node.nodeId job = (true, k.reserved node.nodeId job)) :
    Burst c₀ (tr ++ [(⟨k, .chosen job node⟩, .reserve)])
      ⟨k.reserved node.nodeId job, .placed job node⟩ := by
  obtain ⟨hjob, hleast⟩ := h.informed
  refine ⟨h.keyed.reserved hreg job, ?_, h.registrations, ?_, ?_, trivial⟩
  · have hnonneg := CountersNonneg.apply h.nonneg (.reserveSlot node.nodeId job)
    rwa [Op.apply, hr] at hnonneg
  · rw [slots_reserved hjob]
    exact h.balanced.place (fun n hn => hcores.pos hn) hleast
  · rw [List.countP_append, List.countP_singleton, isPlacement_reserve, hr, if_pos rfl,
      Nat.cast_add, Nat.cast_one, ← h.total]
    exact sum_slots_reserved hjob (mem_nodeSet.mpr ⟨reg, hreg⟩)

theorem Burst.step (h : Burst c₀ tr s) (hc : HasCores c₀) (he : LeastLoadedBurst s e)
    (hs : SelectStep s e s') : Burst c₀ (tr ++ [(s, e)]) s' := by
  have hcores : HasCores s.cluster := fun n reg hreg => hc n reg (h.registrations ▸ hreg)
  cases hs with
  | call op =>
      -- a heartbeat writes none of the tables the dispatcher has read
      obtain ⟨heartbeat, now, rfl⟩ := he
      refine ⟨h.keyed.apply (.registerHeartbeat heartbeat now), h.nonneg, h.registrations, h.balanced,
        ?_, ?_⟩
      · rw [List.countP_append]
        exact h.total
      · have hinformed := h.informed
        rcases hd : s.dispatcher with - | job | ⟨job, available⟩ | ⟨job, node⟩ | ⟨job, node⟩ <;>
          rw [hd] at hinformed
        all_goals exact hinformed
  | start job => exact h.moved rfl he
  | @offer k job =>
      refine h.moved rfl ⟨h.informed, fun v hv => ?_, fun n _ htake => exists_available htake⟩
      obtain ⟨hview, htake⟩ := mem_getAvailableNodes.mp hv
      obtain ⟨reg, hreg, -⟩ := canTake_iff.mp htake
      exact ⟨hcores.slotOccupancy hview, mem_nodeSet.mpr ⟨reg, hreg⟩, htake⟩
  | @answer k job available node =>
      rw [he job available rfl]
      exact h.moved rfl (Informed.answer h.keyed hcores h.informed)
  | @reserve k job node =>
      rcases k.reserveSlot_cases node.nodeId job with hr | ⟨reg, hreg, -, hr⟩
      · rw [hr]
        exact h.moved (by rw [isPlacement_reserve, hr]) h.informed.1
      · rw [hr]
        exact h.placed hcores hreg hr
  | finish => exact h.moved rfl trivial

/-! ### The theorem -/

/-- The cores of the registered nodes, added up over the table. -/
theorem sum_cores (c : ClusterState) :
    ∑ n ∈ c.nodeSet, c.cores n
      = c.registrations.sumOn fun _ reg => (reg.profile.capabilities.cpus : ℚ) := by
  rw [nodeSet, List.sum_toFinset c.cores (show c.registrations.keys.Nodup from
    c.registrations.nodup_keys), Dict.keys, List.map_map, Dict.sumOn]
  refine congrArg List.sum (List.map_congr_left fun e he => ?_)
  exact cores_of_get? (Dict.get?_eq_some_iff.mpr he)

/-- A burst of one-slot jobs on idle nodes, placed by the least-loaded policy with
any heartbeats in between: after each placement, a node without its last job is
no more occupied than any other node is, and it has at most its share of the
placements, by cores, and one more. -/
theorem least_loaded_proportional {ops : List (ClusterState × Op)} (h₀ : Run ClusterState.Step {} ops c₀)
    (hcpus : ∀ n reg, c₀.registrations.get? n = some reg → 1 ≤ reg.profile.capabilities.cpus)
    (hidle : ∀ n, c₀.runningJobs.getD n 0 = 0)
    (h : Run (restrict SelectStep LeastLoadedBurst) ⟨c₀, .idle⟩ tr s) :
    let r : NodeId → ℚ := fun n => (s.cluster.runningJobs.getD n 0 : ℤ)
    let total := c₀.registrations.sumOn fun _ reg => (reg.profile.capabilities.cpus : ℚ)
    (∀ i j regᵢ regⱼ, c₀.registrations.get? i = some regᵢ → c₀.registrations.get? j = some regⱼ →
      1 ≤ r i →
      (r i - 1) / regᵢ.profile.capabilities.cpus ≤ r j / regⱼ.profile.capabilities.cpus) ∧
    ∀ i regᵢ, c₀.registrations.get? i = some regᵢ →
      r i ≤ tr.countP isPlacement * regᵢ.profile.capabilities.cpus / total + 1 := by
  intro r total
  have hsound : Keyed c₀ ∧ CountersNonneg c₀ :=
    h₀.invariant (I := fun c => Keyed c ∧ CountersNonneg c) ⟨keyed_init, fun _ => le_rfl⟩
      fun hI hs => hs ▸ ⟨hI.1.apply _, hI.2.apply _⟩
  have hzero : ∀ n ∈ c₀.nodeSet, c₀.slots n = 0 := fun n _ => by
    rw [slots, hidle n, Int.cast_zero]
  have hinit : Burst c₀ [] ⟨c₀, .idle⟩ :=
    ⟨hsound.1, hsound.2, rfl, Balance.balanced_zero hzero, by simpa using Finset.sum_eq_zero hzero,
      trivial⟩
  have hburst : Burst c₀ tr s :=
    h.invariant_trace hinit fun _ hb hs => hb.step hcpus hs.1 hs.2
  have hmem : ∀ {i reg}, c₀.registrations.get? i = some reg →
      i ∈ s.cluster.nodeSet ∧ s.cluster.cores i = reg.profile.capabilities.cpus := by
    intro i reg hreg
    rw [← hburst.registrations] at hreg
    exact ⟨mem_nodeSet.mpr ⟨reg, hreg⟩, cores_of_get? hreg⟩
  have hpos : ∀ i ∈ s.cluster.nodeSet, 0 < s.cluster.cores i :=
    fun i hi => HasCores.pos (fun n reg hreg => hcpus n reg (hburst.registrations ▸ hreg)) hi
  constructor
  · intro i j regᵢ regⱼ hi hj hone
    have hle := hburst.balanced i (hmem hi).1 j (hmem hj).1 hone
    rwa [(hmem hi).2, (hmem hj).2] at hle
  · intro i regᵢ hi
    have hnonneg : ∀ i ∈ s.cluster.nodeSet, 0 ≤ s.cluster.slots i := fun i _ => by
      have hn := hburst.nonneg i
      rw [slots]
      exact_mod_cast hn
    have hle := hburst.balanced.load_le hpos hnonneg (hmem hi).1
    rwa [hburst.total, (hmem hi).2, sum_cores, hburst.registrations] at hle

/-- One job of a burst, from the question to the start of its thread. -/
theorem run_placement {node : NodeView}
    (h : Run (restrict SelectStep LeastLoadedBurst) s tr ⟨c, .idle⟩) (hjob : OneSlot job)
    (hchosen : Dispatcher.answered job (c.getAvailableNodes job)
      (LeastLoadedPolicy.selectNode {} (c.getAvailableNodes job) job) = .chosen job node)
    (hreserved : (c.reserveSlot node.nodeId job).1 = true) :
    ∃ tr', Run (restrict SelectStep LeastLoadedBurst) s tr'
        ⟨(c.reserveSlot node.nodeId job).2, .idle⟩ ∧
      tr'.countP isPlacement = tr.countP isPlacement + 1 := by
  have hasked := h.tail_restrict (.start job) hjob
  have hoffered := hasked.tail_restrict .offer trivial
  have hanswered := hoffered.tail_restrict (.answer (LeastLoadedPolicy.selectNode {}
    (c.getAvailableNodes job) job)) fun _ _ heq => by cases heq; rfl
  rw [hchosen] at hanswered
  have hplaced := hanswered.tail_restrict .reserve trivial
  rw [hreserved] at hplaced
  have hdone := hplaced.tail_restrict .finish trivial
  refine ⟨_, hdone, ?_⟩
  simp only [List.countP_append, List.countP_singleton, isPlacement, hreserved, if_true,
    Bool.false_eq_true, if_false, add_zero]

/-- Three jobs on a node with two cores and one with a single core. -/
theorem least_loaded_proportional_three :
    let c₀ := (registerNode {} (nodeOf "a" 2 64)).registerNode (nodeOf "b" 1 64)
    ∃ tr s, Run (restrict SelectStep LeastLoadedBurst) ⟨c₀, .idle⟩ tr s ∧
      tr.countP isPlacement = 3 ∧ s.cluster.runningJobs.getD "a" 0 = 2 ∧
      s.cluster.runningJobs.getD "b" 0 = 1 ∧
      ((s.cluster.runningJobs.getD "a" 0 : ℤ) : ℚ) ≤ 3 * 2 / 3 + 1 := by
  intro c₀
  let c₁ := (c₀.reserveSlot "a" (jobOf "i")).2
  let c₂ := (c₁.reserveSlot "b" (jobOf "j")).2
  let c₃ := (c₂.reserveSlot "a" (jobOf "k")).2
  have h₀ : Run ClusterState.Step {} [({}, .registerNode (nodeOf "a" 2 64)),
      (registerNode {} (nodeOf "a" 2 64), .registerNode (nodeOf "b" 1 64))] c₀ :=
    (Run.refl.tail rfl).tail rfl
  have hreg : ∀ n reg, c₀.registrations.get? n = some reg →
      reg = nodeOf "a" 2 64 ∨ reg = nodeOf "b" 1 64 := by
    intro n reg h
    have hmem := Dict.get?_eq_some_iff.mp h
    rcases List.mem_cons.mp hmem with heq | hmem
    · exact Or.inl (Prod.mk.inj heq).2
    · exact Or.inr (Prod.mk.inj (List.mem_singleton.mp hmem)).2
  have hcpus : ∀ n reg, c₀.registrations.get? n = some reg →
      1 ≤ reg.profile.capabilities.cpus := by
    intro n reg h
    rcases hreg n reg h with rfl | rfl <;> decide
  have hidle : ∀ n, c₀.runningJobs.getD n 0 = 0 := by
    intro n
    rw [registerNode_getD_runningJobs, registerNode_getD_runningJobs]
    rfl
  -- the first node of two idle ones, then the other one, which is full after that
  obtain ⟨tr₁, hrun₁, hcount₁⟩ := @run_placement c₀ (jobOf "i") _ _
    ⟨"a", "a", "http://a", (nodeOf "a" 2 64).profile, 0, 0, 0⟩
    .refl ⟨rfl, rfl, rfl⟩ (by decide +kernel) (by decide +kernel)
  obtain ⟨tr₂, hrun₂, hcount₂⟩ := @run_placement c₁ (jobOf "j") _ _
    ⟨"b", "b", "http://b", (nodeOf "b" 1 64).profile, 0, 0, 0⟩
    hrun₁ ⟨rfl, rfl, rfl⟩ (by decide +kernel) (by decide +kernel)
  obtain ⟨tr₃, hrun₃, hcount₃⟩ := @run_placement c₂ (jobOf "k") _ _
    ⟨"a", "a", "http://a", (nodeOf "a" 2 64).profile, 0, 1, 1 / 2⟩
    hrun₂ ⟨rfl, rfl, rfl⟩ (by decide +kernel) (by decide +kernel)
  have hcount : tr₃.countP isPlacement = 3 := by rw [hcount₃, hcount₂, hcount₁]; rfl
  have hle := (least_loaded_proportional h₀ hcpus hidle hrun₃).2 "a" (nodeOf "a" 2 64)
    (by decide +kernel)
  refine ⟨tr₃, _, hrun₃, hcount, by decide +kernel, by decide +kernel, hle.trans ?_⟩
  rw [hcount]
  decide +kernel

end ClusterState

end HeteroSched
