/-
HeteroSched/Availability.lean

Which nodes can take a job: the list of `get_available_nodes`, the check of
`reserve_slot`, and how long their answer stays good.

Both methods make the same check on the same tables (`canTake`), so a node that
is listed is reserved if nothing happens in between, and the list has the ids of
the registrations in their order.  A node that can take a job can still take it
as long as the nodes keep their capabilities and no counter rises (`Eased`),
which is what every method but `reserve_slot` leaves of a cluster whose nodes
are fixed.
-/
import HeteroSched.ClusterOps

namespace HeteroSched

namespace ClusterState

/-! ### The check -/

/-- The node is registered and fits the job right now. -/
def canTake (c : ClusterState) (n : NodeId) (job : JobRequest) : Bool :=
  match c.registrations.get? n with
  | none => false
  | some registration => c.fits registration job

variable {c c' c'' : ClusterState} {n : NodeId} {job : JobRequest}

theorem canTake_iff :
    c.canTake n job = true ↔ ∃ reg, c.registrations.get? n = some reg ∧ c.fits reg job = true := by
  unfold canTake
  rcases c.registrations.get? n with - | reg <;> simp

theorem nodeHasCapacity_eq (v : NodeView) : c.nodeHasCapacity v job = c.canTake v.nodeId job := rfl

theorem reserveSlot_of_canTake (h : c.canTake n job = true) :
    c.reserveSlot n job = (true, c.reserved n job) := by
  obtain ⟨reg, hreg, hfits⟩ := canTake_iff.mp h
  unfold reserveSlot
  rw [hreg]
  simp only [hfits, Bool.not_true, Bool.false_eq_true, if_false]
  rfl

theorem reserveSlot_of_not_canTake (h : c.canTake n job = false) :
    c.reserveSlot n job = (false, c) := by
  rcases c.reserveSlot_cases n job with hr | ⟨reg, hreg, hfits, -⟩
  · exact hr
  · rw [canTake_iff.mpr ⟨reg, hreg, hfits⟩] at h
    cases h

theorem reserveSlot_fst (c : ClusterState) (n : NodeId) (job : JobRequest) :
    (c.reserveSlot n job).1 = c.canTake n job := by
  rcases h : c.canTake n job
  · rw [reserveSlot_of_not_canTake h]
  · rw [reserveSlot_of_canTake h]

/-! ### The list of available nodes -/

theorem getNodeView_nodeId {v : NodeView} (h : c.getNodeView n = some v) : v.nodeId = n := by
  unfold getNodeView at h
  rcases hreg : c.registrations.get? n with - | reg
  · rw [hreg] at h
    cases h
  · rw [hreg] at h
    exact (Option.some.inj h) ▸ rfl

theorem getNodeView_isSome : (c.getNodeView n).isSome ↔ n ∈ c.registrations := by
  unfold getNodeView
  rw [← Dict.get?_isSome_iff]
  rcases c.registrations.get? n with - | reg <;> rfl

theorem mem_getNodes {v : NodeView} : v ∈ c.getNodes ↔ c.getNodeView v.nodeId = some v := by
  unfold getNodes
  rw [List.mem_filterMap]
  constructor
  · rintro ⟨n, -, hv⟩
    rwa [getNodeView_nodeId hv]
  · intro hv
    exact ⟨v.nodeId, getNodeView_isSome.mp (hv ▸ rfl), hv⟩

theorem mem_getAvailableNodes {v : NodeView} :
    v ∈ c.getAvailableNodes job ↔
      c.getNodeView v.nodeId = some v ∧ c.canTake v.nodeId job = true := by
  rw [getAvailableNodes, List.mem_filter, mem_getNodes, nodeHasCapacity_eq]

theorem getNodes_ids (c : ClusterState) : c.getNodes.map (fun v => v.nodeId) = c.registrations.keys := by
  have hviews : ∀ l : List NodeId, (∀ n ∈ l, n ∈ c.registrations) →
      (l.filterMap c.getNodeView).map (fun v => v.nodeId) = l := by
    intro l hl
    induction l with
    | nil => rfl
    | cons n rest ih =>
        obtain ⟨hn, hrest⟩ := List.forall_mem_cons.mp hl
        obtain ⟨v, hv⟩ := Option.isSome_iff_exists.mp (getNodeView_isSome.mpr hn)
        rw [List.filterMap_cons_some hv, List.map_cons, ih hrest, getNodeView_nodeId hv]
  exact hviews _ fun _ h => h

/-- The available nodes, in the order of the registrations. -/
theorem getAvailableNodes_ids (c : ClusterState) (job : JobRequest) :
    (c.getAvailableNodes job).map (fun v => v.nodeId)
      = c.registrations.keys.filter fun n => c.canTake n job := by
  rw [← getNodes_ids, List.filter_map]
  rfl

/-- A node that can take the job is on the list. -/
theorem exists_available (h : c.canTake n job = true) :
    ∃ v ∈ c.getAvailableNodes job, v.nodeId = n := by
  obtain ⟨reg, hreg, -⟩ := canTake_iff.mp h
  obtain ⟨v, hv⟩ :=
    Option.isSome_iff_exists.mp (getNodeView_isSome.mpr (Dict.mem_of_get? hreg))
  have hid := getNodeView_nodeId hv
  exact ⟨v, mem_getAvailableNodes.mpr ⟨by rw [hid, hv], by rw [hid, h]⟩, hid⟩

/-! ### Counters that do not rise -/

/-- What the node reports it can do, if it is registered. -/
def capabilitiesOf (c : ClusterState) (n : NodeId) : Option NodeCapabilities :=
  (c.registrations.get? n).map fun reg => reg.profile.capabilities

/-- The second state has the nodes of the first, with the same capabilities, and
no counter is higher. -/
structure Eased (c c' : ClusterState) : Prop where
  nodes : c'.registrations.keys = c.registrations.keys
  capabilities : ∀ n, c'.capabilitiesOf n = c.capabilitiesOf n
  cpus : ∀ n, c'.runningJobs.getD n 0 ≤ c.runningJobs.getD n 0
  memory : ∀ n, c'.allocatedMemory.getD n 0 ≤ c.allocatedMemory.getD n 0

theorem Eased.refl (c : ClusterState) : Eased c c :=
  ⟨rfl, fun _ => rfl, fun _ => le_rfl, fun _ => le_rfl⟩

theorem Eased.trans (h : Eased c c') (h' : Eased c' c'') : Eased c c'' :=
  ⟨h'.nodes.trans h.nodes, fun n => (h'.capabilities n).trans (h.capabilities n),
    fun n => (h'.cpus n).trans (h.cpus n), fun n => (h'.memory n).trans (h.memory n)⟩

/-- A state with the same tables of nodes. -/
theorem Eased.of_eq (hr : c'.registrations = c.registrations) (hc : c'.runningJobs = c.runningJobs)
    (hm : c'.allocatedMemory = c.allocatedMemory) : Eased c c' := by
  refine ⟨by rw [hr], fun n => by rw [capabilitiesOf, capabilitiesOf, hr], fun n => ?_, fun n => ?_⟩
  · rw [hc]
  · rw [hm]

/-- A node that could take a job still can. -/
theorem Eased.canTake (h : Eased c c') (hk : Keyed c) (hk' : Keyed c')
    (hc : c.canTake n job = true) : c'.canTake n job = true := by
  obtain ⟨reg, hreg, hfits⟩ := canTake_iff.mp hc
  have hcap := h.capabilities n
  rw [capabilitiesOf, capabilitiesOf, hreg, Option.map_some] at hcap
  obtain ⟨reg', hreg', hsame⟩ := Option.map_eq_some_iff.mp hcap
  refine canTake_iff.mpr ⟨reg', hreg', ?_⟩
  obtain ⟨hgpu, hcpu, hmem⟩ := (c.fits_iff reg job).mp hfits
  have hcpus := h.cpus n
  rw [hk.nodeId_eq hreg] at hcpu hmem
  rw [fits_iff, hk'.nodeId_eq hreg', hsame]
  refine ⟨hgpu, by omega, fun m hm => ?_⟩
  have hmemory := h.memory n
  have hfit := hmem m hm
  omega

/-- The nodes are fixed: a registration is of a registered node and reports what
it reported before, and no registered node expires. -/
def FixedNodes (c : ClusterState) : Op → Prop
  | .registerNode reg => c.capabilitiesOf reg.nodeId = some reg.profile.capabilities
  | .removeExpiredNodes timeoutSeconds now =>
      ∀ n ∈ c.registrations, n ∉ c.expiredNodes timeoutSeconds now
  | _ => True

theorem popAll_of_not_mem {α : Type*} {d : Dict NodeId α} {ns : List NodeId}
    (h : ∀ n ∈ d, n ∉ ns) : d.popAll ns = d := by
  apply Dict.ext
  rw [Dict.entries_popAll, List.filter_eq_self]
  intro e he
  exact decide_eq_true (h e.1 (List.mem_map_of_mem he))

theorem keys_set_of_mem {α : Type*} {d : Dict NodeId α} {v : α} (h : n ∈ d) :
    (d.set n v).keys = d.keys :=
  (Dict.keys_setEntries n v d.entries).trans (if_pos h)

/-- What every reachable state has: consistent keys, reservations that hold
something, counters that are not negative. -/
structure Sound (c : ClusterState) : Prop where
  keyed : Keyed c
  charged : Charged c
  cpus : CountersNonneg c
  memory : MemoryNonneg c

theorem sound_init : Sound {} :=
  ⟨keyed_init, charged_init, fun _ => le_rfl, fun _ => le_rfl⟩

theorem Sound.apply (h : Sound c) (op : Op) : Sound (op.apply c) :=
  ⟨h.keyed.apply op, h.charged.apply op, h.cpus.apply op, h.memory.apply op⟩

theorem Sound.eased_releaseSlot (h : Sound c) (j : JobId) : Eased c (c.releaseSlot j) := by
  rcases hr : c.reservations.get? j with - | r
  · rw [releaseSlot_of_none hr]
    exact .refl c
  · obtain ⟨hcpu, hmem⟩ := h.charged j r hr
    unfold ClusterState.releaseSlot
    rw [hr]
    exact ⟨rfl, fun _ => rfl, clamped_le h.cpus r.nodeId (by omega),
      clamped_le h.memory r.nodeId hmem⟩

/-- A release gives back what the reservation of the same job took. -/
theorem Sound.eased_reserved_releaseSlot (h : Sound c) (n : NodeId) (job : JobRequest) :
    Eased c ((c.reserved n job).releaseSlot job.jobId) := by
  have hres : (c.reserved n job).reservations.get? job.jobId
      = some ⟨n, job.requirements.cpuRequest, job.requirements.memoryOrZero⟩ := by
    rw [reserved_reservations, Dict.get?_set_self]
  have hcpu := job.requirements.cpuRequest_ge
  have hmem := job.requirements.memoryOrZero_nonneg
  refine ⟨?_, fun m => ?_, fun m => ?_, fun m => ?_⟩
  · rw [releaseSlot_registrations, reserved_registrations]
  · rw [capabilitiesOf, releaseSlot_registrations, reserved_registrations, capabilitiesOf]
  · rw [releaseSlot_getD_runningJobs hres (by simp only; omega), reserved_runningJobs,
      Dict.getD_set]
    split
    · next heq =>
        subst heq
        show max 0 (_ + _ - job.requirements.cpuRequest) ≤ _
        rw [add_sub_cancel_right]
        exact max_le (h.cpus m) le_rfl
    · exact le_rfl
  · rw [releaseSlot_getD_allocatedMemory hres hmem, reserved_allocatedMemory, Dict.getD_set]
    split
    · next heq =>
        subst heq
        show max 0 (_ + _ - job.requirements.memoryOrZero) ≤ _
        rw [add_sub_cancel_right]
        exact max_le (h.memory m) le_rfl
    · exact le_rfl

/-- On fixed nodes every call but a reservation eases the cluster. -/
theorem Sound.eased (h : Sound c) {op : Op} (hop : FixedNodes c op)
    (hreserve : ∀ n job, op ≠ .reserveSlot n job) : Eased c (op.apply c) := by
  cases op with
  | registerNode reg =>
      obtain ⟨old, hold, hsame⟩ := Option.map_eq_some_iff.mp hop
      have hmem := Dict.mem_of_get? hold
      refine ⟨keys_set_of_mem hmem, fun n => ?_, fun n => ?_, fun n => le_rfl⟩
      · show ((c.registerNode reg).registrations.get? n).map _ = _
        rw [registerNode_registrations, Dict.get?_set]
        split
        · next heq => rw [heq, hop, Option.map_some]
        · rfl
      · exact (registerNode_getD_runningJobs c reg n).le
  | registerHeartbeat hb now => exact .of_eq rfl rfl rfl
  | removeExpiredNodes timeoutSeconds now =>
      refine .of_eq (popAll_of_not_mem hop) (popAll_of_not_mem fun n hn => ?_)
        (popAll_of_not_mem fun n hn => ?_)
      · exact hop n ((h.keyed.mem_runningJobs n).mp hn)
      · exact hop n (h.keyed.mem_allocatedMemory n hn)
  | reserveSlot n job => exact absurd rfl (hreserve n job)
  | releaseSlot j => exact h.eased_releaseSlot j

end ClusterState

end HeteroSched
