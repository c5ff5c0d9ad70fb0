/-
HeteroSched/ClusterOps.lean

Runs of `ClusterState`: any thread may call any method at any time, and each
call is atomic, so a run is a sequence of calls.

Two facts hold in every state such a run reaches, whatever the calls are.  The
tables are keyed consistently (`Keyed`): a registration is stored under its own
node id, the nodes with a slot counter are exactly the registered ones, and only
registered nodes have a memory counter, so a removed node is never resurrected.
And every reservation holds at least one slot and no negative amount of memory
(`Charged`), which is where the bounds of `JobRequirements` go.
-/
import HeteroSched.ClusterState
import HeteroSched.Lib.Transition

namespace HeteroSched

open Transition

namespace ClusterState

/-- A call of one of the methods that change the node and reservation tables. -/
inductive Op
  | registerNode (registration : NodeRegistration)
  | registerHeartbeat (heartbeat : NodeHeartbeat) (now : ℚ)
  | removeExpiredNodes (timeoutSeconds now : ℚ)
  | reserveSlot (nodeId : NodeId) (job : JobRequest)
  | releaseSlot (jobId : JobId)

/-- The state after a call. -/
def Op.apply (c : ClusterState) : Op → ClusterState
  | .registerNode registration => c.registerNode registration
  | .registerHeartbeat heartbeat now => c.registerHeartbeat heartbeat now
  | .removeExpiredNodes timeoutSeconds now => c.removeExpiredNodes timeoutSeconds now
  | .reserveSlot nodeId job => (c.reserveSlot nodeId job).2
  | .releaseSlot jobId => c.releaseSlot jobId

/-- One call. -/
def Step (c : ClusterState) (op : Op) (c' : ClusterState) : Prop := c' = op.apply c

/-- A node without a GPU, for concrete runs. -/
def nodeOf (nodeId : NodeId) (cpus memoryMb : ℤ) : NodeRegistration where
  nodeId := nodeId
  hostname := nodeId
  agentUrl := "http://" ++ nodeId
  profile := ⟨⟨cpus, cpus, memoryMb, false, "x86_64"⟩⟩

/-- A job with the default requirements, for concrete runs. -/
def jobOf (jobId : JobId) : JobRequest where
  jobId := jobId
  image := "alpine"

/-! ### Key sets -/

/-- The tables agree on their keys. -/
structure Keyed (c : ClusterState) : Prop where
  nodeId_eq : ∀ {n reg}, c.registrations.get? n = some reg → reg.nodeId = n
  mem_runningJobs : ∀ n, n ∈ c.runningJobs ↔ n ∈ c.registrations
  mem_allocatedMemory : ∀ n, n ∈ c.allocatedMemory → n ∈ c.registrations

theorem keyed_init : Keyed {} where
  nodeId_eq := by intro n reg h; simp at h
  mem_runningJobs := by intro n; simp
  mem_allocatedMemory := by intro n h; simp at h

variable {c : ClusterState}

theorem Keyed.registerNode (h : Keyed c) (reg : NodeRegistration) :
    Keyed (c.registerNode reg) where
  nodeId_eq := by
    intro n reg' hreg
    rw [registerNode_registrations, Dict.get?_set] at hreg
    by_cases hn : n = reg.nodeId
    · rw [if_pos hn] at hreg
      obtain rfl := Option.some.inj hreg
      exact hn.symm
    · rw [if_neg hn] at hreg
      exact h.nodeId_eq hreg
  mem_runningJobs := by
    intro n
    rw [← Dict.get?_isSome_iff, registerNode_get?_runningJobs, registerNode_registrations,
      Dict.mem_set, ← h.mem_runningJobs]
    by_cases hn : n = reg.nodeId <;> by_cases hm : n ∈ c.runningJobs
    · simp [hm, Dict.get?_isSome_iff]
    · simp [hn, hn ▸ hm]
    · simp [hn, hm, Dict.get?_isSome_iff]
    · simp [hn, hm, Dict.get?_isSome_iff]
  mem_allocatedMemory := by
    intro n hn
    rw [registerNode_registrations, Dict.mem_set]
    exact Or.inr (h.mem_allocatedMemory n hn)

theorem Keyed.removeExpiredNodes (h : Keyed c) (timeout now : ℚ) :
    Keyed (c.removeExpiredNodes timeout now) where
  nodeId_eq := by
    intro n reg hreg
    rw [removeExpiredNodes_registrations, Dict.get?_popAll] at hreg
    split at hreg
    · cases hreg
    · exact h.nodeId_eq hreg
  mem_runningJobs := by
    intro n
    rw [removeExpiredNodes_runningJobs, removeExpiredNodes_registrations, Dict.mem_popAll,
      Dict.mem_popAll, h.mem_runningJobs]
  mem_allocatedMemory := by
    intro n hn
    rw [removeExpiredNodes_allocatedMemory, Dict.mem_popAll] at hn
    rw [removeExpiredNodes_registrations, Dict.mem_popAll]
    exact ⟨hn.1, h.mem_allocatedMemory n hn.2⟩

theorem Keyed.reserved (h : Keyed c) {n : NodeId} {reg : NodeRegistration}
    (hreg : c.registrations.get? n = some reg) (job : JobRequest) :
    Keyed (c.reserved n job) where
  nodeId_eq := fun hreg' => h.nodeId_eq hreg'
  mem_runningJobs := by
    intro m
    rw [reserved_runningJobs, Dict.mem_set, h.mem_runningJobs]
    constructor
    · rintro (rfl | hm)
      · exact Dict.mem_of_get? hreg
      · exact hm
    · exact Or.inr
  mem_allocatedMemory := by
    intro m hm
    rw [reserved_allocatedMemory, Dict.mem_set] at hm
    rcases hm with rfl | hm
    · exact Dict.mem_of_get? hreg
    · exact h.mem_allocatedMemory m hm

theorem Keyed.reserveSlot (h : Keyed c) (n : NodeId) (job : JobRequest) :
    Keyed (c.reserveSlot n job).2 := by
  rcases c.reserveSlot_cases n job with hr | ⟨reg, hreg, -, hr⟩
  · rw [hr]
    exact h
  · rw [hr]
    exact h.reserved hreg job

theorem Keyed.releaseSlot (h : Keyed c) (j : JobId) : Keyed (c.releaseSlot j) where
  nodeId_eq := by
    intro n reg hreg
    rw [releaseSlot_registrations] at hreg
    exact h.nodeId_eq hreg
  mem_runningJobs := by
    intro n
    rw [mem_releaseSlot_runningJobs, releaseSlot_registrations, h.mem_runningJobs]
  mem_allocatedMemory := by
    intro n hn
    rw [mem_releaseSlot_allocatedMemory] at hn
    rw [releaseSlot_registrations]
    exact h.mem_allocatedMemory n hn

theorem Keyed.apply (h : Keyed c) (op : Op) : Keyed (op.apply c) := by
  cases op with
  | registerNode reg => exact h.registerNode reg
  | registerHeartbeat hb now => exact ⟨h.nodeId_eq, h.mem_runningJobs, h.mem_allocatedMemory⟩
  | removeExpiredNodes timeout now => exact h.removeExpiredNodes timeout now
  | reserveSlot n job => exact h.reserveSlot n job
  | releaseSlot j => exact h.releaseSlot j

/-! ### Amounts held by reservations -/

/-- Every reservation holds at least one slot, and never a negative amount of
memory. -/
def Charged (c : ClusterState) : Prop :=
  ∀ j r, c.reservations.get? j = some r → 1 ≤ r.cpuRequest ∧ 0 ≤ r.memoryMb

theorem charged_init : Charged {} := by
  intro j r h
  simp at h

theorem Charged.reserved (h : Charged c) (n : NodeId) (job : JobRequest) :
    Charged (c.reserved n job) := by
  intro j r hr
  rw [reserved_reservations, Dict.get?_set] at hr
  split at hr
  · obtain rfl := Option.some.inj hr
    exact ⟨job.requirements.cpuRequest_ge, job.requirements.memoryOrZero_nonneg⟩
  · exact h j r hr

theorem Charged.reserveSlot (h : Charged c) (n : NodeId) (job : JobRequest) :
    Charged (c.reserveSlot n job).2 := by
  rcases c.reserveSlot_cases n job with hr | ⟨reg, -, -, hr⟩
  · rw [hr]
    exact h
  · rw [hr]
    exact h.reserved n job

theorem Charged.releaseSlot (h : Charged c) (j : JobId) : Charged (c.releaseSlot j) := by
  intro j' r hr
  rw [releaseSlot_reservations, Dict.get?_pop] at hr
  split at hr
  · cases hr
  · exact h j' r hr

theorem Charged.apply (h : Charged c) (op : Op) : Charged (op.apply c) := by
  cases op with
  | registerNode reg => exact h
  | registerHeartbeat hb now => exact h
  | removeExpiredNodes timeout now => exact h
  | reserveSlot n job => exact h.reserveSlot n job
  | releaseSlot j => exact h.releaseSlot j

/-! ### Counters are not negative -/

/-- No slot counter is negative. -/
def CountersNonneg (c : ClusterState) : Prop := ∀ n, 0 ≤ c.runningJobs.getD n 0

/-- No memory counter is negative. -/
def MemoryNonneg (c : ClusterState) : Prop := ∀ n, 0 ≤ c.allocatedMemory.getD n 0

section Tables

variable {d : Dict NodeId ℤ}

theorem nonneg_popAll (h : ∀ n, 0 ≤ d.getD n 0) (ns : List NodeId) (n : NodeId) :
    0 ≤ (d.popAll ns).getD n 0 := by
  rw [Dict.getD, Dict.get?_popAll]
  split
  · exact le_rfl
  · exact h n

theorem nonneg_set (h : ∀ n, 0 ≤ d.getD n 0) (m : NodeId) {a : ℤ} (ha : 0 ≤ a) (n : NodeId) :
    0 ≤ (d.set m (d.getD m 0 + a)).getD n 0 := by
  rw [Dict.getD_set]
  split
  · exact add_nonneg (h m) ha
  · exact h n

/-- What a release leaves of a counter: the source clamps at zero. -/
theorem clamped_nonneg (h : ∀ n, 0 ≤ d.getD n 0) (m : NodeId) (a : ℤ) (n : NodeId) :
    0 ≤ (if m ∈ d then d.set m (max 0 (d.getD m 0 - a)) else d).getD n 0 := by
  split
  · rw [Dict.getD_set]
    split
    · exact le_max_left _ _
    · exact h n
  · exact h n

theorem clamped_le (h : ∀ n, 0 ≤ d.getD n 0) (m : NodeId) {a : ℤ} (ha : 0 ≤ a) (n : NodeId) :
    (if m ∈ d then d.set m (max 0 (d.getD m 0 - a)) else d).getD n 0 ≤ d.getD n 0 := by
  split
  · rw [Dict.getD_set]
    split
    · next heq =>
        subst heq
        have hn := h n
        omega
    · exact le_rfl
  · exact le_rfl

end Tables

theorem CountersNonneg.apply (h : CountersNonneg c) (op : Op) : CountersNonneg (op.apply c) := by
  cases op with
  | registerNode registration =>
      intro n
      show 0 ≤ (c.registerNode registration).runningJobs.getD n 0
      rw [registerNode_getD_runningJobs]
      exact h n
  | registerHeartbeat heartbeat now => exact h
  | removeExpiredNodes timeoutSeconds now => exact nonneg_popAll h _
  | reserveSlot nodeId job =>
      show CountersNonneg (c.reserveSlot nodeId job).2
      rcases c.reserveSlot_cases nodeId job with hr | ⟨reg, -, -, hr⟩
      · rw [hr]
        exact h
      · rw [hr]
        exact nonneg_set h nodeId (by have := job.requirements.cpuRequest_ge; omega)
  | releaseSlot jobId =>
      show CountersNonneg (c.releaseSlot jobId)
      unfold releaseSlot
      rcases hr : c.reservations.get? jobId with - | r
      · exact h
      · exact clamped_nonneg h r.nodeId r.cpuRequest

theorem MemoryNonneg.apply (h : MemoryNonneg c) (op : Op) : MemoryNonneg (op.apply c) := by
  cases op with
  | registerNode registration => exact h
  | registerHeartbeat heartbeat now => exact h
  | removeExpiredNodes timeoutSeconds now => exact nonneg_popAll h _
  | reserveSlot nodeId job =>
      show MemoryNonneg (c.reserveSlot nodeId job).2
      rcases c.reserveSlot_cases nodeId job with hr | ⟨reg, -, -, hr⟩
      · rw [hr]
        exact h
      · rw [hr]
        exact nonneg_set h nodeId job.requirements.memoryOrZero_nonneg
  | releaseSlot jobId =>
      show MemoryNonneg (c.releaseSlot jobId)
      unfold releaseSlot
      rcases hr : c.reservations.get? jobId with - | r
      · exact h
      · exact clamped_nonneg h r.nodeId r.memoryMb

end ClusterState

end HeteroSched
