/-
HeteroSched/Counters.lean

The bounds on the counters, whatever the policy does.

Every path to a reservation goes through `reserve_slot`, which looks the node up
and checks its capacity again under the lock; and no other method raises a
counter or adds one for a node that is not registered.  So for every policy,
even one that answers with nodes it was never offered, and for releases of any
job at any time, the counters of a node stay between zero and its capabilities,
and only registered nodes have counters.

The runs below interleave the loop of `select_node_for`, with an arbitrary
answer of the policy each time it is asked, with arbitrary calls of the methods
of `ClusterState`.
-/
import HeteroSched.Dispatcher
import HeteroSched.ClusterOps

namespace HeteroSched

open Transition

namespace ClusterState

/-! ### The bounds -/

/-- Counters exist for registered nodes only and lie within the capabilities,
which are not negative. -/
structure Bounded (c : ClusterState) : Prop where
  keyed : Keyed c
  charged : Charged c
  nonneg : ∀ {n reg}, c.registrations.get? n = some reg →
    0 ≤ reg.profile.capabilities.cpus ∧ 0 ≤ reg.profile.capabilities.memoryMb
  runningJobs : ∀ {n reg}, c.registrations.get? n = some reg →
    0 ≤ c.runningJobs.getD n 0 ∧ c.runningJobs.getD n 0 ≤ reg.profile.capabilities.cpus
  allocatedMemory : ∀ {n reg}, c.registrations.get? n = some reg →
    0 ≤ c.allocatedMemory.getD n 0 ∧
    c.allocatedMemory.getD n 0 ≤ reg.profile.capabilities.memoryMb

theorem bounded_init : Bounded {} where
  keyed := keyed_init
  charged := charged_init
  nonneg := by intro n reg h; simp at h
  runningJobs := by intro n reg h; simp at h
  allocatedMemory := by intro n reg h; simp at h

/-- Registrations report capabilities that are not negative, and the same ones
as before while the node is registered. -/
def CapabilitiesKept (c : ClusterState) : Op → Prop
  | .registerNode reg =>
      0 ≤ reg.profile.capabilities.cpus ∧ 0 ≤ reg.profile.capabilities.memoryMb ∧
      ∀ old ∈ c.registrations.get? reg.nodeId,
        old.profile.capabilities = reg.profile.capabilities
  | _ => True

variable {c : ClusterState}

theorem Bounded.registerNode (h : Bounded c) {reg : NodeRegistration}
    (hkept : CapabilitiesKept c (.registerNode reg)) : Bounded (c.registerNode reg) := by
  obtain ⟨hcpus, hmemory, hsame⟩ := hkept
  refine ⟨h.keyed.registerNode reg, h.charged, ?_, ?_, ?_⟩
  · intro n reg' hr
    rcases registerNode_cases hsame hr with ⟨old, ho, hcap⟩ | ⟨-, rfl⟩
    · rw [← hcap]
      exact h.nonneg ho
    · exact ⟨hcpus, hmemory⟩
  · intro n reg' hr
    rw [registerNode_getD_runningJobs]
    rcases registerNode_cases hsame hr with ⟨old, ho, hcap⟩ | ⟨hn, rfl⟩
    · rw [← hcap]
      exact h.runningJobs ho
    · rw [Dict.getD_of_not_mem (fun hm => hn ((h.keyed.mem_runningJobs n).mp hm))]
      exact ⟨le_rfl, hcpus⟩
  · intro n reg' hr
    show 0 ≤ c.allocatedMemory.getD n 0 ∧ _
    rcases registerNode_cases hsame hr with ⟨old, ho, hcap⟩ | ⟨hn, rfl⟩
    · rw [← hcap]
      exact h.allocatedMemory ho
    · rw [registerNode_allocatedMemory,
        Dict.getD_of_not_mem (fun hm => hn (h.keyed.mem_allocatedMemory n hm))]
      exact ⟨le_rfl, hmemory⟩

theorem Bounded.removeExpiredNodes (h : Bounded c) (timeout now : ℚ) :
    Bounded (c.removeExpiredNodes timeout now) := by
  refine ⟨h.keyed.removeExpiredNodes timeout now, h.charged, ?_, ?_, ?_⟩
  · intro n reg hr
    exact h.nonneg (removeExpiredNodes_cases hr).2
  · intro n reg hr
    obtain ⟨hn, hr⟩ := removeExpiredNodes_cases hr
    rw [removeExpiredNodes_runningJobs, Dict.getD, Dict.get?_popAll, if_neg hn, ← Dict.getD]
    exact h.runningJobs hr
  · intro n reg hr
    obtain ⟨hn, hr⟩ := removeExpiredNodes_cases hr
    rw [removeExpiredNodes_allocatedMemory, Dict.getD, Dict.get?_popAll, if_neg hn, ← Dict.getD]
    exact h.allocatedMemory hr

theorem Bounded.reserveSlot (h : Bounded c) (n : NodeId) (job : JobRequest) :
    Bounded (c.reserveSlot n job).2 := by
  rcases c.reserveSlot_cases n job with hr | ⟨reg, hreg, hfits, hr⟩
  · rw [hr]
    exact h
  rw [hr]
  have hid := h.keyed.nodeId_eq hreg
  obtain ⟨-, hcpu, -⟩ := (c.fits_iff reg job).mp hfits
  have hmemory := c.fits_memory hfits (hid ▸ (h.allocatedMemory hreg).2)
  rw [hid] at hcpu hmemory
  have hge := job.requirements.cpuRequest_ge
  have hmem := job.requirements.memoryOrZero_nonneg
  refine ⟨h.keyed.reserved hreg job, h.charged.reserved n job, h.nonneg, ?_, ?_⟩
  · intro m reg' hreg'
    rw [reserved_runningJobs, Dict.getD_set]
    split
    · next hm =>
        subst hm
        obtain rfl := Option.some.inj (hreg.symm.trans hreg')
        have hold := (h.runningJobs hreg).1
        exact ⟨by omega, hcpu⟩
    · exact h.runningJobs hreg'
  · intro m reg' hreg'
    rw [reserved_allocatedMemory, Dict.getD_set]
    split
    · next hm =>
        subst hm
        obtain rfl := Option.some.inj (hreg.symm.trans hreg')
        have hold := (h.allocatedMemory hreg).1
        exact ⟨by omega, hmemory⟩
    · exact h.allocatedMemory hreg'

theorem Bounded.releaseSlot (h : Bounded c) (j : JobId) : Bounded (c.releaseSlot j) := by
  rcases hj : c.reservations.get? j with - | r
  · rw [releaseSlot_of_none hj]
    exact h
  obtain ⟨hcpu, hmem⟩ := h.charged j r hj
  refine ⟨h.keyed.releaseSlot j, h.charged.releaseSlot j, ?_, ?_, ?_⟩
  · intro n reg hreg
    rw [releaseSlot_registrations] at hreg
    exact h.nonneg hreg
  · intro n reg hreg
    rw [releaseSlot_registrations] at hreg
    have hold := h.runningJobs hreg
    rw [releaseSlot_getD_runningJobs hj (by omega)]
    split <;> omega
  · intro n reg hreg
    rw [releaseSlot_registrations] at hreg
    have hold := h.allocatedMemory hreg
    rw [releaseSlot_getD_allocatedMemory hj hmem]
    split <;> omega

theorem Bounded.apply (h : Bounded c) {op : Op} (hop : CapabilitiesKept c op) :
    Bounded (op.apply c) := by
  cases op with
  | registerNode reg => exact h.registerNode hop
  | registerHeartbeat hb now =>
      exact ⟨⟨h.keyed.nodeId_eq, h.keyed.mem_runningJobs, h.keyed.mem_allocatedMemory⟩, h.charged,
        h.nonneg, h.runningJobs, h.allocatedMemory⟩
  | removeExpiredNodes timeout now => exact h.removeExpiredNodes timeout now
  | reserveSlot n job => exact h.reserveSlot n job
  | releaseSlot j => exact h.releaseSlot j

/-! ### Runs with a dispatcher -/

/-- A cluster and a thread inside `select_node_for`. -/
structure Selecting where
  cluster : ClusterState := {}
  dispatcher : Dispatcher := .idle

/-- What happens next: a call from some thread, or the next move of
`select_node_for`, where the policy's answer is arbitrary. -/
inductive SelectEvent
  | call (op : Op)
  | start (job : JobRequest)
  | offer
  | answer (node : Option NodeView)
  | reserve
  | finish

/-- One step of the system: a call by another thread, or the next one of the selection. -/
inductive SelectStep : Selecting → SelectEvent → Selecting → Prop
  | call {s : Selecting} (op : Op) : SelectStep s (.call op) { s with cluster := op.apply s.cluster }
  | start {k : ClusterState} (job : JobRequest) :
      SelectStep ⟨k, .idle⟩ (.start job) ⟨k, .asking job⟩
  | offer {k : ClusterState} {job : JobRequest} :
      SelectStep ⟨k, .asking job⟩ .offer ⟨k, .offered job (k.getAvailableNodes job)⟩
  | answer {k : ClusterState} {job : JobRequest} {available : List NodeView}
      (node : Option NodeView) :
      SelectStep ⟨k, .offered job available⟩ (.answer node) ⟨k, .answered job available node⟩
  | reserve {k : ClusterState} {job : JobRequest} {node : NodeView} :
      SelectStep ⟨k, .chosen job node⟩ .reserve
        ⟨(k.reserveSlot node.nodeId job).2, .reserved job node (k.reserveSlot node.nodeId job).1⟩
  | finish {k : ClusterState} {job : JobRequest} {node : NodeView} :
      SelectStep ⟨k, .placed job node⟩ .finish ⟨k, .idle⟩

/-- The assumption on the calls, for runs with a dispatcher. -/
def SelectKept (s : Selecting) : SelectEvent → Prop
  | .call op => CapabilitiesKept s.cluster op
  | _ => True

theorem Bounded.selectStep {s s' : Selecting} {e : SelectEvent} (h : Bounded s.cluster)
    (he : SelectKept s e) (hs : SelectStep s e s') : Bounded s'.cluster := by
  cases hs with
  | call op => exact h.apply he
  | start job => exact h
  | offer => exact h
  | answer node => exact h
  | reserve => exact h.reserveSlot _ _
  | finish => exact h

/-- In every state reached, for every policy: slot counters exist for exactly the
registered nodes and memory counters for no others, and the counters of a
registered node lie between zero and its capabilities. -/
theorem counters_bounded {tr : List (Selecting × SelectEvent)} {s : Selecting}
    (h : Run (restrict SelectStep SelectKept) {} tr s) :
    (∀ n, n ∈ s.cluster.runningJobs ↔ n ∈ s.cluster.registrations) ∧
    (∀ n, n ∈ s.cluster.allocatedMemory → n ∈ s.cluster.registrations) ∧
    ∀ n reg, s.cluster.registrations.get? n = some reg →
      (∃ u, s.cluster.runningJobs.get? n = some u ∧
        0 ≤ u ∧ u ≤ reg.profile.capabilities.cpus) ∧
      0 ≤ s.cluster.allocatedMemory.getD n 0 ∧
      s.cluster.allocatedMemory.getD n 0 ≤ reg.profile.capabilities.memoryMb := by
  have hb : Bounded s.cluster := by
    refine h.invariant (I := fun s => Bounded s.cluster) bounded_init ?_
    rintro t e u ht ⟨he, hs⟩
    exact ht.selectStep he hs
  refine ⟨hb.keyed.mem_runningJobs, hb.keyed.mem_allocatedMemory, fun n reg hreg => ?_⟩
  obtain ⟨u, hu⟩ :=
    Dict.mem_iff_get?.mp ((hb.keyed.mem_runningJobs n).mpr (Dict.mem_of_get? hreg))
  have hbound := hb.runningJobs hreg
  rw [Dict.getD_of_get? hu] at hbound
  exact ⟨⟨u, hu, hbound⟩, hb.allocatedMemory hreg⟩

/-- A policy that chooses a node it was not offered is ignored, and a release of
an unknown job does nothing. -/
theorem counters_bounded_stray_answer :
    let c := Op.apply (Op.apply {} (.registerNode (nodeOf "n" 2 64))) (.releaseSlot "x")
    (∃ u, c.runningJobs.get? "n" = some u ∧ 0 ≤ u ∧ u ≤ 2) := by
  intro c
  have hkept : CapabilitiesKept {} (.registerNode (nodeOf "n" 2 64)) :=
    ⟨by decide, by decide, fun old hold => absurd hold (by simp)⟩
  have h₁ := SelectStep.call (s := {}) (.registerNode (nodeOf "n" 2 64))
  have h₂ := SelectStep.call (s := ⟨Op.apply {} (.registerNode (nodeOf "n" 2 64)), .idle⟩)
    (.releaseSlot "x")
  have h₃ := SelectStep.start (k := c) (jobOf "j")
  have h₄ := @SelectStep.offer c (jobOf "j")
  have h₅ := @SelectStep.answer c (jobOf "j") (c.getAvailableNodes (jobOf "j"))
    (some ⟨"m", "m", "", (nodeOf "m" 1 64).profile, 0, 0, 0⟩)
  have hrefl : Run (restrict SelectStep SelectKept) {} [] {} := .refl
  have hrun := ((((hrefl.tail_restrict h₁ hkept).tail_restrict h₂ trivial).tail_restrict h₃
    trivial).tail_restrict h₄ trivial).tail_restrict h₅ trivial
  exact ((counters_bounded hrun).2.2 "n" (nodeOf "n" 2 64) (by decide)).1

end ClusterState

end HeteroSched
