/-
HeteroSched/Quiescence.lean

No slot leaks: what is not under way occupies nothing.

Whatever fails (responses that are lost, nodes that expire while they run jobs,
writes that raise), a reservation belongs to a job that is being dispatched, or that an
agent has accepted and not called back (`JobFlow.SlotsUsed`), and the counters of a node
never exceed what the reservations on it hold (`ClusterState.Dominated`).  The second
needs that a job the dispatcher places holds no reservation from an earlier attempt, which
the tokens of the abstract machine say (`JobFlow.SlotsPlaced`); then a release takes at
least as much off the counter as off the reservations, and an expiry, which drops the
counter and keeps the reservations, only widens the gap.

So once there is no such job all counters are zero, and the check of `start_run` counts
nothing but the queue.  A job whose report was lost is never called back, and holds its
slot as long as the process lives (`lost_slot_kept`).
-/
import HeteroSched.Accounting
import HeteroSched.AtMostOnce
import HeteroSched.Conservation
import HeteroSched.Placement
import HeteroSched.Provenance

namespace HeteroSched

open Transition

/-! ### Counters and reservations -/

namespace ClusterState

/-- No counter exceeds what the reservations on its node hold. -/
structure Dominated (c : ClusterState) : Prop where
  charged : Charged c
  runningJobs : ∀ n, c.runningJobs.getD n 0 ≤ c.heldCpus n
  allocatedMemory : ∀ n, c.allocatedMemory.getD n 0 ≤ c.heldMemory n

/-- A job that holds a reservation is not reserved again. -/
def ReservesFree (c : ClusterState) : Op → Prop
  | .reserveSlot _ job => job.jobId ∉ c.reservations
  | _ => True

variable {c : ClusterState}

theorem dominated_init : Dominated {} where
  charged := charged_init
  runningJobs := fun _ => le_rfl
  allocatedMemory := fun _ => le_rfl

/-- A counter that is dropped counts as zero. -/
theorem getD_popAll_le {d : Dict NodeId ℤ} {ns : List NodeId} {n : NodeId} {bound : ℤ}
    (hnonneg : 0 ≤ bound) (hle : d.getD n 0 ≤ bound) : (d.popAll ns).getD n 0 ≤ bound := by
  rw [Dict.getD, Dict.get?_popAll]
  split
  · exact hnonneg
  · exact hle

theorem Dominated.reserved (h : Dominated c) (m : NodeId) {job : JobRequest}
    (hfree : job.jobId ∉ c.reservations) : Dominated (c.reserved m job) := by
  refine ⟨h.charged.reserved m job, fun n => ?_, fun n => ?_⟩
  · have hm := h.runningJobs m
    have hn := h.runningJobs n
    rw [reserved_runningJobs, Dict.getD_set, heldCpus_reserved m n hfree]
    by_cases hnm : n = m
    · subst hnm
      rw [if_pos rfl, if_pos rfl]
      omega
    · rw [if_neg hnm, if_neg (Ne.symm hnm), add_zero]
      exact hn
  · have hm := h.allocatedMemory m
    have hn := h.allocatedMemory n
    rw [reserved_allocatedMemory, Dict.getD_set, heldMemory_reserved m n hfree]
    by_cases hnm : n = m
    · subst hnm
      rw [if_pos rfl, if_pos rfl]
      omega
    · rw [if_neg hnm, if_neg (Ne.symm hnm), add_zero]
      exact hn

theorem Dominated.releaseSlot (h : Dominated c) (j : JobId) : Dominated (c.releaseSlot j) := by
  rcases hj : c.reservations.get? j with - | r
  · rw [releaseSlot_of_none hj]
    exact h
  have hcharged := h.charged.releaseSlot j
  obtain ⟨hcpu, hmemory⟩ := h.charged j r hj
  refine ⟨hcharged, fun n => ?_, fun n => ?_⟩
  · have hn := h.runningJobs n
    have hsum := heldCpus_releaseSlot hj n
    have hnonneg := hcharged.heldCpus_nonneg n
    rw [releaseSlot_getD_runningJobs hj (by omega)]
    by_cases hnode : n = r.nodeId
    · rw [if_pos hnode]
      rw [if_pos hnode.symm] at hsum
      omega
    · rw [if_neg hnode]
      rw [if_neg (Ne.symm hnode)] at hsum
      omega
  · have hn := h.allocatedMemory n
    have hsum := heldMemory_releaseSlot hj n
    have hnonneg := hcharged.heldMemory_nonneg n
    rw [releaseSlot_getD_allocatedMemory hj hmemory]
    by_cases hnode : n = r.nodeId
    · rw [if_pos hnode]
      rw [if_pos hnode.symm] at hsum
      omega
    · rw [if_neg hnode]
      rw [if_neg (Ne.symm hnode)] at hsum
      omega

theorem Dominated.apply (h : Dominated c) {op : Op} (hop : ReservesFree c op) :
    Dominated (op.apply c) := by
  cases op with
  | registerNode reg =>
      refine ⟨h.charged, fun n => ?_, h.allocatedMemory⟩
      show (c.registerNode reg).runningJobs.getD n 0 ≤ c.heldCpus n
      rw [registerNode_getD_runningJobs]
      exact h.runningJobs n
  | registerHeartbeat hb now => exact ⟨h.charged, h.runningJobs, h.allocatedMemory⟩
  | removeExpiredNodes timeout now =>
      refine ⟨h.charged, fun n => ?_, fun n => ?_⟩
      · exact getD_popAll_le (h.charged.heldCpus_nonneg n) (h.runningJobs n)
      · exact getD_popAll_le (h.charged.heldMemory_nonneg n) (h.allocatedMemory n)
  | reserveSlot n job =>
      show Dominated (c.reserveSlot n job).2
      rcases c.reserveSlot_cases n job with hr | ⟨reg, -, -, hr⟩
      · rw [hr]
        exact h
      · rw [hr]
        exact h.reserved n hop
  | releaseSlot j => exact h.releaseSlot j

/-- Without reservations no counter is above zero. -/
theorem Dominated.le_zero (h : Dominated c) (hnone : ∀ j, c.reservations.get? j = none)
    (n : NodeId) : c.runningJobs.getD n 0 ≤ 0 ∧ c.allocatedMemory.getD n 0 ≤ 0 := by
  have hno : ∀ j r, c.reservations.get? j = some r → onNode n j r = false := by
    intro j r hr
    rw [hnone j] at hr
    cases hr
  have hcpus : c.heldCpus n = 0 := held_eq_zero hno
  have hmemory : c.heldMemory n = 0 := held_eq_zero hno
  exact ⟨hcpus ▸ h.runningJobs n, hmemory ▸ h.allocatedMemory n⟩

/-- When every counter is zero, so is their total. -/
theorem runningTotal_eq_zero (h : ∀ n, c.runningJobs.getD n 0 = 0) : c.runningTotal = 0 := by
  apply List.sum_eq_zero
  intro u hu
  obtain ⟨⟨n, v⟩, he, rfl⟩ := List.mem_map.mp hu
  have hn := h n
  rwa [Dict.getD_of_get? (Dict.get?_eq_some_iff.mpr he)] at hn

end ClusterState

/-! ### The scheduler -/

namespace Scheduler

variable {P : PolicyRegistry} {cfg : Config} {s t : Scheduler P} {e : Event}

/-- Slots are held by attempts, tokens by slots, and counters by reservations. -/
structure NoLeak (s : Scheduler P) : Prop where
  tokens : JobFlow.Tokens s.flow
  used : JobFlow.SlotsUsed s.flow
  placed : JobFlow.SlotsPlaced s.flow
  dominated : ClusterState.Dominated s.cluster.tables
  sound : s.cluster.Sound

theorem noLeak_init (policy : P.Instance) (policyName : String) :
    NoLeak (init policy policyName) where
  tokens := by
    rw [flow_init]
    exact JobFlow.tokens_init
  used := by
    rw [flow_init]
    exact JobFlow.slotsUsed_init
  placed := by
    rw [flow_init]
    exact JobFlow.slotsPlaced_init
  dominated := ClusterState.dominated_init
  sound := ClusterState.sound_init

/-- A job in the dispatcher's hand holds no reservation. -/
theorem NoLeak.not_mem_of_held (h : NoLeak s) {job : JobRequest} (hd : s.dispatcher.held = some job) :
    job.jobId ∉ s.cluster.reservations := by
  have hhand : s.flow.hand = some job.jobId := by
    simp only [flow, hd, Option.map_some]
  have hnone := h.placed.slots_of_hand h.tokens hhand
  simp only [flow, Option.map_eq_none_iff] at hnone
  exact Dict.get?_eq_none_iff.mp hnone

theorem NoLeak.step (h : NoLeak s) (hf : FreshIds s e) (hs : Step cfg s e t) : NoLeak t where
  tokens := hs.flow_keeps h.tokens fun _ _ ha hg => h.tokens.step (hf.act ha) hg
  used := hs.flow_keeps h.used fun _ _ _ hg => hg.slotsUsed h.used
  placed := hs.flow_keeps h.placed fun _ _ _ hg => hg.slotsPlaced h.placed
  dominated := by
    refine hs.tables_keeps h.dominated fun o ho => h.dominated.apply ?_
    cases hs with
    | @claim job node cluster hd hr =>
        obtain rfl := Option.some.inj ho
        exact h.not_mem_of_held (by rw [hd]; rfl)
    | register _ | heartbeat _ _ | expire _ _ | release _ _ | callback _ _ _ =>
        obtain rfl := Option.some.inj ho
        trivial
    | _ => cases ho
  sound := hs.sound h.sound

theorem run_noLeak {policy : P.Instance} {policyName : String} {tr : List (Scheduler P × Event)}
    (h : Run (restrict (Step cfg) FreshIds) (init policy policyName) tr s) : NoLeak s :=
  h.invariant (noLeak_init policy policyName) fun hs h => hs.step h.1 h.2

/-- A reservation belongs to a job under way. -/
theorem NoLeak.onNode (h : NoLeak s) {j : JobId} {r : Reservation}
    (hr : s.cluster.reservations.get? j = some r) : ∃ n, s.OnNode j n := by
  have hslot : s.flow.slots j ≠ none := by
    simp [flow, hr]
  obtain ⟨n, hn⟩ := JobFlow.exists_of_times_pos (h.used j hslot)
  exact ⟨n, (onNode_iff s j n).mpr hn⟩

/-- Nothing is under way: there are no reservations. -/
theorem NoLeak.no_reservation (h : NoLeak s) (hidle : ∀ j n, ¬ s.OnNode j n) (j : JobId) :
    s.cluster.reservations.get? j = none := by
  rcases hj : s.cluster.reservations.get? j with - | r
  · rfl
  · obtain ⟨n, hn⟩ := h.onNode hj
    exact absurd hn (hidle j n)

/-- And every counter is zero. -/
theorem NoLeak.counters_zero (h : NoLeak s) (hidle : ∀ j n, ¬ s.OnNode j n) (n : NodeId) :
    s.cluster.runningJobs.getD n 0 = 0 ∧ s.cluster.allocatedMemory.getD n 0 = 0 := by
  obtain ⟨hcpus, hmemory⟩ := h.dominated.le_zero (h.no_reservation hidle) n
  exact ⟨le_antisymm hcpus (h.sound.cpus n), le_antisymm hmemory (h.sound.memory n)⟩

/-- In every run with distinct job ids, whatever is lost, fails or expires: every
reservation belongs to a job that is being dispatched, or that an agent has accepted and
not called back; every counter lies between zero and what the reservations on its node
hold; and when there is no such job there are no reservations, all counters are zero, and
`start_run` finds in flight what is in the queue. -/
theorem no_leaked_slots {policy : P.Instance} {policyName : String}
    {tr : List (Scheduler P × Event)}
    (h : Run (restrict (Step cfg) FreshIds) (init policy policyName) tr s) :
    (∀ j r, s.cluster.reservations.get? j = some r → ∃ n, s.OnNode j n) ∧
    (∀ n, (0 ≤ s.cluster.runningJobs.getD n 0 ∧
        s.cluster.runningJobs.getD n 0 ≤ s.cluster.heldCpus n) ∧
      0 ≤ s.cluster.allocatedMemory.getD n 0 ∧
        s.cluster.allocatedMemory.getD n 0 ≤ s.cluster.heldMemory n) ∧
    ((∀ j n, ¬ s.OnNode j n) →
      (∀ j, s.cluster.reservations.get? j = none) ∧
      (∀ n, s.cluster.runningJobs.getD n 0 = 0 ∧ s.cluster.allocatedMemory.getD n 0 = 0) ∧
      (s.cluster.queueSize : ℤ) + s.cluster.runningTotal = s.cluster.queueSize) := by
  have hs := run_noLeak h
  refine ⟨fun j r hr => hs.onNode hr, fun n => ?_, fun hidle => ?_⟩
  · exact ⟨⟨hs.sound.cpus n, hs.dominated.runningJobs n⟩, hs.sound.memory n,
      hs.dominated.allocatedMemory n⟩
  · have hzero := hs.counters_zero hidle
    refine ⟨hs.no_reservation hidle, hzero, ?_⟩
    rw [ClusterState.runningTotal_eq_zero fun n => (hzero n).1, add_zero]

/-! ### Lost reports -/

/-- The scheduler has handed the job over for good, and no agent that runs it can report
it; its reservation is still there. -/
structure Forgotten (j : JobId) (r : Reservation) (s : Scheduler P) : Prop where
  submitted : j ∈ s.submittedIds
  memory : j ∉ s.memoryIds
  lost : ∀ ex ∈ s.executing, ex.job.jobId = j → ex.lost = true
  reservation : s.cluster.reservations.get? j = some r

theorem Forgotten.step {j : JobId} {r : Reservation} (h : Forgotten j r s) (hf : FreshIds s e)
    (hs : Step cfg s e t) : Forgotten j r t where
  submitted := by
    obtain ⟨job, hjob, rfl⟩ := List.mem_map.mp h.submitted
    exact List.mem_map_of_mem (hs.submitted_subset hjob)
  memory := (hs.not_mem_memoryIds hf h.submitted h.memory).1
  lost := by
    rintro ex hex rfl
    rcases hs.mem_executing hex with ⟨ex', hex', hjob, -, hlost⟩ | ⟨th, hth, -, hjob, -⟩
    · exact hlost (h.lost ex' hex' (by rw [hjob]))
    · -- the thread would have the job in memory
      exact absurd (hjob ▸ mem_memoryIds_of_thread hth) h.memory
  reservation := hs.reservation_kept h.memory h.lost h.reservation

/-- A job whose reports were lost holds its slot from then on, whatever else happens. -/
theorem lost_slot_kept {j : JobId} {r : Reservation} {tr : List (Scheduler P × Event)}
    (h : Run (restrict (Step cfg) FreshIds) s tr t) (hs : Forgotten j r s) :
    t.cluster.reservations.get? j = some r :=
  (h.invariant (I := Forgotten j r) hs fun hs h => hs.step h.1 h.2).reservation

/-- A node that runs a job is silent, expires and registers again, and the job is
reported late: no counter is left. -/
theorem no_leaked_slots_expired :
    ∃ tr s, Run (restrict (Step {}) FreshIds) defaultInit tr s ∧
      s.history.calledBack = ["j"] ∧ s.cluster.runningJobs.get? "n" = some 0 ∧
      (s.cluster.queueSize : ℤ) + s.cluster.runningTotal = s.cluster.queueSize := by
  have h₀ : Run (restrict (Step {}) FreshIds) defaultInit [] defaultInit := .refl
  have h₁ := h₀.tail_restrict (.register (ClusterState.nodeOf "n" 1 64)) trivial
  have h₂ := h₁.tail_restrict (.heartbeat ⟨"n", 0⟩ 0) trivial
  have h₃ := h₂.tail_restrict (.submit (ClusterState.jobOf "j")) List.not_mem_nil
  have h₄ := h₃.tail_restrict (.dequeue rfl rfl) trivial
  have h₅ := h₄.tail_restrict (.offer rfl) trivial
  have h₆ := h₅.tail_restrict (.answer rfl) trivial
  have h₇ := h₆.tail_restrict (@Step.claim _ _ _ (ClusterState.jobOf "j") (idleView "n") _
    (by decide +kernel) (Prod.ext (by decide +kernel) rfl)) trivial
  have h₈ := h₇.tail_restrict (.spawn 0 rfl) trivial
  have h₉ := h₈.tail_restrict (@Step.accept _ _ _ _ [] _ rfl rfl) trivial
  have h₁₀ := h₉.tail_restrict (.expire 15 60) trivial
  have h₁₁ := h₁₀.tail_restrict (.register (ClusterState.nodeOf "n" 1 64)) trivial
  have h₁₂ := h₁₁.tail_restrict (@Step.callback _ _ _ (successOn "n") _ [] [] rfl rfl rfl rfl) trivial
  refine ⟨_, _, h₁₂, rfl, by decide +kernel, ((no_leaked_slots h₁₂).2.2 fun j n => ?_).2.2⟩
  rintro (hm | ⟨th, hth, hpc, -⟩ | ⟨ex, hex, -⟩)
  · exact absurd hm List.not_mem_nil
  · obtain rfl := List.mem_singleton.mp hth
    rcases hpc with hpc | hpc <;> cases hpc
  · exact absurd hex List.not_mem_nil

end Scheduler

end HeteroSched
