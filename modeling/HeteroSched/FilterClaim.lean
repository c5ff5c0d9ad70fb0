/-
HeteroSched/FilterClaim.lean

The nodes `get_available_nodes` lists and the nodes `reserve_slot` accepts, in
every state that calls of the methods of `scheduler/state.py` can lead to.

Design.  Any thread may call any method at any time (`Call`), and all of them
keep the tables consistent (`Sound`).  There the list and the reservation make
the same check on the same tables, though they find them under different keys,
so a node that was offered is reserved when nothing happens in between
(`Scheduler.not_refuseClaim_after_offer`).
-/
import HeteroSched.Placement

namespace HeteroSched

open Transition

namespace ClusterState

/-! ### Calls of any method -/

/-- A call of a method that changes the state. -/
inductive Call
  | op (op : Op)
  | enqueueJob (job : JobRequest)
  | dequeueJob
  | recordDispatchFailure (jobId : JobId)
  | forgetDispatchAttempts (jobId : JobId)

/-- What a call does. -/
def Call.apply (c : ClusterState) : Call → ClusterState
  | .op o => o.apply c
  | .enqueueJob job => c.enqueueJob job
  | .dequeueJob => c.dequeueJob.2
  | .recordDispatchFailure jobId => (c.recordDispatchFailure jobId).2
  | .forgetDispatchAttempts jobId => c.forgetDispatchAttempts jobId

/-- One call. -/
def Call.Step (c : ClusterState) (call : Call) (c' : ClusterState) : Prop := c' = call.apply c

variable {c c' : ClusterState} {job : JobRequest} {n : NodeId}

/-- The methods of the queue and of the attempts leave the tables of nodes. -/
theorem Call.tables_apply (call : Call) (h : ∀ o, call ≠ .op o) :
    (call.apply c).tables = c.tables := by
  cases call with
  | op o => exact absurd rfl (h o)
  | enqueueJob job => rfl
  | dequeueJob =>
      show c.dequeueJob.2.tables = c.tables
      unfold ClusterState.dequeueJob
      split
      · rfl
      · rfl
  | recordDispatchFailure jobId => rfl
  | forgetDispatchAttempts jobId => rfl

theorem Sound.call (h : Sound c) (call : Call) : Sound (call.apply c) := by
  by_cases hop : ∃ o, call = .op o
  · obtain ⟨o, rfl⟩ := hop
    exact h.apply o
  · rw [← sound_tables, call.tables_apply fun o heq => hop ⟨o, heq⟩, sound_tables]
    exact h

theorem sound_of_calls {tr : List (ClusterState × Call)} (h : Run Call.Step {} tr c) : Sound c := by
  refine h.invariant (I := Sound) sound_init fun {c call c'} hs hstep => ?_
  rw [show c' = call.apply c from hstep]
  exact hs.call call

/-! ### The list and the reservation -/

/-- The occupancy of a node that can take a job is a fraction: the job asks for a
core the node has left. -/
theorem Sound.slotOccupancy_mem (h : Sound c) {v : NodeView} (hv : c.getNodeView n = some v)
    (hn : c.canTake n job = true) :
    0 ≤ v.slotOccupancy ∧ v.slotOccupancy < 1 ∧
      (job.requirements.requiresGpu = true → v.profile.capabilities.gpu = true) := by
  obtain ⟨reg, hreg, hfits⟩ := canTake_iff.mp hn
  obtain ⟨hgpu, hcpu, -⟩ := (c.fits_iff reg job).mp hfits
  rw [h.keyed.nodeId_eq hreg] at hcpu
  have hone := job.requirements.cpuRequest_ge
  have hnonneg := h.cpus n
  rw [getNodeView, hreg] at hv
  obtain rfl := Option.some.inj hv
  have hmax : max 1 reg.profile.capabilities.cpus = reg.profile.capabilities.cpus :=
    max_eq_right (by omega)
  have hcpus : (0 : ℚ) < reg.profile.capabilities.cpus := by
    exact_mod_cast (show 0 < reg.profile.capabilities.cpus by omega)
  have hrunning : (0 : ℚ) ≤ c.getRunningJobs n := by exact_mod_cast hnonneg
  have hless : (c.getRunningJobs n : ℚ) < reg.profile.capabilities.cpus := by
    exact_mod_cast (show c.runningJobs.getD n 0 < reg.profile.capabilities.cpus by omega)
  simp only [hmax]
  exact ⟨div_nonneg hrunning hcpus.le, (div_lt_one hcpus).mpr hless, hgpu⟩

/-- Whatever the policy answers, the node the dispatcher goes on with is on the
list it was offered. -/
theorem canTake_of_answered {answer : Option NodeView} {node : NodeView}
    (h : Dispatcher.answered job (c.getAvailableNodes job) answer = .chosen job node) :
    c.canTake node.nodeId job = true := by
  obtain ⟨-, -, hmem⟩ := Dispatcher.of_answered_eq_chosen h
  exact (mem_getAvailableNodes.mp hmem).2

/-- **Filter and claim agree**: after any calls, the list of the nodes for a job
has, in the order of the registrations, just the nodes a reservation would
succeed on; their views are current and show a free core; a refused reservation
changes nothing; and an offered node is reserved at the first attempt, whatever
the policy. -/
theorem filter_agrees_with_claim {tr : List (ClusterState × Call)} (h : Run Call.Step {} tr c)
    (job : JobRequest) :
    ((c.getAvailableNodes job).map (fun v => v.nodeId) =
        c.registrations.keys.filter (fun n => (c.reserveSlot n job).1) ∧
      c.registrations.keys.Nodup ∧
      ∀ n, (c.reserveSlot n job).1 = true → n ∈ c.registrations) ∧
    (∀ v ∈ c.getAvailableNodes job,
      c.getNodeView v.nodeId = some v ∧ 0 ≤ v.slotOccupancy ∧ v.slotOccupancy < 1 ∧
        (job.requirements.requiresGpu = true → v.profile.capabilities.gpu = true)) ∧
    (∀ n, (c.reserveSlot n job).1 = false → (c.reserveSlot n job).2 = c) ∧
    ∀ (P : PolicyRegistry) (policy : P.Instance) node,
      Dispatcher.answered job (c.getAvailableNodes job)
          (P.selectNode policy (c.getAvailableNodes job) job).1 = .chosen job node →
        (c.reserveSlot node.nodeId job).1 = true := by
  have hs := sound_of_calls h
  simp only [reserveSlot_fst]
  refine ⟨⟨getAvailableNodes_ids c job, c.registrations.nodup_keys, fun n hn => ?_⟩,
    fun v hv => ?_, fun n hn => ?_, fun P policy node hnode => canTake_of_answered hnode⟩
  · obtain ⟨reg, hreg, -⟩ := canTake_iff.mp hn
    exact Dict.mem_of_get? hreg
  · obtain ⟨hview, htake⟩ := mem_getAvailableNodes.mp hv
    exact ⟨hview, hs.slotOccupancy_mem hview htake⟩
  · rw [reserveSlot_of_not_canTake hn]

/-- A node with two cores, one of them reserved. -/
def oneReserved : ClusterState :=
  Call.apply (Call.apply {} (.op (.registerNode (nodeOf "n" 2 64)))) (.op (.reserveSlot "n" (jobOf "a")))

theorem filter_agrees_with_claim_oneReserved :
    (oneReserved.getAvailableNodes (jobOf "b")).map (fun v => v.nodeId) =
      oneReserved.registrations.keys.filter fun n => (oneReserved.reserveSlot n (jobOf "b")).1 :=
  (filter_agrees_with_claim ((Run.refl.tail rfl).tail rfl) (jobOf "b")).1.1

end ClusterState

namespace Scheduler

variable {P : PolicyRegistry} {cfg : Config} {s s₁ s₂ s₃ : Scheduler P} {job : JobRequest}

/-- Between the list and the reservation nothing happened: the reservation is not
refused, so the loop that asks again without sleeping does not turn. -/
theorem not_refuseClaim_after_offer (hoffer : Step cfg s (.offer job) s₁)
    (hanswer : Step cfg s₁ (.answer job) s₂) {node : NodeView} :
    ¬ Step cfg s₂ (.refuseClaim job node) s₃ := by
  intro hrefuse
  cases hoffer with
  | offer hd =>
      cases hanswer with
      | answer hd₁ =>
          cases hrefuse with
          | refuseClaim hd₂ hr =>
              obtain ⟨-, rfl⟩ := Dispatcher.offered.inj hd₁
              have htake := ClusterState.canTake_of_answered hd₂
              rw [ClusterState.reserveSlot_of_canTake htake] at hr
              exact absurd (congrArg Prod.fst hr) Bool.noConfusion

end Scheduler

end HeteroSched
