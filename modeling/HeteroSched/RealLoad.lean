/-
HeteroSched/RealLoad.lean

When the books of the scheduler cover what the agents really run.

The real load of a node is what its agent has accepted and not called back for.
It stays within the node's cores because each such job still holds a reservation
on that node, because reservations are counted exactly (`Exact`, nodes do not
expire here), and because counters stay within the cores (`WithinCpus`).  The
first of these is the delicate one: `dispatch_job` releases the slot on any
exception, also when the agent runs the job.  A release of the slot of a running
job uncovers it at once, and nothing else does, so the load is covered
throughout a run exactly when no such release happens
(`load_covered_iff`).
-/
import HeteroSched.Accounting
import HeteroSched.AtMostOnce
import HeteroSched.Provenance

namespace HeteroSched

open Transition

/-! ### The counters stay within the cores -/

namespace ClusterState

/-- No node has more slots in use than cores. -/
def WithinCpus (c : ClusterState) : Prop :=
  ∀ n reg, c.registrations.get? n = some reg →
    c.runningJobs.getD n 0 ≤ reg.profile.capabilities.cpus

/-- A registration keeps the capabilities of a registered node, and does not
report a negative number of cores. -/
def CoresKept (c : ClusterState) : Op → Prop
  | .registerNode reg =>
      0 ≤ reg.profile.capabilities.cpus ∧
      ∀ old ∈ c.registrations.get? reg.nodeId,
        old.profile.capabilities = reg.profile.capabilities
  | _ => True

variable {c : ClusterState}

theorem WithinCpus.apply (h : WithinCpus c) (hc : Exact c) {op : Op} (hop : CoresKept c op) :
    WithinCpus (op.apply c) := by
  intro n reg hreg
  cases op with
  | registerNode reg₁ =>
      obtain ⟨hcpus, hsame⟩ := hop
      show (c.registerNode reg₁).runningJobs.getD n 0 ≤ _
      rw [registerNode_getD_runningJobs]
      rcases registerNode_cases hsame hreg with ⟨old, ho, hcap⟩ | ⟨hn, rfl⟩
      · rw [← hcap]
        exact h n old ho
      · rw [Dict.getD_of_not_mem (fun hm => hn ((hc.keyed.mem_runningJobs n).mp hm))]
        exact hcpus
  | registerHeartbeat hb now => exact h n reg hreg
  | removeExpiredNodes timeout now =>
      obtain ⟨hn, hreg⟩ := removeExpiredNodes_cases hreg
      show (c.removeExpiredNodes timeout now).runningJobs.getD n 0 ≤ _
      rw [removeExpiredNodes_runningJobs, Dict.getD, Dict.get?_popAll, if_neg hn, ← Dict.getD]
      exact h n reg hreg
  | reserveSlot m job =>
      show (c.reserveSlot m job).2.runningJobs.getD n 0 ≤ _
      change (c.reserveSlot m job).2.registrations.get? n = some reg at hreg
      rcases c.reserveSlot_cases m job with hr | ⟨reg', hreg', hfits, hr⟩
      · rw [hr] at hreg ⊢
        exact h n reg hreg
      · rw [hr] at hreg ⊢
        rw [reserved_runningJobs, Dict.getD_set]
        split
        · next hn =>
            -- the node was charged after the check that the job fits
            subst hn
            obtain rfl := Option.some.inj (hreg'.symm.trans hreg)
            obtain ⟨-, hcpu, -⟩ := (c.fits_iff reg' job).mp hfits
            rwa [hc.keyed.nodeId_eq hreg'] at hcpu
        · exact h n reg hreg
  | releaseSlot j =>
      show (c.releaseSlot j).runningJobs.getD n 0 ≤ _
      rw [show (Op.releaseSlot j).apply c = c.releaseSlot j from rfl,
        releaseSlot_registrations] at hreg
      have hle := h n reg hreg
      rcases hj : c.reservations.get? j with - | r
      · rw [releaseSlot_of_none hj]
        exact hle
      · have hcpu := (hc.charged j r hj).1
        have hpos := hc.charged.heldCpus_nonneg n
        rw [← hc.getD_runningJobs (Dict.mem_of_get? hreg)] at hpos
        rw [releaseSlot_getD_runningJobs hj (by omega)]
        split <;> omega

theorem withinCpus_init : WithinCpus {} := by
  intro n reg h
  simp at h

end ClusterState

namespace Scheduler

variable {P : PolicyRegistry} {cfg : Config} {s t : Scheduler P} {e : Event}

/-! ### The real load -/

/-- The cores of the jobs that the agent of a node has accepted and not called
back for. -/
def realLoad (s : Scheduler P) (n : NodeId) : ℤ :=
  (s.executing.map fun ex => if ex.nodeId = n then ex.job.requirements.cpuRequest else 0).sum

/-- The real load of every node is within its cores, and every job an agent runs
holds a reservation on the node that runs it. -/
def LoadCovered (s : Scheduler P) : Prop :=
  (∀ n reg, s.cluster.registrations.get? n = some reg →
    s.realLoad n ≤ reg.profile.capabilities.cpus) ∧
  ∀ ex ∈ s.executing, ∃ r, s.cluster.reservations.get? ex.job.jobId = some r ∧ r.nodeId = ex.nodeId

/-- No node reports a negative number of cores, and the failure branch of
`dispatch_job` releases the slot of a job only while no agent runs it. -/
def ReleasesIdle (s : Scheduler P) : Event → Prop
  | .register registration => 0 ≤ registration.profile.capabilities.cpus
  | .release t => ∀ ex ∈ s.executing, ex.job.jobId ≠ t.job.jobId
  | _ => True

/-- The runs considered: distinct ids, and nodes that stay as they are. -/
def FreshAndSteady (s : Scheduler P) (e : Event) : Prop := FreshIds s e ∧ SteadyNodes s e

/-! ### The invariant -/

/-- Running jobs hold their slots, slots are counted exactly, and counters are
within the cores. -/
structure Booked (s : Scheduler P) : Prop where
  covered : JobFlow.Covered s.flow
  exact : ClusterState.Exact s.cluster.tables
  within : ClusterState.WithinCpus s.cluster.tables
  known : Known s

theorem booked_init (policy : P.Instance) (policyName : String) :
    Booked (init policy policyName) where
  covered := by
    rw [flow_init]
    exact JobFlow.covered_init
  exact := ClusterState.exact_init
  within := ClusterState.withinCpus_init
  known := known_init policy policyName

theorem mem_running {j : JobId} {n : NodeId} :
    (j, n) ∈ s.flow.running ↔ ∃ ex ∈ s.executing, ex.job.jobId = j ∧ ex.nodeId = n := by
  simp only [flow, Multiset.mem_coe, List.mem_map, Execution.attempt, Prod.mk.injEq]

theorem ReleasesIdle.act (h : ReleasesIdle s e) {a : JobFlow.Act JobId NodeId}
    (ha : act e = some a) : JobFlow.ReleaseIdle s.flow a := by
  cases a with
  | release j n =>
      obtain ⟨th, rfl, rfl⟩ := act_eq_release ha
      intro m hm
      obtain ⟨ex, hex, hj, -⟩ := mem_running.mp hm
      exact h ex hex hj
  | _ => trivial

/-- No node expires that holds a reservation. -/
def ExpiresFree (s : Scheduler P) : Event → Prop
  | .expire timeoutSeconds now => ∀ j r, s.cluster.reservations.get? j = some r →
      r.nodeId ∉ s.cluster.expiredNodes timeoutSeconds now
  | _ => True

/-- While running jobs hold their slots, a job the dispatcher claims a slot for has none
yet. -/
theorem Step.undisturbed (h : Step cfg s e t) (hcovered : JobFlow.Covered s.flow)
    (hexpire : ExpiresFree s e) :
    ∀ o, op e = some o → ClusterState.Undisturbed s.cluster.tables o := by
  intro o ho
  cases h with
  | @claim job node cluster hd hr =>
      obtain rfl := Option.some.inj ho
      have hhand : s.flow.hand = some job.jobId := by
        simp only [Scheduler.flow, hd, Dispatcher.held, Option.map_some]
      have hnone := hcovered.slots_of_hand hhand
      simp only [Scheduler.flow, Option.map_eq_none_iff] at hnone
      exact Dict.get?_eq_none_iff.mp hnone
  | expire timeoutSeconds now =>
      obtain rfl := Option.some.inj ho
      exact hexpire
  | register _ | heartbeat _ _ | release _ _ | callback _ _ _ =>
      obtain rfl := Option.some.inj ho
      trivial
  | _ => cases ho

theorem Booked.step (h : Booked s) (hf : FreshAndSteady s e) (hc : ReleasesIdle s e)
    (hs : Step cfg s e t) : Booked t := by
  obtain ⟨hfresh, hsteady⟩ := hf
  have hexpire : ExpiresFree s e := by
    cases e with
    | expire timeoutSeconds now => exact fun j r hr => hsteady r.nodeId (h.exact.registered hr)
    | _ => trivial
  have hundisturbed := hs.undisturbed h.covered hexpire
  have hkept : ∀ o, op e = some o → ClusterState.CoresKept s.cluster.tables o := by
    intro o ho
    cases e with
    | register registration =>
        obtain rfl := Option.some.inj ho
        exact ⟨hc, hsteady⟩
    | heartbeat _ _ | expire _ _ | claim _ _ | release _ | callback _ =>
        obtain rfl := Option.some.inj ho
        trivial
    | _ => cases ho
  refine ⟨hs.flow_keeps h.covered fun a g ha hg =>
    h.covered.step (hfresh.act ha) (hc.act ha) hg, ?_, ?_, h.known.step hs⟩
  · exact hs.tables_keeps h.exact fun o ho => h.exact.apply (hundisturbed o ho)
  · exact hs.tables_keeps h.within fun o ho => h.within.apply h.exact (hkept o ho)

/-! ### What it says about the load -/

theorem Booked.reservation (h : Booked s) {ex : Execution} (hex : ex ∈ s.executing) :
    ∃ r, s.cluster.reservations.get? ex.job.jobId = some r ∧ r.nodeId = ex.nodeId ∧
      r.cpuRequest = ex.job.requirements.cpuRequest := by
  have hslot := h.covered.running ex.job.jobId ex.nodeId (mem_running.mpr ⟨ex, hex, rfl, rfl⟩)
  simp only [flow, Option.map_eq_some_iff] at hslot
  obtain ⟨r, hr, hnode⟩ := hslot
  -- the job with this id is the one that was submitted with it
  obtain ⟨job, hsub, hj, hcpu, -⟩ := h.known.reservations _ r hr
  have hnodup : (s.history.submitted.map fun job => job.jobId).Nodup := by
    rw [List.nodup_iff_count_le_one]
    intro j
    simpa only [flow, Multiset.coe_count, submittedIds] using h.covered.tokens.submitted_le j
  have hsame := List.inj_on_of_nodup_map hnodup hsub (h.known.inFlight.executing ex hex) hj
  exact ⟨r, hr, hnode, by rw [hcpu, hsame]⟩

theorem Booked.loadCovered (h : Booked s) : LoadCovered s := by
  refine ⟨fun n reg hreg => ?_, fun ex hex => ?_⟩
  · have hnodup : (s.executing.map fun ex => ex.job.jobId).Nodup := by
      rw [List.nodup_iff_count_le_one]
      intro j
      have halone := h.covered.alone_le j
      have htimes : JobFlow.times s.flow.running j
          = (s.executing.map fun ex => ex.job.jobId).count j := by
        simp only [flow, JobFlow.times, Multiset.map_coe, List.map_map, Multiset.coe_count]
        rfl
      omega
    have hle : s.realLoad n ≤ s.cluster.heldCpus n := by
      unfold realLoad ClusterState.heldCpus ClusterState.held
      refine Dict.sum_le_sumOn (fun e he => ?_) hnodup fun ex hex => ?_
      · have hcharged := (h.exact.charged e.1 e.2 (Dict.get?_eq_some_iff.mpr he)).1
        split <;> omega
      · obtain ⟨r, hr, hnode, hcpu⟩ := h.reservation hex
        exact ⟨r, hr, by simp [ClusterState.onNode, hnode, hcpu]⟩
    have hheld := h.exact.getD_runningJobs (Dict.mem_of_get? hreg)
    have hwithin := h.within n reg hreg
    rw [hheld] at hwithin
    exact hle.trans hwithin
  · obtain ⟨r, hr, hnode, -⟩ := h.reservation hex
    exact ⟨r, hr, hnode⟩

theorem realLoad_nonneg (s : Scheduler P) (n : NodeId) : 0 ≤ s.realLoad n := by
  apply List.sum_nonneg
  intro x hx
  obtain ⟨ex, -, rfl⟩ := List.mem_map.mp hx
  have hcpu := ex.job.requirements.cpuRequest_ge
  split <;> omega

/-- In a covered state every running job holds its slot. -/
theorem LoadCovered.slots (h : LoadCovered s) {j : JobId} {n : NodeId}
    (hm : (j, n) ∈ s.flow.running) : s.flow.slots j = some n := by
  obtain ⟨ex, hex, rfl, rfl⟩ := mem_running.mp hm
  obtain ⟨r, hr, hnode⟩ := h.2 ex hex
  simp only [flow, hr, Option.map_some, hnode]

/-- A step into a covered state released no slot of a running job and registered
no negative number of cores. -/
theorem Step.releasesIdle (hs : Step cfg s e t) (ht : LoadCovered t) : ReleasesIdle s e := by
  have hflow := hs.flow
  cases hs with
  | register registration =>
      have hreg : (s.cluster.registerNode registration).registrations.get? registration.nodeId
          = some registration := Dict.get?_set_self _ _ _
      exact (realLoad_nonneg _ _).trans (ht.1 registration.nodeId registration hreg)
  | release hth hpc =>
      intro ex hex heq
      have hidle := JobFlow.Step.releaseIdle hflow fun j n hm => ht.slots hm
      exact hidle ex.nodeId (mem_running.mpr ⟨ex, hex, heq, rfl⟩)
  | _ => trivial

/-- In every run with distinct ids and nodes that do not expire or change, what
the agents run is within every node's cores and covered by reservations in every
state, exactly when no node reports a negative number of cores and the failure
branch never releases the slot of a job that an agent is running. -/
theorem load_covered_iff {policy : P.Instance} {policyName : String}
    {tr : List (Scheduler P × Event)}
    (h : Run (restrict (Step cfg) FreshAndSteady) (init policy policyName) tr s) :
    Throughout LoadCovered tr s ↔ ∀ p ∈ tr, ReleasesIdle p.1 p.2 := by
  refine h.always_iff (I := Booked) (booked_init policy policyName) Booked.loadCovered ?_ ?_
  · rintro s e t hs hidle ⟨hf, hstep⟩
    exact hs.step hf hidle hstep
  · rintro s e t hs ⟨-, hstep⟩ ht
    exact hstep.releasesIdle ht

/-- A job whose response is lost runs on a node that holds no reservation for
it. -/
theorem load_uncovered :
    ∃ tr s, Run (restrict (Step {}) FreshAndSteady) defaultInit tr s ∧ ¬ LoadCovered s := by
  obtain ⟨tr, s, hrun, -, hexecuting, -, -, hreservation, -⟩ := lost_response_run
  refine ⟨tr, s, hrun.mono fun h => ⟨h.1, h.2.1⟩, fun hcovered => ?_⟩
  obtain ⟨r, hr, hnode⟩ := hcovered.2 ⟨ClusterState.jobOf "j", "n", false⟩ (by rw [hexecuting]; simp)
  obtain rfl := Option.some.inj (hreservation.symm.trans hr)
  exact absurd hnode (by decide)

/-- A node with one core that runs one job is covered. -/
theorem load_covered_running :
    ∃ tr s, Run (restrict (Step {}) FreshAndSteady) defaultInit tr s ∧
      s.executing = [⟨ClusterState.jobOf "j", "n", false⟩] ∧ Throughout LoadCovered tr s := by
  have h₀ : Run (restrict (Step {}) fun s e => FreshAndSteady s e ∧ ReleasesIdle s e)
    defaultInit [] defaultInit := .refl
  have h₁ := h₀.tail_restrict (.register (ClusterState.nodeOf "n" 1 64))
    ⟨⟨trivial, nofun⟩, show (0 : ℤ) ≤ 1 by decide⟩
  have h₂ := h₁.tail_restrict (.submit (ClusterState.jobOf "j"))
    ⟨⟨List.not_mem_nil, trivial⟩, trivial⟩
  have h₃ := h₂.tail_restrict (.dequeue rfl rfl) ⟨⟨trivial, trivial⟩, trivial⟩
  have h₄ := h₃.tail_restrict (.offer rfl) ⟨⟨trivial, trivial⟩, trivial⟩
  have h₅ := h₄.tail_restrict (.answer rfl) ⟨⟨trivial, trivial⟩, trivial⟩
  have h₆ := h₅.tail_restrict (@Step.claim _ _ _ (ClusterState.jobOf "j") (idleView "n") _
    (by decide +kernel) (Prod.ext (by decide +kernel) rfl)) ⟨⟨trivial, trivial⟩, trivial⟩
  have h₇ := h₆.tail_restrict (.spawn 0 rfl) ⟨⟨trivial, trivial⟩, trivial⟩
  have h₈ := h₇.tail_restrict (@Step.accept _ _ _ _ [] _ rfl rfl) ⟨⟨trivial, trivial⟩, trivial⟩
  obtain ⟨-, hA⟩ := h₈.of_restrict
  exact ⟨_, _, h₈.mono And.left, rfl,
    (load_covered_iff (h₈.mono And.left)).mpr fun p hp => (hA p hp).2⟩

end Scheduler

end HeteroSched
