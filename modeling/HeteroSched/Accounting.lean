/-
HeteroSched/Accounting.lean

What the counters of `ClusterState` mean: `running_jobs[n]` is the number of
slots, and `allocated_memory[n]` the memory, that the reservations on `n` hold.

Design.  `held own amount c` is the sum of one resource over the reservations
that satisfy `own`; how it moves under a reservation and a release is stated
once (`held_reserved`, `held_releaseSlot`) and serves both resources, and later
also the reservations of one life of a node only.

The equality is exact (`Exact`) as long as no node is removed while it holds a
reservation and no job is reserved twice at a time (`Undisturbed`): under
these two conditions on the calls, every call keeps it (`Exact.apply`).  It
follows that the clamp of `release_slot` at zero never bites, that the order of
releases does not matter, and that the counters of an idle cluster are zero.
-/
import HeteroSched.ClusterOps

namespace HeteroSched

open Transition

namespace ClusterState

/-! ### Amounts held -/

/-- The sum of `amount` over the reservations that satisfy `own`. -/
def held (own : JobId → Reservation → Bool) (amount : Reservation → ℤ) (c : ClusterState) : ℤ :=
  c.reservations.sumOn fun j r => if own j r then amount r else 0

/-- The reservations on one node. -/
def onNode (n : NodeId) : JobId → Reservation → Bool := fun _ r => r.nodeId = n

/-- The slots held on a node. -/
def heldCpus (c : ClusterState) (n : NodeId) : ℤ := c.held (onNode n) Reservation.cpuRequest

/-- The memory held on a node. -/
def heldMemory (c : ClusterState) (n : NodeId) : ℤ := c.held (onNode n) Reservation.memoryMb

variable {c : ClusterState} {own : JobId → Reservation → Bool} {amount : Reservation → ℤ}

theorem held_congr {c' : ClusterState} (h : c'.reservations = c.reservations) :
    c'.held own amount = c.held own amount := by
  rw [held, held, h]

/-- Only the value of `own` on the actual reservations matters. -/
theorem held_own_congr {own' : JobId → Reservation → Bool}
    (h : ∀ j r, c.reservations.get? j = some r → own j r = own' j r) :
    c.held own amount = c.held own' amount := by
  apply Dict.sumOn_congr
  intro e he
  rw [h e.1 e.2 (Dict.get?_eq_some_iff.mpr he)]

/-- A reservation for a new job adds what it takes. -/
theorem held_reserved (n : NodeId) {job : JobRequest} (hj : job.jobId ∉ c.reservations) :
    (c.reserved n job).held own amount
      = c.held own amount +
        (if own job.jobId ⟨n, job.requirements.cpuRequest, job.requirements.memoryOrZero⟩ then
          amount ⟨n, job.requirements.cpuRequest, job.requirements.memoryOrZero⟩ else 0) := by
  rw [held, reserved_reservations, Dict.sumOn_set _ _ hj]
  rfl

/-- A release gives back what the job's reservation held. -/
theorem held_releaseSlot {j : JobId} {r : Reservation} (h : c.reservations.get? j = some r) :
    c.held own amount
      = (c.releaseSlot j).held own amount + (if own j r then amount r else 0) := by
  rw [held, Dict.sumOn_pop _ h, held, releaseSlot_reservations]

theorem held_nonneg (h : ∀ j r, c.reservations.get? j = some r → 0 ≤ amount r) :
    0 ≤ c.held own amount := by
  apply Dict.sumOn_nonneg
  intro e he
  have hr := h e.1 e.2 (Dict.get?_eq_some_iff.mpr he)
  split
  · exact hr
  · exact le_rfl

/-- No reservation counts, nothing is held. -/
theorem held_eq_zero (h : ∀ j r, c.reservations.get? j = some r → own j r = false) :
    c.held own amount = 0 := by
  apply Dict.sumOn_eq_zero
  intro e he
  rw [h e.1 e.2 (Dict.get?_eq_some_iff.mpr he)]
  rfl

theorem Charged.heldCpus_nonneg (h : Charged c) (n : NodeId) : 0 ≤ c.heldCpus n :=
  held_nonneg fun j r hr => by have := (h j r hr).1; omega

theorem Charged.heldMemory_nonneg (h : Charged c) (n : NodeId) : 0 ≤ c.heldMemory n :=
  held_nonneg fun j r hr => (h j r hr).2

/-! ### The exact state -/

/-- The counters of the registered nodes are exactly what the reservations on
them hold, and only registered nodes are held. -/
structure Exact (c : ClusterState) : Prop where
  keyed : Keyed c
  charged : Charged c
  registered : ∀ {j r}, c.reservations.get? j = some r → r.nodeId ∈ c.registrations
  runningJobs : ∀ {n u}, c.runningJobs.get? n = some u → u = c.heldCpus n
  allocatedMemory : ∀ {n}, n ∈ c.registrations → c.allocatedMemory.getD n 0 = c.heldMemory n

theorem exact_init : Exact {} where
  keyed := keyed_init
  charged := charged_init
  registered := by intro j r h; simp at h
  runningJobs := by intro n u h; simp at h
  allocatedMemory := by intro n h; simp at h

theorem Exact.onNode_of_not_mem (h : Exact c) {n : NodeId} (hn : n ∉ c.registrations) :
    ∀ j r, c.reservations.get? j = some r → onNode n j r = false := by
  intro j r hr
  have hne : r.nodeId ≠ n := fun he => hn (he ▸ h.registered hr)
  simpa [onNode] using hne

theorem Exact.getD_runningJobs (h : Exact c) {n : NodeId} (hn : n ∈ c.registrations) :
    c.runningJobs.getD n 0 = c.heldCpus n := by
  obtain ⟨u, hu⟩ := Dict.mem_iff_get?.mp ((h.keyed.mem_runningJobs n).mpr hn)
  rw [Dict.getD_of_get? hu, h.runningJobs hu]

/-! ### Each call keeps it -/

theorem Exact.registerNode (h : Exact c) (reg : NodeRegistration) :
    Exact (c.registerNode reg) where
  keyed := h.keyed.registerNode reg
  charged := h.charged
  registered := by
    intro j r hr
    rw [registerNode_registrations, Dict.mem_set]
    exact Or.inr (h.registered hr)
  runningJobs := by
    intro n u hu
    rw [registerNode_get?_runningJobs] at hu
    show u = c.heldCpus n
    by_cases hnew : n = reg.nodeId ∧ n ∉ c.runningJobs
    · -- a node that was not registered holds nothing
      rw [if_pos hnew] at hu
      have hn : n ∉ c.registrations := fun hm => hnew.2 ((h.keyed.mem_runningJobs n).mpr hm)
      rw [← Option.some.inj hu]
      exact (held_eq_zero (h.onNode_of_not_mem hn)).symm
    · rw [if_neg hnew] at hu
      exact h.runningJobs hu
  allocatedMemory := by
    intro n hn
    show c.allocatedMemory.getD n 0 = c.heldMemory n
    by_cases hm : n ∈ c.registrations
    · exact h.allocatedMemory hm
    · have hnot : n ∉ c.allocatedMemory := fun ha => hm (h.keyed.mem_allocatedMemory n ha)
      rw [Dict.getD_of_not_mem hnot]
      exact (held_eq_zero (h.onNode_of_not_mem hm)).symm

theorem Exact.removeExpiredNodes (h : Exact c) {timeout now : ℚ}
    (hidle : ∀ j r, c.reservations.get? j = some r → r.nodeId ∉ c.expiredNodes timeout now) :
    Exact (c.removeExpiredNodes timeout now) where
  keyed := h.keyed.removeExpiredNodes timeout now
  charged := h.charged
  registered := by
    intro j r hr
    rw [removeExpiredNodes_registrations, Dict.mem_popAll]
    exact ⟨hidle j r hr, h.registered hr⟩
  runningJobs := by
    intro n u hu
    rw [removeExpiredNodes_runningJobs, Dict.get?_popAll] at hu
    split at hu
    · cases hu
    · exact h.runningJobs hu
  allocatedMemory := by
    intro n hn
    rw [removeExpiredNodes_registrations, Dict.mem_popAll] at hn
    have hget : (c.removeExpiredNodes timeout now).allocatedMemory.getD n 0
        = c.allocatedMemory.getD n 0 := by
      rw [removeExpiredNodes_allocatedMemory, Dict.getD, Dict.get?_popAll, if_neg hn.1, Dict.getD]
    rw [hget]
    exact h.allocatedMemory hn.2

theorem heldCpus_reserved (n m : NodeId) {job : JobRequest} (hj : job.jobId ∉ c.reservations) :
    (c.reserved n job).heldCpus m
      = c.heldCpus m + if n = m then job.requirements.cpuRequest else 0 := by
  unfold heldCpus
  rw [held_reserved n hj]
  simp [onNode]

theorem heldMemory_reserved (n m : NodeId) {job : JobRequest} (hj : job.jobId ∉ c.reservations) :
    (c.reserved n job).heldMemory m
      = c.heldMemory m + if n = m then job.requirements.memoryOrZero else 0 := by
  unfold heldMemory
  rw [held_reserved n hj]
  simp [onNode]

theorem Exact.reserved (h : Exact c) {n : NodeId} (hn : n ∈ c.registrations)
    {job : JobRequest} (hj : job.jobId ∉ c.reservations) : Exact (c.reserved n job) where
  keyed := by
    obtain ⟨reg, hreg⟩ := Dict.mem_iff_get?.mp hn
    exact h.keyed.reserved hreg job
  charged := h.charged.reserved n job
  registered := by
    intro j r hr
    rw [reserved_reservations, Dict.get?_set] at hr
    split at hr
    · obtain rfl := Option.some.inj hr
      exact hn
    · exact h.registered hr
  runningJobs := by
    intro m u hu
    rw [reserved_runningJobs, Dict.get?_set] at hu
    rw [heldCpus_reserved n m hj]
    by_cases hm : m = n
    · subst hm
      rw [if_pos rfl] at hu
      rw [← Option.some.inj hu, if_pos rfl, h.getD_runningJobs hn]
    · rw [if_neg hm] at hu
      rw [if_neg (Ne.symm hm), add_zero]
      exact h.runningJobs hu
  allocatedMemory := by
    intro m hm
    rw [reserved_allocatedMemory, Dict.getD_set, heldMemory_reserved n m hj]
    by_cases hmn : m = n
    · subst hmn
      rw [if_pos rfl, if_pos rfl, h.allocatedMemory hn]
    · rw [if_neg hmn, if_neg (Ne.symm hmn), add_zero]
      exact h.allocatedMemory hm

theorem heldCpus_releaseSlot {j : JobId} {r : Reservation}
    (hr : c.reservations.get? j = some r) (n : NodeId) :
    c.heldCpus n = (c.releaseSlot j).heldCpus n + if r.nodeId = n then r.cpuRequest else 0 := by
  unfold heldCpus
  rw [held_releaseSlot hr]
  simp [onNode]

theorem heldMemory_releaseSlot {j : JobId} {r : Reservation}
    (hr : c.reservations.get? j = some r) (n : NodeId) :
    c.heldMemory n = (c.releaseSlot j).heldMemory n + if r.nodeId = n then r.memoryMb else 0 := by
  unfold heldMemory
  rw [held_releaseSlot hr]
  simp [onNode]

theorem Exact.releaseSlot (h : Exact c) (j : JobId) : Exact (c.releaseSlot j) := by
  rcases hj : c.reservations.get? j with - | r
  · rw [releaseSlot_of_none hj]
    exact h
  have hcharged := h.charged.releaseSlot j
  refine ⟨h.keyed.releaseSlot j, hcharged, ?_, ?_, ?_⟩
  · intro j' r' hr'
    rw [releaseSlot_reservations, Dict.get?_pop] at hr'
    rw [releaseSlot_registrations]
    split at hr'
    · cases hr'
    · exact h.registered hr'
  · intro n u hu
    rw [releaseSlot_get?_runningJobs hj, Option.map_eq_some_iff] at hu
    obtain ⟨v, hv, rfl⟩ := hu
    have heq := h.runningJobs hv
    have hsum := heldCpus_releaseSlot hj n
    have hpos := hcharged.heldCpus_nonneg n
    by_cases hn : n = r.nodeId
    · rw [if_pos hn]
      rw [if_pos hn.symm] at hsum
      omega
    · rw [if_neg hn]
      rw [if_neg (Ne.symm hn)] at hsum
      omega
  · intro n hn
    rw [releaseSlot_registrations] at hn
    have heq := h.allocatedMemory hn
    have hsum := heldMemory_releaseSlot hj n
    have hpos := hcharged.heldMemory_nonneg n
    rw [releaseSlot_getD_allocatedMemory hj (h.charged j r hj).2]
    by_cases hnode : n = r.nodeId
    · rw [if_pos hnode]
      rw [if_pos hnode.symm] at hsum
      omega
    · rw [if_neg hnode]
      rw [if_neg (Ne.symm hnode)] at hsum
      omega

/-- The calls that leave the equality intact: a job that holds a reservation is
not reserved again, and a node that holds one does not expire. -/
def Undisturbed (c : ClusterState) : Op → Prop
  | .reserveSlot _ job => job.jobId ∉ c.reservations
  | .removeExpiredNodes timeout now =>
      ∀ j r, c.reservations.get? j = some r → r.nodeId ∉ c.expiredNodes timeout now
  | _ => True

theorem Exact.apply (h : Exact c) {op : Op} (hop : Undisturbed c op) : Exact (op.apply c) := by
  cases op with
  | registerNode reg => exact h.registerNode reg
  | registerHeartbeat hb now =>
      exact ⟨⟨h.keyed.nodeId_eq, h.keyed.mem_runningJobs, h.keyed.mem_allocatedMemory⟩,
        h.charged, h.registered, h.runningJobs, h.allocatedMemory⟩
  | removeExpiredNodes timeout now => exact h.removeExpiredNodes hop
  | reserveSlot n job =>
      show Exact (c.reserveSlot n job).2
      rcases c.reserveSlot_cases n job with hr | ⟨reg, hreg, -, hr⟩
      · rw [hr]
        exact h
      · rw [hr]
        exact h.reserved (Dict.mem_of_get? hreg) hop
  | releaseSlot j => exact h.releaseSlot j

/-! ### Releasing many jobs -/

/-- Calls of `release_slot`, one job after the other. -/
def releaseAll (c : ClusterState) (js : List JobId) : ClusterState := js.foldl releaseSlot c

theorem Exact.releaseAll (h : Exact c) (js : List JobId) : Exact (c.releaseAll js) := by
  induction js generalizing c with
  | nil => exact h
  | cons j rest ih => exact ih (h.releaseSlot j)

theorem releaseAll_registrations (js : List JobId) :
    (c.releaseAll js).registrations = c.registrations := by
  induction js generalizing c with
  | nil => rfl
  | cons j rest ih =>
      show ((c.releaseSlot j).releaseAll rest).registrations = _
      rw [ih, releaseSlot_registrations]

theorem releaseAll_reservations (js : List JobId) :
    (c.releaseAll js).reservations = c.reservations.popAll js := by
  induction js generalizing c with
  | nil => rfl
  | cons j rest ih =>
      show ((c.releaseSlot j).releaseAll rest).reservations = _
      rw [ih, releaseSlot_reservations]
      rfl

theorem mem_releaseAll_allocatedMemory (js : List JobId) (n : NodeId) :
    n ∈ (c.releaseAll js).allocatedMemory ↔ n ∈ c.allocatedMemory := by
  induction js generalizing c with
  | nil => rfl
  | cons j rest ih =>
      show n ∈ ((c.releaseSlot j).releaseAll rest).allocatedMemory ↔ _
      rw [ih, mem_releaseSlot_allocatedMemory]

/-- Two lists with the same jobs release to the same counters. -/
theorem Exact.releaseAll_counters (h : Exact c) {js js' : List JobId}
    (hjs : ∀ j, j ∈ js ↔ j ∈ js') (n : NodeId) :
    (c.releaseAll js).runningJobs.get? n = (c.releaseAll js').runningJobs.get? n ∧
    (c.releaseAll js).allocatedMemory.get? n = (c.releaseAll js').allocatedMemory.get? n := by
  have hres : (c.releaseAll js).reservations = (c.releaseAll js').reservations := by
    rw [releaseAll_reservations, releaseAll_reservations, Dict.popAll_congr hjs]
  have h₁ := h.releaseAll js
  have h₂ := h.releaseAll js'
  constructor
  · have hmem : n ∈ (c.releaseAll js).runningJobs ↔ n ∈ (c.releaseAll js').runningJobs := by
      rw [h₁.keyed.mem_runningJobs, h₂.keyed.mem_runningJobs, releaseAll_registrations,
        releaseAll_registrations]
    rcases hu : (c.releaseAll js).runningJobs.get? n with - | u
    · have hnot := mt hmem.mpr (Dict.get?_eq_none_iff.mp hu)
      rw [Dict.get?_eq_none_iff.mpr hnot]
    · obtain ⟨v, hv⟩ := Dict.mem_iff_get?.mp (hmem.mp (Dict.mem_of_get? hu))
      rw [hv, h₁.runningJobs hu, h₂.runningJobs hv]
      exact congrArg some (held_congr hres)
  · have hmem : n ∈ (c.releaseAll js).allocatedMemory ↔ n ∈ (c.releaseAll js').allocatedMemory := by
      rw [mem_releaseAll_allocatedMemory, mem_releaseAll_allocatedMemory]
    rcases hu : (c.releaseAll js).allocatedMemory.get? n with - | u
    · have hnot := mt hmem.mpr (Dict.get?_eq_none_iff.mp hu)
      rw [Dict.get?_eq_none_iff.mpr hnot]
    · obtain ⟨v, hv⟩ := Dict.mem_iff_get?.mp (hmem.mp (Dict.mem_of_get? hu))
      have hu' := h₁.allocatedMemory (h₁.keyed.mem_allocatedMemory n (Dict.mem_of_get? hu))
      have hv' := h₂.allocatedMemory (h₂.keyed.mem_allocatedMemory n (Dict.mem_of_get? hv))
      rw [Dict.getD_of_get? hu] at hu'
      rw [Dict.getD_of_get? hv] at hv'
      rw [hv, hu', hv']
      exact congrArg some (held_congr hres)

/-- The clamps of `release_slot` never change a value. -/
theorem Exact.clamp_eq (h : Exact c) {j : JobId} {r : Reservation}
    (hr : c.reservations.get? j = some r) :
    max 0 (c.runningJobs.getD r.nodeId 0 - r.cpuRequest)
      = c.runningJobs.getD r.nodeId 0 - r.cpuRequest ∧
    max 0 (c.allocatedMemory.getD r.nodeId 0 - r.memoryMb)
      = c.allocatedMemory.getD r.nodeId 0 - r.memoryMb := by
  have hreg := h.registered hr
  have hcpu := heldCpus_releaseSlot hr r.nodeId
  have hmem := heldMemory_releaseSlot hr r.nodeId
  rw [if_pos rfl] at hcpu hmem
  have hcpu' := (h.charged.releaseSlot j).heldCpus_nonneg r.nodeId
  have hmem' := (h.charged.releaseSlot j).heldMemory_nonneg r.nodeId
  rw [h.getD_runningJobs hreg, h.allocatedMemory hreg]
  constructor <;> omega

/-- Without reservations every counter is zero. -/
theorem Exact.counters_zero (h : Exact c) (hnone : ∀ j, c.reservations.get? j = none)
    (n : NodeId) :
    (∀ u, c.runningJobs.get? n = some u → u = 0) ∧
    (∀ m, c.allocatedMemory.get? n = some m → m = 0) := by
  have hno : ∀ j r, c.reservations.get? j = some r → onNode n j r = false := by
    intro j r hr
    rw [hnone j] at hr
    cases hr
  constructor
  · intro u hu
    rw [h.runningJobs hu]
    exact held_eq_zero hno
  · intro m hm
    have heq := h.allocatedMemory (h.keyed.mem_allocatedMemory n (Dict.mem_of_get? hm))
    rw [Dict.getD_of_get? hm] at heq
    rw [heq]
    exact held_eq_zero hno

/-! ### The accounting theorem -/

theorem Exact.of_run {tr : List (ClusterState × Op)} {c : ClusterState}
    (h : Run (restrict Step Undisturbed) {} tr c) : Exact c := by
  refine h.invariant exact_init ?_
  rintro c op c' hc ⟨hop, rfl⟩
  exact hc.apply hop

/-- While no job is reserved twice at a time and no node expires that holds a
reservation, the counters of every registered node are exactly the amounts its
reservations hold; so the clamps change nothing, releases commute and repeat
freely, and without reservations all counters are zero. -/
theorem counters_exact {tr : List (ClusterState × Op)} {c : ClusterState}
    (h : Run (restrict Step Undisturbed) {} tr c) :
    (∀ n ∈ c.registrations,
      c.runningJobs.get? n = some (c.heldCpus n) ∧
      c.allocatedMemory.getD n 0 = c.heldMemory n) ∧
    (∀ j r, c.reservations.get? j = some r →
      max 0 (c.runningJobs.getD r.nodeId 0 - r.cpuRequest)
        = c.runningJobs.getD r.nodeId 0 - r.cpuRequest ∧
      max 0 (c.allocatedMemory.getD r.nodeId 0 - r.memoryMb)
        = c.allocatedMemory.getD r.nodeId 0 - r.memoryMb) ∧
    (∀ js js' : List JobId, (∀ j, j ∈ js ↔ j ∈ js') → ∀ n,
      (c.releaseAll js).runningJobs.get? n = (c.releaseAll js').runningJobs.get? n ∧
      (c.releaseAll js).allocatedMemory.get? n = (c.releaseAll js').allocatedMemory.get? n) ∧
    ((∀ j, c.reservations.get? j = none) → ∀ n,
      (∀ u, c.runningJobs.get? n = some u → u = 0) ∧
      (∀ m, c.allocatedMemory.get? n = some m → m = 0)) := by
  have hc := Exact.of_run h
  refine ⟨?_, fun j r hr => hc.clamp_eq hr, fun js js' hjs n => hc.releaseAll_counters hjs n,
    fun hnone n => hc.counters_zero hnone n⟩
  intro n hn
  obtain ⟨u, hu⟩ := Dict.mem_iff_get?.mp ((hc.keyed.mem_runningJobs n).mpr hn)
  exact ⟨by rw [hu, hc.runningJobs hu], hc.allocatedMemory hn⟩

/-- The counters of a node with one reservation. -/
theorem counters_exact_reserved :
    let c := Op.apply (Op.apply {} (.registerNode (nodeOf "n" 2 64))) (.reserveSlot "n" (jobOf "j"))
    c.runningJobs.get? "n" = some (c.heldCpus "n") ∧
      c.allocatedMemory.getD "n" 0 = c.heldMemory "n" := by
  intro c
  have hfresh : (jobOf "j").jobId ∉ (Op.apply {} (.registerNode (nodeOf "n" 2 64))).reservations := by
    decide
  have hrun : Run (restrict Step Undisturbed) {} _ c :=
    .tail (e := Op.reserveSlot "n" (jobOf "j"))
      (.tail (e := Op.registerNode (nodeOf "n" 2 64)) .refl ⟨trivial, rfl⟩) ⟨hfresh, rfl⟩
  exact (counters_exact hrun).1 "n" (by decide)

end ClusterState

end HeteroSched
