/-
HeteroSched/StaleRelease.lean

Reservations across the expiry of a node.

Expiry drops a node's counters and keeps the reservations of its jobs.  If the
node registers again, its counters start from zero, but a release of a job from
before the expiry still subtracts from them: they then count less than the
reservations made since, and the node can be oversubscribed.

Design.  `Tracked` adds to the state the one thing that tells old reservations
from new ones: how often each node has been removed, and how often the node of a
job had been removed when the job was reserved.  A reservation is `current` when
the two agree.  Along the runs whose releases are all `Harmless` the counters
equal the amounts held by current reservations (`Fresh`), hence the current
reservations fit the node; and a release that is not harmless leaves the
counters below what the current reservations hold.  The two directions make
the characterisation of `no_oversubscription_iff`.
-/
import HeteroSched.Accounting

namespace HeteroSched

open Transition

namespace ClusterState

/-! ### States with the history of removals -/

/-- The state, how often each node was removed by expiry, and for each job how
often the node it was placed on had been removed when it was placed. -/
structure Tracked where
  cluster : ClusterState
  removals : NodeId → ℕ
  reservedAt : JobId → ℕ

namespace Tracked

/-- The empty cluster. -/
def init : Tracked := ⟨{}, fun _ => 0, fun _ => 0⟩

/-- A call, with the bookkeeping of removals and reservations. -/
def apply (t : Tracked) (op : Op) : Tracked where
  cluster := op.apply t.cluster
  removals := match op with
    | .removeExpiredNodes timeout now =>
        fun n => if n ∈ t.cluster.expiredNodes timeout now then t.removals n + 1 else t.removals n
    | _ => t.removals
  reservedAt := match op with
    | .reserveSlot nodeId job =>
        if (t.cluster.reserveSlot nodeId job).1 then
          Function.update t.reservedAt job.jobId (t.removals nodeId)
        else t.reservedAt
    | _ => t.reservedAt

/-- One call. -/
def Step (t : Tracked) (op : Op) (t' : Tracked) : Prop := t' = t.apply op

/-- The reservation was made since its node was last removed. -/
def current (t : Tracked) (j : JobId) (r : Reservation) : Bool :=
  t.reservedAt j = t.removals r.nodeId

/-- The current reservations on one node. -/
def currentOn (t : Tracked) (n : NodeId) : JobId → Reservation → Bool :=
  fun j r => t.current j r && onNode n j r

/-- The cores that current reservations hold on a node. -/
def currentCpus (t : Tracked) (n : NodeId) : ℤ :=
  t.cluster.held (t.currentOn n) Reservation.cpuRequest

/-- The memory that current reservations hold on a node. -/
def currentMemory (t : Tracked) (n : NodeId) : ℤ :=
  t.cluster.held (t.currentOn n) Reservation.memoryMb

/-- No registered node is oversubscribed by its current reservations, and its
counters count all of them. -/
def Safe (t : Tracked) : Prop :=
  ∀ n reg, t.cluster.registrations.get? n = some reg →
    t.currentCpus n ≤ reg.profile.capabilities.cpus ∧
    t.currentMemory n ≤ reg.profile.capabilities.memoryMb ∧
    t.currentCpus n ≤ t.cluster.runningJobs.getD n 0 ∧
    t.currentMemory n ≤ t.cluster.allocatedMemory.getD n 0

/-- The calls of a run: a node id always reports the same capabilities, and a
job holds at most one reservation at a time. -/
def Valid (capabilities : NodeId → NodeCapabilities) (t : Tracked) : Op → Prop
  | .registerNode reg => reg.profile.capabilities = capabilities reg.nodeId
  | .reserveSlot _ job => job.jobId ∉ t.cluster.reservations
  | _ => True

/-- The calls that do no harm: a node reports no negative capacity, and a job
reserved before its node was last removed is released only while the node is
gone or has no slot in use. -/
def Harmless (t : Tracked) : Op → Prop
  | .registerNode reg =>
      0 ≤ reg.profile.capabilities.cpus ∧ 0 ≤ reg.profile.capabilities.memoryMb
  | .releaseSlot j => ∀ r ∈ t.cluster.reservations.get? j, t.current j r = false →
      t.cluster.runningJobs.getD r.nodeId 0 = 0
  | _ => True

instance (capabilities : NodeId → NodeCapabilities) (t : Tracked) :
    DecidablePred (Valid capabilities t)
  | .registerNode _ => inferInstanceAs (Decidable (_ = _))
  | .reserveSlot _ _ => inferInstanceAs (Decidable (_ ∉ _))
  | .registerHeartbeat _ _ => .isTrue trivial
  | .removeExpiredNodes _ _ => .isTrue trivial
  | .releaseSlot _ => .isTrue trivial

/-! ### The invariant of harmless runs -/

/-- The counters are exactly what the current reservations hold, and within the
capabilities of the node. -/
structure Fresh (capabilities : NodeId → NodeCapabilities) (t : Tracked) : Prop where
  keyed : Keyed t.cluster
  charged : Charged t.cluster
  capabilities_eq : ∀ {n reg}, t.cluster.registrations.get? n = some reg →
    reg.profile.capabilities = capabilities n
  /-- a reservation on an unregistered node is not current -/
  current_registered : ∀ {j r}, t.cluster.reservations.get? j = some r → t.current j r = true →
    r.nodeId ∈ t.cluster.registrations
  reservedAt_le : ∀ {j r}, t.cluster.reservations.get? j = some r →
    t.reservedAt j ≤ t.removals r.nodeId
  runningJobs : ∀ {n}, n ∈ t.cluster.registrations →
    t.cluster.runningJobs.getD n 0 = t.currentCpus n
  allocatedMemory : ∀ {n}, n ∈ t.cluster.registrations →
    t.cluster.allocatedMemory.getD n 0 = t.currentMemory n
  cpus_le : ∀ {n}, n ∈ t.cluster.registrations → t.currentCpus n ≤ (capabilities n).cpus
  memory_le : ∀ {n}, n ∈ t.cluster.registrations → t.currentMemory n ≤ (capabilities n).memoryMb

variable {capabilities : NodeId → NodeCapabilities} {t : Tracked}

theorem fresh_init : Fresh capabilities init where
  keyed := keyed_init
  charged := charged_init
  capabilities_eq := by intro n reg h; simp [init] at h
  current_registered := by intro j r h; simp [init] at h
  reservedAt_le := by intro j r h; simp [init] at h
  runningJobs := by intro n h; simp [init] at h
  allocatedMemory := by intro n h; simp [init] at h
  cpus_le := by intro n h; simp [init] at h
  memory_le := by intro n h; simp [init] at h

theorem Fresh.safe (h : Fresh capabilities t) : t.Safe := by
  intro n reg hreg
  have hn := Dict.mem_of_get? hreg
  rw [h.capabilities_eq hreg, h.runningJobs hn, h.allocatedMemory hn]
  exact ⟨h.cpus_le hn, h.memory_le hn, le_rfl, le_rfl⟩

theorem currentCpus_nonneg (h : Charged t.cluster) (n : NodeId) : 0 ≤ t.currentCpus n := by
  refine held_nonneg fun j r hr => ?_
  have hcpu := (h j r hr).1
  omega

theorem currentMemory_nonneg (h : Charged t.cluster) (n : NodeId) : 0 ≤ t.currentMemory n :=
  held_nonneg fun j r hr => (h j r hr).2

/-- A node that is not registered holds no current reservation. -/
theorem Fresh.currentOn_of_not_mem (h : Fresh capabilities t) {n : NodeId}
    (hn : n ∉ t.cluster.registrations) {j : JobId} {r : Reservation}
    (hr : t.cluster.reservations.get? j = some r) : t.currentOn n j r = false := by
  rw [currentOn, Bool.and_eq_false_iff]
  by_cases hc : t.current j r = true
  · right
    have hne : r.nodeId ≠ n := fun he => hn (he ▸ h.current_registered hr hc)
    simpa [onNode] using hne
  · left
    simpa using hc

theorem Fresh.current_of_not_mem (h : Fresh capabilities t) {n : NodeId}
    (hn : n ∉ t.cluster.registrations) : t.currentCpus n = 0 ∧ t.currentMemory n = 0 :=
  ⟨held_eq_zero fun _ _ hr => h.currentOn_of_not_mem hn hr,
    held_eq_zero fun _ _ hr => h.currentOn_of_not_mem hn hr⟩

/-- Where no slot is held, no memory is. -/
theorem Fresh.currentMemory_eq_zero (h : Fresh capabilities t) {n : NodeId}
    (hzero : t.currentCpus n = 0) : t.currentMemory n = 0 := by
  apply held_eq_zero
  intro j r hr
  by_contra hown
  rw [Bool.not_eq_false] at hown
  have hcpu := (h.charged j r hr).1
  have hle : (if t.currentOn n j r then r.cpuRequest else 0) ≤ t.currentCpus n := by
    refine Dict.le_sumOn (f := fun j r => if t.currentOn n j r then r.cpuRequest else 0) ?_ hr
    intro e he
    have := (h.charged e.1 e.2 (Dict.get?_eq_some_iff.mpr he)).1
    split <;> omega
  rw [if_pos hown] at hle
  omega

/-! ### Harmless calls keep it -/

theorem Fresh.registerNode (h : Fresh capabilities t) {reg : NodeRegistration}
    (hv : reg.profile.capabilities = capabilities reg.nodeId)
    (hcpus : 0 ≤ reg.profile.capabilities.cpus)
    (hmemory : 0 ≤ reg.profile.capabilities.memoryMb) :
    Fresh capabilities (t.apply (.registerNode reg)) := by
  -- a node that was not registered starts with nothing held
  have hnew := fun {n} => h.current_of_not_mem (n := n)
  have hmem : ∀ {n}, n ∈ (t.cluster.registerNode reg).registrations →
      n ∈ t.cluster.registrations ∨ (n = reg.nodeId ∧ n ∉ t.cluster.registrations) := by
    intro n hn
    rw [registerNode_registrations, Dict.mem_set] at hn
    by_cases hold : n ∈ t.cluster.registrations
    · exact Or.inl hold
    · exact Or.inr ⟨hn.resolve_right hold, hold⟩
  refine ⟨h.keyed.registerNode reg, h.charged, ?_, ?_, h.reservedAt_le, ?_, ?_, ?_, ?_⟩
  · intro n reg' hreg
    show reg'.profile.capabilities = capabilities n
    have hreg' : (t.cluster.registrations.set reg.nodeId reg).get? n = some reg' := hreg
    rw [Dict.get?_set] at hreg'
    split at hreg'
    · next hn =>
        obtain rfl := Option.some.inj hreg'
        rw [hv, hn]
    · exact h.capabilities_eq hreg'
  · intro j r hr hc
    show r.nodeId ∈ (t.cluster.registerNode reg).registrations
    rw [registerNode_registrations, Dict.mem_set]
    exact Or.inr (h.current_registered hr hc)
  · intro n hn
    show (t.cluster.registerNode reg).runningJobs.getD n 0 = t.currentCpus n
    rw [registerNode_getD_runningJobs]
    rcases hmem hn with hold | ⟨-, hold⟩
    · exact h.runningJobs hold
    · have hnot : n ∉ t.cluster.runningJobs := fun hm => hold ((h.keyed.mem_runningJobs n).mp hm)
      rw [Dict.getD_of_not_mem hnot, (hnew hold).1]
  · intro n hn
    show t.cluster.allocatedMemory.getD n 0 = t.currentMemory n
    rcases hmem hn with hold | ⟨-, hold⟩
    · exact h.allocatedMemory hold
    · have hnot : n ∉ t.cluster.allocatedMemory :=
        fun hm => hold (h.keyed.mem_allocatedMemory n hm)
      rw [Dict.getD_of_not_mem hnot, (hnew hold).2]
  · intro n hn
    show t.currentCpus n ≤ (capabilities n).cpus
    rcases hmem hn with hold | ⟨rfl, hold⟩
    · exact h.cpus_le hold
    · rw [(hnew hold).1, ← hv]
      exact hcpus
  · intro n hn
    show t.currentMemory n ≤ (capabilities n).memoryMb
    rcases hmem hn with hold | ⟨rfl, hold⟩
    · exact h.memory_le hold
    · rw [(hnew hold).2, ← hv]
      exact hmemory

section Expiry

variable {timeout now : ℚ} {n : NodeId}

/-- On the nodes that stay, expiry changes no reservation. -/
theorem current_removeExpiredNodes {j : JobId} {r : Reservation}
    (hn : r.nodeId ∉ t.cluster.expiredNodes timeout now) :
    (t.apply (.removeExpiredNodes timeout now)).current j r = t.current j r := by
  unfold current
  rw [show (t.apply (.removeExpiredNodes timeout now)).removals r.nodeId = t.removals r.nodeId
    from if_neg hn]
  rfl

theorem currentOn_removeExpiredNodes (hn : n ∉ t.cluster.expiredNodes timeout now) :
    (t.apply (.removeExpiredNodes timeout now)).currentOn n = t.currentOn n := by
  funext j r
  by_cases hr : r.nodeId = n
  · rw [currentOn, currentOn, current_removeExpiredNodes (hr ▸ hn)]
  · simp [currentOn, onNode, hr]

theorem held_removeExpiredNodes (amount : Reservation → ℤ)
    (hn : n ∉ t.cluster.expiredNodes timeout now) :
    (t.apply (.removeExpiredNodes timeout now)).cluster.held
        ((t.apply (.removeExpiredNodes timeout now)).currentOn n) amount
      = t.cluster.held (t.currentOn n) amount := by
  rw [currentOn_removeExpiredNodes hn]
  rfl

theorem currentCpus_removeExpiredNodes (hn : n ∉ t.cluster.expiredNodes timeout now) :
    (t.apply (.removeExpiredNodes timeout now)).currentCpus n = t.currentCpus n :=
  held_removeExpiredNodes Reservation.cpuRequest hn

theorem currentMemory_removeExpiredNodes (hn : n ∉ t.cluster.expiredNodes timeout now) :
    (t.apply (.removeExpiredNodes timeout now)).currentMemory n = t.currentMemory n :=
  held_removeExpiredNodes Reservation.memoryMb hn

/-- On a removed node every reservation becomes old: the count of removals moves
past it. -/
theorem current_removed {j : JobId} {r : Reservation} (hle : t.reservedAt j ≤ t.removals r.nodeId)
    (hn : r.nodeId ∈ t.cluster.expiredNodes timeout now) :
    (t.apply (.removeExpiredNodes timeout now)).current j r = false := by
  unfold current
  rw [show (t.apply (.removeExpiredNodes timeout now)).removals r.nodeId
    = t.removals r.nodeId + 1 from if_pos hn]
  refine decide_eq_false fun heq => ?_
  have hold : t.reservedAt j = t.removals r.nodeId + 1 := heq
  omega

theorem mem_removeExpiredNodes :
    n ∈ (t.cluster.removeExpiredNodes timeout now).registrations ↔
      n ∉ t.cluster.expiredNodes timeout now ∧ n ∈ t.cluster.registrations := by
  rw [removeExpiredNodes_registrations, Dict.mem_popAll]

end Expiry

theorem Fresh.removeExpiredNodes (h : Fresh capabilities t) (timeout now : ℚ) :
    Fresh capabilities (t.apply (.removeExpiredNodes timeout now)) := by
  refine ⟨h.keyed.removeExpiredNodes timeout now, h.charged, ?_, ?_, ?_, ?_, ?_, ?_, ?_⟩
  · intro n reg hreg
    rw [show (t.apply (.removeExpiredNodes timeout now)).cluster.registrations
      = t.cluster.registrations.popAll (t.cluster.expiredNodes timeout now) from rfl,
      Dict.get?_popAll] at hreg
    split at hreg
    · cases hreg
    · exact h.capabilities_eq hreg
  · intro j r hr hc
    have hr' : t.cluster.reservations.get? j = some r := hr
    refine mem_removeExpiredNodes.mpr ?_
    by_cases hn : r.nodeId ∈ t.cluster.expiredNodes timeout now
    · rw [current_removed (h.reservedAt_le hr') hn] at hc
      cases hc
    · rw [current_removeExpiredNodes hn] at hc
      exact ⟨hn, h.current_registered hr' hc⟩
  · intro j r hr
    have hle := h.reservedAt_le (show t.cluster.reservations.get? j = some r from hr)
    show t.reservedAt j ≤ if r.nodeId ∈ t.cluster.expiredNodes timeout now
      then t.removals r.nodeId + 1 else t.removals r.nodeId
    split <;> omega
  · intro n hn
    obtain ⟨hnot, hold⟩ := mem_removeExpiredNodes.mp hn
    rw [currentCpus_removeExpiredNodes hnot, ← h.runningJobs hold]
    show (t.cluster.runningJobs.popAll _).getD n 0 = _
    rw [Dict.getD, Dict.get?_popAll, if_neg hnot, Dict.getD]
  · intro n hn
    obtain ⟨hnot, hold⟩ := mem_removeExpiredNodes.mp hn
    rw [currentMemory_removeExpiredNodes hnot, ← h.allocatedMemory hold]
    show (t.cluster.allocatedMemory.popAll _).getD n 0 = _
    rw [Dict.getD, Dict.get?_popAll, if_neg hnot, Dict.getD]
  · intro n hn
    obtain ⟨hnot, hold⟩ := mem_removeExpiredNodes.mp hn
    rw [currentCpus_removeExpiredNodes hnot]
    exact h.cpus_le hold
  · intro n hn
    obtain ⟨hnot, hold⟩ := mem_removeExpiredNodes.mp hn
    rw [currentMemory_removeExpiredNodes hnot]
    exact h.memory_le hold

section Reservation

variable {n : NodeId} {job : JobRequest}

theorem apply_reserved (hok : t.cluster.reserveSlot n job = (true, t.cluster.reserved n job)) :
    (t.apply (.reserveSlot n job)).cluster = t.cluster.reserved n job ∧
      (t.apply (.reserveSlot n job)).reservedAt
        = Function.update t.reservedAt job.jobId (t.removals n) := by
  constructor
  · show (t.cluster.reserveSlot n job).2 = _
    rw [hok]
  · show (if (t.cluster.reserveSlot n job).1 then _ else _) = _
    rw [hok, if_pos rfl]

/-- The bookkeeping of a successful reservation: the new reservation is current,
the others stay what they were. -/
theorem currentOn_reserved (hj : job.jobId ∉ t.cluster.reservations)
    (hok : t.cluster.reserveSlot n job = (true, t.cluster.reserved n job)) (m : NodeId) :
    (∀ j r, t.cluster.reservations.get? j = some r →
      (t.apply (.reserveSlot n job)).currentOn m j r = t.currentOn m j r) ∧
    ∀ r : Reservation, r.nodeId = n →
      (t.apply (.reserveSlot n job)).currentOn m job.jobId r = decide (n = m) := by
  constructor
  · intro j r hr
    have hne : j ≠ job.jobId := fun he => hj (he ▸ Dict.mem_of_get? hr)
    unfold currentOn current
    rw [(apply_reserved hok).2, Function.update_of_ne hne]
    rfl
  · intro r hr
    unfold currentOn current
    rw [(apply_reserved hok).2, Function.update_self, hr]
    simp [onNode, apply, hr]

theorem held_reserveSlot (amount : Reservation → ℤ) (hj : job.jobId ∉ t.cluster.reservations)
    (hok : t.cluster.reserveSlot n job = (true, t.cluster.reserved n job)) (m : NodeId) :
    (t.apply (.reserveSlot n job)).cluster.held ((t.apply (.reserveSlot n job)).currentOn m) amount
      = t.cluster.held (t.currentOn m) amount + if n = m then
          amount ⟨n, job.requirements.cpuRequest, job.requirements.memoryOrZero⟩ else 0 := by
  obtain ⟨hold, hnew⟩ := currentOn_reserved hj hok m
  rw [(apply_reserved hok).1, held_reserved n hj, held_own_congr hold, hnew _ rfl]
  simp only [decide_eq_true_eq]

theorem currentCpus_reserved (hj : job.jobId ∉ t.cluster.reservations)
    (hok : t.cluster.reserveSlot n job = (true, t.cluster.reserved n job)) (m : NodeId) :
    (t.apply (.reserveSlot n job)).currentCpus m
      = t.currentCpus m + if n = m then job.requirements.cpuRequest else 0 :=
  held_reserveSlot Reservation.cpuRequest hj hok m

theorem currentMemory_reserved (hj : job.jobId ∉ t.cluster.reservations)
    (hok : t.cluster.reserveSlot n job = (true, t.cluster.reserved n job)) (m : NodeId) :
    (t.apply (.reserveSlot n job)).currentMemory m
      = t.currentMemory m + if n = m then job.requirements.memoryOrZero else 0 :=
  held_reserveSlot Reservation.memoryMb hj hok m

end Reservation

theorem Fresh.reserveSlot (h : Fresh capabilities t) (n : NodeId) {job : JobRequest}
    (hj : job.jobId ∉ t.cluster.reservations) :
    Fresh capabilities (t.apply (.reserveSlot n job)) := by
  rcases t.cluster.reserveSlot_cases n job with hr | ⟨reg, hreg, hfits, hok⟩
  · have hsame : t.apply (.reserveSlot n job) = t := by
      simp only [apply, Op.apply, hr]
      rfl
    rw [hsame]
    exact h
  have hn := Dict.mem_of_get? hreg
  have hid := h.keyed.nodeId_eq hreg
  obtain ⟨hcluster, hat⟩ := apply_reserved hok
  obtain ⟨-, hcpu, -⟩ := (t.cluster.fits_iff reg job).mp hfits
  have hmemory := t.cluster.fits_memory hfits
  rw [hid, h.capabilities_eq hreg] at hcpu hmemory
  have hmemory := hmemory (h.allocatedMemory hn ▸ h.memory_le hn)
  refine ⟨hcluster ▸ h.keyed.reserved hreg job, hcluster ▸ h.charged.reserved n job, ?_, ?_, ?_,
    ?_, ?_, ?_, ?_⟩
  · intro m reg' hreg'
    rw [hcluster] at hreg'
    exact h.capabilities_eq hreg'
  · intro j r hr hc
    rw [hcluster, reserved_reservations, Dict.get?_set] at hr
    rw [hcluster, reserved_registrations]
    split at hr
    · obtain rfl := Option.some.inj hr
      exact hn
    · have hold := (currentOn_reserved hj hok r.nodeId).1 j r hr
      have hcur : t.currentOn r.nodeId j r = true := by
        rw [← hold]
        simpa [currentOn, onNode] using hc
      exact h.current_registered hr (by simpa [currentOn, onNode] using hcur)
  · intro j r hr
    rw [hcluster, reserved_reservations, Dict.get?_set] at hr
    show (t.apply (.reserveSlot n job)).reservedAt j ≤ t.removals r.nodeId
    rw [hat]
    split at hr
    · next heq =>
        obtain rfl := Option.some.inj hr
        rw [heq, Function.update_self]
    · next hne =>
        rw [Function.update_of_ne hne]
        exact h.reservedAt_le hr
  · intro m hm
    rw [hcluster, reserved_registrations] at hm
    rw [currentCpus_reserved hj hok, hcluster, reserved_runningJobs, Dict.getD_set,
      h.runningJobs hn]
    by_cases hmn : m = n
    · rw [if_pos hmn, if_pos hmn.symm, hmn]
    · rw [if_neg hmn, if_neg (Ne.symm hmn), add_zero, h.runningJobs hm]
  · intro m hm
    rw [hcluster, reserved_registrations] at hm
    rw [currentMemory_reserved hj hok, hcluster, reserved_allocatedMemory, Dict.getD_set,
      h.allocatedMemory hn]
    by_cases hmn : m = n
    · rw [if_pos hmn, if_pos hmn.symm, hmn]
    · rw [if_neg hmn, if_neg (Ne.symm hmn), add_zero, h.allocatedMemory hm]
  · intro m hm
    rw [hcluster, reserved_registrations] at hm
    rw [currentCpus_reserved hj hok]
    by_cases hmn : n = m
    · subst hmn
      rw [if_pos rfl, ← h.runningJobs hn]
      exact hcpu
    · rw [if_neg hmn, add_zero]
      exact h.cpus_le hm
  · intro m hm
    rw [hcluster, reserved_registrations] at hm
    rw [currentMemory_reserved hj hok]
    by_cases hmn : n = m
    · subst hmn
      rw [if_pos rfl, ← h.allocatedMemory hn]
      exact hmemory
    · rw [if_neg hmn, add_zero]
      exact h.memory_le hm

/-- A release takes what the job held out of the amounts of its node, if the
reservation is current. -/
theorem held_current_releaseSlot (amount : Reservation → ℤ) {j : JobId} {r : Reservation}
    (hr : t.cluster.reservations.get? j = some r) (n : NodeId) :
    t.cluster.held (t.currentOn n) amount
      = (t.cluster.releaseSlot j).held (t.currentOn n) amount +
        if t.current j r = true ∧ r.nodeId = n then amount r else 0 := by
  rw [held_releaseSlot hr]
  simp [currentOn, onNode]

theorem currentCpus_releaseSlot {j : JobId} {r : Reservation}
    (hr : t.cluster.reservations.get? j = some r) (n : NodeId) :
    t.currentCpus n = (t.apply (.releaseSlot j)).currentCpus n +
      if t.current j r = true ∧ r.nodeId = n then r.cpuRequest else 0 :=
  held_current_releaseSlot Reservation.cpuRequest hr n

theorem currentMemory_releaseSlot {j : JobId} {r : Reservation}
    (hr : t.cluster.reservations.get? j = some r) (n : NodeId) :
    t.currentMemory n = (t.apply (.releaseSlot j)).currentMemory n +
      if t.current j r = true ∧ r.nodeId = n then r.memoryMb else 0 :=
  held_current_releaseSlot Reservation.memoryMb hr n

theorem Fresh.releaseSlot (h : Fresh capabilities t) {j : JobId}
    (hharmless : t.Harmless (.releaseSlot j)) :
    Fresh capabilities (t.apply (.releaseSlot j)) := by
  rcases hj : t.cluster.reservations.get? j with - | r
  · have hsame : t.apply (.releaseSlot j) = t := by
      simp only [apply, Op.apply, releaseSlot_of_none hj]
    rw [hsame]
    exact h
  have hpop : ∀ {j' r'}, (t.apply (.releaseSlot j)).cluster.reservations.get? j' = some r' →
      t.cluster.reservations.get? j' = some r' := by
    intro j' r' hr'
    rw [show (t.apply (.releaseSlot j)).cluster = t.cluster.releaseSlot j from rfl,
      releaseSlot_reservations, Dict.get?_pop] at hr'
    split at hr'
    · cases hr'
    · exact hr'
  have hregs : (t.apply (.releaseSlot j)).cluster.registrations = t.cluster.registrations :=
    releaseSlot_registrations t.cluster j
  obtain ⟨hcpu, hmem⟩ := h.charged j r hj
  have hcharged : Charged (t.apply (.releaseSlot j)).cluster := h.charged.releaseSlot j
  refine ⟨h.keyed.releaseSlot j, hcharged, ?_, ?_, ?_, ?_, ?_, ?_, ?_⟩
  · intro n reg hreg
    rw [hregs] at hreg
    exact h.capabilities_eq hreg
  · intro j' r' hr' hc
    rw [hregs]
    exact h.current_registered (hpop hr') hc
  · intro j' r' hr'
    exact h.reservedAt_le (hpop hr')
  · intro n hn
    rw [hregs] at hn
    have hsum := currentCpus_releaseSlot hj n
    have heq := h.runningJobs hn
    have hpos := currentCpus_nonneg hcharged n
    show (t.cluster.releaseSlot j).runningJobs.getD n 0 = _
    rw [releaseSlot_getD_runningJobs hj (by omega)]
    by_cases hnode : n = r.nodeId
    · rw [if_pos hnode]
      by_cases hc : t.current j r = true
      · rw [if_pos ⟨hc, hnode.symm⟩] at hsum
        omega
      · -- an old reservation: the node has no slot in use, so nothing changes
        have hzero := hharmless r hj (by simpa using hc)
        rw [← hnode] at hzero
        rw [if_neg (fun hp => hc hp.1)] at hsum
        omega
    · rw [if_neg hnode]
      rw [if_neg (fun hp => hnode hp.2.symm)] at hsum
      omega
  · intro n hn
    rw [hregs] at hn
    have hsum := currentMemory_releaseSlot hj n
    have heq := h.allocatedMemory hn
    have hpos := currentMemory_nonneg hcharged n
    show (t.cluster.releaseSlot j).allocatedMemory.getD n 0 = _
    rw [releaseSlot_getD_allocatedMemory hj hmem]
    by_cases hnode : n = r.nodeId
    · rw [if_pos hnode]
      by_cases hc : t.current j r = true
      · rw [if_pos ⟨hc, hnode.symm⟩] at hsum
        omega
      · have hzero := hharmless r hj (by simpa using hc)
        rw [← hnode, h.runningJobs hn] at hzero
        have hzero' := h.currentMemory_eq_zero hzero
        rw [if_neg (fun hp => hc hp.1)] at hsum
        omega
    · rw [if_neg hnode]
      rw [if_neg (fun hp => hnode hp.2.symm)] at hsum
      omega
  · intro n hn
    rw [hregs] at hn
    have hsum := currentCpus_releaseSlot hj n
    have hle := h.cpus_le hn
    split at hsum <;> omega
  · intro n hn
    rw [hregs] at hn
    have hsum := currentMemory_releaseSlot hj n
    have hle := h.memory_le hn
    split at hsum <;> omega

theorem Fresh.apply (h : Fresh capabilities t) {op : Op} (hv : Valid capabilities t op)
    (hharmless : t.Harmless op) : Fresh capabilities (t.apply op) := by
  cases op with
  | registerNode reg => exact h.registerNode hv hharmless.1 hharmless.2
  | registerHeartbeat hb now =>
      exact ⟨⟨h.keyed.nodeId_eq, h.keyed.mem_runningJobs, h.keyed.mem_allocatedMemory⟩, h.charged,
        h.capabilities_eq, h.current_registered, h.reservedAt_le, h.runningJobs, h.allocatedMemory,
        h.cpus_le, h.memory_le⟩
  | removeExpiredNodes timeout now => exact h.removeExpiredNodes timeout now
  | reserveSlot n job => exact h.reserveSlot n hv
  | releaseSlot j => exact h.releaseSlot hharmless

/-! ### Any other call breaks it -/

/-- A call that ends in a safe state was harmless. -/
theorem Fresh.harmless_of_safe (h : Fresh capabilities t) {op : Op}
    (hsafe : (t.apply op).Safe) : t.Harmless op := by
  cases op with
  | registerNode reg =>
      have hreg : (t.apply (.registerNode reg)).cluster.registrations.get? reg.nodeId = some reg :=
        Dict.get?_set_self _ _ _
      obtain ⟨hcpus, hmemory, -, -⟩ := hsafe reg.nodeId reg hreg
      exact ⟨(currentCpus_nonneg h.charged reg.nodeId).trans hcpus,
        (currentMemory_nonneg h.charged reg.nodeId).trans hmemory⟩
  | releaseSlot j =>
      intro r hr hold
      by_contra hne
      have hin : r.nodeId ∈ t.cluster.runningJobs := by
        by_contra hnot
        exact hne (Dict.getD_of_not_mem hnot 0)
      have hn := (h.keyed.mem_runningJobs r.nodeId).mp hin
      obtain ⟨reg, hreg⟩ := Dict.mem_iff_get?.mp hn
      have hcpu := (h.charged j r hr).1
      have hsum := currentCpus_releaseSlot hr r.nodeId
      rw [if_neg (fun hp => by rw [hold] at hp; exact Bool.false_ne_true hp.1)] at hsum
      have heq := h.runningJobs hn
      have hpos := currentCpus_nonneg h.charged r.nodeId
      have hreg' : (t.apply (.releaseSlot j)).cluster.registrations.get? r.nodeId = some reg := by
        rw [show (t.apply (.releaseSlot j)).cluster = t.cluster.releaseSlot j from rfl,
          releaseSlot_registrations]
        exact hreg
      obtain ⟨-, -, hle, -⟩ := hsafe r.nodeId reg hreg'
      rw [show (t.apply (.releaseSlot j)).cluster = t.cluster.releaseSlot j from rfl,
        releaseSlot_getD_runningJobs hr (by omega), if_pos rfl] at hle
      omega
  | _ => trivial

/-! ### The characterisation -/

/-- In a run where every node id always reports the same capabilities and no job
holds two reservations at a time, the reservations made on a node since it was
last removed stay within its capabilities and are all counted, in every state,
exactly when every call is harmless. -/
theorem no_oversubscription_iff {tr : List (Tracked × Op)} {t : Tracked}
    (h : Run (restrict Step (Valid capabilities)) init tr t) :
    Throughout Safe tr t ↔ ∀ p ∈ tr, Harmless p.1 p.2 := by
  refine h.always_iff (I := Fresh capabilities) fresh_init Fresh.safe ?_ ?_
  · rintro t op t' ht hharmless ⟨hv, rfl⟩
    exact ht.apply hv hharmless
  · rintro t op t' ht ⟨-, rfl⟩ hsafe
    exact ht.harmless_of_safe hsafe

/-- The capabilities of a node with one core, for the concrete runs below. -/
def oneCore : NodeCapabilities := (nodeOf "n" 1 64).profile.capabilities

/-- A one-core node takes a job, expires, registers again and takes a second
job; the late release of the first frees the slot of the second for a third. -/
def lateRelease : List Op :=
  [.registerNode (nodeOf "n" 1 64), .registerHeartbeat ⟨"n", 0⟩ 0, .reserveSlot "n" (jobOf "a"),
    .removeExpiredNodes 15 20, .registerNode (nodeOf "n" 1 64), .reserveSlot "n" (jobOf "b"),
    .releaseSlot "a", .reserveSlot "n" (jobOf "c")]

/-- Up to the late release the run is harmless. -/
theorem no_oversubscription_before_late_release :
    Throughout Safe (traceOf apply init (lateRelease.take 6)) ((lateRelease.take 6).foldl apply init) := by
  have hvalid : ∀ p ∈ traceOf apply init (lateRelease.take 6), Valid (fun _ => oneCore) p.1 p.2 := by
    decide +kernel
  refine (no_oversubscription_iff (Run.of_traceOf hvalid)).mpr ?_
  intro p hp
  simp only [lateRelease, List.take, traceOf, List.mem_cons, List.not_mem_nil, or_false] at hp
  rcases hp with rfl | rfl | rfl | rfl | rfl | rfl
  all_goals trivial

/-- Two current reservations, of two slots together, on a node with one core. -/
theorem oversubscribed_after_late_release :
    ∃ tr t, Run (restrict Step (Valid fun _ => oneCore)) init tr t ∧
      t.cluster.registrations.get? "n" = some (nodeOf "n" 1 64) ∧
      ¬ t.currentCpus "n" ≤ (nodeOf "n" 1 64).profile.capabilities.cpus := by
  have hvalid : ∀ p ∈ traceOf apply init lateRelease, Valid (fun _ => oneCore) p.1 p.2 := by
    decide +kernel
  exact ⟨_, _, Run.of_traceOf hvalid, by decide +kernel, by decide +kernel⟩

end Tracked

end ClusterState

end HeteroSched
