/-
HeteroSched/ClusterState.lean

The in-memory state of the scheduler, from `scheduler/state.py`.

Design.  `ClusterState` keeps the tables of the source one by one, keyed as in
the source: five of them by node, `reservations` and `dispatchAttempts` by job.
Each method is a pure function on it; a method that takes the lock for its whole
body is one atomic step of the system.  Two methods that read the table of
registrations by a key and then use `registration.node_id` (`reserveSlot`,
`nodeHasCapacity`) do so here too: that the two agree is an invariant
(`ClusterState.Keyed`), not a definition.

After the methods stand the lemmas that say what each does to each table, so
that later modules need not unfold them.  `reserveSlot_cases` is the whole of
what a call of `reserve_slot` can do; `releaseSlot_get?_runningJobs` and
`releaseSlot_get?_allocatedMemory` say what a release leaves of the counters.
-/
import HeteroSched.Schemas

namespace HeteroSched

/-- What a job holds: the tuple `(node_id, cpu_request, memory_mb)`. -/
structure Reservation where
  nodeId : NodeId
  cpuRequest : ℤ
  memoryMb : ℤ
  deriving DecidableEq, Repr

/-- The scheduler's memory of the cluster: who registered, the last heartbeat of each node,
the queue, how many cores and megabytes are charged to each node, the failed dispatches of
each job, and what each job has reserved. -/
structure ClusterState where
  registrations : Dict NodeId NodeRegistration := ∅
  heartbeats : Dict NodeId NodeHeartbeat := ∅
  jobQueue : List JobRequest := []
  runningJobs : Dict NodeId ℤ := ∅
  lastHeartbeat : Dict NodeId ℚ := ∅
  dispatchAttempts : Dict JobId ℕ := ∅
  allocatedMemory : Dict NodeId ℤ := ∅
  reservations : Dict JobId Reservation := ∅
  deriving DecidableEq

namespace ClusterState

/-! ### Registry -/

/-- Add or update node heartbeat info; the node need not be registered. -/
def registerHeartbeat (c : ClusterState) (heartbeat : NodeHeartbeat) (now : ℚ) : ClusterState :=
  { c with
    heartbeats := c.heartbeats.set heartbeat.nodeId heartbeat
    lastHeartbeat := c.lastHeartbeat.set heartbeat.nodeId now }

/-- Add or update a node; a counter that is there is kept. -/
def registerNode (c : ClusterState) (registration : NodeRegistration) : ClusterState :=
  { c with
    registrations := c.registrations.set registration.nodeId registration
    runningJobs :=
      if registration.nodeId ∈ c.runningJobs then c.runningJobs
      else c.runningJobs.set registration.nodeId 0 }

/-- The cores charged to a node. -/
def getRunningJobs (c : ClusterState) (nodeId : NodeId) : ℤ := c.runningJobs.getD nodeId 0

/-- What a policy is shown of a node.  The occupancy is a quotient, computed exactly. -/
def getNodeView (c : ClusterState) (nodeId : NodeId) : Option NodeView :=
  match c.registrations.get? nodeId with
  | none => none
  | some registration =>
      let currentLoad := match c.heartbeats.get? nodeId with
        | some heartbeat => heartbeat.currentLoad
        | none => 0
      let runningJobs := c.getRunningJobs nodeId
      let cpus := max 1 registration.profile.capabilities.cpus
      some
        { nodeId := nodeId
          hostname := registration.hostname
          agentUrl := registration.agentUrl
          profile := registration.profile
          currentLoad := currentLoad
          runningJobs := runningJobs
          slotOccupancy := runningJobs / cpus }

/-- The views of all registered nodes, in their order. -/
def getNodes (c : ClusterState) : List NodeView :=
  c.registrations.keys.filterMap c.getNodeView

/-- The nodes `remove_expired_nodes` finds expired: silent for longer than the
timeout, according to `last_heartbeat`. -/
def expiredNodes (c : ClusterState) (timeoutSeconds now : ℚ) : List NodeId :=
  (c.lastHeartbeat.entries.filter fun e => now - e.2 > timeoutSeconds).map Prod.fst

/-- Drop what is known of every expired node but the reservations on it. -/
def removeExpiredNodes (c : ClusterState) (timeoutSeconds now : ℚ) : ClusterState :=
  let expired := c.expiredNodes timeoutSeconds now
  { c with
    registrations := c.registrations.popAll expired
    heartbeats := c.heartbeats.popAll expired
    lastHeartbeat := c.lastHeartbeat.popAll expired
    runningJobs := c.runningJobs.popAll expired
    allocatedMemory := c.allocatedMemory.popAll expired }

/-! ### Queue and dispatch attempts -/

/-- Put a job at the end of the queue. -/
def enqueueJob (c : ClusterState) (job : JobRequest) : ClusterState :=
  { c with jobQueue := c.jobQueue ++ [job] }

/-- Take the job at the front of the queue, if there is one. -/
def dequeueJob (c : ClusterState) : Option JobRequest × ClusterState :=
  match c.jobQueue with
  | [] => (none, c)
  | job :: rest => (some job, { c with jobQueue := rest })

/-- How many jobs wait in the queue. -/
def queueSize (c : ClusterState) : ℕ := c.jobQueue.length

/-- Count a failed dispatch for a job and return the new total. -/
def recordDispatchFailure (c : ClusterState) (jobId : JobId) : ℕ × ClusterState :=
  let attempts := c.dispatchAttempts.getD jobId 0 + 1
  (attempts, { c with dispatchAttempts := c.dispatchAttempts.set jobId attempts })

/-- Drop the failure counter once a job is placed or abandoned. -/
def forgetDispatchAttempts (c : ClusterState) (jobId : JobId) : ClusterState :=
  { c with dispatchAttempts := c.dispatchAttempts.pop jobId }

/-! ### Capacity and reservations -/

/-- The check `_fits`: could this node take the job right now. -/
def fits (c : ClusterState) (registration : NodeRegistration) (job : JobRequest) : Bool :=
  let capabilities := registration.profile.capabilities
  let requirements := job.requirements
  if requirements.requiresGpu && !capabilities.gpu then false
  else
    let usedCpus := c.runningJobs.getD registration.nodeId 0
    if usedCpus + requirements.cpuRequest > capabilities.cpus then false
    else
      match requirements.memoryMb with
      | some memoryMb =>
          let usedMemory := c.allocatedMemory.getD registration.nodeId 0
          if usedMemory + memoryMb > capabilities.memoryMb then false else true
      | none => true

/-- Claim the job's resources on a node, if the node is registered and the job fits, and say
whether they were claimed. -/
def reserveSlot (c : ClusterState) (nodeId : NodeId) (job : JobRequest) : Bool × ClusterState :=
  match c.registrations.get? nodeId with
  | none => (false, c)
  | some registration =>
      if !c.fits registration job then (false, c)
      else
        let requirements := job.requirements
        let memoryMb := requirements.memoryOrZero
        (true,
          { c with
            runningJobs := c.runningJobs.set nodeId
              (c.runningJobs.getD nodeId 0 + requirements.cpuRequest)
            allocatedMemory := c.allocatedMemory.set nodeId
              (c.allocatedMemory.getD nodeId 0 + memoryMb)
            reservations := c.reservations.set job.jobId
              ⟨nodeId, requirements.cpuRequest, memoryMb⟩ })

/-- Give back what a job reserved; a counter does not fall below zero, and without a
reservation nothing happens. -/
def releaseSlot (c : ClusterState) (jobId : JobId) : ClusterState :=
  match c.reservations.get? jobId with
  | none => c
  | some reservation =>
      { c with
        reservations := c.reservations.pop jobId
        runningJobs :=
          if reservation.nodeId ∈ c.runningJobs then
            c.runningJobs.set reservation.nodeId
              (max 0 (c.runningJobs.getD reservation.nodeId 0 - reservation.cpuRequest))
          else c.runningJobs
        allocatedMemory :=
          if reservation.nodeId ∈ c.allocatedMemory then
            c.allocatedMemory.set reservation.nodeId
              (max 0 (c.allocatedMemory.getD reservation.nodeId 0 - reservation.memoryMb))
          else c.allocatedMemory }

/-- Whether the node of a view is registered and could take the job. -/
def nodeHasCapacity (c : ClusterState) (node : NodeView) (job : JobRequest) : Bool :=
  match c.registrations.get? node.nodeId with
  | none => false
  | some registration => c.fits registration job

/-- The views of the nodes that could take the job, in their order. -/
def getAvailableNodes (c : ClusterState) (job : JobRequest) : List NodeView :=
  c.getNodes.filter fun node => c.nodeHasCapacity node job

/-- The sum `sum(cluster_state.running_jobs.values())`. -/
def runningTotal (c : ClusterState) : ℤ := c.runningJobs.values.sum

variable (c : ClusterState)

/-! ### What the methods do to the tables -/

@[simp] theorem registerNode_registrations (reg : NodeRegistration) :
    (c.registerNode reg).registrations = c.registrations.set reg.nodeId reg := rfl

@[simp] theorem registerNode_allocatedMemory (reg : NodeRegistration) :
    (c.registerNode reg).allocatedMemory = c.allocatedMemory := rfl

/-- Registration gives a node without a counter the counter zero and leaves
every other counter alone. -/
theorem registerNode_get?_runningJobs (reg : NodeRegistration) (n : NodeId) :
    (c.registerNode reg).runningJobs.get? n
      = if n = reg.nodeId ∧ n ∉ c.runningJobs then some 0 else c.runningJobs.get? n := by
  unfold registerNode
  by_cases hmem : reg.nodeId ∈ c.runningJobs
  · have hneg : ¬ (n = reg.nodeId ∧ n ∉ c.runningJobs) := by
      rintro ⟨rfl, hn⟩
      exact hn hmem
    simp only [if_pos hmem, if_neg hneg]
  · simp only [if_neg hmem, Dict.get?_set]
    by_cases hn : n = reg.nodeId
    · rw [if_pos hn, if_pos ⟨hn, hn ▸ hmem⟩]
    · rw [if_neg hn, if_neg (fun h => hn h.1)]

/-- Read with default zero, registration changes no counter. -/
theorem registerNode_getD_runningJobs (reg : NodeRegistration) (n : NodeId) :
    (c.registerNode reg).runningJobs.getD n 0 = c.runningJobs.getD n 0 := by
  unfold Dict.getD
  rw [registerNode_get?_runningJobs]
  split
  · next h => rw [Dict.get?_eq_none_iff.mpr h.2, Option.getD_some, Option.getD_none]
  · rfl

@[simp] theorem registerHeartbeat_lastHeartbeat (heartbeat : NodeHeartbeat) (now : ℚ) :
    (c.registerHeartbeat heartbeat now).lastHeartbeat
      = c.lastHeartbeat.set heartbeat.nodeId now := rfl

@[simp] theorem removeExpiredNodes_lastHeartbeat (timeout now : ℚ) :
    (c.removeExpiredNodes timeout now).lastHeartbeat
      = c.lastHeartbeat.popAll (c.expiredNodes timeout now) := rfl

@[simp] theorem removeExpiredNodes_registrations (timeout now : ℚ) :
    (c.removeExpiredNodes timeout now).registrations
      = c.registrations.popAll (c.expiredNodes timeout now) := rfl

@[simp] theorem removeExpiredNodes_runningJobs (timeout now : ℚ) :
    (c.removeExpiredNodes timeout now).runningJobs
      = c.runningJobs.popAll (c.expiredNodes timeout now) := rfl

@[simp] theorem removeExpiredNodes_allocatedMemory (timeout now : ℚ) :
    (c.removeExpiredNodes timeout now).allocatedMemory
      = c.allocatedMemory.popAll (c.expiredNodes timeout now) := rfl

variable {c} in
/-- While a registered node keeps its capabilities, what a node offers after a
registration it offered before, or it is new. -/
theorem registerNode_cases {reg : NodeRegistration}
    (hsame : ∀ old ∈ c.registrations.get? reg.nodeId,
      old.profile.capabilities = reg.profile.capabilities)
    {n : NodeId} {reg' : NodeRegistration}
    (h : (c.registerNode reg).registrations.get? n = some reg') :
    (∃ old, c.registrations.get? n = some old ∧
      old.profile.capabilities = reg'.profile.capabilities) ∨
    (n ∉ c.registrations ∧ reg' = reg) := by
  rw [registerNode_registrations, Dict.get?_set] at h
  split at h
  · next hn =>
      obtain rfl := Option.some.inj h
      rcases ho : c.registrations.get? n with - | old
      · exact Or.inr ⟨Dict.get?_eq_none_iff.mp ho, rfl⟩
      · exact Or.inl ⟨old, rfl, hsame old (hn ▸ ho)⟩
  · exact Or.inl ⟨reg', h, rfl⟩

variable {c} in
/-- A node that is registered after the expiry did not expire. -/
theorem removeExpiredNodes_cases {timeout now : ℚ} {n : NodeId} {reg : NodeRegistration}
    (h : (c.removeExpiredNodes timeout now).registrations.get? n = some reg) :
    n ∉ c.expiredNodes timeout now ∧ c.registrations.get? n = some reg := by
  rw [removeExpiredNodes_registrations, Dict.get?_popAll] at h
  split at h
  · cases h
  · next hn => exact ⟨hn, h⟩

/-- `fits` is the conjunction of the three requirements. -/
theorem fits_iff (reg : NodeRegistration) (job : JobRequest) :
    c.fits reg job = true ↔
      (job.requirements.requiresGpu = true → reg.profile.capabilities.gpu = true) ∧
      c.runningJobs.getD reg.nodeId 0 + job.requirements.cpuRequest
        ≤ reg.profile.capabilities.cpus ∧
      ∀ m ∈ job.requirements.memoryMb,
        c.allocatedMemory.getD reg.nodeId 0 + m ≤ reg.profile.capabilities.memoryMb := by
  unfold fits
  rcases hm : job.requirements.memoryMb with - | m <;>
    rcases hg : job.requirements.requiresGpu <;>
    rcases hc : reg.profile.capabilities.gpu <;>
    simp [hm, hg, hc]

/-- Once charged for the job, a node that fits it is still within its memory. -/
theorem fits_memory {reg : NodeRegistration} {job : JobRequest} (h : c.fits reg job = true)
    (hle : c.allocatedMemory.getD reg.nodeId 0 ≤ reg.profile.capabilities.memoryMb) :
    c.allocatedMemory.getD reg.nodeId 0 + job.requirements.memoryOrZero
      ≤ reg.profile.capabilities.memoryMb := by
  obtain ⟨-, -, hmem⟩ := (c.fits_iff reg job).mp h
  unfold JobRequirements.memoryOrZero
  rcases hm : job.requirements.memoryMb with - | m
  · rw [Option.getD_none, add_zero]
    exact hle
  · exact hmem m hm

/-- The state after a successful reservation. -/
def reserved (nodeId : NodeId) (job : JobRequest) : ClusterState :=
  { c with
    runningJobs := c.runningJobs.set nodeId
      (c.runningJobs.getD nodeId 0 + job.requirements.cpuRequest)
    allocatedMemory := c.allocatedMemory.set nodeId
      (c.allocatedMemory.getD nodeId 0 + job.requirements.memoryOrZero)
    reservations := c.reservations.set job.jobId
      ⟨nodeId, job.requirements.cpuRequest, job.requirements.memoryOrZero⟩ }

/-- All that `reserve_slot` can do: refuse and change nothing, or charge a
registered node that fits the job. -/
theorem reserveSlot_cases (n : NodeId) (job : JobRequest) :
    c.reserveSlot n job = (false, c) ∨
    ∃ reg, c.registrations.get? n = some reg ∧ c.fits reg job = true ∧
      c.reserveSlot n job = (true, c.reserved n job) := by
  unfold reserveSlot
  rcases hreg : c.registrations.get? n with - | reg
  · exact Or.inl rfl
  · simp only
    by_cases hf : c.fits reg job = true
    · rw [if_neg (by simp [hf])]
      exact Or.inr ⟨reg, rfl, hf, rfl⟩
    · rw [if_pos (by simpa using hf)]
      exact Or.inl rfl

variable {c} in
theorem reserveSlot_eq_true {n : NodeId} {job : JobRequest} {c' : ClusterState}
    (h : c.reserveSlot n job = (true, c')) :
    ∃ reg, c.registrations.get? n = some reg ∧ c.fits reg job = true ∧ c' = c.reserved n job := by
  rcases c.reserveSlot_cases n job with hr | ⟨reg, hreg, hfits, hr⟩
  · rw [hr] at h
    cases h
  · rw [hr] at h
    exact ⟨reg, hreg, hfits, (Prod.mk.inj h).2.symm⟩

variable {c} in
theorem reserveSlot_eq_false {n : NodeId} {job : JobRequest} {c' : ClusterState}
    (h : c.reserveSlot n job = (false, c')) : c' = c := by
  rcases c.reserveSlot_cases n job with hr | ⟨reg, hreg, hfits, hr⟩
  · rw [hr] at h
    exact (Prod.mk.inj h).2.symm
  · rw [hr] at h
    cases h

variable {c} in
theorem dequeueJob_eq_some {job : JobRequest} {c' : ClusterState}
    (h : c.dequeueJob = (some job, c')) :
    ∃ rest, c.jobQueue = job :: rest ∧ c' = { c with jobQueue := rest } := by
  unfold dequeueJob at h
  rcases hq : c.jobQueue with - | ⟨job', rest⟩
  · rw [hq] at h
    cases h
  · rw [hq] at h
    obtain ⟨hjob, hc⟩ := Prod.mk.inj h
    exact ⟨rest, by rw [Option.some.inj hjob], hc.symm⟩

@[simp] theorem reserved_registrations (n : NodeId) (job : JobRequest) :
    (c.reserved n job).registrations = c.registrations := rfl

@[simp] theorem reserved_runningJobs (n : NodeId) (job : JobRequest) :
    (c.reserved n job).runningJobs
      = c.runningJobs.set n (c.runningJobs.getD n 0 + job.requirements.cpuRequest) := rfl

@[simp] theorem reserved_allocatedMemory (n : NodeId) (job : JobRequest) :
    (c.reserved n job).allocatedMemory
      = c.allocatedMemory.set n
          (c.allocatedMemory.getD n 0 + job.requirements.memoryOrZero) := rfl

@[simp] theorem reserved_reservations (n : NodeId) (job : JobRequest) :
    (c.reserved n job).reservations
      = c.reservations.set job.jobId
          ⟨n, job.requirements.cpuRequest, job.requirements.memoryOrZero⟩ := rfl

@[simp] theorem releaseSlot_registrations (j : JobId) :
    (c.releaseSlot j).registrations = c.registrations := by
  unfold releaseSlot
  split <;> rfl

@[simp] theorem releaseSlot_jobQueue (j : JobId) :
    (c.releaseSlot j).jobQueue = c.jobQueue := by
  unfold releaseSlot
  split <;> rfl

@[simp] theorem releaseSlot_dispatchAttempts (j : JobId) :
    (c.releaseSlot j).dispatchAttempts = c.dispatchAttempts := by
  unfold releaseSlot
  split <;> rfl

@[simp] theorem releaseSlot_reservations (j : JobId) :
    (c.releaseSlot j).reservations = c.reservations.pop j := by
  unfold releaseSlot
  rcases h : c.reservations.get? j with - | r
  · rw [Dict.pop_of_not_mem (Dict.get?_eq_none_iff.mp h)]
  · rfl

variable {c} in
/-- Releasing a job without a reservation changes nothing. -/
theorem releaseSlot_of_none {j : JobId} (h : c.reservations.get? j = none) :
    c.releaseSlot j = c := by
  unfold releaseSlot
  rw [h]

/-- What a released amount leaves of a counter: the source clamps at zero. -/
theorem get?_clamped (d : Dict NodeId ℤ) (m n : NodeId) (a : ℤ) :
    (if m ∈ d then d.set m (max 0 (d.getD m 0 - a)) else d).get? n
      = (d.get? n).map fun u => if n = m then max 0 (u - a) else u := by
  by_cases hm : m ∈ d
  · rw [if_pos hm, Dict.get?_set]
    obtain ⟨u, hu⟩ := Dict.mem_iff_get?.mp hm
    by_cases hn : n = m
    · rw [if_pos hn, hn, hu, Option.map_some, if_pos rfl, Dict.getD_of_get? hu]
    · simp only [if_neg hn, Option.map_id']
  · rw [if_neg hm]
    by_cases hn : n = m
    · rw [hn, Dict.get?_eq_none_iff.mpr hm, Option.map_none]
    · simp only [if_neg hn, Option.map_id']

variable {c} in
theorem releaseSlot_get?_runningJobs {j : JobId} {r : Reservation}
    (h : c.reservations.get? j = some r) (n : NodeId) :
    (c.releaseSlot j).runningJobs.get? n
      = (c.runningJobs.get? n).map fun u => if n = r.nodeId then max 0 (u - r.cpuRequest) else u := by
  unfold releaseSlot
  rw [h]
  exact get?_clamped c.runningJobs r.nodeId n r.cpuRequest

variable {c} in
theorem releaseSlot_get?_allocatedMemory {j : JobId} {r : Reservation}
    (h : c.reservations.get? j = some r) (n : NodeId) :
    (c.releaseSlot j).allocatedMemory.get? n
      = (c.allocatedMemory.get? n).map
          fun u => if n = r.nodeId then max 0 (u - r.memoryMb) else u := by
  unfold releaseSlot
  rw [h]
  exact get?_clamped c.allocatedMemory r.nodeId n r.memoryMb

variable {c} in
/-- Read with default zero, a counter of the job's node drops by what the job
held, but not below zero. -/
theorem releaseSlot_getD_runningJobs {j : JobId} {r : Reservation}
    (h : c.reservations.get? j = some r) (hpos : 0 ≤ r.cpuRequest) (n : NodeId) :
    (c.releaseSlot j).runningJobs.getD n 0
      = if n = r.nodeId then max 0 (c.runningJobs.getD n 0 - r.cpuRequest)
        else c.runningJobs.getD n 0 := by
  unfold Dict.getD
  rw [releaseSlot_get?_runningJobs h]
  rcases c.runningJobs.get? n with - | u
  · simp only [Option.map_none, Option.getD_none]
    split <;> omega
  · rfl

variable {c} in
theorem releaseSlot_getD_allocatedMemory {j : JobId} {r : Reservation}
    (h : c.reservations.get? j = some r) (hpos : 0 ≤ r.memoryMb) (n : NodeId) :
    (c.releaseSlot j).allocatedMemory.getD n 0
      = if n = r.nodeId then max 0 (c.allocatedMemory.getD n 0 - r.memoryMb)
        else c.allocatedMemory.getD n 0 := by
  unfold Dict.getD
  rw [releaseSlot_get?_allocatedMemory h]
  rcases c.allocatedMemory.get? n with - | u
  · simp only [Option.map_none, Option.getD_none]
    split <;> omega
  · rfl

/-- Releasing never adds or removes a counter. -/
theorem mem_releaseSlot_runningJobs (j : JobId) (n : NodeId) :
    n ∈ (c.releaseSlot j).runningJobs ↔ n ∈ c.runningJobs := by
  rcases h : c.reservations.get? j with - | r
  · rw [releaseSlot_of_none h]
  · rw [← Dict.get?_isSome_iff, releaseSlot_get?_runningJobs h, Option.isSome_map,
      Dict.get?_isSome_iff]

theorem mem_releaseSlot_allocatedMemory (j : JobId) (n : NodeId) :
    n ∈ (c.releaseSlot j).allocatedMemory ↔ n ∈ c.allocatedMemory := by
  rcases h : c.reservations.get? j with - | r
  · rw [releaseSlot_of_none h]
  · rw [← Dict.get?_isSome_iff, releaseSlot_get?_allocatedMemory h, Option.isSome_map,
      Dict.get?_isSome_iff]

end ClusterState

end HeteroSched
