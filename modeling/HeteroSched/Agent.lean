/-
HeteroSched/Agent.lean

What the agents run, from `agent/executor.py`: the Docker options of a container and
the result that is posted when it has ended.

Design.  The options are a function of the assignment that `dispatch_job` posts, and
an assignment is posted only after a slot was claimed on that node.  So what was
checked at the claim holds of the container: alone it fits the node, whatever expires
or is released meanwhile (`Suited`).  All containers of a node fit it together while
each of them is covered by its reservation (`Booked`).

The result says of the container what Docker reported; an exception anywhere is the
exit code -1.
-/
import HeteroSched.ForeignKeys
import HeteroSched.Monitoring
import HeteroSched.RealLoad

namespace HeteroSched

open Transition

/-! ### Assignments and containers -/

/-- What the scheduler posts to an agent. -/
structure JobAssignment where
  jobId : JobId
  image : String
  command : Option String := none
  dispatchedAt : Option Timestamp := none
  requirements : JobRequirements
  deriving DecidableEq

/-- The assignment that `dispatch_job` makes of a job. -/
def JobRequest.assignment (job : JobRequest) (dispatchedAt : Timestamp) : JobAssignment where
  jobId := job.jobId
  image := job.image
  command := job.command
  dispatchedAt := some dispatchedAt
  requirements := job.requirements

/-- A request of `docker-py` for devices of the host. -/
structure DeviceRequest where
  count : ℤ
  capabilities : List (List String)
  deriving DecidableEq

/-- The options of `client.containers.run`; one that is missing is not passed. -/
structure ContainerOptions where
  memLimit : Option String := none
  cpuPeriod : Option ℤ := none
  cpuQuota : Option ℤ := none
  deviceRequests : Option (List DeviceRequest) := none
  deriving DecidableEq

/-- The job's declared requirements as Docker options; a zero counts as not declared. -/
def containerLimits (assignment : JobAssignment) : ContainerOptions :=
  let requirements := assignment.requirements
  { memLimit := match requirements.memoryMb with
      | some memoryMb => if memoryMb = 0 then none else some (memoryMb.repr ++ "m")
      | none => none
    cpuPeriod := if requirements.cpuRequest = 0 then none else some 100000
    cpuQuota := if requirements.cpuRequest = 0 then none else some (100000 * requirements.cpuRequest)
    -- a count of -1 asks for every GPU of the node
    deviceRequests := if requirements.requiresGpu then some [⟨-1, [["gpu"]]⟩] else none }

/-- What became of a container: an exception before its exit code was known, or the
`StatusCode` that `wait` returned. -/
inductive ContainerOutcome
  | raised
  | exited (statusCode : ℤ)
  deriving DecidableEq

/-- The exit code that is reported; −1 when the container could not be run. -/
def ContainerOutcome.exitCode : ContainerOutcome → ℤ
  | .raised => -1
  | .exited statusCode => statusCode

/-- The result that `run_and_callback` posts; the times are its readings of the clock. -/
def runAndCallback (nodeId : NodeId) (assignment : JobAssignment) (outcome : ContainerOutcome)
    (startTime endTime : ℚ) (completedAt : Timestamp) : JobResult where
  jobId := assignment.jobId
  nodeId := nodeId
  success := outcome.exitCode = 0
  runtimeSeconds := endTime - startTime
  exitCode := outcome.exitCode
  completedAt := some completedAt

/-! ### What Docker makes of the options -/

namespace ContainerOptions

/-- The cores a container may use, the quota by the period; `none` is no limit. -/
def cores (o : ContainerOptions) : Option ℚ :=
  match o.cpuPeriod, o.cpuQuota with
  | some period, some quota => some (quota / period)
  | _, _ => none

/-- The memory a container may use: a number of mebibytes before an `m`. -/
def memoryMb (o : ContainerOptions) : Option ℤ :=
  o.memLimit.bind fun text =>
    if text.toList.getLast? = some 'm' then (String.ofList text.toList.dropLast).toInt? else none

end ContainerOptions

variable {assignment : JobAssignment}

/-- A container may use as many cores as the scheduler counted. -/
theorem containerLimits_cores :
    (containerLimits assignment).cores = some (assignment.requirements.cpuRequest : ℚ) := by
  have hge := assignment.requirements.cpuRequest_ge
  have hne : assignment.requirements.cpuRequest ≠ 0 := by omega
  simp only [containerLimits, ContainerOptions.cores, if_neg hne]
  push_cast
  rw [mul_div_cancel_left₀ _ (by norm_num)]

/-- The limit in the text is the one that was declared. -/
theorem containerLimits_memoryMb :
    (containerLimits assignment).memoryMb = assignment.requirements.memoryMb := by
  rcases hm : assignment.requirements.memoryMb with - | m
  · simp only [containerLimits, ContainerOptions.memoryMb, hm, Option.bind_none]
  · have hge := assignment.requirements.memoryMb_ge m hm
    have hne : m ≠ 0 := by omega
    have htext : (m.repr ++ "m").toList = m.repr.toList ++ ['m'] := String.toList_append
    simp only [containerLimits, ContainerOptions.memoryMb, hm, if_neg hne, Option.bind_some, htext,
      List.getLast?_concat, List.dropLast_concat, if_true, String.ofList_toList, Int.toInt?_repr]

theorem containerLimits_deviceRequests :
    (containerLimits assignment).deviceRequests ≠ none ↔
      assignment.requirements.requiresGpu = true := by
  rcases h : assignment.requirements.requiresGpu <;> simp [containerLimits, h]

/-- The job that the dispatcher has placed, and where. -/
def Dispatcher.place : Dispatcher → Option (JobRequest × NodeId)
  | .placed job node => some (job, node.nodeId)
  | _ => none

theorem Dispatcher.place_answered (job : JobRequest) (available : List NodeView)
    (answer : Option NodeView) : (Dispatcher.answered job available answer).place = none := by
  unfold Dispatcher.answered
  split <;> rfl

namespace Scheduler

variable {P : PolicyRegistry} {cfg : Config} {s t : Scheduler P} {e : Event}
  {tr : List (Scheduler P × Event)} {caps : NodeId → NodeCapabilities}

/-! ### A container alone -/

/-- `Q` holds of every job that has a place and of its node. -/
structure OnNodes (Q : JobRequest → NodeId → Prop) (s : Scheduler P) : Prop where
  dispatcher : ∀ p ∈ s.dispatcher.place, Q p.1 p.2
  threads : ∀ th ∈ s.threads, Q th.job th.node.nodeId
  executing : ∀ ex ∈ s.executing, Q ex.job ex.nodeId

variable {Q : JobRequest → NodeId → Prop}

theorem onNodes_init (policy : P.Instance) (policyName : String) :
    OnNodes Q (init policy policyName) where
  dispatcher := fun p h => absurd h (Option.not_mem_none p)
  threads := fun _ h => absurd h List.not_mem_nil
  executing := fun _ h => absurd h List.not_mem_nil

/-- A thread that moves keeps its job and its node. -/
theorem OnNodes.goto (h : OnNodes Q s) {pre post : List DispatchThread} {th : DispatchThread}
    (ht : s.threads = pre ++ th :: post) (pc : DispatchPc) :
    ∀ th' ∈ pre ++ th.goto pc :: post, Q th'.job th'.node.nodeId := by
  have hthreads := h.threads
  rw [ht, forall_mem_split] at hthreads
  exact forall_mem_split.mpr hthreads

theorem OnNodes.drop (h : OnNodes Q s) {pre post : List DispatchThread} {th : DispatchThread}
    (ht : s.threads = pre ++ th :: post) :
    Q th.job th.node.nodeId ∧ ∀ th' ∈ pre ++ post, Q th'.job th'.node.nodeId := by
  have hthreads := h.threads
  rwa [ht, forall_mem_split] at hthreads

/-- Only a claim gives a job its place. -/
theorem Step.onNodes (h : Step cfg s e t) (hs : OnNodes Q s)
    (hclaim : ∀ job node, e = .claim job node → Q job node.nodeId) : OnNodes Q t := by
  have hnone : ∀ p ∈ (none : Option (JobRequest × NodeId)), Q p.1 p.2 :=
    fun p hp => absurd hp (Option.not_mem_none p)
  cases h with
  | dequeue hidle hq => exact ⟨hnone, hs.threads, hs.executing⟩
  | offer hdisp => exact ⟨hnone, hs.threads, hs.executing⟩
  | @answer job available hdisp =>
      refine ⟨?_, hs.threads, hs.executing⟩
      rw [Dispatcher.place_answered]
      exact hnone
  | @claim job node cluster hdisp hr =>
      refine ⟨fun p hp => ?_, hs.threads, hs.executing⟩
      obtain rfl := Option.some.inj hp
      exact hclaim job node rfl
  | refuseClaim hdisp hr => exact ⟨hnone, hs.threads, hs.executing⟩
  | @spawn job node now hdisp =>
      refine ⟨hnone, ?_, hs.executing⟩
      exact List.forall_mem_cons.mpr
        ⟨hs.dispatcher (job, node.nodeId) (by rw [hdisp]; exact rfl), hs.threads⟩
  | accept ht hpc =>
      refine ⟨hs.dispatcher, hs.goto ht _, ?_⟩
      exact List.forall_mem_cons.mpr ⟨(hs.drop ht).1, hs.executing⟩
  | respond ht hpc | recordDispatch now ht hpc | raise ht hpc | release ht hpc
  | countFailure ht hpc | giveUp ht hpc hmax => exact ⟨hs.dispatcher, hs.goto ht _, hs.executing⟩
  | forgetAttempts ht hpc | requeue ht hpc hmax | markFailed ht hpc | failMarkFailed ht hpc =>
      exact ⟨hs.dispatcher, (hs.drop ht).2, hs.executing⟩
  | callback he hjob hnode =>
      have hexecuting := hs.executing
      rw [he, forall_mem_split] at hexecuting
      exact ⟨hs.dispatcher, hs.threads, hexecuting.2⟩
  | loseCallback he hlost =>
      have hexecuting := hs.executing
      rw [he, forall_mem_split] at hexecuting
      exact ⟨hs.dispatcher, hs.threads, forall_mem_split.mpr hexecuting⟩
  | _ => exact ⟨hs.dispatcher, hs.threads, hs.executing⟩

/-- A job that is within what a node has, with nothing else there. -/
structure Suited (caps : NodeId → NodeCapabilities) (job : JobRequest) (n : NodeId) : Prop where
  gpu : job.requirements.requiresGpu = true → (caps n).gpu = true
  cpus : job.requirements.cpuRequest ≤ (caps n).cpus
  memory : ∀ m ∈ job.requirements.memoryMb, m ≤ (caps n).memoryMb

/-- The check at a claim is more than that, since no counter is negative. -/
theorem Capped.suited (h : Capped caps s) {n : NodeId} {job : JobRequest} {cluster : ClusterState}
    (hr : s.cluster.reserveSlot n job = (true, cluster)) : Suited caps job n := by
  obtain ⟨reg, hreg, hfits, -⟩ := ClusterState.reserveSlot_eq_true hr
  obtain ⟨hgpu, hcpus, hmemory⟩ := (ClusterState.fits_iff _ reg job).mp hfits
  have hid : reg.nodeId = n := h.bounded.keyed.nodeId_eq hreg
  have hused : 0 ≤ s.cluster.runningJobs.getD n 0 := (h.bounded.runningJobs hreg).1
  have husedMemory : 0 ≤ s.cluster.allocatedMemory.getD n 0 := (h.bounded.allocatedMemory hreg).1
  rw [h.fixed n reg hreg] at hgpu hcpus hmemory
  rw [hid] at hcpus hmemory
  refine ⟨hgpu, by omega, fun m hm => ?_⟩
  have hle := hmemory m hm
  omega

/-- So every job with a place is within what its node has. -/
theorem run_suited {policy : P.Instance} {policyName : String}
    (h : Run (restrict (Step cfg) (FixedCapabilities caps)) (init policy policyName) tr s) :
    OnNodes (Suited caps) s := by
  refine (h.invariant (I := fun s => Capped caps s ∧ OnNodes (Suited caps) s)
    ⟨capped_init policy policyName, onNodes_init policy policyName⟩ ?_).2
  rintro s e t ⟨hcapped, honNodes⟩ ⟨hfixed, hstep⟩
  refine ⟨hcapped.step hfixed hstep, hstep.onNodes honNodes fun job node he => ?_⟩
  subst he
  cases hstep with
  | claim hd hr => exact hcapped.suited hr

/-! ### Runs -/

/-- The runs in which reservations cover the containers: capabilities are fixed, ids
distinct, no node expires, and no slot of a running job is released. -/
def Isolated (caps : NodeId → NodeCapabilities) (s : Scheduler P) (e : Event) : Prop :=
  FixedCapabilities caps s e ∧ FreshAndSteady s e ∧ ReleasesIdle s e

/-- A callback brings what `run_and_callback` posts for a job that the agent runs. -/
def FromAgents (s : Scheduler P) : Event → Prop
  | .callback result => ∃ ex ∈ s.executing, ex.lost = false ∧
      ∃ dispatchedAt outcome startTime endTime completedAt,
        result = runAndCallback ex.nodeId (ex.job.assignment dispatchedAt) outcome startTime endTime
          completedAt
  | _ => True

/-- What both kinds of runs meet. -/
def IsolatedAgents (caps : NodeId → NodeCapabilities) (s : Scheduler P) (e : Event) : Prop :=
  Isolated caps s e ∧ FromAgents s e

/-- A job that declares 48 MB. -/
def limitedJob : JobRequest :=
  { ClusterState.jobOf "j" with
    requirements := { (ClusterState.jobOf "j").requirements with
      memoryMb := some 48
      memoryMb_ge := by decide } }

/-- A node with one core and 64 MB. -/
def smallNode (_ : NodeId) : NodeCapabilities := ⟨1, 1, 64, false, "x86_64"⟩

/-- A node with one core and 64 MB runs it. -/
theorem limited_run :
    ∃ tr s, Run (restrict (Step {}) (IsolatedAgents smallNode)) defaultInit tr s ∧
      s.executing = [⟨limitedJob, "n", false⟩] ∧ s.results = [] ∧ "n" ∈ s.cluster.registrations ∧
      s.db.jobs.keys = ["j"] := by
  have h₀ : Run (restrict (Step {}) (IsolatedAgents smallNode)) defaultInit [] defaultInit := .refl
  have h₁ := h₀.tail_restrict (.register (ClusterState.nodeOf "n" 1 64))
    ⟨⟨⟨rfl, by decide, by decide⟩, ⟨trivial, nofun⟩, show (0 : ℤ) ≤ 1 by decide⟩, trivial⟩
  have h₂ := h₁.tail_restrict (.submit limitedJob)
    ⟨⟨trivial, ⟨List.not_mem_nil, trivial⟩, trivial⟩, trivial⟩
  have h₃ := h₂.tail_restrict (@Step.tagSubmission _ _ _ _ [] _ 0 rfl)
    ⟨⟨trivial, ⟨trivial, trivial⟩, trivial⟩, trivial⟩
  have h₄ := h₃.tail_restrict (@Step.insertSubmission _ _ _ _ _ _ [] _ _ 0 rfl rfl)
    ⟨⟨trivial, ⟨trivial, trivial⟩, trivial⟩, trivial⟩
  have h₅ := h₄.tail_restrict (.dequeue rfl rfl)
    ⟨⟨trivial, ⟨trivial, trivial⟩, trivial⟩, trivial⟩
  have h₆ := h₅.tail_restrict (.offer rfl) ⟨⟨trivial, ⟨trivial, trivial⟩, trivial⟩, trivial⟩
  have h₇ := h₆.tail_restrict (.answer rfl) ⟨⟨trivial, ⟨trivial, trivial⟩, trivial⟩, trivial⟩
  have h₈ := h₇.tail_restrict (@Step.claim _ _ _ limitedJob (idleView "n") _
    (by decide +kernel) (Prod.ext (by decide +kernel) rfl))
    ⟨⟨trivial, ⟨trivial, trivial⟩, trivial⟩, trivial⟩
  have h₉ := h₈.tail_restrict (.spawn 0 rfl) ⟨⟨trivial, ⟨trivial, trivial⟩, trivial⟩, trivial⟩
  have h₁₀ := h₉.tail_restrict (@Step.accept _ _ _ _ [] _ rfl rfl)
    ⟨⟨trivial, ⟨trivial, trivial⟩, trivial⟩, trivial⟩
  exact ⟨_, _, h₁₀, rfl, rfl, by decide +kernel, by decide +kernel⟩

/-! ### The containers of a node -/

/-- In every run in which a node has the same capabilities whenever it registers,
whatever expires, is retried or called back: every container that an agent runs has a
limit on its cores, of at least one and at most those of its node; a limit on its
memory is within the memory of the node; and it gets the GPUs only of a node that has
one. -/
theorem every_container_fits {policy : P.Instance} {policyName : String} {ex : Execution}
    (h : Run (restrict (Step cfg) (FixedCapabilities caps)) (init policy policyName) tr s)
    (hex : ex ∈ s.executing) (dispatchedAt : Timestamp) :
    let options := containerLimits (ex.job.assignment dispatchedAt)
    (∃ cores, options.cores = some cores ∧ 1 ≤ cores ∧ cores ≤ (caps ex.nodeId).cpus) ∧
    (∀ m, options.memoryMb = some m → 1 ≤ m ∧ m ≤ (caps ex.nodeId).memoryMb) ∧
    (options.deviceRequests ≠ none → (caps ex.nodeId).gpu = true) := by
  have hsuited := (run_suited h).executing ex hex
  have hge := ex.job.requirements.cpuRequest_ge
  refine ⟨⟨_, containerLimits_cores, ?_, ?_⟩, fun m hm => ?_, fun hgpu => ?_⟩
  · exact_mod_cast hge
  · exact_mod_cast hsuited.cpus
  · rw [containerLimits_memoryMb] at hm
    exact ⟨ex.job.requirements.memoryMb_ge m hm, hsuited.memory m hm⟩
  · exact hsuited.gpu (containerLimits_deviceRequests.mp hgpu)

/-- The limits of a job on a node with one core and 64 MB. -/
theorem every_container_fits_limited :
    ∃ tr s, Run (restrict (Step {}) (FixedCapabilities smallNode)) defaultInit tr s ∧
      s.executing = [⟨limitedJob, "n", false⟩] ∧
      (containerLimits (limitedJob.assignment 0)).memLimit = some "48m" ∧
      ∀ m, (containerLimits (limitedJob.assignment 0)).memoryMb = some m → 1 ≤ m ∧ m ≤ 64 := by
  obtain ⟨tr, s, hrun, hexecuting, -⟩ := limited_run
  have hfixed := hrun.mono fun h => h.1.1
  have hmem : (⟨limitedJob, "n", false⟩ : Execution) ∈ s.executing := by
    rw [hexecuting]
    exact List.mem_singleton.mpr rfl
  exact ⟨tr, s, hfixed, hexecuting, by decide +kernel, (every_container_fits hfixed hmem 0).2.1⟩

theorem run_booked {policy : P.Instance} {policyName : String}
    (h : Run (restrict (Step cfg) (Isolated caps)) (init policy policyName) tr s) : Booked s :=
  h.invariant (booked_init policy policyName) fun hs hstep =>
    hs.step hstep.1.2.1 hstep.1.2.2 hstep.2

/-- A running job holds on its node what it declares. -/
theorem Booked.holds (h : Booked s) {ex : Execution} (hex : ex ∈ s.executing) :
    ∃ r, s.cluster.reservations.get? ex.job.jobId = some r ∧ r.nodeId = ex.nodeId ∧
      r.cpuRequest = ex.job.requirements.cpuRequest ∧
      r.memoryMb = ex.job.requirements.memoryOrZero := by
  obtain ⟨r, hr, hnode, -⟩ := h.reservation hex
  obtain ⟨job, hsub, hj, hcpu, hmemory⟩ := h.known.reservations _ r hr
  have hnodup : (s.history.submitted.map fun job => job.jobId).Nodup := by
    rw [List.nodup_iff_count_le_one]
    intro j
    simpa only [flow, Multiset.coe_count, submittedIds] using h.covered.tokens.submitted_le j
  obtain rfl := List.inj_on_of_nodup_map hnodup hsub (h.known.inFlight.executing ex hex) hj
  exact ⟨r, hr, hnode, hcpu, hmemory⟩

theorem Booked.nodup_executing (h : Booked s) :
    (s.executing.map fun ex => ex.job.jobId).Nodup := by
  rw [List.nodup_iff_count_le_one]
  intro j
  have halone := h.covered.alone_le j
  have htimes : JobFlow.times s.flow.running j
      = (s.executing.map fun ex => ex.job.jobId).count j := by
    simp only [flow, JobFlow.times, Multiset.map_coe, List.map_map, Multiset.coe_count]
    rfl
  omega

/-- So what the jobs of a node declare together is at most what is held there. -/
theorem Booked.sum_le_held (h : Booked s) {amount : Reservation → ℤ} {declared : JobRequest → ℤ}
    (hnonneg : ∀ j r, s.cluster.reservations.get? j = some r → 0 ≤ amount r)
    (hamount : ∀ (job : JobRequest) (r : Reservation),
      r.cpuRequest = job.requirements.cpuRequest →
      r.memoryMb = job.requirements.memoryOrZero → amount r = declared job) (n : NodeId) :
    ((s.executing.filter fun ex => ex.nodeId = n).map fun ex => declared ex.job).sum
      ≤ s.cluster.held (ClusterState.onNode n) amount := by
  have hnodup : ((s.executing.filter fun ex => ex.nodeId = n).map fun ex => ex.job.jobId).Nodup :=
    h.nodup_executing.sublist (List.filter_sublist.map _)
  refine Dict.sum_le_sumOn (fun e he => ?_) hnodup fun ex hex => ?_
  · have hle := hnonneg e.1 e.2 (Dict.get?_eq_some_iff.mpr he)
    split <;> omega
  · obtain ⟨hmem, hn⟩ := List.mem_filter.mp hex
    obtain ⟨r, hr, hnode, hcpu, hmemory⟩ := h.holds hmem
    refine ⟨r, hr, ?_⟩
    rw [if_pos (show ClusterState.onNode n ex.job.jobId r = true by
      rw [ClusterState.onNode, hnode]; exact hn)]
    exact (hamount ex.job r hcpu hmemory).symm

/-- In such a run: the containers of a node may together use no more cores than the node
has, and those with a limit on their memory no more memory. -/
theorem containers_share_node {policy : P.Instance} {policyName : String} {n : NodeId}
    (h : Run (restrict (Step cfg) (Isolated caps)) (init policy policyName) tr s)
    (hn : n ∈ s.cluster.registrations) (dispatchedAt : Execution → Timestamp) :
    let containers := (s.executing.filter fun ex => ex.nodeId = n).map fun ex =>
      containerLimits (ex.job.assignment (dispatchedAt ex))
    (∀ options ∈ containers, options.cores ≠ none) ∧
    (containers.map fun options => options.cores.getD 0).sum ≤ (caps n).cpus ∧
    (containers.map fun options => options.memoryMb.getD 0).sum ≤ (caps n).memoryMb := by
  intro containers
  have hbooked := run_booked h
  have hcapped := run_capped (h.mono fun hc => hc.1) (.inr rfl)
  obtain ⟨reg, hreg⟩ := Dict.mem_iff_get?.mp hn
  have hcaps := hcapped.fixed n reg hreg
  refine ⟨fun options hmem => ?_, ?_, ?_⟩
  · obtain ⟨ex, -, rfl⟩ := List.mem_map.mp hmem
    rw [containerLimits_cores]
    exact Option.some_ne_none _
  · have hcpus : ∀ j r, s.cluster.reservations.get? j = some r → 0 ≤ r.cpuRequest := by
      intro j r hr
      have hcharged := (hbooked.exact.charged j r hr).1
      omega
    have hheld := hbooked.sum_le_held hcpus (fun _ _ hcpu _ => hcpu) n
    have hcount : s.cluster.runningJobs.getD n 0 = s.cluster.heldCpus n :=
      hbooked.exact.getD_runningJobs hn
    have hwithin : s.cluster.runningJobs.getD n 0 ≤ reg.profile.capabilities.cpus :=
      (hcapped.bounded.runningJobs hreg).2
    rw [hcount, hcaps] at hwithin
    rw [List.map_map, Function.comp_def]
    simp only [containerLimits_cores, Option.getD_some]
    have hsum := hheld.trans hwithin
    rw [← Int.cast_le (R := ℚ), Int.cast_list_sum, List.map_map] at hsum
    exact hsum
  · have hmemory : ∀ j r, s.cluster.reservations.get? j = some r → 0 ≤ r.memoryMb :=
      fun j r hr => (hbooked.exact.charged j r hr).2
    have hheld := hbooked.sum_le_held hmemory (fun _ _ _ hmem => hmem) n
    have hcount : s.cluster.allocatedMemory.getD n 0 = s.cluster.heldMemory n :=
      hbooked.exact.allocatedMemory hn
    have hwithin : s.cluster.allocatedMemory.getD n 0 ≤ reg.profile.capabilities.memoryMb :=
      (hcapped.bounded.allocatedMemory hreg).2
    rw [hcount, hcaps] at hwithin
    rw [List.map_map, Function.comp_def]
    simp only [containerLimits_memoryMb]
    exact hheld.trans hwithin

/-- The same node has memory for that one. -/
theorem containers_share_node_limited :
    ∃ tr s, Run (restrict (Step {}) (Isolated smallNode)) defaultInit tr s ∧
      s.executing = [⟨limitedJob, "n", false⟩] ∧
      (((s.executing.filter fun ex => ex.nodeId = "n").map fun ex =>
        containerLimits (ex.job.assignment 0)).map fun options => options.memoryMb.getD 0).sum
        ≤ 64 := by
  obtain ⟨tr, s, hrun, hexecuting, -, hn, -⟩ := limited_run
  have hisolated := hrun.mono fun h => h.1
  exact ⟨tr, s, hisolated, hexecuting, (containers_share_node hisolated hn fun _ => 0).2.2⟩

/-! ### Results -/

/-- A container of the job has ended on the node with this exit code. -/
def Ended (tr : List (Scheduler P × Event)) (job : JobRequest) (n : NodeId) (exitCode : ℤ) : Prop :=
  ∃ p ∈ tr, ∃ result, p.2 = .callback result ∧ result.jobId = job.jobId ∧ result.nodeId = n ∧
    result.exitCode = exitCode ∧ (⟨job, n, false⟩ : Execution) ∈ p.1.executing

/-- What a result says: a container of a submitted job ended, and it succeeded exactly
when its exit code is zero. -/
def Told (tr : List (Scheduler P × Event)) (s : Scheduler P) (j : JobId) (n : NodeId)
    (success : Bool) (exitCode : ℤ) : Prop :=
  success = decide (exitCode = 0) ∧
    ∃ job ∈ s.history.submitted, job.jobId = j ∧ Ended tr job n exitCode

theorem Step.told (hs : Step cfg s e t) {j : JobId} {n : NodeId} {success : Bool} {exitCode : ℤ}
    (h : Told tr s j n success exitCode) : Told (tr ++ [(s, e)]) t j n success exitCode := by
  obtain ⟨hsuccess, job, hjob, hj, p, hp, hended⟩ := h
  exact ⟨hsuccess, job, hs.submitted_subset hjob, hj, p, List.mem_append_left _ hp, hended⟩

/-- Results tell the truth, on their way and in the table, and a completed job has
one. -/
structure Honest (tr : List (Scheduler P × Event)) (s : Scheduler P) : Prop where
  results : ∀ r ∈ s.results, Told tr s r.jobId r.nodeId r.success r.exitCode
  jobResults : ∀ j r, s.db.jobResults.get? j = some r → Told tr s j r.nodeId r.success r.exitCode
  completed : ∀ j row, s.db.jobs.get? j = some row → row.status = "completed" →
    ∃ r, s.db.jobResults.get? j = some r ∧ r.success = true

theorem honest_init (policy : P.Instance) (policyName : String) :
    Honest [] (init policy policyName) where
  results := fun _ h => absurd h List.not_mem_nil
  jobResults := by
    intro j r h
    cases h
  completed := by
    intro j row h
    cases h

/-- A callback tells the truth. -/
theorem Honest.step_results (h : Honest tr s) (hknown : Known s) (hf : FromAgents s e)
    (hs : Step cfg s e t) :
    ∀ r ∈ t.results, Told (tr ++ [(s, e)]) t r.jobId r.nodeId r.success r.exitCode := by
  have hkept := fun r hr => hs.told (h.results r hr)
  intro r hr
  cases hs with
  | callback he hjob hnode =>
      rcases List.mem_cons.mp hr with rfl | hr
      · obtain ⟨⟨job, nodeId, lost⟩, hex, hlost, dispatchedAt, outcome, startTime, endTime,
          completedAt, rfl⟩ := hf
        obtain rfl : lost = false := hlost
        exact ⟨rfl, job, hknown.inFlight.executing _ hex, rfl, (s, _),
          List.mem_append_right _ (List.mem_singleton.mpr rfl), _, rfl, rfl, rfl, rfl, hex⟩
      · exact hkept r hr
  | recordResult now hs =>
      rw [hs] at hkept
      exact hkept r (mem_split_of_mem hr)
  | failRecordResult hs =>
      rw [hs] at hkept
      exact hkept r (mem_split_of_mem hr)
  | _ => exact hkept r hr

theorem Honest.step_jobResults (h : Honest tr s) (hs : Step cfg s e t) :
    ∀ j r, t.db.jobResults.get? j = some r →
      Told (tr ++ [(s, e)]) t j r.nodeId r.success r.exitCode := by
  have hkept := fun j r hr => hs.told (h.jobResults j r hr)
  have hresults := fun r hr => hs.told (h.results r hr)
  intro j r hr
  cases hs with
  | insertSubmission now hs hdb =>
      obtain ⟨-, rfl⟩ := Database.submitJob_eq_some hdb
      exact hkept j r hr
  | @recordResult result pre post now hs =>
      rw [Database.recordJobResult_jobResults, Dict.get?_set] at hr
      split at hr
      · next hj =>
          obtain rfl := Option.some.inj hr
          subst hj
          exact hresults result (by rw [hs]; simp)
      · exact hkept j r hr
  | insertRun runId now hl hdb =>
      obtain ⟨-, hresults⟩ := Database.startRun_eq_some hdb
      rw [hresults] at hr
      exact hkept j r hr
  | _ => exact hkept j r hr

/-- Only `record_job_result` makes a job completed. -/
theorem Honest.step_completed (h : Honest tr s) (hs : Step cfg s e t) :
    ∀ j row, t.db.jobs.get? j = some row → row.status = "completed" →
      ∃ r, t.db.jobResults.get? j = some r ∧ r.success = true := by
  intro j row hrow hstatus
  cases hs with
  | insertSubmission now hs hdb =>
      obtain ⟨-, rfl⟩ := Database.submitJob_eq_some hdb
      simp only [Dict.get?_set] at hrow
      split at hrow
      · obtain rfl := Option.some.inj hrow
        exact absurd hstatus (show "queued" ≠ "completed" by decide)
      · exact h.completed j row hrow hstatus
  | @recordDispatch th pre post now ht hpc =>
      obtain ⟨row', hrow', rfl⟩ := Dict.of_get?_modify hrow
      refine h.completed j row' hrow' ?_
      split at hstatus
      · simp only [Database.dispatchedRow] at hstatus
        split at hstatus
        · exact hstatus
        · exact absurd hstatus (by decide)
      · exact hstatus
  | @markFailed th pre post ht hpc =>
      obtain ⟨row', hrow', rfl⟩ := Dict.of_get?_modify hrow
      split at hstatus
      · exact absurd hstatus (show "failed" ≠ "completed" by decide)
      · exact h.completed j row' hrow' hstatus
  | @recordResult result pre post now hs =>
      obtain ⟨row', hrow', rfl⟩ := Dict.of_get?_modify hrow
      rw [Database.recordJobResult_jobResults, Dict.get?_set]
      split at hstatus
      · next hj =>
          refine ⟨_, if_pos hj, ?_⟩
          rcases hsuccess : result.success with - | -
          · rw [hsuccess] at hstatus
            exact absurd hstatus (show "failed" ≠ "completed" by decide)
          · rfl
      · next hj =>
          rw [if_neg hj]
          exact h.completed j row' hrow' hstatus
  | insertRun runId now hl hdb =>
      obtain ⟨hjobs, hresults⟩ := Database.startRun_eq_some hdb
      rw [hjobs] at hrow
      rw [hresults]
      exact h.completed j row hrow hstatus
  | _ => exact h.completed j row hrow hstatus

/-- Handlers have submitted jobs, and the rows they insert describe them. -/
structure Described (s : Scheduler P) : Prop where
  nodup : s.submittedIds.Nodup
  submissions : ∀ handler ∈ s.submissions, handler.job ∈ s.history.submitted
  rows : ∀ j row, s.db.jobs.get? j = some row →
    ∃ job ∈ s.history.submitted, job.jobId = j ∧ row.image = job.image ∧ row.command = job.command

theorem described_init (policy : P.Instance) (policyName : String) :
    Described (init policy policyName) where
  nodup := List.nodup_nil
  submissions := fun _ h => absurd h List.not_mem_nil
  rows := by
    intro j row h
    cases h

theorem Described.step_submissions (h : Described s) (hs : Step cfg s e t) :
    ∀ handler ∈ t.submissions, handler.job ∈ t.history.submitted := by
  have hkept : ∀ handler ∈ s.submissions, handler.job ∈ t.history.submitted :=
    fun handler hmem => hs.submitted_subset (h.submissions handler hmem)
  intro handler hmem
  cases hs with
  | submit job =>
      rcases List.mem_cons.mp hmem with rfl | hmem
      · exact List.mem_append_right _ (List.mem_singleton.mpr rfl)
      · exact hkept handler hmem
  | tagSubmission now hs =>
      rw [hs, forall_mem_split] at hkept
      exact (forall_mem_split (q := fun handler => handler.job ∈ _)).mpr hkept handler hmem
  | insertSubmission now hs hdb =>
      rw [hs, forall_mem_split] at hkept
      exact hkept.2 handler hmem
  | failSubmission hs =>
      rw [hs, forall_mem_split] at hkept
      exact hkept.2 handler hmem
  | _ => exact hkept handler hmem

/-- No write changes the image or the command of a row. -/
theorem Described.step_rows (h : Described s) (hs : Step cfg s e t) :
    ∀ j row, t.db.jobs.get? j = some row →
      ∃ job ∈ t.history.submitted, job.jobId = j ∧ row.image = job.image ∧
        row.command = job.command := by
  have hkept : ∀ j row, s.db.jobs.get? j = some row →
      ∃ job ∈ t.history.submitted, job.jobId = j ∧ row.image = job.image ∧
        row.command = job.command := by
    intro j row hrow
    obtain ⟨job, hjob, hdescribed⟩ := h.rows j row hrow
    exact ⟨job, hs.submitted_subset hjob, hdescribed⟩
  have hmodified : ∀ {k : JobId} {f : JobRow → JobRow} {db : Database},
      db.jobs = s.db.jobs.modify k f →
      (∀ row, (f row).image = row.image ∧ (f row).command = row.command) →
      ∀ j row, db.jobs.get? j = some row →
        ∃ job ∈ t.history.submitted, job.jobId = j ∧ row.image = job.image ∧
          row.command = job.command := by
    intro k f db hdb hf j row hrow
    obtain ⟨row', hrow', rfl⟩ := Dict.of_get?_modify (hdb ▸ hrow)
    split
    · rw [(hf row').1, (hf row').2]
      exact hkept j row' hrow'
    · exact hkept j row' hrow'
  intro j row hrow
  cases hs with
  | @insertSubmission job runId at' pre post db now hs hdb =>
      obtain ⟨-, rfl⟩ := Database.submitJob_eq_some hdb
      simp only [Dict.get?_set] at hrow
      split at hrow
      · next hj =>
          obtain rfl := Option.some.inj hrow
          exact ⟨job, h.submissions (.tagged job runId at') (by rw [hs]; simp), hj.symm, rfl, rfl⟩
      · exact hkept j row hrow
  | recordDispatch now ht hpc =>
      exact hmodified (Database.dispatchJob_jobs ..) (fun _ => ⟨rfl, rfl⟩) j row hrow
  | markFailed ht hpc =>
      exact hmodified (Database.markJobFailed_jobs _) (fun _ => ⟨rfl, rfl⟩) j row hrow
  | recordResult now hr =>
      exact hmodified (Database.recordJobResult_jobs ..) (fun _ => ⟨rfl, rfl⟩) j row hrow
  | insertRun runId now hl hdb =>
      rw [(Database.startRun_eq_some hdb).1] at hrow
      exact hkept j row hrow
  | _ => exact hkept j row hrow

theorem Described.step (h : Described s) (hfresh : FreshIds s e) (hs : Step cfg s e t) :
    Described t where
  nodup := by
    unfold submittedIds
    rcases hs.submitted_eq with heq | ⟨job, rfl, heq⟩
    · rw [heq]
      exact h.nodup
    · rw [heq, List.map_append, List.map_singleton]
      exact h.nodup.append (List.nodup_singleton _) (List.disjoint_singleton.mpr hfresh)
  submissions := h.step_submissions hs
  rows := h.step_rows hs

/-- In every run with distinct ids whose callbacks come from the agents, whatever is
lost, retried or expires: a result in the database says success exactly when the exit
code is zero, and of a job that is completed the agent of the node in its result has
run a container, with the image and the command of the row, to exit code zero. -/
theorem completed_jobs_ran {policy : P.Instance} {policyName : String}
    (h : Run (restrict (Step cfg) fun s e => FreshIds s e ∧ FromAgents s e)
      (init policy policyName) tr s) :
    (∀ j r, s.db.jobResults.get? j = some r → (r.success = true ↔ r.exitCode = 0)) ∧
    ∀ j row, s.db.jobs.get? j = some row → row.status = "completed" →
      ∃ r job, s.db.jobResults.get? j = some r ∧ r.exitCode = 0 ∧
        Ended tr job r.nodeId 0 ∧ job.jobId = j ∧ job.image = row.image ∧
        job.command = row.command := by
  have hrun : Known s ∧ Described s ∧ Honest tr s := by
    refine h.invariant_trace (I := fun tr s => Known s ∧ Described s ∧ Honest tr s)
      ⟨known_init policy policyName, described_init policy policyName,
        honest_init policy policyName⟩ ?_
    rintro tr s e t - ⟨hknown, hdescribed, hhonest⟩ ⟨⟨hfresh, hagents⟩, hstep⟩
    exact ⟨hknown.step hstep, hdescribed.step hfresh hstep,
      hhonest.step_results hknown hagents hstep, hhonest.step_jobResults hstep,
      hhonest.step_completed hstep⟩
  obtain ⟨-, hdescribed, hhonest⟩ := hrun
  refine ⟨fun j r hr => ?_, fun j row hrow hstatus => ?_⟩
  · rw [(hhonest.jobResults j r hr).1, decide_eq_true_eq]
  · obtain ⟨r, hr, hsuccess⟩ := hhonest.completed j row hrow hstatus
    obtain ⟨htold, job, hjob, hj, hended⟩ := hhonest.jobResults j r hr
    have hzero : r.exitCode = 0 := of_decide_eq_true (htold.symm.trans hsuccess)
    obtain ⟨job', hjob', hj', himage, hcommand⟩ := hdescribed.rows j row hrow
    -- the row describes the job that ran, since ids are distinct
    obtain rfl := List.inj_on_of_nodup_map hdescribed.nodup hjob hjob' (hj.trans hj'.symm)
    exact ⟨r, job, hr, hzero, hzero ▸ hended, hj, himage.symm, hcommand.symm⟩

/-- The container of that job exits with zero, and its result is recorded. -/
theorem completed_jobs_ran_limited :
    ∃ tr s, Run (restrict (Step {}) fun s e => FreshIds s e ∧ FromAgents s e) defaultInit tr s ∧
      s.db.RowIs "j" (fun row => row.status = "completed") ∧
      ∃ r job, s.db.jobResults.get? "j" = some r ∧ r.exitCode = 0 ∧ Ended tr job r.nodeId 0 := by
  obtain ⟨tr, s, hrun, hexecuting, hresults, -, hjobs⟩ := limited_run
  have h₀ := hrun.mono fun h => (⟨h.1.2.1.1, h.2⟩ : FreshIds _ _ ∧ FromAgents _ _)
  have hmem : (⟨limitedJob, "n", false⟩ : Execution) ∈ s.executing := by
    rw [hexecuting]
    exact List.mem_singleton.mpr rfl
  have h₁ := h₀.tail_restrict (@Step.callback _ _ _
    (runAndCallback "n" (limitedJob.assignment 0) (.exited 0) 0 2 9) _ [] _ hexecuting rfl rfl rfl)
    ⟨trivial, _, hmem, rfl, 0, .exited 0, 0, 2, 9, rfl⟩
  have h₂ := h₁.tail_restrict (@Step.recordResult _ _ _ _ [] _ 9 rfl) ⟨trivial, trivial⟩
  have hrow : "j" ∈ s.db.jobs := by
    rw [Dict.mem_def, hjobs]
    exact List.mem_singleton.mpr rfl
  have hcompleted : (s.db.recordJobResult "j" "n" true 2 0 (some 9) 9).RowIs "j"
      fun row => row.status = "completed" :=
    Database.rowIs_modify hrow (Database.recordJobResult_jobs ..) fun _ => rfl
  obtain ⟨row, hget, hstatus⟩ := id hcompleted
  obtain ⟨r, job, hr, hzero, hended, -⟩ := (completed_jobs_ran h₂).2 "j" row hget hstatus
  exact ⟨_, _, h₂, hcompleted, r, job, hr, hzero, hended⟩

end Scheduler

end HeteroSched
