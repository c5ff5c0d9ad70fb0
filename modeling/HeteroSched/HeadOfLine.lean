/-
HeteroSched/HeadOfLine.lean

What the job in the dispatcher's hand means for the jobs behind it.

Design.  The dispatcher takes a job off the queue and keeps it until a node has
room, so it places the jobs in the order of the queue and no other way.  A job
in its hand that exceeds every registered node is therefore never put down, and
nothing behind it is placed, whatever else happens, as long as no node registers
(`Step.stuck`).  When the jobs ahead of a job each find a node with room, they
are placed one after the other: each is accepted, ends and gives its slots back,
so the next one finds the room it had (`Served`), and then it is that job's turn.
-/
import HeteroSched.AtMostOnce
import HeteroSched.Placement

namespace HeteroSched

open Transition

namespace Scheduler

/-! ### A job that exceeds every node -/

section Stuck

variable {P : PolicyRegistry} {cfg : Config} {s t : Scheduler P} {e : Event} {job : JobRequest}

/-- The requirements of the job exceed the total capabilities of every registered
node. -/
def ExceedsNodes (c : ClusterState) (job : JobRequest) : Prop :=
  ∀ n reg, c.registrations.get? n = some reg →
    (job.requirements.requiresGpu = true ∧ reg.profile.capabilities.gpu = false) ∨
    job.requirements.cpuRequest > reg.profile.capabilities.cpus ∨
    ∃ m ∈ job.requirements.memoryMb, m > reg.profile.capabilities.memoryMb

theorem ExceedsNodes.canTake {c : ClusterState} (h : ExceedsNodes c job) (hs : c.Sound)
    (n : NodeId) : c.canTake n job = false := by
  rw [Bool.eq_false_iff]
  intro htake
  obtain ⟨reg, hreg, hfits⟩ := ClusterState.canTake_iff.mp htake
  obtain ⟨hgpu, hcpu, hmem⟩ := (c.fits_iff reg job).mp hfits
  rcases h n reg hreg with ⟨hneeds, hnone⟩ | hmore | ⟨m, hm, hmore⟩
  · rw [hgpu hneeds] at hnone
    cases hnone
  · have hnonneg := hs.cpus reg.nodeId
    omega
  · have hnonneg := hs.memory reg.nodeId
    have hfit := hmem m hm
    omega

theorem ExceedsNodes.getAvailableNodes {c : ClusterState} (h : ExceedsNodes c job)
    (hs : c.Sound) : c.getAvailableNodes job = [] := by
  rw [List.eq_nil_iff_forall_not_mem]
  intro v hv
  have htake := (ClusterState.mem_getAvailableNodes.mp hv).2
  rw [h.canTake hs v.nodeId] at htake
  cases htake

/-- Without a registration no node is new or reports anything new. -/
theorem Step.registrations_get? (h : Step cfg s e t) (he : ∀ reg, e ≠ .register reg)
    {n : NodeId} {reg : NodeRegistration} (hreg : t.cluster.registrations.get? n = some reg) :
    s.cluster.registrations.get? n = some reg := by
  cases h with
  | register registration => exact absurd rfl (he registration)
  | expire timeoutSeconds now => exact (ClusterState.removeExpiredNodes_cases hreg).2
  | dequeue hd hq =>
      obtain ⟨rest, -, rfl⟩ := ClusterState.dequeueJob_eq_some hq
      exact hreg
  | claim hd hr =>
      obtain ⟨reg', -, -, rfl⟩ := ClusterState.reserveSlot_eq_true hr
      exact hreg
  | refuseClaim hd hr =>
      obtain rfl := ClusterState.reserveSlot_eq_false hr
      exact hreg
  | release ht hpc => rwa [ClusterState.releaseSlot_registrations] at hreg
  | callback he' hjob hnode => rwa [ClusterState.releaseSlot_registrations] at hreg
  | _ => exact hreg

/-- The dispatcher has the job in its hand and no node can take it. -/
structure Stuck (job : JobRequest) (s : Scheduler P) : Prop where
  sound : s.cluster.Sound
  exceeds : ExceedsNodes s.cluster job
  dispatcher : s.dispatcher = .asking job ∨ s.dispatcher = .offered job []

/-- The dispatcher stays stuck until a node registers.  Meanwhile it places
nothing, and the queue only grows. -/
theorem Step.stuck (h : Step cfg s e t) (hs : Stuck job s) (he : ∀ reg, e ≠ .register reg) :
    Stuck job t ∧ t.history.reserved = s.history.reserved ∧
      ∀ waiting ∈ s.cluster.jobQueue, waiting ∈ t.cluster.jobQueue := by
  have hsound := h.sound hs.sound
  have hexceeds : ExceedsNodes t.cluster job := fun n reg hreg =>
    hs.exceeds n reg (h.registrations_get? he hreg)
  cases h with
  | register registration => exact absurd rfl (he registration)
  | submit queued =>
      exact ⟨⟨hsound, hexceeds, hs.dispatcher⟩, rfl, fun _ hw => List.mem_append_left _ hw⟩
  | requeue ht hpc hmax =>
      exact ⟨⟨hsound, hexceeds, hs.dispatcher⟩, rfl, fun _ hw => List.mem_append_left _ hw⟩
  | dequeue hd hq => exact absurd hs.dispatcher (by simp [hd])
  | @offer held hd =>
      -- the list is empty, since no node can take the job
      refine ⟨⟨hsound, hexceeds, Or.inr ?_⟩, rfl, fun _ hw => hw⟩
      obtain rfl : held = job := by simpa [hd] using hs.dispatcher
      show Dispatcher.offered _ _ = _
      rw [hs.exceeds.getAvailableNodes hs.sound]
  | @answer held available hd =>
      -- and an empty list has no node to answer with
      refine ⟨⟨hsound, hexceeds, Or.inl ?_⟩, rfl, fun _ hw => hw⟩
      obtain ⟨rfl, rfl⟩ : held = job ∧ available = [] := by simpa [hd] using hs.dispatcher
      exact Dispatcher.answered_nil _ _
  | claim hd hr => exact absurd hs.dispatcher (by simp [hd])
  | refuseClaim hd hr => exact absurd hs.dispatcher (by simp [hd])
  | spawn now hd => exact absurd hs.dispatcher (by simp [hd])
  | release ht hpc =>
      refine ⟨⟨hsound, hexceeds, hs.dispatcher⟩, rfl, fun _ hw => ?_⟩
      rwa [ClusterState.releaseSlot_jobQueue]
  | callback he' hjob hnode =>
      refine ⟨⟨hsound, hexceeds, hs.dispatcher⟩, rfl, fun _ hw => ?_⟩
      rwa [ClusterState.releaseSlot_jobQueue]
  | _ => exact ⟨⟨hsound, hexceeds, hs.dispatcher⟩, rfl, fun _ hw => hw⟩

/-- No node registers. -/
def NoRegistration (_ : Scheduler P) (e : Event) : Prop := ∀ registration, e ≠ .register registration

theorem run_stuck {tr : List (Scheduler P × Event)} (hs : Stuck job s)
    (h : Run (restrict (Step cfg) NoRegistration) s tr t) :
    Stuck job t ∧ t.history.reserved = s.history.reserved ∧
      ∀ waiting ∈ s.cluster.jobQueue, waiting ∈ t.cluster.jobQueue := by
  refine h.invariant (I := fun t => Stuck job t ∧ t.history.reserved = s.history.reserved ∧
    ∀ waiting ∈ s.cluster.jobQueue, waiting ∈ t.cluster.jobQueue) ⟨hs, rfl, fun _ hw => hw⟩ ?_
  rintro u e v ⟨hu, hreserved, hqueue⟩ ⟨he, hstep⟩
  obtain ⟨hv, hsame, hgrows⟩ := hstep.stuck hu he
  exact ⟨hv, hsame.trans hreserved, fun waiting hw => hgrows waiting (hqueue waiting hw)⟩

end Stuck

/-! ### Jobs that find room -/

variable {cfg : Config} {s t u : Scheduler policies} {e : Event}
variable {tr : List (Scheduler policies × Event)} {job : JobRequest} {node : NodeView}

/-- What was placed goes on: the thread starts, the agent accepts the job, the
job ends and calls back. -/
def Finishing : Event → Prop
  | .spawn .. | .accept _ | .callback _ => True
  | _ => False

/-- The iterations of the dispatcher, and what was placed going on. -/
def OnlyDispatching (_ : Scheduler policies) (e : Event) : Prop := OfDispatcher e ∨ Finishing e

/-- From `s` the dispatcher placed the jobs and is idle, the rest of the queue is
left, and what it placed has ended: the nodes have the room they had. -/
structure Served (cfg : Config) (s : Scheduler policies) (jobs rest : List JobRequest)
    (t : Scheduler policies) : Prop where
  run : ∃ tr, Run (restrict (Step cfg) OnlyDispatching) s tr t
  dispatcher : t.dispatcher = .idle
  queue : t.cluster.jobQueue = rest
  reserved : t.history.reserved = s.history.reserved ++ jobs
  eased : ClusterState.Eased s.cluster t.cluster

variable {jobs jobs' rest rest' : List JobRequest}

theorem sound_of_run {A : Scheduler policies → Event → Prop} (hs : s.cluster.Sound)
    (h : Run (restrict (Step cfg) A) s tr t) : t.cluster.Sound :=
  h.invariant (I := fun s => s.cluster.Sound) hs fun hs h => h.2.sound hs

theorem Served.sound (h : Served cfg s jobs rest t) (hs : s.cluster.Sound) : t.cluster.Sound := by
  obtain ⟨tr, hrun⟩ := h.run
  exact sound_of_run hs hrun

theorem Served.trans (h : Served cfg s jobs rest t) (h' : Served cfg t jobs' rest' u) :
    Served cfg s (jobs ++ jobs') rest' u := by
  obtain ⟨tr, hrun⟩ := h.run
  obtain ⟨tr', hrun'⟩ := h'.run
  refine ⟨⟨tr ++ tr', hrun.append hrun'⟩, h'.dispatcher, h'.queue, ?_, h.eased.trans h'.eased⟩
  rw [h'.reserved, h.reserved, List.append_assoc]

/-- Steps before that place nothing and take no room. -/
theorem Served.of_run (hrun : Run (restrict (Step cfg) OnlyDispatching) s tr u)
    (hreserved : u.history.reserved = s.history.reserved)
    (heased : ClusterState.Eased s.cluster u.cluster) (h : Served cfg u jobs rest t) :
    Served cfg s jobs rest t := by
  obtain ⟨tr', hrun'⟩ := h.run
  exact ⟨⟨_, hrun.append hrun'⟩, h.dispatcher, h.queue, by rw [h.reserved, hreserved],
    heased.trans h.eased⟩

/-- The report of a job that ended on the node it was placed on. -/
def reportOf (job : JobRequest) (node : NodeView) : JobResult where
  jobId := job.jobId
  nodeId := node.nodeId
  success := true
  runtimeSeconds := 0
  exitCode := 0

/-- A chosen node that can take the job takes it, runs it and is free again. -/
theorem served_claim (hs : s.cluster.Sound) (hd : s.dispatcher = .chosen job node)
    (htake : s.cluster.canTake node.nodeId job = true) :
    ∃ t, Served cfg s [job] s.cluster.jobQueue t := by
  have h₀ : Run (restrict (Step cfg) OnlyDispatching) s [] s := .refl
  have h₁ := h₀.tail_restrict (.claim hd (ClusterState.reserveSlot_of_canTake htake))
    (Or.inl trivial)
  have h₂ := h₁.tail_restrict (.spawn 0 rfl) (Or.inl trivial)
  have h₃ := h₂.tail_restrict (@Step.accept _ _ _ _ [] _ rfl rfl) (Or.inr trivial)
  have h₄ := h₃.tail_restrict (@Step.callback _ _ _ (reportOf job node) _ [] _ rfl rfl rfl rfl)
    (Or.inr trivial)
  refine ⟨_, ⟨_, h₄⟩, rfl, ?_, rfl, hs.eased_reserved_releaseSlot node.nodeId job⟩
  exact ClusterState.releaseSlot_jobQueue _ _

/-- A job in hand that some node can take is placed. -/
theorem served_asking (hs : s.cluster.Sound) (hd : s.dispatcher = .asking job)
    (htake : ∃ n, s.cluster.canTake n job = true) :
    ∃ t, Served cfg s [job] s.cluster.jobQueue t := by
  obtain ⟨n, hn⟩ := htake
  obtain ⟨v, hv, -⟩ := ClusterState.exists_available hn
  obtain ⟨node, hnode, hanswer⟩ :=
    Policy.selectNode_mem s.policy (List.ne_nil_of_mem hv) job
  have h₀ : Run (restrict (Step cfg) OnlyDispatching) s [] s := .refl
  have h₁ := h₀.tail_restrict (.offer hd) (Or.inl trivial)
  have h₂ := h₁.tail_restrict (.answer rfl) (Or.inl trivial)
  have hchosen : Dispatcher.answered job (s.cluster.getAvailableNodes job)
      (policies.selectNode s.policy (s.cluster.getAvailableNodes job) job).1
      = .chosen job node := by
    rw [show (policies.selectNode s.policy (s.cluster.getAvailableNodes job) job).1 = some node
      from hanswer, Dispatcher.answered_of_mem hnode]
  obtain ⟨t, ht⟩ := served_claim (sound_of_run hs h₂) hchosen
    (ClusterState.mem_getAvailableNodes.mp hnode).2
  exact ⟨t, ht.of_run h₂ rfl (.refl _)⟩

/-- A chosen node that filled up is given up for another one. -/
theorem served_chosen (hs : s.cluster.Sound) (hd : s.dispatcher = .chosen job node)
    (htake : ∃ n, s.cluster.canTake n job = true) :
    ∃ t, Served cfg s [job] s.cluster.jobQueue t := by
  rcases hnode : s.cluster.canTake node.nodeId job
  · have h₀ : Run (restrict (Step cfg) OnlyDispatching) s [] s := .refl
    have h₁ := h₀.tail_restrict (.refuseClaim hd (ClusterState.reserveSlot_of_not_canTake hnode))
      (Or.inl trivial)
    obtain ⟨t, ht⟩ := served_asking (sound_of_run hs h₁) rfl htake
    exact ⟨t, ht.of_run h₁ rfl (.refl _)⟩
  · exact served_claim hs hd hnode

/-- From wherever the dispatcher is, it places the job in its hand. -/
theorem served_hand (hs : s.cluster.Sound)
    (htake : ∀ job ∈ s.dispatcher.held, ∃ n, s.cluster.canTake n job = true) :
    ∃ t, Served cfg s s.dispatcher.held.toList s.cluster.jobQueue t := by
  have h₀ : Run (restrict (Step cfg) OnlyDispatching) s [] s := .refl
  rcases hd : s.dispatcher with - | job | ⟨job, available⟩ | ⟨job, node⟩ | ⟨job, node⟩
  · exact ⟨s, ⟨[], .refl⟩, hd, rfl, (List.append_nil _).symm, .refl _⟩
  · exact served_asking hs hd (htake job (by rw [hd]; rfl))
  · -- the policy is asked about the list as it was, and may decline
    have hfit := htake job (by rw [hd]; rfl)
    have h₁ := h₀.tail_restrict (.answer hd) (Or.inl trivial)
    have hs₁ := sound_of_run hs h₁
    rcases hanswer : vetAnswer available (policies.selectNode s.policy available job).1
      with - | node
    · obtain ⟨t, ht⟩ := served_asking hs₁
        (by show Dispatcher.answered _ _ _ = _; rw [Dispatcher.answered, hanswer]) hfit
      exact ⟨t, ht.of_run h₁ rfl (.refl _)⟩
    · obtain ⟨t, ht⟩ := served_chosen hs₁
        (by show Dispatcher.answered _ _ _ = _; rw [Dispatcher.answered, hanswer]) hfit
      exact ⟨t, ht.of_run h₁ rfl (.refl _)⟩
  · exact served_chosen hs hd (htake job (by rw [hd]; rfl))
  · have h₁ := h₀.tail_restrict (.spawn 0 hd) (Or.inl trivial)
    exact ⟨_, ⟨_, h₁⟩, rfl, rfl, (List.append_nil _).symm, .refl _⟩

/-- An idle dispatcher works off the front of the queue. -/
theorem served_queue (jobs : List JobRequest) (hs : s.cluster.Sound) (hd : s.dispatcher = .idle)
    (hq : s.cluster.jobQueue = jobs ++ rest)
    (htake : ∀ job ∈ jobs, ∃ n, s.cluster.canTake n job = true) :
    ∃ t, Served cfg s jobs rest t := by
  induction jobs generalizing s with
  | nil => exact ⟨s, ⟨[], .refl⟩, hd, hq, (List.append_nil _).symm, .refl _⟩
  | cons job jobs ih =>
      obtain ⟨hfirst, hrest⟩ := List.forall_mem_cons.mp htake
      have h₀ : Run (restrict (Step cfg) OnlyDispatching) s [] s := .refl
      have h₁ := h₀.tail_restrict (.dequeue hd (by rw [ClusterState.dequeueJob, hq]; rfl))
        (Or.inl trivial)
      obtain ⟨t, ht⟩ := served_asking (sound_of_run hs h₁) rfl hfirst
      have hserved : Served cfg s [job] (jobs ++ rest) t := ht.of_run h₁ rfl (.of_eq rfl rfl rfl)
      have hsound := hserved.sound hs
      -- the nodes have the room they had, so the next job still fits
      obtain ⟨u, hu⟩ := ih hsound hserved.dispatcher hserved.queue fun next hnext =>
        (hrest next hnext).imp fun n hn => hserved.eased.canTake hs.keyed hsound.keyed hn
      exact ⟨u, hserved.trans hu⟩

/-! ### The theorem -/

theorem Step.finishing (h : Step cfg s e t) (hs : s.cluster.Sound) (he : Finishing e) :
    t.dispatcher.held = s.dispatcher.held ∧ t.cluster.jobQueue = s.cluster.jobQueue ∧
      t.history.reserved = s.history.reserved ∧ ClusterState.Eased s.cluster t.cluster := by
  have heased : ClusterState.Eased s.cluster t.cluster := by
    refine h.eased hs ?_ ?_
    · cases e <;> trivial
    · rintro job node rfl
      exact he
  cases h with
  | spawn now hd => exact ⟨by rw [hd]; rfl, rfl, rfl, heased⟩
  | accept ht hpc => exact ⟨rfl, rfl, rfl, heased⟩
  | callback hex hjob hnode =>
      exact ⟨rfl, ClusterState.releaseSlot_jobQueue _ _, rfl, heased⟩
  | _ => exact absurd he (by simp [Finishing])

theorem run_finishing (hs : s.cluster.Sound)
    (h : Run (restrict (Step cfg) fun _ e => Finishing e) s tr t) :
    t.dispatcher.held = s.dispatcher.held ∧ t.cluster.jobQueue = s.cluster.jobQueue ∧
      t.history.reserved = s.history.reserved ∧ ClusterState.Eased s.cluster t.cluster := by
  refine (h.invariant (I := fun t => t.cluster.Sound ∧ t.dispatcher.held = s.dispatcher.held ∧
    t.cluster.jobQueue = s.cluster.jobQueue ∧ t.history.reserved = s.history.reserved ∧
    ClusterState.Eased s.cluster t.cluster) ⟨hs, rfl, rfl, rfl, .refl _⟩ ?_).2
  rintro u e v ⟨hsound, hheld, hqueue, hreserved, heased⟩ ⟨he, hstep⟩
  obtain ⟨hheld', hqueue', hreserved', heased'⟩ := hstep.finishing hsound he
  exact ⟨hstep.sound hsound, hheld'.trans hheld, hqueue'.trans hqueue,
    hreserved'.trans hreserved, heased.trans heased'⟩

/-- A job in the queue that some node would accept now gets a reservation by
iterations of the dispatcher and callbacks alone, when some jobs can finish such
that each job ahead of it, in the dispatcher's hand or in the queue, would be
accepted by some node too. -/
theorem reserved_after_jobs_ahead {policy : Policy} {policyName : String}
    {tr₀ : List (Scheduler policies × Event)}
    (h₀ : Run (Step cfg) (init (P := policies) policy policyName) tr₀ s)
    {ahead behind : List JobRequest} (hq : s.cluster.jobQueue = ahead ++ job :: behind)
    (haccept : ∃ n, (s.cluster.reserveSlot n job).1 = true)
    (h : Run (restrict (Step cfg) fun _ e => Finishing e) s tr t)
    (hahead : ∀ earlier ∈ s.dispatcher.held.toList ++ ahead,
      ∃ n, (t.cluster.reserveSlot n earlier).1 = true) :
    ∃ tr' u r, Run (restrict (Step cfg) OnlyDispatching) s tr' u ∧
      u.history.reserved = s.history.reserved ++ s.dispatcher.held.toList ++ ahead ++ [job] ∧
      u.cluster.reservations.get? job.jobId = some r := by
  simp only [ClusterState.reserveSlot_fst] at haccept hahead
  have hs := run_sound h₀
  have ht := sound_of_run hs h
  obtain ⟨hheld, hqueue, hreserved, heased⟩ := run_finishing hs h
  -- the job in hand first
  obtain ⟨v, hv⟩ : ∃ v, Served cfg t t.dispatcher.held.toList t.cluster.jobQueue v :=
    served_hand ht fun earlier hearlier =>
      hahead earlier (List.mem_append_left _ (Option.mem_toList.mpr (hheld ▸ hearlier)))
  rw [hheld, hqueue, hq] at hv
  have hv' := hv.of_run (h.mono Or.inr) hreserved heased
  have hvs := hv.sound ht
  -- then the jobs ahead in the queue
  obtain ⟨w, hw⟩ : ∃ w, Served cfg v ahead (job :: behind) w :=
    served_queue ahead hvs hv.dispatcher hv.queue fun earlier hearlier =>
      (hahead earlier (List.mem_append_right _ hearlier)).imp fun n hn =>
        hv.eased.canTake ht.keyed hvs.keyed hn
  have hall := hv'.trans hw
  -- and then the job itself, which the nodes still have room for
  obtain ⟨n, hn⟩ := haccept
  have htake := hall.eased.canTake hs.keyed (hall.sound hs).keyed hn
  obtain ⟨view, hview, -⟩ := ClusterState.exists_available htake
  obtain ⟨node, hnode, hanswer⟩ :=
    Policy.selectNode_mem w.policy (List.ne_nil_of_mem hview) job
  obtain ⟨tr', hrun⟩ := hall.run
  obtain ⟨tr'', hlast, -, -⟩ := dispatch_run hrun (fun _ _ => Or.inl) hall.dispatcher hall.queue
    node hanswer hnode 0
  refine ⟨tr'', _, _, hlast, ?_, Dict.get?_set_self _ _ _⟩
  show w.history.reserved ++ [job] = _
  rw [hall.reserved, List.append_assoc, List.append_assoc, List.append_assoc, List.append_assoc]

/-- Two jobs and one core: the second gets it after the first. -/
theorem reserved_after_jobs_ahead_two :
    ∃ tr s tr' u r, Run (Step {}) defaultInit tr s ∧
      s.cluster.jobQueue = [ClusterState.jobOf "i", ClusterState.jobOf "j"] ∧
      Run (restrict (Step {}) OnlyDispatching) s tr' u ∧
      u.history.reserved = [ClusterState.jobOf "i", ClusterState.jobOf "j"] ∧
      u.cluster.reservations.get? "j" = some r := by
  have h₀ : Run (Step {}) defaultInit [] defaultInit := .refl
  have h₁ := ((h₀.tail (.register (ClusterState.nodeOf "n" 1 64))).tail
    (.submit (ClusterState.jobOf "i"))).tail (.submit (ClusterState.jobOf "j"))
  obtain ⟨tr, u, r, hrun, hreserved, hr⟩ := reserved_after_jobs_ahead h₁
    (show _ = [ClusterState.jobOf "i"] ++ ClusterState.jobOf "j" :: [] from rfl)
    ⟨"n", by decide +kernel⟩ .refl (List.forall_mem_singleton.mpr ⟨"n", by decide +kernel⟩)
  exact ⟨_, _, tr, u, r, h₁, rfl, hrun, hreserved, hr⟩

/-! ### A job behind one that needs a GPU -/

/-- A job that needs a GPU. -/
def gpuJob : JobRequest where
  jobId := "k"
  image := "alpine"
  requirements := { (ClusterState.jobOf "k").requirements with requiresGpu := true }

/-- The only node has no GPU, and a job that needs one is in the dispatcher's
hand: the job in the queue fits the node and is not placed, whatever happens
short of a registration. -/
theorem blocked_behind_gpu_job :
    ∃ tr s, Run (Step {}) defaultInit tr s ∧ s.dispatcher = .asking gpuJob ∧
      s.cluster.jobQueue = [ClusterState.jobOf "j"] ∧
      (s.cluster.reserveSlot "n" (ClusterState.jobOf "j")).1 = true ∧
      ∀ tr' t, Run (restrict (Step {}) NoRegistration) s tr' t →
        t.history.reserved = [] ∧ ClusterState.jobOf "j" ∈ t.cluster.jobQueue := by
  have h₀ : Run (Step {}) defaultInit [] defaultInit := .refl
  have h₁ := (((h₀.tail (.register (ClusterState.nodeOf "n" 1 64))).tail
    (.submit gpuJob)).tail (.submit (ClusterState.jobOf "j"))).tail (.dequeue rfl rfl)
  have hexceeds : ExceedsNodes
      (defaultInit.cluster.registerNode (ClusterState.nodeOf "n" 1 64)) gpuJob := by
    intro n reg hreg
    rw [ClusterState.registerNode_registrations, Dict.get?_set] at hreg
    split at hreg
    · obtain rfl := Option.some.inj hreg
      exact Or.inl ⟨rfl, rfl⟩
    · cases hreg
  refine ⟨_, _, h₁, rfl, rfl, by decide +kernel, fun tr' t h => ?_⟩
  obtain ⟨-, hreserved, hqueue⟩ := run_stuck ⟨run_sound h₁, hexceeds, Or.inl rfl⟩ h
  exact ⟨hreserved, hqueue _ List.mem_cons_self⟩

end Scheduler

end HeteroSched
