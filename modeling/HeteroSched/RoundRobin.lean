/-
HeteroSched/RoundRobin.lean

Where the round-robin policy places jobs on a fixed set of nodes.

Design.  On fixed nodes a chosen node is always reserved, so the counter of the
policy counts the placements (`Cycling`), and the node of the kth one is entry
`k` of the list that was offered for it, modulo the length of that list.  The
list has only the nodes with room at that moment.  So both promises of the
policy hold as far as the lists stay the same: two runs agree on a placement
when the same nodes had room (`round_robin_reproducible`), and a node whose
place in the list does not move gets its turn (`round_robin_covers`).  When
nodes fill up and free in between, either fails.
-/
import HeteroSched.AtMostOnce
import HeteroSched.Conservation
import HeteroSched.Placement
import HeteroSched.Provenance

namespace HeteroSched

open Transition

namespace Scheduler

variable {cfg cfg' : Config} {s s' s₀ s₀' t : Scheduler policies} {e : Event}
variable {tr tr' : List (Scheduler policies × Event)} {base : ℕ}

/-! ### The counter counts the placements -/

/-- The list consists of some of the registered nodes, in their order. -/
def ListedIn (nodes offered : List NodeId) : Prop :=
  ∃ p : NodeId → Bool, offered = nodes.filter p

/-- The counter of the policy by the position of the dispatcher: one ahead while
a node is chosen and not reserved.  What the dispatcher holds can be reserved. -/
def Counted (base : ℕ) (log : PlacementLog) (s : Scheduler policies) : Prop :=
  match s.dispatcher with
  | .offered job available =>
      s.policy = .roundRobin ⟨base + log.placements.length⟩ ∧
      (∀ v ∈ available, s.cluster.canTake v.nodeId job = true) ∧
      ListedIn s.cluster.registrations.keys (available.map fun v => v.nodeId)
  | .chosen job node =>
      s.policy = .roundRobin ⟨base + log.placements.length + 1⟩ ∧
      log.offered[(base + log.placements.length) % log.offered.length]? = some node.nodeId ∧
      s.cluster.canTake node.nodeId job = true ∧
      ListedIn s.cluster.registrations.keys log.offered
  | _ => s.policy = .roundRobin ⟨base + log.placements.length⟩

/-- The placements made so far with a counter that started at `base`. -/
structure Cycling (base : ℕ) (tr : List (Scheduler policies × Event)) (s : Scheduler policies) :
    Prop where
  sound : s.cluster.Sound
  counted : Counted base (placementLog tr) s
  turn : ∀ k q, (placements tr)[k]? = some q →
    q.offered[(base + k) % q.offered.length]? = some q.node
  listed : ∀ q ∈ placements tr, ListedIn s.cluster.registrations.keys q.offered

/-- The dispatcher and the policy stay, and the cluster is eased. -/
theorem Counted.eased {log : PlacementLog} (h : Counted base log s) (hs : s.cluster.Sound)
    (ht : t.cluster.Sound) (heased : ClusterState.Eased s.cluster t.cluster)
    (hd : t.dispatcher = s.dispatcher) (hp : t.policy = s.policy) : Counted base log t := by
  unfold Counted at h ⊢
  rw [hd, hp, heased.nodes]
  rcases hcase : s.dispatcher with - | job | ⟨job, available⟩ | ⟨job, node⟩ | ⟨job, node⟩ <;>
    rw [hcase] at h
  · exact h
  · exact h
  · exact ⟨h.1, fun v hv => heased.canTake hs.keyed ht.keyed (h.2.1 v hv), h.2.2⟩
  · exact ⟨h.1, h.2.1, heased.canTake hs.keyed ht.keyed h.2.2.1, h.2.2.2⟩
  · exact h

/-- A counter that is asked about a list answers with the entry it points to and
moves on; an empty list leaves it where it is. -/
theorem Counted.answer {log : PlacementLog} {job : JobRequest} {available : List NodeView}
    (h : Counted base log s) (hd : s.dispatcher = .offered job available)
    (hc : t.cluster = s.cluster) (hp : t.policy = (policies.selectNode s.policy available job).2)
    (hd' : t.dispatcher
      = .answered job available (policies.selectNode s.policy available job).1) :
    Counted base { log with offered := available.map fun v => v.nodeId } t := by
  unfold Counted at h
  rw [hd] at h
  obtain ⟨hpolicy, htake, hlisted⟩ := h
  rw [hpolicy] at hp hd'
  by_cases hempty : available = []
  · subst hempty
    unfold Counted
    rw [hd']
    exact hp
  · obtain ⟨v, hv, hentry, hanswer⟩ :=
      RoundRobinPolicy.selectNode_of_ne_nil ⟨base + log.placements.length⟩ hempty job
    have hselect : policies.selectNode (.roundRobin ⟨base + log.placements.length⟩) available job
        = (some v, .roundRobin ⟨base + log.placements.length + 1⟩) :=
      Policy.selectNode_roundRobin hanswer
    rw [hselect] at hp hd'
    rw [Dispatcher.answered_of_mem hv] at hd'
    unfold Counted
    rw [hd', hc]
    refine ⟨hp, ?_, htake v hv, hlisted⟩
    rw [List.length_map, List.getElem?_map, hentry, Option.map_some]

/-- A step of the dispatcher other than a reservation. -/
theorem Counted.ofDispatcher (h : Counted base (placementLog tr) s) (hs : Step cfg s e t)
    (he : OfDispatcher e) (hclaim : ∀ job node, e ≠ .claim job node) :
    Counted base (placementLog (tr ++ [(s, e)])) t := by
  rw [placementLog_snoc]
  have hcounted := h
  cases hs with
  | dequeue hd hq =>
      unfold Counted at h
      rw [hd] at h
      exact h
  | @offer job hd =>
      unfold Counted at h
      rw [hd] at h
      exact ⟨h, fun v hv => (ClusterState.mem_getAvailableNodes.mp hv).2, _,
        ClusterState.getAvailableNodes_ids s.cluster job⟩
  | @answer job available hd =>
      rw [PlacementLog.add, hd]
      exact hcounted.answer hd rfl rfl rfl
  | @claim job node cluster hd hr => exact absurd rfl (hclaim job node)
  | refuseClaim hd hr =>
      -- the chosen node can be reserved
      unfold Counted at h
      rw [hd] at h
      rw [ClusterState.reserveSlot_of_canTake h.2.2.1] at hr
      cases hr
  | spawn now hd =>
      unfold Counted at h
      rw [hd] at h
      exact h
  | _ => exact absurd he (by simp [OfDispatcher])

/-- A new placement: the chosen node is the entry the counter pointed to. -/
theorem Cycling.claim (h : Cycling base tr s) {job : JobRequest} {node : NodeView}
    (hs : Step cfg s (.claim job node) t) : Cycling base (tr ++ [(s, .claim job node)]) t := by
  have hsound := hs.sound h.sound
  have hcounted := h.counted
  cases hs with
  | claim hd hr =>
      obtain ⟨reg, hreg, -, rfl⟩ := ClusterState.reserveSlot_eq_true hr
      unfold Counted at hcounted
      rw [hd] at hcounted
      obtain ⟨hpolicy, hentry, -, hlisted⟩ := hcounted
      refine ⟨hsound, ?_, ?_, ?_⟩
      · show s.policy = .roundRobin ⟨base + (placements (tr ++ [(s, .claim job node)])).length⟩
        rw [placements_snoc_claim, List.length_append, List.length_singleton, ← Nat.add_assoc]
        exact hpolicy
      · intro k q hq
        rw [placements_snoc_claim] at hq
        rcases Nat.lt_or_ge k (placements tr).length with hk | hk
        · rw [List.getElem?_append_left hk] at hq
          exact h.turn k q hq
        · rw [List.getElem?_append_right hk, List.getElem?_singleton] at hq
          split at hq
          · next hlast =>
              obtain rfl := Option.some.inj hq
              obtain rfl : k = (placements tr).length := by omega
              exact hentry
          · cases hq
      · rw [placements_snoc_claim]
        intro q hq
        rcases List.mem_append.mp hq with hq | hq
        · exact h.listed q hq
        · obtain rfl := List.mem_singleton.mp hq
          exact hlisted

theorem Cycling.step (h : Cycling base tr s) (hf : FixedNodes s e) (hs : Step cfg s e t) :
    Cycling base (tr ++ [(s, e)]) t := by
  by_cases hclaim : ∃ job node, e = .claim job node
  · obtain ⟨job, node, rfl⟩ := hclaim
    exact h.claim hs
  · have hne : ∀ job node, e ≠ .claim job node := fun job node he => hclaim ⟨job, node, he⟩
    have hsound := hs.sound h.sound
    have heased := hs.eased h.sound hf hne
    refine ⟨hsound, ?_, ?_, ?_⟩
    · by_cases hdisp : OfDispatcher e
      · exact h.counted.ofDispatcher hs hdisp hne
      · obtain ⟨hdispatcher, hpolicy⟩ := hs.dispatcher_eq hdisp
        have hswap : e ≠ .swapPolicy := by
          rintro rfl
          exact hf
        rw [placementLog_snoc_of_not hdisp]
        exact h.counted.eased h.sound hsound heased hdispatcher (hpolicy hswap)
    · rw [placements_snoc_of_not hne]
      exact h.turn
    · rw [placements_snoc_of_not hne, heased.nodes]
      exact h.listed

/-- From a reachable state with a round-robin instance and a dispatcher that has
not asked it yet. -/
theorem run_cycling {policy : Policy} {policyName : String} {p : RoundRobinPolicy}
    {tr₀ : List (Scheduler policies × Event)}
    (h₀ : Run (Step cfg) (init (P := policies) policy policyName) tr₀ s₀)
    (hp : s₀.policy = .roundRobin p)
    (hd : s₀.dispatcher = .idle ∨ ∃ job, s₀.dispatcher = .asking job)
    (h : Run (restrict (Step cfg) FixedNodes) s₀ tr s) : Cycling p.index tr s := by
  refine h.invariant_trace ⟨run_sound h₀, ?_, fun k q hq => ?_, fun q hq => ?_⟩
    fun _ hc hs => hc.step hs.1 hs.2
  · unfold Counted
    rcases hd with hd | ⟨job, hd⟩
    · rw [hd]
      exact hp
    · rw [hd]
      exact hp
  · exact absurd hq (by simp [placements, placementLog])
  · exact absurd hq List.not_mem_nil

/-- Fixed nodes stay registered in the order they have. -/
theorem run_nodes {policy : Policy} {policyName : String}
    {tr₀ : List (Scheduler policies × Event)}
    (h₀ : Run (Step cfg) (init (P := policies) policy policyName) tr₀ s₀)
    (h : Run (restrict (Step cfg) FixedNodes) s₀ tr s) :
    s.cluster.registrations.keys = s₀.cluster.registrations.keys := by
  refine (h.invariant (I := fun s => s.cluster.Sound ∧
    s.cluster.registrations.keys = s₀.cluster.registrations.keys) ⟨run_sound h₀, rfl⟩ ?_).2
  rintro s e t ⟨hsound, hkeys⟩ ⟨hf, hs⟩
  refine ⟨hs.sound hsound, ?_⟩
  by_cases hclaim : ∃ job node, e = .claim job node
  · obtain ⟨job, node, rfl⟩ := hclaim
    cases hs with
    | claim hd hr =>
        obtain ⟨reg, -, -, rfl⟩ := ClusterState.reserveSlot_eq_true hr
        exact hkeys
  · rw [(hs.eased hsound hf fun job node he => hclaim ⟨job, node, he⟩).nodes, hkeys]

/-! ### Jobs in the order of the trace -/

/-- The nodes are fixed and no dispatch fails. -/
def NoFailure (s : Scheduler policies) (e : Event) : Prop :=
  FixedNodes s e ∧ ∀ th, e ≠ .raise th

/-- No dispatch thread is in its `except` block. -/
def Trying (s : Scheduler policies) : Prop :=
  ∀ th ∈ s.threads, th.pc = .posting ∨ th.pc = .accepted ∨ th.pc = .responded ∨ th.pc = .recorded

theorem Step.trying (h : Step cfg s e t) (hs : Trying s) (hraise : ∀ th, e ≠ .raise th) :
    Trying t := by
  have hsplit : ∀ {pre post : List DispatchThread} {th : DispatchThread},
      s.threads = pre ++ th :: post →
      (th.pc = .posting ∨ th.pc = .accepted ∨ th.pc = .responded ∨ th.pc = .recorded) ∧
        ∀ th' ∈ pre ++ post, th'.pc = .posting ∨ th'.pc = .accepted ∨ th'.pc = .responded ∨
          th'.pc = .recorded := by
    intro pre post th ht
    have hall := hs
    rwa [Trying, ht, forall_mem_split] at hall
  cases h with
  | spawn now hd => exact List.forall_mem_cons.mpr ⟨Or.inl rfl, hs⟩
  | accept ht hpc => exact forall_mem_split.mpr ⟨Or.inr (Or.inl rfl), (hsplit ht).2⟩
  | respond ht hpc => exact forall_mem_split.mpr ⟨Or.inr (Or.inr (Or.inl rfl)), (hsplit ht).2⟩
  | recordDispatch now ht hpc =>
      exact forall_mem_split.mpr ⟨Or.inr (Or.inr (Or.inr rfl)), (hsplit ht).2⟩
  | forgetAttempts ht hpc => exact (hsplit ht).2
  | raise ht hpc => exact absurd rfl (hraise _)
  -- the `except` block is not entered
  | release ht hpc => exact absurd (hsplit ht).1 (by simp [hpc])
  | countFailure ht hpc => exact absurd (hsplit ht).1 (by simp [hpc])
  | requeue ht hpc hmax => exact absurd (hsplit ht).1 (by simp [hpc])
  | giveUp ht hpc hmax => exact absurd (hsplit ht).1 (by simp [hpc])
  | markFailed ht hpc => exact absurd (hsplit ht).1 (by simp [hpc])
  | failMarkFailed ht hpc => exact absurd (hsplit ht).1 (by simp [hpc])
  | _ => exact hs

/-- A scheduler with a fresh round-robin instance and nothing in flight. -/
structure FreshStart (cfg : Config) (s : Scheduler policies) : Prop where
  reachable : ∃ policy policyName tr, Run (Step cfg) (init (P := policies) policy policyName) tr s
  policy : s.policy = .roundRobin {}
  dispatcher : s.dispatcher = .idle
  queue : s.cluster.jobQueue = []
  threads : s.threads = []

theorem FreshStart.fifo (h₀ : FreshStart cfg s₀) : s₀.Fifo := by
  obtain ⟨policy, policyName, tr₀, hrun⟩ := h₀.reachable
  exact run_fifo hrun

/-- What a run from a fresh start has queued and reserved. -/
structure InOrder (s₀ : Scheduler policies) (tr : List (Scheduler policies × Event))
    (s : Scheduler policies) : Prop where
  trying : Trying s
  fifo : s.Fifo
  enqueued : s.history.enqueued = s₀.history.enqueued ++ submittedIn tr
  reserved : s.history.reserved = s₀.history.reserved ++ (placements tr).map fun q => q.job

theorem InOrder.step (h : InOrder s₀ tr s) (he : ∀ th, e ≠ .raise th) (hs : Step cfg s e t) :
    InOrder s₀ (tr ++ [(s, e)]) t := by
  refine ⟨hs.trying h.trying he, hs.fifo h.fifo, ?_, ?_⟩
  · by_cases hsubmit : ∃ job, e = .submit job
    · obtain ⟨job, rfl⟩ := hsubmit
      cases hs with
      | submit job =>
          rw [submittedIn_snoc, ← List.append_assoc, ← h.enqueued]
    · rw [submittedIn_snoc_of_not fun job hjob => hsubmit ⟨job, hjob⟩]
      cases hs with
      | submit job => exact absurd ⟨job, rfl⟩ hsubmit
      | requeue ht hpc hmax =>
          have htrying := h.trying _ (by rw [ht]; exact List.mem_append_right _ List.mem_cons_self)
          exact absurd htrying (by simp [hpc])
      | _ => exact h.enqueued
  · by_cases hclaim : ∃ job node, e = .claim job node
    · obtain ⟨job, node, rfl⟩ := hclaim
      cases hs with
      | claim hd hr =>
          rw [placements_snoc_claim, List.map_append, ← List.append_assoc, ← h.reserved]
          rfl
    · rw [placements_snoc_of_not fun job node he => hclaim ⟨job, node, he⟩]
      cases hs with
      | @claim job node cluster hd hr => exact absurd ⟨job, node, rfl⟩ hclaim
      | _ => exact h.reserved

theorem run_inOrder (h₀ : FreshStart cfg s₀) (h : Run (restrict (Step cfg) NoFailure) s₀ tr s) :
    InOrder s₀ tr s := by
  refine h.invariant_trace ⟨?_, h₀.fifo, (List.append_nil _).symm, (List.append_nil _).symm⟩
    fun _ ho hs => ho.step hs.1.2 hs.2
  intro th hth
  rw [h₀.threads] at hth
  cases hth

/-- From a fresh start the kth placement is of the kth job submitted. -/
theorem placed_job (h₀ : FreshStart cfg s₀) (h : Run (restrict (Step cfg) NoFailure) s₀ tr s)
    {k : ℕ} {q : Placement} (hq : (placements tr)[k]? = some q) :
    (submittedIn tr)[k]? = some q.job := by
  have horder := run_inOrder h₀ h
  -- what was reserved before is what was queued before
  have hbefore : s₀.history.reserved = s₀.history.enqueued := by
    have hold := h₀.fifo
    rwa [Fifo, h₀.dispatcher, h₀.queue, Dispatcher.held, Option.toList_none, List.append_nil,
      List.append_nil] at hold
  have hall := horder.fifo
  rw [Fifo, horder.enqueued, horder.reserved, hbefore, List.append_assoc, List.append_assoc,
    List.append_cancel_left_eq] at hall
  have hlt := (List.getElem?_eq_some_iff.mp hq).1
  rw [← hall, List.getElem?_append_left (by rwa [List.length_map]), List.getElem?_map, hq,
    Option.map_some]

/-! ### Three nodes, one of which fills up -/

theorem NoFailure.of_dispatcher (s : Scheduler policies) (e : Event) (he : OfDispatcher e) :
    NoFailure s e := by
  refine ⟨?_, fun th h => ?_⟩
  · cases e <;> trivial
  · subst h
    exact he

/-- Three registered nodes, the first with two cores, the others with one. -/
def threeNodes : Scheduler policies :=
  { defaultInit with
    cluster := ((defaultInit.cluster.registerNode (ClusterState.nodeOf "a" 2 64)).registerNode
      (ClusterState.nodeOf "b" 1 64)).registerNode (ClusterState.nodeOf "x" 1 64) }

theorem threeNodes_fresh : FreshStart {} threeNodes := by
  have h₀ : Run (Step {}) defaultInit [] defaultInit := .refl
  have h₁ := ((h₀.tail (.register (ClusterState.nodeOf "a" 2 64))).tail
    (.register (ClusterState.nodeOf "b" 1 64))).tail (.register (ClusterState.nodeOf "x" 1 64))
  exact ⟨⟨.roundRobin {}, "round_robin", _, h₁⟩, rfl, rfl, rfl, rfl⟩

/-- What a policy is shown of a node of the given size that runs so many jobs. -/
def viewOf (nodeId : NodeId) (cpus runningJobs : ℤ) : NodeView where
  nodeId := nodeId
  hostname := nodeId
  agentUrl := "http://" ++ nodeId
  profile := (ClusterState.nodeOf nodeId cpus 64).profile
  currentLoad := 0
  runningJobs := runningJobs
  slotOccupancy := runningJobs / cpus

/-- Three jobs are submitted and the first two placed, which fills the second node. -/
def twoPlaced : Scheduler policies :=
  let queued : Scheduler policies :=
    { threeNodes with
      cluster := ((threeNodes.cluster.enqueueJob (ClusterState.jobOf "i")).enqueueJob
        (ClusterState.jobOf "j")).enqueueJob (ClusterState.jobOf "k")
      submissions := [.enqueued (ClusterState.jobOf "k"), .enqueued (ClusterState.jobOf "j"),
        .enqueued (ClusterState.jobOf "i")]
      history := { threeNodes.history with
        submitted := [ClusterState.jobOf "i", ClusterState.jobOf "j", ClusterState.jobOf "k"]
        enqueued := [ClusterState.jobOf "i", ClusterState.jobOf "j", ClusterState.jobOf "k"] } }
  (queued.dispatched (ClusterState.jobOf "i") (viewOf "a" 2 0) 0).dispatched
    (ClusterState.jobOf "j") (viewOf "b" 1 0) 0

/-- The placements of the first two jobs. -/
def firstTwo : List Placement :=
  [⟨ClusterState.jobOf "i", ["a", "b", "x"], "a"⟩, ⟨ClusterState.jobOf "j", ["a", "b", "x"], "b"⟩]

theorem run_twoPlaced :
    ∃ tr, Run (restrict (Step {}) NoFailure) threeNodes tr twoPlaced ∧ placements tr = firstTwo ∧
      submittedIn tr
        = [ClusterState.jobOf "i", ClusterState.jobOf "j", ClusterState.jobOf "k"] := by
  have h₀ : Run (restrict (Step {}) NoFailure) threeNodes [] threeNodes := .refl
  have h₁ := ((h₀.tail_restrict (.submit (ClusterState.jobOf "i"))
    ⟨trivial, fun _ => nofun⟩).tail_restrict (.submit (ClusterState.jobOf "j"))
    ⟨trivial, fun _ => nofun⟩).tail_restrict (.submit (ClusterState.jobOf "k"))
    ⟨trivial, fun _ => nofun⟩
  obtain ⟨tr₂, h₂, hp₂, hs₂⟩ := dispatch_run h₁ NoFailure.of_dispatcher rfl rfl (viewOf "a" 2 0)
    (by decide +kernel) (by decide +kernel) 0
  obtain ⟨tr₃, h₃, hp₃, hs₃⟩ := dispatch_run h₂ NoFailure.of_dispatcher rfl rfl (viewOf "b" 1 0)
    (by decide +kernel) (by decide +kernel) 0
  refine ⟨tr₃, h₃, ?_, ?_⟩
  · rw [hp₃, hp₂]
    decide +kernel
  · rw [hs₃, hs₂]
    rfl

/-- The third job follows while the second node is full: the third node was
offered every time and got nothing. -/
theorem run_third_when_full :
    ∃ tr s, Run (restrict (Step {}) NoFailure) threeNodes tr s ∧
      placements tr = firstTwo ++ [⟨ClusterState.jobOf "k", ["a", "x"], "a"⟩] ∧
      submittedIn tr
        = [ClusterState.jobOf "i", ClusterState.jobOf "j", ClusterState.jobOf "k"] := by
  obtain ⟨tr, h, hp, hs⟩ := run_twoPlaced
  obtain ⟨tr', h', hp', hs'⟩ := dispatch_run h NoFailure.of_dispatcher rfl rfl (viewOf "a" 2 1)
    (by decide +kernel) (by decide +kernel) 0
  refine ⟨tr', _, h', ?_, hs'.trans hs⟩
  rw [hp', hp]
  decide +kernel

/-- The second job ends before the third is placed. -/
theorem run_third_after_callback :
    ∃ tr s, Run (restrict (Step {}) NoFailure) threeNodes tr s ∧
      placements tr = firstTwo ++ [⟨ClusterState.jobOf "k", ["a", "b", "x"], "x"⟩] ∧
      submittedIn tr
        = [ClusterState.jobOf "i", ClusterState.jobOf "j", ClusterState.jobOf "k"] := by
  obtain ⟨tr, h, hp, hs⟩ := run_twoPlaced
  have h₁ := h.tail_restrict (@Step.accept _ _ _ _ [] _ rfl rfl) ⟨trivial, fun _ => nofun⟩
  have h₂ := h₁.tail_restrict (@Step.callback _ _ _ (successOn "b") _ [] _ rfl rfl rfl rfl)
    ⟨trivial, fun _ => nofun⟩
  obtain ⟨tr', h', hp', hs'⟩ := dispatch_run h₂ NoFailure.of_dispatcher rfl rfl (viewOf "x" 1 0)
    (by decide +kernel) (by decide +kernel) 0
  refine ⟨tr', _, h', ?_, ?_⟩
  · rw [hp', placements_snoc_of_not (by simp), placements_snoc_of_not (by simp), hp]
    decide +kernel
  · rw [hs', submittedIn, List.filterMap_append, List.filterMap_append]
    show submittedIn tr ++ [] ++ [] = _
    rw [hs, List.append_nil, List.append_nil]

/-! ### Every node gets its turn -/

/-- Some number below `m` moves `a` to any residue. -/
theorem exists_turn (a : ℕ) {m i : ℕ} (hi : i < m) : ∃ j < m, (a + j) % m = i := by
  refine ⟨(i + (m - a % m)) % m, Nat.mod_lt _ (by omega), ?_⟩
  have hdiv := Nat.div_add_mod a m
  have hmod := Nat.mod_lt a (show 0 < m by omega)
  have hsum : a + (i + (m - a % m)) = i + m * (a / m + 1) := by
    rw [Nat.mul_add, Nat.mul_one]
    omega
  rw [Nat.add_mod_mod, hsum, Nat.add_mul_mod_self_left, Nat.mod_eq_of_lt hi]

/-- On a fixed set of nodes, under one round-robin instance, with any jobs,
completions and failures: when the list offered at as many consecutive placements
as there are nodes has one length and a node at one position of it, the node gets
at least one of those jobs. -/
theorem round_robin_covers {policy : Policy} {policyName : String} {p : RoundRobinPolicy}
    {tr₀ : List (Scheduler policies × Event)}
    (h₀ : Run (Step cfg) (init (P := policies) policy policyName) tr₀ s₀)
    (hp : s₀.policy = .roundRobin p)
    (hd : s₀.dispatcher = .idle ∨ ∃ job, s₀.dispatcher = .asking job)
    (h : Run (restrict (Step cfg) FixedNodes) s₀ tr s) {pre window post : List Placement}
    (hw : placements tr = pre ++ window ++ post)
    (hlength : window.length = s.cluster.registrations.keys.length) {n : NodeId}
    (hn : n ∈ s.cluster.registrations) {i m : ℕ}
    (hsteady : ∀ q ∈ window, q.offered.length = m ∧ q.offered[i]? = some n) :
    ∃ q ∈ window, q.node = n := by
  have hcycling := run_cycling h₀ hp hd h
  have hmem : ∀ q ∈ window, q ∈ placements tr := fun q hq => by
    rw [hw]
    exact List.mem_append_left _ (List.mem_append_right _ hq)
  -- there is a node, so there is a placement, whose list is no longer than the table
  have hpos : 0 < window.length := by
    rw [hlength]
    exact List.length_pos_of_mem hn
  obtain ⟨hlen, hentry⟩ := hsteady window[0] (List.getElem_mem hpos)
  have hi : i < m := hlen ▸ (List.getElem?_eq_some_iff.mp hentry).1
  have hm : m ≤ window.length := by
    obtain ⟨keep, hfilter⟩ := hcycling.listed window[0] (hmem _ (List.getElem_mem hpos))
    rw [← hlen, hfilter, hlength]
    exact List.length_filter_le _ _
  obtain ⟨j, hj, hturn⟩ := exists_turn (p.index + pre.length) hi
  have hjw : j < window.length := by omega
  refine ⟨window[j], List.getElem_mem hjw, ?_⟩
  have hget : (placements tr)[pre.length + j]? = some window[j] := by
    rw [hw, List.append_assoc, List.getElem?_append_right (by omega), Nat.add_sub_cancel_left,
      List.getElem?_append_left hjw, List.getElem?_eq_getElem hjw]
  obtain ⟨hlenj, hentryj⟩ := hsteady window[j] (List.getElem_mem hjw)
  have hnode := hcycling.turn _ _ hget
  rw [hlenj, ← Nat.add_assoc, hturn, hentryj] at hnode
  exact (Option.some.inj hnode).symm

/-- The third node gets the third job when the second job has ended by then. -/
theorem round_robin_covers_third :
    ∃ tr s, Run (restrict (Step {}) FixedNodes) threeNodes tr s ∧ ∃ q ∈ placements tr, q.node = "x" := by
  obtain ⟨tr, s, h, hp, -⟩ := run_third_after_callback
  obtain ⟨policy, policyName, tr₀, hrun⟩ := threeNodes_fresh.reachable
  have hw : placements tr
      = [] ++ (firstTwo ++ [⟨ClusterState.jobOf "k", ["a", "b", "x"], "x"⟩]) ++ [] := by
    rw [hp, List.nil_append, List.append_nil]
  have hkeys : s.cluster.registrations.keys = ["a", "b", "x"] := by
    rw [run_nodes hrun (h.mono And.left)]
    decide +kernel
  have hx : "x" ∈ s.cluster.registrations := by
    show "x" ∈ s.cluster.registrations.keys
    rw [hkeys]
    decide
  obtain ⟨q, hq, hnode⟩ := round_robin_covers (i := 2) (m := 3) hrun threeNodes_fresh.policy
    (Or.inl threeNodes_fresh.dispatcher) (h.mono And.left) hw (by rw [hkeys]; rfl) hx (by decide)
  refine ⟨tr, s, h.mono And.left, q, ?_, hnode⟩
  rw [hp]
  exact hq

/-- One node of three is offered at three placements in a row and gets no job. -/
theorem offered_node_passed_over :
    ∃ tr s, Run (restrict (Step {}) FixedNodes) threeNodes tr s ∧ FreshStart {} threeNodes ∧
      s.cluster.registrations.keys = ["a", "b", "x"] ∧ (placements tr).length = 3 ∧
      ∀ q ∈ placements tr, "x" ∈ q.offered ∧ q.node ≠ "x" := by
  obtain ⟨tr, s, h, hp, -⟩ := run_third_when_full
  obtain ⟨policy, policyName, tr₀, hrun⟩ := threeNodes_fresh.reachable
  refine ⟨tr, s, h.mono And.left, threeNodes_fresh, ?_, ?_, ?_⟩
  · rw [run_nodes hrun (h.mono And.left)]
    decide +kernel
  · rw [hp]
    decide
  · rw [hp]
    decide

/-! ### Two runs of the same trace -/

/-- Two runs on the same nodes, each from a fresh round-robin instance and with no
dispatch failing, that are given the same jobs in the same order: if for every
placement the same nodes had room in both, every job is placed on the same node. -/
theorem round_robin_reproducible (h₀ : FreshStart cfg s₀) (h₀' : FreshStart cfg' s₀')
    (hnodes : s₀.cluster.registrations.keys = s₀'.cluster.registrations.keys)
    (h : Run (restrict (Step cfg) NoFailure) s₀ tr s)
    (h' : Run (restrict (Step cfg') NoFailure) s₀' tr' s')
    (hjobs : ∀ (k : ℕ) (job job' : JobRequest), (submittedIn tr)[k]? = some job →
      (submittedIn tr')[k]? = some job' → job = job')
    (hroom : ∀ (k : ℕ) (q q' : Placement), (placements tr)[k]? = some q →
      (placements tr')[k]? = some q' → ∀ n, n ∈ q.offered ↔ n ∈ q'.offered) :
    ∀ (k : ℕ) (q q' : Placement), (placements tr)[k]? = some q → (placements tr')[k]? = some q' →
      (submittedIn tr)[k]? = some q.job ∧ q.job = q'.job ∧ q.node = q'.node := by
  intro k q q' hq hq'
  have hjob := placed_job h₀ h hq
  have hjob' := placed_job h₀' h' hq'
  refine ⟨hjob, hjobs k _ _ hjob hjob', ?_⟩
  obtain ⟨policy, policyName, tr₀, hrun⟩ := h₀.reachable
  obtain ⟨policy', policyName', tr₀', hrun'⟩ := h₀'.reachable
  have hcycling := run_cycling hrun h₀.policy (Or.inl h₀.dispatcher) (h.mono And.left)
  have hcycling' := run_cycling hrun' h₀'.policy (Or.inl h₀'.dispatcher) (h'.mono And.left)
  -- both lists are made of the same registrations, in their order, with the same members
  obtain ⟨keep, hlist⟩ := hcycling.listed q (List.mem_of_getElem? hq)
  obtain ⟨keep', hlist'⟩ := hcycling'.listed q' (List.mem_of_getElem? hq')
  have hkeys : s.cluster.registrations.keys = s'.cluster.registrations.keys := by
    rw [run_nodes hrun (h.mono And.left), run_nodes hrun' (h'.mono And.left), hnodes]
  have hoffered : q.offered = q'.offered := by
    have hsame := hroom k q q' hq hq'
    rw [hlist, hlist', hkeys] at hsame ⊢
    refine List.filter_congr fun n hn => ?_
    have hiff := hsame n
    simp only [List.mem_filter, hn, true_and] at hiff
    exact Bool.eq_iff_iff.mpr hiff
  have hturn := hcycling.turn k q hq
  rw [hoffered, hcycling'.turn k q' hq'] at hturn
  exact (Option.some.inj hturn).symm

/-- The first two jobs land on the same nodes whether or not the second ends
before the third is placed. -/
theorem round_robin_reproducible_two :
    ∃ tr s tr' s', Run (restrict (Step {}) NoFailure) threeNodes tr s ∧
      Run (restrict (Step {}) NoFailure) threeNodes tr' s' ∧ (placements tr).length = 2 ∧
      (placements tr').length = 3 ∧
      ∀ (k : ℕ) (q q' : Placement), (placements tr)[k]? = some q →
        (placements tr')[k]? = some q' →
        (submittedIn tr)[k]? = some q.job ∧ q.job = q'.job ∧ q.node = q'.node := by
  obtain ⟨tr, h, hp, hs⟩ := run_twoPlaced
  obtain ⟨tr', s', h', hp', hs'⟩ := run_third_after_callback
  refine ⟨tr, _, tr', s', h, h', by rw [hp]; rfl, by rw [hp']; rfl, ?_⟩
  refine round_robin_reproducible threeNodes_fresh threeNodes_fresh rfl h h' ?_ ?_
  · intro k job job' hjob hjob'
    rw [hs] at hjob
    rw [hs', hjob] at hjob'
    exact Option.some.inj hjob'
  · intro k q q' hq hq' n
    rw [hp] at hq
    rw [hp', List.getElem?_append_left (List.getElem?_eq_some_iff.mp hq).1, hq] at hq'
    rw [Option.some.inj hq']

/-- The third of the same three jobs is placed on another node when the second
has ended by then. -/
theorem third_job_on_two_nodes :
    FreshStart {} threeNodes ∧
    ∃ tr s tr' s', Run (restrict (Step {}) NoFailure) threeNodes tr s ∧
      Run (restrict (Step {}) NoFailure) threeNodes tr' s' ∧ submittedIn tr = submittedIn tr' ∧
      ∃ q q', (placements tr)[2]? = some q ∧ (placements tr')[2]? = some q' ∧ q.job = q'.job ∧
        q.node = "a" ∧ q'.node = "x" := by
  obtain ⟨tr, s, h, hp, hs⟩ := run_third_when_full
  obtain ⟨tr', s', h', hp', hs'⟩ := run_third_after_callback
  refine ⟨threeNodes_fresh, tr, s, tr', s', h, h', hs.trans hs'.symm,
    ⟨ClusterState.jobOf "k", ["a", "x"], "a"⟩, ⟨ClusterState.jobOf "k", ["a", "b", "x"], "x"⟩,
    ?_, ?_, rfl, rfl, rfl⟩
  · rw [hp]
    rfl
  · rw [hp']
    rfl

end Scheduler

end HeteroSched
