/-
HeteroSched/Enrolment.lean

Who is given jobs: the table of registrations over the life of the system.

Design.  An agent registers once, when it starts, and from then on sends heartbeats
(`main` of `agent/main.py`).  A node leaves the table when it expires, and with all
others when the scheduler is restarted.  A heartbeat of a node that has left is written
down, but only a registration brings the node back, so a node is in the table when it has
registered and was not removed since (`LifeStep.mem_registrations`).

A place is given to a job by a claim and by nothing else (`Step.onNodes`), and a claim
finds the node in the table.  Hence what a node runs was claimed for it while it was
enrolled, and an agent whose node was removed gets nothing new, as long as it goes on
with heartbeats only.
-/
import HeteroSched.Agent
import HeteroSched.Restarts

namespace HeteroSched

open Transition

namespace Scheduler

variable {P : PolicyRegistry} {cfg : Config} {s s₀ t : Scheduler P} {e : Event} {l : Life P}
  {n : NodeId} {tr : List (Scheduler P × Life P)}

/-! ### The table of registrations -/

/-- The step registers the node. -/
def Registers (n : NodeId) : Scheduler P × Life P → Prop
  | (_, .step (.register registration)) => registration.nodeId = n
  | _ => False

/-- The step removes the node if it is there: an expiry that finds its last heartbeat too
old, or a restart. -/
def Removes (n : NodeId) : Scheduler P × Life P → Prop
  | (s, .step (.expire timeoutSeconds now)) => n ∈ s.cluster.expiredNodes timeoutSeconds now
  | (_, .restart ..) => True
  | _ => False

/-- The node registered, and was not removed since. -/
def Enrolled (n : NodeId) (tr : List (Scheduler P × Life P)) : Prop :=
  Since (Registers n) (Removes n) tr

/-- A step that is no registration and no expiry leaves the table as it is. -/
theorem Step.registrations_eq (h : Step cfg s e t) (hregister : ∀ reg, e ≠ .register reg)
    (hexpire : ∀ timeout now, e ≠ .expire timeout now) :
    t.cluster.registrations = s.cluster.registrations := by
  cases h with
  | register registration => exact absurd rfl (hregister registration)
  | expire timeout now => exact absurd rfl (hexpire timeout now)
  | dequeue hd hq =>
      obtain ⟨rest, -, rfl⟩ := ClusterState.dequeueJob_eq_some hq
      rfl
  | claim hd hr =>
      obtain ⟨reg, -, -, rfl⟩ := ClusterState.reserveSlot_eq_true hr
      rfl
  | refuseClaim hd hr =>
      obtain rfl := ClusterState.reserveSlot_eq_false hr
      rfl
  | release ht hpc => exact ClusterState.releaseSlot_registrations _ _
  | callback he hjob hnode => exact ClusterState.releaseSlot_registrations _ _
  | _ => rfl

theorem LifeStep.mem_registrations (h : LifeStep cfg s l t) :
    n ∈ t.cluster.registrations ↔
      Registers n (s, l) ∨ (n ∈ s.cluster.registrations ∧ ¬ Removes n (s, l)) := by
  cases h with
  | restart policy policyName =>
      exact iff_of_false List.not_mem_nil (by simp [Registers, Removes])
  | acceptLate hlate => simp [Registers, Removes]
  | @step e t hs =>
      by_cases hregister : ∃ reg, e = .register reg
      · obtain ⟨reg, rfl⟩ := hregister
        cases hs with
        | register registration =>
            rw [ClusterState.registerNode_registrations, Dict.mem_set]
            simp [Registers, Removes, eq_comm]
      · by_cases hexpire : ∃ timeout now, e = .expire timeout now
        · obtain ⟨timeout, now, rfl⟩ := hexpire
          cases hs with
          | expire timeout now =>
              rw [ClusterState.removeExpiredNodes_registrations, Dict.mem_popAll]
              simp [Registers, Removes, and_comm]
        · rw [hs.registrations_eq (fun reg he => hregister ⟨reg, he⟩)
            fun timeout now he => hexpire ⟨timeout, now, he⟩]
          have hnot : ¬ Registers n (s, Life.step (P := P) e) ∧
              ¬ Removes n (s, Life.step (P := P) e) := by
            cases e <;> simp_all [Registers, Removes]
          simp [hnot]

/-- The nodes of the table are those that are enrolled. -/
theorem mem_registrations_iff {db : Database} {policy : P.Instance} {policyName : String}
    (h : Run (LifeStep cfg) (startOn db policy policyName) tr s) :
    n ∈ s.cluster.registrations ↔ Enrolled n tr :=
  h.iff_since (I := fun s => n ∈ s.cluster.registrations) List.not_mem_nil
    fun hs => hs.mem_registrations

/-! ### What a node is given -/

/-- The job was claimed for the node, which was enrolled then. -/
def ClaimedFor (tr : List (Scheduler P × Life P)) (job : JobRequest) (n : NodeId) : Prop :=
  ∃ pre u node post, tr = pre ++ (u, .step (.claim job node)) :: post ∧ node.nodeId = n ∧
    Enrolled n pre

theorem ClaimedFor.snoc {job : JobRequest} (h : ClaimedFor tr job n) (p : Scheduler P × Life P) :
    ClaimedFor (tr ++ [p]) job n := by
  obtain ⟨pre, u, node, post, rfl, hnode, henrolled⟩ := h
  refine ⟨pre, u, node, post ++ [p], ?_, hnode, henrolled⟩
  rw [List.append_assoc, List.cons_append]

theorem OnNodes.mono {Q Q' : JobRequest → NodeId → Prop} (h : OnNodes Q s)
    (hQ : ∀ job n, Q job n → Q' job n) : OnNodes Q' s where
  dispatcher := fun p hp => hQ _ _ (h.dispatcher p hp)
  threads := fun th hth => hQ _ _ (h.threads th hth)
  executing := fun ex hex => hQ _ _ (h.executing ex hex)

/-- `Q` holds of a job and its node wherever they occur together, also in a POST that a
process which has ended had sent. -/
structure OnNodesInLife (Q : JobRequest → NodeId → Prop) (s : Scheduler P) : Prop where
  onNodes : OnNodes Q s
  late : ∀ th ∈ s.late, Q th.job th.node.nodeId

theorem OnNodesInLife.mono {Q Q' : JobRequest → NodeId → Prop} (h : OnNodesInLife Q s)
    (hQ : ∀ job n, Q job n → Q' job n) : OnNodesInLife Q' s where
  onNodes := h.onNodes.mono hQ
  late := fun th hth => hQ _ _ (h.late th hth)

/-- What happens brings a job to a node only by a claim. -/
theorem LifeStep.onNodes {Q : JobRequest → NodeId → Prop} (h : LifeStep cfg s l t)
    (hs : OnNodesInLife Q s)
    (hclaim : ∀ job node, l = .step (.claim job node) → Q job node.nodeId) :
    OnNodesInLife Q t := by
  cases h with
  | step h =>
      exact ⟨h.onNodes hs.onNodes fun job node he => hclaim job node (congrArg Life.step he),
        fun th hth => hs.late th (h.late_eq ▸ hth)⟩
  | restart policy policyName =>
      refine ⟨⟨fun p hp => absurd hp (Option.not_mem_none p),
        fun _ hth => absurd hth List.not_mem_nil, hs.onNodes.executing⟩, fun th hth => ?_⟩
      -- the POSTs in flight are those of the threads, and those from before
      rcases mem_posts.mp hth with hth | ⟨hth, -⟩
      · exact hs.late th hth
      · exact hs.onNodes.threads th hth
  | @acceptLate th pre post hlate =>
      have hall := hs.late
      rw [hlate, forall_mem_split] at hall
      exact ⟨⟨hs.onNodes.dispatcher, hs.onNodes.threads,
        List.forall_mem_cons.mpr ⟨hall.1, hs.onNodes.executing⟩⟩, hall.2⟩

/-- A claim finds the node in the table. -/
theorem Step.mem_of_claim {job : JobRequest} {node : NodeView} (h : Step cfg s (.claim job node) t) :
    node.nodeId ∈ s.cluster.registrations := by
  cases h with
  | claim hd hr =>
      obtain ⟨reg, hreg, -, -⟩ := ClusterState.reserveSlot_eq_true hr
      exact Dict.mem_of_get? hreg

/-- **Jobs go to enrolled nodes**: over the life of the system, restarts included, a node
is in the table exactly when it has registered and has neither expired since nor was the
scheduler restarted; and every job that is placed on a node, dispatched there or run by
its agent, or whose POST is in flight, was claimed for the node at a moment when it was so,
whatever heartbeats were sent and whatever has happened to the node after that. -/
theorem jobs_go_to_enrolled {db : Database} {policy : P.Instance} {policyName : String}
    (h : Run (LifeStep cfg) (startOn db policy policyName) tr s) :
    (∀ n, n ∈ s.cluster.registrations ↔ Enrolled n tr) ∧ OnNodesInLife (ClaimedFor tr) s := by
  refine ⟨fun n => mem_registrations_iff h, ?_⟩
  refine h.invariant_trace (I := fun tr s => OnNodesInLife (ClaimedFor tr) s) ?_ ?_
  · exact ⟨⟨fun p hp => absurd hp (Option.not_mem_none p), fun _ hth => absurd hth List.not_mem_nil,
      fun _ hex => absurd hex List.not_mem_nil⟩, fun _ hth => absurd hth List.not_mem_nil⟩
  · intro tr t l u hr ht hs
    refine hs.onNodes (ht.mono fun job n hjob => hjob.snoc (t, l)) ?_
    rintro job node rfl
    cases hs with
    | step hs => exact ⟨tr, t, node, [], rfl, rfl, (mem_registrations_iff hr).mp hs.mem_of_claim⟩

/-- The agent of a node runs a job through a restart, after which the node is not
enrolled. -/
theorem jobs_go_to_enrolled_restarted :
    ∃ (tr : List (Scheduler policies × Life policies)) (s : Scheduler policies),
      Run (LifeStep {}) defaultInit tr s ∧ ¬ Enrolled "n" tr ∧
      s.executing = [⟨ClusterState.jobOf "j", "n", false⟩] ∧
      ClaimedFor tr (ClusterState.jobOf "j") "n" := by
  have h₀ : Run (LifeStep {}) defaultInit [] defaultInit := .refl
  have h₁ := h₀.tail (.step (.register (ClusterState.nodeOf "n" 1 64)))
  have h₂ := h₁.tail (.step (.submit (ClusterState.jobOf "j")))
  have h₃ := h₂.tail (.step (.dequeue rfl rfl))
  have h₄ := h₃.tail (.step (.offer rfl))
  have h₅ := h₄.tail (.step (.answer rfl))
  have h₆ := h₅.tail (.step (@Step.claim _ _ _ (ClusterState.jobOf "j") (idleView "n") _
    (by decide +kernel) (Prod.ext (by decide +kernel) rfl)))
  have h₇ := h₆.tail (.step (.spawn 0 rfl))
  have h₈ := h₇.tail (.step (@Step.accept _ _ _ _ [] _ rfl rfl))
  have h₉ := h₈.tail (@LifeStep.restart policies _ _ (.roundRobin {}) "round_robin")
  obtain ⟨hnodes, hjobs⟩ :=
    @jobs_go_to_enrolled policies {} _ _ {} (.roundRobin {} : Policy) "round_robin" h₉
  exact ⟨_, _, h₉, fun he => absurd ((hnodes "n").mpr he) List.not_mem_nil, rfl,
    hjobs.onNodes.executing ⟨ClusterState.jobOf "j", "n", false⟩ (List.mem_singleton.mpr rfl)⟩

/-! ### Removed nodes -/

/-- The job is placed on the node, dispatched there by this process or an earlier one, or
run by its agent. -/
def PlacedAt (s : Scheduler P) (job : JobRequest) (n : NodeId) : Prop :=
  s.dispatcher.place = some (job, n) ∨
    (∃ th ∈ s.threads, th.job = job ∧ th.node.nodeId = n) ∨
    (∃ th ∈ s.late, th.job = job ∧ th.node.nodeId = n) ∨
    ∃ ex ∈ s.executing, ex.job = job ∧ ex.nodeId = n

theorem onNodes_placedAt (s : Scheduler P) : OnNodesInLife (PlacedAt s) s where
  onNodes :=
    { dispatcher := fun _ hp => Or.inl hp
      threads := fun th hth => Or.inr (Or.inl ⟨th, hth, rfl, rfl⟩)
      executing := fun ex hex => Or.inr (Or.inr (Or.inr ⟨ex, hex, rfl, rfl⟩)) }
  late := fun th hth => Or.inr (Or.inr (Or.inl ⟨th, hth, rfl, rfl⟩))

/-- Without a registration a node does not come back. -/
theorem LifeStep.stays_removed (h : LifeStep cfg s l t) (hl : ¬ Registers n (s, l))
    (hn : n ∉ s.cluster.registrations) : n ∉ t.cluster.registrations := by
  intro hm
  rcases h.mem_registrations.mp hm with hr | ⟨hold, -⟩
  · exact hl hr
  · exact hn hold

/-- And no job is claimed for it. -/
theorem Step.claim_ne {job : JobRequest} {node : NodeView} (h : Step cfg s (.claim job node) t)
    (hn : n ∉ s.cluster.registrations) : node.nodeId ≠ n := by
  rintro rfl
  exact hn h.mem_of_claim

/-- **A removed node gets nothing new**: from any state in which a node is not in the
table, whatever happens next, heartbeats of the node and restarts of the scheduler
included: until the node registers again it is not in the table, no job is claimed for
it, and a job that its agent is sent or runs was on its way there before. -/
theorem removed_node_gets_nothing
    (h : Run (restrict (LifeStep cfg) fun t l => ¬ Registers n (t, l)) s₀ tr t)
    (hremoved : n ∉ s₀.cluster.registrations) :
    n ∉ t.cluster.registrations ∧
    (∀ p ∈ tr, ∀ job node, p.2 = .step (.claim job node) → node.nodeId ≠ n) ∧
    OnNodesInLife (fun job m => m = n → PlacedAt s₀ job n) t := by
  refine ⟨h.invariant (I := fun t => n ∉ t.cluster.registrations) hremoved
    fun ht hs => hs.2.stays_removed hs.1 ht, ?_, ?_⟩
  · refine h.forall_trace (I := fun t => n ∉ t.cluster.registrations)
      (C := fun t l => ∀ job node, l = .step (.claim job node) → node.nodeId ≠ n)
      hremoved (fun ht hs => hs.2.stays_removed hs.1 ht) ?_
    rintro t l u ht ⟨-, hs⟩ job node rfl
    cases hs with
    | step hs => exact hs.claim_ne ht
  · refine (h.invariant (I := fun t => n ∉ t.cluster.registrations ∧
        OnNodesInLife (fun job m => m = n → PlacedAt s₀ job n) t)
      ⟨hremoved, (onNodes_placedAt s₀).mono fun job m hm heq => heq ▸ hm⟩ ?_).2
    rintro t l u ⟨hnot, ht⟩ ⟨hl, hs⟩
    refine ⟨hs.stays_removed hl hnot, hs.onNodes ht ?_⟩
    rintro job node rfl heq
    cases hs with
    | step hs => exact absurd heq (hs.claim_ne hnot)

/-- A node expires while a job is on its way to it.  Its agent accepts the job and goes on
with its heartbeats, and a second job waits in the dispatcher. -/
theorem removed_node_gets_nothing_expired :
    ∃ (tr₀ tr : List (Scheduler policies × Life policies)) (s₀ t : Scheduler policies),
      Run (LifeStep {}) defaultInit tr₀ s₀ ∧ (∃ p ∈ tr₀, Registers "n" p) ∧
      Run (restrict (LifeStep {}) fun t l => ¬ Registers "n" (t, l)) s₀ tr t ∧
      t.cluster.lastHeartbeat.get? "n" = some 61 ∧ "n" ∉ t.cluster.registrations ∧
      t.dispatcher = .offered (ClusterState.jobOf "k") [] ∧
      t.executing = [⟨ClusterState.jobOf "j", "n", false⟩] ∧
      PlacedAt s₀ (ClusterState.jobOf "j") "n" := by
  have h₀ : Run (LifeStep {}) defaultInit [] defaultInit := .refl
  have h₁ := h₀.tail (.step (.register (ClusterState.nodeOf "n" 1 64)))
  have h₂ := h₁.tail (.step (.heartbeat ⟨"n", 0⟩ 0))
  have h₃ := h₂.tail (.step (.submit (ClusterState.jobOf "j")))
  have h₄ := h₃.tail (.step (.submit (ClusterState.jobOf "k")))
  have h₅ := h₄.tail (.step (.dequeue rfl rfl))
  have h₆ := h₅.tail (.step (.offer rfl))
  have h₇ := h₆.tail (.step (.answer rfl))
  have h₈ := h₇.tail (.step (@Step.claim _ _ _ (ClusterState.jobOf "j") (idleView "n") _
    (by decide +kernel) (Prod.ext (by decide +kernel) rfl)))
  have h₉ := h₈.tail (.step (.spawn 0 rfl))
  have h₁₀ := h₉.tail (.step (.expire 15 60))
  obtain ⟨tr₀, s₀, hrun, hregistered, hremoved, hqueue, hidle, hthreads, hexecuting⟩ :
      ∃ (tr₀ : List (Scheduler policies × Life policies)) (s₀ : Scheduler policies),
        Run (LifeStep {}) defaultInit tr₀ s₀ ∧ (∃ p ∈ tr₀, Registers "n" p) ∧
        s₀.cluster.registrations = ∅ ∧ s₀.cluster.jobQueue = [ClusterState.jobOf "k"] ∧
        s₀.dispatcher = .idle ∧
        s₀.threads = [⟨ClusterState.jobOf "j", idleView "n", 0, .posting⟩] ∧ s₀.executing = [] :=
    ⟨_, _, h₁₀, ⟨_, List.mem_append_left _ (List.mem_append_left _ List.mem_cons_self), rfl⟩,
      by decide +kernel, rfl, rfl, rfl, rfl⟩
  have hnot : "n" ∉ s₀.cluster.registrations := by
    rw [hremoved]
    exact List.not_mem_nil
  have hdequeue : s₀.cluster.dequeueJob
      = (some (ClusterState.jobOf "k"), { s₀.cluster with jobQueue := [] }) := by
    rw [ClusterState.dequeueJob, hqueue]
  have havailable : ({ s₀.cluster with jobQueue := [] } : ClusterState).getAvailableNodes
      (ClusterState.jobOf "k") = [] := by
    rw [ClusterState.getAvailableNodes, ClusterState.getNodes, hremoved]
    rfl
  have g₀ : Run (restrict (LifeStep {}) fun t l => ¬ Registers "n" (t, l)) s₀ [] s₀ := .refl
  have g₁ := g₀.tail_restrict (.step (.dequeue hidle hdequeue)) fun h => h
  have g₂ := g₁.tail_restrict (.step (.offer rfl)) fun h => h
  have g₃ := g₂.tail_restrict (.step (@Step.accept _ _ _ _ [] [] hthreads rfl)) fun h => h
  have g₄ := g₃.tail_restrict (.step (.heartbeat ⟨"n", 0⟩ 61)) fun h => h
  obtain ⟨hstays, -, honNodes⟩ := removed_node_gets_nothing g₄ hnot
  exact ⟨tr₀, _, s₀, _, hrun, hregistered, g₄, Dict.get?_set_self _ _ _, hstays,
    congrArg _ havailable, congrArg _ hexecuting,
    honNodes.onNodes.executing _ List.mem_cons_self rfl⟩

end Scheduler

end HeteroSched
