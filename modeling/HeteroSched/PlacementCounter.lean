/-
HeteroSched/PlacementCounter.lean

The counter of one `RoundRobinPolicy` instance and the slots the dispatcher has
reserved since the instance was made.

Design.  `select_node` moves the counter when it answers, and whether the slot is
reserved is seen afterwards.  So the counter is one ahead while a node is chosen
(`ahead`), and it stays ahead for good when the reservation is refused.  There is
a second way to lose the count: a node may be in the dispatcher's hand while the
instance is made, chosen by the one before; if that node is reserved, the counter
is one behind.  The counter counts the placements exactly in the runs in which
neither happens (`counts_placements_iff`).
-/
import HeteroSched.Placement
import HeteroSched.AtMostOnce

namespace HeteroSched

open Transition

namespace Scheduler

section Instances

variable {P : PolicyRegistry} {cfg : Config} {s t : Scheduler P} {e : Event}

/-! ### Which instance was asked -/

/-- The instance in place is the one that was asked last. -/
def AskedCurrent (s : Scheduler P) : Prop :=
  s.history.asked.getLast?.map Prod.fst = some s.history.instances

instance (s : Scheduler P) : Decidable s.AskedCurrent :=
  inferInstanceAs (Decidable (s.history.asked.getLast?.map Prod.fst = some s.history.instances))

/-- Only instances that have been made were asked. -/
def AskedMade (s : Scheduler P) : Prop := ∀ q ∈ s.history.asked, q.1 ≤ s.history.instances

theorem Step.askedMade (h : Step cfg s e t) (hs : AskedMade s) : AskedMade t := by
  cases h with
  | answer hd =>
      intro q hq
      rcases List.mem_append.mp hq with hq | hq
      · exact hs q hq
      · obtain rfl := List.mem_singleton.mp hq
        exact le_rfl
  | swapPolicy hl hp => exact fun q hq => (hs q hq).trans (Nat.le_succ _)
  | _ => exact hs

theorem run_askedMade {policy : P.Instance} {policyName : String} {tr : List (Scheduler P × Event)}
    (h : Run (Step cfg) (init policy policyName) tr s) : AskedMade s :=
  h.invariant (fun _ hq => absurd hq List.not_mem_nil) fun hs h => h.askedMade hs

/-- An instance that has just been made was not asked. -/
theorem Step.not_askedCurrent_of_swapPolicy (h : Step cfg s .swapPolicy t) (hs : AskedMade s) :
    ¬ t.AskedCurrent := by
  cases h with
  | swapPolicy hl hp =>
      intro hcurrent
      obtain ⟨q, hlast, hnumber⟩ := Option.map_eq_some_iff.mp hcurrent
      have hle := hs q (List.mem_of_getLast? hlast)
      have hnew : q.1 = s.history.instances + 1 := hnumber
      omega

/-- The policy instance stays. -/
def SameInstance (_s : Scheduler P) (e : Event) : Prop := e ≠ .swapPolicy

/-- By how much the counter is ahead of the placements: while a node is chosen, by
one, if the instance in place has chosen it. -/
def ahead (s : Scheduler P) : ℕ :=
  match s.dispatcher with
  | .chosen _ _ => if s.AskedCurrent then 1 else 0
  | _ => 0

theorem ahead_of_chosen {job : JobRequest} {node : NodeView} (hd : s.dispatcher = .chosen job node) :
    s.ahead = if s.AskedCurrent then 1 else 0 := by
  unfold ahead
  rw [hd]

theorem ahead_of_not_chosen (hd : ∀ job node, s.dispatcher ≠ .chosen job node) : s.ahead = 0 := by
  unfold ahead
  split
  · next job node h => exact absurd h (hd job node)
  · rfl

/-- After `reserve_slot` no node is chosen. -/
theorem reserved_ne_chosen (job : JobRequest) (node : NodeView) (ok : Bool) (job' : JobRequest)
    (node' : NodeView) : Dispatcher.reserved job node ok ≠ .chosen job' node' := by
  cases ok with
  | true => exact nofun
  | false => exact nofun

/-- What other threads do leaves the question, its instance and the placements. -/
theorem Step.ahead_eq (h : Step cfg s e t) (hsame : SameInstance s e) (he : ¬ OfDispatcher e) :
    t.ahead = s.ahead ∧ t.history.reserved = s.history.reserved := by
  cases h with
  | dequeue hd hq => exact absurd trivial he
  | offer hd => exact absurd trivial he
  | answer hd => exact absurd trivial he
  | claim hd hr => exact absurd trivial he
  | refuseClaim hd hr => exact absurd trivial he
  | spawn now hd => exact absurd trivial he
  | swapPolicy hl hp => exact absurd rfl hsame
  | _ => exact ⟨rfl, rfl⟩

end Instances

variable {cfg : Config} {s t s₀ : Scheduler policies} {e : Event}
variable {tr : List (Scheduler policies × Event)} {base : ℕ}

/-! ### The counter -/

/-- The states in which a round-robin instance has just been made: at the start of
the process, or by `start_run`, wherever the dispatcher is. -/
inductive NewInstance (cfg : Config) : Scheduler policies → Prop
  | start (policyName : String) :
      NewInstance cfg (init (P := policies) (.roundRobin {}) policyName)
  | swap {policy : Policy} {policyName : String} {tr : List (Scheduler policies × Event)}
      {s t : Scheduler policies} (hr : Run (Step cfg) (init (P := policies) policy policyName) tr s)
      (hs : Step cfg s .swapPolicy t) (hp : t.policy = .roundRobin {}) : NewInstance cfg t

/-- Unless the dispatcher is between `select_node` and `reserve_slot`, the counter
is the number of slots it has reserved after the first `base`. -/
def CountsPlacements (base : ℕ) (s : Scheduler policies) : Prop :=
  (∀ job node, s.dispatcher ≠ .chosen job node) →
    ∃ p : RoundRobinPolicy, s.policy = .roundRobin p ∧ s.history.reserved.length = base + p.index

/-- When the dispatcher calls `reserve_slot`: the node can take the job if the
instance in place has chosen it, and cannot if it was chosen by the one before. -/
def Confirmed (s : Scheduler policies) : Event → Prop
  | .claim job node => s.cluster.canTake node.nodeId job = true ↔ s.AskedCurrent
  | .refuseClaim job node => s.cluster.canTake node.nodeId job = true ↔ s.AskedCurrent
  | _ => True

/-- The counter in any state, wherever the dispatcher is. -/
def Counting (base : ℕ) (s : Scheduler policies) : Prop :=
  ∃ p : RoundRobinPolicy,
    s.policy = .roundRobin p ∧ s.history.reserved.length + s.ahead = base + p.index

theorem Counting.countsPlacements (h : Counting base s) : CountsPlacements base s := by
  intro hd
  obtain ⟨p, hp, hcount⟩ := h
  rw [ahead_of_not_chosen hd] at hcount
  exact ⟨p, hp, hcount⟩

/-- Between two questions the counter is exact. -/
theorem counting_of_not_chosen (hd : ∀ job node, s.dispatcher ≠ .chosen job node) :
    Counting base s ↔
      ∃ p : RoundRobinPolicy, s.policy = .roundRobin p ∧ s.history.reserved.length = base + p.index := by
  unfold Counting
  rw [ahead_of_not_chosen hd, Nat.add_zero]

theorem counting_init (h₀ : NewInstance cfg s₀) : Counting s₀.history.reserved.length s₀ := by
  rcases h₀ with ⟨policyName⟩ | ⟨hr, hs, hp⟩
  · exact ⟨{}, rfl, rfl⟩
  · refine ⟨{}, hp, ?_⟩
    have hold := hs.not_askedCurrent_of_swapPolicy (run_askedMade hr)
    have hahead : s₀.ahead = 0 := by
      by_cases hd : ∃ job node, s₀.dispatcher = .chosen job node
      · obtain ⟨job, node, hd⟩ := hd
        rw [ahead_of_chosen hd, if_neg hold]
      · exact ahead_of_not_chosen fun job node h => hd ⟨job, node, h⟩
    rw [hahead]

/-! ### One step -/

/-- A question: the counter moves just when a node is chosen. -/
theorem Counting.answer (h : Counting base s) {job : JobRequest}
    (hs : Step cfg s (.answer job) t) : Counting base t := by
  obtain ⟨p, hp, hcount⟩ := h
  cases hs with
  | @answer _ available hd =>
      have hnotChosen : s.ahead = 0 := ahead_of_not_chosen fun job node => by
        rw [hd]
        exact nofun
      rw [hnotChosen] at hcount
      by_cases hempty : available = []
      · -- no node is chosen and the counter stays
        subst hempty
        have hselect : policies.selectNode s.policy [] job = (none, .roundRobin p) := by
          rw [hp]
          rfl
        refine ⟨p, by rw [hselect], ?_⟩
        rw [ahead_of_not_chosen fun job' node => by rw [hselect]; exact nofun]
        exact hcount
      · obtain ⟨v, hv, -, hanswer⟩ := p.selectNode_of_ne_nil hempty job
        have hselect : policies.selectNode s.policy available job
            = (some v, .roundRobin ⟨p.index + 1⟩) := by
          rw [hp]
          exact Policy.selectNode_roundRobin hanswer
        refine ⟨⟨p.index + 1⟩, by rw [hselect], ?_⟩
        have hvet : Dispatcher.answered job available (policies.selectNode s.policy available job).1
            = .chosen job v := by
          rw [hselect, Dispatcher.answered_of_mem hv]
        rw [ahead_of_chosen hvet, if_pos]
        · show s.history.reserved.length + 1 = base + (p.index + 1)
          omega
        · show (s.history.asked ++ [(s.history.instances, job.jobId)]).getLast?.map Prod.fst = _
          rw [List.getLast?_concat]
          rfl

/-- A reservation that succeeds: the counter was one ahead. -/
theorem Counting.claim_iff (h : Counting base s) {job : JobRequest} {node : NodeView}
    (hs : Step cfg s (.claim job node) t) : Counting base t ↔ s.AskedCurrent := by
  obtain ⟨p, hp, hcount⟩ := h
  cases hs with
  | claim hd hr =>
      rw [counting_of_not_chosen (reserved_ne_chosen job node true)]
      rw [ahead_of_chosen hd] at hcount
      show (∃ p : RoundRobinPolicy, s.policy = .roundRobin p ∧
        (s.history.reserved ++ [job]).length = base + p.index) ↔ _
      rw [List.length_append, List.length_singleton]
      constructor
      · rintro ⟨q, hq, hmoved⟩
        obtain rfl := Policy.roundRobin.inj (hp.symm.trans hq)
        by_contra hold
        rw [if_neg hold] at hcount
        omega
      · intro hcurrent
        rw [if_pos hcurrent] at hcount
        exact ⟨p, hp, hcount⟩

/-- A reservation that is refused: the counter was not ahead. -/
theorem Counting.refuseClaim_iff (h : Counting base s) {job : JobRequest} {node : NodeView}
    (hs : Step cfg s (.refuseClaim job node) t) : Counting base t ↔ ¬ s.AskedCurrent := by
  obtain ⟨p, hp, hcount⟩ := h
  cases hs with
  | refuseClaim hd hr =>
      rw [counting_of_not_chosen (reserved_ne_chosen job node false)]
      rw [ahead_of_chosen hd] at hcount
      show (∃ p : RoundRobinPolicy, s.policy = .roundRobin p ∧
        s.history.reserved.length = base + p.index) ↔ _
      constructor
      · rintro ⟨q, hq, hstayed⟩ hcurrent
        obtain rfl := Policy.roundRobin.inj (hp.symm.trans hq)
        rw [if_pos hcurrent] at hcount
        omega
      · intro hold
        rw [if_neg hold] at hcount
        exact ⟨p, hp, hcount⟩

/-- `reserve_slot` returns what the condition asks about. -/
theorem Step.confirmed_claim {job : JobRequest} {node : NodeView}
    (hs : Step cfg s (.claim job node) t) : Confirmed s (.claim job node) ↔ s.AskedCurrent := by
  cases hs with
  | claim hd hr =>
      have htake : s.cluster.canTake node.nodeId job = true := by
        rw [← ClusterState.reserveSlot_fst, hr]
      exact iff_true_left htake

theorem Step.confirmed_refuseClaim {job : JobRequest} {node : NodeView}
    (hs : Step cfg s (.refuseClaim job node) t) :
    Confirmed s (.refuseClaim job node) ↔ ¬ s.AskedCurrent := by
  cases hs with
  | refuseClaim hd hr =>
      have htake : ¬ s.cluster.canTake node.nodeId job = true := by
        rw [← ClusterState.reserveSlot_fst, hr]
        exact Bool.false_ne_true
      exact iff_false_left htake

/-- Steps other than a reservation keep the count. -/
theorem Counting.step_of_not_reservation (h : Counting base s) (hsame : SameInstance s e)
    (hs : Step cfg s e t) (hclaim : ∀ job node, e ≠ .claim job node)
    (hrefuse : ∀ job node, e ≠ .refuseClaim job node) : Counting base t := by
  by_cases he : OfDispatcher e
  · have hstep := hs
    cases hs with
    | answer hd => exact h.answer hstep
    | dequeue hd hq =>
        rw [counting_of_not_chosen fun job node => by rw [hd]; exact nofun] at h
        refine (counting_of_not_chosen fun job node => ?_).mpr h
        exact nofun
    | offer hd =>
        rw [counting_of_not_chosen fun job node => by rw [hd]; exact nofun] at h
        refine (counting_of_not_chosen fun job node => ?_).mpr h
        exact nofun
    | spawn now hd =>
        rw [counting_of_not_chosen fun job node => by rw [hd]; exact nofun] at h
        refine (counting_of_not_chosen fun job node => ?_).mpr h
        exact nofun
    | claim hd hr => exact absurd rfl (hclaim _ _)
    | refuseClaim hd hr => exact absurd rfl (hrefuse _ _)
    | _ => exact absurd he (by simp [OfDispatcher])
  · obtain ⟨p, hp, hcount⟩ := h
    obtain ⟨hahead, hreserved⟩ := hs.ahead_eq hsame he
    refine ⟨p, ((hs.dispatcher_eq he).2 hsame).trans hp, ?_⟩
    rw [hahead, hreserved]
    exact hcount

/-- A step from an exact count leads to one exactly if it meets the condition. -/
theorem Counting.step_iff (h : Counting base s) (hsame : SameInstance s e) (hs : Step cfg s e t) :
    Counting base t ↔ Confirmed s e := by
  by_cases hclaim : ∃ job node, e = .claim job node
  · obtain ⟨job, node, rfl⟩ := hclaim
    rw [h.claim_iff hs, hs.confirmed_claim]
  · by_cases hrefuse : ∃ job node, e = .refuseClaim job node
    · obtain ⟨job, node, rfl⟩ := hrefuse
      rw [h.refuseClaim_iff hs, hs.confirmed_refuseClaim]
    · have hkeep := h.step_of_not_reservation hsame hs
        (fun job node he => hclaim ⟨job, node, he⟩) fun job node he => hrefuse ⟨job, node, he⟩
      refine iff_of_true hkeep ?_
      cases e with
      | claim job node => exact absurd ⟨job, node, rfl⟩ hclaim
      | refuseClaim job node => exact absurd ⟨job, node, rfl⟩ hrefuse
      | _ => trivial

/-- After a reservation, successful or not, no node is in hand: there the property
is the invariant. -/
theorem Step.counting_of_countsPlacements (hs : Step cfg s e t) (h : Counting base s)
    (hsame : SameInstance s e) (ht : CountsPlacements base t) : Counting base t := by
  by_cases hreservation : (∀ job node, e ≠ .claim job node) ∧ ∀ job node, e ≠ .refuseClaim job node
  · exact h.step_of_not_reservation hsame hs hreservation.1 hreservation.2
  · have hd : ∀ job node, t.dispatcher ≠ .chosen job node := by
      cases hs with
      | @claim job node cluster hd hr => exact reserved_ne_chosen job node true
      | @refuseClaim job node cluster hd hr => exact reserved_ne_chosen job node false
      | _ => exact absurd ⟨fun _ _ => nofun, fun _ _ => nofun⟩ hreservation
    exact (counting_of_not_chosen hd).mpr (ht hd)

/-! ### Runs -/

/-- **The counter counts the placements** in exactly those runs of one instance in
which every node it chose can still take the job when the dispatcher reserves the
slot, and a node in hand when the instance was made no longer can. -/
theorem counts_placements_iff (h₀ : NewInstance cfg s₀)
    (h : Run (restrict (Step cfg) SameInstance) s₀ tr s) :
    Throughout (CountsPlacements s₀.history.reserved.length) tr s ↔
      ∀ p ∈ tr, Confirmed p.1 p.2 := by
  refine h.always_iff (counting_init h₀) Counting.countsPlacements ?_ ?_
  · intro t e u hcount hconfirmed hs
    exact (hcount.step_iff hs.1 hs.2).mpr hconfirmed
  · intro t e u hcount hs hu
    exact (hcount.step_iff hs.1 hs.2).mp (hs.2.counting_of_countsPlacements hcount hs.1 hu)

/-- One node and one job, up to the choice of the node. -/
theorem run_chosen :
    ∃ tr s, Run (restrict (Step {}) SameInstance) defaultInit tr s ∧
      s.dispatcher = .chosen (ClusterState.jobOf "j") (idleView "n") ∧
      s.policy = .roundRobin ⟨1⟩ ∧ s.history.reserved = [] ∧ s.AskedCurrent ∧
      s.cluster.canTake "n" (ClusterState.jobOf "j") = true ∧
      (s.cluster.removeExpiredNodes 15 20).canTake "n" (ClusterState.jobOf "j") = false ∧
      ∀ p ∈ tr, Confirmed p.1 p.2 := by
  have h₀ : Run (restrict (Step {}) fun s e => SameInstance s e ∧ Confirmed s e)
    defaultInit [] defaultInit := .refl
  have h₁ := h₀.tail_restrict (.register (ClusterState.nodeOf "n" 1 64)) ⟨nofun, trivial⟩
  have h₂ := h₁.tail_restrict (.heartbeat ⟨"n", 0⟩ 0) ⟨nofun, trivial⟩
  have h₃ := h₂.tail_restrict (.submit (ClusterState.jobOf "j")) ⟨nofun, trivial⟩
  have h₄ := h₃.tail_restrict (.dequeue rfl rfl) ⟨nofun, trivial⟩
  have h₅ := h₄.tail_restrict (.offer rfl) ⟨nofun, trivial⟩
  have h₆ := h₅.tail_restrict (.answer rfl) ⟨nofun, trivial⟩
  obtain ⟨-, hA⟩ := h₆.of_restrict
  exact ⟨_, _, h₆.mono And.left, by decide +kernel, rfl, rfl, rfl,
    by decide +kernel, by decide +kernel, fun p hp => (hA p hp).2⟩

/-- A job that is placed on the node that was chosen for it. -/
theorem counts_placements_first :
    ∃ tr s, Run (restrict (Step {}) SameInstance) defaultInit tr s ∧ s.history.reserved.length = 1 ∧
      Throughout (CountsPlacements 0) tr s := by
  obtain ⟨tr, s, h, hd, -, hreserved, hcurrent, htake, -, hC⟩ := run_chosen
  have h₁ := h.tail_restrict (.claim hd (ClusterState.reserveSlot_of_canTake htake)) nofun
  refine ⟨_, _, h₁, ?_, ?_⟩
  · show (s.history.reserved ++ _).length = 1
    rw [hreserved]
    rfl
  · refine (counts_placements_iff (.start "round_robin") h₁).mpr ?_
    exact forall_mem_snoc.mpr ⟨hC, iff_of_true htake hcurrent⟩

/-- The chosen node expires before its slot is reserved: the job is placed nowhere
and the counter has moved. -/
theorem counter_moved_without_placement :
    NewInstance {} defaultInit ∧
    ∃ tr s, Run (restrict (Step {}) SameInstance) defaultInit tr s ∧
      s.dispatcher = .asking (ClusterState.jobOf "j") ∧ s.policy = .roundRobin ⟨1⟩ ∧
      s.history.reserved = [] ∧ ¬ CountsPlacements defaultInit.history.reserved.length s := by
  refine ⟨.start "round_robin", ?_⟩
  obtain ⟨tr, s, h, hd, hp, hreserved, -, -, hgone, -⟩ := run_chosen
  have h₁ := h.tail_restrict (.expire 15 20) nofun
  have h₂ := h₁.tail_restrict
    (.refuseClaim hd (ClusterState.reserveSlot_of_not_canTake hgone)) nofun
  refine ⟨_, _, h₂, rfl, hp, hreserved, fun hcounts => ?_⟩
  obtain ⟨p, hp', hcount⟩ := hcounts (reserved_ne_chosen _ (idleView "n") false)
  obtain rfl := Policy.roundRobin.inj (hp.symm.trans hp')
  exact absurd ((congrArg List.length hreserved).symm.trans hcount) (by decide)

end Scheduler

end HeteroSched
