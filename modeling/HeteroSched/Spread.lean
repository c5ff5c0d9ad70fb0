/-
HeteroSched/Spread.lean

How the round-robin policy spreads its answers over the nodes it is offered.

Design.  `selectAll` asks one instance again and again.  A call with an empty list
leaves the counter, and every other call reads the entry the counter points to and
moves on; so the answers to one list read it round and round, from the place where
the counter stood (`selectAll_cycle`, `Rotation.cycle`).  The list is compared by a
key of its entries: by the views themselves for calls of the policy, by the ids of
the nodes for the questions of a dispatcher, whose views change with every job.
-/
import HeteroSched.Lib.Rotation
import HeteroSched.PlacementCounter

namespace HeteroSched

open Transition

/-! ### Calls in a row -/

/-- The calls that offer a node. -/
def asked (calls : List (List NodeView × JobRequest)) : List (List NodeView × JobRequest) :=
  calls.filter fun call => call.1 ≠ []

theorem asked_cons {nodes : List NodeView} (h : nodes ≠ []) (job : JobRequest)
    (calls : List (List NodeView × JobRequest)) :
    asked ((nodes, job) :: calls) = (nodes, job) :: asked calls :=
  List.filter_cons_of_pos (decide_eq_true h)

namespace RoundRobinPolicy

/-- One call of `select_node` after the other: the answers, and the instance
after the last. -/
def selectAll : RoundRobinPolicy → List (List NodeView × JobRequest) →
    List (Option NodeView) × RoundRobinPolicy
  | p, [] => ([], p)
  | p, (nodes, job) :: calls =>
      let answer := p.selectNode nodes job
      let rest := selectAll answer.2 calls
      (answer.1 :: rest.1, rest.2)

/-- The nodes chosen in these calls, in order. -/
def chosen (p : RoundRobinPolicy) (calls : List (List NodeView × JobRequest)) : List NodeView :=
  (p.selectAll calls).1.reduceOption

variable {p q : RoundRobinPolicy} {nodes : List NodeView} {job : JobRequest}
variable {calls : List (List NodeView × JobRequest)}

theorem selectAll_cons {answer : Option NodeView} (h : p.selectNode nodes job = (answer, q)) :
    p.selectAll ((nodes, job) :: calls) =
      (answer :: (q.selectAll calls).1, (q.selectAll calls).2) := by
  rw [selectAll, h]

theorem chosen_cons {v : NodeView} (h : p.selectNode nodes job = (some v, q)) :
    p.chosen ((nodes, job) :: calls) = v :: q.chosen calls := by
  rw [chosen, selectAll_cons h, List.reduceOption_cons_of_some, chosen]

theorem selectAll_append (p : RoundRobinPolicy) (calls calls' : List (List NodeView × JobRequest)) :
    p.selectAll (calls ++ calls') =
      ((p.selectAll calls).1 ++ ((p.selectAll calls).2.selectAll calls').1,
        ((p.selectAll calls).2.selectAll calls').2) := by
  induction calls generalizing p with
  | nil => rfl
  | cons call calls ih =>
      rw [List.cons_append, selectAll, ih]
      rfl

/-- The calls with an empty list might as well not have been made. -/
theorem selectAll_asked (p : RoundRobinPolicy) (calls : List (List NodeView × JobRequest)) :
    p.selectAll (asked calls) = ((p.chosen calls).map some, (p.selectAll calls).2) := by
  induction calls generalizing p with
  | nil => rfl
  | cons call calls ih =>
      obtain ⟨nodes, job⟩ := call
      by_cases h : nodes = []
      · subst h
        exact ih p
      · obtain ⟨v, -, -, hselect⟩ := p.selectNode_of_ne_nil h job
        rw [asked_cons h, selectAll_cons hselect, selectAll_cons hselect, ih, chosen_cons hselect,
          List.map_cons]

/-- Calls that offer the same entries, up to a key, read them round and round. -/
theorem selectAll_cycle {κ : Type*} (key : NodeView → κ) {keys : List κ} (hkeys : keys ≠ [])
    (p : RoundRobinPolicy) (h : ∀ call ∈ calls, call.1 = [] ∨ call.1.map key = keys) :
    (p.chosen calls).map key = Rotation.cycle keys p.index (asked calls).length ∧
      (p.selectAll calls).2 = ⟨p.index + (asked calls).length⟩ := by
  induction calls generalizing p with
  | nil => exact ⟨rfl, rfl⟩
  | cons call calls ih =>
      obtain ⟨nodes, job⟩ := call
      obtain ⟨hcall, hrest⟩ := List.forall_mem_cons.mp h
      by_cases hnil : nodes = []
      · -- the counter stays
        subst hnil
        exact ih p hrest
      · have hsame : nodes.map key = keys := hcall.resolve_left hnil
        obtain ⟨v, -, hentry, hselect⟩ := p.selectNode_of_ne_nil hnil job
        obtain ⟨hchosen, hindex⟩ := ih ⟨p.index + 1⟩ hrest
        obtain ⟨x, hx, hcycle⟩ := Rotation.cycle_succ hkeys p.index (asked calls).length
        have hkey : key v = x := by
          rw [← hsame, List.length_map, List.getElem?_map, hentry] at hx
          exact Option.some.inj hx
        rw [asked_cons hnil, List.length_cons, hcycle, chosen_cons hselect, List.map_cons, hkey,
          hchosen, selectAll_cons hselect, hindex]
        refine ⟨rfl, ?_⟩
        show RoundRobinPolicy.mk (p.index + 1 + (asked calls).length) = _
        rw [Nat.add_right_comm, Nat.add_assoc]

end RoundRobinPolicy

/-- **Round robin spreads evenly over a stable list**: of calls that all offer the
same distinct nodes, with calls that offer none anywhere in between, every node is
chosen as often as the others up to one, and once in as many choices in a row as
there are nodes; the calls that offer none might as well not have been made. -/
theorem round_robin_spreads (p : RoundRobinPolicy) (nodes : List NodeView) (hne : nodes ≠ [])
    (hnodup : nodes.Nodup) (calls : List (List NodeView × JobRequest))
    (hcalls : ∀ call ∈ calls, call.1 = [] ∨ call.1 = nodes) :
    (p.chosen calls).length = (asked calls).length ∧
    (∀ node ∈ nodes,
      (p.chosen calls).count node = (asked calls).length / nodes.length ∨
        (p.chosen calls).count node = (asked calls).length ⌈/⌉ nodes.length) ∧
    (∀ before window after, p.chosen calls = before ++ window ++ after →
      window.length = nodes.length → ∀ node ∈ nodes, window.count node = 1) ∧
    (∀ (q : RoundRobinPolicy) (job : JobRequest), q.selectNode [] job = (none, q)) ∧
    p.selectAll (asked calls) = ((p.chosen calls).map some, (p.selectAll calls).2) := by
  have hcycle : p.chosen calls = Rotation.cycle nodes p.index (asked calls).length := by
    have hkeyed := (p.selectAll_cycle id hne fun call hcall => by
      rw [List.map_id]
      exact hcalls call hcall).1
    rwa [List.map_id] at hkeyed
  refine ⟨?_, ?_, ?_, fun _ _ => rfl, p.selectAll_asked calls⟩
  · rw [hcycle]
    exact Rotation.length_cycle hne _ _
  · intro node hnode
    rw [hcycle]
    exact Rotation.count_cycle hnodup hnode _ _
  · intro before window after happend hlength node hnode
    rw [hcycle] at happend
    rw [(Rotation.perm_of_cycle_eq_append hne happend hlength).count_eq]
    exact List.count_eq_one_of_mem hnodup hnode

/-- Three choices of two nodes, with a call in between that offers none. -/
def threeCalls : List (List NodeView × JobRequest) :=
  [([Scheduler.idleView "n", Scheduler.idleView "m"], ClusterState.jobOf "i"),
    ([], ClusterState.jobOf "j"),
    ([Scheduler.idleView "n", Scheduler.idleView "m"], ClusterState.jobOf "j"),
    ([Scheduler.idleView "n", Scheduler.idleView "m"], ClusterState.jobOf "k")]

theorem round_robin_spreads_three :
    (RoundRobinPolicy.chosen ⟨5⟩ threeCalls).count (Scheduler.idleView "n") = 1 ∨
      (RoundRobinPolicy.chosen ⟨5⟩ threeCalls).count (Scheduler.idleView "n") = 2 := by
  have hspread := round_robin_spreads ⟨5⟩ [Scheduler.idleView "n", Scheduler.idleView "m"]
    (by simp) (by decide +kernel) threeCalls (by simp [threeCalls])
  exact hspread.2.1 (Scheduler.idleView "n") List.mem_cons_self

/-! ### The questions of a dispatcher -/

namespace Scheduler

variable {cfg : Config} {s s₀ t : Scheduler policies} {e : Event}
variable {tr : List (Scheduler policies × Event)} {p : RoundRobinPolicy}

/-- What the dispatcher asked the policy in a run, in order. -/
def questions (tr : List (Scheduler policies × Event)) : List (List NodeView × JobRequest) :=
  tr.filterMap fun q => match q.2 with
    | .answer job => some (q.1.dispatcher.available, job)
    | _ => none

/-- What the policy answered. -/
def answers (tr : List (Scheduler policies × Event)) : List (Option NodeView) :=
  tr.filterMap fun q => match q.2 with
    | .answer job => some (policies.selectNode q.1.policy q.1.dispatcher.available job).1
    | _ => none

theorem questions_snoc_of_not (tr : List (Scheduler policies × Event)) (s : Scheduler policies)
    (he : ∀ job, e ≠ .answer job) :
    questions (tr ++ [(s, e)]) = questions tr ∧ answers (tr ++ [(s, e)]) = answers tr := by
  rw [questions, answers, List.filterMap_append, List.filterMap_append]
  cases e with
  | answer job => exact absurd rfl (he job)
  | _ => exact ⟨List.append_nil _, List.append_nil _⟩

/-- The instance stays as it is until it is asked again. -/
theorem Step.policy_eq (h : Step cfg s e t) (hsame : SameInstance s e)
    (he : ∀ job, e ≠ .answer job) : t.policy = s.policy := by
  cases h with
  | answer hd => exact absurd rfl (he _)
  | swapPolicy hl hp => exact absurd rfl hsame
  | _ => rfl

theorem Step.policy_answer {job : JobRequest} (h : Step cfg s (.answer job) t) :
    t.policy = (policies.selectNode s.policy s.dispatcher.available job).2 := by
  cases h with
  | answer hd =>
      rw [hd]
      rfl

/-- The dispatcher asks one instance again and again. -/
theorem run_selectAll (hp : s₀.policy = .roundRobin p)
    (h : Run (restrict (Step cfg) SameInstance) s₀ tr s) :
    answers tr = (p.selectAll (questions tr)).1 ∧
      s.policy = .roundRobin (p.selectAll (questions tr)).2 := by
  refine h.invariant_trace (I := fun tr s => answers tr = (p.selectAll (questions tr)).1 ∧
    s.policy = .roundRobin (p.selectAll (questions tr)).2) ⟨rfl, hp⟩ ?_
  rintro tr s e t - ⟨hanswers, hpolicy⟩ ⟨hsame, hs⟩
  by_cases he : ∃ job, e = .answer job
  · obtain ⟨job, rfl⟩ := he
    rcases hanswer : (p.selectAll (questions tr)).2.selectNode s.dispatcher.available job
      with ⟨answer, q⟩
    have hselect : policies.selectNode s.policy s.dispatcher.available job
        = (answer, .roundRobin q) := by
      rw [hpolicy]
      exact Policy.selectNode_roundRobin hanswer
    have hquestions : questions (tr ++ [(s, .answer job)])
        = questions tr ++ [(s.dispatcher.available, job)] := List.filterMap_append
    have hanswered : answers (tr ++ [(s, .answer job)])
        = answers tr ++ [(policies.selectNode s.policy s.dispatcher.available job).1] :=
      List.filterMap_append
    rw [hquestions, hanswered, RoundRobinPolicy.selectAll_append, hanswers, hs.policy_answer,
      hselect, RoundRobinPolicy.selectAll_cons hanswer]
    exact ⟨rfl, rfl⟩
  · have hne : ∀ job, e ≠ .answer job := fun job heq => he ⟨job, heq⟩
    obtain ⟨hquestions, hanswered⟩ := questions_snoc_of_not tr s hne
    rw [hquestions, hanswered, hs.policy_eq hsame hne]
    exact ⟨hanswers, hpolicy⟩

/-- In a run under one instance in which the dispatcher is offered the same nodes,
or none, whenever it asks, every node is the answer as often as the others up to one. -/
theorem run_spreads (hp : s₀.policy = .roundRobin p)
    (h : Run (restrict (Step cfg) SameInstance) s₀ tr s) {ids : List NodeId} (hids : ids.Nodup)
    (hoffered : ∀ call ∈ questions tr, call.1 = [] ∨ call.1.map (fun v => v.nodeId) = ids)
    {n : NodeId} (hn : n ∈ ids) :
    ((answers tr).reduceOption.map fun v => v.nodeId).count n =
        (asked (questions tr)).length / ids.length ∨
      ((answers tr).reduceOption.map fun v => v.nodeId).count n =
        (asked (questions tr)).length ⌈/⌉ ids.length := by
  have hcycle := (p.selectAll_cycle (fun v => v.nodeId) (List.ne_nil_of_mem hn) hoffered).1
  rw [(run_selectAll hp h).1]
  show ((p.chosen (questions tr)).map _).count n = _ ∨ _
  rw [← RoundRobinPolicy.chosen, hcycle]
  exact Rotation.count_cycle hids hn _ _

end Scheduler

end HeteroSched
