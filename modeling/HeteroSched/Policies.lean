/-
HeteroSched/Policies.lean

The scheduling policies, from `scheduler/policies/` and the registry of
`scheduler/main.py`.

Design.  A policy sees the nodes that could take the job and answers with a node
or declines; it may keep state of its own between the questions.  Results that
hold for every policy are stated for an arbitrary `PolicyRegistry`, which is the
source's `POLICIES` with its `get_policy`: a name gives a fresh instance or, if
it is unknown, nothing (the `ValueError` of the source).  Occupancies and loads
are compared exactly.
-/
import HeteroSched.ClusterState

namespace HeteroSched

/-- The policies a scheduler knows: their instances, how a name makes a fresh
one, and what an instance answers (with its state after answering). -/
structure PolicyRegistry where
  Instance : Type
  getPolicy : String → Option Instance
  selectNode : Instance → List NodeView → JobRequest → Option NodeView × Instance

/-! ### Round robin -/

/-- Round robin, with the index of the next node. -/
structure RoundRobinPolicy where
  index : ℕ := 0
  deriving DecidableEq, Repr

/-- The node the index points to, and the index moves on. -/
def RoundRobinPolicy.selectNode (p : RoundRobinPolicy) (nodes : List NodeView)
    (_job : JobRequest) : Option NodeView × RoundRobinPolicy :=
  match nodes with
  | [] => (none, p)
  | _ => (nodes[p.index % nodes.length]?, ⟨p.index + 1⟩)

/-- Asked about a list that is not empty, the policy answers with the node its
counter points to and moves on. -/
theorem RoundRobinPolicy.selectNode_of_ne_nil (p : RoundRobinPolicy) {nodes : List NodeView}
    (h : nodes ≠ []) (job : JobRequest) :
    ∃ v ∈ nodes, nodes[p.index % nodes.length]? = some v ∧
      p.selectNode nodes job = (some v, ⟨p.index + 1⟩) := by
  have hlt : p.index % nodes.length < nodes.length :=
    Nat.mod_lt _ (List.length_pos_iff.mpr h)
  refine ⟨nodes[p.index % nodes.length], List.getElem_mem hlt, List.getElem?_eq_getElem hlt, ?_⟩
  rw [← List.getElem?_eq_getElem hlt]
  unfold selectNode
  split
  · exact absurd rfl h
  · rfl

theorem RoundRobinPolicy.selectNode_mem (p : RoundRobinPolicy) {nodes : List NodeView}
    (h : nodes ≠ []) (job : JobRequest) : ∃ v ∈ nodes, (p.selectNode nodes job).1 = some v := by
  obtain ⟨v, hv, -, hselect⟩ := p.selectNode_of_ne_nil h job
  exact ⟨v, hv, congrArg Prod.fst hselect⟩

/-! ### Least loaded -/

/-- Least loaded, which keeps nothing. -/
structure LeastLoadedPolicy where
  deriving DecidableEq, Repr

/-- The first node whose occupancy is least, ties decided by the reported load. -/
def LeastLoadedPolicy.selectNode (_p : LeastLoadedPolicy) (nodes : List NodeView)
    (_job : JobRequest) : Option NodeView :=
  nodes.argmin fun n => toLex (n.slotOccupancy, n.currentLoad)

/-- The chosen node is on the list, and no node on the list is less occupied. -/
theorem LeastLoadedPolicy.selectNode_eq_some {p : LeastLoadedPolicy} {nodes : List NodeView}
    {job : JobRequest} {v : NodeView} (h : p.selectNode nodes job = some v) :
    v ∈ nodes ∧ ∀ w ∈ nodes, v.slotOccupancy ≤ w.slotOccupancy := by
  refine ⟨List.argmin_mem h, fun w hw => ?_⟩
  exact Prod.Lex.monotone_fst _ _ (List.le_of_mem_argmin hw h)

theorem LeastLoadedPolicy.selectNode_mem (p : LeastLoadedPolicy) {nodes : List NodeView}
    (h : nodes ≠ []) (job : JobRequest) : ∃ v ∈ nodes, p.selectNode nodes job = some v := by
  rcases hs : p.selectNode nodes job with - | v
  · exact absurd (List.argmin_eq_none.mp hs) h
  · exact ⟨v, (selectNode_eq_some hs).1, rfl⟩

/-! ### The registry -/

/-- An instance of one of the source's policies. -/
inductive Policy
  | roundRobin (p : RoundRobinPolicy)
  | leastLoaded (p : LeastLoadedPolicy)
  deriving DecidableEq, Repr

/-- Ask the policy for a node. -/
def Policy.selectNode : Policy → List NodeView → JobRequest → Option NodeView × Policy
  | .roundRobin p, nodes, job =>
      let answer := p.selectNode nodes job
      (answer.1, .roundRobin answer.2)
  | .leastLoaded p, nodes, job => (p.selectNode nodes job, .leastLoaded p)

theorem Policy.selectNode_roundRobin {p q : RoundRobinPolicy} {nodes : List NodeView}
    {job : JobRequest} {answer : Option NodeView} (h : p.selectNode nodes job = (answer, q)) :
    (Policy.roundRobin p).selectNode nodes job = (answer, .roundRobin q) := by
  rw [Policy.selectNode, h]

theorem Policy.selectNode_mem (p : Policy) {nodes : List NodeView} (h : nodes ≠ [])
    (job : JobRequest) : ∃ v ∈ nodes, (p.selectNode nodes job).1 = some v := by
  cases p with
  | roundRobin p => exact p.selectNode_mem h job
  | leastLoaded p => exact p.selectNode_mem h job

/-- A fresh instance of the named policy; names are compared in lower case. -/
def getPolicy (policyName : String) : Option Policy :=
  match policyName.toLower with
  | "round_robin" => some (.roundRobin {})
  | "least_loaded" => some (.leastLoaded {})
  | _ => none

theorem getPolicy_round_robin : getPolicy "round_robin" = some (.roundRobin {}) := by
  decide +kernel

/-- The registry of the source. -/
def policies : PolicyRegistry where
  Instance := Policy
  getPolicy := getPolicy
  selectNode := Policy.selectNode

end HeteroSched
