/-
HeteroSched/Dispatcher.lean

The dispatcher thread, from `dispatcher_loop` and `select_node_for` of
`scheduler/main.py`.

Design.  The thread's local variables and position make one value, and what it
does between two points where another thread can run is one function on it.
`select_node_for` looks at the cluster three times: to list the nodes that fit
the job, to ask the policy about that list, and to reserve the node it chose.
The cluster may change between any two of them, which is why the reservation is
checked again and the loop started over when it fails.
-/
import HeteroSched.Policies

namespace HeteroSched

/-- Where the dispatcher is: waiting for a job; at the top of the loop of
`select_node_for` with a job in hand; holding the list of available nodes;
holding the node the policy chose from it; done with the loop, the slot
reserved and the dispatch thread not yet started. -/
inductive Dispatcher
  | idle
  | asking (job : JobRequest)
  | offered (job : JobRequest) (available : List NodeView)
  | chosen (job : JobRequest) (node : NodeView)
  | placed (job : JobRequest) (node : NodeView)
  deriving DecidableEq

/-- A policy must return one of the candidates it was offered; anything else
counts as declining. -/
def vetAnswer (available : List NodeView) (answer : Option NodeView) : Option NodeView :=
  match answer with
  | some node => if node ∈ available then some node else none
  | none => none

/-- The dispatcher after the policy's answer: with a node to reserve, or back at
the top of the loop after the sleep. -/
def Dispatcher.answered (job : JobRequest) (available : List NodeView) (answer : Option NodeView) :
    Dispatcher :=
  match vetAnswer available answer with
  | some node => .chosen job node
  | none => .asking job

/-- The dispatcher after the attempt to reserve the chosen node. -/
def Dispatcher.reserved (job : JobRequest) (node : NodeView) (ok : Bool) : Dispatcher :=
  if ok then .placed job node else .asking job

/-- The job in the dispatcher's hand, taken off the queue and not yet placed. -/
def Dispatcher.held : Dispatcher → Option JobRequest
  | .idle => none
  | .asking job => some job
  | .offered job _ => some job
  | .chosen job _ => some job
  | .placed _ _ => none

@[simp] theorem Dispatcher.held_answered (job : JobRequest) (available : List NodeView)
    (answer : Option NodeView) : (Dispatcher.answered job available answer).held = some job := by
  unfold Dispatcher.answered
  split <;> rfl

/-- A node of the list is taken as the answer. -/
theorem Dispatcher.answered_of_mem {available : List NodeView} {node : NodeView}
    (h : node ∈ available) (job : JobRequest) :
    Dispatcher.answered job available (some node) = .chosen job node := by
  rw [answered, vetAnswer, if_pos h]

/-- What the dispatcher goes on with is the answer, and it is on the list. -/
theorem Dispatcher.of_answered_eq_chosen {job job' : JobRequest} {available : List NodeView}
    {answer : Option NodeView} {node : NodeView}
    (h : Dispatcher.answered job available answer = .chosen job' node) :
    job = job' ∧ answer = some node ∧ node ∈ available := by
  rcases answer with - | v
  · exact absurd h nofun
  · by_cases hmem : v ∈ available
    · rw [answered_of_mem hmem] at h
      obtain ⟨rfl, rfl⟩ := Dispatcher.chosen.inj h
      exact ⟨rfl, rfl, hmem⟩
    · have hasking : Dispatcher.answered job available (some v) = .asking job := by
        rw [answered, vetAnswer, if_neg hmem]
      rw [hasking] at h
      exact absurd h nofun

/-- No answer is a node of an empty list. -/
theorem Dispatcher.answered_nil (job : JobRequest) (answer : Option NodeView) :
    Dispatcher.answered job [] answer = .asking job := by
  rcases answer with - | node
  · rfl
  · simp [Dispatcher.answered, vetAnswer]

end HeteroSched
