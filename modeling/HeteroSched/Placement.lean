/-
HeteroSched/Placement.lean

The placements of a run of the scheduler: which list was offered for a job and
which node the job was reserved on.

Design.  A placement is read off the trace (`placements`): the list is the one
the policy was last asked about, the node is that of the successful
`reserve_slot`.  On fixed nodes only the dispatcher raises counters, so every
other step eases the cluster (`Step.eased`) and what was available when it was
listed is available when it is reserved.  From an idle dispatcher one whole turn
of `dispatcher_loop` is `dispatched` (`dispatch_run`).
-/
import HeteroSched.Availability
import HeteroSched.Refinement

namespace HeteroSched

open Transition

/-- The list the dispatcher holds, if it was offered one. -/
def Dispatcher.available : Dispatcher → List NodeView
  | .offered _ available => available
  | _ => []

/-- Neither the queue nor the failed attempts matter to the tables of nodes. -/
theorem ClusterState.sound_tables {c : ClusterState} : c.tables.Sound ↔ c.Sound := by
  constructor
  · intro h
    exact ⟨⟨h.keyed.nodeId_eq, h.keyed.mem_runningJobs, h.keyed.mem_allocatedMemory⟩, h.charged,
      h.cpus, h.memory⟩
  · intro h
    exact ⟨⟨h.keyed.nodeId_eq, h.keyed.mem_runningJobs, h.keyed.mem_allocatedMemory⟩, h.charged,
      h.cpus, h.memory⟩

namespace Scheduler

variable {P : PolicyRegistry} {cfg : Config} {s t s₀ : Scheduler P} {e : Event}
variable {tr : List (Scheduler P × Event)}

/-! ### Reachable cluster states -/

theorem Step.sound (h : Step cfg s e t) (hs : s.cluster.Sound) : t.cluster.Sound := by
  rw [← ClusterState.sound_tables] at hs ⊢
  exact h.tables_keeps hs fun o _ => hs.apply o

theorem run_sound {policy : P.Instance} {policyName : String}
    (h : Run (Step cfg) (init policy policyName) tr s) : s.cluster.Sound :=
  h.invariant (I := fun s => s.cluster.Sound) ClusterState.sound_init fun hs h => h.sound hs

/-! ### Fixed nodes -/

/-- The registered nodes stay, with the capabilities they have, and the policy
instance stays. -/
def FixedNodes (s : Scheduler P) : Event → Prop
  | .register registration =>
      s.cluster.capabilitiesOf registration.nodeId = some registration.profile.capabilities
  | .expire timeoutSeconds now =>
      ∀ n ∈ s.cluster.registrations, n ∉ s.cluster.expiredNodes timeoutSeconds now
  | .swapPolicy => False
  | _ => True

/-- On fixed nodes every step but a reservation eases the cluster. -/
theorem Step.eased (h : Step cfg s e t) (hs : s.cluster.Sound) (hf : FixedNodes s e)
    (hclaim : ∀ job node, e ≠ .claim job node) : ClusterState.Eased s.cluster t.cluster := by
  have htables := h.tables
  have hsound : s.cluster.tables.Sound := ClusterState.sound_tables.mpr hs
  have heased : ClusterState.Eased s.cluster.tables t.cluster.tables := by
    rcases ho : op e with - | o
    · rw [ho] at htables
      exact (show t.cluster.tables = s.cluster.tables from htables) ▸ .refl _
    · rw [ho] at htables
      refine (show t.cluster.tables = o.apply s.cluster.tables from htables) ▸ hsound.eased ?_ ?_
      · cases e with
        | register registration => exact Option.some.inj ho ▸ hf
        | expire timeoutSeconds now => exact Option.some.inj ho ▸ hf
        | heartbeat heartbeat now => exact Option.some.inj ho ▸ trivial
        | claim job node => exact Option.some.inj ho ▸ trivial
        | release th => exact Option.some.inj ho ▸ trivial
        | callback result => exact Option.some.inj ho ▸ trivial
        | _ => cases ho
      · rintro n job rfl
        cases e with
        | claim job node => exact hclaim job node rfl
        | _ => cases ho
  exact ⟨heased.nodes, heased.capabilities, heased.cpus, heased.memory⟩

/-- The steps of the dispatcher. -/
def OfDispatcher : Event → Prop
  | .dequeue _ | .offer _ | .answer _ | .claim .. | .refuseClaim .. | .spawn .. => True
  | _ => False

/-- Nothing else moves the dispatcher, and only a new run changes the policy. -/
theorem Step.dispatcher_eq (h : Step cfg s e t) (he : ¬ OfDispatcher e) :
    t.dispatcher = s.dispatcher ∧ (e ≠ .swapPolicy → t.policy = s.policy) := by
  cases h with
  | dequeue hd hq => exact absurd trivial he
  | offer hd => exact absurd trivial he
  | answer hd => exact absurd trivial he
  | claim hd hr => exact absurd trivial he
  | refuseClaim hd hr => exact absurd trivial he
  | spawn now hd => exact absurd trivial he
  | swapPolicy hl hp => exact ⟨rfl, fun hne => absurd rfl hne⟩
  | _ => exact ⟨rfl, fun _ => rfl⟩

/-! ### Placements -/

/-- A job, the ids of the nodes that were offered for it and the node it got. -/
structure Placement where
  job : JobRequest
  offered : List NodeId
  node : NodeId
  deriving DecidableEq

/-- The last list a policy was asked about, and the placements so far. -/
structure PlacementLog where
  offered : List NodeId := []
  placements : List Placement := []

/-- Note what the policy is offered, and a placement when the slot is claimed. -/
def PlacementLog.add (log : PlacementLog) : Scheduler P × Event → PlacementLog
  | (s, .answer _) => { log with offered := s.dispatcher.available.map fun v => v.nodeId }
  | (_, .claim job node) =>
      { log with placements := log.placements ++ [⟨job, log.offered, node.nodeId⟩] }
  | _ => log

/-- The log of a run. -/
def placementLog (tr : List (Scheduler P × Event)) : PlacementLog := tr.foldl PlacementLog.add {}

/-- The placements of a run, in order. -/
def placements (tr : List (Scheduler P × Event)) : List Placement := (placementLog tr).placements

theorem placementLog_snoc (p : Scheduler P × Event) :
    placementLog (tr ++ [p]) = (placementLog tr).add p := by
  rw [placementLog, List.foldl_append]
  rfl

/-- Other steps leave no trace in the log. -/
theorem placementLog_snoc_of_not (he : ¬ OfDispatcher e) :
    placementLog (tr ++ [(s, e)]) = placementLog tr := by
  rw [placementLog_snoc]
  cases e with
  | answer job => exact absurd trivial he
  | claim job node => exact absurd trivial he
  | _ => rfl

theorem placements_snoc_claim (job : JobRequest) (node : NodeView) :
    placements (tr ++ [(s, .claim job node)])
      = placements tr ++ [⟨job, (placementLog tr).offered, node.nodeId⟩] := by
  rw [placements, placementLog_snoc]
  rfl

/-- Only a claim is a placement. -/
theorem placements_snoc_of_not (he : ∀ job node, e ≠ .claim job node) :
    placements (tr ++ [(s, e)]) = placements tr := by
  rw [placements, placementLog_snoc]
  cases e with
  | claim job node => exact absurd rfl (he job node)
  | _ => rfl

/-- The jobs submitted in a run, in order. -/
def submittedIn (tr : List (Scheduler P × Event)) : List JobRequest :=
  tr.filterMap fun p => match p.2 with
    | .submit job => some job
    | _ => none

theorem submittedIn_snoc_of_not (he : ∀ job, e ≠ .submit job) :
    submittedIn (tr ++ [(s, e)]) = submittedIn tr := by
  rw [submittedIn, List.filterMap_append]
  cases e with
  | submit job => exact absurd rfl (he job)
  | _ => exact List.append_nil _

theorem submittedIn_snoc (job : JobRequest) :
    submittedIn (tr ++ [(s, .submit job)]) = submittedIn tr ++ [job] :=
  List.filterMap_append

/-! ### One turn of the dispatcher -/

/-- The scheduler after the next job was placed and its thread started. -/
def dispatched (s : Scheduler P) (job : JobRequest) (node : NodeView) (now : Timestamp) :
    Scheduler P :=
  { s with
    cluster :=
      ({ s.cluster with jobQueue := s.cluster.jobQueue.tail } : ClusterState).reserved node.nodeId job
    policy := (P.selectNode s.policy (s.cluster.getAvailableNodes job) job).2
    dispatcher := .idle
    threads := ⟨job, node, now, .posting⟩ :: s.threads
    history := { s.history with
      reserved := s.history.reserved ++ [job]
      asked := s.history.asked ++ [(s.history.instances, job.jobId)] } }

variable {A : Scheduler P → Event → Prop}

/-- When the policy's answer is a node of the list, the dispatcher places the job
at the head of the queue there. -/
theorem dispatch_run (h : Run (restrict (Step cfg) A) s₀ tr s)
    (hA : ∀ s e, OfDispatcher e → A s e) (hd : s.dispatcher = .idle) {job : JobRequest}
    {rest : List JobRequest} (hq : s.cluster.jobQueue = job :: rest) (node : NodeView)
    (hanswer : (P.selectNode s.policy (s.cluster.getAvailableNodes job) job).1 = some node)
    (hmem : node ∈ s.cluster.getAvailableNodes job) (now : Timestamp) :
    ∃ tr', Run (restrict (Step cfg) A) s₀ tr' (s.dispatched job node now) ∧
      placements tr' = placements tr ++
        [⟨job, (s.cluster.getAvailableNodes job).map fun v => v.nodeId, node.nodeId⟩] ∧
      submittedIn tr' = submittedIn tr := by
  obtain rfl : s.cluster.jobQueue.tail = rest := by rw [hq, List.tail_cons]
  have hdeq : s.cluster.dequeueJob
      = (some job, { s.cluster with jobQueue := s.cluster.jobQueue.tail }) := by
    rw [ClusterState.dequeueJob, hq, List.tail_cons]
  have htake : ({ s.cluster with jobQueue := s.cluster.jobQueue.tail } : ClusterState).canTake
      node.nodeId job = true := (ClusterState.mem_getAvailableNodes.mp hmem).2
  have h₁ := h.tail_restrict (.dequeue hd hdeq) (hA _ _ trivial)
  have h₂ := h₁.tail_restrict (.offer rfl) (hA _ _ trivial)
  have h₃ := h₂.tail_restrict (.answer rfl) (hA _ _ trivial)
  have hvet : Dispatcher.answered job (s.cluster.getAvailableNodes job)
      (P.selectNode s.policy (s.cluster.getAvailableNodes job) job).1 = .chosen job node := by
    rw [hanswer, Dispatcher.answered_of_mem hmem]
  have h₄ := h₃.tail_restrict (.claim hvet (ClusterState.reserveSlot_of_canTake htake))
    (hA _ _ trivial)
  have h₅ := h₄.tail_restrict (.spawn now rfl) (hA _ _ trivial)
  refine ⟨_, h₅, ?_, ?_⟩
  · simp only [placements, placementLog_snoc]
    rfl
  · simp only [submittedIn, List.filterMap_append, List.filterMap_cons_none, List.filterMap_nil,
      List.append_nil]

end Scheduler

end HeteroSched
