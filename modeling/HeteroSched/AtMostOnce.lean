/-
HeteroSched/AtMostOnce.lean

When a job is accepted for execution at most once.

The `except` branch of `dispatch_job` covers the POST, the check of the response
and the write of the dispatch, and puts the job back in the queue whichever of
them failed.  When the agent had already accepted the job, because only its
response was lost or only the write failed, the job is dispatched again and runs
a second time (`accepted_twice`).  That requeue is the only way to a second
acceptance: in a run that requeues only jobs no agent accepted, no job is
accepted twice (`accepted_at_most_once`).
-/
import HeteroSched.Refinement

namespace HeteroSched

open Transition

namespace Scheduler

variable {P : PolicyRegistry} {cfg : Config} {s : Scheduler P} {e : Event}

/-- The failure branch puts a job back in the queue only if no agent has accepted
it. -/
def RequeueUnaccepted (s : Scheduler P) : Event → Prop
  | .requeue t => t.job.jobId ∉ s.history.accepted.map Prod.fst
  | _ => True

theorem RequeueUnaccepted.act (hf : FreshIds s e) (h : RequeueUnaccepted s e)
    {a : JobFlow.Act JobId NodeId} (ha : act e = some a) :
    JobFlow.RetryUnaccepted s.flow a := by
  cases a with
  | retry j =>
      obtain ⟨th, rfl, rfl⟩ := act_eq_retry ha
      exact fun hm => h (Multiset.mem_coe.mp hm)
  | _ => exact hf.act ha

/-- In every run that requeues only jobs no agent has accepted, whatever else
fails, every job id is accepted at most once. -/
theorem accepted_at_most_once {policy : P.Instance} {policyName : String}
    {tr : List (Scheduler P × Event)}
    (h : Run (restrict (Step cfg) FreshIds) (init policy policyName) tr s)
    (hcond : ∀ p ∈ tr, RequeueUnaccepted p.1 p.2) :
    (s.history.accepted.map Prod.fst).Nodup := by
  obtain ⟨hrun, hfresh⟩ := h.of_restrict
  obtain ⟨tr', hflow, hretry⟩ := run_flow (D := JobFlow.RetryUnaccepted)
    (A := fun s e => FreshIds s e ∧ RequeueUnaccepted s e)
    (fun hA ha => RequeueUnaccepted.act hA.1 hA.2 ha) hrun
    fun p hp => ⟨hfresh p hp, hcond p hp⟩
  have honce : JobFlow.AcceptedOnce s.flow :=
    hflow.invariant_of JobFlow.acceptedOnce_init (fun hf hc hs => hf.step hc hs) hretry
  rw [List.nodup_iff_count_le_one]
  intro j
  simpa only [flow, Multiset.coe_count] using honce.accepted_le j

/-! ### A lost response -/

/-- What a policy is shown of an idle node with one core. -/
def idleView (nodeId : NodeId) : NodeView where
  nodeId := nodeId
  hostname := nodeId
  agentUrl := "http://" ++ nodeId
  profile := (ClusterState.nodeOf nodeId 1 64).profile
  currentLoad := 0
  runningJobs := 0
  slotOccupancy := 0

/-- The report of a job that ended well on a node. -/
def successOn (nodeId : NodeId) : JobResult where
  jobId := "j"
  nodeId := nodeId
  success := true
  runtimeSeconds := 1
  exitCode := 0

/-- The scheduler as it starts by default. -/
def defaultInit : Scheduler policies := init (.roundRobin {}) "round_robin"

/-- Two nodes and one job, whose row is in the database before it is dispatched:
the first node accepts it, its response is lost, and the second node accepts it
too. -/
theorem lost_response_run :
    ∃ tr s, Run (restrict (Step {}) fun s e => FreshIds s e ∧ SteadyNodes s e ∧ RowFirst s e)
        defaultInit tr s ∧
      s.history.accepted = [("j", "n"), ("j", "m")] ∧
      s.executing = [⟨ClusterState.jobOf "j", "m", false⟩, ⟨ClusterState.jobOf "j", "n", false⟩] ∧
      s.threads = [⟨ClusterState.jobOf "j", idleView "m", 0, .accepted⟩] ∧
      s.results = [] ∧
      s.cluster.reservations.get? "j" = some ⟨"m", 1, 0⟩ ∧
      s.cluster.registrations.get? "n" = some (ClusterState.nodeOf "n" 1 64) := by
  have h₀ : Run (restrict (Step {}) fun s e => FreshIds s e ∧ SteadyNodes s e ∧ RowFirst s e)
    defaultInit [] defaultInit := .refl
  have h₁ := h₀.tail_restrict (.register (ClusterState.nodeOf "n" 1 64))
    ⟨trivial, nofun, trivial⟩
  have h₂ := h₁.tail_restrict (.register (ClusterState.nodeOf "m" 1 64))
    ⟨trivial, nofun, trivial⟩
  have h₃ := h₂.tail_restrict (.submit (ClusterState.jobOf "j"))
    ⟨List.not_mem_nil, trivial, trivial⟩
  have h₄ := h₃.tail_restrict (@Step.tagSubmission _ _ _ _ [] _ 0 rfl) ⟨trivial, trivial, trivial⟩
  have h₅ := h₄.tail_restrict (@Step.insertSubmission _ _ _ _ _ _ [] _ _ 0 rfl rfl)
    ⟨trivial, trivial, trivial⟩
  -- the first attempt: accepted, but the POST raises
  have h₆ := h₅.tail_restrict (.dequeue rfl rfl) ⟨trivial, trivial, List.mem_cons_self⟩
  have h₇ := h₆.tail_restrict (.offer rfl) ⟨trivial, trivial, trivial⟩
  have h₈ := h₇.tail_restrict (.answer rfl) ⟨trivial, trivial, trivial⟩
  have h₉ := h₈.tail_restrict (@Step.claim _ _ _ (ClusterState.jobOf "j") (idleView "n") _
    (by decide +kernel) (Prod.ext (by decide +kernel) rfl)) ⟨trivial, trivial, trivial⟩
  have h₁₀ := h₉.tail_restrict (.spawn 0 rfl) ⟨trivial, trivial, trivial⟩
  have h₁₁ := h₁₀.tail_restrict (@Step.accept _ _ _ _ [] _ rfl rfl) ⟨trivial, trivial, trivial⟩
  have h₁₂ := h₁₁.tail_restrict (@Step.raise _ _ _ _ [] _ rfl (.inr (.inl rfl)))
    ⟨trivial, trivial, trivial⟩
  have h₁₃ := h₁₂.tail_restrict (@Step.release _ _ _ _ [] _ rfl rfl) ⟨trivial, trivial, trivial⟩
  have h₁₄ := h₁₃.tail_restrict (@Step.countFailure _ _ _ _ [] _ rfl rfl)
    ⟨trivial, trivial, trivial⟩
  have h₁₅ := h₁₄.tail_restrict (@Step.requeue _ _ _ _ [] _ _ rfl rfl (by decide +kernel))
    ⟨trivial, trivial, trivial⟩
  -- the second attempt, on the other node
  have h₁₆ := h₁₅.tail_restrict (.dequeue rfl rfl) ⟨trivial, trivial, List.mem_cons_self⟩
  have h₁₇ := h₁₆.tail_restrict (.offer rfl) ⟨trivial, trivial, trivial⟩
  have h₁₈ := h₁₇.tail_restrict (.answer rfl) ⟨trivial, trivial, trivial⟩
  have h₁₉ := h₁₈.tail_restrict (@Step.claim _ _ _ (ClusterState.jobOf "j") (idleView "m") _
    (by decide +kernel) (Prod.ext (by decide +kernel) rfl)) ⟨trivial, trivial, trivial⟩
  have h₂₀ := h₁₉.tail_restrict (.spawn 0 rfl) ⟨trivial, trivial, trivial⟩
  have h₂₁ := h₂₀.tail_restrict (@Step.accept _ _ _ _ [] _ rfl rfl) ⟨trivial, trivial, trivial⟩
  exact ⟨_, _, h₂₁, rfl, rfl, rfl, rfl, by decide +kernel, by decide +kernel⟩

/-- The run in which a job is accepted twice. -/
theorem accepted_twice :
    ∃ tr s, Run (restrict (Step {}) FreshIds) defaultInit tr s ∧
      ¬ (s.history.accepted.map Prod.fst).Nodup := by
  obtain ⟨tr, s, hrun, haccepted, -⟩ := lost_response_run
  refine ⟨tr, s, hrun.mono fun h => h.1, ?_⟩
  rw [haccepted]
  decide

/-- A job whose first dispatch was refused, and whose second one failed after the node had
accepted it, the last attempt: it has been accepted once. -/
theorem accepted_at_most_once_retried :
    ∃ tr s, Run (restrict (Step { maxDispatchAttempts := 2 }) FreshIds) defaultInit tr s ∧
      s.history.enqueued.map (fun job => job.jobId) = ["j", "j"] ∧
      s.history.abandoned = ["j"] ∧ s.history.accepted = [("j", "n")] ∧
      (s.history.accepted.map Prod.fst).Nodup := by
  have h₀ : Run (restrict (Step { maxDispatchAttempts := 2 })
    fun s e => FreshIds s e ∧ RequeueUnaccepted s e) defaultInit [] defaultInit := .refl
  have h₁ := h₀.tail_restrict (.register (ClusterState.nodeOf "n" 1 64)) ⟨trivial, trivial⟩
  have h₂ := h₁.tail_restrict (.submit (ClusterState.jobOf "j")) ⟨List.not_mem_nil, trivial⟩
  have h₃ := h₂.tail_restrict (.dequeue rfl rfl) ⟨trivial, trivial⟩
  have h₄ := h₃.tail_restrict (.offer rfl) ⟨trivial, trivial⟩
  have h₅ := h₄.tail_restrict (.answer rfl) ⟨trivial, trivial⟩
  have h₆ := h₅.tail_restrict (@Step.claim _ _ _ (ClusterState.jobOf "j") (idleView "n") _
    (by decide +kernel) (Prod.ext (by decide +kernel) rfl)) ⟨trivial, trivial⟩
  have h₇ := h₆.tail_restrict (.spawn 0 rfl) ⟨trivial, trivial⟩
  -- the first attempt is refused
  have h₈ := h₇.tail_restrict (@Step.raise _ _ _ _ [] _ rfl (.inl rfl)) ⟨trivial, trivial⟩
  have h₉ := h₈.tail_restrict (@Step.release _ _ _ _ [] _ rfl rfl) ⟨trivial, trivial⟩
  have h₁₀ := h₉.tail_restrict (@Step.countFailure _ _ _ _ [] _ rfl rfl) ⟨trivial, trivial⟩
  have h₁₁ := h₁₀.tail_restrict (@Step.requeue _ _ _ _ [] _ _ rfl rfl (by decide +kernel))
    ⟨trivial, List.not_mem_nil⟩
  -- the second one is accepted, and its response is lost
  have h₁₂ := h₁₁.tail_restrict (.dequeue rfl rfl) ⟨trivial, trivial⟩
  have h₁₃ := h₁₂.tail_restrict (.offer rfl) ⟨trivial, trivial⟩
  have h₁₄ := h₁₃.tail_restrict (.answer rfl) ⟨trivial, trivial⟩
  have h₁₅ := h₁₄.tail_restrict (@Step.claim _ _ _ (ClusterState.jobOf "j") (idleView "n") _
    (by decide +kernel) (Prod.ext (by decide +kernel) rfl)) ⟨trivial, trivial⟩
  have h₁₆ := h₁₅.tail_restrict (.spawn 0 rfl) ⟨trivial, trivial⟩
  have h₁₇ := h₁₆.tail_restrict (@Step.accept _ _ _ _ [] _ rfl rfl) ⟨trivial, trivial⟩
  have h₁₈ := h₁₇.tail_restrict (@Step.raise _ _ _ _ [] _ rfl (.inr (.inl rfl)))
    ⟨trivial, trivial⟩
  have h₁₉ := h₁₈.tail_restrict (@Step.release _ _ _ _ [] _ rfl rfl) ⟨trivial, trivial⟩
  have h₂₀ := h₁₉.tail_restrict (@Step.countFailure _ _ _ _ [] _ rfl rfl) ⟨trivial, trivial⟩
  have h₂₁ := h₂₀.tail_restrict (@Step.giveUp _ _ _ _ [] _ _ rfl rfl (by decide +kernel))
    ⟨trivial, trivial⟩
  have h₂₂ := h₂₁.tail_restrict (@Step.markFailed _ _ _ _ [] _ rfl rfl) ⟨trivial, trivial⟩
  obtain ⟨-, hA⟩ := h₂₂.of_restrict
  exact ⟨_, _, h₂₂.mono And.left, rfl, rfl, rfl,
    accepted_at_most_once (h₂₂.mono And.left) fun p hp => (hA p hp).2⟩

end Scheduler

end HeteroSched
