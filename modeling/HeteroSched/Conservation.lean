/-
HeteroSched/Conservation.lean

No job is lost or doubled, when dispatches fail only cleanly.

Under the assumption that `dispatch_job` raises only when the agent did not
accept the job, and that the database does not fail, every job that was
submitted is at each moment in exactly one stage of its life, the reservations
are those of the jobs being dispatched or executed, and jobs are placed in the
order in which they were queued.

The stages are counted in the tables and threads of the scheduler
(`occurrences`); the abstract machine says that the counts add up to one
(`JobFlow.Staged.stages_eq`).  That jobs are placed in order needs no assumption
at all (`Step.fifo`).
-/
import HeteroSched.AtMostOnce

namespace HeteroSched

open Transition

namespace Scheduler

variable {P : PolicyRegistry} {cfg : Config} {s t : Scheduler P} {e : Event}

/-! ### Stages -/

/-- The stages of a job's life: in the queue; in the dispatcher's hand; reserved
and being dispatched, not accepted; dispatch failed and slot released, not yet
requeued or abandoned; accepted and not called back; called back; abandoned. -/
inductive Stage
  | queued
  | held
  | dispatching
  | failed
  | executing
  | calledBack
  | abandoned
  deriving DecidableEq, Repr

/-- How often a job occurs in a stage. -/
def occurrences (s : Scheduler P) (j : JobId) : Stage → ℕ
  | .queued => s.cluster.jobQueue.countP fun job => job.jobId = j
  | .held => s.dispatcher.held.toList.countP fun job => job.jobId = j
  | .dispatching =>
      s.dispatcher.placedOn.countP (fun a => a.1 = j)
        + s.threads.countP (fun t => t.pc.isSending && t.job.jobId = j)
        + s.threads.countP (fun t => t.pc.isFailing && t.job.jobId = j)
  | .failed => s.threads.countP fun t => t.pc.isReleased && t.job.jobId = j
  | .executing => s.executing.countP fun e => e.job.jobId = j
  | .calledBack => s.history.calledBack.count j
  | .abandoned => s.history.abandoned.count j

/-- A job is being dispatched to a node, or accepted there and not called back. -/
def OnNode (s : Scheduler P) (j : JobId) (n : NodeId) : Prop :=
  (j, n) ∈ s.dispatcher.placedOn ∨
  (∃ t ∈ s.threads, (t.pc = .posting ∨ t.pc = .raised) ∧ t.job.jobId = j ∧ t.node.nodeId = n) ∨
  ∃ e ∈ s.executing, e.job.jobId = j ∧ e.nodeId = n

/-- The submissions have ids of their own, an exception in `dispatch_job` means
that the agent did not accept the job, and the database does not fail. -/
def CleanFailures (s : Scheduler P) : Event → Prop
  | .submit job => job.jobId ∉ s.submittedIds
  | .raise t => t.pc = .posting
  | .failSubmission _ | .failMarkFailed _ | .failRecordResult _ | .failInsertRun
  | .failCloseRow => False
  | _ => True

/-! ### Counting in the tables and on the machine -/

theorem count_map_eq_countP {α : Type*} (f : α → JobId) (l : List α) (j : JobId) :
    ((l.map f : List JobId) : Multiset JobId).count j = l.countP fun a => f a = j := by
  rw [Multiset.coe_count, List.count, List.countP_map]
  congr 1

theorem times_coe (l : List (JobId × NodeId)) (j : JobId) :
    JobFlow.times (l : Multiset (JobId × NodeId)) j = l.countP fun a => a.1 = j := by
  rw [JobFlow.times, Multiset.map_coe, count_map_eq_countP]

theorem times_attemptsAt (p : DispatchPc → Bool) (ts : List DispatchThread) (j : JobId) :
    JobFlow.times (attemptsAt p ts) j = ts.countP fun t => p t.pc && t.job.jobId = j := by
  rw [attemptsAt, times_coe, List.countP_map, List.countP_filter]
  congr 1
  funext t
  exact Bool.and_comm ..

/-- The hand of the machine has the job the dispatcher holds. -/
theorem count_hand (s : Scheduler P) (j : JobId) :
    (if s.flow.hand = some j then 1 else 0)
      = s.dispatcher.held.toList.countP fun job => job.jobId = j := by
  have hhand : ∀ o : Option JobRequest, (if o.map (fun job => job.jobId) = some j then 1 else 0)
      = o.toList.countP fun job => job.jobId = j := by
    rintro (_ | job)
    · rfl
    · simp [List.countP_cons]
  exact hhand s.dispatcher.held

/-- The occurrences of a job over all stages are those of its token and its
execution. -/
theorem occurrences_sum (s : Scheduler P) (j : JobId) :
    s.occurrences j .queued + s.occurrences j .held + s.occurrences j .dispatching
      + s.occurrences j .failed + s.occurrences j .executing + s.occurrences j .calledBack
      + s.occurrences j .abandoned = s.flow.stages j := by
  have hqueued : s.flow.queued.count j = s.occurrences j .queued := count_map_eq_countP ..
  have hheld : (if s.flow.hand = some j then 1 else 0) = s.occurrences j .held :=
    count_hand s j
  have hreleased : s.flow.released.count j = s.occurrences j .failed :=
    times_attemptsAt DispatchPc.isReleased s.threads j
  have hrunning : JobFlow.times s.flow.running j = s.occurrences j .executing := by
    simp only [flow, times_coe, List.countP_map, occurrences]
    rfl
  simp only [JobFlow.stages, hqueued, hheld, hreleased, hrunning]
  simp only [flow, occurrences, JobFlow.times_add, times_coe, times_attemptsAt,
    Multiset.coe_count]
  omega

theorem onNode_iff (s : Scheduler P) (j : JobId) (n : NodeId) :
    s.OnNode j n ↔ (j, n) ∈ s.flow.holding := by
  have hpc : ∀ t : DispatchThread, (t.pc = .posting ↔ t.pc.isSending = true) ∧
      (t.pc = .raised ↔ t.pc.isFailing = true) := by
    intro t
    rcases t.pc <;> simp
  simp only [OnNode, JobFlow.holding, flow, Multiset.mem_add, Multiset.mem_coe, mem_attemptsAt,
    List.mem_map, DispatchThread.attempt, Execution.attempt, Prod.mk.injEq, (hpc _).1, (hpc _).2]
  constructor
  · rintro (h | ⟨t, ht, h | h, hj, hn⟩ | h)
    · exact Or.inl (Or.inl (Or.inl h))
    · exact Or.inl (Or.inl (Or.inr ⟨t, ht, h, hj, hn⟩))
    · exact Or.inl (Or.inr ⟨t, ht, h, hj, hn⟩)
    · exact Or.inr h
  · rintro (((h | ⟨t, ht, h, hj, hn⟩) | ⟨t, ht, h, hj, hn⟩) | h)
    · exact Or.inl h
    · exact Or.inr (Or.inl ⟨t, ht, Or.inl h, hj, hn⟩)
    · exact Or.inr (Or.inl ⟨t, ht, Or.inr h, hj, hn⟩)
    · exact Or.inr (Or.inr h)

theorem CleanFailures.freshIds (h : CleanFailures s e) : FreshIds s e := by
  cases e with
  | submit job => exact h
  | _ => trivial

theorem CleanFailures.act (h : CleanFailures s e) {a : JobFlow.Act JobId NodeId}
    (ha : act e = some a) : JobFlow.Clean s.flow a := by
  cases a with
  | lose j n =>
      obtain ⟨th, rfl, hpc⟩ := act_eq_lose ha
      exact hpc h
  | _ => exact h.freshIds.act ha

/-- Clean failures keep every job in one stage. -/
theorem Step.staged (h : Step cfg s e t) (hclean : CleanFailures s e)
    (hs : JobFlow.Staged s.flow) : JobFlow.Staged t.flow :=
  h.flow_keeps hs fun _ _ ha hg => hs.step (hclean.act ha) hg

theorem staged_init (policy : P.Instance) (policyName : String) :
    JobFlow.Staged (init policy policyName).flow :=
  flow_init policy policyName ▸ JobFlow.staged_init

/-! ### First in, first out -/

/-- The jobs placed so far, the job in the dispatcher's hand and the jobs in the
queue are the jobs queued so far, in this order. -/
def Fifo (s : Scheduler P) : Prop :=
  s.history.reserved ++ s.dispatcher.held.toList ++ s.cluster.jobQueue = s.history.enqueued

theorem Step.fifo (h : Step cfg s e t) (hf : s.Fifo) : t.Fifo := by
  unfold Fifo at hf
  cases h with
  | submit job =>
      simp only [Fifo, ClusterState.enqueueJob, ← hf, List.append_assoc]
  | dequeue hd hq =>
      obtain ⟨rest, hqueue, rfl⟩ := ClusterState.dequeueJob_eq_some hq
      rw [hd, hqueue] at hf
      simpa [Fifo, Dispatcher.held] using hf
  | offer hd =>
      rw [hd] at hf
      exact hf
  | answer hd =>
      rw [hd] at hf
      rw [Fifo, Dispatcher.held_answered]
      exact hf
  | claim hd hr =>
      obtain ⟨reg, -, -, rfl⟩ := ClusterState.reserveSlot_eq_true hr
      rw [hd] at hf
      simpa [Fifo, Dispatcher.held, Dispatcher.reserved, ClusterState.reserved] using hf
  | refuseClaim hd hr =>
      obtain rfl := ClusterState.reserveSlot_eq_false hr
      rw [hd] at hf
      exact hf
  | spawn now hd =>
      rw [hd] at hf
      exact hf
  | release ht hpc => simpa only [Fifo, ClusterState.releaseSlot_jobQueue] using hf
  | callback he hjob hnode => simpa only [Fifo, ClusterState.releaseSlot_jobQueue] using hf
  | requeue ht hpc hmax =>
      simp only [Fifo, ClusterState.enqueueJob, ← hf, List.append_assoc]
  | _ => exact hf

theorem run_fifo {policy : P.Instance} {policyName : String} {tr : List (Scheduler P × Event)}
    (h : Run (Step cfg) (init policy policyName) tr s) : s.Fifo :=
  h.invariant (I := Fifo) rfl fun hs h => h.fifo hs

/-! ### The theorem -/

/-- Seven counts that add up to one: one of them is one, the others are zero. -/
theorem exists_stage {f : Stage → ℕ}
    (h : f .queued + f .held + f .dispatching + f .failed + f .executing + f .calledBack
      + f .abandoned = 1) :
    ∃ stage, f stage = 1 ∧ ∀ other, other ≠ stage → f other = 0 := by
  have hone : ∃ stage, f stage = 1 := by
    by_contra hnone
    simp only [not_exists] at hnone
    have h₁ := hnone .queued
    have h₂ := hnone .held
    have h₃ := hnone .dispatching
    have h₄ := hnone .failed
    have h₅ := hnone .executing
    have h₆ := hnone .calledBack
    have h₇ := hnone .abandoned
    omega
  obtain ⟨stage, hstage⟩ := hone
  refine ⟨stage, hstage, fun other hne => ?_⟩
  cases stage <;> cases other <;> first | exact absurd rfl hne | omega

/-- In every state of every run with clean failures, under every policy: each
submitted job is in exactly one stage and occurs there once; a job has a
reservation on a node exactly when it is being dispatched to it or accepted
there and not called back; and the jobs placed, the job held and the jobs queued
are, in this order, the jobs as they were enqueued. -/
theorem job_conservation {policy : P.Instance} {policyName : String}
    {tr : List (Scheduler P × Event)}
    (h : Run (restrict (Step cfg) CleanFailures) (init policy policyName) tr s) :
    (∀ j ∈ s.submittedIds,
      ∃ stage, s.occurrences j stage = 1 ∧
        ∀ other, other ≠ stage → s.occurrences j other = 0) ∧
    (∀ j n, (∃ r, s.cluster.reservations.get? j = some r ∧ r.nodeId = n) ↔ s.OnNode j n) ∧
    s.history.reserved ++ s.dispatcher.held.toList ++ s.cluster.jobQueue = s.history.enqueued := by
  have hstaged : JobFlow.Staged s.flow :=
    h.invariant (I := fun s => JobFlow.Staged s.flow) (staged_init policy policyName)
      fun hs ⟨hclean, hstep⟩ => hstep.staged hclean hs
  refine ⟨fun j hj => ?_, fun j n => ?_, run_fifo h.of_restrict.1⟩
  · apply exists_stage
    have hsum := s.occurrences_sum j
    have hstages := hstaged.stages_eq j
    have hpos : 0 < s.flow.submitted.count j := Multiset.count_pos.mpr (Multiset.mem_coe.mpr hj)
    have hle := hstaged.tokens.submitted_le j
    omega
  · rw [onNode_iff, ← hstaged.slots j n]
    simp only [flow, Option.map_eq_some_iff]

/-- The first dispatch of a job is refused, and it is in the queue again while another job
runs on the node. -/
theorem job_conservation_refused :
    ∃ tr s, Run (restrict (Step {}) CleanFailures) defaultInit tr s ∧
      s.executing = [⟨ClusterState.jobOf "i", "n", false⟩] ∧
      (∃ stage, s.occurrences "j" stage = 1 ∧
        ∀ other, other ≠ stage → s.occurrences "j" other = 0) ∧
      (∃ r, s.cluster.reservations.get? "i" = some r ∧ r.nodeId = "n") ∧
      s.history.reserved ++ s.dispatcher.held.toList ++ s.cluster.jobQueue
        = [ClusterState.jobOf "j", ClusterState.jobOf "i", ClusterState.jobOf "j"] := by
  have h₀ : Run (restrict (Step {}) CleanFailures) defaultInit [] defaultInit := .refl
  have h₁ := h₀.tail_restrict (.register (ClusterState.nodeOf "n" 1 64)) trivial
  have h₂ := h₁.tail_restrict (.submit (ClusterState.jobOf "j")) List.not_mem_nil
  have h₃ := h₂.tail_restrict (.submit (ClusterState.jobOf "i"))
    (show "i" ∉ ["j"] by decide)
  -- the first job is refused
  have h₄ := h₃.tail_restrict (.dequeue rfl rfl) trivial
  have h₅ := h₄.tail_restrict (.offer rfl) trivial
  have h₆ := h₅.tail_restrict (.answer rfl) trivial
  have h₇ := h₆.tail_restrict (@Step.claim _ _ _ (ClusterState.jobOf "j") (idleView "n") _
    (by decide +kernel) (Prod.ext (by decide +kernel) rfl)) trivial
  have h₈ := h₇.tail_restrict (.spawn 0 rfl) trivial
  have h₉ := h₈.tail_restrict (@Step.raise _ _ _ _ [] _ rfl (.inl rfl)) rfl
  have h₁₀ := h₉.tail_restrict (@Step.release _ _ _ _ [] _ rfl rfl) trivial
  have h₁₁ := h₁₀.tail_restrict (@Step.countFailure _ _ _ _ [] _ rfl rfl) trivial
  have h₁₂ := h₁₁.tail_restrict (@Step.requeue _ _ _ _ [] _ _ rfl rfl (by decide +kernel)) trivial
  -- the second one is accepted
  have h₁₃ := h₁₂.tail_restrict (.dequeue rfl rfl) trivial
  have h₁₄ := h₁₃.tail_restrict (.offer rfl) trivial
  have h₁₅ := h₁₄.tail_restrict (.answer rfl) trivial
  have h₁₆ := h₁₅.tail_restrict (@Step.claim _ _ _ (ClusterState.jobOf "i") (idleView "n") _
    (by decide +kernel) (Prod.ext (by decide +kernel) rfl)) trivial
  have h₁₇ := h₁₆.tail_restrict (.spawn 0 rfl) trivial
  have h₁₈ := h₁₇.tail_restrict (@Step.accept _ _ _ _ [] _ rfl rfl) trivial
  obtain ⟨hstages, hslots, horder⟩ := job_conservation h₁₈
  refine ⟨_, _, h₁₈, rfl, hstages "j" (show "j" ∈ ["j", "i"] by decide), ?_, horder⟩
  exact (hslots "i" "n").mpr (Or.inr (Or.inr ⟨_, List.mem_singleton.mpr rfl, rfl, rfl⟩))

end Scheduler

end HeteroSched
