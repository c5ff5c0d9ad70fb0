/-
HeteroSched/Provenance.lean

Where the jobs in flight come from.

The dispatcher, the `dispatch_job` threads and the agents hand a job request on
from one to the next, and only the queue brings in another one; so whatever
holds of every job when it is dequeued holds of every job in flight
(`Step.inFlight`).  The queue itself is fed by submissions and by requeues of
jobs in flight.  It follows that all of them are jobs that were submitted, and
that a reservation holds what the job with its id declares (`Known`).

A job is in the memory of the process (`memoryIds`) as long as the abstract machine has it
underway; what left the memory does not come back (`Step.not_mem_memoryIds`).
-/
import HeteroSched.Refinement

namespace HeteroSched

open Transition

/-- The job a dispatcher works on, also when it is placed already. -/
def Dispatcher.job : Dispatcher → Option JobRequest
  | .idle => none
  | .asking job => some job
  | .offered job _ => some job
  | .chosen job _ => some job
  | .placed job _ => some job

theorem Dispatcher.job_answered (job : JobRequest) (available : List NodeView)
    (answer : Option NodeView) : (Dispatcher.answered job available answer).job = some job := by
  unfold Dispatcher.answered
  split <;> rfl

namespace Scheduler

variable {P : PolicyRegistry} {cfg : Config} {s t : Scheduler P} {e : Event}

/-! ### Jobs in flight -/

/-- `Q` holds of every job that the dispatcher, a dispatch thread or an agent
has. -/
structure InFlight (Q : JobRequest → Prop) (s : Scheduler P) : Prop where
  dispatcher : ∀ job ∈ s.dispatcher.job, Q job
  threads : ∀ th ∈ s.threads, Q th.job
  executing : ∀ ex ∈ s.executing, Q ex.job

variable {Q : JobRequest → Prop}

theorem inFlight_init (policy : P.Instance) (policyName : String) :
    InFlight Q (init policy policyName) where
  dispatcher := fun job h => absurd h (Option.not_mem_none job)
  threads := fun _ h => absurd h List.not_mem_nil
  executing := fun _ h => absurd h List.not_mem_nil

theorem InFlight.mono {Q' : JobRequest → Prop} (h : InFlight Q s) (hQ : ∀ job, Q job → Q' job) :
    InFlight Q' s where
  dispatcher := fun job hj => hQ job (h.dispatcher job hj)
  threads := fun th hth => hQ th.job (h.threads th hth)
  executing := fun ex hex => hQ ex.job (h.executing ex hex)

theorem forall_mem_split {α : Type*} {q : α → Prop} {pre post : List α} {a : α} :
    (∀ x ∈ pre ++ a :: post, q x) ↔ q a ∧ ∀ x ∈ pre ++ post, q x := by
  simp only [List.mem_append, List.mem_cons, or_imp, forall_and, forall_eq]
  tauto

theorem mem_split_of_mem {α : Type*} {pre post : List α} {a x : α} (h : x ∈ pre ++ post) :
    x ∈ pre ++ a :: post := by
  simp only [List.mem_append, List.mem_cons] at h ⊢
  tauto

theorem mem_of_mem_split {α : Type*} {pre post : List α} {a x : α} (h : x ∈ pre ++ a :: post)
    (hne : x ≠ a) : x ∈ pre ++ post := by
  simp only [List.mem_append, List.mem_cons] at h ⊢
  tauto

/-- A thread that moves keeps its job. -/
theorem InFlight.goto (h : InFlight Q s) {pre post : List DispatchThread} {th : DispatchThread}
    (ht : s.threads = pre ++ th :: post) (pc : DispatchPc) :
    ∀ th' ∈ pre ++ th.goto pc :: post, Q th'.job := by
  have hthreads := h.threads
  rw [ht, forall_mem_split] at hthreads
  exact forall_mem_split.mpr hthreads

/-- The other threads, when one ends. -/
theorem InFlight.drop (h : InFlight Q s) {pre post : List DispatchThread} {th : DispatchThread}
    (ht : s.threads = pre ++ th :: post) : Q th.job ∧ ∀ th' ∈ pre ++ post, Q th'.job := by
  have hthreads := h.threads
  rwa [ht, forall_mem_split] at hthreads

/-- Only the queue brings a job into flight. -/
theorem Step.inFlight (h : Step cfg s e t) (hs : InFlight Q s)
    (hd : ∀ job, e = .dequeue job → Q job) : InFlight Q t := by
  cases h with
  | @dequeue job cluster hidle hq =>
      refine ⟨fun job' hj => ?_, hs.threads, hs.executing⟩
      obtain rfl := Option.some.inj hj
      exact hd job rfl
  | offer hdisp =>
      exact ⟨fun job' hj => hs.dispatcher job' (by rw [hdisp]; exact hj), hs.threads, hs.executing⟩
  | @answer job available hdisp =>
      refine ⟨fun job' hj => ?_, hs.threads, hs.executing⟩
      rw [Dispatcher.job_answered] at hj
      exact hs.dispatcher job' (by rw [hdisp]; exact hj)
  | claim hdisp hr =>
      exact ⟨fun job' hj => hs.dispatcher job' (by rw [hdisp]; exact hj), hs.threads, hs.executing⟩
  | refuseClaim hdisp hr =>
      exact ⟨fun job' hj => hs.dispatcher job' (by rw [hdisp]; exact hj), hs.threads, hs.executing⟩
  | @spawn job node now hdisp =>
      refine ⟨fun job' hj => absurd hj (Option.not_mem_none job'), ?_, hs.executing⟩
      exact List.forall_mem_cons.mpr
        ⟨hs.dispatcher job (by rw [hdisp]; exact rfl), hs.threads⟩
  | accept ht hpc =>
      refine ⟨hs.dispatcher, hs.goto ht _, ?_⟩
      exact List.forall_mem_cons.mpr ⟨(hs.drop ht).1, hs.executing⟩
  | respond ht hpc => exact ⟨hs.dispatcher, hs.goto ht _, hs.executing⟩
  | recordDispatch now ht hpc => exact ⟨hs.dispatcher, hs.goto ht _, hs.executing⟩
  | forgetAttempts ht hpc => exact ⟨hs.dispatcher, (hs.drop ht).2, hs.executing⟩
  | raise ht hpc => exact ⟨hs.dispatcher, hs.goto ht _, hs.executing⟩
  | release ht hpc => exact ⟨hs.dispatcher, hs.goto ht _, hs.executing⟩
  | countFailure ht hpc => exact ⟨hs.dispatcher, hs.goto ht _, hs.executing⟩
  | requeue ht hpc hmax => exact ⟨hs.dispatcher, (hs.drop ht).2, hs.executing⟩
  | giveUp ht hpc hmax => exact ⟨hs.dispatcher, hs.goto ht _, hs.executing⟩
  | markFailed ht hpc => exact ⟨hs.dispatcher, (hs.drop ht).2, hs.executing⟩
  | failMarkFailed ht hpc => exact ⟨hs.dispatcher, (hs.drop ht).2, hs.executing⟩
  | callback he hjob hnode =>
      have hexecuting := hs.executing
      rw [he, forall_mem_split] at hexecuting
      exact ⟨hs.dispatcher, hs.threads, hexecuting.2⟩
  | loseCallback he hlost =>
      have hexecuting := hs.executing
      rw [he, forall_mem_split] at hexecuting
      exact ⟨hs.dispatcher, hs.threads, forall_mem_split.mpr hexecuting⟩
  | _ => exact ⟨hs.dispatcher, hs.threads, hs.executing⟩

/-- What an agent runs it ran before, or a thread has just posted to it. -/
theorem Step.mem_executing (h : Step cfg s e t) {ex : Execution} (hex : ex ∈ t.executing) :
    (∃ ex' ∈ s.executing, ex'.job = ex.job ∧ ex'.nodeId = ex.nodeId ∧
        (ex'.lost = true → ex.lost = true)) ∨
      ∃ th ∈ s.threads, e = .accept th ∧ th.job = ex.job ∧ th.node.nodeId = ex.nodeId := by
  cases h with
  | @accept th pre post ht hpc =>
      rcases List.mem_cons.mp hex with rfl | hex
      · exact Or.inr ⟨th, by rw [ht]; simp, rfl, rfl, rfl⟩
      · exact Or.inl ⟨ex, hex, rfl, rfl, id⟩
  | callback he hjob hnode =>
      rw [he]
      exact Or.inl ⟨ex, mem_split_of_mem hex, rfl, rfl, id⟩
  | @loseCallback ex' pre post he hlost =>
      rw [he]
      by_cases hne : ex = { ex' with lost := true }
      · exact Or.inl ⟨ex', by simp, by rw [hne], by rw [hne], fun _ => by rw [hne]⟩
      · exact Or.inl ⟨ex, mem_split_of_mem (mem_of_mem_split hex hne), rfl, rfl, id⟩
  | _ => exact Or.inl ⟨ex, hex, rfl, rfl, id⟩

/-- What is in the queue was there before, or is submitted, or comes back from a
dispatch thread. -/
theorem Step.mem_queue (h : Step cfg s e t) {job : JobRequest} (hj : job ∈ t.cluster.jobQueue) :
    job ∈ s.cluster.jobQueue ∨ e = .submit job ∨ ∃ th ∈ s.threads, th.job = job := by
  cases h with
  | submit job' =>
      rcases List.mem_append.mp hj with hj | hj
      · exact Or.inl hj
      · obtain rfl := List.mem_singleton.mp hj
        exact Or.inr (Or.inl rfl)
  | dequeue hd hq =>
      obtain ⟨rest, hqueue, rfl⟩ := ClusterState.dequeueJob_eq_some hq
      exact Or.inl (by rw [hqueue]; exact List.mem_cons_of_mem _ hj)
  | claim hd hr =>
      obtain ⟨reg, -, -, rfl⟩ := ClusterState.reserveSlot_eq_true hr
      exact Or.inl hj
  | refuseClaim hd hr =>
      obtain rfl := ClusterState.reserveSlot_eq_false hr
      exact Or.inl hj
  | release ht hpc => exact Or.inl (by rwa [ClusterState.releaseSlot_jobQueue] at hj)
  | callback he hjob hnode => exact Or.inl (by rwa [ClusterState.releaseSlot_jobQueue] at hj)
  | @requeue th pre post attempts ht hpc hmax =>
      rcases List.mem_append.mp hj with hj | hj
      · exact Or.inl hj
      · obtain rfl := List.mem_singleton.mp hj
        exact Or.inr (Or.inr ⟨th, by rw [ht]; simp, rfl⟩)
  | _ => exact Or.inl hj

/-! ### Submitted jobs -/

/-- Every job was submitted, and every reservation holds what a submitted job of
its id declares. -/
structure Known (s : Scheduler P) : Prop where
  queue : ∀ job ∈ s.cluster.jobQueue, job ∈ s.history.submitted
  inFlight : InFlight (fun job => job ∈ s.history.submitted) s
  reservations : ∀ j r, s.cluster.reservations.get? j = some r →
    ∃ job ∈ s.history.submitted, job.jobId = j ∧ r.cpuRequest = job.requirements.cpuRequest ∧
      r.memoryMb = job.requirements.memoryOrZero

theorem known_init (policy : P.Instance) (policyName : String) : Known (init policy policyName) where
  queue := fun _ h => absurd h List.not_mem_nil
  inFlight := inFlight_init policy policyName
  reservations := by
    intro j r h
    cases h

/-- The submitted jobs grow by the job of a submission and by nothing else. -/
theorem Step.submitted_eq (h : Step cfg s e t) :
    t.history.submitted = s.history.submitted ∨
    ∃ job, e = .submit job ∧ t.history.submitted = s.history.submitted ++ [job] := by
  cases h with
  | submit job => exact Or.inr ⟨job, rfl, rfl⟩
  | _ => exact Or.inl rfl

theorem Step.submitted_subset (h : Step cfg s e t) {job : JobRequest}
    (hj : job ∈ s.history.submitted) : job ∈ t.history.submitted := by
  rcases h.submitted_eq with heq | ⟨job', -, heq⟩
  · rwa [heq]
  · rw [heq]
    exact List.mem_append_left _ hj

/-- What a step leaves of the reservations: those from before, and the one of a
job the dispatcher has just placed. -/
theorem Step.reservations (h : Step cfg s e t) {j : JobId} {r : Reservation}
    (hr : t.cluster.reservations.get? j = some r) :
    s.cluster.reservations.get? j = some r ∨
    ∃ job ∈ s.dispatcher.job, job.jobId = j ∧ r.cpuRequest = job.requirements.cpuRequest ∧
      r.memoryMb = job.requirements.memoryOrZero := by
  have hpop : ∀ k, (s.cluster.releaseSlot k).reservations.get? j = some r →
      s.cluster.reservations.get? j = some r := by
    intro k hk
    rw [ClusterState.releaseSlot_reservations, Dict.get?_pop] at hk
    split at hk
    · cases hk
    · exact hk
  cases h with
  | dequeue hd hq =>
      obtain ⟨rest, -, rfl⟩ := ClusterState.dequeueJob_eq_some hq
      exact Or.inl hr
  | @claim job node cluster hd hclaim =>
      obtain ⟨reg, -, -, rfl⟩ := ClusterState.reserveSlot_eq_true hclaim
      rw [ClusterState.reserved_reservations, Dict.get?_set] at hr
      split at hr
      · next hj =>
          obtain rfl := Option.some.inj hr
          exact Or.inr ⟨job, by rw [hd]; exact rfl, hj.symm, rfl, rfl⟩
      · exact Or.inl hr
  | refuseClaim hd hclaim =>
      obtain rfl := ClusterState.reserveSlot_eq_false hclaim
      exact Or.inl hr
  | release ht hpc => exact Or.inl (hpop _ hr)
  | callback he hjob hnode => exact Or.inl (hpop _ hr)
  | _ => exact Or.inl hr

theorem Known.step (h : Known s) (hs : Step cfg s e t) : Known t := by
  have hold : ∀ job ∈ s.history.submitted, job ∈ t.history.submitted :=
    fun job hj => hs.submitted_subset hj
  refine ⟨fun job hj => ?_, ?_, fun j r hr => ?_⟩
  · rcases hs.mem_queue hj with hq | rfl | ⟨th, hth, rfl⟩
    · exact hold job (h.queue job hq)
    · cases hs
      exact List.mem_append_right _ (List.mem_singleton.mpr rfl)
    · exact hold th.job (h.inFlight.threads th hth)
  · refine hs.inFlight (h.inFlight.mono hold) fun job he => ?_
    -- a dequeued job was in the queue
    subst he
    cases hs with
    | dequeue hd hq =>
        obtain ⟨rest, hqueue, rfl⟩ := ClusterState.dequeueJob_eq_some hq
        exact h.queue job (by rw [hqueue]; exact List.mem_cons_self)
  · rcases hs.reservations hr with hr | ⟨job, hjob, hj, hcpu, hmem⟩
    · obtain ⟨job, hsub, hj, hcpu, hmem⟩ := h.reservations j r hr
      exact ⟨job, hold job hsub, hj, hcpu, hmem⟩
    · exact ⟨job, hold job (h.inFlight.dispatcher job hjob), hj, hcpu, hmem⟩

/-! ### The memory of the process -/

/-- The ids of the jobs in the memory of the process. -/
def memoryIds (s : Scheduler P) : List JobId :=
  (s.cluster.jobQueue.map fun job => job.jobId) ++ (s.dispatcher.job.map fun job => job.jobId).toList
    ++ s.threads.map fun th => th.job.jobId

/-- A thread is at one of the places of the abstract machine. -/
theorem threads_eq (ts : List DispatchThread) :
    ((ts.map fun th => th.job.jobId : List JobId) : Multiset JobId) =
      (attemptsAt DispatchPc.isSending ts).map Prod.fst
        + (attemptsAt DispatchPc.isWaiting ts).map Prod.fst
        + (attemptsAt DispatchPc.isFailing ts).map Prod.fst
        + (attemptsAt DispatchPc.isReleased ts).map Prod.fst := by
  induction ts with
  | nil => rfl
  | cons th ts ih =>
      rw [List.map_cons, ← Multiset.cons_coe, ih]
      simp only [attemptsAt_cons]
      cases hpc : th.pc <;>
        simp [DispatchThread.attempt, Multiset.cons_add, Multiset.add_cons]

theorem coe_memoryIds (s : Scheduler P) :
    (s.memoryIds : Multiset JobId) = s.flow.underway := by
  have hdispatcher : (((s.dispatcher.job.map fun job => job.jobId).toList : List JobId) :
      Multiset JobId) = ((s.dispatcher.held.map fun job => job.jobId).elim 0 fun j => {j})
        + (s.dispatcher.placedOn : Multiset (JobId × NodeId)).map Prod.fst := by
    cases s.dispatcher <;> rfl
  rw [memoryIds, ← Multiset.coe_add, ← Multiset.coe_add, hdispatcher, threads_eq]
  simp only [JobFlow.underway, flow, Multiset.map_add]
  abel

theorem mem_memoryIds_of_thread {th : DispatchThread} (h : th ∈ s.threads) :
    th.job.jobId ∈ s.memoryIds :=
  List.mem_append_right _ (List.mem_map_of_mem h)

/-- A submitted job that is in no memory does not get there again, and no agent is sent
it. -/
theorem Step.not_mem_memoryIds (h : Step cfg s e t) (hf : FreshIds s e) {j : JobId}
    (hj : j ∈ s.submittedIds) (hm : j ∉ s.memoryIds) :
    j ∉ t.memoryIds ∧
      (t.history.accepted.map Prod.fst).count j = (s.history.accepted.map Prod.fst).count j := by
  have hidle : s.flow.underway.count j = 0 := by
    rw [← coe_memoryIds, Multiset.coe_count, List.count_eq_zero]
    exact hm
  obtain ⟨hunderway, haccepted⟩ : t.flow.underway.count j = 0 ∧
      t.flow.accepted.count j = s.flow.accepted.count j :=
    h.flow_keeps (I := fun f => f.underway.count j = 0 ∧
        f.accepted.count j = s.flow.accepted.count j) ⟨hidle, rfl⟩ fun a g ha hg =>
      hg.not_underway (hf.act ha) (Multiset.mem_coe.mpr hj) hidle
  constructor
  · rwa [← List.count_eq_zero, ← Multiset.coe_count, coe_memoryIds]
  · simpa only [Scheduler.flow, Multiset.coe_count] using haccepted

/-- The reservation of a job stays as long as the job is in no memory and no agent that
runs it can report it. -/
theorem Step.reservation_kept (h : Step cfg s e t) {j : JobId} {r : Reservation}
    (hm : j ∉ s.memoryIds) (hlost : ∀ ex ∈ s.executing, ex.job.jobId = j → ex.lost = true)
    (hr : s.cluster.reservations.get? j = some r) : t.cluster.reservations.get? j = some r := by
  have hpop : ∀ k, j ≠ k → (s.cluster.releaseSlot k).reservations.get? j = some r := by
    intro k hne
    rwa [ClusterState.releaseSlot_reservations, Dict.get?_pop, if_neg hne]
  cases h with
  | dequeue hd hq =>
      obtain ⟨rest, -, rfl⟩ := ClusterState.dequeueJob_eq_some hq
      exact hr
  | @claim job node cluster hd hclaim =>
      obtain ⟨reg, -, -, rfl⟩ := ClusterState.reserveSlot_eq_true hclaim
      have hne : j ≠ job.jobId := by
        rintro rfl
        exact hm (by simp [memoryIds, hd, Dispatcher.job])
      rw [ClusterState.reserved_reservations, Dict.get?_set_ne _ _ hne]
      exact hr
  | refuseClaim hd hclaim =>
      obtain rfl := ClusterState.reserveSlot_eq_false hclaim
      exact hr
  | @release th pre post ht hpc =>
      refine hpop th.job.jobId ?_
      rintro rfl
      exact hm (mem_memoryIds_of_thread (by rw [ht]; simp))
  | @callback result ex pre post he hjob hnode hreported =>
      refine hpop result.jobId ?_
      rintro rfl
      have hex := hlost ex (by rw [he]; simp) hjob.symm
      exact Bool.false_ne_true (hreported.symm.trans hex)
  | _ => exact hr

end Scheduler

end HeteroSched
