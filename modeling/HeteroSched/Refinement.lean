/-
HeteroSched/Refinement.lean

The scheduler refines the abstract machine `JobFlow`.

A state of the scheduler is a state of the machine (`flow`): the token of a job
is its entry in the queue, the dispatcher's local variable, the node the
dispatcher has just reserved or the `dispatch_job` thread, by the place the
thread has reached; the slots are the reservations.  Every step is then a step
of the machine or invisible to it (`Step.flow`), so a run of the scheduler is a
run of the machine (`Run.map`), and the invariants of the machine, whatever
discipline they need, hold of the scheduler.
-/
import HeteroSched.Scheduler
import HeteroSched.ClusterOps
import HeteroSched.Lib.JobFlow

namespace HeteroSched

open Transition

/-! ### Where a dispatch thread counts -/

/-- The thread has not been accepted. -/
@[simp] def DispatchPc.isSending : DispatchPc → Bool
  | .posting => true
  | _ => false

/-- The thread was accepted and is still in its `try` block. -/
@[simp] def DispatchPc.isWaiting : DispatchPc → Bool
  | .accepted | .responded | .recorded => true
  | _ => false

/-- The thread is in its `except` block and has not released the slot. -/
@[simp] def DispatchPc.isFailing : DispatchPc → Bool
  | .raised => true
  | _ => false

/-- The thread has released the slot and neither requeued nor abandoned the job. -/
@[simp] def DispatchPc.isReleased : DispatchPc → Bool
  | .released | .counted _ | .abandoning => true
  | _ => false

/-- The job of a thread and the node it was placed on. -/
def DispatchThread.attempt (t : DispatchThread) : JobId × NodeId := (t.job.jobId, t.node.nodeId)

@[simp] theorem DispatchThread.goto_attempt (t : DispatchThread) (pc : DispatchPc) :
    (t.goto pc).attempt = t.attempt := rfl

/-- The attempts of the threads at certain places. -/
def attemptsAt (p : DispatchPc → Bool) (ts : List DispatchThread) : Multiset (JobId × NodeId) :=
  ((ts.filter fun t => p t.pc).map DispatchThread.attempt : List (JobId × NodeId))

/-- One thread among others. -/
theorem attemptsAt_split (p : DispatchPc → Bool) (pre post : List DispatchThread)
    (t : DispatchThread) :
    attemptsAt p (pre ++ t :: post)
      = if p t.pc then t.attempt ::ₘ attemptsAt p (pre ++ post) else attemptsAt p (pre ++ post) := by
  unfold attemptsAt
  by_cases h : p t.pc = true
  · rw [if_pos h, List.filter_append, List.filter_append, List.filter_cons_of_pos (by simpa using h),
      Multiset.cons_coe, Multiset.coe_eq_coe, List.map_append, List.map_append, List.map_cons]
    exact List.perm_middle
  · rw [if_neg h, List.filter_append, List.filter_append, List.filter_cons_of_neg (by simpa using h)]

theorem attemptsAt_split_of_pos {p : DispatchPc → Bool} {pre post : List DispatchThread}
    {t : DispatchThread} (h : p t.pc = true) :
    attemptsAt p (pre ++ t :: post) = t.attempt ::ₘ attemptsAt p (pre ++ post) := by
  rw [attemptsAt_split, if_pos h]

/-- A thread that moves between two places of a kind. -/
theorem attemptsAt_goto {p : DispatchPc → Bool} {pre post : List DispatchThread}
    {t : DispatchThread} {pc : DispatchPc} (h : p pc = p t.pc) :
    attemptsAt p (pre ++ t.goto pc :: post) = attemptsAt p (pre ++ t :: post) := by
  rw [attemptsAt_split, attemptsAt_split, DispatchThread.goto_pc, h, DispatchThread.goto_attempt]

/-- The attempts of the other threads are among those of all. -/
theorem mem_attemptsAt_split {p : DispatchPc → Bool} {pre post : List DispatchThread}
    {t : DispatchThread} {a : JobId × NodeId} (h : a ∈ attemptsAt p (pre ++ post)) :
    a ∈ attemptsAt p (pre ++ t :: post) := by
  rw [attemptsAt_split]
  split
  · exact Multiset.mem_cons_of_mem h
  · exact h

@[simp] theorem attemptsAt_cons (p : DispatchPc → Bool) (ts : List DispatchThread)
    (t : DispatchThread) :
    attemptsAt p (t :: ts) = if p t.pc then t.attempt ::ₘ attemptsAt p ts else attemptsAt p ts :=
  attemptsAt_split p [] ts t

theorem mem_attemptsAt {p : DispatchPc → Bool} {ts : List DispatchThread} {a : JobId × NodeId} :
    a ∈ attemptsAt p ts ↔ ∃ t ∈ ts, p t.pc = true ∧ t.attempt = a := by
  rw [attemptsAt, Multiset.mem_coe, List.mem_map]
  simp only [List.mem_filter, and_assoc]

/-- The attempt of a node that is reserved and whose thread is not started. -/
@[simp] def Dispatcher.placedOn : Dispatcher → List (JobId × NodeId)
  | .placed job node => [(job.jobId, node.nodeId)]
  | _ => []

theorem Dispatcher.placedOn_answered (job : JobRequest) (available : List NodeView)
    (answer : Option NodeView) : (Dispatcher.answered job available answer).placedOn = [] := by
  unfold Dispatcher.answered
  split <;> rfl

/-- The job of an execution and the node that runs it. -/
def Execution.attempt (e : Execution) : JobId × NodeId := (e.job.jobId, e.nodeId)

/-- Appending to a history adds to the multiset of its entries. -/
theorem coe_snoc {α : Type*} (l : List α) (x : α) :
    ((l ++ [x] : List α) : Multiset α) = x ::ₘ (l : Multiset α) := by
  rw [Multiset.cons_coe, Multiset.coe_eq_coe]
  exact List.perm_append_singleton x l

theorem coe_split {α : Type*} (pre post : List α) (x : α) :
    ((pre ++ x :: post : List α) : Multiset α) = x ::ₘ ((pre ++ post : List α) : Multiset α) := by
  rw [Multiset.cons_coe, Multiset.coe_eq_coe]
  exact List.perm_middle

namespace Scheduler

variable {P : PolicyRegistry}

/-- The state of the abstract machine. -/
def flow (s : Scheduler P) : JobFlow JobId NodeId where
  queued := (s.cluster.jobQueue.map fun job => job.jobId : List JobId)
  hand := s.dispatcher.held.map fun job => job.jobId
  sending := (s.dispatcher.placedOn : Multiset (JobId × NodeId)) + attemptsAt DispatchPc.isSending s.threads
  waiting := attemptsAt DispatchPc.isWaiting s.threads
  failing := attemptsAt DispatchPc.isFailing s.threads
  released := (attemptsAt DispatchPc.isReleased s.threads).map Prod.fst
  finished := s.history.returned
  abandoned := s.history.abandoned
  running := (s.executing.map Execution.attempt : List (JobId × NodeId))
  reported := s.history.calledBack
  accepted := (s.history.accepted.map Prod.fst : List JobId)
  submitted := s.submittedIds
  slots := fun j => (s.cluster.reservations.get? j).map fun r => r.nodeId

/-- What an event is for the abstract machine, if anything. -/
def act : Event → Option (JobFlow.Act JobId NodeId)
  | .submit job => some (.submit job.jobId)
  | .dequeue job => some (.take job.jobId)
  | .claim job node => some (.place job.jobId node.nodeId)
  | .accept t => some (.accept t.job.jobId t.node.nodeId)
  | .forgetAttempts t => some (.finish t.job.jobId t.node.nodeId)
  | .raise t =>
      if t.pc = .posting then some (.reject t.job.jobId t.node.nodeId)
      else some (.lose t.job.jobId t.node.nodeId)
  | .release t => some (.release t.job.jobId t.node.nodeId)
  | .requeue t => some (.retry t.job.jobId)
  | .markFailed t => some (.abandon t.job.jobId)
  | .failMarkFailed t => some (.abandon t.job.jobId)
  | .callback result => some (.report result.jobId result.nodeId)
  | _ => none

theorem act_eq_submit {e : Event} {j : JobId} (h : act e = some (.submit j)) :
    ∃ job, e = .submit job ∧ job.jobId = j := by
  cases e with
  | submit job => exact ⟨job, rfl, by simpa [act] using h⟩
  | raise t => simp only [act] at h; split at h <;> cases h
  | _ => cases h

theorem act_eq_lose {e : Event} {j : JobId} {n : NodeId} (h : act e = some (.lose j n)) :
    ∃ t, e = .raise t ∧ t.pc ≠ .posting := by
  cases e with
  | raise t =>
      simp only [act] at h
      split at h
      · cases h
      · next hpc => exact ⟨t, rfl, hpc⟩
  | _ => cases h

theorem act_eq_release {e : Event} {j : JobId} {n : NodeId} (h : act e = some (.release j n)) :
    ∃ t, e = .release t ∧ t.job.jobId = j := by
  cases e with
  | release t => exact ⟨t, rfl, (by simpa [act] using h : _ ∧ _).1⟩
  | raise t => simp only [act] at h; split at h <;> cases h
  | _ => cases h

theorem act_eq_retry {e : Event} {j : JobId} (h : act e = some (.retry j)) :
    ∃ t, e = .requeue t ∧ t.job.jobId = j := by
  cases e with
  | requeue t => exact ⟨t, rfl, by simpa [act] using h⟩
  | raise t => simp only [act] at h; split at h <;> cases h
  | _ => cases h

/-! ### Each step is a step of the machine -/

variable {cfg : Config} {s t : Scheduler P} {e : Event}

/-- Without a job's reservation the job has no node, and every other job has its own. -/
theorem slots_pop (d : Dict JobId Reservation) (jobId : JobId) :
    (fun j => ((d.pop jobId).get? j).map fun r => r.nodeId)
      = Function.update (fun j => (d.get? j).map fun r => r.nodeId) jobId none := by
  funext j
  rw [Dict.get?_pop, Function.update_apply]
  split <;> rfl

/-- A step of the scheduler is a step of the machine, or invisible to it. -/
theorem Step.flow (h : Step cfg s e t) : optStep JobFlow.Step s.flow (act e) t.flow := by
  cases h with
  | register registration => rfl
  | heartbeat heartbeat now => rfl
  | expire timeoutSeconds now => rfl
  | submit job =>
      refine (JobFlow.Step.submit job.jobId).of_eq ?_
      simp only [Scheduler.flow, ClusterState.enqueueJob, List.map_append, List.map_cons,
        List.map_nil, coe_snoc, submittedIds]
  | tagSubmission now hs => rfl
  | insertSubmission now hs hdb => rfl
  | failSubmission hs => rfl
  | dequeue hd hq =>
      obtain ⟨rest, hqueue, rfl⟩ := ClusterState.dequeueJob_eq_some hq
      refine (JobFlow.Step.take (q := (rest.map fun job => job.jobId : List JobId)) ?_ ?_).of_eq ?_
      · simp only [Scheduler.flow, hqueue, List.map_cons, Multiset.cons_coe]
      · simp only [Scheduler.flow, hd, Dispatcher.held, Option.map_none]
      · simp only [Scheduler.flow, hd, Dispatcher.held, Dispatcher.placedOn, Option.map_some,
          submittedIds]
  | offer hd =>
      show Scheduler.flow _ = _
      simp only [Scheduler.flow, hd, Dispatcher.held, Dispatcher.placedOn, submittedIds]
  | @answer job available hd =>
      have hheld := Dispatcher.held_answered job available (P.selectNode s.policy available job).1
      have hplaced :=
        Dispatcher.placedOn_answered job available (P.selectNode s.policy available job).1
      show Scheduler.flow _ = _
      simp only [Scheduler.flow, hheld, hplaced, hd, submittedIds]
      rfl
  | @claim job node cluster hd hr =>
      obtain ⟨reg, hreg, hfits, rfl⟩ := ClusterState.reserveSlot_eq_true hr
      refine (JobFlow.Step.place node.nodeId ?_).of_eq ?_
      · simp only [Scheduler.flow, hd, Dispatcher.held, Option.map_some]
      · have hslots : (fun j => ((s.cluster.reserved node.nodeId job).reservations.get? j).map
              fun r => r.nodeId)
            = Function.update (fun j => (s.cluster.reservations.get? j).map fun r => r.nodeId)
                job.jobId (some node.nodeId) := by
          funext j
          rw [ClusterState.reserved_reservations, Dict.get?_set, Function.update_apply]
          split <;> rfl
        simp only [Scheduler.flow, hslots, hd, Dispatcher.reserved, if_true, Dispatcher.held,
          Dispatcher.placedOn, Option.map_none, submittedIds]
        rfl
  | refuseClaim hd hr =>
      obtain rfl := ClusterState.reserveSlot_eq_false hr
      show Scheduler.flow _ = _
      simp [Scheduler.flow, hd, Dispatcher.reserved, Dispatcher.held, submittedIds]
  | spawn now hd =>
      show Scheduler.flow _ = _
      simp [Scheduler.flow, hd, Dispatcher.held, submittedIds, DispatchThread.attempt]
  | @accept th pre post ht hpc =>
      refine (JobFlow.Step.accept (r := (s.dispatcher.placedOn : Multiset (JobId × NodeId))
        + attemptsAt DispatchPc.isSending (pre ++ post)) ?_).of_eq ?_
      · simp [Scheduler.flow, ht, attemptsAt_split, hpc, DispatchThread.attempt]
      · simp [Scheduler.flow, ht, attemptsAt_split, hpc, DispatchThread.attempt, Execution.attempt,
          coe_snoc, submittedIds]
  | respond ht hpc =>
      show Scheduler.flow _ = _
      simp [Scheduler.flow, ht, attemptsAt_split, hpc, submittedIds]
  | recordDispatch now ht hpc =>
      show Scheduler.flow _ = _
      simp [Scheduler.flow, ht, attemptsAt_split, hpc, submittedIds]
  | @forgetAttempts th pre post ht hpc =>
      refine (JobFlow.Step.finish (r := attemptsAt DispatchPc.isWaiting (pre ++ post)) ?_).of_eq ?_
      · simp [Scheduler.flow, ht, attemptsAt_split, hpc, DispatchThread.attempt]
      · simp [Scheduler.flow, ht, attemptsAt_split, hpc, coe_snoc, submittedIds,
          ClusterState.forgetDispatchAttempts]
  | @raise th pre post ht hpc =>
      rcases hpc with hpc | hpc
      · -- not accepted: the attempt was still being sent
        simp only [act, hpc, if_true]
        refine (JobFlow.Step.reject (r := (s.dispatcher.placedOn : Multiset (JobId × NodeId))
          + attemptsAt DispatchPc.isSending (pre ++ post)) ?_).of_eq ?_
        · simp [Scheduler.flow, ht, attemptsAt_split, hpc, DispatchThread.attempt]
        · simp [Scheduler.flow, ht, attemptsAt_split, hpc, DispatchThread.attempt, submittedIds]
      · -- the agent had accepted, whether or not its response had arrived
        rcases hpc with hpc | hpc
        all_goals
          simp only [act, hpc, reduceCtorEq, if_false]
          refine (JobFlow.Step.lose (r := attemptsAt DispatchPc.isWaiting (pre ++ post)) ?_).of_eq ?_
          · simp [Scheduler.flow, ht, attemptsAt_split, hpc, DispatchThread.attempt]
          · simp [Scheduler.flow, ht, attemptsAt_split, hpc, DispatchThread.attempt, submittedIds]
  | @release th pre post ht hpc =>
      refine (JobFlow.Step.release (r := attemptsAt DispatchPc.isFailing (pre ++ post)) ?_).of_eq ?_
      · simp [Scheduler.flow, ht, attemptsAt_split, hpc, DispatchThread.attempt]
      · have hslots := slots_pop s.cluster.reservations th.job.jobId
        simp [Scheduler.flow, hslots, ht, attemptsAt_split, hpc, submittedIds, DispatchThread.attempt]
  | countFailure ht hpc =>
      show Scheduler.flow _ = _
      simp [Scheduler.flow, ht, attemptsAt_split, hpc, submittedIds, ClusterState.recordDispatchFailure]
  | @requeue th pre post attempts ht hpc hmax =>
      refine (JobFlow.Step.retry
        (r := (attemptsAt DispatchPc.isReleased (pre ++ post)).map Prod.fst) ?_).of_eq ?_
      · simp [Scheduler.flow, ht, attemptsAt_split, hpc, DispatchThread.attempt]
      · simp [Scheduler.flow, ht, attemptsAt_split, hpc, coe_snoc, submittedIds,
          ClusterState.enqueueJob]
  | giveUp ht hpc hmax =>
      show Scheduler.flow _ = _
      simp [Scheduler.flow, ht, attemptsAt_split, hpc, submittedIds,
        ClusterState.forgetDispatchAttempts]
  | @markFailed th pre post ht hpc =>
      refine (JobFlow.Step.abandon
        (r := (attemptsAt DispatchPc.isReleased (pre ++ post)).map Prod.fst) ?_).of_eq ?_
      · simp [Scheduler.flow, ht, attemptsAt_split, hpc, DispatchThread.attempt]
      · simp [Scheduler.flow, ht, attemptsAt_split, hpc, coe_snoc, submittedIds]
  | @failMarkFailed th pre post ht hpc =>
      refine (JobFlow.Step.abandon
        (r := (attemptsAt DispatchPc.isReleased (pre ++ post)).map Prod.fst) ?_).of_eq ?_
      · simp [Scheduler.flow, ht, attemptsAt_split, hpc, DispatchThread.attempt]
      · simp [Scheduler.flow, ht, attemptsAt_split, hpc, coe_snoc, submittedIds]
  | @callback result ex pre post he hjob hnode =>
      refine (JobFlow.Step.report
        (r := ((pre ++ post).map Execution.attempt : List (JobId × NodeId))) ?_).of_eq ?_
      · simp only [Scheduler.flow, he, List.map_append, List.map_cons, coe_split, Execution.attempt,
          hjob, hnode]
      · have hslots := slots_pop s.cluster.reservations result.jobId
        simp [Scheduler.flow, hslots, he, coe_snoc, submittedIds]
  | @loseCallback ex pre post he hlost =>
      show Scheduler.flow _ = _
      simp [Scheduler.flow, he, Execution.attempt, submittedIds]
  | recordResult now hr => rfl
  | failRecordResult hr => rfl
  | _ => rfl

theorem flow_init (policy : P.Instance) (policyName : String) :
    (init policy policyName).flow = JobFlow.init := by
  simp only [Scheduler.flow, JobFlow.init, init, Dispatcher.held, submittedIds]
  rfl

/-- A run of the scheduler is a run of the machine.  An assumption on the steps
of the scheduler becomes one on the steps of the machine. -/
theorem run_flow {policy : P.Instance} {policyName : String} {tr : List (Scheduler P × Event)}
    {A : Scheduler P → Event → Prop}
    {D : JobFlow JobId NodeId → JobFlow.Act JobId NodeId → Prop}
    (hcond : ∀ {s : Scheduler P} {e a}, A s e → act e = some a → D s.flow a)
    (h : Run (Step cfg) (init policy policyName) tr s) (hA : ∀ p ∈ tr, A p.1 p.2) :
    ∃ tr', Run JobFlow.Step JobFlow.init tr' s.flow ∧ ∀ p ∈ tr', D p.1 p.2 := by
  rw [← flow_init policy policyName]
  exact h.map (f := flow) (l := act) Step.flow hcond hA

/-- An invariant of the machine is kept by every step of the scheduler. -/
theorem Step.flow_keeps {I : JobFlow JobId NodeId → Prop} (h : Step cfg s e t) (hI : I s.flow)
    (hkeep : ∀ a g, act e = some a → JobFlow.Step s.flow a g → I g) : I t.flow := by
  have hstep := h.flow
  rcases ha : act e with - | a
  · rw [ha] at hstep
    exact (show t.flow = s.flow from hstep) ▸ hI
  · rw [ha] at hstep
    exact hkeep a t.flow ha hstep

/-- Distinct job ids are distinct jobs of the machine. -/
theorem FreshIds.act (h : FreshIds s e) {a : JobFlow.Act JobId NodeId} (ha : act e = some a) :
    JobFlow.Fresh s.flow a := by
  cases a with
  | submit j =>
      obtain ⟨job, rfl, rfl⟩ := act_eq_submit ha
      exact fun hm => h (Multiset.mem_coe.mp hm)
  | _ => trivial

end Scheduler

/-! ### The cluster state -/

/-- The tables of nodes and reservations, without the queue and the failure
counts. -/
def ClusterState.tables (c : ClusterState) : ClusterState :=
  { c with jobQueue := [], dispatchAttempts := ∅ }

/-- The methods on these tables do not look at the rest. -/
theorem ClusterState.step_tables (c : ClusterState) (op : ClusterState.Op) :
    ClusterState.Step c.tables op (op.apply c).tables := by
  cases op with
  | registerNode registration => rfl
  | registerHeartbeat heartbeat now => rfl
  | removeExpiredNodes timeoutSeconds now => rfl
  | reserveSlot nodeId job =>
      show (c.reserveSlot nodeId job).2.tables = (c.tables.reserveSlot nodeId job).2
      have hfits : ∀ reg, c.tables.fits reg job = c.fits reg job := fun reg => rfl
      unfold ClusterState.reserveSlot
      rw [show c.tables.registrations = c.registrations from rfl]
      rcases c.registrations.get? nodeId with - | reg
      · rfl
      · simp only [hfits]
        split <;> rfl
  | releaseSlot jobId =>
      show (c.releaseSlot jobId).tables = c.tables.releaseSlot jobId
      unfold ClusterState.releaseSlot
      rw [show c.tables.reservations = c.reservations from rfl]
      rcases c.reservations.get? jobId with - | r
      · rfl
      · rfl

namespace Scheduler

variable {P : PolicyRegistry} {cfg : Config} {s t : Scheduler P} {e : Event}

/-- What an event calls on the tables of nodes and reservations, if anything. -/
def op : Event → Option ClusterState.Op
  | .register registration => some (.registerNode registration)
  | .heartbeat heartbeat now => some (.registerHeartbeat heartbeat now)
  | .expire timeoutSeconds now => some (.removeExpiredNodes timeoutSeconds now)
  | .claim job node => some (.reserveSlot node.nodeId job)
  | .release t => some (.releaseSlot t.job.jobId)
  | .callback result => some (.releaseSlot result.jobId)
  | _ => none

/-- A step of the scheduler is a call on the tables, or leaves them alone. -/
theorem Step.tables (h : Step cfg s e t) :
    optStep ClusterState.Step s.cluster.tables (op e) t.cluster.tables := by
  cases h with
  | register registration => exact s.cluster.step_tables (.registerNode registration)
  | heartbeat heartbeat now => exact s.cluster.step_tables (.registerHeartbeat heartbeat now)
  | expire timeoutSeconds now => exact s.cluster.step_tables (.removeExpiredNodes timeoutSeconds now)
  | dequeue hd hq =>
      obtain ⟨rest, -, rfl⟩ := ClusterState.dequeueJob_eq_some hq
      rfl
  | @claim job node cluster hd hr =>
      have hcluster : cluster = ClusterState.Op.apply s.cluster (.reserveSlot node.nodeId job) := by
        rw [ClusterState.Op.apply, hr]
      rw [hcluster]
      exact s.cluster.step_tables (.reserveSlot node.nodeId job)
  | refuseClaim hd hr =>
      obtain rfl := ClusterState.reserveSlot_eq_false hr
      rfl
  | @release th pre post ht hpc => exact s.cluster.step_tables (.releaseSlot th.job.jobId)
  | @callback result ex pre post he hjob hnode =>
      exact s.cluster.step_tables (.releaseSlot result.jobId)
  | _ => rfl

/-- What a call on the tables keeps, a step of the scheduler keeps. -/
theorem Step.tables_keeps {I : ClusterState → Prop} (h : Step cfg s e t)
    (hI : I s.cluster.tables) (hkeep : ∀ o, op e = some o → I (o.apply s.cluster.tables)) :
    I t.cluster.tables := by
  have hstep := h.tables
  rcases ho : op e with - | o
  · rw [ho] at hstep
    exact (show t.cluster.tables = s.cluster.tables from hstep) ▸ hI
  · rw [ho] at hstep
    exact (show t.cluster.tables = o.apply s.cluster.tables from hstep) ▸ hkeep o ho

end Scheduler

end HeteroSched
