/-
HeteroSched/Retries.lean

How often a job is dispatched, and when it is given up.

Design.  A job that is submitted once has one token (`JobFlow.tokens`), so while a
`dispatch_job` thread has it, nobody else does, and only that thread touches its
entry in `dispatch_attempts`.  What the entry, the calls of `dispatch_job` so far
and the failed ones among them are is then a matter of where the token is
(`Knows` for the places in a thread, `Retried` for all of them).  Nothing is
assumed of the other jobs, whose ids may repeat.
-/
import HeteroSched.AtMostOnce
import HeteroSched.Conservation
import HeteroSched.Placement
import HeteroSched.Provenance

namespace HeteroSched

open Transition

namespace Scheduler

variable {P : PolicyRegistry} {cfg : Config} {s t : Scheduler P} {e : Event} {j : JobId}
variable {tr : List (Scheduler P × Event)}

/-! ### Calls of `dispatch_job` -/

/-- A `dispatch_job` thread is started for the job. -/
def Event.enters (j : JobId) : Event → Bool
  | .spawn job _ _ => job.jobId = j
  | _ => false

/-- A call of `dispatch_job` for the job raises in its `try` block. -/
def Event.fails (j : JobId) : Event → Bool
  | .raise t => t.job.jobId = j
  | _ => false

/-- The job is put into the queue. -/
def Event.enqueues (j : JobId) : Event → Bool
  | .submit job => job.jobId = j
  | .requeue t => t.job.jobId = j
  | _ => false

/-- How often `dispatch_job` was entered for a job. -/
def entered (tr : List (Scheduler P × Event)) (j : JobId) : ℕ := tr.countP fun p => p.2.enters j

/-- How many of these calls have raised. -/
def failed (tr : List (Scheduler P × Event)) (j : JobId) : ℕ := tr.countP fun p => p.2.fails j

theorem entered_snoc : entered (tr ++ [(s, e)]) j = entered tr j + if e.enters j then 1 else 0 := by
  rw [entered, List.countP_append, List.countP_singleton]
  rfl

theorem failed_snoc : failed (tr ++ [(s, e)]) j = failed tr j + if e.fails j then 1 else 0 := by
  rw [failed, List.countP_append, List.countP_singleton]
  rfl

/-- What the configuration allows: at least one call. -/
def maxAttempts (cfg : Config) : ℤ := max 1 cfg.maxDispatchAttempts

/-! ### Where the token of a job is -/

/-- The job waits for its next call of `dispatch_job`: it is in the queue, or the
dispatcher has it. -/
def BetweenAttempts (s : Scheduler P) (j : JobId) : Prop :=
  (∃ job ∈ s.cluster.jobQueue, job.jobId = j) ∨ ∃ job ∈ s.dispatcher.job, job.jobId = j

/-- Every thread is at one of the four kinds of places. -/
theorem countP_places (ts : List DispatchThread) (j : JobId) :
    ts.countP (fun th => th.pc.isSending && th.job.jobId = j)
      + ts.countP (fun th => th.pc.isWaiting && th.job.jobId = j)
      + ts.countP (fun th => th.pc.isFailing && th.job.jobId = j)
      + ts.countP (fun th => th.pc.isReleased && th.job.jobId = j)
      = ts.countP fun th => th.job.jobId = j := by
  induction ts with
  | nil => rfl
  | cons th rest ih =>
      have hplace : (if th.pc.isSending = true then 1 else 0)
          + (if th.pc.isWaiting = true then 1 else 0) + (if th.pc.isFailing = true then 1 else 0)
          + (if th.pc.isReleased = true then 1 else 0) = 1 := by
        rcases th.pc <;> rfl
      simp only [List.countP_cons]
      by_cases hj : th.job.jobId = j
      · simp only [hj, decide_true, Bool.and_true, if_true]
        omega
      · simp only [hj, decide_false, Bool.and_false, Bool.false_eq_true, if_false]
        omega

/-- The dispatcher has a job in its hand or has placed it. -/
theorem countP_dispatcher (d : Dispatcher) (j : JobId) :
    d.held.toList.countP (fun job => job.jobId = j)
      + d.placedOn.countP (fun a => a.1 = j)
      = d.job.toList.countP fun job => job.jobId = j := by
  rcases d with - | job | ⟨job, available⟩ | ⟨job, node⟩ | ⟨job, node⟩ <;>
    simp [Dispatcher.held, Dispatcher.job]

/-- The token of a job over the places it can be at. -/
theorem tokens_eq (s : Scheduler P) (j : JobId) :
    s.flow.tokens j
      = s.cluster.jobQueue.countP (fun job => job.jobId = j)
        + s.dispatcher.job.toList.countP (fun job => job.jobId = j)
        + s.threads.countP (fun th => th.job.jobId = j)
        + s.history.returned.count j + s.history.abandoned.count j := by
  have hqueued : s.flow.queued.count j = s.cluster.jobQueue.countP fun job => job.jobId = j :=
    count_map_eq_countP ..
  have hreleased : s.flow.released.count j
      = s.threads.countP fun th => th.pc.isReleased && th.job.jobId = j :=
    times_attemptsAt DispatchPc.isReleased s.threads j
  rw [← countP_dispatcher, ← countP_places]
  simp only [JobFlow.tokens, JobFlow.unaccepted, hqueued, hreleased, count_hand]
  simp only [flow, JobFlow.times_add, times_coe, times_attemptsAt, Multiset.coe_count]
  omega

/-- Every submission of a job gives it one token, and nothing else does. -/
theorem run_tokens {policy : P.Instance} {policyName : String}
    (h : Run (Step cfg) (init policy policyName) tr s) (j : JobId) :
    s.flow.tokens j = s.submittedIds.count j := by
  have hflow : s.flow.tokens j = s.flow.submitted.count j := by
    refine h.invariant (I := fun s => s.flow.tokens j = s.flow.submitted.count j) ?_ ?_
    · rw [flow_init]
      exact JobFlow.tokens_init.tokens_eq j
    · intro s e t hs hstep
      refine hstep.flow_keeps (I := fun f => f.tokens j = f.submitted.count j) hs ?_
      intro a g _ hg
      have hmove := hg.tokens_eq j
      omega
  rw [hflow]
  exact Multiset.coe_count _ _

/-- The job of a thread is nowhere else. -/
theorem alone (hone : s.flow.tokens j ≤ 1) {pre post : List DispatchThread} {th : DispatchThread}
    (ht : s.threads = pre ++ th :: post) (hj : th.job.jobId = j) :
    (∀ th' ∈ pre ++ post, th'.job.jobId ≠ j) ∧ j ∉ s.history.returned ∧
      j ∉ s.history.abandoned := by
  rw [tokens_eq, ht, List.countP_append, List.countP_cons, if_pos (decide_eq_true hj)] at hone
  have hrest : (pre ++ post).countP (fun th => th.job.jobId = j) = 0 := by
    rw [List.countP_append]
    omega
  refine ⟨fun th' hth' => ?_, List.count_eq_zero.mp (by omega), List.count_eq_zero.mp (by omega)⟩
  simpa using List.countP_eq_zero.mp hrest th' hth'

/-- A job that waits for its next call is in no thread, and neither returned nor
abandoned. -/
theorem BetweenAttempts.alone (hw : BetweenAttempts s j) (hone : s.flow.tokens j ≤ 1) :
    (∀ th ∈ s.threads, th.job.jobId ≠ j) ∧ j ∉ s.history.returned ∧ j ∉ s.history.abandoned := by
  have hpos : 0 < s.cluster.jobQueue.countP (fun job => job.jobId = j)
      + s.dispatcher.job.toList.countP fun job => job.jobId = j := by
    rcases hw with ⟨job, hjob, hj⟩ | ⟨job, hjob, hj⟩
    · have hcount : 0 < s.cluster.jobQueue.countP fun job => job.jobId = j :=
        List.countP_pos_iff.mpr ⟨job, hjob, decide_eq_true hj⟩
      omega
    · have hcount : 0 < s.dispatcher.job.toList.countP fun job => job.jobId = j :=
        List.countP_pos_iff.mpr ⟨job, Option.mem_toList.mpr hjob, decide_eq_true hj⟩
      omega
  rw [tokens_eq] at hone
  have hthreads : s.threads.countP (fun th => th.job.jobId = j) = 0 := by omega
  refine ⟨fun th hth => ?_, List.count_eq_zero.mp (by omega), List.count_eq_zero.mp (by omega)⟩
  simpa using List.countP_eq_zero.mp hthreads th hth

/-! ### What is counted at each place -/

/-- The calls of `dispatch_job` for a job, the failed ones among them and its
entry, by the place of its thread. -/
def Knows (limit : ℤ) (entered failed : ℕ) (entry : Option ℕ) : DispatchPc → Prop
  | .posting | .accepted | .responded | .recorded =>
      failed < limit ∧ entry.getD 0 = failed ∧ entered = failed + 1
  | .raised | .released => failed ≤ limit ∧ entry.getD 0 + 1 = failed ∧ entered = failed
  | .counted k => failed ≤ limit ∧ entry.getD 0 = failed ∧ entered = failed ∧ k = failed ∧ 1 ≤ k
  | .abandoning => failed = limit ∧ entry = none ∧ entered = failed

/-- The same wherever the job is. -/
structure Retried (cfg : Config) (j : JobId) (tr : List (Scheduler P × Event)) (s : Scheduler P) :
    Prop where
  threads : ∀ th ∈ s.threads, th.job.jobId = j →
    Knows (maxAttempts cfg) (entered tr j) (failed tr j) (s.cluster.dispatchAttempts.get? j) th.pc
  waiting : (∀ th ∈ s.threads, th.job.jobId ≠ j) → j ∉ s.history.returned →
    j ∉ s.history.abandoned →
    failed tr j < maxAttempts cfg ∧ (s.cluster.dispatchAttempts.get? j).getD 0 = failed tr j ∧
      entered tr j = failed tr j
  returned : j ∈ s.history.returned →
    failed tr j < maxAttempts cfg ∧ s.cluster.dispatchAttempts.get? j = none ∧
      entered tr j = failed tr j + 1
  abandoned : j ∈ s.history.abandoned →
    failed tr j = maxAttempts cfg ∧ s.cluster.dispatchAttempts.get? j = none ∧
      entered tr j = failed tr j

/-- The job whose thread a step starts or moves. -/
def Event.dispatches : Event → Option JobId
  | .spawn job _ _ => some job.jobId
  | .accept t | .respond t | .raise t | .recordDispatch t _ | .forgetAttempts t | .release t
  | .countFailure t | .requeue t | .giveUp t | .markFailed t | .failMarkFailed t =>
      some t.job.jobId
  | _ => none

theorem entered_snoc_of_ne (he : e.dispatches ≠ some j) :
    entered (tr ++ [(s, e)]) j = entered tr j := by
  rw [entered_snoc]
  cases e with
  | spawn job node now =>
      rw [Event.enters, decide_eq_false fun hj => he (congrArg some hj)]
      rfl
  | _ => rfl

theorem failed_snoc_of_ne (he : e.dispatches ≠ some j) :
    failed (tr ++ [(s, e)]) j = failed tr j := by
  rw [failed_snoc]
  cases e with
  | raise th =>
      rw [Event.fails, decide_eq_false fun hj => he (congrArg some hj)]
      rfl
  | _ => rfl

/-- The thread of another job moves. -/
theorem mem_goto_iff {pre post : List DispatchThread} {th th' : DispatchThread} {pc : DispatchPc}
    (hne : th.job.jobId ≠ j) (hj : th'.job.jobId = j) :
    th' ∈ pre ++ th.goto pc :: post ↔ th' ∈ pre ++ th :: post := by
  have h₁ : th' ≠ th := fun heq => hne (heq ▸ hj)
  have h₂ : th' ≠ th.goto pc := by
    rintro rfl
    exact hne hj
  simp only [List.mem_append, List.mem_cons, h₁, h₂, false_or]

/-- The thread of another job ends. -/
theorem mem_drop_iff {pre post : List DispatchThread} {th th' : DispatchThread}
    (hne : th.job.jobId ≠ j) (hj : th'.job.jobId = j) :
    th' ∈ pre ++ post ↔ th' ∈ pre ++ th :: post := by
  have h₁ : th' ≠ th := fun heq => hne (heq ▸ hj)
  simp only [List.mem_append, List.mem_cons, h₁, false_or]

/-- What a step of another job's thread is about. -/
theorem Event.ne_of_dispatches {k : JobId} (he : e.dispatches ≠ some j)
    (hk : e.dispatches = some k) : k ≠ j :=
  fun hkj => he (hkj ▸ hk)

/-- A step of another job's thread, or of no thread, leaves a job's threads. -/
theorem Step.mem_threads_of_ne (h : Step cfg s e t) (he : e.dispatches ≠ some j)
    {th' : DispatchThread} (hj : th'.job.jobId = j) : th' ∈ t.threads ↔ th' ∈ s.threads := by
  have hne := fun {k} => Event.ne_of_dispatches (k := k) he
  cases h with
  | dequeue hd hq => exact Iff.rfl
  | @spawn job node now hd =>
      rw [List.mem_cons]
      refine or_iff_right fun heq => hne rfl ?_
      rw [← hj, heq]
  -- a thread of another job moves
  | accept ht hpc => exact ht ▸ mem_goto_iff (hne rfl) hj
  | respond ht hpc => exact ht ▸ mem_goto_iff (hne rfl) hj
  | recordDispatch now ht hpc => exact ht ▸ mem_goto_iff (hne rfl) hj
  | raise ht hpc => exact ht ▸ mem_goto_iff (hne rfl) hj
  | release ht hpc => exact ht ▸ mem_goto_iff (hne rfl) hj
  | countFailure ht hpc => exact ht ▸ mem_goto_iff (hne rfl) hj
  | giveUp ht hpc hmax => exact ht ▸ mem_goto_iff (hne rfl) hj
  -- or ends
  | forgetAttempts ht hpc => exact ht ▸ mem_drop_iff (hne rfl) hj
  | requeue ht hpc hmax => exact ht ▸ mem_drop_iff (hne rfl) hj
  | markFailed ht hpc => exact ht ▸ mem_drop_iff (hne rfl) hj
  | failMarkFailed ht hpc => exact ht ▸ mem_drop_iff (hne rfl) hj
  | _ => exact Iff.rfl

theorem mem_snoc_of_ne {l : List JobId} {k : JobId} (hk : k ≠ j) : j ∈ l ++ [k] ↔ j ∈ l := by
  rw [List.mem_append, List.mem_singleton]
  exact or_iff_left hk.symm

/-- No call for the job returns in it. -/
theorem Step.mem_returned_of_ne (h : Step cfg s e t) (he : e.dispatches ≠ some j) :
    j ∈ t.history.returned ↔ j ∈ s.history.returned := by
  cases h with
  | forgetAttempts ht hpc => exact mem_snoc_of_ne (Event.ne_of_dispatches he rfl)
  | _ => exact Iff.rfl

/-- The job is not given up in it. -/
theorem Step.mem_abandoned_of_ne (h : Step cfg s e t) (he : e.dispatches ≠ some j) :
    j ∈ t.history.abandoned ↔ j ∈ s.history.abandoned := by
  cases h with
  | markFailed ht hpc => exact mem_snoc_of_ne (Event.ne_of_dispatches he rfl)
  | failMarkFailed ht hpc => exact mem_snoc_of_ne (Event.ne_of_dispatches he rfl)
  | _ => exact Iff.rfl

/-- The job's entry stays. -/
theorem Step.attempts_of_ne (h : Step cfg s e t) (he : e.dispatches ≠ some j) :
    t.cluster.dispatchAttempts.get? j = s.cluster.dispatchAttempts.get? j := by
  have hne := fun {k} => Event.ne_of_dispatches (k := k) he
  cases h with
  | dequeue hd hq =>
      obtain ⟨rest, -, rfl⟩ := ClusterState.dequeueJob_eq_some hq
      rfl
  | claim hd hr =>
      obtain ⟨reg, -, -, rfl⟩ := ClusterState.reserveSlot_eq_true hr
      rfl
  | refuseClaim hd hr =>
      obtain rfl := ClusterState.reserveSlot_eq_false hr
      rfl
  | forgetAttempts ht hpc => exact Dict.get?_pop_ne _ (hne rfl).symm
  | release ht hpc => rw [ClusterState.releaseSlot_dispatchAttempts]
  | countFailure ht hpc => exact Dict.get?_set_ne _ _ (hne rfl).symm
  | giveUp ht hpc hmax => exact Dict.get?_pop_ne _ (hne rfl).symm
  | callback hex hjob hnode => rw [ClusterState.releaseSlot_dispatchAttempts]
  | _ => rfl

/-! ### One step -/

theorem Retried.of_others (h : Retried cfg j tr s) (hs : Step cfg s e t)
    (he : e.dispatches ≠ some j) : Retried cfg j (tr ++ [(s, e)]) t := by
  constructor
  · rw [entered_snoc_of_ne he, failed_snoc_of_ne he, hs.attempts_of_ne he]
    exact fun th hth hj => h.threads th ((hs.mem_threads_of_ne he hj).mp hth) hj
  · rw [entered_snoc_of_ne he, failed_snoc_of_ne he, hs.attempts_of_ne he,
      hs.mem_returned_of_ne he, hs.mem_abandoned_of_ne he]
    exact fun hnone =>
      h.waiting fun th hth hj => hnone th ((hs.mem_threads_of_ne he hj).mpr hth) hj
  · rw [entered_snoc_of_ne he, failed_snoc_of_ne he, hs.attempts_of_ne he,
      hs.mem_returned_of_ne he]
    exact h.returned
  · rw [entered_snoc_of_ne he, failed_snoc_of_ne he, hs.attempts_of_ne he,
      hs.mem_abandoned_of_ne he]
    exact h.abandoned

/-- A state in which a thread has the job and nobody else does. -/
theorem Retried.of_thread {pre post : List DispatchThread} {th : DispatchThread}
    (ht : t.threads = pre ++ th :: post) (hj : th.job.jobId = j)
    (hrest : ∀ th' ∈ pre ++ post, th'.job.jobId ≠ j) (hreturned : j ∉ t.history.returned)
    (habandoned : j ∉ t.history.abandoned)
    (hk : Knows (maxAttempts cfg) (entered tr j) (failed tr j)
      (t.cluster.dispatchAttempts.get? j) th.pc) : Retried cfg j tr t where
  threads := by
    rw [ht, forall_mem_split]
    exact ⟨fun _ => hk, fun th' hth' hj' => absurd hj' (hrest th' hth')⟩
  waiting := by
    intro hnone
    refine absurd hj (hnone th ?_)
    rw [ht]
    exact List.mem_append_right _ List.mem_cons_self
  returned := fun hr => absurd hr hreturned
  abandoned := fun ha => absurd ha habandoned

section OwnStep

variable {pre post : List DispatchThread} {th : DispatchThread} {pc pc' : DispatchPc}

/-- What is known of the job of a thread. -/
theorem Retried.knows (h : Retried cfg j tr s) (ht : s.threads = pre ++ th :: post)
    (hj : th.job.jobId = j) : Knows (maxAttempts cfg) (entered tr j) (failed tr j)
      (s.cluster.dispatchAttempts.get? j) th.pc := by
  refine h.threads th ?_ hj
  rw [ht]
  exact List.mem_append_right _ List.mem_cons_self

/-- The job's thread moves: what is to be shown is that what was known at its old
place gives what is known at the new one. -/
theorem Retried.of_goto (h : Retried cfg j tr s) (hone : s.flow.tokens j ≤ 1)
    (ht : s.threads = pre ++ th :: post) (hj : th.job.jobId = j)
    (ht' : t.threads = pre ++ th.goto pc' :: post)
    (hreturned' : t.history.returned = s.history.returned)
    (habandoned' : t.history.abandoned = s.history.abandoned)
    (hk : Knows (maxAttempts cfg) (entered tr j) (failed tr j)
        (s.cluster.dispatchAttempts.get? j) th.pc →
      Knows (maxAttempts cfg) (entered (tr ++ [(s, e)]) j) (failed (tr ++ [(s, e)]) j)
        (t.cluster.dispatchAttempts.get? j) pc') : Retried cfg j (tr ++ [(s, e)]) t := by
  obtain ⟨hrest, hreturned, habandoned⟩ := alone hone ht hj
  refine Retried.of_thread ht' hj hrest ?_ ?_ (hk (h.knows ht hj))
  · rwa [hreturned']
  · rwa [habandoned']

/-- The job's last thread ends. -/
theorem Retried.of_abandoned (h : Retried cfg j tr s) (hone : s.flow.tokens j ≤ 1)
    (ht : s.threads = pre ++ th :: post) (hj : th.job.jobId = j) (hpc : th.pc = .abandoning)
    (ht' : t.threads = pre ++ post) (hreturned' : t.history.returned = s.history.returned)
    (habandoned' : t.history.abandoned = s.history.abandoned ++ [th.job.jobId])
    (hk : Knows (maxAttempts cfg) (entered tr j) (failed tr j)
        (s.cluster.dispatchAttempts.get? j) .abandoning →
      Knows (maxAttempts cfg) (entered (tr ++ [(s, e)]) j) (failed (tr ++ [(s, e)]) j)
        (t.cluster.dispatchAttempts.get? j) .abandoning) : Retried cfg j (tr ++ [(s, e)]) t := by
  obtain ⟨hrest, hreturned, -⟩ := alone hone ht hj
  have hlast := hk (hpc ▸ h.knows ht hj)
  constructor
  · rw [ht']
    exact fun th' hth' hj' => absurd hj' (hrest th' hth')
  · rw [habandoned', ← hj]
    exact fun _ _ ha => absurd (List.mem_append_right _ List.mem_cons_self) ha
  · rw [hreturned']
    exact fun hr => absurd hr hreturned
  · exact fun _ => hlast

end OwnStep

theorem Retried.step (h : Retried cfg j tr s) (hone : s.flow.tokens j ≤ 1)
    (hs : Step cfg s e t) : Retried cfg j (tr ++ [(s, e)]) t := by
  by_cases he : e.dispatches = some j
  case neg => exact h.of_others hs he
  cases hs with
  | @spawn job node now hd =>
      have hj : job.jobId = j := Option.some.inj he
      obtain ⟨hnone, hreturned, habandoned⟩ :=
        BetweenAttempts.alone (Or.inr ⟨job, by rw [hd]; rfl, hj⟩) hone
      obtain ⟨hlt, hentry, hentered⟩ := h.waiting hnone hreturned habandoned
      refine Retried.of_thread (show _ = [] ++ _ :: s.threads from rfl) hj hnone hreturned
        habandoned ?_
      rw [entered_snoc, failed_snoc, Event.enters, decide_eq_true hj]
      exact ⟨hlt, hentry, congrArg (· + 1) hentered⟩
  | accept ht hpc =>
      refine h.of_goto hone ht (Option.some.inj he) rfl rfl rfl fun hk => ?_
      rw [hpc] at hk
      rw [entered_snoc, failed_snoc]
      exact hk
  | respond ht hpc =>
      refine h.of_goto hone ht (Option.some.inj he) rfl rfl rfl fun hk => ?_
      rw [hpc] at hk
      rw [entered_snoc, failed_snoc]
      exact hk
  | recordDispatch now ht hpc =>
      refine h.of_goto hone ht (Option.some.inj he) rfl rfl rfl fun hk => ?_
      rw [hpc] at hk
      rw [entered_snoc, failed_snoc]
      exact hk
  | @forgetAttempts th pre post ht hpc =>
      -- the entry of a job that was placed is dropped
      have hj : th.job.jobId = j := Option.some.inj he
      obtain ⟨hrest, -, habandoned⟩ := alone hone ht hj
      have hk := h.knows ht hj
      rw [hpc] at hk
      obtain ⟨hlt, -, hentered⟩ := hk
      subst hj
      constructor
      · exact fun th' hth' hj' => absurd hj' (hrest th' hth')
      · exact fun _ hr => absurd (List.mem_append_right _ List.mem_cons_self) hr
      · intro _
        rw [entered_snoc, failed_snoc]
        exact ⟨hlt, Dict.get?_pop_self _ _, hentered⟩
      · exact fun ha => absurd ha habandoned
  | @raise th pre post ht hpc =>
      have hj : th.job.jobId = j := Option.some.inj he
      refine h.of_goto hone ht hj rfl rfl rfl fun hk => ?_
      -- the same is known at the three places of the `try` block
      have htry : failed tr j < maxAttempts cfg ∧
          (s.cluster.dispatchAttempts.get? j).getD 0 = failed tr j ∧
          entered tr j = failed tr j + 1 := by
        rcases hpc with hpc | hpc | hpc <;>
        · rw [hpc] at hk
          exact hk
      obtain ⟨hlt, hentry, hentered⟩ := htry
      rw [entered_snoc, failed_snoc, Event.fails, decide_eq_true hj]
      exact ⟨by push_cast; omega, congrArg (· + 1) hentry, hentered⟩
  | release ht hpc =>
      refine h.of_goto hone ht (Option.some.inj he) rfl rfl rfl fun hk => ?_
      rw [hpc] at hk
      rw [entered_snoc, failed_snoc, ClusterState.releaseSlot_dispatchAttempts]
      exact hk
  | @countFailure th pre post ht hpc =>
      -- the entry catches up with the call that has failed
      obtain rfl : th.job.jobId = j := Option.some.inj he
      refine h.of_goto hone ht rfl rfl rfl rfl fun hk => ?_
      rw [hpc] at hk
      obtain ⟨hle, hentry, hentered⟩ := hk
      rw [entered_snoc, failed_snoc]
      refine ⟨hle, ?_, hentered, hentry, Nat.le_add_left 1 _⟩
      show ((s.cluster.dispatchAttempts.set _ _).get? _).getD 0 = _
      rw [Dict.get?_set_self]
      exact hentry
  | @requeue th pre post attempts ht hpc hmax =>
      have hj : th.job.jobId = j := Option.some.inj he
      obtain ⟨hrest, hreturned, habandoned⟩ := alone hone ht hj
      have hk := h.knows ht hj
      rw [hpc] at hk
      obtain ⟨-, hentry, hentered, rfl, -⟩ := hk
      constructor
      · exact fun th' hth' hj' => absurd hj' (hrest th' hth')
      · intro _ _ _
        rw [entered_snoc, failed_snoc]
        exact ⟨lt_max_of_lt_right (not_le.mp hmax), hentry, hentered⟩
      · exact fun hr => absurd hr hreturned
      · exact fun ha => absurd ha habandoned
  | @giveUp th pre post attempts ht hpc hmax =>
      -- the limit is reached, and no more than reached
      obtain rfl : th.job.jobId = j := Option.some.inj he
      refine h.of_goto hone ht rfl rfl rfl rfl fun hk => ?_
      rw [hpc] at hk
      obtain ⟨hle, -, hentered, rfl, hpos⟩ := hk
      rw [entered_snoc, failed_snoc]
      exact ⟨le_antisymm hle (max_le (by exact_mod_cast hpos) hmax), Dict.get?_pop_self _ _,
        hentered⟩
  | markFailed ht hpc =>
      refine h.of_abandoned hone ht (Option.some.inj he) hpc rfl rfl rfl fun hk => ?_
      rw [entered_snoc, failed_snoc]
      exact hk
  | failMarkFailed ht hpc =>
      refine h.of_abandoned hone ht (Option.some.inj he) hpc rfl rfl rfl fun hk => ?_
      rw [entered_snoc, failed_snoc]
      exact hk
  | _ => exact absurd he (by simp [Event.dispatches])

/-! ### Whole runs -/

/-- A job that is put into the queue was neither placed nor abandoned before. -/
theorem Step.enqueues (h : Step cfg s e t) (he : e.enqueues j = true)
    (hs : s.flow.tokens j = s.submittedIds.count j) (ht : t.submittedIds.count j ≤ 1) :
    j ∉ s.history.abandoned ∧ j ∉ s.history.returned := by
  cases h with
  | submit job =>
      have hj : job.jobId = j := of_decide_eq_true he
      have hsubmitted : (s.submittedIds ++ [job.jobId]).count j ≤ 1 := by
        rwa [submittedIds, List.map_append] at ht
      rw [List.count_append, List.count_singleton, if_pos (beq_iff_eq.mpr hj), ← hs,
        tokens_eq] at hsubmitted
      exact ⟨List.count_eq_zero.mp (by omega), List.count_eq_zero.mp (by omega)⟩
  | requeue hth hpc hmax =>
      obtain ⟨-, hreturned, habandoned⟩ := alone (hs.trans_le ht) hth (of_decide_eq_true he)
      exact ⟨habandoned, hreturned⟩
  | _ => exact absurd he (by simp [Event.enqueues])

theorem retried_init (policy : P.Instance) (policyName : String) :
    Retried cfg j [] (init policy policyName) where
  threads := fun _ hth => absurd hth List.not_mem_nil
  waiting := fun _ _ _ => ⟨lt_max_of_lt_left zero_lt_one, rfl, rfl⟩
  returned := fun hr => absurd hr List.not_mem_nil
  abandoned := fun ha => absurd ha List.not_mem_nil

theorem run_retried {policy : P.Instance} {policyName : String}
    (h : Run (Step cfg) (init policy policyName) tr s) (hj : s.submittedIds.count j ≤ 1) :
    Retried cfg j tr s ∧ ∀ p ∈ tr, p.2.enqueues j = true →
      j ∉ p.1.history.abandoned ∧ j ∉ p.1.history.returned := by
  revert hj
  refine h.invariant_trace (I := fun tr s => s.submittedIds.count j ≤ 1 → Retried cfg j tr s ∧
    ∀ p ∈ tr, p.2.enqueues j = true → j ∉ p.1.history.abandoned ∧ j ∉ p.1.history.returned)
    (fun _ => ⟨retried_init policy policyName, fun p hp => absurd hp List.not_mem_nil⟩) ?_
  intro tr s e t hrun ih hs ht
  have hle : s.submittedIds.count j ≤ t.submittedIds.count j := by
    rcases hs.submitted_eq with heq | ⟨job, -, heq⟩
    · rw [submittedIds, submittedIds, heq]
    · rw [submittedIds, submittedIds, heq, List.map_append, List.count_append]
      exact Nat.le_add_right _ _
  obtain ⟨hretried, henqueued⟩ := ih (hle.trans ht)
  have htokens := run_tokens hrun j
  exact ⟨hretried.step (htokens.trans_le (hle.trans ht)) hs,
    forall_mem_snoc.mpr ⟨henqueued, fun he => hs.enqueues he htokens ht⟩⟩

/-! ### The last failure -/

/-- A step of a job's own thread. -/
def OwnThread (j : JobId) (_ : Scheduler P) (e : Event) : Prop := e.dispatches = some j

/-- Steps of the job's own thread lead to a state in which it is abandoned. -/
def Abandons (cfg : Config) (j : JobId) (s : Scheduler P) : Prop :=
  ∃ tr t, Run (restrict (Step cfg) (OwnThread j)) s tr t ∧ j ∈ t.history.abandoned

theorem Abandons.of_step (hs : Step cfg s e t) (he : e.dispatches = some j)
    (h : Abandons cfg j t) : Abandons cfg j s := by
  obtain ⟨tr, u, hrun, hu⟩ := h
  exact ⟨_, u, Run.head ⟨he, hs⟩ hrun, hu⟩

section LastFailure

variable {pre post : List DispatchThread} {th : DispatchThread}

theorem abandons_of_abandoning (ht : s.threads = pre ++ th :: post) (hj : th.job.jobId = j)
    (hpc : th.pc = .abandoning) : Abandons cfg j s := by
  refine Abandons.of_step (.markFailed ht hpc) (congrArg some hj) ⟨[], _, .refl, ?_⟩
  rw [← hj]
  exact List.mem_append_right _ List.mem_cons_self

theorem abandons_of_counted (ht : s.threads = pre ++ th :: post) (hj : th.job.jobId = j) {k : ℕ}
    (hpc : th.pc = .counted k) (hk : (k : ℤ) ≥ cfg.maxDispatchAttempts) : Abandons cfg j s :=
  Abandons.of_step (.giveUp ht hpc hk) (congrArg some hj) (abandons_of_abandoning rfl hj rfl)

theorem abandons_of_released (ht : s.threads = pre ++ th :: post) (hj : th.job.jobId = j)
    (hpc : th.pc = .released)
    (hk : (((s.cluster.dispatchAttempts.get? j).getD 0 + 1 : ℕ) : ℤ) ≥ cfg.maxDispatchAttempts) :
    Abandons cfg j s := by
  subst hj
  exact Abandons.of_step (.countFailure ht hpc) rfl (abandons_of_counted rfl rfl rfl hk)

theorem abandons_of_raised (ht : s.threads = pre ++ th :: post) (hj : th.job.jobId = j)
    (hpc : th.pc = .raised)
    (hk : (((s.cluster.dispatchAttempts.get? j).getD 0 + 1 : ℕ) : ℤ) ≥ cfg.maxDispatchAttempts) :
    Abandons cfg j s := by
  refine Abandons.of_step (.release ht hpc) (congrArg some hj) (abandons_of_released rfl hj rfl ?_)
  rwa [ClusterState.releaseSlot_dispatchAttempts]

end LastFailure

/-- When as many calls have failed as are allowed, the job's thread gives it up. -/
theorem Retried.abandons (h : Retried cfg j tr s) (hlimit : failed tr j = maxAttempts cfg) :
    Abandons cfg j s := by
  by_cases hthread : ∃ th ∈ s.threads, th.job.jobId = j
  · obtain ⟨th, hth, hj⟩ := hthread
    have hk := h.threads th hth hj
    have hmax : cfg.maxDispatchAttempts ≤ failed tr j := hlimit ▸ le_max_right _ _
    obtain ⟨pre, post, ht⟩ := List.append_of_mem hth
    rcases hpc : th.pc with - | - | - | - | - | - | k | -
    all_goals rw [hpc] at hk
    · exact absurd hk.1 hlimit.not_lt
    · exact absurd hk.1 hlimit.not_lt
    · exact absurd hk.1 hlimit.not_lt
    · exact absurd hk.1 hlimit.not_lt
    · exact abandons_of_raised ht hj hpc (hk.2.1 ▸ hmax)
    · exact abandons_of_released ht hj hpc (hk.2.1 ▸ hmax)
    · exact abandons_of_counted ht hj hpc (hk.2.2.2.1 ▸ hmax)
    · exact abandons_of_abandoning ht hj hpc
  · have hnone : ∀ th ∈ s.threads, th.job.jobId ≠ j := fun th hth hj => hthread ⟨th, hth, hj⟩
    by_cases habandoned : j ∈ s.history.abandoned
    · exact ⟨[], s, .refl, habandoned⟩
    · by_cases hreturned : j ∈ s.history.returned
      · exact absurd (h.returned hreturned).1 hlimit.not_lt
      · exact absurd (h.waiting hnone hreturned habandoned).1 hlimit.not_lt

/-- Every call that was made has failed, or all but one of the allowed. -/
theorem Retried.entered_le (h : Retried cfg j tr s) : entered tr j ≤ maxAttempts cfg := by
  by_cases hthread : ∃ th ∈ s.threads, th.job.jobId = j
  · obtain ⟨th, hth, hj⟩ := hthread
    have hk := h.threads th hth hj
    rcases hpc : th.pc with - | - | - | - | - | - | k | -
    all_goals
      rw [hpc] at hk
      simp only [Knows] at hk
      omega
  · have hnone : ∀ th ∈ s.threads, th.job.jobId ≠ j := fun th hth hj => hthread ⟨th, hth, hj⟩
    by_cases habandoned : j ∈ s.history.abandoned
    · have hk := h.abandoned habandoned
      omega
    · by_cases hreturned : j ∈ s.history.returned
      · have hk := h.returned hreturned
        omega
      · have hk := h.waiting hnone hreturned habandoned
        omega

/-- A job is abandoned when all the calls it was allowed have failed and its last
thread has ended. -/
theorem Retried.abandoned_iff (h : Retried cfg j tr s) (hone : s.flow.tokens j ≤ 1) :
    j ∈ s.history.abandoned ↔ entered tr j = maxAttempts cfg ∧ failed tr j = entered tr j ∧
      ∀ th ∈ s.threads, th.job.jobId ≠ j := by
  constructor
  · intro habandoned
    obtain ⟨hlimit, -, hentered⟩ := h.abandoned habandoned
    have hcount := List.count_pos_iff.mpr habandoned
    rw [tokens_eq] at hone
    have hthreads : s.threads.countP (fun th => th.job.jobId = j) = 0 := by omega
    refine ⟨by rw [hentered, hlimit], hentered.symm, fun th hth => ?_⟩
    simpa using List.countP_eq_zero.mp hthreads th hth
  · rintro ⟨hentered, hfailed, hnone⟩
    by_contra habandoned
    by_cases hreturned : j ∈ s.history.returned
    · have hk := h.returned hreturned
      omega
    · have hk := h.waiting hnone hreturned habandoned
      omega

/-! ### The theorem -/

/-- In every run, whatever fails and whatever other jobs do, for a job that is
submitted once: `dispatch_job` is entered at most as often as is allowed; the job
is abandoned at most once, exactly when so many calls were made, all of them have
failed and the last one has ended, and the last failure leads there; it is not
put into the queue again after it was abandoned or a call returned; between the
calls its entry is the number of the failed ones; and it has no entry once it is
placed or abandoned. -/
theorem bounded_retries {policy : P.Instance} {policyName : String}
    (h : Run (Step cfg) (init policy policyName) tr s) (hj : s.submittedIds.count j ≤ 1) :
    entered tr j ≤ max 1 cfg.maxDispatchAttempts ∧
    s.history.abandoned.count j ≤ 1 ∧
    (j ∈ s.history.abandoned ↔ entered tr j = max 1 cfg.maxDispatchAttempts ∧
      failed tr j = entered tr j ∧ ∀ th ∈ s.threads, th.job.jobId ≠ j) ∧
    (failed tr j = max 1 cfg.maxDispatchAttempts → Abandons cfg j s) ∧
    (∀ p ∈ tr, p.2.enqueues j = true →
      j ∉ p.1.history.abandoned ∧ j ∉ p.1.history.returned) ∧
    (BetweenAttempts s j → s.cluster.dispatchAttempts.getD j 0 = failed tr j) ∧
    (j ∈ s.history.returned ∨ j ∈ s.history.abandoned → j ∉ s.cluster.dispatchAttempts) := by
  obtain ⟨hretried, henqueued⟩ := run_retried h hj
  have hone : s.flow.tokens j ≤ 1 := (run_tokens h j).trans_le hj
  refine ⟨hretried.entered_le, ?_, hretried.abandoned_iff hone, hretried.abandons, henqueued, ?_, ?_⟩
  · rw [tokens_eq] at hone
    omega
  · intro hw
    obtain ⟨hnone, hreturned, habandoned⟩ := hw.alone hone
    exact (hretried.waiting hnone hreturned habandoned).2.1
  · rintro (hreturned | habandoned)
    · exact Dict.get?_eq_none_iff.mp (hretried.returned hreturned).2.1
    · exact Dict.get?_eq_none_iff.mp (hretried.abandoned habandoned).2.1

/-- Two calls are allowed and both fail: the job is given up. -/
theorem bounded_retries_two :
    ∃ tr s, Run (Step ⟨2⟩) defaultInit tr s ∧ s.history.abandoned = ["j"] ∧
      entered tr "j" = 2 ∧ failed tr "j" = 2 ∧ "j" ∉ s.cluster.dispatchAttempts := by
  have h₀ : Run (restrict (Step ⟨2⟩) fun _ _ => True) defaultInit [] defaultInit := .refl
  have h₁ := (h₀.tail_restrict (.register (ClusterState.nodeOf "n" 1 64)) trivial).tail_restrict
    (.submit (ClusterState.jobOf "j")) trivial
  obtain ⟨tr₂, h₂, -, -⟩ := dispatch_run h₁ (fun _ _ _ => trivial) rfl rfl (idleView "n")
    (by decide +kernel) (by decide +kernel) 0
  -- the first call fails
  have h₃ := h₂.tail_restrict (@Step.raise _ _ _ _ [] _ rfl (Or.inl rfl)) trivial
  have h₄ := h₃.tail_restrict (@Step.release _ _ _ _ [] _ rfl rfl) trivial
  have h₅ := h₄.tail_restrict (@Step.countFailure _ _ _ _ [] _ rfl rfl) trivial
  have h₆ := h₅.tail_restrict (@Step.requeue _ _ _ _ [] _ _ rfl rfl (by decide +kernel)) trivial
  obtain ⟨tr₇, h₇, -, -⟩ := dispatch_run h₆ (fun _ _ _ => trivial) rfl rfl (idleView "n")
    (by decide +kernel) (by decide +kernel) 0
  -- and so does the second
  have h₈ := h₇.tail_restrict (@Step.raise _ _ _ _ [] _ rfl (Or.inl rfl)) trivial
  have h₉ := h₈.tail_restrict (@Step.release _ _ _ _ [] _ rfl rfl) trivial
  have h₁₀ := h₉.tail_restrict (@Step.countFailure _ _ _ _ [] _ rfl rfl) trivial
  have h₁₁ := h₁₀.tail_restrict (@Step.giveUp _ _ _ _ [] _ _ rfl rfl (by decide +kernel)) trivial
  have h₁₂ := h₁₁.tail_restrict (@Step.markFailed _ _ _ _ [] _ rfl rfl) trivial
  obtain ⟨hrun, -⟩ := h₁₂.of_restrict
  obtain ⟨-, -, hiff, -, -, -, hdropped⟩ :=
    bounded_retries (j := "j") hrun (by decide +kernel)
  obtain ⟨hentered, hfailed, -⟩ := hiff.mp (List.mem_singleton_self _)
  refine ⟨_, _, hrun, rfl, ?_, ?_, hdropped (Or.inr (List.mem_singleton_self _))⟩
  · exact Int.ofNat_inj.mp (hentered.trans rfl)
  · rw [hfailed]
    exact Int.ofNat_inj.mp (hentered.trans rfl)

end Scheduler

end HeteroSched
