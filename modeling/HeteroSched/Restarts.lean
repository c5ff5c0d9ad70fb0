/-
HeteroSched/Restarts.lean

The scheduler process starts over: the state of the modules of `scheduler/main.py` and
`startup_event`.

Design.  The cluster state with its queue, the threads, the handlers and the variables of
the runs are memory of the process.  The database is not, nor are the agents with the
containers they run.  `startup_event` opens the database and starts the loops on an empty
cluster state; it reads no row back.  So after a restart the scheduler is as it starts,
on the database that is there, and the agents go on (`restarted`).  A POST that the process
had sent is on its way all the same: an agent may accept it at any later moment
(`LifeStep.acceptLate`), and report the job to whatever process is there then.

For the abstract machine a restart gives up what was underway (`JobFlow.restart`), and what
was being sent counts as accepted from then on (`JobFlow.delivered`).  Both keep the
balance of tokens, so the results about one process hold of a sequence of them.  A job
that is not underway stays so (`JobFlow.Step.not_underway`), so what the rows of earlier
jobs say afterwards comes from agents that report (`restart_resumes_nothing`).
-/
import HeteroSched.AtMostOnce
import HeteroSched.ForeignKeys
import HeteroSched.RunLifecycle

namespace HeteroSched

open Transition

namespace Scheduler

variable {P : PolicyRegistry} {cfg : Config} {s t : Scheduler P} {e : Event} {j : JobId}

/-! ### Restarts -/

/-- The POSTs in flight, of this process and of those before it. -/
def posts (s : Scheduler P) : List DispatchThread :=
  s.late ++ s.threads.filter fun th => th.pc.isSending

/-- The scheduler after a restart, with the policy the new process is started with. -/
def restarted (s : Scheduler P) (policy : P.Instance) (policyName : String) : Scheduler P :=
  { startOn s.db policy policyName with
    executing := s.executing
    late := s.posts
    history := { s.history with
      abandoned := s.history.abandoned ++ s.memoryIds
      instances := s.history.instances + 1
      opened := none } }

/-- What happens next: a step of the system, a restart, or an agent accepts a POST of a
process that has ended. -/
inductive Life (P : PolicyRegistry)
  | step (e : Event)
  | restart (policy : P.Instance) (policyName : String)
  | acceptLate (th : DispatchThread)

/-- One step of the life of the system. -/
inductive LifeStep (cfg : Config) (s : Scheduler P) : Life P → Scheduler P → Prop
  | step {e : Event} {t : Scheduler P} (h : Step cfg s e t) : LifeStep cfg s (.step e) t
  | restart (policy : P.Instance) (policyName : String) :
      LifeStep cfg s (.restart policy policyName) (s.restarted policy policyName)
  | acceptLate {th : DispatchThread} {pre post : List DispatchThread}
      (hlate : s.late = pre ++ th :: post) :
      LifeStep cfg s (.acceptLate th)
        { s with
          late := pre ++ post
          executing := ⟨th.job, th.node.nodeId, false⟩ :: s.executing
          history := { s.history with
            accepted := s.history.accepted ++ [(th.job.jobId, th.node.nodeId)] } }

/-- A condition on the steps of each process. -/
def InLife (A : Scheduler P → Event → Prop) (s : Scheduler P) : Life P → Prop
  | .step e => A s e
  | _ => True

theorem mem_posts {th : DispatchThread} :
    th ∈ s.posts ↔ th ∈ s.late ∨ th ∈ s.threads ∧ th.pc.isSending = true := by
  rw [posts, List.mem_append, List.mem_filter]

/-- A step of a process leaves the POSTs of earlier ones. -/
theorem Step.late_eq (h : Step cfg s e t) : t.late = s.late := by
  cases h <;> rfl

theorem flow_restarted (s : Scheduler P) (policy : P.Instance) (policyName : String) :
    (s.restarted policy policyName).flow = s.flow.restart := by
  have habandoned : ((s.history.abandoned ++ s.memoryIds : List JobId) : Multiset JobId)
      = s.flow.abandoned + s.flow.underway := by
    rw [← Multiset.coe_add, coe_memoryIds]
    rfl
  simp only [JobFlow.restart, ← habandoned]
  rfl

/-! ### One job, one acceptance -/

/-- The attempts of the POSTs of earlier processes. -/
def lateAttempts (s : Scheduler P) : Multiset (JobId × NodeId) :=
  (s.late.map DispatchThread.attempt : List (JobId × NodeId))

/-- Counting the POSTs of earlier processes as accepted, every job is accepted at most once,
and their jobs were given up. -/
structure OnceInLife (s : Scheduler P) : Prop where
  once : JobFlow.AcceptedOnce (s.flow.delivered s.lateAttempts)
  abandoned : ∀ th ∈ s.late, th.job.jobId ∈ s.history.abandoned

theorem OnceInLife.step (h : OnceInLife s) (hf : FreshIds s e) (hr : RequeueUnaccepted s e)
    (hs : Step cfg s e t) : OnceInLife t := by
  have hgiven : ∀ j, 0 < JobFlow.times s.lateAttempts j → 0 < s.flow.abandoned.count j := by
    intro j hj
    obtain ⟨n, hn⟩ := JobFlow.exists_of_times_pos hj
    obtain ⟨th, hth, hattempt⟩ := List.mem_map.mp (Multiset.mem_coe.mp hn)
    obtain rfl := (Prod.mk.inj hattempt).1
    exact Multiset.count_pos.mpr (Multiset.mem_coe.mpr (h.abandoned th hth))
  have hlate : t.lateAttempts = s.lateAttempts := by rw [lateAttempts, hs.late_eq, lateAttempts]
  constructor
  · rw [hlate]
    refine hs.flow_keeps (I := fun f => JobFlow.AcceptedOnce (f.delivered s.lateAttempts)) h.once
      fun a g ha hg => h.once.step ?_ (hg.delivered s.lateAttempts)
    exact (RequeueUnaccepted.act hf hr ha).delivered h.once.tokens hgiven hg
  · intro th hth
    rw [hs.late_eq] at hth
    have hmono : s.flow.abandoned.count th.job.jobId ≤ t.flow.abandoned.count th.job.jobId :=
      hs.flow_keeps (I := fun f => s.flow.abandoned.count th.job.jobId
        ≤ f.abandoned.count th.job.jobId) le_rfl fun a g _ hg => hg.abandoned_le th.job.jobId
    have hpos : 0 < s.flow.abandoned.count th.job.jobId :=
      Multiset.count_pos.mpr (Multiset.mem_coe.mpr (h.abandoned th hth))
    exact Multiset.mem_coe.mp (Multiset.count_pos.mp (hpos.trans_le hmono))

/-- At a restart the jobs that are being posted are given up, and may be accepted. -/
theorem OnceInLife.restart (h : OnceInLife s) (policy : P.Instance) (policyName : String) :
    OnceInLife (s.restarted policy policyName) := by
  constructor
  · have hlate : (s.restarted policy policyName).lateAttempts
        = s.lateAttempts + attemptsAt DispatchPc.isSending s.threads := by
      show ((s.posts.map DispatchThread.attempt : List (JobId × NodeId)) :
        Multiset (JobId × NodeId)) = _
      rw [posts, List.map_append, ← Multiset.coe_add]
      rfl
    rw [hlate, flow_restarted, ← JobFlow.restart_delivered]
    refine h.once.restart fun j => ?_
    show _ ≤ JobFlow.times s.flow.sending j
    simp only [flow, JobFlow.times_add]
    exact Nat.le_add_left _ _
  · intro th hth
    rcases mem_posts.mp hth with hold | ⟨hthread, -⟩
    · exact List.mem_append_left _ (h.abandoned th hold)
    · exact List.mem_append_right _ (mem_memoryIds_of_thread hthread)

theorem OnceInLife.lifeStep {l : Life P} (h : OnceInLife s)
    (hc : InLife (fun s e => FreshIds s e ∧ RequeueUnaccepted s e) s l) (hs : LifeStep cfg s l t) :
    OnceInLife t := by
  cases hs with
  | step hs => exact h.step hc.1 hc.2 hs
  | restart policy policyName => exact h.restart policy policyName
  | @acceptLate th pre post hlate =>
      -- the POST counted as accepted already
      constructor
      · have honce := h.once
        simp only [JobFlow.delivered, lateAttempts, flow, hlate, List.map_append, List.map_cons,
          coe_split, Multiset.map_cons] at honce
        simp only [JobFlow.delivered, lateAttempts, flow, List.map_append, List.map_cons,
          List.map_nil, coe_snoc, ← Multiset.cons_coe, Multiset.cons_add]
        simp only [Multiset.add_cons] at honce
        exact honce
      · intro th' hth'
        exact h.abandoned th' (by rw [hlate]; exact mem_split_of_mem hth')

/-- **At most once, across restarts**: in every sequence of processes, each ended at any
step, in which job ids are not submitted twice and only jobs no agent has accepted are
requeued, no job is accepted twice, whenever an agent gets the POST of a process that has
ended, and none is in the memory of a process twice. -/
theorem accepted_once_across_restarts {db : Database} {policy : P.Instance} {policyName : String}
    {tr : List (Scheduler P × Life P)}
    (h : Run (LifeStep cfg) (startOn db policy policyName) tr s)
    (hcond : ∀ p ∈ tr, InLife (fun s e => FreshIds s e ∧ RequeueUnaccepted s e) p.1 p.2) :
    (s.history.accepted.map Prod.fst).Nodup ∧ s.memoryIds.Nodup := by
  have honce : OnceInLife s := by
    refine h.invariant_of (I := OnceInLife) ⟨?_, fun _ hth => absurd hth List.not_mem_nil⟩
      (fun ht hc hs => ht.lifeStep hc hs) hcond
    have hinit : (startOn db policy policyName).flow = JobFlow.init := flow_init policy policyName
    rw [hinit]
    exact JobFlow.acceptedOnce_init
  constructor
  · rw [List.nodup_iff_count_le_one]
    intro j
    have hle := honce.once.accepted_le j
    rw [JobFlow.delivered_accepted] at hle
    have hcount : s.flow.accepted.count j = (s.history.accepted.map Prod.fst).count j := by
      simp only [flow, Multiset.coe_count]
    omega
  · rw [List.nodup_iff_count_le_one]
    intro j
    have hle := honce.once.tokens.tokens_le j
    have htokens : (s.flow.delivered s.lateAttempts).tokens j = s.flow.tokens j := rfl
    rw [htokens] at hle
    rw [← Multiset.coe_count, coe_memoryIds, JobFlow.count_underway]
    simp only [JobFlow.tokens] at hle
    omega

/-- The POST of a job is in flight at a restart; the agent accepts it afterwards, and
reports to the next process. -/
theorem accepted_once_across_restarts_reported :
    ∃ (tr : List (Scheduler policies × Life policies)) (s : Scheduler policies),
      Run (LifeStep {}) defaultInit tr s ∧ s.history.accepted = [("j", "n")] ∧
      s.history.calledBack = ["j"] ∧ (s.history.accepted.map Prod.fst).Nodup := by
  have h₀ : Run (restrict (LifeStep {}) (InLife fun s e => FreshIds s e ∧ RequeueUnaccepted s e))
    defaultInit [] defaultInit := .refl
  have h₁ := h₀.tail_restrict (.step (.register (ClusterState.nodeOf "n" 1 64)))
    ⟨trivial, trivial⟩
  have h₂ := h₁.tail_restrict (.step (.submit (ClusterState.jobOf "j")))
    ⟨List.not_mem_nil, trivial⟩
  have h₃ := h₂.tail_restrict (.step (.dequeue rfl rfl)) ⟨trivial, trivial⟩
  have h₄ := h₃.tail_restrict (.step (.offer rfl)) ⟨trivial, trivial⟩
  have h₅ := h₄.tail_restrict (.step (.answer rfl)) ⟨trivial, trivial⟩
  have h₆ := h₅.tail_restrict (.step (@Step.claim _ _ _ (ClusterState.jobOf "j") (idleView "n") _
    (by decide +kernel) (Prod.ext (by decide +kernel) rfl))) ⟨trivial, trivial⟩
  have h₇ := h₆.tail_restrict (.step (.spawn 0 rfl)) ⟨trivial, trivial⟩
  have h₈ := h₇.tail_restrict (@LifeStep.restart policies _ _ (.roundRobin {}) "round_robin")
    trivial
  have h₉ := h₈.tail_restrict (@LifeStep.acceptLate _ _ _ _ [] [] rfl) trivial
  have h₁₀ := h₉.tail_restrict (.step (@Step.callback _ _ _ (successOn "n") _ [] _ rfl rfl rfl rfl))
    ⟨trivial, trivial⟩
  obtain ⟨hrun, hcond⟩ := h₁₀.of_restrict
  exact ⟨_, _, hrun, rfl, rfl,
    (@accepted_once_across_restarts policies {} _ {} (.roundRobin {} : Policy) "round_robin" _
      hrun hcond).1⟩

/-! ### What earlier processes have left -/

/-- A handler of `submit_job` was there before, or it begins. -/
theorem Step.mem_submissions (h : Step cfg s e t) {handler : SubmitHandler}
    (hm : handler ∈ t.submissions) :
    (∃ handler' ∈ s.submissions, handler'.job = handler.job) ∨ e = .submit handler.job := by
  cases h with
  | submit job =>
      rcases List.mem_cons.mp hm with rfl | hm
      · exact Or.inr rfl
      · exact Or.inl ⟨handler, hm, rfl⟩
  | @tagSubmission job pre post now hs =>
      by_cases hne : handler = .tagged job s.activeRunId (job.submittedAt.getD now)
      · exact Or.inl ⟨.enqueued job, by rw [hs]; simp, by rw [hne]; rfl⟩
      · exact Or.inl ⟨handler, by rw [hs]; exact mem_split_of_mem (mem_of_mem_split hm hne), rfl⟩
  | insertSubmission now hs hdb =>
      exact Or.inl ⟨handler, by rw [hs]; exact mem_split_of_mem hm, rfl⟩
  | failSubmission hs => exact Or.inl ⟨handler, by rw [hs]; exact mem_split_of_mem hm, rfl⟩
  | _ => exact Or.inl ⟨handler, hm, rfl⟩

/-- Without a thread or a handler for the job, its row is only written when an agent has
reported. -/
theorem Step.row_of_idle (h : Step cfg s e t) (hthreads : ∀ th ∈ s.threads, th.job.jobId ≠ j)
    (hsubmissions : ∀ handler ∈ s.submissions, handler.job.jobId ≠ j) :
    t.db.jobs.get? j = s.db.jobs.get? j ∨ ∃ result ∈ s.results, result.jobId = j ∧
      t.db.jobs.get? j = (s.db.jobs.get? j).map
        (Database.finishedRow (if result.success then "completed" else "failed")) := by
  cases h with
  | @insertSubmission job runId at' pre post db now hs hdb =>
      obtain ⟨-, rfl⟩ := Database.submitJob_eq_some hdb
      have hne := hsubmissions (.tagged job runId at') (by rw [hs]; simp)
      exact Or.inl (Dict.get?_set_ne _ _ hne.symm)
  | @recordDispatch th pre post now ht hpc =>
      have hne := hthreads th (by rw [ht]; simp)
      exact Or.inl (by rw [Database.dispatchJob_jobs, Dict.get?_modify, if_neg hne.symm])
  | @markFailed th pre post ht hpc =>
      have hne := hthreads th (by rw [ht]; simp)
      exact Or.inl (by rw [Database.markJobFailed_jobs, Dict.get?_modify, if_neg hne.symm])
  | @recordResult result pre post now hr =>
      by_cases hj : result.jobId = j
      · refine Or.inr ⟨result, by rw [hr]; simp, hj, ?_⟩
        rw [Database.recordJobResult_jobs, Dict.get?_modify, if_pos hj.symm, hj]
      · exact Or.inl (by rw [Database.recordJobResult_jobs, Dict.get?_modify,
          if_neg (Ne.symm hj)])
  | insertRun runId now hl hdb =>
      obtain ⟨hjobs, -⟩ := Database.startRun_eq_some hdb
      exact Or.inl (by rw [hjobs])
  | _ => exact Or.inl rfl

/-- What has become of a job that was submitted before a restart in state `s`, in a later
state `t`: it is in no memory, no agent has accepted it since but from a POST that was in
flight, and of its row only the status may have changed, and that only if an agent was
running the job or such a POST was there. -/
structure LeftBehind (s : Scheduler P) (j : JobId) (t : Scheduler P) : Prop where
  submitted : j ∈ t.submittedIds
  memory : j ∉ t.memoryIds
  submissions : ∀ handler ∈ t.submissions, handler.job.jobId ≠ j
  accepted :
    (t.history.accepted.map Prod.fst).count j + (t.late.map fun th => th.job.jobId).count j
      = (s.history.accepted.map Prod.fst).count j + (s.posts.map fun th => th.job.jobId).count j
  row : ∀ row, s.db.jobs.get? j = some row → ∃ status,
    (status = row.status ∨ status = "completed" ∨ status = "failed") ∧
      t.db.jobs.get? j = some (Database.finishedRow status row)
  noRow : s.db.jobs.get? j = none → t.db.jobs.get? j = none
  idle : (∀ ex ∈ s.executing, ex.job.jobId ≠ j) → (∀ th ∈ s.posts, th.job.jobId ≠ j) →
    (∀ ex ∈ t.executing, ex.job.jobId ≠ j) ∧ (∀ th ∈ t.late, th.job.jobId ≠ j) ∧
      (∀ result ∈ t.results, result.jobId ≠ j) ∧ t.db.jobs.get? j = s.db.jobs.get? j

variable {s₀ : Scheduler P}

theorem leftBehind_restarted (hj : j ∈ s₀.submittedIds) (policy : P.Instance)
    (policyName : String) : LeftBehind s₀ j (s₀.restarted policy policyName) where
  submitted := hj
  memory := List.not_mem_nil
  submissions := fun _ h => absurd h List.not_mem_nil
  accepted := rfl
  row := fun row hrow => ⟨row.status, Or.inl rfl, hrow⟩
  noRow := fun h => h
  idle := fun hidle hposts => ⟨hidle, hposts, fun _ hr => absurd hr List.not_mem_nil, rfl⟩

/-- A job in no memory has no POST in flight but those of earlier processes. -/
theorem posts_of_not_mem (h : j ∉ s.memoryIds) :
    (s.posts.map fun th => th.job.jobId).count j = (s.late.map fun th => th.job.jobId).count j := by
  have hnone : ((s.threads.filter fun th => th.pc.isSending).map fun th => th.job.jobId).count j
      = 0 := by
    rw [List.count_eq_zero, List.mem_map]
    rintro ⟨th, hth, rfl⟩
    exact h (mem_memoryIds_of_thread (List.mem_filter.mp hth).1)
  rw [posts, List.map_append, List.count_append, hnone, add_zero]

/-- Another restart finds it as it is. -/
theorem LeftBehind.restart (h : LeftBehind s₀ j s) (policy : P.Instance) (policyName : String) :
    LeftBehind s₀ j (s.restarted policy policyName) where
  submitted := h.submitted
  memory := List.not_mem_nil
  submissions := fun _ h => absurd h List.not_mem_nil
  accepted := by
    rw [← h.accepted, ← posts_of_not_mem h.memory]
    rfl
  row := h.row
  noRow := h.noRow
  idle := by
    intro hidle hposts
    obtain ⟨hexecuting, hlate, -, hrow⟩ := h.idle hidle hposts
    refine ⟨hexecuting, fun th hth => ?_, fun _ hr => absurd hr List.not_mem_nil, hrow⟩
    rcases mem_posts.mp hth with hth | ⟨hth, -⟩
    · exact hlate th hth
    · rintro rfl
      exact h.memory (mem_memoryIds_of_thread hth)

/-- An agent that accepts the job late has got one of its POSTs. -/
theorem LeftBehind.acceptLate (h : LeftBehind s₀ j s) {th : DispatchThread}
    (hs : LifeStep cfg s (.acceptLate th) t) : LeftBehind s₀ j t := by
  cases hs with
  | @acceptLate th pre post hlate =>
      refine ⟨h.submitted, h.memory, h.submissions, ?_, h.row, h.noRow, ?_⟩
      · rw [← h.accepted, hlate]
        simp only [List.map_append, List.map_cons, List.map_nil, List.count_append, List.count_cons,
          List.count_nil]
        omega
      · intro hidle hposts
        obtain ⟨hexecuting, hnot, hresults, hrow⟩ := h.idle hidle hposts
        rw [hlate, forall_mem_split] at hnot
        exact ⟨List.forall_mem_cons.mpr ⟨hnot.1, hexecuting⟩, hnot.2, hresults, hrow⟩

/-- And no step of the system brings it back. -/
theorem LeftBehind.step (h : LeftBehind s₀ j s) (hf : FreshIds s e) (hs : Step cfg s e t) :
    LeftBehind s₀ j t := by
  -- for the abstract machine nothing happens to the job, unless it is reported
  obtain ⟨hmemory, haccepted⟩ := hs.not_mem_memoryIds hf h.submitted h.memory
  have hthreads : ∀ th ∈ s.threads, th.job.jobId ≠ j := by
    rintro th hth rfl
    exact h.memory (mem_memoryIds_of_thread hth)
  have hrow := hs.row_of_idle hthreads h.submissions
  have hsubmitted : j ∈ t.submittedIds := by
    obtain ⟨job, hjob, rfl⟩ := List.mem_map.mp h.submitted
    exact List.mem_map_of_mem (hs.submitted_subset hjob)
  refine ⟨hsubmitted, hmemory, ?_, ?_, ?_, ?_, ?_⟩
  · intro handler hm heq
    rcases hs.mem_submissions hm with ⟨handler', hm', hjob⟩ | rfl
    · exact h.submissions handler' hm' (hjob ▸ heq)
    · exact hf (heq ▸ h.submitted)
  · rw [haccepted, hs.late_eq]
    exact h.accepted
  · intro row hold
    obtain ⟨status, hstatus, hget⟩ := h.row row hold
    rcases hrow with hrow | ⟨result, -, -, hrow⟩
    · exact ⟨status, hstatus, hrow.trans hget⟩
    · rw [hget, Option.map_some] at hrow
      refine ⟨_, Or.inr ?_, hrow⟩
      rcases result.success with - | -
      · exact Or.inr rfl
      · exact Or.inl rfl
  · intro hold
    have hnone := h.noRow hold
    rcases hrow with hrow | ⟨result, -, -, hrow⟩
    · exact hrow.trans hnone
    · rw [hrow, hnone, Option.map_none]
  · intro hidle hposts
    obtain ⟨hrunning, hlate, hresults, hsame⟩ := h.idle hidle hposts
    refine ⟨?_, hs.late_eq ▸ hlate, ?_, ?_⟩
    · intro ex hex
      rcases hs.mem_executing hex with ⟨ex', hex', hjob, -⟩ | ⟨th, hth, -, hjob, -⟩
      · rw [← hjob]
        exact hrunning ex' hex'
      · rw [← hjob]
        exact hthreads th hth
    · intro result hr
      rcases hs.mem_results hr with hr | ⟨ex, hex, hjob, -⟩
      · exact hresults result hr
      · rw [hjob]
        exact hrunning ex hex
    · rcases hrow with hrow | ⟨result, hr, hj, -⟩
      · exact hrow.trans hsame
      · exact absurd hj (hresults result hr)

theorem LeftBehind.lifeStep {l : Life P} (h : LeftBehind s₀ j s) (hf : InLife FreshIds s l)
    (hs : LifeStep cfg s l t) : LeftBehind s₀ j t := by
  cases hs with
  | step hs => exact h.step hf hs
  | restart policy policyName => exact h.restart policy policyName
  | acceptLate hlate => exact h.acceptLate (@LifeStep.acceptLate P cfg s _ _ _ hlate)

/-- A run of an earlier process: nobody has it open, and its row is as it was. -/
structure RunLeft (r : RunId) (row : RunRow) (s : Scheduler P) : Prop where
  row : s.db.runs.get? r = some row
  active : s.activeRunId ≠ some r
  lock : s.runLock.runId ≠ some r

theorem RunLeft.step {r : RunId} {row : RunRow} (h : RunLeft r row s) (hs : Step cfg s e t) :
    RunLeft r row t := by
  have hlock := h.lock
  cases hs with
  | insertSubmission now hsub hdb =>
      obtain ⟨-, rfl⟩ := Database.submitJob_eq_some hdb
      exact ⟨h.row, h.active, hlock⟩
  | insertRun runId now hl hdb =>
      -- a new run has an id without a row
      obtain ⟨hnew, row', -, hruns⟩ := Database.startRun_runs hdb
      have hne : r ≠ runId := fun heq => hnew (heq ▸ Dict.mem_of_get? h.row)
      refine ⟨?_, h.active, fun heq => hne (Option.some.inj heq).symm⟩
      rw [hruns, Dict.get?_set_ne _ _ hne]
      exact h.row
  | openRun hl =>
      rw [hl] at hlock
      exact ⟨h.row, hlock, nofun⟩
  | finishRun hl ha => exact ⟨h.row, h.active, ha ▸ h.active⟩
  | @closeRow runId now hl =>
      rw [hl] at hlock
      have hne : r ≠ runId := fun heq => hlock (heq ▸ rfl)
      refine ⟨?_, h.active, hlock⟩
      show (s.db.runs.modify runId _).get? r = some row
      rw [Dict.get?_modify, if_neg hne]
      exact h.row
  | closeRun hl => exact ⟨h.row, nofun, nofun⟩
  | startRun hl ha => exact ⟨h.row, h.active, nofun⟩
  | countQueue hl => exact ⟨h.row, h.active, nofun⟩
  | readCounters hl hdrained => exact ⟨h.row, h.active, nofun⟩
  | refuseInFlight hl hdrained => exact ⟨h.row, h.active, nofun⟩
  | swapPolicy hl hp => exact ⟨h.row, h.active, nofun⟩
  | refusePolicy hl hp => exact ⟨h.row, h.active, nofun⟩
  | listNodes hl => exact ⟨h.row, h.active, nofun⟩
  | failInsertRun hl => exact ⟨h.row, h.active, nofun⟩
  | failCloseRow hl => exact ⟨h.row, h.active, nofun⟩
  | _ => exact ⟨h.row, h.active, hlock⟩

theorem RunLeft.lifeStep {l : Life P} {r : RunId} {row : RunRow} (h : RunLeft r row s)
    (hs : LifeStep cfg s l t) : RunLeft r row t := by
  cases hs with
  | step hs => exact h.step hs
  | restart policy policyName => exact ⟨h.row, nofun, nofun⟩
  | acceptLate hlate => exact ⟨h.row, h.active, h.lock⟩

/-- **A restart resumes nothing.**  After a restart in any state, whatever follows, further
restarts included, as long as job ids are new: no job submitted before is in the memory of
a process, and agents accept it only from POSTs that were in flight at the restart.  Its
row changes in its status only, to that of a result, and not at all unless an agent was
running it at the restart or such a POST was there: a queued job stays queued.  And the
runs of before keep their rows: one that was open stays unfinished. -/
theorem restart_resumes_nothing {policy : P.Instance} {policyName : String}
    {tr : List (Scheduler P × Life P)}
    (h : Run (LifeStep cfg) (s₀.restarted policy policyName) tr s)
    (hfresh : ∀ p ∈ tr, InLife FreshIds p.1 p.2) :
    (∀ j ∈ s₀.submittedIds, LeftBehind s₀ j s) ∧
      ∀ r row, s₀.db.runs.get? r = some row → s.db.runs.get? r = some row := by
  constructor
  · intro j hj
    exact h.invariant_of (I := LeftBehind s₀ j) (leftBehind_restarted hj policy policyName)
      (fun ht hc hs => ht.lifeStep hc hs) hfresh
  · intro r row hrow
    have hleft : RunLeft r row s :=
      h.invariant (I := RunLeft r row) ⟨hrow, nofun, nofun⟩ fun ht hs => ht.lifeStep hs
    exact hleft.row

/-- The scheduler is restarted while the POST of a job is in flight and another job is queued:
the agent accepts the first one, and the second one stays queued for ever. -/
theorem restart_resumes_nothing_queued :
    ∃ (s₀ : Scheduler policies) (tr : List (Scheduler policies × Life policies))
      (s : Scheduler policies),
      s₀.cluster.jobQueue = [ClusterState.jobOf "j"] ∧
      Run (LifeStep {}) (s₀.restarted (.roundRobin {}) "round_robin") tr s ∧
      s.history.accepted = [("i", "n")] ∧
      "j" ∉ s.memoryIds ∧ s.db.RowIs "j" (fun row => row.status = "queued") := by
  have h₀ : Run (Step {}) defaultInit [] defaultInit := .refl
  have h₁ := h₀.tail (.register (ClusterState.nodeOf "n" 1 64))
  have h₂ := h₁.tail (.submit (ClusterState.jobOf "i"))
  have h₃ := h₂.tail (.submit (ClusterState.jobOf "j"))
  have h₄ := h₃.tail (@Step.tagSubmission _ _ _ _ [] _ 0 rfl)
  have h₅ := h₄.tail (@Step.insertSubmission _ _ _ _ _ _ [] _ _ 0 rfl rfl)
  have h₆ := h₅.tail (.dequeue rfl rfl)
  have h₇ := h₆.tail (.offer rfl)
  have h₈ := h₇.tail (.answer rfl)
  have h₉ := h₈.tail (@Step.claim _ _ _ (ClusterState.jobOf "i") (idleView "n") _
    (by decide +kernel) (Prod.ext (by decide +kernel) rfl))
  have h₁₀ := h₉.tail (.spawn 0 rfl)
  obtain ⟨tr, s₀, -, hqueue, hsubmitted, hexecuting, hposts, haccepted, row, hget, hqueued⟩ :
      ∃ tr s₀, Run (Step {}) defaultInit tr s₀ ∧ s₀.cluster.jobQueue = [ClusterState.jobOf "j"] ∧
        "j" ∈ s₀.submittedIds ∧ s₀.executing = [] ∧
        s₀.posts = [⟨ClusterState.jobOf "i", idleView "n", 0, .posting⟩] ∧
        s₀.history.accepted = [] ∧ s₀.db.RowIs "j" fun row => row.status = "queued" :=
    ⟨_, _, h₁₀, rfl, List.mem_cons_of_mem _ List.mem_cons_self, rfl, rfl, rfl, _, rfl, rfl⟩
  let s₁ := s₀.restarted (.roundRobin {}) "round_robin"
  have g₀ : Run (restrict (LifeStep {}) (InLife FreshIds)) s₁ [] s₁ := .refl
  have g₁ := g₀.tail_restrict (@LifeStep.acceptLate _ _ _ _ [] [] hposts) trivial
  obtain ⟨hrun, hfresh⟩ := g₁.of_restrict
  have hleft := (restart_resumes_nothing hrun hfresh).1 "j" hsubmitted
  have hidle : ∀ ex ∈ s₀.executing, ex.job.jobId ≠ "j" := by
    rw [hexecuting]
    exact fun _ h => absurd h List.not_mem_nil
  have hnone : ∀ th ∈ s₀.posts, th.job.jobId ≠ "j" := by
    rw [hposts]
    exact List.forall_mem_singleton.mpr (by decide)
  obtain ⟨-, -, -, hsame⟩ := hleft.idle hidle hnone
  exact ⟨s₀, _, _, hqueue, hrun, congrArg (· ++ [("i", "n")]) haccepted, hleft.memory, row,
    hsame.trans hget, hqueued⟩

end Scheduler

end HeteroSched
