/-
HeteroSched/Draining.lean

The cluster can always be drained.

From every reachable state, whatever has failed before, the threads and the agents can go
on to a state in which nothing is queued, dispatched or executed, as long as no report of
an agent was lost and every submitted job fits some registered node that is idle.

Design.  A thread of `dispatch_job` goes on from wherever it is to its end
(`finish_thread`), and every execution can be reported (`finish_executing`).
Then nothing is under way, so all counters are zero (`NoLeak.counters_zero`) and
every job finds a node with room: the dispatcher works off the queue
(`served_queue`).  The threads it starts do not fail, so that finishing them
leaves the queue empty.
-/
import HeteroSched.HeadOfLine
import HeteroSched.Provenance
import HeteroSched.Quiescence

namespace HeteroSched

open Transition

/-- The job in the dispatcher's hand is the job it works on. -/
theorem Dispatcher.job_of_held {d : Dispatcher} {job : JobRequest} (h : job ∈ d.held) :
    job ∈ d.job := by
  cases d with
  | idle => exact h
  | placed job' node => exact absurd h (Option.not_mem_none job)
  | _ => exact h

namespace Scheduler

variable {cfg : Config} {s t u : Scheduler policies} {e : Event}

/-! ### Going on with the jobs there are -/

/-- The steps that go on with jobs that were submitted: the dispatcher, its
threads, the agents and the handlers under way.  No client submits a job, opens
or closes a run, no node registers or expires, and no post fails. -/
def Processing : Event → Prop
  | .tagSubmission .. | .insertSubmission .. | .failSubmission _ => True
  | .dequeue _ | .offer _ | .answer _ | .claim .. | .refuseClaim .. | .spawn .. => True
  | .accept _ | .respond _ | .recordDispatch .. | .forgetAttempts _ => True
  | .release _ | .countFailure _ | .requeue _ | .giveUp _ | .markFailed _ => True
  | .callback _ | .recordResult .. => True
  | _ => False

/-- The second state is reached from the first by going on. -/
def GoesTo (cfg : Config) (s t : Scheduler policies) : Prop :=
  ∃ tr, Run (restrict (Step cfg) fun _ e => Processing e) s tr t

theorem GoesTo.refl (s : Scheduler policies) : GoesTo cfg s s := ⟨[], .refl⟩

theorem GoesTo.trans (h : GoesTo cfg s t) (h' : GoesTo cfg t u) : GoesTo cfg s u := by
  obtain ⟨tr, hrun⟩ := h
  obtain ⟨tr', hrun'⟩ := h'
  exact ⟨tr ++ tr', hrun.append hrun'⟩

/-- One step first. -/
theorem GoesTo.head (hs : Step cfg s e t) (he : Processing e) (h : GoesTo cfg t u) :
    GoesTo cfg s u := by
  obtain ⟨tr, hrun⟩ := h
  exact ⟨(s, e) :: tr, hrun.head ⟨he, hs⟩⟩

/-- Going on keeps the nodes and the jobs submitted. -/
theorem Step.processing (h : Step cfg s e t) (he : Processing e) :
    t.cluster.registrations = s.cluster.registrations ∧
      t.history.submitted = s.history.submitted := by
  cases h with
  | dequeue hd hq =>
      obtain ⟨rest, -, rfl⟩ := ClusterState.dequeueJob_eq_some hq
      exact ⟨rfl, rfl⟩
  | claim hd hr =>
      obtain ⟨reg, -, -, rfl⟩ := ClusterState.reserveSlot_eq_true hr
      exact ⟨rfl, rfl⟩
  | refuseClaim hd hr =>
      obtain rfl := ClusterState.reserveSlot_eq_false hr
      exact ⟨rfl, rfl⟩
  | release ht hpc => exact ⟨ClusterState.releaseSlot_registrations _ _, rfl⟩
  | callback hex hjob hnode => exact ⟨ClusterState.releaseSlot_registrations _ _, rfl⟩
  | register _ | expire _ _ | submit _ => exact he.elim
  | _ => exact ⟨rfl, rfl⟩

theorem GoesTo.kept (h : GoesTo cfg s t) :
    t.cluster.registrations = s.cluster.registrations ∧
      t.history.submitted = s.history.submitted := by
  obtain ⟨tr, hrun⟩ := h
  refine hrun.invariant (I := fun t => t.cluster.registrations = s.cluster.registrations ∧
    t.history.submitted = s.history.submitted) ⟨rfl, rfl⟩ ?_
  rintro u e v ⟨hreg, hsub⟩ ⟨he, hstep⟩
  obtain ⟨hreg', hsub'⟩ := hstep.processing he
  exact ⟨hreg'.trans hreg, hsub'.trans hsub⟩

/-- No report of an accepted job was lost. -/
def NoneLost (s : Scheduler policies) : Prop := ∀ ex ∈ s.executing, ex.lost = false

/-- And none is lost while the system goes on. -/
theorem GoesTo.noneLost (h : GoesTo cfg s t) (hs : NoneLost s) : NoneLost t := by
  obtain ⟨tr, hrun⟩ := h
  refine hrun.invariant (I := NoneLost) hs ?_
  rintro u e v hu ⟨he, hstep⟩
  cases hstep with
  | accept ht hpc => exact List.forall_mem_cons.mpr ⟨rfl, hu⟩
  | callback hex hjob hnode hlost =>
      rw [NoneLost, hex, forall_mem_split] at hu
      exact hu.2
  | loseCallback _ _ => exact he.elim
  | _ => exact hu

/-- What holds of every run with distinct ids is kept, since nothing is submitted. -/
theorem GoesTo.fresh (h : GoesTo cfg s t) {s₀ : Scheduler policies}
    {tr : List (Scheduler policies × Event)} (h₀ : Run (restrict (Step cfg) FreshIds) s₀ tr s) :
    ∃ tr', Run (restrict (Step cfg) FreshIds) s₀ tr' t := by
  obtain ⟨tr', hrun⟩ := h
  refine ⟨tr ++ tr', h₀.append (hrun.mono fun {s e} he => ?_)⟩
  cases e with
  | submit job => exact he.elim
  | _ => trivial

/-! ### Threads go on to their end -/

/-- The first thread is done; the jobs of `requeued` are in the queue again. -/
structure ThreadDone (cfg : Config) (s t : Scheduler policies) (rest : List DispatchThread)
    (requeued : List JobRequest) : Prop where
  goes : GoesTo cfg s t
  threads : t.threads = rest
  dispatcher : t.dispatcher = s.dispatcher
  queue : t.cluster.jobQueue = s.cluster.jobQueue ++ requeued

/-- One step of the thread first. -/
theorem ThreadDone.head {rest : List DispatchThread} {requeued : List JobRequest}
    (hs : Step cfg s e t) (he : Processing e) (hd : t.dispatcher = s.dispatcher)
    (hq : t.cluster.jobQueue = s.cluster.jobQueue) (h : ThreadDone cfg t u rest requeued) :
    ThreadDone cfg s u rest requeued :=
  ⟨h.goes.head hs he, h.threads, h.dispatcher.trans hd, by rw [h.queue, hq]⟩

variable {th : DispatchThread} {rest : List DispatchThread}

/-- The `try` block, from its last step to its first. -/
theorem finish_recorded (cfg : Config) (ht : s.threads = th :: rest) (hpc : th.pc = .recorded) :
    ∃ t, ThreadDone cfg s t rest [] := by
  have hs : Step cfg s (.forgetAttempts th) _ := @Step.forgetAttempts _ _ _ _ [] rest ht hpc
  exact ⟨_, GoesTo.head hs trivial (.refl _), rfl, rfl, (List.append_nil _).symm⟩

theorem finish_responded (cfg : Config) (ht : s.threads = th :: rest) (hpc : th.pc = .responded) :
    ∃ t, ThreadDone cfg s t rest [] := by
  have hs : Step cfg s (.recordDispatch th 0) _ := @Step.recordDispatch _ _ _ _ [] rest 0 ht hpc
  obtain ⟨t, hdone⟩ := finish_recorded cfg (s := { s with
    db := s.db.dispatchJob th.job.jobId th.node.nodeId (some th.dispatchedAt) 0
    threads := th.goto .recorded :: rest }) rfl rfl
  exact ⟨t, hdone.head hs trivial rfl rfl⟩

theorem finish_accepted (cfg : Config) (ht : s.threads = th :: rest) (hpc : th.pc = .accepted) :
    ∃ t, ThreadDone cfg s t rest [] := by
  have hs : Step cfg s (.respond th) _ := @Step.respond _ _ _ _ [] rest ht hpc
  obtain ⟨t, hdone⟩ := finish_responded cfg (s := { s with
    threads := th.goto .responded :: rest }) rfl rfl
  exact ⟨t, hdone.head hs trivial rfl rfl⟩

theorem finish_posting (cfg : Config) (ht : s.threads = th :: rest) (hpc : th.pc = .posting) :
    ∃ t, ThreadDone cfg s t rest [] := by
  have hs : Step cfg s (.accept th) _ := @Step.accept _ _ _ _ [] rest ht hpc
  obtain ⟨t, hdone⟩ := finish_accepted cfg (s := { s with
    threads := th.goto .accepted :: rest
    executing := ⟨th.job, th.node.nodeId, false⟩ :: s.executing
    history := { s.history with
      accepted := s.history.accepted ++ [(th.job.jobId, th.node.nodeId)] } }) rfl rfl
  exact ⟨t, hdone.head hs trivial rfl rfl⟩

/-- The `except` block likewise; the job may be back in the queue. -/
theorem finish_abandoning (cfg : Config) (ht : s.threads = th :: rest) (hpc : th.pc = .abandoning) :
    ∃ t, ThreadDone cfg s t rest [] := by
  have hs : Step cfg s (.markFailed th) _ := @Step.markFailed _ _ _ _ [] rest ht hpc
  exact ⟨_, GoesTo.head hs trivial (.refl _), rfl, rfl, (List.append_nil _).symm⟩

theorem finish_counted (cfg : Config) {attempts : ℕ} (ht : s.threads = th :: rest)
    (hpc : th.pc = .counted attempts) :
    ∃ t requeued, ThreadDone cfg s t rest requeued := by
  by_cases hmax : (attempts : ℤ) ≥ cfg.maxDispatchAttempts
  · have hs : Step cfg s (.giveUp th) _ := @Step.giveUp _ _ _ _ [] rest _ ht hpc hmax
    obtain ⟨t, hdone⟩ := finish_abandoning cfg (s := { s with
      cluster := s.cluster.forgetDispatchAttempts th.job.jobId
      threads := th.goto .abandoning :: rest }) rfl rfl
    exact ⟨t, [], hdone.head hs trivial rfl rfl⟩
  · have hs : Step cfg s (.requeue th) _ := @Step.requeue _ _ _ _ [] rest _ ht hpc hmax
    exact ⟨_, [th.job], GoesTo.head hs trivial (.refl _), rfl, rfl, rfl⟩

theorem finish_released (cfg : Config) (ht : s.threads = th :: rest) (hpc : th.pc = .released) :
    ∃ t requeued, ThreadDone cfg s t rest requeued := by
  have hs : Step cfg s (.countFailure th) _ := @Step.countFailure _ _ _ _ [] rest ht hpc
  obtain ⟨t, requeued, hdone⟩ := finish_counted cfg (s := { s with
    cluster := (s.cluster.recordDispatchFailure th.job.jobId).2
    threads := th.goto (.counted (s.cluster.recordDispatchFailure th.job.jobId).1) :: rest }) rfl rfl
  exact ⟨t, requeued, hdone.head hs trivial rfl rfl⟩

theorem finish_raised (cfg : Config) (ht : s.threads = th :: rest) (hpc : th.pc = .raised) :
    ∃ t requeued, ThreadDone cfg s t rest requeued := by
  have hs : Step cfg s (.release th) _ := @Step.release _ _ _ _ [] rest ht hpc
  obtain ⟨t, requeued, hdone⟩ := finish_released cfg (s := { s with
    cluster := s.cluster.releaseSlot th.job.jobId
    threads := th.goto .released :: rest }) rfl rfl
  exact ⟨t, requeued, hdone.head hs trivial rfl (ClusterState.releaseSlot_jobQueue _ _)⟩

/-- The thread is in its `try` block. -/
def InTry (th : DispatchThread) : Prop := th.pc.isSending = true ∨ th.pc.isWaiting = true

/-- From wherever a thread is, it ends; from its `try` block without a requeue. -/
theorem finish_thread (cfg : Config) (ht : s.threads = th :: rest) :
    ∃ t requeued, ThreadDone cfg s t rest requeued ∧ (InTry th → requeued = []) := by
  have hexcept : (∃ t requeued, ThreadDone cfg s t rest requeued) → ¬ InTry th →
      ∃ t requeued, ThreadDone cfg s t rest requeued ∧ (InTry th → requeued = []) := by
    rintro ⟨t, requeued, hdone⟩ hnot
    exact ⟨t, requeued, hdone, fun htry => absurd htry hnot⟩
  have htry : (∃ t, ThreadDone cfg s t rest []) →
      ∃ t requeued, ThreadDone cfg s t rest requeued ∧ (InTry th → requeued = []) := by
    rintro ⟨t, hdone⟩
    exact ⟨t, [], hdone, fun _ => rfl⟩
  rcases hpc : th.pc with - | - | - | - | - | - | attempts | -
  · exact htry (finish_posting cfg ht hpc)
  · exact htry (finish_accepted cfg ht hpc)
  · exact htry (finish_responded cfg ht hpc)
  · exact htry (finish_recorded cfg ht hpc)
  · exact hexcept (finish_raised cfg ht hpc) (by simp [InTry, hpc])
  · exact hexcept (finish_released cfg ht hpc) (by simp [InTry, hpc])
  · exact hexcept (finish_counted cfg ht hpc) (by simp [InTry, hpc])
  · exact htry (finish_abandoning cfg ht hpc)

/-- All threads go on to their end. -/
theorem finish_threads (cfg : Config) (s : Scheduler policies) :
    ∃ t requeued, ThreadDone cfg s t [] requeued ∧
      ((∀ th ∈ s.threads, InTry th) → requeued = []) := by
  induction hn : s.threads generalizing s with
  | nil => exact ⟨s, [], ⟨.refl s, hn, rfl, (List.append_nil _).symm⟩, fun _ => rfl⟩
  | cons th rest ih =>
      obtain ⟨t, requeued, hdone, htry⟩ := finish_thread cfg hn
      obtain ⟨u, requeued', hdone', htry'⟩ := ih t hdone.threads
      refine ⟨u, requeued ++ requeued', ⟨hdone.goes.trans hdone'.goes, hdone'.threads,
        hdone'.dispatcher.trans hdone.dispatcher, ?_⟩, fun hall => ?_⟩
      · rw [hdone'.queue, hdone.queue, List.append_assoc]
      · obtain ⟨hfirst, hrest⟩ := List.forall_mem_cons.mp hall
        rw [htry hfirst, htry' hrest, List.append_nil]

/-! ### Executions, results and submissions -/

/-- A report of the job an agent runs. -/
def reportFor (ex : Execution) : JobResult where
  jobId := ex.job.jobId
  nodeId := ex.nodeId
  success := true
  runtimeSeconds := 0
  exitCode := 0

/-- Every execution is reported, when no report was lost. -/
theorem finish_executing (cfg : Config) {s : Scheduler policies} (hs : NoneLost s) :
    ∃ t, GoesTo cfg s t ∧ t.executing = [] ∧ t.threads = s.threads ∧
      t.dispatcher = s.dispatcher ∧ t.cluster.jobQueue = s.cluster.jobQueue := by
  induction hn : s.executing generalizing s with
  | nil => exact ⟨s, .refl s, hn, rfl, rfl, rfl⟩
  | cons ex rest ih =>
      rw [NoneLost, hn, List.forall_mem_cons] at hs
      have hstep : Step cfg s (.callback (reportFor ex)) _ :=
        @Step.callback _ _ _ (reportFor ex) ex [] rest hn rfl rfl hs.1
      obtain ⟨t, hgoes, hexecuting, hthreads, hdispatcher, hqueue⟩ := @ih { s with
        cluster := s.cluster.releaseSlot ex.job.jobId
        executing := rest
        results := reportFor ex :: s.results
        history := { s.history with
          calledBack := s.history.calledBack ++ [ex.job.jobId] } } hs.2 rfl
      exact ⟨t, hgoes.head hstep trivial, hexecuting, hthreads, hdispatcher,
        hqueue.trans (ClusterState.releaseSlot_jobQueue _ _)⟩

/-- Nothing is queued, dispatched, executed or under way in a handler. -/
structure Drained (s : Scheduler policies) : Prop where
  queue : s.cluster.jobQueue = []
  dispatcher : s.dispatcher = .idle
  threads : s.threads = []
  executing : s.executing = []
  results : s.results = []
  submissions : s.submissions = []

/-- Every result is recorded. -/
theorem finish_results (cfg : Config) (s : Scheduler policies) :
    ∃ t, GoesTo cfg s t ∧ t.results = [] ∧ t.executing = s.executing ∧ t.threads = s.threads ∧
      t.dispatcher = s.dispatcher ∧ t.cluster.jobQueue = s.cluster.jobQueue := by
  induction hn : s.results generalizing s with
  | nil => exact ⟨s, .refl s, hn, rfl, rfl, rfl, rfl⟩
  | cons result rest ih =>
      have hs : Step cfg s (.recordResult result 0) _ := @Step.recordResult _ _ _ _ [] rest 0 hn
      obtain ⟨t, hgoes, hresults, hkept⟩ := ih { s with
        db := s.db.recordJobResult result.jobId result.nodeId result.success
          result.runtimeSeconds result.exitCode (some (result.completedAt.getD 0)) 0
        results := rest } rfl
      exact ⟨t, hgoes.head hs trivial, hresults, hkept⟩

/-- Every handler of a submission ends, with its row inserted or refused. -/
theorem finish_submissions (cfg : Config) (s : Scheduler policies) :
    ∃ t, GoesTo cfg s t ∧ t.submissions = [] ∧ t.results = s.results ∧
      t.executing = s.executing ∧ t.threads = s.threads ∧ t.dispatcher = s.dispatcher ∧
      t.cluster.jobQueue = s.cluster.jobQueue := by
  induction hn : s.submissions generalizing s with
  | nil => exact ⟨s, .refl s, hn, rfl, rfl, rfl, rfl, rfl⟩
  | cons handler rest ih =>
      -- a handler that has read the active run goes on to the insertion
      have hinsert : ∀ (v : Scheduler policies) (job : JobRequest) (runId : Option RunId)
          (at' : Timestamp), v.submissions = .tagged job runId at' :: rest →
          ∃ t, GoesTo cfg v t ∧ t.submissions = [] ∧ t.results = v.results ∧
            t.executing = v.executing ∧ t.threads = v.threads ∧ t.dispatcher = v.dispatcher ∧
            t.cluster.jobQueue = v.cluster.jobQueue := by
        intro v job runId at' hv
        rcases hdb : v.db.submitJob job.jobId job.image job.command runId (some at')
          (some job.requirements) 0 with - | db
        · have hs : Step cfg v (.failSubmission job) _ := @Step.failSubmission _ _ _ _ _ _ [] rest hv
          obtain ⟨t, hgoes, hkept⟩ := ih { v with submissions := rest } rfl
          exact ⟨t, hgoes.head hs trivial, hkept⟩
        · have hs : Step cfg v (.insertSubmission job 0) _ :=
            @Step.insertSubmission _ _ _ _ _ _ [] rest _ 0 hv hdb
          obtain ⟨t, hgoes, hkept⟩ := ih { v with db := db, submissions := rest } rfl
          exact ⟨t, hgoes.head hs trivial, hkept⟩
      rcases handler with job | ⟨job, runId, at'⟩
      · have hs : Step cfg s (.tagSubmission job 0) _ := @Step.tagSubmission _ _ _ _ [] rest 0 hn
        obtain ⟨t, hgoes, hkept⟩ := hinsert { s with
          submissions := .tagged job s.activeRunId (job.submittedAt.getD 0) :: rest } _ _ _ rfl
        exact ⟨t, hgoes.head hs trivial, hkept⟩
      · exact hinsert s job runId at' hn

/-! ### An idle cluster has room -/

/-- Some registered node takes the job when it is idle. -/
def FitsIdle (c : ClusterState) (job : JobRequest) : Prop :=
  ∃ n reg, c.registrations.get? n = some reg ∧
    (job.requirements.requiresGpu = true → reg.profile.capabilities.gpu = true) ∧
    job.requirements.cpuRequest ≤ reg.profile.capabilities.cpus ∧
    ∀ m ∈ job.requirements.memoryMb, m ≤ reg.profile.capabilities.memoryMb

theorem FitsIdle.canTake {c : ClusterState} {job : JobRequest} (h : FitsIdle c job)
    (hzero : ∀ n, c.runningJobs.getD n 0 = 0 ∧ c.allocatedMemory.getD n 0 = 0) :
    ∃ n, c.canTake n job = true := by
  obtain ⟨n, reg, hreg, hgpu, hcpu, hmemory⟩ := h
  refine ⟨n, ClusterState.canTake_iff.mpr ⟨reg, hreg, (c.fits_iff reg job).mpr ⟨hgpu, ?_, ?_⟩⟩⟩
  · rw [(hzero reg.nodeId).1, zero_add]
    exact hcpu
  · intro m hm
    rw [(hzero reg.nodeId).2, zero_add]
    exact hmemory m hm

theorem onNode_of_empty (hthreads : s.threads = []) (hexecuting : s.executing = [])
    (hplaced : s.dispatcher.placedOn = []) (j : JobId) (n : NodeId) : ¬ s.OnNode j n := by
  rintro (hm | ⟨th, hth, -⟩ | ⟨ex, hex, -⟩)
  · rw [hplaced] at hm
    exact absurd hm List.not_mem_nil
  · rw [hthreads] at hth
    exact absurd hth List.not_mem_nil
  · rw [hexecuting] at hex
    exact absurd hex List.not_mem_nil

/-! ### Placing what is queued -/

/-- The dispatcher places jobs and starts threads that do not fail. -/
theorem Step.inTry (h : Step cfg s e t) (he : OnlyDispatching s e)
    (hs : ∀ th ∈ s.threads, InTry th) : ∀ th ∈ t.threads, InTry th := by
  cases h with
  | spawn now hd => exact List.forall_mem_cons.mpr ⟨Or.inl rfl, hs⟩
  | accept ht hpc =>
      rw [ht, forall_mem_split] at hs
      exact forall_mem_split.mpr ⟨Or.inr rfl, hs.2⟩
  | dequeue _ _ | offer _ | answer _ | claim _ _ | refuseClaim _ _ | callback _ _ _ => exact hs
  | _ => exact absurd he (by simp [OnlyDispatching, OfDispatcher, Finishing])

theorem processing_of_onlyDispatching (he : OnlyDispatching s e) : Processing e := by
  cases e <;> first | trivial | exact absurd he (by simp [OnlyDispatching, OfDispatcher, Finishing])

theorem Served.goes {jobs rest : List JobRequest} (h : Served cfg s jobs rest t) :
    GoesTo cfg s t := by
  obtain ⟨tr, hrun⟩ := h.run
  exact ⟨tr, hrun.mono processing_of_onlyDispatching⟩

theorem Served.inTry {jobs rest : List JobRequest} (h : Served cfg s jobs rest t)
    (hs : s.threads = []) : ∀ th ∈ t.threads, InTry th := by
  obtain ⟨tr, hrun⟩ := h.run
  refine hrun.invariant (I := fun t => ∀ th ∈ t.threads, InTry th) ?_
    (fun hu hstep => hstep.2.inTry hstep.1 hu)
  rw [hs]
  exact fun th hth => absurd hth List.not_mem_nil

/-- When no thread and no agent has anything left, the dispatcher places its job
and all of the queue, and what it placed ends too. -/
theorem goesTo_drained {policy : Policy} {policyName : String}
    {tr : List (Scheduler policies × Event)}
    (h : Run (restrict (Step cfg) FreshIds) (init (P := policies) policy policyName) tr s)
    (hfits : ∀ job ∈ s.history.submitted, FitsIdle s.cluster job) (hthreads : s.threads = [])
    (hexecuting : s.executing = []) (hplaced : s.dispatcher.placedOn = []) :
    ∃ t, GoesTo cfg s t ∧ Drained t := by
  have hleak := run_noLeak h
  have hknown : Known s :=
    h.invariant (known_init (P := policies) policy policyName) fun hs hstep => hs.step hstep.2
  have hroom : ∀ job ∈ s.history.submitted, ∃ n, s.cluster.canTake n job = true :=
    fun job hjob => (hfits job hjob).canTake
      (hleak.counters_zero (onNode_of_empty hthreads hexecuting hplaced))
  obtain ⟨t, hhand⟩ : ∃ t, Served cfg s s.dispatcher.held.toList s.cluster.jobQueue t :=
    served_hand hleak.sound fun job hjob =>
      hroom job (hknown.inFlight.dispatcher job (Dispatcher.job_of_held hjob))
  obtain ⟨u, hqueue⟩ : ∃ u, Served cfg t s.cluster.jobQueue [] u :=
    served_queue _ (hhand.sound hleak.sound) hhand.dispatcher
      (hhand.queue.trans (List.append_nil _).symm) fun job hjob =>
        (hroom job (hknown.queue job hjob)).imp fun n hn =>
          hhand.eased.canTake hleak.sound.keyed (hhand.sound hleak.sound).keyed hn
  have hserved := hhand.trans hqueue
  -- the threads the dispatcher started end without a requeue
  obtain ⟨v, requeued, hdone, hnone⟩ := finish_threads cfg u
  have hempty := hnone (hserved.inTry hthreads)
  have hlost : NoneLost v := (hserved.goes.trans hdone.goes).noneLost (by
    rw [NoneLost, hexecuting]
    exact fun _ hex => absurd hex List.not_mem_nil)
  obtain ⟨w, hw, hwexecuting, hwthreads, hwdispatcher, hwqueue⟩ := finish_executing cfg hlost
  obtain ⟨x, hx, hxresults, hxexecuting, hxthreads, hxdispatcher, hxqueue⟩ :=
    finish_results cfg w
  obtain ⟨y, hy, hysubmissions, hyresults, hyexecuting, hythreads, hydispatcher, hyqueue⟩ :=
    finish_submissions cfg x
  refine ⟨y, (hserved.goes.trans hdone.goes).trans (hw.trans (hx.trans hy)), ?_, ?_, ?_, ?_, ?_,
    hysubmissions⟩
  · rw [hyqueue, hxqueue, hwqueue, hdone.queue, hserved.queue, hempty, List.append_nil]
  · rw [hydispatcher, hxdispatcher, hwdispatcher, hdone.dispatcher, hserved.dispatcher]
  · rw [hythreads, hxthreads, hwthreads, hdone.threads]
  · rw [hyexecuting, hxexecuting, hwexecuting]
  · rw [hyresults, hxresults]

/-! ### The theorem -/

theorem Drained.onNode (h : Drained s) : ∀ j n, ¬ s.OnNode j n :=
  onNode_of_empty h.threads h.executing (by rw [h.dispatcher]; rfl)

/-- In a drained state every submitted job was reported or given up. -/
theorem Drained.over (h : Drained s) (hleak : NoLeak s) (hs : JobFlow.Settling s.flow)
    {job : JobRequest} (hjob : job ∈ s.history.submitted) :
    job.jobId ∈ s.history.calledBack ∨ job.jobId ∈ s.history.abandoned := by
  have hover : JobFlow.Over s.flow job.jobId := by
    refine hs.over (Multiset.mem_coe.mpr (List.mem_map_of_mem hjob)) ?_ ?_ ?_ ?_
    · simp [flow, JobFlow.unaccepted, h.queue, h.dispatcher, h.threads, Dispatcher.held, attemptsAt]
    · simp [flow, h.executing]
    · simp [flow, hleak.no_reservation h.onNode]
    · simp [flow, h.threads, attemptsAt]
  have hdone := hover.done
  simp only [flow, Multiset.coe_count] at hdone
  rw [← List.count_pos_iff, ← List.count_pos_iff]
  omega

/-- From every state that a run with distinct job ids reaches, whatever failed or expired
before, and whatever responses to the scheduler were lost: if no report of an agent was
lost, and every submitted job fits some registered node when it is idle, then without any
further submission, registration or failure the dispatcher, its threads and the agents can
go on to a state in which nothing is queued, dispatched or executed, no counter is above
zero, and every submitted job was reported by an agent or given up. -/
theorem run_drains {policy : Policy} {policyName : String} {tr₀ : List (Scheduler policies × Event)}
    (h₀ : Run (restrict (Step cfg) FreshIds) (init (P := policies) policy policyName) tr₀ s)
    (hlost : NoneLost s) (hfits : ∀ job ∈ s.history.submitted, FitsIdle s.cluster job) :
    ∃ tr t, Run (restrict (Step cfg) fun _ e => Processing e) s tr t ∧ Drained t ∧
      (∀ n, t.cluster.runningJobs.getD n 0 = 0 ∧ t.cluster.allocatedMemory.getD n 0 = 0) ∧
      ∀ job ∈ s.history.submitted,
        job.jobId ∈ t.history.calledBack ∨ job.jobId ∈ t.history.abandoned := by
  -- a node that is reserved gets its thread
  obtain ⟨s₁, hgoes₁, hplaced⟩ : ∃ t, GoesTo cfg s t ∧ t.dispatcher.placedOn = [] := by
    rcases hd : s.dispatcher with - | job | ⟨job, available⟩ | ⟨job, node⟩ | ⟨job, node⟩
    · exact ⟨s, .refl s, by rw [hd]; rfl⟩
    · exact ⟨s, .refl s, by rw [hd]; rfl⟩
    · exact ⟨s, .refl s, by rw [hd]; rfl⟩
    · exact ⟨s, .refl s, by rw [hd]; rfl⟩
    · exact ⟨_, GoesTo.head (.spawn 0 hd) trivial (.refl _), rfl⟩
  -- the threads and the agents end what they have
  obtain ⟨s₂, requeued, hdone, -⟩ := finish_threads cfg s₁
  obtain ⟨s₃, hgoes₃, hexecuting, hthreads, hdispatcher, -⟩ :=
    finish_executing cfg ((hgoes₁.trans hdone.goes).noneLost hlost)
  have hgoes : GoesTo cfg s s₃ := (hgoes₁.trans hdone.goes).trans hgoes₃
  obtain ⟨hregistrations, hsubmitted⟩ := hgoes.kept
  obtain ⟨tr₃, hrun₃⟩ := hgoes.fresh h₀
  obtain ⟨t, hgoes', hdrained⟩ := goesTo_drained hrun₃ (fun job hjob => by
      rw [hsubmitted] at hjob
      unfold FitsIdle
      rw [hregistrations]
      exact hfits job hjob)
    (hthreads.trans hdone.threads) hexecuting (by rw [hdispatcher, hdone.dispatcher, hplaced])
  obtain ⟨tr, hrun⟩ := hgoes.trans hgoes'
  obtain ⟨tr', hrun'⟩ := hgoes'.fresh hrun₃
  have hleak := run_noLeak hrun'
  have hsettling : JobFlow.Settling t.flow :=
    hrun'.invariant (I := fun s => JobFlow.Settling s.flow)
      (flow_init (P := policies) policy policyName ▸ JobFlow.settling_init)
      fun hs hstep => hstep.2.flow_keeps (I := JobFlow.Settling) hs
        fun _ _ ha hg => hs.step (hstep.1.act ha) hg
  refine ⟨tr, t, hrun, hdrained, hleak.counters_zero hdrained.onNode, fun job hjob => ?_⟩
  refine hdrained.over hleak hsettling ?_
  rw [hgoes'.kept.2, hsubmitted]
  exact hjob

/-- The response to the only job is lost while its agent runs it: the job can still
be drained. -/
theorem run_drains_lost_response :
    ∃ tr s, Run (restrict (Step {}) FreshIds) defaultInit tr s ∧
      s.history.accepted = [("j", "n")] ∧ s.cluster.runningJobs.get? "n" = some 1 ∧
      ∃ tr' t, Run (restrict (Step {}) fun _ e => Processing e) s tr' t ∧ Drained t ∧
        (∀ n, t.cluster.runningJobs.getD n 0 = 0 ∧ t.cluster.allocatedMemory.getD n 0 = 0) ∧
        ∀ job ∈ s.history.submitted,
          job.jobId ∈ t.history.calledBack ∨ job.jobId ∈ t.history.abandoned := by
  have h₀ : Run (restrict (Step {}) FreshIds) defaultInit [] defaultInit := .refl
  have h₁ := h₀.tail_restrict (.register (ClusterState.nodeOf "n" 1 64)) trivial
  have h₂ := h₁.tail_restrict (.submit (ClusterState.jobOf "j")) List.not_mem_nil
  have h₃ := h₂.tail_restrict (.dequeue rfl rfl) trivial
  have h₄ := h₃.tail_restrict (.offer rfl) trivial
  have h₅ := h₄.tail_restrict (.answer rfl) trivial
  have h₆ := h₅.tail_restrict (@Step.claim _ _ _ (ClusterState.jobOf "j") (idleView "n") _
    (by decide +kernel) (Prod.ext (by decide +kernel) rfl)) trivial
  have h₇ := h₆.tail_restrict (.spawn 0 rfl) trivial
  have h₈ := h₇.tail_restrict (@Step.accept _ _ _ _ [] _ rfl rfl) trivial
  have h₉ := h₈.tail_restrict (@Step.raise _ _ _ _ [] _ rfl (.inr (.inl rfl))) trivial
  refine ⟨_, _, h₉, rfl, ?_, ?_⟩
  · decide +kernel
  refine run_drains h₉ (List.forall_mem_singleton.mpr rfl) ?_
  intro job hjob
  have hj : job = ClusterState.jobOf "j" := List.mem_singleton.mp hjob
  subst hj
  refine ⟨"n", ClusterState.nodeOf "n" 1 64, ?_, ?_, ?_, ?_⟩
  · decide +kernel
  · intro h
    cases h
  · decide
  · intro m hm
    cases hm

end Scheduler

end HeteroSched
