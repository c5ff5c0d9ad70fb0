/-
HeteroSched/ForeignKeys.lean

The foreign keys that `init_db` declares.

Design.  SQLite checks a declared foreign key only when the pragma asks for it,
which the scheduler never does, so a row may name a node or a job that has none.
That it does not is a fact about runs: a node is named by a row only after the
memory had it, and a job only after it was submitted (`NodesNamed`, `JobsNamed`:
whatever holds of each node at its registration and of each job at its submission
holds of every node and job that is named anywhere).  Both handlers change the
memory before they insert their row, so until they are done a row may be missing
(`NodeExpected`, `JobExpected`).
-/
import HeteroSched.JobRows
import HeteroSched.NodeTables
import HeteroSched.Submission

namespace HeteroSched

open Transition

/-- The nodes a dispatcher considers or has placed its job on. -/
def Dispatcher.nodes : Dispatcher → List NodeId
  | .offered _ available => available.map fun v => v.nodeId
  | .chosen _ node => [node.nodeId]
  | .placed _ node => [node.nodeId]
  | _ => []

/-- The dispatcher goes on with no node it was not offered. -/
theorem Dispatcher.nodes_answered {job : JobRequest} {available : List NodeView}
    {answer : Option NodeView} {n : NodeId}
    (h : n ∈ (Dispatcher.answered job available answer).nodes) :
    n ∈ available.map fun v => v.nodeId := by
  rcases hd : Dispatcher.answered job available answer with - | j | ⟨j, l⟩ | ⟨j, v⟩ | ⟨j, v⟩
  · rw [hd] at h
    exact absurd h List.not_mem_nil
  · rw [hd] at h
    exact absurd h List.not_mem_nil
  · unfold Dispatcher.answered at hd
    split at hd <;> cases hd
  · obtain ⟨-, -, hv⟩ := Dispatcher.of_answered_eq_chosen hd
    rw [hd] at h
    obtain rfl := List.mem_singleton.mp h
    exact List.mem_map_of_mem hv
  · unfold Dispatcher.answered at hd
    split at hd <;> cases hd

namespace Scheduler

variable {P : PolicyRegistry} {cfg : Config} {s t : Scheduler P} {e : Event}

/-! ### The nodes that are named -/

/-- `Q` holds of every node that is registered, that the dispatcher considers, that a
job is dispatched to or executed on, and that a row names. -/
structure NodesNamed (Q : NodeId → Prop) (s : Scheduler P) : Prop where
  registered : ∀ n ∈ s.cluster.registrations, Q n
  dispatcher : ∀ n ∈ s.dispatcher.nodes, Q n
  threads : ∀ th ∈ s.threads, Q th.node.nodeId
  executing : ∀ ex ∈ s.executing, Q ex.nodeId
  results : ∀ r ∈ s.results, Q r.nodeId
  jobs : ∀ j row n, s.db.jobs.get? j = some row → row.dispatchedToNode = some n → Q n
  jobResults : ∀ j r, s.db.jobResults.get? j = some r → Q r.nodeId

theorem nodesNamed_init {Q : NodeId → Prop} (policy : P.Instance) (policyName : String) :
    NodesNamed Q (init policy policyName) where
  registered := fun _ h => absurd h List.not_mem_nil
  dispatcher := fun _ h => absurd h List.not_mem_nil
  threads := fun _ h => absurd h List.not_mem_nil
  executing := fun _ h => absurd h List.not_mem_nil
  results := fun _ h => absurd h List.not_mem_nil
  jobs := by
    intro j row n h
    cases h
  jobResults := by
    intro j r h
    cases h

theorem NodesNamed.mono {Q Q' : NodeId → Prop} (h : NodesNamed Q s) (hQ : ∀ n, Q n → Q' n) :
    NodesNamed Q' s where
  registered := fun n hn => hQ n (h.registered n hn)
  dispatcher := fun n hn => hQ n (h.dispatcher n hn)
  threads := fun th hth => hQ _ (h.threads th hth)
  executing := fun ex hex => hQ _ (h.executing ex hex)
  results := fun r hr => hQ _ (h.results r hr)
  jobs := fun j row n hrow hn => hQ n (h.jobs j row n hrow hn)
  jobResults := fun j r hr => hQ _ (h.jobResults j r hr)

/-- A node that is registered was so before, or has just registered. -/
theorem Step.mem_registrations (h : Step cfg s e t) {n : NodeId}
    (hn : n ∈ t.cluster.registrations) :
    n ∈ s.cluster.registrations ∨ ∃ reg, e = .register reg ∧ reg.nodeId = n := by
  by_cases hreg : ∃ reg, e = .register reg
  · obtain ⟨reg, rfl⟩ := hreg
    cases h
    rcases Dict.mem_set.mp hn with rfl | hn
    · exact Or.inr ⟨reg, rfl, rfl⟩
    · exact Or.inl hn
  · obtain ⟨reg, hget⟩ := Dict.mem_iff_get?.mp hn
    exact Or.inl (Dict.mem_of_get? (h.registrations_get? (fun reg he => hreg ⟨reg, he⟩) hget))

/-- The dispatcher is offered nodes that are registered. -/
theorem Step.dispatcher_nodes (h : Step cfg s e t) {n : NodeId} (hn : n ∈ t.dispatcher.nodes) :
    n ∈ s.dispatcher.nodes ∨ n ∈ s.cluster.registrations := by
  cases h with
  | dequeue hd hq => exact absurd hn List.not_mem_nil
  | offer hd =>
      simp only [Dispatcher.nodes, ClusterState.getAvailableNodes_ids] at hn
      exact Or.inr (List.mem_of_mem_filter hn)
  | answer hd =>
      rw [hd]
      exact Or.inl (Dispatcher.nodes_answered hn)
  | claim hd hr =>
      rw [hd]
      exact Or.inl hn
  | refuseClaim hd hr => exact absurd hn List.not_mem_nil
  | spawn now hd => exact absurd hn List.not_mem_nil
  | _ => exact Or.inl hn

/-- A thread keeps its node; a new one has the node of the dispatcher. -/
theorem Step.thread_node (h : Step cfg s e t) {th : DispatchThread} (hth : th ∈ t.threads) :
    (∃ th' ∈ s.threads, th'.node = th.node) ∨ th.node.nodeId ∈ s.dispatcher.nodes := by
  have hmoved : ∀ {pre post : List DispatchThread} {th₀ : DispatchThread} {pc : DispatchPc},
      s.threads = pre ++ th₀ :: post → th ∈ pre ++ th₀.goto pc :: post →
      ∃ th' ∈ s.threads, th'.node = th.node := by
    intro pre post th₀ pc ht hmem
    by_cases hne : th = th₀.goto pc
    · exact ⟨th₀, by rw [ht]; simp, by rw [hne]; rfl⟩
    · exact ⟨th, by rw [ht]; exact mem_split_of_mem (mem_of_mem_split hmem hne), rfl⟩
  have hleft : ∀ {pre post : List DispatchThread} {th₀ : DispatchThread},
      s.threads = pre ++ th₀ :: post → th ∈ pre ++ post →
      ∃ th' ∈ s.threads, th'.node = th.node :=
    fun ht hmem => ⟨th, by rw [ht]; exact mem_split_of_mem hmem, rfl⟩
  cases h with
  | spawn now hd =>
      rcases List.mem_cons.mp hth with rfl | hth
      · rw [hd]
        exact Or.inr (List.mem_singleton.mpr rfl)
      · exact Or.inl ⟨th, hth, rfl⟩
  | accept ht hpc | respond ht hpc | recordDispatch now ht hpc | raise ht hpc | release ht hpc
  | countFailure ht hpc | giveUp ht hpc hmax => exact Or.inl (hmoved ht hth)
  | forgetAttempts ht hpc | requeue ht hpc hmax | markFailed ht hpc | failMarkFailed ht hpc =>
      exact Or.inl (hleft ht hth)
  | _ => exact Or.inl ⟨th, hth, rfl⟩

/-- Only a registration brings in a node. -/
theorem Step.nodesNamed {Q : NodeId → Prop} (h : Step cfg s e t) (hs : NodesNamed Q s)
    (hreg : ∀ reg, e = .register reg → Q reg.nodeId) : NodesNamed Q t where
  registered := by
    intro n hn
    rcases h.mem_registrations hn with hn | ⟨reg, he, rfl⟩
    · exact hs.registered n hn
    · exact hreg reg he
  dispatcher := by
    intro n hn
    rcases h.dispatcher_nodes hn with hn | hn
    · exact hs.dispatcher n hn
    · exact hs.registered n hn
  threads := by
    intro th hth
    rcases h.thread_node hth with ⟨th', hth', hnode⟩ | hn
    · rw [← hnode]
      exact hs.threads th' hth'
    · exact hs.dispatcher _ hn
  executing := by
    intro ex hex
    rcases h.mem_executing hex with ⟨ex', hex', -, hnode, -⟩ | ⟨th, hth, -, -, hnode⟩
    · rw [← hnode]
      exact hs.executing ex' hex'
    · rw [← hnode]
      exact hs.threads th hth
  results := by
    intro r hr
    rcases h.mem_results hr with hr | ⟨ex, hex, -, hnode⟩
    · exact hs.results r hr
    · rw [hnode]
      exact hs.executing ex hex
  jobs := by
    intro j row n hrow hn
    rcases h.dispatchedToNode hrow hn with ⟨row', hrow', hn'⟩ | ⟨th, hth, -, hattempt⟩
    · exact hs.jobs j row' n hrow' hn'
    · rw [← show th.node.nodeId = n from (Prod.mk.inj hattempt).2]
      exact hs.threads th hth
  jobResults := by
    intro j r hr
    rcases h.jobResults hr with hr | ⟨result, hresult, -, hnode⟩
    · exact hs.jobResults j r hr
    · rw [← hnode]
      exact hs.results result hresult

/-! ### The jobs that are named -/

/-- `Q` holds of the id of every job that is queued, in flight or has a result. -/
structure JobsNamed (Q : JobId → Prop) (s : Scheduler P) : Prop where
  queue : ∀ job ∈ s.cluster.jobQueue, Q job.jobId
  inFlight : InFlight (fun job => Q job.jobId) s
  results : ∀ r ∈ s.results, Q r.jobId
  jobResults : ∀ j ∈ s.db.jobResults, Q j

theorem jobsNamed_init {Q : JobId → Prop} (policy : P.Instance) (policyName : String) :
    JobsNamed Q (init policy policyName) where
  queue := fun _ h => absurd h List.not_mem_nil
  inFlight := inFlight_init policy policyName
  results := fun _ h => absurd h List.not_mem_nil
  jobResults := fun _ h => absurd h List.not_mem_nil

theorem JobsNamed.mono {Q Q' : JobId → Prop} (h : JobsNamed Q s) (hQ : ∀ j, Q j → Q' j) :
    JobsNamed Q' s where
  queue := fun job hjob => hQ _ (h.queue job hjob)
  inFlight := h.inFlight.mono fun _ hjob => hQ _ hjob
  results := fun r hr => hQ _ (h.results r hr)
  jobResults := fun j hj => hQ j (h.jobResults j hj)

/-- Only a submission brings in a job. -/
theorem Step.jobsNamed {Q : JobId → Prop} (h : Step cfg s e t) (hs : JobsNamed Q s)
    (hsub : ∀ job, e = .submit job → Q job.jobId) : JobsNamed Q t where
  queue := by
    intro job hjob
    rcases h.mem_queue hjob with hjob | he | ⟨th, hth, rfl⟩
    · exact hs.queue job hjob
    · exact hsub job he
    · exact hs.inFlight.threads th hth
  inFlight := by
    refine h.inFlight hs.inFlight fun job he => ?_
    subst he
    cases h with
    | dequeue hd hq =>
        obtain ⟨rest, hqueue, -⟩ := ClusterState.dequeueJob_eq_some hq
        exact hs.queue job (by rw [hqueue]; exact List.mem_cons_self)
  results := by
    intro r hr
    rcases h.mem_results hr with hr | ⟨ex, hex, hjob, -⟩
    · exact hs.results r hr
    · rw [hjob]
      exact hs.inFlight.executing ex hex
  jobResults := by
    intro j hj
    obtain ⟨r, hr⟩ := Dict.mem_iff_get?.mp hj
    rcases h.jobResults hr with hr | ⟨result, hresult, rfl, -⟩
    · exact hs.jobResults j (Dict.mem_of_get? hr)
    · exact hs.results result hresult

/-- The job has a row, or a handler that is to insert it. -/
def JobExpected (s : Scheduler P) (j : JobId) : Prop :=
  j ∈ s.db.jobs ∨ ∃ handler ∈ s.submissions, handler.job.jobId = j

/-- A handler ends with the row inserted, unless the insertion fails. -/
theorem Step.jobExpected (h : Step cfg s e t) (he : ∀ job, e ≠ .failSubmission job) {j : JobId}
    (hj : s.JobExpected j) : t.JobExpected j := by
  rcases hj with hj | ⟨handler, hmem, rfl⟩
  · exact Or.inl (h.mem_jobs hj)
  · cases h with
    | submit job => exact Or.inr ⟨handler, List.mem_cons_of_mem _ hmem, rfl⟩
    | @tagSubmission job pre post now hs =>
        by_cases hne : handler = .enqueued job
        · exact Or.inr ⟨_, List.mem_append_right _ List.mem_cons_self, by rw [hne]; rfl⟩
        · exact Or.inr ⟨handler, mem_split_of_mem (mem_of_mem_split (hs ▸ hmem) hne), rfl⟩
    | @insertSubmission job runId at' pre post db now hs hdb =>
        obtain ⟨-, rfl⟩ := Database.submitJob_eq_some hdb
        by_cases hne : handler = .tagged job runId at'
        · exact Or.inl (Dict.mem_set.mpr (Or.inl (by rw [hne]; rfl)))
        · exact Or.inr ⟨handler, mem_of_mem_split (hs ▸ hmem) hne, rfl⟩
    | failSubmission hs => exact absurd rfl (he _)
    | _ => exact Or.inr ⟨handler, hmem, rfl⟩

end Scheduler

/-! ### The foreign keys -/

/-- The foreign keys of the tables, where a reference is good when it is to a job of
`isJob` or a node of `isNode`. -/
structure References (isJob : JobId → Prop) (isNode : NodeId → Prop) (db : Database)
    (tables : NodeTables) : Prop where
  nodeProfiles : ∀ n ∈ tables.nodeProfiles, isNode n
  dispatchedToNode : ∀ j row n, db.jobs.get? j = some row → row.dispatchedToNode = some n →
    isNode n
  resultJob : ∀ j ∈ db.jobResults, isJob j
  resultNode : ∀ j r, db.jobResults.get? j = some r → isNode r.nodeId

/-- Every foreign key names a row. -/
def ForeignKeys (db : Database) (tables : NodeTables) : Prop :=
  References (· ∈ db.jobs) (· ∈ tables.nodes) db tables

theorem References.mono {isJob isJob' : JobId → Prop} {isNode isNode' : NodeId → Prop}
    {db : Database} {tables : NodeTables} (h : References isJob isNode db tables)
    (hjob : ∀ j, isJob j → isJob' j) (hnode : ∀ n, isNode n → isNode' n) :
    References isJob' isNode' db tables where
  nodeProfiles := fun n hn => hnode n (h.nodeProfiles n hn)
  dispatchedToNode := fun j row n hrow hn => hnode n (h.dispatchedToNode j row n hrow hn)
  resultJob := fun j hj => hjob j (h.resultJob j hj)
  resultNode := fun j r hr => hnode _ (h.resultNode j r hr)

namespace Registry

open Scheduler (JobsNamed NodesNamed jobsNamed_init nodesNamed_init mem_split_of_mem
  mem_of_mem_split)

variable {P : PolicyRegistry} {cfg : Config} {s t : Registry P} {e : Event}

/-- No insertion of a row of `nodes` or `jobs` fails. -/
def InsertsSucceed (_ : Registry P) : Event → Prop
  | .failInsertNode _ => False
  | .scheduler (.failSubmission _) => False
  | _ => True

/-- The node has a row, or a handler that is to insert it. -/
def NodeExpected (s : Registry P) (n : NodeId) : Prop :=
  n ∈ s.tables.nodes ∨ ∃ reg, .registered reg ∈ s.registering ∧ reg.nodeId = n

/-- The rows of `nodes` are never removed. -/
theorem Step.mem_nodes (hs : Step cfg s e t) {n : NodeId} (hn : n ∈ s.tables.nodes) :
    n ∈ t.tables.nodes := by
  cases hs with
  | insertNode now hr => exact NodeTables.mem_insertOrReplace.mpr (Or.inr hn)
  | updateHeartbeat now hh => exact Dict.mem_modify.mpr hn
  | _ => exact hn

theorem Step.nodeExpected (hs : Step cfg s e t) (hok : InsertsSucceed s e) {n : NodeId}
    (hn : s.NodeExpected n) : t.NodeExpected n := by
  rcases hn with hn | ⟨reg, hmem, rfl⟩
  · exact Or.inl (hs.mem_nodes hn)
  · cases hs with
    | scheduler hstep => exact Or.inr ⟨reg, List.mem_append_right _ hmem, rfl⟩
    | @insertNode new pre post now hr =>
        by_cases hne : reg = new
        · exact Or.inl (NodeTables.mem_insertOrReplace.mpr (Or.inl (by rw [hne])))
        · exact Or.inr ⟨reg, mem_split_of_mem (mem_of_mem_split (hr ▸ hmem) fun he =>
            hne (RegisterHandler.registered.inj he)), rfl⟩
    | failInsertNode hr => exact hok.elim
    | @saveProfile new pre post hr =>
        have hkeep : ∀ handler ∈ s.registering, handler ≠ .stored new → handler ∈ pre ++ post :=
          fun handler hmem hne => mem_of_mem_split (hr ▸ hmem) hne
        exact Or.inr ⟨reg, hkeep _ hmem nofun, rfl⟩
    | @failSaveProfile new pre post hr =>
        have hkeep : ∀ handler ∈ s.registering, handler ≠ .stored new → handler ∈ pre ++ post :=
          fun handler hmem hne => mem_of_mem_split (hr ▸ hmem) hne
        exact Or.inr ⟨reg, hkeep _ hmem nofun, rfl⟩
    | updateHeartbeat now hh => exact Or.inr ⟨reg, hmem, rfl⟩
    | failUpdateHeartbeat hh => exact Or.inr ⟨reg, hmem, rfl⟩

/-- Every node and every job that is named is expected to have a row; a profile is
written after the row of its node. -/
structure Expected (s : Registry P) : Prop where
  nodes : NodesNamed s.NodeExpected s.scheduler
  jobs : JobsNamed s.scheduler.JobExpected s.scheduler
  handlers : ∀ reg, .stored reg ∈ s.registering → reg.nodeId ∈ s.tables.nodes
  profiles : ∀ n ∈ s.tables.nodeProfiles, n ∈ s.tables.nodes

theorem expected_init (policy : P.Instance) (policyName : String) :
    Expected (init policy policyName) where
  nodes := nodesNamed_init policy policyName
  jobs := jobsNamed_init policy policyName
  handlers := fun _ h => absurd h List.not_mem_nil
  profiles := fun _ h => absurd h List.not_mem_nil

/-- What the scheduler names is expected, after any step. -/
theorem Expected.named (h : Expected s) (hok : InsertsSucceed s e) (hs : Step cfg s e t) :
    NodesNamed t.NodeExpected t.scheduler ∧ JobsNamed t.scheduler.JobExpected t.scheduler := by
  have hnodes : NodesNamed t.NodeExpected s.scheduler :=
    h.nodes.mono fun n hn => hs.nodeExpected hok hn
  cases hs with
  | @scheduler e' t' hstep =>
      refine ⟨hstep.nodesNamed hnodes ?_, hstep.jobsNamed (h.jobs.mono fun j hj => ?_) ?_⟩
      · rintro reg rfl
        exact Or.inr ⟨reg, List.mem_cons_self, rfl⟩
      · refine hstep.jobExpected ?_ hj
        rintro job rfl
        exact hok
      · rintro job rfl
        cases hstep
        exact Or.inr ⟨.enqueued job, List.mem_cons_self, rfl⟩
  | _ => exact ⟨hnodes, h.jobs⟩

/-- The handlers and the profiles, after any step. -/
theorem Expected.written (h : Expected s) (hs : Step cfg s e t) :
    (∀ reg, .stored reg ∈ t.registering → reg.nodeId ∈ t.tables.nodes) ∧
    ∀ n ∈ t.tables.nodeProfiles, n ∈ t.tables.nodes := by
  have hhandlers : ∀ reg, .stored reg ∈ s.registering → reg.nodeId ∈ t.tables.nodes :=
    fun reg hmem => hs.mem_nodes (h.handlers reg hmem)
  have hprofiles : ∀ n ∈ s.tables.nodeProfiles, n ∈ t.tables.nodes :=
    fun n hn => hs.mem_nodes (h.profiles n hn)
  cases hs with
  | @scheduler e' t' hstep =>
      refine ⟨fun reg hmem => hhandlers reg ?_, hprofiles⟩
      rcases List.mem_append.mp hmem with hmem | hmem
      · cases e' with
        | register new => cases List.mem_singleton.mp hmem
        | _ => cases hmem
      · exact hmem
  | @insertNode new pre post now hr =>
      refine ⟨fun reg hmem => ?_, hprofiles⟩
      by_cases hne : reg = new
      · exact NodeTables.mem_insertOrReplace.mpr (Or.inl (by rw [hne]))
      · refine hhandlers reg (hr ▸ mem_split_of_mem (mem_of_mem_split hmem fun he => ?_))
        exact hne (RegisterHandler.stored.inj he)
  | @failInsertNode new pre post hr =>
      exact ⟨fun reg hmem => hhandlers reg (hr ▸ mem_split_of_mem hmem), hprofiles⟩
  | @saveProfile new pre post hr =>
      refine ⟨fun reg hmem => hhandlers reg (hr ▸ mem_split_of_mem hmem), fun n hn => ?_⟩
      rcases NodeTables.mem_insertOrReplace.mp hn with rfl | hn
      · exact hhandlers new (by rw [hr]; simp)
      · exact hprofiles n hn
  | @failSaveProfile new pre post hr =>
      exact ⟨fun reg hmem => hhandlers reg (hr ▸ mem_split_of_mem hmem), hprofiles⟩
  | updateHeartbeat now hh => exact ⟨hhandlers, hprofiles⟩
  | failUpdateHeartbeat hh => exact ⟨hhandlers, hprofiles⟩

theorem Expected.step (h : Expected s) (hok : InsertsSucceed s e) (hs : Step cfg s e t) :
    Expected t where
  nodes := (h.named hok hs).1
  jobs := (h.named hok hs).2
  handlers := (h.written hs).1
  profiles := (h.written hs).2

theorem run_expected {policy : P.Instance} {policyName : String} {tr : List (Registry P × Event)}
    (h : Run (restrict (Step cfg) InsertsSucceed) (init policy policyName) tr s) : Expected s :=
  h.invariant (expected_init policy policyName) fun hs hstep => hs.step hstep.1 hstep.2

/-- Without a handler under way every node that is expected to have a row has one. -/
theorem NodeExpected.mem_nodes {n : NodeId} (h : s.NodeExpected n) (hdone : s.registering = []) :
    n ∈ s.tables.nodes := by
  rcases h with hn | ⟨reg, hmem, -⟩
  · exact hn
  · exact absurd (hdone ▸ hmem) List.not_mem_nil

/-- A node registers and runs a job before its profile is written. -/
theorem one_job_run :
    ∃ tr s, Run (restrict (Step {}) InsertsSucceed)
        (init (P := policies) (.roundRobin {}) "round_robin") tr s ∧
      s.registering = [] ∧ s.scheduler.submissions = [] ∧
      s.scheduler.db.jobResults.get? "j" = some ⟨"n", true, 1, 0, 1⟩ ∧
      s.tables.nodes.keys = ["n"] ∧ s.tables.nodeProfiles.keys = ["n"] := by
  have h₀ : Run (restrict (Step {}) InsertsSucceed)
    (init (P := policies) (.roundRobin {}) "round_robin") [] _ := .refl
  have h₁ := h₀.tail_restrict (.scheduler (.register (ClusterState.nodeOf "n" 1 64))) trivial
  have h₂ := h₁.tail_restrict (@Step.insertNode _ _ _ _ [] _ 0 rfl) trivial
  have h₃ := h₂.tail_restrict (.scheduler (.submit (ClusterState.jobOf "j"))) trivial
  have h₄ := h₃.tail_restrict (.scheduler (@Scheduler.Step.tagSubmission _ _ _ _ [] _ 0 rfl)) trivial
  have h₅ := h₄.tail_restrict
    (.scheduler (@Scheduler.Step.insertSubmission _ _ _ _ _ _ [] _ _ 0 rfl rfl)) trivial
  have h₆ := h₅.tail_restrict (.scheduler (.dequeue rfl rfl)) trivial
  have h₇ := h₆.tail_restrict (.scheduler (.offer rfl)) trivial
  have h₈ := h₇.tail_restrict (.scheduler (.answer rfl)) trivial
  have h₉ := h₈.tail_restrict (.scheduler (@Scheduler.Step.claim _ _ _ (ClusterState.jobOf "j")
    (Scheduler.idleView "n") _ (by decide +kernel) (Prod.ext (by decide +kernel) rfl))) trivial
  have h₁₀ := h₉.tail_restrict (.scheduler (.spawn 0 rfl)) trivial
  have h₁₁ := h₁₀.tail_restrict (.scheduler (@Scheduler.Step.accept _ _ _ _ [] _ rfl rfl)) trivial
  have h₁₂ := h₁₁.tail_restrict (.scheduler (@Scheduler.Step.respond _ _ _ _ [] _ rfl rfl)) trivial
  have h₁₃ := h₁₂.tail_restrict
    (.scheduler (@Scheduler.Step.recordDispatch _ _ _ _ [] _ 0 rfl rfl)) trivial
  have h₁₄ := h₁₃.tail_restrict
    (.scheduler (@Scheduler.Step.callback _ _ _ (Scheduler.successOn "n") _ [] [] rfl rfl rfl rfl)) trivial
  have h₁₅ := h₁₄.tail_restrict
    (.scheduler (@Scheduler.Step.recordResult _ _ _ _ [] _ 1 rfl)) trivial
  have h₁₆ := h₁₅.tail_restrict (@Step.saveProfile _ _ _ _ [] _ rfl) trivial
  exact ⟨_, _, h₁₆, rfl, rfl, by decide +kernel, by decide +kernel, by decide +kernel⟩

/-- In every run in which no insertion of a node or of a job fails: what a foreign key
names has a row, or a handler that is about to insert it; and once no handler is under
way every foreign key names a row. -/
theorem foreign_keys_hold {policy : P.Instance} {policyName : String}
    {tr : List (Registry P × Event)}
    (h : Run (restrict (Step cfg) InsertsSucceed) (init policy policyName) tr s) :
    References s.scheduler.JobExpected s.NodeExpected s.scheduler.db s.tables ∧
    (s.registering = [] → s.scheduler.submissions = [] →
      ForeignKeys s.scheduler.db s.tables) := by
  have hexpected := run_expected h
  have hreferences : References s.scheduler.JobExpected s.NodeExpected s.scheduler.db s.tables :=
    ⟨fun n hn => Or.inl (hexpected.profiles n hn), hexpected.nodes.jobs, hexpected.jobs.jobResults,
      hexpected.nodes.jobResults⟩
  refine ⟨hreferences, fun hregistering hsubmissions => hreferences.mono ?_ ?_⟩
  · rintro j (hj | ⟨handler, hmem, -⟩)
    · exact hj
    · exact absurd (hsubmissions ▸ hmem) List.not_mem_nil
  · exact fun n hn => hn.mem_nodes hregistering

/-- There every foreign key names a row. -/
theorem foreign_keys_hold_one_job :
    ∃ tr s, Run (restrict (Step {}) InsertsSucceed)
        (init (P := policies) (.roundRobin {}) "round_robin") tr s ∧
      "j" ∈ s.scheduler.db.jobResults ∧ ForeignKeys s.scheduler.db s.tables := by
  obtain ⟨tr, s, hrun, hregistering, hsubmissions, hresult, -, -⟩ := one_job_run
  exact ⟨tr, s, hrun, Dict.mem_of_get? hresult,
    (foreign_keys_hold hrun).2 hregistering hsubmissions⟩

end Registry

end HeteroSched
