/-
HeteroSched/FailedRequests.lean

What a request that fails leaves in the memory of the scheduler: the handlers of
`POST /runs/start`, `/runs/finish`, `/register` and `/job_callback`.

Design.  Each handler is run to its end: a function of the state, of the request
and of what the database does with its writes (`raises`), which gives the response
or the error and the state afterwards.  The handlers take steps of the system
(`startRun_run`, `finishRun_run`, `registerNode_run`, `jobCallback_run`).

`finish_run` writes the database first and memory last, so it has nothing to undo
when the write raises.  The others change memory before they write: `start_run`
the policy, `register_node` the tables of the nodes, `job_callback` the
reservation of the job.  None of them undoes that, so such a request leaves the
memory as it was just when the change is none (`NothingToUndo`).
-/
import HeteroSched.Placement
import HeteroSched.AtMostOnce

namespace HeteroSched

open Transition

/-! ### Requests -/

/-- How a request fails: an `HTTPException` of the handler, or an exception that
it does not catch. -/
inductive RequestError
  | http (statusCode : ℕ) (detail : String)
  | uncaught
  deriving DecidableEq, Repr

/-- What the handlers return. -/
inductive Response
  | started (runId : RunId) (policy : String) (label : Option String) (nodes : List SnapshotNode)
  | finished (runId : RunId) (progress : RunProgress)
  | registered (status : String) (nodeId : NodeId)
  | received (status : String)
  deriving DecidableEq, Repr

/-- The two writes of `register_node`. -/
inductive RegisterWrite
  | registerNode
  | saveNodeProfile
  deriving DecidableEq, Repr

/-- A request, the id and the time its handler draws, and which of the handler's
writes to the database raises. -/
inductive Request
  | startRun (request : RunStartRequest) (runId : RunId) (now : Timestamp) (raises : Bool)
  | finishRun (now : Timestamp) (raises : Bool)
  | register (registration : NodeRegistration) (raises : Option RegisterWrite)
  | jobCallback (result : JobResult) (now : Timestamp) (raises : Bool)

/-- What the process keeps in memory: the globals of `scheduler/main.py`, with the
queue and the tables of `ClusterState`. -/
structure Memory (P : PolicyRegistry) where
  activeRunId : Option RunId
  policy : P.Instance
  policyName : String
  cluster : ClusterState

namespace ClusterState

variable {c : ClusterState}

/-- Registering a node changes nothing just when the registration is in place. -/
theorem registerNode_eq_self_iff (hkeyed : c.Keyed) {registration : NodeRegistration} :
    c.registerNode registration = c ↔
      c.registrations.get? registration.nodeId = some registration := by
  constructor
  · intro h
    exact Dict.set_eq_self_iff.mp (congrArg ClusterState.registrations h)
  · intro h
    have hrunning := (hkeyed.mem_runningJobs _).mpr (Dict.mem_of_get? h)
    unfold registerNode
    rw [Dict.set_eq_self_iff.mpr h, if_pos hrunning]

/-- Releasing the slot of a job changes nothing just when the job holds none. -/
theorem releaseSlot_eq_self_iff {jobId : JobId} :
    c.releaseSlot jobId = c ↔ c.reservations.get? jobId = none := by
  constructor
  · intro h
    rw [← h, releaseSlot_reservations, Dict.get?_pop, if_pos rfl]
  · exact releaseSlot_of_none

end ClusterState

namespace Scheduler

section Memory

variable {P : PolicyRegistry}

/-- What a request may change in memory. -/
def memory (s : Scheduler P) : Memory P := ⟨s.activeRunId, s.policy, s.policyName, s.cluster⟩

/-- The jobs `start_run` counts as in flight. -/
def inFlight (s : Scheduler P) : ℤ := s.cluster.queueSize + s.cluster.runningTotal

end Memory

variable {cfg : Config} {s : Scheduler policies}

/-! ### The handlers -/

/-- The text of the `ValueError` of `get_policy`. -/
def unknownPolicy (policyName : String) : String :=
  let policyName := policyName.toLower
  s!"Unknown policy: {policyName}. Available: round_robin, least_loaded"

/-- A name in the request that is unknown is reported; `get_policy` is not guarded
when it is asked for the name in place. -/
def policyError (request : RunStartRequest) : RequestError :=
  match request.policy with
  | some name => .http 400 (unknownPolicy name)
  | none => .uncaught

/-- The state with a new policy instance in place. -/
def withPolicy (s : Scheduler policies) (policy : Policy) (policyName : String) :
    Scheduler policies :=
  { s with
    policy := policy
    policyName := policyName
    history := { s.history with instances := s.history.instances + 1 } }

/-- The state with the run in the database and open. -/
def withRun (s : Scheduler policies) (db : Database) (runId : RunId) : Scheduler policies :=
  { s with
    db := db
    activeRunId := some runId
    history := { s.history with opened := some (s.history.instances, s.submittedIds) } }

/-- The endpoint `POST /runs/start`; `raises` says whether the insertion of the run's row
fails. -/
def startRun (s : Scheduler policies) (request : RunStartRequest) (runId : RunId) (now : Timestamp)
    (raises : Bool) : Except RequestError Response × Scheduler policies :=
  match s.activeRunId with
  | some activeRunId =>
      (.error (.http 409 s!"Run {activeRunId} is still open; finish it first."), s)
  | none =>
      let inFlight := s.inFlight
      if inFlight > 0 then
        (.error (.http 409
          s!"Cluster is not drained: {inFlight} job(s) still queued or running."), s)
      else
        match s.newPolicy request with
        | none => (.error (policyError request), s)
        | some (policy, policyName) =>
            let s := s.withPolicy policy policyName
            let clusterSnapshot := s.clusterSnapshot
            let inserted :=
              if raises then none
              else s.db.startRun runId s.policyName request.label request.trace
                (some clusterSnapshot) request.notes now
            match inserted with
            | none => (.error .uncaught, s)
            | some db =>
                (.ok (.started runId s.policyName request.label clusterSnapshot),
                  s.withRun db runId)

/-- The endpoint `POST /runs/finish`; `raises` says whether the update of the row fails. -/
def finishRun (s : Scheduler policies) (now : Timestamp) (raises : Bool) :
    Except RequestError Response × Scheduler policies :=
  match s.activeRunId with
  | none => (.error (.http 409 "No run is open."), s)
  | some runId =>
      if raises then (.error .uncaught, s)
      else
        let s := { s with db := s.db.finishRun runId now, activeRunId := none }
        (.ok (.finished runId (s.db.getRunProgress runId)), s)

/-- The rows written here are those of tables that only reports read, which are not
modelled. -/
def registerNode (s : Scheduler policies) (registration : NodeRegistration)
    (raises : Option RegisterWrite) : Except RequestError Response × Scheduler policies :=
  let s := { s with cluster := s.cluster.registerNode registration }
  match raises with
  | some _ => (.error .uncaught, s)
  | none => (.ok (.registered "registered" registration.nodeId), s)

/-- The endpoint `POST /job_callback`; `raises` says whether the result's insertion fails. -/
def jobCallback (s : Scheduler policies) (result : JobResult) (now : Timestamp) (raises : Bool) :
    Except RequestError Response × Scheduler policies :=
  let s := { s with cluster := s.cluster.releaseSlot result.jobId }
  let completedAt := result.completedAt.getD now
  if raises then (.error .uncaught, s)
  else
    (.ok (.received "ok"),
      { s with
        db := s.db.recordJobResult result.jobId result.nodeId result.success
          result.runtimeSeconds result.exitCode (some completedAt) now })

/-- The handler of a request, run to its end. -/
def serve (s : Scheduler policies) : Request → Except RequestError Response × Scheduler policies
  | .startRun request runId now raises => s.startRun request runId now raises
  | .finishRun now raises => s.finishRun now raises
  | .register registration raises => s.registerNode registration raises
  | .jobCallback result now raises => s.jobCallback result now raises

/-! ### What `start_run` can do -/

theorem startRun_db_eq_none_iff (s : Scheduler policies) (request : RunStartRequest) (runId : RunId)
    (snapshot : List SnapshotNode) (now : Timestamp) (raises : Bool) :
    (if raises then none
      else s.db.startRun runId s.policyName request.label request.trace (some snapshot)
        request.notes now) = none ↔ raises = true ∨ runId ∈ s.db.runs := by
  unfold Database.startRun
  by_cases hraises : raises = true
  · rw [if_pos hraises]
    exact iff_of_true rfl (Or.inl hraises)
  · rw [if_neg hraises]
    by_cases hmem : runId ∈ s.db.runs
    · rw [if_pos hmem]
      exact iff_of_true rfl (Or.inr hmem)
    · rw [if_neg hmem]
      exact iff_of_false nofun (not_or.mpr ⟨hraises, hmem⟩)

/-- The checks of `start_run`: no run is open, nothing is in flight and the policy
is known. -/
def Admits (s : Scheduler policies) (request : RunStartRequest) (policy : Policy)
    (policyName : String) : Prop :=
  s.activeRunId = none ∧ ¬ s.inFlight > 0 ∧ s.newPolicy request = some (policy, policyName)

variable {request : RunStartRequest} {policy : Policy} {policyName : String} {runId : RunId}
variable {now : Timestamp} {raises : Bool}

/-- Refused by its own checks, the request does nothing. -/
theorem startRun_of_not_admits (h : ∀ policy policyName, ¬ s.Admits request policy policyName)
    (runId : RunId) (now : Timestamp) (raises : Bool) :
    ∃ error, s.startRun request runId now raises = (.error error, s) := by
  unfold startRun
  rcases ha : s.activeRunId with - | activeRunId
  · dsimp only
    by_cases hin : s.inFlight > 0
    · rw [if_pos hin]
      exact ⟨_, rfl⟩
    · rw [if_neg hin]
      rcases hp : s.newPolicy request with - | ⟨policy, policyName⟩
      · exact ⟨_, rfl⟩
      · exact absurd ⟨ha, hin, hp⟩ (h policy policyName)
  · exact ⟨_, rfl⟩

/-- The insertion raises, with the new policy in place. -/
theorem startRun_of_raises (h : s.Admits request policy policyName)
    (hdb : raises = true ∨ runId ∈ s.db.runs) (now : Timestamp) :
    s.startRun request runId now raises = (.error .uncaught, s.withPolicy policy policyName) := by
  obtain ⟨ha, hin, hp⟩ := h
  unfold startRun
  rw [ha]
  dsimp only
  rw [if_neg hin, hp]
  dsimp only
  rw [((s.withPolicy policy policyName).startRun_db_eq_none_iff request runId _ now raises).mpr hdb]

/-- The run is opened. -/
theorem startRun_of_inserted (h : s.Admits request policy policyName)
    (hdb : ¬ (raises = true ∨ runId ∈ s.db.runs)) (now : Timestamp) :
    ∃ db, s.db.startRun runId policyName request.label request.trace (some s.clusterSnapshot)
        request.notes now = some db ∧
      s.startRun request runId now raises =
        (.ok (.started runId policyName request.label s.clusterSnapshot),
          (s.withPolicy policy policyName).withRun db runId) := by
  obtain ⟨ha, hin, hp⟩ := h
  obtain ⟨db, hins⟩ := Option.ne_none_iff_exists'.mp
    (mt ((s.withPolicy policy policyName).startRun_db_eq_none_iff request runId
      s.clusterSnapshot now raises).mp hdb)
  refine ⟨db, ?_, ?_⟩
  · rwa [if_neg (not_or.mp hdb).1] at hins
  · unfold startRun
    rw [ha]
    dsimp only
    rw [if_neg hin, hp]
    dsimp only
    rw [show (s.withPolicy policy policyName).clusterSnapshot = s.clusterSnapshot from rfl, hins]
    rfl

/-! ### The handlers take steps of the system -/

/-- The state with the lock at another place. -/
def atLock (s : Scheduler policies) (l : RunLock) : Scheduler policies := { s with runLock := l }

theorem atLock_free (s : Scheduler policies) (hl : s.runLock = .free) : s.atLock .free = s := by
  rw [atLock, ← hl]

/-- `start_run` takes the lock, goes through its checks, and releases the lock
however it ends. -/
theorem startRun_run (cfg : Config) (hl : s.runLock = .free) (request : RunStartRequest)
    (runId : RunId) (now : Timestamp) (raises : Bool) :
    ∃ tr, Run (Step cfg) s tr (s.startRun request runId now raises).2 := by
  have h₀ : Run (Step cfg) s [] s := .refl
  by_cases ha : ∃ activeRunId, s.activeRunId = some activeRunId
  · obtain ⟨activeRunId, ha⟩ := ha
    unfold startRun
    rw [ha]
    exact ⟨_, h₀.tail (@Step.refuseStart _ _ _ request _ hl ha)⟩
  · have hnone : s.activeRunId = none := Option.eq_none_iff_forall_ne_some.mpr fun r hr => ha ⟨r, hr⟩
    have h₁ : Run (Step cfg) s _ (s.atLock (.starting request)) := h₀.tail (.startRun hl hnone)
    have h₂ : Run (Step cfg) s _ (s.atLock (.counted request s.cluster.queueSize)) :=
      h₁.tail (.countQueue rfl)
    by_cases hin : s.inFlight > 0
    · have h₃ : Run (Step cfg) s _ (s.atLock .free) := h₂.tail (.refuseInFlight rfl hin)
      rw [atLock_free s hl] at h₃
      obtain ⟨error, hrun⟩ := startRun_of_not_admits
        (fun policy policyName (h : s.Admits request policy policyName) => h.2.1 hin)
        runId now raises
      rw [hrun]
      exact ⟨_, h₃⟩
    · have h₃ : Run (Step cfg) s _ (s.atLock (.drained request)) := h₂.tail (.readCounters rfl hin)
      rcases hp : s.newPolicy request with - | ⟨policy, policyName⟩
      · have h₄ : Run (Step cfg) s _ (s.atLock .free) := h₃.tail (.refusePolicy rfl hp)
        rw [atLock_free s hl] at h₄
        obtain ⟨error, hrun⟩ := startRun_of_not_admits
          (fun policy policyName (h : s.Admits request policy policyName) =>
            nomatch hp.symm.trans h.2.2) runId now raises
        rw [hrun]
        exact ⟨_, h₄⟩
      · have hadmits : s.Admits request policy policyName := ⟨hnone, hin, hp⟩
        have h₄ : Run (Step cfg) s _ ((s.withPolicy policy policyName).atLock (.swapped request)) :=
          h₃.tail (.swapPolicy rfl hp)
        have h₅ : Run (Step cfg) s _
            ((s.withPolicy policy policyName).atLock (.listed request s.clusterSnapshot)) :=
          h₄.tail (.listNodes rfl)
        by_cases hdb : raises = true ∨ runId ∈ s.db.runs
        · have h₆ : Run (Step cfg) s _ ((s.withPolicy policy policyName).atLock .free) :=
            h₅.tail (.failInsertRun rfl)
          rw [atLock_free (s.withPolicy policy policyName) hl] at h₆
          rw [startRun_of_raises hadmits hdb]
          exact ⟨_, h₆⟩
        · obtain ⟨db, hins, hrun⟩ := startRun_of_inserted hadmits hdb now
          have h₆ := h₅.tail (.insertRun runId now rfl hins)
          have h₇ : Run (Step cfg) s _
              (((s.withPolicy policy policyName).withRun db runId).atLock .free) :=
            h₆.tail (.openRun rfl)
          rw [atLock_free ((s.withPolicy policy policyName).withRun db runId) hl] at h₇
          rw [hrun]
          exact ⟨_, h₇⟩

theorem finishRun_run (cfg : Config) (hl : s.runLock = .free) (now : Timestamp) (raises : Bool) :
    ∃ tr, Run (Step cfg) s tr (s.finishRun now raises).2 := by
  have h₀ : Run (Step cfg) s [] s := .refl
  unfold finishRun
  rcases ha : s.activeRunId with - | runId
  · exact ⟨_, h₀.tail (.refuseFinish hl ha)⟩
  · have h₁ : Run (Step cfg) s _ (s.atLock (.finishing runId)) := h₀.tail (.finishRun hl ha)
    rcases raises
    · have h₂ := h₁.tail (.closeRow now rfl)
      have h₃ : Run (Step cfg) s _ (atLock
          { s with db := s.db.finishRun runId now, activeRunId := none } .free) :=
        h₂.tail (.closeRun rfl)
      rw [atLock_free { s with db := s.db.finishRun runId now, activeRunId := none } hl] at h₃
      exact ⟨_, h₃⟩
    · have h₂ : Run (Step cfg) s _ (s.atLock .free) := h₁.tail (.failCloseRow rfl)
      rw [atLock_free s hl] at h₂
      exact ⟨_, h₂⟩

theorem registerNode_run (cfg : Config) (registration : NodeRegistration)
    (raises : Option RegisterWrite) :
    ∃ tr, Run (Step cfg) s tr (s.registerNode registration raises).2 := by
  have h₀ : Run (Step cfg) s [] s := .refl
  have h₁ := h₀.tail (.register registration)
  cases raises with
  | none => exact ⟨_, h₁⟩
  | some write => exact ⟨_, h₁⟩

/-- The report of a job that an agent runs: the handler and the agent's part, which
forgets the job, make the two steps of a callback. -/
theorem jobCallback_run (cfg : Config) {result : JobResult} {e : Execution} {pre post : List Execution}
    (he : s.executing = pre ++ e :: post) (hjob : result.jobId = e.job.jobId)
    (hnode : result.nodeId = e.nodeId) (hlost : e.lost = false) (now : Timestamp) (raises : Bool) :
    ∃ tr t, Run (Step cfg) s tr t ∧ t.memory = (s.jobCallback result now raises).2.memory ∧
      t.db = (s.jobCallback result now raises).2.db ∧ t.executing = pre ++ post := by
  have h₀ : Run (Step cfg) s [] s := .refl
  have h₁ := h₀.tail (.callback he hjob hnode hlost)
  cases raises with
  | false => exact ⟨_, _, h₁.tail (@Step.recordResult _ _ _ result [] _ now rfl), rfl, rfl, rfl⟩
  | true => exact ⟨_, _, h₁.tail (@Step.failRecordResult _ _ _ result [] _ rfl), rfl, rfl, rfl⟩

/-! ### Memory -/

/-- Nothing a failing request would have to undo: what its handler does to memory
before its write raises changes nothing. -/
def NothingToUndo (s : Scheduler policies) : Request → Prop
  | .startRun request runId _ raises =>
      raises = true ∨ runId ∈ s.db.runs →
        ∀ policy policyName, s.Admits request policy policyName →
          policy = s.policy ∧ policyName = s.policyName
  | .finishRun _ _ => True
  | .register registration raises =>
      raises ≠ none → s.cluster.registrations.get? registration.nodeId = some registration
  | .jobCallback result _ raises =>
      raises = true → s.cluster.reservations.get? result.jobId = none

/-- A request that ends with an error leaves the memory as it was. -/
def KeepsMemory (s : Scheduler policies) (request : Request) : Prop :=
  ∀ error, (s.serve request).1 = .error error → (s.serve request).2.memory = s.memory

theorem startRun_keepsMemory_iff :
    s.KeepsMemory (.startRun request runId now raises) ↔
      s.NothingToUndo (.startRun request runId now raises) := by
  show (∀ error, (s.startRun request runId now raises).1 = .error error →
    (s.startRun request runId now raises).2.memory = s.memory) ↔ (_ → _)
  by_cases hadmits : ∃ policy policyName, s.Admits request policy policyName
  · obtain ⟨policy, policyName, hadmits⟩ := hadmits
    by_cases hdb : raises = true ∨ runId ∈ s.db.runs
    · rw [startRun_of_raises hadmits hdb]
      constructor
      · rintro hkeeps - policy' policyName' hadmits'
        obtain ⟨rfl, rfl⟩ := Prod.mk.inj (Option.some.inj (hadmits.2.2.symm.trans hadmits'.2.2))
        have hmemory := hkeeps .uncaught rfl
        exact ⟨congrArg Memory.policy hmemory, congrArg Memory.policyName hmemory⟩
      · intro hsame error _
        obtain ⟨rfl, rfl⟩ := hsame hdb policy policyName hadmits
        rfl
    · obtain ⟨db, -, hrun⟩ := startRun_of_inserted hadmits hdb now
      rw [hrun]
      exact iff_of_true (fun _ => nofun) fun h => absurd h hdb
  · have hrefused : ∀ policy policyName, ¬ s.Admits request policy policyName :=
      fun policy policyName h => hadmits ⟨policy, policyName, h⟩
    obtain ⟨error, hrun⟩ := startRun_of_not_admits hrefused runId now raises
    rw [hrun]
    exact iff_of_true (fun _ _ => rfl) fun _ policy policyName h => absurd h (hrefused policy policyName)

/-- `finish_run` touches memory only after its write. -/
theorem finishRun_keepsMemory (now : Timestamp) (raises : Bool) :
    s.KeepsMemory (.finishRun now raises) := by
  intro error herror
  show (s.finishRun now raises).2.memory = s.memory
  have herror' : (s.finishRun now raises).1 = .error error := herror
  unfold finishRun at herror' ⊢
  rcases ha : s.activeRunId with - | runId
  · rfl
  · rw [ha] at herror'
    dsimp only at herror' ⊢
    rcases raises
    · cases herror'
    · rfl

/-- A handler that changes nothing in memory but the cluster, whether it fails or
not, keeps the memory when it fails just if the cluster is then the same. -/
theorem keepsMemory_iff_of_memory_eq {request : Request} {cluster : ClusterState}
    (h : (s.serve request).2.memory = { s.memory with cluster := cluster }) :
    s.KeepsMemory request ↔
      ((∃ error, (s.serve request).1 = .error error) → cluster = s.cluster) := by
  unfold KeepsMemory
  rw [h]
  constructor
  · rintro hkeeps ⟨error, herror⟩
    exact congrArg Memory.cluster (hkeeps error herror)
  · intro hsame error herror
    rw [hsame ⟨error, herror⟩]
    rfl

theorem registerNode_keepsMemory_iff (hkeyed : s.cluster.Keyed) {registration : NodeRegistration}
    {raises : Option RegisterWrite} :
    s.KeepsMemory (.register registration raises) ↔
      s.NothingToUndo (.register registration raises) := by
  have hmemory : (s.serve (.register registration raises)).2.memory
      = { s.memory with cluster := s.cluster.registerNode registration } := by
    cases raises <;> rfl
  rw [keepsMemory_iff_of_memory_eq hmemory, ClusterState.registerNode_eq_self_iff hkeyed]
  refine imp_congr_left ?_
  show (∃ error, (s.registerNode registration raises).1 = .error error) ↔ _
  unfold registerNode
  rcases raises with - | write
  · exact iff_of_false (fun ⟨_, herror⟩ => nomatch herror) fun h => h rfl
  · exact iff_of_true ⟨_, rfl⟩ nofun

theorem jobCallback_keepsMemory_iff {result : JobResult} :
    s.KeepsMemory (.jobCallback result now raises) ↔
      s.NothingToUndo (.jobCallback result now raises) := by
  have hmemory : (s.serve (.jobCallback result now raises)).2.memory
      = { s.memory with cluster := s.cluster.releaseSlot result.jobId } := by
    cases raises <;> rfl
  rw [keepsMemory_iff_of_memory_eq hmemory, ClusterState.releaseSlot_eq_self_iff]
  refine imp_congr_left ?_
  show (∃ error, (s.jobCallback result now raises).1 = .error error) ↔ _
  unfold jobCallback
  rcases raises
  · exact iff_of_false (fun ⟨_, herror⟩ => nomatch herror) nofun
  · exact iff_of_true ⟨_, rfl⟩ rfl

/-! ### The theorem -/

/-- **Failed requests**: in every reachable state, a request that ends with an
error leaves the run, the policy and its name, the queue and the tables as they
were if and only if it had nothing to undo. -/
theorem failed_requests_keep_memory_iff {policy : Policy} {policyName : String}
    {tr : List (Scheduler policies × Event)}
    (h : Run (Step cfg) (init (P := policies) policy policyName) tr s) (request : Request) :
    (∀ error, (s.serve request).1 = .error error → (s.serve request).2.memory = s.memory) ↔
      s.NothingToUndo request := by
  cases request with
  | startRun request runId now raises => exact startRun_keepsMemory_iff
  | finishRun now raises => exact iff_of_true (finishRun_keepsMemory now raises) trivial
  | register registration raises => exact registerNode_keepsMemory_iff (run_sound h).keyed
  | jobCallback result now raises => exact jobCallback_keepsMemory_iff

/-- A run under the policy in place, before the policy was asked anything: the
insertion raises and nothing has changed. -/
theorem failed_start_keeps_memory :
    (defaultInit.serve (.startRun {} "r" 0 true)).1 = .error .uncaught ∧
    (defaultInit.serve (.startRun {} "r" 0 true)).2.memory = defaultInit.memory := by
  have hnew : defaultInit.newPolicy {} = some (.roundRobin {}, "round_robin") :=
    newPolicy_round_robin rfl
  have hadmits : defaultInit.Admits {} (.roundRobin {}) "round_robin" := ⟨rfl, by decide, hnew⟩
  have hrun : defaultInit.startRun {} "r" 0 true = (.error .uncaught, _) :=
    startRun_of_raises hadmits (Or.inl rfl) 0
  have herror : (defaultInit.serve (.startRun {} "r" 0 true)).1 = .error .uncaught :=
    congrArg Prod.fst hrun
  have h₀ : Run (Step {}) defaultInit [] defaultInit := .refl
  refine ⟨herror, (failed_requests_keep_memory_iff h₀ _).mpr ?_ _ herror⟩
  rintro - policy policyName ⟨-, -, hpolicy⟩
  obtain ⟨rfl, rfl⟩ := Prod.mk.inj (Option.some.inj (hnew.symm.trans hpolicy))
  exact ⟨rfl, rfl⟩

/-- Three requests whose writes raise. -/
def failingStart : Request := .startRun { policy := some "least_loaded" } "r" 0 true

/-- A registration whose profile cannot be stored. -/
def failingRegister : Request := .register (ClusterState.nodeOf "n" 1 64) (some .saveNodeProfile)

/-- A report whose result cannot be stored. -/
def failingCallback : Request := .jobCallback (successOn "m") 0 true

/-- The new policy stays in place; the node stays registered; the slot of the job
stays released while its result is lost. -/
theorem failed_requests_change_memory :
    ((defaultInit.serve failingStart).1 = .error .uncaught ∧
      (defaultInit.serve failingStart).2.policyName = "least_loaded" ∧
      (defaultInit.serve failingStart).2.memory ≠ defaultInit.memory) ∧
    ((defaultInit.serve failingRegister).1 = .error .uncaught ∧
      (defaultInit.serve failingRegister).2.memory ≠ defaultInit.memory) ∧
    ∃ tr s, Run (Step {}) defaultInit tr s ∧
      (s.serve failingCallback).1 = .error .uncaught ∧ (s.serve failingCallback).2.db = s.db ∧
      s.cluster.reservations.get? "j" = some ⟨"m", 1, 0⟩ ∧
      (s.serve failingCallback).2.cluster.reservations.get? "j" = none ∧
      (s.serve failingCallback).2.memory ≠ s.memory := by
  refine ⟨?_, ?_, ?_⟩
  · have hname : (defaultInit.serve failingStart).2.policyName = "least_loaded" := by
      decide +kernel
    refine ⟨by decide +kernel, hname, fun h => ?_⟩
    exact absurd (hname.symm.trans (congrArg Memory.policyName h)) (by decide)
  · refine ⟨rfl, fun h => ?_⟩
    have hkeys := congrArg (fun m => m.cluster.registrations.keys) h
    exact absurd hkeys (by decide +kernel)
  · obtain ⟨tr, s, hrun, -, -, -, -, hreservation, -⟩ := lost_response_run
    have hreleased : (s.cluster.releaseSlot "j").reservations.get? "j" = none := by
      rw [ClusterState.releaseSlot_reservations, Dict.get?_pop, if_pos rfl]
    refine ⟨tr, s, hrun.of_restrict.1, rfl, rfl, hreservation, hreleased, fun h => ?_⟩
    have hsame := ClusterState.releaseSlot_eq_self_iff.mp (congrArg Memory.cluster h)
    exact absurd (hreservation.symm.trans hsame) nofun

end Scheduler

end HeteroSched
