/-
HeteroSched/NodeTables.lean

The tables of the nodes in the scheduler's database, from `scheduler/db.py`, and
the handlers of `POST /register` and `POST /heartbeat` that write them.

Design.  INSERT OR REPLACE deletes the old row before it inserts the new one: the
columns it does not name fall back to their defaults, so a node that registers
again has no heartbeat until the next one, and its row moves to the end.

The memory of the scheduler and the tables are two copies of the same facts.  A
handler changes the memory first, which is a step of the scheduler, and then
writes one table after the other; each write is a transaction of its own, and
another handler, also one of the same node, may run in between.  The copies agree
as long as registrations of one node that overlap are equal (`Mirrored`): what a
handler has still to write is what the memory has.
-/
import HeteroSched.HeadOfLine
import HeteroSched.Provenance

namespace HeteroSched

open Transition

/-! ### Tables -/

/-- A row of `nodes`; the key `node_id` is kept by the table. -/
structure NodeRow where
  hostname : String
  agentUrl : String
  registeredAt : Timestamp
  lastHeartbeat : Option Timestamp := none
  currentLoad : ℚ := 0
  deriving DecidableEq, Repr

/-- A row of `node_profiles`, without the benchmark sections. -/
structure NodeProfileRow where
  capabilities : NodeCapabilities
  deriving DecidableEq, Repr

/-- The tables `nodes` and `node_profiles`. -/
structure NodeTables where
  nodes : Dict NodeId NodeRow := ∅
  nodeProfiles : Dict NodeId NodeProfileRow := ∅
  deriving DecidableEq

namespace NodeTables

/-- INSERT OR REPLACE. -/
def insertOrReplace {α : Type} (table : Dict NodeId α) (nodeId : NodeId) (row : α) :
    Dict NodeId α := (table.pop nodeId).set nodeId row

theorem get?_insertOrReplace {α : Type} (table : Dict NodeId α) (nodeId n : NodeId) (row : α) :
    (insertOrReplace table nodeId row).get? n
      = if n = nodeId then some row else table.get? n := by
  rw [insertOrReplace, Dict.get?_set, Dict.get?_pop]
  split
  · rfl
  · rfl

theorem mem_insertOrReplace {α : Type} {table : Dict NodeId α} {nodeId n : NodeId} {row : α} :
    n ∈ insertOrReplace table nodeId row ↔ n = nodeId ∨ n ∈ table := by
  rw [← Dict.get?_isSome_iff, get?_insertOrReplace, ← Dict.get?_isSome_iff]
  by_cases h : n = nodeId
  · simp [h]
  · simp [h]

/-- Insert or replace the row of a node, without a heartbeat. -/
def registerNode (t : NodeTables) (nodeId : NodeId) (hostname agentUrl : String)
    (now : Timestamp) : NodeTables :=
  { t with
    nodes := insertOrReplace t.nodes nodeId
      { hostname := hostname, agentUrl := agentUrl, registeredAt := now } }

/-- Insert or replace the profile of a node. -/
def saveNodeProfile (t : NodeTables) (nodeId : NodeId) (capabilities : NodeCapabilities) :
    NodeTables :=
  { t with nodeProfiles := insertOrReplace t.nodeProfiles nodeId ⟨capabilities⟩ }

/-- Of a node without a row nothing is written. -/
def updateHeartbeat (t : NodeTables) (nodeId : NodeId) (currentLoad : ℚ) (now : Timestamp) :
    NodeTables :=
  { t with
    nodes := t.nodes.modify nodeId fun row =>
      { row with lastHeartbeat := some now, currentLoad := currentLoad } }

/-- The row of a node. -/
def getNode (t : NodeTables) (nodeId : NodeId) : Option NodeRow := t.nodes.get? nodeId

/-- The rows of all nodes. -/
def getAllNodes (t : NodeTables) : List (NodeId × NodeRow) := t.nodes.entries

/-- The row of the node has what it registered with. -/
def NodeAgrees (t : NodeTables) (registration : NodeRegistration) : Prop :=
  ∃ row, t.getNode registration.nodeId = some row ∧
    row.hostname = registration.hostname ∧ row.agentUrl = registration.agentUrl

/-- And so has its profile. -/
def ProfileAgrees (t : NodeTables) (registration : NodeRegistration) : Prop :=
  t.nodeProfiles.get? registration.nodeId = some ⟨registration.profile.capabilities⟩

variable {t : NodeTables} {registration other : NodeRegistration}

theorem nodeAgrees_registerNode (now : Timestamp) :
    NodeAgrees (t.registerNode registration.nodeId registration.hostname registration.agentUrl now)
      registration := by
  refine ⟨⟨registration.hostname, registration.agentUrl, now, none, 0⟩, ?_, rfl, rfl⟩
  simp only [getNode, registerNode, get?_insertOrReplace, if_pos]

/-- The row of another node stays, and so does an equal registration. -/
theorem NodeAgrees.registerNode (h : NodeAgrees t registration)
    (hsame : other.nodeId = registration.nodeId → other = registration) (now : Timestamp) :
    NodeAgrees (t.registerNode other.nodeId other.hostname other.agentUrl now) registration := by
  by_cases hn : other.nodeId = registration.nodeId
  · obtain rfl := hsame hn
    exact nodeAgrees_registerNode now
  · obtain ⟨row, hrow, hagree⟩ := h
    refine ⟨row, ?_, hagree⟩
    simp only [getNode, NodeTables.registerNode, get?_insertOrReplace, if_neg (Ne.symm hn)]
    exact hrow

theorem NodeAgrees.updateHeartbeat (h : NodeAgrees t registration) (n : NodeId) (load : ℚ)
    (now : Timestamp) : NodeAgrees (t.updateHeartbeat n load now) registration := by
  obtain ⟨row, hrow, hhost, hurl⟩ := h
  simp only [getNode] at hrow
  by_cases hn : registration.nodeId = n
  · refine ⟨{ row with lastHeartbeat := some now, currentLoad := load }, ?_, hhost, hurl⟩
    subst hn
    simp only [getNode, NodeTables.updateHeartbeat, Dict.get?_modify, if_pos, hrow,
      Option.map_some]
  · refine ⟨row, ?_, hhost, hurl⟩
    simp only [getNode, NodeTables.updateHeartbeat, Dict.get?_modify, if_neg hn, hrow]

theorem profileAgrees_saveNodeProfile :
    ProfileAgrees (t.saveNodeProfile registration.nodeId registration.profile.capabilities)
      registration := by
  simp only [ProfileAgrees, saveNodeProfile, get?_insertOrReplace, if_pos]

theorem ProfileAgrees.saveNodeProfile (h : ProfileAgrees t registration)
    (hsame : other.nodeId = registration.nodeId → other = registration) :
    ProfileAgrees (t.saveNodeProfile other.nodeId other.profile.capabilities) registration := by
  by_cases hn : other.nodeId = registration.nodeId
  · obtain rfl := hsame hn
    exact profileAgrees_saveNodeProfile
  · simp only [ProfileAgrees, NodeTables.saveNodeProfile, get?_insertOrReplace,
      if_neg (Ne.symm hn)]
    exact h

end NodeTables

/-! ### The handlers -/

/-- A handler of `POST /register` after the memory has the registration: about to
insert the row of `nodes`, or the row of `node_profiles`. -/
inductive RegisterHandler
  | registered (registration : NodeRegistration)
  | stored (registration : NodeRegistration)
  deriving DecidableEq

/-- The registration that a handler is about. -/
def RegisterHandler.registration : RegisterHandler → NodeRegistration
  | .registered registration => registration
  | .stored registration => registration

/-- The scheduler with the tables of its nodes and the handlers that write them:
those of registrations, and those of heartbeats that the memory has. -/
structure Registry (P : PolicyRegistry) where
  scheduler : Scheduler P
  tables : NodeTables := {}
  registering : List RegisterHandler := []
  heartbeats : List NodeHeartbeat := []

namespace Registry

open Scheduler (forall_mem_split mem_split_of_mem mem_of_mem_split)

variable {P : PolicyRegistry}

/-- What happens next: a step of the scheduler, or a write to the tables of nodes. -/
inductive Event
  | scheduler (e : Scheduler.Event)
  | insertNode (registration : NodeRegistration) (now : Timestamp)
  | failInsertNode (registration : NodeRegistration)
  | saveProfile (registration : NodeRegistration)
  | failSaveProfile (registration : NodeRegistration)
  | updateHeartbeat (heartbeat : NodeHeartbeat) (now : Timestamp)
  | failUpdateHeartbeat (heartbeat : NodeHeartbeat)

/-- The handlers that go on after a step of the scheduler. -/
def registeringAfter : Scheduler.Event → List RegisterHandler
  | .register registration => [.registered registration]
  | _ => []

/-- The heartbeats that are to be written after a step of the scheduler. -/
def heartbeatsAfter : Scheduler.Event → List NodeHeartbeat
  | .heartbeat heartbeat _ => [heartbeat]
  | _ => []

/-- One step of the system. -/
inductive Step (cfg : Config) (s : Registry P) : Event → Registry P → Prop
  | scheduler {e : Scheduler.Event} {t : Scheduler P} (h : Scheduler.Step cfg s.scheduler e t) :
      Step cfg s (.scheduler e)
        { s with
          scheduler := t
          registering := registeringAfter e ++ s.registering
          heartbeats := heartbeatsAfter e ++ s.heartbeats }
  -- the two writes of `register_node`
  | insertNode {registration : NodeRegistration} {pre post : List RegisterHandler}
      (now : Timestamp) (hr : s.registering = pre ++ .registered registration :: post) :
      Step cfg s (.insertNode registration now)
        { s with
          tables := s.tables.registerNode registration.nodeId registration.hostname
            registration.agentUrl now
          registering := pre ++ .stored registration :: post }
  | failInsertNode {registration : NodeRegistration} {pre post : List RegisterHandler}
      (hr : s.registering = pre ++ .registered registration :: post) :
      Step cfg s (.failInsertNode registration) { s with registering := pre ++ post }
  | saveProfile {registration : NodeRegistration} {pre post : List RegisterHandler}
      (hr : s.registering = pre ++ .stored registration :: post) :
      Step cfg s (.saveProfile registration)
        { s with
          tables := s.tables.saveNodeProfile registration.nodeId registration.profile.capabilities
          registering := pre ++ post }
  | failSaveProfile {registration : NodeRegistration} {pre post : List RegisterHandler}
      (hr : s.registering = pre ++ .stored registration :: post) :
      Step cfg s (.failSaveProfile registration) { s with registering := pre ++ post }
  -- the write of `heartbeat`
  | updateHeartbeat {heartbeat : NodeHeartbeat} {pre post : List NodeHeartbeat} (now : Timestamp)
      (hh : s.heartbeats = pre ++ heartbeat :: post) :
      Step cfg s (.updateHeartbeat heartbeat now)
        { s with
          tables := s.tables.updateHeartbeat heartbeat.nodeId heartbeat.currentLoad now
          heartbeats := pre ++ post }
  | failUpdateHeartbeat {heartbeat : NodeHeartbeat} {pre post : List NodeHeartbeat}
      (hh : s.heartbeats = pre ++ heartbeat :: post) :
      Step cfg s (.failUpdateHeartbeat heartbeat) { s with heartbeats := pre ++ post }

/-- The system after start-up: no node has a row. -/
def init (policy : P.Instance) (policyName : String) : Registry P where
  scheduler := Scheduler.init policy policyName

variable {cfg : Config} {s t : Registry P} {e : Event}

/-! ### Memory and tables agree -/

/-- Registrations of one node that overlap are equal, and the writes of a
registration do not raise. -/
def SameRegistration (s : Registry P) : Event → Prop
  | .scheduler (.register registration) =>
      ∀ h ∈ s.registering, h.registration.nodeId = registration.nodeId →
        h.registration = registration
  | .failInsertNode _ | .failSaveProfile _ => False
  | _ => True

/-- What the tables do not have yet of a registration in memory, a handler is about
to write; and the handlers write what is in memory. -/
structure Mirrored (s : Registry P) : Prop where
  handlers : ∀ h ∈ s.registering, ∀ reg,
    s.scheduler.cluster.registrations.get? h.registration.nodeId = some reg →
      h.registration = reg
  tables : ∀ reg, s.scheduler.cluster.registrations.get? reg.nodeId = some reg →
    .registered reg ∈ s.registering ∨
      s.tables.NodeAgrees reg ∧ (.stored reg ∈ s.registering ∨ s.tables.ProfileAgrees reg)

theorem mirrored_init (policy : P.Instance) (policyName : String) :
    Mirrored (init policy policyName) where
  handlers := fun _ h => absurd h List.not_mem_nil
  tables := by
    intro reg hreg
    cases hreg

/-- A step of the scheduler that registers no node. -/
theorem Mirrored.of_scheduler (h : Mirrored s) {t : Scheduler P}
    (hreg : ∀ n reg, t.cluster.registrations.get? n = some reg →
      s.scheduler.cluster.registrations.get? n = some reg) (heartbeats : List NodeHeartbeat) :
    Mirrored { s with scheduler := t, heartbeats := heartbeats } where
  handlers := fun handler hmem reg hget => h.handlers handler hmem reg (hreg _ _ hget)
  tables := fun reg hget => h.tables reg (hreg _ _ hget)

theorem registeringAfter_of_ne {e : Scheduler.Event} (he : ∀ reg, e ≠ .register reg) :
    registeringAfter e = [] := by
  cases e with
  | register reg => exact absurd rfl (he reg)
  | _ => rfl

/-- A registration: the memory has it, and its handler has both writes before it. -/
theorem Mirrored.register (h : Mirrored s) {reg : NodeRegistration}
    (hsame : SameRegistration s (.scheduler (.register reg))) :
    Mirrored { s with
      scheduler := { s.scheduler with cluster := s.scheduler.cluster.registerNode reg }
      registering := .registered reg :: s.registering } where
  handlers := by
    intro handler hmem old hold
    simp only [ClusterState.registerNode_registrations, Dict.get?_set] at hold
    rcases List.mem_cons.mp hmem with rfl | hmem
    · exact Option.some.inj ((if_pos rfl).symm.trans hold)
    · by_cases hn : handler.registration.nodeId = reg.nodeId
      · rw [if_pos hn] at hold
        exact (hsame handler hmem hn).trans (Option.some.inj hold)
      · rw [if_neg hn] at hold
        exact h.handlers handler hmem old hold
  tables := by
    intro old hold
    simp only [ClusterState.registerNode_registrations, Dict.get?_set] at hold
    by_cases hn : old.nodeId = reg.nodeId
    · rw [if_pos hn] at hold
      obtain rfl := Option.some.inj hold
      exact Or.inl List.mem_cons_self
    · rw [if_neg hn] at hold
      rcases h.tables old hold with hmem | ⟨hnode, hmem | hprofile⟩
      · exact Or.inl (List.mem_cons_of_mem _ hmem)
      · exact Or.inr ⟨hnode, Or.inl (List.mem_cons_of_mem _ hmem)⟩
      · exact Or.inr ⟨hnode, Or.inr hprofile⟩

theorem Mirrored.step (h : Mirrored s) (hsame : SameRegistration s e) (hs : Step cfg s e t) :
    Mirrored t := by
  cases hs with
  | @scheduler e' t' hstep =>
      by_cases hreg : ∃ reg, e' = .register reg
      · obtain ⟨reg, rfl⟩ := hreg
        cases hstep
        exact h.register hsame
      · have hne : ∀ reg, e' ≠ .register reg := fun reg he => hreg ⟨reg, he⟩
        rw [registeringAfter_of_ne hne]
        exact h.of_scheduler (fun n reg hget => hstep.registrations_get? hne hget) _
  | @insertNode new pre post now hr =>
      have hhandlers := h.handlers
      rw [hr, forall_mem_split] at hhandlers
      refine ⟨forall_mem_split.mpr hhandlers, fun reg hreg => ?_⟩
      have hsame' : new.nodeId = reg.nodeId → new = reg := fun hn => hhandlers.1 reg (hn ▸ hreg)
      have hkeep : ∀ handler ∈ s.registering, handler ≠ .registered new →
          handler ∈ pre ++ .stored new :: post := fun handler hmem hne =>
        mem_split_of_mem (mem_of_mem_split (hr ▸ hmem) hne)
      rcases h.tables reg hreg with hmem | ⟨hnode, hmem | hprofile⟩
      · by_cases hn : reg = new
        · subst hn
          exact Or.inr ⟨NodeTables.nodeAgrees_registerNode now, Or.inl (by simp)⟩
        · exact Or.inl (hkeep _ hmem fun he => hn (RegisterHandler.registered.inj he))
      · exact Or.inr ⟨hnode.registerNode hsame' now, Or.inl (hkeep _ hmem nofun)⟩
      · exact Or.inr ⟨hnode.registerNode hsame' now, Or.inr hprofile⟩
  | @saveProfile new pre post hr =>
      have hhandlers := h.handlers
      rw [hr, forall_mem_split] at hhandlers
      refine ⟨hhandlers.2, fun reg hreg => ?_⟩
      have hsame' : new.nodeId = reg.nodeId → new = reg := fun hn => hhandlers.1 reg (hn ▸ hreg)
      have hkeep : ∀ handler ∈ s.registering, handler ≠ .stored new → handler ∈ pre ++ post :=
        fun handler hmem hne => mem_of_mem_split (hr ▸ hmem) hne
      rcases h.tables reg hreg with hmem | ⟨hnode, hmem | hprofile⟩
      · exact Or.inl (hkeep _ hmem nofun)
      · by_cases hn : reg = new
        · subst hn
          exact Or.inr ⟨hnode, Or.inr NodeTables.profileAgrees_saveNodeProfile⟩
        · exact Or.inr ⟨hnode, Or.inl (hkeep _ hmem fun he =>
            hn (RegisterHandler.stored.inj he))⟩
      · exact Or.inr ⟨hnode, Or.inr (hprofile.saveNodeProfile hsame')⟩
  | @updateHeartbeat heartbeat pre post now hh =>
      refine ⟨h.handlers, fun reg hreg => ?_⟩
      rcases h.tables reg hreg with hmem | ⟨hnode, hrest⟩
      · exact Or.inl hmem
      · exact Or.inr ⟨hnode.updateHeartbeat _ _ now, hrest⟩
  | failInsertNode _ => exact hsame.elim
  | failSaveProfile _ => exact hsame.elim
  | failUpdateHeartbeat _ => exact ⟨h.handlers, h.tables⟩

/-- The scheduler in it takes steps of its own. -/
theorem Step.sound (hs : Step cfg s e t) (h : s.scheduler.cluster.Sound) :
    t.scheduler.cluster.Sound := by
  cases hs with
  | scheduler hstep => exact hstep.sound h
  | _ => exact h

/-- In every run in which registrations of one node that overlap are equal and their
writes succeed: the tables have of every node that is registered and has no handler
under way what the memory has of it. -/
theorem node_rows_agree {policy : P.Instance} {policyName : String}
    {tr : List (Registry P × Event)}
    (h : Run (restrict (Step cfg) SameRegistration) (init policy policyName) tr s) {n : NodeId}
    {reg : NodeRegistration} (hreg : s.scheduler.cluster.registrations.get? n = some reg)
    (hdone : ∀ handler ∈ s.registering, handler.registration.nodeId ≠ n) :
    (∃ row, s.tables.getNode n = some row ∧ row.hostname = reg.hostname ∧
      row.agentUrl = reg.agentUrl) ∧
    s.tables.nodeProfiles.get? n = some ⟨reg.profile.capabilities⟩ := by
  have hsound : s.scheduler.cluster.Sound :=
    h.invariant (I := fun s => s.scheduler.cluster.Sound) ClusterState.sound_init
      fun hs hstep => hstep.2.sound hs
  have hmirrored : Mirrored s :=
    h.invariant (mirrored_init policy policyName) fun hs hstep => hs.step hstep.1 hstep.2
  obtain rfl := hsound.keyed.nodeId_eq hreg
  rcases hmirrored.tables reg hreg with hmem | ⟨hnode, hmem | hprofile⟩
  · exact absurd rfl (hdone _ hmem)
  · exact absurd rfl (hdone _ hmem)
  · exact ⟨hnode, hprofile⟩

/-- A node registers, sends a heartbeat while its profile is still to be written,
and registers again. -/
theorem node_rows_agree_twice :
    ∃ tr s, Run (restrict (Step {}) SameRegistration)
        (init (P := policies) (.roundRobin {}) "round_robin") tr s ∧
      (∃ row, s.tables.getNode "n" = some row ∧ row.hostname = "n" ∧
        row.agentUrl = "http://n") ∧
      s.tables.nodeProfiles.get? "n" =
        some ⟨(ClusterState.nodeOf "n" 1 64).profile.capabilities⟩ := by
  have h₀ : Run (restrict (Step {}) SameRegistration)
    (init (P := policies) (.roundRobin {}) "round_robin") [] _ := .refl
  have h₁ := h₀.tail_restrict (.scheduler (.register (ClusterState.nodeOf "n" 1 64))) nofun
  have h₂ := h₁.tail_restrict (@Step.insertNode _ _ _ _ [] _ 0 rfl) trivial
  have h₃ := h₂.tail_restrict (.scheduler (.heartbeat ⟨"n", 0⟩ 0)) trivial
  have h₄ := h₃.tail_restrict (@Step.updateHeartbeat _ _ _ _ [] _ 1 rfl) trivial
  have h₅ := h₄.tail_restrict (@Step.saveProfile _ _ _ _ [] _ rfl) trivial
  have h₆ := h₅.tail_restrict (.scheduler (.register (ClusterState.nodeOf "n" 1 64))) nofun
  have h₇ := h₆.tail_restrict (@Step.insertNode _ _ _ _ [] _ 2 rfl) trivial
  have h₈ := h₇.tail_restrict (@Step.saveProfile _ _ _ _ [] _ rfl) trivial
  refine ⟨_, _, h₈, node_rows_agree h₈
    (show _ = some (ClusterState.nodeOf "n" 1 64) from ?_) nofun⟩
  decide +kernel

end Registry

end HeteroSched
