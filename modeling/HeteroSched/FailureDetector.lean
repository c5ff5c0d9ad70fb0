/-
HeteroSched/FailureDetector.lean

The failure detector of `ClusterState`: which nodes `remove_expired_nodes` keeps
and which it removes, after any registrations, heartbeats and expiries.

Design.  A run carries its clock, which never goes back.  The expiry looks at
`last_heartbeat` only, and what stands there is known from the run
(`LastSigns`): the time of the latest heartbeat of a node, unless the node was
removed since.  A registration leaves no time anywhere.  Hence the two ways the
detector can be wrong: a node that never sends a heartbeat has no time to be
compared (`detection_complete_iff`), and a node that comes back is judged by the
last heartbeat of its previous life (`detection_accurate_iff`).
-/
import HeteroSched.ClusterOps

namespace HeteroSched

open Transition

/-! ### Runs with a clock -/

/-- A call of one of the three methods, at a reading of the clock. -/
inductive Sign
  | register (registration : NodeRegistration) (now : ℚ)
  | heartbeat (heartbeat : NodeHeartbeat) (now : ℚ)
  | expire (timeoutSeconds now : ℚ)

/-- The cluster and the time of the last call. -/
structure Monitor where
  clock : ℚ
  cluster : ClusterState := {}

namespace Monitor

/-- One step of the monitor; the clock does not go back. -/
inductive Step (m : Monitor) : Sign → Monitor → Prop
  | register (registration : NodeRegistration) {now : ℚ} (hnow : m.clock ≤ now) :
      Step m (.register registration now) ⟨now, m.cluster.registerNode registration⟩
  | heartbeat (heartbeat : NodeHeartbeat) {now : ℚ} (hnow : m.clock ≤ now) :
      Step m (.heartbeat heartbeat now) ⟨now, m.cluster.registerHeartbeat heartbeat now⟩
  | expire (timeoutSeconds : ℚ) {now : ℚ} (hnow : m.clock ≤ now) :
      Step m (.expire timeoutSeconds now) ⟨now, m.cluster.removeExpiredNodes timeoutSeconds now⟩

/-! ### Signs of life -/

/-- The call registers the node at that time. -/
def RegistersAt (n : NodeId) (r : ℚ) : Sign → Prop
  | .register registration now => registration.nodeId = n ∧ now = r
  | _ => False

/-- The call is a heartbeat of the node at that time. -/
def BeatsAt (n : NodeId) (h : ℚ) : Sign → Prop
  | .heartbeat heartbeat now => heartbeat.nodeId = n ∧ now = h
  | _ => False

/-- The node registered at that time. -/
def RegisteredAt (tr : List (Monitor × Sign)) (n : NodeId) (r : ℚ) : Prop :=
  ∃ p ∈ tr, RegistersAt n r p.2

/-- A heartbeat of the node came at that time. -/
def HeartbeatAt (tr : List (Monitor × Sign)) (n : NodeId) (h : ℚ) : Prop :=
  ∃ p ∈ tr, BeatsAt n h p.2

/-- The node registered, or re-registered, at that time or later. -/
def RegisteredSince (tr : List (Monitor × Sign)) (n : NodeId) (since : ℚ) : Prop :=
  ∃ r, since ≤ r ∧ RegisteredAt tr n r

/-- The node sent a heartbeat at that time or later. -/
def HeartbeatSince (tr : List (Monitor × Sign)) (n : NodeId) (since : ℚ) : Prop :=
  ∃ h, since ≤ h ∧ HeartbeatAt tr n h

/-- The node registered or sent a heartbeat at that time or later. -/
def SeenSince (tr : List (Monitor × Sign)) (n : NodeId) (since : ℚ) : Prop :=
  RegisteredSince tr n since ∨ HeartbeatSince tr n since

variable {tr : List (Monitor × Sign)} {m m' : Monitor} {t₀ : ℚ}

theorem registeredAt_snoc {s : Sign} {n : NodeId} {r : ℚ} :
    RegisteredAt (tr ++ [(m, s)]) n r ↔ RegisteredAt tr n r ∨ RegistersAt n r s :=
  exists_mem_snoc (C := fun p : Monitor × Sign => RegistersAt n r p.2)

theorem heartbeatAt_snoc {s : Sign} {n : NodeId} {h : ℚ} :
    HeartbeatAt (tr ++ [(m, s)]) n h ↔ HeartbeatAt tr n h ∨ BeatsAt n h s :=
  exists_mem_snoc (C := fun p : Monitor × Sign => BeatsAt n h p.2)

/-- Registrations and expiries are no heartbeats. -/
theorem heartbeatAt_snoc_of_not {s : Sign} (hs : ∀ n h, ¬ BeatsAt n h s) {n : NodeId} {h : ℚ} :
    HeartbeatAt (tr ++ [(m, s)]) n h ↔ HeartbeatAt tr n h := by
  rw [heartbeatAt_snoc, or_iff_left (hs n h)]

/-! ### What is on record -/

/-- What `last_heartbeat` says of the calls made so far.  A node without an entry
that sent a heartbeat was removed since, so if it is registered it registered
again. -/
structure LastSigns (tr : List (Monitor × Sign)) (m : Monitor) : Prop where
  past : ∀ {n h}, HeartbeatAt tr n h → h ≤ m.clock
  recorded : ∀ {n h}, m.cluster.lastHeartbeat.get? n = some h → HeartbeatAt tr n h
  latest : ∀ {n h}, m.cluster.lastHeartbeat.get? n = some h → ∀ {h'}, HeartbeatAt tr n h' → h' ≤ h
  again : ∀ {n}, n ∈ m.cluster.registrations → n ∉ m.cluster.lastHeartbeat →
    ∀ {h}, HeartbeatAt tr n h → RegisteredSince tr n h

theorem lastSigns_init : LastSigns [] ⟨t₀, {}⟩ := by
  have hnone : ∀ {n h}, ¬ HeartbeatAt [] n h := fun ⟨_, hp, _⟩ => List.not_mem_nil hp
  refine ⟨fun h => absurd h hnone, fun h => ?_, fun _ _ h => absurd h hnone,
    fun _ _ _ h => absurd h hnone⟩
  simp at h

theorem RegisteredSince.snoc {n : NodeId} {since : ℚ} (h : RegisteredSince tr n since)
    (p : Monitor × Sign) : RegisteredSince (tr ++ [p]) n since := by
  obtain ⟨r, hr, hat⟩ := h
  exact ⟨r, hr, registeredAt_snoc.mpr (Or.inl hat)⟩

section Calls

variable {now : ℚ}

/-- A registration adds no heartbeat and leaves the times on record. -/
theorem LastSigns.register (h : LastSigns tr m) (registration : NodeRegistration)
    (hnow : m.clock ≤ now) :
    LastSigns (tr ++ [(m, .register registration now)])
      ⟨now, m.cluster.registerNode registration⟩ := by
  have hsame : ∀ {n h}, HeartbeatAt (tr ++ [(m, .register registration now)]) n h ↔
      HeartbeatAt tr n h :=
    heartbeatAt_snoc_of_not (s := .register registration now) fun _ _ hb => hb
  refine ⟨fun hb => (h.past (hsame.mp hb)).trans hnow, fun hr => hsame.mpr (h.recorded hr),
    fun hr _ hb => h.latest hr (hsame.mp hb), ?_⟩
  intro n hn hnot b hb
  rw [hsame] at hb
  by_cases heq : n = registration.nodeId
  · exact ⟨now, (h.past hb).trans hnow, registeredAt_snoc.mpr (Or.inr ⟨heq.symm, rfl⟩)⟩
  · have hold : n ∈ m.cluster.registrations := (Dict.mem_set.mp hn).resolve_left heq
    exact (h.again hold hnot hb).snoc _

/-- A heartbeat is the latest, and the one on record. -/
theorem LastSigns.heartbeat (h : LastSigns tr m) (heartbeat : NodeHeartbeat)
    (hnow : m.clock ≤ now) :
    LastSigns (tr ++ [(m, .heartbeat heartbeat now)])
      ⟨now, m.cluster.registerHeartbeat heartbeat now⟩ := by
  refine ⟨fun hb => ?_, fun {n t} hr => ?_, fun {n t} hr b hb => ?_, fun {n} hn hnot b hb => ?_⟩
  · rcases heartbeatAt_snoc.mp hb with hb | ⟨-, rfl⟩
    · exact (h.past hb).trans hnow
    · exact le_rfl
  · rw [ClusterState.registerHeartbeat_lastHeartbeat, Dict.get?_set] at hr
    split at hr
    · next heq => exact heartbeatAt_snoc.mpr (Or.inr ⟨heq.symm, Option.some.inj hr⟩)
    · exact heartbeatAt_snoc.mpr (Or.inl (h.recorded hr))
  · rw [ClusterState.registerHeartbeat_lastHeartbeat, Dict.get?_set] at hr
    split at hr
    · obtain rfl := Option.some.inj hr
      rcases heartbeatAt_snoc.mp hb with hb | ⟨-, rfl⟩
      · exact (h.past hb).trans hnow
      · exact le_rfl
    · next hne =>
        rcases heartbeatAt_snoc.mp hb with hb | ⟨heq, -⟩
        · exact h.latest hr hb
        · exact absurd heq.symm hne
  · have hne : n ≠ heartbeat.nodeId := fun heq => hnot (Dict.mem_set.mpr (Or.inl heq))
    have hold : n ∉ m.cluster.lastHeartbeat := fun hm => hnot (Dict.mem_set.mpr (Or.inr hm))
    rcases heartbeatAt_snoc.mp hb with hb | ⟨heq, -⟩
    · exact (h.again hn hold hb).snoc _
    · exact absurd heq.symm hne

/-- What an expiry leaves on record was there before. -/
theorem LastSigns.expire (h : LastSigns tr m) (timeout : ℚ) (hnow : m.clock ≤ now) :
    LastSigns (tr ++ [(m, .expire timeout now)])
      ⟨now, m.cluster.removeExpiredNodes timeout now⟩ := by
  have hsame : ∀ {n h}, HeartbeatAt (tr ++ [(m, .expire timeout now)]) n h ↔
      HeartbeatAt tr n h :=
    heartbeatAt_snoc_of_not (s := .expire timeout now) fun _ _ hb => hb
  have hleft : ∀ {n t}, (m.cluster.removeExpiredNodes timeout now).lastHeartbeat.get? n = some t →
      m.cluster.lastHeartbeat.get? n = some t := by
    intro n t hr
    rw [ClusterState.removeExpiredNodes_lastHeartbeat, Dict.get?_popAll] at hr
    split at hr
    · cases hr
    · exact hr
  refine ⟨fun hb => (h.past (hsame.mp hb)).trans hnow,
    fun hr => hsame.mpr (h.recorded (hleft hr)),
    fun hr _ hb => h.latest (hleft hr) (hsame.mp hb), fun {n} hn hnot b hb => ?_⟩
  obtain ⟨hkept, hn⟩ := Dict.mem_popAll.mp hn
  have hold : n ∉ m.cluster.lastHeartbeat := fun hm => hnot (Dict.mem_popAll.mpr ⟨hkept, hm⟩)
  exact (h.again hn hold (hsame.mp hb)).snoc _

end Calls

theorem LastSigns.step {s : Sign} (h : LastSigns tr m) (hs : Step m s m') :
    LastSigns (tr ++ [(m, s)]) m' := by
  cases hs with
  | register registration hnow => exact h.register registration hnow
  | heartbeat heartbeat hnow => exact h.heartbeat heartbeat hnow
  | expire timeout hnow => exact h.expire timeout hnow

theorem run_lastSigns (h : Run Step ⟨t₀, {}⟩ tr m) : LastSigns tr m :=
  h.invariant_trace lastSigns_init fun _ hl hs => hl.step hs

/-! ### What the expiry decides -/

/-- A node is found expired when its last heartbeat on record is too old. -/
theorem mem_expiredNodes {c : ClusterState} {timeout now : ℚ} {n : NodeId} :
    n ∈ c.expiredNodes timeout now ↔
      ∃ h, c.lastHeartbeat.get? n = some h ∧ h < now - timeout := by
  simp only [ClusterState.expiredNodes, List.mem_map, List.mem_filter, decide_eq_true_eq,
    Prod.exists, exists_and_right, exists_eq_right, ← Dict.get?_eq_some_iff, gt_iff_lt]
  refine exists_congr fun h => and_congr_right fun _ => ?_
  constructor <;> intro <;> linarith

/-! ### The theorems -/

/-- After any registrations, heartbeats and expiries, a check leaves only nodes
that were seen within the timeout if and only if every registered node without a
heartbeat on record registered within the timeout. -/
theorem detection_complete_iff (h : Run Step ⟨t₀, {}⟩ tr m) (timeout now : ℚ) :
    (∀ n ∈ (m.cluster.removeExpiredNodes timeout now).registrations,
      SeenSince tr n (now - timeout)) ↔
    ∀ n ∈ m.cluster.registrations, n ∉ m.cluster.lastHeartbeat →
      RegisteredSince tr n (now - timeout) := by
  have hsigns := run_lastSigns h
  constructor
  · intro hseen n hn hnot
    have hkept : n ∉ m.cluster.expiredNodes timeout now := fun hexp => by
      obtain ⟨t, ht, -⟩ := mem_expiredNodes.mp hexp
      exact hnot (Dict.mem_of_get? ht)
    rcases hseen n (Dict.mem_popAll.mpr ⟨hkept, hn⟩) with hreg | ⟨b, hb, hat⟩
    · exact hreg
    · -- the heartbeat was forgotten, so the node came back after it
      obtain ⟨r, hr, hrat⟩ := hsigns.again hn hnot hat
      exact ⟨r, hb.trans hr, hrat⟩
  · intro hcond n hn
    obtain ⟨hkept, hn⟩ := Dict.mem_popAll.mp hn
    by_cases hnot : n ∈ m.cluster.lastHeartbeat
    · obtain ⟨t, ht⟩ := Dict.mem_iff_get?.mp hnot
      have hrecent : now - timeout ≤ t := by
        by_contra hold
        exact hkept (mem_expiredNodes.mpr ⟨t, ht, not_le.mp hold⟩)
      exact Or.inr ⟨t, hrecent, hsigns.recorded ht⟩
    · exact Or.inl (hcond n hn hnot)

/-- The run of a node that registers and sends one heartbeat. -/
theorem one_heartbeat_run :
    Run Step ⟨0, {}⟩
      [(⟨0, {}⟩, .register (ClusterState.nodeOf "n" 1 64) 0),
        (⟨0, ClusterState.registerNode {} (ClusterState.nodeOf "n" 1 64)⟩, .heartbeat ⟨"n", 0⟩ 10)]
      ⟨10, (ClusterState.registerNode {} (ClusterState.nodeOf "n" 1 64)).registerHeartbeat
        ⟨"n", 0⟩ 10⟩ :=
  (Run.refl.tail (.register (ClusterState.nodeOf "n" 1 64) le_rfl)).tail
    (.heartbeat ⟨"n", 0⟩ (by norm_num))

theorem detection_complete_one_heartbeat :
    SeenSince [(⟨0, {}⟩, .register (ClusterState.nodeOf "n" 1 64) 0),
      (⟨0, ClusterState.registerNode {} (ClusterState.nodeOf "n" 1 64)⟩,
        .heartbeat ⟨"n", 0⟩ 10)] "n" (20 - 15) := by
  refine (detection_complete_iff one_heartbeat_run 15 20).mpr (fun n hn hnot => absurd ?_ hnot) "n"
    (by decide +kernel)
  obtain rfl : n = "n" := List.mem_singleton.mp hn
  exact List.mem_singleton.mpr rfl

/-- A node that registers and is never heard of again stays in the cluster. -/
theorem silent_node_kept :
    let m : Monitor := ⟨0, ClusterState.registerNode {} (ClusterState.nodeOf "n" 1 64)⟩
    let tr : List (Monitor × Sign) := [(⟨0, {}⟩, .register (ClusterState.nodeOf "n" 1 64) 0)]
    Run Step ⟨0, {}⟩ tr m ∧
    "n" ∈ (m.cluster.removeExpiredNodes 15 100).registrations ∧
    ¬ SeenSince tr "n" (100 - 15) := by
  intro m tr
  refine ⟨Run.refl.tail (.register (ClusterState.nodeOf "n" 1 64) le_rfl), by decide +kernel, ?_⟩
  rintro (⟨r, hr, p, hp, hat⟩ | ⟨b, hb, p, hp, hat⟩)
  · obtain rfl := List.mem_singleton.mp hp
    obtain ⟨-, rfl⟩ := hat
    norm_num at hr
  · obtain rfl := List.mem_singleton.mp hp
    exact hat

/-- After any registrations, heartbeats and expiries, a check removes no node that
was seen within the timeout if and only if every registered node that registered
within the timeout either has no heartbeat on record or sent one within the
timeout. -/
theorem detection_accurate_iff (h : Run Step ⟨t₀, {}⟩ tr m) (timeout now : ℚ) :
    (∀ n ∈ m.cluster.registrations, SeenSince tr n (now - timeout) →
      n ∈ (m.cluster.removeExpiredNodes timeout now).registrations) ↔
    ∀ n ∈ m.cluster.registrations, RegisteredSince tr n (now - timeout) →
      n ∈ m.cluster.lastHeartbeat → HeartbeatSince tr n (now - timeout) := by
  have hsigns := run_lastSigns h
  constructor
  · intro haccurate n hn hreg hmem
    obtain ⟨t, ht⟩ := Dict.mem_iff_get?.mp hmem
    obtain ⟨hkept, -⟩ := Dict.mem_popAll.mp (haccurate n hn (Or.inl hreg))
    refine ⟨t, ?_, hsigns.recorded ht⟩
    by_contra hold
    exact hkept (mem_expiredNodes.mpr ⟨t, ht, not_le.mp hold⟩)
  · intro hcond n hn hseen
    refine Dict.mem_popAll.mpr ⟨fun hexp => ?_, hn⟩
    obtain ⟨t, ht, hold⟩ := mem_expiredNodes.mp hexp
    have hbeat : HeartbeatSince tr n (now - timeout) :=
      hseen.elim (fun hreg => hcond n hn hreg (Dict.mem_of_get? ht)) id
    -- the time on record is that of the latest heartbeat
    obtain ⟨b, hb, hat⟩ := hbeat
    exact absurd (hb.trans (hsigns.latest ht hat)) (not_le.mpr hold)

theorem detection_accurate_one_heartbeat :
    "n" ∈ (((ClusterState.registerNode {} (ClusterState.nodeOf "n" 1 64)).registerHeartbeat
      ⟨"n", 0⟩ 10).removeExpiredNodes 15 20).registrations := by
  have hbeat : HeartbeatAt [(⟨0, {}⟩, .register (ClusterState.nodeOf "n" 1 64) 0),
      (⟨0, ClusterState.registerNode {} (ClusterState.nodeOf "n" 1 64)⟩,
        .heartbeat ⟨"n", 0⟩ 10)] "n" 10 :=
    ⟨_, List.mem_cons_of_mem _ List.mem_cons_self, rfl, rfl⟩
  refine (detection_accurate_iff one_heartbeat_run 15 20).mpr (fun n hn _ _ => ?_) "n"
    (List.mem_singleton.mpr rfl) (Or.inr ⟨10, by norm_num, hbeat⟩)
  obtain rfl : n = "n" := List.mem_singleton.mp hn
  exact ⟨10, by norm_num, hbeat⟩

/-- An agent that restarts is removed one second after it registered again, by the
last heartbeat it sent before. -/
theorem restarted_node_removed :
    let n := ClusterState.nodeOf "n" 1 64
    let c := (ClusterState.registerNode {} n).registerHeartbeat ⟨"n", 0⟩ 1
    let m : Monitor := ⟨100, c.registerNode n⟩
    let tr : List (Monitor × Sign) := [(⟨0, {}⟩, .register n 0),
      (⟨0, ClusterState.registerNode {} n⟩, .heartbeat ⟨"n", 0⟩ 1), (⟨1, c⟩, .register n 100)]
    Run Step ⟨0, {}⟩ tr m ∧
    "n" ∈ m.cluster.registrations ∧
    RegisteredSince tr "n" (101 - 15) ∧
    "n" ∉ (m.cluster.removeExpiredNodes 15 101).registrations := by
  intro n c m tr
  refine ⟨((Run.refl.tail (.register n le_rfl)).tail (.heartbeat ⟨"n", 0⟩ (by norm_num))).tail
    (.register n (by norm_num)), by decide +kernel, ⟨100, by norm_num, ?_⟩, by decide +kernel⟩
  exact ⟨_, List.mem_cons_of_mem _ (List.mem_cons_of_mem _ List.mem_cons_self), rfl, rfl⟩

end Monitor

end HeteroSched
