/-
HeteroSched/NextRun.lean

Why the next run is not refused.

The harness closes its run when the rows of its jobs are terminal (`wait_for_drain`),
and the next request to open one is answered by the queue and the slot counters
(`start_run`).  The two agree when an exception in `dispatch_job` means that the agent
has not accepted the job: a terminal row is then one of a job that was reported or given
up (`Justified`), such a job is in no other stage (`JobFlow.Staged`), and without jobs
under way no slot is held (`NoLeak`).  Writes to the database may fail; a row that is
missing or not terminal only makes the harness wait.
-/
import HeteroSched.Quiescence
import HeteroSched.Submission

namespace HeteroSched

open Transition

namespace Database

variable {db db' : Database} {j k : JobId} {Q : JobRow → Prop} {f : JobRow → JobRow}

/-- What a write to one row does not bring about was there before. -/
theorem RowIs.of_modify (h : db'.RowIs j Q) (hjobs : db'.jobs = db.jobs.modify k f)
    (hf : j = k → ∀ row, Q (f row) → Q row) : db.RowIs j Q := by
  obtain ⟨row', hget, hQ⟩ := h
  rw [hjobs, Dict.get?_modify] at hget
  by_cases hj : j = k
  · rw [if_pos hj] at hget
    obtain ⟨row, hrow, rfl⟩ := Option.map_eq_some_iff.mp hget
    exact ⟨row, hj ▸ hrow, hf hj row hQ⟩
  · rw [if_neg hj] at hget
    exact ⟨row', hget, hQ⟩

/-- A new row is not terminal. -/
theorem not_terminal_queuedRow (image : String) (command : Option String) (runId : Option RunId)
    (at' : Timestamp) (requirements : Option JobRequirements) :
    ¬ Terminal (queuedRow image command runId at' requirements) :=
  show ¬ ("queued" = "completed" ∨ "queued" = "failed") by decide

/-- Recording a dispatch makes no row terminal. -/
theorem terminal_of_dispatchedRow {row : JobRow} {n : NodeId} {at' : Timestamp}
    (h : Terminal (dispatchedRow n at' row)) : Terminal row := by
  by_cases hmem : row.status ∈ ["completed", "failed"]
  · rw [Terminal, dispatchedRow, if_pos hmem] at h
    exact h
  · rw [Terminal, dispatchedRow, if_neg hmem] at h
    exact absurd h (show ¬ ("dispatched" = "completed" ∨ "dispatched" = "failed") by decide)

end Database

namespace Scheduler

variable {P : PolicyRegistry} {cfg : Config} {s t : Scheduler P} {e : Event} {j : JobId}

/-- Job ids are not submitted twice, and an exception in `dispatch_job` means that the
agent did not accept the job. -/
def CleanDispatches (s : Scheduler P) : Event → Prop
  | .submit job => job.jobId ∉ s.submittedIds
  | .raise t => t.pc = .posting
  | _ => True

theorem CleanDispatches.freshIds (h : CleanDispatches s e) : FreshIds s e := by
  cases e with
  | submit job => exact h
  | _ => trivial

theorem CleanDispatches.act (h : CleanDispatches s e) {a : JobFlow.Act JobId NodeId}
    (ha : act e = some a) : JobFlow.Clean s.flow a := by
  cases a with
  | lose j n =>
      obtain ⟨th, rfl, hpc⟩ := act_eq_lose ha
      exact hpc h
  | _ => exact h.freshIds.act ha

/-! ### What a terminal row says -/

/-- A terminal row is one of a job that was reported or given up. -/
structure Justified (s : Scheduler P) : Prop where
  rows : ∀ j, s.db.RowIs j Database.Terminal →
    j ∈ s.history.calledBack ∨ j ∈ s.history.abandoned
  results : ∀ r ∈ s.results, r.jobId ∈ s.history.calledBack

theorem justified_init (policy : P.Instance) (policyName : String) :
    Justified (init policy policyName) where
  rows := by
    rintro j ⟨row, hrow, -⟩
    cases hrow
  results := fun _ h => absurd h List.not_mem_nil

theorem Step.calledBack_subset (h : Step cfg s e t) (hj : j ∈ s.history.calledBack) :
    j ∈ t.history.calledBack := by
  cases h with
  | callback he hjob hnode => exact List.mem_append_left _ hj
  | _ => exact hj

theorem Step.abandoned_subset (h : Step cfg s e t) (hj : j ∈ s.history.abandoned) :
    j ∈ t.history.abandoned := by
  cases h with
  | markFailed ht hpc => exact List.mem_append_left _ hj
  | failMarkFailed ht hpc => exact List.mem_append_left _ hj
  | _ => exact hj

/-- A row is terminal since before, or because its job is given up, or because a result
is recorded. -/
theorem Step.terminal_origin (h : Step cfg s e t) (hrow : t.db.RowIs j Database.Terminal) :
    s.db.RowIs j Database.Terminal ∨ j ∈ t.history.abandoned ∨ ∃ r ∈ s.results, r.jobId = j := by
  cases h with
  | @insertSubmission job runId at' pre post db now hs hdb =>
      obtain ⟨-, rfl⟩ := Database.submitJob_eq_some hdb
      obtain ⟨row, hget, hterminal⟩ := hrow
      rw [Dict.get?_set] at hget
      split at hget
      · obtain rfl := Option.some.inj hget
        exact absurd hterminal (Database.not_terminal_queuedRow _ _ _ _ _)
      · exact Or.inl ⟨row, hget, hterminal⟩
  | recordDispatch now ht hpc =>
      exact Or.inl (hrow.of_modify (Database.dispatchJob_jobs ..) fun _ _ h =>
        Database.terminal_of_dispatchedRow h)
  | @markFailed th pre post ht hpc =>
      by_cases hj : j = th.job.jobId
      · exact Or.inr (Or.inl (List.mem_append_right _ (List.mem_singleton.mpr hj)))
      · exact Or.inl (hrow.of_modify (Database.markJobFailed_jobs _) fun heq => absurd heq hj)
  | @recordResult result pre post now hr =>
      by_cases hj : j = result.jobId
      · exact Or.inr (Or.inr ⟨result, by rw [hr]; simp, hj.symm⟩)
      · exact Or.inl (hrow.of_modify (Database.recordJobResult_jobs ..) fun heq => absurd heq hj)
  | insertRun runId now hl hdb =>
      rw [Database.RowIs, (Database.startRun_eq_some hdb).1] at hrow
      exact Or.inl hrow
  | _ => exact Or.inl hrow

theorem Justified.step (h : Justified s) (hs : Step cfg s e t) : Justified t where
  rows := by
    intro j hrow
    rcases hs.terminal_origin hrow with hrow | hj | ⟨r, hr, rfl⟩
    · exact (h.rows j hrow).imp hs.calledBack_subset hs.abandoned_subset
    · exact Or.inr hj
    · exact Or.inl (hs.calledBack_subset (h.results r hr))
  results := by
    intro r hr
    cases hs with
    | callback he hjob hnode =>
        rcases List.mem_cons.mp hr with rfl | hr
        · exact List.mem_append_right _ (List.mem_singleton.mpr rfl)
        · exact List.mem_append_left _ (h.results r hr)
    | recordResult now heq => exact h.results r (by rw [heq]; exact mem_split_of_mem hr)
    | failRecordResult heq => exact h.results r (by rw [heq]; exact mem_split_of_mem hr)
    | _ => exact h.results r hr

/-! ### All rows terminal -/

/-- The row of every submitted job is terminal. -/
def AllTerminal (s : Scheduler P) : Prop :=
  ∀ j ∈ s.submittedIds, s.db.RowIs j Database.Terminal

/-- What holds of every run in which dispatches fail only cleanly. -/
structure Orderly (s : Scheduler P) : Prop where
  staged : JobFlow.Staged s.flow
  noLeak : NoLeak s
  justified : Justified s

theorem orderly_init (policy : P.Instance) (policyName : String) :
    Orderly (init policy policyName) where
  staged := staged_init policy policyName
  noLeak := noLeak_init policy policyName
  justified := justified_init policy policyName

theorem Orderly.step (h : Orderly s) (hc : CleanDispatches s e) (hs : Step cfg s e t) :
    Orderly t where
  staged := hs.flow_keeps h.staged fun _ _ ha hg => h.staged.step (hc.act ha) hg
  noLeak := h.noLeak.step hc.freshIds hs
  justified := h.justified.step hs

/-- Then no job is queued or on a node. -/
theorem Orderly.idle (h : Orderly s) (hall : s.AllTerminal) (j : JobId) :
    s.flow.queued.count j = 0 ∧ JobFlow.times s.flow.holding j = 0 := by
  have hstages := h.staged.stages_eq j
  simp only [JobFlow.stages] at hstages
  rw [JobFlow.holding, JobFlow.times_add, JobFlow.times_add]
  by_cases hj : j ∈ s.submittedIds
  · -- the one stage a submitted job is in is that of a reported or an abandoned one
    have hle := h.staged.tokens.submitted_le j
    have hpos : 0 < s.flow.abandoned.count j + s.flow.reported.count j := by
      rcases h.justified.rows j (hall j hj) with hback | hgone
      · exact Nat.add_pos_right _ (Multiset.count_pos.mpr (Multiset.mem_coe.mpr hback))
      · exact Nat.add_pos_left (Multiset.count_pos.mpr (Multiset.mem_coe.mpr hgone)) _
    omega
  · have hnone : s.flow.submitted.count j = 0 :=
      Multiset.count_eq_zero.mpr fun hm => hj (Multiset.mem_coe.mp hm)
    omega

theorem Orderly.jobQueue_eq_nil (h : Orderly s) (hall : s.AllTerminal) :
    s.cluster.jobQueue = [] := by
  refine List.eq_nil_iff_forall_not_mem.mpr fun job hjob => ?_
  have hzero := (h.idle hall job.jobId).1
  exact Multiset.count_eq_zero.mp hzero (Multiset.mem_coe.mpr (List.mem_map_of_mem hjob))

theorem Orderly.not_onNode (h : Orderly s) (hall : s.AllTerminal) (j : JobId) (n : NodeId) :
    ¬ s.OnNode j n := by
  intro hn
  have hpos := JobFlow.times_pos ((onNode_iff s j n).mp hn)
  have hzero := (h.idle hall j).2
  omega

/-- `start_run` finds nothing in flight. -/
theorem Orderly.runningTotal_eq_zero (h : Orderly s) (hall : s.AllTerminal) :
    s.cluster.runningTotal = 0 :=
  ClusterState.runningTotal_eq_zero fun n => (h.noLeak.counters_zero (h.not_onNode hall) n).1

/-- The rows stay terminal, and a handler that has counted the queue has found it
empty. -/
structure AllOver (s : Scheduler P) : Prop where
  orderly : Orderly s
  terminal : s.AllTerminal
  counted : ∀ request queueSize, s.runLock = .counted request queueSize → queueSize = 0

/-- Any step that is allowed, and submits no job. -/
def NoSubmission (s : Scheduler P) (e : Event) : Prop :=
  CleanDispatches s e ∧ ∀ job, e ≠ .submit job

theorem AllOver.step (h : AllOver s) (hc : NoSubmission s e) (hs : Step cfg s e t) :
    AllOver t where
  orderly := h.orderly.step hc.1 hs
  terminal := by
    intro j hj
    rcases hs.submitted_eq with heq | ⟨job, rfl, -⟩
    · rw [submittedIds, heq] at hj
      exact hs.rowIs_terminal (h.terminal j hj)
    · exact absurd rfl (hc.2 job)
  counted := by
    intro request queueSize hl
    cases hs with
    | countQueue hl' =>
        injection hl with hrequest hsize
        rw [← hsize]
        exact congrArg List.length (h.orderly.jobQueue_eq_nil h.terminal)
    | startRun _ _ | readCounters _ _ | refuseInFlight _ _ | swapPolicy _ _ | refusePolicy _ _
    | listNodes _ | insertRun _ _ _ _ | failInsertRun _ | openRun _ | finishRun _ _ | closeRow _ _
    | failCloseRow _ | closeRun _ => cases hl
    | _ => exact h.counted request queueSize hl

theorem AllOver.not_refused (h : AllOver s) (hs : Step cfg s e t) : e ≠ .refuseInFlight := by
  rintro rfl
  cases hs with
  | @refuseInFlight request queueSize hl hdrained =>
      have hsize := h.counted request queueSize hl
      have htotal := h.orderly.runningTotal_eq_zero h.terminal
      omega

/-! ### The theorem -/

/-- In every run with distinct job ids in which dispatches fail only cleanly, whatever
expires or is lost in the database: once the row of every submitted job is terminal, at a
moment when no `start_run` is between its two readings, and as long as no further job is
submitted, the queue is empty, no slot is held, all counters are zero, and no request to
open a run is refused because jobs are in flight. -/
theorem next_run_starts {policy : P.Instance} {policyName : String}
    {tr tr' : List (Scheduler P × Event)}
    (h : Run (restrict (Step cfg) CleanDispatches) (init policy policyName) tr s)
    (hterminal : s.AllTerminal) (hlock : ∀ request n, s.runLock ≠ .counted request n)
    (h' : Run (restrict (Step cfg) NoSubmission) s tr' t) :
    (t.cluster.jobQueue = [] ∧ (∀ j, t.cluster.reservations.get? j = none) ∧
      ∀ n, t.cluster.runningJobs.getD n 0 = 0 ∧ t.cluster.allocatedMemory.getD n 0 = 0) ∧
    ∀ p ∈ tr', p.2 ≠ .refuseInFlight := by
  have hs : AllOver s := by
    refine ⟨?_, hterminal, fun request n hl => absurd hl (hlock request n)⟩
    exact h.invariant (orderly_init policy policyName) fun hs hstep => hs.step hstep.1 hstep.2
  have ht : AllOver t := h'.invariant hs fun hs hstep => hs.step hstep.1 hstep.2
  have hidle := ht.orderly.not_onNode ht.terminal
  refine ⟨⟨ht.orderly.jobQueue_eq_nil ht.terminal, ht.orderly.noLeak.no_reservation hidle,
    ht.orderly.noLeak.counters_zero hidle⟩, ?_⟩
  exact h'.forall_trace hs (fun hs hstep => hs.step hstep.1 hstep.2)
    fun hs hstep => hs.not_refused hstep.2

/-- The only job is given up after its first dispatch has failed, and the next run passes
the check. -/
theorem next_run_starts_given_up :
    ∃ (tr tr' : List (Scheduler policies × Event)) (s t : Scheduler policies),
      Run (restrict (Step { maxDispatchAttempts := 1 }) CleanDispatches) defaultInit tr s ∧
      s.submittedIds = ["j"] ∧ s.history.abandoned = ["j"] ∧
      Run (restrict (Step { maxDispatchAttempts := 1 }) NoSubmission) s tr' t ∧
      t.runLock = .drained {} ∧ (∀ p ∈ tr', p.2 ≠ .refuseInFlight) ∧
      t.cluster.runningJobs.getD "n" 0 = 0 := by
  let cfg : Config := { maxDispatchAttempts := 1 }
  have h₀ : Run (restrict (Step cfg) CleanDispatches) defaultInit [] defaultInit := .refl
  have h₁ := h₀.tail_restrict (.register (ClusterState.nodeOf "n" 1 64)) trivial
  have h₂ := h₁.tail_restrict (.submit (ClusterState.jobOf "j")) List.not_mem_nil
  have h₃ := h₂.tail_restrict (@Step.tagSubmission _ _ _ _ [] _ 0 rfl) trivial
  have h₄ := h₃.tail_restrict (@Step.insertSubmission _ _ _ _ _ _ [] _ _ 0 rfl rfl) trivial
  have h₅ := h₄.tail_restrict (.dequeue rfl rfl) trivial
  have h₆ := h₅.tail_restrict (.offer rfl) trivial
  have h₇ := h₆.tail_restrict (.answer rfl) trivial
  have h₈ := h₇.tail_restrict (@Step.claim _ _ _ (ClusterState.jobOf "j") (idleView "n") _
    (by decide +kernel) (Prod.ext (by decide +kernel) rfl)) trivial
  have h₉ := h₈.tail_restrict (.spawn 0 rfl) trivial
  have h₁₀ := h₉.tail_restrict (@Step.raise _ _ _ _ [] _ rfl (Or.inl rfl)) rfl
  have h₁₁ := h₁₀.tail_restrict (@Step.release _ _ _ _ [] _ rfl rfl) trivial
  have h₁₂ := h₁₁.tail_restrict (@Step.countFailure _ _ _ _ [] _ rfl rfl) trivial
  have h₁₃ := h₁₂.tail_restrict (@Step.giveUp _ _ _ _ [] _ _ rfl rfl (by decide +kernel)) trivial
  have h₁₄ := h₁₃.tail_restrict (@Step.markFailed _ _ _ _ [] _ rfl rfl) trivial
  obtain ⟨tr, s, hrun, hids, hgone, hlock, hactive, hrow, hin⟩ :
      ∃ tr s, Run (restrict (Step cfg) CleanDispatches) defaultInit tr s ∧
        s.submittedIds = ["j"] ∧ s.history.abandoned = ["j"] ∧ s.runLock = .free ∧
        s.activeRunId = none ∧ s.db.RowIs "j" Database.Terminal ∧
        ¬ (s.cluster.queueSize : ℤ) + s.cluster.runningTotal > 0 :=
    ⟨_, _, h₁₄, rfl, rfl, rfl, rfl, ⟨_, rfl, Or.inr rfl⟩, by decide +kernel⟩
  have g₀ : Run (restrict (Step cfg) NoSubmission) s [] s := .refl
  have g₁ := g₀.tail_restrict (@Step.startRun _ _ _ {} hlock hactive) ⟨trivial, by simp⟩
  have g₂ := g₁.tail_restrict (.countQueue rfl) ⟨trivial, by simp⟩
  have g₃ := g₂.tail_restrict (.readCounters rfl hin) ⟨trivial, by simp⟩
  have hall : s.AllTerminal := by
    intro j hj
    rw [hids] at hj
    obtain rfl := List.mem_singleton.mp hj
    exact hrow
  have hnext := next_run_starts hrun hall (fun _ _ hl => nomatch hlock.symm.trans hl) g₃
  exact ⟨tr, _, s, _, hrun, hids, hgone, g₃, rfl, hnext.2, (hnext.1.2.2 "n").1⟩

end Scheduler

end HeteroSched
