/-
HeteroSched/SubmitJob.lean

What a request to `POST /jobs` leaves behind when it fails, in any sequence of
requests with anything else happening between them.

Design.  `submitJob` is the handler run to its end, the composite of the three
steps of `SubmitHandler` (`submitJob_run`).  It raises when the row cannot be
inserted: the table has one with this id (the primary key of `jobs`), or a value
of the job cannot be stored (`Storable`).  As long as no call has raised, the jobs
table is the one at the start and the ids submitted since (`mem_jobs_iff`).  So the
first call that raises is one with a value that cannot be stored, or with an id that
was submitted before or was in the table at the start, and by then it has changed the
queue.
-/
import HeteroSched.AtMostOnce

namespace HeteroSched

open Transition

namespace Scheduler

variable {P : PolicyRegistry}

/-! ### The handler -/

/-- The handler `submit_job`, and whether it returned; the job is queued before
its row is inserted. -/
def submitJob (s : Scheduler P) (job : JobRequest) (now : Timestamp) : Bool × Scheduler P :=
  let s := { s with
    cluster := s.cluster.enqueueJob job
    history := { s.history with
      submitted := s.history.submitted ++ [job]
      enqueued := s.history.enqueued ++ [job] } }
  let submittedAt := job.submittedAt.getD now
  match s.db.submitJob job.jobId job.image job.command s.activeRunId (some submittedAt)
      (some job.requirements) now with
  | some db => (true, { s with db := db })
  | none => (false, s)

/-- The handler takes the steps of the system, to the insertion or to its failure. -/
theorem submitJob_run (cfg : Config) (s : Scheduler P) (job : JobRequest) (now : Timestamp) :
    ∃ tr, Run (Step cfg) s tr (s.submitJob job now).2 := by
  have h₀ : Run (Step cfg) s [] s := .refl
  have h₁ := h₀.tail (.submit job)
  have h₂ := h₁.tail (@Step.tagSubmission _ _ _ _ [] _ now rfl)
  unfold submitJob
  rcases hdb : s.db.submitJob job.jobId job.image job.command s.activeRunId
      (some (job.submittedAt.getD now)) (some job.requirements) now with - | db
  · have h₃ := h₂.tail (@Step.failSubmission _ _ _ _ _ _ [] _ rfl)
    exact ⟨_, by simpa only [hdb, List.nil_append] using h₃⟩
  · have h₃ := h₂.tail (@Step.insertSubmission _ _ _ _ _ _ [] _ _ now rfl hdb)
    exact ⟨_, by simpa only [hdb, List.nil_append] using h₃⟩

/-- The values of the job can be written to its row: the instant it was submitted, given
or read from the clock, is one of `to_iso`, and its integers fit their columns. -/
def Storable (job : JobRequest) (now : Timestamp) : Prop :=
  Representable (job.submittedAt.getD now) ∧ FitsInteger job.requirements.cpuRequest ∧
    (∀ n ∈ job.requirements.memoryMb, FitsInteger n) ∧
    ∀ n ∈ job.requirements.size, FitsInteger n

instance (job : JobRequest) (now : Timestamp) : Decidable (Storable job now) :=
  inferInstanceAs (Decidable (_ ∧ _))

theorem storable_iff (job : JobRequest) (runId : Option RunId) (now : Timestamp) :
    (Database.queuedRow job.image job.command runId ((some (job.submittedAt.getD now)).getD now)
      (some job.requirements)).Storable ↔ Storable job now := by
  simp only [JobRow.Storable, Storable, Database.queuedRow, Option.getD_some, Option.map_some,
    Option.bind_some, Option.mem_some_iff, forall_eq']

/-- The call returns when the job can be stored and has no row yet. -/
theorem submitJob_returns_iff (s : Scheduler P) (job : JobRequest) (now : Timestamp) :
    (s.submitJob job now).1 = true ↔ Storable job now ∧ job.jobId ∉ s.db.jobs := by
  rw [← storable_iff job s.activeRunId now]
  unfold submitJob Database.submitJob
  dsimp only
  split_ifs with h
  · exact iff_of_true rfl h
  · exact iff_of_false not_false h

@[simp] theorem submitJob_jobQueue (s : Scheduler P) (job : JobRequest) (now : Timestamp) :
    (s.submitJob job now).2.cluster.jobQueue = s.cluster.jobQueue ++ [job] := by
  simp only [submitJob]
  split <;> rfl

/-- A call that returns inserts a row. -/
theorem submitJob_jobs {s : Scheduler P} {job : JobRequest} {now : Timestamp}
    (h : (s.submitJob job now).1 = true) :
    ∃ row, (s.submitJob job now).2.db.jobs = s.db.jobs.set job.jobId row := by
  rw [submitJob_returns_iff, ← storable_iff job s.activeRunId now] at h
  unfold submitJob Database.submitJob
  dsimp only
  rw [if_pos h]
  exact ⟨_, rfl⟩

/-- And so it appends its key. -/
theorem submitJob_keys {s : Scheduler P} {job : JobRequest} {now : Timestamp}
    (h : (s.submitJob job now).1 = true) :
    (s.submitJob job now).2.db.jobs.keys = s.db.jobs.keys ++ [job.jobId] := by
  have hnew := ((submitJob_returns_iff s job now).mp h).2
  obtain ⟨row, hjobs⟩ := submitJob_jobs h
  rw [hjobs]
  exact (Dict.keys_setEntries _ _ _).trans (if_neg hnew)

/-! ### Sequences of requests -/

/-- What happens next: a request is served to its end, or anything else. -/
inductive Service
  | submit (job : JobRequest) (now : Timestamp)
  | other (e : Event)

/-- The steps of the handler of `POST /jobs`. -/
def OfSubmission : Event → Prop
  | .submit _ | .tagSubmission .. | .insertSubmission .. | .failSubmission _ => True
  | _ => False

/-- The system with requests served one at a time. -/
inductive Serve (cfg : Config) (s : Scheduler P) : Service → Scheduler P → Prop
  | submit (job : JobRequest) (now : Timestamp) :
      Serve cfg s (.submit job now) (s.submitJob job now).2
  | other {e : Event} {t : Scheduler P} (he : ¬ OfSubmission e) (h : Step cfg s e t) :
      Serve cfg s (.other e) t

/-- The id a request submits, the ids it adds to the queue and to the table. -/
def submittedBy : Scheduler P × Service → List JobId
  | (_, .submit job _) => [job.jobId]
  | (_, .other _) => []

/-- The ids that a request appends to the queue. -/
def queuedBy : Scheduler P × Service → List JobId
  | (s, .submit job now) =>
      ((s.submitJob job now).2.cluster.jobQueue.drop s.cluster.jobQueue.length).map fun job => job.jobId
  | (_, .other _) => []

/-- The ids of the rows that a request inserts. -/
def insertedBy : Scheduler P × Service → List JobId
  | (s, .submit job now) => (s.submitJob job now).2.db.jobs.keys.drop s.db.jobs.keys.length
  | (_, .other _) => []

/-- No request that raises changes the queue; no id is queued by two requests;
what requests queue and what they insert correspond one to one. -/
structure AllOrNothing (tr : List (Scheduler P × Service)) : Prop where
  raised : ∀ s job now, (s, .submit job now) ∈ tr → (s.submitJob job now).1 = false →
    (s.submitJob job now).2.cluster.jobQueue = s.cluster.jobQueue
  once : (tr.flatMap queuedBy).Nodup
  rows : (tr.flatMap queuedBy).Perm (tr.flatMap insertedBy)

/-! ### Step lemmas -/

variable {cfg : Config} {s₀ s t : Scheduler P} {tr : List (Scheduler P × Service)}

/-- Nothing else inserts or deletes the row of a job. -/
theorem Step.same_jobs {e : Event} (h : Step cfg s e t) (he : ¬ OfSubmission e) (j : JobId) :
    j ∈ t.db.jobs ↔ j ∈ s.db.jobs := by
  cases h with
  | insertSubmission now hs hdb => exact absurd trivial he
  | recordDispatch now ht hpc => exact Dict.mem_modify
  | recordResult now hr => exact Dict.mem_modify
  | markFailed ht hpc => exact Dict.mem_modify
  | insertRun runId now hl hdb => rw [(Database.startRun_eq_some hdb).1]
  | _ => exact Iff.rfl

/-- No request of the run raises. -/
def NoneRaises (tr : List (Scheduler P × Service)) : Prop :=
  ∀ s job now, (s, .submit job now) ∈ tr → (s.submitJob job now).1 = true

theorem noneRaises_snoc {p : Scheduler P × Service} :
    NoneRaises (tr ++ [p]) ↔ NoneRaises tr ∧
      ∀ job now, p.2 = .submit job now → (p.1.submitJob job now).1 = true := by
  obtain ⟨s, v⟩ := p
  constructor
  · intro h
    refine ⟨fun s job now hm => h s job now (List.mem_append_left _ hm), ?_⟩
    rintro job now rfl
    exact h s job now (List.mem_append_right _ List.mem_cons_self)
  · rintro ⟨htr, hp⟩ s' job now hm
    rcases List.mem_append.mp hm with hm | hm
    · exact htr s' job now hm
    · obtain ⟨rfl, rfl⟩ := Prod.mk.inj (List.mem_singleton.mp hm)
      exact hp job now rfl

/-- As long as no request raises, the table has the rows it started with and those of the
submitted ids. -/
theorem mem_jobs_iff (h : Run (Serve cfg) s₀ tr t) (hnone : NoneRaises tr) (j : JobId) :
    j ∈ t.db.jobs ↔ j ∈ s₀.db.jobs ∨ j ∈ tr.flatMap submittedBy := by
  induction h with
  | refl => simp only [List.flatMap_nil, List.not_mem_nil, or_false]
  | tail _ hs ih =>
      obtain ⟨hbefore, hlast⟩ := noneRaises_snoc.mp hnone
      rw [List.flatMap_append, List.mem_append, ← or_assoc, ← ih hbefore]
      cases hs with
      | submit job now =>
          obtain ⟨row, hjobs⟩ := submitJob_jobs (hlast job now rfl)
          rw [hjobs, Dict.mem_set]
          simp only [List.flatMap_cons, List.flatMap_nil, List.append_nil, submittedBy,
            List.mem_singleton]
          exact or_comm
      | other he hs =>
          rw [hs.same_jobs he]
          simp only [List.flatMap_cons, List.flatMap_nil, List.append_nil, submittedBy,
            List.not_mem_nil, or_false]

/-- Every job that a request of the run submits can be stored. -/
def AllStorable (tr : List (Scheduler P × Service)) : Prop :=
  ∀ p ∈ tr, ∀ job now, p.2 = .submit job now → Storable job now

theorem allStorable_snoc {p : Scheduler P × Service} :
    AllStorable (tr ++ [p]) ↔ AllStorable tr ∧
      ∀ job now, p.2 = .submit job now → Storable job now :=
  forall_mem_snoc
    (C := fun q : Scheduler P × Service => ∀ job now, q.2 = .submit job now → Storable job now)

/-- No request raises just when the ids are new and pairwise distinct and all jobs can be
stored. -/
theorem noneRaises_iff (h : Run (Serve cfg) s₀ tr t) :
    NoneRaises tr ↔ (tr.flatMap submittedBy).Nodup ∧
      (∀ j ∈ tr.flatMap submittedBy, j ∉ s₀.db.jobs) ∧ AllStorable tr := by
  induction h with
  | refl =>
      refine iff_of_true (fun _ _ _ hm => absurd hm List.not_mem_nil) ⟨List.nodup_nil, ?_, ?_⟩
      · exact fun _ hj => absurd hj List.not_mem_nil
      · exact fun _ hp => absurd hp List.not_mem_nil
  | @tail tr t v u hr hs ih =>
      rw [noneRaises_snoc, allStorable_snoc, List.flatMap_append]
      cases hs with
      | submit job now =>
          -- the last request returns when its job can be stored and its id is new
          have hlast : NoneRaises tr → ((∀ job' now', Service.submit job now = .submit job' now' →
              (t.submitJob job' now').1 = true) ↔
              Storable job now ∧ job.jobId ∉ s₀.db.jobs ∧ job.jobId ∉ tr.flatMap submittedBy) := by
            intro hnone
            rw [← not_or, ← mem_jobs_iff hr hnone, ← submitJob_returns_iff t job now]
            constructor
            · exact fun h => h job now rfl
            · rintro h job' now' heq
              cases heq
              exact h
          have hstorable : (∀ job' now', Service.submit job now = .submit job' now' →
              Storable job' now') ↔ Storable job now := by
            constructor
            · exact fun h => h job now rfl
            · rintro h job' now' heq
              cases heq
              exact h
          rw [and_congr_right hlast, ih, hstorable]
          simp only [List.flatMap_cons, List.flatMap_nil, List.append_nil, submittedBy,
            List.nodup_append, List.nodup_singleton, List.mem_append, List.mem_singleton, true_and,
            or_imp, forall_and, forall_eq]
          constructor
          · rintro ⟨⟨hn, hd, hall⟩, hjob, hj, hnew⟩
            exact ⟨⟨hn, fun a ha hab => hnew (hab ▸ ha)⟩, ⟨hd, hj⟩, hall, hjob⟩
          · rintro ⟨⟨hn, hnew⟩, ⟨hd, hj⟩, hall, hjob⟩
            exact ⟨⟨hn, hd, hall⟩, hjob, hj, fun hm => hnew _ hm rfl⟩
      | other he hs =>
          simp only [List.flatMap_cons, List.flatMap_nil, List.append_nil, submittedBy, reduceCtorEq,
            false_imp_iff, implies_true, and_true]
          exact ih

/-- Every request queues its job. -/
theorem flatMap_queuedBy (tr : List (Scheduler P × Service)) :
    tr.flatMap queuedBy = tr.flatMap submittedBy := by
  refine congrArg (List.flatMap · tr) (funext fun p => ?_)
  obtain ⟨s, ⟨job, now⟩ | e⟩ := p
  · simp only [queuedBy, submittedBy, submitJob_jobQueue, List.drop_left, List.map_cons,
      List.map_nil]
  · rfl

/-- A request that does not raise inserts its row. -/
theorem NoneRaises.flatMap_insertedBy (h : NoneRaises tr) :
    tr.flatMap insertedBy = tr.flatMap submittedBy := by
  refine List.flatMap_congr fun p hp => ?_
  obtain ⟨s, ⟨job, now⟩ | e⟩ := p
  · simp only [insertedBy, submittedBy, submitJob_keys (h s job now hp), List.drop_left]
  · rfl

/-! ### The theorem -/

/-- In every sequence of requests, with anything else in between, submission is
all or nothing if and only if the submitted ids are pairwise distinct, none of
them was in the table at the start, and every job can be stored. -/
theorem submitJob_all_or_nothing_iff (h : Run (Serve cfg) s₀ tr t) :
    AllOrNothing tr ↔ (tr.flatMap submittedBy).Nodup ∧
      (∀ j ∈ tr.flatMap submittedBy, j ∉ s₀.db.jobs) ∧ AllStorable tr := by
  rw [← noneRaises_iff h]
  constructor
  · intro hall s job now hm
    by_contra hraise
    have hqueue := hall.raised s job now hm (Bool.eq_false_iff.mpr hraise)
    rw [submitJob_jobQueue] at hqueue
    simp at hqueue
  · intro hnone
    refine ⟨fun s job now hm hraise => ?_, ?_, ?_⟩
    · rw [hnone s job now hm] at hraise
      cases hraise
    · rw [flatMap_queuedBy]
      exact ((noneRaises_iff h).mp hnone).1
    · rw [flatMap_queuedBy, hnone.flatMap_insertedBy]

theorem submitJob_all_or_nothing_two :
    AllOrNothing [(defaultInit, .submit (ClusterState.jobOf "i") 0),
      ((defaultInit.submitJob (ClusterState.jobOf "i") 0).2,
        .submit (ClusterState.jobOf "j") 1)] := by
  have h₀ : Run (Serve {}) defaultInit [] defaultInit := .refl
  have hrun := (h₀.tail (.submit (ClusterState.jobOf "i") 0)).tail
    (.submit (ClusterState.jobOf "j") 1)
  refine (submitJob_all_or_nothing_iff hrun).mpr ⟨by decide, fun j _ => ?_, ?_⟩
  · exact Dict.not_mem_empty j
  · intro p hp job now heq
    rcases List.mem_cons.mp hp with rfl | hp
    · cases heq
      decide
    · obtain rfl := List.mem_singleton.mp hp
      cases heq
      decide

/-- A second request with the same id raises and leaves its job in the queue. -/
theorem submitJob_raises_and_queues :
    let s := (defaultInit.submitJob (ClusterState.jobOf "j") 0).2
    let t := (s.submitJob (ClusterState.jobOf "j") 1).2
    Run (Serve {}) defaultInit [(defaultInit, .submit (ClusterState.jobOf "j") 0),
      (s, .submit (ClusterState.jobOf "j") 1)] t ∧
    (s.submitJob (ClusterState.jobOf "j") 1).1 = false ∧
    s.cluster.jobQueue = [ClusterState.jobOf "j"] ∧
    t.cluster.jobQueue = [ClusterState.jobOf "j", ClusterState.jobOf "j"] ∧
    t.db.jobs.keys = ["j"] := by
  intro s t
  have h₀ : Run (Serve {}) defaultInit [] defaultInit := .refl
  have hrun := (h₀.tail (.submit (ClusterState.jobOf "j") 0)).tail
    (.submit (ClusterState.jobOf "j") 1)
  exact ⟨hrun, by decide +kernel, rfl, rfl, by decide +kernel⟩

end Scheduler

end HeteroSched
