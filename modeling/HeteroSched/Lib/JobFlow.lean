/-
HeteroSched/Lib/JobFlow.lean

Jobs handed out one at a time to workers, with retries: an abstract machine.

A job is queued, taken into the hand of the one dispatcher, and placed on a
worker, where it gets a slot and is sent.  The worker may accept it; the sender
may finish, or give up on the attempt, before or after the worker accepted.  A
failed attempt gives the slot back and is then retried or abandoned.  An
accepted job is reported back once, which gives back whatever slot the job holds
at that moment: slots are kept per job, not per attempt.

Design.  Every job has at most one *token*, which moves between the queue, the
hand, the attempts under way and the ends of the line (`Tokens`, kept by every
step, whatever fails).  What the worker does with an accepted job runs beside the
token.  Three disciplines of the attempts then say how the two relate:

* `Clean`: an attempt fails only if the worker did not accept it; then the token
  and the execution never part, and each job is in exactly one stage (`Staged`);
* `RetryUnaccepted`: an accepted job is not retried; then no job is accepted
  twice (`AcceptedOnce`);
* `ReleaseIdle`: the slot of a failed attempt is given back only if the job is
  not running; then every running job holds its slot (`Covered`), and this
  discipline is exactly what it takes (`Step.releaseIdle`).

Without any discipline, a job that was reported or given up and is nowhere on its
way is over (`Over`), and only a retry brings it back (`Over.step`).  A machine that
starts over gives up what was underway (`restart`), except that a worker may still accept
what was being sent to it (`delivered`), and a job that is not underway is not accepted
again (`Step.not_underway`).
-/
import HeteroSched.Lib.Transition

/-- A state of the machine: where the tokens are, what runs, which slots are
held, and what has happened to the jobs so far. -/
structure JobFlow (J N : Type*) where
  queued : Multiset J
  hand : Option J
  sending : Multiset (J × N)
  waiting : Multiset (J × N)
  failing : Multiset (J × N)
  released : Multiset J
  finished : Multiset J
  abandoned : Multiset J
  running : Multiset (J × N)
  reported : Multiset J
  accepted : Multiset J
  submitted : Multiset J
  slots : J → Option N

namespace JobFlow

open Transition

variable {J N : Type*} [DecidableEq J]

/-! ### The machine -/

/-- Nothing submitted yet. -/
def init : JobFlow J N where
  queued := 0
  hand := none
  sending := 0
  waiting := 0
  failing := 0
  released := 0
  finished := 0
  abandoned := 0
  running := 0
  reported := 0
  accepted := 0
  submitted := 0
  slots := fun _ => none

/-- What happens next, and to which job on which worker. -/
inductive Act (J N : Type*)
  | submit (j : J)
  | take (j : J)
  | place (j : J) (n : N)
  | accept (j : J) (n : N)
  | finish (j : J) (n : N)
  | reject (j : J) (n : N)
  | lose (j : J) (n : N)
  | release (j : J) (n : N)
  | retry (j : J)
  | abandon (j : J)
  | report (j : J) (n : N)

/-- One step of the machine. -/
inductive Step (f : JobFlow J N) : Act J N → JobFlow J N → Prop
  | submit (j : J) :
      Step f (.submit j) { f with queued := j ::ₘ f.queued, submitted := j ::ₘ f.submitted }
  | take {j : J} {q : Multiset J} (hq : f.queued = j ::ₘ q) (hh : f.hand = none) :
      Step f (.take j) { f with queued := q, hand := some j }
  | place {j : J} (n : N) (hh : f.hand = some j) :
      Step f (.place j n)
        { f with
          hand := none
          sending := (j, n) ::ₘ f.sending
          slots := Function.update f.slots j (some n) }
  | accept {j : J} {n : N} {r : Multiset (J × N)} (hr : f.sending = (j, n) ::ₘ r) :
      Step f (.accept j n)
        { f with
          sending := r
          waiting := (j, n) ::ₘ f.waiting
          running := (j, n) ::ₘ f.running
          accepted := j ::ₘ f.accepted }
  | finish {j : J} {n : N} {r : Multiset (J × N)} (hr : f.waiting = (j, n) ::ₘ r) :
      Step f (.finish j n) { f with waiting := r, finished := j ::ₘ f.finished }
  | reject {j : J} {n : N} {r : Multiset (J × N)} (hr : f.sending = (j, n) ::ₘ r) :
      Step f (.reject j n) { f with sending := r, failing := (j, n) ::ₘ f.failing }
  | lose {j : J} {n : N} {r : Multiset (J × N)} (hr : f.waiting = (j, n) ::ₘ r) :
      Step f (.lose j n) { f with waiting := r, failing := (j, n) ::ₘ f.failing }
  | release {j : J} {n : N} {r : Multiset (J × N)} (hr : f.failing = (j, n) ::ₘ r) :
      Step f (.release j n)
        { f with
          failing := r
          released := j ::ₘ f.released
          slots := Function.update f.slots j none }
  | retry {j : J} {r : Multiset J} (hr : f.released = j ::ₘ r) :
      Step f (.retry j) { f with released := r, queued := j ::ₘ f.queued }
  | abandon {j : J} {r : Multiset J} (hr : f.released = j ::ₘ r) :
      Step f (.abandon j) { f with released := r, abandoned := j ::ₘ f.abandoned }
  | report {j : J} {n : N} {r : Multiset (J × N)} (hr : f.running = (j, n) ::ₘ r) :
      Step f (.report j n)
        { f with
          running := r
          reported := j ::ₘ f.reported
          slots := Function.update f.slots j none }

/-- A step to a state given by an equation. -/
theorem Step.of_eq {f g g' : JobFlow J N} {a : Act J N} (h : Step f a g) (hg : g' = g) :
    Step f a g' := hg ▸ h

/-! ### Counting a job -/

/-- How often a job occurs among attempts, on whichever worker. -/
def times (m : Multiset (J × N)) (j : J) : ℕ := (m.map Prod.fst).count j

@[simp] theorem times_zero (j : J) : times (0 : Multiset (J × N)) j = 0 := rfl

@[simp] theorem times_cons (p : J × N) (m : Multiset (J × N)) (j : J) :
    times (p ::ₘ m) j = times m j + if j = p.1 then 1 else 0 := by
  rw [times, Multiset.map_cons, Multiset.count_cons, times]

@[simp] theorem times_add (m m' : Multiset (J × N)) (j : J) :
    times (m + m') j = times m j + times m' j := by
  rw [times, Multiset.map_add, Multiset.count_add, times, times]

theorem times_pos {m : Multiset (J × N)} {j : J} {n : N} (h : (j, n) ∈ m) : 0 < times m j :=
  Multiset.count_pos.mpr (Multiset.mem_map.mpr ⟨(j, n), h, rfl⟩)

theorem exists_of_times_pos {m : Multiset (J × N)} {j : J} (h : 0 < times m j) :
    ∃ n, (j, n) ∈ m := by
  obtain ⟨⟨j', n⟩, hm, rfl⟩ := Multiset.mem_map.mp (Multiset.count_pos.mp h)
  exact ⟨n, hm⟩

/-- The number of attempts of a job that the worker has not accepted. -/
def unaccepted (f : JobFlow J N) (j : J) : ℕ :=
  f.queued.count j + (if f.hand = some j then 1 else 0) + times f.sending j

/-- Where the token of a job is, over all places. -/
def tokens (f : JobFlow J N) (j : J) : ℕ :=
  f.unaccepted j + times f.waiting j + times f.failing j + f.released.count j
    + f.finished.count j + f.abandoned.count j

/-- The token of every submitted job is in one place, and no job is submitted
twice; and every acceptance runs or has been reported. -/
structure Tokens (f : JobFlow J N) : Prop where
  tokens_eq : ∀ j, f.tokens j = f.submitted.count j
  submitted_le : ∀ j, f.submitted.count j ≤ 1
  accepted_eq : ∀ j, f.accepted.count j = times f.running j + f.reported.count j

/-- No job is submitted a second time. -/
def Fresh (f : JobFlow J N) : Act J N → Prop
  | .submit j => j ∉ f.submitted
  | _ => True

variable {f g : JobFlow J N} {a : Act J N}

theorem tokens_init : Tokens (init : JobFlow J N) where
  tokens_eq := by intro j; simp [tokens, unaccepted, init]
  submitted_le := by intro j; simp [init]
  accepted_eq := by intro j; simp [init]

/-- A step moves tokens, and adds one only for a submission. -/
theorem Step.tokens_eq (h : Step f a g) (j : J) :
    g.tokens j + f.submitted.count j = f.tokens j + g.submitted.count j := by
  cases h with
  | submit k =>
      simp only [tokens, unaccepted, Multiset.count_cons]
      omega
  | take hq hh =>
      simp only [tokens, unaccepted, hq, hh, Multiset.count_cons, Option.some.injEq, reduceCtorEq,
        if_false, eq_comm (b := j)]
      omega
  | place n hh =>
      simp only [tokens, unaccepted, hh, times_cons, Option.some.injEq, reduceCtorEq, if_false,
        eq_comm (b := j)]
      omega
  | accept hr => simp only [tokens, unaccepted, hr, times_cons]; omega
  | finish hr => simp only [tokens, unaccepted, hr, times_cons, Multiset.count_cons]; omega
  | reject hr => simp only [tokens, unaccepted, hr, times_cons]; omega
  | lose hr => simp only [tokens, unaccepted, hr, times_cons]; omega
  | release hr => simp only [tokens, unaccepted, hr, times_cons, Multiset.count_cons]; omega
  | retry hr => simp only [tokens, unaccepted, hr, Multiset.count_cons]; omega
  | abandon hr => simp only [tokens, unaccepted, hr, Multiset.count_cons]; omega
  | report hr => rfl

/-- A step keeps the balance of acceptances. -/
theorem Step.accepted_eq (h : Step f a g) (j : J) :
    g.accepted.count j + (times f.running j + f.reported.count j)
      = f.accepted.count j + (times g.running j + g.reported.count j) := by
  cases h with
  | accept hr => simp only [times_cons, Multiset.count_cons]; omega
  | report hr => simp only [hr, times_cons, Multiset.count_cons]; omega
  | _ => rfl

/-- Only a submission adds to the submitted jobs. -/
theorem Step.submitted_eq (h : Step f a g) :
    g.submitted = f.submitted ∨ ∃ j, a = .submit j ∧ g.submitted = j ::ₘ f.submitted := by
  cases h with
  | submit j => exact Or.inr ⟨j, rfl, rfl⟩
  | _ => exact Or.inl rfl

theorem Tokens.step (h : Tokens f) (hf : Fresh f a) (hs : Step f a g) : Tokens g where
  tokens_eq := by
    intro j
    have hstep := hs.tokens_eq j
    have hold := h.tokens_eq j
    omega
  submitted_le := by
    intro j
    rcases hs.submitted_eq with heq | ⟨k, rfl, heq⟩
    · rw [heq]
      exact h.submitted_le j
    · have hzero : f.submitted.count k = 0 := Multiset.count_eq_zero.mpr hf
      rw [heq, Multiset.count_cons]
      by_cases hj : j = k
      · rw [hj, if_pos rfl, hzero]
      · rw [if_neg hj]
        exact h.submitted_le j
  accepted_eq := by
    intro j
    have hstep := hs.accepted_eq j
    have hold := h.accepted_eq j
    omega

theorem Tokens.tokens_le (h : Tokens f) (j : J) : f.tokens j ≤ 1 :=
  h.tokens_eq j ▸ h.submitted_le j

/-! ### Slots -/

/-- The slots held are those of the given attempts. -/
def Holds (slots : J → Option N) (m : Multiset (J × N)) : Prop :=
  ∀ j n, slots j = some n ↔ (j, n) ∈ m

theorem not_mem_of_times {m : Multiset (J × N)} {j : J} (h : times m j = 0) (n : N) :
    (j, n) ∉ m := by
  intro hm
  have hpos := times_pos hm
  omega

theorem Holds.update_some {slots : J → Option N} {m : Multiset (J × N)} (h : Holds slots m)
    {j : J} (hj : times m j = 0) (n : N) :
    Holds (Function.update slots j (some n)) ((j, n) ::ₘ m) := by
  intro k l
  rw [Multiset.mem_cons]
  by_cases hk : k = j
  · subst hk
    have hnot := not_mem_of_times hj l
    simp [hnot, eq_comm]
  · rw [Function.update_of_ne hk, h k l]
    simp [hk]

theorem Holds.update_none {slots : J → Option N} {m : Multiset (J × N)} {j : J} {n : N}
    (h : Holds slots ((j, n) ::ₘ m)) (hj : times m j = 0) :
    Holds (Function.update slots j none) m := by
  intro k l
  by_cases hk : k = j
  · subst hk
    simp [not_mem_of_times hj l]
  · rw [Function.update_of_ne hk, h k l, Multiset.mem_cons]
    simp [hk]

/-- The attempts that hold a slot: sent and not accepted, or running. -/
def holding (f : JobFlow J N) : Multiset (J × N) := f.sending + f.failing + f.running

/-- No slot is held without an attempt. -/
def SlotsUsed (f : JobFlow J N) : Prop := ∀ j, f.slots j ≠ none → 0 < times f.holding j

theorem slotsUsed_init : SlotsUsed (init : JobFlow J N) := by
  intro j h
  simp [init] at h

/-- A slot that is taken away leaves no slot without its attempt. -/
theorem slot_of_update_none {slots : J → Option N} {m m' : Multiset (J × N)} {j : J}
    (h : ∀ k, slots k ≠ none → 0 < times m k) (hm : ∀ k, k ≠ j → times m' k = times m k) :
    ∀ k, Function.update slots j none k ≠ none → 0 < times m' k := by
  intro k hne
  by_cases hk : k = j
  · rw [hk, Function.update_self] at hne
    exact absurd rfl hne
  · rw [Function.update_of_ne hk] at hne
    rw [hm k hk]
    exact h k hne

/-- Whatever fails, a slot is held by an attempt. -/
theorem Step.slotsUsed (hs : Step f a g) (h : SlotsUsed f) : SlotsUsed g := by
  cases hs with
  | @place j n hh =>
      intro k hne
      have hne' : Function.update f.slots j (some n) k ≠ none := hne
      simp only [holding, times_add, times_cons]
      by_cases hk : k = j
      · rw [if_pos hk]
        omega
      · rw [Function.update_of_ne hk] at hne'
        have hold := h k hne'
        simp only [holding, times_add] at hold
        omega
  | accept hr =>
      intro k hne
      have hold := h k hne
      simp only [holding, hr, times_add, times_cons] at hold ⊢
      omega
  | reject hr =>
      intro k hne
      have hold := h k hne
      simp only [holding, hr, times_add, times_cons] at hold ⊢
      omega
  | lose hr =>
      intro k hne
      have hold := h k hne
      simp only [holding, times_add, times_cons] at hold ⊢
      omega
  | release hr =>
      refine slot_of_update_none h fun k hk => ?_
      simp only [holding, hr, times_add, times_cons, if_neg hk, add_zero]
  | report hr =>
      refine slot_of_update_none h fun k hk => ?_
      simp only [holding, hr, times_add, times_cons, if_neg hk, add_zero]
  | _ => exact h

/-- A job that holds a slot has its token with an attempt of it, or has finished. -/
def SlotsPlaced (f : JobFlow J N) : Prop := ∀ j, f.slots j ≠ none →
  0 < times f.sending j + times f.waiting j + times f.failing j + f.finished.count j

theorem slotsPlaced_init : SlotsPlaced (init : JobFlow J N) := by
  intro j h
  simp [init] at h

/-- Whatever fails, a slot is taken with an attempt and given back before the token
leaves it. -/
theorem Step.slotsPlaced (hs : Step f a g) (h : SlotsPlaced f) : SlotsPlaced g := by
  have hkept : ∀ j k, Function.update f.slots j none k ≠ none → k ≠ j ∧ f.slots k ≠ none := by
    intro j k hne
    by_cases hk : k = j
    · rw [hk, Function.update_self] at hne
      exact absurd rfl hne
    · rw [Function.update_of_ne hk] at hne
      exact ⟨hk, hne⟩
  cases hs with
  | @place j n hh =>
      intro k hne
      have hne' : Function.update f.slots j (some n) k ≠ none := hne
      simp only [times_cons]
      by_cases hk : k = j
      · rw [if_pos hk]
        omega
      · rw [Function.update_of_ne hk] at hne'
        have hold := h k hne'
        omega
  | accept hr =>
      intro k hne
      have hold := h k hne
      simp only [hr, times_cons] at hold ⊢
      omega
  | finish hr =>
      intro k hne
      have hold := h k hne
      simp only [hr, times_cons, Multiset.count_cons] at hold ⊢
      omega
  | reject hr =>
      intro k hne
      have hold := h k hne
      simp only [hr, times_cons] at hold ⊢
      omega
  | lose hr =>
      intro k hne
      have hold := h k hne
      simp only [hr, times_cons] at hold ⊢
      omega
  | @release j n r hr =>
      intro k hne
      obtain ⟨hk, hne⟩ := hkept j k hne
      have hold := h k hne
      simp only [hr, times_cons, if_neg hk, add_zero] at hold
      exact hold
  | @report j n r hr =>
      intro k hne
      exact h k (hkept j k hne).2
  | _ => exact h

/-- A job in the hand holds no slot, whatever its earlier attempts came to. -/
theorem SlotsPlaced.slots_of_hand (h : SlotsPlaced f) (ht : Tokens f) {j : J}
    (hh : f.hand = some j) : f.slots j = none := by
  by_contra hne
  have hpos := h j hne
  have hle := ht.tokens_le j
  simp only [JobFlow.tokens, unaccepted, hh, if_true] at hle
  omega

/-! ### Attempts that fail only before they are accepted -/

/-- No accepted attempt is given up. -/
def Clean (f : JobFlow J N) : Act J N → Prop
  | .lose _ _ => False
  | a => Fresh f a

omit [DecidableEq J] in
theorem Clean.fresh (h : Clean f a) : Fresh f a := by
  cases a <;> first | exact h | trivial

/-- Each acceptance has its token with the attempt that was accepted, and the
slots held are those of the attempts that are sent or running. -/
structure Staged (f : JobFlow J N) : Prop where
  tokens : Tokens f
  accepted_eq : ∀ j, f.accepted.count j = times f.waiting j + f.finished.count j
  slots : Holds f.slots f.holding

theorem staged_init : Staged (init : JobFlow J N) where
  tokens := tokens_init
  accepted_eq := by intro j; simp [init]
  slots := by intro j n; simp [init, holding]

/-- In how many stages a job is: queued, in the hand, sent, failed, released,
abandoned, running or reported. -/
def stages (f : JobFlow J N) (j : J) : ℕ :=
  f.queued.count j + (if f.hand = some j then 1 else 0)
    + (times f.sending j + times f.failing j) + f.released.count j + f.abandoned.count j
    + times f.running j + f.reported.count j

theorem Staged.stages_eq (h : Staged f) (j : J) : f.stages j = f.submitted.count j := by
  have htokens := h.tokens.tokens_eq j
  have hbalance := h.tokens.accepted_eq j
  have haccepted := h.accepted_eq j
  simp only [JobFlow.tokens, unaccepted] at htokens
  simp only [stages]
  omega

theorem Staged.stages_le (h : Staged f) (j : J) : f.stages j ≤ 1 :=
  h.stages_eq j ▸ h.tokens.submitted_le j

/-- An accepted job is not accepted again, and its attempt is not given back. -/
theorem Staged.accepted_le (h : Staged f) (j : J) :
    f.accepted.count j + f.released.count j + f.abandoned.count j ≤ 1 := by
  have htokens := h.tokens.tokens_le j
  have haccepted := h.accepted_eq j
  simp only [JobFlow.tokens] at htokens
  omega

theorem Staged.step (h : Staged f) (hc : Clean f a) (hs : Step f a g) : Staged g := by
  have hg := h.tokens.step hc.fresh hs
  cases hs with
  | submit j => exact ⟨hg, h.accepted_eq, h.slots⟩
  | take hq hh => exact ⟨hg, h.accepted_eq, h.slots⟩
  | @place j n hh =>
      refine ⟨hg, h.accepted_eq, ?_⟩
      -- a job in the hand holds no slot yet
      have hle := h.stages_le j
      have hnone : times f.holding j = 0 := by
        simp only [stages, hh, if_true] at hle
        simp only [holding, times_add]
        omega
      have hslots := h.slots.update_some hnone n
      rwa [holding, ← Multiset.cons_add, ← Multiset.cons_add] at hslots
  | @accept j n r hr =>
      refine ⟨hg, fun k => ?_, ?_⟩
      · have hk := h.accepted_eq k
        simp only [times_cons, Multiset.count_cons]
        omega
      · have hslots := h.slots
        rw [holding, hr, Multiset.cons_add, Multiset.cons_add, ← Multiset.add_cons] at hslots
        exact hslots
  | @finish j n r hr =>
      refine ⟨hg, fun k => ?_, h.slots⟩
      have hk := h.accepted_eq k
      simp only [hr, times_cons] at hk
      simp only [Multiset.count_cons]
      omega
  | @reject j n r hr =>
      refine ⟨hg, h.accepted_eq, ?_⟩
      have hslots := h.slots
      rw [holding, hr, Multiset.cons_add, ← Multiset.add_cons] at hslots
      exact hslots
  | lose hr => exact hc.elim
  | @release j n r hr =>
      refine ⟨hg, h.accepted_eq, ?_⟩
      have hle := h.stages_le j
      have hnone : times (f.sending + r + f.running) j = 0 := by
        simp only [stages, hr, times_cons, if_true] at hle
        simp only [times_add]
        omega
      have hslots := h.slots
      rw [holding, hr, Multiset.add_cons, Multiset.cons_add] at hslots
      exact hslots.update_none hnone
  | retry hr => exact ⟨hg, h.accepted_eq, h.slots⟩
  | abandon hr => exact ⟨hg, h.accepted_eq, h.slots⟩
  | @report j n r hr =>
      refine ⟨hg, h.accepted_eq, ?_⟩
      have hle := h.stages_le j
      have hnone : times (f.sending + f.failing + r) j = 0 := by
        simp only [stages, hr, times_cons, if_true] at hle
        simp only [times_add]
        omega
      have hslots := h.slots
      rw [holding, hr, Multiset.add_cons] at hslots
      exact hslots.update_none hnone

/-! ### Accepted jobs that are not retried -/

/-- A job is retried only if no attempt of it was accepted. -/
def RetryUnaccepted (f : JobFlow J N) : Act J N → Prop
  | .retry j => j ∉ f.accepted
  | a => Fresh f a

omit [DecidableEq J] in
theorem RetryUnaccepted.fresh (h : RetryUnaccepted f a) : Fresh f a := by
  cases a <;> first | exact h | trivial

/-- A job that was accepted is not on its way to a worker again. -/
structure AcceptedOnce (f : JobFlow J N) : Prop where
  tokens : Tokens f
  once : ∀ j, f.accepted.count j + f.unaccepted j ≤ f.submitted.count j

theorem acceptedOnce_init : AcceptedOnce (init : JobFlow J N) where
  tokens := tokens_init
  once := by intro j; simp [init, unaccepted]

theorem AcceptedOnce.step (h : AcceptedOnce f) (hc : RetryUnaccepted f a) (hs : Step f a g) :
    AcceptedOnce g := by
  refine ⟨h.tokens.step hc.fresh hs, fun k => ?_⟩
  have hk := h.once k
  cases hs with
  | submit j =>
      simp only [unaccepted, Multiset.count_cons] at hk ⊢
      omega
  | take hq hh =>
      simp only [unaccepted, hq, hh, Multiset.count_cons, reduceCtorEq, if_false] at hk
      simp only [unaccepted, Option.some.injEq, eq_comm (b := k)]
      omega
  | place n hh =>
      simp only [unaccepted, hh, Option.some.injEq, eq_comm (b := k)] at hk
      simp only [unaccepted, times_cons, reduceCtorEq, if_false]
      omega
  | accept hr =>
      simp only [unaccepted, hr, times_cons] at hk
      simp only [unaccepted, Multiset.count_cons]
      omega
  | finish hr => exact hk
  | reject hr =>
      simp only [unaccepted, hr, times_cons] at hk
      simp only [unaccepted]
      omega
  | lose hr => exact hk
  | release hr => exact hk
  | @retry j r hr =>
      -- the token was with the released attempt, and no attempt was accepted
      have hzero : f.accepted.count j = 0 := Multiset.count_eq_zero.mpr hc
      have htokens := h.tokens.tokens_eq k
      simp only [JobFlow.tokens, unaccepted, hr, Multiset.count_cons] at htokens
      simp only [unaccepted] at hk
      simp only [unaccepted, Multiset.count_cons]
      by_cases hkj : k = j
      · subst hkj
        rw [if_pos rfl] at htokens ⊢
        omega
      · rw [if_neg hkj]
        omega
  | abandon hr => exact hk
  | report hr => exact hk

theorem AcceptedOnce.accepted_le (h : AcceptedOnce f) (j : J) : f.accepted.count j ≤ 1 := by
  have honce := h.once j
  have hle := h.tokens.submitted_le j
  omega

/-! ### Running jobs that keep their slots -/

/-- The slot of a failed attempt is given back only if the job is not running. -/
def ReleaseIdle (f : JobFlow J N) : Act J N → Prop
  | .release j _ => ∀ n, (j, n) ∉ f.running
  | _ => True

/-- A running job is nowhere else on its way to a worker, and every attempt that
is sent or running holds its own slot. -/
structure Covered (f : JobFlow J N) : Prop where
  tokens : Tokens f
  alone : ∀ j, times f.running j + f.unaccepted j + f.released.count j + f.abandoned.count j
    ≤ f.submitted.count j
  sending : ∀ j n, (j, n) ∈ f.sending → f.slots j = some n
  running : ∀ j n, (j, n) ∈ f.running → f.slots j = some n
  used : SlotsUsed f

theorem covered_init : Covered (init : JobFlow J N) where
  tokens := tokens_init
  alone := by intro j; simp [init, unaccepted]
  sending := by intro j n h; simp [init] at h
  running := by intro j n h; simp [init] at h
  used := slotsUsed_init

theorem Covered.alone_le (h : Covered f) (j : J) :
    times f.running j + f.unaccepted j + f.released.count j + f.abandoned.count j ≤ 1 :=
  (h.alone j).trans (h.tokens.submitted_le j)

/-- Slots that a changed slot of `j` does not affect. -/
theorem slots_update {slots : J → Option N} {m : Multiset (J × N)} {j : J} {o : Option N}
    (hj : times m j = 0) (h : ∀ k n, (k, n) ∈ m → slots k = some n) :
    ∀ k n, (k, n) ∈ m → Function.update slots j o k = some n := by
  intro k n hm
  have hk : k ≠ j := fun hk => not_mem_of_times hj n (hk ▸ hm)
  rw [Function.update_of_ne hk]
  exact h k n hm

theorem Covered.step (h : Covered f) (hf : Fresh f a) (hc : ReleaseIdle f a) (hs : Step f a g) :
    Covered g := by
  have hg := h.tokens.step hf hs
  have hused := hs.slotsUsed h.used
  cases hs with
  | submit j =>
      refine ⟨hg, fun k => ?_, h.sending, h.running, hused⟩
      have hk := h.alone k
      simp only [unaccepted, Multiset.count_cons] at hk ⊢
      omega
  | take hq hh =>
      refine ⟨hg, fun k => ?_, h.sending, h.running, hused⟩
      have hk := h.alone k
      simp only [unaccepted, hq, hh, Multiset.count_cons, reduceCtorEq, if_false] at hk
      simp only [unaccepted, Option.some.injEq, eq_comm (b := k)]
      omega
  | @place j n hh =>
      -- a job in the hand is neither sent nor running
      have hj := h.alone_le j
      simp only [unaccepted, hh, if_true] at hj
      have hsending : times f.sending j = 0 := by omega
      have hrunning : times f.running j = 0 := by omega
      refine ⟨hg, fun k => ?_, ?_, slots_update hrunning h.running, hused⟩
      · have hk := h.alone k
        simp only [unaccepted, hh, Option.some.injEq, eq_comm (b := k)] at hk
        simp only [unaccepted, times_cons, reduceCtorEq, if_false]
        omega
      · intro k m hm
        rcases Multiset.mem_cons.mp hm with heq | hm
        · obtain ⟨rfl, rfl⟩ := Prod.mk.inj heq
          exact Function.update_self ..
        · exact slots_update hsending h.sending k m hm
  | @accept j n r hr =>
      refine ⟨hg, fun k => ?_, ?_, ?_, hused⟩
      · have hk := h.alone k
        simp only [unaccepted, hr, times_cons] at hk
        simp only [unaccepted, times_cons]
        omega
      · intro k m hm
        exact h.sending k m (hr ▸ Multiset.mem_cons_of_mem hm)
      · intro k m hm
        rcases Multiset.mem_cons.mp hm with heq | hm
        · exact h.sending k m (by rw [hr, heq]; exact Multiset.mem_cons_self _ _)
        · exact h.running k m hm
  | finish hr => exact ⟨hg, h.alone, h.sending, h.running, hused⟩
  | @reject j n r hr =>
      refine ⟨hg, fun k => ?_, ?_, h.running, hused⟩
      · have hk := h.alone k
        simp only [unaccepted, hr, times_cons] at hk
        simp only [unaccepted]
        omega
      · intro k m hm
        exact h.sending k m (hr ▸ Multiset.mem_cons_of_mem hm)
  | lose hr => exact ⟨hg, h.alone, h.sending, h.running, hused⟩
  | @release j n r hr =>
      have hidle : times f.running j = 0 := by
        by_contra hne
        obtain ⟨m, hm⟩ := exists_of_times_pos (Nat.pos_of_ne_zero hne)
        exact hc m hm
      -- the token is with the failed attempt, so the job is nowhere else
      have hle := h.tokens.tokens_eq j
      have hle' := h.tokens.submitted_le j
      simp only [JobFlow.tokens, unaccepted, hr, times_cons, if_true] at hle
      have hsending : times f.sending j = 0 := by omega
      refine ⟨hg, fun k => ?_, slots_update hsending h.sending, slots_update hidle h.running,
        hused⟩
      have hk := h.alone k
      simp only [unaccepted] at hk
      simp only [unaccepted, Multiset.count_cons]
      by_cases hkj : k = j
      · subst hkj
        rw [if_pos rfl]
        omega
      · rw [if_neg hkj]
        omega
  | @retry j r hr =>
      refine ⟨hg, fun k => ?_, h.sending, h.running, hused⟩
      have hk := h.alone k
      simp only [unaccepted, hr, Multiset.count_cons] at hk ⊢
      omega
  | @abandon j r hr =>
      refine ⟨hg, fun k => ?_, h.sending, h.running, hused⟩
      have hk := h.alone k
      simp only [unaccepted, hr, Multiset.count_cons] at hk ⊢
      omega
  | @report j n r hr =>
      have hj := h.alone_le j
      simp only [unaccepted, hr, times_cons, if_true] at hj
      have hsending : times f.sending j = 0 := by omega
      have hrest : times r j = 0 := by omega
      refine ⟨hg, fun k => ?_, slots_update hsending h.sending, ?_, hused⟩
      · have hk := h.alone k
        simp only [hr, times_cons] at hk
        simp only [unaccepted] at hk ⊢
        omega
      · refine slots_update hrest fun k m hm => ?_
        exact h.running k m (hr ▸ Multiset.mem_cons_of_mem hm)

/-- A job in the hand holds no slot. -/
theorem Covered.slots_of_hand (h : Covered f) {j : J} (hh : f.hand = some j) :
    f.slots j = none := by
  by_contra hne
  have hpos := h.used j hne
  have halone := h.alone_le j
  have htokens := h.tokens.tokens_le j
  simp only [JobFlow.tokens, unaccepted, hh, if_true] at htokens
  simp only [unaccepted, hh, if_true] at halone
  simp only [holding, times_add] at hpos
  omega

/-- A job without a slot is neither sent nor run. -/
theorem Covered.idle (h : Covered f) {j : J} (hj : f.slots j = none) :
    times f.sending j = 0 ∧ times f.running j = 0 := by
  constructor
  · by_contra hne
    obtain ⟨n, hn⟩ := exists_of_times_pos (Nat.pos_of_ne_zero hne)
    exact Option.some_ne_none n ((h.sending j n hn).symm.trans hj)
  · by_contra hne
    obtain ⟨n, hn⟩ := exists_of_times_pos (Nat.pos_of_ne_zero hne)
    exact Option.some_ne_none n ((h.running j n hn).symm.trans hj)

/-- A step after which every running job holds its slot gave back no slot of a
running job. -/
theorem Step.releaseIdle (hs : Step f a g) (hg : ∀ j n, (j, n) ∈ g.running → g.slots j = some n) :
    ReleaseIdle f a := by
  cases hs with
  | @release j n r hr =>
      intro m hm
      have hslot : Function.update f.slots j none j = some m := hg j m hm
      rw [Function.update_self] at hslot
      cases hslot
  | _ => trivial

/-! ### Jobs that are over -/

/-- Every attempt that waits or has finished was accepted. -/
structure Settling (f : JobFlow J N) : Prop where
  tokens : Tokens f
  waiting_le : ∀ j, times f.waiting j + f.finished.count j ≤ f.accepted.count j

/-- The job was reported or given up, and is neither on its way to a worker nor
running, nor holds a slot. -/
structure Over (f : JobFlow J N) (j : J) : Prop where
  submitted : j ∈ f.submitted
  done : 0 < f.reported.count j + f.abandoned.count j
  unaccepted : f.unaccepted j = 0
  running : times f.running j = 0
  slots : f.slots j = none

theorem settling_init : Settling (init : JobFlow J N) where
  tokens := tokens_init
  waiting_le := by intro j; simp [init]

theorem Settling.step (h : Settling f) (hf : Fresh f a) (hs : Step f a g) : Settling g := by
  refine ⟨h.tokens.step hf hs, fun k => ?_⟩
  have hk := h.waiting_le k
  cases hs with
  | accept hr => simp only [times_cons, Multiset.count_cons]; omega
  | finish hr =>
      simp only [hr, times_cons] at hk
      simp only [Multiset.count_cons]
      omega
  | @lose j n r hr =>
      simp only [hr, times_cons] at hk
      show times r k + f.finished.count k ≤ f.accepted.count k
      omega
  | _ => exact hk

/-- A submitted job that is nowhere on its way, does not run and holds no slot is
over, unless an attempt failed and it was never reported. -/
theorem Settling.over {j : J} (h : Settling f) (hj : j ∈ f.submitted) (hun : f.unaccepted j = 0)
    (hrunning : times f.running j = 0) (hslots : f.slots j = none)
    (hfailed : 0 < times f.failing j + f.released.count j → 0 < f.reported.count j) :
    Over f j := by
  have hpos : 0 < f.submitted.count j := Multiset.count_pos.mpr hj
  have htokens := h.tokens.tokens_eq j
  have hbalance := h.tokens.accepted_eq j
  have hwaiting := h.waiting_le j
  refine ⟨hj, ?_, hun, hrunning, hslots⟩
  simp only [JobFlow.tokens] at htokens
  omega

/-- Only a retry brings back a job that is over. -/
theorem Over.step {j : J} (h : Over f j) (hf : Fresh f a) (hretry : a ≠ .retry j)
    (hs : Step f a g) : Over g j := by
  obtain ⟨hsub, hdone, hun, hrunning, hslots⟩ := h
  -- the job of a step from one of these places is another one
  have hqueued : f.queued.count j = 0 := by
    simp only [JobFlow.unaccepted] at hun
    omega
  have hhand : f.hand ≠ some j := by
    intro hh
    simp only [JobFlow.unaccepted, hh, if_true] at hun
    omega
  have hsending : times f.sending j = 0 := by
    simp only [JobFlow.unaccepted] at hun
    omega
  cases hs with
  | submit k =>
      have hne : j ≠ k := fun hjk => hf (hjk ▸ hsub)
      refine ⟨Multiset.mem_cons_of_mem hsub, hdone, ?_, hrunning, hslots⟩
      simpa only [JobFlow.unaccepted, Multiset.count_cons, if_neg hne, add_zero] using hun
  | @take k q hq hh =>
      have hne : k ≠ j := by
        rintro rfl
        rw [hq, Multiset.count_cons_self] at hqueued
        omega
      refine ⟨hsub, hdone, ?_, hrunning, hslots⟩
      simp only [hq, Multiset.count_cons_of_ne hne.symm] at hqueued
      simp only [JobFlow.unaccepted, hqueued, hsending, Option.some.injEq, if_neg hne]
  | @place k n hh =>
      have hne : j ≠ k := fun hjk => hhand (hjk ▸ hh)
      refine ⟨hsub, hdone, ?_, hrunning, ?_⟩
      · simp only [JobFlow.unaccepted, hqueued, hsending, times_cons, if_neg hne, reduceCtorEq,
          if_false]
      · show Function.update f.slots k (some n) j = none
        rwa [Function.update_of_ne hne]
  | @accept k n r hr =>
      have hne : j ≠ k := by
        rintro rfl
        simp only [hr, times_cons, if_true] at hsending
        omega
      simp only [hr, times_cons, if_neg hne, add_zero] at hsending
      refine ⟨hsub, hdone, ?_, ?_, hslots⟩
      · simp only [JobFlow.unaccepted, hqueued, if_neg hhand, hsending]
      · simpa only [times_cons, if_neg hne, add_zero] using hrunning
  | finish hr => exact ⟨hsub, hdone, hun, hrunning, hslots⟩
  | @reject k n r hr =>
      refine ⟨hsub, hdone, ?_, hrunning, hslots⟩
      simp only [hr, times_cons] at hsending
      have hrest : times r j = 0 := by omega
      simp only [JobFlow.unaccepted, hqueued, if_neg hhand, hrest]
  | lose hr => exact ⟨hsub, hdone, hun, hrunning, hslots⟩
  | @release k n r hr =>
      refine ⟨hsub, hdone, hun, hrunning, ?_⟩
      show Function.update f.slots k none j = none
      rw [Function.update_apply]
      split
      · rfl
      · exact hslots
  | @retry k r hr =>
      have hne : j ≠ k := fun hjk => hretry (hjk ▸ rfl)
      refine ⟨hsub, hdone, ?_, hrunning, hslots⟩
      simpa only [JobFlow.unaccepted, Multiset.count_cons, if_neg hne, add_zero] using hun
  | abandon hr =>
      refine ⟨hsub, ?_, hun, hrunning, hslots⟩
      simp only [Multiset.count_cons]
      omega
  | @report k n r hr =>
      simp only [hr, times_cons] at hrunning
      refine ⟨hsub, ?_, hun, Nat.eq_zero_of_add_eq_zero_right hrunning, ?_⟩
      · simp only [Multiset.count_cons]
        omega
      · show Function.update f.slots k none j = none
        rw [Function.update_apply]
        split
        · rfl
        · exact hslots

/-- As long as only jobs that no worker accepted are retried, a job that is over is not. -/
theorem Over.not_retried {j : J} (h : Over f j) (ht : Tokens f)
    (hc : RetryUnaccepted f (.retry j)) : ¬ Step f (.retry j) g := by
  intro hs
  cases hs with
  | retry hr =>
      have hnot : f.accepted.count j = 0 := Multiset.count_eq_zero.mpr hc
      have hbalance := ht.accepted_eq j
      have hdone := h.done
      have hle := ht.tokens_le j
      simp only [JobFlow.tokens, hr, Multiset.count_cons_self] at hle
      omega

/-- An empty queue stays empty, unless a job is submitted or retried. -/
theorem Step.queued_eq_zero (h : Step f a g) (hq : f.queued = 0)
    (hsubmit : ∀ j, a ≠ .submit j) (hretry : ∀ j, a ≠ .retry j) : g.queued = 0 := by
  cases h with
  | submit j => exact absurd rfl (hsubmit j)
  | @take j q hq' hh => exact absurd (hq'.symm.trans hq) Multiset.cons_ne_zero
  | @retry j r hr => exact absurd rfl (hretry j)
  | _ => exact hq

/-! ### Starting over -/

/-- The jobs on their way to a worker or with a sender. -/
def underway (f : JobFlow J N) : Multiset J :=
  f.queued + (f.hand.elim 0 fun j => {j}) + f.sending.map Prod.fst + f.waiting.map Prod.fst
    + f.failing.map Prod.fst + f.released

/-- The machine in which workers have also accepted the given attempts, for which no sender
waits. -/
def delivered (f : JobFlow J N) (m : Multiset (J × N)) : JobFlow J N :=
  { f with
    running := f.running + m
    accepted := f.accepted + m.map Prod.fst }

/-- The machine after its memory was lost: what was underway is given up, and what runs
goes on. -/
def restart (f : JobFlow J N) : JobFlow J N :=
  { f with
    queued := 0
    hand := none
    sending := 0
    waiting := 0
    failing := 0
    released := 0
    abandoned := f.abandoned + f.underway
    slots := fun _ => none }

theorem count_underway (f : JobFlow J N) (j : J) :
    f.underway.count j = f.unaccepted j + times f.waiting j + times f.failing j
      + f.released.count j := by
  have hhand : (f.hand.elim (0 : Multiset J) fun k => {k}).count j
      = if f.hand = some j then 1 else 0 := by
    rcases f.hand with - | k
    · simp
    · simp [Multiset.count_singleton, eq_comm]
  simp only [underway, Multiset.count_add, hhand, unaccepted, times]

theorem delivered_accepted (f : JobFlow J N) (m : Multiset (J × N)) (j : J) :
    (f.delivered m).accepted.count j = f.accepted.count j + times m j :=
  Multiset.count_add j f.accepted (m.map Prod.fst)

/-- What is delivered does not disturb the machine. -/
theorem Step.delivered (h : Step f a g) (m : Multiset (J × N)) :
    Step (f.delivered m) a (g.delivered m) := by
  cases h with
  | submit j => exact .submit j
  | take hq hh => exact .take hq hh
  | place n hh => exact .place n hh
  | accept hr =>
      refine (Step.accept (f := f.delivered m) hr).of_eq ?_
      simp only [JobFlow.delivered, Multiset.cons_add]
  | finish hr => exact .finish hr
  | reject hr => exact .reject hr
  | lose hr => exact .lose hr
  | release hr => exact .release hr
  | retry hr => exact .retry hr
  | abandon hr => exact .abandon hr
  | @report j n r hr =>
      have hm : (f.delivered m).running = (j, n) ::ₘ (r + m) := by
        simp only [JobFlow.delivered, hr, Multiset.cons_add]
      exact .report hm

theorem Tokens.delivered (h : Tokens f) (m : Multiset (J × N)) : Tokens (f.delivered m) where
  tokens_eq := h.tokens_eq
  submitted_le := h.submitted_le
  accepted_eq := by
    intro j
    have hbalance := h.accepted_eq j
    have hrunning : times (f.delivered m).running j = times f.running j + times m j := times_add ..
    rw [delivered_accepted, hrunning, hbalance]
    exact Nat.add_right_comm ..

/-- A job that was given up is not retried. -/
theorem Tokens.not_retried (h : Tokens f) {j : J} (hj : 0 < f.abandoned.count j) :
    ¬ Step f (.retry j) g := by
  intro hs
  cases hs with
  | retry hr =>
      have hle := h.tokens_le j
      simp only [JobFlow.tokens, hr, Multiset.count_cons_self] at hle
      omega

/-- What was given up stays so. -/
theorem Step.abandoned_le (h : Step f a g) (j : J) : f.abandoned.count j ≤ g.abandoned.count j := by
  cases h with
  | abandon hr => exact Multiset.count_le_count_cons ..
  | _ => exact le_rfl

theorem Tokens.restart (h : Tokens f) : Tokens f.restart where
  tokens_eq := by
    intro j
    have hold := h.tokens_eq j
    have hcount := f.count_underway j
    simp only [tokens] at hold
    simp only [JobFlow.restart, tokens, unaccepted, Multiset.count_zero, times_zero, reduceCtorEq,
      if_false, Multiset.count_add]
    omega
  submitted_le := h.submitted_le
  accepted_eq := h.accepted_eq

/-- As long as what is delivered was given up, a discipline on retries extends to it. -/
theorem RetryUnaccepted.delivered {m : Multiset (J × N)} (h : RetryUnaccepted f a)
    (ht : Tokens (f.delivered m)) (hm : ∀ j, 0 < times m j → 0 < f.abandoned.count j)
    (hs : Step f a g) : RetryUnaccepted (f.delivered m) a := by
  cases a with
  | retry j =>
      intro hmem
      rcases Multiset.mem_add.mp hmem with hmem | hmem
      · exact h hmem
      · exact ht.not_retried (hm j (Multiset.count_pos.mpr hmem)) (hs.delivered m)
  | _ => exact h

omit [DecidableEq J] in
theorem restart_delivered (f : JobFlow J N) (m m' : Multiset (J × N)) :
    (f.delivered m).restart.delivered m' = f.restart.delivered (m + m') := by
  simp only [JobFlow.restart, delivered, Multiset.map_add, add_assoc]
  rfl

/-- After a restart a job that was accepted is not accepted again, nor is one that was
being sent twice. -/
theorem AcceptedOnce.restart (h : AcceptedOnce f) {m : Multiset (J × N)}
    (hm : ∀ j, times m j ≤ times f.sending j) : AcceptedOnce (f.restart.delivered m) where
  tokens := h.tokens.restart.delivered m
  once := by
    intro j
    have hold := h.once j
    have hsent := hm j
    have hnone : (f.restart.delivered m).unaccepted j = 0 := by
      simp only [JobFlow.restart, JobFlow.delivered, unaccepted, Multiset.count_zero, times_zero,
        reduceCtorEq, if_false]
    have haccepted : (f.restart.delivered m).accepted.count j = f.accepted.count j + times m j :=
      delivered_accepted ..
    have hsubmitted : (f.restart.delivered m).submitted = f.submitted := rfl
    rw [hnone, haccepted, hsubmitted]
    simp only [unaccepted] at hold
    omega

/-- A submitted job that is not underway does not get there again, so no worker accepts
it. -/
theorem Step.not_underway (h : Step f a g) (hf : Fresh f a) {j : J} (hj : j ∈ f.submitted)
    (hidle : f.underway.count j = 0) :
    g.underway.count j = 0 ∧ g.accepted.count j = f.accepted.count j := by
  rw [count_underway] at hidle ⊢
  cases h with
  | submit k =>
      have hne : j ≠ k := fun heq => hf (heq ▸ hj)
      simpa only [unaccepted, Multiset.count_cons, if_neg hne, add_zero, and_true] using hidle
  | take hq hh =>
      simp only [unaccepted, hq, hh, Multiset.count_cons, reduceCtorEq, if_false] at hidle
      simp only [unaccepted, Option.some.injEq, eq_comm (b := j), and_true]
      omega
  | place n hh =>
      simp only [unaccepted, hh, Option.some.injEq, eq_comm (b := j)] at hidle
      simp only [unaccepted, times_cons, reduceCtorEq, if_false, and_true]
      omega
  | accept hr =>
      simp only [unaccepted, hr, times_cons] at hidle
      simp only [unaccepted, times_cons, Multiset.count_cons]
      omega
  | finish hr =>
      simp only [unaccepted, hr, times_cons] at hidle
      simp only [unaccepted, and_true]
      omega
  | reject hr =>
      simp only [unaccepted, hr, times_cons] at hidle
      simp only [unaccepted, times_cons, and_true]
      omega
  | lose hr =>
      simp only [unaccepted, hr, times_cons] at hidle
      simp only [unaccepted, times_cons, and_true]
      omega
  | release hr =>
      simp only [unaccepted, hr, times_cons] at hidle
      simp only [unaccepted, Multiset.count_cons, and_true]
      omega
  | retry hr =>
      simp only [unaccepted, hr, Multiset.count_cons] at hidle
      simp only [unaccepted, Multiset.count_cons, and_true]
      omega
  | abandon hr =>
      simp only [unaccepted, hr, Multiset.count_cons] at hidle
      simp only [unaccepted, and_true]
      omega
  | report hr => exact ⟨hidle, rfl⟩

end JobFlow
