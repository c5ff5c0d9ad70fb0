/-
HeteroSched/Lib/Transition.lean

Runs of a labelled transition relation, and the induction rules for them.

Design.  A run keeps its trace: the list of the states it left together with
the label of the step it took there.  Every state the run visits is therefore
in the trace or is its last state, and a property of "every state reached" or
of "every step taken" is a statement about that list.  Each rule packages one
induction over runs, so that a proof about a system only ever argues about a
single step:

* `Run.invariant`, `Run.invariant_of`: an inductive invariant, without or with
  a condition that every step of the run meets;
* `Run.invariant_trace`: an invariant that also speaks of the steps taken so far;
* `Run.forall_trace`: what every step from a state of the invariant meets;
* `Run.always_iff`: when the invariant is only kept by the steps that meet the
  condition, and a step that does not meet it shows in the state after it, the
  runs in which a property holds throughout are exactly the runs whose steps
  all meet the condition;
* `Run.map`: a simulation, where a step may also be invisible above;
* `Run.iff_since`: a property that some steps bring about and others end, as a statement
  about the trace.
-/
import Mathlib

namespace Transition

variable {σ ε τ δ : Type*}

/-- Runs of `step` with their traces: the state and the label of every step,
in order. -/
inductive Run (step : σ → ε → σ → Prop) (s : σ) : List (σ × ε) → σ → Prop
  | refl : Run step s [] s
  | tail {tr t e u} : Run step s tr t → step t e u → Run step s (tr ++ [(t, e)]) u

/-- The steps of `step` that satisfy an assumption on the state and the label. -/
def restrict (step : σ → ε → σ → Prop) (A : σ → ε → Prop) : σ → ε → σ → Prop :=
  fun s e t => A s e ∧ step s e t

/-- A step whose label is given, or no step at all. -/
def optStep (step : σ → ε → σ → Prop) (s : σ) : Option ε → σ → Prop
  | none, t => t = s
  | some e, t => step s e t

/-- `P` holds in every state a run visits. -/
def Throughout (P : σ → Prop) (tr : List (σ × ε)) (t : σ) : Prop :=
  (∀ p ∈ tr, P p.1) ∧ P t

variable {step : σ → ε → σ → Prop} {s t : σ} {tr : List (σ × ε)}

theorem forall_mem_snoc {C : σ × ε → Prop} {p : σ × ε} :
    (∀ q ∈ tr ++ [p], C q) ↔ (∀ q ∈ tr, C q) ∧ C p := by
  simp only [List.mem_append, List.mem_singleton, or_imp, forall_and, forall_eq]

theorem exists_mem_snoc {C : σ × ε → Prop} {p : σ × ε} :
    (∃ q ∈ tr ++ [p], C q) ↔ (∃ q ∈ tr, C q) ∨ C p := by
  simp only [List.mem_append, List.mem_singleton, or_and_right, exists_or, exists_eq_left]

/-! ### Invariants -/

/-- An invariant kept by every step that meets the condition `C` holds at the
end of every run whose steps all meet it. -/
theorem Run.invariant_of {I : σ → Prop} {C : σ → ε → Prop} (h : Run step s tr t)
    (hinit : I s) (hstep : ∀ {t e u}, I t → C t e → step t e u → I u)
    (hC : ∀ p ∈ tr, C p.1 p.2) : I t := by
  induction h with
  | refl => exact hinit
  | tail _ hs ih =>
      obtain ⟨htr, hlast⟩ := forall_mem_snoc.mp hC
      exact hstep (ih htr) hlast hs

/-- An invariant kept by every step holds at the end of every run. -/
theorem Run.invariant {I : σ → Prop} (h : Run step s tr t)
    (hinit : I s) (hstep : ∀ {t e u}, I t → step t e u → I u) : I t :=
  h.invariant_of (C := fun _ _ => True) hinit (fun ht _ hs => hstep ht hs) fun _ _ => trivial

/-- An invariant of the state together with the steps that led to it. -/
theorem Run.invariant_trace {I : List (σ × ε) → σ → Prop} (h : Run step s tr t)
    (hinit : I [] s)
    (hstep : ∀ {tr t e u}, Run step s tr t → I tr t → step t e u → I (tr ++ [(t, e)]) u) :
    I tr t := by
  induction h with
  | refl => exact hinit
  | tail hr hs ih => exact hstep hr ih hs

/-- What a step from a state of the invariant always meets, every step of the
run meets. -/
theorem Run.forall_trace {I : σ → Prop} {C : σ → ε → Prop} (h : Run step s tr t)
    (hinit : I s) (hstep : ∀ {t e u}, I t → step t e u → I u)
    (hC : ∀ {t e u}, I t → step t e u → C t e) : ∀ p ∈ tr, C p.1 p.2 := by
  induction h with
  | refl => exact fun _ hp => absurd hp List.not_mem_nil
  | tail hr hs ih => exact forall_mem_snoc.mpr ⟨ih, hC (hr.invariant hinit hstep) hs⟩

/-- The runs in which `P` holds throughout are the runs whose steps all meet
`C`, when the invariant `I` is kept by the steps that meet `C` and every other
step from a state of `I` ends outside of `P`. -/
theorem Run.always_iff {I P : σ → Prop} {C : σ → ε → Prop} (h : Run step s tr t)
    (hinit : I s) (hIP : ∀ {t}, I t → P t)
    (hkeep : ∀ {t e u}, I t → C t e → step t e u → I u)
    (hblame : ∀ {t e u}, I t → step t e u → P u → C t e) :
    Throughout P tr t ↔ ∀ p ∈ tr, C p.1 p.2 := by
  have key : (Throughout P tr t ∨ ∀ p ∈ tr, C p.1 p.2) →
      I t ∧ Throughout P tr t ∧ ∀ p ∈ tr, C p.1 p.2 := by
    induction h with
    | refl =>
        intro _
        exact ⟨hinit, ⟨fun _ hp => absurd hp List.not_mem_nil, hIP hinit⟩,
          fun _ hp => absurd hp List.not_mem_nil⟩
    | tail _ hs ih =>
        rintro (⟨htr, hlast⟩ | hC)
        · obtain ⟨htr', hmid⟩ := forall_mem_snoc.mp htr
          obtain ⟨hI, hP, hC⟩ := ih (Or.inl ⟨htr', hmid⟩)
          have hc := hblame hI hs hlast
          exact ⟨hkeep hI hc hs, ⟨htr, hlast⟩, forall_mem_snoc.mpr ⟨hC, hc⟩⟩
        · obtain ⟨hC', hc⟩ := forall_mem_snoc.mp hC
          obtain ⟨hI, hP, _⟩ := ih (Or.inr hC')
          have hI' := hkeep hI hc hs
          exact ⟨hI', ⟨forall_mem_snoc.mpr hP, hIP hI'⟩, hC⟩
  exact ⟨fun hP => (key (Or.inl hP)).2.2, fun hC => (key (Or.inr hC)).2.1⟩

/-! ### Runs of a function -/

/-- The trace of a function that computes the next state, along given labels. -/
def traceOf (f : σ → ε → σ) : σ → List ε → List (σ × ε)
  | _, [] => []
  | s, e :: es => (s, e) :: traceOf f (f s e) es

theorem Run.head {e : ε} {u : σ} (hs : step s e u) (h : Run step u tr t) :
    Run step s ((s, e) :: tr) t := by
  induction h with
  | refl => exact Run.tail .refl hs
  | tail _ hs' ih => exact ih.tail hs'

/-- Following a function is a run of its graph, within an assumption that all
its steps meet. -/
theorem Run.of_traceOf {f : σ → ε → σ} {A : σ → ε → Prop} {es : List ε}
    (hA : ∀ p ∈ traceOf f s es, A p.1 p.2) :
    Run (restrict (fun s e t => t = f s e) A) s (traceOf f s es) (es.foldl f s) := by
  induction es generalizing s with
  | nil => exact .refl
  | cons e es ih =>
      obtain ⟨hfirst, hrest⟩ := List.forall_mem_cons.mp hA
      exact Run.head ⟨hfirst, rfl⟩ (ih hrest)

theorem Run.append {tr' : List (σ × ε)} {u : σ} (h : Run step s tr t) (h' : Run step t tr' u) :
    Run step s (tr ++ tr') u := by
  induction h' with
  | refl => rwa [List.append_nil]
  | tail _ hs ih =>
      rw [← List.append_assoc]
      exact ih.tail hs

/-! ### Restriction and simulation -/

/-- One more step of the restricted relation. -/
theorem Run.tail_restrict {A : σ → ε → Prop} {e : ε} {u : σ} (h : Run (restrict step A) s tr t)
    (hs : step t e u) (hA : A t e) : Run (restrict step A) s (tr ++ [(t, e)]) u :=
  h.tail ⟨hA, hs⟩

/-- A weaker assumption allows at least the same runs. -/
theorem Run.mono {A B : σ → ε → Prop} (h : Run (restrict step A) s tr t)
    (hAB : ∀ {s e}, A s e → B s e) : Run (restrict step B) s tr t := by
  induction h with
  | refl => exact .refl
  | tail _ hs ih => exact ih.tail ⟨hAB hs.1, hs.2⟩

/-- A run of the restricted relation is a run of the relation whose steps all
meet the assumption. -/
theorem Run.of_restrict {A : σ → ε → Prop} (h : Run (restrict step A) s tr t) :
    Run step s tr t ∧ ∀ p ∈ tr, A p.1 p.2 := by
  induction h with
  | refl => exact ⟨.refl, fun _ hp => absurd hp List.not_mem_nil⟩
  | tail _ hs ih => exact ⟨ih.1.tail hs.2, forall_mem_snoc.mpr ⟨ih.2, hs.1⟩⟩

/-- Simulation: the abstraction `f` turns a step into the abstract step `l`
names for it, or into no step at all.  A condition of the concrete steps
carries over to the abstract ones. -/
theorem Run.map {astep : τ → δ → τ → Prop} {f : σ → τ} {l : ε → Option δ}
    {A : σ → ε → Prop} {D : τ → δ → Prop}
    (hsim : ∀ {t e u}, step t e u → optStep astep (f t) (l e) (f u))
    (hcond : ∀ {t e d}, A t e → l e = some d → D (f t) d)
    (h : Run step s tr t) (hA : ∀ p ∈ tr, A p.1 p.2) :
    ∃ tr', Run astep (f s) tr' (f t) ∧ ∀ p ∈ tr', D p.1 p.2 := by
  induction h with
  | refl => exact ⟨[], .refl, fun _ hp => absurd hp List.not_mem_nil⟩
  | @tail _ t e u _ hs ih =>
      obtain ⟨hA', ha⟩ := forall_mem_snoc.mp hA
      obtain ⟨tr', hr, hD⟩ := ih hA'
      have hstep := hsim hs
      rcases hl : l e with - | d
      · rw [hl] at hstep
        exact ⟨tr', (show f u = f t from hstep) ▸ hr, hD⟩
      · rw [hl] at hstep
        exact ⟨tr' ++ [(f t, d)], hr.tail hstep, forall_mem_snoc.mpr ⟨hD, hcond ha hl⟩⟩

/-! ### Since -/

section Since

variable {J L : σ × ε → Prop}

/-- The trace has a step that meets `J`, and none that meets `L` after it. -/
def Since (J L : σ × ε → Prop) (tr : List (σ × ε)) : Prop :=
  ∃ pre p post, tr = pre ++ p :: post ∧ J p ∧ ∀ q ∈ post, ¬ L q

theorem not_since_nil : ¬ Since J L [] := by
  rintro ⟨pre, p, post, heq, -⟩
  exact List.append_ne_nil_of_right_ne_nil pre (List.cons_ne_nil p post) heq.symm

theorem since_snoc {p : σ × ε} : Since J L (tr ++ [p]) ↔ J p ∨ (Since J L tr ∧ ¬ L p) := by
  constructor
  · rintro ⟨pre, q, post, heq, hq, hpost⟩
    rcases List.eq_nil_or_concat' post with rfl | ⟨post, p', rfl⟩
    · obtain ⟨-, hp⟩ := List.append_inj' heq rfl
      obtain rfl := List.singleton_inj.mp hp
      exact Or.inl hq
    · have heq' : tr ++ [p] = (pre ++ q :: post) ++ [p'] := by simpa using heq
      obtain ⟨rfl, hp⟩ := List.append_inj' heq' rfl
      obtain rfl := List.singleton_inj.mp hp
      obtain ⟨hpost, hp⟩ := forall_mem_snoc.mp hpost
      exact Or.inr ⟨⟨pre, q, post, rfl, hq, hpost⟩, hp⟩
  · rintro (hp | ⟨⟨pre, q, post, rfl, hq, hpost⟩, hp⟩)
    · exact ⟨tr, p, [], rfl, hp, fun _ hm => absurd hm List.not_mem_nil⟩
    · refine ⟨pre, q, post ++ [p], ?_, hq, forall_mem_snoc.mpr ⟨hpost, hp⟩⟩
      rw [List.append_assoc, List.cons_append]

/-- What the steps of `J` bring about, the steps of `L` end and all others leave as it is
holds when there was a step of `J` and none of `L` since. -/
theorem Run.iff_since {I : σ → Prop} (h : Run step s tr t) (hinit : ¬ I s)
    (hstep : ∀ {t e u}, step t e u → (I u ↔ J (t, e) ∨ (I t ∧ ¬ L (t, e)))) :
    I t ↔ Since J L tr := by
  induction h with
  | refl => exact iff_of_false hinit not_since_nil
  | tail _ hs ih => rw [hstep hs, since_snoc, ih]

end Since

end Transition
