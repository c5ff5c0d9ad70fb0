/-
HeteroSched/Lib/Recovery.lean

Programs that are interrupted and started again.

Design.  A program is a list of instructions, each of which may fail (`execAll`).  An
instruction that is skipped when its effect is there already (`ensure`) does nothing the
second time, provided that executing an instruction has its effect and no instruction
undoes the effect of another (`Resumable`).  So a program of such instructions can stop
after any of them: started again, it ends as if it had not stopped (`resume`), however
often that happens (`resume_many`).

A program that looks once, at its start, which effects are missing, and executes the
instructions for those, is the same program (`execAll_missing`).
-/
import Mathlib.Logic.Relation
import Mathlib.Tactic

namespace Recovery

variable {ι σ ε : Type*} {exec : ι → σ → Except ε σ} {done : ι → σ → Prop}

/-- The state after all instructions, or the first failure. -/
def execAll (exec : ι → σ → Except ε σ) (l : List ι) (s : σ) : Except ε σ :=
  l.foldlM (fun s i => exec i s) s

/-- The instruction, where its effect is not there. -/
def ensure (exec : ι → σ → Except ε σ) (done : ι → σ → Prop) [∀ i s, Decidable (done i s)]
    (i : ι) (s : σ) : Except ε σ :=
  if done i s then .ok s else exec i s

/-- An instruction has its effect and undoes no other. -/
structure Resumable (exec : ι → σ → Except ε σ) (done : ι → σ → Prop) : Prop where
  done_exec : ∀ {i s t}, exec i s = .ok t → done i t
  keeps : ∀ {i j s t}, exec i s = .ok t → done j s → done j t

theorem execAll_cons (i : ι) (l : List ι) (s : σ) :
    execAll exec (i :: l) s = (exec i s).bind (execAll exec l) := rfl

theorem execAll_append (l l' : List ι) (s : σ) :
    execAll exec (l ++ l') s = (execAll exec l s).bind (execAll exec l') := by
  induction l generalizing s with
  | nil => rfl
  | cons i l ih =>
      rw [List.cons_append, execAll_cons, execAll_cons]
      rcases exec i s with e | t
      · rfl
      · exact ih t

theorem execAll_map {κ : Type*} (f : κ → ι) (l : List κ) (s : σ) :
    execAll exec (l.map f) s = execAll (fun k => exec (f k)) l s := by
  induction l generalizing s with
  | nil => rfl
  | cons k l ih =>
      rw [List.map_cons, execAll_cons, execAll_cons]
      rcases exec (f k) s with e | t
      · rfl
      · exact ih t

theorem execAll_congr {exec' : ι → σ → Except ε σ} {l : List ι}
    (h : ∀ i ∈ l, ∀ s, exec i s = exec' i s) (s : σ) : execAll exec l s = execAll exec' l s := by
  induction l generalizing s with
  | nil => rfl
  | cons i l ih =>
      obtain ⟨hi, hl⟩ := List.forall_mem_cons.mp h
      rw [execAll_cons, execAll_cons, hi s]
      rcases exec' i s with e | t
      · rfl
      · exact ih hl t

/-- What every instruction keeps, the program keeps. -/
theorem execAll_invariant {I : σ → Prop} {l : List ι} {s t : σ}
    (hstep : ∀ i ∈ l, ∀ {s t}, I s → exec i s = .ok t → I t) (h : execAll exec l s = .ok t)
    (hs : I s) : I t := by
  induction l generalizing s with
  | nil =>
      obtain rfl := Except.ok.inj h
      exact hs
  | cons i l ih =>
      obtain ⟨hi, hl⟩ := List.forall_mem_cons.mp hstep
      rw [execAll_cons] at h
      rcases hexec : exec i s with e | u
      · rw [hexec] at h
        cases h
      · rw [hexec] at h
        exact ih hl h (hi hs hexec)

/-- A program that fails in no instruction ends. -/
theorem execAll_ok {I : σ → Prop} {l : List ι} {s : σ}
    (hstep : ∀ i ∈ l, ∀ {s}, I s → ∃ t, exec i s = .ok t ∧ I t) (hs : I s) :
    ∃ t, execAll exec l s = .ok t ∧ I t := by
  induction l generalizing s with
  | nil => exact ⟨s, rfl, hs⟩
  | cons i l ih =>
      obtain ⟨hi, hl⟩ := List.forall_mem_cons.mp hstep
      obtain ⟨u, hexec, hu⟩ := hi hs
      obtain ⟨t, hrest, ht⟩ := ih hl hu
      exact ⟨t, by rw [execAll_cons, hexec]; exact hrest, ht⟩

/-- After the program every effect is there. -/
theorem Resumable.done_execAll (hres : Resumable exec done) {l : List ι} {s t : σ}
    (h : execAll exec l s = .ok t) : ∀ i ∈ l, done i t := by
  induction l generalizing s with
  | nil => exact fun i hi => absurd hi List.not_mem_nil
  | cons i l ih =>
      rw [execAll_cons] at h
      rcases hexec : exec i s with e | u
      · rw [hexec] at h
        cases h
      · rw [hexec] at h
        refine List.forall_mem_cons.mpr ⟨?_, ih h⟩
        exact execAll_invariant (I := done i) (fun _ _ _ _ hd hx => hres.keeps hx hd) h
          (hres.done_exec hexec)

variable [∀ i s, Decidable (done i s)]

theorem Resumable.ensure (hres : Resumable exec done) : Resumable (ensure exec done) done where
  done_exec := by
    intro i s t h
    unfold Recovery.ensure at h
    split at h
    · next hdone =>
        obtain rfl := Except.ok.inj h
        exact hdone
    · exact hres.done_exec h
  keeps := by
    intro i j s t h hdone
    unfold Recovery.ensure at h
    split at h
    · obtain rfl := Except.ok.inj h
      exact hdone
    · exact hres.keeps h hdone

theorem ensureAll_of_done {l : List ι} {s : σ} (h : ∀ i ∈ l, done i s) :
    execAll (ensure exec done) l s = .ok s := by
  induction l with
  | nil => rfl
  | cons i l ih =>
      obtain ⟨hi, hl⟩ := List.forall_mem_cons.mp h
      rw [execAll_cons, ensure, if_pos hi]
      exact ih hl

/-- Stopped after a first part and started again, the program ends as without the
interruption. -/
theorem Resumable.resume (hres : Resumable exec done) {p l : List ι} (hp : p <+: l) {s u : σ}
    (h : execAll (Recovery.ensure exec done) p s = .ok u) :
    execAll (Recovery.ensure exec done) l u = execAll (Recovery.ensure exec done) l s := by
  obtain ⟨rest, rfl⟩ := hp
  have hskip : execAll (Recovery.ensure exec done) p u = .ok u :=
    ensureAll_of_done (hres.ensure.done_execAll h)
  rw [execAll_append, execAll_append, h, hskip]

/-- However often it is stopped. -/
theorem Resumable.resume_many (hres : Resumable exec done) {l : List ι} {s u : σ}
    (h : Relation.ReflTransGen
      (fun s u => ∃ p, p <+: l ∧ execAll (Recovery.ensure exec done) p s = .ok u) s u) :
    execAll (Recovery.ensure exec done) l u = execAll (Recovery.ensure exec done) l s := by
  induction h with
  | refl => rfl
  | tail _ hstep ih =>
      obtain ⟨p, hp, hexec⟩ := hstep
      rw [hres.resume hp hexec, ih]

/-- Where an instruction has no effect but its own, it is enough to look once which
effects are missing. -/
theorem execAll_missing {l : List ι} (hl : l.Nodup) {s : σ}
    (halone : ∀ i ∈ l, ∀ j ∈ l, ∀ {s t}, exec i s = .ok t → done j t → j = i ∨ done j s)
    (hkeeps : ∀ {i j s t}, exec i s = .ok t → done j s → done j t) :
    execAll exec (l.filter fun i => ¬ done i s) s = execAll (ensure exec done) l s := by
  induction l generalizing s with
  | nil => rfl
  | cons i l ih =>
      obtain ⟨hi, hl⟩ := List.nodup_cons.mp hl
      have halone' : ∀ i ∈ l, ∀ j ∈ l, ∀ {s t}, exec i s = .ok t → done j t → j = i ∨ done j s :=
        fun i hi j hj => halone i (List.mem_cons_of_mem _ hi) j (List.mem_cons_of_mem _ hj)
      rw [execAll_cons, ensure]
      by_cases hdone : done i s
      · rw [if_pos hdone, List.filter_cons_of_neg (by simpa using hdone)]
        exact ih hl halone'
      · rw [if_neg hdone, List.filter_cons_of_pos (by simpa using hdone), execAll_cons]
        rcases hexec : exec i s with e | t
        · rfl
        · have hsame : l.filter (fun j => ¬ done j s) = l.filter fun j => ¬ done j t := by
            refine List.filter_congr fun j hj => ?_
            have hne : j ≠ i := fun heq => hi (heq ▸ hj)
            have hiff : done j s ↔ done j t :=
              ⟨hkeeps hexec, fun ht => (halone i List.mem_cons_self j (List.mem_cons_of_mem _ hj)
                hexec ht).resolve_left hne⟩
            rw [decide_eq_decide]
            exact not_congr hiff
          show execAll exec (l.filter fun j => ¬ done j s) t = execAll (ensure exec done) l t
          rw [hsame]
          exact ih hl halone'

/-- A first part of what a filter leaves is what it leaves of a first part. -/
theorem firstPart_of_filter {p : ι → Bool} {q l : List ι} (h : q <+: l.filter p) :
    ∃ q', q' <+: l ∧ q = q'.filter p := by
  induction l generalizing q with
  | nil => exact ⟨[], List.nil_prefix, by simpa using h⟩
  | cons i l ih =>
      by_cases hp : p i = true
      · rw [List.filter_cons_of_pos hp] at h
        rcases q with - | ⟨j, q⟩
        · exact ⟨[], List.nil_prefix, rfl⟩
        · obtain ⟨rfl, hq⟩ := List.cons_prefix_cons.mp h
          obtain ⟨q', hq', rfl⟩ := ih hq
          exact ⟨j :: q', List.cons_prefix_cons.mpr ⟨rfl, hq'⟩,
            (List.filter_cons_of_pos hp).symm⟩
      · rw [List.filter_cons_of_neg hp] at h
        obtain ⟨q', hq', rfl⟩ := ih h
        exact ⟨i :: q', List.cons_prefix_cons.mpr ⟨rfl, hq'⟩, (List.filter_cons_of_neg hp).symm⟩

/-- And a first part of such a program is a first part of the other. -/
theorem execAll_missing_firstPart {q l : List ι} (hl : l.Nodup) {s : σ}
    (hq : q <+: l.filter fun i => ¬ done i s)
    (halone : ∀ i ∈ l, ∀ j ∈ l, ∀ {s t}, exec i s = .ok t → done j t → j = i ∨ done j s)
    (hkeeps : ∀ {i j s t}, exec i s = .ok t → done j s → done j t) :
    ∃ p, p <+: l ∧ execAll exec q s = execAll (ensure exec done) p s := by
  obtain ⟨p, hp, rfl⟩ := firstPart_of_filter hq
  exact ⟨p, hp, execAll_missing (hl.sublist hp.sublist)
    (fun i hi j hj => halone i (hp.subset hi) j (hp.subset hj)) hkeeps⟩

end Recovery
