/-
HeteroSched/Lib/Overlap.lean

Double counting of overlapping sets and intervals.

Design.  The measures of finitely many sets add up to the integral of the number
of sets a point lies in (`lintegral_countP`), so sets that overlap at most `k`
times inside a window measure at most `k` windows in total.  For intervals that
are closed on the left the overlap need only be bounded where one of them
starts: the latest start of the intervals around a point lies in all of them.
-/
import Mathlib.MeasureTheory.Integral.Lebesgue.Add
import Mathlib.MeasureTheory.Measure.Lebesgue.Basic
import Mathlib.Tactic

namespace Overlap

open MeasureTheory

/-! ### Sets -/

section Sets

open Classical

variable {α : Type*} [MeasurableSpace α]

/-- The number of sets a point lies in, integrated, is the sum of the measures. -/
theorem lintegral_countP (μ : Measure α) {l : List (Set α)} (h : ∀ s ∈ l, MeasurableSet s) :
    ∫⁻ t, (l.countP (t ∈ ·) : ENNReal) ∂μ = (l.map μ).sum := by
  induction l with
  | nil => simp only [List.countP_nil, Nat.cast_zero, lintegral_zero, List.map_nil, List.sum_nil]
  | cons s l ih =>
      obtain ⟨hs, hl⟩ := List.forall_mem_cons.mp h
      have hcount : ∀ t, (((s :: l).countP (t ∈ ·) : ℕ) : ENNReal)
          = s.indicator 1 t + (l.countP (t ∈ ·) : ENNReal) := by
        intro t
        rw [List.countP_cons, add_comm, Nat.cast_add, Set.indicator_apply]
        by_cases ht : t ∈ s
        · simp only [ht, decide_true, if_true, Nat.cast_one, Pi.one_apply]
        · simp only [ht, decide_false, Bool.false_eq_true, if_false, Nat.cast_zero]
      simp only [hcount]
      rw [lintegral_add_left (measurable_one.indicator hs), lintegral_indicator_one hs, ih hl,
        List.map_cons, List.sum_cons]

/-- Sets that overlap at most `k` times inside a window measure at most `k` windows. -/
theorem sum_measure_le (μ : Measure α) {l : List (Set α)} {window : Set α} {k : ℕ}
    (hmeasurable : ∀ s ∈ l, MeasurableSet s) (hwindow : MeasurableSet window)
    (hinside : ∀ s ∈ l, s ⊆ window) (hoverlap : ∀ t, l.countP (t ∈ ·) ≤ k) :
    (l.map μ).sum ≤ k * μ window := by
  rw [← lintegral_countP μ hmeasurable, ← lintegral_indicator_const hwindow]
  refine lintegral_mono fun t => ?_
  rw [Set.indicator_apply]
  split
  · exact Nat.cast_le.mpr (hoverlap t)
  · next ht =>
      have hzero : l.countP (t ∈ ·) = 0 :=
        List.countP_eq_zero.mpr fun s hs hts => ht (hinside s hs (of_decide_eq_true hts))
      rw [hzero, Nat.cast_zero]

end Sets

/-! ### Intervals -/

/-- The number of intervals around a point. -/
noncomputable def depth (l : List (ℝ × ℝ)) (t : ℝ) : ℕ := l.countP fun i => i.1 ≤ t ∧ t < i.2

/-- Where intervals overlap, one of them starts where at least as many do. -/
theorem exists_depth_le {l : List (ℝ × ℝ)} {t : ℝ} (h : 0 < depth l t) :
    ∃ i ∈ l, depth l t ≤ depth l i.1 := by
  classical
  obtain ⟨i₀, hi₀, hp₀⟩ := List.countP_pos_iff.mp h
  have hne : (l.filter fun i => i.1 ≤ t ∧ t < i.2).toFinset.Nonempty :=
    ⟨i₀, List.mem_toFinset.mpr (List.mem_filter.mpr ⟨hi₀, hp₀⟩)⟩
  obtain ⟨i, hi, hlatest⟩ := Finset.exists_max_image _ Prod.fst hne
  obtain ⟨hil, hip⟩ := List.mem_filter.mp (List.mem_toFinset.mp hi)
  refine ⟨i, hil, List.countP_mono_left fun j hj hjp => ?_⟩
  have hle := hlatest j (List.mem_toFinset.mpr (List.mem_filter.mpr ⟨hj, hjp⟩))
  rw [decide_eq_true_eq] at hip hjp ⊢
  exact ⟨hle, lt_of_le_of_lt hip.1 hjp.2⟩

theorem sum_ofReal {l : List (ℝ × ℝ)} (h : ∀ i ∈ l, i.1 ≤ i.2) :
    (l.map fun i => ENNReal.ofReal (i.2 - i.1)).sum =
      ENNReal.ofReal (l.map fun i => i.2 - i.1).sum := by
  induction l with
  | nil => simp only [List.map_nil, List.sum_nil, ENNReal.ofReal_zero]
  | cons i l ih =>
      obtain ⟨hi, hl⟩ := List.forall_mem_cons.mp h
      have hrest : 0 ≤ (l.map fun i => i.2 - i.1).sum := by
        refine List.sum_nonneg fun d hd => ?_
        obtain ⟨j, hj, rfl⟩ := List.mem_map.mp hd
        exact sub_nonneg.mpr (hl j hj)
      rw [List.map_cons, List.sum_cons, ih hl, List.map_cons, List.sum_cons,
        ENNReal.ofReal_add (sub_nonneg.mpr hi) hrest]

/-- Intervals of which at most `k` overlap at any start add up to at most `k`
times the window they lie in. -/
theorem sum_length_le {l : List (ℝ × ℝ)} {a b : ℝ} {k : ℕ} (hab : a ≤ b)
    (hinside : ∀ i ∈ l, a ≤ i.1 ∧ i.1 ≤ i.2 ∧ i.2 ≤ b) (hdepth : ∀ i ∈ l, depth l i.1 ≤ k) :
    (l.map fun i => i.2 - i.1).sum ≤ k * (b - a) := by
  classical
  have hmeasurable : ∀ s ∈ l.map fun i => Set.Ico i.1 i.2, MeasurableSet s := by
    intro s hs
    obtain ⟨i, -, rfl⟩ := List.mem_map.mp hs
    exact measurableSet_Ico
  have hsubset : ∀ s ∈ l.map fun i => Set.Ico i.1 i.2, s ⊆ Set.Ico a b := by
    intro s hs
    obtain ⟨i, hi, rfl⟩ := List.mem_map.mp hs
    exact Set.Ico_subset_Ico (hinside i hi).1 (hinside i hi).2.2
  have hoverlap : ∀ t, (l.map fun i => Set.Ico i.1 i.2).countP (t ∈ ·) ≤ k := by
    intro t
    have hcount : (l.map fun i => Set.Ico i.1 i.2).countP (t ∈ ·) = depth l t := by
      rw [List.countP_map]
      refine List.countP_congr fun i _ => ?_
      simp only [Function.comp_apply, decide_eq_true_eq, Set.mem_Ico]
    rw [hcount]
    rcases Nat.eq_zero_or_pos (depth l t) with hzero | hpos
    · rw [hzero]
      exact Nat.zero_le k
    · obtain ⟨i, hi, hle⟩ := exists_depth_le hpos
      exact hle.trans (hdepth i hi)
  have hsum := sum_measure_le volume hmeasurable measurableSet_Ico hsubset hoverlap
  rw [List.map_map, Real.volume_Ico] at hsum
  simp only [Function.comp_def, Real.volume_Ico] at hsum
  rw [sum_ofReal fun i hi => (hinside i hi).2.1, ← ENNReal.ofReal_natCast,
    ← ENNReal.ofReal_mul (Nat.cast_nonneg k)] at hsum
  refine (ENNReal.ofReal_le_ofReal_iff ?_).mp hsum
  exact mul_nonneg (Nat.cast_nonneg k) (sub_nonneg.mpr hab)

end Overlap
