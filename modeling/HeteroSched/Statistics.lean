/-
HeteroSched/Statistics.lean

The summary statistics of `experiments/metrics.py`: which rank `percentile` reads,
and how the fields of a `distribution` are related.

Design.  Every order statistic is read at one place of the sorted list
(`orderStat`), so what is left of a percentile is arithmetic about its rank:
`round` differs from the nearest rank, the ceiling, exactly where it rounds down,
and then by one (`roundHalfEven_eq`).
-/
import HeteroSched.Lib.Evenness
import HeteroSched.Lib.OrderStatistics
import HeteroSched.Metrics
import Mathlib.Analysis.Real.Sqrt
import Mathlib.Data.List.ReduceOption

namespace HeteroSched

open OrderStatistics

/-! ### Rounding -/

/-- Where `round` gives the ceiling. -/
def RoundsUp (q : ℚ) : Prop :=
  Int.fract q = 0 ∨ 1 / 2 < Int.fract q ∨ (Int.fract q = 1 / 2 ∧ ⌊q⌋ % 2 = 1)

instance (q : ℚ) : Decidable (RoundsUp q) := by
  unfold RoundsUp
  infer_instance

theorem ceil_of_fract_pos {q : ℚ} (h : 0 < Int.fract q) : ⌈q⌉ = ⌊q⌋ + 1 := by
  have hfract := Int.fract_lt_one q
  rw [Int.fract] at h hfract
  rw [Int.ceil_eq_iff]
  push_cast
  constructor <;> linarith

/-- `round` gives the ceiling, or one less. -/
theorem roundHalfEven_eq (q : ℚ) :
    roundHalfEven q = if RoundsUp q then ⌈q⌉ else ⌈q⌉ - 1 := by
  have hfloor : q - (q.floor : ℚ) = Int.fract q := rfl
  have hfloor' : q.floor = ⌊q⌋ := rfl
  rw [roundHalfEven, hfloor, hfloor']
  rcases (Int.fract_nonneg q).eq_or_lt with hzero | hpos
  · have hceil : ⌈q⌉ = ⌊q⌋ := by
      rw [Int.ceil_eq_iff, Int.fract, eq_comm, sub_eq_zero] at *
      constructor <;> linarith
    rw [if_pos (show RoundsUp q from Or.inl hzero.symm), ← hzero, if_pos (by norm_num), hceil]
  · rw [ceil_of_fract_pos hpos]
    rcases lt_trichotomy (Int.fract q) (1 / 2) with hlt | heq | hgt
    · have hdown : ¬ RoundsUp q := by
        rintro (h | h | ⟨h, -⟩) <;> linarith
      rw [if_pos hlt, if_neg hdown, add_sub_cancel_right]
    · rw [if_neg (by rw [heq]; exact lt_irrefl _), if_neg (by rw [heq]; exact lt_irrefl _)]
      by_cases heven : ⌊q⌋ % 2 = 0
      · have hdown : ¬ RoundsUp q := by
          rintro (h | h | ⟨-, h⟩)
          · exact hpos.ne' h
          · exact h.ne' heq
          · omega
        rw [if_pos heven, if_neg hdown, add_sub_cancel_right]
      · have hup : RoundsUp q := Or.inr (Or.inr ⟨heq, by omega⟩)
        rw [if_neg heven, if_pos hup]
    · have hup : RoundsUp q := Or.inr (Or.inl hgt)
      rw [if_neg (not_lt.mpr hgt.le), if_pos hgt, if_pos hup]

/-- `round` reaches an integer from above its lower half. -/
theorem le_roundHalfEven {q : ℚ} {k : ℤ} (h : k - 1 / 2 < q) : k ≤ roundHalfEven q := by
  rw [roundHalfEven_eq]
  split
  · have hlt : k - 1 < ⌈q⌉ := by
      rw [Int.lt_ceil]
      push_cast
      linarith
    omega
  · next hdown =>
      have hpos : 0 < Int.fract q :=
        lt_of_le_of_ne (Int.fract_nonneg q) fun hzero => hdown (Or.inl hzero.symm)
      have hle : Int.fract q ≤ 1 / 2 := not_lt.mp fun hgt => hdown (Or.inr (Or.inl hgt))
      rw [Int.fract] at hle
      rw [ceil_of_fract_pos hpos, add_sub_cancel_right]
      have hlt : (k : ℚ) < ((⌊q⌋ + 1 : ℤ) : ℚ) := by
        push_cast
        linarith
      exact Int.lt_add_one_iff.mp (Int.cast_lt.mp hlt)

/-! ### The rank of a percentile -/

/-- The rank `percentile` reads where the rounded number is `q`, counted from one. -/
def percentileRank (n : ℕ) (q : ℚ) : ℕ := (min (max 1 (roundHalfEven q)) n).toNat

theorem percentile_eq {values : List ℚ} (h : values ≠ []) (pct : ℚ) :
    percentile values pct =
      orderStat values (percentileRank values.length (pct / 100 * values.length) - 1) := by
  rw [percentile, if_neg h, percentileRank, orderStat]
  dsimp only
  rw [List.length_insertionSort]
  congr 1
  omega

/-- The rank is the ceiling where `round` gives it, and for the first entry. -/
theorem percentileRank_of_up {n : ℕ} {q : ℚ} (hpos : 0 < q) (hle : q ≤ n)
    (hup : q < 1 ∨ RoundsUp q) : percentileRank n q = ⌈q⌉₊ := by
  have hceil : 0 < ⌈q⌉ := Int.ceil_pos.mpr hpos
  have hceil' : ⌈q⌉ ≤ n := Int.ceil_le.mpr (by exact_mod_cast hle)
  rw [percentileRank, roundHalfEven_eq, ← Int.ceil_toNat]
  split
  · congr 1
    omega
  · next hdown =>
      have hone : ⌈q⌉ ≤ 1 := by
        rw [Int.ceil_le]
        exact_mod_cast (hup.resolve_right hdown).le
      congr 1
      omega

/-- Anywhere else it is the floor, one less than the ceiling. -/
theorem percentileRank_of_down {n : ℕ} {q : ℚ} (hle : q ≤ n)
    (hdown : ¬ (q < 1 ∨ RoundsUp q)) :
    percentileRank n q = ⌊q⌋₊ ∧ ⌈q⌉₊ = ⌊q⌋₊ + 1 ∧ 0 < ⌊q⌋₊ := by
  obtain ⟨hone, hdown⟩ := not_or.mp hdown
  have hpos : 0 < Int.fract q :=
    lt_of_le_of_ne (Int.fract_nonneg q) fun hzero => hdown (Or.inl hzero.symm)
  have hceil := ceil_of_fract_pos hpos
  have hceil' : ⌈q⌉ ≤ n := Int.ceil_le.mpr (by exact_mod_cast hle)
  have hfloor : 1 ≤ ⌊q⌋ := Int.le_floor.mpr (by exact_mod_cast not_lt.mp hone)
  rw [percentileRank, roundHalfEven_eq, if_neg hdown, ← Int.ceil_toNat, ← Int.floor_toNat]
  omega

/-! ### Nearest ranks -/

/-- **The percentile is the nearest-rank one exactly where `round` gives the
ceiling of the number of entries asked for**, in the first entry, or where the
entries of the two ranks are tied. -/
theorem percentile_isNearestRank_iff (values : List ℚ) (pct : ℚ) (hne : values ≠ [])
    (hpos : 0 < pct) (hle : pct ≤ 100) :
    (∃ v, percentile values pct = some v ∧
        IsNearestRank values (pct / 100 * values.length) v) ↔
      pct / 100 * values.length < 1 ∨ RoundsUp (pct / 100 * values.length) ∨
        Tied values ⌊pct / 100 * values.length⌋₊ := by
  have hlen : (0 : ℚ) < values.length := by
    exact_mod_cast List.length_pos_iff.mpr hne
  have hqpos : 0 < pct / 100 * values.length := by positivity
  have hqle : pct / 100 * values.length ≤ values.length := by
    refine mul_le_of_le_one_left hlen.le ?_
    rw [div_le_one (by norm_num)]
    exact hle
  rw [percentile_eq hne]
  generalize pct / 100 * (values.length : ℚ) = q at hqpos hqle ⊢
  have hceil : 0 < ⌈q⌉₊ := Nat.ceil_pos.mpr hqpos
  have hceil' : ⌈q⌉₊ ≤ values.length := Nat.ceil_le.mpr hqle
  obtain ⟨x, hx⟩ := orderStat_isSome (show ⌈q⌉₊ - 1 < values.length by omega)
  -- both sides say which entry the rank of the percentile has
  have key : (∃ v, orderStat values (percentileRank values.length q - 1) = some v ∧
      IsNearestRank values q v) ↔
      orderStat values (percentileRank values.length q - 1) = orderStat values (⌈q⌉₊ - 1) := by
    constructor
    · rintro ⟨v, hv, hnear⟩
      rw [hv, (isNearestRank_iff hqpos hqle).mp hnear]
    · intro heq
      exact ⟨x, heq.trans hx, (isNearestRank_iff hqpos hqle).mpr hx⟩
  rw [key, ← or_assoc]
  by_cases hup : q < 1 ∨ RoundsUp q
  · rw [percentileRank_of_up hqpos hqle hup]
    exact ⟨fun _ => Or.inl hup, fun _ => rfl⟩
  · obtain ⟨hrank, hsucc, hfloor⟩ := percentileRank_of_down hqle hup
    rw [hrank, hsucc, Nat.add_sub_cancel, or_iff_right hup]
    exact (tied_iff hfloor (by omega)).symm

/-- Of five entries 95 percent are four and three quarters, which is rounded up. -/
theorem percentile_isNearestRank_iff_roundedUp :
    ∃ v, percentile [3, 1, 4, 1, 5] 95 = some v ∧
      IsNearestRank [3, 1, 4, 1, 5] (95 / 100 * ([3, 1, 4, 1, 5] : List ℚ).length : ℚ) v :=
  (percentile_isNearestRank_iff [3, 1, 4, 1, 5] 95 (by simp) (by norm_num) (by norm_num)).mpr
    (Or.inr (Or.inl (by decide +kernel)))

/-- The numbers from 1 to 11. -/
def oneToEleven : List ℚ := [1, 2, 3, 4, 5, 6, 7, 8, 9, 10, 11]

/-- Ten of eleven entries are less than 95 percent of them, and the tenth is read. -/
theorem not_isNearestRank_oneToEleven :
    ¬ ∃ v, percentile oneToEleven 95 = some v ∧
      IsNearestRank oneToEleven (95 / 100 * oneToEleven.length : ℚ) v := by
  rintro ⟨v, hv, ⟨-, hcount⟩, -⟩
  have hten : percentile oneToEleven 95 = some 10 := by decide +kernel
  obtain rfl := Option.some.inj (hten.symm.trans hv)
  have hle : oneToEleven.countP (· ≤ (10 : ℚ)) = 10 := by decide +kernel
  rw [hle, show oneToEleven.length = 11 from rfl] at hcount
  norm_num at hcount

/-! ### Means and medians -/

theorem length_pos_of_ne {values : List ℚ} (h : values ≠ []) : (0 : ℚ) < values.length := by
  exact_mod_cast List.length_pos_iff.mpr h

theorem fmean_mul_length {values : List ℚ} (h : values ≠ []) :
    fmean values * values.length = values.sum :=
  div_mul_cancel₀ _ (length_pos_of_ne h).ne'

theorem fmean_perm {values values' : List ℚ} (h : values.Perm values') :
    fmean values = fmean values' := by
  rw [fmean, h.sum_eq, h.length_eq, fmean]

theorem fmean_le {values : List ℚ} {b : ℚ} (h : values ≠ []) (hb : ∀ v ∈ values, v ≤ b) :
    fmean values ≤ b := by
  rw [fmean, div_le_iff₀ (length_pos_of_ne h), mul_comm, ← nsmul_eq_mul]
  exact List.sum_le_card_nsmul values b hb

theorem le_fmean {values : List ℚ} {b : ℚ} (h : values ≠ []) (hb : ∀ v ∈ values, b ≤ v) :
    b ≤ fmean values := by
  rw [fmean, le_div_iff₀ (length_pos_of_ne h), mul_comm, ← nsmul_eq_mul]
  exact List.card_nsmul_le_sum values b hb

theorem median_perm {values values' : List ℚ} (h : values.Perm values') :
    median values = median values' := by
  have heq : values.insertionSort (· ≤ ·) = values'.insertionSort (· ≤ ·) :=
    insertionSort_perm h
  rw [median, heq, median]

/-- The median lies between the two middle entries, which are one in a list of
odd length. -/
theorem median_between {values : List ℚ} (h : values ≠ []) :
    ∃ m low high, median values = some m ∧
      orderStat values ((values.length - 1) / 2) = some low ∧
      orderStat values (values.length / 2) = some high ∧ low ≤ m ∧ m ≤ high := by
  have hlen := List.length_pos_iff.mpr h
  obtain ⟨low, hlow⟩ := orderStat_isSome (show (values.length - 1) / 2 < values.length by omega)
  obtain ⟨high, hhigh⟩ := orderStat_isSome (show values.length / 2 < values.length by omega)
  have hle := orderStat_mono hlow hhigh (by omega)
  rw [median, List.length_insertionSort]
  by_cases hodd : values.length % 2 = 1
  · rw [if_pos hodd]
    exact ⟨high, low, high, hhigh, hlow, hhigh, hle, le_rfl⟩
  · have hlow' : (values.insertionSort (· ≤ ·))[values.length / 2 - 1]? = some low := by
      rw [← hlow, orderStat]
      congr 1
      omega
    rw [if_neg hodd, hlow', show (values.insertionSort (· ≤ ·))[_]? = _ from hhigh]
    refine ⟨(low + high) / 2, low, high, rfl, hlow, hhigh, ?_, ?_⟩ <;> linarith

/-! ### Standard deviations -/

/-- The number `statistics.stdev` returns. -/
noncomputable def Stdev.value (s : Stdev) : ℝ := Real.sqrt s.variance

theorem stdev_perm {values values' : List ℚ} (h : values.Perm values') :
    stdev values = stdev values' := by
  rw [stdev, fmean_perm h, (h.map _).sum_eq, h.length_eq, stdev]

theorem stdev_variance_nonneg {values : List ℚ} (h : 1 < values.length) :
    0 ≤ (stdev values).variance := by
  have hlen : (1 : ℚ) < values.length := by exact_mod_cast h
  exact div_nonneg (Evenness.sum_sq_sub_nonneg _ _) (by linarith)

theorem stdev_variance_eq_zero_iff {values : List ℚ} (h : 1 < values.length) :
    (stdev values).variance = 0 ↔ ∀ v ∈ values, v = fmean values := by
  have hlen : (1 : ℚ) < values.length := by exact_mod_cast h
  rw [stdev, div_eq_zero_iff, or_iff_left (by linarith)]
  exact Evenness.sum_sq_sub_eq_zero_iff _ values

/-! ### Distributions -/

/-- The reported spread, of a list of one entry too. -/
theorem spread_spec {values : List ℚ} (h : values ≠ []) :
    0 ≤ (if values.length > 1 then stdev values else ⟨0⟩ : Stdev).variance ∧
      ((if values.length > 1 then stdev values else ⟨0⟩ : Stdev).variance = 0 ↔
        ∀ v ∈ values, ∀ w ∈ values, v = w) := by
  by_cases hlen : values.length > 1
  · rw [if_pos hlen]
    refine ⟨stdev_variance_nonneg hlen, ?_⟩
    rw [stdev_variance_eq_zero_iff hlen]
    constructor
    · intro heq v hv w hw
      rw [heq v hv, heq w hw]
    · intro heq v hv
      refine le_antisymm (le_fmean h fun w hw => ?_) (fmean_le h fun w hw => ?_)
      · rw [heq v hv w hw]
      · rw [heq v hv w hw]
  · rw [if_neg hlen]
    obtain ⟨x, rfl⟩ : ∃ x, values = [x] := by
      rw [← List.length_eq_one_iff]
      have := List.length_pos_iff.mpr h
      omega
    simp only [le_refl, List.mem_singleton, forall_eq, and_self]

/-- The 95th percentile is read at the middle of the sorted list or after it. -/
theorem half_le_percentileRank {n : ℕ} (h : 0 < n) :
    n / 2 ≤ percentileRank n (95 / 100 * n) - 1 ∧ percentileRank n (95 / 100 * n) ≤ n := by
  have hround : 1 < n → ((n / 2 + 1 : ℕ) : ℤ) ≤ roundHalfEven (95 / 100 * n) := by
    intro hlt
    refine le_roundHalfEven ?_
    have hhalf : ((n / 2 : ℕ) : ℚ) ≤ n / 2 := Nat.cast_div_le
    have htwo : (2 : ℚ) ≤ n := by exact_mod_cast hlt
    simp only [Nat.cast_add, Nat.cast_one, Int.cast_add, Int.cast_natCast, Int.cast_one]
    linarith
  rw [percentileRank]
  constructor
  · by_cases hlt : 1 < n
    · have := hround hlt
      omega
    · omega
  · omega

theorem distribution_perm {values values' : List (Option ℚ)}
    (h : values.reduceOption.Perm values'.reduceOption) :
    distribution values = distribution values' := by
  rw [distribution, distribution]
  by_cases hnil : values.reduceOption = []
  · rw [hnil] at h
    rw [hnil, ← h.nil_eq]
  · have hnil' : values'.reduceOption ≠ [] := by
      intro heq
      rw [heq] at h
      exact hnil h.eq_nil
    rw [if_neg hnil, if_neg hnil', fmean_perm h, median_perm h, stdev_perm h, percentile_eq hnil,
      percentile_eq hnil', min?_eq_orderStat, max?_eq_orderStat, min?_eq_orderStat,
      max?_eq_orderStat, orderStat_perm h, orderStat_perm h, orderStat_perm h, h.length_eq]

/-- **A distribution is consistent**: its order statistics and its mean lie as they
should, its spread is zero for equal measurements only, and neither the order of
the measurements nor a missing one matters. -/
theorem distribution_consistent (values : List (Option ℚ)) (h : ∃ v, some v ∈ values) :
    (∃ mean median : ℚ, ∃ stdev : Stdev, ∃ min p95 max : ℚ,
      distribution values =
          { n := values.countP Option.isSome, mean := some mean, median := some median,
            stdev := some stdev, min := some min, p95 := some p95, max := some max } ∧
        (min ≤ median ∧ median ≤ p95 ∧ p95 ≤ max) ∧ (min ≤ mean ∧ mean ≤ max) ∧
        (0 ≤ stdev.variance ∧ 0 ≤ stdev.value ∧
          (stdev.value = 0 ↔ ∀ v w, some v ∈ values → some w ∈ values → v = w))) ∧
      (∀ values', values.Perm values' → distribution values' = distribution values) ∧
      ∀ before after, values = before ++ after →
        distribution (before ++ none :: after) = distribution values := by
  refine ⟨?_, ?_, ?_⟩
  · obtain ⟨v, hv⟩ := h
    have hne : values.reduceOption ≠ [] :=
      List.ne_nil_of_mem (List.reduceOption_mem_iff.mpr hv)
    have hcount : values.countP Option.isSome = values.reduceOption.length := by
      rw [List.reduceOption_length_eq, List.countP_eq_length_filter]
    rw [hcount, distribution, if_neg hne, min?_eq_orderStat, max?_eq_orderStat, percentile_eq hne]
    simp only [← List.reduceOption_mem_iff]
    generalize values.reduceOption = clean at hne ⊢
    have hlen := List.length_pos_iff.mpr hne
    obtain ⟨hhalf, hrank⟩ := half_le_percentileRank hlen
    obtain ⟨median, low, high, hmedian, hlow, hhigh, hlm, hmh⟩ := median_between hne
    obtain ⟨min, hmin⟩ := orderStat_isSome hlen
    obtain ⟨max, hmax⟩ := orderStat_isSome (show clean.length - 1 < clean.length by omega)
    obtain ⟨p95, hp95⟩ := orderStat_isSome
      (show percentileRank clean.length (95 / 100 * clean.length) - 1 < clean.length by omega)
    obtain ⟨hvariance, hzero⟩ := spread_spec hne
    have hbelow : ∀ v ∈ clean, min ≤ v := by
      intro v hv
      obtain ⟨k, hk⟩ := exists_orderStat hv
      exact orderStat_mono hmin hk (Nat.zero_le k)
    have habove : ∀ v ∈ clean, v ≤ max := by
      intro v hv
      obtain ⟨k, hk⟩ := exists_orderStat hv
      have := lt_length hk
      exact orderStat_mono hk hmax (by omega)
    refine ⟨fmean clean, median, _, min, p95, max, by rw [hmedian, hmin, hmax, hp95],
      ⟨?_, ?_, ?_⟩, ⟨?_, ?_⟩, hvariance, Real.sqrt_nonneg _, ?_⟩
    · exact (hbelow low (orderStat_mem hlow)).trans hlm
    · exact hmh.trans (orderStat_mono hhigh hp95 hhalf)
    · exact habove p95 (orderStat_mem hp95)
    · exact le_fmean hne hbelow
    · exact fmean_le hne habove
    · rw [Stdev.value, Real.sqrt_eq_zero (by exact_mod_cast hvariance), Rat.cast_eq_zero, hzero]
      exact ⟨fun heq v w hv hw => heq v hv w hw, fun heq v hv w hw => heq v w hv hw⟩
  · intro values' hperm
    exact distribution_perm (hperm.symm.filterMap id)
  · rintro before after rfl
    refine distribution_perm ?_
    rw [List.reduceOption_append, List.reduceOption_cons_of_none, List.reduceOption_append]

theorem distribution_consistent_two :
    distribution [some 1, none, some 3] = distribution [some 1, some 3] :=
  (distribution_consistent [some 1, some 3] ⟨1, List.mem_cons_self⟩).2.2 [some 1] [some 3] rfl

end HeteroSched
