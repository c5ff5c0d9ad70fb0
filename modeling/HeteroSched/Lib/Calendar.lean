/-
HeteroSched/Lib/Calendar.lean

The proleptic Gregorian calendar, from the year 1 on.

Design.  A date is a year, a month and a day that exist (`Date`), and `days`
counts the days before it from 0001-01-01.  Later in the order year, month, day
is later by days (`Date.days_lt`); the other way, the date of a number of days is
found by the cycles of 400, 100, 4 and 1 years (`ofDays`), and the days before it
are that number again (`days_ofDays`).
-/
import Mathlib.Data.Nat.Find
import Mathlib.Tactic

namespace Calendar

/-! ### Years and months -/

/-- The year has a February 29. -/
def IsLeap (y : ℕ) : Prop := y % 4 = 0 ∧ (y % 100 ≠ 0 ∨ y % 400 = 0)

instance (y : ℕ) : Decidable (IsLeap y) := inferInstanceAs (Decidable (_ ∧ _))

/-- The days of a month, from 1 for January. -/
def daysInMonth (y m : ℕ) : ℕ :=
  if m = 2 then if IsLeap y then 29 else 28
  else if m = 4 ∨ m = 6 ∨ m = 9 ∨ m = 11 then 30
  else 31

/-- The days of a year. -/
def daysInYear (y : ℕ) : ℕ := if IsLeap y then 366 else 365

/-- The days before January 1 of a year, from the year 1. -/
def daysBeforeYear (y : ℕ) : ℕ := (y - 1) * 365 + (y - 1) / 4 - (y - 1) / 100 + (y - 1) / 400

/-- The days of a year before the first of the month with `m` months before it. -/
def daysBeforeMonth (y : ℕ) : ℕ → ℕ
  | 0 => 0
  | m + 1 => daysBeforeMonth y m + daysInMonth y (m + 1)

theorem daysBeforeMonth_mono {y m m' : ℕ} (h : m ≤ m') :
    daysBeforeMonth y m ≤ daysBeforeMonth y m' := by
  induction m', h using Nat.le_induction with
  | base => exact le_rfl
  | succ k _ ih => exact ih.trans (Nat.le_add_right _ _)

theorem daysBeforeMonth_twelve (y : ℕ) : daysBeforeMonth y 12 = daysInYear y := by
  by_cases h : IsLeap y
  · simp [daysBeforeMonth, daysInMonth, daysInYear, h]
  · simp [daysBeforeMonth, daysInMonth, daysInYear, h]

theorem daysBeforeYear_succ {y : ℕ} (h : 0 < y) :
    daysBeforeYear (y + 1) = daysBeforeYear y + daysInYear y := by
  have h4 : y / 4 = (y - 1) / 4 + if y % 4 = 0 then 1 else 0 := by split <;> omega
  have h100 : y / 100 = (y - 1) / 100 + if y % 100 = 0 then 1 else 0 := by split <;> omega
  have h400 : y / 400 = (y - 1) / 400 + if y % 400 = 0 then 1 else 0 := by split <;> omega
  have hsub : (y - 1) / 100 ≤ (y - 1) * 365 := by omega
  rw [daysBeforeYear, daysBeforeYear, Nat.add_sub_cancel, h4, h100, h400, daysInYear]
  generalize (y - 1) / 4 = q4 at *
  generalize (y - 1) / 100 = q100 at *
  generalize (y - 1) / 400 = q400 at *
  by_cases hy4 : y % 4 = 0
  · by_cases hy100 : y % 100 = 0
    · by_cases hy400 : y % 400 = 0
      · rw [if_pos hy4, if_pos hy100, if_pos hy400, if_pos ⟨hy4, Or.inr hy400⟩]
        omega
      · rw [if_pos hy4, if_pos hy100, if_neg hy400, if_neg (fun h => h.2.elim (· hy100) hy400)]
        omega
    · rw [if_pos hy4, if_neg hy100, if_neg (by omega), if_pos ⟨hy4, Or.inl hy100⟩]
      omega
  · rw [if_neg hy4, if_neg (by omega), if_neg (by omega), if_neg (fun h => hy4 h.1)]
    omega

theorem daysBeforeYear_mono {y y' : ℕ} (hpos : 0 < y) (h : y ≤ y') :
    daysBeforeYear y ≤ daysBeforeYear y' := by
  induction y', h using Nat.le_induction with
  | base => exact le_rfl
  | succ k hk ih =>
      rw [daysBeforeYear_succ (hpos.trans_le hk)]
      exact ih.trans (Nat.le_add_right _ _)

/-! ### Dates -/

/-- A date of the Gregorian calendar, from the year 1. -/
structure Date where
  year : ℕ
  month : ℕ
  day : ℕ
  year_pos : 0 < year
  month_mem : 0 < month ∧ month ≤ 12
  day_mem : 0 < day ∧ day ≤ daysInMonth year month
  deriving DecidableEq

/-- The days before a date, from 0001-01-01. -/
def Date.days (d : Date) : ℕ :=
  daysBeforeYear d.year + daysBeforeMonth d.year (d.month - 1) + (d.day - 1)

/-- Earlier in the order year, month, day. -/
def Date.Before (d e : Date) : Prop :=
  d.year < e.year ∨ d.year = e.year ∧ (d.month < e.month ∨ d.month = e.month ∧ d.day < e.day)

theorem Date.lt_next_month (d : Date) :
    daysBeforeMonth d.year (d.month - 1) + (d.day - 1) < daysBeforeMonth d.year d.month := by
  obtain ⟨k, hk⟩ : ∃ k, d.month = k + 1 := ⟨d.month - 1, by have := d.month_mem; omega⟩
  have hday := d.day_mem
  rw [hk, Nat.add_sub_cancel, daysBeforeMonth]
  rw [hk] at hday
  omega

theorem Date.days_lt {d e : Date} (h : d.Before e) : d.days < e.days := by
  have hmonth := d.lt_next_month
  have hd := d.month_mem
  rcases h with hyear | ⟨hyear, hmonth' | ⟨hmonth', hday⟩⟩
  · -- the year of `d` ends before that of `e` begins
    have hend := (daysBeforeMonth_mono hd.2).trans_eq (daysBeforeMonth_twelve d.year)
    have hnext := daysBeforeYear_mono (Nat.succ_pos d.year) hyear
    rw [Nat.succ_eq_add_one, daysBeforeYear_succ d.year_pos] at hnext
    unfold Date.days
    omega
  · have hnext : daysBeforeMonth d.year d.month ≤ daysBeforeMonth d.year (e.month - 1) :=
      daysBeforeMonth_mono (by omega)
    unfold Date.days
    rw [← hyear]
    omega
  · have hd' := d.day_mem
    unfold Date.days
    rw [← hyear, ← hmonth']
    omega

theorem Date.before_trichotomy (d e : Date) : d.Before e ∨ d = e ∨ e.Before d := by
  rcases d with ⟨y, m, x, hy, hm, hx⟩
  rcases e with ⟨y', m', x', hy', hm', hx'⟩
  simp only [Date.Before, Date.mk.injEq]
  omega

theorem Date.before_of_days_lt {d e : Date} (h : d.days < e.days) : d.Before e := by
  rcases d.before_trichotomy e with hbefore | rfl | hafter
  · exact hbefore
  · exact absurd h (lt_irrefl _)
  · exact absurd (Date.days_lt hafter) (lt_asymm h)

/-! ### The date of a number of days -/

/-- The year a day lies in, and the days of the year before it. -/
def yearOfDays (n : ℕ) : ℕ × ℕ :=
  let n400 := n / 146097
  let r400 := n % 146097
  let n100 := min 3 (r400 / 36524)
  let r100 := r400 - n100 * 36524
  let n4 := r100 / 1461
  let r4 := r100 % 1461
  let n1 := min 3 (r4 / 365)
  (400 * n400 + 100 * n100 + 4 * n4 + n1 + 1, r4 - n1 * 365)

/-- The year of the cycles: how many of 400, 100, 4 and 1 years have passed. -/
theorem daysBeforeYear_cycles {a b c d : ℕ} (hb : b ≤ 3) (hc : c ≤ 24) (hd : d ≤ 3) :
    daysBeforeYear (400 * a + 100 * b + 4 * c + d + 1) =
      146097 * a + 36524 * b + 1461 * c + 365 * d := by
  have h4 : (400 * a + 100 * b + 4 * c + d) / 4 = 100 * a + 25 * b + c := by omega
  have h100 : (400 * a + 100 * b + 4 * c + d) / 100 = 4 * a + b := by omega
  have h400 : (400 * a + 100 * b + 4 * c + d) / 400 = a := by omega
  rw [daysBeforeYear, Nat.add_sub_cancel, h4, h100, h400]
  omega

/-- The last year of four is a leap year, but for centuries not divisible by 400. -/
theorem isLeap_cycles {a b c d : ℕ} (hb : b ≤ 3) (hc : c ≤ 24) (hd : d ≤ 3) :
    IsLeap (400 * a + 100 * b + 4 * c + d + 1) ↔ d = 3 ∧ (c ≠ 24 ∨ b = 3) := by
  have h4 : (400 * a + 100 * b + 4 * c + d + 1) % 4 = 0 ↔ d = 3 := by omega
  have h100 : (400 * a + 100 * b + 4 * c + d + 1) % 100 = 0 ↔ d = 3 ∧ c = 24 := by omega
  have h400 : (400 * a + 100 * b + 4 * c + d + 1) % 400 = 0 ↔ d = 3 ∧ c = 24 ∧ b = 3 := by omega
  rw [IsLeap, Ne, h4, h100, h400]
  tauto

theorem yearOfDays_spec (n : ℕ) :
    0 < (yearOfDays n).1 ∧ daysBeforeYear (yearOfDays n).1 + (yearOfDays n).2 = n ∧
      (yearOfDays n).2 < daysInYear (yearOfDays n).1 := by
  have hdiv := Nat.div_add_mod n 146097
  have hmod : n % 146097 < 146097 := Nat.mod_lt _ (by norm_num)
  simp only [yearOfDays]
  generalize n / 146097 = a at *
  generalize n % 146097 = r at *
  obtain ⟨b, hb, hb'⟩ : ∃ b, b = min 3 (r / 36524) ∧ b ≤ 3 := ⟨_, rfl, by omega⟩
  rw [← hb]
  obtain ⟨s, hs, hs'⟩ : ∃ s, s = r - b * 36524 ∧ r = 36524 * b + s := ⟨_, rfl, by omega⟩
  rw [← hs]
  obtain ⟨c, hc, hc'⟩ : ∃ c, c = s / 1461 ∧ c ≤ 24 := ⟨_, rfl, by omega⟩
  rw [← hc]
  obtain ⟨t, ht, ht'⟩ : ∃ t, t = s % 1461 ∧ s = 1461 * c + t := ⟨_, rfl, by omega⟩
  rw [← ht]
  obtain ⟨d, hd, hd'⟩ : ∃ d, d = min 3 (t / 365) ∧ d ≤ 3 := ⟨_, rfl, by omega⟩
  rw [← hd]
  refine ⟨Nat.succ_pos _, ?_, ?_⟩
  · rw [daysBeforeYear_cycles hb' hc' hd']
    omega
  · rw [daysInYear]
    split
    · omega
    · next hleap =>
        -- the last day of four years, and that of a century, lie in a leap year
        rw [isLeap_cycles hb' hc' hd'] at hleap
        omega

/-- The months of a year before the day with `r` days of the year before it. -/
def monthsBefore (y r : ℕ) : ℕ := Nat.findGreatest (fun m => daysBeforeMonth y m ≤ r) 11

theorem monthsBefore_spec {y r : ℕ} (h : r < daysInYear y) :
    monthsBefore y r ≤ 11 ∧ daysBeforeMonth y (monthsBefore y r) ≤ r ∧
      r < daysBeforeMonth y (monthsBefore y r + 1) := by
  have hle : monthsBefore y r ≤ 11 := Nat.findGreatest_le 11
  refine ⟨hle, Nat.findGreatest_spec (P := fun m => daysBeforeMonth y m ≤ r) (Nat.zero_le 11)
    (Nat.zero_le r), ?_⟩
  rcases hle.eq_or_lt with heq | hlt
  · rw [heq, daysBeforeMonth_twelve]
    exact h
  · exact not_le.mp (Nat.findGreatest_is_greatest (P := fun m => daysBeforeMonth y m ≤ r)
      (Nat.lt_succ_self _) hlt)

/-- The date with `n` days before it. -/
def ofDays (n : ℕ) : Date where
  year := (yearOfDays n).1
  month := monthsBefore (yearOfDays n).1 (yearOfDays n).2 + 1
  day := (yearOfDays n).2 - daysBeforeMonth (yearOfDays n).1
    (monthsBefore (yearOfDays n).1 (yearOfDays n).2) + 1
  year_pos := (yearOfDays_spec n).1
  month_mem := by
    have := (monthsBefore_spec (yearOfDays_spec n).2.2).1
    omega
  day_mem := by
    obtain ⟨-, hle, hlt⟩ := monthsBefore_spec (yearOfDays_spec n).2.2
    rw [daysBeforeMonth] at hlt
    omega

theorem days_ofDays (n : ℕ) : (ofDays n).days = n := by
  obtain ⟨-, hyear, hlt⟩ := yearOfDays_spec n
  obtain ⟨-, hle, -⟩ := monthsBefore_spec hlt
  unfold Date.days ofDays
  dsimp only
  rw [Nat.add_sub_cancel, Nat.add_sub_cancel]
  omega

/-- A date is that of its number of days. -/
theorem ofDays_days (d : Date) : ofDays d.days = d := by
  rcases (ofDays d.days).before_trichotomy d with h | h | h
  · exact absurd (Date.days_lt h) (by rw [days_ofDays]; exact lt_irrefl _)
  · exact h
  · exact absurd (Date.days_lt h) (by rw [days_ofDays]; exact lt_irrefl _)

end Calendar
