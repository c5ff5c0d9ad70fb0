/-
HeteroSched/TimeUtils.lean

Timestamps as text, from `shared/timeutils.py`, and the order the listings of
`scheduler/db.py` read off it.

Design.  A datetime is its fields and its offset from UTC, if it has one
(`DateTime`), with the ranges Python enforces as proofs.  Its instant is a number
of microseconds (`utc`); conversion to UTC finds the fields of that number, and
`isoformat` writes them from the year down to the fraction, each in a fixed
width.  So the text is a numeral of the instant (`ascending_isoChars`).
-/
import HeteroSched.Lib.Calendar
import HeteroSched.Lib.Numeral
import HeteroSched.Metrics

namespace HeteroSched

open Calendar Numeral

/-! ### Datetimes -/

/-- A `datetime`; without an offset it is naive.  Offsets are in microseconds. -/
@[ext] structure DateTime where
  date : Date
  hour : ℕ
  minute : ℕ
  second : ℕ
  microsecond : ℕ
  utcoffset : Option ℤ
  year_le : date.year ≤ 9999
  hour_lt : hour < 24
  minute_lt : minute < 60
  second_lt : second < 60
  microsecond_lt : microsecond < 1000000
  utcoffset_mem : ∀ offset, utcoffset = some offset →
    -86400000000 < offset ∧ offset < 86400000000

/-- What the fields show, in microseconds from 0001-01-01T00:00:00. -/
def DateTime.clock (d : DateTime) : ℕ :=
  (((d.date.days * 24 + d.hour) * 60 + d.minute) * 60 + d.second) * 1000000 + d.microsecond

/-- The instant, in microseconds from the same point in UTC; a naive datetime is
read as UTC. -/
def DateTime.utc (d : DateTime) : Timestamp := d.clock - d.utcoffset.getD 0

/-- The call `value.replace(tzinfo=timezone.utc)`. -/
def DateTime.replaceUtc (value : DateTime) : DateTime :=
  { value with
    utcoffset := some 0
    utcoffset_mem := by
      rintro offset h
      obtain rfl := Option.some.inj h
      norm_num }

theorem year_ofDays_le {n : ℕ} (h : n < maxDays) : (ofDays n).year ≤ 9999 := by
  by_contra hlt
  have hmono := daysBeforeYear_mono (show 0 < 10000 by norm_num) (not_le.mp hlt)
  have hmax : daysBeforeYear 10000 = maxDays := by decide
  have hdays := days_ofDays n
  rw [Date.days] at hdays
  omega

theorem days_lt_of_clock {n : ℕ} (h : n < maxClock) : n / 1000000 / 60 / 60 / 24 < maxDays := by
  rw [Nat.div_lt_iff_lt_mul (by norm_num), Nat.div_lt_iff_lt_mul (by norm_num),
    Nat.div_lt_iff_lt_mul (by norm_num), Nat.div_lt_iff_lt_mul (by norm_num)]
  exact h

/-- The datetime in UTC whose fields show a number of microseconds. -/
def ofClock (n : ℕ) (h : n < maxClock) : DateTime where
  date := ofDays (n / 1000000 / 60 / 60 / 24)
  hour := n / 1000000 / 60 / 60 % 24
  minute := n / 1000000 / 60 % 60
  second := n / 1000000 % 60
  microsecond := n % 1000000
  utcoffset := some 0
  year_le := year_ofDays_le (days_lt_of_clock h)
  hour_lt := Nat.mod_lt _ (by norm_num)
  minute_lt := Nat.mod_lt _ (by norm_num)
  second_lt := Nat.mod_lt _ (by norm_num)
  microsecond_lt := Nat.mod_lt _ (by norm_num)
  utcoffset_mem := by
    rintro offset h
    obtain rfl := Option.some.inj h
    norm_num

/-- The call `value.astimezone(timezone.utc)`, which raises `OverflowError`. -/
def DateTime.astimezone (value : DateTime) : Except String DateTime :=
  if h : Representable value.utc then .ok (ofClock value.utc.toNat (Int.toNat_lt h.1 |>.mpr h.2))
  else .error "date value out of range"

theorem days_lt_maxDays (d : DateTime) : d.date.days < maxDays := by
  have hmonth := d.date.lt_next_month
  have hyear := (daysBeforeMonth_mono d.date.month_mem.2).trans_eq (daysBeforeMonth_twelve d.date.year)
  have hnext : daysBeforeYear (d.date.year + 1) ≤ daysBeforeYear 10000 :=
    daysBeforeYear_mono (Nat.succ_pos d.date.year) (Nat.succ_le_succ d.year_le)
  have hmax : daysBeforeYear 10000 = maxDays := by decide
  rw [daysBeforeYear_succ d.date.year_pos] at hnext
  unfold Date.days
  omega

theorem clock_lt (d : DateTime) : d.clock < maxClock := by
  have hdays := days_lt_maxDays d
  have hhour := d.hour_lt
  have hminute := d.minute_lt
  have hsecond := d.second_lt
  have hmicrosecond := d.microsecond_lt
  unfold DateTime.clock maxClock
  omega

/-- A datetime in UTC is its own conversion. -/
theorem astimezone_utc {d : DateTime} (h : d.utcoffset = some 0) : d.astimezone = .ok d := by
  have hutc : d.utc = d.clock := by
    rw [DateTime.utc, h, Option.getD_some, sub_zero]
  have hrepresentable : Representable d.utc := by
    rw [hutc]
    exact ⟨Int.natCast_nonneg _, Int.ofNat_lt.mpr (clock_lt d)⟩
  have hhour := d.hour_lt
  have hminute := d.minute_lt
  have hsecond := d.second_lt
  have hmicrosecond := d.microsecond_lt
  have hclock : d.utc.toNat = d.clock := by
    rw [hutc, Int.toNat_natCast]
  have hdays : d.clock / 1000000 / 60 / 60 / 24 = d.date.days := by
    unfold DateTime.clock
    omega
  rw [DateTime.astimezone, dif_pos hrepresentable]
  refine congrArg Except.ok (DateTime.ext ?_ ?_ ?_ ?_ ?_ h.symm)
  · show ofDays (d.utc.toNat / 1000000 / 60 / 60 / 24) = d.date
    rw [hclock, hdays, ofDays_days]
  · show d.utc.toNat / 1000000 / 60 / 60 % 24 = d.hour
    rw [hclock, DateTime.clock]
    omega
  · show d.utc.toNat / 1000000 / 60 % 60 = d.minute
    rw [hclock, DateTime.clock]
    omega
  · show d.utc.toNat / 1000000 % 60 = d.second
    rw [hclock, DateTime.clock]
    omega
  · show d.utc.toNat % 1000000 = d.microsecond
    rw [hclock, DateTime.clock]
    omega

/-! ### Text -/

/-- A date as year, month and day. -/
def dateChars (d : Date) : List Char :=
  padded 4 d.year ++ '-' :: padded 2 d.month ++ '-' :: padded 2 d.day

/-- The fraction of a second, left out when it is zero, and the offset of UTC. -/
def fraction (microsecond : ℕ) : List Char :=
  (if microsecond = 0 then [] else '.' :: padded 6 microsecond) ++ ['+', '0', '0', ':', '0', '0']

/-- The call `isoformat()` of a datetime in UTC. -/
def DateTime.isoformat (d : DateTime) : String :=
  String.ofList (dateChars d.date ++ 'T' :: padded 2 d.hour ++ ':' :: padded 2 d.minute ++
    ':' :: padded 2 d.second ++ fraction d.microsecond)

/-- Serialise a datetime for storage. -/
def toIso : Option DateTime → Except String (Option String)
  | none => .ok none
  | some value =>
      let value := if value.utcoffset = none then value.replaceUtc else value
      value.astimezone.map fun utc => some utc.isoformat

/-! ### The text is a numeral of the instant -/

theorem ascending_dateChars : Ascending maxDays fun n => dateChars (ofDays n) := by
  intro m n hlt hn
  have hbefore : (ofDays m).Before (ofDays n) := by
    apply Date.before_of_days_lt
    rw [days_ofDays, days_ofDays]
    exact hlt
  have hyear := year_ofDays_le hn
  have hmonth := (ofDays n).month_mem
  have hday : (ofDays n).day ≤ 31 := by
    refine (ofDays n).day_mem.2.trans ?_
    unfold daysInMonth
    split_ifs <;> norm_num
  show padded 4 (ofDays m).year ++ '-' :: padded 2 (ofDays m).month ++ '-' :: padded 2 (ofDays m).day
    < padded 4 (ofDays n).year ++ '-' :: padded 2 (ofDays n).month ++ '-' :: padded 2 (ofDays n).day
  rcases hbefore with hlt' | ⟨heq, hlt' | ⟨heq', hlt'⟩⟩
  · refine append_lt_append_of_lt ?_ (append_lt_append_of_lt ?_ ?_ _ _) _ _
    · simp
    · simp
    · exact ascending_padded 4 _ _ hlt' (by omega)
  · rw [heq]
    refine append_lt_append_of_lt ?_ (append_lt_append_left _ (List.Lex.cons ?_)) _ _
    · simp
    · exact ascending_padded 2 _ _ hlt' (by omega)
  · rw [heq, heq']
    refine append_lt_append_left _ (List.Lex.cons ?_)
    exact ascending_padded 2 _ _ hlt' (by omega)

/-- A whole second sorts before its fractions: the offset begins with a plus sign,
a fraction with a full stop. -/
theorem ascending_fraction : Ascending 1000000 fraction := by
  intro m n hlt hn
  rw [fraction, fraction, if_neg (Nat.ne_of_gt (Nat.zero_lt_of_lt hlt))]
  split
  · exact List.Lex.rel (by decide)
  · exact List.Lex.cons (append_lt_append_of_lt (by simp) (ascending_padded 6 m n hlt hn) _ _)

/-- One part of the time of day. -/
theorem ascending_part (mark : Char) {b : ℕ} (h : b ≤ 100) :
    Ascending b fun n => mark :: padded 2 n := by
  intro m n hlt hn
  exact List.Lex.cons (ascending_padded 2 m n hlt (hn.trans_le h))

/-- The text of an instant. -/
def isoChars (n : ℕ) : List Char :=
  dateChars (ofDays (n / 1000000 / 60 / 60 / 24)) ++ 'T' :: padded 2 (n / 1000000 / 60 / 60 % 24) ++
    ':' :: padded 2 (n / 1000000 / 60 % 60) ++ ':' :: padded 2 (n / 1000000 % 60) ++
    fraction (n % 1000000)

theorem ascending_isoChars : Ascending maxClock isoChars := by
  have hhour := ascending_dateChars.append (w := 10) (fun n _ => by simp [dateChars])
    (ascending_part 'T' (b := 24) (by norm_num))
  have hminute := hhour.append (w := 13) (fun n _ => by simp [dateChars])
    (ascending_part ':' (b := 60) (by norm_num))
  have hsecond := hminute.append (w := 16) (fun n _ => by simp [dateChars])
    (ascending_part ':' (b := 60) (by norm_num))
  exact hsecond.append (w := 19) (fun n _ => by simp [dateChars]) ascending_fraction

theorem isAscii_isoChars (n : ℕ) : IsAscii (isoChars n) := by
  have hmark : ∀ {mark : Char} {l : List Char}, mark.toNat < 128 → IsAscii l → IsAscii (mark :: l) :=
    fun hmark hl => List.forall_mem_cons.mpr ⟨hmark, hl⟩
  have hpart : ∀ {mark : Char} (w n : ℕ), mark.toNat < 128 → IsAscii (mark :: padded w n) :=
    fun w n h => hmark h (isAscii_padded w n)
  unfold isoChars dateChars fraction
  simp only [isAscii_append]
  refine ⟨⟨⟨⟨⟨⟨isAscii_padded 4 _, hpart 2 _ (by decide)⟩, hpart 2 _ (by decide)⟩,
    hpart 2 _ (by decide)⟩, hpart 2 _ (by decide)⟩, hpart 2 _ (by decide)⟩, ?_, by decide⟩
  split
  · exact fun c hc => absurd hc List.not_mem_nil
  · exact hpart 6 _ (by decide)

/-! ### The order of stored timestamps -/

/-- What a column of the tables holds of an instant. -/
def isoText (t : Timestamp) : String := String.ofList (isoChars t.toNat)

/-- The stored text depends on the instant only. -/
theorem toIso_eq {value : DateTime} (h : Representable value.utc) :
    toIso (some value) = .ok (some (isoText value.utc)) := by
  have hconvert : ∀ value : DateTime, Representable value.utc →
      value.astimezone.map (fun utc => some utc.isoformat) = .ok (some (isoText value.utc)) := by
    intro value h
    rw [DateTime.astimezone, dif_pos h]
    rfl
  by_cases hnaive : value.utcoffset = none
  · have hutc : value.replaceUtc.utc = value.utc := by
      unfold DateTime.utc
      rw [hnaive]
      rfl
    have hconv := hconvert value.replaceUtc (by rw [hutc]; exact h)
    rw [hutc] at hconv
    rw [toIso, if_pos hnaive]
    exact hconv
  · rw [toIso, if_neg hnaive]
    exact hconvert value h

theorem bytes_isoText_lt {t t' : Timestamp} (ht : Representable t) (ht' : Representable t')
    (h : t < t') : bytes (isoText t) < bytes (isoText t') := by
  obtain ⟨ht₀, -⟩ := ht
  obtain ⟨ht'₀, ht'₁⟩ := ht'
  refine bytes_lt (isAscii_isoChars _) (isAscii_isoChars _) (ascending_isoChars _ _ ?_ ?_)
  · exact (Int.toNat_lt_toNat (ht₀.trans_lt h)).mpr h
  · exact (Int.toNat_lt ht'₀).mpr ht'₁

theorem bytes_isoText_lt_iff {t t' : Timestamp} (ht : Representable t) (ht' : Representable t') :
    bytes (isoText t) < bytes (isoText t') ↔ t < t' := by
  constructor
  · intro hlt
    rcases lt_trichotomy t t' with h | h | h
    · exact h
    · rw [h] at hlt
      exact absurd hlt (List.lt_irrefl _)
    · exact absurd (bytes_isoText_lt ht' ht h) (List.lt_asymm hlt)
  · exact bytes_isoText_lt ht ht'

theorem isoText_inj {t t' : Timestamp} (ht : Representable t) (ht' : Representable t') :
    isoText t = isoText t' ↔ t = t' := by
  constructor
  · intro heq
    rcases lt_trichotomy t t' with h | h | h
    · have hlt := bytes_isoText_lt ht ht' h
      rw [heq] at hlt
      exact absurd hlt (List.lt_irrefl _)
    · exact h
    · have hlt := bytes_isoText_lt ht' ht h
      rw [heq] at hlt
      exact absurd hlt (List.lt_irrefl _)
  · intro heq
    rw [heq]

/-- **Stored timestamps sort chronologically**: as texts compared byte by byte they
are in the order of their instants, and equal exactly for one instant. -/
theorem toIso_lt_iff (a b : DateTime) (ha : Representable a.utc) (hb : Representable b.utc) :
    ∃ s t, toIso (some a) = .ok (some s) ∧ toIso (some b) = .ok (some t) ∧
      (bytes s < bytes t ↔ a.utc < b.utc) ∧ (s = t ↔ a.utc = b.utc) :=
  ⟨_, _, toIso_eq ha, toIso_eq hb, bytes_isoText_lt_iff ha hb, isoText_inj ha hb⟩

/-- New year in UTC, naive. -/
def newYear : DateTime where
  date := ⟨2024, 1, 1, by decide, by decide, by decide⟩
  hour := 0
  minute := 0
  second := 0
  microsecond := 0
  utcoffset := none
  year_le := by decide
  hour_lt := by decide
  minute_lt := by decide
  second_lt := by decide
  microsecond_lt := by decide
  utcoffset_mem := nofun

/-- A microsecond later, two hours to the east. -/
def newYearEast : DateTime where
  date := ⟨2024, 1, 1, by decide, by decide, by decide⟩
  hour := 2
  minute := 0
  second := 0
  microsecond := 1
  utcoffset := some 7200000000
  year_le := by decide
  hour_lt := by decide
  minute_lt := by decide
  second_lt := by decide
  microsecond_lt := by decide
  utcoffset_mem := by
    rintro offset h
    obtain rfl := Option.some.inj h
    norm_num

theorem toIso_newYear_lt :
    ∃ s t, toIso (some newYear) = .ok (some s) ∧ toIso (some newYearEast) = .ok (some t) ∧
      (bytes s < bytes t ↔ newYear.utc < newYearEast.utc) ∧
        (s = t ↔ newYear.utc = newYearEast.utc) :=
  toIso_lt_iff newYear newYearEast (by decide) (by decide)

/-- The jobs of a run, listed by the instant of their submission, are listed by the
text of the column. -/
theorem getRunJobs_orderBy_text (db : Database) (runId : RunId)
    (h : ∀ e ∈ db.jobs.entries, Representable e.2.submittedAt) :
    db.getRunJobs runId =
      ((db.jobs.entries.filter fun e => e.2.runId = some runId).insertionSort fun e e' =>
          bytes (isoText e.2.submittedAt) ≤ bytes (isoText e'.2.submittedAt)).map
        fun e => joinedRow e.1 e.2 (db.jobResults.get? e.1) := by
  have hsort := List.map_insertionSort
    (fun e e' : JobId × JobRow => e.2.submittedAt ≤ e'.2.submittedAt)
    (fun e e' : JobId × JobRow =>
      bytes (isoText e.2.submittedAt) ≤ bytes (isoText e'.2.submittedAt)) id
    (db.jobs.entries.filter fun e => e.2.runId = some runId) (by
      intro e he e' he'
      have hlt := bytes_isoText_lt_iff (h e' (List.mem_of_mem_filter he'))
        (h e (List.mem_of_mem_filter he))
      exact not_lt.symm.trans (not_congr hlt.symm))
  rw [List.map_id, List.map_id] at hsort
  rw [Database.getRunJobs, hsort]

end HeteroSched
