/-
HeteroSched/Timestamps.lean

Stored timestamps read back, from `from_iso` and `seconds_between` of
`shared/timeutils.py`, and the durations `experiments/metrics.py` computes from them.

Design.  `fromisoformat` reads a text from left to right: the date, any separator, the
time as far as it is given, the offset.  It is modelled on the extended calendar
format, with colons and hyphens, in which `isoformat` writes.  Every datetime is read
back from its own text, whatever its offset (`fromisoformat_isoformat`), so what
`from_iso` makes of a text that was stored is the instant that was stored, and what is
computed from the texts of a run is what `Metrics.lean` computes from the instants.
-/
import HeteroSched.TimeUtils
import Mathlib.Data.List.ReduceOption

namespace HeteroSched

open Calendar Numeral

/-! ### The text of a datetime -/

/-- The fraction of a second, left out when it is zero. -/
def secondFraction (microsecond : ℕ) : List Char :=
  if microsecond = 0 then [] else '.' :: padded 6 microsecond

/-- An offset without its sign; the seconds are left out when they are zero. -/
def offsetClock (n : ℕ) : List Char :=
  padded 2 (n / 1000000 / 60 / 60) ++ ':' :: padded 2 (n / 1000000 / 60 % 60) ++
    (if n % 60000000 = 0 then []
    else ':' :: padded 2 (n / 1000000 % 60) ++ secondFraction (n % 1000000))

/-- The offset with its sign; nothing when there is none. -/
def offsetChars : Option ℤ → List Char
  | none => []
  | some offset => (if offset < 0 then '-' else '+') :: offsetClock offset.natAbs

/-- The call `isoformat()` of a datetime with any offset, or none. -/
def DateTime.isoformatWithOffset (d : DateTime) : String :=
  String.ofList (dateChars d.date ++ 'T' :: padded 2 d.hour ++ ':' :: padded 2 d.minute ++
    ':' :: padded 2 d.second ++ (secondFraction d.microsecond ++ offsetChars d.utcoffset))

/-- Of a datetime in UTC it is the text that is stored. -/
theorem isoformatWithOffset_utc {d : DateTime} (h : d.utcoffset = some 0) :
    d.isoformatWithOffset = d.isoformat := by
  have hoffset : offsetChars (some 0) = ['+', '0', '0', ':', '0', '0'] := by decide
  rw [DateTime.isoformatWithOffset, DateTime.isoformat, h, hoffset]
  rfl

/-! ### Reading it -/

/-- A time of day. -/
structure TimeFields where
  hour : ℕ
  minute : ℕ
  second : ℕ
  microsecond : ℕ
  deriving DecidableEq

/-- The time in microseconds. -/
def TimeFields.micros (f : TimeFields) : ℕ :=
  ((f.hour * 60 + f.minute) * 60 + f.second) * 1000000 + f.microsecond

/-- What follows a mark, if it is there. -/
def skip (mark : Char) : List Char → Option (List Char)
  | c :: l => if c = mark then some l else none
  | [] => none

/-- The digits of a fraction; those after the sixth are dropped. -/
def readFraction (l : List Char) : Option (ℕ × List Char) :=
  let digits := l.takeWhile Char.isDigit
  if digits = [] then none
  else (number (digits.take 6)).map fun n =>
    (n * 10 ^ (6 - digits.length), l.dropWhile Char.isDigit)

/-- A time of day or an offset, up to the first part that is not given. -/
def readTime (l : List Char) : Option (TimeFields × List Char) :=
  (readNumber 2 l).bind fun hour =>
    match skip ':' hour.2 with
    | none => some (⟨hour.1, 0, 0, 0⟩, hour.2)
    | some l =>
        (readNumber 2 l).bind fun minute =>
          match skip ':' minute.2 with
          | none => some (⟨hour.1, minute.1, 0, 0⟩, minute.2)
          | some l =>
              (readNumber 2 l).bind fun second =>
                match skip '.' second.2 with
                | none => some (⟨hour.1, minute.1, second.1, 0⟩, second.2)
                | some l =>
                    (readFraction l).map fun fraction =>
                      (⟨hour.1, minute.1, second.1, fraction.1⟩, fraction.2)

/-- The offset at the end of a text; a text without one is naive. -/
def readOffset : List Char → Option (Option ℤ)
  | [] => some none
  | sign :: l =>
      if sign = 'Z' then if l = [] then some (some 0) else none
      else if sign = '+' ∨ sign = '-' then
        (readTime l).bind fun time =>
          if time.2 = [] then some (some (if sign = '-' then -time.1.micros else time.1.micros))
          else none
      else none

/-- A datetime of fields that exist. -/
def DateTime.ofFields (year month day : ℕ) (time : TimeFields) (offset : Option ℤ) :
    Option DateTime :=
  if h : ((0 < year ∧ year ≤ 9999) ∧ (0 < month ∧ month ≤ 12) ∧
      (0 < day ∧ day ≤ daysInMonth year month)) ∧
      (time.hour < 24 ∧ time.minute < 60 ∧ time.second < 60 ∧ time.microsecond < 1000000) ∧
      ∀ o ∈ offset, -86400000000 < o ∧ o < 86400000000 then
    some
      { date := ⟨year, month, day, h.1.1.1, h.1.2.1, h.1.2.2⟩
        hour := time.hour
        minute := time.minute
        second := time.second
        microsecond := time.microsecond
        utcoffset := offset
        year_le := h.1.1.2
        hour_lt := h.2.1.1
        minute_lt := h.2.1.2.1
        second_lt := h.2.1.2.2.1
        microsecond_lt := h.2.1.2.2.2
        utcoffset_mem := fun o ho => h.2.2 o ho }
  else none

/-- The function `datetime.fromisoformat` on the extended format; `none` is the
`ValueError`. -/
def fromisoformat (text : String) : Option DateTime :=
  (readNumber 4 text.toList).bind fun year =>
    (skip '-' year.2).bind fun l =>
      (readNumber 2 l).bind fun month =>
        (skip '-' month.2).bind fun l =>
          (readNumber 2 l).bind fun day =>
            match day.2 with
            | [] => DateTime.ofFields year.1 month.1 day.1 ⟨0, 0, 0, 0⟩ none
            | _ :: l =>
                (readTime l).bind fun time =>
                  (readOffset time.2).bind fun offset =>
                    DateTime.ofFields year.1 month.1 day.1 time.1 offset

/-! ### Every text is read back -/

/-- A time ends here. -/
def Stops (rest : List Char) : Prop :=
  ∀ c ∈ rest.head?, c.isDigit = false ∧ c ≠ ':' ∧ c ≠ '.'

theorem stops_offsetChars (offset : Option ℤ) : Stops (offsetChars offset) := by
  intro c hc
  rcases offset with - | offset
  · exact absurd hc (Option.not_mem_none c)
  · obtain rfl := Option.some.inj hc
    split <;> decide

theorem skip_self (mark : Char) (l : List Char) : skip mark (mark :: l) = some l := if_pos rfl

theorem skip_of_stops {rest : List Char} {mark : Char} (h : Stops rest)
    (hmark : mark = ':' ∨ mark = '.') : skip mark rest = none := by
  rcases rest with - | ⟨c, rest⟩
  · rfl
  · obtain ⟨-, hcolon, hpoint⟩ := h c rfl
    refine if_neg ?_
    rcases hmark with rfl | rfl
    · exact hcolon
    · exact hpoint

theorem readFraction_padded {n : ℕ} (hn : n < 1000000) {rest : List Char} (h : Stops rest) :
    readFraction (padded 6 n ++ rest) = some (n, rest) := by
  have hdigits : ∀ c ∈ padded 6 n, c.isDigit = true := isDigit_padded 6 n
  have hstop : rest.takeWhile Char.isDigit = [] ∧ rest.dropWhile Char.isDigit = rest := by
    rcases rest with - | ⟨c, rest⟩
    · exact ⟨rfl, rfl⟩
    · have hc := (h c rfl).1
      simp only [List.takeWhile_cons, List.dropWhile_cons, hc, Bool.false_eq_true, if_false,
        and_self]
  have htake : (padded 6 n ++ rest).takeWhile Char.isDigit = padded 6 n := by
    rw [List.takeWhile_append_of_pos hdigits, hstop.1, List.append_nil]
  have hdrop : (padded 6 n ++ rest).dropWhile Char.isDigit = rest := by
    rw [List.dropWhile_append_of_pos hdigits, hstop.2]
  have hne : padded 6 n ≠ [] := by
    intro hnil
    have hlength := length_padded 6 n
    rw [hnil] at hlength
    cases hlength
  have hsix : (padded 6 n).take 6 = padded 6 n :=
    List.take_of_length_le (length_padded 6 n).le
  simp only [readFraction, htake, hdrop, if_neg hne, hsix, length_padded,
    number_padded (w := 6) hn, Option.map_some, Nat.sub_self, pow_zero, mul_one]

/-- Hours and minutes are read back before anything that ends a time. -/
theorem readTime_minutes {hour minute : ℕ} (hhour : hour < 100) (hminute : minute < 100)
    {rest : List Char} (h : Stops rest) :
    readTime (padded 2 hour ++ ':' :: (padded 2 minute ++ rest))
      = some (⟨hour, minute, 0, 0⟩, rest) := by
  simp only [readTime, readNumber_padded (w := 2) hhour, readNumber_padded (w := 2) hminute,
    Option.bind_some, skip_self, skip_of_stops h (.inl rfl)]

/-- And so are seconds with their fraction. -/
theorem readTime_seconds {hour minute second microsecond : ℕ} (hhour : hour < 100)
    (hminute : minute < 100) (hsecond : second < 100) (hmicrosecond : microsecond < 1000000)
    {rest : List Char} (h : Stops rest) :
    readTime (padded 2 hour ++ ':' :: (padded 2 minute ++ ':' :: (padded 2 second ++
      (secondFraction microsecond ++ rest))))
      = some (⟨hour, minute, second, microsecond⟩, rest) := by
  simp only [readTime, readNumber_padded (w := 2) hhour, readNumber_padded (w := 2) hminute,
    readNumber_padded (w := 2) hsecond, Option.bind_some, skip_self, secondFraction]
  by_cases hzero : microsecond = 0
  · rw [if_pos hzero, List.nil_append, skip_of_stops h (.inr rfl), hzero]
  · rw [if_neg hzero, List.cons_append, skip_self]
    simp only [readFraction_padded hmicrosecond h, Option.map_some]

/-- The clock of an offset shorter than a hundred hours. -/
theorem readTime_offsetClock {n : ℕ} (hn : n < 360000000000) :
    ∃ time : TimeFields, readTime (offsetClock n) = some (time, []) ∧ time.micros = n := by
  have hhour : n / 1000000 / 60 / 60 < 100 := by omega
  have hminute : n / 1000000 / 60 % 60 < 100 := by omega
  have hstops : Stops [] := fun c hc => absurd hc (Option.not_mem_none c)
  rw [offsetClock]
  by_cases hzero : n % 60000000 = 0
  · rw [if_pos hzero, List.append_assoc, List.cons_append, readTime_minutes hhour hminute hstops]
    refine ⟨_, rfl, ?_⟩
    simp only [TimeFields.micros]
    omega
  · rw [if_neg hzero, List.append_assoc, List.cons_append, List.cons_append,
      ← List.append_nil (secondFraction (n % 1000000)),
      readTime_seconds hhour hminute (by omega) (by omega) hstops]
    refine ⟨_, rfl, ?_⟩
    simp only [TimeFields.micros]
    omega

theorem readOffset_offsetChars {offset : Option ℤ}
    (h : ∀ o, offset = some o → -86400000000 < o ∧ o < 86400000000) :
    readOffset (offsetChars offset) = some offset := by
  rcases offset with - | offset
  · rfl
  · obtain ⟨hlower, hupper⟩ := h offset rfl
    obtain ⟨time, hread, hmicros⟩ := readTime_offsetClock (n := offset.natAbs) (by omega)
    simp only [offsetChars, readOffset]
    by_cases hneg : offset < 0
    · simp only [if_pos hneg, show ('-' : Char) ≠ 'Z' by decide, if_false, or_true, if_true, hread,
        Option.bind_some, hmicros]
      congr 2
      omega
    · simp only [if_neg hneg, show ('+' : Char) ≠ 'Z' by decide, show ('+' : Char) ≠ '-' by decide,
        if_false, true_or, if_true, hread, Option.bind_some, hmicros]
      congr 2
      omega

theorem ofFields_self (d : DateTime) :
    DateTime.ofFields d.date.year d.date.month d.date.day
      ⟨d.hour, d.minute, d.second, d.microsecond⟩ d.utcoffset = some d := by
  rw [DateTime.ofFields, dif_pos]
  exact ⟨⟨⟨d.date.year_pos, d.year_le⟩, d.date.month_mem, d.date.day_mem⟩,
    ⟨d.hour_lt, d.minute_lt, d.second_lt, d.microsecond_lt⟩, d.utcoffset_mem⟩

theorem fromisoformat_isoformat (d : DateTime) :
    fromisoformat d.isoformatWithOffset = some d := by
  have hmonth := d.date.month_mem
  have hday : d.date.day ≤ 31 := by
    refine d.date.day_mem.2.trans ?_
    unfold daysInMonth
    split_ifs <;> norm_num
  have hyear : d.date.year < 10 ^ 4 := by
    have hle := d.year_le
    omega
  have hhour := d.hour_lt
  have hminute := d.minute_lt
  have hsecond := d.second_lt
  rw [DateTime.isoformatWithOffset, fromisoformat, String.toList_ofList, dateChars]
  simp only [List.append_assoc, List.cons_append]
  rw [readNumber_padded hyear]
  simp only [Option.bind_some, skip_self, readNumber_padded (w := 2) (show d.date.month < 10 ^ 2 by omega),
    readNumber_padded (w := 2) (show d.date.day < 10 ^ 2 by omega)]
  rw [readTime_seconds (by omega) (by omega) (by omega) d.microsecond_lt
    (stops_offsetChars d.utcoffset)]
  simp only [Option.bind_some, readOffset_offsetChars d.utcoffset_mem, ofFields_self]

/-! ### Stored timestamps -/

/-- Parse a stored timestamp back into an aware UTC datetime. -/
def fromIso : Option String → Except String (Option DateTime)
  | none => .ok none
  | some text =>
      if text = "" then .ok none
      else
        match fromisoformat text with
        | none => .error ("Invalid isoformat string: " ++ text)
        | some parsed =>
            let parsed := if parsed.utcoffset = none then parsed.replaceUtc else parsed
            parsed.astimezone.map some

/-- Elapsed seconds between two stored timestamps. -/
def secondsBetweenStored (start finish : Option String) : Except String (Option ℚ) :=
  (fromIso start).bind fun start =>
    (fromIso finish).map fun finish =>
      match start, finish with
      | some start, some finish => some ((finish.utc - start.utc) / 1000000)
      | _, _ => none

/-- The condition `if text`. -/
def isGiven : Option String → Bool
  | none => false
  | some text => text ≠ ""

/-- What `summarise` makes of the columns of its rows: `max(completed) - min(submitted)`
over the timestamps that are there. -/
def makespanStored (submitted completed : List (Option String)) : Except String (Option ℚ) :=
  let read := fun texts : List (Option String) =>
    (texts.filter isGiven).mapM fromIso
  (read submitted).bind fun submitted =>
    (read completed).map fun completed =>
      let utc := fun ds : List (Option DateTime) => ds.reduceOption.map DateTime.utc
      secondsBetween (utc submitted).min? (utc completed).max?

/-- The datetime in UTC of an instant. -/
def DateTime.ofInstant (t : Timestamp) (h : Representable t) : DateTime :=
  ofClock t.toNat (Int.toNat_lt h.1 |>.mpr h.2)

theorem ofInstant_congr {t t' : Timestamp} (heq : t = t') (h : Representable t)
    (h' : Representable t') : DateTime.ofInstant t h = DateTime.ofInstant t' h' := by
  subst heq
  rfl

theorem clock_ofClock {n : ℕ} (h : n < maxClock) : (ofClock n h).clock = n := by
  simp only [DateTime.clock, ofClock, days_ofDays]
  omega

theorem ofInstant_utc {t : Timestamp} (h : Representable t) : (DateTime.ofInstant t h).utc = t := by
  show ((DateTime.ofInstant t h).clock : ℤ) - 0 = t
  rw [DateTime.ofInstant, clock_ofClock, sub_zero, Int.toNat_of_nonneg h.1]

/-- Whatever offset a text has, or none, it is read as its instant in UTC. -/
theorem fromIso_isoformat {d : DateTime} (h : Representable d.utc) :
    fromIso (some d.isoformatWithOffset) = .ok (some (DateTime.ofInstant d.utc h)) := by
  have hread := fromisoformat_isoformat d
  have hne : d.isoformatWithOffset ≠ "" := by
    intro hempty
    rw [hempty] at hread
    cases hread
  have hconvert : ∀ value : DateTime, value.utc = d.utc →
      value.astimezone.map some = .ok (some (DateTime.ofInstant d.utc h)) := by
    intro value heq
    have hvalue : Representable value.utc := by
      rw [heq]
      exact h
    rw [DateTime.astimezone, dif_pos hvalue]
    exact congrArg (fun utc => Except.ok (some utc)) (ofInstant_congr heq hvalue h)
  simp only [fromIso, if_neg hne, hread]
  by_cases hnaive : d.utcoffset = none
  · rw [if_pos hnaive]
    refine hconvert d.replaceUtc ?_
    rw [DateTime.utc, DateTime.utc, hnaive]
    rfl
  · rw [if_neg hnaive]
    exact hconvert d rfl

theorem fromIso_isoText {t : Timestamp} (h : Representable t) :
    fromIso (some (isoText t)) = .ok (some (DateTime.ofInstant t h)) := by
  have htext : isoText t = (DateTime.ofInstant t h).isoformatWithOffset :=
    (isoformatWithOffset_utc (d := DateTime.ofInstant t h) rfl).symm
  have hutc := ofInstant_utc h
  have hinstant : Representable (DateTime.ofInstant t h).utc := by
    rw [hutc]
    exact h
  rw [htext, fromIso_isoformat hinstant, ofInstant_congr hutc hinstant h]

/-- **What was stored is read back**: `from_iso` makes of the text that `to_iso` stores
of a datetime its instant in UTC, and the same of the text the datetime has itself,
with its own offset or with none. -/
theorem from_iso_reads_back (value : DateTime) (h : Representable value.utc) :
    ∃ text utc, toIso (some value) = .ok (some text) ∧ fromIso (some text) = .ok (some utc) ∧
      fromIso (some value.isoformatWithOffset) = .ok (some utc) ∧
      utc.utcoffset = some 0 ∧ utc.utc = value.utc ∧ toIso (some utc) = .ok (some text) := by
  have hutc := ofInstant_utc h
  refine ⟨_, DateTime.ofInstant value.utc h, toIso_eq h, fromIso_isoText h, fromIso_isoformat h,
    rfl, hutc, ?_⟩
  rw [toIso_eq (by rw [hutc]; exact h), hutc]

theorem from_iso_reads_back_newYearEast :
    ∃ utc, fromIso (some newYearEast.isoformatWithOffset) = .ok (some utc) ∧
      utc.utc = newYearEast.utc := by
  obtain ⟨-, utc, -, -, hread, -, hutc, -⟩ := from_iso_reads_back newYearEast (by decide)
  exact ⟨utc, hread, hutc⟩

/-! ### Durations of a run -/

theorem secondsBetweenStored_eq {start finish : Option Timestamp}
    (hstart : ∀ t, start = some t → Representable t)
    (hfinish : ∀ t, finish = some t → Representable t) :
    secondsBetweenStored (start.map isoText) (finish.map isoText)
      = .ok (secondsBetween start finish) := by
  rcases start with - | start
  · rcases finish with - | finish
    · rfl
    · simp only [secondsBetweenStored, Option.map_some, fromIso_isoText (hfinish finish rfl)]
      rfl
  · rcases finish with - | finish
    · simp only [secondsBetweenStored, Option.map_some, fromIso_isoText (hstart start rfl)]
      rfl
    · have hutc := ofInstant_utc (hstart start rfl)
      have hutc' := ofInstant_utc (hfinish finish rfl)
      simp only [secondsBetweenStored, Option.map_some, fromIso_isoText (hstart start rfl),
        fromIso_isoText (hfinish finish rfl)]
      show Except.ok (some _) = Except.ok (some _)
      rw [hutc, hutc']

/-- The timestamps that are there are all read, in their order. -/
theorem mapM_fromIso {ts : List (Option Timestamp)} (h : ∀ t, some t ∈ ts → Representable t) :
    ∃ ds, ((ts.map fun t => t.map isoText).filter isGiven).mapM fromIso = .ok ds ∧
      ds.reduceOption.map DateTime.utc = ts.reduceOption := by
  induction ts with
  | nil => exact ⟨[], rfl, rfl⟩
  | cons t ts ih =>
      obtain ⟨ds, hread, hds⟩ := ih fun t' ht' => h t' (List.mem_cons_of_mem _ ht')
      rcases t with - | t
      · exact ⟨ds, hread, hds⟩
      · have hrepresentable := h t List.mem_cons_self
        have hgiven : isGiven (some (isoText t)) = true := by
          refine decide_eq_true fun hempty => ?_
          have hstored := fromIso_isoText hrepresentable
          rw [hempty] at hstored
          cases hstored
        refine ⟨some (DateTime.ofInstant t hrepresentable) :: ds, ?_, ?_⟩
        · rw [List.map_cons, Option.map_some, List.filter_cons_of_pos hgiven, List.mapM_cons,
            fromIso_isoText hrepresentable, hread]
          rfl
        · rw [List.reduceOption_cons_of_some, List.reduceOption_cons_of_some, List.map_cons,
            ofInstant_utc, hds]

/-- The timestamps of a job lie in the years 1 to 9999 of UTC. -/
structure RunJob.Stored (job : RunJob) : Prop where
  submitted : ∀ t, job.submittedAt = some t → Representable t
  dispatched : ∀ t, job.dispatchedAt = some t → Representable t
  completed : ∀ t, job.completedAt = some t → Representable t

/-- **The durations of a run from its stored texts**: queue wait and turnaround of every
job, and the makespan of the run, come out of the columns of text as of the
instants. -/
theorem durations_from_stored {jobs : List RunJob} (h : ∀ job ∈ jobs, job.Stored) :
    (∀ job ∈ jobs,
      secondsBetweenStored (job.submittedAt.map isoText) (job.dispatchedAt.map isoText)
        = .ok (jobRecord job).queueWaitS ∧
      secondsBetweenStored (job.submittedAt.map isoText) (job.completedAt.map isoText)
        = .ok (jobRecord job).turnaroundS) ∧
    makespanStored (jobs.map fun job => job.submittedAt.map isoText)
      (jobs.map fun job => job.completedAt.map isoText) = .ok (makespan (jobRows jobs)) := by
  refine ⟨fun job hjob => ?_, ?_⟩
  · have hstored := h job hjob
    exact ⟨secondsBetweenStored_eq hstored.submitted hstored.dispatched,
      secondsBetweenStored_eq hstored.submitted hstored.completed⟩
  · obtain ⟨ds, hread, hds⟩ := @mapM_fromIso (jobs.map fun job => job.submittedAt) (by
      intro t ht
      obtain ⟨job, hjob, heq⟩ := List.mem_map.mp ht
      exact (h job hjob).submitted t heq)
    obtain ⟨ds', hread', hds'⟩ := @mapM_fromIso (jobs.map fun job => job.completedAt) (by
      intro t ht
      obtain ⟨job, hjob, heq⟩ := List.mem_map.mp ht
      exact (h job hjob).completed t heq)
    rw [List.map_map, Function.comp_def] at hread hread'
    simp only [makespanStored, hread, hread']
    show Except.ok (secondsBetween _ _) = Except.ok (makespan _)
    simp only [hds, hds', makespan, jobRows, List.map_map]
    rfl

/-- The rows of three jobs: two have a result, one waits in the queue. -/
def threeJobs : List RunJob :=
  let row := fun at' => Database.queuedRow "img" none (some "r") at' none
  [joinedRow "i" (Database.dispatchedRow "m" 3000000 (row 1000000))
      (some ⟨"m", true, 3, 0, 6000000⟩),
    joinedRow "j" (Database.dispatchedRow "n" 6500000 (row 2000000))
      (some ⟨"n", false, 2, 1, 9000000⟩),
    joinedRow "k" (row 4000000) none]

/-- The second job waited 4.5 s and was back after 7 s, and the run took 8 s. -/
theorem durations_from_stored_three :
    secondsBetweenStored (some (isoText 2000000)) (some (isoText 6500000)) = .ok (some (9 / 2)) ∧
    secondsBetweenStored (some (isoText 2000000)) (some (isoText 9000000)) = .ok (some 7) ∧
    makespanStored (threeJobs.map fun job => job.submittedAt.map isoText)
      (threeJobs.map fun job => job.completedAt.map isoText) = .ok (some 8) := by
  have hstored : ∀ job ∈ threeJobs, job.Stored := by
    intro job hjob
    simp only [threeJobs, List.mem_cons, List.not_mem_nil, or_false] at hjob
    rcases hjob with rfl | rfl | rfl <;> exact ⟨by decide, by decide, by decide⟩
  have hmakespan : makespan (jobRows threeJobs) = some 8 := by decide +kernel
  obtain ⟨hjobs, hread⟩ := durations_from_stored hstored
  rw [hmakespan] at hread
  obtain ⟨hwait, hback⟩ := hjobs _ (List.mem_cons_of_mem _ List.mem_cons_self)
  exact ⟨hwait.trans (by decide +kernel), hback.trans (by decide +kernel), hread⟩

end HeteroSched
