/-
HeteroSched/Lib/Csv.lean

Tables as text: a writer and a reader of comma-separated values.

Design.  The writer quotes a field only where it must (it contains the delimiter,
the quote or an end of line), writes a quote inside as two, and ends every row with
a carriage return and a line feed.  A row of one empty field is written as a pair of
quotes, since an empty line is a row without fields.  The reader is a machine that
takes one character after the other (`step`); a line ends after a line feed, a
carriage return or both.  It accepts any text: a quote inside a field that does not
begin with one is a character, and so is what follows a closing quote.

What the writer writes of a field leaves the machine at the end of that field
(`AtEnd`), from where a delimiter or an end of line saves it.  So the reader gets
back every table that was written (`read_writeRows`).
-/
import Mathlib.Tactic

namespace Csv

/-- A delimiter and a quote that can be told from each other and from an end of
line. -/
structure Dialect where
  delimiter : Char
  quote : Char
  ne : delimiter ≠ quote
  delimiter_ne : delimiter ≠ '\r' ∧ delimiter ≠ '\n'
  quote_ne : quote ≠ '\r' ∧ quote ≠ '\n'

/-- The character ends a line. -/
def IsNewline (c : Char) : Prop := c = '\r' ∨ c = '\n'

instance (c : Char) : Decidable (IsNewline c) := inferInstanceAs (Decidable (_ ∨ _))

variable (d : Dialect)

/-! ### Writing -/

/-- The character makes its field need quotes. -/
def Dialect.Special (c : Char) : Prop := c = d.delimiter ∨ c = d.quote ∨ IsNewline c

instance (c : Char) : Decidable (d.Special c) := inferInstanceAs (Decidable (_ ∨ _ ∨ _))

/-- Every quote twice. -/
def escape (field : List Char) : List Char :=
  field.flatMap fun c => if c = d.quote then [d.quote, d.quote] else [c]

/-- The field is written in quotes; `alone` is that its row has no other. -/
def Dialect.NeedsQuotes (alone : Bool) (field : List Char) : Prop :=
  (∃ c ∈ field, d.Special c) ∨ (alone = true ∧ field = [])

instance (alone : Bool) (field : List Char) : Decidable (d.NeedsQuotes alone field) :=
  decidable_of_iff ((field.any fun c => d.Special c) || (alone && field.isEmpty)) (by
    simp only [Bool.or_eq_true, List.any_eq_true, decide_eq_true_eq, Bool.and_eq_true,
      List.isEmpty_iff]
    exact Iff.rfl)

/-- Write a field, in quotes where it needs them. -/
def writeField (alone : Bool) (field : List Char) : List Char :=
  if d.NeedsQuotes alone field then
    d.quote :: escape d field ++ [d.quote]
  else field

/-- Write a row and the end of its line. -/
def writeRow (row : List (List Char)) : List Char :=
  List.intercalate [d.delimiter] (row.map (writeField d (row.length == 1))) ++ ['\r', '\n']

/-- Write all rows. -/
def writeRows (rows : List (List (List Char))) : List Char := rows.flatMap (writeRow d)

/-! ### Reading -/

/-- Where the reader is: at the start of a row or of a field; in a field, in quotes,
or after a quote in quotes; after the carriage return of a line. -/
inductive Mode
  | startRecord
  | startField
  | inField
  | inQuoted
  | quoteInQuoted
  | afterCr
  deriving DecidableEq, Repr

/-- The reader with the field and the row it has begun and the rows it has read. -/
structure Reader where
  mode : Mode := .startRecord
  field : List Char := []
  row : List (List Char) := []
  rows : List (List (List Char)) := []
  deriving DecidableEq, Repr

namespace Reader

/-- The field is complete. -/
def save (r : Reader) : Reader := { r with field := [], row := r.row ++ [r.field] }

/-- The row is complete. -/
def emit (r : Reader) (mode : Mode) : Reader := { mode := mode, rows := r.rows ++ [r.row] }

/-- One more character of the field. -/
def add (r : Reader) (mode : Mode) (c : Char) : Reader :=
  { r with mode := mode, field := r.field ++ [c] }

end Reader

/-- Where the reader is after the character that ends a line. -/
def afterLine (c : Char) : Mode := if c = '\r' then .afterCr else .startRecord

/-- Read the first character of a field. -/
def startField (r : Reader) (c : Char) : Reader :=
  if IsNewline c then r.save.emit (afterLine c)
  else if c = d.quote then { r with mode := .inQuoted }
  else if c = d.delimiter then { r.save with mode := .startField }
  else r.add .inField c

/-- Read the first character of a row. -/
def startRecord (r : Reader) (c : Char) : Reader :=
  if IsNewline c then r.emit (afterLine c) else startField d r c

/-- Read one character. -/
def step (r : Reader) (c : Char) : Reader :=
  match r.mode with
  | .startRecord => startRecord d r c
  | .startField => startField d r c
  | .inField =>
      if IsNewline c then r.save.emit (afterLine c)
      else if c = d.delimiter then { r.save with mode := .startField }
      else r.add .inField c
  | .inQuoted => if c = d.quote then { r with mode := .quoteInQuoted } else r.add .inQuoted c
  | .quoteInQuoted =>
      if c = d.quote then r.add .inQuoted c
      else if c = d.delimiter then { r.save with mode := .startField }
      else if IsNewline c then r.save.emit (afterLine c)
      else r.add .inField c
  | .afterCr => if c = '\n' then { r with mode := .startRecord } else startRecord d r c

/-- At the end of the text a row that was begun is complete. -/
def Reader.finish (r : Reader) : List (List (List Char)) :=
  match r.mode with
  | .startRecord | .afterCr => r.rows
  | _ => (r.save.emit .startRecord).rows

/-- The rows of a text. -/
def read (text : List Char) : List (List (List Char)) := (text.foldl (step d) {}).finish

/-! ### Reading back one field -/

variable {d} {r : Reader} {f : List Char} {c : Char}

/-- The reader has the field `f` and is at its end. -/
def AtEnd (r : Reader) (f : List Char) : Prop :=
  r.field = f ∧ (r.mode = .inField ∨ r.mode = .quoteInQuoted ∨ r.mode = .startField ∧ f = [])

theorem AtEnd.step_delimiter (h : AtEnd r f) :
    step d r d.delimiter = { r with mode := .startField, field := [], row := r.row ++ [f] } := by
  obtain ⟨rfl, hmode⟩ := h
  have hnewline : ¬ IsNewline d.delimiter :=
    fun h => h.elim d.delimiter_ne.1 d.delimiter_ne.2
  rcases hmode with hmode | hmode | ⟨hmode, -⟩
  · simp only [step, hmode, if_neg hnewline, if_pos, Reader.save]
  · simp only [step, hmode, if_neg d.ne, if_pos, Reader.save]
  · simp only [step, hmode, startField, if_neg hnewline, if_neg d.ne, if_pos, Reader.save]

theorem AtEnd.step_cr (h : AtEnd r f) :
    step d r '\r' = { mode := .afterCr, rows := r.rows ++ [r.row ++ [f]] } := by
  obtain ⟨rfl, hmode⟩ := h
  have hnewline : IsNewline '\r' := Or.inl rfl
  rcases hmode with hmode | hmode | ⟨hmode, -⟩
  · simp only [step, hmode, if_pos hnewline]
    rfl
  · simp only [step, hmode, if_neg d.quote_ne.1.symm, if_neg d.delimiter_ne.1.symm,
      if_pos hnewline]
    rfl
  · simp only [step, hmode, startField, if_pos hnewline]
    rfl

/-- Characters that need no quotes are read as they are. -/
theorem foldl_plain (h : ∀ c ∈ f, ¬ d.Special c) (hmode : r.mode = .inField) :
    f.foldl (step d) r = { r with field := r.field ++ f } := by
  induction f generalizing r with
  | nil => simp
  | cons c f ih =>
      obtain ⟨hc, hf⟩ := List.forall_mem_cons.mp h
      simp only [Dialect.Special, not_or] at hc
      have hstep : step d r c = r.add .inField c := by
        simp only [step, hmode, if_neg hc.2.2, if_neg hc.1]
      rw [List.foldl_cons, hstep, ih hf rfl]
      simp only [Reader.add, hmode, List.append_assoc, List.singleton_append]

/-- In quotes a doubled quote is read as one. -/
theorem foldl_escape (f : List Char) (hmode : r.mode = .inQuoted) :
    (escape d f).foldl (step d) r = { r with field := r.field ++ f } := by
  induction f generalizing r with
  | nil => simp [escape]
  | cons c f ih =>
      have hone : (if c = d.quote then [d.quote, d.quote] else [c]).foldl (step d) r
          = r.add .inQuoted c := by
        by_cases hc : c = d.quote
        · subst hc
          simp only [if_pos, List.foldl_cons, List.foldl_nil, step, hmode, Reader.add]
        · simp only [if_neg hc, List.foldl_cons, List.foldl_nil, step, hmode]
      rw [escape, List.flatMap_cons, List.foldl_append, hone]
      refine (ih rfl).trans ?_
      simp only [Reader.add, hmode, List.append_assoc, List.singleton_append]

/-- A field is read back from its start to its end. -/
theorem foldl_writeField (hmode : r.mode = .startField) (hfield : r.field = []) (alone : Bool)
    (f : List Char) :
    ∃ mode, (writeField d alone f).foldl (step d) r = { r with mode := mode, field := f } ∧
      AtEnd { r with mode := mode, field := f } f := by
  unfold writeField
  by_cases hquoted : d.NeedsQuotes alone f
  · rw [if_pos hquoted]
    refine ⟨.quoteInQuoted, ?_, rfl, Or.inr (Or.inl rfl)⟩
    have hopen : step d r d.quote = { r with mode := .inQuoted } := by
      have hnewline : ¬ IsNewline d.quote := fun h => h.elim d.quote_ne.1 d.quote_ne.2
      simp only [step, hmode, startField, if_neg hnewline, if_pos]
    rw [List.cons_append, List.foldl_cons, hopen, List.foldl_append, foldl_escape f rfl]
    simp [step, hfield]
  · rw [if_neg hquoted]
    simp only [Dialect.NeedsQuotes, not_or, not_exists, not_and] at hquoted
    rcases f with - | ⟨c, f⟩
    · exact ⟨.startField, by rw [List.foldl_nil, ← hmode, ← hfield], rfl, Or.inr (Or.inr ⟨rfl, rfl⟩)⟩
    · obtain ⟨hc, hf⟩ := List.forall_mem_cons.mp hquoted.1
      simp only [Dialect.Special, not_or] at hc
      have hstep : step d r c = r.add .inField c := by
        simp only [step, hmode, startField, if_neg hc.2.2, if_neg hc.2.1, if_neg hc.1]
      refine ⟨.inField, ?_, rfl, Or.inl rfl⟩
      rw [List.foldl_cons, hstep, foldl_plain hf rfl]
      simp [Reader.add, hfield]

/-! ### Reading back rows -/

/-- The fields of a row are read back up to the end of its line. -/
theorem foldl_fields (alone : Bool) {fs : List (List Char)} (hne : fs ≠ [])
    (hmode : r.mode = .startField) (hfield : r.field = []) :
    (List.intercalate [d.delimiter] (fs.map (writeField d alone)) ++ ['\r']).foldl (step d) r
      = { mode := .afterCr, rows := r.rows ++ [r.row ++ fs] } := by
  induction fs generalizing r with
  | nil => exact absurd rfl hne
  | cons f fs ih =>
      obtain ⟨mode, hread, hend⟩ := foldl_writeField (d := d) hmode hfield alone f
      rcases fs with - | ⟨g, fs⟩
      · rw [List.map_singleton, List.intercalate_singleton, List.foldl_append, hread]
        exact hend.step_cr
      · rw [List.map_cons, List.intercalate_cons_of_ne_nil (by simp), List.append_assoc,
          List.append_assoc, List.foldl_append, hread, List.singleton_append, List.foldl_cons,
          hend.step_delimiter, ih (List.cons_ne_nil g fs) rfl rfl]
        simp

/-- What is written of a field does not begin with an end of line. -/
theorem head_writeField {alone : Bool} {f l : List Char} (h : writeField d alone f = c :: l) :
    ¬ IsNewline c := by
  unfold writeField at h
  by_cases hquoted : d.NeedsQuotes alone f
  · rw [if_pos hquoted] at h
    obtain rfl := (List.cons.inj h).1
    exact fun hc => hc.elim d.quote_ne.1 d.quote_ne.2
  · rw [if_neg hquoted] at h
    intro hc
    exact hquoted (Or.inl ⟨c, by rw [h]; exact List.mem_cons_self, Or.inr (Or.inr hc)⟩)

/-- Nor is what is written of a row, unless it has no field. -/
theorem head_writeRow {row : List (List Char)} (hne : row ≠ []) :
    ∃ c rest, writeRow d row = c :: rest ∧ ¬ IsNewline c := by
  unfold writeRow
  rcases row with - | ⟨f, - | ⟨g, fs⟩⟩
  · exact absurd rfl hne
  · -- an only field is not written as nothing
    rcases hw : writeField d true f with - | ⟨c, l⟩
    · unfold writeField at hw
      split at hw
      · cases hw
      · next hquoted => exact absurd (Or.inr ⟨rfl, hw⟩) hquoted
    · refine ⟨c, l ++ ['\r', '\n'], ?_, head_writeField hw⟩
      simp [hw]
  · have hdelimiter : ¬ IsNewline d.delimiter :=
      fun h => h.elim d.delimiter_ne.1 d.delimiter_ne.2
    rw [List.map_cons, List.intercalate_cons_of_ne_nil (by simp)]
    rcases hw : writeField d ((f :: g :: fs).length == 1) f with - | ⟨c, l⟩
    · exact ⟨d.delimiter, _, rfl, hdelimiter⟩
    · exact ⟨c, _, rfl, head_writeField hw⟩

/-- A row is read back, and the reader is at the start of the next one. -/
theorem foldl_writeRow (row : List (List Char)) (rows : List (List (List Char))) :
    (writeRow d row).foldl (step d) { rows := rows } = { rows := rows ++ [row] } := by
  have hlf : ∀ rows, step d { mode := .afterCr, rows := rows } '\n' = { rows := rows } :=
    fun rows => rfl
  rcases row with - | ⟨f, fs⟩
  · rfl
  · obtain ⟨c, rest, htext, hc⟩ := head_writeRow (d := d) (List.cons_ne_nil f fs)
    have hstart : (writeRow d (f :: fs)).foldl (step d) { rows := rows }
        = (writeRow d (f :: fs)).foldl (step d) { mode := .startField, rows := rows } := by
      rw [htext, List.foldl_cons, List.foldl_cons]
      simp only [step, startRecord, if_neg hc]
      rfl
    rw [hstart, writeRow, show ['\r', '\n'] = ['\r'] ++ ['\n'] from rfl, ← List.append_assoc,
      List.foldl_append, foldl_fields _ (List.cons_ne_nil f fs) rfl rfl]
    exact hlf _

/-- **Every table that is written is read back.** -/
theorem read_writeRows (rows : List (List (List Char))) : read d (writeRows d rows) = rows := by
  have hrows : ∀ done, (writeRows d rows).foldl (step d) { rows := done }
      = { rows := done ++ rows } := by
    induction rows with
    | nil =>
        intro done
        simp [writeRows]
    | cons row rows ih =>
        intro done
        have hcons : writeRows d (row :: rows) = writeRow d row ++ writeRows d rows := rfl
        rw [hcons, List.foldl_append, foldl_writeRow, ih, List.append_assoc,
          List.singleton_append]
  rw [read, hrows]
  rfl

/-- The dialect of spreadsheets. -/
def excel : Dialect where
  delimiter := ','
  quote := '\x22'
  ne := by decide
  delimiter_ne := by decide
  quote_ne := by decide

end Csv
