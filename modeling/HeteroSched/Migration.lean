/-
HeteroSched/Migration.lean

The schema of the database, from `init_db` and `_migrate_schema` of `scheduler/db.py`.

Design.  A table is its columns and its rows, and a row has a value under each column
(`Table`).  A statement that changes the schema is a transaction of its own, so a
process that stops while it is in `init_db` leaves what the statements so far have made
(`Attempt`).  The next process runs `init_db` again, on what is there.

Each statement adds what it names and keeps everything else (`Catalog.Extends`), and
`init_db` executes none whose object is there: tables and indexes are created IF NOT
EXISTS, and of the columns of `jobs` only those are added that were missing when they
were listed.  That makes it a program that can be resumed (`Recovery`).
-/
import HeteroSched.Lib.Dict
import HeteroSched.Lib.Recovery

namespace HeteroSched

open Recovery

/-! ### Tables -/

/-- A column of a table, with its type and constraints as they are declared. -/
structure Column where
  name : String
  declaration : String
  deriving DecidableEq, Repr

/-- A table whose rows have a value, or NULL, under each of its columns. -/
structure Table (α : Type) where
  columns : List Column
  nodup : (columns.map Column.name).Nodup
  rows : List (Dict String (Option α))
  keys_eq : ∀ row ∈ rows, row.keys = columns.map Column.name

/-- The tables and the indexes of a database file; an index is on a column of a table. -/
structure Catalog (α : Type) where
  tables : Dict String (Table α) := ∅
  indexes : Dict String (String × String) := ∅

variable {α : Type}

namespace Table

/-- The names of the columns. -/
def names (t : Table α) : List String := t.columns.map Column.name

/-- A table without rows. -/
def create (columns : List Column) (h : (columns.map Column.name).Nodup) : Table α where
  columns := columns
  nodup := h
  rows := []
  keys_eq := fun _ hrow => absurd hrow List.not_mem_nil

theorem keys_set {row : Dict String (Option α)} {k : String} {v : Option α} (h : k ∉ row) :
    (row.set k v).keys = row.keys ++ [k] :=
  (Dict.keys_setEntries k v row.entries).trans (if_neg h)

/-- The table with one more column, which is NULL in every row. -/
def addColumn (t : Table α) (column : Column) (h : column.name ∉ t.names) : Table α where
  columns := t.columns ++ [column]
  nodup := by
    rw [List.map_append, List.map_singleton]
    exact t.nodup.append (List.nodup_singleton _) (List.disjoint_singleton.mpr h)
  rows := t.rows.map fun row => row.set column.name none
  keys_eq := by
    intro row' hrow'
    obtain ⟨row, hrow, rfl⟩ := List.mem_map.mp hrow'
    have hkeys := t.keys_eq row hrow
    rw [keys_set (by rw [Dict.mem_def, hkeys]; exact h), hkeys, List.map_append,
      List.map_singleton]

/-- A row after columns were added: its values, and NULL under the others. -/
structure RowExtends (row row' : Dict String (Option α)) : Prop where
  kept : ∀ k ∈ row, row'.get? k = row.get? k
  null : ∀ k ∈ row', k ∉ row → row'.get? k = some none

theorem RowExtends.trans {row row' row'' : Dict String (Option α)} (h : RowExtends row row')
    (h' : RowExtends row' row'') : RowExtends row row'' where
  kept := by
    intro k hk
    have hmem : k ∈ row' := by
      obtain ⟨v, hv⟩ := Dict.mem_iff_get?.mp hk
      exact Dict.mem_of_get? ((h.kept k hk).trans hv)
    rw [h'.kept k hmem, h.kept k hk]
  null := by
    intro k hk hnot
    by_cases hmem : k ∈ row'
    · rw [h'.kept k hmem, h.null k hmem hnot]
    · exact h'.null k hk hmem

theorem RowExtends.trans_all {l m n : List (Dict String (Option α))}
    (h : List.Forall₂ RowExtends l m) (h' : List.Forall₂ RowExtends m n) :
    List.Forall₂ RowExtends l n := by
  induction h generalizing n with
  | nil => exact h'
  | cons hrow _ ih =>
      rcases h' with - | ⟨hrow', hrest'⟩
      exact .cons (hrow.trans hrow') (ih hrest')

/-- The columns of the first come first in the second, and its rows are there in their
order. -/
structure Extends (t t' : Table α) : Prop where
  columns : t.columns <+: t'.columns
  rows : List.Forall₂ RowExtends t.rows t'.rows

theorem Extends.refl (t : Table α) : t.Extends t where
  columns := List.prefix_rfl
  rows := List.forall₂_same.mpr fun _ _ => ⟨fun _ _ => rfl, fun _ hk hnot => absurd hk hnot⟩

theorem Extends.trans {t u v : Table α} (h : t.Extends u) (h' : u.Extends v) : t.Extends v where
  columns := h.columns.trans h'.columns
  rows := RowExtends.trans_all h.rows h'.rows

theorem extends_addColumn (t : Table α) (column : Column) (h : column.name ∉ t.names) :
    t.Extends (t.addColumn column h) where
  columns := List.prefix_append _ _
  rows := by
    refine List.forall₂_map_right_iff.mpr (List.forall₂_same.mpr fun row hrow => ⟨?_, ?_⟩)
    · intro k hk
      have hne : k ≠ column.name := by
        rintro rfl
        rw [Dict.mem_def, t.keys_eq row hrow] at hk
        exact h hk
      exact Dict.get?_set_ne _ _ hne
    · intro k hk hnot
      obtain rfl := (Dict.mem_set.mp hk).resolve_right hnot
      exact Dict.get?_set_self _ _ _

end Table

/-! ### Statements -/

/-- The statements that change the schema. -/
inductive Statement
  | createTable (table : String) (columns : List Column)
  | addColumn (table : String) (column : Column)
  | createIndex (index table column : String)
  deriving DecidableEq

namespace Catalog

/-- The names PRAGMA table_info gives; none for a table that is not there. -/
def tableColumns (c : Catalog α) (table : String) : List String :=
  match c.tables.get? table with
  | some t => t.names
  | none => []

/-- What is in the first is in the second, with all its data. -/
structure Extends (c d : Catalog α) : Prop where
  tables : ∀ table t, c.tables.get? table = some t →
    ∃ t', d.tables.get? table = some t' ∧ t.Extends t'
  indexes : ∀ index on, c.indexes.get? index = some on → d.indexes.get? index = some on

theorem Extends.refl (c : Catalog α) : c.Extends c where
  tables := fun _ t ht => ⟨t, ht, Table.Extends.refl t⟩
  indexes := fun _ _ h => h

theorem Extends.trans {c d e : Catalog α} (h : c.Extends d) (h' : d.Extends e) : c.Extends e where
  tables := by
    intro table t ht
    obtain ⟨u, hu, htu⟩ := h.tables table t ht
    obtain ⟨v, hv, huv⟩ := h'.tables table u hu
    exact ⟨v, hv, htu.trans huv⟩
  indexes := fun index on hon => h'.indexes index on (h.indexes index on hon)

theorem Extends.mem_tables {c d : Catalog α} (h : c.Extends d) {table : String}
    (hmem : table ∈ c.tables) : table ∈ d.tables := by
  obtain ⟨t, ht⟩ := Dict.mem_iff_get?.mp hmem
  obtain ⟨t', ht', -⟩ := h.tables table t ht
  exact Dict.mem_of_get? ht'

theorem Extends.mem_indexes {c d : Catalog α} (h : c.Extends d) {index : String}
    (hmem : index ∈ c.indexes) : index ∈ d.indexes := by
  obtain ⟨on, hon⟩ := Dict.mem_iff_get?.mp hmem
  exact Dict.mem_of_get? (h.indexes index on hon)

theorem Extends.tableColumns {c d : Catalog α} (h : c.Extends d) {table column : String}
    (hmem : column ∈ c.tableColumns table) : column ∈ d.tableColumns table := by
  unfold Catalog.tableColumns at hmem ⊢
  rcases ht : c.tables.get? table with - | t
  · rw [ht] at hmem
    exact absurd hmem List.not_mem_nil
  · rw [ht] at hmem
    obtain ⟨t', ht', hext⟩ := h.tables table t ht
    rw [ht']
    exact (hext.columns.map Column.name).subset hmem

theorem mem_tables_of_column {c : Catalog α} {table column : String}
    (h : column ∈ c.tableColumns table) : table ∈ c.tables := by
  unfold Catalog.tableColumns at h
  rcases ht : c.tables.get? table with - | t
  · rw [ht] at h
    exact absurd h List.not_mem_nil
  · exact Dict.mem_of_get? ht

end Catalog

namespace Statement

/-- The table a statement is about. -/
def table : Statement → String
  | .createTable table _ => table
  | .addColumn table _ => table
  | .createIndex _ table _ => table

/-- The object of the statement is there. -/
def Done : Statement → Catalog α → Prop
  | .createTable table _, c => table ∈ c.tables
  | .addColumn table column, c => column.name ∈ c.tableColumns table
  | .createIndex index _ _, c => index ∈ c.indexes

instance (i : Statement) (c : Catalog α) : Decidable (i.Done c) :=
  match i with
  | .createTable table _ => inferInstanceAs (Decidable (table ∈ c.tables))
  | .addColumn table column => inferInstanceAs (Decidable (column.name ∈ c.tableColumns table))
  | .createIndex index _ _ => inferInstanceAs (Decidable (index ∈ c.indexes))

/-- Execute a statement; tables and indexes are created IF NOT EXISTS. -/
def exec (i : Statement) (c : Catalog α) : Except String (Catalog α) :=
  match i with
  | .createTable table columns =>
      if table ∈ c.tables then .ok c
      else if h : (columns.map Column.name).Nodup then
        .ok { c with tables := c.tables.set table (Table.create columns h) }
      else .error "duplicate column name"
  | .addColumn table column =>
      match c.tables.get? table with
      | none => .error ("no such table: " ++ table)
      | some t =>
          if h : column.name ∈ t.names then .error ("duplicate column name: " ++ column.name)
          else .ok { c with tables := c.tables.set table (t.addColumn column h) }
  | .createIndex index table column =>
      if index ∈ c.indexes then .ok c
      else if table ∉ c.tables then .error ("no such table: main." ++ table)
      else if column ∉ c.tableColumns table then
        .error ("table " ++ table ++ " has no column named " ++ column)
      else .ok { c with indexes := c.indexes.set index (table, column) }

variable {i j : Statement} {c d : Catalog α}

/-- What a statement that adds a table or a column does to the tables. -/
theorem extends_set {table : String} {t' : Table α}
    (h : ∀ t, c.tables.get? table = some t → t.Extends t') :
    c.Extends { c with tables := c.tables.set table t' } where
  tables := by
    intro table' t ht
    by_cases htable : table' = table
    · subst htable
      exact ⟨t', Dict.get?_set_self _ _ _, h t ht⟩
    · exact ⟨t, by rw [← ht]; exact Dict.get?_set_ne _ _ htable, Table.Extends.refl t⟩
  indexes := fun _ _ hon => hon

/-- A statement keeps all that is there. -/
theorem exec_extends (h : i.exec c = .ok d) : c.Extends d := by
  cases i with
  | createTable table columns =>
      simp only [exec] at h
      split at h
      · obtain rfl := Except.ok.inj h
        exact Catalog.Extends.refl c
      · next hmem =>
          split at h
          · obtain rfl := Except.ok.inj h
            exact extends_set fun t ht => absurd (Dict.mem_of_get? ht) hmem
          · cases h
  | addColumn table column =>
      simp only [exec] at h
      rcases ht : c.tables.get? table with - | t
      · rw [ht] at h
        cases h
      · simp only [ht] at h
        split at h
        · cases h
        · next hmem =>
            obtain rfl := Except.ok.inj h
            refine extends_set fun t' ht' => ?_
            obtain rfl := Option.some.inj (ht.symm.trans ht')
            exact t.extends_addColumn column hmem
  | createIndex index table column =>
      simp only [exec] at h
      split at h
      · obtain rfl := Except.ok.inj h
        exact Catalog.Extends.refl c
      · next hnew =>
          split at h
          · cases h
          · split at h
            · cases h
            · obtain rfl := Except.ok.inj h
              refine ⟨fun _ t ht => ⟨t, ht, Table.Extends.refl t⟩, fun index' on hon => ?_⟩
              have hne : index' ≠ index := fun heq => hnew (heq ▸ Dict.mem_of_get? hon)
              exact (Dict.get?_set_ne _ _ hne).trans hon

/-- And its object is there afterwards. -/
theorem done_exec (h : i.exec c = .ok d) : i.Done d := by
  cases i with
  | createTable table columns =>
      simp only [exec] at h
      split at h
      · next hmem =>
          obtain rfl := Except.ok.inj h
          exact hmem
      · split at h
        · obtain rfl := Except.ok.inj h
          exact Dict.mem_set.mpr (.inl rfl)
        · cases h
  | addColumn table column =>
      simp only [exec] at h
      rcases ht : c.tables.get? table with - | t
      · rw [ht] at h
        cases h
      · simp only [ht] at h
        split at h
        · cases h
        · next hmem =>
            obtain rfl := Except.ok.inj h
            simp only [Done, Catalog.tableColumns, Dict.get?_set_self, Table.names,
              Table.addColumn, List.map_append, List.map_singleton]
            exact List.mem_append_right _ (List.mem_singleton.mpr rfl)
  | createIndex index table column =>
      simp only [exec] at h
      split at h
      · next hmem =>
          obtain rfl := Except.ok.inj h
          exact hmem
      · split at h
        · cases h
        · split at h
          · cases h
          · obtain rfl := Except.ok.inj h
            exact Dict.mem_set.mpr (.inl rfl)

theorem Done.extends (h : i.Done c) (hext : c.Extends d) : i.Done d := by
  cases i with
  | createTable table columns => exact hext.mem_tables h
  | addColumn table column => exact hext.tableColumns h
  | createIndex index table column => exact hext.mem_indexes h

theorem resumable : Resumable (exec (α := α)) Done where
  done_exec := done_exec
  keeps := fun h hdone => hdone.extends (exec_extends h)

/-- Creating what is there is skipped by the statement itself. -/
theorem exec_create (h : ∀ table column, i ≠ .addColumn table column) (c : Catalog α) :
    i.exec c = ensure exec Done i c := by
  rw [ensure]
  by_cases hdone : i.Done c
  · rw [if_pos hdone]
    cases i with
    | createTable table columns => exact if_pos hdone
    | addColumn table column => exact absurd rfl (h table column)
    | createIndex index table column => exact if_pos hdone
  · rw [if_neg hdone]

/-- What a statement asks of the tables. -/
def Ready : Statement → Catalog α → Prop
  | .createTable _ columns, _ => (columns.map Column.name).Nodup
  | .addColumn table _, c => table ∈ c.tables
  | .createIndex _ table column, c => column ∈ c.tableColumns table

theorem ensure_ok (h : i.Ready c) : ∃ d, ensure exec Done i c = .ok d := by
  rw [ensure]
  by_cases hdone : i.Done c
  · exact ⟨c, if_pos hdone⟩
  · rw [if_neg hdone]
    cases i with
    | createTable table columns => exact ⟨_, (if_neg hdone).trans (dif_pos h)⟩
    | addColumn table column =>
        obtain ⟨t, ht⟩ := Dict.mem_iff_get?.mp h
        have hnot : column.name ∉ t.names := by
          simpa only [Done, Catalog.tableColumns, ht] using hdone
        exact ⟨_, by simp only [exec, ht]; exact dif_neg hnot⟩
    | createIndex index table column =>
        have htable : table ∈ c.tables := Catalog.mem_tables_of_column h
        exact ⟨_, (if_neg hdone).trans ((if_neg (not_not.mpr htable)).trans
          (if_neg (not_not.mpr h)))⟩

/-- A table that is there after a statement was there before, or it was created. -/
theorem get?_exec (h : i.exec c = .ok d) {table : String} {t : Table α}
    (ht : d.tables.get? table = some t) :
    table ∈ c.tables ∨ ∃ columns hnodup, i = .createTable table columns ∧
      t = Table.create columns hnodup := by
  cases i with
  | createTable table' columns =>
      simp only [exec] at h
      split at h
      · obtain rfl := Except.ok.inj h
        exact .inl (Dict.mem_of_get? ht)
      · split at h
        · next hnodup =>
            obtain rfl := Except.ok.inj h
            by_cases htable : table = table'
            · subst htable
              rw [Dict.get?_set_self] at ht
              exact .inr ⟨columns, hnodup, rfl, (Option.some.inj ht).symm⟩
            · exact .inl (Dict.mem_of_get? ((Dict.get?_set_ne _ _ htable).symm.trans ht))
        · cases h
  | addColumn table' column =>
      simp only [exec] at h
      rcases ht' : c.tables.get? table' with - | t'
      · rw [ht'] at h
        cases h
      · simp only [ht'] at h
        split at h
        · cases h
        · obtain rfl := Except.ok.inj h
          by_cases htable : table = table'
          · subst htable
            exact .inl (Dict.mem_of_get? ht')
          · exact .inl (Dict.mem_of_get? ((Dict.get?_set_ne _ _ htable).symm.trans ht))
  | createIndex index table' column =>
      simp only [exec] at h
      split at h
      · obtain rfl := Except.ok.inj h
        exact .inl (Dict.mem_of_get? ht)
      · split at h
        · cases h
        · split at h
          · cases h
          · obtain rfl := Except.ok.inj h
            exact .inl (Dict.mem_of_get? ht)

/-- An index that is there after a statement was there before, or it was created. -/
theorem get?_indexes_exec (h : i.exec c = .ok d) {index : String} {on : String × String}
    (hon : d.indexes.get? index = some on) :
    c.indexes.get? index = some on ∨
      (c.indexes.get? index = none ∧ i = .createIndex index on.1 on.2) := by
  cases i with
  | createTable table columns =>
      simp only [exec] at h
      split at h
      · obtain rfl := Except.ok.inj h
        exact .inl hon
      · split at h
        · obtain rfl := Except.ok.inj h
          exact .inl hon
        · cases h
  | addColumn table column =>
      simp only [exec] at h
      rcases ht : c.tables.get? table with - | t
      · rw [ht] at h
        cases h
      · simp only [ht] at h
        split at h
        · cases h
        · obtain rfl := Except.ok.inj h
          exact .inl hon
  | createIndex index' table column =>
      simp only [exec] at h
      split at h
      · obtain rfl := Except.ok.inj h
        exact .inl hon
      · next hnew =>
          split at h
          · cases h
          · split at h
            · cases h
            · obtain rfl := Except.ok.inj h
              by_cases hindex : index = index'
              · subst hindex
                rw [Dict.get?_set_self] at hon
                obtain rfl := Option.some.inj hon
                exact .inr ⟨Dict.get?_eq_none_iff.mpr hnew, rfl⟩
              · exact .inl ((Dict.get?_set_ne _ _ hindex).symm.trans hon)

/-- A column that is there after another one was added was there before. -/
theorem addColumn_alone {table : String} {column column' : Column}
    (h : (addColumn table column).exec c = .ok d) (hd : (addColumn table column').Done d) :
    column'.name = column.name ∨ (addColumn table column').Done c := by
  simp only [exec] at h
  rcases ht : c.tables.get? table with - | t
  · rw [ht] at h
    cases h
  · simp only [ht] at h
    split at h
    · cases h
    · obtain rfl := Except.ok.inj h
      simp only [Done, Catalog.tableColumns, Dict.get?_set_self, Table.names, Table.addColumn,
        List.map_append, List.map_singleton, ht] at hd ⊢
      rcases List.mem_append.mp hd with hd | hd
      · exact .inr hd
      · exact .inl (List.mem_singleton.mp hd)

end Statement

/-! ### The schema -/

/-- The tables as they were first created. -/
def createTables : List Statement :=
  [.createTable "nodes"
      [⟨"node_id", "TEXT PRIMARY KEY"⟩, ⟨"hostname", "TEXT NOT NULL"⟩,
        ⟨"agent_url", "TEXT NOT NULL"⟩, ⟨"registered_at", "TIMESTAMP NOT NULL"⟩,
        ⟨"last_heartbeat", "TIMESTAMP"⟩, ⟨"current_load", "REAL DEFAULT 0.0"⟩],
    .createTable "node_profiles"
      [⟨"node_id", "TEXT PRIMARY KEY"⟩, ⟨"capabilities", "TEXT NOT NULL"⟩,
        ⟨"cpu_profile", "TEXT"⟩, ⟨"io_profile", "TEXT"⟩, ⟨"memory_profile", "TEXT"⟩,
        ⟨"gpu_profile", "TEXT"⟩, ⟨"network_profile", "TEXT"⟩],
    .createTable "jobs"
      [⟨"job_id", "TEXT PRIMARY KEY"⟩, ⟨"image", "TEXT NOT NULL"⟩, ⟨"command", "TEXT"⟩,
        ⟨"status", "TEXT DEFAULT 'queued'"⟩, ⟨"submitted_at", "TIMESTAMP NOT NULL"⟩,
        ⟨"dispatched_at", "TIMESTAMP"⟩, ⟨"dispatched_to_node", "TEXT"⟩],
    .createTable "job_results"
      [⟨"job_id", "TEXT PRIMARY KEY"⟩, ⟨"node_id", "TEXT NOT NULL"⟩,
        ⟨"success", "BOOLEAN NOT NULL"⟩, ⟨"runtime_seconds", "REAL NOT NULL"⟩,
        ⟨"exit_code", "INTEGER NOT NULL"⟩, ⟨"completed_at", "TIMESTAMP NOT NULL"⟩],
    .createTable "runs"
      [⟨"run_id", "TEXT PRIMARY KEY"⟩, ⟨"label", "TEXT"⟩, ⟨"policy", "TEXT NOT NULL"⟩,
        ⟨"trace", "TEXT"⟩, ⟨"started_at", "TIMESTAMP NOT NULL"⟩, ⟨"finished_at", "TIMESTAMP"⟩,
        ⟨"cluster_snapshot", "TEXT"⟩, ⟨"notes", "TEXT"⟩]]

/-- The columns of `jobs` that came later. -/
def addedColumns : List Column :=
  [⟨"run_id", "TEXT"⟩, ⟨"workload_type", "TEXT"⟩, ⟨"cpu_request", "INTEGER"⟩,
    ⟨"memory_mb", "INTEGER"⟩, ⟨"requires_gpu", "INTEGER"⟩, ⟨"job_size", "INTEGER"⟩]

/-- The indexes for common queries. -/
def createIndexes : List Statement :=
  [.createIndex "idx_jobs_status" "jobs" "status",
    .createIndex "idx_jobs_run" "jobs" "run_id",
    .createIndex "idx_jobs_submitted" "jobs" "submitted_at",
    .createIndex "idx_job_results_completed" "job_results" "completed_at"]

/-- The columns `_migrate_schema` finds missing. -/
def missingColumns (c : Catalog α) : List Column :=
  let columns := c.tableColumns "jobs"
  addedColumns.filter fun column => ¬ column.name ∈ columns

/-- The statements of `_migrate_schema`. -/
def migrations (c : Catalog α) : List Statement := (missingColumns c).map (.addColumn "jobs")

/-- Bring an existing database up to the current schema. -/
def migrateSchema (c : Catalog α) : Except String (Catalog α) :=
  execAll Statement.exec (migrations c) c

/-- Initialize the database schema. -/
def initDb (c : Catalog α) : Except String (Catalog α) :=
  (execAll Statement.exec createTables c).bind fun c =>
    (migrateSchema c).bind (execAll Statement.exec createIndexes)

/-- A process that stops in `init_db`: while it creates tables, adds columns, or creates
indexes. -/
inductive Attempt (c : Catalog α) : Catalog α → Prop
  | tables {q : List Statement} {u : Catalog α} (hq : q <+: createTables)
      (h : execAll Statement.exec q c = .ok u) : Attempt c u
  | columns {q : List Statement} {c₁ u : Catalog α} (h₁ : execAll Statement.exec createTables c = .ok c₁)
      (hq : q <+: migrations c₁) (h : execAll Statement.exec q c₁ = .ok u) : Attempt c u
  | indexes {q : List Statement} {c₁ c₂ u : Catalog α}
      (h₁ : execAll Statement.exec createTables c = .ok c₁) (h₂ : migrateSchema c₁ = .ok c₂)
      (hq : q <+: createIndexes) (h : execAll Statement.exec q c₂ = .ok u) : Attempt c u

/-- All that `init_db` wants to be there, in its order. -/
def schema : List Statement := createTables ++ addedColumns.map (.addColumn "jobs") ++ createIndexes

/-! ### As a program to be resumed -/

open Statement (resumable)

variable {c u : Catalog α}

/-- Statements that create are skipped where their object is there. -/
theorem execAll_create {l : List Statement} (h : ∀ i ∈ l, ∀ table column, i ≠ .addColumn table column)
    (c : Catalog α) :
    execAll Statement.exec l c = execAll (ensure Statement.exec Statement.Done) l c :=
  execAll_congr (fun i hi => Statement.exec_create (h i hi)) c

theorem tables_create : ∀ i ∈ createTables, ∀ table column, i ≠ Statement.addColumn table column := by
  intro i hi table column heq
  subst heq
  simp [createTables] at hi

theorem indexes_create : ∀ i ∈ createIndexes, ∀ table column, i ≠ Statement.addColumn table column := by
  intro i hi table column heq
  subst heq
  simp [createIndexes] at hi

/-- A column does not bring another one with it. -/
theorem added_alone : ∀ column ∈ addedColumns, ∀ column' ∈ addedColumns, ∀ {c d : Catalog α},
    (Statement.addColumn "jobs" column).exec c = .ok d →
    (Statement.addColumn "jobs" column').Done d →
    column' = column ∨ (Statement.addColumn "jobs" column').Done c := by
  intro column hcolumn column' hcolumn' c d h hd
  refine (Statement.addColumn_alone h hd).imp_left fun hname => ?_
  have hnodup : (addedColumns.map Column.name).Nodup := by decide
  exact List.inj_on_of_nodup_map hnodup hcolumn' hcolumn hname

/-- To add the columns that are missing at the start is to add each where it is
missing. -/
theorem migrateSchema_eq (c : Catalog α) :
    migrateSchema c = execAll (ensure Statement.exec Statement.Done)
      (addedColumns.map (.addColumn "jobs")) c := by
  rw [migrateSchema, migrations, execAll_map, execAll_map]
  exact execAll_missing (by decide) added_alone fun h => resumable.keeps h

theorem firstPart_migrations {q : List Statement} (hq : q <+: migrations c) :
    ∃ p, p <+: addedColumns.map (.addColumn "jobs") ∧
      execAll Statement.exec q c = execAll (ensure Statement.exec Statement.Done) p c := by
  obtain ⟨columns, hcolumns, rfl⟩ := List.prefix_map_iff.mp hq
  obtain ⟨p, hp, hexec⟩ := @execAll_missing_firstPart Column (Catalog α) String
    (fun column => (Statement.addColumn "jobs" column).exec)
    (fun column => (Statement.addColumn "jobs" column).Done) _ columns addedColumns (by decide) c
    hcolumns added_alone fun h => resumable.keeps h
  refine ⟨p.map (.addColumn "jobs"), hp.map _, ?_⟩
  rw [execAll_map, execAll_map]
  exact hexec

/-- `init_db` makes what is not there, in the order of the schema. -/
theorem initDb_eq (c : Catalog α) :
    initDb c = execAll (ensure Statement.exec Statement.Done) schema c := by
  rw [initDb, schema, execAll_append, execAll_append, execAll_create tables_create]
  rcases execAll (ensure Statement.exec Statement.Done) createTables c with e | c₁
  · rfl
  · show (migrateSchema c₁).bind (execAll Statement.exec createIndexes) = _
    rw [migrateSchema_eq]
    exact congrArg _ (funext (execAll_create indexes_create))

/-- And a process that stops in it has made a first part of it. -/
theorem Attempt.firstPart (h : Attempt c u) :
    ∃ p, p <+: schema ∧ execAll (ensure Statement.exec Statement.Done) p c = .ok u := by
  cases h with
  | @tables q _ hq h =>
      refine ⟨q, ?_, ?_⟩
      · rw [schema, List.append_assoc]
        exact hq.trans (List.prefix_append _ _)
      · rw [← h, execAll_create fun i hi => tables_create i (hq.subset hi)]
  | @columns q c₁ _ h₁ hq h =>
      obtain ⟨p, hp, hexec⟩ := firstPart_migrations hq
      refine ⟨createTables ++ p, ?_, ?_⟩
      · rw [schema, List.append_assoc]
        exact List.prefix_append_right_inj _ |>.mpr (hp.trans (List.prefix_append _ _))
      · rw [execAll_append, ← execAll_create tables_create, h₁, ← h, hexec]
        rfl
  | @indexes q c₁ c₂ _ h₁ h₂ hq h =>
      refine ⟨createTables ++ addedColumns.map (.addColumn "jobs") ++ q, ?_, ?_⟩
      · exact List.prefix_append_right_inj _ |>.mpr hq
      · rw [execAll_append, execAll_append, ← execAll_create tables_create, h₁, ← h,
          execAll_create fun i hi => indexes_create i (hq.subset hi)]
        show (execAll _ _ c₁).bind _ = _
        rw [← migrateSchema_eq, h₂]
        rfl

/-! ### Databases of earlier versions -/

/-- A database an earlier version of the program may have made: of the tables some may
be missing, but those that are there have the columns they were first created with. -/
def Earlier (c : Catalog α) : Prop :=
  ∀ table columns, .createTable table columns ∈ createTables →
    ∀ t, c.tables.get? table = some t → ∀ column ∈ columns, column.name ∈ t.names

/-- A database with the schema of the program, made of the first one: an index is on its
column of its table, unless one of its name was there already. -/
structure Current (c d : Catalog α) : Prop where
  tables : ∀ table columns, .createTable table columns ∈ createTables →
    ∀ column ∈ columns, column.name ∈ d.tableColumns table
  columns : ∀ column ∈ addedColumns, column.name ∈ d.tableColumns "jobs"
  indexes : ∀ index table column, .createIndex index table column ∈ createIndexes →
    d.indexes.get? index = some ((c.indexes.get? index).getD (table, column))

theorem tables_distinct {table : String} {columns columns' : List Column}
    (h : .createTable table columns ∈ createTables) (h' : .createTable table columns' ∈ createTables) :
    columns = columns' := by
  have hnodup : (createTables.map Statement.table).Nodup := by decide
  exact (Statement.createTable.inj (List.inj_on_of_nodup_map hnodup h h' rfl)).2

/-- The tables keep their first columns, and the new ones have them. -/
theorem earlier_exec {i : Statement} {d : Catalog α} (hi : i ∈ schema) (hc : Earlier c)
    (h : i.exec c = .ok d) : Earlier d := by
  intro table columns hmem t ht column hcolumn
  rcases Statement.get?_exec h ht with htable | ⟨columns', hnodup, rfl, rfl⟩
  · obtain ⟨t', ht'⟩ := Dict.mem_iff_get?.mp htable
    obtain ⟨t'', ht'', hext⟩ := (Statement.exec_extends h).tables table t' ht'
    obtain rfl := Option.some.inj (ht''.symm.trans ht)
    exact (hext.columns.map Column.name).subset (hc table columns hmem t' ht' column hcolumn)
  · have hi' : .createTable table columns' ∈ createTables := by
      simpa [schema, createIndexes] using hi
    obtain rfl := tables_distinct hmem hi'
    exact List.mem_map_of_mem hcolumn

theorem earlier_ensure {i : Statement} {d : Catalog α} (hi : i ∈ schema) (hc : Earlier c)
    (h : ensure Statement.exec Statement.Done i c = .ok d) : Earlier d := by
  unfold ensure at h
  split at h
  · obtain rfl := Except.ok.inj h
    exact hc
  · exact earlier_exec hi hc h

/-- Statements that are ready in every database the ones before leave do not fail. -/
theorem execAll_ready {l : List Statement} {I : Catalog α → Prop} (hl : l ⊆ schema)
    (hready : ∀ i ∈ l, ∀ {c}, Earlier c → I c → i.Ready c)
    (hkeeps : ∀ {i c d}, ensure Statement.exec Statement.Done i c = .ok d → I c → I d)
    (hc : Earlier c) (hI : I c) :
    ∃ d, execAll (ensure Statement.exec Statement.Done) l c = .ok d ∧ Earlier d ∧ I d := by
  refine @execAll_ok _ _ _ _ (fun c => Earlier c ∧ I c) l c ?_ ⟨hc, hI⟩
  rintro i hi c ⟨hc, hI⟩
  obtain ⟨d, hd⟩ := Statement.ensure_ok (hready i hi hc hI)
  exact ⟨d, hd, earlier_ensure (hl hi) hc hd, hkeeps hd hI⟩

theorem done_ensure {l : List Statement} {i : Statement} {c d : Catalog α}
    (h : ensure Statement.exec Statement.Done i c = .ok d) (hdone : ∀ j ∈ l, j.Done c) :
    ∀ j ∈ l, j.Done d :=
  fun j hj => resumable.ensure.keeps h (hdone j hj)

theorem earlier_columns (hc : Earlier c) (hdone : ∀ i ∈ createTables, i.Done c) {table : String}
    {columns : List Column} (hmem : .createTable table columns ∈ createTables) {column : Column}
    (hcolumn : column ∈ columns) : column.name ∈ c.tableColumns table := by
  obtain ⟨t, ht⟩ := Dict.mem_iff_get?.mp (hdone _ hmem)
  unfold Catalog.tableColumns
  rw [ht]
  exact hc table columns hmem t ht column hcolumn

theorem tables_ready : ∀ i ∈ createTables, ∀ c : Catalog α, i.Ready c := by
  intro i hi c
  simp only [createTables, List.mem_cons, List.not_mem_nil, or_false] at hi
  rcases hi with rfl | rfl | rfl | rfl | rfl <;> simp [Statement.Ready]

theorem indexes_ready (hc : Earlier c) (htables : ∀ i ∈ createTables, i.Done c)
    (hcolumns : ∀ i ∈ addedColumns.map (Statement.addColumn "jobs"), i.Done c) :
    ∀ i ∈ createIndexes, i.Ready c := by
  have hjobs := List.mem_of_getElem? (l := createTables) (i := 2) rfl
  have hresults := List.mem_of_getElem? (l := createTables) (i := 3) rfl
  intro i hi
  simp only [createIndexes, List.mem_cons, List.not_mem_nil, or_false] at hi
  rcases hi with rfl | rfl | rfl | rfl
  · exact earlier_columns hc htables hjobs (List.mem_of_getElem? (i := 3) rfl)
  · exact hcolumns _ (List.mem_map_of_mem (List.mem_of_getElem? (i := 0) rfl))
  · exact earlier_columns hc htables hjobs (List.mem_of_getElem? (i := 4) rfl)
  · exact earlier_columns hc htables hresults (List.mem_of_getElem? (i := 5) rfl)

theorem initDb_ok (hc : Earlier c) : ∃ d, initDb c = .ok d ∧ Earlier d := by
  obtain ⟨c₁, h₁, hc₁, -⟩ := execAll_ready (l := createTables) (I := fun _ => True)
    (fun i hi => List.mem_append_left _ (List.mem_append_left _ hi))
    (fun i hi c _ _ => tables_ready i hi c) (fun _ _ => trivial) hc trivial
  have htables := resumable.ensure.done_execAll h₁
  have hadd : ∀ i ∈ addedColumns.map (Statement.addColumn "jobs"), ∀ {c : Catalog α}, Earlier c →
      (∀ j ∈ createTables, j.Done c) → i.Ready c := by
    intro i hi c _ hdone
    obtain ⟨column, -, rfl⟩ := List.mem_map.mp hi
    exact hdone _ (List.mem_of_getElem? (i := 2) rfl)
  obtain ⟨c₂, h₂, hc₂, htables₂⟩ := execAll_ready
    (fun i hi => List.mem_append_left _ (List.mem_append_right _ hi)) hadd done_ensure hc₁ htables
  have hcolumns := resumable.ensure.done_execAll h₂
  obtain ⟨d, h₃, hd, -⟩ := execAll_ready (l := createIndexes)
    (I := fun c => ∀ i ∈ createTables ++ addedColumns.map (Statement.addColumn "jobs"), i.Done c)
    (fun i hi => List.mem_append_right _ hi)
    (fun i hi c hc hdone => indexes_ready hc (List.forall_mem_append.mp hdone).1
      (List.forall_mem_append.mp hdone).2 i hi)
    done_ensure hc₂ (List.forall_mem_append.mpr ⟨htables₂, hcolumns⟩)
  refine ⟨d, ?_, hd⟩
  rw [initDb_eq, schema, execAll_append, execAll_append, h₁]
  show (execAll _ _ c₁).bind _ = _
  rw [h₂]
  exact h₃

/-- An index is one of before, or one of the schema. -/
theorem indexes_execAll {l : List Statement} {d : Catalog α} (hl : l ⊆ schema)
    (h : execAll (ensure Statement.exec Statement.Done) l c = .ok d) {index : String}
    {on : String × String} (hon : d.indexes.get? index = some on) :
    c.indexes.get? index = some on ∨
      (c.indexes.get? index = none ∧ .createIndex index on.1 on.2 ∈ schema) := by
  have hboth : c.Extends d ∧ ∀ on, d.indexes.get? index = some on →
      c.indexes.get? index = some on ∨
        (c.indexes.get? index = none ∧ .createIndex index on.1 on.2 ∈ schema) := by
    refine execAll_invariant (I := fun u => c.Extends u ∧ ∀ on, u.indexes.get? index = some on →
      c.indexes.get? index = some on ∨
        (c.indexes.get? index = none ∧ .createIndex index on.1 on.2 ∈ schema))
      ?_ h ⟨Catalog.Extends.refl c, fun _ hon => .inl hon⟩
    rintro i hi s t ⟨hext, hs⟩ hexec
    unfold ensure at hexec
    split at hexec
    · obtain rfl := Except.ok.inj hexec
      exact ⟨hext, hs⟩
    · refine ⟨hext.trans (Statement.exec_extends hexec), fun on hon => ?_⟩
      rcases Statement.get?_indexes_exec hexec hon with hold | ⟨hnew, rfl⟩
      · exact hs on hold
      · -- it was not there at the start either
        refine .inr ⟨?_, hl hi⟩
        rcases hc : c.indexes.get? index with - | on'
        · rfl
        · exact absurd ((hext.indexes index on' hc).symm.trans hnew) (Option.some_ne_none on')
  exact hboth.2 on hon

theorem indexes_distinct {index table column : String} {on : String × String}
    (h : .createIndex index table column ∈ createIndexes)
    (h' : .createIndex index on.1 on.2 ∈ schema) : on = (table, column) := by
  simp only [schema, createTables, addedColumns, createIndexes, List.map_cons, List.map_nil,
    List.cons_append, List.nil_append, List.mem_cons, List.not_mem_nil, reduceCtorEq, or_false,
    false_or, Statement.createIndex.injEq] at h h'
  rcases h with ⟨rfl, rfl, rfl⟩ | ⟨rfl, rfl, rfl⟩ | ⟨rfl, rfl, rfl⟩ | ⟨rfl, rfl, rfl⟩ <;>
    simpa [Prod.ext_iff] using h'

/-- What `init_db` leaves has the schema. -/
theorem current_initDb {d : Catalog α} (hd : Earlier d) (h : initDb c = .ok d) : Current c d := by
  rw [initDb_eq] at h
  have hdone := resumable.ensure.done_execAll h
  have hmem : ∀ i, i ∈ schema ↔
      (i ∈ createTables ∨ i ∈ addedColumns.map (Statement.addColumn "jobs")) ∨ i ∈ createIndexes := by
    intro i
    rw [schema, List.mem_append, List.mem_append]
  refine ⟨?_, ?_, ?_⟩
  · intro table columns htable column hcolumn
    exact earlier_columns hd (fun i hi => hdone i ((hmem i).mpr (.inl (.inl hi)))) htable hcolumn
  · intro column hcolumn
    exact hdone _ ((hmem _).mpr (.inl (.inr (List.mem_map_of_mem hcolumn))))
  · intro index table column hindex
    obtain ⟨on, hon⟩ := Dict.mem_iff_get?.mp
      (show index ∈ d.indexes from hdone _ ((hmem _).mpr (.inr hindex)))
    rw [hon]
    rcases indexes_execAll (List.Subset.refl _) h hon with hold | ⟨hnew, hcreated⟩
    · rw [hold, Option.getD_some]
    · rw [hnew, Option.getD_none, indexes_distinct hindex hcreated]

theorem extends_execAll {l : List Statement} {d : Catalog α}
    (h : execAll (ensure Statement.exec Statement.Done) l c = .ok d) : c.Extends d := by
  refine execAll_invariant (I := fun u => c.Extends u) ?_ h (Catalog.Extends.refl c)
  intro i _ s t hs hexec
  unfold ensure at hexec
  split at hexec
  · obtain rfl := Except.ok.inj hexec
    exact hs
  · exact hs.trans (Statement.exec_extends hexec)

/-- However often a process stops while it is in `init_db`, on a new database or on one of
an earlier version, the next `init_db` succeeds and makes the same database: it has the
schema of the program, and every row of the tables that were there is there, with its
values and NULL in the columns that were added.  Run again it changes nothing. -/
theorem init_db_resumes (hc : Earlier c) (h : Relation.ReflTransGen Attempt c u) :
    ∃ d, initDb c = .ok d ∧ initDb u = .ok d ∧ initDb d = .ok d ∧ Current c d ∧ c.Extends d ∧
      u.Extends d := by
  obtain ⟨d, hd, hearlier⟩ := initDb_ok hc
  have hu : initDb u = .ok d := by
    rw [← hd, initDb_eq, initDb_eq]
    exact resumable.resume_many (Relation.ReflTransGen.mono (fun _ _ => Attempt.firstPart) c u h)
  refine ⟨d, hd, hu, ?_, current_initDb hearlier hd, ?_, ?_⟩
  · rw [initDb_eq] at hd ⊢
    exact ensureAll_of_done (resumable.ensure.done_execAll hd)
  · exact extends_execAll ((initDb_eq c).symm.trans hd)
  · exact extends_execAll ((initDb_eq u).symm.trans hu)

/-- A database from before there were runs, with one job. -/
def oldJobs : Catalog String where
  tables := (∅ : Dict String (Table String)).set "jobs"
    { columns :=
        [⟨"job_id", "TEXT PRIMARY KEY"⟩, ⟨"image", "TEXT NOT NULL"⟩, ⟨"command", "TEXT"⟩,
          ⟨"status", "TEXT DEFAULT 'queued'"⟩, ⟨"submitted_at", "TIMESTAMP NOT NULL"⟩,
          ⟨"dispatched_at", "TIMESTAMP"⟩, ⟨"dispatched_to_node", "TEXT"⟩]
      nodup := by decide
      rows :=
        [((((((Dict.set ∅ "job_id" (some "job-1")).set "image" (some "python")).set "command"
          none).set "status" (some "queued")).set "submitted_at" (some "2026-01-01")).set
          "dispatched_at" none).set "dispatched_to_node" none]
      keys_eq := by decide }

/-- Stopped after two of the columns that came later; the index on one of them is made when
`init_db` is run again. -/
theorem init_db_resumes_oldJobs :
    ∃ u d, Relation.ReflTransGen Attempt oldJobs u ∧
      u.tableColumns "jobs" = oldJobs.tableColumns "jobs" ++ ["run_id", "workload_type"] ∧
      initDb u = .ok d ∧ d.indexes.get? "idx_jobs_run" = some ("jobs", "run_id") ∧
      oldJobs.Extends d := by
  have hearlier : Earlier oldJobs := by
    intro table columns hmem t ht column hcolumn
    by_cases htable : table = "jobs"
    · subst htable
      obtain rfl := Option.some.inj ht
      obtain rfl := tables_distinct hmem (List.mem_of_getElem? (l := createTables) (i := 2) rfl)
      exact List.mem_map_of_mem hcolumn
    · have hnone : oldJobs.tables.get? table = none := Dict.get?_set_ne _ _ htable
      rw [hnone] at ht
      cases ht
  have hattempt : Attempt oldJobs _ := .columns (q := (addedColumns.take 2).map (.addColumn "jobs")) rfl
    ⟨(addedColumns.drop 2).map (.addColumn "jobs"), rfl⟩ rfl
  obtain ⟨d, -, hu, -, hcurrent, hextends, -⟩ := init_db_resumes hearlier (.single hattempt)
  have hindex := hcurrent.indexes _ _ _ (List.mem_of_getElem? (l := createIndexes) (i := 1) rfl)
  exact ⟨_, d, .single hattempt, rfl, hu, hindex, hextends⟩

end HeteroSched
