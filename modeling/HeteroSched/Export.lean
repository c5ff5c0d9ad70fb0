/-
HeteroSched/Export.lean

The files of a recorded run, from `experiments/export.py`.

Design.  A row that is exported is a dictionary of values under the names of its
columns, and `csv.DictWriter` writes the text of each value in the order of the
header.  A value that is missing is written as an empty cell.  How Python writes a
float is a parameter (`floatText`); what is proved holds for any.

The writer loses nothing (`Csv.read_writeRows`), so what a reader has to know is that
the header has the names of the rows, in their order: then the dictionaries that are
read are the dictionaries that were written (`readDicts_writeCsv`).
-/
import HeteroSched.Lib.Csv
import HeteroSched.Margins
import HeteroSched.Queries
import HeteroSched.TimeUtils

namespace HeteroSched

/-! ### Cells -/

/-- A value of an exported row. -/
inductive Cell
  | none
  | text (s : String)
  | int (n : ℤ)
  | float (q : ℚ)
  | bool (b : Bool)
  deriving DecidableEq

/-- A value that may be missing. -/
def Cell.ofOption {α : Type} (f : α → Cell) : Option α → Cell
  | some a => f a
  | Option.none => .none

/-- The text the writer puts in the file. -/
def Cell.write (floatText : ℚ → String) : Cell → String
  | .none => ""
  | .text s => s
  | .int n => toString n
  | .float q => floatText q
  | .bool b => if b then "True" else "False"

/-- A row as a dictionary, in the order of its entries. -/
abbrev RowDict := List (String × Cell)

/-! ### Rows -/

/-- The columns of the file of jobs. -/
def jobColumns : List String :=
  ["job_id", "image", "command", "status", "node_id",
    "workload_type", "job_size", "cpu_request", "memory_mb",
    "submitted_at", "dispatched_at", "completed_at",
    "queue_wait_s", "runtime_s", "turnaround_s", "overhead_s",
    "success", "exit_code"]

/-- The columns of the file of nodes. -/
def nodeColumns : List String :=
  ["node_id", "cpus", "jobs", "jobs_per_cpu", "successful", "failed",
    "busy_time_s", "mean_runtime_s", "utilisation"]

/-- The dictionary that `job_rows` builds for a job. -/
def JobRecord.rowDict (r : JobRecord) : RowDict :=
  [("job_id", .text r.jobId),
    ("image", .text r.image),
    ("command", .ofOption .text r.command),
    ("status", .text r.status),
    ("node_id", .ofOption .text r.nodeId),
    ("workload_type", .ofOption .text r.workloadType),
    ("job_size", .ofOption .int r.jobSize),
    ("cpu_request", .ofOption .int r.cpuRequest),
    ("memory_mb", .ofOption .int r.memoryMb),
    ("submitted_at", .ofOption (fun t => .text (isoText t)) r.submittedAt),
    ("dispatched_at", .ofOption (fun t => .text (isoText t)) r.dispatchedAt),
    ("completed_at", .ofOption (fun t => .text (isoText t)) r.completedAt),
    ("queue_wait_s", .ofOption .float r.queueWaitS),
    ("runtime_s", .ofOption .float r.runtimeS),
    ("turnaround_s", .ofOption .float r.turnaroundS),
    ("overhead_s", .ofOption .float r.overheadS),
    ("success", .ofOption .bool r.success),
    ("exit_code", .ofOption .int r.exitCode)]

/-- The dictionary that `node_rows` builds for a node. -/
def NodeStats.rowDict (n : NodeStats) : RowDict :=
  [("node_id", .text n.nodeId),
    ("cpus", .int n.cpus),
    ("jobs", .int n.jobs),
    ("jobs_per_cpu", .ofOption .float n.jobsPerCpu),
    ("successful", .int n.successful),
    ("failed", .int n.failed),
    -- the sum of no runtimes is the integer 0
    ("busy_time_s", if n.meanRuntimeS = none then .int 0 else .float n.busyTimeS),
    ("mean_runtime_s", .ofOption .float n.meanRuntimeS),
    ("utilisation", .ofOption .float n.utilisation)]

/-! ### Files -/

variable (floatText : ℚ → String)

/-- The list of values `DictWriter` writes: those of the columns, an empty one for a
column the row does not have; other entries are ignored. -/
def dictToList (columns : List String) (row : RowDict) : List String :=
  columns.map fun key => ((row.lookup key).map (Cell.write floatText)).getD ""

/-- The text of a file: the header, then the rows. -/
def writeCsv (columns : List String) (rows : List RowDict) : String :=
  String.ofList (Csv.writeRows Csv.excel
    ((columns :: rows.map (dictToList floatText columns)).map fun row => row.map String.toList))

/-- What `os.path.join` makes of a directory and a name. -/
def joinPath (dir name : String) : String :=
  if name.startsWith "/" then name
  else if dir = "" ∨ dir.endsWith "/" then dir ++ name
  else dir ++ "/" ++ name

/-- The files of an export, each with its path, and the summary that is returned. -/
structure ExportFiles where
  jobs : String × String
  nodes : String × String
  summary : Summary

/-- Write the per-job file and the per-node file of one run, beside its summary. -/
def writeExport (run : RunInfo) (jobs : List RunJob) (outDir : String) : ExportFiles :=
  let summary := summarise run jobs
  let stem := joinPath outDir (run.policy ++ "_" ++ run.runId)
  { jobs := (stem ++ "_jobs.csv",
      writeCsv floatText jobColumns ((jobRows jobs).map JobRecord.rowDict))
    nodes := (stem ++ "_nodes.csv",
      writeCsv floatText nodeColumns (summary.nodesDetail.map NodeStats.rowDict))
    summary := summary }

/-- Export a run from the database; the error is the text of `SystemExit`. -/
def exportRun (db : Database) (runId : RunId) (outDir : String) : Except String ExportFiles :=
  match db.getRun runId with
  | none => .error ("Unknown run: " ++ runId)
  | some run => .ok (writeExport floatText run (db.getRunJobs runId) outDir)

/-! ### Reading a file back -/

/-- The rows of a file, as lists of texts. -/
def readCsv (file : String) : List (List String) :=
  (Csv.read Csv.excel file.toList).map fun row => row.map String.ofList

/-- The rows of a file under the names of its header, as `csv.DictReader` gives
them; blank lines are skipped. -/
def readDicts (file : String) : List (List (String × String)) :=
  match readCsv file with
  | [] => []
  | header :: rows => (rows.filter fun row => row ≠ []).map header.zip

/-- The texts of a row, as they are written. -/
def rowTexts (row : RowDict) : List (String × String) :=
  row.map fun e => (e.1, e.2.write floatText)

variable {floatText}

theorem readCsv_writeCsv (columns : List String) (rows : List RowDict) :
    readCsv (writeCsv floatText columns rows)
      = columns :: rows.map (dictToList floatText columns) := by
  have hback : ∀ row : List String, (row.map String.toList).map String.ofList = row := by
    intro row
    rw [List.map_map]
    exact List.map_id'' (fun s => String.ofList_toList) row
  rw [readCsv, writeCsv, String.toList_ofList, Csv.read_writeRows, List.map_map]
  exact List.map_id'' hback _

/-- A row whose names are the header, each once, is written whole. -/
theorem dictToList_self {row : RowDict} (hnodup : (row.map Prod.fst).Nodup) :
    dictToList floatText (row.map Prod.fst) row = row.map fun e => e.2.write floatText := by
  rw [dictToList, List.map_map]
  refine List.map_congr_left fun e he => ?_
  have hget : row.lookup e.1 = some e.2 :=
    (Dict.get?_eq_some_iff (d := ⟨row, hnodup⟩)).mpr he
  show ((row.lookup e.1).map (Cell.write floatText)).getD "" = e.2.write floatText
  rw [hget]
  rfl

/-- So it is read back with the names it was written under. -/
theorem readDicts_writeCsv {columns : List String} {rows : List RowDict} (hne : columns ≠ [])
    (hnodup : columns.Nodup) (h : ∀ row ∈ rows, row.map Prod.fst = columns) :
    readDicts (writeCsv floatText columns rows) = rows.map (rowTexts floatText) := by
  have hread : ∀ row ∈ rows, columns.zip (dictToList floatText columns row)
      = rowTexts floatText row := by
    intro row hrow
    have hkeys := h row hrow
    have hself : dictToList floatText (row.map Prod.fst) row = _ :=
      dictToList_self (by rw [hkeys]; exact hnodup)
    rw [← hkeys, hself, List.zip_map']
    rfl
  have hnonempty : ∀ row ∈ rows.map (dictToList floatText columns), decide (row ≠ []) = true := by
    intro texts htexts
    obtain ⟨row, -, rfl⟩ := List.mem_map.mp htexts
    rw [decide_eq_true_eq, dictToList]
    exact mt List.map_eq_nil_iff.mp hne
  rw [readDicts, readCsv_writeCsv]
  show (List.filter _ (rows.map (dictToList floatText columns))).map columns.zip = _
  rw [List.filter_eq_self.mpr hnonempty, List.map_map]
  exact List.map_congr_left hread

/-! ### The files of a run -/

theorem JobRecord.rowDict_keys (r : JobRecord) : r.rowDict.map Prod.fst = jobColumns := rfl

theorem NodeStats.rowDict_keys (n : NodeStats) : n.rowDict.map Prod.fst = nodeColumns := rfl

theorem lookup_rowTexts (row : RowDict) (k : String) :
    (rowTexts floatText row).lookup k = (row.lookup k).map (Cell.write floatText) := by
  induction row with
  | nil => rfl
  | cons e row ih =>
      obtain ⟨k', v⟩ := e
      show List.lookup k ((k', v.write floatText) :: rowTexts floatText row) = _
      rw [List.lookup_cons, List.lookup_cons, ih]
      split <;> rfl

theorem JobRecord.lookup_status (r : JobRecord) :
    (rowTexts floatText r.rowDict).lookup "status" = some r.status := by
  rw [lookup_rowTexts]
  rfl

/-- The cell of the node is empty for a job without one. -/
theorem JobRecord.lookup_nodeId (r : JobRecord) :
    (rowTexts floatText r.rowDict).lookup "node_id" = some (r.nodeId.getD "") := by
  rw [lookup_rowTexts]
  rcases h : r.nodeId with - | n
  · simp [JobRecord.rowDict, List.lookup, h, Cell.ofOption, Cell.write]
  · simp [JobRecord.rowDict, List.lookup, h, Cell.ofOption, Cell.write]

theorem NodeStats.lookup_nodeId (n : NodeStats) :
    (rowTexts floatText n.rowDict).lookup "node_id" = some n.nodeId := by
  rw [lookup_rowTexts]
  rfl

theorem NodeStats.lookup_jobs (n : NodeStats) :
    (rowTexts floatText n.rowDict).lookup "jobs" = some (toString n.jobs) := by
  rw [lookup_rowTexts]
  rfl

/-- A name that is not empty is in the cell of exactly the rows of that node. -/
theorem JobRecord.lookup_nodeId_iff (r : JobRecord) {n : NodeId} (hn : n ≠ "") :
    (rowTexts floatText r.rowDict).lookup "node_id" = some n ↔ r.nodeId = some n := by
  rw [lookup_nodeId, Option.some_inj]
  rcases r.nodeId with - | n'
  · exact iff_of_false (Ne.symm hn) nofun
  · exact Option.some_inj.symm

section

variable {db : Database} {runId : RunId} {run : RunInfo}

/-- Whoever reads the two files of an exported run finds the rows that were written,
text by text: one for each job the progress of the run counts, by status as the
database has them, and one for each node, those of the snapshot included.  The files
agree: a job names a node of the other file, which gives the number of such jobs. -/
theorem export_reads_back (h : db.getRun runId = some run) (outDir : String) :
    ∃ files, exportRun floatText db runId outDir = .ok files ∧
      let jobs := readDicts files.jobs.2
      let nodes := readDicts files.nodes.2
      jobs = (db.getRunJobs runId).map (fun job =>
        rowTexts floatText (jobRecord job).rowDict) ∧
      nodes = (summarise run (db.getRunJobs runId)).nodesDetail.map (fun node =>
        rowTexts floatText node.rowDict) ∧
      jobs.length = (db.getRunProgress runId).total ∧
      (∀ status, jobs.countP (fun row => row.lookup "status" = some status)
        = (db.runJobs runId).countP fun row => row.status = status) ∧
      (nodes.map fun row => row.lookup "node_id").Nodup ∧
      (∀ n ∈ run.clusterSnapshot.getD [],
        some n.nodeId ∈ nodes.map fun row => row.lookup "node_id") ∧
      (∀ row ∈ jobs, ∀ n, row.lookup "node_id" = some n → n ≠ "" →
        some n ∈ nodes.map fun row => row.lookup "node_id") ∧
      ∀ row ∈ nodes, ∀ n, row.lookup "node_id" = some n → n ≠ "" →
        row.lookup "jobs"
          = some (toString (jobs.countP fun row => row.lookup "node_id" = some n)) := by
  have hexport : exportRun floatText db runId outDir
      = .ok (writeExport floatText run (db.getRunJobs runId) outDir) := by
    rw [exportRun, h]
  refine ⟨_, hexport, ?_⟩
  intro jobs nodes
  -- the two files, row by row
  have hjobs : jobs = (jobRows (db.getRunJobs runId)).map fun r => rowTexts floatText r.rowDict := by
    have hread : readDicts (writeCsv floatText jobColumns
        ((jobRows (db.getRunJobs runId)).map JobRecord.rowDict)) = _ :=
      readDicts_writeCsv (by decide) (by decide) (List.forall_mem_map.mpr fun r _ => r.rowDict_keys)
    rw [List.map_map] at hread
    exact hread
  have hnodes : nodes = (summarise run (db.getRunJobs runId)).nodesDetail.map fun node =>
      rowTexts floatText node.rowDict := by
    have hread : readDicts (writeCsv floatText nodeColumns
        ((summarise run (db.getRunJobs runId)).nodesDetail.map NodeStats.rowDict)) = _ :=
      readDicts_writeCsv (by decide) (by decide) (List.forall_mem_map.mpr fun n _ => n.rowDict_keys)
    rw [List.map_map] at hread
    exact hread
  have hids : (nodes.map fun row => row.lookup "node_id")
      = (nodeIds (jobRows (db.getRunJobs runId)) (run.clusterSnapshot.getD [])).map some := by
    rw [hnodes, List.map_map]
    show (nodeRows _ _ _).map _ = _
    rw [nodeRows_eq, List.map_map]
    exact List.map_congr_left fun n _ => NodeStats.lookup_nodeId _
  refine ⟨?_, hnodes, ?_, fun status => ?_, ?_, fun n hn => ?_, fun row hrow n hn hne => ?_,
    fun row hrow n hn hne => ?_⟩
  · rw [hjobs, jobRows, List.map_map]
    rfl
  · rw [hjobs, List.length_map, jobRows, List.length_map, Database.length_getRunJobs]
    rfl
  · rw [hjobs, List.countP_map, jobRows, List.countP_map, ← Database.countP_status_getRunJobs]
    refine List.countP_congr fun job _ => ?_
    simp only [Function.comp_apply, JobRecord.lookup_status, Option.some_inj]
    rfl
  · rw [hids]
    exact (nodup_nodeIds _ _).map (Option.some_injective _)
  · rw [hids]
    exact List.mem_map_of_mem ((mem_nodeIds _ _ n.nodeId).mpr (.inl (List.mem_map_of_mem hn)))
  · rw [hjobs] at hrow
    obtain ⟨r, hr, rfl⟩ := List.mem_map.mp hrow
    have hnode := (r.lookup_nodeId_iff hne).mp hn
    rw [hids]
    exact List.mem_map_of_mem ((mem_nodeIds _ _ n).mpr (.inr ⟨r, hr, hnode⟩))
  · rw [hnodes] at hrow
    obtain ⟨node, hmem, rfl⟩ := List.mem_map.mp hrow
    rw [NodeStats.lookup_nodeId, Option.some_inj] at hn
    subst hn
    have hcount : node.jobs
        = (rowsOf (jobRows (db.getRunJobs runId)) node.nodeId).length := by
      rw [mem_nodeRows hmem]
      rfl
    rw [NodeStats.lookup_jobs, hcount, hjobs, List.countP_map, rowsOf,
      ← List.countP_eq_length_filter]
    refine congrArg (fun k : ℕ => some (toString k)) (List.countP_congr fun r _ => ?_)
    simp only [Function.comp_apply, decide_eq_true_eq, r.lookup_nodeId_iff hne]

end

/-- A run on two nodes, with a job whose image has a comma and a quote in its name, and which
is dispatched to the first of them. -/
def quotedRun : Database :=
  let started := Database.startRun {} "r" "round_robin" none none
    (some [⟨"m", "g", 2, 2, 1024, "x86_64", true⟩, ⟨"n", "h", 1, 1, 512, "arm", false⟩]) none 0
  let submitted := started.bind fun db =>
    db.submitJob "j" "a,\"b\"" none (some "r") (some 5) none 5
  (submitted.getD {}).dispatchJob "j" "m" (some 6) 6

theorem export_reads_back_quoted :
    ∃ files, exportRun (fun q => toString q.num ++ ".0") quotedRun "r" "results" = .ok files ∧
      (readDicts files.jobs.2).map (fun row => (row.lookup "image", row.lookup "node_id"))
        = [(some "a,\"b\"", some "m")] ∧
      (readDicts files.nodes.2).map (fun row => row.lookup "node_id") = [some "m", some "n"] ∧
      ∀ row ∈ readDicts files.nodes.2, row.lookup "node_id" = some "m" →
        row.lookup "jobs" = some "1" := by
  have h : quotedRun.getRun "r" = some _ := rfl
  obtain ⟨files, hfiles, hjobs, hnodes, -, -, -, -, -, hcounts⟩ :=
    @export_reads_back (fun q => toString q.num ++ ".0") quotedRun "r" _ h "results"
  refine ⟨files, hfiles, ?_, ?_, fun row hrow hm => ?_⟩
  · rw [hjobs]
    decide +kernel
  · rw [hnodes]
    decide +kernel
  · rw [hcounts row hrow "m" hm (by decide), hjobs]
    decide +kernel

end HeteroSched
