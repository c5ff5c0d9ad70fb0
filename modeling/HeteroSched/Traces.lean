/-
HeteroSched/Traces.lean

The jobs of an experiment, from `build_trace`, `load_trace` and `expand_trace` of
`experiments/run_experiment.py` and the defaults of `workloads/registry.py`.

Design.  Requirements are a dictionary until the scheduler reads them: the defaults of a
workload, updated with what the entry of the trace sets itself (`RequirementFields`).
The scheduler accepts a dictionary when each value in it is one its field takes, and
stores it when it also fits its column (`RequirementFields.Acceptable`).  An update with
acceptable values stays acceptable, so a trace whose entries are acceptable, be it read
from a file or made of the flags, is submitted without a refusal.  The default memory of
the memory workload goes through a float, which is exact for sizes up to 2^51.

The order of a shuffled trace is the one of `random.Random(seed).shuffle`, whatever the
generator draws.
-/
import HeteroSched.Agent
import HeteroSched.Harness
import HeteroSched.SubmitJob

namespace HeteroSched

/-! ### Requirements before they are read -/

/-- A dictionary of requirements; a key that is missing is `none`, and a null is
`some none`. -/
structure RequirementFields where
  workloadType : Option String := none
  cpuRequest : Option ℤ := none
  memoryMb : Option (Option ℤ) := none
  requiresGpu : Option Bool := none
  size : Option (Option ℤ) := none
  deriving DecidableEq

/-- The call `fields.update(other)`. -/
def RequirementFields.update (fields other : RequirementFields) : RequirementFields where
  workloadType := other.workloadType.or fields.workloadType
  cpuRequest := other.cpuRequest.or fields.cpuRequest
  memoryMb := other.memoryMb.or fields.memoryMb
  requiresGpu := other.requiresGpu.or fields.requiresGpu
  size := other.size.or fields.size

/-- The member of the enumeration with a value. -/
def WorkloadType.ofValue : String → Option WorkloadType
  | "cpu" => some .cpu
  | "memory" => some .memory
  | "io" => some .io
  | "gpu" => some .gpu
  | "mixed" => some .mixed
  | _ => none

/-- What the scheduler reads of the dictionary; `none` is the answer 422. -/
def JobRequirements.ofFields (fields : RequirementFields) : Option JobRequirements :=
  (match fields.workloadType with
    | some value => WorkloadType.ofValue value
    | none => some .mixed).bind fun workloadType =>
  let cpuRequest := fields.cpuRequest.getD 1
  let memoryMb := fields.memoryMb.getD none
  if h : 1 ≤ cpuRequest ∧ ∀ m ∈ memoryMb, 1 ≤ m then
    some
      { workloadType := workloadType
        cpuRequest := cpuRequest
        memoryMb := memoryMb
        requiresGpu := fields.requiresGpu.getD false
        size := fields.size.getD none
        cpuRequest_ge := h.1
        memoryMb_ge := h.2 }
  else none

/-! ### Workloads -/

/-- The default requirements for a job of a workload. -/
structure WorkloadDefaults where
  cpuRequest : ℤ
  memoryMb : ℤ
  requiresGpu : Bool

/-- The workloads of the registry with their default requirements. -/
def workloads : List (String × WorkloadDefaults) :=
  [("cpu", ⟨1, 256, false⟩), ("memory", ⟨1, 512, false⟩), ("io", ⟨1, 256, false⟩),
    ("gpu", ⟨1, 1024, true⟩)]

/-- The expression `', '.join(sorted(WORKLOADS))`. -/
def availableWorkloads : String :=
  ", ".intercalate ((workloads.map Prod.fst).insertionSort fun a b => a ≤ b)

/-- Default requirements for a job of this workload type and size. -/
def requirementsFor (workloadType : String) (size : ℤ) : Except String RequirementFields :=
  match workloads.lookup workloadType with
  | none => .error s!"Unknown workload: {workloadType}. Available: {availableWorkloads}"
  | some defaults =>
      -- memory scales with the working set of the memory workload
      let memoryMb :=
        if workloadType = "memory" then max defaults.memoryMb ((size * 3).tdiv 2 + 256)
        else defaults.memoryMb
      .ok
        { workloadType := some workloadType
          cpuRequest := some defaults.cpuRequest
          memoryMb := some (some memoryMb)
          requiresGpu := some defaults.requiresGpu }

/-! ### Traces -/

/-- An entry of a trace. -/
structure TraceEntry where
  workload : Option String := none
  size : Option ℤ := none
  image : Option String := none
  command : Option String := none
  requirements : Option RequirementFields := none
  count : Option ℤ := none
  delayBefore : Option ℚ := none

/-- A trace: its entries, and whether and how they are shuffled. -/
structure Trace where
  name : Option String := none
  jobs : List TraceEntry
  shuffle : Bool := false
  seed : Option ℤ := none

/-- What a trace file holds; the list of jobs may be missing. -/
structure TraceFile where
  name : Option String := none
  jobs : Option (List TraceEntry)
  shuffle : Bool := false
  seed : Option ℤ := none

/-- Read a trace file. -/
def loadTrace (path : String) (file : TraceFile) : Except String Trace :=
  match file.jobs with
  | none => .error s!"Trace {path} has no 'jobs' list"
  | some jobs => .ok ⟨file.name, jobs, file.shuffle, file.seed⟩

/-- The flags of the command line that say what to submit. -/
structure TraceArgs where
  trace : Option String := none
  jobs : ℤ := 16
  workload : Option String := none
  size : ℤ := 100
  image : String
  command : String := "sleep 2"
  interval : ℚ := 0

/-- A flag that was given, and not as an empty text. -/
def givenFlag (flag : Option String) : Option String := flag.filter fun text => text ≠ ""

/-- Trace from a file, or synthesised from the CLI flags. -/
def buildTrace (read : String → TraceFile) (args : TraceArgs) : Except String Trace :=
  match givenFlag args.trace, givenFlag args.workload with
  | some path, _ => loadTrace path (read path)
  | none, some workload => .ok
      { name := some ("cli-" ++ toString args.jobs ++ "x" ++ workload ++ toString args.size)
        jobs :=
          [{ workload := some workload
             size := some args.size
             count := some args.jobs
             delayBefore := some args.interval }] }
  | none, none => .ok
      { name := some ("cli-" ++ toString args.jobs ++ "x" ++ args.image)
        jobs :=
          [{ image := some args.image
             command := some args.command
             count := some args.jobs
             delayBefore := some args.interval }] }

/-- A generator of random numbers: `randbelow n` draws one of the numbers up to `n`. -/
structure Random where
  State : Type
  seeded : ℤ → State
  randbelow : (n : ℕ) → State → Fin (n + 1) × State

/-- Exchange each place, from `i` down, with one that is not above it. -/
def Random.shuffleFrom {α : Type*} (random : Random) : ℕ → List α → random.State → List α
  | 0, x, _ => x
  | i + 1, x, state =>
      let (j, state) := random.randbelow (i + 1) state
      random.shuffleFrom i (x.swap (i + 1) j) state

/-- The call `random.Random(seed).shuffle(x)`. -/
def Random.shuffle {α : Type*} (random : Random) (seed : ℤ) (x : List α) : List α :=
  random.shuffleFrom (x.length - 1) x (random.seeded seed)

/-- A job to submit. -/
structure JobSpec where
  image : String
  command : Option String
  requirements : RequirementFields
  delayBefore : ℚ
  deriving DecidableEq

/-- The job of an entry, of which the trace has as many as the entry counts. -/
def TraceEntry.job (entry : TraceEntry) (image : String) : Except String JobSpec := do
  let delayBefore := entry.delayBefore.getD 0
  match givenFlag entry.workload with
  | some workload =>
      let size := entry.size.getD 100
      let requirements ← requirementsFor workload size
      let requirements := { requirements with size := some (some size) }
      let command := (givenFlag entry.command).getD
        ("--type " ++ workload ++ " --size " ++ toString size)
      pure ⟨entry.image.getD image, some command,
        requirements.update (entry.requirements.getD {}), delayBefore⟩
  | none =>
      pure ⟨entry.image.getD image, entry.command,
        RequirementFields.update {} (entry.requirements.getD {}), delayBefore⟩

/-- How many jobs an entry stands for. -/
def TraceEntry.copies (entry : TraceEntry) : ℕ := (entry.count.getD 1).toNat

/-- Flatten a trace into the individual jobs to submit, in order. -/
def expandTrace (random : Random) (trace : Trace) (image : String) :
    Except String (List JobSpec) := do
  let jobs ← trace.jobs.mapM fun entry =>
    (entry.job image).map fun job => List.replicate entry.copies job
  let jobs := jobs.flatten
  pure (if trace.shuffle then random.shuffle (trace.seed.getD 0) jobs else jobs)

/-- What the scheduler reads of a job; `none` is the answer 422. -/
def JobSpec.accepted (job : JobSpec) : Option TraceJob :=
  (JobRequirements.ofFields job.requirements).map fun requirements =>
    ⟨job.image, job.command, requirements⟩

/-! ### What the scheduler accepts -/

/-- Every value of the dictionary is one its field takes, and the column of its field. -/
structure RequirementFields.Acceptable (fields : RequirementFields) : Prop where
  workload : ∀ value ∈ fields.workloadType, (WorkloadType.ofValue value).isSome
  cpu : ∀ cpuRequest ∈ fields.cpuRequest, 1 ≤ cpuRequest ∧ FitsInteger cpuRequest
  memory : ∀ memoryMb ∈ fields.memoryMb, ∀ m ∈ memoryMb, 1 ≤ m ∧ FitsInteger m
  size : ∀ size ∈ fields.size, ∀ n ∈ size, FitsInteger n

variable {fields other : RequirementFields} {entry : TraceEntry} {image : String}

/-- What is read of the dictionary is in it, or the default. -/
theorem JobRequirements.ofFields_eq_some {requirements : JobRequirements} :
    JobRequirements.ofFields fields = some requirements →
    WorkloadType.ofValue (fields.workloadType.getD "mixed") = some requirements.workloadType ∧
      fields.cpuRequest.getD 1 = requirements.cpuRequest ∧
      fields.memoryMb.getD none = requirements.memoryMb ∧
      fields.requiresGpu.getD false = requirements.requiresGpu ∧
      fields.size.getD none = requirements.size := by
  intro h
  obtain ⟨w, hw, hrest⟩ := Option.bind_eq_some_iff.mp h
  dsimp only at hrest
  split at hrest
  · obtain rfl := Option.some.inj hrest
    refine ⟨?_, rfl, rfl, rfl, rfl⟩
    rcases hfield : fields.workloadType with - | value
    · rw [hfield] at hw
      exact hw
    · rw [hfield] at hw
      exact hw
  · cases hrest

theorem RequirementFields.Acceptable.isSome (h : fields.Acceptable) :
    (JobRequirements.ofFields fields).isSome := by
  have hbounds : 1 ≤ fields.cpuRequest.getD 1 ∧ ∀ m ∈ fields.memoryMb.getD none, 1 ≤ m := by
    constructor
    · rcases hcpu : fields.cpuRequest with - | c
      · exact le_rfl
      · exact (h.cpu c hcpu).1
    · rcases hmemory : fields.memoryMb with - | m
      · exact fun _ hm => nomatch hm
      · exact fun n hn => (h.memory m hmemory n hn).1
  have hworkload : ∃ w, (match fields.workloadType with
      | some value => WorkloadType.ofValue value
      | none => some .mixed) = some w := by
    rcases hfield : fields.workloadType with - | value
    · exact ⟨.mixed, rfl⟩
    · exact Option.isSome_iff_exists.mp (h.workload value hfield)
  obtain ⟨w, hw⟩ := hworkload
  exact Option.isSome_iff_exists.mpr ⟨_, Option.bind_eq_some_iff.mpr ⟨w, hw, dif_pos hbounds⟩⟩

/-- And what is read of it fits the columns. -/
theorem RequirementFields.Acceptable.fits (h : fields.Acceptable) {requirements : JobRequirements}
    (hread : JobRequirements.ofFields fields = some requirements) :
    FitsInteger requirements.cpuRequest ∧ (∀ n ∈ requirements.memoryMb, FitsInteger n) ∧
      ∀ n ∈ requirements.size, FitsInteger n := by
  obtain ⟨-, hcpu, hmemory, -, hsize⟩ := JobRequirements.ofFields_eq_some hread
  refine ⟨?_, ?_, ?_⟩
  · rw [← hcpu]
    rcases hfield : fields.cpuRequest with - | c
    · decide
    · exact (h.cpu c hfield).2
  · rw [← hmemory]
    rcases hfield : fields.memoryMb with - | m
    · exact fun _ hn => nomatch hn
    · exact fun n hn => (h.memory m hfield n hn).2
  · rw [← hsize]
    rcases hfield : fields.size with - | size
    · exact fun _ hn => nomatch hn
    · exact h.size size hfield

theorem RequirementFields.acceptable_empty : RequirementFields.Acceptable {} :=
  ⟨nofun, nofun, nofun, nofun⟩

/-- Acceptable values stay acceptable under acceptable ones. -/
theorem RequirementFields.Acceptable.update (h : fields.Acceptable) (h' : other.Acceptable) :
    (fields.update other).Acceptable where
  workload := fun value hvalue => (Option.or_eq_some_iff.mp hvalue).elim (h'.workload value)
    fun hvalue => h.workload value hvalue.2
  cpu := fun c hc => (Option.or_eq_some_iff.mp hc).elim (h'.cpu c) fun hc => h.cpu c hc.2
  memory := fun m hm => (Option.or_eq_some_iff.mp hm).elim (h'.memory m) fun hm => h.memory m hm.2
  size := fun n hn => (Option.or_eq_some_iff.mp hn).elim (h'.size n) fun hn => h.size n hn.2

/-! ### What an entry asks for -/

/-- The memory a job of the workload gets unless its entry says otherwise, in MiB. -/
def defaultMemoryMb (size : ℤ) (workload : String) : ℤ :=
  if workload = "memory" then max 512 ((size * 3).tdiv 2 + 256)
  else if workload = "gpu" then 1024
  else 256

/-- The entry names a known workload, or none; its size is one whose half the floats of the
harness have exactly; and what it sets itself is acceptable. -/
structure TraceEntry.Acceptable (entry : TraceEntry) : Prop where
  workload : ∀ w, givenFlag entry.workload = some w → w ∈ workloads.map Prod.fst
  size : |entry.size.getD 100| ≤ 2 ^ 51
  requirements : (entry.requirements.getD {}).Acceptable

/-- The options of the container of a job of the harness. -/
def TraceJob.limits (job : TraceJob) (runId : RunId) (index : ℕ) (now dispatchedAt : Timestamp) :
    ContainerOptions :=
  containerLimits ((job.payload runId index now).assignment dispatchedAt)

/-- The job is the one of the entry: it runs the command of the entry in its image; a
requirement is what the entry sets itself, otherwise the default of its workload, and
without a workload that of the scheduler; and the container gets these requirements as
its limits. -/
structure TraceEntry.Asks (entry : TraceEntry) (image : String) (job : TraceJob) : Prop where
  image : job.image = entry.image.getD image
  command : job.command = match givenFlag entry.workload with
    | some w => some ((givenFlag entry.command).getD
        ("--type " ++ w ++ " --size " ++ toString (entry.size.getD 100)))
    | none => entry.command
  workloadType : WorkloadType.ofValue ((entry.requirements.getD {}).workloadType.getD
    ((givenFlag entry.workload).getD "mixed")) = some job.requirements.workloadType
  cpuRequest : job.requirements.cpuRequest = (entry.requirements.getD {}).cpuRequest.getD 1
  memoryMb : job.requirements.memoryMb = (entry.requirements.getD {}).memoryMb.getD
    ((givenFlag entry.workload).map (defaultMemoryMb (entry.size.getD 100)))
  requiresGpu : job.requirements.requiresGpu = (entry.requirements.getD {}).requiresGpu.getD
    (decide (givenFlag entry.workload = some "gpu"))
  size : job.requirements.size = (entry.requirements.getD {}).size.getD
    ((givenFlag entry.workload).map fun _ => entry.size.getD 100)
  limits : ∀ r i now d, (job.limits r i now d).cores = some (job.requirements.cpuRequest : ℚ) ∧
    (job.limits r i now d).memoryMb = job.requirements.memoryMb ∧
    ((job.limits r i now d).deviceRequests ≠ none ↔ job.requirements.requiresGpu = true)

/-- Half as much again, rounded towards zero. -/
theorem tdiv_le (size : ℤ) : (size * 3).tdiv 2 ≤ |size| * 2 := by
  have hself := le_abs_self size
  have hnonneg := abs_nonneg size
  calc (size * 3).tdiv 2 ≤ (|size| * 2 * 2).tdiv 2 := Int.tdiv_le_tdiv (by decide) (by omega)
    _ = |size| * 2 := Int.mul_tdiv_cancel _ (by decide)

/-- The memory workload has room for its working set, and 256 MiB besides. -/
theorem workingSet_le (size : ℤ) : size + 256 ≤ defaultMemoryMb size "memory" := by
  rw [defaultMemoryMb, if_pos rfl]
  rcases le_total size 256 with hsmall | hlarge
  · exact (by omega : size + 256 ≤ 512).trans (le_max_left _ _)
  · have hdiv : (size * 3).tdiv 2 = size * 3 / 2 := Int.tdiv_eq_ediv_of_nonneg (by omega)
    rw [hdiv]
    exact (by omega : size + 256 ≤ size * 3 / 2 + 256).trans (le_max_right _ _)

/-- What a job of a workload needs unless its entry says otherwise. -/
def workloadFields (w : String) (size : ℤ) : RequirementFields where
  workloadType := some w
  cpuRequest := some 1
  memoryMb := some (some (defaultMemoryMb size w))
  requiresGpu := some (decide (w = "gpu"))
  size := some (some size)

theorem requirementsFor_ok {w : String} (size : ℤ) (h : w ∈ workloads.map Prod.fst) :
    requirementsFor w size = .ok { workloadFields w size with size := none } := by
  simp only [workloads, List.map_cons, List.map_nil, List.mem_cons, List.not_mem_nil,
    or_false] at h
  rcases h with rfl | rfl | rfl | rfl <;> rfl

/-- The defaults of every workload are acceptable. -/
theorem workloadFields_acceptable {w : String} {size : ℤ} (h : w ∈ workloads.map Prod.fst)
    (hsize : |size| ≤ 2 ^ 51) : (workloadFields w size).Acceptable := by
  have htdiv := tdiv_le size
  have hbounds := abs_le.mp hsize
  have hworkload : ∀ w ∈ workloads.map Prod.fst, (WorkloadType.ofValue w).isSome := by
    decide
  have hmemory : 256 ≤ defaultMemoryMb size w ∧ defaultMemoryMb size w ≤ 2 ^ 53 := by
    unfold defaultMemoryMb
    split_ifs
    · refine ⟨(by decide : (256 : ℤ) ≤ 512).trans (le_max_left _ _), max_le (by decide) ?_⟩
      omega
    · decide
    · decide
  refine ⟨?_, ?_, ?_, ?_⟩
  · rintro _ ⟨⟩
    exact hworkload w h
  · rintro _ ⟨⟩
    decide
  · rintro _ ⟨⟩ m ⟨⟩
    exact ⟨by omega, by unfold FitsInteger; omega⟩
  · rintro _ ⟨⟩ n ⟨⟩
    unfold FitsInteger
    omega

/-- What the scheduler reads of a dictionary with defaults is what it sets, and the defaults
for the rest; and a container gets it. -/
theorem asks_of_fields {own base : RequirementFields} {job : TraceJob}
    (h : JobRequirements.ofFields (base.update own) = some job.requirements) :
    (WorkloadType.ofValue (own.workloadType.getD (base.workloadType.getD "mixed"))
        = some job.requirements.workloadType ∧
      job.requirements.cpuRequest = own.cpuRequest.getD (base.cpuRequest.getD 1) ∧
      job.requirements.memoryMb = own.memoryMb.getD (base.memoryMb.getD none) ∧
      job.requirements.requiresGpu = own.requiresGpu.getD (base.requiresGpu.getD false) ∧
      job.requirements.size = own.size.getD (base.size.getD none)) ∧
    ∀ r i now d, (job.limits r i now d).cores = some (job.requirements.cpuRequest : ℚ) ∧
      (job.limits r i now d).memoryMb = job.requirements.memoryMb ∧
      ((job.limits r i now d).deviceRequests ≠ none ↔ job.requirements.requiresGpu = true) := by
  obtain ⟨hworkload, hcpu, hmemory, hgpu, hsize⟩ := JobRequirements.ofFields_eq_some h
  simp only [RequirementFields.update, Option.getD_or] at hworkload hcpu hmemory hgpu hsize
  exact ⟨⟨hworkload, hcpu.symm, hmemory.symm, hgpu.symm, hsize.symm⟩, fun r i now d =>
    ⟨containerLimits_cores, containerLimits_memoryMb, containerLimits_deviceRequests⟩⟩

/-- The dictionary of an entry's job starts with the defaults of its workload, if it names
one. -/
def TraceEntry.base (entry : TraceEntry) : RequirementFields :=
  (givenFlag entry.workload).elim {} fun w => workloadFields w (entry.size.getD 100)

theorem TraceEntry.Acceptable.base (h : entry.Acceptable) : entry.base.Acceptable := by
  unfold TraceEntry.base
  rcases hw : givenFlag entry.workload with - | w
  · exact RequirementFields.acceptable_empty
  · exact workloadFields_acceptable (h.workload w hw) h.size

theorem TraceEntry.Acceptable.job_eq (h : entry.Acceptable) (image : String) :
    ∃ command, entry.job image = .ok ⟨entry.image.getD image, command,
        entry.base.update (entry.requirements.getD {}), entry.delayBefore.getD 0⟩ ∧
      command = match givenFlag entry.workload with
        | some w => some ((givenFlag entry.command).getD
            ("--type " ++ w ++ " --size " ++ toString (entry.size.getD 100)))
        | none => entry.command := by
  unfold TraceEntry.job TraceEntry.base
  rcases hw : givenFlag entry.workload with - | w
  · exact ⟨entry.command, rfl, rfl⟩
  · simp only [requirementsFor_ok (entry.size.getD 100) (h.workload w hw)]
    exact ⟨_, rfl, rfl⟩

/-- An acceptable entry asks for jobs that the scheduler reads, and whose values can be
stored. -/
theorem TraceEntry.Acceptable.job_accepted (h : entry.Acceptable) (image : String) :
    ∃ spec job, entry.job image = .ok spec ∧ spec.accepted = some job ∧ entry.Asks image job ∧
      ∀ r i now, Representable now → Scheduler.Storable (job.payload r i now) now := by
  obtain ⟨command, hjob, hcommand⟩ := h.job_eq image
  have hfields := h.base.update h.requirements
  obtain ⟨q, hq⟩ := Option.isSome_iff_exists.mp hfields.isSome
  let job : TraceJob := ⟨entry.image.getD image, command, q⟩
  obtain ⟨⟨hworkload, hcpu, hmemory, hgpu, hsize⟩, hlimits⟩ := @asks_of_fields _ _ job hq
  refine ⟨_, job, hjob, congrArg (Option.map _) hq, ?_, fun r i now hnow => ⟨hnow, hfields.fits hq⟩⟩
  -- the defaults of the entry, key by key
  have hbase : entry.base.workloadType.getD "mixed" = (givenFlag entry.workload).getD "mixed" ∧
      entry.base.cpuRequest.getD 1 = 1 ∧
      entry.base.memoryMb.getD none
        = (givenFlag entry.workload).map (defaultMemoryMb (entry.size.getD 100)) ∧
      entry.base.requiresGpu.getD false = decide (givenFlag entry.workload = some "gpu") ∧
      entry.base.size.getD none = (givenFlag entry.workload).map fun _ => entry.size.getD 100 := by
    unfold TraceEntry.base
    rcases givenFlag entry.workload with - | w
    · exact ⟨rfl, rfl, rfl, rfl, rfl⟩
    · exact ⟨rfl, rfl, rfl, by simp [workloadFields], rfl⟩
  obtain ⟨hworkload', hcpu', hmemory', hgpu', hsize'⟩ := hbase
  rw [hworkload'] at hworkload
  rw [hcpu'] at hcpu
  rw [hmemory'] at hmemory
  rw [hgpu'] at hgpu
  rw [hsize'] at hsize
  exact ⟨rfl, hcommand, hworkload, hcpu, hmemory, hgpu, hsize, hlimits⟩

/-! ### The whole trace -/

section Shuffle

variable {α : Type*}

theorem Random.shuffleFrom_perm (random : Random) (i : ℕ) (x : List α) (state : random.State) :
    (random.shuffleFrom i x state).Perm x := by
  induction i generalizing x state with
  | zero => exact List.Perm.refl x
  | succ i ih =>
      rw [Random.shuffleFrom]
      exact (ih _ _).trans (List.swap_perm x _ _)

theorem Random.shuffle_perm (random : Random) (seed : ℤ) (x : List α) :
    (random.shuffle seed x).Perm x :=
  random.shuffleFrom_perm _ x _

end Shuffle

/-- The lists of an entry each are made, when the job of each is. -/
theorem mapM_copies {entries : List TraceEntry} {spec : TraceEntry → JobSpec}
    (h : ∀ entry ∈ entries, entry.job image = .ok (spec entry)) :
    (entries.mapM fun entry =>
        (entry.job image).map fun job => List.replicate entry.copies job)
      = .ok (entries.map fun entry => List.replicate entry.copies (spec entry)) := by
  induction entries with
  | nil => rfl
  | cons entry entries ih =>
      obtain ⟨hentry, hentries⟩ := List.forall_mem_cons.mp h
      rw [List.mapM_cons, hentry, ih hentries]
      rfl

theorem expandTrace_ok (random : Random) {trace : Trace} {spec : TraceEntry → JobSpec}
    (h : ∀ entry ∈ trace.jobs, entry.job image = .ok (spec entry)) :
    let jobs := trace.jobs.flatMap fun entry => List.replicate entry.copies (spec entry)
    expandTrace random trace image =
      .ok (if trace.shuffle then random.shuffle (trace.seed.getD 0) jobs else jobs) := by
  rw [expandTrace, mapM_copies h, List.flatMap_def]
  rfl

theorem mapM_accepted {specs : List JobSpec} {read : JobSpec → TraceJob}
    (h : ∀ spec ∈ specs, spec.accepted = some (read spec)) :
    specs.mapM JobSpec.accepted = some (specs.map read) := by
  induction specs with
  | nil => rfl
  | cons spec specs ih =>
      obtain ⟨hspec, hspecs⟩ := List.forall_mem_cons.mp h
      rw [List.mapM_cons, hspec, ih hspecs]
      rfl

/-- When the job of every entry is made and read, so is the whole trace, and shuffling only
changes the order. -/
theorem expandTrace_read (random : Random) {trace : Trace} {spec : TraceEntry → JobSpec}
    {job : TraceEntry → TraceJob}
    (hspec : ∀ entry ∈ trace.jobs, entry.job image = .ok (spec entry))
    (hread : ∀ entry ∈ trace.jobs, (spec entry).accepted = some (job entry)) :
    ∃ specs jobs, expandTrace random trace image = .ok specs ∧
      specs.mapM JobSpec.accepted = some jobs ∧
      jobs.Perm (trace.jobs.flatMap fun entry => List.replicate entry.copies (job entry)) ∧
      (trace.shuffle = false →
        jobs = trace.jobs.flatMap fun entry => List.replicate entry.copies (job entry)) := by
  let read : JobSpec → TraceJob := fun spec => spec.accepted.getD ⟨"", none, {}⟩
  have hjob : ∀ entry ∈ trace.jobs, read (spec entry) = job entry := fun entry hentry =>
    congrArg (Option.getD · _) (hread entry hentry)
  let specs := trace.jobs.flatMap fun entry => List.replicate entry.copies (spec entry)
  let ordered := if trace.shuffle then random.shuffle (trace.seed.getD 0) specs else specs
  have hperm : ordered.Perm specs := by
    show (if trace.shuffle then random.shuffle (trace.seed.getD 0) specs else specs).Perm specs
    split
    · exact random.shuffle_perm _ _
    · exact List.Perm.refl _
  have hall : ∀ s ∈ ordered, s.accepted = some (read s) := by
    intro s hs
    obtain ⟨entry, hentry, hcopy⟩ := List.mem_flatMap.mp (hperm.mem_iff.mp hs)
    obtain rfl := List.eq_of_mem_replicate hcopy
    rw [hjob entry hentry]
    exact hread entry hentry
  have hmap : specs.map read =
      trace.jobs.flatMap fun entry => List.replicate entry.copies (job entry) := by
    rw [List.map_flatMap]
    refine List.flatMap_congr fun entry hentry => ?_
    rw [List.map_replicate, hjob entry hentry]
  refine ⟨ordered, ordered.map read, expandTrace_ok random hspec, mapM_accepted hall,
    hmap ▸ hperm.map read, fun hshuffle => ?_⟩
  have hsame : ordered = specs := if_neg (by rw [hshuffle]; exact Bool.false_ne_true)
  rw [hsame, hmap]

/-- Flags without a trace file ask for as many jobs as they say. -/
theorem buildTrace_flags {read : String → TraceFile} {args : TraceArgs} {trace : Trace}
    (h : buildTrace read args = .ok trace) (hflags : givenFlag args.trace = none) :
    ∃ entry, trace.jobs = [entry] ∧ entry.copies = args.jobs.toNat := by
  unfold buildTrace at h
  rw [hflags] at h
  rcases hworkload : givenFlag args.workload with - | w
  · rw [hworkload] at h
    obtain rfl := Except.ok.inj h
    exact ⟨_, rfl, rfl⟩
  · rw [hworkload] at h
    obtain rfl := Except.ok.inj h
    exact ⟨_, rfl, rfl⟩

/-- **A trace of acceptable entries is submitted as it is written**, whether it is read from
a file or made of the flags: the scheduler accepts every job, under an id that has no row,
shuffled or not there are as many jobs of each entry as it counts, and each is the one its
entry asks for. -/
theorem expand_trace_accepted {P : PolicyRegistry} (random : Random) {read : String → TraceFile}
    {args : TraceArgs} {trace : Trace} (hbuild : buildTrace read args = .ok trace)
    (hentries : ∀ entry ∈ trace.jobs, entry.Acceptable) :
    ∃ (specs : List JobSpec) (jobs : List TraceJob) (job : TraceEntry → TraceJob),
      expandTrace random trace args.image = .ok specs ∧
      specs.mapM JobSpec.accepted = some jobs ∧
      (∀ job ∈ jobs, ∀ (s : Scheduler P) (runId : RunId) (index : ℕ) (now : Timestamp),
        Representable now → harnessJobId runId index ∉ s.db.jobs →
        (s.submitJob (job.payload runId index now) now).1 = true) ∧
      jobs.Perm (trace.jobs.flatMap fun entry => List.replicate entry.copies (job entry)) ∧
      (trace.shuffle = false →
        jobs = trace.jobs.flatMap fun entry => List.replicate entry.copies (job entry)) ∧
      (givenFlag args.trace = none → jobs.length = args.jobs.toNat) ∧
      ∀ entry ∈ trace.jobs, entry.Asks args.image (job entry) := by
  have hjob : ∀ entry : TraceEntry, ∃ (spec : JobSpec) (job : TraceJob), entry ∈ trace.jobs →
      entry.job args.image = .ok spec ∧ spec.accepted = some job ∧ entry.Asks args.image job ∧
        ∀ r i now, Representable now → Scheduler.Storable (job.payload r i now) now := by
    intro entry
    by_cases hentry : entry ∈ trace.jobs
    · obtain ⟨spec, job, hspec⟩ := (hentries entry hentry).job_accepted args.image
      exact ⟨spec, job, fun _ => hspec⟩
    · exact ⟨⟨"", none, {}, 0⟩, ⟨"", none, {}⟩, fun h => absurd h hentry⟩
  choose spec job hspec using hjob
  obtain ⟨specs, jobs, hexpand, hread, hperm, hordered⟩ := expandTrace_read random
    (fun entry hentry => (hspec entry hentry).1) fun entry hentry => (hspec entry hentry).2.1
  refine ⟨specs, jobs, job, hexpand, hread, ?_, hperm, hordered, fun hflags => ?_,
    fun entry hentry => (hspec entry hentry).2.2.1⟩
  · intro job' hjob' s runId index now hnow hnew
    obtain ⟨entry, hentry, hcopy⟩ := List.mem_flatMap.mp (hperm.mem_iff.mp hjob')
    obtain rfl := List.eq_of_mem_replicate hcopy
    exact (Scheduler.submitJob_returns_iff _ _ _).mpr
      ⟨(hspec entry hentry).2.2.2 runId index now hnow, hnew⟩
  · obtain ⟨entry, hone, hcopies⟩ := buildTrace_flags hbuild hflags
    rw [hperm.length_eq, hone, List.flatMap_cons, List.flatMap_nil, List.append_nil,
      List.length_replicate, hcopies]

/-- Two jobs of the memory workload, and one with an image and a core more, shuffled. -/
def memoryTrace : TraceFile where
  jobs := some
    [{ workload := some "memory", size := some 1000, count := some 2 },
      { image := some "alpine", command := some "sleep 2",
        requirements := some { cpuRequest := some 2 } }]
  shuffle := true

/-- A memory job may use 1756 MiB, and the other one two cores. -/
theorem expand_trace_accepted_memory :
    ∃ (trace : Trace) (specs : List JobSpec) (jobs : List TraceJob),
      buildTrace (fun _ => memoryTrace) { trace := some "memory.json", image := "workload" }
        = .ok trace ∧
      expandTrace ⟨Unit, fun _ => (), fun _ _ => (0, ())⟩ trace "workload" = .ok specs ∧
      specs.mapM JobSpec.accepted = some jobs ∧ jobs.length = 3 ∧
      (∃ job ∈ jobs, job.command = some "--type memory --size 1000" ∧
        ∀ r i now d, (job.limits r i now d).memoryMb = some 1756) ∧
      ∃ job ∈ jobs, job.image = "alpine" ∧ ∀ r i now d, (job.limits r i now d).cores = some 2 := by
  have hbuild : buildTrace (fun _ => memoryTrace)
      { trace := some "memory.json", image := "workload" }
      = .ok ⟨none, memoryTrace.jobs.getD [], true, none⟩ := rfl
  obtain ⟨specs, jobs, job, hexpand, haccepted, -, hperm, -, -, hasks⟩ :=
    @expand_trace_accepted policies ⟨Unit, fun _ => (), fun _ _ => (0, ())⟩ _ _ _ hbuild (by
      intro entry hentry
      simp only [memoryTrace, Option.getD_some, List.mem_cons, List.not_mem_nil, or_false] at hentry
      rcases hentry with rfl | rfl
      · exact ⟨by decide, by decide, RequirementFields.acceptable_empty⟩
      · exact ⟨by decide, by decide, nofun, by rintro _ ⟨⟩; decide, nofun, nofun⟩)
  refine ⟨_, specs, jobs, hbuild, hexpand, haccepted, hperm.length_eq, ?_, ?_⟩
  · have hjob := hasks _ List.mem_cons_self
    refine ⟨_, hperm.mem_iff.mpr List.mem_cons_self, hjob.command, fun r i now d => ?_⟩
    rw [(hjob.limits r i now d).2.1, hjob.memoryMb]
    rfl
  · have hjob := hasks _ (List.mem_cons_of_mem _ List.mem_cons_self)
    refine ⟨_, hperm.mem_iff.mpr (List.mem_append_right _ List.mem_cons_self), hjob.image,
      fun r i now d => ?_⟩
    rw [(hjob.limits r i now d).1, hjob.cpuRequest]
    rfl

end HeteroSched
