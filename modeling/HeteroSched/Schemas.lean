/-
HeteroSched/Schemas.lean

The messages of the system, from `shared/schemas.py`: what agents report about
their nodes, what clients submit, what agents report back.

The bounds that pydantic enforces on a message (`Field(ge=1)`) are fields of the
structure, so a request that breaks them cannot be built, as it cannot enter
the scheduler.  A field without such a bound in the source has none here:
`cpus` and `memoryMb` of a node are arbitrary integers.

Loads and clock readings are exact rationals, stored timestamps are integers
(microseconds of UTC, the resolution of `datetime`).
-/
import HeteroSched.Lib.Dict

namespace HeteroSched

/-- The id of a node, which its agent chooses. -/
abbrev NodeId := String

/-- The id of a job, which its client chooses. -/
abbrev JobId := String

/-- The id of a run. -/
abbrev RunId := String

/-- A `datetime` as the UTC instant it denotes, in microseconds from the start of the
year 1. -/
abbrev Timestamp := ℤ

/-- The days of the years 1 to 9999. -/
def maxDays : ℕ := 3652059

/-- The microseconds of the years 1 to 9999. -/
def maxClock : ℕ := maxDays * 24 * 60 * 60 * 1000000

/-- The instant lies in the years 1 to 9999 of UTC: others are refused by
`to_iso`. -/
def Representable (t : Timestamp) : Prop := 0 ≤ t ∧ t < maxClock

instance (t : Timestamp) : Decidable (Representable t) := inferInstanceAs (Decidable (_ ∧ _))

/-! ### Nodes -/

/-- What a node has, as its benchmark found it. -/
structure NodeCapabilities where
  cpus : ℤ
  physicalCores : ℤ
  memoryMb : ℤ
  gpu : Bool
  architecture : String
  deriving DecidableEq, Repr

/-- The benchmark sections of a profile are stored and never read, so only the
capabilities are kept. -/
structure NodeProfile where
  capabilities : NodeCapabilities
  deriving DecidableEq, Repr

/-- The sign of life of an agent, with the load of its host. -/
structure NodeHeartbeat where
  nodeId : NodeId
  currentLoad : ℚ
  deriving DecidableEq, Repr

/-- What an agent says of its node when it starts. -/
structure NodeRegistration where
  nodeId : NodeId
  hostname : String
  agentUrl : String
  profile : NodeProfile
  deriving DecidableEq, Repr

/-- What a policy is shown of a node. -/
structure NodeView where
  nodeId : NodeId
  hostname : String
  agentUrl : String
  profile : NodeProfile
  currentLoad : ℚ
  runningJobs : ℤ
  slotOccupancy : ℚ
  deriving DecidableEq, Repr

/-! ### Jobs -/

/-- What a job mostly uses. -/
inductive WorkloadType
  | cpu
  | memory
  | io
  | gpu
  | mixed
  deriving DecidableEq, Repr

/-- The string value of the enumeration, which is what the database stores. -/
def WorkloadType.value : WorkloadType → String
  | .cpu => "cpu"
  | .memory => "memory"
  | .io => "io"
  | .gpu => "gpu"
  | .mixed => "mixed"

/-- What a job declares it needs; `expected_duration_class` is advisory and
read nowhere. -/
structure JobRequirements where
  workloadType : WorkloadType := .mixed
  cpuRequest : ℤ := 1
  memoryMb : Option ℤ := none
  requiresGpu : Bool := false
  size : Option ℤ := none
  cpuRequest_ge : 1 ≤ cpuRequest := by decide
  memoryMb_ge : ∀ m ∈ memoryMb, 1 ≤ m := by decide
  deriving DecidableEq, Repr

/-- `requirements.memory_mb or 0`: what a job without a limit is charged. -/
def JobRequirements.memoryOrZero (r : JobRequirements) : ℤ := r.memoryMb.getD 0

theorem JobRequirements.memoryOrZero_nonneg (r : JobRequirements) : 0 ≤ r.memoryOrZero := by
  unfold memoryOrZero
  rcases h : r.memoryMb with - | m
  · exact le_rfl
  · have hm := r.memoryMb_ge m h
    simp only [Option.getD_some]
    omega

/-- A job as a client submits it. -/
structure JobRequest where
  jobId : JobId
  image : String
  command : Option String := none
  submittedAt : Option Timestamp := none
  requirements : JobRequirements := {}
  deriving DecidableEq, Repr

/-- What an agent reports when a job's container has ended. -/
structure JobResult where
  jobId : JobId
  nodeId : NodeId
  success : Bool
  runtimeSeconds : ℚ
  exitCode : ℤ
  completedAt : Option Timestamp := none
  deriving DecidableEq, Repr

/-- Request body of `POST /runs/start`. -/
structure RunStartRequest where
  label : Option String := none
  trace : Option String := none
  notes : Option String := none
  policy : Option String := none
  deriving DecidableEq, Repr

end HeteroSched
