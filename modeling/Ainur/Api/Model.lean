import Ainur.Chain.Payload
import Ainur.Core.Types

set_option autoImplicit false

/-! # Requests, stored records and views

`model.rs`: what a client submits, what the orchestrator stores of it, and what it shows. Values
that a request draws from outside (fresh UUIDs, the clock) are in `Draws`; `Libraries` holds the
crates whose code is not in the repository.
-/

namespace Ainur

open Fallible (okOr)

/-- `ApiError`. -/
inductive ApiError where
  | badRequest (message : String)
  | notFound (message : String)
  | internal (message : String)
  deriving DecidableEq, Repr

/-- The crates that the handlers call. -/
structure Libraries where
  serde : SerdeJson
  /-- `blake3::hash`. -/
  blake3 : List UInt8 → Bytes32
  /-- `general_purpose::STANDARD` of `base64`. -/
  base64Decode : String → Option (List UInt8)
  base64Encode : List UInt8 → String
  /-- `Uuid::parse_str`, with the canonical text of the UUID. -/
  parseUuid : String → Option String

/-- What a request draws: its UUIDs in their order, those of them that become bytes of a core
task id, and the clock in seconds. -/
structure Draws where
  uuid : Nat → String
  coreTaskId : Core.TaskId
  now : UInt64

/-- The hash of no bytes. -/
def hashOfNothing : Bytes32 :=
  ⟨[0xaf, 0x13, 0x49, 0xb9, 0xf5, 0xf9, 0xa1, 0xa6, 0xa0, 0x40, 0x4d, 0xea, 0x36, 0xdc, 0xc9, 0x49,
    0x9b, 0xcb, 0x25, 0xc9, 0xad, 0xc1, 0x12, 0xb7, 0xcc, 0x9a, 0x93, 0xca, 0xe4, 0x1f, 0x32, 0x62],
    rfl⟩

/-- The crates on empty bytes and on the given JSON values. -/
def sampleLibraries (values : List Value) : Libraries where
  serde := .onValues values
  blake3 _ := hashOfNothing
  base64Decode s := if s = "" then some [] else none
  base64Encode _ := ""
  parseUuid := some

def sampleDraws : Draws where
  uuid _ := "1b4e28ba-2fa1-41d2-883f-0016d3cca427"
  coreTaskId := ⟨hashOfNothing⟩
  now := 1700000000

/-! ## Text -/

/-- The characters with the Unicode property `White_Space`. -/
def isWhiteSpace (c : Char) : Bool :=
  let n := c.toNat
  (9 ≤ n && n ≤ 13) || n = 0x20 || n = 0x85 || n = 0xA0 || n = 0x1680 ||
    (0x2000 ≤ n && n ≤ 0x200A) || n = 0x2028 || n = 0x2029 || n = 0x202F || n = 0x205F ||
    n = 0x3000

/-- `s.trim().is_empty()`. -/
def isBlank (s : String) : Bool := s.toList.all isWhiteSpace

/-- The digit of a value below 16, in lowercase. -/
def hexDigit (n : UInt8) : Char :=
  if n < 10 then Char.ofNat (48 + n.toNat) else Char.ofNat (87 + n.toNat)

/-- `hex::encode`. -/
def hexEncode (bytes : List UInt8) : String :=
  String.ofList (bytes.flatMap fun (b : UInt8) => [hexDigit (b >>> 4), hexDigit (b &&& 15)])

/-! ## Requests and records -/

structure AgentRegistrationRequest where
  id : String
  label : String
  deriving DecidableEq, Repr

inductive TaskStatus where
  | pending
  | completed
  deriving DecidableEq, Repr

structure TaskSubmissionRequest where
  clientTaskId : Option String
  requesterId : String
  description : String
  taskType : String
  inputBase64 : String
  maxBudget : Nat
  deadline : UInt64
  deriving DecidableEq, Repr

structure StoredTask where
  id : String
  clientTaskId : Option String
  task : Core.Task
  status : TaskStatus
  createdAt : UInt64
  deriving DecidableEq, Repr

structure BidSubmissionRequest where
  taskId : String
  agentId : String
  value : Nat
  qualityScore : UInt32
  completionTime : UInt64
  deriving DecidableEq, Repr

structure StoredBid where
  id : String
  taskId : String
  agentId : String
  bid : Core.Bid
  createdAt : UInt64
  deriving DecidableEq, Repr

structure ResultSubmissionRequest where
  taskId : String
  agentId : String
  outputBase64 : String
  deriving DecidableEq, Repr

structure StoredResult where
  id : String
  taskId : String
  agentId : String
  result : Core.TaskResult
  createdAt : UInt64
  deriving DecidableEq, Repr

/-- `OutboundExtrinsicRequest`. -/
structure OutboundExtrinsicRequest where
  pallet : String
  call : String
  payload : Value

/-! ## From a submission to a record -/

/-- `build_core_task`. -/
def buildCoreTask (lib : Libraries) (draws : Draws) (submission : TaskSubmissionRequest)
    (input : List UInt8) : Core.Task where
  id := draws.coreTaskId
  requester := ⟨lib.blake3 (utf8 submission.requesterId)⟩
  specification :=
    { description := submission.description
      taskType := .custom submission.taskType
      input := input
      outputFormat := .binary
      metadata := [] }
  requirements :=
    { minMemory := none
      minCpuCores := none
      gpuRequired := false
      minBandwidth := none
      capabilities := [] }
  budget :=
    { maxCost := submission.maxBudget
      paymentSchedule := .onCompletion
      escrowRequired := true }
  deadline := submission.deadline
  verificationLevel := .bestEffort

/-- `StoredTask::from_submission`. -/
def StoredTask.fromSubmission (lib : Libraries) (draws : Draws)
    (submission : TaskSubmissionRequest) : Except ApiError StoredTask :=
  if isBlank submission.description then
    .error (.badRequest "task description must not be empty")
  else do
    let rawInput ← okOr (lib.base64Decode submission.inputBase64)
      (.badRequest "input_base64 must be valid base64")
    return {
      id := draws.uuid 0
      clientTaskId := submission.clientTaskId
      task := buildCoreTask lib draws submission rawInput
      status := .pending
      createdAt := draws.now }

/-- `build_core_bid`. -/
def buildCoreBid (lib : Libraries) (submission : BidSubmissionRequest) (task : Core.Task) :
    Core.Bid where
  agentId := ⟨lib.blake3 (utf8 submission.agentId)⟩
  taskId := task.id
  value := submission.value
  qualityScore := submission.qualityScore
  completionTime := submission.completionTime
  guarantees := []

/-- `StoredBid::from_submission`. -/
def StoredBid.fromSubmission (lib : Libraries) (draws : Draws)
    (submission : BidSubmissionRequest) (task : StoredTask) : Except ApiError StoredBid :=
  if isBlank submission.agentId then .error (.badRequest "agent_id must not be empty")
  else .ok {
    id := draws.uuid 0
    taskId := task.id
    agentId := submission.agentId
    bid := buildCoreBid lib submission task.task
    createdAt := draws.now }

/-- `build_core_result`. -/
def buildCoreResult (lib : Libraries) (draws : Draws) (submission : ResultSubmissionRequest)
    (task : Core.Task) (output : List UInt8) : Core.TaskResult where
  taskId := task.id
  executor := ⟨lib.blake3 (utf8 submission.agentId)⟩
  output := output
  proof := none
  resourcesUsed :=
    { cpuTimeMs := 0
      memoryBytes := 0
      storageBytes := 0
      bandwidthBytes := 0
      gpuTimeMs := none }
  completedAt := draws.now

/-- `StoredResult::from_submission`. -/
def StoredResult.fromSubmission (lib : Libraries) (draws : Draws)
    (submission : ResultSubmissionRequest) (task : StoredTask) :
    Except ApiError StoredResult :=
  if isBlank submission.agentId then .error (.badRequest "agent_id must not be empty")
  else do
    let output ← okOr (lib.base64Decode submission.outputBase64)
      (.badRequest "output_base64 must be valid base64")
    let result := buildCoreResult lib draws submission task.task output
    return {
      id := draws.uuid 0
      taskId := task.id
      agentId := submission.agentId
      result := result
      createdAt := result.completedAt }

/-! ### The records carry fresh ids -/

section FromSubmission

variable {lib : Libraries} {draws : Draws}

theorem StoredTask.fromSubmission_id {submission : TaskSubmissionRequest} {stored : StoredTask}
    (h : fromSubmission lib draws submission = .ok stored) : stored.id = draws.uuid 0 := by
  unfold fromSubmission at h
  split at h
  · cases h
  · obtain ⟨_, -, h⟩ := Fallible.bind_eq_ok.mp h
    rw [← Fallible.pure_eq_ok.mp h]

theorem StoredResult.fromSubmission_id {submission : ResultSubmissionRequest}
    {task : StoredTask} {stored : StoredResult}
    (h : fromSubmission lib draws submission task = .ok stored) : stored.id = draws.uuid 0 := by
  unfold fromSubmission at h
  split at h
  · cases h
  · obtain ⟨_, -, h⟩ := Fallible.bind_eq_ok.mp h
    rw [← Fallible.pure_eq_ok.mp h]

end FromSubmission

/-! ## Views -/

structure TaskView where
  id : String
  requesterId : String
  description : String
  status : TaskStatus
  deadline : UInt64
  maxBudget : Nat
  deriving DecidableEq, Repr

/-- `TaskView::from_stored`. -/
def TaskView.fromStored (stored : StoredTask) : TaskView where
  id := stored.id
  requesterId := hexEncode stored.task.requester.bytes.val
  description := stored.task.specification.description
  status := stored.status
  deadline := stored.task.deadline
  maxBudget := stored.task.budget.maxCost

structure BidView where
  id : String
  taskId : String
  agentId : String
  value : Nat
  qualityScore : UInt32
  completionTime : UInt64
  deriving DecidableEq, Repr

/-- `BidView::from_stored`. -/
def BidView.fromStored (stored : StoredBid) : BidView where
  id := stored.id
  taskId := stored.taskId
  agentId := stored.agentId
  value := stored.bid.value
  qualityScore := stored.bid.qualityScore
  completionTime := stored.bid.completionTime

structure ResultView where
  id : String
  taskId : String
  agentId : String
  outputBase64 : String
  completedAt : UInt64
  deriving DecidableEq, Repr

/-- `ResultView::from_stored`. -/
def ResultView.fromStored (lib : Libraries) (stored : StoredResult) : ResultView where
  id := stored.id
  taskId := stored.taskId
  agentId := stored.agentId
  outputBase64 := lib.base64Encode stored.result.output
  completedAt := stored.result.completedAt

/-! ## Sample requests -/

/-- A task with a budget of that size. -/
def taskWithBudget (maxBudget : Nat) : TaskSubmissionRequest where
  clientTaskId := none
  requesterId := ""
  description := "resize"
  taskType := "image"
  inputBase64 := ""
  maxBudget := maxBudget
  deadline := 0

def sampleAgent : AgentRegistrationRequest := ⟨"did:example:a", "resizer"⟩

/-- A bid of that agent for the task that a request with `sampleDraws` has created. -/
def sampleBid : BidSubmissionRequest where
  taskId := sampleDraws.uuid 0
  agentId := sampleAgent.id
  value := 1
  qualityScore := 0
  completionTime := 7

end Ainur
