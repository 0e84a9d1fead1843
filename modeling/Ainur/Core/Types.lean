import Mathlib.Tactic.Common

set_option autoImplicit false

/-! # Core types of the protocol

The types of `ainur-core` that the orchestrator stores: tasks, bids and results. Amounts are
`u128` in the source and `Nat` here; where a width matters, the code that checks it says so.
-/

namespace Ainur.Core

/-- `[u8; n]`. -/
abbrev ByteArrayOf (n : Nat) := { bytes : List UInt8 // bytes.length = n }

structure AgentId where
  bytes : ByteArrayOf 32
  deriving DecidableEq, Repr

structure TaskId where
  bytes : ByteArrayOf 32
  deriving DecidableEq, Repr

inductive TaskType where
  | compute
  | dataProcessing
  | inference
  | training
  | storage
  | relay
  | custom (name : String)
  deriving DecidableEq, Repr

inductive OutputFormat where
  | binary
  | json
  | text
  | structured (schema : String)
  deriving DecidableEq, Repr

structure TaskSpec where
  description : String
  taskType : TaskType
  input : List UInt8
  outputFormat : OutputFormat
  metadata : List (String × String)
  deriving DecidableEq, Repr

inductive TEEType where
  | sgx
  | sev
  | trustZone
  | other (name : String)
  deriving DecidableEq, Repr

inductive ZKSystem where
  | groth16
  | plonk
  | stark
  | bulletproofs
  | other (name : String)
  deriving DecidableEq, Repr

inductive HardwareType where
  | nvidiaGPU (model : String)
  | amdGPU (model : String)
  | tpu (model : String)
  | fpga (model : String)
  | asic (model : String)
  | other (name : String)
  deriving DecidableEq, Repr

inductive Capability where
  | tee (type : TEEType)
  | zkProof (system : ZKSystem)
  | model (name : String)
  | hardware (type : HardwareType)
  | location (name : String)
  | custom (name value : String)
  deriving DecidableEq, Repr

structure Requirements where
  minMemory : Option UInt64
  minCpuCores : Option UInt32
  gpuRequired : Bool
  minBandwidth : Option UInt64
  capabilities : List Capability
  deriving DecidableEq, Repr

inductive VerificationLevel where
  | none
  | bestEffort
  | consensus (validators : UInt8)
  | teeAttested
  | zkProof
  | teeWithZK
  deriving DecidableEq, Repr

structure Milestone where
  id : ByteArrayOf 16
  description : String
  criteria : String
  deriving DecidableEq, Repr

inductive PaymentSchedule where
  | upfront
  | onCompletion
  | milestone (milestones : List (Milestone × Nat))
  | streaming (amount : Nat)
  deriving DecidableEq, Repr

structure Budget where
  maxCost : Nat
  paymentSchedule : PaymentSchedule
  escrowRequired : Bool
  deriving DecidableEq, Repr

structure Task where
  id : TaskId
  requester : AgentId
  specification : TaskSpec
  requirements : Requirements
  budget : Budget
  deadline : UInt64
  verificationLevel : VerificationLevel
  deriving DecidableEq, Repr

inductive RefundPolicy where
  | none
  | full
  | partialRefund (percentage : UInt32)
  | timeBased (steps : List (UInt64 × UInt32))
  deriving DecidableEq, Repr

inductive Guarantee where
  | completionTime (seconds : UInt64)
  | qualityScore (score : UInt32)
  | sla (text : String)
  | refundPolicy (policy : RefundPolicy)
  deriving DecidableEq, Repr

structure Bid where
  agentId : AgentId
  taskId : TaskId
  value : Nat
  qualityScore : UInt32
  completionTime : UInt64
  guarantees : List Guarantee
  deriving DecidableEq, Repr

inductive ExecutionProof where
  | none
  | teeAttestation (bytes : List UInt8)
  | zkProof (bytes : List UInt8)
  | combined (tee zk : List UInt8)
  deriving DecidableEq, Repr

structure ResourceUsage where
  cpuTimeMs : UInt64
  memoryBytes : UInt64
  storageBytes : UInt64
  bandwidthBytes : UInt64
  gpuTimeMs : Option UInt64
  deriving DecidableEq, Repr

structure TaskResult where
  taskId : TaskId
  executor : AgentId
  output : List UInt8
  proof : Option ExecutionProof
  resourcesUsed : ResourceUsage
  completedAt : UInt64
  deriving DecidableEq, Repr

end Ainur.Core
