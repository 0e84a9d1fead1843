import Ainur.Api.Model
import Ainur.Lib.Serde

set_option autoImplicit false

/-! # The JSON of stored records

The derived format of every type that a stored task, bid or result contains, in the order of
`ainur-core`'s `types.rs` and then of `model.rs`. Names of fields and variants are those of the
source; only `TaskStatus` renames its variants. Amounts are `u128`: what fits is a record whose
amounts are at most `u64::MAX`.
-/

namespace Ainur

open Serde

namespace Core

/-! ## Tasks -/

def AgentId.format : Codec AgentId := newtype (Serde.bytes 32) AgentId.mk AgentId.bytes

def TaskId.format : Codec TaskId := newtype (Serde.bytes 32) TaskId.mk TaskId.bytes

def TaskType.variants : List (Variant TaskType) :=
  [.unit "Compute" .compute, .unit "DataProcessing" .dataProcessing,
    .unit "Inference" .inference, .unit "Training" .training, .unit "Storage" .storage,
    .unit "Relay" .relay,
    .of "Custom" (.newtype string) .custom fun | .custom name => some name | _ => none]

def TaskType.format : Codec TaskType := .enum TaskType.variants

def OutputFormat.variants : List (Variant OutputFormat) :=
  [.unit "Binary" .binary, .unit "Json" .json, .unit "Text" .text,
    .of "Structured" (.newtype string) .structured
      fun | .structured schema => some schema | _ => none]

def OutputFormat.format : Codec OutputFormat := .enum OutputFormat.variants

def TaskSpec.format : Codec TaskSpec :=
  .struct "TaskSpec"
    (.and (.field "description" string) <| .and (.field "task_type" TaskType.format) <|
      .and (.field "input" (seq u8)) <| .and (.field "output_format" OutputFormat.format) <|
      .field "metadata" (seq (pair string string)))
    (fun (description, taskType, input, outputFormat, metadata) =>
      ⟨description, taskType, input, outputFormat, metadata⟩)
    fun s => (s.description, s.taskType, s.input, s.outputFormat, s.metadata)

def TEEType.variants : List (Variant TEEType) :=
  [.unit "SGX" .sgx, .unit "SEV" .sev, .unit "TrustZone" .trustZone,
    .of "Other" (.newtype string) .other fun | .other name => some name | _ => none]

def TEEType.format : Codec TEEType := .enum TEEType.variants

def ZKSystem.variants : List (Variant ZKSystem) :=
  [.unit "Groth16" .groth16, .unit "PLONK" .plonk, .unit "STARK" .stark,
    .unit "Bulletproofs" .bulletproofs,
    .of "Other" (.newtype string) .other fun | .other name => some name | _ => none]

def ZKSystem.format : Codec ZKSystem := .enum ZKSystem.variants

def HardwareType.variants : List (Variant HardwareType) :=
  [.of "NvidiaGPU" (.newtype string) .nvidiaGPU fun | .nvidiaGPU m => some m | _ => none,
    .of "AmdGPU" (.newtype string) .amdGPU fun | .amdGPU m => some m | _ => none,
    .of "TPU" (.newtype string) .tpu fun | .tpu m => some m | _ => none,
    .of "FPGA" (.newtype string) .fpga fun | .fpga m => some m | _ => none,
    .of "ASIC" (.newtype string) .asic fun | .asic m => some m | _ => none,
    .of "Other" (.newtype string) .other fun | .other name => some name | _ => none]

def HardwareType.format : Codec HardwareType := .enum HardwareType.variants

def Capability.variants : List (Variant Capability) :=
  [.of "TEE" (.newtype TEEType.format) .tee fun | .tee type => some type | _ => none,
    .of "ZKProof" (.newtype ZKSystem.format) .zkProof
      fun | .zkProof system => some system | _ => none,
    .of "Model" (.newtype string) .model fun | .model name => some name | _ => none,
    .of "Hardware" (.newtype HardwareType.format) .hardware
      fun | .hardware type => some type | _ => none,
    .of "Location" (.newtype string) .location fun | .location name => some name | _ => none,
    .of "Custom" (.tuple "Capability::Custom" string string)
      (fun (name, value) => .custom name value)
      fun | .custom name value => some (name, value) | _ => none]

def Capability.format : Codec Capability := .enum Capability.variants

def Requirements.format : Codec Requirements :=
  .struct "Requirements"
    (.and (.optional "min_memory" u64) <| .and (.optional "min_cpu_cores" u32) <|
      .and (.field "gpu_required" bool) <| .and (.optional "min_bandwidth" u64) <|
      .field "capabilities" (seq Capability.format))
    (fun (minMemory, minCpuCores, gpuRequired, minBandwidth, capabilities) =>
      ⟨minMemory, minCpuCores, gpuRequired, minBandwidth, capabilities⟩)
    fun r => (r.minMemory, r.minCpuCores, r.gpuRequired, r.minBandwidth, r.capabilities)

def VerificationLevel.variants : List (Variant VerificationLevel) :=
  [.unit "None" .none, .unit "BestEffort" .bestEffort,
    .of "Consensus" (.newtype u8) .consensus fun | .consensus n => some n | _ => .none,
    .unit "TEEAttested" .teeAttested, .unit "ZKProof" .zkProof, .unit "TEEWithZK" .teeWithZK]

def VerificationLevel.format : Codec VerificationLevel := .enum VerificationLevel.variants

def Milestone.format : Codec Milestone :=
  .struct "Milestone"
    (.and (.field "id" (Serde.bytes 16)) <| .and (.field "description" string) <|
      .field "criteria" string)
    (fun (id, description, criteria) => ⟨id, description, criteria⟩)
    fun m => (m.id, m.description, m.criteria)

def PaymentSchedule.variants : List (Variant PaymentSchedule) :=
  [.unit "Upfront" .upfront, .unit "OnCompletion" .onCompletion,
    .of "Milestone" (.newtype (seq (pair Milestone.format u128))) .milestone
      fun | .milestone ms => some ms | _ => none,
    .of "Streaming" (.newtype u128) .streaming fun | .streaming amount => some amount | _ => none]

def PaymentSchedule.format : Codec PaymentSchedule := .enum PaymentSchedule.variants

def Budget.format : Codec Budget :=
  .struct "Budget"
    (.and (.field "max_cost" u128) <| .and (.field "payment_schedule" PaymentSchedule.format) <|
      .field "escrow_required" bool)
    (fun (maxCost, paymentSchedule, escrowRequired) => ⟨maxCost, paymentSchedule, escrowRequired⟩)
    fun b => (b.maxCost, b.paymentSchedule, b.escrowRequired)

def Task.format : Codec Task :=
  .struct "Task"
    (.and (.field "id" TaskId.format) <| .and (.field "requester" AgentId.format) <|
      .and (.field "specification" TaskSpec.format) <|
      .and (.field "requirements" Requirements.format) <|
      .and (.field "budget" Budget.format) <| .and (.field "deadline" u64) <|
      .field "verification_level" VerificationLevel.format)
    (fun (id, requester, specification, requirements, budget, deadline, verificationLevel) =>
      ⟨id, requester, specification, requirements, budget, deadline, verificationLevel⟩)
    fun t => (t.id, t.requester, t.specification, t.requirements, t.budget, t.deadline,
      t.verificationLevel)

/-! ## Bids and results -/

def RefundPolicy.variants : List (Variant RefundPolicy) :=
  [.unit "None" .none, .unit "Full" .full,
    .of "Partial" (.newtype u32) .partialRefund fun | .partialRefund n => some n | _ => .none,
    .of "TimeBased" (.newtype (seq (pair u64 u32))) .timeBased
      fun | .timeBased steps => some steps | _ => .none]

def RefundPolicy.format : Codec RefundPolicy := .enum RefundPolicy.variants

def Guarantee.variants : List (Variant Guarantee) :=
  [.of "CompletionTime" (.newtype u64) .completionTime
      fun | .completionTime seconds => some seconds | _ => none,
    .of "QualityScore" (.newtype u32) .qualityScore
      fun | .qualityScore score => some score | _ => none,
    .of "SLA" (.newtype string) .sla fun | .sla text => some text | _ => none,
    .of "RefundPolicy" (.newtype RefundPolicy.format) .refundPolicy
      fun | .refundPolicy policy => some policy | _ => none]

def Guarantee.format : Codec Guarantee := .enum Guarantee.variants

def Bid.format : Codec Bid :=
  .struct "Bid"
    (.and (.field "agent_id" AgentId.format) <| .and (.field "task_id" TaskId.format) <|
      .and (.field "value" u128) <| .and (.field "quality_score" u32) <|
      .and (.field "completion_time" u64) <| .field "guarantees" (seq Guarantee.format))
    (fun (agentId, taskId, value, qualityScore, completionTime, guarantees) =>
      ⟨agentId, taskId, value, qualityScore, completionTime, guarantees⟩)
    fun b => (b.agentId, b.taskId, b.value, b.qualityScore, b.completionTime, b.guarantees)

def ExecutionProof.variants : List (Variant ExecutionProof) :=
  [.unit "None" .none,
    .of "TEEAttestation" (.newtype (seq u8)) .teeAttestation
      fun | .teeAttestation bytes => some bytes | _ => .none,
    .of "ZKProof" (.newtype (seq u8)) .zkProof fun | .zkProof bytes => some bytes | _ => .none,
    .of "Combined" (.struct (.and (.field "tee" (seq u8)) (.field "zk" (seq u8))))
      (fun (tee, zk) => .combined tee zk) fun | .combined tee zk => some (tee, zk) | _ => .none]

def ExecutionProof.format : Codec ExecutionProof := .enum ExecutionProof.variants

def ResourceUsage.format : Codec ResourceUsage :=
  .struct "ResourceUsage"
    (.and (.field "cpu_time_ms" u64) <| .and (.field "memory_bytes" u64) <|
      .and (.field "storage_bytes" u64) <| .and (.field "bandwidth_bytes" u64) <|
      .optional "gpu_time_ms" u64)
    (fun (cpuTimeMs, memoryBytes, storageBytes, bandwidthBytes, gpuTimeMs) =>
      ⟨cpuTimeMs, memoryBytes, storageBytes, bandwidthBytes, gpuTimeMs⟩)
    fun r => (r.cpuTimeMs, r.memoryBytes, r.storageBytes, r.bandwidthBytes, r.gpuTimeMs)

def TaskResult.format : Codec TaskResult :=
  .struct "TaskResult"
    (.and (.field "task_id" TaskId.format) <| .and (.field "executor" AgentId.format) <|
      .and (.field "output" (seq u8)) <| .and (.optional "proof" ExecutionProof.format) <|
      .and (.field "resources_used" ResourceUsage.format) <| .field "completed_at" u64)
    (fun (taskId, executor, output, proof, resourcesUsed, completedAt) =>
      ⟨taskId, executor, output, proof, resourcesUsed, completedAt⟩)
    fun r => (r.taskId, r.executor, r.output, r.proof, r.resourcesUsed, r.completedAt)

end Core

/-! ## Records -/

def TaskStatus.variants : List (Variant TaskStatus) :=
  [.unit "pending" .pending, .unit "completed" .completed]

def TaskStatus.format : Codec TaskStatus := .enum TaskStatus.variants

def StoredTask.format : Codec StoredTask :=
  .struct "StoredTask"
    (.and (.field "id" string) <| .and (.optional "client_task_id" string) <|
      .and (.field "task" Core.Task.format) <| .and (.field "status" TaskStatus.format) <|
      .field "created_at" u64)
    (fun (id, clientTaskId, task, status, createdAt) => ⟨id, clientTaskId, task, status, createdAt⟩)
    fun t => (t.id, t.clientTaskId, t.task, t.status, t.createdAt)

def StoredBid.format : Codec StoredBid :=
  .struct "StoredBid"
    (.and (.field "id" string) <| .and (.field "task_id" string) <|
      .and (.field "agent_id" string) <| .and (.field "bid" Core.Bid.format) <|
      .field "created_at" u64)
    (fun (id, taskId, agentId, bid, createdAt) => ⟨id, taskId, agentId, bid, createdAt⟩)
    fun b => (b.id, b.taskId, b.agentId, b.bid, b.createdAt)

def StoredResult.format : Codec StoredResult :=
  .struct "StoredResult"
    (.and (.field "id" string) <| .and (.field "task_id" string) <|
      .and (.field "agent_id" string) <| .and (.field "result" Core.TaskResult.format) <|
      .field "created_at" u64)
    (fun (id, taskId, agentId, result, createdAt) => ⟨id, taskId, agentId, result, createdAt⟩)
    fun r => (r.id, r.taskId, r.agentId, r.result, r.createdAt)

/-! ## What fits, and the rule of each format

For an enum the rule of each of its variants comes first; the rule of a type then follows from
those of its parts, in the order in which they are listed.
-/

namespace Core

section Rules

open Serde.Variant Serde.Fields

theorem AgentId.format_spec : AgentId.format.Total := newtype_spec (bytes_spec 32) fun _ => rfl

theorem TaskId.format_spec : TaskId.format.Total := newtype_spec (bytes_spec 32) fun _ => rfl

theorem TaskType.variants_spec : ∀ v ∈ TaskType.variants, v.Spec fun _ => true := by
  simp only [TaskType.variants, List.forall_mem_cons]
  refine ⟨unit_spec rfl, unit_spec rfl, unit_spec rfl, unit_spec rfl, unit_spec rfl,
    unit_spec rfl, of_spec (Content.newtype_spec string_spec) (fun a x h => ?_) fun _ => rfl,
    List.forall_mem_nil _⟩
  cases a <;> cases h
  rfl

theorem TaskType.format_spec : TaskType.format.Total :=
  enum_spec (by decide) TaskType.variants_spec fun a => by cases a <;> rfl

theorem OutputFormat.variants_spec : ∀ v ∈ OutputFormat.variants, v.Spec fun _ => true := by
  simp only [OutputFormat.variants, List.forall_mem_cons]
  refine ⟨unit_spec rfl, unit_spec rfl, unit_spec rfl,
    of_spec (Content.newtype_spec string_spec) (fun a x h => ?_) fun _ => rfl,
    List.forall_mem_nil _⟩
  cases a <;> cases h
  rfl

theorem OutputFormat.format_spec : OutputFormat.format.Total :=
  enum_spec (by decide) OutputFormat.variants_spec fun a => by cases a <;> rfl

theorem TaskSpec.format_spec : TaskSpec.format.Total := by
  have hfields := and_spec (field_spec "description" string_spec)
    (and_spec (field_spec "task_type" TaskType.format_spec)
      (and_spec (field_spec "input" (seq_spec u8_spec))
        (and_spec (field_spec "output_format" OutputFormat.format_spec)
          (field_spec "metadata" (seq_spec (pair_spec string_spec string_spec)))
          (by decide)) (by decide)) (by decide)) (by decide)
  have h : TaskSpec.format.Spec _ := struct_spec hfields (by decide) fun _ => rfl
  exact h.congr fun s => by simp

theorem TEEType.variants_spec : ∀ v ∈ TEEType.variants, v.Spec fun _ => true := by
  simp only [TEEType.variants, List.forall_mem_cons]
  refine ⟨unit_spec rfl, unit_spec rfl, unit_spec rfl,
    of_spec (Content.newtype_spec string_spec) (fun a x h => ?_) fun _ => rfl,
    List.forall_mem_nil _⟩
  cases a <;> cases h
  rfl

theorem TEEType.format_spec : TEEType.format.Total :=
  enum_spec (by decide) TEEType.variants_spec fun a => by cases a <;> rfl

theorem ZKSystem.variants_spec : ∀ v ∈ ZKSystem.variants, v.Spec fun _ => true := by
  simp only [ZKSystem.variants, List.forall_mem_cons]
  refine ⟨unit_spec rfl, unit_spec rfl, unit_spec rfl, unit_spec rfl,
    of_spec (Content.newtype_spec string_spec) (fun a x h => ?_) fun _ => rfl,
    List.forall_mem_nil _⟩
  cases a <;> cases h
  rfl

theorem ZKSystem.format_spec : ZKSystem.format.Total :=
  enum_spec (by decide) ZKSystem.variants_spec fun a => by cases a <;> rfl

theorem HardwareType.variants_spec : ∀ v ∈ HardwareType.variants, v.Spec fun _ => true := by
  have htext := Content.newtype_spec string_spec
  simp only [HardwareType.variants, List.forall_mem_cons]
  refine ⟨of_spec htext (fun a x h => ?_) fun _ => rfl, of_spec htext (fun a x h => ?_) fun _ => rfl,
    of_spec htext (fun a x h => ?_) fun _ => rfl, of_spec htext (fun a x h => ?_) fun _ => rfl,
    of_spec htext (fun a x h => ?_) fun _ => rfl, of_spec htext (fun a x h => ?_) fun _ => rfl,
    List.forall_mem_nil _⟩
  all_goals
    cases a <;> cases h
    rfl

theorem HardwareType.format_spec : HardwareType.format.Total :=
  enum_spec (by decide) HardwareType.variants_spec fun a => by cases a <;> rfl

theorem Capability.variants_spec : ∀ v ∈ Capability.variants, v.Spec fun _ => true := by
  simp only [Capability.variants, List.forall_mem_cons]
  refine ⟨of_spec (Content.newtype_spec TEEType.format_spec) (fun a x h => ?_) fun _ => rfl,
    of_spec (Content.newtype_spec ZKSystem.format_spec) (fun a x h => ?_) fun _ => rfl,
    of_spec (Content.newtype_spec string_spec) (fun a x h => ?_) fun _ => rfl,
    of_spec (Content.newtype_spec HardwareType.format_spec) (fun a x h => ?_) fun _ => rfl,
    of_spec (Content.newtype_spec string_spec) (fun a x h => ?_) fun _ => rfl,
    of_spec (Content.tuple_spec string_spec string_spec) (fun a x h => ?_) fun _ => rfl,
    List.forall_mem_nil _⟩
  all_goals
    cases a <;> cases h
    rfl

theorem Capability.format_spec : Capability.format.Total :=
  enum_spec (by decide) Capability.variants_spec fun a => by cases a <;> rfl

theorem Requirements.format_spec : Requirements.format.Total := by
  have hfields := and_spec (optional_spec "min_memory" u64_spec u64_notNull)
    (and_spec (optional_spec "min_cpu_cores" u32_spec u32_notNull)
      (and_spec (field_spec "gpu_required" bool_spec)
        (and_spec (optional_spec "min_bandwidth" u64_spec u64_notNull)
          (field_spec "capabilities" (seq_spec Capability.format_spec))
          (by decide)) (by decide)) (by decide)) (by decide)
  have h : Requirements.format.Spec _ := struct_spec hfields (by decide) fun _ => rfl
  exact h.congr fun r => by simp

theorem VerificationLevel.variants_spec :
    ∀ v ∈ VerificationLevel.variants, v.Spec fun _ => true := by
  simp only [VerificationLevel.variants, List.forall_mem_cons]
  refine ⟨unit_spec rfl, unit_spec rfl,
    of_spec (Content.newtype_spec u8_spec) (fun a x h => ?_) fun _ => rfl, unit_spec rfl,
    unit_spec rfl, unit_spec rfl, List.forall_mem_nil _⟩
  cases a <;> cases h
  rfl

theorem VerificationLevel.format_spec : VerificationLevel.format.Total :=
  enum_spec (by decide) VerificationLevel.variants_spec fun a => by cases a <;> rfl

theorem Milestone.format_spec : Milestone.format.Total := by
  have hfields := and_spec (field_spec "id" (bytes_spec 16))
    (and_spec (field_spec "description" string_spec) (field_spec "criteria" string_spec)
      (by decide)) (by decide)
  exact struct_spec hfields (by decide) fun _ => rfl

/-- The amounts of a schedule fit. -/
def PaymentSchedule.fits : PaymentSchedule → Bool
  | .upfront | .onCompletion => true
  | .milestone ms => ms.all fun m => fitsU64 m.2
  | .streaming amount => fitsU64 amount

theorem PaymentSchedule.variants_spec :
    ∀ v ∈ PaymentSchedule.variants, v.Spec PaymentSchedule.fits := by
  have hmilestones := seq_spec (pair_spec Milestone.format_spec u128_spec)
  simp only [PaymentSchedule.variants, List.forall_mem_cons]
  refine ⟨unit_spec rfl, unit_spec rfl,
    of_spec (Content.newtype_spec hmilestones) (fun a x h => ?_) fun ms => by simp [fits],
    of_spec (Content.newtype_spec u128_spec) (fun a x h => ?_) fun _ => rfl,
    List.forall_mem_nil _⟩
  all_goals
    cases a <;> cases h
    rfl

theorem PaymentSchedule.format_spec : PaymentSchedule.format.Spec PaymentSchedule.fits :=
  enum_spec (by decide) PaymentSchedule.variants_spec fun a => by cases a <;> rfl

def Budget.fits (b : Budget) : Bool := fitsU64 b.maxCost && b.paymentSchedule.fits

theorem Budget.format_spec : Budget.format.Spec Budget.fits := by
  have hfields := and_spec (field_spec "max_cost" u128_spec)
    (and_spec (field_spec "payment_schedule" PaymentSchedule.format_spec)
      (field_spec "escrow_required" bool_spec) (by decide)) (by decide)
  have h : Budget.format.Spec _ := struct_spec hfields (by decide) fun _ => rfl
  exact h.congr fun b => by simp [Budget.fits]

theorem Task.format_spec : Task.format.Spec fun t => t.budget.fits := by
  have hfields := and_spec (field_spec "id" TaskId.format_spec)
    (and_spec (field_spec "requester" AgentId.format_spec)
      (and_spec (field_spec "specification" TaskSpec.format_spec)
        (and_spec (field_spec "requirements" Requirements.format_spec)
          (and_spec (field_spec "budget" Budget.format_spec)
            (and_spec (field_spec "deadline" u64_spec)
              (field_spec "verification_level" VerificationLevel.format_spec)
              (by decide)) (by decide)) (by decide)) (by decide)) (by decide)) (by decide)
  have h : Task.format.Spec _ := struct_spec hfields (by decide) fun _ => rfl
  exact h.congr fun t => by simp

theorem RefundPolicy.variants_spec : ∀ v ∈ RefundPolicy.variants, v.Spec fun _ => true := by
  have hsteps : (seq (pair u64 u32)).Spec fun _ => true :=
    (seq_spec (pair_spec u64_spec u32_spec)).congr fun xs => by simp
  simp only [RefundPolicy.variants, List.forall_mem_cons]
  refine ⟨unit_spec rfl, unit_spec rfl,
    of_spec (Content.newtype_spec u32_spec) (fun a x h => ?_) fun _ => rfl,
    of_spec (Content.newtype_spec hsteps) (fun a x h => ?_) fun _ => rfl,
    List.forall_mem_nil _⟩
  all_goals
    cases a <;> cases h
    rfl

theorem RefundPolicy.format_spec : RefundPolicy.format.Total :=
  enum_spec (by decide) RefundPolicy.variants_spec fun a => by cases a <;> rfl

theorem Guarantee.variants_spec : ∀ v ∈ Guarantee.variants, v.Spec fun _ => true := by
  simp only [Guarantee.variants, List.forall_mem_cons]
  refine ⟨of_spec (Content.newtype_spec u64_spec) (fun a x h => ?_) fun _ => rfl,
    of_spec (Content.newtype_spec u32_spec) (fun a x h => ?_) fun _ => rfl,
    of_spec (Content.newtype_spec string_spec) (fun a x h => ?_) fun _ => rfl,
    of_spec (Content.newtype_spec RefundPolicy.format_spec) (fun a x h => ?_) fun _ => rfl,
    List.forall_mem_nil _⟩
  all_goals
    cases a <;> cases h
    rfl

theorem Guarantee.format_spec : Guarantee.format.Total :=
  enum_spec (by decide) Guarantee.variants_spec fun a => by cases a <;> rfl

theorem Bid.format_spec : Bid.format.Spec fun b => fitsU64 b.value := by
  have hfields := and_spec (field_spec "agent_id" AgentId.format_spec)
    (and_spec (field_spec "task_id" TaskId.format_spec)
      (and_spec (field_spec "value" u128_spec)
        (and_spec (field_spec "quality_score" u32_spec)
          (and_spec (field_spec "completion_time" u64_spec)
            (field_spec "guarantees" (seq_spec Guarantee.format_spec))
            (by decide)) (by decide)) (by decide)) (by decide)) (by decide)
  have h : Bid.format.Spec _ := struct_spec hfields (by decide) fun _ => rfl
  exact h.congr fun b => by simp

theorem ExecutionProof.variants_spec : ∀ v ∈ ExecutionProof.variants, v.Spec fun _ => true := by
  have hbytes : (seq u8).Spec fun _ => true := (seq_spec u8_spec).congr fun xs => by simp
  have hboth := and_spec (field_spec "tee" hbytes) (field_spec "zk" hbytes) (by decide)
  simp only [ExecutionProof.variants, List.forall_mem_cons]
  refine ⟨unit_spec rfl, of_spec (Content.newtype_spec hbytes) (fun a x h => ?_) fun _ => rfl,
    of_spec (Content.newtype_spec hbytes) (fun a x h => ?_) fun _ => rfl,
    of_spec (Content.struct_spec hboth (by decide)) (fun a x h => ?_) fun _ => rfl,
    List.forall_mem_nil _⟩
  all_goals
    cases a <;> cases h
    rfl

theorem ExecutionProof.format_spec : ExecutionProof.format.Total :=
  enum_spec (by decide) ExecutionProof.variants_spec fun a => by cases a <;> rfl

theorem ResourceUsage.format_spec : ResourceUsage.format.Total := by
  have hfields := and_spec (field_spec "cpu_time_ms" u64_spec)
    (and_spec (field_spec "memory_bytes" u64_spec)
      (and_spec (field_spec "storage_bytes" u64_spec)
        (and_spec (field_spec "bandwidth_bytes" u64_spec)
          (optional_spec "gpu_time_ms" u64_spec u64_notNull)
          (by decide)) (by decide)) (by decide)) (by decide)
  have h : ResourceUsage.format.Spec _ := struct_spec hfields (by decide) fun _ => rfl
  exact h.congr fun r => by simp

/-- A proof that is `Some(ExecutionProof::None)` is written as the name of the variant, so it is
not the same as no proof. -/
theorem TaskResult.format_spec : TaskResult.format.Total := by
  have hproof := enum_notNull ExecutionProof.variants_spec
  have hfields := and_spec (field_spec "task_id" TaskId.format_spec)
    (and_spec (field_spec "executor" AgentId.format_spec)
      (and_spec (field_spec "output" (seq_spec u8_spec))
        (and_spec (optional_spec "proof" ExecutionProof.format_spec hproof)
          (and_spec (field_spec "resources_used" ResourceUsage.format_spec)
            (field_spec "completed_at" u64_spec)
            (by decide)) (by decide)) (by decide)) (by decide)) (by decide)
  have h : TaskResult.format.Spec _ := struct_spec hfields (by decide) fun _ => rfl
  exact h.congr fun r => by simp

end Rules

end Core

section Rules

open Serde.Variant Serde.Fields

theorem TaskStatus.variants_spec : ∀ v ∈ TaskStatus.variants, v.Spec fun _ => true := by
  simp only [TaskStatus.variants, List.forall_mem_cons]
  exact ⟨unit_spec rfl, unit_spec rfl, List.forall_mem_nil _⟩

theorem TaskStatus.format_spec : TaskStatus.format.Total :=
  enum_spec (by decide) TaskStatus.variants_spec fun a => by cases a <;> rfl

theorem StoredTask.format_spec : StoredTask.format.Spec fun t => t.task.budget.fits := by
  have hfields := and_spec (field_spec "id" string_spec)
    (and_spec (optional_spec "client_task_id" string_spec string_notNull)
      (and_spec (field_spec "task" Core.Task.format_spec)
        (and_spec (field_spec "status" TaskStatus.format_spec) (field_spec "created_at" u64_spec)
          (by decide)) (by decide)) (by decide)) (by decide)
  have h : StoredTask.format.Spec _ := struct_spec hfields (by decide) fun _ => rfl
  exact h.congr fun t => by simp

theorem StoredBid.format_spec : StoredBid.format.Spec fun b => fitsU64 b.bid.value := by
  have hfields := and_spec (field_spec "id" string_spec)
    (and_spec (field_spec "task_id" string_spec)
      (and_spec (field_spec "agent_id" string_spec)
        (and_spec (field_spec "bid" Core.Bid.format_spec) (field_spec "created_at" u64_spec)
          (by decide)) (by decide)) (by decide)) (by decide)
  have h : StoredBid.format.Spec _ := struct_spec hfields (by decide) fun _ => rfl
  exact h.congr fun b => by simp

theorem StoredResult.format_spec : StoredResult.format.Total := by
  have hfields := and_spec (field_spec "id" string_spec)
    (and_spec (field_spec "task_id" string_spec)
      (and_spec (field_spec "agent_id" string_spec)
        (and_spec (field_spec "result" Core.TaskResult.format_spec)
          (field_spec "created_at" u64_spec)
          (by decide)) (by decide)) (by decide)) (by decide)
  exact struct_spec hfields (by decide) fun _ => rfl

end Rules

end Ainur
