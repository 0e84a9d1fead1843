import Ainur.Lib.Request
import Ainur.Storage.Records

set_option autoImplicit false

/-! # The HTTP handlers

The handlers of `main.rs` that write, as requests over the store, with the chain bridge on. A
handler that enqueues an extrinsic first prepares it, storage calls included, and then enqueues
it: most report a failed enqueue as a missing correlation id (`reportEnqueue`), the two endpoints
of the outbox itself return the error (`requireEnqueue`).
-/

namespace Ainur

open Faulty

abbrev Handler (α : Type) := Request ApiError Store α

/-- `ResponseWithCorrelation<T>`. -/
structure ResponseWithCorrelation (α : Type) where
  correlationId : Option String
  data : α

/-- An extrinsic that a handler is about to enqueue. -/
structure Outgoing where
  correlationId : String
  pallet : String
  call : String
  payload : Option String
  deriving DecidableEq, Repr

/-- `Display` of `ApiError`. -/
def ApiError.display : ApiError → String
  | .badRequest message => s!"bad request: {message}"
  | .notFound message => s!"not found: {message}"
  | .internal message => s!"internal server error: {message}"

/-- `validate_outbox_payload`. -/
def validateOutboxPayload (lib : Libraries) (out : Outgoing) : Except ApiError Unit :=
  (decodePayload lib.serde out.pallet out.call out.payload).mapError .badRequest

/-- `record_outbound_extrinsic` of `chain.rs`, on the sink of the store. -/
def recordOutgoing (draws : Draws) (out : Outgoing) : Handler Unit :=
  .call (Store.recordOutboundExtrinsic out.correlationId out.pallet out.call out.payload
    draws.now.toNat)

/-- Validate and enqueue; an error becomes a warning and no correlation id. -/
def reportEnqueue (lib : Libraries) (draws : Draws) (out : Outgoing) : Handler (Option String) :=
  match validateOutboxPayload lib out with
  | .error _ => pure none
  | .ok () => do
      match ← (recordOutgoing draws out).attempt with
      | .error _ => pure none
      | .ok () => pure (some out.correlationId)

/-- Enqueue, passing an error on. -/
def requireEnqueue (draws : Draws) (out : Outgoing) : Handler (Option String) := do
  recordOutgoing draws out
  return some out.correlationId

/-! ## Payloads -/

/-- An `i64` or `u64` in `json!`. -/
def jsonInt (n : Int) : Value := .number (Number.ofI64 n)

def jsonU64 (n : UInt64) : Value := .number (.posInt n)

/-- A `u128` in `json!`, which panics above `u64::MAX`. -/
def jsonU128 (n : Nat) : Option Value :=
  if n ≤ u64Max.toNat then some (jsonU64 (UInt64.ofNat n)) else none

/-- `format!("0x{}", hex::encode(blake3::hash(bytes)))`. -/
def hashHex (lib : Libraries) (bytes : List UInt8) : String :=
  "0x" ++ hexEncode (lib.blake3 bytes).val

def registerAgentPayload (agent : AgentRegistrationRequest) : Value :=
  .object [("did", .string agent.id), ("capabilities", .array []),
    ("metadata", .string agent.label), ("verification_level", .string "best_effort")]

def createTaskPayload (specHex : String) (budget deadline : Value) : Value :=
  .object [("spec_hash", .string specHex), ("budget", budget), ("deadline", deadline),
    ("verification_level", .string "best_effort")]

def submitBidPayload (taskChainId agentChainId : Int) (commitmentHex : String)
    (completionTime : UInt64) : Value :=
  .object [("task_id", jsonInt taskChainId), ("agent_id", jsonInt agentChainId),
    ("commitment", .string commitmentHex), ("estimated_duration", jsonU64 completionTime)]

def submitResultPayload (taskChainId agentChainId : Int) (resultHex : String) : Value :=
  .object [("task_id", jsonInt taskChainId), ("agent_id", jsonInt agentChainId),
    ("result_hash", .string resultHex), ("proof", .string "")]

def faucetPayload (address : String) (amount : UInt64) : Value :=
  .object [("address", .string address), ("amount", jsonU64 amount)]

/-! ## The lookups of chain ids -/

/-- `SELECT chain_task_id ..` with every error turned into 0. -/
def lookupTask (taskId : String) : Handler Int := do
  match ← (Request.call fun s : Store => .ok (s.taskChainId taskId, s)).attempt with
  | .ok id => pure id
  | .error _ => pure 0

def lookupAgent (agentId : String) : Handler Int := do
  match ← (Request.call fun s : Store => .ok (s.agentChainId agentId, s)).attempt with
  | .ok id => pure id
  | .error _ => pure 0

/-! ## Agents and tasks -/

section Handlers

variable (lib : Libraries) (draws : Draws)

/-- The extrinsic of an agent. -/
def registerAgentOutgoing (payload : AgentRegistrationRequest) : Outgoing where
  correlationId := draws.uuid 0
  pallet := "AgentRegistry"
  call := "register_agent"
  payload := some (lib.serde.toString (registerAgentPayload payload))

def prepareRegisterAgent (payload : AgentRegistrationRequest) :
    Handler (Outgoing × AgentRegistrationRequest) :=
  if isBlank payload.id then Request.throw (.badRequest "agent id must not be empty")
  else if isBlank payload.label then
    Request.throw (.badRequest "agent label must not be empty")
  else do
    Request.call (Store.registerAgent payload)
    return (registerAgentOutgoing lib draws payload, payload)

/-- `register_agent`. -/
def registerAgent (payload : AgentRegistrationRequest) :
    Handler (ResponseWithCorrelation AgentRegistrationRequest) := do
  let (out, data) ← prepareRegisterAgent lib draws payload
  let correlation ← reportEnqueue lib draws out
  return ⟨correlation, data⟩

/-- The extrinsic of a task; `json!` panics on a budget above `u64::MAX`. -/
def createTaskOutgoing (stored : StoredTask) : Handler Outgoing :=
  let view := TaskView.fromStored stored
  match jsonU128 view.maxBudget with
  | none => Request.panic
  | some budget => pure {
      correlationId := draws.uuid 1
      pallet := "TaskMarket"
      call := "create_task"
      payload := some (lib.serde.toString (createTaskPayload
        (hashHex lib stored.task.specification.input) budget (jsonU64 view.deadline))) }

def prepareSubmitTask (payload : TaskSubmissionRequest) : Handler (Outgoing × TaskView) := do
  let stored ← Request.ofExcept (StoredTask.fromSubmission lib draws payload)
  Request.call (Store.insertTask lib stored)
  let out ← createTaskOutgoing lib draws stored
  return (out, TaskView.fromStored stored)

/-- `submit_task`. -/
def submitTask (payload : TaskSubmissionRequest) :
    Handler (ResponseWithCorrelation TaskView) := do
  let (out, view) ← prepareSubmitTask lib draws payload
  let correlation ← reportEnqueue lib draws out
  return ⟨correlation, view⟩

/-! ## Bids and results -/

/-- The extrinsic of a bid. -/
def submitBidOutgoing (view : BidView) : Handler Outgoing := do
  let commitmentHex := hashHex lib (utf8 s!"{view.taskId}:{view.agentId}")
  let taskChainId ← lookupTask view.taskId
  let agentChainId ← lookupAgent view.agentId
  return {
    correlationId := draws.uuid 1
    pallet := "TaskMarket"
    call := "submit_bid"
    payload := some (lib.serde.toString
      (submitBidPayload taskChainId agentChainId commitmentHex view.completionTime)) }

def prepareSubmitBid (payload : BidSubmissionRequest) : Handler (Outgoing × BidView) := do
  let task ← Request.call (Store.getTask lib payload.taskId)
  let stored ← Request.ofExcept (StoredBid.fromSubmission lib draws payload task)
  Request.call (Store.insertBid lib stored)
  let out ← submitBidOutgoing lib draws (BidView.fromStored stored)
  return (out, BidView.fromStored stored)

/-- `submit_bid`. -/
def submitBid (payload : BidSubmissionRequest) :
    Handler (ResponseWithCorrelation BidView) := do
  let (out, view) ← prepareSubmitBid lib draws payload
  let correlation ← reportEnqueue lib draws out
  return ⟨correlation, view⟩

/-- The extrinsic of a result. -/
def submitResultOutgoing (view : ResultView) : Handler Outgoing := do
  let resultHex := hashHex lib (utf8 view.outputBase64)
  let taskChainId ← lookupTask view.taskId
  let agentChainId ← lookupAgent view.agentId
  return {
    correlationId := draws.uuid 1
    pallet := "TaskMarket"
    call := "submit_result"
    payload := some (lib.serde.toString
      (submitResultPayload taskChainId agentChainId resultHex)) }

/-- Complete the task, then store the result: the two writes of `submit_result` and of
`execute_task_local`. -/
def storeResult (task : StoredTask) (stored : StoredResult) : Handler Unit := do
  Request.call (Store.upsertTask lib { task with status := .completed })
  Request.call (Store.insertResult lib stored)

def prepareSubmitResult (payload : ResultSubmissionRequest) : Handler (Outgoing × ResultView) := do
  let task ← Request.call (Store.getTask lib payload.taskId)
  let stored ← Request.ofExcept (StoredResult.fromSubmission lib draws payload task)
  storeResult lib task stored
  let out ← submitResultOutgoing lib draws (ResultView.fromStored lib stored)
  return (out, ResultView.fromStored lib stored)

/-- `submit_result`. -/
def submitResult (payload : ResultSubmissionRequest) :
    Handler (ResponseWithCorrelation ResultView) := do
  let (out, view) ← prepareSubmitResult lib draws payload
  let correlation ← reportEnqueue lib draws out
  return ⟨correlation, view⟩

/-- `ExecutionEngine::execute`. -/
abbrev ExecutionEngine := StoredTask → Except ApiError (List UInt8)

/-- `execute_and_build_result`. -/
def executeAndBuildResult (engine : ExecutionEngine) (task : StoredTask) (agentId : String) :
    Except ApiError StoredResult := do
  let output ← engine task
  StoredResult.fromSubmission lib draws ⟨task.id, agentId, lib.base64Encode output⟩ task

/-- `execute_task_local`. -/
def executeTaskLocal (engine : ExecutionEngine) (id : String) : Handler ResultView := do
  let task ← Request.call (Store.getTask lib id)
  let stored ← Request.ofExcept (executeAndBuildResult lib draws engine task "local-echo")
  storeResult lib task stored
  return ResultView.fromStored lib stored

/-! ## The outbox endpoints -/

/-- The payload text of `enqueue_outbox`: `null` and the empty object are no payload. -/
def payloadStr (payload : Value) : Option String :=
  match payload with
  | .null => none
  | .object [] => none
  | v => some (lib.serde.toString v)

/-- The extrinsic of a request to the outbox. -/
def enqueueOutboxOutgoing (req : OutboundExtrinsicRequest) : Outgoing where
  correlationId := draws.uuid 0
  pallet := req.pallet
  call := req.call
  payload := payloadStr lib req.payload

/-- The response data of `enqueue_outbox` is its `status`. -/
def prepareEnqueueOutbox (req : OutboundExtrinsicRequest) : Handler (Outgoing × String) :=
  let out := enqueueOutboxOutgoing lib draws req
  if out.payload.any fun p => p.utf8ByteSize > 4096 then
    Request.throw (.badRequest "payload exceeds 4096 bytes")
  else do
    Request.ofExcept ((validateOutboxPayload lib out).mapError fun e =>
      .badRequest s!"invalid payload: {e.display}")
    return (out, "queued")

/-- `enqueue_outbox`. -/
def enqueueOutbox (req : OutboundExtrinsicRequest) :
    Handler (ResponseWithCorrelation String) := do
  let (out, status) ← prepareEnqueueOutbox lib draws req
  let correlation ← requireEnqueue draws out
  return ⟨correlation, status⟩

/-- The extrinsic of the faucet. -/
def faucetOutgoing (address : String) (amount : UInt64) : Outgoing where
  correlationId := draws.uuid 0
  pallet := "Balances"
  call := "transfer_allow_death"
  payload := some (lib.serde.toString (faucetPayload address amount))

def prepareRequestFaucet (body : Value) : Handler (Outgoing × Value) := do
  let address ← Request.ofExcept (Fallible.okOr ((body.get "address").bind Value.asStr)
    (ApiError.badRequest "address is required"))
  let amount := ((body.get "amount").bind Value.asU64).getD 1000000000000
  Request.ofExcept (validateOutboxPayload lib (faucetOutgoing lib draws address amount))
  return (faucetOutgoing lib draws address amount, faucetPayload address amount)

/-- `request_faucet`. -/
def requestFaucet (body : Value) : Handler (ResponseWithCorrelation Value) := do
  let (out, data) ← prepareRequestFaucet lib draws body
  let correlation ← requireEnqueue draws out
  return ⟨correlation, data⟩

end Handlers

/-! ### Parts of the handlers that only read -/

section Reads

variable {lib : Libraries} {draws : Draws} {ρ : Type} {π : Store → ρ}

theorem keeps_read {α : Type} (op : Store → Except ApiError α) :
    Request.Keeps π (Request.call fun s => (op s).map fun a => (a, s) : Handler α) := by
  refine Request.keeps_call fun s a s' h => ?_
  cases hop : op s with
  | error e => simp [hop, Except.map] at h
  | ok a' =>
      obtain ⟨-, rfl⟩ : a' = a ∧ s = s' := by simpa [hop, Except.map] using h
      rfl

theorem keeps_lookupTask (taskId : String) : Request.Keeps π (lookupTask taskId) := by
  refine Request.keeps_bind (Request.keeps_attempt
    (keeps_read fun s => .ok (s.taskChainId taskId))) fun r => ?_
  cases r with
  | error e => exact Request.keeps_pure _
  | ok id => exact Request.keeps_pure _

theorem keeps_lookupAgent (agentId : String) : Request.Keeps π (lookupAgent agentId) := by
  refine Request.keeps_bind (Request.keeps_attempt
    (keeps_read fun s => .ok (s.agentChainId agentId))) fun r => ?_
  cases r with
  | error e => exact Request.keeps_pure _
  | ok id => exact Request.keeps_pure _

theorem keeps_createTaskOutgoing (stored : StoredTask) :
    Request.Keeps π (createTaskOutgoing lib draws stored) := by
  unfold createTaskOutgoing
  simp only
  split
  · exact Request.keeps_panic
  · exact Request.keeps_pure _

theorem keeps_submitBidOutgoing (view : BidView) :
    Request.Keeps π (submitBidOutgoing lib draws view) :=
  Request.keeps_bind (keeps_lookupTask _) fun _ =>
    Request.keeps_bind (keeps_lookupAgent _) fun _ => Request.keeps_pure _

theorem keeps_submitResultOutgoing (view : ResultView) :
    Request.Keeps π (submitResultOutgoing lib draws view) :=
  Request.keeps_bind (keeps_lookupTask _) fun _ =>
    Request.keeps_bind (keeps_lookupAgent _) fun _ => Request.keeps_pure _

end Reads

/-! ### Parts of the handlers that write the outbox only -/

section Outbox

variable {lib : Libraries} {draws : Draws} {ρ : Type} {π : Store → ρ}

/-- This part of the store is not in the outbox. -/
def IgnoresOutbox (π : Store → ρ) : Prop :=
  ∀ db p rows, π (.postgres db { p with outbox := rows }) = π (.postgres db p)

theorem keeps_recordOutgoing (hπ : IgnoresOutbox π) (out : Outgoing) :
    Request.Keeps π (recordOutgoing draws out) := by
  refine Request.keeps_call fun s u s' h => ?_
  cases s with
  | memory m =>
      obtain rfl : _ = s' := congrArg Prod.snd (Except.ok.inj h)
      rfl
  | postgres db p =>
      obtain ⟨q, hrec, rfl⟩ := postgres_map_eq_ok h
      rw [PostgresStorage.recordOutboundExtrinsic_frame hrec]
      exact hπ db p q.outbox

theorem keeps_reportEnqueue (hπ : IgnoresOutbox π) (out : Outgoing) :
    Request.Keeps π (reportEnqueue lib draws out) := by
  unfold reportEnqueue
  split
  · exact Request.keeps_pure _
  · refine Request.keeps_bind (Request.keeps_attempt (keeps_recordOutgoing hπ out)) fun r => ?_
    cases r with
    | error e => exact Request.keeps_pure _
    | ok u => exact Request.keeps_pure _

/-- The end of a handler: the enqueue and the response. -/
theorem keeps_respond (hπ : IgnoresOutbox π) {α : Type} (r : Outgoing × α) :
    Request.Keeps π (do
      let correlation ← reportEnqueue lib draws r.1
      return ⟨correlation, r.2⟩ : Handler (ResponseWithCorrelation α)) :=
  Request.keeps_bind (keeps_reportEnqueue hπ r.1) fun _ => Request.keeps_pure _

end Outbox

/-! ## Start-up -/

def InMemoryStorage.default : InMemoryStorage := ⟨[], [], [], []⟩

def emptyPostgres : PostgresStorage := ⟨[], [], [], [], []⟩

/-- The store that `AppState::from_config` selects; `connect` is `connect_with_pool`. -/
def fromConfig (databaseUrl : Option String)
    (connect : String → Except ApiError (Storage.Database × PostgresStorage)) : Store :=
  match databaseUrl with
  | some url =>
      match connect url with
      | .ok (db, p) => .postgres db p
      | .error _ => .memory .default
  | none => .memory .default

end Ainur
