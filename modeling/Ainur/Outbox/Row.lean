import Ainur.Json

set_option autoImplicit false

/-! # Rows of `outbound_extrinsics`

The columns of a row and every statement that writes one: the insert of
`record_outbound_extrinsic`, the two updates of `run_outbox`, and the updates that the replay
worker, `patch_pending_with_ids` and `backfill_once` send. An update is a `WHERE` clause
(`Update.applies`) and a `SET` clause (`Update.set`).
-/

namespace Ainur

/-- The values that the check `outbound_extrinsics_status_chk` admits. -/
inductive OutboxStatus where
  | pending
  | finalized
  | failed
  | dead
  deriving DecidableEq, Repr

/-- A row of `outbound_extrinsics`. Times are seconds; `updated_at` is written but never read back by
a statement, and left out. -/
structure OutboundExtrinsic where
  correlationId : String
  pallet : String
  call : String
  payload : Option String
  status : OutboxStatus
  createdAt : Nat
  retryCount : Nat
  lastError : Option String
  txHash : Option String
  chainTaskId : Option Int
  chainAgentId : Option Int
  processedAt : Option Nat
  deriving DecidableEq, Repr

namespace OutboundExtrinsic

/-- The checks on the lengths of `payload` and `last_error`. -/
def checks (row : OutboundExtrinsic) : Bool :=
  row.payload.all (fun p => p.length ≤ 4096) && row.lastError.all (fun e => e.length ≤ 512)

/-- The row that `record_outbound_extrinsic` inserts. -/
def insert (correlationId pallet call : String) (payload : Option String) (status : OutboxStatus)
    (now : Nat) : OutboundExtrinsic where
  correlationId := correlationId
  pallet := pallet
  call := call
  payload := payload
  status := status
  createdAt := now
  retryCount := 0
  lastError := none
  txHash := none
  chainTaskId := none
  chainAgentId := none
  processedAt := none

/-- `ON CONFLICT (correlation_id) DO UPDATE` of the same statement. -/
def onConflict (row : OutboundExtrinsic) (payload : Option String) (status : OutboxStatus) :
    OutboundExtrinsic :=
  { row with payload := payload.or row.payload, status := status }

/-- The update of `run_outbox` after a submission that returned a hash; `now` is the time of its
transaction. -/
def finalize (hash : String) (now : Nat) (row : OutboundExtrinsic) : OutboundExtrinsic :=
  { row with
    status := .finalized
    retryCount := row.retryCount + 1
    lastError := none
    txHash := some hash
    processedAt := some now }

/-- The update of `run_outbox` after a submission that failed. -/
def fail (status : OutboxStatus) (err : String) (now : Nat) (row : OutboundExtrinsic) :
    OutboundExtrinsic :=
  { row with
    status := status
    retryCount := row.retryCount + 1
    lastError := some err
    processedAt := some now }

end OutboundExtrinsic

/-- The columns that the fetch query of `run_outbox` reads. -/
structure Job where
  correlationId : String
  pallet : String
  call : String
  payload : Option String
  retryCount : Nat
  deriving DecidableEq, Repr

def OutboundExtrinsic.job (row : OutboundExtrinsic) : Job where
  correlationId := row.correlationId
  pallet := row.pallet
  call := row.call
  payload := row.payload
  retryCount := row.retryCount

/-! ## Errors of a submission -/

/-- `str::contains`. -/
def containsStr (s pat : String) : Bool :=
  s.toList.tails.any fun rest => pat.toList.isPrefixOf rest

/-- `is_connection_err`. -/
def isConnectionErr (err : String) : Bool :=
  containsStr err "disconnect" || containsStr err "Connection" || containsStr err "closed"

/-- The characters of the first `n` bytes; `none` where byte `n` is inside a character. -/
def truncateChars : Nat → List Char → Option (List Char)
  | 0, _ => some []
  | _ + 1, [] => some []
  | n + 1, c :: cs =>
      if c.utf8Size ≤ n + 1 then (truncateChars (n + 1 - c.utf8Size) cs).map (c :: ·) else none

/-- `String::truncate` to `MAX_ERR` bytes of an error; it panics inside a character. -/
def truncateErr (err : String) : Option String :=
  (truncateChars 512 err.toList).map String.ofList

/-- `MAX_RETRIES` of `run_outbox`. -/
def maxRetries : Nat := 5

/-- `next_status`, from the `retry_count` that was fetched. -/
def nextStatus (retryCount : Nat) : OutboxStatus :=
  if retryCount + 1 > maxRetries then .dead else .failed

/-! ## The other writers -/

/-- What Postgres does with the text of a payload. -/
structure Jsonb where
  /-- `payload::jsonb`; `none` where the cast raises. -/
  cast : String → Option Value
  /-- `::text` of a `jsonb` value. -/
  text : Value → String
  /-- `->>` of a member and then `::bigint`: `none` where the cast raises, `some none` for a
  JSON `null`. -/
  bigint : Value → Option (Option Int)

/-- Postgres on the texts of the given values, with numbers in the members that are cast. -/
def Jsonb.onValues (values : List Value) : Jsonb where
  cast text := values.find? fun v => v.render "," ":" = text
  text := Value.render ", " ": "
  bigint v := v.integer?.map some

/-- A placeholder member of a payload. -/
inductive IdMember where
  | taskId
  | agentId
  deriving DecidableEq, Repr

def IdMember.name : IdMember → String
  | .taskId => "task_id"
  | .agentId => "agent_id"

/-- The updates that are not `run_outbox`'s, with the values bound to them. -/
inductive Update where
  /-- The replay worker on `AgentRegistered`, by `tx_hash`. -/
  | agentRegistered (corr : String) (agentId : Int)
  /-- The replay worker on `TaskCreated`, by `tx_hash`. -/
  | taskCreated (corr : String) (taskId : Int)
  /-- The replay worker on `BidSubmitted` and on `TaskCompleted`, by `tx_hash`. -/
  | bothIds (corr : String) (taskId agentId : Int)
  /-- `patch_pending_with_ids`, once for each member. -/
  | patch (idMember : IdMember) (chainId : Int)
  /-- `backfill_once` on `AgentRegistered`, by `correlation_id`. -/
  | backfillAgent (corr : String) (agentId : Int)
  /-- `backfill_once` on `TaskCreated`, by `correlation_id`. -/
  | backfillTask (corr : String) (taskId : Int)
  /-- `backfill_once` on `BidSubmitted` and on `TaskCompleted`, by `correlation_id`. -/
  | coalesceTask (corr : String) (taskId : Int)
  deriving DecidableEq, Repr

/-- `payload::jsonb ? m AND (payload::jsonb ->> m)::bigint = 0`; `none` where a cast raises. -/
def holdsPlaceholder (pg : Jsonb) (m : IdMember) (payload : Option String) : Option Bool :=
  match payload with
  | none => some false
  | some text => do
      let v ← pg.cast text
      match v.get m.name with
      | none => return false
      | some x => return (← pg.bigint x) = some 0

/-- `jsonb_set(payload::jsonb, '{m}', to_jsonb(id))::text`. -/
def setPlaceholder (pg : Jsonb) (m : IdMember) (chainId : Int) (payload : Option String) :
    Option String := do
  let v ← pg.cast (← payload)
  return pg.text (v.set m.name (.number (Number.ofI64 chainId)))

namespace Update

/-- The `WHERE` clause; `none` where evaluating it raises, which ends the statement. -/
def applies (pg : Jsonb) (u : Update) (row : OutboundExtrinsic) : Option Bool :=
  match u with
  | .agentRegistered corr _ | .taskCreated corr _ | .bothIds corr _ _ =>
      some (row.txHash = some corr)
  | .patch m _ =>
      if row.status = .pending then holdsPlaceholder pg m row.payload else some false
  | .backfillAgent corr _ => some (row.correlationId = corr ∧ row.chainAgentId = none)
  | .backfillTask corr _ => some (row.correlationId = corr ∧ row.chainTaskId = none)
  | .coalesceTask corr _ => some (row.correlationId = corr)

/-- The `SET` clause. -/
def set (pg : Jsonb) (u : Update) (row : OutboundExtrinsic) : OutboundExtrinsic :=
  match u with
  | .agentRegistered _ agentId => { row with chainAgentId := some agentId, status := .finalized }
  | .taskCreated _ taskId => { row with chainTaskId := some taskId, status := .finalized }
  | .bothIds _ taskId agentId =>
      { row with
        chainTaskId := some taskId, chainAgentId := some agentId, status := .finalized }
  | .patch m chainId => { row with payload := setPlaceholder pg m chainId row.payload }
  | .backfillAgent _ agentId => { row with chainAgentId := some agentId }
  | .backfillTask _ taskId => { row with chainTaskId := some taskId }
  | .coalesceTask _ taskId => { row with chainTaskId := row.chainTaskId.or (some taskId) }

end Update

/-! ## What an update leaves alone -/

/-- A row is finalized exactly when it has a transaction hash. -/
def OutboundExtrinsic.Hashed (row : OutboundExtrinsic) : Prop :=
  row.txHash.isSome = true ↔ row.status = .finalized

/-- `row'` differs from `row` at most in its chain ids and, while it is pending, its payload. -/
structure OutboundExtrinsic.Same (row row' : OutboundExtrinsic) : Prop where
  correlationId : row'.correlationId = row.correlationId
  pallet : row'.pallet = row.pallet
  call : row'.call = row.call
  status : row'.status = row.status
  retryCount : row'.retryCount = row.retryCount
  txHash : row'.txHash = row.txHash
  payload : row.status ≠ .pending → row'.payload = row.payload

theorem OutboundExtrinsic.Same.refl (row : OutboundExtrinsic) : row.Same row :=
  ⟨rfl, rfl, rfl, rfl, rfl, rfl, fun _ => rfl⟩

theorem OutboundExtrinsic.Same.trans {a b c : OutboundExtrinsic} (hab : a.Same b)
    (hbc : b.Same c) : a.Same c where
  correlationId := hbc.correlationId.trans hab.correlationId
  pallet := hbc.pallet.trans hab.pallet
  call := hbc.call.trans hab.call
  status := hbc.status.trans hab.status
  retryCount := hbc.retryCount.trans hab.retryCount
  txHash := hbc.txHash.trans hab.txHash
  payload hne := (hbc.payload (by rw [hab.status]; exact hne)).trans (hab.payload hne)

/-- The updates by `tx_hash` set the status of a row that is finalized already, and the patches
stop at rows that have left `pending`. -/
theorem Update.same {pg : Jsonb} {u : Update} {row : OutboundExtrinsic} (h : row.Hashed)
    (happ : u.applies pg row = some true) : row.Same (u.set pg row) := by
  have hfin : ∀ corr, row.txHash = some corr → row.status = .finalized := by
    intro corr hcorr
    exact h.mp (by simp [hcorr])
  cases u with
  | agentRegistered corr _ =>
      have hs := hfin corr (by simpa [applies] using happ)
      exact ⟨rfl, rfl, rfl, hs.symm, rfl, rfl, fun _ => rfl⟩
  | taskCreated corr _ =>
      have hs := hfin corr (by simpa [applies] using happ)
      exact ⟨rfl, rfl, rfl, hs.symm, rfl, rfl, fun _ => rfl⟩
  | bothIds corr _ _ =>
      have hs := hfin corr (by simpa [applies] using happ)
      exact ⟨rfl, rfl, rfl, hs.symm, rfl, rfl, fun _ => rfl⟩
  | patch m chainId =>
      refine ⟨rfl, rfl, rfl, rfl, rfl, rfl, fun hne => ?_⟩
      simp [applies, hne] at happ
  | backfillAgent _ _ => exact ⟨rfl, rfl, rfl, rfl, rfl, rfl, fun _ => rfl⟩
  | backfillTask _ _ => exact ⟨rfl, rfl, rfl, rfl, rfl, rfl, fun _ => rfl⟩
  | coalesceTask _ _ => exact ⟨rfl, rfl, rfl, rfl, rfl, rfl, fun _ => rfl⟩

end Ainur
