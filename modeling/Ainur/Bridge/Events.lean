import Mathlib.Algebra.Group.Nat.Defs
import Ainur.Chain.Replay
import Ainur.Storage.Records

set_option autoImplicit false

/-! # What the replay worker does to the tables

The branches of `run_chain_replay` between reading an event and recording it. A branch is a list
of statements (`ReplayOp`), and a statement that reads decides what follows it. Every statement's
error is dropped in the source, so a statement that the database does not accept, or that fails,
leaves the tables as they are and the branch goes on.
-/

namespace Ainur.Bridge

open Storage (Database)

/-! ## Events -/

/-- The events with a branch of their own, decoded by `as_event`, with the fields that the branch
uses; `TaskMatched` is read from the text of its field values. -/
inductive Event where
  | agentRegistered (agentId : UInt64) (owner : String)
  | taskCreated (taskId : UInt64) (budget : Nat)
  | bidSubmitted (taskId agentId : UInt64)
  | taskCompleted (taskId agentId : UInt64) (resultHash : String)
  | taskMatched (payload : String)
  /-- Any other event, and one that `as_event` does not decode. -/
  | other (pallet variant : String)
  deriving DecidableEq, Repr

/-- Pallet and variant. -/
def Event.names : Event → String × String
  | .agentRegistered _ _ => ("AgentRegistry", "AgentRegistered")
  | .taskCreated _ _ => ("TaskMarket", "TaskCreated")
  | .bidSubmitted _ _ => ("TaskMarket", "BidSubmitted")
  | .taskCompleted _ _ _ => ("TaskMarket", "TaskCompleted")
  | .taskMatched _ => ("TaskMarket", "TaskMatched")
  | .other pallet variant => (pallet, variant)

def Event.isSupported (e : Event) : Bool := Replay.isSupported e.names.1 e.names.2

/-- An event as the worker gets it, with what its branch draws: a UUID and the clock. -/
structure Delivery where
  event : Event
  blockNumber : UInt32
  /-- The hash of the extrinsic that caused the event. -/
  correlation : Option String
  generatedId : String
  now : Int
  deriving DecidableEq, Repr

/-- `str::trim`. -/
def trim (s : List Char) : List Char :=
  ((s.dropWhile isWhiteSpace).reverse.dropWhile isWhiteSpace).reverse

/-- `str::parse::<u64>`. -/
def parseU64 (s : List Char) : Option UInt64 :=
  let digits := match s with
    | '+' :: rest => rest
    | rest => rest
  if digits.isEmpty || !digits.all Char.isDigit then none
  else
    let n := digits.foldl (fun n c => 10 * n + (c.toNat - 48)) 0
    if n ≤ u64Max.toNat then some (UInt64.ofNat n) else none

/-- `extract_two_u64`. -/
def extractTwoU64 (payload : String) : Option UInt64 × Option UInt64 :=
  let opened := (trim payload.toList).dropWhile (· = '[')
  let trimmed := (opened.reverse.dropWhile (· = ']')).reverse
  let parts := (trimmed.splitOn ',').map trim
  (parts[0]?.bind parseU64, parts[1]?.bind parseU64)

/-- `agent_bytes_from_chain_id`. -/
def agentBytesFromChainId (id : UInt64) : Bytes32 :=
  ⟨(List.range 32).map fun i =>
    if i < 8 then UInt8.ofNat (id.toNat / 256 ^ i) else 0, by simp⟩

def zeroTaskId : Core.TaskId := ⟨List.replicate 32 0, by simp⟩

/-! ## Statements -/

/-- A statement of a branch, with the values bound to it. -/
inductive ReplayOp where
  | mirrorAgent (agentId : UInt64) (owner : String)
  | linkAgents (agentId : Int) (owner : String)
  /-- An update of `outbound_extrinsics`. -/
  | outbox (update : Update)
  | mirrorTask (taskId : Int)
  | linkTask (taskId : Int)
  /-- `SELECT id FROM tasks` on `BidSubmitted`. -/
  | findBidTask (taskId agentId : UInt64)
  /-- `SELECT id FROM agents` there. -/
  | findBidAgent (taskUuid : String) (taskId agentId : UInt64)
  | insertBid (row : BidRow)
  /-- `SELECT id FROM tasks` on `TaskCompleted`. -/
  | findCompletedTask (taskId agentId : UInt64) (resultHash : String)
  | insertResult (row : ResultRow)
  | completeTask (taskId : Int) (resultHash : String)
  | matchTask (taskId agentId : Int)

/-- `format!("did:ainur:{}", id)`. -/
def chainDid (agentId : UInt64) : String := s!"did:ainur:{agentId.toNat}"

/-- `patch_pending_with_ids`. -/
def patchPendingWithIds (taskId agentId : Option Int) : List ReplayOp :=
  (taskId.toList.map fun id => .outbox (.patch .taskId id)) ++
    agentId.toList.map fun id => .outbox (.patch .agentId id)

/-- The updates by `tx_hash`, sent where the event has a correlation. -/
def byTxHash (d : Delivery) (update : String → Update) : List ReplayOp :=
  d.correlation.toList.map fun corr => .outbox (update corr)

/-- The branch of an event; `none` where `json!` panics on the budget. -/
def Delivery.ops (d : Delivery) : Option (List ReplayOp) :=
  match d.event with
  | .agentRegistered agentId owner =>
      some ([.mirrorAgent agentId owner] ++ byTxHash d (.agentRegistered · (asI64 agentId)) ++
        [.linkAgents (asI64 agentId) owner])
  | .taskCreated taskId budget =>
      if budget ≤ u64Max.toNat then
        some ([.mirrorTask (asI64 taskId)] ++ byTxHash d (.taskCreated · (asI64 taskId)) ++
          [.linkTask (asI64 taskId)] ++ patchPendingWithIds (some (asI64 taskId)) none)
      else none
  | .bidSubmitted taskId agentId => some [.findBidTask taskId agentId]
  | .taskCompleted taskId agentId resultHash => some [.findCompletedTask taskId agentId resultHash]
  | .taskMatched payload =>
      match extractTwoU64 payload with
      | (some taskId, some agentId) =>
          some (.matchTask (asI64 taskId) (asI64 agentId) ::
            patchPendingWithIds (some (asI64 taskId)) (some (asI64 agentId)))
      | _ => some []
  | .other _ _ => some []

/-! ### What a statement reads -/

/-- The rows that `WHERE chain_task_id IS NULL` finds. -/
def unlinked (tasks : List TaskRow) : List TaskRow := tasks.filter fun r => r.chainTaskId = none

/-- The row that a statement with `LIMIT 1` takes, where there is one to take: one of the oldest
without a chain id, or any one with the chain id. -/
def ReplayOp.picks (p : PostgresStorage) (pick : String) : ReplayOp → Bool
  | .linkTask _ =>
      (unlinked p.tasks).isEmpty || (unlinked p.tasks).any fun r =>
        r.id = pick && (unlinked p.tasks).all fun r' => r.createdAt ≤ r'.createdAt
  | .findBidTask taskId _ | .findCompletedTask taskId _ _ =>
      (p.tasks.all fun r => r.chainTaskId ≠ some (asI64 taskId)) ||
        p.tasks.any fun r => r.id = pick && r.chainTaskId = some (asI64 taskId)
  | .findBidAgent _ _ agentId =>
      (p.agents.all fun a => a.chainAgentId ≠ some (asI64 agentId)) ||
        p.agents.any fun a => a.id = pick && a.chainAgentId = some (asI64 agentId)
  | _ => true

/-- The bid of a branch. -/
def mirroredBid (d : Delivery) (taskUuid did : String) (agentId : UInt64) : BidRow where
  id := d.generatedId
  taskId := taskUuid
  agentId := ⟨agentBytesFromChainId agentId⟩
  stored := .ok {
    id := d.generatedId
    taskId := taskUuid
    agentId := did
    bid :=
      { agentId := ⟨agentBytesFromChainId agentId⟩
        taskId := zeroTaskId
        value := 0
        qualityScore := 0
        completionTime := 0
        guarantees := [] }
    createdAt := d.blockNumber.toUInt64 }

/-- The result of a branch. -/
def mirroredResult (d : Delivery) (taskUuid : String) (agentId : UInt64) : ResultRow where
  id := d.generatedId
  taskId := taskUuid
  stored := .ok {
    id := d.generatedId
    taskId := taskUuid
    agentId := chainDid agentId
    result :=
      { taskId := zeroTaskId
        executor := ⟨agentBytesFromChainId agentId⟩
        output := []
        proof := some .none
        resourcesUsed :=
          { cpuTimeMs := 0
            memoryBytes := 0
            storageBytes := 0
            bandwidthBytes := 0
            gpuTimeMs := none }
        completedAt := d.blockNumber.toUInt64 }
    createdAt := d.blockNumber.toUInt64 }

/-- What follows a statement; `none` where `row.get` panics on the type of the column. -/
def ReplayOp.next (db : Database) (d : Delivery) (p : PostgresStorage) (pick : String) :
    ReplayOp → Option (List ReplayOp)
  | .findBidTask taskId agentId =>
      if db.accepts Storage.taskByChainIdSql ∧
          p.tasks.any (fun r => r.chainTaskId = some (asI64 taskId)) then
        if db.readsText "tasks" "id" then some [.findBidAgent pick taskId agentId] else none
      else some []
  | .findBidAgent taskUuid taskId agentId =>
      let found := db.accepts Storage.agentByChainIdSql &&
        p.agents.any fun a => a.chainAgentId = some (asI64 agentId)
      if found && !db.readsText "agents" "id" then none
      else
        let did := if found then pick else chainDid agentId
        some (.insertBid (mirroredBid d taskUuid did agentId) ::
          byTxHash d (.bothIds · (asI64 taskId) (asI64 agentId)))
  | .findCompletedTask taskId agentId resultHash =>
      if db.accepts Storage.taskByChainIdSql ∧
          p.tasks.any (fun r => r.chainTaskId = some (asI64 taskId)) then
        if db.readsText "tasks" "id" then
          some ([.insertResult (mirroredResult d pick agentId),
              .completeTask (asI64 taskId) resultHash] ++
            byTxHash d (.bothIds · (asI64 taskId) (asI64 agentId)) ++
            patchPendingWithIds (some (asI64 taskId)) (some (asI64 agentId)))
        else none
      else some []
  | _ => some []

/-- What follows a statement that fails: a task that is not found has no branch, an agent that is
not found is named after its chain id. -/
def ReplayOp.nextFailed (d : Delivery) : ReplayOp → List ReplayOp
  | .findBidAgent taskUuid taskId agentId =>
      .insertBid (mirroredBid d taskUuid (chainDid agentId) agentId) ::
        byTxHash d (.bothIds · (asI64 taskId) (asI64 agentId))
  | _ => []

/-! ### What a statement writes -/

/-- An update of the outbox, in one go: a row on which the `WHERE` clause raises, or a new row
that a check refuses, ends it without effect. -/
def Update.exec (pg : Jsonb) (u : Update) (rows : List OutboundExtrinsic) :
    Option (List OutboundExtrinsic) :=
  if rows.all fun row => (u.applies pg row).isSome &&
      (u.applies pg row ≠ some true || (u.set pg row).checks) then
    some (rows.map fun row => if u.applies pg row = some true then u.set pg row else row)
  else none

/-- The rows that an update changes. -/
def Update.changed (pg : Jsonb) (u : Update) (rows : List OutboundExtrinsic) :
    List OutboundExtrinsic :=
  if (Update.exec pg u rows).isSome then rows.filter fun row => u.applies pg row = some true else []

/-- The stored JSON of a mirrored task lacks members of `StoredTask`. -/
def mirroredTask (d : Delivery) (taskId : Int) : TaskRow where
  id := d.generatedId
  stored := .error "missing field `payment_schedule`"
  status := "pending"
  createdAt := d.now
  chainTaskId := some taskId
  resultHash := none
  matchedAgent := none

/-- The tables after a statement that does not fail. -/
def ReplayOp.write (db : Database) (pg : Jsonb) (d : Delivery) (pick : String)
    (p : PostgresStorage) : ReplayOp → PostgresStorage
  | .mirrorAgent agentId owner =>
      let id := chainDid agentId
      if !db.accepts Storage.mirrorAgentSql then p
      else if p.agents.any fun a => a.id = id then
        { p with
          agents := p.agents.map fun a =>
            if a.id = id then ⟨id, id, some (asI64 agentId), some owner⟩ else a }
      else { p with agents := p.agents ++ [⟨id, id, some (asI64 agentId), some owner⟩] }
  | .linkAgents agentId owner =>
      if !db.accepts Storage.linkAgentSql then p
      else
        { p with
          agents := p.agents.map fun a =>
            if a.accountAddress = some owner ∧ a.chainAgentId = none then
              { a with chainAgentId := some agentId }
            else a }
  | .outbox u =>
      match Update.exec pg u p.outbox with
      | some rows => { p with outbox := rows }
      | none => p
  | .mirrorTask taskId =>
      let row := mirroredTask d taskId
      if !db.accepts Storage.mirrorTaskSql then p
      else if p.tasks.any fun r => r.chainTaskId = some taskId then
        { p with
          tasks := p.tasks.map fun r =>
            if r.chainTaskId = some taskId then { r with stored := row.stored, status := row.status }
            else r }
      else if p.tasks.any fun r => r.id = row.id then p
      else { p with tasks := p.tasks ++ [row] }
  | .linkTask taskId =>
      if !db.accepts Storage.linkTaskSql then p
      else
        { p with
          tasks := p.tasks.map fun r =>
            if r.id = pick ∧ r.chainTaskId = none then { r with chainTaskId := some taskId } else r }
  | .insertBid row =>
      if !db.accepts Storage.mirrorBidSql ∨
          p.bids.any (fun b => b.id = row.id ∨ (b.taskId = row.taskId ∧ b.agentId = row.agentId)) ∨
          !p.tasks.any (fun r => r.id = row.taskId) then p
      else { p with bids := p.bids ++ [row] }
  | .insertResult row =>
      if !db.accepts Storage.mirrorResultSql then p
      else if p.results.any fun r => r.taskId = row.taskId then
        { p with
          results := p.results.map fun r =>
            if r.taskId = row.taskId then { r with stored := row.stored } else r }
      else if !p.tasks.any fun r => r.id = row.taskId then p
      else { p with results := p.results ++ [row] }
  | .completeTask taskId resultHash =>
      if !db.accepts Storage.completeTaskSql then p
      else
        { p with
          tasks := p.tasks.map fun r =>
            if r.chainTaskId = some taskId then
              { r with status := "completed", resultHash := some resultHash }
            else r }
  | .matchTask taskId agentId =>
      if !db.accepts Storage.matchTaskSql then p
      else
        { p with
          tasks := p.tasks.map fun r =>
            if r.chainTaskId = some taskId then
              { r with status := "pending", matchedAgent := some agentId }
            else r }
  | .findBidTask _ _ | .findBidAgent _ _ _ | .findCompletedTask _ _ _ => p

/-! ### What a statement leaves alone -/

/-- The statements that write `tasks`. -/
def ReplayOp.writesTasks : ReplayOp → Bool
  | .mirrorTask _ | .linkTask _ | .completeTask _ _ | .matchTask _ _ => true
  | _ => false

/-- The statement that writes `bids`. -/
def ReplayOp.writesBids : ReplayOp → Bool
  | .insertBid _ => true
  | _ => false

/-- The statement of `TaskMatched`. -/
def ReplayOp.isMatch : ReplayOp → Bool
  | .matchTask _ _ => true
  | _ => false

section Frames

variable {db : Database} {pg : Jsonb} {d : Delivery} {pick : String} {p : PostgresStorage}

theorem ReplayOp.write_tasks {op : ReplayOp} (h : op.writesTasks = false) :
    (op.write db pg d pick p).tasks = p.tasks := by
  cases op with
  | mirrorAgent agentId owner =>
      simp only [write]
      split
      · rfl
      · split <;> rfl
  | linkAgents agentId owner =>
      simp only [write]
      split <;> rfl
  | outbox u =>
      simp only [write]
      split <;> rfl
  | findBidTask taskId agentId => rfl
  | findBidAgent taskUuid taskId agentId => rfl
  | insertBid row =>
      simp only [write]
      split <;> rfl
  | findCompletedTask taskId agentId resultHash => rfl
  | insertResult row =>
      simp only [write]
      split
      · rfl
      · split
        · rfl
        · split <;> rfl
  | mirrorTask taskId => cases h
  | linkTask taskId => cases h
  | completeTask taskId resultHash => cases h
  | matchTask taskId agentId => cases h

theorem ReplayOp.write_bids {op : ReplayOp} (h : op.writesBids = false) :
    (op.write db pg d pick p).bids = p.bids := by
  cases op with
  | mirrorAgent agentId owner =>
      simp only [write]
      split
      · rfl
      · split <;> rfl
  | linkAgents agentId owner =>
      simp only [write]
      split <;> rfl
  | outbox u =>
      simp only [write]
      split <;> rfl
  | mirrorTask taskId =>
      simp only [write]
      split
      · rfl
      · split
        · rfl
        · split <;> rfl
  | linkTask taskId =>
      simp only [write]
      split <;> rfl
  | insertResult row =>
      simp only [write]
      split
      · rfl
      · split
        · rfl
        · split <;> rfl
  | completeTask taskId resultHash =>
      simp only [write]
      split <;> rfl
  | matchTask taskId agentId =>
      simp only [write]
      split <;> rfl
  | findBidTask taskId agentId => rfl
  | findBidAgent taskUuid taskId agentId => rfl
  | findCompletedTask taskId agentId resultHash => rfl
  | insertBid row => cases h

theorem byTxHash_outbox {update : String → Update} {op : ReplayOp} (h : op ∈ byTxHash d update) :
    ∃ u, op = .outbox u := by
  obtain ⟨corr, -, rfl⟩ := List.mem_map.mp h
  exact ⟨_, rfl⟩

theorem patchPendingWithIds_outbox {taskId agentId : Option Int} {op : ReplayOp}
    (h : op ∈ patchPendingWithIds taskId agentId) : ∃ u, op = .outbox u := by
  rcases List.mem_append.mp h with h | h
  · obtain ⟨id, -, rfl⟩ := List.mem_map.mp h
    exact ⟨_, rfl⟩
  · obtain ⟨id, -, rfl⟩ := List.mem_map.mp h
    exact ⟨_, rfl⟩

/-- No branch that is reached has the statement of `TaskMatched`: the event is not supported. -/
theorem Delivery.ops_not_match {ops : List ReplayOp} (hsupported : d.event.isSupported = true)
    (h : d.ops = some ops) {op : ReplayOp} (hop : op ∈ ops) : op.isMatch = false := by
  have houtbox : ∀ u, op = .outbox u → op.isMatch = false := fun u hu => by rw [hu]; rfl
  unfold Delivery.ops at h
  split at h
  · obtain rfl := Option.some.inj h
    rcases List.mem_append.mp hop with hop | hop
    · rcases List.mem_append.mp hop with hop | hop
      · rw [List.mem_singleton.mp hop]; rfl
      · obtain ⟨u, hu⟩ := byTxHash_outbox hop
        exact houtbox u hu
    · rw [List.mem_singleton.mp hop]; rfl
  · split at h
    · obtain rfl := Option.some.inj h
      rcases List.mem_append.mp hop with hop | hop
      · rcases List.mem_append.mp hop with hop | hop
        · rcases List.mem_append.mp hop with hop | hop
          · rw [List.mem_singleton.mp hop]; rfl
          · obtain ⟨u, hu⟩ := byTxHash_outbox hop
            exact houtbox u hu
        · rw [List.mem_singleton.mp hop]; rfl
      · obtain ⟨u, hu⟩ := patchPendingWithIds_outbox hop
        exact houtbox u hu
    · cases h
  · obtain rfl := Option.some.inj h
    rw [List.mem_singleton.mp hop]; rfl
  · obtain rfl := Option.some.inj h
    rw [List.mem_singleton.mp hop]; rfl
  · next payload hevent =>
      rw [hevent] at hsupported
      cases (show false = true from hsupported)
  · obtain rfl := Option.some.inj h
    cases hop

theorem ReplayOp.next_not_match {op op' : ReplayOp} {ops : List ReplayOp}
    (h : op.next db d p pick = some ops) (hop : op' ∈ ops) : op'.isMatch = false := by
  have houtbox : ∀ u, op' = .outbox u → op'.isMatch = false := fun u hu => by rw [hu]; rfl
  unfold next at h
  split at h
  · split at h
    · split at h
      · obtain rfl := Option.some.inj h
        rw [List.mem_singleton.mp hop]; rfl
      · cases h
    · obtain rfl := Option.some.inj h
      cases hop
  · simp only at h
    split at h
    · cases h
    · obtain rfl := Option.some.inj h
      rcases List.mem_cons.mp hop with rfl | hop
      · rfl
      · obtain ⟨u, hu⟩ := byTxHash_outbox hop
        exact houtbox u hu
  · split at h
    · split at h
      · obtain rfl := Option.some.inj h
        rcases List.mem_append.mp hop with hop | hop
        · rcases List.mem_append.mp hop with hop | hop
          · simp only [List.mem_cons, List.not_mem_nil, or_false] at hop
            rcases hop with rfl | rfl <;> rfl
          · obtain ⟨u, hu⟩ := byTxHash_outbox hop
            exact houtbox u hu
        · obtain ⟨u, hu⟩ := patchPendingWithIds_outbox hop
          exact houtbox u hu
      · cases h
    · obtain rfl := Option.some.inj h
      cases hop
  · obtain rfl := Option.some.inj h
    cases hop

theorem ReplayOp.nextFailed_not_match {op op' : ReplayOp} (hop : op' ∈ op.nextFailed d) :
    op'.isMatch = false := by
  unfold nextFailed at hop
  split at hop
  · rcases List.mem_cons.mp hop with rfl | hop
    · rfl
    · obtain ⟨u, rfl⟩ := byTxHash_outbox hop
      rfl
  · cases hop

end Frames

end Ainur.Bridge
