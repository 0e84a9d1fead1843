import Ainur.Api.Model
import Ainur.Outbox.Row
import Ainur.Storage.Schema

set_option autoImplicit false

/-! # The two storage backends

`InMemoryStorage` and `PostgresStorage` as the handlers use them. A map of the in-memory store is
a list of pairs with one pair for each key. A row of a Postgres table holds the columns that a
statement reads; where a column is JSON, the row holds what `serde_json` decodes it to. A statement
that the database refuses for the values of its columns fails like any call that returns an
error, and has no case here.
-/

namespace Ainur

open Storage (Database)

/-! ## In memory -/

/-- `HashMap::insert`. -/
def hashInsert {α : Type} (map : List (String × α)) (key : String) (a : α) :
    List (String × α) :=
  (key, a) :: map.filter fun entry => entry.1 ≠ key

theorem lookup_hashInsert {α : Type} (map : List (String × α)) (key id : String) (a : α) :
    (hashInsert map key a).lookup id = if id = key then some a else map.lookup id := by
  unfold hashInsert
  by_cases h : id = key
  · simp [h]
  · rw [List.lookup_cons, if_neg h]
    have hne : (id == key) = false := by simpa using h
    rw [hne]
    induction map with
    | nil => rfl
    | cons entry rest ih =>
        by_cases hk : entry.1 = key
        · have hid : (id == entry.1) = false := by simpa [hk] using h
          simp [hk] at ih ⊢
          rw [ih, List.lookup_cons, hid]
        · simp [hk] at ih ⊢
          rw [List.lookup_cons, List.lookup_cons, ih]

/-- `InMemoryStorage`, without the cursor. -/
structure InMemoryStorage where
  agents : List (String × AgentRegistrationRequest)
  tasks : List (String × StoredTask)
  bids : List (String × StoredBid)
  results : List (String × StoredResult)

/-! ## Postgres -/

/-- A row of `agents`. -/
structure AgentRow where
  id : String
  label : String
  chainAgentId : Option Int
  accountAddress : Option String
  deriving DecidableEq, Repr

/-- A row of `tasks`; `id` is the canonical text of the UUID, and `createdAt` the seconds of the
timestamp. -/
structure TaskRow where
  id : String
  stored : Except String StoredTask
  status : String
  createdAt : Int
  chainTaskId : Option Int
  resultHash : Option String
  matchedAgent : Option Int

/-- A row of `bids`. -/
structure BidRow where
  id : String
  taskId : String
  agentId : Core.AgentId
  stored : Except String StoredBid

/-- A row of `results`. -/
structure ResultRow where
  id : String
  taskId : String
  stored : Except String StoredResult

/-- The tables that the API writes. -/
structure PostgresStorage where
  agents : List AgentRow
  tasks : List TaskRow
  bids : List BidRow
  results : List ResultRow
  outbox : List OutboundExtrinsic

/-- `status_to_str`. -/
def statusToStr : TaskStatus → String
  | .pending => "pending"
  | .completed => "completed"

/-- `str_to_status`. -/
def strToStatus : String → Except ApiError TaskStatus
  | "pending" => .ok .pending
  | "completed" => .ok .completed
  | other => .error (.internal s!"unknown task status {other}")

@[simp] theorem strToStatus_statusToStr (status : TaskStatus) :
    strToStatus (statusToStr status) = .ok status := by
  cases status <;> rfl

/-- `parse_uuid`. -/
def parseUuid (lib : Libraries) (id field : String) : Except ApiError String :=
  Fallible.okOr (lib.parseUuid id) (.badRequest s!"{field} is not a valid UUID")

def i64Max : Nat := 9223372036854775807

/-- `u64` as `i64`, and `i64` as an integer. -/
def asI64 (n : UInt64) : Int := n.toInt64.toInt

/-- The amounts of a task that are `u128`. -/
def StoredTask.amounts (t : StoredTask) : List Nat :=
  t.task.budget.maxCost ::
    match t.task.budget.paymentSchedule with
    | .milestone ms => ms.map Prod.snd
    | .streaming amount => [amount]
    | _ => []

/-- `serialize` on amounts: `serde_json` refuses an integer above `u64::MAX`. -/
def serializeAmounts (amounts : List Nat) : Except ApiError Unit :=
  if amounts.all fun a => a ≤ u64Max.toNat then .ok ()
  else .error (.internal "number out of range")

namespace PostgresStorage

/-- The message of a statement that fails in the analysis. -/
def refused (what : String) : ApiError := .internal s!"failed to {what}: error returned from database"

/-- `register_agent`. -/
def registerAgent (db : Database) (p : PostgresStorage) (agent : AgentRegistrationRequest) :
    Except ApiError (Unit × PostgresStorage) :=
  if db.accepts Storage.registerAgentSql then
    let agents :=
      if p.agents.any fun a => a.id = agent.id then
        p.agents.map fun a => if a.id = agent.id then { a with label := agent.label } else a
      else p.agents ++ [⟨agent.id, agent.label, none, none⟩]
    .ok ((), { p with agents := agents })
  else .error (refused "upsert agent")

/-- The columns that `insert_task` and `upsert_task` bind, and the checks before the statement. -/
def taskRow (lib : Libraries) (task : StoredTask) : Except ApiError TaskRow := do
  let id ← parseUuid lib task.id "task id"
  serializeAmounts task.amounts
  if task.task.budget.maxCost > i64Max then .error (.badRequest "max_cost exceeds i64")
  else .ok {
    id := id
    stored := .ok task
    status := statusToStr task.status
    createdAt := asI64 task.createdAt
    chainTaskId := none
    resultHash := none
    matchedAgent := none }

/-- `insert_task`: `ON CONFLICT (id) DO NOTHING`. -/
def insertTask (lib : Libraries) (db : Database) (p : PostgresStorage) (task : StoredTask) :
    Except ApiError (Unit × PostgresStorage) := do
  let row ← taskRow lib task
  if !db.accepts Storage.insertTaskSql then .error (refused "insert task")
  else if p.tasks.any fun r => r.id = row.id then .ok ((), p)
  else .ok ((), { p with tasks := p.tasks ++ [row] })

/-- `upsert_task`: `ON CONFLICT (id) DO UPDATE` keeps `created_at` and the chain columns. -/
def upsertTask (lib : Libraries) (db : Database) (p : PostgresStorage) (task : StoredTask) :
    Except ApiError (Unit × PostgresStorage) := do
  let row ← taskRow lib task
  if !db.accepts Storage.upsertTaskSql then .error (refused "upsert task")
  else if p.tasks.any fun r => r.id = row.id then
    .ok ((), { p with
      tasks := p.tasks.map fun r =>
        if r.id = row.id then { r with stored := row.stored, status := row.status } else r })
  else .ok ((), { p with tasks := p.tasks ++ [row] })

/-- The task of a row: the status is that of the column. -/
def readTask (row : TaskRow) : Except ApiError StoredTask := do
  let task ← row.stored.mapError fun e => ApiError.internal s!"failed to decode task: {e}"
  let status ← strToStatus row.status
  return { task with status := status }

/-- `get_task`. -/
def getTask (lib : Libraries) (p : PostgresStorage) (id : String) : Except ApiError StoredTask := do
  let uuid ← parseUuid lib id "task id"
  let row ← Fallible.okOr (p.tasks.find? fun r => r.id = uuid)
    (.notFound s!"task {id} not found")
  readTask row

/-- `list_tasks`: `ORDER BY created_at DESC`, and all rows have to be read. -/
def listTasks (p : PostgresStorage) : Except ApiError (List StoredTask) :=
  (p.tasks.mergeSort fun a b => b.createdAt ≤ a.createdAt).mapM readTask

/-- `get_agent`. -/
def getAgent (p : PostgresStorage) (id : String) : Except ApiError AgentRegistrationRequest := do
  let row ← Fallible.okOr (p.agents.find? fun a => a.id = id) (.notFound s!"agent {id} not found")
  return ⟨row.id, row.label⟩

/-- `list_agents`: the row that was created last comes first. -/
def listAgents (p : PostgresStorage) : List AgentRegistrationRequest :=
  p.agents.reverse.map fun a => ⟨a.id, a.label⟩

/-- The bid of a row. -/
def readBid (row : BidRow) : Except ApiError StoredBid :=
  row.stored.mapError fun e => .internal s!"failed to decode bid: {e}"

/-- `get_bids_for_task`. Its query has no `ORDER BY`: Postgres may answer with the same bids in any
other order. -/
def getBidsForTask (lib : Libraries) (p : PostgresStorage) (taskId : String) :
    Except ApiError (List StoredBid) := do
  let uuid ← parseUuid lib taskId "task id"
  (p.bids.filter fun b => b.taskId = uuid).mapM readBid

/-- `dashboard_counts`: agents, tasks, completed and pending tasks. -/
def dashboardCounts (p : PostgresStorage) : Nat × Nat × Nat × Nat :=
  (p.agents.length, p.tasks.length, p.tasks.countP fun r => r.status = "completed",
    p.tasks.countP fun r => r.status = "pending")

/-- `insert_bid`: one bid for each task and agent. -/
def insertBid (lib : Libraries) (p : PostgresStorage) (bid : StoredBid) :
    Except ApiError (Unit × PostgresStorage) := do
  let id ← parseUuid lib bid.id "bid id"
  let taskId ← parseUuid lib bid.taskId "bid task_id"
  serializeAmounts [bid.bid.value]
  if bid.bid.value > i64Max then .error (.badRequest "bid value exceeds i64")
  else if p.bids.any fun b => b.id = id then .ok ((), p)
  else if p.bids.any fun b => b.taskId = taskId ∧ b.agentId = bid.bid.agentId then
    .error (refused "insert bid")
  else if !p.tasks.any fun r => r.id = taskId then .error (refused "insert bid")
  else .ok ((), { p with bids := p.bids ++ [⟨id, taskId, bid.bid.agentId, .ok bid⟩] })

/-- `insert_result`: `ON CONFLICT (task_id) DO UPDATE`. -/
def insertResult (lib : Libraries) (db : Database) (p : PostgresStorage) (result : StoredResult) :
    Except ApiError (Unit × PostgresStorage) := do
  let id ← parseUuid lib result.id "result id"
  let taskId ← parseUuid lib result.taskId "result task_id"
  if !db.accepts Storage.insertResultSql then .error (refused "insert result")
  else if p.results.any fun r => r.taskId = taskId then
    .ok ((), { p with
      results := p.results.map fun r =>
        if r.taskId = taskId then ⟨id, taskId, .ok result⟩ else r })
  else if !p.tasks.any fun r => r.id = taskId then .error (refused "insert result")
  else .ok ((), { p with results := p.results ++ [⟨id, taskId, .ok result⟩] })

/-- `record_outbound_extrinsic`. The check on the length of the payload can refuse it. -/
def recordOutboundExtrinsic (p : PostgresStorage) (correlationId pallet call : String)
    (payload : Option String) (status : OutboxStatus) (now : Nat) :
    Except ApiError (Unit × PostgresStorage) :=
  let row := OutboundExtrinsic.insert correlationId pallet call payload status now
  if !row.checks then .error (refused "record outbound extrinsic")
  else if p.outbox.any fun r => r.correlationId = correlationId then
    .ok ((), { p with
      outbox := p.outbox.map fun r =>
        if r.correlationId = correlationId then r.onConflict payload status else r })
  else .ok ((), { p with outbox := p.outbox ++ [row] })

/-- The lookup of a chain task id in `submit_bid` and `submit_result`: whatever goes wrong, the
id is 0. -/
def taskChainId (db : Database) (p : PostgresStorage) (taskId : String) : Int :=
  if db.accepts Storage.taskChainIdSql then
    ((p.tasks.find? fun r => r.id = taskId).bind TaskRow.chainTaskId).getD 0
  else 0

/-- The lookup of a chain agent id there. -/
def agentChainId (db : Database) (p : PostgresStorage) (agentId : String) : Int :=
  if db.accepts Storage.agentChainIdSql then
    ((p.agents.find? fun a => a.id = agentId).bind AgentRow.chainAgentId).getD 0
  else 0

/-! ### What an operation leaves alone -/

section Frames

variable {lib : Libraries} {db : Database} {p q : PostgresStorage} {u : Unit}

theorem registerAgent_frame {agent : AgentRegistrationRequest}
    (h : p.registerAgent db agent = .ok (u, q)) : q.tasks = p.tasks ∧ q.outbox = p.outbox := by
  unfold registerAgent at h
  split at h
  · obtain rfl : _ = q := congrArg Prod.snd (Except.ok.inj h)
    exact ⟨rfl, rfl⟩
  · cases h

theorem insertTask_frame {task : StoredTask} (h : p.insertTask lib db task = .ok (u, q)) :
    q.agents = p.agents ∧ q.outbox = p.outbox := by
  obtain ⟨row, -, h⟩ := Fallible.bind_eq_ok.mp h
  split at h
  · cases h
  · split at h <;>
      (obtain rfl : _ = q := congrArg Prod.snd (Except.ok.inj h); exact ⟨rfl, rfl⟩)

theorem upsertTask_frame {task : StoredTask} (h : p.upsertTask lib db task = .ok (u, q)) :
    q.agents = p.agents ∧ q.outbox = p.outbox := by
  obtain ⟨row, -, h⟩ := Fallible.bind_eq_ok.mp h
  split at h
  · cases h
  · split at h <;>
      (obtain rfl : _ = q := congrArg Prod.snd (Except.ok.inj h); exact ⟨rfl, rfl⟩)

theorem insertBid_frame {bid : StoredBid} (h : p.insertBid lib bid = .ok (u, q)) :
    q.agents = p.agents ∧ q.tasks = p.tasks ∧ q.outbox = p.outbox := by
  obtain ⟨id, -, h⟩ := Fallible.bind_eq_ok.mp h
  obtain ⟨taskId, -, h⟩ := Fallible.bind_eq_ok.mp h
  obtain ⟨-, -, h⟩ := Fallible.bind_eq_ok.mp h
  split at h
  · cases h
  · split at h
    · obtain rfl : _ = q := congrArg Prod.snd (Except.ok.inj h)
      exact ⟨rfl, rfl, rfl⟩
    · split at h
      · cases h
      · split at h
        · cases h
        · obtain rfl : _ = q := congrArg Prod.snd (Except.ok.inj h)
          exact ⟨rfl, rfl, rfl⟩

/-- A bid with a new id for a stored task goes in, unless its value is too large or the agent has
one there already. -/
theorem insertBid_cases {bid : StoredBid} {id taskId : String} (hid : lib.parseUuid bid.id = some id)
    (htask : lib.parseUuid bid.taskId = some taskId)
    (hnew : (p.bids.any fun b => b.id = id) = false)
    (hexists : (p.tasks.any fun r => r.id = taskId) = true) :
    ((bid.bid.value ≤ i64Max ∧
          (p.bids.any fun b => b.taskId = taskId ∧ b.agentId = bid.bid.agentId) = false) ∧
        p.insertBid lib bid =
          .ok ((), { p with bids := p.bids ++ [⟨id, taskId, bid.bid.agentId, .ok bid⟩] })) ∨
      (¬ (bid.bid.value ≤ i64Max ∧
          (p.bids.any fun b => b.taskId = taskId ∧ b.agentId = bid.bid.agentId) = false) ∧
        ∃ e, p.insertBid lib bid = .error e) := by
  unfold insertBid parseUuid serializeAmounts
  rw [hid, htask, Fallible.okOr_some, Fallible.okOr_some, Fallible.ok_bind, Fallible.ok_bind]
  by_cases hvalue : bid.bid.value ≤ i64Max
  · have hamount : ([bid.bid.value].all fun a => a ≤ u64Max.toNat) = true := by
      have hle : i64Max ≤ u64Max.toNat := by decide
      simpa using Nat.le_trans hvalue hle
    rw [if_pos hamount, Fallible.ok_bind, if_neg (Nat.not_lt.mpr hvalue), hnew,
      if_neg Bool.false_ne_true]
    by_cases hpair : (p.bids.any fun b => b.taskId = taskId ∧ b.agentId = bid.bid.agentId) = true
    · rw [if_pos hpair]
      exact Or.inr ⟨fun hnone => Bool.false_ne_true (hnone.2.symm.trans hpair), _, rfl⟩
    · rw [if_neg hpair, hexists]
      exact Or.inl ⟨⟨hvalue, Bool.eq_false_iff.mpr hpair⟩, rfl⟩
  · refine Or.inr ⟨fun hboth => hvalue hboth.1, ?_⟩
    split
    · rw [Fallible.ok_bind, if_pos (Nat.lt_of_not_le hvalue)]
      exact ⟨_, rfl⟩
    · exact ⟨_, rfl⟩

theorem insertResult_frame {result : StoredResult} (h : p.insertResult lib db result = .ok (u, q)) :
    q.agents = p.agents ∧ q.tasks = p.tasks ∧ q.outbox = p.outbox := by
  obtain ⟨id, -, h⟩ := Fallible.bind_eq_ok.mp h
  obtain ⟨taskId, -, h⟩ := Fallible.bind_eq_ok.mp h
  split at h
  · cases h
  · split at h
    · obtain rfl : _ = q := congrArg Prod.snd (Except.ok.inj h)
      exact ⟨rfl, rfl, rfl⟩
    · split at h
      · cases h
      · obtain rfl : _ = q := congrArg Prod.snd (Except.ok.inj h)
        exact ⟨rfl, rfl, rfl⟩

theorem recordOutboundExtrinsic_frame {correlationId pallet call : String}
    {payload : Option String} {status : OutboxStatus} {now : Nat}
    (h : p.recordOutboundExtrinsic correlationId pallet call payload status now = .ok (u, q)) :
    q = { p with outbox := q.outbox } := by
  simp only [recordOutboundExtrinsic] at h
  split at h
  · cases h
  · split at h <;>
      (obtain rfl : _ = q := congrArg Prod.snd (Except.ok.inj h); rfl)

end Frames

end PostgresStorage

/-! ## The store behind the handlers -/

/-- What `AppState::from_config` selects: the storage and, with it, the sink and the pool. -/
inductive Store where
  | memory (m : InMemoryStorage)
  | postgres (db : Database) (p : PostgresStorage)

/-- The in-memory storage, where that is what the store is. -/
def inMemory : Store → Option InMemoryStorage
  | .memory m => some m
  | .postgres _ _ => none

theorem inMemory_eq_some {s : Store} {m : InMemoryStorage} :
    inMemory s = some m ↔ s = .memory m := by
  cases s <;> simp [inMemory]

/-- A call on the tables that succeeds leaves a Postgres store. -/
theorem postgres_map_eq_ok {db : Database} {x : Except ApiError (Unit × PostgresStorage)}
    {u : Unit} {s : Store} (h : x.map (fun r => (r.1, Store.postgres db r.2)) = .ok (u, s)) :
    ∃ q, x = .ok (u, q) ∧ Store.postgres db q = s := by
  cases x with
  | error e => cases h
  | ok r => exact ⟨r.2, rfl, congrArg Prod.snd (Except.ok.inj h)⟩

namespace Store

/-- A method of the `Storage` trait or of the sink. -/
abbrev Call (α : Type) := Store → Except ApiError (α × Store)

def registerAgent (agent : AgentRegistrationRequest) : Call Unit
  | .memory m => .ok ((), .memory { m with agents := hashInsert m.agents agent.id agent })
  | .postgres db p => (p.registerAgent db agent).map fun r => (r.1, .postgres db r.2)

def insertTask (lib : Libraries) (task : StoredTask) : Call Unit
  | .memory m => .ok ((), .memory { m with tasks := hashInsert m.tasks task.id task })
  | .postgres db p => (p.insertTask lib db task).map fun r => (r.1, .postgres db r.2)

def upsertTask (lib : Libraries) (task : StoredTask) : Call Unit
  | .memory m => .ok ((), .memory { m with tasks := hashInsert m.tasks task.id task })
  | .postgres db p => (p.upsertTask lib db task).map fun r => (r.1, .postgres db r.2)

/-- The task that `get_task` answers with. -/
def task (lib : Libraries) (id : String) : Store → Except ApiError StoredTask
  | .memory m => Fallible.okOr (m.tasks.lookup id) (.notFound s!"task {id} not found")
  | .postgres _ p => p.getTask lib id

def getTask (lib : Libraries) (id : String) : Call StoredTask := fun s =>
  (s.task lib id).map fun t => (t, s)

def insertBid (lib : Libraries) (bid : StoredBid) : Call Unit
  | .memory m => .ok ((), .memory { m with bids := hashInsert m.bids bid.id bid })
  | .postgres db p => (p.insertBid lib bid).map fun r => (r.1, .postgres db r.2)

def insertResult (lib : Libraries) (result : StoredResult) : Call Unit
  | .memory m => .ok ((), .memory { m with results := hashInsert m.results result.id result })
  | .postgres db p => (p.insertResult lib db result).map fun r => (r.1, .postgres db r.2)

/-- The agent that `get_agent` answers with. -/
def agent (id : String) : Store → Except ApiError AgentRegistrationRequest
  | .memory m => Fallible.okOr (m.agents.lookup id) (.notFound s!"agent {id} not found")
  | .postgres _ p => p.getAgent id

def listAgents : Store → Except ApiError (List AgentRegistrationRequest)
  | .memory m => .ok (m.agents.map Prod.snd)
  | .postgres _ p => .ok p.listAgents

def listTasks : Store → Except ApiError (List StoredTask)
  | .memory m => .ok (m.tasks.map Prod.snd)
  | .postgres _ p => p.listTasks

def bidsForTask (lib : Libraries) (taskId : String) : Store → Except ApiError (List StoredBid)
  | .memory m => .ok ((m.bids.map Prod.snd).filter fun b => b.taskId = taskId)
  | .postgres _ p => p.getBidsForTask lib taskId

/-- Agents, tasks, completed and pending tasks. -/
def dashboardCounts : Store → Nat × Nat × Nat × Nat
  | .memory m =>
      let completed := (m.tasks.map Prod.snd).countP fun t => t.status = .completed
      (m.agents.length, m.tasks.length, completed, m.tasks.length - completed)
  | .postgres _ p => p.dashboardCounts

/-- The stored result of that id. -/
def result (id : String) : Store → Option (Except String StoredResult)
  | .memory m => (m.results.lookup id).map .ok
  | .postgres _ p => (p.results.find? fun r => r.id = id).map ResultRow.stored

/-- `record_outbound_extrinsic`; the in-memory sink ignores it. -/
def recordOutboundExtrinsic (correlationId pallet call : String) (payload : Option String)
    (now : Nat) : Call Unit
  | .memory m => .ok ((), .memory m)
  | .postgres db p =>
      (p.recordOutboundExtrinsic correlationId pallet call payload .pending now).map
        fun r => (r.1, .postgres db r.2)

/-- The rows that an outbox worker can find. -/
def outbox : Store → List OutboundExtrinsic
  | .memory _ => []
  | .postgres _ p => p.outbox

/-- The chain ids that `submit_bid` and `submit_result` look up, one call each; without a pool
they are 0. An error of the call is turned into 0 as well. -/
def taskChainId (taskId : String) : Store → Int
  | .memory _ => 0
  | .postgres db p => p.taskChainId db taskId

def agentChainId (agentId : String) : Store → Int
  | .memory _ => 0
  | .postgres db p => p.agentChainId db agentId

end Store

end Ainur
