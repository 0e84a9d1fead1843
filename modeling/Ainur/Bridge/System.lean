import Ainur.Lib.Run
import Ainur.Outbox.System
import Ainur.Api.Enqueue
import Ainur.Bridge.Events

set_option autoImplicit false

/-! # The API, the outbox and the replay worker on one database

Requests, the worker of the outbox and the replay worker as one labelled transition system over
the Postgres tables. A request is a sequence of storage calls and ends with its enqueue, and a
branch of the replay worker is a sequence of statements; each call and each statement is a step of
its own, so the steps of any number of requests interleave with those of the workers. The label
carries what the outside decides: the requests, the events that are delivered and in which order,
the outcome of each submission, and which calls fail. Events caused by other users of the chain
are events like any other.

`enqueued`, `created`, `patches` and `processed` are not part of the program; they record what
happened.
-/

namespace Ainur.Bridge

open Storage (Database)

/-! ## Requests in flight -/

/-- What a row of the outbox was enqueued for. -/
inductive Origin where
  /-- `register_agent` for the agent. -/
  | agent (agentId : String)
  /-- `submit_task` for the task. -/
  | task (taskId : String)
  /-- `submit_bid` for the task and the agent. -/
  | bid (taskId agentId : String)
  /-- `submit_result` for them. -/
  | result (taskId agentId : String)
  /-- An endpoint of the outbox itself. -/
  | other
  deriving DecidableEq, Repr

/-- The local task whose chain id the payload is to carry. -/
def Origin.task? : Origin → Option String
  | .bid taskId _ | .result taskId _ => some taskId
  | _ => none

/-- The local agent whose chain id the payload is to carry. -/
def Origin.agent? : Origin → Option String
  | .bid _ agentId | .result _ agentId => some agentId
  | _ => none

/-- An extrinsic that a request is about to enqueue. -/
structure Intent where
  origin : Origin
  pallet : String
  call : String
  payload : Option Value

def Intent.outgoing (lib : Libraries) (correlationId : String) (x : Intent) : Outgoing where
  correlationId := correlationId
  pallet := x.pallet
  call := x.call
  payload := x.payload.map lib.serde.toString

/-- A stored bid or result whose chain ids are being looked up. -/
inductive Work where
  | bid (view : BidView)
  | result (view : ResultView)

def Work.taskId : Work → String
  | .bid view => view.taskId
  | .result view => view.taskId

def Work.agentId : Work → String
  | .bid view => view.agentId
  | .result view => view.agentId

/-- The extrinsic of a bid or a result with the ids that were looked up. -/
def Work.intent (lib : Libraries) (taskChainId agentChainId : Int) : Work → Intent
  | .bid view => {
      origin := .bid view.taskId view.agentId
      pallet := "TaskMarket"
      call := "submit_bid"
      payload := some (submitBidPayload taskChainId agentChainId
        (hashHex lib (utf8 s!"{view.taskId}:{view.agentId}")) view.completionTime) }
  | .result view => {
      origin := .result view.taskId view.agentId
      pallet := "TaskMarket"
      call := "submit_result"
      payload := some (submitResultPayload taskChainId agentChainId
        (hashHex lib (utf8 view.outputBase64))) }

/-- The next call of a request in flight. -/
inductive Call where
  | registerAgent (agent : AgentRegistrationRequest)
  | insertTask (stored : StoredTask)
  | insertBid (stored : StoredBid)
  | upsertTask (task : StoredTask) (stored : StoredResult)
  | insertResult (stored : StoredResult)
  | lookupTask (work : Work)
  | lookupAgent (work : Work) (taskChainId : Int)
  | enqueue (x : Intent)

/-- `null` and the empty object are no payload. -/
def givenPayload : Value → Option Value
  | .null => none
  | .object [] => none
  | v => some v

section Calls

variable (lib : Libraries) (db : Database)

/-- The first call of a request, its checks passed and the task of a bid or result read. -/
def Call.begin (draws : Draws) (p : PostgresStorage) : ApiRequest → Option Call
  | .agent payload =>
      if isBlank payload.id || isBlank payload.label then none else some (.registerAgent payload)
  | .task payload =>
      (StoredTask.fromSubmission lib draws payload).toOption.map .insertTask
  | .bid payload => do
      let task ← (p.getTask lib payload.taskId).toOption
      let stored ← (StoredBid.fromSubmission lib draws payload task).toOption
      return .insertBid stored
  | .result payload => do
      let task ← (p.getTask lib payload.taskId).toOption
      let stored ← (StoredResult.fromSubmission lib draws payload task).toOption
      return .upsertTask { task with status := .completed } stored
  | .outbox req =>
      let x : Intent := ⟨.other, req.pallet, req.call, givenPayload req.payload⟩
      if (x.payload.map lib.serde.toString).any fun p => p.utf8ByteSize > 4096 then none
      else some (.enqueue x)
  | .faucet body => do
      let address ← (body.get "address").bind Value.asStr
      let amount := ((body.get "amount").bind Value.asU64).getD 1000000000000
      return .enqueue ⟨.other, "Balances", "transfer_allow_death",
        some (faucetPayload address amount)⟩

/-- A call that does what it is to do: the tables after it and the next call. A request ends where
its call returns an error, and where `json!` panics. -/
def Call.advance (p : PostgresStorage) : Call → PostgresStorage × Option Call
  | .registerAgent agent =>
      match p.registerAgent db agent with
      | .ok (_, q) => (q, some (.enqueue ⟨.agent agent.id, "AgentRegistry", "register_agent",
          some (registerAgentPayload agent)⟩))
      | .error _ => (p, none)
  | .insertTask stored =>
      match p.insertTask lib db stored with
      | .ok (_, q) =>
          let view := TaskView.fromStored stored
          (q, (jsonU128 view.maxBudget).map fun budget =>
            .enqueue ⟨.task stored.id, "TaskMarket", "create_task", some (createTaskPayload
              (hashHex lib stored.task.specification.input) budget (jsonU64 view.deadline))⟩)
      | .error _ => (p, none)
  | .insertBid stored =>
      match p.insertBid lib stored with
      | .ok (_, q) => (q, some (.lookupTask (.bid (BidView.fromStored stored))))
      | .error _ => (p, none)
  | .upsertTask task stored =>
      match p.upsertTask lib db task with
      | .ok (_, q) => (q, some (.insertResult stored))
      | .error _ => (p, none)
  | .insertResult stored =>
      match p.insertResult lib db stored with
      | .ok (_, q) => (q, some (.lookupTask (.result (ResultView.fromStored lib stored))))
      | .error _ => (p, none)
  | .lookupTask work => (p, some (.lookupAgent work (p.taskChainId db work.taskId)))
  | .lookupAgent work taskChainId =>
      (p, some (.enqueue (work.intent lib taskChainId (p.agentChainId db work.agentId))))
  | .enqueue x => (p, some (.enqueue x))

/-- A call that fails: the request ends, but a lookup that fails yields 0. -/
def Call.fail : Call → Option Call
  | .lookupTask work => some (.lookupAgent work 0)
  | .lookupAgent work taskChainId => some (.enqueue (work.intent lib taskChainId 0))
  | _ => none

/-- The tasks that a call of `submit_task` creates. -/
def Call.creates (p : PostgresStorage) (c : Call) : List String :=
  match c with
  | .insertTask _ =>
      ((c.advance lib db p).1.tasks.map TaskRow.id).filter fun id =>
        !p.tasks.any fun r => r.id = id
  | _ => []

end Calls

/-! ## The system -/

/-- An update that wrote a chain id into the payload of a row. -/
structure Patch where
  correlationId : String
  idMember : IdMember
  chainId : Int
  deriving DecidableEq, Repr

structure System where
  tables : PostgresStorage
  /-- The requests in flight. -/
  calls : Nat → Option Call
  /-- The event that the replay worker is at, with what is left of its branch. -/
  replay : Option (Delivery × List ReplayOp)
  /-- What each correlation id was enqueued for. -/
  enqueued : List (String × Origin)
  /-- The rows of `tasks` that `submit_task` has created. -/
  created : List String
  patches : List Patch
  /-- The events that the replay worker has recorded. -/
  processed : List Delivery

namespace System

def init : System where
  tables := emptyPostgres
  calls _ := none
  replay := none
  enqueued := []
  created := []
  patches := []
  processed := []

def setCall (s : System) (k : Nat) (c : Option Call) : System :=
  { s with calls := Function.update s.calls k c }

def setOutbox (s : System) (rows : List OutboundExtrinsic) : System :=
  { s with tables := { s.tables with outbox := rows } }

end System

inductive Label where
  /-- A request arrives and reaches its first call. -/
  | request (k : Nat) (draws : Draws) (req : ApiRequest)
  /-- The next call of a request. -/
  | call (k : Nat) (performed : Bool)
  /-- The enqueue of a request, under a fresh correlation id. -/
  | enqueue (k : Nat) (correlationId : String) (now : Nat)
  /-- A request ends early. -/
  | drop (k : Nat)
  /-- The outbox worker commits the outcome of a submission; `now` is the time at which its transaction
  began. -/
  | settle (correlationId : String) (outcome : Outbox.Submission) (now : Nat)
  /-- The replay worker gets an event. -/
  | deliver (d : Delivery)
  /-- The next statement of its branch; `pick` is the row that a `LIMIT 1` takes. -/
  | statement (performed : Bool) (pick : String)
  /-- It records the event. -/
  | record
  /-- It stops; an event that is not recorded is delivered again. -/
  | stop
  /-- An update of `backfill_once`. -/
  | backfill (update : Update)

/-- The updates of `backfill_once`. -/
def isBackfill : Update → Bool
  | .backfillAgent _ _ | .backfillTask _ _ | .coalesceTask _ _ => true
  | _ => false

/-- What a statement of the replay worker records of its patches. -/
def ReplayOp.patched (pg : Jsonb) (p : PostgresStorage) : ReplayOp → List Patch
  | .outbox (.patch m chainId) =>
      if chainId = 0 then []
      else (Update.changed pg (.patch m chainId) p.outbox).map fun row =>
        ⟨row.correlationId, m, chainId⟩
  | _ => []

/-- The row that a request inserts, validated as `reportEnqueue` does. -/
def Intent.row (lib : Libraries) (correlationId : String) (now : Nat) (x : Intent) :
    OutboundExtrinsic :=
  let out := x.outgoing lib correlationId
  .insert out.correlationId out.pallet out.call out.payload .pending now

variable (lib : Libraries) (db : Database) (pg : Jsonb)

/-- What a label does, where it is enabled. -/
def step (s : System) : Label → Option System
  | .request k draws req =>
      match s.calls k with
      | none => (Call.begin lib draws s.tables req).map fun c => s.setCall k (some c)
      | some _ => none
  | .call k performed =>
      match s.calls k with
      | some (.enqueue _) => none
      | some c =>
          if performed then
            some { s.setCall k (c.advance lib db s.tables).2 with
              tables := (c.advance lib db s.tables).1
              created := c.creates lib db s.tables ++ s.created }
          else some (s.setCall k (c.fail lib))
      | none => none
  | .enqueue k correlationId now =>
      match s.calls k with
      | some (.enqueue x) =>
          if (s.tables.outbox.all fun row => row.correlationId ≠ correlationId) ∧
              (validateOutboxPayload lib (x.outgoing lib correlationId)).isOk ∧
              (x.row lib correlationId now).checks then
            some { (s.setCall k none).setOutbox
                (s.tables.outbox ++ [x.row lib correlationId now]) with
              enqueued := (correlationId, x.origin) :: s.enqueued }
          else none
      | _ => none
  | .drop k =>
      match s.calls k with
      | some _ => some (s.setCall k none)
      | none => none
  | .settle correlationId outcome now =>
      match s.tables.outbox.find? fun row => row.correlationId = correlationId with
      | some row =>
          if row.status = .pending then
            (Outbox.settlement now row.job outcome).map fun f =>
              s.setOutbox (s.tables.outbox.map fun row =>
                if row.correlationId = correlationId then f row else row)
          else none
      | none => none
  | .deliver d =>
      match s.replay with
      | none =>
          if d.event.isSupported then d.ops.map fun ops => { s with replay := some (d, ops) }
          else none
      | some _ => none
  | .statement performed pick =>
      match s.replay with
      | some (d, op :: rest) =>
          if performed then
            if op.picks s.tables pick then
              some { s with
                tables := op.write db pg d pick s.tables
                replay := (op.next db d s.tables pick).map fun ops => (d, ops ++ rest)
                patches := op.patched pg s.tables ++ s.patches }
            else none
          else some { s with replay := some (d, op.nextFailed d ++ rest) }
      | _ => none
  | .record =>
      match s.replay with
      | some (d, []) => some { s with replay := none, processed := d :: s.processed }
      | _ => none
  | .stop => some { s with replay := none }
  | .backfill u =>
      if isBackfill u then (Update.exec pg u s.tables.outbox).map s.setOutbox else none

/-- The states that the system can reach from empty tables. -/
abbrev Runs (tr : List (System × Label)) (s : System) : Prop :=
  Transition.Run (step lib db pg) System.init tr s

/-! ## What a step can do

One lemma for each kind of label: when it is enabled and the state it leaves.
-/

section Steps

variable {lib db pg} {s t : System}

theorem step_request {k : Nat} {draws : Draws} {req : ApiRequest} :
    step lib db pg s (.request k draws req) = some t ↔
      s.calls k = none ∧ ∃ c, Call.begin lib draws s.tables req = some c ∧
        s.setCall k (some c) = t := by
  simp only [step]
  split
  · next h => simp [h]
  · next h => simp [h]

theorem step_call {k : Nat} {performed : Bool} :
    step lib db pg s (.call k performed) = some t ↔
      ∃ c, s.calls k = some c ∧ (∀ x, c ≠ .enqueue x) ∧
        ((performed = true ∧
          { s.setCall k (c.advance lib db s.tables).2 with
            tables := (c.advance lib db s.tables).1
            created := c.creates lib db s.tables ++ s.created } = t) ∨
          (performed = false ∧ s.setCall k (c.fail lib) = t)) := by
  simp only [step]
  split
  · next x h => simp [h]
  · next c hc h =>
      have hne : ∀ x, c ≠ .enqueue x := fun x hx => hc x hx
      cases performed <;> simp [h, hne]
  · next h => simp [h]

theorem step_enqueue {k : Nat} {correlationId : String} {now : Nat} :
    step lib db pg s (.enqueue k correlationId now) = some t ↔
      ∃ x, s.calls k = some (.enqueue x) ∧
        ((∀ row ∈ s.tables.outbox, row.correlationId ≠ correlationId) ∧
          (validateOutboxPayload lib (x.outgoing lib correlationId)).isOk = true ∧
          (x.row lib correlationId now).checks = true) ∧
        { (s.setCall k none).setOutbox (s.tables.outbox ++ [x.row lib correlationId now]) with
          enqueued := (correlationId, x.origin) :: s.enqueued } = t := by
  simp only [step]
  split
  · next x h => simp [h]
  · next h => exact iff_of_false (by simp) fun ⟨x, hx, _⟩ => h x hx

theorem step_drop {k : Nat} :
    step lib db pg s (.drop k) = some t ↔ (s.calls k).isSome ∧ s.setCall k none = t := by
  simp only [step]
  split
  · next h => simp [h]
  · next h => simp [h]

theorem step_settle {correlationId : String} {outcome : Outbox.Submission} {now : Nat} :
    step lib db pg s (.settle correlationId outcome now) = some t ↔
      ∃ row, (s.tables.outbox.find? fun row => row.correlationId = correlationId) = some row ∧
        row.status = .pending ∧ ∃ f, Outbox.settlement now row.job outcome = some f ∧
          s.setOutbox (s.tables.outbox.map fun row =>
            if row.correlationId = correlationId then f row else row) = t := by
  simp only [step]
  split
  · next row h => simp [h]
  · next h => simp [h]

theorem step_deliver {d : Delivery} :
    step lib db pg s (.deliver d) = some t ↔
      s.replay = none ∧ d.event.isSupported = true ∧
        ∃ ops, d.ops = some ops ∧ { s with replay := some (d, ops) } = t := by
  simp only [step]
  split
  · next h => simp [h]
  · next h => simp [h]

theorem step_statement {performed : Bool} {pick : String} :
    step lib db pg s (.statement performed pick) = some t ↔
      ∃ d op rest, s.replay = some (d, op :: rest) ∧
        ((performed = true ∧ op.picks s.tables pick = true ∧
          { s with
            tables := op.write db pg d pick s.tables
            replay := (op.next db d s.tables pick).map fun ops => (d, ops ++ rest)
            patches := op.patched pg s.tables ++ s.patches } = t) ∨
          (performed = false ∧ { s with replay := some (d, op.nextFailed d ++ rest) } = t)) := by
  simp only [step]
  split
  · next d op rest h => cases performed <;> simp [h]
  · next h => exact iff_of_false (by simp) fun ⟨d, op, rest, hr, _⟩ => h d op rest hr

theorem step_record :
    step lib db pg s .record = some t ↔
      ∃ d, s.replay = some (d, []) ∧
        { s with replay := none, processed := d :: s.processed } = t := by
  simp only [step]
  split
  · next d h => simp [h]
  · next h => exact iff_of_false (by simp) fun ⟨d, hd, _⟩ => h d hd

theorem step_backfill {u : Update} :
    step lib db pg s (.backfill u) = some t ↔
      isBackfill u = true ∧ ∃ rows, Update.exec pg u s.tables.outbox = some rows ∧
        s.setOutbox rows = t := by
  simp only [step, Option.ite_none_right_eq_some, Option.map_eq_some_iff]

end Steps

/-! ## A task, an agent and a bid -/

/-- What `sampleBid` without chain ids, `sampleAgent` and a task with a budget of 5 enqueue. -/
def samplePayloads : List Value :=
  [submitBidPayload 0 0 (hashHex (sampleLibraries []) []) 7, registerAgentPayload sampleAgent,
    createTaskPayload (hashHex (sampleLibraries []) []) (jsonU64 5) (jsonU64 0)]

def bridgeLibraries : Libraries := sampleLibraries samplePayloads

/-- `register_agent`, up to its response. -/
def agentRequest : List Label :=
  [.request 0 sampleDraws (.agent sampleAgent), .call 0 true, .enqueue 0 "c1" 0]

/-- `submit_task`. -/
def taskRequest : List Label :=
  [.request 0 sampleDraws (.task (taskWithBudget 5)), .call 0 true, .enqueue 0 "c2" 0]

/-- `submit_bid`. -/
def bidRequest : List Label :=
  [.request 0 sampleDraws (.bid sampleBid), .call 0 true, .call 0 true, .call 0 true,
    .enqueue 0 "c3" 0]

end Ainur.Bridge
