import Ainur.Storage.Format
import Ainur.Storage.Records

set_option autoImplicit false

/-! # The tables with their JSON

`PostgresStorage` with the column `stored_json` of tasks and bids as the JSON value that it holds,
written by `serialize` and read by `serde_json::from_value`. Decoding the column in every row gives
the tables of `Storage.Records` (`Documents.records`), and each operation is the one of the same
name there.
-/

namespace Ainur

open Serde (Codec fitsU64)
open Storage (Database)

/-- `serialize`. -/
def serialize {α : Type} (c : Codec α) (a : α) : Except ApiError Value :=
  (c.serialize a).mapError .internal

/-- A row of `tasks`. -/
structure TaskDocument where
  id : String
  storedJson : Value
  status : String
  createdAt : Int
  chainTaskId : Option Int
  resultHash : Option String
  matchedAgent : Option Int

/-- The JSON of a bid. Every writer of the column serializes a `StoredBid`. -/
abbrev BidJson := { v : Value // ∃ bid, StoredBid.format.serialize bid = .ok v }

/-- A row of `bids`. -/
structure BidDocument where
  id : String
  taskId : String
  agentId : Core.AgentId
  storedJson : BidJson

structure Documents where
  agents : List AgentRow
  tasks : List TaskDocument
  bids : List BidDocument
  results : List ResultRow
  outbox : List OutboundExtrinsic

/-- The row with its JSON decoded. -/
def TaskDocument.row (d : TaskDocument) : TaskRow where
  id := d.id
  stored := StoredTask.format.deserialize d.storedJson
  status := d.status
  createdAt := d.createdAt
  chainTaskId := d.chainTaskId
  resultHash := d.resultHash
  matchedAgent := d.matchedAgent

def BidDocument.row (d : BidDocument) : BidRow where
  id := d.id
  taskId := d.taskId
  agentId := d.agentId
  stored := StoredBid.format.deserialize d.storedJson.val

namespace Documents

/-- The tables with every JSON decoded. -/
def records (p : Documents) : PostgresStorage where
  agents := p.agents
  tasks := p.tasks.map TaskDocument.row
  bids := p.bids.map BidDocument.row
  results := p.results
  outbox := p.outbox

/-! ## Operations -/

/-- The columns that `insert_task` and `upsert_task` bind, and the checks before the statement. -/
def taskDocument (lib : Libraries) (task : StoredTask) : Except ApiError TaskDocument := do
  let id ← parseUuid lib task.id "task id"
  let storedJson ← serialize StoredTask.format task
  if task.task.budget.maxCost > i64Max then .error (.badRequest "max_cost exceeds i64")
  else .ok {
    id := id
    storedJson := storedJson
    status := statusToStr task.status
    createdAt := asI64 task.createdAt
    chainTaskId := none
    resultHash := none
    matchedAgent := none }

/-- `insert_task`. -/
def insertTask (lib : Libraries) (db : Database) (p : Documents) (task : StoredTask) :
    Except ApiError (Unit × Documents) := do
  let doc ← taskDocument lib task
  if !db.accepts Storage.insertTaskSql then .error (PostgresStorage.refused "insert task")
  else if p.tasks.any fun d => d.id = doc.id then .ok ((), p)
  else .ok ((), { p with tasks := p.tasks ++ [doc] })

/-- `upsert_task`. -/
def upsertTask (lib : Libraries) (db : Database) (p : Documents) (task : StoredTask) :
    Except ApiError (Unit × Documents) := do
  let doc ← taskDocument lib task
  if !db.accepts Storage.upsertTaskSql then .error (PostgresStorage.refused "upsert task")
  else if p.tasks.any fun d => d.id = doc.id then
    .ok ((), { p with
      tasks := p.tasks.map fun d =>
        if d.id = doc.id then { d with storedJson := doc.storedJson, status := doc.status } else d })
  else .ok ((), { p with tasks := p.tasks ++ [doc] })

/-- The task of a row: the status is that of the column. -/
def readTask (doc : TaskDocument) : Except ApiError StoredTask := do
  let task ← (StoredTask.format.deserialize doc.storedJson).mapError
    fun e => ApiError.internal s!"failed to decode task: {e}"
  let status ← strToStatus doc.status
  return { task with status := status }

/-- `get_task`. -/
def getTask (lib : Libraries) (p : Documents) (id : String) : Except ApiError StoredTask := do
  let uuid ← parseUuid lib id "task id"
  let doc ← Fallible.okOr (p.tasks.find? fun d => d.id = uuid) (.notFound s!"task {id} not found")
  readTask doc

/-- `list_tasks`. -/
def listTasks (p : Documents) : Except ApiError (List StoredTask) :=
  (p.tasks.mergeSort fun a b => b.createdAt ≤ a.createdAt).mapM readTask

/-- `insert_bid`. -/
def insertBid (lib : Libraries) (p : Documents) (bid : StoredBid) :
    Except ApiError (Unit × Documents) := do
  let id ← parseUuid lib bid.id "bid id"
  let taskId ← parseUuid lib bid.taskId "bid task_id"
  match h : StoredBid.format.serialize bid with
  | .error e => .error (.internal e)
  | .ok storedJson =>
      if bid.bid.value > i64Max then .error (.badRequest "bid value exceeds i64")
      else if p.bids.any fun d => d.id = id then .ok ((), p)
      else if p.bids.any fun d => d.taskId = taskId ∧ d.agentId = bid.bid.agentId then
        .error (PostgresStorage.refused "insert bid")
      else if !p.tasks.any fun d => d.id = taskId then
        .error (PostgresStorage.refused "insert bid")
      else .ok ((), { p with
        bids := p.bids ++ [⟨id, taskId, bid.bid.agentId, ⟨storedJson, bid, h⟩⟩] })

/-- The bid of a row. -/
def readBid (doc : BidDocument) : Except ApiError StoredBid :=
  (StoredBid.format.deserialize doc.storedJson.val).mapError
    fun e => .internal s!"failed to decode bid: {e}"

/-- `get_bids_for_task`. -/
def getBidsForTask (lib : Libraries) (p : Documents) (taskId : String) :
    Except ApiError (List StoredBid) := do
  let uuid ← parseUuid lib taskId "task id"
  (p.bids.filter fun d => d.taskId = uuid).mapM readBid

/-! ## One level down and up again -/

section Records

variable {lib : Libraries} {db : Database} {p : Documents}

/-- The amounts of a task are within `u64` exactly when its JSON can be written. -/
theorem amounts_fit (task : StoredTask) :
    (task.amounts.all fun a => a ≤ u64Max.toNat) = task.task.budget.fits := by
  show task.amounts.all fitsU64 = task.task.budget.fits
  unfold StoredTask.amounts Core.Budget.fits Core.PaymentSchedule.fits
  cases task.task.budget.paymentSchedule with
  | milestone ms => simp [List.all_map, Function.comp_def]
  | streaming amount => simp
  | upfront => simp
  | onCompletion => simp

/-- A task that is serialized reads back as it was; one that is not has an amount out of range. -/
theorem serialize_task (task : StoredTask) :
    (serializeAmounts task.amounts = .ok () ∧ ∃ v, serialize StoredTask.format task = .ok v ∧
        StoredTask.format.deserialize v = .ok task) ∨
      ∃ e, serializeAmounts task.amounts = .error e ∧
        serialize StoredTask.format task = .error e := by
  by_cases hfits : task.task.budget.fits = true
  · obtain ⟨v, hv, hread⟩ := StoredTask.format_spec.written task hfits
    refine Or.inl ⟨?_, v, ?_, hread⟩
    · rw [serializeAmounts, amounts_fit, if_pos hfits]
    · rw [serialize, hv]
      rfl
  · have hrefused := StoredTask.format_spec.refused task (by simpa using hfits)
    refine Or.inr ⟨.internal Serde.outOfRange, ?_, ?_⟩
    · rw [serializeAmounts, amounts_fit, if_neg hfits]
      rfl
    · rw [serialize, hrefused]
      rfl

/-- The columns of a task, decoded. -/
theorem taskRow_eq (task : StoredTask) :
    PostgresStorage.taskRow lib task = (taskDocument lib task).map TaskDocument.row := by
  unfold PostgresStorage.taskRow taskDocument
  cases parseUuid lib task.id "task id" with
  | error e => rfl
  | ok id =>
      rcases serialize_task task with ⟨hamounts, v, hv, hread⟩ | ⟨e, hamounts, herr⟩
      · rw [Fallible.ok_bind, Fallible.ok_bind, hamounts, hv, Fallible.ok_bind, Fallible.ok_bind]
        by_cases hmax : task.task.budget.maxCost > i64Max
        · rw [if_pos hmax, if_pos hmax]
          rfl
        · rw [if_neg hmax, if_neg hmax]
          simp only [Except.map, TaskDocument.row, hread]
      · rw [Fallible.ok_bind, Fallible.ok_bind, hamounts, herr]
        rfl

theorem any_id_records (id : String) :
    (p.records.tasks.any fun r => r.id = id) = p.tasks.any fun d => d.id = id := by
  rw [records, List.any_map]
  rfl

/-- `insert_task` on the decoded tables. -/
theorem insertTask_records (task : StoredTask) :
    (p.insertTask lib db task).map (fun r => (r.1, r.2.records)) =
      p.records.insertTask lib db task := by
  unfold insertTask PostgresStorage.insertTask
  rw [taskRow_eq]
  cases taskDocument lib task with
  | error e => rfl
  | ok doc =>
      -- both sides ask the same two questions; only the rows differ, and those are decoded
      show Except.map _ (if _ then _ else if _ then _ else _) = (if _ then _ else if _ then _ else _)
      rw [any_id_records]
      show _ = (if _ then _ else if (p.tasks.any fun d => d.id = doc.id) then _ else _)
      split
      · rfl
      · split
        · rfl
        · simp only [Except.map, records, List.map_append, List.map_cons, List.map_nil]

/-- `upsert_task` on the decoded tables. -/
theorem upsertTask_records (task : StoredTask) :
    (p.upsertTask lib db task).map (fun r => (r.1, r.2.records)) =
      p.records.upsertTask lib db task := by
  unfold upsertTask PostgresStorage.upsertTask
  rw [taskRow_eq]
  cases taskDocument lib task with
  | error e => rfl
  | ok doc =>
      show Except.map _ (if _ then _ else if _ then _ else _) = (if _ then _ else if _ then _ else _)
      rw [any_id_records]
      show _ = (if _ then _ else if (p.tasks.any fun d => d.id = doc.id) then _ else _)
      split
      · rfl
      · split
        -- a row under the id takes the new document, decoded or not
        · have hmap : (p.tasks.map fun d => if d.id = doc.id then
              { d with storedJson := doc.storedJson, status := doc.status } else d).map
                TaskDocument.row = p.records.tasks.map fun r => if r.id = doc.row.id then
                  { r with stored := doc.row.stored, status := doc.row.status } else r := by
            rw [records, List.map_map, List.map_map]
            refine List.map_congr_left fun d _ => ?_
            by_cases hid : d.id = doc.id
            · have hrow : d.row.id = doc.row.id := hid
              rw [Function.comp_apply, Function.comp_apply, if_pos hid, if_pos hrow]
              rfl
            · have hrow : d.row.id ≠ doc.row.id := hid
              rw [Function.comp_apply, Function.comp_apply, if_neg hid, if_neg hrow]
          rw [← hmap]
          rfl
        · simp only [Except.map, records, List.map_append, List.map_cons, List.map_nil]

theorem readTask_row (doc : TaskDocument) :
    PostgresStorage.readTask doc.row = readTask doc := rfl

/-- `get_task` on the decoded tables. -/
theorem getTask_records (id : String) : p.getTask lib id = p.records.getTask lib id := by
  unfold getTask PostgresStorage.getTask
  cases parseUuid lib id "task id" with
  | error e => rfl
  | ok uuid =>
      have hfind : (p.records.tasks.find? fun r => r.id = uuid) =
          (p.tasks.find? fun d => d.id = uuid).map TaskDocument.row := by
        rw [records, List.find?_map]
        rfl
      rw [Fallible.ok_bind, Fallible.ok_bind, hfind]
      cases p.tasks.find? fun d => d.id = uuid with
      | none => rfl
      | some doc => rfl

/-- `list_tasks` on the decoded tables. -/
theorem listTasks_records : p.listTasks = p.records.listTasks := by
  unfold listTasks PostgresStorage.listTasks
  have hsort : (p.tasks.mergeSort fun a b => b.createdAt ≤ a.createdAt).map TaskDocument.row =
      (p.tasks.map TaskDocument.row).mergeSort fun a b => b.createdAt ≤ a.createdAt := by
    refine List.map_mergeSort fun a _ b _ => ?_
    rfl
  show _ = ((p.tasks.map TaskDocument.row).mergeSort
    fun a b => b.createdAt ≤ a.createdAt).mapM PostgresStorage.readTask
  rw [← hsort, List.mapM_map]
  rfl

/-- A bid that is serialized reads back as it was; one that is not has a value out of range. -/
theorem serialize_bid (bid : StoredBid) :
    (serializeAmounts [bid.bid.value] = .ok () ∧ ∃ v, StoredBid.format.serialize bid = .ok v ∧
        StoredBid.format.deserialize v = .ok bid) ∨
      (serializeAmounts [bid.bid.value] = .error (.internal Serde.outOfRange) ∧
        StoredBid.format.serialize bid = .error Serde.outOfRange) := by
  have hall : ([bid.bid.value].all fun a => a ≤ u64Max.toNat) = fitsU64 bid.bid.value := by
    rw [List.all_cons, List.all_nil, Bool.and_true]
    rfl
  by_cases hfits : fitsU64 bid.bid.value = true
  · obtain ⟨v, hv, hread⟩ := StoredBid.format_spec.written bid hfits
    refine Or.inl ⟨?_, v, hv, hread⟩
    rw [serializeAmounts, hall, if_pos hfits]
  · refine Or.inr ⟨?_, StoredBid.format_spec.refused bid (by simpa using hfits)⟩
    rw [serializeAmounts, hall, if_neg hfits]
    rfl

/-- `insert_bid` on the decoded tables. -/
theorem insertBid_records (bid : StoredBid) :
    (p.insertBid lib bid).map (fun r => (r.1, r.2.records)) = p.records.insertBid lib bid := by
  unfold insertBid PostgresStorage.insertBid
  cases parseUuid lib bid.id "bid id" with
  | error e => rfl
  | ok id =>
      rw [Fallible.ok_bind, Fallible.ok_bind]
      cases parseUuid lib bid.taskId "bid task_id" with
      | error e => rfl
      | ok taskId =>
          rw [Fallible.ok_bind, Fallible.ok_bind]
          -- the two unique constraints look at columns, which decoding keeps
          have hid : (p.records.bids.any fun b => b.id = id) = p.bids.any fun d => d.id = id := by
            rw [records, List.any_map]
            rfl
          have hpair : (p.records.bids.any fun b => b.taskId = taskId ∧ b.agentId = bid.bid.agentId)
              = p.bids.any fun d => d.taskId = taskId ∧ d.agentId = bid.bid.agentId := by
            rw [records, List.any_map]
            rfl
          rw [hid, hpair, any_id_records]
          -- the JSON is written before the value is compared with `i64::MAX`
          rcases serialize_bid bid with ⟨hamounts, v, hv, hread⟩ | ⟨hamounts, herr⟩
          · rw [hamounts, Fallible.ok_bind]
            split
            · next e he => rw [hv] at he; cases he
            · next w hw =>
                obtain rfl : v = w := Except.ok.inj (hv.symm.trans hw)
                repeat' split
                all_goals try rfl
                simp only [Except.map, records, List.map_append, List.map_cons, List.map_nil,
                  BidDocument.row, hread]
          · rw [hamounts]
            split
            · next e he =>
                obtain rfl : Serde.outOfRange = e := Except.error.inj (herr.symm.trans he)
                rfl
            · next w hw => rw [herr] at hw; cases hw

/-- `get_bids_for_task` on the decoded tables. -/
theorem getBidsForTask_records (taskId : String) :
    p.getBidsForTask lib taskId = p.records.getBidsForTask lib taskId := by
  unfold getBidsForTask PostgresStorage.getBidsForTask
  cases parseUuid lib taskId "task id" with
  | error e => rfl
  | ok uuid =>
      have hfilter : (p.records.bids.filter fun b => b.taskId = uuid) =
          (p.bids.filter fun d => d.taskId = uuid).map BidDocument.row := by
        rw [records, List.filter_map]
        rfl
      rw [Fallible.ok_bind, Fallible.ok_bind, hfilter, List.mapM_map]
      rfl

end Records

end Documents

end Ainur
