import Ainur.Api.Handlers
import Ainur.Lib.Keyed
import Ainur.Lib.Run

set_option autoImplicit false

/-! # The two backends side by side

Every call of the `Storage` trait on an in-memory store and on a Postgres store, the same calls in
the same order and from empty stores. Which values the columns of Postgres take (texts without a
zero byte, timestamps in range, keys that fit an index page) is the parameter `Columns`.
-/

namespace Ainur.Backends

open Keyed

/-- The values that the columns of a statement take. -/
structure Columns where
  agent : AgentRegistrationRequest → Bool
  task : StoredTask → Bool
  bid : StoredBid → Bool

/-- A call of the `Storage` trait. -/
inductive Call where
  | registerAgent (agent : AgentRegistrationRequest)
  | getAgent (id : String)
  | listAgents
  | insertTask (task : StoredTask)
  | upsertTask (task : StoredTask)
  | getTask (id : String)
  | listTasks
  | insertBid (bid : StoredBid)
  | getBidsForTask (taskId : String)
  | dashboardCounts
  deriving DecidableEq, Repr

/-- What a call returns. -/
inductive Answer where
  | unit
  | agent (agent : AgentRegistrationRequest)
  | agents (agents : List AgentRegistrationRequest)
  | task (task : StoredTask)
  | tasks (tasks : List StoredTask)
  | bids (bids : List StoredBid)
  | counts (agents tasks completed pending : Nat)
  deriving DecidableEq, Repr

/-- The same answer, lists up to order. -/
def Answer.Same : Answer → Answer → Prop
  | .agents xs, .agents ys => xs.Perm ys
  | .tasks xs, .tasks ys => xs.Perm ys
  | .bids xs, .bids ys => xs.Perm ys
  | a, b => a = b

/-- A statement of Postgres that its columns refuse fails. -/
def refuse {α : Type} (takes : Bool) (what : String) (s : Store) (x : Except ApiError α) :
    Except ApiError α :=
  match s with
  | .memory _ => x
  | .postgres _ _ => if takes then x else .error (PostgresStorage.refused what)

/-- The answer of a call that only reads. -/
def read (s : Store) (x : Except ApiError Answer) : Except ApiError (Answer × Store) :=
  x.map fun a => (a, s)

/-- A call on a store. -/
def Call.run (lib : Libraries) (columns : Columns) (c : Call) (s : Store) :
    Except ApiError (Answer × Store) :=
  match c with
  | .registerAgent agent =>
      refuse (columns.agent agent) "upsert agent" s
        ((s.registerAgent agent).map fun r => (.unit, r.2))
  | .getAgent id => read s ((s.agent id).map .agent)
  | .listAgents => read s (s.listAgents.map .agents)
  | .insertTask task =>
      refuse (columns.task task) "insert task" s
        ((s.insertTask lib task).map fun r => (.unit, r.2))
  | .upsertTask task =>
      refuse (columns.task task) "upsert task" s
        ((s.upsertTask lib task).map fun r => (.unit, r.2))
  | .getTask id => read s ((s.task lib id).map .task)
  | .listTasks => read s (s.listTasks.map .tasks)
  | .insertBid bid =>
      refuse (columns.bid bid) "insert bid" s ((s.insertBid lib bid).map fun r => (.unit, r.2))
  | .getBidsForTask taskId => read s ((s.bidsForTask lib taskId).map .bids)
  | .dashboardCounts =>
      let (agents, tasks, completed, pending) := s.dashboardCounts
      read s (.ok (.counts agents tasks completed pending))

/-- Both calls fail, or both succeed and return the same. -/
def Agree : Except ApiError (Answer × Store) → Except ApiError (Answer × Store) → Prop
  | .ok (a, _), .ok (b, _) => a.Same b
  | .error _, .error _ => True
  | _, _ => False

/-! ## The pair -/

/-- The two stores. -/
structure Pair where
  memory : InMemoryStorage
  postgres : PostgresStorage

def Pair.initial : Pair := ⟨.default, emptyPostgres⟩

section Pair

variable (lib : Libraries) (columns : Columns)

/-- The in-memory store after a call; a call that fails leaves it as it is. -/
def Call.inMemory (c : Call) (m : InMemoryStorage) : InMemoryStorage :=
  match c.run lib columns (.memory m) with
  | .ok (_, .memory m') => m'
  | _ => m

/-- The Postgres store after a call. -/
def Call.inPostgres (c : Call) (p : PostgresStorage) : PostgresStorage :=
  match c.run lib columns (.postgres Storage.migrated p) with
  | .ok (_, .postgres _ p') => p'
  | _ => p

/-- The calls that the handlers issue: a new record has the text of a fresh UUID as its id, a task
is upserted under the id of a stored one, and bids are submitted for and listed of stored tasks. -/
def Call.issued (m : InMemoryStorage) : Call → Bool
  | .insertTask task => lib.parseUuid task.id = some task.id && (m.tasks.lookup task.id).isNone
  | .upsertTask task => (m.tasks.lookup task.id).isSome
  | .insertBid bid =>
      lib.parseUuid bid.id = some bid.id && (m.bids.lookup bid.id).isNone &&
        (m.tasks.lookup bid.taskId).isSome
  | .getBidsForTask taskId => (m.tasks.lookup taskId).isSome
  | _ => true

/-- One call on both stores. -/
def step (s : Pair) (c : Call) : Option Pair :=
  if c.issued lib s.memory then
    some ⟨c.inMemory lib columns s.memory, c.inPostgres lib columns s.postgres⟩
  else none

/-- The two backends answer the call alike. -/
def Agrees (s : Pair) (c : Call) : Prop :=
  Agree (c.run lib columns (.memory s.memory))
    (c.run lib columns (.postgres Storage.migrated s.postgres))

/-- The amounts of a task fit their column and its JSON. -/
def amountsFit (task : StoredTask) : Bool :=
  (task.amounts.all fun a => a ≤ u64Max.toNat) && task.task.budget.maxCost ≤ i64Max

/-- What Postgres, but not the in-memory store, asks of a call: values that the columns take,
amounts within `i64`, one bid for each task and agent, and no UUID in another spelling. -/
def Meets (s : Pair) : Call → Prop
  | .registerAgent agent => columns.agent agent = true
  | .insertTask task | .upsertTask task => amountsFit task = true ∧ columns.task task = true
  | .insertBid bid =>
      bid.bid.value ≤ i64Max ∧ columns.bid bid = true ∧
        ∀ e ∈ s.memory.bids, e.2.taskId = bid.taskId → e.2.bid.agentId ≠ bid.bid.agentId
  | .getTask id =>
      ∀ uuid, lib.parseUuid id = some uuid → uuid ≠ id → s.memory.tasks.lookup uuid = none
  | _ => True

end Pair

/-! ## The invariant -/

/-- Each table represents the map of the same name, and tasks are stored under canonical ids. -/
structure Invariant (lib : Libraries) (s : Pair) : Prop where
  agents : Represents AgentRow.id (fun a => (⟨a.id, a.label⟩ : AgentRegistrationRequest)) id
    s.postgres.agents s.memory.agents
  tasks : Represents TaskRow.id PostgresStorage.readTask Except.ok s.postgres.tasks s.memory.tasks
  bids : Represents BidRow.id (fun b => (b.taskId, b.agentId, PostgresStorage.readBid b))
    (fun b => (b.taskId, b.bid.agentId, Except.ok b)) s.postgres.bids s.memory.bids
  canonical : ∀ id task, s.memory.tasks.lookup id = some task → lib.parseUuid id = some id

section Calls

variable {lib : Libraries} {columns : Columns} {m : InMemoryStorage} {p : PostgresStorage}

theorem Invariant.registerAgent (h : Invariant lib ⟨m, p⟩) (agent : AgentRegistrationRequest) :
    ∃ q, p.registerAgent Storage.migrated agent = .ok ((), q) ∧
      Invariant lib ⟨{ m with agents := hashInsert m.agents agent.id agent }, q⟩ := by
  have haccepts : Storage.migrated.accepts Storage.registerAgentSql = true := by decide
  unfold PostgresStorage.registerAgent
  rw [if_pos haccepts]
  refine ⟨_, rfl, ?_, h.tasks, h.bids, h.canonical⟩
  have hany := h.agents.any_key (k := agent.id)
  dsimp only
  rw [hany]
  split
  · next hold => exact h.agents.update hold fun a ha => ⟨ha, by cases agent; cases ha; rfl⟩
  · next hnew =>
      exact h.agents.insert (Option.not_isSome_iff_eq_none.mp hnew) rfl rfl

/-- The columns of a task: they are bound exactly when its amounts fit. -/
theorem taskRow_spec {task : StoredTask} (hid : lib.parseUuid task.id = some task.id) :
    (amountsFit task = true ∧ ∃ row, PostgresStorage.taskRow lib task = .ok row ∧
        row.id = task.id ∧ PostgresStorage.readTask row = .ok task) ∨
      (amountsFit task = false ∧ ∃ e, PostgresStorage.taskRow lib task = .error e) := by
  unfold PostgresStorage.taskRow parseUuid serializeAmounts amountsFit
  rw [hid, Fallible.okOr_some, Fallible.ok_bind]
  by_cases hamounts : (task.amounts.all fun a => a ≤ u64Max.toNat) = true
  · rw [if_pos hamounts, Fallible.ok_bind, hamounts]
    by_cases hmax : task.task.budget.maxCost > i64Max
    · rw [if_pos hmax]
      exact Or.inr ⟨by simpa using hmax, _, rfl⟩
    · rw [if_neg hmax]
      refine Or.inl ⟨by simpa using hmax, _, rfl, rfl, ?_⟩
      simp only [PostgresStorage.readTask, Fallible.mapError_ok, Fallible.ok_bind,
        strToStatus_statusToStr]
      rfl
  · rw [if_neg hamounts]
    exact Or.inr ⟨by simp [hamounts], _, rfl⟩

theorem Invariant.lookup_tasks (h : Invariant lib ⟨m, p⟩) (id : String) :
    (p.tasks.any fun r => r.id = id) = (m.tasks.lookup id).isSome := h.tasks.any_key

/-- The tasks of the map after one more has been put into it. -/
theorem Invariant.canonical_put (h : Invariant lib ⟨m, p⟩) {task : StoredTask}
    (hid : lib.parseUuid task.id = some task.id) (id : String) (t : StoredTask)
    (ht : (hashInsert m.tasks task.id task).lookup id = some t) : lib.parseUuid id = some id := by
  rw [lookup_hashInsert] at ht
  split at ht
  · next heq => rw [heq, hid]
  · exact h.canonical id t ht

theorem Invariant.insertTask (h : Invariant lib ⟨m, p⟩) {task : StoredTask}
    (hid : lib.parseUuid task.id = some task.id) (hnew : m.tasks.lookup task.id = none) :
    (amountsFit task = true ∧ ∃ q, p.insertTask lib Storage.migrated task = .ok ((), q) ∧
        Invariant lib ⟨{ m with tasks := hashInsert m.tasks task.id task }, q⟩) ∨
      (amountsFit task = false ∧ ∃ e, p.insertTask lib Storage.migrated task = .error e) := by
  have haccepts : Storage.migrated.accepts Storage.insertTaskSql = true := by decide
  unfold PostgresStorage.insertTask
  rcases taskRow_spec hid with ⟨hfit, row, hrow, hrowId, hread⟩ | ⟨hfit, e, he⟩
  · refine Or.inl ⟨hfit, ?_⟩
    have hany : (p.tasks.any fun r => r.id = row.id) = false := by
      rw [h.lookup_tasks, hrowId, hnew]
      rfl
    rw [hrow, Fallible.ok_bind, haccepts, hany]
    exact ⟨_, rfl, h.agents, h.tasks.insert hnew hrowId hread, h.bids, h.canonical_put hid⟩
  · rw [he]
    exact Or.inr ⟨hfit, e, rfl⟩

theorem Invariant.upsertTask (h : Invariant lib ⟨m, p⟩) {task : StoredTask}
    (hold : (m.tasks.lookup task.id).isSome = true) :
    (amountsFit task = true ∧ ∃ q, p.upsertTask lib Storage.migrated task = .ok ((), q) ∧
        Invariant lib ⟨{ m with tasks := hashInsert m.tasks task.id task }, q⟩) ∨
      (amountsFit task = false ∧ ∃ e, p.upsertTask lib Storage.migrated task = .error e) := by
  have haccepts : Storage.migrated.accepts Storage.upsertTaskSql = true := by decide
  obtain ⟨t, ht⟩ := Option.isSome_iff_exists.mp hold
  have hid : lib.parseUuid task.id = some task.id := h.canonical _ _ ht
  unfold PostgresStorage.upsertTask
  rcases taskRow_spec hid with ⟨hfit, row, hrow, hrowId, hread⟩ | ⟨hfit, e, he⟩
  · refine Or.inl ⟨hfit, ?_⟩
    have hany : (p.tasks.any fun r => r.id = row.id) = true := by
      rw [h.lookup_tasks, hrowId, hold]
    rw [hrow, Fallible.ok_bind, haccepts, hany]
    refine ⟨_, rfl, h.agents, ?_, h.bids, h.canonical_put hid⟩
    rw [hrowId]
    exact h.tasks.update hold fun r hr => ⟨hr, hread⟩
  · rw [he]
    exact Or.inr ⟨hfit, e, rfl⟩

/-- A bid that the in-memory store keeps for the same task and agent is a row that the unique
constraint is about. -/
theorem Invariant.any_pair (h : Invariant lib ⟨m, p⟩) (taskId : String) (agentId : Core.AgentId) :
    (p.bids.any fun b => b.taskId = taskId ∧ b.agentId = agentId) =
      m.bids.any fun e => e.2.taskId = taskId ∧ e.2.bid.agentId = agentId := by
  have hperm := h.bids.values
  have hrows : (p.bids.any fun b => b.taskId = taskId ∧ b.agentId = agentId) =
      (p.bids.map fun b => (b.taskId, b.agentId, PostgresStorage.readBid b)).any
        fun x => x.1 = taskId ∧ x.2.1 = agentId := by
    rw [List.any_map]
    rfl
  have hpairs : (m.bids.any fun e => e.2.taskId = taskId ∧ e.2.bid.agentId = agentId) =
      (m.bids.map fun e =>
          (e.2.taskId, e.2.bid.agentId, (Except.ok e.2 : Except ApiError StoredBid))).any
        fun x => x.1 = taskId ∧ x.2.1 = agentId := by
    rw [List.any_map]
    rfl
  rw [hrows, hpairs, hperm.any_eq]

theorem Invariant.insertBid (h : Invariant lib ⟨m, p⟩) {bid : StoredBid}
    (hid : lib.parseUuid bid.id = some bid.id) (hnew : m.bids.lookup bid.id = none)
    (htask : (m.tasks.lookup bid.taskId).isSome = true) :
    ((bid.bid.value ≤ i64Max ∧
          ∀ e ∈ m.bids, e.2.taskId = bid.taskId → e.2.bid.agentId ≠ bid.bid.agentId) ∧
        ∃ q, p.insertBid lib bid = .ok ((), q) ∧
          Invariant lib ⟨{ m with bids := hashInsert m.bids bid.id bid }, q⟩) ∨
      (¬ (bid.bid.value ≤ i64Max ∧
          ∀ e ∈ m.bids, e.2.taskId = bid.taskId → e.2.bid.agentId ≠ bid.bid.agentId) ∧
        ∃ e, p.insertBid lib bid = .error e) := by
  obtain ⟨t, ht⟩ := Option.isSome_iff_exists.mp htask
  -- the task is stored, so its id is the text of a UUID
  have htaskId : lib.parseUuid bid.taskId = some bid.taskId := h.canonical _ _ ht
  have hfresh : (p.bids.any fun b => b.id = bid.id) = false := by
    rw [show (p.bids.any fun b => b.id = bid.id) = _ from h.bids.any_key, hnew]
    rfl
  have hexists : (p.tasks.any fun r => r.id = bid.taskId) = true := by rw [h.lookup_tasks, htask]
  have hnone : (p.bids.any fun b => b.taskId = bid.taskId ∧ b.agentId = bid.bid.agentId) = false ↔
      ∀ e ∈ m.bids, e.2.taskId = bid.taskId → e.2.bid.agentId ≠ bid.bid.agentId := by
    rw [h.any_pair]
    simp
  rcases PostgresStorage.insertBid_cases hid htaskId hfresh hexists with
    ⟨⟨hvalue, hpair⟩, hok⟩ | ⟨hrefused, herr⟩
  · exact Or.inl ⟨⟨hvalue, hnone.mp hpair⟩, _, hok, h.agents, h.tasks, h.bids.insert hnew rfl rfl,
      h.canonical⟩
  · exact Or.inr ⟨fun hboth => hrefused ⟨hboth.1, hnone.mpr hboth.2⟩, herr⟩

/-! ### Calls that read -/

theorem Invariant.getAgent (h : Invariant lib ⟨m, p⟩) (id : String) :
    Agree (Call.run lib columns (.getAgent id) (.memory m))
      (Call.run lib columns (.getAgent id) (.postgres Storage.migrated p)) := by
  have hmemory : (Store.memory m).agent id =
      Fallible.okOr (m.agents.lookup id) (.notFound s!"agent {id} not found") := rfl
  have hpostgres : (Store.postgres Storage.migrated p).agent id = (do
      let row ← Fallible.okOr (p.agents.find? fun a => a.id = id)
        (.notFound s!"agent {id} not found")
      return ⟨row.id, row.label⟩) := rfl
  unfold Call.run
  dsimp only
  rw [hmemory, hpostgres]
  rcases h.agents.find (k := id) with ⟨hfind, hlookup⟩ | ⟨row, agent, hfind, hlookup, -, hrow⟩
  · dsimp only at hfind hlookup
    rw [hfind, hlookup]
    trivial
  · dsimp only at hfind hlookup
    rw [hfind, hlookup]
    show Answer.agent agent = Answer.agent ⟨row.id, row.label⟩
    rw [hrow]
    rfl

theorem Invariant.listAgents (h : Invariant lib ⟨m, p⟩) :
    (m.agents.map Prod.snd).Perm p.listAgents := by
  have hvalues := h.agents.values.symm
  exact hvalues.trans ((List.reverse_perm p.agents).symm.map _)

/-- Both stores find the task, or neither does, except that Postgres finds it under every
spelling of its UUID. -/
theorem Invariant.getTask (h : Invariant lib ⟨m, p⟩) (id : String) :
    ((∃ task, m.tasks.lookup id = some task ∧ p.getTask lib id = .ok task) ∨
      (m.tasks.lookup id = none ∧ (∃ e, p.getTask lib id = .error e) ∧
        ∀ uuid, lib.parseUuid id = some uuid → m.tasks.lookup uuid = none) ∨
      (m.tasks.lookup id = none ∧ ∃ uuid task, lib.parseUuid id = some uuid ∧ uuid ≠ id ∧
        m.tasks.lookup uuid = some task ∧ p.getTask lib id = .ok task)) := by
  unfold PostgresStorage.getTask parseUuid
  cases hparse : lib.parseUuid id with
  | none =>
      refine Or.inr (Or.inl ⟨?_, ⟨_, rfl⟩, fun _ h => nomatch h⟩)
      by_contra hsome
      obtain ⟨task, htask⟩ := Option.ne_none_iff_exists'.mp hsome
      rw [h.canonical id task htask] at hparse
      cases hparse
  | some uuid =>
      rw [Fallible.okOr_some, Fallible.ok_bind]
      -- the keys of the map are UUIDs as `Uuid` prints them
      have hmemory : uuid ≠ id → m.tasks.lookup id = none := by
        intro hne
        by_contra hsome
        obtain ⟨task, htask⟩ := Option.ne_none_iff_exists'.mp hsome
        exact hne (Option.some.inj (hparse.symm.trans (h.canonical id task htask)))
      rcases h.tasks.find (k := uuid) with ⟨hfind, hlookup⟩ | ⟨row, task, hfind, hlookup, -, hrow⟩
      · rw [show (p.tasks.find? fun r => r.id = uuid) = none from hfind]
        refine Or.inr (Or.inl ⟨?_, ⟨_, rfl⟩, fun _ h => Option.some.inj h ▸ hlookup⟩)
        by_cases heq : uuid = id
        · rw [← heq]
          exact hlookup
        · exact hmemory heq
      · rw [show (p.tasks.find? fun r => r.id = uuid) = some row from hfind, Fallible.okOr_some,
          Fallible.ok_bind, hrow]
        by_cases heq : uuid = id
        · rw [← heq]
          exact Or.inl ⟨task, hlookup, rfl⟩
        · exact Or.inr (Or.inr ⟨hmemory heq, uuid, task, rfl, heq, hlookup, rfl⟩)

theorem Invariant.listTasks (h : Invariant lib ⟨m, p⟩) :
    ∃ tasks, p.listTasks = .ok tasks ∧ (m.tasks.map Prod.snd).Perm tasks := by
  have hsort := List.mergeSort_perm p.tasks fun a b => b.createdAt ≤ a.createdAt
  have hvalues : ((p.tasks.mergeSort fun a b => b.createdAt ≤ a.createdAt).map
      PostgresStorage.readTask).Perm ((m.tasks.map Prod.snd).map .ok) := by
    rw [List.map_map]
    exact (hsort.map _).trans h.tasks.values
  obtain ⟨tasks, htasks, hperm⟩ := Fallible.mapM_perm hvalues
  exact ⟨tasks, htasks, hperm.symm⟩

theorem Invariant.getBidsForTask (h : Invariant lib ⟨m, p⟩) {taskId : String}
    (htask : (m.tasks.lookup taskId).isSome = true) :
    ∃ bids, p.getBidsForTask lib taskId = .ok bids ∧
      ((m.bids.map Prod.snd).filter fun b => b.taskId = taskId).Perm bids := by
  obtain ⟨t, ht⟩ := Option.isSome_iff_exists.mp htask
  have hvalues := (h.bids.values.filter fun x => x.1 = taskId).map fun x => x.2.2
  -- the filter on the task commutes with reading the rows, on both sides
  have hrows : (((p.bids.map fun b => (b.taskId, b.agentId, PostgresStorage.readBid b)).filter
      fun x => x.1 = taskId).map fun x => x.2.2) =
      (p.bids.filter fun b => b.taskId = taskId).map PostgresStorage.readBid := by
    rw [List.filter_map, List.map_map]
    rfl
  have hpairs : (((m.bids.map fun e =>
      (e.2.taskId, e.2.bid.agentId, (Except.ok e.2 : Except ApiError StoredBid))).filter
        fun x => x.1 = taskId).map fun x => x.2.2) =
      ((m.bids.map Prod.snd).filter fun b => b.taskId = taskId).map .ok := by
    rw [List.filter_map, List.filter_map, List.map_map, List.map_map]
    rfl
  dsimp only at hvalues
  rw [hrows, hpairs] at hvalues
  obtain ⟨bids, hbids, hperm⟩ := Fallible.mapM_perm hvalues
  refine ⟨bids, ?_, hperm.symm⟩
  unfold PostgresStorage.getBidsForTask parseUuid
  rw [h.canonical taskId t ht, Fallible.okOr_some, Fallible.ok_bind, hbids]

/-- A row that can be read has the status of its task. -/
theorem status_of_readTask {row : TaskRow} {task : StoredTask}
    (h : PostgresStorage.readTask row = .ok task) : row.status = statusToStr task.status := by
  obtain ⟨t, -, h⟩ := Fallible.bind_eq_ok.mp h
  obtain ⟨status, hstatus, h⟩ := Fallible.bind_eq_ok.mp h
  obtain rfl := Fallible.pure_eq_ok.mp h
  unfold strToStatus at hstatus
  split at hstatus
  · next heq => rw [heq, ← Except.ok.inj hstatus]; rfl
  · next heq => rw [heq, ← Except.ok.inj hstatus]; rfl
  · cases hstatus

/-- The tasks of a status, counted in the column and in the records. -/
theorem Invariant.countP_status (h : Invariant lib ⟨m, p⟩) (status : TaskStatus) :
    (p.tasks.countP fun r => r.status = statusToStr status) =
      (m.tasks.map Prod.snd).countP fun t => t.status = status := by
  let holds : Except ApiError StoredTask → Bool := fun x =>
    x.toOption.any fun t => t.status = status
  have hvalues : (p.tasks.map PostgresStorage.readTask).countP holds =
      (m.tasks.map fun e => (Except.ok e.2 : Except ApiError StoredTask)).countP holds :=
    h.tasks.values.countP_eq holds
  rw [List.countP_map, List.countP_map] at hvalues
  rw [List.countP_map]
  -- the column holds the status of the record in every row
  have hrows : (p.tasks.countP fun r => r.status = statusToStr status) =
      p.tasks.countP (holds ∘ PostgresStorage.readTask) := by
    refine List.countP_congr fun r hr => ?_
    obtain ⟨t, -, ht⟩ := h.tasks.mem_row hr
    have hstatus := status_of_readTask ht
    simp only [Function.comp_apply, ht, holds, hstatus, Except.toOption, Option.any_some]
    cases t.status <;> cases status <;> simp [statusToStr]
  rw [hrows, hvalues]
  rfl

theorem Invariant.dashboardCounts (h : Invariant lib ⟨m, p⟩) :
    (Store.memory m).dashboardCounts = p.dashboardCounts := by
  have hagents : p.agents.length = m.agents.length := h.agents.length_eq
  have htasks : p.tasks.length = m.tasks.length := h.tasks.length_eq
  have hcompleted : (p.tasks.countP fun r => r.status = "completed") =
      (m.tasks.map Prod.snd).countP fun t => t.status = .completed := h.countP_status .completed
  have hpending : (p.tasks.countP fun r => r.status = "pending") =
      (m.tasks.map Prod.snd).countP fun t => t.status = .pending := h.countP_status .pending
  -- a task is completed or pending, so the difference is the number of the pending ones
  have hrest : (m.tasks.map Prod.snd).length =
      ((m.tasks.map Prod.snd).countP fun t => t.status = .completed) +
        (m.tasks.map Prod.snd).countP fun t => t.status = .pending := by
    rw [List.length_eq_countP_add_countP (l := m.tasks.map Prod.snd)
      fun t => decide (t.status = TaskStatus.completed)]
    congr 1
    refine List.countP_congr fun t _ => ?_
    cases t.status <;> simp
  rw [List.length_map] at hrest
  unfold Store.dashboardCounts PostgresStorage.dashboardCounts
  dsimp only
  rw [hagents, htasks, hcompleted, hpending, hrest, Nat.add_sub_cancel_left]

/-! ### The step -/

/-- A call that only reads leaves both stores as they are. -/
theorem Invariant.read {c : Call} (h : Invariant lib ⟨m, p⟩)
    (hread : ∀ s, ∃ x, c.run lib columns s = Backends.read s x) :
    Invariant lib ⟨c.inMemory lib columns m, c.inPostgres lib columns p⟩ := by
  have hmemory : c.inMemory lib columns m = m := by
    obtain ⟨x, hx⟩ := hread (.memory m)
    rw [Call.inMemory, hx]
    cases x <;> rfl
  have hpostgres : c.inPostgres lib columns p = p := by
    obtain ⟨x, hx⟩ := hread (.postgres Storage.migrated p)
    rw [Call.inPostgres, hx]
    cases x <;> rfl
  rw [hmemory, hpostgres]
  exact h

/-- A call that writes always succeeds in memory; in Postgres it does where its checks pass and its
columns take the values. -/
theorem write_spec (columns : Columns) (c : Call) (passes : Prop) {m' : InMemoryStorage}
    {takes : Bool} {what : String} {x : Except ApiError (Unit × PostgresStorage)}
    (hmemory : c.run lib columns (.memory m) = .ok (.unit, .memory m'))
    (hpostgres : c.run lib columns (.postgres Storage.migrated p) =
      refuse takes what (.postgres Storage.migrated p)
        ((x.map fun r => (r.1, Store.postgres Storage.migrated r.2)).map fun r =>
          (Answer.unit, r.2)))
    (hx : (passes ∧ ∃ q, x = .ok ((), q) ∧ Invariant lib ⟨m', q⟩) ∨
      (¬ passes ∧ ∃ e, x = .error e)) :
    (passes ∧ takes = true → Agrees lib columns ⟨m, p⟩ c ∧
        Invariant lib ⟨c.inMemory lib columns m, c.inPostgres lib columns p⟩) ∧
      (Agrees lib columns ⟨m, p⟩ c → passes ∧ takes = true) := by
  unfold Agrees Call.inMemory Call.inPostgres
  dsimp only
  rw [hmemory, hpostgres]
  rcases hx with ⟨hpasses, q, rfl, hinv⟩ | ⟨hfails, e, rfl⟩
  · cases takes with
    | true => exact ⟨fun _ => ⟨rfl, hinv⟩, fun _ => ⟨hpasses, rfl⟩⟩
    | false =>
        refine ⟨fun hboth => absurd hboth.2 Bool.false_ne_true, fun hagree => ?_⟩
        exact (show False from hagree).elim
  · refine ⟨fun hboth => absurd hboth.1 hfails, fun hagree => ?_⟩
    cases takes <;> cases hagree

/-- A call on the two stores under the invariant: they agree exactly where Postgres has no
objection, and then the invariant is kept. -/
theorem Invariant.call (h : Invariant lib ⟨m, p⟩) {c : Call} (hissued : c.issued lib m = true) :
    (Meets lib columns ⟨m, p⟩ c → Agrees lib columns ⟨m, p⟩ c ∧
      Invariant lib ⟨c.inMemory lib columns m, c.inPostgres lib columns p⟩) ∧
    (Agrees lib columns ⟨m, p⟩ c → Meets lib columns ⟨m, p⟩ c) := by
  cases c with
  | registerAgent agent =>
      obtain ⟨q, hq, hinv⟩ := h.registerAgent agent
      obtain ⟨hif, honly⟩ := write_spec columns (.registerAgent agent) True rfl rfl
        (Or.inl ⟨trivial, q, hq, hinv⟩)
      exact ⟨fun hmeets => hif ⟨trivial, hmeets⟩, fun hagrees => (honly hagrees).2⟩
  | insertTask task =>
      simp only [Call.issued, Bool.and_eq_true, decide_eq_true_eq,
        Option.isNone_iff_eq_none] at hissued
      refine write_spec columns (.insertTask task) (amountsFit task = true) rfl rfl ?_
      simpa using h.insertTask hissued.1 hissued.2
  | upsertTask task =>
      refine write_spec columns (.upsertTask task) (amountsFit task = true) rfl rfl ?_
      simpa using h.upsertTask hissued
  | insertBid bid =>
      simp only [Call.issued, Bool.and_eq_true, decide_eq_true_eq,
        Option.isNone_iff_eq_none] at hissued
      obtain ⟨hif, honly⟩ := write_spec columns (.insertBid bid) _ rfl rfl
        (h.insertBid hissued.1.1 hissued.1.2 hissued.2)
      refine ⟨fun ⟨hvalue, htakes, hnone⟩ => hif ⟨⟨hvalue, hnone⟩, htakes⟩, fun hagrees => ?_⟩
      obtain ⟨⟨hvalue, hnone⟩, htakes⟩ := honly hagrees
      exact ⟨hvalue, htakes, hnone⟩
  | getAgent id => exact ⟨fun _ => ⟨h.getAgent id, h.read fun s => ⟨_, rfl⟩⟩, fun _ => trivial⟩
  | listAgents => exact ⟨fun _ => ⟨h.listAgents, h.read fun s => ⟨_, rfl⟩⟩, fun _ => trivial⟩
  | listTasks =>
      refine ⟨fun _ => ⟨?_, h.read fun s => ⟨_, rfl⟩⟩, fun _ => trivial⟩
      obtain ⟨tasks, htasks, hperm⟩ := h.listTasks
      unfold Agrees Call.run
      dsimp only [Store.listTasks]
      rw [htasks]
      exact hperm
  | getBidsForTask taskId =>
      refine ⟨fun _ => ⟨?_, h.read fun s => ⟨_, rfl⟩⟩, fun _ => trivial⟩
      obtain ⟨bids, hbids, hperm⟩ := h.getBidsForTask hissued
      unfold Agrees Call.run
      dsimp only [Store.bidsForTask]
      rw [hbids]
      exact hperm
  | dashboardCounts =>
      refine ⟨fun _ => ⟨?_, h.read fun s => ⟨_, rfl⟩⟩, fun _ => trivial⟩
      unfold Agrees Call.run
      dsimp only
      rw [h.dashboardCounts]
      exact rfl
  | getTask id =>
      have hkeep : Invariant lib ⟨(Call.getTask id).inMemory lib columns m,
          (Call.getTask id).inPostgres lib columns p⟩ := h.read fun s => ⟨_, rfl⟩
      have hagree : Agrees lib columns ⟨m, p⟩ (.getTask id) ↔
          Agree (Backends.read (.memory m) ((Fallible.okOr (m.tasks.lookup id)
            (.notFound s!"task {id} not found")).map .task))
          (Backends.read (.postgres Storage.migrated p) ((p.getTask lib id).map .task)) := Iff.rfl
      rw [hagree]
      rcases h.getTask id with ⟨task, hlookup, hget⟩ | ⟨hlookup, ⟨e, hget⟩, hnone⟩ |
          ⟨hlookup, uuid, task, hparse, hne, hfound, hget⟩
      · rw [hlookup, hget]
        refine ⟨fun _ => ⟨rfl, hkeep⟩, fun _ uuid hparse hne => ?_⟩
        exact absurd (Option.some.inj (hparse.symm.trans (h.canonical id task hlookup))) hne
      · rw [hlookup, hget]
        exact ⟨fun _ => ⟨trivial, hkeep⟩, fun _ uuid hparse _ => hnone uuid hparse⟩
      · -- the task is found under a spelling that the in-memory store does not know
        rw [hlookup, hget]
        refine ⟨fun hmeets => ?_, fun hagree => (show False from hagree).elim⟩
        have hnone : m.tasks.lookup uuid = none := hmeets uuid hparse hne
        rw [hnone] at hfound
        cases hfound

theorem Invariant.initial (lib : Libraries) : Invariant lib Pair.initial := by
  refine ⟨⟨.nil, .nil⟩, ⟨.nil, .nil⟩, ⟨.nil, .nil⟩, fun id task h => ?_⟩
  cases h

/-- **The two backends answer alike exactly as long as Postgres has no objection**, whatever calls
the handlers issue. -/
theorem agree_iff (lib : Libraries) (columns : Columns) (tr : List (Pair × Call)) (s : Pair)
    (hrun : Transition.Run (step lib columns) Pair.initial tr s) :
    Transition.EachStep (Agrees lib columns) tr ↔ Transition.EachStep (Meets lib columns) tr := by
  have hcall : ∀ s c t, Invariant lib s → step lib columns s c = some t →
      (Meets lib columns s c → Agrees lib columns s c ∧ Invariant lib t) ∧
        (Agrees lib columns s c → Meets lib columns s c) := by
    intro s c t h hstep
    unfold step at hstep
    split at hstep
    · next hissued =>
        obtain rfl := Option.some.inj hstep
        exact h.call hissued
    · cases hstep
  exact Transition.Run.eachStep_iff (Invariant.initial lib)
    (fun s c t h hmeets hstep => ((hcall s c t h hstep).1 hmeets).2)
    (fun s c t h hstep =>
      ⟨(hcall s c t h hstep).2, fun hmeets => ((hcall s c t h hstep).1 hmeets).1⟩)
    hrun

end Calls

/-! ### Two tasks -/

/-- Columns that take every value. -/
def allColumns : Columns := ⟨fun _ => true, fun _ => true, fun _ => true⟩

/-- The task that `submit_task` stores with a budget of that size. -/
def submittedTask (maxBudget : Nat) : StoredTask where
  id := sampleDraws.uuid 0
  clientTaskId := none
  task := buildCoreTask (sampleLibraries []) sampleDraws (taskWithBudget maxBudget) []
  status := .pending
  createdAt := sampleDraws.now

/-- On a task with a small budget the backends agree, and they list the same. -/
theorem smallBudget_agrees :
    ∃ tr s, Transition.Run (step (sampleLibraries []) allColumns) Pair.initial tr s ∧
      tr.length = 3 ∧ Transition.EachStep (Agrees (sampleLibraries []) allColumns) tr := by
  have hrun : Transition.Run (step (sampleLibraries []) allColumns) Pair.initial _ _ :=
    ((Transition.Run.nil.snoc (i := .insertTask (submittedTask 5)) rfl).snoc
      (i := .getTask (sampleDraws.uuid 0)) rfl).snoc (i := .listTasks) rfl
  refine ⟨_, _, hrun, rfl, (agree_iff _ _ _ _ hrun).mpr ?_⟩
  simp only [Transition.eachStep_cons]
  refine ⟨trivial, fun uuid hparse hne => ?_, ⟨by decide, rfl⟩, Transition.eachStep_nil _⟩
  exact absurd (Option.some.inj hparse).symm hne

/-- **A budget above `i64::MAX`** is stored in memory and refused by Postgres. -/
theorem largeBudget_disagrees :
    StoredTask.fromSubmission (sampleLibraries []) sampleDraws (taskWithBudget 9223372036854775808)
        = .ok (submittedTask 9223372036854775808) ∧
      ¬ ∀ tr s, Transition.Run (step (sampleLibraries []) allColumns) Pair.initial tr s →
        Transition.EachStep (Agrees (sampleLibraries []) allColumns) tr := by
  refine ⟨rfl, fun hall => ?_⟩
  have hrun : Transition.Run (step (sampleLibraries []) allColumns) Pair.initial _ _ :=
    Transition.Run.nil.snoc (i := .insertTask (submittedTask 9223372036854775808)) rfl
  have hagrees := (Transition.eachStep_cons.mp (hall _ _ hrun)).1
  have hmeets := ((Invariant.initial (sampleLibraries [])).call rfl).2 hagrees
  exact absurd hmeets.1 (by decide)

end Ainur.Backends
