import Ainur.Lib.Grows
import Ainur.Bridge.Unseen

set_option autoImplicit false

/-! # What a client reads of the deployed store

The tables `agents`, `tasks` and `bids` under the migrated schema, over whole runs. Rows are never
removed; of a task only the status changes, and only to `completed`; a bid does not change at all.
So what a client has read stays true in every later state, and every row can be read, whatever the
chain reports.
-/

namespace Ainur.Reads

open Storage (Database migrated)
open Bridge Unseen

/-! ## Later rows -/

/-- A row of `tasks` and what has become of it: its record is the same but for the status. -/
structure TaskLater (r r' : TaskRow) : Prop where
  id : r'.id = r.id
  createdAt : r'.createdAt = r.createdAt
  stored : ∀ task, r.stored = .ok task → ∃ status, r'.stored = .ok { task with status := status }
  completed : r.status = "completed" → r'.status = "completed"

theorem TaskLater.refl (r : TaskRow) : TaskLater r r where
  id := rfl
  createdAt := rfl
  stored task h := ⟨task.status, h⟩
  completed h := h

theorem TaskLater.trans (a b c : TaskRow) (hab : TaskLater a b) (hbc : TaskLater b c) :
    TaskLater a c where
  id := hbc.id.trans hab.id
  createdAt := hbc.createdAt.trans hab.createdAt
  stored task h := by
    obtain ⟨status, hb⟩ := hab.stored task h
    obtain ⟨status', hc⟩ := hbc.stored _ hb
    exact ⟨status', hc⟩
  completed h := hbc.completed (hab.completed h)

/-- A row of `agents` keeps its id. -/
def AgentLater (a a' : AgentRow) : Prop := a'.id = a.id

theorem AgentLater.refl (a : AgentRow) : AgentLater a a := rfl

/-- Tables, and tables after them. -/
structure Later (p q : PostgresStorage) : Prop where
  agents : Grows AgentLater p.agents q.agents
  tasks : Grows TaskLater p.tasks q.tasks
  bids : p.bids <+: q.bids

theorem Later.refl (p : PostgresStorage) : Later p p where
  agents := Grows.refl AgentLater.refl _
  tasks := Grows.refl TaskLater.refl _
  bids := List.prefix_refl _

theorem Later.trans {p q r : PostgresStorage} (hpq : Later p q) (hqr : Later q r) : Later p r where
  agents := Grows.trans (fun _ _ _ hab hbc => Eq.trans hbc hab) hpq.agents hqr.agents
  tasks := Grows.trans TaskLater.trans hpq.tasks hqr.tasks
  bids := hpq.bids.trans hqr.bids

/-! ## Rows that can be read -/

/-- Every row of `tasks` and `bids` holds a record, every id is there once. -/
structure Readable (lib : Libraries) (p : PostgresStorage) : Prop where
  tasks : ∀ r ∈ p.tasks, ∃ task, r.stored = .ok task ∧ lib.parseUuid task.id = some r.id
  statuses : ∀ r ∈ p.tasks, ∃ status, r.status = statusToStr status
  ids : (p.tasks.map TaskRow.id).Nodup
  bids : ∀ b ∈ p.bids, ∃ bid, b.stored = .ok bid

/-- The task that `submit_result` is about to write is one that is there, completed. -/
def FromRow (p : PostgresStorage) : Call → Prop
  | .upsertTask task _ => ∃ r ∈ p.tasks, ∃ old, r.stored = .ok old ∧
      task = { old with status := .completed }
  | _ => True

section Calls

variable {lib : Libraries} {db : Database} {p q : PostgresStorage} {u : Unit}

theorem FromRow.later {c : Call} (h : FromRow p c) (hq : Later p q) : FromRow q c := by
  cases c with
  | upsertTask task stored =>
      obtain ⟨r, hr, old, hold, rfl⟩ := h
      obtain ⟨r', hr', hlater⟩ := hq.tasks.mem hr
      obtain ⟨status, hnew⟩ := hlater.stored old hold
      exact ⟨r', hr', _, hnew, rfl⟩
  | _ => trivial

/-- The row of a task, as both statements build it. -/
theorem taskRow_readable {task : StoredTask} {row : TaskRow}
    (h : PostgresStorage.taskRow lib task = .ok row) :
    row.stored = .ok task ∧ lib.parseUuid task.id = some row.id ∧
      row.status = statusToStr task.status := by
  obtain ⟨id, hid, h⟩ := Fallible.bind_eq_ok.mp h
  obtain ⟨-, -, h⟩ := Fallible.bind_eq_ok.mp h
  split at h
  · cases h
  · obtain rfl := Except.ok.inj h
    exact ⟨rfl, Fallible.okOr_eq_ok.mp hid, rfl⟩

/-- A new row at the end. -/
theorem Readable.append {row : TaskRow} {task : StoredTask} (h : Readable lib p)
    (hrow : PostgresStorage.taskRow lib task = .ok row)
    (hnew : ¬ (p.tasks.any fun r => r.id = row.id) = true) :
    Readable lib { p with tasks := p.tasks ++ [row] } := by
  obtain ⟨hstored, hid, hstatus⟩ := taskRow_readable hrow
  refine ⟨fun r hr => ?_, fun r hr => ?_, ?_, h.bids⟩
  · rcases List.mem_append.mp hr with hr | hr
    · exact h.tasks r hr
    · obtain rfl := List.mem_singleton.mp hr
      exact ⟨task, hstored, hid⟩
  · rcases List.mem_append.mp hr with hr | hr
    · exact h.statuses r hr
    · obtain rfl := List.mem_singleton.mp hr
      exact ⟨task.status, hstatus⟩
  · show ((p.tasks ++ [row]).map TaskRow.id).Nodup
    rw [List.map_append, List.nodup_append]
    refine ⟨h.ids, List.nodup_singleton _, fun id hold id' hrow' => ?_⟩
    obtain ⟨r, hr, rfl⟩ := List.mem_map.mp hold
    obtain rfl := List.mem_singleton.mp hrow'
    exact fun heq => hnew (List.any_eq_true.mpr ⟨r, hr, decide_eq_true heq⟩)

theorem insertTask_later {task : StoredTask} (h : Readable lib p)
    (hop : p.insertTask lib db task = .ok (u, q)) : Readable lib q ∧ Later p q := by
  obtain ⟨row, hrow, hop⟩ := Fallible.bind_eq_ok.mp hop
  split at hop
  · cases hop
  · split at hop
    · obtain ⟨-, rfl⟩ := Prod.mk.inj (Except.ok.inj hop)
      exact ⟨h, .refl p⟩
    · next hnew =>
        obtain ⟨-, rfl⟩ := Prod.mk.inj (Except.ok.inj hop)
        exact ⟨h.append hrow hnew, Grows.refl AgentLater.refl _,
          Grows.append TaskLater.refl _ _, List.prefix_refl _⟩

/-- The write of `submit_result`: the row that was read becomes completed. -/
theorem upsertTask_later {task : StoredTask} {stored : StoredResult} (h : Readable lib p)
    (hfrom : FromRow p (.upsertTask task stored))
    (hop : p.upsertTask lib db task = .ok (u, q)) : Readable lib q ∧ Later p q := by
  obtain ⟨r₀, hr₀, old, hold, rfl⟩ := hfrom
  obtain ⟨row, hrow, hop⟩ := Fallible.bind_eq_ok.mp hop
  obtain ⟨hstored, hid, hstatus⟩ := taskRow_readable hrow
  -- the id of the record is that of the row it was read from
  have hsame : row.id = r₀.id := by
    obtain ⟨task, htask, hparse⟩ := h.tasks r₀ hr₀
    obtain rfl : old = task := Except.ok.inj (hold.symm.trans htask)
    exact Option.some.inj (hid.symm.trans hparse)
  have hone : ∀ r ∈ p.tasks, r.id = row.id → r.stored = .ok old := by
    intro r hr heq
    rw [List.inj_on_of_nodup_map h.ids hr hr₀ (heq.trans hsame)]
    exact hold
  have hany : (p.tasks.any fun r => r.id = row.id) = true :=
    List.any_eq_true.mpr ⟨r₀, hr₀, decide_eq_true hsame.symm⟩
  rw [hany] at hop
  split at hop
  · cases hop
  · rw [if_pos rfl] at hop
    obtain ⟨-, rfl⟩ := Prod.mk.inj (Except.ok.inj hop)
    have hlater : ∀ r ∈ p.tasks, TaskLater r
        (if r.id = row.id then { r with stored := row.stored, status := row.status } else r) := by
      intro r hr
      split
      · next heq =>
          refine ⟨rfl, rfl, fun task htask => ?_, fun _ => hstatus⟩
          obtain rfl : old = task := Except.ok.inj ((hone r hr heq).symm.trans htask)
          exact ⟨.completed, hstored⟩
      · exact .refl r
    refine ⟨⟨fun r hr => ?_, fun r hr => ?_, ?_, h.bids⟩, Grows.refl AgentLater.refl _,
      Grows.map hlater, List.prefix_refl _⟩
    · obtain ⟨r', hr', rfl⟩ := List.mem_map.mp hr
      split
      · next heq => exact ⟨_, hstored, hid.trans (congrArg some heq.symm)⟩
      · exact h.tasks r' hr'
    · obtain ⟨r', hr', rfl⟩ := List.mem_map.mp hr
      split
      · exact ⟨_, hstatus⟩
      · exact h.statuses r' hr'
    · show ((p.tasks.map _).map TaskRow.id).Nodup
      rw [List.map_map]
      refine (List.map_congr_left fun r hr => ?_).symm ▸ h.ids
      exact (hlater r hr).id

theorem insertBid_later {bid : StoredBid} (h : Readable lib p)
    (hop : p.insertBid lib bid = .ok (u, q)) : Readable lib q ∧ Later p q := by
  obtain ⟨id, -, hop⟩ := Fallible.bind_eq_ok.mp hop
  obtain ⟨taskId, -, hop⟩ := Fallible.bind_eq_ok.mp hop
  obtain ⟨-, -, hop⟩ := Fallible.bind_eq_ok.mp hop
  split at hop
  · cases hop
  · split at hop
    · obtain ⟨-, rfl⟩ := Prod.mk.inj (Except.ok.inj hop)
      exact ⟨h, .refl p⟩
    · split at hop
      · cases hop
      · split at hop
        · cases hop
        · obtain ⟨-, rfl⟩ := Prod.mk.inj (Except.ok.inj hop)
          refine ⟨⟨h.tasks, h.statuses, h.ids, fun b hb => ?_⟩, Grows.refl AgentLater.refl _,
            Grows.refl TaskLater.refl _, List.prefix_append _ _⟩
          rcases List.mem_append.mp hb with hb | hb
          · exact h.bids b hb
          · obtain rfl := List.mem_singleton.mp hb
            exact ⟨bid, rfl⟩

theorem registerAgent_later {agent : AgentRegistrationRequest} (h : Readable lib p)
    (hop : p.registerAgent db agent = .ok (u, q)) : Readable lib q ∧ Later p q := by
  unfold PostgresStorage.registerAgent at hop
  split at hop
  · obtain ⟨-, rfl⟩ := Prod.mk.inj (Except.ok.inj hop)
    refine ⟨⟨h.tasks, h.statuses, h.ids, h.bids⟩, ?_, Grows.refl TaskLater.refl _,
      List.prefix_refl _⟩
    show Grows AgentLater p.agents (if _ then _ else _)
    split
    · -- a registration again: the label of the row is the new one
      refine Grows.map fun a _ => ?_
      split
      · rfl
      · rfl
    · exact Grows.append AgentLater.refl _ _
  · cases hop

/-- A call of the API. -/
theorem advance_later {c : Call} (h : Readable lib p) (hfrom : FromRow p c) :
    Readable lib (c.advance lib migrated p).1 ∧ Later p (c.advance lib migrated p).1 := by
  have hsame : Readable lib p ∧ Later p p := ⟨h, .refl p⟩
  cases c with
  | registerAgent agent =>
      simp only [Call.advance]
      split
      · next hop => exact registerAgent_later h hop
      · exact hsame
  | insertTask stored =>
      simp only [Call.advance]
      split
      · next hop => exact insertTask_later h hop
      · exact hsame
  | insertBid stored =>
      simp only [Call.advance]
      split
      · next hop => exact insertBid_later h hop
      · exact hsame
  | upsertTask task stored =>
      simp only [Call.advance]
      split
      · next hop => exact upsertTask_later h hfrom hop
      · exact hsame
  | insertResult stored =>
      obtain ⟨e, he⟩ : ∃ e, p.insertResult lib migrated stored = .error e :=
        PostgresStorage.insertResult_refused PostgresStorage.migrated_insertResult
      simp only [Call.advance, he]
      exact hsame
  | lookupTask work => exact hsame
  | lookupAgent work taskChainId => exact hsame
  | enqueue x => exact hsame

/-- The task that a request reads is that of a row, but for the status. -/
theorem getTask_row {id : String} {task : StoredTask} (h : p.getTask lib id = .ok task) :
    ∃ uuid r old, lib.parseUuid id = some uuid ∧
      (p.tasks.find? fun r => r.id = uuid) = some r ∧ r.stored = .ok old ∧
      strToStatus r.status = .ok task.status ∧ task = { old with status := task.status } := by
  obtain ⟨uuid, huuid, h⟩ := Fallible.bind_eq_ok.mp h
  obtain ⟨r, hr, h⟩ := Fallible.bind_eq_ok.mp h
  obtain ⟨old, hold, h⟩ := Fallible.bind_eq_ok.mp h
  obtain ⟨status, hstatus, h⟩ := Fallible.bind_eq_ok.mp h
  obtain rfl := Fallible.pure_eq_ok.mp h
  exact ⟨uuid, r, old, Fallible.okOr_eq_ok.mp huuid, Fallible.okOr_eq_ok.mp hr,
    Fallible.mapError_eq_ok.mp hold, hstatus, rfl⟩

theorem begin_fromRow {draws : Draws} {req : ApiRequest} {c : Call}
    (h : Call.begin lib draws p req = some c) : FromRow p c := by
  cases req with
  | agent payload =>
      obtain ⟨-, heq⟩ := Option.ite_none_left_eq_some.mp h
      obtain rfl := Option.some.inj heq
      trivial
  | task payload =>
      obtain ⟨stored, -, rfl⟩ := Option.map_eq_some_iff.mp h
      trivial
  | bid payload =>
      obtain ⟨task, -, h⟩ := Option.bind_eq_some_iff.mp h
      obtain ⟨stored, -, h⟩ := Option.bind_eq_some_iff.mp h
      obtain rfl := Option.some.inj h
      trivial
  | result payload =>
      obtain ⟨task, htask, h⟩ := Option.bind_eq_some_iff.mp h
      obtain ⟨stored, -, h⟩ := Option.bind_eq_some_iff.mp h
      obtain rfl := Option.some.inj h
      obtain ⟨uuid, r, old, -, hr, hold, -, hsame⟩ :=
        getTask_row (Fallible.toOption_eq_some.mp htask)
      refine ⟨r, List.mem_of_find?_eq_some hr, old, hold, ?_⟩
      rw [hsame]
  | outbox req =>
      obtain ⟨-, heq⟩ := Option.ite_none_left_eq_some.mp h
      obtain rfl := Option.some.inj heq
      trivial
  | faucet body =>
      obtain ⟨address, -, h⟩ := Option.bind_eq_some_iff.mp h
      obtain rfl := Option.some.inj h
      trivial

/-- Only the first call of a request writes a task that it has read. -/
theorem advance_fromRow {c c' : Call} (h : (c.advance lib db p).2 = some c') : FromRow q c' := by
  cases c with
  | registerAgent agent =>
      simp only [Call.advance] at h
      split at h
      · obtain rfl := Option.some.inj h
        trivial
      · cases h
  | insertTask stored =>
      simp only [Call.advance] at h
      split at h
      · obtain ⟨budget, -, rfl⟩ := Option.map_eq_some_iff.mp h
        trivial
      · cases h
  | insertBid stored =>
      simp only [Call.advance] at h
      split at h
      · obtain rfl := Option.some.inj h
        trivial
      · cases h
  | upsertTask task stored =>
      simp only [Call.advance] at h
      split at h
      · obtain rfl := Option.some.inj h
        trivial
      · cases h
  | insertResult stored =>
      simp only [Call.advance] at h
      split at h
      · obtain rfl := Option.some.inj h
        trivial
      · cases h
  | lookupTask work =>
      obtain rfl := Option.some.inj h
      trivial
  | lookupAgent work taskChainId =>
      obtain rfl := Option.some.inj h
      trivial
  | enqueue x =>
      obtain rfl := Option.some.inj h
      trivial

theorem fail_fromRow {c c' : Call} (h : c.fail lib = some c') : FromRow p c' := by
  cases c with
  | lookupTask work =>
      obtain rfl := Option.some.inj h
      trivial
  | lookupAgent work taskChainId =>
      obtain rfl := Option.some.inj h
      trivial
  | _ => cases h

end Calls

/-! ## Every step -/

section Steps

variable {lib : Libraries} {pg : Jsonb} {s t : System} {l : Label}

/-- All rows can be read, and every write of a task is of one that is there. -/
structure Kept (lib : Libraries) (s : System) : Prop where
  rows : Readable lib s.tables
  calls : ∀ k c, s.calls k = some c → FromRow s.tables c
  untouched : Untouched s

theorem Kept.init (lib : Libraries) : Kept lib System.init where
  rows :=
    { tasks := fun r hr => by cases hr
      statuses := fun r hr => by cases hr
      ids := List.nodup_nil
      bids := fun b hb => by cases hb }
  calls k c hc := by cases hc
  untouched := .init

/-- What a step does to the tables and to the requests, apart from the outbox. -/
structure Moves (lib : Libraries) (s t : System) : Prop where
  rows : Readable lib t.tables
  later : Later s.tables t.tables
  calls : ∀ k c, t.calls k = some c → s.calls k = some c ∨ FromRow t.tables c

/-- A step that leaves the three tables alone. -/
theorem Kept.moves_of_eq (h : Kept lib s) (hagents : t.tables.agents = s.tables.agents)
    (htasks : t.tables.tasks = s.tables.tasks) (hbids : t.tables.bids = s.tables.bids)
    (hcalls : ∀ k c, t.calls k = some c → s.calls k = some c ∨ FromRow t.tables c) :
    Moves lib s t where
  rows :=
    { tasks := by rw [htasks]; exact h.rows.tasks
      statuses := by rw [htasks]; exact h.rows.statuses
      ids := by rw [htasks]; exact h.rows.ids
      bids := by rw [hbids]; exact h.rows.bids }
  later :=
    { agents := by rw [hagents]; exact Grows.refl AgentLater.refl _
      tasks := by rw [htasks]; exact Grows.refl TaskLater.refl _
      bids := hbids ▸ List.prefix_refl _ }
  calls := hcalls

/-- One request has moved on. -/
theorem setCall_moved {k : Nat} {c : Option Call} {p : PostgresStorage}
    (hc : ∀ c', c = some c' → FromRow p c') (j : Nat) (c' : Call)
    (hj : (s.setCall k c).calls j = some c') : s.calls j = some c' ∨ FromRow p c' := by
  by_cases hjk : j = k
  · subst hjk
    exact Or.inr (hc c' (by simpa [System.setCall] using hj))
  · exact Or.inl (by simpa [System.setCall, hjk] using hj)

theorem Kept.moves (h : Kept lib s) (hstep : Bridge.step lib migrated pg s l = some t) :
    Moves lib s t := by
  cases l with
  | request k draws req =>
      obtain ⟨-, c, hc, rfl⟩ := step_request.mp hstep
      refine h.moves_of_eq rfl rfl rfl (setCall_moved fun c' heq => ?_)
      obtain rfl := Option.some.inj heq
      exact begin_fromRow hc
  | call k performed =>
      obtain ⟨c, hc, -, ⟨-, rfl⟩ | ⟨-, rfl⟩⟩ := step_call.mp hstep
      · obtain ⟨hrows, hlater⟩ := advance_later h.rows (h.calls k c hc)
        exact ⟨hrows, hlater, setCall_moved fun c' hnext => advance_fromRow hnext⟩
      · exact h.moves_of_eq rfl rfl rfl (setCall_moved fun c' hnext => fail_fromRow hnext)
  | enqueue k correlationId now =>
      obtain ⟨x, -, -, rfl⟩ := step_enqueue.mp hstep
      exact h.moves_of_eq rfl rfl rfl (setCall_moved fun c' heq => by cases heq)
  | drop k =>
      obtain ⟨-, rfl⟩ := step_drop.mp hstep
      exact h.moves_of_eq rfl rfl rfl (setCall_moved fun c' heq => by cases heq)
  | settle correlationId outcome now =>
      obtain ⟨row, -, -, f, -, rfl⟩ := step_settle.mp hstep
      exact h.moves_of_eq rfl rfl rfl fun k c hc => Or.inl hc
  | deliver d =>
      obtain ⟨-, -, ops, -, rfl⟩ := step_deliver.mp hstep
      exact h.moves_of_eq rfl rfl rfl fun k c hc => Or.inl hc
  | statement performed pick =>
      obtain ⟨d, op, rest, -, ⟨-, -, rfl⟩ | ⟨-, rfl⟩⟩ := step_statement.mp hstep
      · -- under this schema the statement has left everything but the outbox alone
        have hstore : op.write migrated pg d pick s.tables =
            withOutbox s.tables (op.write migrated pg d pick s.tables).outbox :=
          write_store h.untouched.tasks
        have hagents := congrArg PostgresStorage.agents hstore
        have htasks := congrArg PostgresStorage.tasks hstore
        have hbids := congrArg PostgresStorage.bids hstore
        exact h.moves_of_eq hagents htasks hbids fun k c hc => Or.inl hc
      · exact h.moves_of_eq rfl rfl rfl fun k c hc => Or.inl hc
  | record =>
      obtain ⟨d, -, rfl⟩ := step_record.mp hstep
      exact h.moves_of_eq rfl rfl rfl fun k c hc => Or.inl hc
  | stop =>
      obtain rfl := Option.some.inj hstep
      exact h.moves_of_eq rfl rfl rfl fun k c hc => Or.inl hc
  | backfill u =>
      obtain ⟨-, rows, -, rfl⟩ := step_backfill.mp hstep
      exact h.moves_of_eq rfl rfl rfl fun k c hc => Or.inl hc

theorem Kept.step (h : Kept lib s) (hstep : Bridge.step lib migrated pg s l = some t) :
    Kept lib t := by
  have hmoves := h.moves hstep
  refine ⟨hmoves.rows, fun k c hc => ?_, h.untouched.step hstep⟩
  rcases hmoves.calls k c hc with hold | hnew
  · exact (h.calls k c hold).later hmoves.later
  · exact hnew

end Steps

/-! ## Answers -/

/-- What `get_bids_for_task` may answer: the bids in some order. -/
def MayList (lib : Libraries) (p : PostgresStorage) (taskId : String) (bids : List StoredBid) : Prop :=
  ∃ listed, p.getBidsForTask lib taskId = .ok listed ∧ bids.Perm listed

/-- What is read of the tables `p` is still so in `q`. -/
structure StillSo (lib : Libraries) (p q : PostgresStorage) : Prop where
  /-- A task is answered alike, but for its status, and stays completed. -/
  task : ∀ id task, p.getTask lib id = .ok task →
    ∃ status, q.getTask lib id = .ok { task with status := status } ∧
      (task.status = .completed → status = .completed)
  /-- The bids of a task are answered again, and all of them are among those that are answered then,
  in whatever order either query answers. -/
  bids : ∀ taskId bids, MayList lib p taskId bids →
    (∃ later, MayList lib q taskId later) ∧
      ∀ later, MayList lib q taskId later → bids.Subperm later
  /-- An agent is found again; its label is that of its last registration. -/
  agent : ∀ id agent, p.getAgent id = .ok agent →
    ∃ label, q.getAgent id = .ok { agent with label := label }

/-- Every list is answered with the records of all its rows, and every task counts as completed or as
pending. -/
structure Answers (lib : Libraries) (p : PostgresStorage) : Prop where
  tasks : ∃ tasks, p.listTasks = .ok tasks ∧
    (tasks.map .ok).Perm (p.tasks.map PostgresStorage.readTask)
  bids : ∀ taskId uuid, lib.parseUuid taskId = some uuid →
    ∃ bids, p.getBidsForTask lib taskId = .ok bids ∧
      bids.map .ok = (p.bids.filter fun b => b.taskId = uuid).map BidRow.stored
  counts : ∃ completed pending, p.dashboardCounts =
      (p.agents.length, p.tasks.length, completed, pending) ∧ completed + pending = p.tasks.length

section Answers

variable {lib : Libraries} {p q : PostgresStorage}

theorem readTask_ok {r : TaskRow} {old : StoredTask} {status : TaskStatus}
    (hstored : r.stored = .ok old) (hstatus : strToStatus r.status = .ok status) :
    PostgresStorage.readTask r = .ok { old with status := status } := by
  unfold PostgresStorage.readTask
  rw [hstored, hstatus]
  rfl

theorem strToStatus_completed {text : String} (h : strToStatus text = .ok .completed) :
    text = "completed" := by
  unfold strToStatus at h
  split at h
  · cases h
  · rfl
  · cases h

/-- What was read before later tables, of which every row can be read. -/
theorem Later.stillSo (h : Later p q) (hq : Readable lib q) : StillSo lib p q where
  task id task htask := by
    obtain ⟨uuid, r, old, huuid, hr, hold, hstatus, hsame⟩ := getTask_row htask
    obtain ⟨r', hr', hlater⟩ := h.tasks.find (fun _ _ hxy => hxy.id) hr
    obtain ⟨status, hnew⟩ := hlater.stored old hold
    obtain ⟨status', hstatus'⟩ := hq.statuses r' (List.mem_of_find?_eq_some hr')
    have hread : strToStatus r'.status = .ok status' := by
      rw [hstatus', strToStatus_statusToStr]
    refine ⟨status', ?_, fun hcompleted => ?_⟩
    · have huuid' : parseUuid lib id "task id" = .ok uuid := Fallible.okOr_eq_ok.mpr huuid
      unfold PostgresStorage.getTask
      rw [huuid', Fallible.ok_bind, hr', Fallible.okOr_some, Fallible.ok_bind,
        readTask_ok hnew hread, hsame]
    · -- the column said so when it was read, and has said so since
      have hwas : r.status = "completed" := by
        rw [hcompleted] at hstatus
        exact strToStatus_completed hstatus
      rw [hlater.completed hwas] at hread
      exact (Except.ok.inj hread).symm
  bids taskId bids hlisted := by
    obtain ⟨listed, hbids, hperm⟩ := hlisted
    obtain ⟨uuid, huuid, hbids⟩ := Fallible.bind_eq_ok.mp hbids
    obtain ⟨new, hnew⟩ := h.bids
    have hall : ∀ b ∈ new.filter fun b => b.taskId = uuid,
        ∃ bid, PostgresStorage.readBid b = .ok bid := by
      intro b hb
      have hmem : b ∈ q.bids := hnew ▸ List.mem_append_right _ (List.mem_of_mem_filter hb)
      obtain ⟨bid, hbid⟩ := hq.bids b hmem
      exact ⟨bid, Fallible.mapError_eq_ok.mpr hbid⟩
    obtain ⟨later, hlater, -⟩ := Fallible.exists_mapM_ok hall
    have hagain : q.getBidsForTask lib taskId = .ok (listed ++ later) := by
      unfold PostgresStorage.getBidsForTask
      rw [huuid, Fallible.ok_bind, ← hnew, List.filter_append, List.mapM_append, hbids, hlater]
      rfl
    refine ⟨⟨_, _, hagain, .refl _⟩, ?_⟩
    rintro answer ⟨listed', hlisted', hperm'⟩
    obtain rfl : listed ++ later = listed' := Except.ok.inj (hagain.symm.trans hlisted')
    -- the old rows come first in the table, and somewhere in the answer
    have hsub : (listed ++ later).Subperm answer := hperm'.symm.subperm
    exact (hperm.subperm.trans (List.sublist_append_left listed later).subperm).trans hsub
  agent id agent hagent := by
    obtain ⟨a, ha, hagent⟩ := Fallible.bind_eq_ok.mp hagent
    obtain rfl := Fallible.pure_eq_ok.mp hagent
    obtain ⟨a', ha', hid⟩ := h.agents.find (fun _ _ hxy => hxy) (Fallible.okOr_eq_ok.mp ha)
    refine ⟨a'.label, ?_⟩
    unfold PostgresStorage.getAgent
    rw [ha', ← hid]
    rfl

theorem Readable.answers (h : Readable lib p) : Answers lib p where
  tasks := by
    have hperm := List.mergeSort_perm p.tasks fun a b => b.createdAt ≤ a.createdAt
    have hread : ∀ r ∈ p.tasks.mergeSort fun a b => b.createdAt ≤ a.createdAt,
        ∃ task, PostgresStorage.readTask r = .ok task := by
      intro r hr
      have hmem := hperm.mem_iff.mp hr
      obtain ⟨task, htask, -⟩ := h.tasks r hmem
      obtain ⟨status, hstatus⟩ := h.statuses r hmem
      exact ⟨_, readTask_ok htask (by rw [hstatus, strToStatus_statusToStr])⟩
    obtain ⟨tasks, htasks, -⟩ := Fallible.exists_mapM_ok hread
    refine ⟨tasks, htasks, ?_⟩
    rw [← Fallible.map_of_mapM htasks]
    exact hperm.map _
  bids taskId uuid huuid := by
    have hread : ∀ b ∈ p.bids.filter fun b => b.taskId = uuid,
        ∃ bid, PostgresStorage.readBid b = .ok bid := by
      intro b hb
      obtain ⟨bid, hbid⟩ := h.bids b (List.mem_of_mem_filter hb)
      exact ⟨bid, Fallible.mapError_eq_ok.mpr hbid⟩
    obtain ⟨bids, hbids, -⟩ := Fallible.exists_mapM_ok hread
    refine ⟨bids, ?_, ?_⟩
    · have huuid' : parseUuid lib taskId "task id" = .ok uuid := Fallible.okOr_eq_ok.mpr huuid
      unfold PostgresStorage.getBidsForTask
      rw [huuid', Fallible.ok_bind, hbids]
    · exact Fallible.map_eq_of_mapM hbids fun b _ bid hbid =>
        (Fallible.mapError_eq_ok.mp hbid).symm
  counts := by
    refine ⟨_, _, rfl, ?_⟩
    have hother : ∀ r ∈ p.tasks, (r.status = "pending") ↔ ¬ (r.status = "completed") := by
      intro r hr
      obtain ⟨status, hstatus⟩ := h.statuses r hr
      rw [hstatus]
      cases status <;> decide
    have hpending : (p.tasks.countP fun r => r.status = "pending") =
        p.tasks.countP fun r => ¬ decide (r.status = "completed") = true :=
      List.countP_congr fun r hr => by simpa using hother r hr
    calc (p.tasks.countP fun r => r.status = "completed") +
          p.tasks.countP (fun r => r.status = "pending")
        = (p.tasks.countP fun r => r.status = "completed") +
            p.tasks.countP fun r => ¬ decide (r.status = "completed") = true := by rw [hpending]
      _ = p.tasks.length := (List.length_eq_countP_add_countP _).symm

end Answers

/-! ## Over whole runs -/

section Runs

variable {lib : Libraries} {pg : Jsonb} {s : System} {tr : List (System × Label)}

theorem kept (hrun : Runs lib migrated pg tr s) : Kept lib s :=
  Transition.Run.invariant (Kept.init lib) (fun _ _ _ h hstep => h.step hstep) hrun

/-- **What was read stays so.** Whatever requests, workers, events and crashes come in between, an
answer about a task, the bids of a task or an agent is true of every later state: the task is the
same but for its status, which stays completed once it is, every bid is answered again, and no agent
is lost. -/
theorem reads_stay (hrun : Runs lib migrated pg tr s) :
    ∀ p ∈ tr, StillSo lib p.1.tables s.tables := by
  intro p hp
  have htrans : ∀ r s t : System, Later r.tables s.tables → Later s.tables t.tables →
      Later r.tables t.tables := fun r s t hrs hst => hrs.trans hst
  have hlater : Later p.1.tables s.tables :=
    hrun.related (R := fun s t => Later s.tables t.tables) (Kept.init lib)
      (fun _ _ _ h hstep => h.step hstep) htrans
      (fun _ _ _ h hstep => (h.moves hstep).later) p hp
  exact hlater.stillSo (kept hrun).rows

/-- A task, a bid for it and a result of it. -/
def taskWithBid : List Bridge.Label :=
  taskRequest ++ [.request 1 sampleDraws (.bid sampleBid), .call 1 true, .drop 1,
    .request 1 sampleDraws (.result ⟨sampleDraws.uuid 0, sampleAgent.id, ""⟩), .call 1 true]

/-- Some state before has the task pending and has the bid, the last one has the task completed. -/
theorem taskWithBid_stays :
    ∃ tr s, Runs bridgeLibraries migrated (.onValues samplePayloads) tr s ∧
      (∃ r ∈ s.tables.tasks, r.status = "completed") ∧
      (∃ p ∈ tr, p.1.tables.bids.length = 1 ∧ ∃ r ∈ p.1.tables.tasks, r.status = "pending") ∧
      ∀ p ∈ tr, StillSo bridgeLibraries p.1.tables s.tables := by
  have hany : (Transition.exec (Bridge.step bridgeLibraries migrated (.onValues samplePayloads))
      System.init taskWithBid).any
        (fun s => s.tables.tasks.any fun r => r.status = "completed") = true := by
    decide +kernel
  obtain ⟨s, hexec, hlast⟩ := Option.any_eq_true _ _ |>.mp hany
  have hbefore : ((Transition.history (Bridge.step bridgeLibraries migrated
      (.onValues samplePayloads)) System.init taskWithBid).any fun p =>
        p.1.tables.bids.length = 1 && p.1.tables.tasks.any fun r => r.status = "pending") = true := by
    decide +kernel
  have hrun := Transition.Run.of_history hexec
  obtain ⟨r, hr, hstatus⟩ := List.any_eq_true.mp hlast
  obtain ⟨p, hp, hhas⟩ := List.any_eq_true.mp hbefore
  obtain ⟨hbids, htasks⟩ := Bool.and_eq_true_iff.mp hhas
  obtain ⟨r', hr', hstatus'⟩ := List.any_eq_true.mp htasks
  exact ⟨_, s, hrun, ⟨r, hr, of_decide_eq_true hstatus⟩,
    ⟨p, hp, of_decide_eq_true hbids, r', hr', of_decide_eq_true hstatus'⟩, reads_stay hrun⟩

/-- **Every list is answered.** No row of the deployed store keeps the tasks from being listed, the
bids of a task from being listed, or a task from being counted. -/
theorem lists_answered (hrun : Runs lib migrated pg tr s) : Answers lib s.tables :=
  (kept hrun).rows.answers

/-- So it is after a task and the event of a foreign one. -/
theorem replayedTask_answered :
    ∃ tr s, Runs bridgeLibraries migrated (.onValues samplePayloads) tr s ∧
      s.tables.tasks.length = 1 ∧ s.processed.length = 1 ∧ Answers bridgeLibraries s.tables := by
  have hexec : (Transition.exec (Bridge.step bridgeLibraries migrated (.onValues samplePayloads))
      System.init (taskRequest ++ [.deliver taskEvent, .statement true "", .statement true "",
        .statement true (sampleDraws.uuid 0), .statement true "", .record])).any
          (fun s => s.tables.tasks.length = 1 && s.processed.length = 1) = true := by
    decide +kernel
  obtain ⟨tr, s, hrun, hend⟩ := Transition.Run.reach_of_exec hexec
  obtain ⟨htasks, hprocessed⟩ := Bool.and_eq_true_iff.mp hend
  exact ⟨tr, s, hrun, of_decide_eq_true htasks, of_decide_eq_true hprocessed, lists_answered hrun⟩

end Runs

end Ainur.Reads
