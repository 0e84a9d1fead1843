import Mathlib.Data.List.Nodup
import Ainur.Api.InFlight
import Ainur.Bridge.Events

set_option autoImplicit false

/-! # The status of a row of `tasks`

Who writes `tasks.status`: the handlers that complete a task, the two inserts, and the branches of
the replay worker. All of them but one leave a completed row completed; the upsert on `TaskCreated`
sets the row of its chain id to pending, whatever it was. Any other process may write the outbox at
any time. `done` is not part of the program; it records the ids of the rows that have been
completed.
-/

namespace Ainur.StatusOrder

open Bridge InFlight
open Storage (Database)

/-! ## The system -/

structure Node where
  api : World
  /-- The event that the replay worker is at, with what is left of its branch. -/
  replay : Option (Delivery × List ReplayOp)
  done : List String

inductive Label where
  | api (l : InFlight.Label)
  /-- The replay worker gets an event, for the first time or again. -/
  | deliver (d : Delivery)
  /-- The next statement of its branch; `pick` is the row that a `LIMIT 1` takes. -/
  | statement (performed : Bool) (pick : String)
  /-- It is through with the event. -/
  | record
  /-- It stops, the cursor not updated. -/
  | stop
  /-- Another process writes the outbox. -/
  | outbox (rows : List OutboundExtrinsic)

/-- The tables of a Postgres store. -/
def tables : Store → PostgresStorage
  | .postgres _ p => p
  | .memory _ => emptyPostgres

namespace Node

def init (db : Database) : Node where
  api := .init (.postgres db emptyPostgres)
  replay := none
  done := []

def tables (s : Node) : PostgresStorage := StatusOrder.tables s.api.store

def tasks (s : Node) : List TaskRow := s.tables.tasks

/-- The node with these tables, and the rows recorded that are completed in them. -/
def finish (s : Node) : Node :=
  { s with
    done := ((s.tasks.filter fun r => r.status = "completed").map TaskRow.id) ++ s.done }

end Node

variable (lib : Libraries) (engine : ExecutionEngine) (db : Database) (pg : Jsonb)

def withTables (s : Node) (p : PostgresStorage) : Node :=
  { s with api := { s.api with store := .postgres db p } }

/-- What a label does, before `done` is brought up to date. -/
def act (s : Node) : Label → Option Node
  | .api l => (InFlight.step lib engine s.api l).map fun api => { s with api := api }
  | .deliver d =>
      match s.replay with
      | none =>
          if d.event.isSupported then d.ops.map fun ops => { s with replay := some (d, ops) }
          else none
      | some _ => none
  | .statement performed pick =>
      match s.replay with
      | some (d, op :: rest) =>
          if performed then
            if op.picks s.tables pick then
              some { withTables db s (op.write db pg d pick s.tables) with
                replay := (op.next db d s.tables pick).map fun ops => (d, ops ++ rest) }
            else none
          else some { s with replay := some (d, op.nextFailed d ++ rest) }
      | _ => none
  | .record =>
      match s.replay with
      | some (_, []) => some { s with replay := none }
      | _ => none
  | .stop => some { s with replay := none }
  | .outbox rows => some (withTables db s { s.tables with outbox := rows })

def step (s : Node) (l : Label) : Option Node := (act lib engine db pg s l).map Node.finish

/-- No row that has been completed is pending. -/
def NoRegress (s : Node) : Prop := ∀ r ∈ s.tasks, r.id ∈ s.done → r.status ≠ "pending"

/-- The step is not the upsert of `TaskCreated` on a completed row. -/
def Safe (s : Node) : Label → Prop
  | .statement true _ =>
      match s.replay with
      | some (_, .mirrorTask taskId :: _) =>
          ∀ r ∈ s.tasks, r.chainTaskId = some taskId → r.status ≠ "completed"
      | _ => True
  | _ => True

instance (s : Node) (l : Label) : Decidable (Safe s l) := by
  unfold Safe
  split
  · split <;> infer_instance
  · infer_instance

/-! ## What a step does to the rows -/

/-- The changes that keep a completed row completed: an update of some rows in place, and a new
row. -/
inductive Change (ts : List TaskRow) : List TaskRow → Prop
  | update (f : TaskRow → TaskRow) (hid : ∀ r ∈ ts, (f r).id = r.id)
      (hstatus : ∀ r ∈ ts, (f r).status = r.status ∨ (f r).status = "completed") :
      Change ts (ts.map f)
  | insert (row : TaskRow) (hnew : ∀ r ∈ ts, r.id ≠ row.id)
      (hstatus : row.status = "pending" ∨ row.status = "completed") : Change ts (ts ++ [row])

theorem Change.refl (ts : List TaskRow) : Change ts ts := by
  have h : Change ts (ts.map id) := .update id (fun _ _ => rfl) fun _ _ => Or.inl rfl
  rwa [List.map_id] at h

theorem change_of_eq {ts ts' : List TaskRow} (h : ts' = ts) : Change ts ts' := h ▸ .refl ts

section Storage

variable {lib db} {p q : PostgresStorage} {u : Unit}

theorem statusToStr_eq (status : TaskStatus) :
    statusToStr status = "pending" ∨ statusToStr status = "completed" := by
  cases status
  · exact Or.inl rfl
  · exact Or.inr rfl

theorem taskRow_status {task : StoredTask} {row : TaskRow}
    (h : PostgresStorage.taskRow lib task = .ok row) : row.status = statusToStr task.status := by
  obtain ⟨id, -, h⟩ := Fallible.bind_eq_ok.mp h
  obtain ⟨-, -, h⟩ := Fallible.bind_eq_ok.mp h
  split at h
  · cases h
  · rw [← Except.ok.inj h]

theorem not_any_id {ts : List TaskRow} {id : String} (h : ¬ (ts.any fun r => r.id = id) = true) :
    ∀ r ∈ ts, r.id ≠ id := by
  simpa using h

/-- `insert_task` adds a row or does nothing. -/
theorem insertTask_change {task : StoredTask} (h : p.insertTask lib db task = .ok (u, q)) :
    Change p.tasks q.tasks := by
  obtain ⟨row, hrow, h⟩ := Fallible.bind_eq_ok.mp h
  split at h
  · cases h
  · split at h
    · exact change_of_eq (congrArg (fun x => x.2.tasks) (Except.ok.inj h).symm)
    · next hany =>
        obtain rfl : _ = q := congrArg Prod.snd (Except.ok.inj h)
        exact .insert row (not_any_id hany) (taskRow_status hrow ▸ statusToStr_eq _)

/-- `upsert_task` on a completed task completes its row. -/
theorem upsertTask_change {task : StoredTask} (hcompleted : task.status = .completed)
    (h : p.upsertTask lib db task = .ok (u, q)) : Change p.tasks q.tasks := by
  obtain ⟨row, hrow, h⟩ := Fallible.bind_eq_ok.mp h
  have hstatus : row.status = "completed" := by rw [taskRow_status hrow, hcompleted]; rfl
  split at h
  · cases h
  · split at h
    · obtain rfl : _ = q := congrArg Prod.snd (Except.ok.inj h)
      refine .update _ (fun r _ => ?_) (fun r _ => ?_)
      · split <;> rfl
      · split
        · exact Or.inr hstatus
        · exact Or.inl rfl
    · next hany =>
        obtain rfl : _ = q := congrArg Prod.snd (Except.ok.inj h)
        exact .insert row (not_any_id hany) (Or.inr hstatus)

end Storage

section Handlers

variable {lib engine db} {p : PostgresStorage}

/-- A write of a handler: the tables with the change of its call, or as they are. -/
theorem written_change {x : Except ApiError (Unit × PostgresStorage)} {next : Option Flight}
    (h : ∀ u q, x = .ok (u, q) → Change p.tasks q.tasks) :
    ∃ q, (written (.postgres db p) (x.map fun r => (r.1, Store.postgres db r.2)) next).1 =
      .postgres db q ∧ Change p.tasks q.tasks := by
  cases x with
  | ok r => exact ⟨r.2, rfl, h r.1 r.2 rfl⟩
  | error e => exact ⟨p, rfl, .refl _⟩

variable (lib engine db p) in
/-- No call of a handler reopens a task. -/
theorem advance_change (f : Flight) :
    ∃ q, (f.advance lib engine (.postgres db p)).1 = .postgres db q ∧
      Change p.tasks q.tasks := by
  cases f with
  | registerAgent agent =>
      exact written_change fun u q h => change_of_eq (PostgresStorage.registerAgent_frame h).1
  | insertTask stored => exact written_change fun u q h => insertTask_change h
  | readForBid draws payload => exact ⟨p, whenRead_store, .refl _⟩
  | insertBid stored =>
      exact written_change fun u q h => change_of_eq (PostgresStorage.insertBid_frame h).2.1
  | readForResult draws payload => exact ⟨p, whenRead_store, .refl _⟩
  | readToExecute draws id => exact ⟨p, whenRead_store, .refl _⟩
  | upsertTask task stored => exact written_change fun u q h => upsertTask_change rfl h
  | insertResult stored =>
      exact written_change fun u q h => change_of_eq (PostgresStorage.insertResult_frame h).2.1

end Handlers

section Replay

variable {db pg} {p : PostgresStorage} {d : Delivery} {pick : String}

/-- A statement of the replay worker changes the rows, unless it is the upsert of `TaskCreated` on
a completed row. -/
theorem write_change {op : ReplayOp} (hmatch : op.isMatch = false)
    (hstatus : ∀ r ∈ p.tasks, r.status = "pending" ∨ r.status = "completed")
    (hsafe : ∀ taskId, op = .mirrorTask taskId →
      ∀ r ∈ p.tasks, r.chainTaskId = some taskId → r.status ≠ "completed") :
    Change p.tasks (op.write db pg d pick p).tasks := by
  cases op with
  | mirrorTask taskId =>
      simp only [ReplayOp.write]
      split
      · exact .refl _
      · split
        · refine .update _ (fun r _ => ?_) fun r hr => ?_
          · split <;> rfl
          · split
            · next hchain =>
                -- the row that the upsert sets to pending was not completed
                have hpending := (hstatus r hr).resolve_right (hsafe taskId rfl r hr hchain)
                exact Or.inl hpending.symm
            · exact Or.inl rfl
        · split
          · exact .refl _
          · next hany => exact .insert _ (not_any_id hany) (Or.inl rfl)
  | linkTask taskId =>
      simp only [ReplayOp.write]
      split
      · exact .refl _
      · refine .update _ (fun r _ => ?_) fun r _ => ?_
        · split <;> rfl
        · split <;> exact Or.inl rfl
  | completeTask taskId resultHash =>
      simp only [ReplayOp.write]
      split
      · exact .refl _
      · refine .update _ (fun r _ => ?_) fun r _ => ?_
        · split <;> rfl
        · split
          · exact Or.inr rfl
          · exact Or.inl rfl
  | matchTask taskId agentId => cases hmatch
  | mirrorAgent agentId owner => exact change_of_eq (ReplayOp.write_tasks rfl)
  | linkAgents agentId owner => exact change_of_eq (ReplayOp.write_tasks rfl)
  | outbox update => exact change_of_eq (ReplayOp.write_tasks rfl)
  | findBidTask taskId agentId => exact .refl _
  | findBidAgent taskUuid taskId agentId => exact .refl _
  | insertBid row => exact change_of_eq (ReplayOp.write_tasks rfl)
  | findCompletedTask taskId agentId resultHash => exact .refl _
  | insertResult row => exact change_of_eq (ReplayOp.write_tasks rfl)

variable (pg d pick) in
/-- The upsert of `TaskCreated` on a completed row reopens it. -/
theorem mirrorTask_reopens (hdb : db.accepts Storage.mirrorTaskSql = true) {taskId : Int}
    {r : TaskRow} (hr : r ∈ p.tasks) (hchain : r.chainTaskId = some taskId) :
    ∃ r' ∈ ((ReplayOp.mirrorTask taskId).write db pg d pick p).tasks,
      r'.id = r.id ∧ r'.status = "pending" := by
  have hany : (p.tasks.any fun r => r.chainTaskId = some taskId) = true :=
    List.any_eq_true.mpr ⟨r, hr, by simpa using hchain⟩
  simp only [ReplayOp.write, hdb, hany, Bool.not_true, Bool.false_eq_true, if_false, if_true]
  exact ⟨_, List.mem_map_of_mem hr, by rw [if_pos hchain], by rw [if_pos hchain]; rfl⟩

end Replay

/-! ## The invariant -/

/-- What holds while every step is safe: ids are unique, a row is pending or completed, `done` holds
the ids of the completed rows and of no other, and `TaskMatched` has no branch under way. -/
structure Inv (db : Database) (s : Node) : Prop where
  store : s.api.store = .postgres db s.tables
  nodup : (s.tasks.map TaskRow.id).Nodup
  status : ∀ r ∈ s.tasks, r.status = "pending" ∨ r.status = "completed"
  completed : ∀ r ∈ s.tasks, r.status = "completed" → r.id ∈ s.done
  done : ∀ id ∈ s.done, ∃ r ∈ s.tasks, r.id = id ∧ r.status = "completed"
  replay : ∀ d ops, s.replay = some (d, ops) → ∀ op ∈ ops, op.isMatch = false

theorem inv_init (db : Database) : Inv db (Node.init db) where
  store := rfl
  nodup := List.nodup_nil
  status r hr := by cases hr
  completed r hr := by cases hr
  done id hid := by cases hid
  replay d ops h := by cases h

theorem Change.nodup {ts ts' : List TaskRow} (h : Change ts ts')
    (hnodup : (ts.map TaskRow.id).Nodup) : (ts'.map TaskRow.id).Nodup := by
  cases h with
  | update f hid hstatus =>
      have hids : (ts.map f).map TaskRow.id = ts.map TaskRow.id := by
        rw [List.map_map]
        exact List.map_congr_left hid
      rw [hids]
      exact hnodup
  | insert row hnew hstatus =>
      rw [List.map_append, List.map_singleton, List.nodup_append]
      refine ⟨hnodup, by simp, ?_⟩
      intro id hid id' hid'
      obtain ⟨r, hr, rfl⟩ := List.mem_map.mp hid
      rw [List.mem_singleton.mp hid']
      exact hnew r hr

/-- A completed row is still there, and completed. -/
theorem Change.completed {ts ts' : List TaskRow} (h : Change ts ts') {r : TaskRow} (hr : r ∈ ts)
    (hcompleted : r.status = "completed") :
    ∃ r' ∈ ts', r'.id = r.id ∧ r'.status = "completed" := by
  cases h with
  | update f hid hstatus =>
      refine ⟨f r, List.mem_map_of_mem hr, hid r hr, ?_⟩
      rcases hstatus r hr with hsame | hdone
      · rw [hsame, hcompleted]
      · exact hdone
  | insert row hnew hstatus => exact ⟨r, List.mem_append_left _ hr, rfl, hcompleted⟩

theorem Change.status {ts ts' : List TaskRow} (h : Change ts ts')
    (hall : ∀ r ∈ ts, r.status = "pending" ∨ r.status = "completed") :
    ∀ r' ∈ ts', r'.status = "pending" ∨ r'.status = "completed" := by
  intro r' hr'
  cases h with
  | update f hid hstatus =>
      obtain ⟨r, hr, rfl⟩ := List.mem_map.mp hr'
      rcases hstatus r hr with hsame | hdone
      · rw [hsame]
        exact hall r hr
      · exact Or.inr hdone
  | insert row hnew hstatus =>
      rcases List.mem_append.mp hr' with hr | hrow
      · exact hall r' hr
      · rw [List.mem_singleton.mp hrow]
        exact hstatus

theorem Inv.noRegress {s : Node} (h : Inv db s) : NoRegress s := by
  intro r hr hdone
  obtain ⟨r', hr', hid, hcompleted⟩ := h.done r.id hdone
  obtain rfl := List.inj_on_of_nodup_map h.nodup hr' hr hid
  rw [hcompleted]
  decide

/-! ## Steps -/

section Steps

variable {lib engine db pg} {s t : Node} {l : Label}

theorem mem_done_finish {s : Node} {id : String} :
    id ∈ s.finish.done ↔
      (∃ r ∈ s.tasks, r.id = id ∧ r.status = "completed") ∨ id ∈ s.done := by
  simp only [Node.finish, List.mem_append, List.mem_map, List.mem_filter, decide_eq_true_eq]
  constructor
  · rintro (⟨r, ⟨hr, hcompleted⟩, hid⟩ | hdone)
    · exact Or.inl ⟨r, hr, hid, hcompleted⟩
    · exact Or.inr hdone
  · rintro (⟨r, hr, hid, hcompleted⟩ | hdone)
    · exact Or.inl ⟨r, ⟨hr, hcompleted⟩, hid⟩
    · exact Or.inr hdone

/-- A step whose rows change as they may keeps the invariant. -/
theorem Inv.change {u : Node} (h : Inv db s) (hstore : u.api.store = .postgres db u.tables)
    (hchange : Change s.tasks u.tasks) (hdone : u.done = s.done)
    (hreplay : ∀ d ops, u.replay = some (d, ops) → ∀ op ∈ ops, op.isMatch = false) :
    Inv db u.finish where
  store := hstore
  nodup := hchange.nodup h.nodup
  status := hchange.status h.status
  completed r hr hcompleted := mem_done_finish.mpr (Or.inl ⟨r, hr, rfl, hcompleted⟩)
  done id hid := by
    rcases mem_done_finish.mp hid with hnow | hbefore
    · exact hnow
    · rw [hdone] at hbefore
      obtain ⟨r, hr, rfl, hcompleted⟩ := h.done id hbefore
      exact hchange.completed hr hcompleted
  replay := hreplay

/-- Every storage call of every handler is among the changes. -/
theorem api_change {l : InFlight.Label} {api : World} (h : Inv db s)
    (hstep : InFlight.step lib engine s.api l = some api) :
    ∃ q, api.store = .postgres db q ∧ Change s.tasks q.tasks := by
  cases l with
  | arrive k draws a =>
      obtain ⟨_, _, f, _, rfl⟩ := step_arrive.mp hstep
      exact ⟨s.tables, h.store, .refl _⟩
  | call k =>
      obtain ⟨f, _, rfl⟩ := step_call.mp hstep
      have hchange := advance_change lib engine db s.tables f
      rw [← h.store] at hchange
      exact hchange
  | drop k =>
      rw [← Option.some.inj hstep]
      exact ⟨s.tables, h.store, .refl _⟩

theorem act_statement {performed : Bool} {pick : String} {u : Node} :
    act lib engine db pg s (.statement performed pick) = some u ↔
      ∃ d op rest, s.replay = some (d, op :: rest) ∧
        ((performed = true ∧ op.picks s.tables pick = true ∧
          { withTables db s (op.write db pg d pick s.tables) with
            replay := (op.next db d s.tables pick).map fun ops => (d, ops ++ rest) } = u) ∨
          (performed = false ∧ { s with replay := some (d, op.nextFailed d ++ rest) } = u)) := by
  simp only [act]
  split
  · next d op rest h => cases performed <;> simp [h]
  · next h => exact iff_of_false (by simp) fun ⟨d, op, rest, hr, _⟩ => h d op rest hr

theorem Inv.statement (h : Inv db s) {performed : Bool} {pick : String} {u : Node}
    (hsafe : Safe s (.statement performed pick))
    (hact : act lib engine db pg s (.statement performed pick) = some u) : Inv db u.finish := by
  obtain ⟨d, op, rest, hreplay, ⟨rfl, _, rfl⟩ | ⟨rfl, rfl⟩⟩ := act_statement.mp hact
  · have hop := h.replay d _ hreplay op List.mem_cons_self
    have hrest := fun op' hop' => h.replay d _ hreplay op' (List.mem_cons_of_mem _ hop')
    refine h.change rfl (write_change hop h.status fun taskId htask => ?_) rfl ?_
    · subst htask
      simp only [Safe, hreplay] at hsafe
      exact hsafe
    · intro d' ops hops op' hop'
      obtain ⟨more, hnext, heq⟩ := Option.map_eq_some_iff.mp hops
      cases heq
      rcases List.mem_append.mp hop' with hmore | hold
      · exact ReplayOp.next_not_match hnext hmore
      · exact hrest op' hold
  -- the statement failed: the tables stay, and the branch goes on without its row
  · refine h.change h.store (.refl _) rfl fun d' ops hops op' hop' => ?_
    cases hops
    rcases List.mem_append.mp hop' with hmore | hold
    · exact ReplayOp.nextFailed_not_match hmore
    · exact h.replay d _ hreplay op' (List.mem_cons_of_mem _ hold)

theorem Inv.step (h : Inv db s) (hsafe : Safe s l)
    (hstep : step lib engine db pg s l = some t) : Inv db t := by
  obtain ⟨u, hact, rfl⟩ := Option.map_eq_some_iff.mp hstep
  cases l with
  | api l =>
      obtain ⟨api, hapi, rfl⟩ := Option.map_eq_some_iff.mp hact
      obtain ⟨q, hstore, hchange⟩ := api_change h hapi
      have htables : ({ s with api := api } : Node).tables = q := by
        rw [Node.tables, hstore]
        rfl
      exact h.change (by rw [htables]; exact hstore)
        (show Change s.tasks (Node.tables _).tasks by rw [htables]; exact hchange) rfl h.replay
  | deliver d =>
      simp only [act] at hact
      split at hact
      · split at hact
        · next hsupported =>
            obtain ⟨ops, hops, rfl⟩ := Option.map_eq_some_iff.mp hact
            refine h.change h.store (.refl _) rfl fun d' ops' heq op hop => ?_
            cases heq
            -- only supported events get a branch, and `TaskMatched` is none of them
            exact Delivery.ops_not_match hsupported hops hop
        · cases hact
      · cases hact
  | statement performed pick => exact h.statement hsafe hact
  | record =>
      simp only [act] at hact
      split at hact
      · rw [← Option.some.inj hact]
        exact h.change h.store (.refl _) rfl fun d ops heq => by cases heq
      · cases hact
  | stop =>
      rw [← Option.some.inj hact]
      exact h.change h.store (.refl _) rfl fun d ops heq => by cases heq
  | outbox rows =>
      rw [← Option.some.inj hact]
      exact h.change rfl (.refl _) rfl h.replay

/-- A step that is not safe makes a completed row pending. -/
theorem Inv.regress (hdb : db.accepts Storage.mirrorTaskSql = true) (h : Inv db s)
    (hviolates : ¬ Safe s l) (hstep : StatusOrder.step lib engine db pg s l = some t) :
    ¬ NoRegress t := by
  obtain ⟨u, hact, rfl⟩ := Option.map_eq_some_iff.mp hstep
  cases l with
  | statement performed pick =>
      obtain ⟨d, op, rest, hreplay, ⟨rfl, _, rfl⟩ | ⟨rfl, rfl⟩⟩ := act_statement.mp hact
      · cases op with
        | mirrorTask taskId =>
            simp only [Safe, hreplay, not_forall, not_not] at hviolates
            obtain ⟨r, hr, hchain, hcompleted⟩ := hviolates
            obtain ⟨r', hr', hid, hpending⟩ := mirrorTask_reopens pg d pick hdb hr hchain
            intro hno
            -- the row was completed before, so its id is in `done`
            refine hno r' hr' (mem_done_finish.mpr (Or.inr ?_)) hpending
            rw [hid]
            exact h.completed r hr hcompleted
        | _ => simp [Safe, hreplay] at hviolates
      · simp [Safe] at hviolates
  | api l => exact absurd trivial hviolates
  | deliver d => exact absurd trivial hviolates
  | record => exact absurd trivial hviolates
  | stop => exact absurd trivial hviolates
  | outbox rows => exact absurd trivial hviolates

/-- In every run, no row that has been completed is ever pending if and only if no upsert of
`TaskCreated` runs while the row of its chain id is completed. -/
theorem status_never_regresses_iff (hdb : db.accepts Storage.mirrorTaskSql = true)
    {tr : List (Node × Label)}
    (hrun : Transition.Run (StatusOrder.step lib engine db pg) (Node.init db) tr s) :
    Transition.Always NoRegress tr s ↔ Transition.EachStep Safe tr :=
  hrun.always_iff_of_breaks (inv_init db) (fun _ h => h.noRegress)
    (fun _ _ _ h hsafe hstep => h.step hsafe hstep)
    fun _ _ _ h hviolates hstep => h.regress hdb hviolates hstep

end Steps

/-! ## A block delivered twice -/

section Samples

def created (generatedId : String) : Delivery where
  event := .taskCreated 7 100
  blockNumber := 5
  correlation := none
  generatedId := generatedId
  now := 1700000000

def completed : Delivery where
  event := .taskCompleted 7 3 "0xab"
  blockNumber := 5
  correlation := none
  generatedId := "r"
  now := 1700000006

/-- The step function on a database where the statements of the mirror take effect. -/
abbrev mirrorStep : Node → Label → Option Node :=
  step (sampleLibraries []) (fun _ => .ok []) Storage.asWritten (.onValues [])

/-- Task 7 is created and completed in block 5; both events are applied and recorded. -/
def applied : List Label :=
  [.deliver (created "a"), .statement true "", .statement true "", .statement true "", .record,
    .deliver completed, .statement true "a", .statement true "", .statement true "",
    .statement true "", .statement true "", .record]

/-- Where block 5 is applied once, its row is completed, and has never been pending again. -/
theorem applied_never_regresses :
    ∃ tr s, Transition.Run mirrorStep (Node.init Storage.asWritten) tr s ∧
      s.tasks.map TaskRow.status = ["completed"] ∧ Transition.Always NoRegress tr s := by
  obtain ⟨tr, s, hguarded, hend⟩ := Transition.Run.reach_of_exec
    (p := fun s => s.tasks.map TaskRow.status == ["completed"])
    (show (Transition.exec (Transition.guarded mirrorStep Safe) (Node.init Storage.asWritten)
      applied).any _ = true from rfl)
  obtain ⟨hrun, hsafe⟩ := hguarded.of_guarded
  exact ⟨tr, s, hrun, eq_of_beq hend, (status_never_regresses_iff rfl hrun).mpr hsafe⟩

/-- The worker stops before it updates the cursor, so block 5 is delivered again. -/
def redelivery : List Label := applied ++ [.stop, .deliver (created "b"), .statement true ""]

theorem redelivery_regresses :
    ∃ tr s, Transition.Run mirrorStep (Node.init Storage.asWritten) tr s ∧
      ¬ Transition.Always NoRegress tr s := by
  obtain ⟨tr, s, hrun, hregress⟩ := Transition.Run.reach_of_exec
    (p := fun s => s.tasks.any fun r => s.done.contains r.id && r.status = "pending")
    (show (Transition.exec mirrorStep (Node.init Storage.asWritten) redelivery).any _ = true
      from rfl)
  refine ⟨tr, s, hrun, fun halways => ?_⟩
  obtain ⟨r, hr, hrow⟩ := List.any_eq_true.mp hregress
  obtain ⟨hdone, hpending⟩ := Bool.and_eq_true_iff.mp hrow
  exact halways.1 r hr (by simpa using hdone) (by simpa using hpending)

end Samples

end Ainur.StatusOrder
