import Mathlib.Data.List.Nodup
import Ainur.Lib.Keyed
import Ainur.Lib.Refinement
import Ainur.Bridge.ChainIds
import Ainur.Storage.Results

set_option autoImplicit false

/-! # What the chain changes under the migrated schema

The statements that mirror agents, tasks, bids and results are refused under the migrated schema,
and the two that are not refused look for a chain id that no task has. What is left of the replay
worker and of the backfill are updates of the outbox, and these set no column that a handler reads
or that decides what becomes of a row. So a run stays a run when all events and the backfill are
taken out of it, and the API finds the same agents, tasks and bids in both.
-/

namespace Ainur.Unseen

open Storage (Database migrated)
open Bridge

/-! ## Statements that are refused -/

theorem migrated_mirrorTask : migrated.accepts Storage.mirrorTaskSql = false := by decide

theorem migrated_mirrorBid : migrated.accepts Storage.mirrorBidSql = false := by decide

theorem migrated_mirrorResult : migrated.accepts Storage.mirrorResultSql = false := by decide

/-! ## What is left of a row and of the tables -/

/-- A row of the outbox without its payload and its chain ids. -/
def bare (row : OutboundExtrinsic) : OutboundExtrinsic :=
  { row with payload := none, chainTaskId := none, chainAgentId := none }

/-- The tables with other rows in the outbox. -/
def withOutbox (p : PostgresStorage) (rows : List OutboundExtrinsic) : PostgresStorage :=
  { p with outbox := rows }

@[simp] theorem withOutbox_tasks (p : PostgresStorage) (rows : List OutboundExtrinsic) :
    (withOutbox p rows).tasks = p.tasks := rfl

@[simp] theorem withOutbox_bids (p : PostgresStorage) (rows : List OutboundExtrinsic) :
    (withOutbox p rows).bids = p.bids := rfl

@[simp] theorem withOutbox_results (p : PostgresStorage) (rows : List OutboundExtrinsic) :
    (withOutbox p rows).results = p.results := rfl

@[simp] theorem withOutbox_outbox (p : PostgresStorage) (rows : List OutboundExtrinsic) :
    (withOutbox p rows).outbox = rows := rfl

/-- The chain has left no trace in `tasks`. -/
structure Plain (r : TaskRow) : Prop where
  chainTaskId : r.chainTaskId = none
  resultHash : r.resultHash = none
  matchedAgent : r.matchedAgent = none

/-! ## The updates of the outbox -/

section Updates

variable {pg : Jsonb} {u : Update} {row : OutboundExtrinsic} {rows rows' : List OutboundExtrinsic}

theorem set_bare (h : row.Hashed) (happ : u.applies pg row = some true) :
    bare (u.set pg row) = bare row := by
  -- an update by `tx_hash` finalizes a row that is finalized already
  have hfinalized : row.txHash.isSome = true →
      bare { row with status := .finalized } = bare row := by
    intro hhash
    rw [← h.mp hhash]
  cases u with
  | agentRegistered corr _ =>
      have hhash : row.txHash = some corr := by simpa [Update.applies] using happ
      exact hfinalized (by rw [hhash]; rfl)
  | taskCreated corr _ =>
      have hhash : row.txHash = some corr := by simpa [Update.applies] using happ
      exact hfinalized (by rw [hhash]; rfl)
  | bothIds corr _ _ =>
      have hhash : row.txHash = some corr := by simpa [Update.applies] using happ
      exact hfinalized (by rw [hhash]; rfl)
  | patch _ _ => rfl
  | backfillAgent _ _ => rfl
  | backfillTask _ _ => rfl
  | coalesceTask _ _ => rfl

/-- `Hashed` is about columns that are left. -/
theorem hashed_bare : (bare row).Hashed ↔ row.Hashed := Iff.rfl

theorem exec_bare (h : ∀ row ∈ rows, row.Hashed) (hexec : Update.exec pg u rows = some rows') :
    rows'.map bare = rows.map bare := by
  obtain ⟨-, heq⟩ := Option.ite_none_right_eq_some.mp hexec
  obtain rfl := Option.some.inj heq
  rw [List.map_map]
  refine List.map_congr_left fun row hrow => ?_
  show bare (if u.applies pg row = some true then u.set pg row else row) = bare row
  split
  · next happ => exact set_bare (h row hrow) happ
  · rfl

/-- What is left of the rows decides whether they are all `Hashed`. -/
theorem hashed_of_bare (h : ∀ row ∈ rows, row.Hashed) (heq : rows'.map bare = rows.map bare) :
    ∀ row ∈ rows', row.Hashed := by
  intro row' hrow'
  have hmem : bare row' ∈ rows.map bare := heq ▸ List.mem_map_of_mem hrow'
  obtain ⟨row, hrow, hbare⟩ := List.mem_map.mp hmem
  have hhashed : (bare row).Hashed := hashed_bare.mpr (h row hrow)
  rw [hbare] at hhashed
  exact hashed_bare.mp hhashed

end Updates

/-! ## The statements of the replay worker -/

section Statements

variable {pg : Jsonb} {d : Delivery} {pick : String} {p : PostgresStorage} {op : ReplayOp}

/-- An update that looks for a chain id finds no row. -/
theorem map_plain {rows : List TaskRow} (h : ∀ r ∈ rows, Plain r) (taskId : Int)
    (f : TaskRow → TaskRow) :
    (rows.map fun r => if r.chainTaskId = some taskId then f r else r) = rows := by
  refine (List.map_congr_left fun r hr => ?_).trans (List.map_id rows)
  have hne : r.chainTaskId ≠ some taskId := by simp [(h r hr).chainTaskId]
  exact if_neg hne

/-- A statement leaves all tables but the outbox alone. -/
theorem write_store (h : ∀ r ∈ p.tasks, Plain r) :
    op.write migrated pg d pick p = withOutbox p (op.write migrated pg d pick p).outbox := by
  cases op with
  | mirrorAgent agentId owner =>
      simp only [ReplayOp.write, Storage.migrated_mirrorAgent]
      rfl
  | linkAgents agentId owner =>
      simp only [ReplayOp.write, Storage.migrated_linkAgent]
      rfl
  | outbox u =>
      simp only [ReplayOp.write]
      split <;> rfl
  | mirrorTask taskId =>
      simp only [ReplayOp.write, migrated_mirrorTask]
      rfl
  | linkTask taskId =>
      have hrefused : migrated.accepts Storage.linkTaskSql = false := Storage.linkTask_refused Storage.schema
      simp only [ReplayOp.write, hrefused]
      rfl
  | insertBid row =>
      simp only [ReplayOp.write, migrated_mirrorBid]
      rfl
  | insertResult row =>
      simp only [ReplayOp.write, migrated_mirrorResult]
      rfl
  | completeTask taskId resultHash =>
      simp only [ReplayOp.write]
      split
      · rfl
      · rw [map_plain h]
        rfl
  | matchTask taskId agentId =>
      simp only [ReplayOp.write]
      split
      · rfl
      · rw [map_plain h]
        rfl
  | findBidTask taskId agentId => rfl
  | findBidAgent taskUuid taskId agentId => rfl
  | findCompletedTask taskId agentId resultHash => rfl

/-- And of the outbox it changes payloads and chain ids only. -/
theorem write_bare {db : Database} (h : ∀ row ∈ p.outbox, row.Hashed) :
    (op.write db pg d pick p).outbox.map bare = p.outbox.map bare := by
  cases op with
  | outbox u =>
      simp only [ReplayOp.write]
      split
      · next rows hexec => exact exec_bare h hexec
      · rfl
  | _ =>
      simp only [ReplayOp.write]
      repeat' split
      all_goals rfl

end Statements

/-! ## The calls of the API -/

section Calls

variable {lib : Libraries} {db : Database} {p : PostgresStorage} {rows : List OutboundExtrinsic}

/-- The result of a call, with other rows in the outbox. -/
def answerWith (rows : List OutboundExtrinsic) (x : Except ApiError (Unit × PostgresStorage)) :
    Except ApiError (Unit × PostgresStorage) :=
  x.map fun r => (r.1, withOutbox r.2 rows)

theorem registerAgent_withOutbox (agent : AgentRegistrationRequest) :
    (withOutbox p rows).registerAgent db agent = answerWith rows (p.registerAgent db agent) := by
  unfold PostgresStorage.registerAgent
  split <;> rfl

theorem insertTask_withOutbox (task : StoredTask) :
    (withOutbox p rows).insertTask lib db task = answerWith rows (p.insertTask lib db task) := by
  unfold PostgresStorage.insertTask
  cases PostgresStorage.taskRow lib task with
  | error e => rfl
  | ok row =>
      rw [Fallible.ok_bind, Fallible.ok_bind]
      split
      · rfl
      · show (if p.tasks.any fun r => r.id = row.id then _ else _) = _
        split <;> rfl

theorem upsertTask_withOutbox (task : StoredTask) :
    (withOutbox p rows).upsertTask lib db task = answerWith rows (p.upsertTask lib db task) := by
  unfold PostgresStorage.upsertTask
  cases PostgresStorage.taskRow lib task with
  | error e => rfl
  | ok row =>
      rw [Fallible.ok_bind, Fallible.ok_bind]
      split
      · rfl
      · show (if p.tasks.any fun r => r.id = row.id then _ else _) = _
        split <;> rfl

theorem insertBid_withOutbox (bid : StoredBid) :
    (withOutbox p rows).insertBid lib bid = answerWith rows (p.insertBid lib bid) := by
  unfold PostgresStorage.insertBid
  cases parseUuid lib bid.id "bid id" with
  | error e => rfl
  | ok id =>
      cases parseUuid lib bid.taskId "bid task_id" with
      | error e => rfl
      | ok taskId =>
          cases serializeAmounts [bid.bid.value] with
          | error e => rfl
          | ok _ =>
              -- the value, the id, the pair and the task, in the order of the checks
              show (if bid.bid.value > i64Max then _
                else if p.bids.any fun b => b.id = id then _
                else if p.bids.any fun b => b.taskId = taskId ∧ b.agentId = bid.bid.agentId then _
                else if !p.tasks.any fun r => r.id = taskId then _ else _) = _
              simp only [Fallible.ok_bind]
              split
              · rfl
              · split
                · rfl
                · split
                  · rfl
                  · split <;> rfl

theorem insertResult_withOutbox (result : StoredResult) :
    (withOutbox p rows).insertResult lib db result =
      answerWith rows (p.insertResult lib db result) := by
  unfold PostgresStorage.insertResult
  cases parseUuid lib result.id "result id" with
  | error e => rfl
  | ok id =>
      cases parseUuid lib result.taskId "result task_id" with
      | error e => rfl
      | ok taskId =>
          show (if !db.accepts Storage.insertResultSql then _
            else if p.results.any fun r => r.taskId = taskId then _
            else if !p.tasks.any fun r => r.id = taskId then _ else _) = _
          simp only [Fallible.ok_bind]
          split
          · rfl
          · split
            · rfl
            · split <;> rfl

/-- No call looks at the outbox, and none writes it but the enqueue. -/
theorem advance_withOutbox (c : Call) :
    c.advance lib db (withOutbox p rows) =
      (withOutbox (c.advance lib db p).1 rows, (c.advance lib db p).2) := by
  cases c with
  | registerAgent agent =>
      simp only [Call.advance, registerAgent_withOutbox]
      cases p.registerAgent db agent <;> rfl
  | insertTask stored =>
      simp only [Call.advance, insertTask_withOutbox]
      cases p.insertTask lib db stored <;> rfl
  | insertBid stored =>
      simp only [Call.advance, insertBid_withOutbox]
      cases p.insertBid lib stored <;> rfl
  | upsertTask task stored =>
      simp only [Call.advance, upsertTask_withOutbox]
      cases p.upsertTask lib db task <;> rfl
  | insertResult stored =>
      simp only [Call.advance, insertResult_withOutbox]
      cases p.insertResult lib db stored <;> rfl
  | lookupTask work => rfl
  | lookupAgent work taskChainId => rfl
  | enqueue x => rfl

theorem creates_withOutbox (c : Call) :
    c.creates lib db (withOutbox p rows) = c.creates lib db p := by
  unfold Call.creates
  rw [advance_withOutbox]
  rfl

theorem begin_withOutbox (draws : Draws) (req : ApiRequest) :
    Call.begin lib draws (withOutbox p rows) req = Call.begin lib draws p req := by
  cases req <;> rfl

end Calls

/-! ## The run without the chain -/

/-- The labels that are not of the replay worker or of the backfill. -/
def withoutChain : Label → List Label
  | .request k draws req => [.request k draws req]
  | .call k performed => [.call k performed]
  | .enqueue k correlationId now => [.enqueue k correlationId now]
  | .drop k => [.drop k]
  | .settle correlationId outcome now => [.settle correlationId outcome now]
  | .deliver _ | .statement _ _ | .record | .stop | .backfill _ => []

/-- What the chain leaves alone, in a state with it and in one without it. -/
structure SameApi (s a : System) : Prop where
  tables : a.tables = withOutbox s.tables a.tables.outbox
  outbox : a.tables.outbox.map bare = s.tables.outbox.map bare
  calls : a.calls = s.calls
  enqueued : a.enqueued = s.enqueued
  created : a.created = s.created

/-- What makes the statements of the replay worker miss. -/
structure Untouched (s : System) : Prop where
  tasks : ∀ r ∈ s.tables.tasks, Plain r
  hashed : ∀ row ∈ s.tables.outbox, row.Hashed
  ids : (s.tables.outbox.map OutboundExtrinsic.correlationId).Nodup

section Tasks

variable {lib : Libraries} {db : Database} {p q : PostgresStorage} {u : Unit}

theorem taskRow_plain {task : StoredTask} {row : TaskRow}
    (h : PostgresStorage.taskRow lib task = .ok row) : Plain row := by
  obtain ⟨id, -, h⟩ := Fallible.bind_eq_ok.mp h
  obtain ⟨-, -, h⟩ := Fallible.bind_eq_ok.mp h
  split at h
  · cases h
  · obtain rfl := Except.ok.inj h
    exact ⟨rfl, rfl, rfl⟩

theorem plain_append {rows : List TaskRow} {row : TaskRow} (h : ∀ r ∈ rows, Plain r)
    (hrow : Plain row) : ∀ r ∈ rows ++ [row], Plain r := by
  intro r hr
  rcases List.mem_append.mp hr with hr | hr
  · exact h r hr
  · rw [List.mem_singleton.mp hr]
    exact hrow

theorem insertTask_plain {task : StoredTask} (h : p.insertTask lib db task = .ok (u, q))
    (hp : ∀ r ∈ p.tasks, Plain r) : ∀ r ∈ q.tasks, Plain r := by
  obtain ⟨row, hrow, h⟩ := Fallible.bind_eq_ok.mp h
  split at h
  · cases h
  · split at h
    · obtain rfl : p = q := congrArg Prod.snd (Except.ok.inj h)
      exact hp
    · obtain rfl : _ = q := congrArg Prod.snd (Except.ok.inj h)
      exact plain_append hp (taskRow_plain hrow)

theorem upsertTask_plain {task : StoredTask} (h : p.upsertTask lib db task = .ok (u, q))
    (hp : ∀ r ∈ p.tasks, Plain r) : ∀ r ∈ q.tasks, Plain r := by
  obtain ⟨row, hrow, h⟩ := Fallible.bind_eq_ok.mp h
  split at h
  · cases h
  · split at h
    · obtain rfl : _ = q := congrArg Prod.snd (Except.ok.inj h)
      intro r hr
      obtain ⟨old, hold, rfl⟩ := List.mem_map.mp hr
      have hplain := hp old hold
      split
      · exact ⟨hplain.chainTaskId, hplain.resultHash, hplain.matchedAgent⟩
      · exact hplain
    · obtain rfl : _ = q := congrArg Prod.snd (Except.ok.inj h)
      exact plain_append hp (taskRow_plain hrow)

/-- The calls of the API write none of the columns of the chain. -/
theorem advance_plain (c : Call) (hp : ∀ r ∈ p.tasks, Plain r) :
    ∀ r ∈ (c.advance lib db p).1.tasks, Plain r := by
  cases c with
  | registerAgent agent =>
      simp only [Call.advance]
      split
      · next hop => rw [(PostgresStorage.registerAgent_frame hop).1]; exact hp
      · exact hp
  | insertTask stored =>
      simp only [Call.advance]
      split
      · next hop => exact insertTask_plain hop hp
      · exact hp
  | insertBid stored =>
      simp only [Call.advance]
      split
      · next hop => rw [(PostgresStorage.insertBid_frame hop).2.1]; exact hp
      · exact hp
  | upsertTask task stored =>
      simp only [Call.advance]
      split
      · next hop => exact upsertTask_plain hop hp
      · exact hp
  | insertResult stored =>
      simp only [Call.advance]
      split
      · next hop => rw [(PostgresStorage.insertResult_frame hop).2.1]; exact hp
      · exact hp
  | lookupTask work => exact hp
  | lookupAgent work taskChainId => exact hp
  | enqueue x => exact hp

theorem advance_outbox (c : Call) : (c.advance lib db p).1.outbox = p.outbox := by
  have h := congrArg (fun r => r.1.outbox) (@advance_withOutbox lib db p p.outbox c)
  exact h

end Tasks

section Settle

variable {rows : List OutboundExtrinsic} {row : OutboundExtrinsic} {correlationId : String}
variable {now : Nat} {outcome : Outbox.Submission} {f : OutboundExtrinsic → OutboundExtrinsic}

theorem settlement_bare {job : Job} (hf : Outbox.settlement now job outcome = some f)
    (row : OutboundExtrinsic) : bare (f row) = f (bare row) := by
  rcases Outbox.settlement_cases hf with ⟨_, _, rfl⟩ | ⟨_, _, _, _, _, rfl⟩
  · rfl
  · rfl

/-- Of a job only the number of its attempts counts. -/
theorem settlement_job (row : OutboundExtrinsic) :
    Outbox.settlement now (bare row).job outcome = Outbox.settlement now row.job outcome := rfl

theorem settle_bare {job : Job} (hf : Outbox.settlement now job outcome = some f) :
    (rows.map fun row => if row.correlationId = correlationId then f row else row).map bare =
      (rows.map bare).map fun row => if row.correlationId = correlationId then f row else row := by
  rw [List.map_map, List.map_map]
  refine List.map_congr_left fun row _ => ?_
  show bare (if row.correlationId = correlationId then f row else row) =
    if row.correlationId = correlationId then f (bare row) else bare row
  split
  · exact settlement_bare hf row
  · rfl

/-- A pending row is settled with a hash, or it has none. -/
theorem settlement_hashed {job : Job} (hf : Outbox.settlement now job outcome = some f)
    (h : row.Hashed) (hpending : row.status = .pending) : (f row).Hashed := by
  rcases Outbox.settlement_cases hf with ⟨hash, -, rfl⟩ | ⟨err, cut, -, -, -, rfl⟩
  · exact ⟨fun _ => rfl, fun _ => rfl⟩
  · -- it had none, and a status after a failure is not `finalized`
    have hnone : ¬ row.txHash.isSome = true := by
      intro hsome
      have hfinalized := h.mp hsome
      rw [hpending] at hfinalized
      cases hfinalized
    refine ⟨fun hsome => absurd hsome hnone, fun hstatus => ?_⟩
    have hnext : nextStatus job.retryCount = .finalized := hstatus
    unfold nextStatus at hnext
    split at hnext
    · cases hnext
    · cases hnext

end Settle

/-- The columns that identify a row are among those that are left. -/
theorem ids_of_bare {rows rows' : List OutboundExtrinsic} (h : rows'.map bare = rows.map bare) :
    rows'.map OutboundExtrinsic.correlationId = rows.map OutboundExtrinsic.correlationId := by
  have hids := congrArg (List.map OutboundExtrinsic.correlationId) h
  rw [List.map_map, List.map_map] at hids
  exact hids

section Steps

variable {lib : Libraries} {pg : Jsonb} {s t a : System} {l : Label}

theorem Untouched.init : Untouched System.init where
  tasks r hr := by cases hr
  hashed row hrow := by cases hrow
  ids := List.nodup_nil

/-- Other rows with the same columns left, and the same tasks. -/
theorem Untouched.of_bare (h : Untouched s) (htasks : t.tables.tasks = s.tables.tasks)
    (houtbox : t.tables.outbox.map bare = s.tables.outbox.map bare) : Untouched t where
  tasks := by rw [htasks]; exact h.tasks
  hashed := hashed_of_bare h.hashed houtbox
  ids := by rw [ids_of_bare houtbox]; exact h.ids

theorem Untouched.step (h : Untouched s) (hstep : step lib migrated pg s l = some t) :
    Untouched t := by
  cases l with
  | request k draws req =>
      obtain ⟨-, c, -, rfl⟩ := step_request.mp hstep
      exact h.of_bare rfl rfl
  | call k performed =>
      obtain ⟨c, -, -, ⟨-, rfl⟩ | ⟨-, rfl⟩⟩ := step_call.mp hstep
      · have houtbox : (c.advance lib migrated s.tables).1.outbox = s.tables.outbox :=
          advance_outbox c
        exact ⟨advance_plain c h.tasks, by rw [houtbox]; exact h.hashed,
          by rw [houtbox]; exact h.ids⟩
      · exact h.of_bare rfl rfl
  | enqueue k correlationId now =>
      obtain ⟨x, -, ⟨hnew, -, -⟩, rfl⟩ := step_enqueue.mp hstep
      refine ⟨h.tasks, fun row hrow => ?_, ?_⟩
      · rcases List.mem_append.mp hrow with hrow | hrow
        · exact h.hashed row hrow
        · obtain rfl := List.mem_singleton.mp hrow
          constructor
          · intro hsome
            cases hsome
          · intro hstatus
            cases hstatus
      · show ((s.tables.outbox ++ [x.row lib correlationId now]).map _).Nodup
        rw [List.map_append, List.nodup_append]
        refine ⟨h.ids, List.nodup_singleton _, fun c hc c' hc' => ?_⟩
        obtain ⟨row, hrow, rfl⟩ := List.mem_map.mp hc
        obtain rfl := List.mem_singleton.mp hc'
        exact hnew row hrow
  | drop k =>
      obtain ⟨-, rfl⟩ := step_drop.mp hstep
      exact h.of_bare rfl rfl
  | settle correlationId outcome now =>
      obtain ⟨row, hfind, hpending, f, hf, rfl⟩ := step_settle.mp hstep
      have hmem : row ∈ s.tables.outbox := List.mem_of_find?_eq_some hfind
      have hkey : row.correlationId = correlationId := by simpa using List.find?_some hfind
      refine ⟨h.tasks, fun row' hrow' => ?_, ?_⟩
      · obtain ⟨old, hold, rfl⟩ := List.mem_map.mp hrow'
        split
        · next heq =>
            -- ids are unique, so the row that is written is the pending one
            obtain rfl : old = row :=
              List.inj_on_of_nodup_map h.ids hold hmem (heq.trans hkey.symm)
            exact settlement_hashed hf (h.hashed old hold) hpending
        · exact h.hashed old hold
      · show ((s.tables.outbox.map fun row =>
          if row.correlationId = correlationId then f row else row).map _).Nodup
        rw [List.map_map]
        refine (List.map_congr_left fun old _ => ?_).symm ▸ h.ids
        show (if old.correlationId = correlationId then f old else old).correlationId = _
        split
        · exact Outbox.settlement_correlationId hf old
        · rfl
  | deliver d =>
      obtain ⟨-, -, ops, -, rfl⟩ := step_deliver.mp hstep
      exact h.of_bare rfl rfl
  | statement performed pick =>
      obtain ⟨d, op, rest, -, ⟨-, -, rfl⟩ | ⟨-, rfl⟩⟩ := step_statement.mp hstep
      · refine h.of_bare ?_ (write_bare h.hashed)
        show (op.write migrated pg d pick s.tables).tasks = _
        rw [write_store h.tasks]
        rfl
      · exact h.of_bare rfl rfl
  | record =>
      obtain ⟨d, -, rfl⟩ := step_record.mp hstep
      exact h.of_bare rfl rfl
  | stop =>
      obtain rfl := Option.some.inj hstep
      exact h.of_bare rfl rfl
  | backfill u =>
      obtain ⟨-, rows, hexec, rfl⟩ := step_backfill.mp hstep
      exact h.of_bare rfl (exec_bare h.hashed hexec)

/-! ### The two runs side by side -/

theorem exec_label (s : System) (l : Label) :
    Transition.exec (step lib migrated pg) s [l] = step lib migrated pg s l := by
  show (step lib migrated pg s l).bind some = _
  cases step lib migrated pg s l <;> rfl

/-- The same rows on both sides make the tables the same. -/
theorem SameApi.with_rows (h : SameApi s a) (rows : List OutboundExtrinsic) :
    withOutbox a.tables rows = withOutbox s.tables rows := by
  rw [h.tables]
  rfl

/-- A request goes on alike. -/
theorem SameApi.setCall (h : SameApi s a) (k : Nat) (c : Option Call) :
    SameApi (s.setCall k c) (a.setCall k c) where
  tables := h.tables
  outbox := h.outbox
  calls := by
    show Function.update a.calls k c = Function.update s.calls k c
    rw [h.calls]
  enqueued := h.enqueued
  created := h.created

/-- The chain may change what it changes on the one side. -/
theorem SameApi.of_bare (h : SameApi s a) (htables : t.tables = withOutbox s.tables t.tables.outbox)
    (houtbox : t.tables.outbox.map bare = s.tables.outbox.map bare) (hcalls : t.calls = s.calls)
    (henqueued : t.enqueued = s.enqueued) (hcreated : t.created = s.created) : SameApi t a where
  tables := by
    rw [htables]
    exact h.tables
  outbox := h.outbox.trans houtbox.symm
  calls := h.calls.trans hcalls.symm
  enqueued := h.enqueued.trans henqueued.symm
  created := h.created.trans hcreated.symm

/-- An id is fresh for both. -/
theorem SameApi.fresh (h : SameApi s a) {correlationId : String}
    (hnew : ∀ row ∈ s.tables.outbox, row.correlationId ≠ correlationId) :
    ∀ row ∈ a.tables.outbox, row.correlationId ≠ correlationId := by
  intro row hrow heq
  have hid : correlationId ∈ s.tables.outbox.map OutboundExtrinsic.correlationId := by
    rw [← ids_of_bare h.outbox, ← heq]
    exact List.mem_map_of_mem hrow
  obtain ⟨row', hrow', heq'⟩ := List.mem_map.mp hid
  exact hnew row' hrow' heq'

/-- The row of an id is on both sides the same, but for what the chain changes. -/
theorem SameApi.find (h : SameApi s a) {correlationId : String} {row : OutboundExtrinsic}
    (hfind : (s.tables.outbox.find? fun row => row.correlationId = correlationId) = some row) :
    ∃ row', (a.tables.outbox.find? fun row => row.correlationId = correlationId) = some row' ∧
      bare row' = bare row := by
  have hkey : ∀ r : OutboundExtrinsic, (bare r).correlationId = r.correlationId := fun _ => rfl
  have hboth : (a.tables.outbox.find? fun row => row.correlationId = correlationId).map bare =
      some (bare row) := by
    calc (a.tables.outbox.find? fun row => row.correlationId = correlationId).map bare
        = (a.tables.outbox.map bare).find? fun row => row.correlationId = correlationId :=
          (Keyed.find_map OutboundExtrinsic.correlationId hkey _ _).symm
      _ = (s.tables.outbox.map bare).find? fun row => row.correlationId = correlationId := by
          rw [h.outbox]
      _ = (s.tables.outbox.find? fun row => row.correlationId = correlationId).map bare :=
          Keyed.find_map OutboundExtrinsic.correlationId hkey _ _
      _ = some (bare row) := by rw [hfind]; rfl
  obtain ⟨row', hfind', hbare⟩ := Option.map_eq_some_iff.mp hboth
  exact ⟨row', hfind', hbare⟩

/-- A step of the API or of the outbox worker is one on both sides, a step of the chain none. -/
theorem SameApi.step (h : SameApi s a) (hs : Untouched s)
    (hstep : step lib migrated pg s l = some t) :
    ∃ b, Transition.exec (Bridge.step lib migrated pg) a (withoutChain l) = some b ∧
      SameApi t b := by
  cases l with
  | request k draws req =>
      obtain ⟨hfree, c, hc, rfl⟩ := step_request.mp hstep
      refine ⟨a.setCall k (some c), ?_, h.setCall k _⟩
      rw [withoutChain, exec_label]
      refine step_request.mpr ⟨by rw [h.calls]; exact hfree, c, ?_, rfl⟩
      rw [h.tables, begin_withOutbox]
      exact hc
  | call k performed =>
      obtain ⟨c, hc, hne, ⟨hperformed, rfl⟩ | ⟨hperformed, rfl⟩⟩ := step_call.mp hstep
      · refine ⟨{ a.setCall k (c.advance lib migrated a.tables).2 with
            tables := (c.advance lib migrated a.tables).1
            created := c.creates lib migrated a.tables ++ a.created }, ?_, ?_⟩
        · rw [withoutChain, exec_label]
          exact step_call.mpr ⟨c, by rw [h.calls]; exact hc, hne, Or.inl ⟨hperformed, rfl⟩⟩
        · -- the call does not see the outbox
          have hadvance : c.advance lib migrated a.tables =
              (withOutbox (c.advance lib migrated s.tables).1 a.tables.outbox,
                (c.advance lib migrated s.tables).2) := by
            conv_lhs => rw [h.tables]
            exact advance_withOutbox c
          have hcreates : c.creates lib migrated a.tables = c.creates lib migrated s.tables := by
            conv_lhs => rw [h.tables]
            exact creates_withOutbox c
          refine ⟨?_, ?_, ?_, h.enqueued, ?_⟩
          · show (c.advance lib migrated a.tables).1 = withOutbox _ _
            rw [hadvance]
            rfl
          · show (c.advance lib migrated a.tables).1.outbox.map bare =
              (c.advance lib migrated s.tables).1.outbox.map bare
            rw [advance_outbox, advance_outbox]
            exact h.outbox
          · show Function.update a.calls k (c.advance lib migrated a.tables).2 =
              Function.update s.calls k (c.advance lib migrated s.tables).2
            rw [hadvance, h.calls]
          · show _ ++ a.created = _ ++ s.created
            rw [hcreates, h.created]
      · refine ⟨a.setCall k (c.fail lib), ?_, h.setCall k _⟩
        rw [withoutChain, exec_label]
        exact step_call.mpr ⟨c, by rw [h.calls]; exact hc, hne, Or.inr ⟨hperformed, rfl⟩⟩
  | enqueue k correlationId now =>
      obtain ⟨x, hcall, ⟨hnew, hvalid, hchecks⟩, rfl⟩ := step_enqueue.mp hstep
      refine ⟨{ (a.setCall k none).setOutbox
          (a.tables.outbox ++ [x.row lib correlationId now]) with
        enqueued := (correlationId, x.origin) :: a.enqueued }, ?_, ?_⟩
      · rw [withoutChain, exec_label]
        exact step_enqueue.mpr ⟨x, by rw [h.calls]; exact hcall,
          ⟨h.fresh hnew, hvalid, hchecks⟩, rfl⟩
      · refine ⟨?_, ?_, ?_, ?_, h.created⟩
        · exact h.with_rows _
        · show (a.tables.outbox ++ [_]).map bare = (s.tables.outbox ++ [_]).map bare
          rw [List.map_append, List.map_append, h.outbox]
        · show Function.update a.calls k none = Function.update s.calls k none
          rw [h.calls]
        · show _ :: a.enqueued = _ :: s.enqueued
          rw [h.enqueued]
  | drop k =>
      obtain ⟨hsome, rfl⟩ := step_drop.mp hstep
      refine ⟨a.setCall k none, ?_, h.setCall k none⟩
      rw [withoutChain, exec_label]
      exact step_drop.mpr ⟨by rw [h.calls]; exact hsome, rfl⟩
  | settle correlationId outcome now =>
      obtain ⟨row, hfind, hpending, f, hf, rfl⟩ := step_settle.mp hstep
      -- the row is there too, with another payload at most
      obtain ⟨row', hfind', hbare⟩ := h.find hfind
      refine ⟨a.setOutbox (a.tables.outbox.map fun row =>
        if row.correlationId = correlationId then f row else row), ?_, ?_⟩
      · rw [withoutChain, exec_label]
        refine step_settle.mpr ⟨row', hfind', ?_, f, ?_, rfl⟩
        · have hstatus := congrArg OutboundExtrinsic.status hbare
          exact hstatus.trans hpending
        · rw [← settlement_job, hbare, settlement_job]
          exact hf
      · refine ⟨?_, ?_, h.calls, h.enqueued, h.created⟩
        · exact h.with_rows _
        · show (a.tables.outbox.map _).map bare = (s.tables.outbox.map _).map bare
          rw [settle_bare hf, settle_bare hf, h.outbox]
  | deliver d =>
      -- from here on the steps are those of the chain, which leave what is compared alone
      obtain ⟨-, -, ops, -, rfl⟩ := step_deliver.mp hstep
      exact ⟨a, rfl, h.of_bare rfl rfl rfl rfl rfl⟩
  | statement performed pick =>
      obtain ⟨d, op, rest, -, ⟨-, -, rfl⟩ | ⟨-, rfl⟩⟩ := step_statement.mp hstep
      · exact ⟨a, rfl, h.of_bare (write_store hs.tasks) (write_bare hs.hashed) rfl rfl rfl⟩
      · exact ⟨a, rfl, h.of_bare rfl rfl rfl rfl rfl⟩
  | record =>
      obtain ⟨d, -, rfl⟩ := step_record.mp hstep
      exact ⟨a, rfl, h.of_bare rfl rfl rfl rfl rfl⟩
  | stop =>
      obtain rfl := Option.some.inj hstep
      exact ⟨a, rfl, h.of_bare rfl rfl rfl rfl rfl⟩
  | backfill u =>
      obtain ⟨-, rows, hexec, rfl⟩ := step_backfill.mp hstep
      exact ⟨a, rfl, h.of_bare rfl (exec_bare hs.hashed hexec) rfl rfl rfl⟩

end Steps

/-! ## The chain is not seen -/

section Runs

variable {lib : Libraries} {pg : Jsonb} {s t : System} {tr : List (System × Label)} {l : Label}

/-- **Under the migrated schema the API does not see the chain.** A run of requests, outbox worker,
replay worker and backfill is still one when the events and the backfill are taken out of it, and it
then ends with the same agents, tasks, bids and results, the same requests in flight and the same
rows of the outbox, but for their payloads and chain ids. -/
theorem chain_unseen (hrun : Runs lib migrated pg tr s) :
    ∃ a, Transition.exec (Bridge.step lib migrated pg) System.init
        (Transition.trace (fun _ l => withoutChain l) tr) = some a ∧ SameApi s a := by
  have hrefines : Transition.Refines (Bridge.step lib migrated pg) System.init
      (Bridge.step lib migrated pg) System.init (fun _ _ => True) (fun _ l => withoutChain l)
      (fun s a => Untouched s ∧ SameApi s a) :=
    { init := ⟨.init, rfl, rfl, rfl, rfl, rfl⟩
      matched := fun s l t a h _ hstep => by
        obtain ⟨b, hb, hsame⟩ := h.2.step h.1 hstep
        exact ⟨b, hb, h.1.step hstep, hsame⟩ }
  obtain ⟨a, ha, -, hsame⟩ := hrefines.run hrun fun _ _ => trivial
  exact ⟨a, ha, hsame⟩

/-- An agent is registered, its extrinsic finalized, and its event replayed. -/
def replayedAgent : List Bridge.Label :=
  agentRequest ++ [.settle "c1" (.finalized "0xa1") 9, .deliver agentEvent, .statement true "",
    .statement true "", .statement true "", .record]

/-- The row has the chain id, and the run without the event has the row without it. -/
theorem replayedAgent_unseen :
    ∃ tr s a, Runs bridgeLibraries migrated (.onValues samplePayloads) tr s ∧
      (∃ row ∈ s.tables.outbox, row.chainAgentId = some 3) ∧
      Transition.exec (Bridge.step bridgeLibraries migrated (.onValues samplePayloads)) System.init
        (Transition.trace (fun _ l => withoutChain l) tr) = some a ∧ SameApi s a := by
  have hexec : (Transition.exec (Bridge.step bridgeLibraries migrated (.onValues samplePayloads))
      System.init replayedAgent).any
        (fun s => s.tables.outbox.any fun row => row.chainAgentId = some 3) = true := by
    decide +kernel
  obtain ⟨tr, s, hrun, hrow⟩ := Transition.Run.reach_of_exec hexec
  obtain ⟨row, hmem, hid⟩ := List.any_eq_true.mp hrow
  obtain ⟨a, ha, hsame⟩ := chain_unseen hrun
  exact ⟨tr, s, a, hrun, ⟨row, hmem, of_decide_eq_true hid⟩, ha, hsame⟩

/-! ## No result is stored -/

/-- The calls of `submit_result` after its result is stored. -/
def ofStoredResult : Call → Bool
  | .lookupTask (.result _) | .lookupAgent (.result _) _ => true
  | .enqueue x =>
      match x.origin with
      | .result _ _ => true
      | _ => false
  | _ => false

structure NoResult (s : System) : Prop where
  results : s.tables.results = []
  calls : ∀ k c, s.calls k = some c → ofStoredResult c = false
  enqueued : ∀ x ∈ s.enqueued, ∀ taskId agentId, x.2 ≠ .result taskId agentId

theorem NoResult.init : NoResult System.init where
  results := rfl
  calls k c hc := by cases hc
  enqueued x hx := by cases hx

theorem begin_noResult {draws : Draws} {p : PostgresStorage} {req : ApiRequest} {c : Call}
    (h : Call.begin lib draws p req = some c) : ofStoredResult c = false := by
  cases req with
  | agent payload =>
      obtain ⟨-, heq⟩ := Option.ite_none_left_eq_some.mp h
      obtain rfl := Option.some.inj heq
      rfl
  | task payload =>
      obtain ⟨stored, -, rfl⟩ := Option.map_eq_some_iff.mp h
      rfl
  | bid payload =>
      obtain ⟨task, -, h⟩ := Option.bind_eq_some_iff.mp h
      obtain ⟨stored, -, h⟩ := Option.bind_eq_some_iff.mp h
      obtain rfl := Option.some.inj h
      rfl
  | result payload =>
      obtain ⟨task, -, h⟩ := Option.bind_eq_some_iff.mp h
      obtain ⟨stored, -, h⟩ := Option.bind_eq_some_iff.mp h
      obtain rfl := Option.some.inj h
      rfl
  | outbox req =>
      obtain ⟨-, heq⟩ := Option.ite_none_left_eq_some.mp h
      obtain rfl := Option.some.inj heq
      rfl
  | faucet body =>
      obtain ⟨address, -, h⟩ := Option.bind_eq_some_iff.mp h
      obtain rfl := Option.some.inj h
      rfl

/-- The insert is refused, so no call follows it. -/
theorem advance_noResult {p : PostgresStorage} {c c' : Call} (hc : ofStoredResult c = false)
    (h : (c.advance lib migrated p).2 = some c') : ofStoredResult c' = false := by
  cases c with
  | registerAgent agent =>
      simp only [Call.advance] at h
      split at h
      · obtain rfl := Option.some.inj h
        rfl
      · cases h
  | insertTask stored =>
      simp only [Call.advance] at h
      split at h
      · obtain ⟨budget, -, rfl⟩ := Option.map_eq_some_iff.mp h
        rfl
      · cases h
  | insertBid stored =>
      simp only [Call.advance] at h
      split at h
      · obtain rfl := Option.some.inj h
        rfl
      · cases h
  | upsertTask task stored =>
      simp only [Call.advance] at h
      split at h
      · obtain rfl := Option.some.inj h
        rfl
      · cases h
  | insertResult stored =>
      obtain ⟨e, he⟩ : ∃ e, p.insertResult lib migrated stored = .error e :=
        PostgresStorage.insertResult_refused PostgresStorage.migrated_insertResult
      simp only [Call.advance, he] at h
      cases h
  | lookupTask work =>
      obtain rfl := Option.some.inj h
      cases work with
      | bid view => rfl
      | result view => cases hc
  | lookupAgent work taskChainId =>
      obtain rfl := Option.some.inj h
      cases work with
      | bid view => rfl
      | result view => cases hc
  | enqueue x =>
      obtain rfl := Option.some.inj h
      exact hc

theorem fail_noResult {c c' : Call} (hc : ofStoredResult c = false) (h : c.fail lib = some c') :
    ofStoredResult c' = false := by
  cases c with
  | lookupTask work =>
      obtain rfl := Option.some.inj h
      cases work with
      | bid view => rfl
      | result view => cases hc
  | lookupAgent work taskChainId =>
      obtain rfl := Option.some.inj h
      cases work with
      | bid view => rfl
      | result view => cases hc
  | _ => cases h

/-- No call stores a result. -/
theorem advance_results {p : PostgresStorage} (c : Call) :
    (c.advance lib migrated p).1.results = p.results := by
  cases c with
  | registerAgent agent =>
      simp only [Call.advance]
      split
      · next hop =>
          unfold PostgresStorage.registerAgent at hop
          split at hop
          · obtain ⟨-, rfl⟩ := Prod.mk.inj (Except.ok.inj hop)
            rfl
          · cases hop
      · rfl
  | insertTask stored =>
      simp only [Call.advance]
      split
      · next hop =>
          obtain ⟨row, -, hop⟩ := Fallible.bind_eq_ok.mp hop
          split at hop
          · cases hop
          · split at hop
            · obtain ⟨-, rfl⟩ := Prod.mk.inj (Except.ok.inj hop)
              rfl
            · obtain ⟨-, rfl⟩ := Prod.mk.inj (Except.ok.inj hop)
              rfl
      · rfl
  | insertBid stored =>
      simp only [Call.advance]
      split
      · next hop =>
          obtain ⟨id, -, hop⟩ := Fallible.bind_eq_ok.mp hop
          obtain ⟨taskId, -, hop⟩ := Fallible.bind_eq_ok.mp hop
          obtain ⟨-, -, hop⟩ := Fallible.bind_eq_ok.mp hop
          split at hop
          · cases hop
          · split at hop
            · obtain ⟨-, rfl⟩ := Prod.mk.inj (Except.ok.inj hop)
              rfl
            · split at hop
              · cases hop
              · split at hop
                · cases hop
                · obtain ⟨-, rfl⟩ := Prod.mk.inj (Except.ok.inj hop)
                  rfl
      · rfl
  | upsertTask task stored =>
      simp only [Call.advance]
      split
      · next hop =>
          obtain ⟨row, -, hop⟩ := Fallible.bind_eq_ok.mp hop
          split at hop
          · cases hop
          · split at hop
            · obtain ⟨-, rfl⟩ := Prod.mk.inj (Except.ok.inj hop)
              rfl
            · obtain ⟨-, rfl⟩ := Prod.mk.inj (Except.ok.inj hop)
              rfl
      · rfl
  | insertResult stored =>
      obtain ⟨e, he⟩ : ∃ e, p.insertResult lib migrated stored = .error e :=
        PostgresStorage.insertResult_refused PostgresStorage.migrated_insertResult
      simp only [Call.advance, he]
  | lookupTask work => rfl
  | lookupAgent work taskChainId => rfl
  | enqueue x => rfl

theorem NoResult.setCall (h : NoResult s) (k : Nat) {c : Option Call}
    (hc : ∀ c', c = some c' → ofStoredResult c' = false) : NoResult (s.setCall k c) where
  results := h.results
  calls j c' hj := by
    by_cases hjk : j = k
    · subst hjk
      exact hc c' (by simpa [System.setCall] using hj)
    · exact h.calls j c' (by simpa [System.setCall, hjk] using hj)
  enqueued := h.enqueued

/-- The other tables and the replay worker do not count. -/
theorem NoResult.of_eq (h : NoResult s) (hresults : t.tables.results = s.tables.results)
    (hcalls : t.calls = s.calls) (henqueued : t.enqueued = s.enqueued) : NoResult t where
  results := hresults.trans h.results
  calls k c hc := h.calls k c (hcalls ▸ hc)
  enqueued := by rw [henqueued]; exact h.enqueued

theorem NoResult.step (h : NoResult s) (hs : Untouched s)
    (hstep : Bridge.step lib migrated pg s l = some t) : NoResult t := by
  cases l with
  | request k draws req =>
      obtain ⟨-, c, hc, rfl⟩ := step_request.mp hstep
      refine h.setCall k fun c' heq => ?_
      obtain rfl := Option.some.inj heq
      exact begin_noResult hc
  | call k performed =>
      obtain ⟨c, hc, -, ⟨-, rfl⟩ | ⟨-, rfl⟩⟩ := step_call.mp hstep
      · have hcalls : NoResult (s.setCall k (c.advance lib migrated s.tables).2) :=
          h.setCall k fun c' hnext => advance_noResult (h.calls k c hc) hnext
        exact ⟨(advance_results c).trans h.results, hcalls.calls, h.enqueued⟩
      · exact h.setCall k fun c' hnext => fail_noResult (h.calls k c hc) hnext
  | enqueue k correlationId now =>
      obtain ⟨x, hx, -, rfl⟩ := step_enqueue.mp hstep
      have hcalls : NoResult (s.setCall k none) := h.setCall k fun c' heq => by cases heq
      refine ⟨h.results, hcalls.calls, fun y hy taskId agentId heq => ?_⟩
      rcases List.mem_cons.mp hy with rfl | hy
      · -- the enqueue would have been one of a stored result
        have hfalse := h.calls k _ hx
        have horigin : x.origin = .result taskId agentId := heq
        rw [ofStoredResult, horigin] at hfalse
        cases hfalse
      · exact h.enqueued y hy taskId agentId heq
  | drop k =>
      obtain ⟨-, rfl⟩ := step_drop.mp hstep
      exact h.setCall k fun c' heq => by cases heq
  | settle correlationId outcome now =>
      obtain ⟨row, -, -, f, -, rfl⟩ := step_settle.mp hstep
      exact h.of_eq rfl rfl rfl
  | deliver d =>
      obtain ⟨-, -, ops, -, rfl⟩ := step_deliver.mp hstep
      exact h.of_eq rfl rfl rfl
  | statement performed pick =>
      obtain ⟨d, op, rest, -, ⟨-, -, rfl⟩ | ⟨-, rfl⟩⟩ := step_statement.mp hstep
      · refine h.of_eq ?_ rfl rfl
        show (op.write migrated pg d pick s.tables).results = _
        rw [write_store hs.tasks]
        rfl
      · exact h.of_eq rfl rfl rfl
  | record =>
      obtain ⟨d, -, rfl⟩ := step_record.mp hstep
      exact h.of_eq rfl rfl rfl
  | stop =>
      obtain rfl := Option.some.inj hstep
      exact h.of_eq rfl rfl rfl
  | backfill u =>
      obtain ⟨-, rows, -, rfl⟩ := step_backfill.mp hstep
      exact h.of_eq rfl rfl rfl

/-- **No result is ever there to be read, and none goes to the chain.** Whatever is submitted and
whatever the chain reports, under the migrated schema no task has a result that can be read, no row
of the outbox is a `submit_result` of a stored result, and no task has a chain id, a result hash or
a matched agent. -/
theorem result_never_stored (hrun : Runs lib migrated pg tr s) :
    (∀ taskId, ∃ e, s.tables.getResultForTask lib taskId = .error e) ∧
      (∀ x ∈ s.enqueued, ∀ taskId agentId, x.2 ≠ .result taskId agentId) ∧
      ∀ row ∈ s.tables.tasks, Plain row := by
  have hinv : Untouched s ∧ NoResult s :=
    Transition.Run.invariant (P := fun s => Untouched s ∧ NoResult s) ⟨.init, .init⟩
      (fun _ _ _ h hstep => ⟨h.1.step hstep, h.2.step h.1 hstep⟩) hrun
  refine ⟨fun taskId => ?_, hinv.2.enqueued, hinv.1.tasks⟩
  unfold PostgresStorage.getResultForTask
  rw [hinv.2.results]
  cases parseUuid lib taskId "task id" with
  | error e => exact ⟨e, rfl⟩
  | ok uuid => exact ⟨_, rfl⟩

/-- A task, and a result that is submitted for it. -/
def submittedResult : List Bridge.Label :=
  taskRequest ++ [.request 1 sampleDraws (.result ⟨sampleDraws.uuid 0, sampleAgent.id, ""⟩),
    .call 1 true, .call 1 true]

/-- The task is completed, and has no result that can be read. -/
theorem submittedResult_not_stored :
    ∃ tr s, Runs bridgeLibraries migrated (.onValues samplePayloads) tr s ∧
      (∃ row ∈ s.tables.tasks, row.status = "completed") ∧
      (∀ taskId, ∃ e, s.tables.getResultForTask bridgeLibraries taskId = .error e) ∧
      (∀ x ∈ s.enqueued, ∀ taskId agentId, x.2 ≠ .result taskId agentId) ∧
      ∀ row ∈ s.tables.tasks, Plain row := by
  have hexec : (Transition.exec (Bridge.step bridgeLibraries migrated (.onValues samplePayloads))
      System.init submittedResult).any
        (fun s => s.tables.tasks.any fun row => row.status = "completed") = true := by
    decide +kernel
  obtain ⟨tr, s, hrun, hrow⟩ := Transition.Run.reach_of_exec hexec
  obtain ⟨row, hmem, hstatus⟩ := List.any_eq_true.mp hrow
  exact ⟨tr, s, hrun, ⟨row, hmem, of_decide_eq_true hstatus⟩, result_never_stored hrun⟩

end Runs

end Ainur.Unseen
