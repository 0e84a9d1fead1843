import Ainur.Bridge.Handling
import Ainur.Bridge.Unseen
import Ainur.Outbox.Tracking

set_option autoImplicit false

/-! # The outbox of the whole system

The outbox has been modelled twice: with its locks, snapshots and workers, and as a table that the
requests, the replay worker and the backfill share with the outbox worker. The queue without locks is
the specification of both. A step of the whole system commits to the outbox what the queue can
commit (`outbox_step`), so what is known of the queue is known of the system (`system_queue`).
-/

namespace Ainur.Bridge

open Storage (Database)
open Outbox (Commit AllTold)

/-- The write that an update commits, where the database accepts it. -/
def writeOf (pg : Jsonb) (u : Update) (rows : List OutboundExtrinsic) : List Commit :=
  if (Update.exec pg u rows).isSome then
    [.write u ((rows.filter fun row => u.applies pg row = some true).map (·.correlationId))]
  else []

/-- The transactions that a step commits to the outbox. -/
def commitsOf (lib : Libraries) (pg : Jsonb) (s : System) : Label → List Commit
  | .enqueue k correlationId now =>
      match s.calls k with
      | some (.enqueue x) =>
          [.enqueue correlationId x.pallet x.call (x.payload.map lib.serde.toString) now]
      | _ => []
  | .settle correlationId outcome now =>
      match s.tables.outbox.find? fun row => row.correlationId = correlationId with
      | some row => [.attempt row.job outcome now]
      | none => []
  | .statement performed _ =>
      match s.replay with
      | some (_, .outbox u :: _) => if performed then writeOf pg u s.tables.outbox else []
      | _ => []
  | .backfill u => writeOf pg u s.tables.outbox
  | _ => []

section Queue

variable {lib : Libraries} {db : Database} {pg : Jsonb} {s t : System}
variable {rows rows' : List OutboundExtrinsic} {u : Update}

/-- An update is one transaction of the queue. -/
theorem exec_writeOf (h : AllTold rows) (hexec : Update.exec pg u rows = some rows') :
    Transition.exec (Commit.step pg) rows (writeOf pg u rows) = some rows' := by
  unfold writeOf
  rw [hexec, Option.isSome_some, if_pos rfl]
  obtain ⟨hall, hrows⟩ := Option.ite_none_right_eq_some.mp hexec
  -- a row is named by the transaction exactly where the update matches it
  have hkeys : ∀ row ∈ rows, (row.correlationId ∈ (rows.filter fun row =>
      u.applies pg row = some true).map (·.correlationId)) ↔ u.applies pg row = some true := by
    intro row hrow
    constructor
    · intro hmem
      obtain ⟨row', hrow', hid⟩ := List.mem_map.mp hmem
      obtain ⟨hrow', happ⟩ := List.mem_filter.mp hrow'
      obtain rfl := List.inj_on_of_nodup_map h.keys hrow' hrow hid
      exact of_decide_eq_true happ
    · intro happ
      exact List.mem_map.mpr ⟨row, List.mem_filter.mpr ⟨hrow, decide_eq_true happ⟩, rfl⟩
  refine Transition.exec_one ?_
  simp only [Commit.step]
  rw [if_pos, ← Option.some.inj hrows]
  · refine congrArg some (List.map_congr_left fun row hrow => ?_)
    exact if_congr (hkeys row hrow) rfl rfl
  · refine List.all_eq_true.mpr fun row hrow => decide_eq_true ?_
    by_cases happ : u.applies pg row = some true
    · refine .inr ?_
      have hchecks := (Bool.and_eq_true_iff.mp (List.all_eq_true.mp hall row hrow)).2
      simp only [happ, ne_eq, not_true_eq_false, decide_false, Bool.false_or] at hchecks
      simp [Outbox.writes, happ, hchecks]
    · exact .inl fun hmem => happ ((hkeys row hrow).mp hmem)

/-- The only statement that writes the outbox is an update of it. -/
theorem write_outbox {d : Delivery} {pick : String} {p : PostgresStorage} {op : ReplayOp}
    (h : ∀ u, op ≠ .outbox u) : (op.write db pg d pick p).outbox = p.outbox := by
  cases op with
  | outbox u => exact absurd rfl (h u)
  | findBidTask _ _ => rfl
  | findBidAgent _ _ _ => rfl
  | findCompletedTask _ _ _ => rfl
  | mirrorAgent agentId owner =>
      simp only [ReplayOp.write]
      split
      · rfl
      · split <;> rfl
  | linkAgents agentId owner =>
      simp only [ReplayOp.write]
      split <;> rfl
  | mirrorTask taskId =>
      simp only [ReplayOp.write]
      split
      · rfl
      · split
        · rfl
        · split <;> rfl
  | linkTask taskId =>
      simp only [ReplayOp.write]
      split <;> rfl
  | insertBid row =>
      simp only [ReplayOp.write]
      split <;> rfl
  | insertResult row =>
      simp only [ReplayOp.write]
      split
      · rfl
      · split
        · rfl
        · split <;> rfl
  | completeTask taskId resultHash =>
      simp only [ReplayOp.write]
      split <;> rfl
  | matchTask taskId agentId =>
      simp only [ReplayOp.write]
      split <;> rfl

/-- **A step of the whole system does to the outbox what the queue does.** -/
theorem outbox_step {l : Label} (h : AllTold s.tables.outbox)
    (hstep : step lib db pg s l = some t) :
    Transition.exec (Commit.step pg) s.tables.outbox (commitsOf lib pg s l) =
      some t.tables.outbox := by
  have hwrite : ∀ u : Update, Transition.exec (Commit.step pg) s.tables.outbox
      (writeOf pg u s.tables.outbox) =
        some ((Update.exec pg u s.tables.outbox).getD s.tables.outbox) := by
    intro u
    cases hexec : Update.exec pg u s.tables.outbox with
    | some rows => exact exec_writeOf h hexec
    | none =>
        rw [writeOf, hexec]
        rfl
  cases l with
  | request k draws req =>
      obtain ⟨_, c, _, rfl⟩ := step_request.mp hstep
      rfl
  | call k performed =>
      obtain ⟨c, _, _, ⟨_, rfl⟩ | ⟨_, rfl⟩⟩ := step_call.mp hstep
      · exact congrArg some (Unseen.advance_outbox c).symm
      · rfl
  | enqueue k correlationId now =>
      obtain ⟨x, hcall, ⟨hfresh, -, hchecks⟩, rfl⟩ := step_enqueue.mp hstep
      simp only [commitsOf, hcall]
      refine Transition.exec_one ?_
      refine if_pos ⟨fun hmem => ?_, hchecks⟩
      obtain ⟨row, hrow, hid⟩ := List.mem_map.mp hmem
      exact hfresh row hrow hid
  | drop k =>
      obtain ⟨_, rfl⟩ := step_drop.mp hstep
      rfl
  | settle correlationId outcome now =>
      obtain ⟨row, hfind, hpending, f, hf, rfl⟩ := step_settle.mp hstep
      simp only [commitsOf, hfind]
      -- the job is that of the row as it stands, so the attempt applies
      have hid : row.correlationId = correlationId := by simpa using List.find?_some hfind
      have hany : (s.tables.outbox.any fun r => r.job = row.job ∧ r.status = .pending) = true :=
        List.any_eq_true.mpr ⟨row, List.mem_of_find?_eq_some hfind, decide_eq_true ⟨rfl, hpending⟩⟩
      refine Transition.exec_one ?_
      simp only [Commit.step]
      rw [if_pos hany, hf, ← hid]
      rfl
  | deliver d =>
      obtain ⟨_, _, ops, _, rfl⟩ := step_deliver.mp hstep
      rfl
  | statement performed pick =>
      obtain ⟨d, op, rest, hreplay, hcases⟩ := step_statement.mp hstep
      rcases hcases with ⟨rfl, -, rfl⟩ | ⟨rfl, rfl⟩
      -- only a statement on the outbox commits something to it
      · by_cases hop : ∃ u, op = .outbox u
        · obtain ⟨u, rfl⟩ := hop
          simp only [commitsOf, hreplay, if_true]
          rw [hwrite u]
          simp only [ReplayOp.write]
          cases Update.exec pg u s.tables.outbox <;> rfl
        · have hne : ∀ u, op ≠ .outbox u := not_exists.mp hop
          have hnone : commitsOf lib pg s (.statement true pick) = [] := by
            simp only [commitsOf, hreplay]
            split
            · next u _ heq =>
                obtain ⟨-, hlist⟩ := Prod.mk.inj (Option.some.inj heq)
                exact absurd (List.cons.inj hlist).1 (hne u)
            · rfl
          rw [hnone]
          exact congrArg some (write_outbox hne).symm
      · have hnone : commitsOf lib pg s (.statement false pick) = [] := by
          simp only [commitsOf]
          split <;> rfl
        rw [hnone]
        rfl
  | record =>
      obtain ⟨d, _, rfl⟩ := step_record.mp hstep
      rfl
  | stop =>
      obtain rfl := Option.some.inj hstep
      rfl
  | backfill u =>
      obtain ⟨_, rows, hexec, rfl⟩ := step_backfill.mp hstep
      exact exec_writeOf h hexec

/-- The queue holds the rows of the outbox. -/
theorem refines_queue (lib : Libraries) (db : Database) (pg : Jsonb) :
    Transition.Refines (step lib db pg) System.init (Commit.step pg) [] (fun _ _ => True)
      (commitsOf lib pg) fun s rows => AllTold s.tables.outbox ∧ s.tables.outbox = rows where
  init := ⟨.nil, rfl⟩
  matched := by
    rintro s l t rows ⟨htold, rfl⟩ - hstep
    have hexec := outbox_step htold hstep
    exact ⟨t.tables.outbox, hexec, (htold.exec hexec).1, rfl⟩

/-- **The outbox of the whole system is the queue.** Whatever requests, the outbox worker, the replay
worker and the backfill do, the rows are what the transactions that they commit make of an empty
queue, one after the other; and so a client that polls the status of an extrinsic reads one story,
also while events of the chain write the outbox. -/
theorem system_queue {tr : List (System × Label)} (hrun : Runs lib db pg tr s) (id : String) :
    Transition.exec (Commit.step pg) [] (Transition.trace (commitsOf lib pg) tr) =
        some s.tables.outbox ∧
      (∀ v, Outbox.getOutboxStatus s.tables.outbox id = .ok v → v.Coherent ∧ ∃ payload,
        Commit.enqueue id v.pallet v.call payload v.createdAt ∈
          Transition.trace (commitsOf lib pg) tr) ∧
      ∀ p ∈ tr, ∀ v, Outbox.getOutboxStatus p.1.tables.outbox id = .ok v →
        ∃ v', Outbox.getOutboxStatus s.tables.outbox id = .ok v' ∧ v.Later v' := by
  obtain ⟨rows, hexec, -, rfl⟩ := (refines_queue lib db pg).run hrun fun _ _ => trivial
  refine ⟨hexec, (Outbox.answers_of_exec hexec id).2, ?_⟩
  have hgrows := hrun.related (I := fun s => AllTold s.tables.outbox)
    (R := fun s t => Grows Outbox.RowLater s.tables.outbox t.tables.outbox) ?_ ?_ ?_ ?_
  · exact fun p hp v hv => Outbox.getOutboxStatus_later (hgrows p hp) hv
  · exact .nil
  · exact fun s l t htold hstep => (htold.exec (outbox_step htold hstep)).1
  · exact fun r s t hrs hst => hrs.trans (fun _ _ _ => .trans) hst
  · exact fun s l t htold hstep => (htold.exec (outbox_step htold hstep)).2

/-- An agent is registered, its extrinsic finalized, and its event processed. -/
def registeredAgent : List Label :=
  agentRequest ++ [.settle "c1" (.finalized "0xaa") 9,
    .deliver ⟨.agentRegistered 7 "owner", 1, some "0xaa", "u1", 0⟩, .statement true "",
    .statement true "", .statement true "", .record]

/-- What is answered for it. -/
def registeredAnswer : Outbox.OutboxStatusView :=
  ⟨"c1", "AgentRegistry", "register_agent", .finalized, 1, none, 0, some 9⟩

/-- The event does not change the answer, and the enqueue is the first transaction. -/
theorem registeredAgent_queue :
    ∃ tr s, Runs bridgeLibraries Storage.migrated (.onValues samplePayloads) tr s ∧
      s.processed.length = 1 ∧ Outbox.getOutboxStatus s.tables.outbox "c1" = .ok registeredAnswer ∧
      ∃ payload, Commit.enqueue "c1" "AgentRegistry" "register_agent" payload 0 ∈
        Transition.trace (commitsOf bridgeLibraries (.onValues samplePayloads)) tr := by
  have hexec : (Transition.exec (step bridgeLibraries Storage.migrated (.onValues samplePayloads))
      System.init registeredAgent).any (fun s => s.processed.length = 1 &&
        Outbox.getOutboxStatus s.tables.outbox "c1" = .ok registeredAnswer) = true := by
    decide +kernel
  obtain ⟨tr, s, hrun, hend⟩ := Transition.Run.reach_of_exec hexec
  obtain ⟨hprocessed, hanswer⟩ := Bool.and_eq_true_iff.mp hend
  have hanswer := of_decide_eq_true hanswer
  obtain ⟨-, henqueued, -⟩ := system_queue hrun "c1"
  exact ⟨tr, s, hrun, of_decide_eq_true hprocessed, hanswer, (henqueued _ hanswer).2⟩

end Queue

end Ainur.Bridge
