import Ainur.Bridge.Events

set_option autoImplicit false

/-! # Whole branches of the replay worker

A branch run to its end, all of its statements sent, on a database where the statements of the
mirror take effect as they are written. The one exception is the update on `TaskCreated` with an
`ORDER BY`: it is not a statement of the grammar, whatever the schema.
-/

namespace Ainur.Bridge

open Storage (Database)

/-! ## Running a branch -/

/-- The row that a `LIMIT 1` takes. -/
abbrev Picks := PostgresStorage → ReplayOp → String

section Run

variable (db : Database) (pg : Jsonb) (pick : Picks) (d : Delivery)

/-- The statements, each followed by those that it decides, `n` levels deep; `none` where `row.get`
panics. -/
def runOps : Nat → List ReplayOp → PostgresStorage → Option PostgresStorage
  | 0, _, p => some p
  | n + 1, ops, p => ops.foldlM (fun p op =>
      (op.next db d p (pick p op)).bind fun more => runOps n more (op.write db pg d (pick p op) p)) p

/-- The branch of an event: no statement decides another one more than twice removed. -/
def runBranch (p : PostgresStorage) : Option PostgresStorage :=
  d.ops.bind fun ops => runOps db pg pick d 3 ops p

end Run

/-- The statements of the mirror take effect, and the ids of the tables come back as text. -/
structure Mirrors (db : Database) : Prop where
  mirrorTask : db.accepts Storage.mirrorTaskSql = true
  completeTask : db.accepts Storage.completeTaskSql = true
  taskByChainId : db.accepts Storage.taskByChainIdSql = true
  agentByChainId : db.accepts Storage.agentByChainIdSql = true
  mirrorBid : db.accepts Storage.mirrorBidSql = true
  readsTasks : db.readsText "tasks" "id" = true
  readsAgents : db.readsText "agents" "id" = true
  linkTask : db.accepts Storage.linkTaskSql = false

theorem asWritten_mirrors : Mirrors Storage.asWritten := ⟨rfl, rfl, rfl, rfl, rfl, rfl, rfl, rfl⟩

section Rules

variable {db : Database} {pg : Jsonb} {pick : Picks} {d : Delivery} {n : Nat}
variable {ops more : List ReplayOp} {op : ReplayOp} {p : PostgresStorage}

@[simp] theorem runOps_nil : runOps db pg pick d n [] p = some p := by
  cases n <;> rfl

theorem runOps_cons : runOps db pg pick d (n + 1) (op :: ops) p =
    ((op.next db d p (pick p op)).bind fun more =>
      runOps db pg pick d n more (op.write db pg d (pick p op) p)).bind
        (runOps db pg pick d (n + 1) ops) := by
  simp only [runOps]
  exact List.foldlM_cons

/-- A statement that decides nothing. -/
theorem runOps_cons_leaf (h : op.next db d p (pick p op) = some []) :
    runOps db pg pick d (n + 1) (op :: ops) p =
      runOps db pg pick d (n + 1) ops (op.write db pg d (pick p op) p) := by
  rw [runOps_cons, h]
  simp

/-- A last statement goes on with what it decides. -/
theorem runOps_last (h : op.next db d p (pick p op) = some more) :
    runOps db pg pick d (n + 1) [op] p =
      runOps db pg pick d n more (op.write db pg d (pick p op) p) := by
  rw [runOps_cons, h, Option.bind_some]
  cases runOps db pg pick d n more (op.write db pg d (pick p op) p) with
  | none => rfl
  | some q => exact runOps_nil

/-- The statement decides nothing and leaves tasks and bids alone. -/
structure Quiet (db : Database) (pg : Jsonb) (d : Delivery) (op : ReplayOp) : Prop where
  next : ∀ p pick, op.next db d p pick = some []
  tasks : ∀ p pick, (op.write db pg d pick p).tasks = p.tasks
  bids : ∀ p pick, (op.write db pg d pick p).bids = p.bids

theorem quiet_outbox (u : Update) : Quiet db pg d (.outbox u) :=
  ⟨fun _ _ => rfl, fun _ _ => ReplayOp.write_tasks rfl, fun _ _ => ReplayOp.write_bids rfl⟩

/-- The update with an `ORDER BY` does nothing. -/
theorem quiet_linkTask (hdb : Mirrors db) (taskId : Int) : Quiet db pg d (.linkTask taskId) := by
  have hwrite : ∀ p pick, (ReplayOp.linkTask taskId).write db pg d pick p = p := by
    intro p pick
    simp [ReplayOp.write, hdb.linkTask]
  exact ⟨fun _ _ => rfl, fun p pick => by rw [hwrite], fun p pick => by rw [hwrite]⟩

theorem quiet_byTxHash {update : String → Update} (hop : op ∈ byTxHash d update) :
    Quiet db pg d op := by
  obtain ⟨u, rfl⟩ := byTxHash_outbox hop
  exact quiet_outbox u

theorem quiet_patch {taskId agentId : Option Int} (hop : op ∈ patchPendingWithIds taskId agentId) :
    Quiet db pg d op := by
  obtain ⟨u, rfl⟩ := patchPendingWithIds_outbox hop
  exact quiet_outbox u

theorem runOps_quiet (h : ∀ op ∈ ops, Quiet db pg d op) :
    ∃ q, runOps db pg pick d (n + 1) ops p = some q ∧ q.tasks = p.tasks ∧ q.bids = p.bids := by
  induction ops generalizing p with
  | nil => exact ⟨p, runOps_nil, rfl, rfl⟩
  | cons op rest ih =>
      have hop := h op List.mem_cons_self
      rw [runOps_cons_leaf (hop.next _ _)]
      obtain ⟨q, hq, htasks, hbids⟩ := ih (p := op.write db pg d (pick p op) p)
        fun op hop => h op (List.mem_cons_of_mem _ hop)
      exact ⟨q, hq, htasks.trans (hop.tasks _ _), hbids.trans (hop.bids _ _)⟩

/-! ## What the branches do -/

/-- The rows of `tasks` after the upsert of `TaskCreated`. -/
def mirrorRows (d : Delivery) (taskId : Int) (rows : List TaskRow) : List TaskRow :=
  let row := mirroredTask d taskId
  if rows.any fun r => r.chainTaskId = some taskId then
    rows.map fun r =>
      if r.chainTaskId = some taskId then { r with stored := row.stored, status := row.status }
      else r
  else if rows.any fun r => r.id = row.id then rows
  else rows ++ [row]

/-- A row of `tasks` after the update of `TaskCompleted`. -/
def completeRow (taskId : Int) (resultHash : String) (r : TaskRow) : TaskRow :=
  if r.chainTaskId = some taskId then { r with status := "completed", resultHash := some resultHash }
  else r

/-- The rows of `bids` after the insert of `BidSubmitted`. -/
def addBid (p : PostgresStorage) (row : BidRow) : List BidRow :=
  if p.bids.any (fun b => b.id = row.id ∨ (b.taskId = row.taskId ∧ b.agentId = row.agentId)) ∨
      !p.tasks.any (fun r => r.id = row.taskId) then p.bids
  else p.bids ++ [row]

variable (db pg pick p) in
theorem runBranch_agentRegistered {agentId : UInt64} {owner : String}
    (hevent : d.event = .agentRegistered agentId owner) :
    ∃ q, runBranch db pg pick d p = some q ∧ q.tasks = p.tasks ∧ q.bids = p.bids := by
  simp only [runBranch, Delivery.ops, hevent, Option.bind_some]
  refine runOps_quiet fun op hop => ?_
  simp only [List.mem_append, List.mem_singleton] at hop
  rcases hop with (rfl | hop) | rfl
  · exact ⟨fun _ _ => rfl, fun _ _ => ReplayOp.write_tasks rfl, fun _ _ => ReplayOp.write_bids rfl⟩
  · exact quiet_byTxHash hop
  · exact ⟨fun _ _ => rfl, fun _ _ => ReplayOp.write_tasks rfl, fun _ _ => ReplayOp.write_bids rfl⟩

theorem mirrorTask_tasks (hdb : Mirrors db) (taskId : Int) (choice : String) :
    ((ReplayOp.mirrorTask taskId).write db pg d choice p).tasks = mirrorRows d taskId p.tasks := by
  simp only [ReplayOp.write, hdb.mirrorTask, Bool.not_true, Bool.false_eq_true, if_false, mirrorRows]
  split
  · rfl
  · split <;> rfl

variable (pg pick p) in
/-- The upsert counts; the update that follows it is refused. -/
theorem runBranch_taskCreated (hdb : Mirrors db) {taskId : UInt64} {budget : Nat}
    (hevent : d.event = .taskCreated taskId budget) (hbudget : budget ≤ u64Max.toNat) :
    ∃ q, runBranch db pg pick d p = some q ∧ q.tasks = mirrorRows d (asI64 taskId) p.tasks ∧
      q.bids = p.bids := by
  simp only [runBranch, Delivery.ops, hevent, if_pos hbudget, Option.bind_some,
    List.append_assoc, List.cons_append, List.nil_append]
  rw [runOps_cons_leaf rfl]
  refine (runOps_quiet fun op hop => ?_).imp fun q hq =>
    ⟨hq.1, hq.2.1.trans (mirrorTask_tasks hdb _ _), hq.2.2.trans (ReplayOp.write_bids rfl)⟩
  rcases List.mem_append.mp hop with hop | hop
  · exact quiet_byTxHash hop
  · rcases List.mem_cons.mp hop with rfl | hop
    · exact quiet_linkTask hdb _
    · exact quiet_patch hop

theorem completeTask_tasks (hdb : Mirrors db) (taskId : Int) (hash choice : String) :
    ((ReplayOp.completeTask taskId hash).write db pg d choice p).tasks =
      p.tasks.map (completeRow taskId hash) := by
  simp only [ReplayOp.write, hdb.completeTask, Bool.not_true, Bool.false_eq_true, if_false]
  rfl

variable (pg pick p) in
/-- Where no row has the chain id, nothing would change. -/
theorem runBranch_taskCompleted (hdb : Mirrors db) {taskId agentId : UInt64} {hash : String}
    (hevent : d.event = .taskCompleted taskId agentId hash) :
    ∃ q, runBranch db pg pick d p = some q ∧
      q.tasks = p.tasks.map (completeRow (asI64 taskId) hash) ∧ q.bids = p.bids := by
  simp only [runBranch, Delivery.ops, hevent, Option.bind_some]
  by_cases hany : (p.tasks.any fun r => r.chainTaskId = some (asI64 taskId)) = true
  -- the row is found, so the result and the status are written
  · have hmore : ∀ uuid, (ReplayOp.findCompletedTask taskId agentId hash).next db d p uuid =
        some (.insertResult (mirroredResult d uuid agentId) ::
          .completeTask (asI64 taskId) hash ::
            (byTxHash d (.bothIds · (asI64 taskId) (asI64 agentId)) ++
              patchPendingWithIds (some (asI64 taskId)) (some (asI64 agentId)))) := by
      intro uuid
      simp only [ReplayOp.next, hdb.taskByChainId, hany, and_self, hdb.readsTasks, if_true]
      rfl
    rw [runOps_last (hmore _)]
    rw [runOps_cons_leaf rfl, runOps_cons_leaf rfl]
    refine (runOps_quiet fun op hop => ?_).imp fun q hq => ⟨hq.1, hq.2.1.trans ?_, hq.2.2.trans ?_⟩
    · rcases List.mem_append.mp hop with hop | hop
      · exact quiet_byTxHash hop
      · exact quiet_patch hop
    · rw [completeTask_tasks hdb, ReplayOp.write_tasks rfl]
      rfl
    · rw [ReplayOp.write_bids rfl, ReplayOp.write_bids rfl]
      rfl
  · have hnone : ∀ r ∈ p.tasks, r.chainTaskId ≠ some (asI64 taskId) := by simpa using hany
    refine ⟨p, ?_, ?_, rfl⟩
    · have hnext : (ReplayOp.findCompletedTask taskId agentId hash).next db d p
          (pick p (.findCompletedTask taskId agentId hash)) = some [] := by
        simp [ReplayOp.next, hany]
      rw [runOps_last hnext, runOps_nil]
      rfl
    -- no row has the chain id, so the update would be the identity
    · conv_lhs => rw [← List.map_id p.tasks]
      refine List.map_congr_left fun r hr => ?_
      rw [completeRow, if_neg (hnone r hr)]
      rfl

theorem insertBid_bids (hdb : Mirrors db) (row : BidRow) (choice : String) :
    ((ReplayOp.insertBid row).write db pg d choice p).bids = addBid p row := by
  simp only [ReplayOp.write, hdb.mirrorBid, Bool.not_true, Bool.false_eq_true, false_or, addBid]
  split <;> rfl

variable (pg pick) in
/-- On `BidSubmitted` the bid goes to the row that the lookup picks. -/
theorem runBranch_bidSubmitted (hdb : Mirrors db) {taskId agentId : UInt64}
    (hevent : d.event = .bidSubmitted taskId agentId)
    (hany : (p.tasks.any fun r => r.chainTaskId = some (asI64 taskId)) = true) :
    ∃ q, runBranch db pg pick d p = some q ∧ q.tasks = p.tasks ∧ ∃ did, q.bids =
      addBid p (mirroredBid d (pick p (.findBidTask taskId agentId)) did agentId) := by
  simp only [runBranch, Delivery.ops, hevent, Option.bind_some]
  have htask : ∀ uuid, (ReplayOp.findBidTask taskId agentId).next db d p uuid =
      some [.findBidAgent uuid taskId agentId] := by
    intro uuid
    simp only [ReplayOp.next, hdb.taskByChainId, hany, and_self, hdb.readsTasks, if_true]
  have hagent : ∀ uuid choice, ∃ did,
      (ReplayOp.findBidAgent uuid taskId agentId).next db d p choice =
        some (.insertBid (mirroredBid d uuid did agentId) ::
          byTxHash d (.bothIds · (asI64 taskId) (asI64 agentId))) := by
    intro uuid choice
    simp only [ReplayOp.next, hdb.readsAgents, Bool.not_true, Bool.and_false, Bool.false_eq_true,
      if_false]
    exact ⟨_, rfl⟩
  rw [runOps_last (htask _)]
  generalize pick p (.findBidTask taskId agentId) = uuid
  show ∃ q, runOps db pg pick d 2 [.findBidAgent uuid taskId agentId] p = some q ∧ _
  obtain ⟨did, hmore⟩ := hagent uuid (pick p (.findBidAgent uuid taskId agentId))
  rw [runOps_last hmore, runOps_cons_leaf rfl]
  refine (runOps_quiet fun op hop => quiet_byTxHash hop).imp fun q hq =>
    ⟨hq.1, hq.2.1.trans (ReplayOp.write_tasks rfl), did, hq.2.2.trans (insertBid_bids hdb _ _)⟩

theorem runBranch_bidSubmitted_none {taskId agentId : UInt64}
    (hevent : d.event = .bidSubmitted taskId agentId)
    (hnone : (p.tasks.any fun r => r.chainTaskId = some (asI64 taskId)) = false) :
    runBranch db pg pick d p = some p := by
  simp only [runBranch, Delivery.ops, hevent, Option.bind_some]
  have hnext : (ReplayOp.findBidTask taskId agentId).next db d p
      (pick p (.findBidTask taskId agentId)) = some [] := by
    simp [ReplayOp.next, hnone]
  rw [runOps_last hnext, runOps_nil]
  rfl

end Rules

end Ainur.Bridge
