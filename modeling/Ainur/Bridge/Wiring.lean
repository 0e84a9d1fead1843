import Ainur.Bridge.System

set_option autoImplicit false

/-! # Which chain ids reach which rows

Two statements of the replay worker write a chain id where the id alone has to say whose it is:
the patch of every pending placeholder, and the update that gives a new chain task to the oldest
task without one. Every other step keeps the wiring. So a run is free of cross-wiring exactly when
each of these two statements finds only rows of the task or agent that the id belongs to.
-/

namespace Ainur.Bridge

open Storage (Database)

/-- Which tasks and agents of the chain were created by an extrinsic of the outbox: the correlation
id of its row, none for those of other users. -/
structure Ledger where
  taskOf : UInt64 → Option String
  agentOf : UInt64 → Option String

section Ownership

variable (ledger : Ledger) (s : System)

/-- The chain id of the local task: an extrinsic enqueued for the task created it. -/
def OwnsTask (taskId : String) (chainId : Int) : Prop :=
  ∃ c n, (c, Origin.task taskId) ∈ s.enqueued ∧ ledger.taskOf n = some c ∧ chainId = n.toNat

/-- The chain id of the local agent. -/
def OwnsAgent (agentId : String) (chainId : Int) : Prop :=
  ∃ c n, (c, Origin.agent agentId) ∈ s.enqueued ∧ ledger.agentOf n = some c ∧ chainId = n.toNat

/-- The chain id is that of the local task or agent that a payload of this origin is for. -/
def Owns (origin : Origin) (chainId : Int) : IdMember → Prop
  | .taskId => ∀ taskId, origin.task? = some taskId → OwnsTask ledger s taskId chainId
  | .agentId => ∀ agentId, origin.agent? = some agentId → OwnsAgent ledger s agentId chainId

/-- **Chain ids are not cross-wired**: a placeholder was replaced by the chain id of its own task
or agent only, and a task that `submit_task` created has no chain id but its own. -/
structure NoCrossWire : Prop where
  patched : ∀ x ∈ s.patches, ∀ origin, (x.correlationId, origin) ∈ s.enqueued →
    Owns ledger s origin x.chainId x.idMember
  linked : ∀ row ∈ s.tables.tasks, row.id ∈ s.created → ∀ chainId,
    row.chainTaskId = some chainId → OwnsTask ledger s row.id chainId

/-- The step writes chain ids into rows of their own task or agent only: a patch finds no pending
placeholder of another, and the oldest task without a chain id, where it is one of the API's, is
the one that the chain task was created for. -/
def WritesOwnIds (db : Database) (pg : Jsonb) : Label → Prop
  | .statement performed pick =>
      match s.replay with
      | some (_, .outbox (.patch m chainId) :: _) =>
          performed = true → chainId ≠ 0 →
            ∀ row ∈ Update.changed pg (.patch m chainId) s.tables.outbox,
              ∀ origin, (row.correlationId, origin) ∈ s.enqueued → Owns ledger s origin chainId m
      | some (_, .linkTask chainId :: _) =>
          performed = true → db.accepts Storage.linkTaskSql = true →
            ∀ row ∈ unlinked s.tables.tasks, row.id = pick → pick ∈ s.created →
              OwnsTask ledger s pick chainId
      | _ => True
  | _ => True

end Ownership

/-! ## Frames -/

/-- Every row of the outbox and every task is still there. -/
structure Keeps (p q : PostgresStorage) : Prop where
  outbox : ∀ row ∈ p.outbox, ∃ row' ∈ q.outbox, row'.correlationId = row.correlationId
  tasks : ∀ row ∈ p.tasks, ∃ row' ∈ q.tasks, row'.id = row.id

/-- The tasks of `p` have no chain id in `q` that they had not before. -/
def KeepsLinks (p q : PostgresStorage) : Prop :=
  ∀ row' ∈ q.tasks, ∀ chainId, row'.chainTaskId = some chainId →
    (∃ row ∈ p.tasks, row.id = row'.id) →
    ∃ row ∈ p.tasks, row.id = row'.id ∧ row.chainTaskId = some chainId

section Frames

variable {p q : PostgresStorage}

theorem Keeps.refl (p : PostgresStorage) : Keeps p p :=
  ⟨fun row h => ⟨row, h, rfl⟩, fun row h => ⟨row, h, rfl⟩⟩

theorem Keeps.of_eq (htasks : q.tasks = p.tasks) (houtbox : q.outbox = p.outbox) : Keeps p q where
  outbox row h := ⟨row, houtbox ▸ h, rfl⟩
  tasks row h := ⟨row, htasks ▸ h, rfl⟩

theorem KeepsLinks.of_eq (htasks : q.tasks = p.tasks) : KeepsLinks p q := by
  intro row' h chainId hid _
  exact ⟨row', htasks ▸ h, rfl, hid⟩

/-- A change of the tasks, row by row, that keeps their ids. -/
theorem Keeps.of_map {f : TaskRow → TaskRow} (hf : ∀ r, (f r).id = r.id)
    (htasks : q.tasks = p.tasks.map f) (houtbox : q.outbox = p.outbox) : Keeps p q where
  outbox row h := ⟨row, houtbox ▸ h, rfl⟩
  tasks row h := ⟨f row, htasks ▸ List.mem_map_of_mem h, hf row⟩

theorem KeepsLinks.of_map {f : TaskRow → TaskRow} (hf : ∀ r, (f r).id = r.id)
    (hlink : ∀ r, (f r).chainTaskId = r.chainTaskId) (htasks : q.tasks = p.tasks.map f) :
    KeepsLinks p q := by
  intro row' h chainId hid _
  rw [htasks] at h
  obtain ⟨row, hrow, rfl⟩ := List.mem_map.mp h
  exact ⟨row, hrow, (hf row).symm, (hlink row).symm.trans hid⟩

theorem Keeps.of_append {row : TaskRow} (htasks : q.tasks = p.tasks ++ [row])
    (houtbox : q.outbox = p.outbox) : Keeps p q where
  outbox row h := ⟨row, houtbox ▸ h, rfl⟩
  tasks r h := ⟨r, htasks ▸ List.mem_append_left _ h, rfl⟩

/-- A task under a new id. -/
theorem KeepsLinks.of_append {row : TaskRow} (hnew : ∀ r ∈ p.tasks, r.id ≠ row.id)
    (htasks : q.tasks = p.tasks ++ [row]) : KeepsLinks p q := by
  intro row' h chainId hid hold
  rw [htasks, List.mem_append, List.mem_singleton] at h
  rcases h with h | rfl
  · exact ⟨row', h, rfl, hid⟩
  · obtain ⟨r, hr, heq⟩ := hold
    exact absurd heq (hnew r hr)

/-- The outbox after an update: the same rows under the same ids. -/
theorem Keeps.of_exec {pg : Jsonb} {u : Update} {rows : List OutboundExtrinsic}
    (hexec : Update.exec pg u p.outbox = some rows) (htasks : q.tasks = p.tasks)
    (houtbox : q.outbox = rows) : Keeps p q where
  tasks row h := ⟨row, htasks ▸ h, rfl⟩
  outbox row h := by
    unfold Update.exec at hexec
    rw [Option.ite_none_right_eq_some, Option.some.injEq] at hexec
    refine ⟨_, houtbox ▸ hexec.2 ▸ List.mem_map_of_mem h, ?_⟩
    split
    · cases u <;> rfl
    · rfl

end Frames

/-- `t` has the rows and the records of `s`; what it has enqueued since is under new correlation
ids, and what it has created since has no chain id yet. -/
structure Extends (s t : System) : Prop where
  tables : Keeps s.tables t.tables
  enqueued : ∀ x ∈ s.enqueued, x ∈ t.enqueued
  fresh : ∀ x ∈ t.enqueued, x ∈ s.enqueued ∨
    ∀ row ∈ s.tables.outbox, row.correlationId ≠ x.1
  created : ∀ id ∈ t.created, id ∈ s.created ∨
    ((∃ row ∈ t.tables.tasks, row.id = id) ∧
      ∀ row ∈ t.tables.tasks, row.id = id → row.chainTaskId = none)

/-- A step that leaves the records alone. -/
theorem Extends.of_keeps {s t : System} (htables : Keeps s.tables t.tables)
    (henqueued : t.enqueued = s.enqueued) (hcreated : t.created = s.created) : Extends s t where
  tables := htables
  enqueued _ h := henqueued ▸ h
  fresh _ h := Or.inl (henqueued ▸ h)
  created _ h := Or.inl (hcreated ▸ h)

/-! ## The invariant -/

/-- The records are about rows that exist. -/
structure Invariant (s : System) : Prop where
  patched : ∀ x ∈ s.patches, ∃ row ∈ s.tables.outbox, row.correlationId = x.correlationId
  created : ∀ id ∈ s.created, ∃ row ∈ s.tables.tasks, row.id = id

theorem Invariant.init : Invariant System.init where
  patched x h := by cases h
  created id h := by cases h

section Wiring

variable {ledger : Ledger} {s t : System}

theorem NoCrossWire.init : NoCrossWire ledger System.init where
  patched x h := by cases h
  linked row h := by cases h

theorem OwnsTask.mono {taskId : String} {chainId : Int} (hext : Extends s t)
    (h : OwnsTask ledger s taskId chainId) : OwnsTask ledger t taskId chainId := by
  obtain ⟨c, n, hc, hn⟩ := h
  exact ⟨c, n, hext.enqueued _ hc, hn⟩

theorem OwnsAgent.mono {agentId : String} {chainId : Int} (hext : Extends s t)
    (h : OwnsAgent ledger s agentId chainId) : OwnsAgent ledger t agentId chainId := by
  obtain ⟨c, n, hc, hn⟩ := h
  exact ⟨c, n, hext.enqueued _ hc, hn⟩

theorem Owns.mono {origin : Origin} {chainId : Int} {m : IdMember} (hext : Extends s t)
    (h : Owns ledger s origin chainId m) : Owns ledger t origin chainId m := by
  cases m with
  | taskId => exact fun taskId htask => (h taskId htask).mono hext
  | agentId => exact fun agentId hagent => (h agentId hagent).mono hext

theorem Invariant.extends (h : Invariant s) (hext : Extends s t)
    (hpatches : ∀ x ∈ t.patches, x ∈ s.patches ∨
      ∃ row ∈ s.tables.outbox, row.correlationId = x.correlationId) : Invariant t where
  patched x hx := by
    have hold : ∃ row ∈ s.tables.outbox, row.correlationId = x.correlationId := by
      rcases hpatches x hx with hx | hrow
      · exact h.patched x hx
      · exact hrow
    obtain ⟨row, hrow, hid⟩ := hold
    obtain ⟨row', hrow', hid'⟩ := hext.tables.outbox row hrow
    exact ⟨row', hrow', hid'.trans hid⟩
  created id hid := by
    rcases hext.created id hid with hold | ⟨hnew, -⟩
    · obtain ⟨row, hrow, heq⟩ := h.created id hold
      obtain ⟨row', hrow', heq'⟩ := hext.tables.tasks row hrow
      exact ⟨row', hrow', heq'.trans heq⟩
    · exact hnew

/-- An old patch is as right as it was. -/
theorem NoCrossWire.old_patch (h : NoCrossWire ledger s) (hinv : Invariant s)
    (hext : Extends s t) {x : Patch} (hx : x ∈ s.patches) {origin : Origin}
    (horigin : (x.correlationId, origin) ∈ t.enqueued) :
    Owns ledger t origin x.chainId x.idMember := by
  rcases hext.fresh _ horigin with hold | hnew
  · exact (h.patched x hx origin hold).mono hext
  · obtain ⟨row, hrow, hid⟩ := hinv.patched x hx
    exact absurd hid (hnew row hrow)

/-- An old link is as right as it was. -/
theorem NoCrossWire.old_link (h : NoCrossWire ledger s) (hinv : Invariant s)
    (hext : Extends s t) (hlinks : KeepsLinks s.tables t.tables) {row' : TaskRow}
    (hrow' : row' ∈ t.tables.tasks) (hcreated : row'.id ∈ t.created) {chainId : Int}
    (hid : row'.chainTaskId = some chainId) : OwnsTask ledger t row'.id chainId := by
  rcases hext.created _ hcreated with hold | ⟨-, hnone⟩
  · obtain ⟨row, hrow, heq, hlink⟩ := hlinks row' hrow' chainId hid (hinv.created _ hold)
    rw [← heq]
    exact (h.linked row hrow (heq ▸ hold) chainId hlink).mono hext
  · rw [hnone row' hrow' rfl] at hid
    cases hid

/-- A step that patches nothing and links nothing. -/
theorem NoCrossWire.quiet (h : NoCrossWire ledger s) (hinv : Invariant s) (hext : Extends s t)
    (hlinks : KeepsLinks s.tables t.tables) (hpatches : t.patches = s.patches) :
    NoCrossWire ledger t where
  patched _ hx _ horigin := h.old_patch hinv hext (hpatches ▸ hx) horigin
  linked _ hrow hcreated _ hid := h.old_link hinv hext hlinks hrow hcreated hid

end Wiring

/-! ## What each statement and each call keeps -/

section Writes

variable {lib : Libraries} {db : Database} {pg : Jsonb} {d : Delivery} {pick : String}
  {p q : PostgresStorage} {u : Unit}

theorem ReplayOp.write_keeps (op : ReplayOp) : Keeps p (op.write db pg d pick p) := by
  cases op with
  | mirrorAgent agentId owner =>
      simp only [write]
      split
      · exact Keeps.refl p
      · split <;> exact Keeps.of_eq rfl rfl
  | linkAgents agentId owner =>
      simp only [write]
      split
      · exact Keeps.refl p
      · exact Keeps.of_eq rfl rfl
  | outbox update =>
      simp only [write]
      split
      · next rows hexec => exact Keeps.of_exec hexec rfl rfl
      · exact Keeps.refl p
  | mirrorTask taskId =>
      simp only [write]
      split
      · exact Keeps.refl p
      · split
        · exact Keeps.of_map (fun r => by split <;> rfl) rfl rfl
        · split
          · exact Keeps.refl p
          · exact Keeps.of_append rfl rfl
  | linkTask taskId =>
      simp only [write]
      split
      · exact Keeps.refl p
      · exact Keeps.of_map (fun r => by split <;> rfl) rfl rfl
  | insertBid row =>
      simp only [write]
      split
      · exact Keeps.refl p
      · exact Keeps.of_eq rfl rfl
  | insertResult row =>
      simp only [write]
      split
      · exact Keeps.refl p
      · split
        · exact Keeps.of_eq rfl rfl
        · split
          · exact Keeps.refl p
          · exact Keeps.of_eq rfl rfl
  | completeTask taskId resultHash =>
      simp only [write]
      split
      · exact Keeps.refl p
      · exact Keeps.of_map (fun r => by split <;> rfl) rfl rfl
  | matchTask taskId agentId =>
      simp only [write]
      split
      · exact Keeps.refl p
      · exact Keeps.of_map (fun r => by split <;> rfl) rfl rfl
  | findBidTask taskId agentId => exact Keeps.refl p
  | findBidAgent taskUuid taskId agentId => exact Keeps.refl p
  | findCompletedTask taskId agentId resultHash => exact Keeps.refl p

/-- `linkTask` is the only statement that gives a task a chain id. -/
theorem ReplayOp.write_links {op : ReplayOp} (hop : ∀ taskId, op ≠ .linkTask taskId) :
    KeepsLinks p (op.write db pg d pick p) := by
  cases op with
  | mirrorAgent agentId owner =>
      simp only [write]
      split
      · exact KeepsLinks.of_eq rfl
      · split <;> exact KeepsLinks.of_eq rfl
  | linkAgents agentId owner =>
      simp only [write]
      split <;> exact KeepsLinks.of_eq rfl
  | outbox update =>
      simp only [write]
      split <;> exact KeepsLinks.of_eq rfl
  | mirrorTask taskId =>
      simp only [write]
      split
      · exact KeepsLinks.of_eq rfl
      · split
        · exact KeepsLinks.of_map (fun r => by split <;> rfl) (fun r => by split <;> rfl) rfl
        · split
          · exact KeepsLinks.of_eq rfl
          · next hnew =>
              -- the new row is linked, to an id that no row has
              refine KeepsLinks.of_append (fun r hr heq => hnew ?_) rfl
              exact List.any_eq_true.mpr ⟨r, hr, by simpa using heq⟩
  | linkTask taskId => exact absurd rfl (hop taskId)
  | insertBid row =>
      simp only [write]
      split <;> exact KeepsLinks.of_eq rfl
  | insertResult row =>
      simp only [write]
      split
      · exact KeepsLinks.of_eq rfl
      · split
        · exact KeepsLinks.of_eq rfl
        · split <;> exact KeepsLinks.of_eq rfl
  | completeTask taskId resultHash =>
      simp only [write]
      split
      · exact KeepsLinks.of_eq rfl
      · exact KeepsLinks.of_map (fun r => by split <;> rfl) (fun r => by split <;> rfl) rfl
  | matchTask taskId agentId =>
      simp only [write]
      split
      · exact KeepsLinks.of_eq rfl
      · exact KeepsLinks.of_map (fun r => by split <;> rfl) (fun r => by split <;> rfl) rfl
  | findBidTask taskId agentId => exact KeepsLinks.of_eq rfl
  | findBidAgent taskUuid taskId agentId => exact KeepsLinks.of_eq rfl
  | findCompletedTask taskId agentId resultHash => exact KeepsLinks.of_eq rfl

theorem taskRow_unlinked {task : StoredTask} {row : TaskRow}
    (h : PostgresStorage.taskRow lib task = .ok row) : row.chainTaskId = none := by
  obtain ⟨id, -, h⟩ := Fallible.bind_eq_ok.mp h
  obtain ⟨-, -, h⟩ := Fallible.bind_eq_ok.mp h
  split at h
  · cases h
  · obtain rfl := Except.ok.inj h
    rfl

/-- A new task has no chain id. -/
theorem insertTask_tasks {task : StoredTask} (h : p.insertTask lib db task = .ok (u, q)) :
    q.tasks = p.tasks ∨ ∃ row, row.chainTaskId = none ∧ (∀ r ∈ p.tasks, r.id ≠ row.id) ∧
      q.tasks = p.tasks ++ [row] := by
  obtain ⟨row, hrow, h⟩ := Fallible.bind_eq_ok.mp h
  split at h
  · cases h
  · split at h
    · obtain rfl : _ = q := congrArg Prod.snd (Except.ok.inj h)
      exact Or.inl rfl
    · next hnew =>
        obtain rfl : _ = q := congrArg Prod.snd (Except.ok.inj h)
        refine Or.inr ⟨row, taskRow_unlinked hrow, fun r hr heq => hnew ?_, rfl⟩
        exact List.any_eq_true.mpr ⟨r, hr, by simpa using heq⟩

/-- `upsert_task` changes neither the id nor the chain id of a task. -/
theorem upsertTask_keeps {task : StoredTask} (h : p.upsertTask lib db task = .ok (u, q)) :
    Keeps p q ∧ KeepsLinks p q := by
  obtain ⟨row, -, hcases⟩ := Fallible.bind_eq_ok.mp h
  have houtbox := (PostgresStorage.upsertTask_frame h).2
  split at hcases
  · cases hcases
  · split at hcases
    · obtain rfl : _ = q := congrArg Prod.snd (Except.ok.inj hcases)
      exact ⟨Keeps.of_map (fun r => by split <;> rfl) rfl houtbox,
        KeepsLinks.of_map (fun r => by split <;> rfl) (fun r => by split <;> rfl) rfl⟩
    · next hnew =>
        obtain rfl : _ = q := congrArg Prod.snd (Except.ok.inj hcases)
        refine ⟨Keeps.of_append rfl houtbox,
          KeepsLinks.of_append (fun r hr heq => hnew ?_) rfl⟩
        exact List.any_eq_true.mpr ⟨r, hr, by simpa using heq⟩

theorem insertTask_keeps {task : StoredTask} (h : p.insertTask lib db task = .ok (u, q)) :
    Keeps p q ∧ KeepsLinks p q := by
  have houtbox := (PostgresStorage.insertTask_frame h).2
  rcases insertTask_tasks h with htasks | ⟨row, -, hnew, htasks⟩
  · exact ⟨Keeps.of_eq htasks houtbox, KeepsLinks.of_eq htasks⟩
  · exact ⟨Keeps.of_append htasks houtbox, KeepsLinks.of_append hnew htasks⟩

theorem Call.advance_keeps (c : Call) :
    Keeps p (c.advance lib db p).1 ∧ KeepsLinks p (c.advance lib db p).1 := by
  have hrefl : Keeps p p ∧ KeepsLinks p p := ⟨Keeps.refl p, KeepsLinks.of_eq rfl⟩
  cases c with
  | registerAgent agent =>
      simp only [advance]
      split
      · next h =>
          obtain ⟨htasks, houtbox⟩ := PostgresStorage.registerAgent_frame h
          exact ⟨Keeps.of_eq htasks houtbox, KeepsLinks.of_eq htasks⟩
      · exact hrefl
  | insertTask stored =>
      simp only [advance]
      split
      · next h => exact insertTask_keeps h
      · exact hrefl
  | insertBid stored =>
      simp only [advance]
      split
      · next h =>
          obtain ⟨-, htasks, houtbox⟩ := PostgresStorage.insertBid_frame h
          exact ⟨Keeps.of_eq htasks houtbox, KeepsLinks.of_eq htasks⟩
      · exact hrefl
  | upsertTask task stored =>
      simp only [advance]
      split
      · next h => exact upsertTask_keeps h
      · exact hrefl
  | insertResult stored =>
      simp only [advance]
      split
      · next h =>
          obtain ⟨-, htasks, houtbox⟩ := PostgresStorage.insertResult_frame h
          exact ⟨Keeps.of_eq htasks houtbox, KeepsLinks.of_eq htasks⟩
      · exact hrefl
  | lookupTask work => exact hrefl
  | lookupAgent work taskChainId => exact hrefl
  | enqueue x => exact hrefl

/-- A task that a call creates is there afterwards, without a chain id. -/
theorem Call.creates_unlinked {c : Call} {id : String} (hid : id ∈ c.creates lib db p) :
    (∃ row ∈ (c.advance lib db p).1.tasks, row.id = id) ∧
      ∀ row ∈ (c.advance lib db p).1.tasks, row.id = id → row.chainTaskId = none := by
  cases c with
  | insertTask stored =>
      simp only [creates] at hid
      obtain ⟨hmem, hnew⟩ := List.mem_filter.mp hid
      have hnew' : ∀ r ∈ p.tasks, r.id ≠ id := by simpa using hnew
      refine ⟨List.mem_map.mp hmem, fun row hrow heq => ?_⟩
      simp only [advance] at hrow
      split at hrow
      · next hop =>
          rcases insertTask_tasks hop with htasks | ⟨row', hnone, -, htasks⟩
          · exact absurd heq (hnew' row (htasks ▸ hrow))
          · rw [htasks, List.mem_append, List.mem_singleton] at hrow
            rcases hrow with hrow | rfl
            · exact absurd heq (hnew' row hrow)
            · exact hnone
      · exact absurd heq (hnew' row hrow)
  | registerAgent agent => cases hid
  | insertBid stored => cases hid
  | upsertTask task stored => cases hid
  | insertResult stored => cases hid
  | lookupTask work => cases hid
  | lookupAgent work taskChainId => cases hid
  | enqueue x => cases hid

/-- A patch that is recorded changed a row of the outbox. -/
theorem ReplayOp.patched_row {op : ReplayOp} {x : Patch} (hx : x ∈ op.patched pg p) :
    ∃ row ∈ p.outbox, row.correlationId = x.correlationId := by
  unfold patched at hx
  split at hx
  · split at hx
    · cases hx
    · obtain ⟨row, hrow, rfl⟩ := List.mem_map.mp hx
      unfold Update.changed at hrow
      split at hrow
      · exact ⟨row, (List.mem_filter.mp hrow).1, rfl⟩
      · cases hrow
  · cases hx

end Writes

/-! ## Every step -/

section Steps

variable {lib : Libraries} {db : Database} {pg : Jsonb} {ledger : Ledger} {s t : System}
  {l : Label}

/-- A step of anyone but the replay worker, and of that between two statements. -/
theorem step_quiet (hl : ∀ performed pick, l ≠ .statement performed pick)
    (hstep : step lib db pg s l = some t) :
    Extends s t ∧ KeepsLinks s.tables t.tables ∧ t.patches = s.patches := by
  have hkeep : ∀ {s t : System}, t.tables = s.tables → t.enqueued = s.enqueued →
      t.created = s.created → t.patches = s.patches →
      Extends s t ∧ KeepsLinks s.tables t.tables ∧ t.patches = s.patches := by
    intro s t htables henqueued hcreated hpatches
    rw [htables]
    exact ⟨Extends.of_keeps (htables ▸ Keeps.refl _) henqueued hcreated, KeepsLinks.of_eq rfl,
      hpatches⟩
  cases l with
  | request k draws req =>
      obtain ⟨-, c, -, rfl⟩ := step_request.mp hstep
      exact hkeep rfl rfl rfl rfl
  | call k performed =>
      obtain ⟨c, -, -, ⟨-, rfl⟩ | ⟨-, rfl⟩⟩ := step_call.mp hstep
      · obtain ⟨hkeeps, hlinks⟩ : Keeps s.tables (c.advance lib db s.tables).1 ∧
          KeepsLinks s.tables (c.advance lib db s.tables).1 := c.advance_keeps
        refine ⟨⟨hkeeps, fun x hx => hx, fun x hx => Or.inl hx, fun id hid => ?_⟩, hlinks, rfl⟩
        -- a task that the call creates has no chain id
        rcases List.mem_append.mp hid with hnew | hold
        · exact Or.inr (Call.creates_unlinked hnew)
        · exact Or.inl hold
      · exact hkeep rfl rfl rfl rfl
  | enqueue k correlationId now =>
      obtain ⟨x, -, ⟨hfresh, -⟩, rfl⟩ := step_enqueue.mp hstep
      refine ⟨⟨⟨fun row hrow => ⟨row, List.mem_append_left _ hrow, rfl⟩,
        fun row hrow => ⟨row, hrow, rfl⟩⟩, fun y hy => List.mem_cons_of_mem _ hy, fun y hy => ?_,
        fun id hid => Or.inl hid⟩, KeepsLinks.of_eq rfl, rfl⟩
      rcases List.mem_cons.mp hy with rfl | hold
      · exact Or.inr hfresh
      · exact Or.inl hold
  | drop k =>
      obtain ⟨-, rfl⟩ := step_drop.mp hstep
      exact hkeep rfl rfl rfl rfl
  | settle correlationId outcome now =>
      obtain ⟨row, -, -, f, hf, rfl⟩ := step_settle.mp hstep
      refine ⟨Extends.of_keeps ⟨fun r hr => ⟨_, List.mem_map_of_mem hr, ?_⟩,
        fun r hr => ⟨r, hr, rfl⟩⟩ rfl rfl, KeepsLinks.of_eq rfl, rfl⟩
      split
      · exact Outbox.settlement_correlationId hf r
      · rfl
  | deliver d =>
      obtain ⟨-, -, ops, -, rfl⟩ := step_deliver.mp hstep
      exact hkeep rfl rfl rfl rfl
  | statement performed pick => exact absurd rfl (hl performed pick)
  | record =>
      obtain ⟨d, -, rfl⟩ := step_record.mp hstep
      exact hkeep rfl rfl rfl rfl
  | stop =>
      obtain rfl := Option.some.inj hstep
      exact hkeep rfl rfl rfl rfl
  | backfill u =>
      obtain ⟨-, rows, hexec, rfl⟩ := step_backfill.mp hstep
      exact ⟨Extends.of_keeps (Keeps.of_exec hexec rfl rfl) rfl rfl, KeepsLinks.of_eq rfl, rfl⟩

/-- A statement of the replay worker keeps every row, and records its patches. -/
theorem step_statement_extends {performed : Bool} {pick : String}
    (hstep : step lib db pg s (.statement performed pick) = some t) :
    Extends s t ∧ ∀ x ∈ t.patches, x ∈ s.patches ∨
      ∃ row ∈ s.tables.outbox, row.correlationId = x.correlationId := by
  obtain ⟨d, op, rest, -, ⟨-, -, rfl⟩ | ⟨-, rfl⟩⟩ := step_statement.mp hstep
  · refine ⟨Extends.of_keeps op.write_keeps rfl rfl, fun x hx => ?_⟩
    rcases List.mem_append.mp hx with hnew | hold
    · exact Or.inr (ReplayOp.patched_row hnew)
    · exact Or.inl hold
  · exact ⟨Extends.of_keeps (Keeps.refl _) rfl rfl, fun x hx => Or.inl hx⟩

theorem Invariant.step (h : Invariant s) (hstep : step lib db pg s l = some t) : Invariant t := by
  by_cases hl : ∃ performed pick, l = .statement performed pick
  · obtain ⟨performed, pick, rfl⟩ := hl
    obtain ⟨hext, hpatches⟩ := step_statement_extends hstep
    exact h.extends hext hpatches
  · obtain ⟨hext, -, hpatches⟩ := step_quiet (fun a b hab => hl ⟨a, b, hab⟩) hstep
    exact h.extends hext fun x hx => Or.inl (hpatches ▸ hx)

/-- A patch keeps the wiring exactly when it finds only rows of its own task or agent. -/
theorem NoCrossWire.patch_iff (h : NoCrossWire ledger s) (hinv : Invariant s) {m : IdMember}
    {chainId : Int} {q : PostgresStorage} {replay : Option (Delivery × List ReplayOp)}
    (hkeeps : Keeps s.tables q) (hlinks : KeepsLinks s.tables q) :
    NoCrossWire ledger { s with
        tables := q
        replay := replay
        patches := ReplayOp.patched pg s.tables (.outbox (.patch m chainId)) ++ s.patches } ↔
      (chainId ≠ 0 → ∀ row ∈ Update.changed pg (.patch m chainId) s.tables.outbox,
        ∀ origin, (row.correlationId, origin) ∈ s.enqueued → Owns ledger s origin chainId m) := by
  constructor
  · intro hnew hne row hrow origin horigin
    refine hnew.patched ⟨row.correlationId, m, chainId⟩ (List.mem_append_left _ ?_) origin horigin
    simp only [ReplayOp.patched, if_neg hne]
    exact List.mem_map.mpr ⟨row, hrow, rfl⟩
  · intro hown
    have hext : Extends s { s with
        tables := q
        replay := replay
        patches := ReplayOp.patched pg s.tables (.outbox (.patch m chainId)) ++ s.patches } :=
      Extends.of_keeps hkeeps rfl rfl
    refine ⟨fun x hx origin horigin => ?_, fun row hrow hcreated id hid =>
      h.old_link hinv hext hlinks hrow hcreated hid⟩
    rcases List.mem_append.mp hx with hnew | hold
    · simp only [ReplayOp.patched] at hnew
      split at hnew
      · cases hnew
      · next hne =>
          obtain ⟨row, hrow, rfl⟩ := List.mem_map.mp hnew
          exact (hown hne row hrow origin horigin).mono hext
    · exact h.old_patch hinv hext hold horigin

/-- The link of the oldest task keeps the wiring exactly when that task is not one of the API's, or
is the one that the chain task was created for. -/
theorem NoCrossWire.link_iff (h : NoCrossWire ledger s) (hinv : Invariant s) {d : Delivery}
    {pick : String} {chainId : Int} {replay : Option (Delivery × List ReplayOp)} :
    NoCrossWire ledger { s with
        tables := (ReplayOp.linkTask chainId).write db pg d pick s.tables
        replay := replay } ↔
      (db.accepts Storage.linkTaskSql = true → ∀ row ∈ unlinked s.tables.tasks, row.id = pick →
        pick ∈ s.created → OwnsTask ledger s pick chainId) := by
  have hkeeps : Keeps s.tables ((ReplayOp.linkTask chainId).write db pg d pick s.tables) :=
    ReplayOp.write_keeps _
  have hext : Extends s { s with
      tables := (ReplayOp.linkTask chainId).write db pg d pick s.tables
      replay := replay } := Extends.of_keeps hkeeps rfl rfl
  cases hacc : db.accepts Storage.linkTaskSql with
  | false =>
      refine iff_of_true (h.quiet hinv hext ?_ rfl) (by simp)
      simp only [ReplayOp.write, hacc]
      exact KeepsLinks.of_eq rfl
  | true =>
      simp only [ReplayOp.write, hacc, Bool.not_true, Bool.false_eq_true, if_false,
        forall_const] at hext ⊢
      constructor
      · rintro hnew row hrow rfl hcreated
        obtain ⟨hmem, hnone⟩ := List.mem_filter.mp hrow
        refine hnew.linked { row with chainTaskId := some chainId } ?_ hcreated chainId rfl
        refine List.mem_map.mpr ⟨row, hmem, ?_⟩
        rw [if_pos ⟨rfl, by simpa using hnone⟩]
      · intro hown
        refine ⟨fun x hx origin horigin => h.old_patch hinv hext hx horigin,
          fun row' hrow' hcreated id hid => ?_⟩
        obtain ⟨row, hrow, rfl⟩ := List.mem_map.mp hrow'
        by_cases hpick : row.id = pick ∧ row.chainTaskId = none
        · rw [if_pos hpick] at hcreated hid ⊢
          obtain rfl : chainId = id := Option.some.inj hid
          rw [show ({ row with chainTaskId := some chainId } : TaskRow).id = pick from hpick.1]
            at hcreated ⊢
          exact (hown row (List.mem_filter.mpr ⟨hrow, by simpa using hpick.2⟩) hpick.1
            hcreated).mono hext
        · rw [if_neg hpick] at hcreated hid ⊢
          exact (h.linked row hrow hcreated id hid).mono hext

/-- **A step keeps the wiring exactly when it writes chain ids into rows of their own task or
agent only.** -/
theorem NoCrossWire.step_iff (h : NoCrossWire ledger s) (hinv : Invariant s)
    (hstep : step lib db pg s l = some t) :
    NoCrossWire ledger t ↔ WritesOwnIds ledger s db pg l := by
  by_cases hl : ∃ performed pick, l = .statement performed pick
  · obtain ⟨performed, pick, rfl⟩ := hl
    obtain ⟨d, op, rest, hr, ⟨rfl, -, rfl⟩ | ⟨rfl, rfl⟩⟩ := step_statement.mp hstep
    · have hquiet : ∀ hop : (∀ id, op ≠ .linkTask id) ∧ op.patched pg s.tables = [],
          NoCrossWire ledger { s with
            tables := op.write db pg d pick s.tables
            replay := (op.next db d s.tables pick).map fun ops => (d, ops ++ rest)
            patches := op.patched pg s.tables ++ s.patches } := by
        rintro ⟨hlink, hpatched⟩
        exact h.quiet hinv (Extends.of_keeps op.write_keeps rfl rfl)
          (ReplayOp.write_links hlink) (by rw [hpatched]; rfl)
      cases op with
      | outbox u =>
          cases u with
          | patch m chainId =>
              simpa only [WritesOwnIds, hr, forall_const] using
                h.patch_iff hinv (ReplayOp.outbox (.patch m chainId)).write_keeps
                  (ReplayOp.write_links (by simp))
          | _ => simpa only [WritesOwnIds, hr, iff_true] using hquiet ⟨by simp, rfl⟩
      | linkTask chainId =>
          simpa only [WritesOwnIds, hr, forall_const, ReplayOp.patched, List.nil_append] using
            h.link_iff hinv
      | _ => simpa only [WritesOwnIds, hr, iff_true] using hquiet ⟨by simp, rfl⟩
    · have hkeep := h.quiet hinv (Extends.of_keeps (t := { s with
        replay := some (d, op.nextFailed d ++ rest) }) (Keeps.refl _) rfl rfl)
        (KeepsLinks.of_eq rfl) rfl
      refine iff_of_true hkeep ?_
      simp only [WritesOwnIds]
      split
      · simp
      · simp
      · trivial
  · have hl' : ∀ performed pick, l ≠ .statement performed pick := fun a b hab => hl ⟨a, b, hab⟩
    obtain ⟨hext, hlinks, hpatches⟩ := step_quiet hl' hstep
    refine iff_of_true (h.quiet hinv hext hlinks hpatches) ?_
    cases l with
    | statement performed pick => exact absurd rfl (hl' performed pick)
    | _ => trivial

/-- **No chain id is cross-wired in any state of a run exactly when every step of the run writes
chain ids into rows of their own task or agent only.** -/
theorem noCrossWire_iff {tr : List (System × Label)} (hrun : Runs lib db pg tr s) :
    Transition.Always (NoCrossWire ledger) tr s ↔
      Transition.EachStep (fun s l => WritesOwnIds ledger s db pg l) tr :=
  Transition.Run.always_iff Invariant.init NoCrossWire.init (fun _ _ _ h hstep => h.step hstep)
    (fun _ _ _ hinv h hstep => h.step_iff hinv hstep) hrun

end Steps

/-! ## A task of another user -/

/-- A database that takes every `UPDATE`, and otherwise the one that is there. -/
def updating : Database where
  accepts statement :=
    match statement with
    | .update _ _ _ _ => true
    | _ => Storage.migrated.accepts statement
  readsText := Storage.migrated.readsText

/-- Nothing on the chain is from this orchestrator. -/
def foreignLedger : Ledger := ⟨fun _ => none, fun _ => none⟩

/-- A bid waits with two placeholders, and the chain task 9 of another user is replayed. -/
def foreignTask : List Label :=
  taskRequest ++ bidRequest ++
    [.deliver ⟨.taskCreated 9 1, 12, some "0xff", "5f0c8f4e-3f0a-4b8e-9d43-5a3c1c2b7e10", 1700000100⟩,
      .statement true "", .statement true "", .statement true (sampleDraws.uuid 0),
      .statement true ""]

theorem foreignTask_runs :
    ∃ tr s, Runs bridgeLibraries updating (.onValues samplePayloads) tr s ∧
      ⟨"c3", .taskId, 9⟩ ∈ s.patches ∧
      ("c3", Origin.bid (sampleDraws.uuid 0) sampleAgent.id) ∈ s.enqueued := by
  have hexec : (Transition.exec (step bridgeLibraries updating (.onValues samplePayloads))
      System.init foreignTask).any (fun s => s.patches.contains ⟨"c3", .taskId, 9⟩ &&
        s.enqueued.contains ("c3", .bid (sampleDraws.uuid 0) sampleAgent.id)) = true := by
    decide +kernel
  obtain ⟨tr, s, hrun, hend⟩ := Transition.Run.reach_of_exec hexec
  rw [Bool.and_eq_true, List.contains_iff_mem, List.contains_iff_mem] at hend
  exact ⟨tr, s, hrun, hend.1, hend.2⟩

/-- **The bid for the local task is patched with the chain task of another user.** -/
theorem foreignTask_patched :
    ¬ ∀ (lib : Libraries) (db : Database) (pg : Jsonb) (ledger : Ledger)
        (tr : List (System × Label)) (s : System), Runs lib db pg tr s → NoCrossWire ledger s := by
  intro hall
  obtain ⟨tr, s, hrun, hpatch, horigin⟩ := foreignTask_runs
  have howns := (hall _ _ _ foreignLedger tr s hrun).patched _ hpatch _ horigin _ rfl
  obtain ⟨c, n, -, hnone, -⟩ := howns
  cases hnone

/-- The patch is a step that writes a chain id into a row of another task. -/
theorem foreignTask_steps :
    ∃ tr s, Runs bridgeLibraries updating (.onValues samplePayloads) tr s ∧
      ⟨"c3", .taskId, 9⟩ ∈ s.patches ∧
      (Transition.Always (NoCrossWire foreignLedger) tr s ↔
        Transition.EachStep (fun s l =>
          WritesOwnIds foreignLedger s updating (.onValues samplePayloads) l) tr) := by
  obtain ⟨tr, s, hrun, hpatch, -⟩ := foreignTask_runs
  exact ⟨tr, s, hrun, hpatch, noCrossWire_iff hrun⟩

end Ainur.Bridge
