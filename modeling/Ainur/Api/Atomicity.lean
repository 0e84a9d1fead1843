import Ainur.Lib.Keyed
import Ainur.Api.Handlers

set_option autoImplicit false

/-! # What a failed request leaves behind

The stored tasks and results, as `get_task` and the results table show them, before and after a
request to `submit_task`, `submit_result` or `execute_task_local` whose calls may fail or be the
last. Every handler writes in separate calls, so a request that breaks off after its first write
leaves that write behind.
-/

namespace Ainur

open Faulty
open Faulty.Request (Keeps performed)
open Fallible (bind_eq_ok pure_eq_ok okOr_eq_ok)

/-- The stored tasks and results of a store. -/
def records (lib : Libraries) (s : Store) :
    (String → Except ApiError StoredTask) × (String → Option (Except String StoredResult)) :=
  (fun id => s.task lib id, fun id => s.result id)

theorem ignoresOutbox_records {lib : Libraries} : IgnoresOutbox (records lib) := by
  intro db p rows
  simp only [records, Store.task, Store.result, PostgresStorage.getTask]

/-! ## What the writes do -/

section Writes

variable {lib : Libraries} {s s' : Store} {u : Unit}

/-- The two texts name one record of the store. -/
def Store.SameKey (lib : Libraries) (a b : String) : Store → Prop
  | .memory _ => a = b
  | .postgres _ _ => ∃ uuid, lib.parseUuid a = some uuid ∧ lib.parseUuid b = some uuid

theorem PostgresStorage.taskRow_eq_ok {task : StoredTask} {row : TaskRow}
    (h : PostgresStorage.taskRow lib task = .ok row) :
    lib.parseUuid task.id = some row.id ∧ row.stored = .ok task ∧
      row.status = statusToStr task.status := by
  simp only [PostgresStorage.taskRow, parseUuid] at h
  obtain ⟨id, hid, h⟩ := bind_eq_ok.mp h
  obtain ⟨-, -, h⟩ := bind_eq_ok.mp h
  rw [okOr_eq_ok] at hid
  split at h
  · cases h
  · obtain rfl := Except.ok.inj h
    exact ⟨hid, rfl, rfl⟩

theorem PostgresStorage.readTask_of_row {row : TaskRow} {task : StoredTask}
    (hstored : row.stored = .ok task) (hstatus : row.status = statusToStr task.status) :
    PostgresStorage.readTask row = .ok task := by
  simp only [PostgresStorage.readTask, hstored, hstatus, strToStatus_statusToStr]
  rfl

/-- After `upsert_task` the row of the task reads as the task, and every other row is found as
before. -/
theorem PostgresStorage.upsertTask_find {p q : PostgresStorage} {db : Storage.Database}
    {task : StoredTask} (h : p.upsertTask lib db task = .ok (u, q)) :
    ∃ key, lib.parseUuid task.id = some key ∧
      (∃ r, q.tasks.find? (fun r => r.id = key) = some r ∧ readTask r = .ok task) ∧
      (∀ id, id ≠ key → q.tasks.find? (fun r => r.id = id) = p.tasks.find? fun r => r.id = id) ∧
      q.results = p.results := by
  obtain ⟨row, hrow, h⟩ := bind_eq_ok.mp h
  obtain ⟨huuid, hstored, hstatus⟩ := taskRow_eq_ok hrow
  refine ⟨row.id, huuid, ?_⟩
  split at h
  · cases h
  · split at h
    · next hany =>
        obtain rfl : _ = q := congrArg Prod.snd (Except.ok.inj h)
        have hfind := Keyed.find_map (g := fun r : TaskRow => if r.id = row.id then
          { r with stored := row.stored, status := row.status } else r)
          TaskRow.id (fun r => by split <;> rfl) p.tasks
        refine ⟨?_, fun id hid => (hfind id).trans ?_, rfl⟩
        · obtain ⟨r, hr, hkey⟩ := Keyed.exists_find TaskRow.id hany
          refine ⟨{ r with stored := row.stored, status := row.status }, ?_,
            readTask_of_row hstored hstatus⟩
          exact (hfind row.id).trans (by rw [hr, Option.map_some, if_pos hkey])
        · -- the row of another id is not the one that is updated
          cases hr : p.tasks.find? fun r => r.id = id with
          | none => rfl
          | some r =>
              have hkey : r.id = id := by simpa using List.find?_some hr
              rw [Option.map_some, if_neg (hkey ▸ hid)]
    · next hnone =>
        obtain rfl : _ = q := congrArg Prod.snd (Except.ok.inj h)
        have hrow := Keyed.find_append TaskRow.id (Keyed.not_find TaskRow.id hnone)
        exact ⟨⟨row, hrow, readTask_of_row hstored hstatus⟩,
          fun id hid => Keyed.find_append_ne TaskRow.id (Ne.symm hid), rfl⟩

/-- After `upsert_task` the task is what `get_task` answers under every text of its id, and the
other answers are as before. -/
theorem Store.upsertTask_task {task : StoredTask} (h : s.upsertTask lib task = .ok (u, s'))
    (id : String) :
    (s.SameKey lib id task.id → s'.task lib id = .ok task) ∧
      (¬ s.SameKey lib id task.id → s'.task lib id = s.task lib id) ∧
      s.SameKey lib task.id task.id ∧ s'.result = s.result := by
  cases s with
  | memory m =>
      obtain rfl : _ = s' := congrArg Prod.snd (Except.ok.inj h)
      refine ⟨fun hkey => ?_, fun hkey => ?_, rfl, rfl⟩
      · obtain rfl : id = task.id := hkey
        simp [Store.task, lookup_hashInsert]
      · have hne : ¬ id = task.id := hkey
        simp [Store.task, lookup_hashInsert, hne]
  | postgres db p =>
      obtain ⟨q, hop, rfl⟩ := postgres_map_eq_ok h
      obtain ⟨key, hkey, ⟨r, hfind, hread⟩, hother, hresults⟩ :=
        PostgresStorage.upsertTask_find hop
      refine ⟨?_, ?_, ⟨key, hkey, hkey⟩, ?_⟩
      · rintro ⟨uuid, hid, htask⟩
        obtain rfl : uuid = key := by simpa [hkey] using htask.symm
        simp [Store.task, PostgresStorage.getTask, parseUuid, hid, hfind, hread]
      · intro hne
        simp only [Store.task, PostgresStorage.getTask, parseUuid]
        cases hid : lib.parseUuid id with
        | none => rfl
        | some uuid =>
            have huuid : uuid ≠ key := by
              rintro rfl
              exact hne ⟨uuid, hid, hkey⟩
            simp only [Fallible.okOr_some, Fallible.ok_bind, hother uuid huuid]
      · funext id
        simp only [Store.result, hresults]

/-- An answer is the answer under every text of the id. -/
theorem Store.task_of_sameKey {a b : String} {task : StoredTask} (hkey : s.SameKey lib a b)
    (hb : s.task lib b = .ok task) : s.task lib a = .ok task := by
  cases s with
  | memory m =>
      obtain rfl : a = b := hkey
      exact hb
  | postgres db p =>
      obtain ⟨uuid, ha, hb'⟩ := hkey
      simp only [Store.task, PostgresStorage.getTask, parseUuid, ha, hb', Fallible.okOr_some,
        Fallible.ok_bind] at hb ⊢
      cases hfind : p.tasks.find? fun r => decide (r.id = uuid) with
      | none =>
          rw [hfind] at hb
          cases hb
      | some r =>
          rw [hfind] at hb
          exact hb

/-- `upsert_task` leaves the records alone exactly when the task is stored as it is. -/
theorem Store.upsertTask_records {task : StoredTask} (h : s.upsertTask lib task = .ok (u, s')) :
    records lib s' = records lib s ↔ s.task lib task.id = .ok task := by
  constructor
  · intro hsame
    obtain ⟨hnew, -, hself, -⟩ := Store.upsertTask_task h task.id
    have hid : s'.task lib task.id = s.task lib task.id :=
      congrFun (congrArg Prod.fst hsame) task.id
    rw [← hid]
    exact hnew hself
  · intro hstored
    have htasks : (fun id => s'.task lib id) = fun id => s.task lib id := by
      funext id
      obtain ⟨hnew, hold, -⟩ := Store.upsertTask_task h id
      by_cases hkey : s.SameKey lib id task.id
      · rw [hnew hkey, Store.task_of_sameKey hkey hstored]
      · exact hold hkey
    have hresults := (Store.upsertTask_task h task.id).2.2.2
    simp only [records, htasks, hresults]

/-- No task is stored under the id, which is a UUID where the store wants one. -/
def Store.IsFree (lib : Libraries) (id : String) (s : Store) : Prop :=
  s.task lib id = .error (.notFound s!"task {id} not found")

/-- A row that can be found is not missing. -/
theorem PostgresStorage.readTask_ne_notFound (row : TaskRow) (message : String) :
    readTask row ≠ .error (.notFound message) := by
  intro h
  unfold readTask at h
  cases hstored : row.stored with
  | error e =>
      rw [hstored] at h
      cases h
  | ok task =>
      rw [hstored] at h
      simp only [Fallible.mapError_ok, Fallible.ok_bind, strToStatus] at h
      split at h <;> cases h

/-- `insert_task` under a free id stores the task. -/
theorem Store.insertTask_task {task : StoredTask} (hfree : s.IsFree lib task.id)
    (h : s.insertTask lib task = .ok (u, s')) : s'.task lib task.id = .ok task := by
  cases s with
  | memory m =>
      obtain rfl : _ = s' := congrArg Prod.snd (Except.ok.inj h)
      simp [Store.task, lookup_hashInsert]
  | postgres db p =>
      obtain ⟨q, hop, rfl⟩ := postgres_map_eq_ok h
      obtain ⟨row, hrow, hop⟩ := bind_eq_ok.mp hop
      obtain ⟨huuid, hstored, hstatus⟩ := PostgresStorage.taskRow_eq_ok hrow
      have hnone : p.tasks.find? (fun r => decide (r.id = row.id)) = none := by
        simp only [Store.IsFree, Store.task, PostgresStorage.getTask, parseUuid, huuid,
          Fallible.okOr_some, Fallible.ok_bind] at hfree
        cases hfind : p.tasks.find? fun r => decide (r.id = row.id) with
        | none => rfl
        | some r =>
            rw [hfind] at hfree
            exact absurd hfree (PostgresStorage.readTask_ne_notFound r _)
      have hany : (p.tasks.any fun r => decide (r.id = row.id)) = false := by
        rw [List.any_eq_false]
        exact List.find?_eq_none.mp hnone
      split at hop
      · cases hop
      · rw [if_neg (by rw [hany]; simp)] at hop
        obtain rfl : _ = q := congrArg Prod.snd (Except.ok.inj hop)
        simp [Store.task, PostgresStorage.getTask, parseUuid, huuid, List.find?_append,
          hnone, PostgresStorage.readTask_of_row hstored hstatus]

/-- `insert_result` stores a result under the given id, the text of a UUID. -/
theorem Store.insertResult_result {result : StoredResult}
    (hcanonical : lib.parseUuid result.id = some result.id)
    (h : s.insertResult lib result = .ok (u, s')) : s'.result result.id ≠ none := by
  cases s with
  | memory m =>
      obtain rfl : _ = s' := congrArg Prod.snd (Except.ok.inj h)
      simp [Store.result, lookup_hashInsert]
  | postgres db p =>
      obtain ⟨q, hop, rfl⟩ := postgres_map_eq_ok h
      obtain ⟨id, hid, hop⟩ := bind_eq_ok.mp hop
      obtain rfl : id = result.id := by
        simpa [parseUuid, hcanonical, eq_comm] using hid
      obtain ⟨taskId, -, hop⟩ := bind_eq_ok.mp hop
      have hmem : ∃ r ∈ q.results, r.id = result.id := by
        split at hop
        · cases hop
        · split at hop
          · next hany =>
              obtain rfl : _ = q := congrArg Prod.snd (Except.ok.inj hop)
              obtain ⟨r, hr, htask⟩ := List.any_eq_true.mp hany
              refine ⟨⟨result.id, taskId, .ok result⟩, List.mem_map.mpr ⟨r, hr, ?_⟩, rfl⟩
              rw [if_pos (by simpa using htask)]
          · split at hop
            · cases hop
            · obtain rfl : _ = q := congrArg Prod.snd (Except.ok.inj hop)
              exact ⟨_, List.mem_append_right _ (List.mem_singleton.mpr rfl), rfl⟩
      obtain ⟨r, hr, hrid⟩ := hmem
      have hsome : (q.results.find? fun r => decide (r.id = result.id)).isSome = true :=
        List.find?_isSome.mpr ⟨r, hr, by simpa using hrid⟩
      intro hnone
      rw [Store.result, Option.map_eq_none_iff] at hnone
      rw [hnone] at hsome
      cases hsome

end Writes

/-! ## The three handlers -/

section Handlers

variable (lib : Libraries) (draws : Draws) (engine : ExecutionEngine)

/-- A request to one of the handlers that write tasks and results. -/
inductive WriteRequest where
  /-- `submit_task`. -/
  | task (payload : TaskSubmissionRequest)
  /-- `submit_result`. -/
  | result (payload : ResultSubmissionRequest)
  /-- `execute_task_local`. -/
  | execute (id : String)

/-- The handler of a request, without the body of its response. -/
def WriteRequest.run : WriteRequest → Handler Unit
  | .task payload => do
      let _ ← submitTask lib draws payload
  | .result payload => do
      let _ ← submitResult lib draws payload
  | .execute id => do
      let _ ← executeTaskLocal lib draws engine id

/-- What the request draws is fresh: its UUID is canonical text, and no task or result has it. -/
structure Draws.Fresh (lib : Libraries) (draws : Draws) (s : Store) : Prop where
  canonical : lib.parseUuid (draws.uuid 0) = some (draws.uuid 0)
  task : s.IsFree lib (draws.uuid 0)
  result : s.result (draws.uuid 0) = none

/-- Neither write of a result changes anything: the completed task is not written, or is stored
as it is and the result is not written. The first of the two is the `n`-th call. -/
def StoresNothing (fates : Nat → Fate ApiError) (n : Nat) (s : Store) (task : StoredTask)
    (stored : StoredResult) : Prop :=
  ∀ s', performed (fates n) (s.upsertTask lib { task with status := .completed })
      = some ((), s') →
    s.task lib task.id = .ok { task with status := .completed } ∧
      performed (fates (n + 1)) (s'.insertResult lib stored) = none

/-- The request breaks off before its first write, or has only completed a task that was
completed already. -/
def WriteRequest.Untouched (fates : Nat → Fate ApiError) (s : Store) : WriteRequest → Prop
  | .task payload =>
      ∀ stored, StoredTask.fromSubmission lib draws payload = .ok stored →
        performed (fates 0) (s.insertTask lib stored) = none
  | .result payload =>
      ∀ task stored, performed (fates 0) (s.getTask lib payload.taskId) = some (task, s) →
        StoredResult.fromSubmission lib draws payload task = .ok stored →
        StoresNothing lib fates 1 s task stored
  | .execute id =>
      ∀ task stored, performed (fates 0) (s.getTask lib id) = some (task, s) →
        executeAndBuildResult lib draws engine task "local-echo" = .ok stored →
        StoresNothing lib fates 1 s task stored

variable {lib draws engine} {fates : Nat → Fate ApiError} {s : Store}

/-- The insert of `submit_task`, seen from the records. -/
theorem insertTask_records {α : Type} {n : Nat} {stored : StoredTask} {f : Unit → Handler α}
    (hf : ∀ a, Keeps (records lib) (f a)) (hfree : s.IsFree lib stored.id) :
    records lib ((Request.call (Store.insertTask lib stored) >>= f) fates n s).2.2
        = records lib s ↔
      performed (fates n) (s.insertTask lib stored) = none := by
  rw [Request.bind_keeps hf, Request.call_store]
  cases hp : performed (fates n) (s.insertTask lib stored) with
  | none => simp
  | some r =>
      obtain ⟨u, s'⟩ := r
      refine iff_of_false (fun hsame => ?_) (by simp)
      have hnew := Store.insertTask_task hfree (Request.performed_eq_some.mp hp).2
      have hid : s'.task lib stored.id = s.task lib stored.id :=
        congrFun (congrArg Prod.fst hsame) stored.id
      rw [hnew, hfree] at hid
      cases hid

/-- The two writes of a result, seen from the records. -/
theorem storeResult_records {α : Type} {n : Nat} {task : StoredTask} {stored : StoredResult}
    {f : Unit → Handler α} (hf : ∀ a, Keeps (records lib) (f a))
    (hcanonical : lib.parseUuid stored.id = some stored.id) (hnone : s.result stored.id = none) :
    records lib ((storeResult lib task stored >>= f) fates n s).2.2 = records lib s ↔
      StoresNothing lib fates n s task stored := by
  rw [Request.bind_keeps hf]
  unfold StoresNothing storeResult
  cases hp : performed (fates n) (s.upsertTask lib { task with status := .completed }) with
  | none => simp [(Request.call_bind_of_not_performed hp).1]
  | some r =>
      obtain ⟨u, s₁⟩ := r
      have hupsert := (Request.performed_eq_some.mp hp).2
      rw [Request.call_bind_of_performed hp, Request.call_store]
      cases hq : performed (fates (n + 1)) (s₁.insertResult lib stored) with
      | none =>
          simp only [Option.elim_none, Store.upsertTask_records hupsert, Option.some.injEq,
            Prod.mk.injEq, true_and, forall_eq']
          simp [hq]
      | some r' =>
          obtain ⟨u', s₂⟩ := r'
          refine iff_of_false (fun hsame => ?_) fun hnothing => ?_
          · have hnew := Store.insertResult_result hcanonical (Request.performed_eq_some.mp hq).2
            have hid : s₂.result stored.id = s.result stored.id :=
              congrFun (congrArg Prod.snd hsame) stored.id
            exact hnew (hid.trans hnone)
          · have hno := (hnothing s₁ rfl).2
            rw [hq] at hno
            cases hno

/-- A read, and then the two writes of a result. -/
theorem readThenStore_records {α : Type} {id : String}
    {build : StoredTask → Except ApiError StoredResult}
    {f : StoredResult → Unit → Handler α} (hf : ∀ stored a, Keeps (records lib) (f stored a))
    (hfresh : draws.Fresh lib s)
    (hid : ∀ task stored, build task = .ok stored → stored.id = draws.uuid 0) :
    records lib ((do
        let task ← Request.call (Store.getTask lib id)
        let stored ← Request.ofExcept (build task)
        let a ← storeResult lib task stored
        f stored a : Handler α) fates 0 s).2.2 = records lib s ↔
      ∀ task stored, performed (fates 0) (s.getTask lib id) = some (task, s) →
        build task = .ok stored → StoresNothing lib fates 1 s task stored := by
  cases hp : performed (fates 0) (s.getTask lib id) with
  | none => simp [(Request.call_bind_of_not_performed hp).1]
  | some r =>
      obtain ⟨task, s'⟩ := r
      obtain rfl : s' = s := by
        have hget := (Request.performed_eq_some.mp hp).2
        unfold Store.getTask at hget
        cases htask : s.task lib id with
        | error e => simp [htask, Except.map] at hget
        | ok t =>
            obtain ⟨-, rfl⟩ : t = task ∧ s = s' := by simpa [htask, Except.map] using hget
            rfl
      rw [Request.call_bind_of_performed hp, Request.ofExcept_bind]
      cases hbuild : build task with
      | error e =>
          refine iff_of_true rfl fun task' stored htask hok => ?_
          obtain rfl : task = task' := congrArg Prod.fst (Option.some.inj htask)
          rw [hbuild] at hok
          cases hok
      | ok stored =>
          have hstored := hid task stored hbuild
          simp only [storeResult_records (hf stored) (hstored ▸ hfresh.canonical)
            (hstored ▸ hfresh.result), Option.some.injEq, Prod.mk.injEq, and_true]
          constructor
          · rintro hnothing _ _ rfl hok
            rw [hbuild] at hok
            rwa [← Except.ok.inj hok]
          · intro hall
            exact hall task stored rfl hbuild

/-- **A request that does not reach its `Ok` leaves the stored tasks and results as they were
exactly when it breaks off before its first write, or has only completed a task that was
completed already.** -/
theorem failed_untouched_iff (lib : Libraries) (draws : Draws) (engine : ExecutionEngine)
    (fates : Nat → Fate ApiError) (s : Store) (req : WriteRequest)
    (hfresh : draws.Fresh lib s) :
    (req.run lib draws engine fates 0 s).1.isOk = false →
      (records lib (req.run lib draws engine fates 0 s).2.2 = records lib s ↔
        req.Untouched lib draws engine fates s) := by
  intro _
  have hend : ∀ {α : Type} (m : Handler α),
      records lib ((m >>= fun _ => pure () : Handler Unit) fates 0 s).2.2
        = records lib (m fates 0 s).2.2 :=
    fun m => Request.bind_keeps (fun _ => Request.keeps_pure ()) fates 0 s
  cases req with
  | task payload =>
      have hprepare : records lib (submitTask lib draws payload fates 0 s).2.2
          = records lib (prepareSubmitTask lib draws payload fates 0 s).2.2 :=
        Request.bind_keeps (keeps_respond ignoresOutbox_records) fates 0 s
      rw [show (WriteRequest.task payload).run lib draws engine
        = (submitTask lib draws payload >>= fun _ => pure ()) from rfl, hend, hprepare,
        prepareSubmitTask, Request.ofExcept_bind]
      cases hbuild : StoredTask.fromSubmission lib draws payload with
      | error e => simp [WriteRequest.Untouched, hbuild]
      | ok stored =>
          have hfree : s.IsFree lib stored.id := by
            rw [StoredTask.fromSubmission_id hbuild]
            exact hfresh.task
          simp only [WriteRequest.Untouched, hbuild, Except.ok.injEq, forall_eq']
          exact insertTask_records (fun _ => Request.keeps_bind (keeps_createTaskOutgoing stored)
            fun _ => Request.keeps_pure _) hfree
  | result payload =>
      have hprepare : records lib (submitResult lib draws payload fates 0 s).2.2
          = records lib (prepareSubmitResult lib draws payload fates 0 s).2.2 :=
        Request.bind_keeps (keeps_respond ignoresOutbox_records) fates 0 s
      rw [show (WriteRequest.result payload).run lib draws engine
        = (submitResult lib draws payload >>= fun _ => pure ()) from rfl, hend, hprepare]
      exact readThenStore_records (fun stored _ => Request.keeps_bind
        (keeps_submitResultOutgoing _) fun _ => Request.keeps_pure _) hfresh
        fun task stored => StoredResult.fromSubmission_id
  | execute id =>
      rw [show (WriteRequest.execute id).run lib draws engine
        = (executeTaskLocal lib draws engine id >>= fun _ => pure ()) from rfl, hend]
      refine readThenStore_records (fun stored _ => Request.keeps_pure _) hfresh
        fun task stored hbuild => ?_
      obtain ⟨output, -, hsubmit⟩ := bind_eq_ok.mp hbuild
      exact StoredResult.fromSubmission_id hsubmit

end Handlers

/-! ## A task that outlives its request -/

/-- Postgres refuses a budget above `i64::MAX` before anything is written. -/
theorem overBudget_untouched :
    ((WriteRequest.task (taskWithBudget 9223372036854775808)).run (sampleLibraries []) sampleDraws
        (fun _ => .ok []) (fun _ => .proceed) 0 (.postgres Storage.migrated emptyPostgres)).1.isOk
      = false ∧
    (records (sampleLibraries []) ((WriteRequest.task (taskWithBudget 9223372036854775808)).run
        (sampleLibraries []) sampleDraws (fun _ => .ok []) (fun _ => .proceed) 0
        (.postgres Storage.migrated emptyPostgres)).2.2
          = records (sampleLibraries []) (.postgres Storage.migrated emptyPostgres) ↔
      (WriteRequest.task (taskWithBudget 9223372036854775808)).Untouched (sampleLibraries [])
        sampleDraws (fun _ => .ok []) (fun _ => .proceed)
        (.postgres Storage.migrated emptyPostgres)) :=
  ⟨rfl, failed_untouched_iff (sampleLibraries []) sampleDraws (fun _ => .ok [])
    (fun _ => .proceed) (.postgres Storage.migrated emptyPostgres)
    (.task (taskWithBudget 9223372036854775808)) ⟨rfl, rfl, rfl⟩ rfl⟩

/-- **In memory, a task with a budget above `u64::MAX` is stored before `json!` panics.** -/
theorem panickedTask_stored :
    ¬ ∀ (lib : Libraries) (draws : Draws) (engine : ExecutionEngine)
        (fates : Nat → Fate ApiError) (s : Store) (req : WriteRequest), draws.Fresh lib s →
      (req.run lib draws engine fates 0 s).1.isOk = false →
      records lib (req.run lib draws engine fates 0 s).2.2 = records lib s := by
  intro hall
  have hsame := hall (sampleLibraries []) sampleDraws (fun _ => .ok []) (fun _ => .proceed)
    (.memory .default) (.task (taskWithBudget 18446744073709551616)) ⟨rfl, rfl, rfl⟩ rfl
  have htask := congrFun (congrArg Prod.fst hsame) (sampleDraws.uuid 0)
  have hbefore : (records (sampleLibraries []) (.memory .default)).1 (sampleDraws.uuid 0)
      = .error (.notFound s!"task {sampleDraws.uuid 0} not found") := rfl
  have hafter : (records (sampleLibraries []) ((WriteRequest.task
      (taskWithBudget 18446744073709551616)).run (sampleLibraries []) sampleDraws (fun _ => .ok [])
      (fun _ => .proceed) 0 (.memory .default)).2.2).1 (sampleDraws.uuid 0)
      = StoredTask.fromSubmission (sampleLibraries []) sampleDraws
          (taskWithBudget 18446744073709551616) := rfl
  rw [hbefore, hafter] at htask
  cases htask

end Ainur
