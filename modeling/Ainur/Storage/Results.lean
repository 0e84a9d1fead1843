import Ainur.Lib.Keyed
import Ainur.Storage.Records

set_option autoImplicit false

/-! # Results in Postgres

`insert_result` writes the result of a task over the one before it, with `ON CONFLICT (task_id)`,
and `get_result_for_task` reads the one row there is. Both rest on a unique key on
`results (task_id)`: over a schema that has it the last result of a task is the one that is read,
and over the schema of the migrations, which has `(task_id, agent_id)` instead, nothing is ever
inserted.
-/

namespace Ainur

open Storage (Database)

namespace PostgresStorage

/-- `get_result_for_task`. -/
def getResultForTask (lib : Libraries) (p : PostgresStorage) (taskId : String) :
    Except ApiError StoredResult := do
  let uuid ← parseUuid lib taskId "task id"
  let row ← Fallible.okOr (p.results.find? fun r => r.taskId = uuid)
    (.notFound s!"no result for task {taskId}")
  row.stored.mapError fun e => .internal s!"failed to decode result: {e}"

/-- The results of a sequence, inserted one after the other. -/
def insertResults (lib : Libraries) (db : Database) (p : PostgresStorage)
    (rs : List StoredResult) : Except ApiError PostgresStorage :=
  rs.foldlM (fun q r => (q.insertResult lib db r).map Prod.snd) p

/-- The rows of a task. -/
def resultRows (p : PostgresStorage) (uuid : String) : Nat :=
  p.results.countP fun r => r.taskId = uuid

/-- Every call succeeds, the table then holds one row for the task, and the last result is
read. -/
def OneLatest (lib : Libraries) (db : Database) (p : PostgresStorage) (taskId : String)
    (rs : List StoredResult) : Prop :=
  ∃ q uuid last, p.insertResults lib db rs = .ok q ∧ lib.parseUuid taskId = some uuid ∧
    q.resultRows uuid = 1 ∧ rs.getLast? = some last ∧ q.getResultForTask lib taskId = .ok last

/-! ## One insert -/

section Insert

variable {lib : Libraries} {db : Database} {p : PostgresStorage} {uuid : String}
  {result : StoredResult}

/-- The result of a task, where its row can be read. -/
def currentResult (p : PostgresStorage) (uuid : String) : Option (Except String StoredResult) :=
  (p.results.find? fun r => r.taskId = uuid).map ResultRow.stored

/-- A refused statement inserts nothing. -/
theorem insertResult_refused (h : db.accepts Storage.insertResultSql = false) :
    ∃ e, p.insertResult lib db result = .error e := by
  unfold insertResult
  cases parseUuid lib result.id "result id" with
  | error e => exact ⟨e, rfl⟩
  | ok id =>
      rw [Fallible.ok_bind]
      cases parseUuid lib result.taskId "result task_id" with
      | error e => exact ⟨e, rfl⟩
      | ok taskId =>
          rw [Fallible.ok_bind, h]
          exact ⟨_, rfl⟩

/-- The table with the row of a task replaced. -/
def replaceResult (p : PostgresStorage) (uuid : String) (row : ResultRow) : PostgresStorage :=
  { p with results := p.results.map fun r => if r.taskId = uuid then row else r }

theorem replaceResult_spec {row : ResultRow} (hrow : row.taskId = uuid)
    (hany : (p.results.any fun r => r.taskId = uuid) = true) :
    (p.replaceResult uuid row).resultRows uuid = p.resultRows uuid ∧
      (p.replaceResult uuid row).currentResult uuid = some row.stored := by
  -- the rewritten rows are rows of the same tasks
  have hsame : ∀ r : ResultRow, (if r.taskId = uuid then row else r).taskId = r.taskId := by
    intro r
    split
    · next h => rw [hrow, h]
    · rfl
  constructor
  · rw [resultRows, replaceResult, List.countP_map, Function.comp_def]
    simp only [hsame]
    rfl
  · obtain ⟨found, hfound, hkey⟩ := Keyed.exists_find ResultRow.taskId hany
    rw [currentResult, replaceResult, Keyed.find_map ResultRow.taskId hsame, hfound,
      Option.map_some, Option.map_some, if_pos hkey]

/-- The table with a row at the end. -/
def addResult (p : PostgresStorage) (row : ResultRow) : PostgresStorage :=
  { p with results := p.results ++ [row] }

theorem addResult_spec {row : ResultRow} (hrow : row.taskId = uuid)
    (hnone : ¬ (p.results.any fun r => r.taskId = uuid) = true) :
    (p.addResult row).resultRows uuid = 1 ∧
      (p.addResult row).currentResult uuid = some row.stored := by
  have hfind := Keyed.not_find ResultRow.taskId hnone
  constructor
  · have hzero : p.results.countP (fun r => r.taskId = uuid) = 0 :=
      List.countP_eq_zero.mpr (List.find?_eq_none.mp hfind)
    simp [resultRows, addResult, List.countP_append, hzero, hrow]
  · rw [← hrow] at hfind
    rw [currentResult, addResult, ← hrow, Keyed.find_append ResultRow.taskId hfind,
      Option.map_some]

/-- With a unique key, the result of a stored task takes the place of the one before it. -/
theorem insertResult_accepted (hdb : db.accepts Storage.insertResultSql = true)
    (hid : (lib.parseUuid result.id).isSome = true) (htask : lib.parseUuid result.taskId = some uuid)
    (hstored : (p.tasks.any fun r => r.id = uuid) = true) (hone : p.resultRows uuid ≤ 1) :
    ∃ q, p.insertResult lib db result = .ok ((), q) ∧ q.tasks = p.tasks ∧
      q.resultRows uuid = 1 ∧ q.currentResult uuid = some (.ok result) := by
  obtain ⟨id, hid⟩ := Option.isSome_iff_exists.mp hid
  have hparse : p.insertResult lib db result =
      if p.results.any fun r => r.taskId = uuid then
        .ok ((), p.replaceResult uuid ⟨id, uuid, .ok result⟩)
      else .ok ((), p.addResult ⟨id, uuid, .ok result⟩) := by
    rw [insertResult, parseUuid, parseUuid, hid, htask]
    simp only [Fallible.okOr_some, Fallible.ok_bind, hdb, hstored, Bool.not_true,
      Bool.false_eq_true, if_false]
    rfl
  rw [hparse]
  by_cases hany : (p.results.any fun r => r.taskId = uuid) = true
  · rw [if_pos hany]
    obtain ⟨hrows, hcurrent⟩ := @replaceResult_spec p uuid ⟨id, uuid, .ok result⟩ rfl hany
    have hpos : 0 < p.resultRows uuid := by
      obtain ⟨r, hr, hr'⟩ := List.any_eq_true.mp hany
      exact List.countP_pos_iff.mpr ⟨r, hr, hr'⟩
    exact ⟨_, rfl, rfl, hrows.trans (Nat.le_antisymm hone hpos), hcurrent⟩
  · rw [if_neg hany]
    obtain ⟨hrows, hcurrent⟩ := @addResult_spec p uuid ⟨id, uuid, .ok result⟩ rfl hany
    exact ⟨_, rfl, rfl, hrows, hcurrent⟩

end Insert

/-! ## A sequence of them -/

section Sequence

variable {lib : Libraries} {db : Database} {taskId uuid : String} {rs : List StoredResult}

theorem insertResults_cons {p : PostgresStorage} {r : StoredResult} :
    p.insertResults lib db (r :: rs) =
      ((p.insertResult lib db r).map Prod.snd >>= fun q => q.insertResults lib db rs) := rfl

/-- With a unique key, every insert succeeds and the last one is the one that counts. -/
theorem insertResults_accepted (hdb : db.accepts Storage.insertResultSql = true)
    (hrs : ∀ r ∈ rs, (lib.parseUuid r.id).isSome = true ∧ lib.parseUuid r.taskId = some uuid)
    {p : PostgresStorage} (hstored : (p.tasks.any fun r => r.id = uuid) = true)
    (hone : p.resultRows uuid ≤ 1) :
    ∃ q, p.insertResults lib db rs = .ok q ∧
      ∀ last, rs.getLast? = some last →
        q.resultRows uuid = 1 ∧ q.currentResult uuid = some (.ok last) := by
  -- along the sequence the task stays stored and has at most one row
  induction rs generalizing p with
  | nil => exact ⟨p, rfl, fun last h => by cases h⟩
  | cons r rs ih =>
      obtain ⟨hid, htask⟩ := hrs r List.mem_cons_self
      obtain ⟨q, hq, htasks, hrows, hcurrent⟩ := insertResult_accepted hdb hid htask hstored hone
      obtain ⟨q', hq', hlast⟩ := ih (fun r' hr' => hrs r' (List.mem_cons_of_mem _ hr'))
        (p := q) (by rw [htasks]; exact hstored) (Nat.le_of_eq hrows)
      refine ⟨q', ?_, fun last h => ?_⟩
      · rw [insertResults_cons, hq]
        exact hq'
      · cases rs with
        | nil =>
            obtain rfl : r = last := by simpa using h
            obtain rfl : q = q' := Except.ok.inj hq'
            exact ⟨hrows, hcurrent⟩
        | cons r' rs => exact hlast last (by rwa [List.getLast?_cons_cons] at h)

theorem getResultForTask_eq {p : PostgresStorage} {result : StoredResult}
    (hparse : lib.parseUuid taskId = some uuid)
    (h : p.currentResult uuid = some (.ok result)) : p.getResultForTask lib taskId = .ok result := by
  obtain ⟨row, hrow, hstored⟩ := Option.map_eq_some_iff.mp h
  rw [getResultForTask, parseUuid, hparse]
  simp only [Fallible.okOr_some, Fallible.ok_bind, hrow, hstored, Fallible.mapError_ok]

/-- No sequence has its latest result read where the statement is refused. -/
theorem not_oneLatest (hdb : db.accepts Storage.insertResultSql = false) (p : PostgresStorage) :
    ¬ p.OneLatest lib db taskId rs := by
  rintro ⟨q, _, last, hq, -, -, hlast, -⟩
  cases rs with
  | nil => cases hlast
  | cons r rs =>
      obtain ⟨e, he⟩ : ∃ e, p.insertResult lib db r = .error e := insertResult_refused hdb
      rw [insertResults_cons, he] at hq
      cases hq

/-- Of a stored task, with at most one result so far, the latest of its results is read exactly
where the schema has the unique key that the statement names. -/
theorem oneLatest_iff_accepts {p : PostgresStorage} (hne : rs ≠ [])
    (hparse : lib.parseUuid taskId = some uuid)
    (hrs : ∀ r ∈ rs, (lib.parseUuid r.id).isSome = true ∧ lib.parseUuid r.taskId = some uuid)
    (hstored : (p.tasks.any fun r => r.id = uuid) = true) (hone : p.resultRows uuid ≤ 1) :
    p.OneLatest lib db taskId rs ↔ db.accepts Storage.insertResultSql = true := by
  constructor
  · intro h
    by_contra hdb
    exact not_oneLatest (Bool.eq_false_iff.mpr hdb) p h
  · intro hdb
    obtain ⟨q, hq, hlast⟩ := insertResults_accepted hdb hrs hstored hone
    have hl := List.getLast?_eq_some_getLast hne
    obtain ⟨hrows, hcurrent⟩ := hlast _ hl
    exact ⟨q, uuid, _, hq, hparse, hrows, hl, getResultForTask_eq hparse hcurrent⟩

end Sequence

/-! ## The schema of the migrations -/

/-- `results` is unique on its id and on the pair of task and agent, not on the task. -/
theorem migrated_insertResult : Storage.migrated.accepts Storage.insertResultSql = false := by
  decide

/-- **No result is ever inserted**, so no task has its latest result read: over the schema of the
migrations every call of `insert_result` fails. -/
theorem migrated_never_oneLatest (lib : Libraries) :
    (∀ (p : PostgresStorage) (result : StoredResult),
      ∃ e, p.insertResult lib Storage.migrated result = .error e) ∧
    ∀ (p : PostgresStorage) (taskId : String) (rs : List StoredResult),
      ¬ p.OneLatest lib Storage.migrated taskId rs :=
  ⟨fun _ _ => insertResult_refused migrated_insertResult,
    fun p _ _ => not_oneLatest migrated_insertResult p⟩

/-- A result of a task. -/
def resultOf (id taskId : String) : StoredResult where
  id := id
  taskId := taskId
  agentId := "agent-1"
  result := buildCoreResult (sampleLibraries []) sampleDraws ⟨taskId, "agent-1", ""⟩
    (buildCoreTask (sampleLibraries []) sampleDraws (taskWithBudget 5) []) []
  createdAt := sampleDraws.now

/-- Tables with one task in them. -/
def oneTask : PostgresStorage where
  agents := []
  tasks := [⟨sampleDraws.uuid 0, .ok ⟨sampleDraws.uuid 0, none,
    buildCoreTask (sampleLibraries []) sampleDraws (taskWithBudget 5) [], .pending,
    sampleDraws.now⟩, "pending", 1700000000, none, none, none⟩]
  bids := []
  results := []
  outbox := []

/-- **The first result of a stored task is refused.** -/
theorem oneTask_not_oneLatest :
    (oneTask.tasks.any fun r => r.id = sampleDraws.uuid 0) = true ∧
      ¬ oneTask.OneLatest (sampleLibraries []) Storage.migrated (sampleDraws.uuid 0)
        [resultOf "7d444840-9dc0-11d1-b245-5ffdce74fad2" (sampleDraws.uuid 0)] :=
  ⟨by decide, not_oneLatest migrated_insertResult oneTask⟩

end PostgresStorage

end Ainur
