import Ainur.Lib.Cast
import Ainur.Api.Handlers
import Ainur.Bridge.Events
import Ainur.Storage.RoundTrip

set_option autoImplicit false

/-! # The tasks that the replay worker mirrors

On `TaskCreated` the worker writes the JSON of a task by hand, and `get_task` and `list_tasks` read
it with the derived decoder of `StoredTask`.
-/

namespace Ainur.Bridge

open Serde (mapOf)

/-- The event, with the account of the requester as text. -/
structure TaskCreated where
  taskId : UInt64
  requester : String
  budget : Nat
  deriving DecidableEq, Repr

/-- The members of `stored_json` that stand under `task`. -/
def stubTask (e : TaskCreated) (maxCost : Value) : Value :=
  .object (mapOf
    [("requester", .string s!"did:ainur:{e.requester}"),
      ("specification", .object (mapOf
        [("description", .string s!"chain task {e.taskId.toNat}"),
          ("task_type", .object (mapOf [("custom", .string "chain")])), ("input", .array []),
          ("output_format", .string "binary"), ("metadata", .array [])])),
      ("budget", .object (mapOf [("max_cost", maxCost), ("currency", .null)])),
      ("requirements", .object (mapOf
        [("capabilities", .array []), ("verification", .string "unknown"), ("deadline", jsonInt 0),
          ("trust", .null)])),
      ("deadline", jsonInt 0)])

/-- `stored_json` of the stub; `none` where `json!` panics on the budget. -/
def stubJson (e : TaskCreated) (generatedId : String) (createdAt : Int) : Option Value :=
  (jsonU128 e.budget).map fun maxCost => .object (mapOf
    [("id", .string generatedId), ("client_task_id", .null), ("task", stubTask e maxCost),
      ("status", .string "pending"), ("created_at", jsonInt createdAt)])

theorem exists_stubJson {e : TaskCreated} (generatedId : String) (createdAt : Int)
    (h : e.budget ≤ u64Max.toNat) : ∃ v, stubJson e generatedId createdAt = some v := by
  rw [stubJson, jsonU128, if_pos h]
  exact ⟨_, rfl⟩

/-! ## Decoding a stub -/

/-- The members of the budget, `max_cost` and `currency`, are fine, but there is a third field. -/
theorem stubBudget_error (n : UInt64) :
    Core.Budget.format.deserialize
        (.object (mapOf [("max_cost", jsonU64 n), ("currency", .null)])) =
      .error (Serde.missingField "payment_schedule") := by
  have hcost : Serde.u128.deserialize (jsonU64 n) = .ok n.toNat := by
    have hle : n.toNat ≤ 18446744073709551615 := Nat.le_of_lt_succ n.toNat_lt
    simp only [Serde.u128, jsonU64, Serde.readUnsigned]
    rw [if_pos (by omega)]
  have hmap : mapOf [("max_cost", jsonU64 n), ("currency", .null)] =
      [("currency", .null), ("max_cost", jsonU64 n)] := by
    simp [mapOf, Serde.insertMember, Serde.keyLt, List.lex]
  rw [hmap]
  simp [Core.Budget.format, Serde.Codec.struct, Serde.Fields.ofObject, Serde.Fields.and,
    Serde.Fields.field, Serde.Fields.visitField, hcost, Except.map, List.lookup_cons, bind,
    Except.bind, pure, Except.pure]

/-- The budget is the first member of the task that is decoded. -/
theorem stubTask_error (e : TaskCreated) (n : UInt64) :
    Core.Task.format.deserialize (stubTask e (jsonU64 n)) =
      .error (Serde.missingField "payment_schedule") := by
  obtain ⟨rest, hrest⟩ : ∃ rest, stubTask e (jsonU64 n) = .object
      (("budget", .object (mapOf [("max_cost", jsonU64 n), ("currency", .null)])) :: rest) :=
    ⟨_, by rw [stubTask]; simp [mapOf, Serde.insertMember, Serde.keyLt, List.lex]; rfl⟩
  rw [hrest]
  simp only [Core.Task.format, Serde.Codec.struct]
  rw [Serde.Fields.ofObject_of_visit]
  · rfl
  · simp [Serde.Fields.and, Serde.Fields.field, Serde.Fields.visitField, stubBudget_error,
      Except.map, bind, Except.bind]

/-- The task is the last of the members; before it stands only one that can fail as well. -/
theorem stub_error {e : TaskCreated} {generatedId : String} {createdAt : Int} {v : Value}
    (h : stubJson e generatedId createdAt = some v) :
    ∃ err, StoredTask.format.deserialize v = .error err ∧
      (0 ≤ createdAt → err = Serde.missingField "payment_schedule") := by
  obtain ⟨maxCost, hcost, rfl⟩ := Option.map_eq_some_iff.mp h
  obtain ⟨n, rfl⟩ : ∃ n, maxCost = jsonU64 n := by
    unfold jsonU128 at hcost
    split at hcost
    · exact ⟨_, (Option.some.inj hcost).symm⟩
    · cases hcost
  have hmap : mapOf [("id", .string generatedId), ("client_task_id", .null),
      ("task", stubTask e (jsonU64 n)), ("status", .string "pending"),
      ("created_at", jsonInt createdAt)] = [("client_task_id", .null),
        ("created_at", jsonInt createdAt), ("id", .string generatedId),
        ("status", .string "pending"), ("task", stubTask e (jsonU64 n))] := by
    simp [mapOf, Serde.insertMember, Serde.keyLt, List.lex]
  rw [hmap]
  have hstatus : TaskStatus.format.deserialize (.string "pending") = .ok .pending := rfl
  have hclient : (Serde.option Serde.string).deserialize .null = .ok none := rfl
  have hid : Serde.string.deserialize (.string generatedId) = .ok generatedId := rfl
  cases createdAt with
  -- `created_at` is decoded before the task, and a `u64` is not negative
  | negSucc k =>
      have hcreated : Serde.u64.deserialize (jsonInt (.negSucc k)) =
        .error (Serde.invalidValue (.number (.negInt k)) "u64") := rfl
      refine ⟨Serde.invalidValue (.number (.negInt k)) "u64", ?_, fun hle => absurd hle (by omega)⟩
      simp [StoredTask.format, Serde.Codec.struct, Serde.Fields.ofObject, Serde.Fields.and,
        Serde.Fields.field, Serde.Fields.optional, Serde.Fields.visitField, Except.map, bind,
        Except.bind, hclient, hcreated]
  | ofNat k =>
      obtain ⟨m, hcreated⟩ : ∃ m, Serde.u64.deserialize (jsonInt (k : Int)) = .ok m := by
        have hle : (UInt64.ofNat k).toNat ≤ 18446744073709551615 :=
          Nat.le_of_lt_succ (UInt64.ofNat k).toNat_lt
        refine ⟨UInt64.ofNat (UInt64.ofNat k).toNat, ?_⟩
        show (Serde.readUnsigned "u64" _ (.number (.posInt (UInt64.ofNat k)))).map _ = _
        simp only [Serde.readUnsigned, if_pos hle, Except.map]
      refine ⟨_, ?_, fun _ => rfl⟩
      simp [StoredTask.format, Serde.Codec.struct, Serde.Fields.ofObject, Serde.Fields.and,
        Serde.Fields.field, Serde.Fields.optional, Serde.Fields.visitField, Except.map, bind,
        Except.bind, hclient, hcreated, hid, hstatus, stubTask_error]

/-! ## The row of a stub -/

/-- The row that the worker inserts. -/
def stubDocument (e : TaskCreated) (generatedId : String) (createdAt : Int) (storedJson : Value) :
    TaskDocument where
  id := generatedId
  storedJson := storedJson
  status := "pending"
  createdAt := createdAt
  chainTaskId := some (asI64 e.taskId)
  resultHash := none
  matchedAgent := none

/-- Decoded, it is the row that `mirrorTask` writes. -/
theorem stubDocument_row {e : TaskCreated} {d : Delivery} {v : Value}
    (h : stubJson e d.generatedId d.now = some v) (hnow : 0 ≤ d.now) :
    (stubDocument e d.generatedId d.now v).row = mirroredTask d (asI64 e.taskId) := by
  obtain ⟨err, herr, hmessage⟩ := stub_error h
  unfold TaskDocument.row stubDocument mirroredTask
  rw [herr, hmessage hnow]
  rfl

/-- The row holds a task that the API has serialized, with a status that the mirror may have
changed since. -/
def Serialized (doc : TaskDocument) : Prop :=
  ∃ task status, StoredTask.format.serialize task = .ok doc.storedJson ∧
    doc.status = statusToStr status

/-- The row holds a stub. -/
def IsStub (doc : TaskDocument) : Prop :=
  ∃ e generatedId createdAt status, stubJson e generatedId createdAt = some doc.storedJson ∧
    doc.status = statusToStr status

theorem readTask_of_serialized {doc : TaskDocument} (h : Serialized doc) :
    ∃ task, Documents.readTask doc = .ok task := by
  obtain ⟨task, status, htask, hstatus⟩ := h
  have hread : StoredTask.format.deserialize doc.storedJson = .ok task := by
    rcases Documents.serialize_task task with ⟨-, v, hv, hread⟩ | ⟨e, -, herr⟩
    · rw [serialize, htask] at hv
      rw [Except.ok.inj hv, hread]
    · rw [serialize, htask] at herr
      cases herr
  refine ⟨{ task with status := status }, ?_⟩
  unfold Documents.readTask
  rw [hread, hstatus, strToStatus_statusToStr]
  rfl

theorem readTask_of_isStub {doc : TaskDocument} (h : IsStub doc) (task : StoredTask) :
    Documents.readTask doc ≠ .ok task := by
  obtain ⟨e, generatedId, createdAt, -, hjson, -⟩ := h
  obtain ⟨err, herr, -⟩ := stub_error hjson
  unfold Documents.readTask
  rw [herr]
  intro hok
  cases hok

/-- **A mirrored task is never read back**, and the tasks are listed exactly as long as there is
none of them. -/
theorem mirroredTask_never_read (e : TaskCreated) (generatedId : String) (createdAt : Int)
    (p : Documents) :
    (e.budget ≤ u64Max.toNat →
      ∃ v, stubJson e generatedId createdAt = some v ∧
        ∀ task, StoredTask.format.deserialize v ≠ .ok task) ∧
    ((∀ doc ∈ p.tasks, Serialized doc ∨ IsStub doc) →
      ((∃ tasks, p.listTasks = .ok tasks ∧ tasks.length = p.tasks.length) ↔
        ∀ doc ∈ p.tasks, ¬ IsStub doc)) := by
  refine ⟨fun hbudget => ?_, fun hrows => ?_⟩
  · obtain ⟨v, hv⟩ := exists_stubJson generatedId createdAt hbudget
    refine ⟨v, hv, fun task hok => ?_⟩
    obtain ⟨err, herr, -⟩ := stub_error hv
    rw [herr] at hok
    cases hok
  · have hperm := List.mergeSort_perm p.tasks fun a b => b.createdAt ≤ a.createdAt
    constructor
    · rintro ⟨tasks, htasks, -⟩ doc hdoc hstub
      obtain ⟨task, htask⟩ := Fallible.of_mapM_eq_ok htasks doc (hperm.mem_iff.mpr hdoc)
      exact readTask_of_isStub hstub task htask
    · intro hnone
      have hread : ∀ doc ∈ p.tasks.mergeSort fun a b => b.createdAt ≤ a.createdAt,
          ∃ task, Documents.readTask doc = .ok task := by
        intro doc hdoc
        have hmem := hperm.mem_iff.mp hdoc
        exact readTask_of_serialized ((hrows doc hmem).resolve_right (hnone doc hmem))
      obtain ⟨tasks, htasks, hlen⟩ := Fallible.exists_mapM_ok hread
      exact ⟨tasks, htasks, by rw [hlen, hperm.length_eq]⟩

/-- A task with id 7 and a budget of 1000. -/
def createdTask : TaskCreated := ⟨7, "5GrwvaEF5zXb26Fz9rcQpDWS57CtERHpNehXCPcNoHGKutQY", 1000⟩

/-- On it the theorem applies: its stub is built, and a table with the stub is not listed. -/
theorem createdTask_never_read :
    ∃ v, stubJson createdTask (sampleDraws.uuid 0) 1700000000 = some v ∧
      (∀ task, StoredTask.format.deserialize v ≠ .ok task) ∧
      ¬ ∃ tasks, ({ Documents.noDocuments with
        tasks := [stubDocument createdTask (sampleDraws.uuid 0) 1700000000 v] } :
          Documents).listTasks = .ok tasks ∧ tasks.length = 1 := by
  obtain ⟨v, hv, hnever⟩ := (mirroredTask_never_read createdTask (sampleDraws.uuid 0) 1700000000
    Documents.noDocuments).1 (by decide)
  have hstub : IsStub (stubDocument createdTask (sampleDraws.uuid 0) 1700000000 v) :=
    ⟨createdTask, _, _, .pending, hv, rfl⟩
  refine ⟨v, hv, hnever, fun hlist => ?_⟩
  refine ((mirroredTask_never_read createdTask (sampleDraws.uuid 0) 1700000000 _).2 ?_).mp hlist
    _ List.mem_cons_self hstub
  intro doc hdoc
  rw [List.mem_singleton.mp hdoc]
  exact Or.inr hstub

/-- **Its row cannot be decoded, and with it no task is listed.** -/
theorem createdTask_unlistable :
    ¬ ((∀ e generatedId createdAt, e.budget ≤ u64Max.toNat →
        ∃ v task, stubJson e generatedId createdAt = some v ∧
          StoredTask.format.deserialize v = .ok task ∧ task.status = .pending ∧
          task.task.budget.maxCost = e.budget) ∨
      ∀ p : Documents, (∀ doc ∈ p.tasks, Serialized doc ∨ IsStub doc) →
        ∃ tasks, p.listTasks = .ok tasks ∧ tasks.length = p.tasks.length) := by
  obtain ⟨v, hv⟩ := exists_stubJson (e := createdTask) (sampleDraws.uuid 0) 1700000000 (by decide)
  obtain ⟨err, herr, -⟩ := stub_error hv
  rintro (hdecodes | hlists)
  · obtain ⟨w, task, hw, htask, -⟩ :=
      hdecodes createdTask (sampleDraws.uuid 0) 1700000000 (by decide)
    obtain rfl : v = w := Option.some.inj (hv.symm.trans hw)
    rw [herr] at htask
    cases htask
  · let doc := stubDocument createdTask (sampleDraws.uuid 0) 1700000000 v
    have hstub : IsStub doc := ⟨createdTask, _, _, .pending, hv, rfl⟩
    obtain ⟨tasks, htasks, -⟩ := hlists { Documents.noDocuments with tasks := [doc] }
      fun d hd => by
        obtain rfl := List.mem_singleton.mp hd
        exact Or.inr hstub
    obtain ⟨task, htask⟩ := Fallible.of_mapM_eq_ok htasks doc (by simp)
    exact readTask_of_isStub hstub task htask

/-! ## The budget of a stub -/

/-- What the worker binds to the statement that mirrors a task. The column `max_budget` takes an
`i64`, the account and the texts are those of the event. -/
structure MirrorParameters where
  id : String
  requesterId : List UInt8
  description : String
  taskType : String
  inputBase64 : String
  maxBudget : Int
  deadline : Int
  status : String
  createdAt : Int
  updatedAt : Int
  storedJson : Value
  chainTaskId : Int

/-- The values bound on `TaskCreated`; `none` where `json!` panics. -/
def mirrorParameters (e : TaskCreated) (generatedId : String) (createdAt : Int) :
    Option MirrorParameters :=
  (stubJson e generatedId createdAt).map fun storedJson => {
    id := generatedId
    requesterId := utf8 s!"did:ainur:{e.requester}"
    description := s!"chain task {e.taskId.toNat}"
    taskType := "chain"
    inputBase64 := ""
    -- `ev.budget as i64`, from a `u128`
    maxBudget := Cast.wrap 64 e.budget
    deadline := 0
    status := "pending"
    createdAt := createdAt
    updatedAt := createdAt
    storedJson := storedJson
    chainTaskId := asI64 e.taskId }

theorem mirrorParameters_eq_some {e : TaskCreated} {generatedId : String} {createdAt : Int}
    {ps : MirrorParameters} (h : mirrorParameters e generatedId createdAt = some ps) :
    stubJson e generatedId createdAt = some ps.storedJson ∧
      ps.maxBudget = Cast.wrap 64 e.budget := by
  obtain ⟨v, hv, rfl⟩ := Option.map_eq_some_iff.mp h
  refine ⟨hv, ?_⟩
  dsimp only

theorem exists_mirrorParameters {e : TaskCreated} (generatedId : String) (createdAt : Int)
    (h : e.budget ≤ u64Max.toNat) :
    ∃ ps, mirrorParameters e generatedId createdAt = some ps := by
  obtain ⟨v, hv⟩ := exists_stubJson generatedId createdAt h
  rw [mirrorParameters, hv]
  exact ⟨_, rfl⟩

/-- They are the columns of the stub's row. -/
theorem mirrorParameters_document {e : TaskCreated} {generatedId : String} {createdAt : Int}
    {ps : MirrorParameters} (h : mirrorParameters e generatedId createdAt = some ps) :
    stubDocument e generatedId createdAt ps.storedJson =
      ⟨ps.id, ps.storedJson, ps.status, ps.createdAt, some ps.chainTaskId, none, none⟩ := by
  obtain ⟨v, -, rfl⟩ := Option.map_eq_some_iff.mp h
  rfl

/-- The branch of the event panics where these cannot be built. -/
theorem mirrorParameters_isSome_iff {e : TaskCreated} {d : Delivery}
    (hevent : d.event = .taskCreated e.taskId e.budget) :
    (mirrorParameters e d.generatedId d.now).isSome = true ↔ d.ops.isSome = true := by
  rw [mirrorParameters, Option.isSome_map, stubJson, Option.isSome_map, jsonU128, Delivery.ops,
    hevent]
  by_cases h : e.budget ≤ u64Max.toNat
  · simp [h]
  · simp [h]

/-- `stored_json -> 'task' -> 'budget' -> 'max_cost'`. -/
def storedMaxCost (storedJson : Value) : Option Int :=
  (((storedJson.get "task").bind (·.get "budget")).bind (·.get "max_cost")).bind Value.integer?

theorem storedMaxCost_stub {e : TaskCreated} {generatedId : String} {createdAt : Int} {v : Value}
    (h : stubJson e generatedId createdAt = some v) :
    storedMaxCost v = some (e.budget : Int) := by
  obtain ⟨maxCost, hcost, rfl⟩ := Option.map_eq_some_iff.mp h
  unfold jsonU128 at hcost
  split at hcost
  · next hle =>
      obtain rfl := Option.some.inj hcost
      have hnat : (UInt64.ofNat e.budget).toNat = e.budget :=
        UInt64.toNat_ofNat_of_lt' (Nat.lt_of_le_of_lt hle (by decide))
      simp [storedMaxCost, stubTask, mapOf, Serde.insertMember, Serde.keyLt, List.lex, Value.get,
        List.lookup_cons, Value.integer?, jsonU64, hnat]
  · cases hcost

/-- The event is handled without a panic, and both copies of its budget are exact. -/
def ExactBudget (e : TaskCreated) (generatedId : String) (createdAt : Int) : Prop :=
  ∃ ps, mirrorParameters e generatedId createdAt = some ps ∧ ps.maxBudget = e.budget ∧
    storedMaxCost ps.storedJson = some (e.budget : Int)

/-- **A mirrored budget is exact exactly up to `i64::MAX`.** -/
theorem exactBudget_iff (e : TaskCreated) (generatedId : String) (createdAt : Int) :
    ExactBudget e generatedId createdAt ↔ e.budget ≤ i64Max := by
  have hcolumn : Cast.wrap 64 e.budget = e.budget ↔ e.budget ≤ i64Max := by
    rw [Cast.wrap_eq_iff (by decide)]
    exact Nat.lt_succ_iff
  constructor
  · rintro ⟨ps, hps, hbudget, -⟩
    rwa [(mirrorParameters_eq_some hps).2, hcolumn] at hbudget
  · intro hle
    obtain ⟨ps, hps⟩ :=
      exists_mirrorParameters generatedId createdAt (Nat.le_trans hle (by decide))
    obtain ⟨hjson, hmax⟩ := mirrorParameters_eq_some hps
    exact ⟨ps, hps, by rw [hmax, hcolumn]; exact hle, storedMaxCost_stub hjson⟩

/-- A task with a budget of 10 tokens of 18 decimals. -/
def tenTokens : TaskCreated := { createdTask with budget := 10000000000000000000 }

/-- **The column gets a negative budget for it, and for 20 tokens the worker panics.** -/
theorem tenTokens_not_exact :
    (∃ ps, mirrorParameters tenTokens (sampleDraws.uuid 0) 1700000000 = some ps ∧
        ps.maxBudget = -8446744073709551616) ∧
      ¬ ExactBudget tenTokens (sampleDraws.uuid 0) 1700000000 ∧
      mirrorParameters { tenTokens with budget := 20000000000000000000 } (sampleDraws.uuid 0)
        1700000000 = none := by
  have hwrap : Cast.wrap 64 tenTokens.budget = -8446744073709551616 := by decide
  refine ⟨?_, ?_, ?_⟩
  · obtain ⟨ps, hps⟩ := exists_mirrorParameters (e := tenTokens) (sampleDraws.uuid 0) 1700000000
      (by decide)
    exact ⟨ps, hps, by rw [(mirrorParameters_eq_some hps).2, hwrap]⟩
  · rintro ⟨ps, hps, hbudget, -⟩
    rw [(mirrorParameters_eq_some hps).2, hwrap] at hbudget
    exact absurd hbudget (by decide)
  · have hpanic : jsonU128 20000000000000000000 = none := if_neg (by decide)
    rw [mirrorParameters, stubJson, hpanic]
    rfl

end Ainur.Bridge
