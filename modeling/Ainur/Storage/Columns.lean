import Ainur.Lib.Cast
import Ainur.Storage.Documents

set_option autoImplicit false

/-! # The numbers bound to `tasks` and `bids`

What `insert_task` and `insert_bid` bind to their statements. An amount goes into its column through
`try_into`, which checks it; a score, a duration and a deadline go through `as`, which does not. The
amounts are also checked once before that, by `serialize`, with another answer.
-/

namespace Ainur

open Fallible (bind_eq_ok)

/-! ## The statements and their parameters -/

def i32Max : Nat := 2147483647

/-- `try_into::<i64>` of an amount. -/
def tryIntoI64 (n : Nat) (message : String) : Except ApiError Int :=
  if n ≤ i64Max then .ok n else .error (.badRequest message)

/-- `u32` as `i32`, and `i32` as an integer. -/
def asI32 (n : UInt32) : Int := n.toInt32.toInt

/-- What `insert_bid` binds, in its order. -/
structure BidParameters where
  id : String
  taskId : String
  agentId : Core.AgentId
  value : Int
  qualityScore : Int
  completionTime : Int
  createdAt : Int
  storedJson : Value

/-- What `insert_task` binds. The seconds of a time go through `to_timestamp`. -/
structure TaskParameters where
  id : String
  clientTaskId : Option String
  requesterId : Core.AgentId
  description : String
  taskType : String
  inputBase64 : String
  maxBudget : Int
  deadline : Int
  status : String
  createdAt : Int
  updatedAt : Int
  storedJson : Value

section Inserts

variable (lib : Libraries)

/-- The text of a task type. -/
def taskTypeStr : Core.TaskType → String
  | .custom name => name
  | other =>
      match Core.TaskType.format.serialize other with
      | .ok v => lib.serde.toString v
      | .error _ => "unknown"

def bidParameters (bid : StoredBid) : Except ApiError BidParameters := do
  let id ← parseUuid lib bid.id "bid id"
  let taskId ← parseUuid lib bid.taskId "bid task_id"
  let storedJson ← serialize StoredBid.format bid
  let value ← tryIntoI64 bid.bid.value "bid value exceeds i64"
  return {
    id := id
    taskId := taskId
    agentId := bid.bid.agentId
    value := value
    -- `as i32` and `as i64`, unchecked
    qualityScore := asI32 bid.bid.qualityScore
    completionTime := asI64 bid.bid.completionTime
    createdAt := asI64 bid.createdAt
    storedJson := storedJson }

def taskParameters (task : StoredTask) : Except ApiError TaskParameters := do
  let id ← parseUuid lib task.id "task id"
  let storedJson ← serialize StoredTask.format task
  let budget ← tryIntoI64 task.task.budget.maxCost "max_cost exceeds i64"
  return {
    id := id
    clientTaskId := task.clientTaskId
    requesterId := task.task.requester
    description := task.task.specification.description
    taskType := taskTypeStr lib task.task.specification.taskType
    inputBase64 := lib.base64Encode task.task.specification.input
    maxBudget := budget
    -- `deadline as i64`, unchecked, and through `to_timestamp`
    deadline := asI64 task.task.deadline
    status := statusToStr task.status
    createdAt := asI64 task.createdAt
    updatedAt := asI64 task.createdAt
    storedJson := storedJson }

/-- The parameters of a statement and what the database answers to it. -/
def executeInsert {P : Type} (params : Except ApiError P) (execute : P → Except String Unit)
    (failure : String) : Except ApiError Unit := do
  let ps ← params
  (execute ps).mapError fun e => .internal s!"{failure}: {e}"

/-- `insert_bid`, on whatever the database answers. -/
def executeInsertBid (execute : BidParameters → Except String Unit) (bid : StoredBid) :
    Except ApiError Unit :=
  executeInsert (bidParameters lib bid) execute "failed to insert bid"

/-- `insert_task`, on whatever the database answers. -/
def executeInsertTask (execute : TaskParameters → Except String Unit) (task : StoredTask) :
    Except ApiError Unit :=
  executeInsert (taskParameters lib task) execute "failed to insert task"

end Inserts

/-! ## What reaches the columns -/

/-- Every number is within the type it is bound as. -/
def BidSubmissionRequest.Fits (req : BidSubmissionRequest) : Prop :=
  req.value ≤ i64Max ∧ req.qualityScore.toNat ≤ i32Max ∧ req.completionTime.toNat ≤ i64Max

def TaskSubmissionRequest.Fits (req : TaskSubmissionRequest) : Prop :=
  req.maxBudget ≤ i64Max ∧ req.deadline.toNat ≤ i64Max

/-- The numbers that are bound for an accepted bid are those of the request, and a request with a
number that does not fit is a bad request. -/
def BidReachesColumns (lib : Libraries) (execute : BidParameters → Except String Unit)
    (req : BidSubmissionRequest) (bid : StoredBid) : Prop :=
  (executeInsertBid lib execute bid = .ok () →
    ∃ ps, bidParameters lib bid = .ok ps ∧ ps.value = req.value ∧
      ps.qualityScore = req.qualityScore.toNat ∧ ps.completionTime = req.completionTime.toNat) ∧
  (¬ req.Fits → ∃ message, executeInsertBid lib execute bid = .error (.badRequest message))

/-- The same of a task. -/
def TaskReachesColumns (lib : Libraries) (execute : TaskParameters → Except String Unit)
    (req : TaskSubmissionRequest) (task : StoredTask) : Prop :=
  (executeInsertTask lib execute task = .ok () →
    ∃ ps, taskParameters lib task = .ok ps ∧ ps.maxBudget = req.maxBudget ∧
      ps.deadline = req.deadline.toNat) ∧
  (¬ req.Fits → ∃ message, executeInsertTask lib execute task = .error (.badRequest message))

/-! ## Casts and checks -/

theorem asI32_eq_iff (n : UInt32) : asI32 n = n.toNat ↔ n.toNat ≤ i32Max := by
  rw [asI32, Cast.toInt_toInt32, Cast.wrap_eq_iff (by decide)]
  exact Nat.lt_succ_iff

theorem asI64_eq_iff (n : UInt64) : asI64 n = n.toNat ↔ n.toNat ≤ i64Max := by
  rw [asI64, Cast.toInt_toInt64, Cast.wrap_eq_iff (by decide)]
  exact Nat.lt_succ_iff

/-- The three ranges of an amount that is serialized and then checked. -/
structure AmountChecked {P : Type} (params : Except ApiError P) (amount : Nat)
    (exact : P → Prop) (rest : Prop) : Prop where
  beyondU64 : u64Max.toNat < amount → ∃ message, params = .error (.internal message)
  beyondI64 : i64Max < amount → amount ≤ u64Max.toNat →
    ∃ message, params = .error (.badRequest message)
  within : amount ≤ i64Max → ∃ ps, params = .ok ps ∧ (exact ps ↔ rest)

/-- What follows from the ranges alone: a bad request comes from the second one only, so the
others have to be out of the way, the first altogether and the third where the rest fits. -/
theorem AmountChecked.reaches_iff {P : Type} {params : Except ApiError P} {amount : Nat}
    {exact : P → Prop} {rest : Prop} (h : AmountChecked params amount exact rest)
    (execute : P → Except String Unit) (failure : String) :
    ((executeInsert params execute failure = .ok () → ∃ ps, params = .ok ps ∧ exact ps) ∧
        (¬ (amount ≤ i64Max ∧ rest) →
          ∃ message, executeInsert params execute failure = .error (.badRequest message))) ↔
      amount ≤ u64Max.toNat ∧ (amount ≤ i64Max → rest) := by
  have hle : i64Max ≤ u64Max.toNat := by decide
  rcases Nat.lt_or_ge u64Max.toNat amount with hbig | hu64
  · obtain ⟨message, hparams⟩ := h.beyondU64 hbig
    have hrun : executeInsert params execute failure = .error (.internal message) := by
      rw [executeInsert, hparams]
      rfl
    constructor
    · rintro ⟨-, hbad⟩
      obtain ⟨m, hm⟩ := hbad fun hfits => by omega
      rw [hrun] at hm
      cases hm
    · rintro ⟨hsmall, -⟩
      omega
  rcases Nat.lt_or_ge i64Max amount with hmid | hi64
  · obtain ⟨message, hparams⟩ := h.beyondI64 hmid hu64
    have hrun : executeInsert params execute failure = .error (.badRequest message) := by
      rw [executeInsert, hparams]
      rfl
    refine ⟨fun _ => ⟨hu64, fun hle => by omega⟩, fun _ => ⟨fun hok => ?_, fun _ => ⟨_, hrun⟩⟩⟩
    rw [hrun] at hok
    cases hok
  · obtain ⟨ps, hparams, hexact⟩ := h.within hi64
    constructor
    · rintro ⟨-, hbad⟩
      refine ⟨hu64, fun _ => by_contra fun hrest => ?_⟩
      -- the statement is executed, and no answer of the database is a bad request
      obtain ⟨m, hm⟩ := hbad fun hfits => hrest hfits.2
      rw [executeInsert, hparams, Fallible.ok_bind] at hm
      cases hexec : execute ps with
      | ok u =>
          rw [hexec] at hm
          cases hm
      | error e =>
          rw [hexec] at hm
          cases hm
    · rintro ⟨-, hrest⟩
      exact ⟨fun _ => ⟨ps, hparams, hexact.2 (hrest hi64)⟩,
        fun hnot => absurd ⟨hi64, hrest hi64⟩ hnot⟩

theorem tryIntoI64_of_le {n : Nat} {message : String} (h : n ≤ i64Max) :
    tryIntoI64 n message = .ok (n : Int) := if_pos h

theorem tryIntoI64_of_lt {n : Nat} {message : String} (h : i64Max < n) :
    tryIntoI64 n message = .error (.badRequest message) := if_neg (Nat.not_le.2 h)

theorem serializeAmounts_singleton {n : Nat} :
    serializeAmounts [n] = .ok () ↔ n ≤ u64Max.toNat := by
  simp [serializeAmounts]

/-! ## Bids and tasks -/

section Records

variable {lib : Libraries} {draws : Draws}

theorem bidParameters_checked {bid : StoredBid} {id taskId : String}
    (hid : lib.parseUuid bid.id = some id) (htask : lib.parseUuid bid.taskId = some taskId) :
    AmountChecked (bidParameters lib bid) bid.bid.value
      (fun ps => ps.value = bid.bid.value ∧ ps.qualityScore = bid.bid.qualityScore.toNat ∧
        ps.completionTime = bid.bid.completionTime.toNat)
      (bid.bid.qualityScore.toNat ≤ i32Max ∧ bid.bid.completionTime.toNat ≤ i64Max) := by
  have hstart : bidParameters lib bid = (do
      let storedJson ← serialize StoredBid.format bid
      let value ← tryIntoI64 bid.bid.value "bid value exceeds i64"
      return ⟨id, taskId, bid.bid.agentId, value, asI32 bid.bid.qualityScore,
        asI64 bid.bid.completionTime, asI64 bid.createdAt, storedJson⟩) := by
    rw [bidParameters, parseUuid, parseUuid, hid, htask]
    rfl
  rcases Documents.serialize_bid bid with ⟨hamounts, v, hv, -⟩ | ⟨hamounts, hrefused⟩
  · have hu64 := serializeAmounts_singleton.1 hamounts
    rw [hstart, serialize, hv, Fallible.mapError_ok, Fallible.ok_bind]
    refine ⟨fun hbig => by omega, fun hmid _ => ?_, fun hi64 => ?_⟩
    · rw [tryIntoI64_of_lt hmid]
      exact ⟨_, rfl⟩
    · rw [tryIntoI64_of_le hi64]
      refine ⟨_, rfl, ?_⟩
      simp only [true_and, asI32_eq_iff, asI64_eq_iff]
  · have hbig : u64Max.toNat < bid.bid.value := by
      refine Nat.lt_of_not_le fun hle => ?_
      rw [serializeAmounts_singleton.2 hle] at hamounts
      cases hamounts
    have hle : i64Max ≤ u64Max.toNat := by decide
    rw [hstart, serialize, hrefused]
    exact ⟨fun _ => ⟨_, rfl⟩, fun _ hu64 => by omega, fun hi64 => by omega⟩

theorem taskParameters_checked {task : StoredTask} {id : String}
    (hid : lib.parseUuid task.id = some id)
    (hamount : task.amounts = [task.task.budget.maxCost]) :
    AmountChecked (taskParameters lib task) task.task.budget.maxCost
      (fun ps => ps.maxBudget = task.task.budget.maxCost ∧
        ps.deadline = task.task.deadline.toNat)
      (task.task.deadline.toNat ≤ i64Max) := by
  have hstart : taskParameters lib task = (do
      let storedJson ← serialize StoredTask.format task
      let budget ← tryIntoI64 task.task.budget.maxCost "max_cost exceeds i64"
      return ⟨id, task.clientTaskId, task.task.requester, task.task.specification.description,
        taskTypeStr lib task.task.specification.taskType,
        lib.base64Encode task.task.specification.input, budget, asI64 task.task.deadline,
        statusToStr task.status, asI64 task.createdAt, asI64 task.createdAt, storedJson⟩) := by
    rw [taskParameters, parseUuid, hid]
    rfl
  rcases Documents.serialize_task task with ⟨hamounts, v, hv, -⟩ | ⟨e, hamounts, hrefused⟩
  · rw [hamount] at hamounts
    have hu64 := serializeAmounts_singleton.1 hamounts
    rw [hstart, hv, Fallible.ok_bind]
    refine ⟨fun hbig => by omega, fun hmid _ => ?_, fun hi64 => ?_⟩
    · rw [tryIntoI64_of_lt hmid]
      exact ⟨_, rfl⟩
    · rw [tryIntoI64_of_le hi64]
      refine ⟨_, rfl, ?_⟩
      simp only [true_and, asI64_eq_iff]
  · rw [hamount] at hamounts
    have hbig : u64Max.toNat < task.task.budget.maxCost := by
      refine Nat.lt_of_not_le fun hle => ?_
      rw [serializeAmounts_singleton.2 hle] at hamounts
      cases hamounts
    have hle : i64Max ≤ u64Max.toNat := by decide
    obtain ⟨message, rfl⟩ : ∃ message, e = .internal message := by
      unfold serializeAmounts at hamounts
      split at hamounts
      · cases hamounts
      · exact ⟨_, (Except.error.inj hamounts).symm⟩
    rw [hstart, hrefused]
    exact ⟨fun _ => ⟨_, rfl⟩, fun _ hu64 => by omega, fun hi64 => by omega⟩

/-- The bid of a submission carries its numbers. -/
theorem StoredBid.fromSubmission_bid {req : BidSubmissionRequest} {task : StoredTask}
    {bid : StoredBid} (h : fromSubmission lib draws req task = .ok bid) :
    bid.id = draws.uuid 0 ∧ bid.taskId = task.id ∧ bid.bid = buildCoreBid lib req task.task := by
  unfold fromSubmission at h
  split at h
  · cases h
  · obtain rfl := Except.ok.inj h
    exact ⟨rfl, rfl, rfl⟩

theorem StoredTask.fromSubmission_task {req : TaskSubmissionRequest} {task : StoredTask}
    (h : fromSubmission lib draws req = .ok task) :
    ∃ input, task.task = buildCoreTask lib draws req input := by
  unfold fromSubmission at h
  split at h
  · cases h
  · obtain ⟨input, -, h⟩ := bind_eq_ok.mp h
    obtain rfl := Except.ok.inj h
    exact ⟨input, rfl⟩

/-- **When numbers reach their columns.** The numbers of a submitted bid or task are bound as they
are, or refused as a bad request, exactly when the amount is within `u64` and, where it is also
within `i64`, the other numbers are within the signed types they are cast to. -/
theorem reachesColumns_iff (lib : Libraries) (draws : Draws)
    (huuid : ∀ i, (lib.parseUuid (draws.uuid i)).isSome = true) :
    (∀ (execute : BidParameters → Except String Unit) (req : BidSubmissionRequest)
        (task : StoredTask) (bid : StoredBid), (lib.parseUuid task.id).isSome = true →
      StoredBid.fromSubmission lib draws req task = .ok bid →
      (BidReachesColumns lib execute req bid ↔
        req.value ≤ u64Max.toNat ∧ (req.value ≤ i64Max →
          req.qualityScore.toNat ≤ i32Max ∧ req.completionTime.toNat ≤ i64Max))) ∧
    (∀ (execute : TaskParameters → Except String Unit) (req : TaskSubmissionRequest)
        (task : StoredTask), StoredTask.fromSubmission lib draws req = .ok task →
      (TaskReachesColumns lib execute req task ↔
        req.maxBudget ≤ u64Max.toNat ∧ (req.maxBudget ≤ i64Max →
          req.deadline.toNat ≤ i64Max))) := by
  constructor
  · intro execute req task bid htaskId hbid
    obtain ⟨hid, htask, hcore⟩ := StoredBid.fromSubmission_bid hbid
    obtain ⟨id, hid'⟩ := Option.isSome_iff_exists.1 (huuid 0)
    obtain ⟨taskId, htask'⟩ := Option.isSome_iff_exists.1 htaskId
    have hparsed : lib.parseUuid bid.id = some id := by rw [hid, hid']
    have hparsedTask : lib.parseUuid bid.taskId = some taskId := by rw [htask, htask']
    have hchecked := bidParameters_checked hparsed hparsedTask
    rw [hcore] at hchecked
    exact hchecked.reaches_iff execute _
  · intro execute req task htask
    obtain ⟨id, hid⟩ := Option.isSome_iff_exists.1 (huuid 0)
    obtain ⟨input, hcore⟩ := StoredTask.fromSubmission_task htask
    have hamount : task.amounts = [task.task.budget.maxCost] := by
      rw [StoredTask.amounts, hcore]
      rfl
    have hchecked := taskParameters_checked
      (by rw [StoredTask.fromSubmission_id htask]; exact hid) hamount
    rw [hcore] at hchecked
    exact hchecked.reaches_iff execute _

end Records

/-! ### Scores -/

/-- A bid with that score. -/
def bidWithScore (score : UInt32) : BidSubmissionRequest where
  taskId := sampleDraws.uuid 0
  agentId := "agent-1"
  value := 5
  qualityScore := score
  completionTime := 3600

/-- The task it is for. -/
def biddenTask : StoredTask where
  id := sampleDraws.uuid 0
  clientTaskId := none
  task := buildCoreTask (sampleLibraries []) sampleDraws (taskWithBudget 5) []
  status := .pending
  createdAt := sampleDraws.now

def storedBidWithScore (score : UInt32) : StoredBid where
  id := sampleDraws.uuid 0
  taskId := sampleDraws.uuid 0
  agentId := "agent-1"
  bid := buildCoreBid (sampleLibraries []) (bidWithScore score) biddenTask.task
  createdAt := sampleDraws.now

theorem storedBidWithScore_fromSubmission (score : UInt32) :
    StoredBid.fromSubmission (sampleLibraries []) sampleDraws (bidWithScore score) biddenTask =
      .ok (storedBidWithScore score) := by
  have hagent : isBlank "agent-1" = false := by decide
  rw [StoredBid.fromSubmission, bidWithScore, hagent]
  rfl

/-- A score of 90, and a task, for a database that accepts everything. -/
theorem reachesColumns_iff_ninety :
    (BidReachesColumns (sampleLibraries []) (fun _ => .ok ()) (bidWithScore 90)
        (storedBidWithScore 90) ↔
      5 ≤ u64Max.toNat ∧ (5 ≤ i64Max → (90 : UInt32).toNat ≤ i32Max ∧
        (3600 : UInt64).toNat ≤ i64Max)) ∧
    (TaskReachesColumns (sampleLibraries []) (fun _ => .ok ()) (taskWithBudget 5) biddenTask ↔
      5 ≤ u64Max.toNat ∧ (5 ≤ i64Max → (0 : UInt64).toNat ≤ i64Max)) :=
  have h := reachesColumns_iff (sampleLibraries []) sampleDraws fun _ => rfl
  ⟨h.1 _ _ biddenTask _ rfl (storedBidWithScore_fromSubmission 90), h.2 _ _ biddenTask rfl⟩

/-- **A score of `2 ^ 31` is stored as `-2 ^ 31`.** -/
theorem halfRange_score_wraps :
    StoredBid.fromSubmission (sampleLibraries []) sampleDraws (bidWithScore 2147483648)
        biddenTask = .ok (storedBidWithScore 2147483648) ∧
      asI32 (bidWithScore 2147483648).qualityScore = -2147483648 ∧
      ¬ BidReachesColumns (sampleLibraries []) (fun _ => .ok ()) (bidWithScore 2147483648)
        (storedBidWithScore 2147483648) := by
  refine ⟨storedBidWithScore_fromSubmission _, by decide, fun h => ?_⟩
  have hid : (sampleLibraries []).parseUuid (storedBidWithScore 2147483648).id =
      some (sampleDraws.uuid 0) := rfl
  have htask : (sampleLibraries []).parseUuid (storedBidWithScore 2147483648).taskId =
      some (sampleDraws.uuid 0) := rfl
  have hchecked := bidParameters_checked hid htask
  have hscore := (((hchecked.reaches_iff (fun _ => .ok ()) _).1 h).2 (by decide)).1
  exact absurd hscore (by decide)

/-! ## The same columns in the tables -/

/-- The row of the parameters. -/
def TaskParameters.document (ps : TaskParameters) : TaskDocument where
  id := ps.id
  storedJson := ps.storedJson
  status := ps.status
  createdAt := ps.createdAt
  chainTaskId := none
  resultHash := none
  matchedAgent := none

theorem taskDocument_eq (lib : Libraries) (task : StoredTask) :
    Documents.taskDocument lib task = (taskParameters lib task).map TaskParameters.document := by
  unfold Documents.taskDocument taskParameters
  cases parseUuid lib task.id "task id" with
  | error e => rfl
  | ok id =>
      rw [Fallible.ok_bind, Fallible.ok_bind]
      cases serialize StoredTask.format task with
      | error e => rfl
      | ok v =>
          rw [Fallible.ok_bind, Fallible.ok_bind]
          rcases Nat.lt_or_ge i64Max task.task.budget.maxCost with hlt | hle
          · rw [if_pos hlt, tryIntoI64_of_lt hlt]
            rfl
          · rw [if_neg (Nat.not_lt.2 hle), tryIntoI64_of_le hle]
            rfl

/-- A bid is inserted with the values of its parameters. -/
theorem insertBid_parameters {lib : Libraries} {p q : Documents} {bid : StoredBid}
    (h : p.insertBid lib bid = .ok ((), q)) :
    ∃ ps, bidParameters lib bid = .ok ps ∧ (q = p ∨ ∃ doc, q.bids = p.bids ++ [doc] ∧
      doc.id = ps.id ∧ doc.taskId = ps.taskId ∧ doc.agentId = ps.agentId ∧
      doc.storedJson.val = ps.storedJson) := by
  obtain ⟨id, hid, h⟩ := bind_eq_ok.mp h
  obtain ⟨taskId, htask, h⟩ := bind_eq_ok.mp h
  split at h
  · cases h
  · next storedJson hv =>
      split at h
      · cases h
      · next hvalue =>
          have hparams : bidParameters lib bid = .ok ⟨id, taskId, bid.bid.agentId, bid.bid.value,
              asI32 bid.bid.qualityScore, asI64 bid.bid.completionTime, asI64 bid.createdAt,
              storedJson⟩ := by
            rw [bidParameters, hid, htask, serialize, hv]
            simp only [Fallible.mapError_ok, Fallible.ok_bind,
              tryIntoI64_of_le (Nat.not_lt.1 hvalue)]
            rfl
          refine ⟨_, hparams, ?_⟩
          split at h
          · exact .inl (congrArg Prod.snd (Except.ok.inj h)).symm
          · split at h
            · cases h
            · split at h
              · cases h
              · obtain rfl : _ = q := congrArg Prod.snd (Except.ok.inj h)
                exact .inr ⟨_, rfl, rfl, rfl, rfl, rfl⟩

end Ainur
