import Ainur.Api.Handlers
import Ainur.Bridge.Branches

set_option autoImplicit false

/-! # The two sources of a bid

A bid of an agent for a task comes by the API, under the hash of the agent's id, and from the
chain, under the bytes of the agent's chain id. The table keeps one bid for each task and
`agent_id`, which are two for each task and agent.
-/

namespace Ainur.BidSources

open Bridge
open Faulty (Fate Request)
open Faulty.Request (performed)
open Fallible (bind_eq_ok okOr_eq_ok)
open Storage (Database)

/-! ## The table of bids -/

/-- The `agent_id` of a bid by the API. -/
def apiKey (lib : Libraries) (agentId : String) : Core.AgentId := ⟨lib.blake3 (utf8 agentId)⟩

/-- The `agent_id` of a bid from the chain. -/
def chainKey (a : UInt64) : Core.AgentId := ⟨agentBytesFromChainId a⟩

def hasKey (taskId : String) (key : Core.AgentId) (b : BidRow) : Bool :=
  b.taskId = taskId ∧ b.agentId = key

/-- There is a bid for the task under the key. -/
def Present (taskId : String) (key : Core.AgentId) (bids : List BidRow) : Prop :=
  ∃ b ∈ bids, hasKey taskId key b = true

/-- At most one bid of the agent for the task is stored, and at most one is listed. -/
structure OneBid (lib : Libraries) (taskId agentId : String) (a : UInt64) (p : PostgresStorage) :
    Prop where
  stored : (p.bids.countP fun b =>
    hasKey taskId (apiKey lib agentId) b || hasKey taskId (chainKey a) b) ≤ 1
  listed : ∀ id bids, lib.parseUuid id = some taskId → p.getBidsForTask lib id = .ok bids →
    (bids.countP fun b =>
      b.bid.agentId = apiKey lib agentId ∨ b.bid.agentId = chainKey a) ≤ 1

/-- The constraint on the table, and that every row is under the key of its bid. -/
structure Keyed (bids : List BidRow) : Prop where
  unique : ∀ taskId key, bids.countP (hasKey taskId key) ≤ 1
  own : ∀ row ∈ bids, ∀ b, row.stored = .ok b → b.bid.agentId = row.agentId

/-! ## Arrivals -/

/-- A request to `submit_bid`, with the fates of its calls, or an event of the chain. -/
inductive Arrival where
  | submission (draws : Draws) (payload : BidSubmissionRequest) (fates : Nat → Fate ApiError)
  | event (d : Delivery)

namespace Arrival

/-- The UUID of the row. -/
def uuid : Arrival → String
  | submission draws _ _ => draws.uuid 0
  | event d => d.generatedId

/-- It is about the agent and the task, under the names and under the chain ids. -/
def Concerns (lib : Libraries) (taskId agentId : String) (t a : UInt64) : Arrival → Prop
  | submission draws payload _ =>
      lib.parseUuid (draws.uuid 0) = some (draws.uuid 0) ∧
        lib.parseUuid payload.taskId = some taskId ∧ payload.agentId = agentId
  | event d => d.event = .bidSubmitted t a

/-- It is not refused for other reasons than the bids already there: the calls up to the insert
proceed, the task can be read, and the bid is valid. -/
def Acceptable (row : TaskRow) : Arrival → Prop
  | submission _ payload fates =>
      fates 0 = .proceed ∧ fates 1 = .proceed ∧
        (∃ task, PostgresStorage.readTask row = .ok task) ∧
        isBlank payload.agentId = false ∧ payload.value ≤ i64Max
  | event _ => True

def key (lib : Libraries) (agentId : String) (a : UInt64) : Arrival → Core.AgentId
  | submission _ _ _ => apiKey lib agentId
  | event _ => chainKey a

end Arrival

section Run

variable (lib : Libraries) (db : Database) (pg : Jsonb) (pick : Picks)

/-- The tables after an arrival. -/
def arrive (p : PostgresStorage) : Arrival → PostgresStorage
  | .submission draws payload fates =>
      match (submitBid lib draws payload fates 0 (.postgres db p)).2.2 with
      | .postgres _ q => q
      | .memory _ => p
  | .event d => (runBranch db pg pick d p).getD p

def arriveAll (p : PostgresStorage) (xs : List Arrival) : PostgresStorage :=
  xs.foldl (arrive lib db pg pick) p

end Run

/-- The row of the task has the chain id, no other row has it, and the task that is stored there
is the one of the row. -/
structure Linked (lib : Libraries) (taskId : String) (t : UInt64) (row : TaskRow)
    (p : PostgresStorage) : Prop where
  found : p.tasks.find? (fun r => r.id = taskId) = some row
  chainId : row.chainTaskId = some (asI64 t)
  unique : ∀ r ∈ p.tasks, r.chainTaskId = some (asI64 t) → r.id = taskId
  own : ∀ task, row.stored = .ok task → lib.parseUuid task.id = some taskId

/-- The UUIDs that are drawn are new. -/
structure Fresh (bids : List BidRow) (xs : List Arrival) : Prop where
  nodup : (xs.map Arrival.uuid).Nodup
  unused : ∀ x ∈ xs, ∀ b ∈ bids, b.id ≠ x.uuid

/-- There is a bid under the key, or an acceptable one arrives. -/
def Comes (lib : Libraries) (taskId agentId : String) (a : UInt64) (row : TaskRow)
    (bids : List BidRow) (xs : List Arrival) (key : Core.AgentId) : Prop :=
  Present taskId key bids ∨ ∃ x ∈ xs, x.key lib agentId a = key ∧ x.Acceptable row

/-! ## What an arrival does -/

/-- A new row under the key of the arrival, where it is acceptable and the key is free. -/
inductive Adds (lib : Libraries) (taskId agentId : String) (a : UInt64) (row : TaskRow)
    (x : Arrival) (bids : List BidRow) : List BidRow → Prop
  | kept (htaken : x.Acceptable row → Present taskId (x.key lib agentId a) bids) :
      Adds lib taskId agentId a row x bids bids
  | added (r : BidRow) (hacceptable : x.Acceptable row)
      (hfree : ¬ Present taskId (x.key lib agentId a) bids)
      (hkey : hasKey taskId (x.key lib agentId a) r = true) (hid : r.id = x.uuid)
      (hown : ∀ b, r.stored = .ok b → b.bid.agentId = r.agentId) :
      Adds lib taskId agentId a row x bids (bids ++ [r])

section Arrive

variable {lib : Libraries} {db : Database} {pg : Jsonb} {pick : Picks}
variable {taskId agentId : String} {t a : UInt64} {row : TaskRow} {p : PostgresStorage}

theorem present_iff_any {key : Core.AgentId} {bids : List BidRow} :
    Present taskId key bids ↔ (bids.any fun b => b.taskId = taskId ∧ b.agentId = key) = true := by
  simp [Present, hasKey]

/-- The tasks and the bids of a Postgres store. -/
def tasksAndBids : Store → Option (List TaskRow × List BidRow)
  | .postgres _ q => some (q.tasks, q.bids)
  | .memory _ => none

theorem Linked.exists_task (h : Linked lib taskId t row p) :
    (p.tasks.any fun r => r.id = taskId) = true := by
  rw [← List.isSome_find?, h.found]
  rfl

variable (db) in
theorem getTask_linked (h : Linked lib taskId t row p) {id : String}
    (hid : lib.parseUuid id = some taskId) :
    (Store.postgres db p).getTask lib id =
      (PostgresStorage.readTask row).map fun task => (task, .postgres db p) := by
  simp only [Store.getTask, Store.task, PostgresStorage.getTask, parseUuid, hid, h.found,
    Fallible.okOr_some, Fallible.ok_bind]

/-- What the rest of `submit_bid` does to tasks and bids, once the task is read. -/
theorem submitBid_tables (draws : Draws) (payload : BidSubmissionRequest)
    (fates : Nat → Fate ApiError) (s : Store) :
    tasksAndBids (submitBid lib draws payload fates 0 s).2.2 =
      tasksAndBids (prepareSubmitBid lib draws payload fates 0 s).2.2 :=
  Request.bind_keeps (keeps_respond fun _ _ _ => rfl) fates 0 s

variable (db) in
/-- The insert of `submit_bid`, once the task is read and the bid is built. -/
theorem insertBid_tables {α : Type} (stored : StoredBid) {f : Unit → Handler α}
    (hf : ∀ u, Request.Keeps tasksAndBids (f u)) {fates : Nat → Fate ApiError} {n : Nat}
    (hid : lib.parseUuid stored.id = some stored.id)
    (htask : lib.parseUuid stored.taskId = some taskId)
    (hunused : ∀ b ∈ p.bids, b.id ≠ stored.id)
    (hexists : (p.tasks.any fun r => r.id = taskId) = true) :
    ∃ bids, tasksAndBids
        ((Request.call (Store.insertBid lib stored) >>= f) fates n (.postgres db p)).2.2 =
          some (p.tasks, bids) ∧
      ((fates n = .proceed ∧ stored.bid.value ≤ i64Max →
            Present taskId stored.bid.agentId p.bids) ∧ bids = p.bids ∨
        (fates n = .proceed ∧ stored.bid.value ≤ i64Max) ∧
          ¬ Present taskId stored.bid.agentId p.bids ∧
          bids = p.bids ++ [⟨stored.id, taskId, stored.bid.agentId, .ok stored⟩]) := by
  have hnew : (p.bids.any fun b => b.id = stored.id) = false := by simpa using hunused
  have hstore : (Store.postgres db p).insertBid lib stored =
      (p.insertBid lib stored).map fun r => (r.1, .postgres db r.2) := rfl
  rw [Request.bind_keeps hf, Request.call_store, hstore]
  cases hfate : fates n with
  | fail e => exact ⟨p.bids, rfl, Or.inl ⟨(nomatch ·.1), rfl⟩⟩
  | stop => exact ⟨p.bids, rfl, Or.inl ⟨(nomatch ·.1), rfl⟩⟩
  | proceed =>
      rcases PostgresStorage.insertBid_cases hid htask hnew hexists with
        ⟨⟨hvalue, hpair⟩, hok⟩ | ⟨hrefused, e, herr⟩
      · rw [hok]
        refine ⟨_, rfl, Or.inr ⟨⟨rfl, hvalue⟩, ?_, rfl⟩⟩
        rw [present_iff_any, hpair]
        exact Bool.false_ne_true
      · rw [herr]
        refine ⟨_, rfl, Or.inl ⟨fun hproceed => ?_, rfl⟩⟩
        rw [present_iff_any, ← Bool.not_eq_false]
        exact fun hpair => hrefused ⟨hproceed.2, hpair⟩

variable (db) in
theorem submission_tables (h : Linked lib taskId t row p) {draws : Draws}
    {payload : BidSubmissionRequest} {fates : Nat → Fate ApiError}
    (hconcerns : (Arrival.submission draws payload fates).Concerns lib taskId agentId t a)
    (hunused : ∀ b ∈ p.bids, b.id ≠ draws.uuid 0) :
    ∃ bids, tasksAndBids (submitBid lib draws payload fates 0 (.postgres db p)).2.2 =
        some (p.tasks, bids) ∧
      Adds lib taskId agentId a row (.submission draws payload fates) p.bids bids := by
  obtain ⟨huuid, hid, rfl⟩ := hconcerns
  have hget := getTask_linked db h hid
  rw [submitBid_tables]
  cases hread : performed (fates 0) ((Store.postgres db p).getTask lib payload.taskId) with
  -- the read fails or finds nothing, so the submission was not acceptable
  | none =>
      refine ⟨p.bids, congrArg tasksAndBids (Request.call_bind_of_not_performed hread).1,
        .kept ?_⟩
      rintro ⟨hfate, -, ⟨task, htask⟩, -⟩
      rw [hget, htask, hfate] at hread
      cases hread
  | some r =>
      obtain ⟨hfate, hok⟩ := Request.performed_eq_some.mp hread
      obtain ⟨task, s'⟩ := r
      rw [hget] at hok
      obtain ⟨htask, rfl⟩ : PostgresStorage.readTask row = .ok task ∧ Store.postgres db p = s' := by
        cases hrow : PostgresStorage.readTask row with
        | error e => simp [hrow, Except.map] at hok
        | ok task' => simpa [hrow, Except.map] using hok
      -- the bid goes under the id in the record, which is the id of the row
      have hown : lib.parseUuid task.id = some taskId := by
        obtain ⟨stored, hstored, htask⟩ := bind_eq_ok.mp htask
        obtain ⟨status, -, htask⟩ := bind_eq_ok.mp htask
        obtain rfl := Fallible.pure_eq_ok.mp htask
        exact h.own stored (Fallible.mapError_eq_ok.mp hstored)
      unfold prepareSubmitBid
      rw [Request.call_bind_of_performed hread, Request.ofExcept_bind]
      cases hblank : isBlank payload.agentId with
      | true =>
          have hbuild : StoredBid.fromSubmission lib draws payload task =
              .error (.badRequest "agent_id must not be empty") := if_pos hblank
          rw [hbuild]
          refine ⟨p.bids, rfl, .kept ?_⟩
          rintro ⟨-, -, -, hfilled, -⟩
          rw [hblank] at hfilled
          cases hfilled
      | false =>
          let stored : StoredBid :=
            { id := draws.uuid 0
              taskId := task.id
              agentId := payload.agentId
              bid := buildCoreBid lib payload task.task
              createdAt := draws.now }
          have hbuild : StoredBid.fromSubmission lib draws payload task = .ok stored :=
            if_neg (by simp [hblank])
          rw [hbuild]
          obtain ⟨bids, htables, ⟨htaken, rfl⟩ | ⟨⟨hinsert, hvalue⟩, hfree, rfl⟩⟩ :=
            insertBid_tables db stored (fun _ => Request.keeps_bind
              (keeps_submitBidOutgoing _) fun _ => Request.keeps_pure _) huuid hown hunused
              h.exists_task
          · exact ⟨_, htables, .kept fun hacceptable =>
              htaken ⟨hacceptable.2.1, hacceptable.2.2.2.2⟩⟩
          · refine ⟨_, htables, .added _ ⟨hfate, hinsert, ⟨task, htask⟩, hblank, hvalue⟩ hfree
              (decide_eq_true ⟨rfl, rfl⟩) rfl fun b hb => ?_⟩
            obtain rfl := Except.ok.inj hb
            rfl

/-- The insert of a branch. -/
theorem addBid_adds (h : Linked lib taskId t row p) {d : Delivery} {did : String}
    (hunused : ∀ b ∈ p.bids, b.id ≠ d.generatedId) :
    Adds lib taskId agentId a row (.event d) p.bids (addBid p (mirroredBid d taskId did a)) := by
  have hid : (mirroredBid d taskId did a).id = d.generatedId := rfl
  have hkey : hasKey taskId (chainKey a) (mirroredBid d taskId did a) = true :=
    decide_eq_true ⟨rfl, rfl⟩
  have hexists : (p.tasks.any fun r => r.id = (mirroredBid d taskId did a).taskId) = true :=
    h.exists_task
  unfold addBid
  rw [hexists]
  simp only [Bool.not_true, Bool.false_eq_true, or_false]
  -- the drawn UUID is new, so only the pair can conflict
  by_cases hpresent : Present taskId (chainKey a) p.bids
  · rw [if_pos]
    · exact .kept fun _ => hpresent
    · obtain ⟨b, hb, hkey⟩ := hpresent
      exact List.any_eq_true.mpr ⟨b, hb, decide_eq_true (Or.inr (of_decide_eq_true hkey))⟩
  · rw [if_neg]
    · refine .added _ trivial hpresent hkey rfl fun b hb => ?_
      obtain rfl := Except.ok.inj hb
      rfl
    · intro hany
      obtain ⟨b, hb, hsame⟩ := List.any_eq_true.mp hany
      rcases of_decide_eq_true hsame with hsameId | hsameKey
      · exact hunused b hb hsameId
      · exact hpresent ⟨b, hb, decide_eq_true hsameKey⟩

variable (pg) in
theorem arrive_adds (hdb : Mirrors db)
    (hpick : ∀ p, (ReplayOp.findBidTask t a).picks p (pick p (.findBidTask t a)) = true)
    (h : Linked lib taskId t row p) {x : Arrival} (hconcerns : x.Concerns lib taskId agentId t a)
    (hunused : ∀ b ∈ p.bids, b.id ≠ x.uuid) :
    (arrive lib db pg pick p x).tasks = p.tasks ∧
      Adds lib taskId agentId a row x p.bids (arrive lib db pg pick p x).bids := by
  cases x with
  | submission draws payload fates =>
      obtain ⟨bids, htables, hadds⟩ := submission_tables db h hconcerns hunused
      simp only [arrive]
      generalize (submitBid lib draws payload fates 0 (.postgres db p)).2.2 = s at htables
      cases s with
      | memory m => cases htables
      | postgres db' q =>
          obtain ⟨htasks, rfl⟩ := Prod.mk.inj (Option.some.inj htables)
          exact ⟨htasks, hadds⟩
  | event d =>
      have hmem : row ∈ p.tasks := List.mem_of_find?_eq_some h.found
      have hany : (p.tasks.any fun r => r.chainTaskId = some (asI64 t)) = true :=
        List.any_eq_true.mpr ⟨row, hmem, decide_eq_true h.chainId⟩
      -- the lookup can only pick the row of the task
      have hpicked : pick p (.findBidTask t a) = taskId := by
        have hp := hpick p
        simp only [ReplayOp.picks, Bool.or_eq_true] at hp
        rcases hp with hnone | hsome
        · exact absurd h.chainId (of_decide_eq_true (List.all_eq_true.mp hnone row hmem))
        · obtain ⟨r, hr, hpair⟩ := List.any_eq_true.mp hsome
          obtain ⟨hid, hchain⟩ := Bool.and_eq_true_iff.mp hpair
          rw [← of_decide_eq_true hid]
          exact h.unique r hr (of_decide_eq_true hchain)
      obtain ⟨q, hq, htasks, did, hbids⟩ := runBranch_bidSubmitted pg pick hdb hconcerns hany
      rw [hpicked] at hbids
      simp only [arrive, hq, Option.getD_some]
      rw [hbids]
      exact ⟨htasks, addBid_adds h hunused⟩

end Arrive

/-! ## All arrivals -/

section Arrivals

variable {lib : Libraries} {db : Database} {pg : Jsonb} {pick : Picks}
variable {taskId agentId : String} {t a : UInt64} {row : TaskRow} {p q : PostgresStorage}
variable {x : Arrival} {xs : List Arrival} {bids bids' : List BidRow} {key : Core.AgentId}

theorem Linked.congr (h : Linked lib taskId t row p) (htasks : q.tasks = p.tasks) :
    Linked lib taskId t row q :=
  ⟨htasks ▸ h.found, h.chainId, htasks ▸ h.unique, h.own⟩

theorem present_append {r : BidRow} :
    Present taskId key (bids ++ [r]) ↔ Present taskId key bids ∨ hasKey taskId key r = true := by
  simp [Present, or_and_right, exists_or]

theorem present_iff_countP : Present taskId key bids ↔ 0 < bids.countP (hasKey taskId key) :=
  List.countP_pos_iff.symm

theorem Adds.present (h : Adds lib taskId agentId a row x bids bids') :
    Present taskId key bids' ↔
      Present taskId key bids ∨ x.key lib agentId a = key ∧ x.Acceptable row := by
  cases h with
  | kept htaken =>
      constructor
      · exact Or.inl
      · rintro (hpresent | ⟨rfl, hacceptable⟩)
        · exact hpresent
        · exact htaken hacceptable
  | added r hacceptable hfree hkey hid hown =>
      rw [present_append]
      have hagent : r.agentId = x.key lib agentId a := (of_decide_eq_true hkey).2
      constructor
      · rintro (hpresent | hr)
        · exact Or.inl hpresent
        · exact Or.inr ⟨hagent.symm.trans (of_decide_eq_true hr).2, hacceptable⟩
      · rintro (hpresent | ⟨rfl, -⟩)
        · exact Or.inl hpresent
        · exact Or.inr hkey

theorem Adds.keyed (h : Adds lib taskId agentId a row x bids bids') (hkeyed : Keyed bids) :
    Keyed bids' := by
  cases h with
  | kept htaken => exact hkeyed
  | added r hacceptable hfree hkey hid hown =>
      obtain ⟨htask, hagent⟩ := of_decide_eq_true hkey
      refine ⟨fun taskId' key' => ?_, fun row hrow b hb => ?_⟩
      · rw [List.countP_append, List.countP_singleton]
        split
        · next hr =>
            -- the new row is under a key that was free
            obtain ⟨htask', hagent'⟩ := of_decide_eq_true hr
            rw [← htask', htask, ← hagent', hagent]
            rw [present_iff_countP] at hfree
            omega
        · exact hkeyed.unique taskId' key'
      · rcases List.mem_append.mp hrow with hold | hnew
        · exact hkeyed.own row hold b hb
        · obtain rfl := List.mem_singleton.mp hnew
          exact hown b hb

theorem Adds.fresh (h : Adds lib taskId agentId a row x bids bids') (hfresh : Fresh bids (x :: xs)) :
    Fresh bids' xs := by
  obtain ⟨hx, hnodup⟩ := List.nodup_cons.mp (List.map_cons ▸ hfresh.nodup)
  have hold : ∀ y ∈ xs, ∀ b ∈ bids, b.id ≠ y.uuid :=
    fun y hy => hfresh.unused y (List.mem_cons_of_mem _ hy)
  cases h with
  | kept htaken => exact ⟨hnodup, hold⟩
  | added r hacceptable hfree hkey hid hown =>
      refine ⟨hnodup, fun y hy b hb heq => ?_⟩
      rcases List.mem_append.mp hb with hb | hb
      · exact hold y hy b hb heq
      · rw [List.mem_singleton.mp hb, hid] at heq
        exact hx (List.mem_map.mpr ⟨y, hy, heq.symm⟩)

variable (pg) in
theorem arriveAll_spec (hdb : Mirrors db)
    (hpick : ∀ p, (ReplayOp.findBidTask t a).picks p (pick p (.findBidTask t a)) = true)
    (h : Linked lib taskId t row p) (hkeyed : Keyed p.bids) (hfresh : Fresh p.bids xs)
    (hconcerns : ∀ x ∈ xs, x.Concerns lib taskId agentId t a) :
    Keyed (arriveAll lib db pg pick p xs).bids ∧ ∀ key,
      Present taskId key (arriveAll lib db pg pick p xs).bids ↔
        Comes lib taskId agentId a row p.bids xs key := by
  induction xs generalizing p with
  | nil => exact ⟨hkeyed, fun key => by simp [arriveAll, Comes]⟩
  | cons x xs ih =>
      obtain ⟨htasks, hadds⟩ := arrive_adds pg hdb hpick h
        (hconcerns x List.mem_cons_self) (hfresh.unused x List.mem_cons_self)
      obtain ⟨hkeyed', hpresent⟩ := ih (h.congr htasks) (hadds.keyed hkeyed)
        (hadds.fresh hfresh) fun y hy => hconcerns y (List.mem_cons_of_mem _ hy)
      refine ⟨hkeyed', fun key => (hpresent key).trans ?_⟩
      simp only [Comes, hadds.present, List.exists_mem_cons_iff, or_assoc]

/-! ### The bids of the agent -/

theorem countP_or {α : Type} {f g : α → Bool} (h : ∀ x, f x = true → g x = false) (xs : List α) :
    xs.countP (fun x => f x || g x) = xs.countP f + xs.countP g := by
  induction xs with
  | nil => rfl
  | cons x xs ih =>
      rw [List.countP_cons, List.countP_cons, List.countP_cons, ih]
      cases hf : f x with
      | false => cases g x <;> simp; omega
      | true =>
          rw [h x hf]
          simp
          omega

/-- The two keys of an agent differ where the hash does not end in zeros. -/
theorem apiKey_ne_chainKey (hblake : (lib.blake3 (utf8 agentId)).1.drop 8 ≠ List.replicate 24 0) :
    apiKey lib agentId ≠ chainKey a := by
  intro heq
  have hbytes : lib.blake3 (utf8 agentId) = agentBytesFromChainId a :=
    congrArg Core.AgentId.bytes heq
  exact hblake (by rw [hbytes]; rfl)

theorem oneBid_iff_present (hkeyed : Keyed p.bids) (hne : apiKey lib agentId ≠ chainKey a) :
    OneBid lib taskId agentId a p ↔
      ¬ (Present taskId (apiKey lib agentId) p.bids ∧ Present taskId (chainKey a) p.bids) := by
  have hcount : (p.bids.countP fun b =>
      hasKey taskId (apiKey lib agentId) b || hasKey taskId (chainKey a) b) =
      p.bids.countP (hasKey taskId (apiKey lib agentId)) +
        p.bids.countP (hasKey taskId (chainKey a)) := by
    refine countP_or (fun b hb => ?_) _
    have hagent : b.agentId = apiKey lib agentId := (of_decide_eq_true hb).2
    exact decide_eq_false fun hboth => hne (hagent.symm.trans hboth.2)
  have hapi := hkeyed.unique taskId (apiKey lib agentId)
  have hchain := hkeyed.unique taskId (chainKey a)
  rw [present_iff_countP, present_iff_countP]
  constructor
  · intro hone hboth
    have hstored := hone.stored
    omega
  · intro hnot
    have hstored : (p.bids.countP fun b =>
        hasKey taskId (apiKey lib agentId) b || hasKey taskId (chainKey a) b) ≤ 1 := by omega
    refine ⟨hstored, fun id bids hid hget => ?_⟩
    obtain ⟨uuid, huuid, hread⟩ := bind_eq_ok.mp hget
    obtain rfl : taskId = uuid := Option.some.inj (hid.symm.trans (okOr_eq_ok.mp huuid))
    -- what is listed is under the keys of the rows
    have hkeys : bids.map (fun b => b.bid.agentId) =
        (p.bids.filter fun b => b.taskId = taskId).map BidRow.agentId :=
      Fallible.map_eq_of_mapM hread fun r hr b hb =>
        hkeyed.own r (List.mem_of_mem_filter hr) b (Fallible.mapError_eq_ok.mp hb)
    calc bids.countP (fun b =>
          b.bid.agentId = apiKey lib agentId ∨ b.bid.agentId = chainKey a)
        = (bids.map fun b => b.bid.agentId).countP fun key =>
            key = apiKey lib agentId ∨ key = chainKey a := by
          rw [List.countP_map]
          rfl
      _ = p.bids.countP fun b =>
            hasKey taskId (apiKey lib agentId) b || hasKey taskId (chainKey a) b := by
          rw [hkeys, List.countP_map, List.countP_filter]
          refine List.countP_congr fun b _ => ?_
          simp only [Function.comp_apply, hasKey, Bool.and_eq_true, Bool.or_eq_true,
            decide_eq_true_eq]
          tauto
      _ ≤ 1 := hstored

variable (lib db pg pick taskId agentId a p xs) in
/-- There is one bid after every arrival. -/
def OneBidThroughout : Prop :=
  ∀ n, OneBid lib taskId agentId a (arriveAll lib db pg pick p (xs.take n))

/-- The agent has one bid throughout, unless bids come under both keys. -/
theorem oneBid_iff (hdb : Mirrors db)
    (hpick : ∀ p, (ReplayOp.findBidTask t a).picks p (pick p (.findBidTask t a)) = true)
    (hblake : (lib.blake3 (utf8 agentId)).1.drop 8 ≠ List.replicate 24 0)
    (h : Linked lib taskId t row p) (hkeyed : Keyed p.bids) (hfresh : Fresh p.bids xs)
    (hconcerns : ∀ x ∈ xs, x.Concerns lib taskId agentId t a) :
    OneBidThroughout lib db pg pick taskId agentId a p xs ↔
      ¬ (Comes lib taskId agentId a row p.bids xs (apiKey lib agentId) ∧
        Comes lib taskId agentId a row p.bids xs (chainKey a)) := by
  have hne : apiKey lib agentId ≠ chainKey a := apiKey_ne_chainKey hblake
  -- a prefix of the arrivals is a sequence of arrivals
  have hinit : ∀ n, OneBid lib taskId agentId a (arriveAll lib db pg pick p (xs.take n)) ↔
      ¬ (Comes lib taskId agentId a row p.bids (xs.take n) (apiKey lib agentId) ∧
        Comes lib taskId agentId a row p.bids (xs.take n) (chainKey a)) := by
    intro n
    have hsub : (xs.take n).Sublist xs := List.take_sublist n xs
    have hfresh' : Fresh p.bids (xs.take n) :=
      ⟨hfresh.nodup.sublist (hsub.map _), fun x hx => hfresh.unused x (hsub.subset hx)⟩
    obtain ⟨hkeyed', hpresent⟩ := arriveAll_spec pg hdb hpick h hkeyed hfresh'
      fun x hx => hconcerns x (hsub.subset hx)
    rw [oneBid_iff_present hkeyed' hne, hpresent, hpresent]
  have hcomes : ∀ {n key}, Comes lib taskId agentId a row p.bids (xs.take n) key →
      Comes lib taskId agentId a row p.bids xs key := fun hcomes =>
    hcomes.imp_right fun ⟨x, hx, hkey⟩ => ⟨x, List.mem_of_mem_take hx, hkey⟩
  constructor
  · intro hone
    -- bids that come at all have come at the end
    have hlast := (hinit xs.length).mp (hone xs.length)
    rwa [List.take_length] at hlast
  · intro hnot n
    exact (hinit n).mpr fun hboth => hnot ⟨hcomes hboth.1, hcomes hboth.2⟩

end Arrivals

/-! ## A task and an agent with chain ids -/

section Samples

/-- The hash of the id of `sampleAgent`. -/
def hashOfAgent : Bytes32 :=
  ⟨[0xad, 0xc3, 0x9f, 0x0a, 0x80, 0x0c, 0x49, 0x9d, 0xcb, 0x3c, 0x1d, 0xf5, 0xfe, 0x4e, 0x4b, 0xda,
    0x45, 0x2f, 0x1e, 0xcb, 0x74, 0x1e, 0x81, 0xcb, 0x51, 0x7f, 0x2d, 0x1e, 0x15, 0xb9, 0x17, 0xfd],
    rfl⟩

/-- The crates, with `blake3` on the id of `sampleAgent` too. -/
def bidLibraries : Libraries :=
  { sampleLibraries [] with
    blake3 := fun bytes => if bytes = utf8 sampleAgent.id then hashOfAgent else hashOfNothing }

/-- A task of the API with the chain id 7. -/
def linkedTask : TaskRow where
  id := sampleDraws.uuid 0
  stored := (StoredTask.fromSubmission bidLibraries sampleDraws (taskWithBudget 100)).mapError
    ApiError.display
  status := "pending"
  createdAt := 1700000000
  chainTaskId := some 7
  resultHash := none
  matchedAgent := none

/-- The task, and `sampleAgent` with the chain id 3. -/
def linkedTables : PostgresStorage where
  agents := [⟨sampleAgent.id, sampleAgent.label, some 3, none⟩]
  tasks := [linkedTask]
  bids := []
  results := []
  outbox := []

/-- The oldest row. -/
def firstRow : Picks := fun p op =>
  match op with
  | .findBidTask taskId _ =>
      ((p.tasks.find? fun r => r.chainTaskId = some (asI64 taskId)).map TaskRow.id).getD ""
  | .findBidAgent _ _ agentId =>
      ((p.agents.find? fun a => a.chainAgentId = some (asI64 agentId)).map AgentRow.id).getD ""
  | _ => ""

theorem picks_firstRow (p : PostgresStorage) (t a : UInt64) :
    (ReplayOp.findBidTask t a).picks p (firstRow p (.findBidTask t a)) = true := by
  simp only [ReplayOp.picks, Bool.or_eq_true, firstRow]
  obtain ⟨found, hfind⟩ : ∃ found, (p.tasks.find? fun r => r.chainTaskId = some (asI64 t)) = found :=
    ⟨_, rfl⟩
  simp only [hfind]
  cases found with
  | none => exact Or.inl (by simpa using hfind)
  | some r =>
      refine Or.inr (List.any_eq_true.mpr ⟨r, List.mem_of_find?_eq_some hfind, ?_⟩)
      have hchain := List.find?_some hfind
      simpa using hchain

theorem linked_linkedTables :
    Linked bidLibraries (sampleDraws.uuid 0) 7 linkedTask linkedTables where
  found := rfl
  chainId := rfl
  unique r hr _ := by rw [List.mem_singleton.mp hr]; rfl
  own task htask := by
    obtain rfl := Except.ok.inj htask
    rfl

/-- A bid by the API. -/
def submitted : Arrival :=
  .submission { sampleDraws with uuid := fun _ => "6fa459ea-ee8a-4ca4-894e-db77e160355e" } sampleBid
    fun _ => .proceed

/-- A bid from the chain. -/
def onChain : Arrival :=
  .event
    { event := .bidSubmitted 7 3
      blockNumber := 5
      correlation := none
      generatedId := "16fd2706-8baf-433b-82eb-8c7fada847da"
      now := 1700000000 }

/-- An agent that only bids by the API has one bid. -/
theorem submitted_oneBid :
    OneBidThroughout bidLibraries Storage.asWritten (.onValues []) firstRow (sampleDraws.uuid 0)
      sampleAgent.id 3 linkedTables [submitted] := by
  refine (oneBid_iff asWritten_mirrors (fun p => picks_firstRow p 7 3) (by decide)
    linked_linkedTables ⟨fun _ _ => Nat.zero_le 1, nofun⟩ ⟨by decide, nofun⟩ ?_).mpr ?_
  · intro x hx
    rw [List.mem_singleton.mp hx]
    exact ⟨rfl, rfl, rfl⟩
  · rintro ⟨-, ⟨b, hb, -⟩ | ⟨x, hx, hkey, -⟩⟩
    · cases hb
    · rw [List.mem_singleton.mp hx] at hkey
      revert hkey
      decide

/-- Both bids of the agent are listed. -/
theorem twoBids_listed :
    ¬ ∀ xs : List Arrival, Fresh linkedTables.bids xs →
      (∀ x ∈ xs, x.Concerns bidLibraries (sampleDraws.uuid 0) sampleAgent.id 7 3) →
      OneBid bidLibraries (sampleDraws.uuid 0) sampleAgent.id 3
        (arriveAll bidLibraries Storage.asWritten (.onValues []) firstRow linkedTables xs) := by
  intro h
  have hone := h [submitted, onChain] ⟨by decide, nofun⟩ fun x hx => by
    rcases List.mem_pair.mp hx with rfl | rfl
    · exact ⟨rfl, rfl, rfl⟩
    · rfl
  have hlisted := hone.listed (sampleDraws.uuid 0) _ rfl rfl
  revert hlisted
  decide +kernel

end Samples

end Ainur.BidSources
