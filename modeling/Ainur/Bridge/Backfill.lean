import Ainur.Bridge.Events

set_option autoImplicit false

/-! # Backfilling the chain ids of the outbox

`backfill_once` collects the correlation ids and the transaction hashes of the rows that lack a
chain id into one column of keys, looks the events of each key up, and writes the ids that they
name by that key again. The events are kept under hashes and the rows under UUIDs.
-/

namespace Ainur.Backfill

open Bridge (Update.exec)
open Replay (ChainEventRow)

/-! ## The routine -/

/-- `extract_first_u64`. -/
def extractFirstU64 (payload : String) : Option UInt64 :=
  let opened := (Bridge.trim payload.toList).dropWhile (· = '[')
  let trimmed := (opened.reverse.dropWhile (· = ']')).reverse
  (trimmed.splitOn ',').head?.bind fun first => Bridge.parseU64 (Bridge.trim first)

/-- It is the first of the two that `extract_two_u64` reads. -/
theorem extractTwoU64_fst (payload : String) :
    (Bridge.extractTwoU64 payload).1 = extractFirstU64 payload := by
  simp only [Bridge.extractTwoU64, extractFirstU64, ← List.head?_eq_getElem?, List.head?_map,
    Option.bind_map]
  rfl

/-- A row that the candidate query takes a key from. -/
def lacksId (row : OutboundExtrinsic) : Bool :=
  (row.chainTaskId.isNone || row.chainAgentId.isNone) && row.status ≠ .dead

/-- The keys of both halves of the `UNION`. -/
def candidates (rows : List OutboundExtrinsic) : List String :=
  ((rows.filter lacksId).map (·.correlationId) ++ (rows.filter lacksId).filterMap (·.txHash)).dedup

/-- What `LIMIT 50` may return, in any order. -/
structure Picked (rows : List OutboundExtrinsic) (keys : List String) : Prop where
  nodup : keys.Nodup
  candidate : ∀ key ∈ keys, key ∈ candidates rows
  limit : keys.length = min 50 (candidates rows).length

/-- `ORDER BY block_number DESC, event_index DESC`. -/
def later (a b : ChainEventRow) : Bool :=
  b.blockNumber < a.blockNumber ||
    (a.blockNumber = b.blockNumber && b.eventIndex ≤ a.eventIndex)

/-- The events that are looked up for a key. -/
def eventsFor (events : List ChainEventRow) (key : String) : List ChainEventRow :=
  (events.filter fun ev => ev.correlationId = some key).mergeSort later

/-- The update of an event, where it has one and its payload starts with an id. -/
def backfillUpdate (key : String) (ev : ChainEventRow) : Option Update :=
  if ev.pallet = "AgentRegistry" ∧ ev.variant = "AgentRegistered" then
    (extractFirstU64 ev.payload).map fun agentId => .backfillAgent key (asI64 agentId)
  else if ev.pallet = "TaskMarket" ∧ ev.variant = "TaskCreated" then
    (extractFirstU64 ev.payload).map fun taskId => .backfillTask key (asI64 taskId)
  else if ev.pallet = "TaskMarket" ∧ ev.variant = "BidSubmitted" then
    (extractFirstU64 ev.payload).map fun taskId => .coalesceTask key (asI64 taskId)
  else if ev.pallet = "TaskMarket" ∧ ev.variant = "TaskCompleted" then
    (extractFirstU64 ev.payload).map fun taskId => .coalesceTask key (asI64 taskId)
  else none

/-- One pass of the inner loop. -/
def backfillEvent (pg : Jsonb) (key : String) (rows : List OutboundExtrinsic)
    (ev : ChainEventRow) : List OutboundExtrinsic :=
  match backfillUpdate key ev with
  | some u => (Update.exec pg u rows).getD rows
  | none => rows

/-- `backfill_once` after its candidate query. -/
def backfillOnce (pg : Jsonb) (keys : List String) (events : List ChainEventRow)
    (rows : List OutboundExtrinsic) : List OutboundExtrinsic :=
  keys.foldl (fun rows key => (eventsFor events key).foldl (backfillEvent pg key) rows) rows

/-! ## What it makes of a row -/

section OneRow

variable {pg : Jsonb} {key : String} {ev : ChainEventRow} {row : OutboundExtrinsic}
variable {rows : List OutboundExtrinsic} {u : Update}

/-- The row after the update of an event. -/
def fillRow (pg : Jsonb) (key : String) (row : OutboundExtrinsic) (ev : ChainEventRow) :
    OutboundExtrinsic :=
  match backfillUpdate key ev with
  | some u => if u.applies pg row = some true then u.set pg row else row
  | none => row

theorem backfillUpdate_cases (h : backfillUpdate key ev = some u) :
    ∃ n, u = .backfillAgent key n ∨ u = .backfillTask key n ∨ u = .coalesceTask key n := by
  unfold backfillUpdate at h
  split at h
  · obtain ⟨n, _, rfl⟩ := Option.map_eq_some_iff.mp h
    exact ⟨_, Or.inl rfl⟩
  · split at h
    · obtain ⟨n, _, rfl⟩ := Option.map_eq_some_iff.mp h
      exact ⟨_, Or.inr (Or.inl rfl)⟩
    · split at h
      · obtain ⟨n, _, rfl⟩ := Option.map_eq_some_iff.mp h
        exact ⟨_, Or.inr (Or.inr rfl)⟩
      · split at h
        · obtain ⟨n, _, rfl⟩ := Option.map_eq_some_iff.mp h
          exact ⟨_, Or.inr (Or.inr rfl)⟩
        · cases h

/-- What an update by correlation id does to a row: it never raises, it finds only the row of its
key, and it writes chain ids. -/
structure ByKey (pg : Jsonb) (key : String) (u : Update) (row : OutboundExtrinsic) : Prop where
  defined : (u.applies pg row).isSome = true
  finds : u.applies pg row = some true → row.correlationId = key
  correlationId : (u.set pg row).correlationId = row.correlationId
  checks : (u.set pg row).checks = row.checks

theorem backfillUpdate_byKey (h : backfillUpdate key ev = some u) : ByKey pg key u row := by
  obtain ⟨n, rfl | rfl | rfl⟩ := backfillUpdate_cases h
  · exact ⟨rfl, fun happ => (of_decide_eq_true (Option.some.inj happ)).1, rfl, rfl⟩
  · exact ⟨rfl, fun happ => (of_decide_eq_true (Option.some.inj happ)).1, rfl, rfl⟩
  · exact ⟨rfl, fun happ => of_decide_eq_true (Option.some.inj happ), rfl, rfl⟩

theorem fillRow_of_ne (h : row.correlationId ≠ key) : fillRow pg key row ev = row := by
  unfold fillRow
  split
  · next u hu => rw [if_neg fun happ => h ((backfillUpdate_byKey hu).finds happ)]
  · rfl

theorem fillRow_correlationId : (fillRow pg key row ev).correlationId = row.correlationId := by
  unfold fillRow
  split
  · next u hu =>
      split
      · exact (backfillUpdate_byKey hu).correlationId
      · rfl
  · rfl

theorem fillRow_checks : (fillRow pg key row ev).checks = row.checks := by
  unfold fillRow
  split
  · next u hu =>
      split
      · exact (backfillUpdate_byKey hu).checks
      · rfl
  · rfl

/-- The rows pass the checks of the table. -/
def Checked (rows : List OutboundExtrinsic) : Prop := ∀ row ∈ rows, row.checks = true

/-- No update of the routine fails, so it does to each row what it does to it alone. -/
theorem backfillEvent_eq (h : Checked rows) :
    backfillEvent pg key rows ev = rows.map fun row => fillRow pg key row ev := by
  unfold backfillEvent
  cases hu : backfillUpdate key ev with
  | none => simp [fillRow, hu]
  | some u =>
      have hall : (rows.all fun row => (u.applies pg row).isSome &&
          (u.applies pg row ≠ some true || (u.set pg row).checks)) = true := by
        refine List.all_eq_true.mpr fun row hrow => ?_
        have hkey : ByKey pg key u row := backfillUpdate_byKey hu
        rw [hkey.defined, hkey.checks, h row hrow, Bool.or_true, Bool.and_true]
      simp only [Update.exec, hall, if_true, Option.getD_some, fillRow, hu]

variable (pg) in
theorem Checked.fill (h : Checked rows) (key : String) (ev : ChainEventRow) :
    Checked (rows.map fun row => fillRow pg key row ev) := by
  intro row' hrow'
  obtain ⟨row, hrow, rfl⟩ := List.mem_map.mp hrow'
  rw [fillRow_checks]
  exact h row hrow

end OneRow

/-! ## All events, all keys -/

section AllKeys

variable {pg : Jsonb} {key : String} {keys : List String} {row : OutboundExtrinsic}
variable {rows : List OutboundExtrinsic} {events : List ChainEventRow}

/-- The row after all the events of a key. -/
def fillRowAll (pg : Jsonb) (events : List ChainEventRow) (row : OutboundExtrinsic)
    (key : String) : OutboundExtrinsic :=
  (eventsFor events key).foldl (fillRow pg key) row

theorem fold_fillRow_of_ne (h : row.correlationId ≠ key) (evs : List ChainEventRow) :
    evs.foldl (fillRow pg key) row = row := by
  induction evs with
  | nil => rfl
  | cons ev rest ih => rw [List.foldl_cons, fillRow_of_ne h, ih]

theorem fold_fillRow_correlationId (evs : List ChainEventRow) (row : OutboundExtrinsic) :
    (evs.foldl (fillRow pg key) row).correlationId = row.correlationId := by
  induction evs generalizing row with
  | nil => rfl
  | cons ev rest ih => rw [List.foldl_cons, ih, fillRow_correlationId]

variable (pg key) in
theorem fold_backfillEvent_eq (h : Checked rows) (evs : List ChainEventRow) :
    evs.foldl (backfillEvent pg key) rows = rows.map (fun row => evs.foldl (fillRow pg key) row) ∧
      Checked (evs.foldl (backfillEvent pg key) rows) := by
  induction evs generalizing rows with
  | nil => exact ⟨by simp, h⟩
  | cons ev rest ih =>
      have hrest := ih (h.fill pg key ev)
      rw [List.foldl_cons, backfillEvent_eq h]
      refine ⟨?_, hrest.2⟩
      rw [hrest.1, List.map_map]
      rfl

/-- Every row goes through the keys on its own, and stops only at its own correlation id. -/
theorem backfillOnce_eq (h : Checked rows) (hnodup : keys.Nodup) :
    backfillOnce pg keys events rows = rows.map fun row =>
      if row.correlationId ∈ keys then fillRowAll pg events row row.correlationId else row := by
  induction keys generalizing rows with
  | nil => simp [backfillOnce]
  | cons key rest ih =>
      rw [List.nodup_cons] at hnodup
      obtain ⟨heq, hchecked⟩ := fold_backfillEvent_eq pg key h (eventsFor events key)
      have hrest := ih hchecked hnodup.2
      rw [backfillOnce, List.foldl_cons]
      refine hrest.trans ?_
      rw [heq, List.map_map]
      refine List.map_congr_left fun row _ => ?_
      rw [Function.comp_apply, fold_fillRow_correlationId]
      by_cases hkey : row.correlationId = key
      · rw [if_neg (hkey ▸ hnodup.1), if_pos (by simp [hkey]), fillRowAll, hkey]
      · rw [fold_fillRow_of_ne hkey]
        simp [hkey]

end AllKeys

/-! ## What it is for -/

/-- The text of a UUID. -/
def IsUuid (s : String) : Prop :=
  s.toList.length = 36 ∧ ∀ c ∈ s.toList, c = '-' ∨ c.isDigit ∨ ('a' ≤ c ∧ c ≤ 'f')

/-- The text of an extrinsic hash. -/
def IsHash (s : String) : Prop := ∃ digits, s.toList = '0' :: 'x' :: digits

theorem IsUuid.not_isHash {s : String} (h : IsUuid s) : ¬ IsHash s := by
  rintro ⟨digits, hs⟩
  rcases h.2 'x' (by simp [hs]) with h | h | h
  · exact absurd h (by decide)
  · exact absurd h (by decide)
  · exact absurd h.2 (by decide)

/-- A state of the two tables: rows are kept under UUIDs and within the checks, events under the
hashes that the replay worker wrote. -/
structure Tables where
  outbox : List OutboundExtrinsic
  events : List ChainEventRow
  checked : Checked outbox
  uuids : ∀ row ∈ outbox, IsUuid row.correlationId
  hashes : ∀ ev ∈ events, ∀ c, ev.correlationId = some c → IsHash c

/-- Some event of the kind has that correlation and a payload that starts with the id. -/
def Names (events : List ChainEventRow) (pallet variant correlation : String) (id : UInt64) :
    Prop :=
  ∃ ev ∈ events, ev.correlationId = some correlation ∧ ev.pallet = pallet ∧
    ev.variant = variant ∧ extractFirstU64 ev.payload = some id

/-- What a row shall be afterwards. -/
structure Repaired (events : List ChainEventRow) (row row' : OutboundExtrinsic) : Prop where
  task : ∀ hash id, row.txHash = some hash → row.chainTaskId = none →
    Names events "TaskMarket" "TaskCreated" hash id → row'.chainTaskId = some (asI64 id)
  agent : ∀ hash id, row.txHash = some hash → row.chainAgentId = none →
    Names events "AgentRegistry" "AgentRegistered" hash id → row'.chainAgentId = some (asI64 id)
  keepsTask : ∀ id, row.chainTaskId = some id → row'.chainTaskId = some id
  keepsAgent : ∀ id, row.chainAgentId = some id → row'.chainAgentId = some id
  unmatched : (∀ ev ∈ events, ∀ hash, row.txHash = some hash → ev.correlationId ≠ some hash) →
    row' = row

/-- A row to repair: the events name an id that it lacks. -/
def Missed (events : List ChainEventRow) (row : OutboundExtrinsic) : Prop :=
  ∃ hash id, row.txHash = some hash ∧
    ((row.chainTaskId = none ∧ Names events "TaskMarket" "TaskCreated" hash id) ∨
      (row.chainAgentId = none ∧ Names events "AgentRegistry" "AgentRegistered" hash id))

/-- A row that is left as it is is repaired only if it needed no repair. -/
theorem repaired_self_iff {events : List ChainEventRow} {row : OutboundExtrinsic} :
    Repaired events row row ↔ ¬ Missed events row := by
  constructor
  · rintro h ⟨hash, id, hhash, ⟨hnone, hnames⟩ | ⟨hnone, hnames⟩⟩
    · have hset := h.task hash id hhash hnone hnames
      rw [hnone] at hset
      cases hset
    · have hset := h.agent hash id hhash hnone hnames
      rw [hnone] at hset
      cases hset
  · intro h
    refine ⟨?_, ?_, fun _ hid => hid, fun _ hid => hid, fun _ => rfl⟩
    · intro hash id hhash hnone hnames
      exact absurd ⟨hash, id, hhash, Or.inl ⟨hnone, hnames⟩⟩ h
    · intro hash id hhash hnone hnames
      exact absurd ⟨hash, id, hhash, Or.inr ⟨hnone, hnames⟩⟩ h

variable {pg : Jsonb} {keys : List String}

/-- A key that is a hash finds events and no row, a key that is a UUID finds a row and no event. -/
theorem backfillOnce_unchanged (db : Tables) (hpicked : Picked db.outbox keys) :
    backfillOnce pg keys db.events db.outbox = db.outbox := by
  rw [backfillOnce_eq db.checked hpicked.nodup]
  conv_rhs => rw [← List.map_id db.outbox]
  refine List.map_congr_left fun row hrow => ?_
  have hnone : eventsFor db.events row.correlationId = [] := by
    have hfilter : db.events.filter (fun ev => ev.correlationId = some row.correlationId) = [] := by
      refine List.filter_eq_nil_iff.mpr fun ev hev hcorr => ?_
      exact (db.uuids row hrow).not_isHash (db.hashes ev hev _ (of_decide_eq_true hcorr))
    rw [eventsFor, hfilter, List.mergeSort_nil]
  rw [fillRowAll, hnone, List.foldl_nil, ite_self, id_eq]

/-- The routine leaves the rows as they should be exactly where there is no row to repair. -/
theorem backfillOnce_repairs_iff (db : Tables) (hpicked : Picked db.outbox keys) :
    List.Forall₂ (Repaired db.events) db.outbox (backfillOnce pg keys db.events db.outbox) ↔
      ∀ row ∈ db.outbox, ¬ Missed db.events row := by
  rw [backfillOnce_unchanged db hpicked, List.forall₂_same]
  exact forall₂_congr fun row _ => repaired_self_iff

/-! ## A row that was missed -/

section Samples

/-- The row of a finalized `create_task`. -/
def finalizedRow (chainTaskId : Option Int) : OutboundExtrinsic :=
  { OutboundExtrinsic.finalize "0xab" 1 (.insert "67e55044-10b1-426f-9247-bb680e5fe0c8" "TaskMarket"
      "create_task" none .pending 0) with chainTaskId := chainTaskId }

def createdEvent : ChainEventRow where
  blockNumber := 5
  eventIndex := 1
  pallet := "TaskMarket"
  variant := "TaskCreated"
  payload := "[7, 100]"
  correlationId := some "0xab"

theorem sample_isUuid : IsUuid "67e55044-10b1-426f-9247-bb680e5fe0c8" := by
  have hall : ("67e55044-10b1-426f-9247-bb680e5fe0c8".toList.all fun c =>
      c = '-' || c.isDigit || (97 ≤ c.toNat && c.toNat ≤ 102)) = true := by decide
  refine ⟨by decide, fun c hc => ?_⟩
  have hchar := List.all_eq_true.mp hall c hc
  simp only [Bool.or_eq_true, Bool.and_eq_true, decide_eq_true_eq, or_assoc] at hchar
  refine hchar.imp_right (Or.imp_right fun h => ⟨?_, ?_⟩)
  · exact UInt32.le_iff_toNat_le.mpr h.1
  · exact UInt32.le_iff_toNat_le.mpr h.2

/-- One row and the event of its extrinsic. -/
def sampleTables (chainTaskId : Option Int) : Tables where
  outbox := [finalizedRow chainTaskId]
  events := [createdEvent]
  checked row hrow := by
    rw [List.mem_singleton.mp hrow]
    rfl
  uuids row hrow := by
    rw [List.mem_singleton.mp hrow]
    exact sample_isUuid
  hashes ev hev c hc := by
    rw [List.mem_singleton.mp hev] at hc
    rw [← Option.some.inj hc]
    exact ⟨_, rfl⟩

/-- Both keys of the row are picked. -/
theorem sample_picked (chainTaskId : Option Int) :
    Picked (sampleTables chainTaskId).outbox
      ["67e55044-10b1-426f-9247-bb680e5fe0c8", "0xab"] := by
  have hcandidates : candidates (sampleTables chainTaskId).outbox =
      ["67e55044-10b1-426f-9247-bb680e5fe0c8", "0xab"] := by
    cases chainTaskId <;> rfl
  exact ⟨by decide, by simp [hcandidates], by simp [hcandidates]⟩

/-- A row that has its task id already needs no repair. -/
theorem linkedRow_repaired :
    List.Forall₂ (Repaired [createdEvent]) [finalizedRow (some 7)]
      (backfillOnce (.onValues []) ["67e55044-10b1-426f-9247-bb680e5fe0c8", "0xab"] [createdEvent]
        [finalizedRow (some 7)]) := by
  refine (backfillOnce_repairs_iff (sampleTables (some 7)) (sample_picked _)).mpr ?_
  rintro row hrow ⟨hash, id, _, ⟨hnone, _⟩ | ⟨_, ev, hev, _, hpallet, _⟩⟩
  · rw [List.mem_singleton.mp hrow] at hnone
    cases hnone
  · rw [List.mem_singleton.mp hev] at hpallet
    exact absurd hpallet (by decide)

/-- The event of its extrinsic names the task, and the row is still without it. -/
theorem finalizedRow_missed :
    ¬ List.Forall₂ (Repaired [createdEvent]) [finalizedRow none]
      (backfillOnce (.onValues []) ["67e55044-10b1-426f-9247-bb680e5fe0c8", "0xab"] [createdEvent]
        [finalizedRow none]) := by
  intro h
  have hunchanged : backfillOnce (.onValues [])
      ["67e55044-10b1-426f-9247-bb680e5fe0c8", "0xab"] [createdEvent] [finalizedRow none] =
      [finalizedRow none] :=
    backfillOnce_unchanged (sampleTables none) (sample_picked none)
  rw [hunchanged, List.forall₂_same] at h
  refine repaired_self_iff.mp (h _ List.mem_cons_self) ⟨"0xab", 7, rfl, Or.inl ⟨rfl, ?_⟩⟩
  exact ⟨createdEvent, List.mem_cons_self, rfl, rfl, rfl, rfl⟩

end Samples

end Ainur.Backfill
