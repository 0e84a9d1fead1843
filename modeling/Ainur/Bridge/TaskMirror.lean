import Ainur.Chain.Replay
import Ainur.Bridge.Branches

set_option autoImplicit false

/-! # The task mirror

A task of the chain has a history of events, which folds to a status, an agent and the hash of a
result. The replay worker is to keep the row of its chain id at that fold. The events reach a
branch through the cursor skip and `is_supported`, and a branch that panics ends the worker.
-/

namespace Ainur.TaskMirror

open Bridge
open Replay (Cursor)
open Storage (Database)

/-! ## What the chain says -/

/-- What the events of a task come to. -/
structure Fate where
  status : String
  matchedAgent : Option Int
  resultHash : Option String
  deriving DecidableEq, Repr

/-- An event of the chain; a task has no fate before it is created. -/
def Fate.after (t : UInt64) (f : Option Fate) : Event → Option Fate
  | .taskCreated taskId _ =>
      if taskId = t then some { f.getD ⟨"pending", none, none⟩ with status := "pending" } else f
  | .taskMatched payload =>
      match extractTwoU64 payload with
      | (some taskId, some agentId) =>
          if taskId = t then f.map fun f => { f with matchedAgent := some (asI64 agentId) } else f
      | _ => f
  | .taskCompleted taskId _ resultHash =>
      if taskId = t then
        f.map fun f => { f with status := "completed", resultHash := some resultHash }
      else f
  | _ => f

def history (t : UInt64) (events : List Event) : Option Fate := events.foldl (Fate.after t) none

/-- The rows with the chain id. -/
def rowsOf (t : UInt64) (p : PostgresStorage) : List TaskRow :=
  p.tasks.filter fun r => r.chainTaskId = some (asI64 t)

def rowFate (r : TaskRow) : Fate := ⟨r.status, r.matchedAgent, r.resultHash⟩

/-- There is one row with the chain id and it is where the events of the task have brought it. -/
def Follows (t : UInt64) (events : List Event) (p : PostgresStorage) : Prop :=
  (rowsOf t p).map rowFate = (history t events).toList

instance (t : UInt64) (events : List Event) (p : PostgresStorage) : Decidable (Follows t events p) :=
  inferInstanceAs (Decidable (_ = _))

/-! ## The worker -/

/-- The worker between two blocks; it does not run again after a panic. -/
structure Reader where
  tables : PostgresStorage
  lastCursor : Cursor
  running : Bool

/-- The position of an event: its block and its index there. -/
def position (x : UInt32 × Delivery) : Cursor := (x.2.blockNumber.toUInt64, x.1)

section Worker

variable (db : Database) (pg : Jsonb) (pick : Picks)

/-- The branch of a supported event. -/
def readSupported (r : Reader) (x : UInt32 × Delivery) : Reader :=
  if r.running && x.2.event.isSupported then
    match runBranch db pg pick x.2 r.tables with
    | some q => { tables := q, lastCursor := position x, running := true }
    | none => { r with running := false }
  else r

/-- An event of a block; `r.lastCursor` is the `max_cursor` of the block so far. -/
def readEvent (lastCursor : Cursor) (r : Reader) (x : UInt32 × Delivery) : Reader :=
  if Cursor.AtMost (position x) lastCursor then r else readSupported db pg pick r x

def readBlock (r : Reader) (block : List (UInt32 × Delivery)) : Reader :=
  block.foldl (readEvent db pg pick r.lastCursor) r

def readBlocks (r : Reader) (blocks : List (List (UInt32 × Delivery))) : Reader :=
  blocks.foldl (readBlock db pg pick) r

end Worker

/-- Events in chain order, all of them after the cursor. -/
def InOrder (c : Cursor) (xs : List (UInt32 × Delivery)) : Prop :=
  (c :: xs.map position).Pairwise fun a b => ¬ Cursor.AtMost b a

instance (c : Cursor) (xs : List (UInt32 × Delivery)) : Decidable (InOrder c xs) :=
  inferInstanceAs (Decidable (List.Pairwise _ _))

/-- The UUIDs that the branches draw are new. -/
structure Fresh (p : PostgresStorage) (xs : List (UInt32 × Delivery)) : Prop where
  nodup : (xs.map fun x => x.2.generatedId).Nodup
  unused : ∀ x ∈ xs, ∀ r ∈ p.tasks, r.id ≠ x.2.generatedId

/-! ## Events in order are never skipped -/

section Order

variable {db : Database} {pg : Jsonb} {pick : Picks} {r : Reader}

variable (db pg pick r) in
theorem readSupported_cursor (x : UInt32 × Delivery) :
    (readSupported db pg pick r x).lastCursor = r.lastCursor ∨
      (readSupported db pg pick r x).lastCursor = position x := by
  unfold readSupported
  split
  · split
    · exact Or.inr rfl
    · exact Or.inl rfl
  · exact Or.inl rfl

variable (db pg pick) in
theorem readBlock_inOrder {block rest : List (UInt32 × Delivery)} {c : Cursor}
    (hc : ∀ x ∈ block, ¬ Cursor.AtMost (position x) c) (h : InOrder r.lastCursor (block ++ rest)) :
    block.foldl (readEvent db pg pick c) r = block.foldl (readSupported db pg pick) r ∧
      InOrder (block.foldl (readSupported db pg pick) r).lastCursor rest := by
  induction block generalizing r with
  | nil => exact ⟨rfl, h⟩
  | cons x block ih =>
      -- the cursor test uses the cursor of the block's start throughout
      have hx : readEvent db pg pick c r x = readSupported db pg pick r x :=
        if_neg (hc x List.mem_cons_self)
      have hrest : InOrder (readSupported db pg pick r x).lastCursor (block ++ rest) := by
        rw [InOrder, List.cons_append, List.map_cons, List.pairwise_cons] at h
        obtain ⟨hfirst, hlater⟩ := h
        rcases readSupported_cursor db pg pick r x with heq | heq
        · rw [heq, InOrder, List.pairwise_cons]
          exact ⟨fun p hp => hfirst p (List.mem_cons_of_mem _ hp), (List.pairwise_cons.mp hlater).2⟩
        · rw [heq]
          exact hlater
      rw [List.foldl_cons, List.foldl_cons, hx]
      exact ih (fun y hy => hc y (List.mem_cons_of_mem _ hy)) hrest

theorem readBlocks_inOrder {blocks : List (List (UInt32 × Delivery))}
    (h : InOrder r.lastCursor blocks.flatten) :
    readBlocks db pg pick r blocks = blocks.flatten.foldl (readSupported db pg pick) r := by
  induction blocks generalizing r with
  | nil => rfl
  | cons block rest ih =>
      have hc : ∀ x ∈ block, ¬ Cursor.AtMost (position x) r.lastCursor := by
        intro x hx
        exact (List.pairwise_cons.mp h).1 _
          (List.mem_map_of_mem (List.mem_append_left _ hx))
      obtain ⟨hblock, hrest⟩ := readBlock_inOrder db pg pick hc h
      rw [readBlocks, List.foldl_cons, readBlock, hblock, List.flatten_cons, List.foldl_append]
      exact ih hrest

end Order

/-! ## A branch and the fate of a task -/

section Rows

variable {db : Database} {pg : Jsonb} {pick : Picks} {t : UInt64}
variable {p q : PostgresStorage} {f : Option Fate} {d : Delivery}

theorem asI64_injective {a b : UInt64} (h : asI64 a = asI64 b) : a = b := by
  have hint : a.toInt64 = b.toInt64 := Int64.toInt_inj.mp h
  rw [← UInt64.toUInt64_toInt64 a, hint, UInt64.toUInt64_toInt64]

/-- An update that keeps the chain ids changes the rows of a task in their places. -/
theorem rowsOf_map {g : TaskRow → TaskRow} (hq : q.tasks = p.tasks.map g)
    (hchain : ∀ r, (g r).chainTaskId = r.chainTaskId) :
    rowsOf t q = (rowsOf t p).map g := by
  rw [rowsOf, hq, List.filter_map, rowsOf]
  congr 1
  refine List.filter_congr fun r _ => ?_
  simp only [Function.comp_apply, hchain]

theorem mem_rowsOf {r : TaskRow} :
    r ∈ rowsOf t p ↔ r ∈ p.tasks ∧ r.chainTaskId = some (asI64 t) := by
  simp [rowsOf]

/-- What an update does to the rows of the task, it does to its fate. -/
theorem fate_of_map {g : TaskRow → TaskRow} {φ : Fate → Fate} (hq : q.tasks = p.tasks.map g)
    (hchain : ∀ r, (g r).chainTaskId = r.chainTaskId)
    (hfate : ∀ r, r.chainTaskId = some (asI64 t) → rowFate (g r) = φ (rowFate r))
    (h : (rowsOf t p).map rowFate = f.toList) : (rowsOf t q).map rowFate = (f.map φ).toList := by
  have hrows : (rowsOf t q).map rowFate = ((rowsOf t p).map rowFate).map φ := by
    rw [rowsOf_map hq hchain, List.map_map, List.map_map]
    exact List.map_congr_left fun r hr => hfate r (mem_rowsOf.mp hr).2
  rw [hrows, h]
  cases f <;> rfl

theorem fate_taskCreated {taskId : UInt64} {budget : Nat}
    (hunused : ∀ r ∈ p.tasks, r.id ≠ d.generatedId)
    (hq : q.tasks = mirrorRows d (asI64 taskId) p.tasks)
    (h : (rowsOf t p).map rowFate = f.toList) :
    (rowsOf t q).map rowFate = (Fate.after t f (.taskCreated taskId budget)).toList := by
  have hcreated : ∀ f : Option Fate, Fate.after t f (.taskCreated taskId budget) =
      if taskId = t then some { f.getD ⟨"pending", none, none⟩ with status := "pending" } else f :=
    fun _ => rfl
  unfold mirrorRows at hq
  split at hq
  · next hany =>
      by_cases ht : taskId = t
      · subst ht
        rw [fate_of_map (φ := fun f => { f with status := "pending" }) hq
          (fun r => by split <;> rfl) (fun r hr => by rw [if_pos hr]; rfl) h, hcreated, if_pos rfl]
        -- the row that the upsert found is the one of the task
        cases f with
        | none =>
            obtain ⟨r, hr, hchain⟩ := List.any_eq_true.mp hany
            have hmem := List.mem_map_of_mem (f := rowFate)
              (mem_rowsOf.mpr ⟨hr, of_decide_eq_true hchain⟩)
            rw [h] at hmem
            cases hmem
        | some f => rfl
      · have hne : ∀ r : TaskRow, r.chainTaskId = some (asI64 t) →
            ¬ r.chainTaskId = some (asI64 taskId) := by
          intro r hr heq
          exact ht (asI64_injective (Option.some.inj (heq.symm.trans hr)))
        rw [fate_of_map (φ := id) hq (fun r => by split <;> rfl)
          (fun r hr => by rw [if_neg (hne r hr)]; rfl) h, hcreated, if_neg ht, Option.map_id_fun,
          id_eq]
  · next hany =>
      -- no row has the chain id, and the drawn UUID is new, so a row is added
      have hid : ¬ (p.tasks.any fun r => r.id = (mirroredTask d (asI64 taskId)).id) = true := by
        intro hid
        obtain ⟨r, hr, heq⟩ := List.any_eq_true.mp hid
        exact hunused r hr (of_decide_eq_true heq)
      rw [if_neg hid] at hq
      have hrows : rowsOf t q = rowsOf t p ++
          if taskId = t then [mirroredTask d (asI64 taskId)] else [] := by
        rw [rowsOf, hq, List.filter_append, rowsOf]
        congr 1
        by_cases ht : taskId = t
        · simp [ht, mirroredTask]
        · have hne : asI64 taskId ≠ asI64 t := fun heq => ht (asI64_injective heq)
          simp [ht, hne, mirroredTask]
      rw [hrows, List.map_append, h, hcreated]
      by_cases ht : taskId = t
      · have hempty : rowsOf t p = [] := by
          rw [rowsOf, List.filter_eq_nil_iff]
          intro r hr hchain
          exact hany (List.any_eq_true.mpr ⟨r, hr, by rw [ht]; exact hchain⟩)
        have hf : f.toList = [] := by rw [← h, hempty]; rfl
        rw [if_pos ht, if_pos ht, Option.toList_eq_nil_iff.mp hf]
        rfl
      · rw [if_neg ht, if_neg ht]
        simp

theorem fate_taskCompleted {taskId agentId : UInt64} {hash : String}
    (hq : q.tasks = p.tasks.map (completeRow (asI64 taskId) hash))
    (h : (rowsOf t p).map rowFate = f.toList) :
    (rowsOf t q).map rowFate = (Fate.after t f (.taskCompleted taskId agentId hash)).toList := by
  have hchain : ∀ r, (completeRow (asI64 taskId) hash r).chainTaskId = r.chainTaskId := by
    intro r
    unfold completeRow
    split <;> rfl
  have hcompleted : Fate.after t f (.taskCompleted taskId agentId hash) =
      if taskId = t then f.map fun f => { f with status := "completed", resultHash := some hash }
      else f := rfl
  by_cases ht : taskId = t
  · rw [fate_of_map (φ := fun f => { f with status := "completed", resultHash := some hash }) hq
      hchain (fun r hr => by rw [completeRow, ht, if_pos hr]; rfl) h, hcompleted, if_pos ht]
  · have hne : ∀ r : TaskRow, r.chainTaskId = some (asI64 t) →
        ¬ r.chainTaskId = some (asI64 taskId) := by
      intro r hr heq
      exact ht (asI64_injective (Option.some.inj (heq.symm.trans hr)))
    rw [fate_of_map (φ := id) hq hchain (fun r hr => by rw [completeRow, if_neg (hne r hr)]; rfl) h,
      hcompleted, if_neg ht, Option.map_id_fun, id_eq]

end Rows

/-! ## What the filter loses -/

/-- A readable `TaskMatched` of the task. -/
def Matches (t : UInt64) (e : Event) : Prop :=
  ∃ payload agentId, e = .taskMatched payload ∧ extractTwoU64 payload = (some t, some agentId)

/-- The task is created and matched afterwards. -/
def MatchedAfterCreation (t : UInt64) (events : List Event) : Prop :=
  ∃ budget e, Matches t e ∧ [.taskCreated t budget, e].Sublist events

/-- The budget goes into the `json!` of the branch. -/
def jsonTakes : Event → Bool
  | .taskCreated _ budget => budget ≤ u64Max.toNat
  | _ => true

/-- The events before the one whose budget ends the worker. -/
def reached (events : List Event) : List Event := events.takeWhile jsonTakes

def Fate.unmatched (f : Fate) : Fate := { f with matchedAgent := none }

section History

variable {t : UInt64} {f : Option Fate} {e : Event} {events : List Event}

theorem after_taskMatched {payload : String} :
    Fate.after t f (.taskMatched payload) =
      match extractTwoU64 payload with
      | (some taskId, some agentId) =>
          if taskId = t then f.map fun f => { f with matchedAgent := some (asI64 agentId) } else f
      | _ => f := by
  rw [Fate.after]

/-- A supported event does not look at the agent. -/
theorem after_unmatched (h : e.isSupported = true) :
    Fate.after t (f.map Fate.unmatched) e = (Fate.after t f e).map Fate.unmatched := by
  cases e with
  | taskCreated taskId budget =>
      simp only [Fate.after]
      split
      · cases f <;> rfl
      · rfl
  | taskCompleted taskId agentId resultHash =>
      simp only [Fate.after]
      split
      · cases f <;> rfl
      · rfl
  | taskMatched payload => cases h
  | agentRegistered agentId owner => rfl
  | bidSubmitted taskId agentId => rfl
  | other pallet variant => rfl

/-- Any other event touches nothing else. -/
theorem after_unsupported (h : e.isSupported = false) :
    (Fate.after t f e).map Fate.unmatched = f.map Fate.unmatched := by
  cases e with
  | taskMatched payload =>
      rw [after_taskMatched]
      split
      · split
        · cases f <;> rfl
        · rfl
      · rfl
  | other pallet variant => rfl
  | agentRegistered agentId owner => cases h
  | taskCreated taskId budget => cases h
  | bidSubmitted taskId agentId => cases h
  | taskCompleted taskId agentId resultHash => cases h

theorem foldl_supported :
    (events.filter Event.isSupported).foldl (Fate.after t) (f.map Fate.unmatched) =
      (events.foldl (Fate.after t) f).map Fate.unmatched := by
  induction events generalizing f with
  | nil => rfl
  | cons e events ih =>
      cases he : e.isSupported with
      | true =>
          rw [List.filter_cons_of_pos he, List.foldl_cons, List.foldl_cons, after_unmatched he]
          exact ih
      | false =>
          rw [List.filter_cons_of_neg (by simp [he]), List.foldl_cons, ← after_unsupported he]
          exact ih

/-- The supported events tell the whole history but the agent. -/
theorem history_supported :
    history t (events.filter Event.isSupported) = (history t events).map Fate.unmatched :=
  foldl_supported (f := none)

theorem matchedAfterCreation_cons :
    MatchedAfterCreation t (e :: events) ↔
      MatchedAfterCreation t events ∨
        ((∃ budget, e = .taskCreated t budget) ∧ ∃ e' ∈ events, Matches t e') := by
  simp only [MatchedAfterCreation, List.sublist_cons_iff]
  constructor
  · rintro ⟨budget, e', hmatch, hsub | ⟨rest, heq, hsub⟩⟩
    · exact Or.inl ⟨budget, e', hmatch, hsub⟩
    · obtain ⟨rfl, rfl⟩ := List.cons.inj heq
      exact Or.inr ⟨⟨budget, rfl⟩, e', List.singleton_sublist.mp hsub, hmatch⟩
  · rintro (⟨budget, e', hmatch, hsub⟩ | ⟨⟨budget, rfl⟩, e', hmem, hmatch⟩)
    · exact ⟨budget, e', hmatch, Or.inl hsub⟩
    · exact ⟨budget, e', hmatch, Or.inr ⟨[e'], rfl, List.singleton_sublist.mpr hmem⟩⟩

theorem isSome_after :
    (Fate.after t f e).isSome = true ↔ f.isSome = true ∨ ∃ budget, e = .taskCreated t budget := by
  cases e with
  | taskCreated taskId budget =>
      simp only [Fate.after]
      by_cases ht : taskId = t
      · simp [ht]
      · simp [ht]
  | taskCompleted taskId agentId resultHash =>
      simp only [Fate.after]
      split <;> simp
  | taskMatched payload =>
      rw [after_taskMatched]
      split
      · split <;> simp
      · simp
  | agentRegistered agentId owner => simp [Fate.after]
  | bidSubmitted taskId agentId => simp [Fate.after]
  | other pallet variant => simp [Fate.after]

theorem matched_after :
    ((Fate.after t f e).bind Fate.matchedAgent).isSome = true ↔
      (f.bind Fate.matchedAgent).isSome = true ∨ (f.isSome = true ∧ Matches t e) := by
  cases e with
  | taskCreated taskId budget =>
      simp only [Fate.after, Matches]
      split
      · cases f <;> simp
      · simp
  | taskCompleted taskId agentId resultHash =>
      simp only [Fate.after, Matches]
      split
      · cases f <;> simp
      · simp
  | taskMatched payload =>
      rw [after_taskMatched]
      simp only [Matches, Event.taskMatched.injEq]
      split
      · next taskId agentId hpayload =>
          by_cases ht : taskId = t
          · cases f <;> simp [ht, hpayload]
          · simp [ht, hpayload]
      · next hpayload =>
          have hne : ¬ ∃ payload' agentId, payload = payload' ∧
              extractTwoU64 payload' = (some t, some agentId) := by
            rintro ⟨payload', agentId, rfl, heq⟩
            exact hpayload _ _ heq
          simp only [hne, and_false, or_false]
  | agentRegistered agentId owner => simp [Fate.after, Matches]
  | bidSubmitted taskId agentId => simp [Fate.after, Matches]
  | other pallet variant => simp [Fate.after, Matches]

theorem matched_foldl :
    ((events.foldl (Fate.after t) f).bind Fate.matchedAgent).isSome = true ↔
      (f.bind Fate.matchedAgent).isSome = true ∨
        (f.isSome = true ∧ ∃ e ∈ events, Matches t e) ∨ MatchedAfterCreation t events := by
  induction events generalizing f with
  | nil => simp [MatchedAfterCreation]
  | cons e events ih =>
      rw [List.foldl_cons, ih, matched_after, isSome_after, matchedAfterCreation_cons]
      simp only [List.exists_mem_cons_iff]
      -- what is left is propositional: when the creation and the match happen
      generalize (∃ budget, e = .taskCreated t budget) = Created
      generalize (∃ e ∈ events, Matches t e) = Later
      generalize Matches t e = Now
      tauto

theorem history_matched :
    ((history t events).bind Fate.matchedAgent).isSome = true ↔ MatchedAfterCreation t events := by
  rw [history, matched_foldl]
  simp

/-- The filter loses nothing of the history where the task is not matched. -/
theorem history_unmatched (h : ¬ MatchedAfterCreation t events) :
    (history t events).map Fate.unmatched = history t events := by
  rw [← history_matched] at h
  cases hf : history t events with
  | none => rfl
  | some f =>
      rw [hf] at h
      have hnone : f.matchedAgent = none := by simpa using h
      rw [Option.map_some, Fate.unmatched, ← hnone]

theorem MatchedAfterCreation.mono {events' : List Event} (h : MatchedAfterCreation t events)
    (hsub : events.Sublist events') : MatchedAfterCreation t events' :=
  let ⟨budget, e, hmatch, hin⟩ := h
  ⟨budget, e, hmatch, hin.trans hsub⟩

end History

/-! ## The mirror against the chain -/

section Mirror

variable {db : Database} {pg : Jsonb} {pick : Picks} {t : UInt64}
variable {p q : PostgresStorage} {f : Option Fate} {d : Delivery} {r : Reader}
variable {xs : List (UInt32 × Delivery)}

theorem mirrorRows_ids {taskId : Int} {rows : List TaskRow} {row : TaskRow}
    (h : row ∈ mirrorRows d taskId rows) :
    row.id = d.generatedId ∨ ∃ row' ∈ rows, row'.id = row.id := by
  simp only [mirrorRows] at h
  split at h
  · obtain ⟨row', hrow', rfl⟩ := List.mem_map.mp h
    refine Or.inr ⟨row', hrow', ?_⟩
    split <;> rfl
  · split at h
    · exact Or.inr ⟨row, h, rfl⟩
    · rcases List.mem_append.mp h with hold | hnew
      · exact Or.inr ⟨row, hold, rfl⟩
      · rw [List.mem_singleton.mp hnew]
        exact Or.inl rfl

variable (pg pick) in
/-- A branch brings the row of the task one event further, and a new row has the drawn UUID. -/
theorem runBranch_fate (hdb : Mirrors db) (hsupported : d.event.isSupported = true)
    (htakes : jsonTakes d.event = true) (hunused : ∀ row ∈ p.tasks, row.id ≠ d.generatedId)
    (h : (rowsOf t p).map rowFate = f.toList) :
    ∃ q, runBranch db pg pick d p = some q ∧
      (∀ row ∈ q.tasks, row.id = d.generatedId ∨ ∃ row' ∈ p.tasks, row'.id = row.id) ∧
      (rowsOf t q).map rowFate = (Fate.after t f d.event).toList := by
  have hsame : ∀ {q : PostgresStorage}, q.tasks = p.tasks →
      (∀ row ∈ q.tasks, row.id = d.generatedId ∨ ∃ row' ∈ p.tasks, row'.id = row.id) ∧
        (rowsOf t q).map rowFate = f.toList := by
    intro q hq
    refine ⟨fun row hrow => Or.inr ⟨row, hq ▸ hrow, rfl⟩, ?_⟩
    rw [rowsOf, hq]
    exact h
  cases hevent : d.event with
  | agentRegistered agentId owner =>
      obtain ⟨q, hq, htasks, -⟩ := runBranch_agentRegistered db pg pick p hevent
      exact ⟨q, hq, hsame htasks⟩
  | taskCreated taskId budget =>
      rw [hevent] at htakes
      obtain ⟨q, hq, htasks, -⟩ := runBranch_taskCreated pg pick p hdb hevent
        (of_decide_eq_true htakes)
      refine ⟨q, hq, fun row hrow => ?_, fate_taskCreated hunused htasks h⟩
      rw [htasks] at hrow
      exact mirrorRows_ids hrow
  | bidSubmitted taskId agentId =>
      cases hany : p.tasks.any fun r => r.chainTaskId = some (asI64 taskId) with
      | true =>
          obtain ⟨q, hq, htasks, -⟩ := runBranch_bidSubmitted pg pick hdb hevent hany
          exact ⟨q, hq, hsame htasks⟩
      | false => exact ⟨p, runBranch_bidSubmitted_none hevent hany, hsame rfl⟩
  | taskCompleted taskId agentId resultHash =>
      obtain ⟨q, hq, htasks, -⟩ := runBranch_taskCompleted pg pick p hdb hevent
      refine ⟨q, hq, fun row hrow => ?_, fate_taskCompleted htasks h⟩
      rw [htasks] at hrow
      obtain ⟨row', hrow', rfl⟩ := List.mem_map.mp hrow
      refine Or.inr ⟨row', hrow', ?_⟩
      unfold completeRow
      split <;> rfl
  | taskMatched payload =>
      rw [hevent] at hsupported
      cases hsupported
  | other pallet variant =>
      refine ⟨p, ?_, hsame rfl⟩
      simp only [runBranch, Delivery.ops, hevent, Option.bind_some, runOps_nil]

variable (db pg pick p) in
theorem runBranch_panics (h : jsonTakes d.event = false) :
    d.event.isSupported = true ∧ runBranch db pg pick d p = none := by
  cases hevent : d.event with
  | taskCreated taskId budget =>
      rw [hevent] at h
      refine ⟨rfl, ?_⟩
      simp only [runBranch, Delivery.ops, hevent, if_neg (of_decide_eq_false h), Option.bind_none]
  | agentRegistered agentId owner => rw [hevent] at h; cases h
  | bidSubmitted taskId agentId => rw [hevent] at h; cases h
  | taskCompleted taskId agentId resultHash => rw [hevent] at h; cases h
  | taskMatched payload => rw [hevent] at h; cases h
  | other pallet variant => rw [hevent] at h; cases h

theorem foldl_readSupported_stopped (h : r.running = false) :
    xs.foldl (readSupported db pg pick) r = r := by
  induction xs with
  | nil => rfl
  | cons x xs ih =>
      have hx : readSupported db pg pick r x = r := by simp [readSupported, h]
      rw [List.foldl_cons, hx]
      exact ih

theorem Fresh.tail {x : UInt32 × Delivery} (h : Fresh p (x :: xs))
    (hids : ∀ row ∈ q.tasks, row.id = x.2.generatedId ∨ ∃ row' ∈ p.tasks, row'.id = row.id) :
    Fresh q xs := by
  obtain ⟨hx, hnodup⟩ := List.nodup_cons.mp (List.map_cons ▸ h.nodup)
  refine ⟨hnodup, fun y hy row hrow heq => ?_⟩
  rcases hids row hrow with hnew | ⟨row', hrow', hold⟩
  · exact hx (List.mem_map.mpr ⟨y, hy, by rw [← heq, hnew]⟩)
  · exact h.unused y (List.mem_cons_of_mem _ hy) row' hrow' (hold.trans heq)

/-- The supported events that are reached bring the row where they bring the task. -/
theorem foldl_readSupported (hdb : Mirrors db) (hfresh : Fresh r.tables xs)
    (hrunning : r.running = true) (h : (rowsOf t r.tables).map rowFate = f.toList) :
    (rowsOf t (xs.foldl (readSupported db pg pick) r).tables).map rowFate =
      (((reached (xs.map fun x => x.2.event)).filter Event.isSupported).foldl
        (Fate.after t) f).toList := by
  induction xs generalizing r f with
  | nil => exact h
  | cons x xs ih =>
      rw [List.foldl_cons, List.map_cons]
      cases htakes : jsonTakes x.2.event with
      | false =>
          -- the worker ends here; nothing that comes later is read
          obtain ⟨hsupported, hpanics⟩ := runBranch_panics db pg pick r.tables htakes
          have hx : readSupported db pg pick r x = { r with running := false } := by
            simp only [readSupported, hrunning, hsupported, hpanics, Bool.and_self, if_true]
          rw [hx, foldl_readSupported_stopped rfl, reached,
            List.takeWhile_cons_of_neg (by simp [htakes])]
          exact h
      | true =>
          rw [reached, List.takeWhile_cons_of_pos htakes]
          cases hsupported : x.2.event.isSupported with
          | false =>
              have hx : readSupported db pg pick r x = r := by simp [readSupported, hsupported]
              rw [hx, List.filter_cons_of_neg (by simp [hsupported])]
              exact ih (hfresh.tail fun row hrow => Or.inr ⟨row, hrow, rfl⟩) hrunning h
          | true =>
              obtain ⟨q, hq, hids, hfate⟩ := runBranch_fate pg pick hdb hsupported
                htakes (hfresh.unused x List.mem_cons_self) h
              have hx : readSupported db pg pick r x =
                  { tables := q, lastCursor := position x, running := true } := by
                simp only [readSupported, hrunning, hsupported, hq, Bool.and_self, if_true]
              rw [hx, List.filter_cons_of_pos hsupported, List.foldl_cons]
              exact ih (hfresh.tail hids) rfl hfate

end Mirror

/-- The events of some blocks. -/
def eventsOf (blocks : List (List (UInt32 × Delivery))) : List Event :=
  blocks.flatten.map fun x => x.2.event

/-- The row of a task follows the chain as long as the task is not matched and no event of its own
is lost to a panic. -/
theorem taskMirror_follows_iff {db : Database} {pg : Jsonb} {pick : Picks} {t : UInt64}
    {p : PostgresStorage} {c : Cursor} {blocks : List (List (UInt32 × Delivery))}
    (hdb : Mirrors db) (horder : InOrder c blocks.flatten) (hfresh : Fresh p blocks.flatten)
    (hnew : rowsOf t p = []) :
    Follows t (eventsOf blocks) (readBlocks db pg pick ⟨p, c, true⟩ blocks).tables ↔
      ¬ MatchedAfterCreation t (eventsOf blocks) ∧
        history t (reached (eventsOf blocks)) = history t (eventsOf blocks) := by
  have hrows : (rowsOf t (readBlocks db pg pick ⟨p, c, true⟩ blocks).tables).map rowFate =
      ((history t (reached (eventsOf blocks))).map Fate.unmatched).toList := by
    rw [readBlocks_inOrder horder,
      foldl_readSupported (f := none) hdb hfresh rfl (by rw [hnew]; rfl), ← history_supported]
    rfl
  have hinit : (reached (eventsOf blocks)).Sublist (eventsOf blocks) :=
    (List.takeWhile_prefix _).sublist
  rw [Follows, hrows]
  constructor
  · intro h
    -- the row shows no agent, so the history has none either
    have hfollows : (history t (reached (eventsOf blocks))).map Fate.unmatched =
        history t (eventsOf blocks) := by
      simpa using congrArg List.head? h
    have hmatched : ¬ MatchedAfterCreation t (eventsOf blocks) := by
      rw [← history_matched, ← hfollows]
      cases history t (reached (eventsOf blocks)) <;> simp [Fate.unmatched]
    refine ⟨hmatched, ?_⟩
    rw [← hfollows, history_unmatched fun hreached => hmatched (hreached.mono hinit)]
  · rintro ⟨hmatched, hreached⟩
    rw [history_unmatched fun h => hmatched (h.mono hinit), hreached]

/-! ## A task of the chain -/

section Samples

def sampleEvent (event : Event) (blockNumber : UInt32) (index : UInt32) : UInt32 × Delivery :=
  (index,
    { event := event
      blockNumber := blockNumber
      correlation := none
      generatedId := toString blockNumber.toNat
      now := 1700000000 })

def createdTask : UInt32 × Delivery := sampleEvent (.taskCreated 7 100) 5 2

/-- The worker before the first block of a chain, with nothing stored. -/
def firstReader : Reader := ⟨⟨[], [], [], [], []⟩, (0, 0), true⟩

theorem fresh_firstReader {xs : List (UInt32 × Delivery)}
    (h : (xs.map fun x => x.2.generatedId).Nodup) : Fresh firstReader.tables xs :=
  ⟨h, fun _ _ _ hr => by cases hr⟩

/-- Task 7 is created and completed. -/
def completedBlocks : List (List (UInt32 × Delivery)) :=
  [[createdTask], [], [sampleEvent (.taskCompleted 7 3 "0xab") 6 2]]

/-- Task 7 is created and matched with agent 3. -/
def matchedBlocks : List (List (UInt32 × Delivery)) :=
  [[createdTask], [sampleEvent (.taskMatched "[7, 3]") 6 2]]

theorem completed_follows :
    Follows 7 (eventsOf completedBlocks)
      (readBlocks Storage.asWritten (.onValues []) (fun _ _ => "5") firstReader
        completedBlocks).tables := by
  refine (taskMirror_follows_iff asWritten_mirrors (by decide)
    (fresh_firstReader (by decide)) rfl).mpr ⟨?_, rfl⟩
  rw [← history_matched]
  decide

/-- The agent of the task never arrives. -/
theorem matchedAgent_lost :
    ¬ ∀ (t : UInt64) (blocks : List (List (UInt32 × Delivery))),
      InOrder firstReader.lastCursor blocks.flatten →
      Fresh firstReader.tables blocks.flatten →
      (∃ budget, .taskCreated t budget ∈ eventsOf blocks) →
      Follows t (eventsOf blocks)
        (readBlocks Storage.asWritten (.onValues []) (fun _ _ => "5") firstReader
          blocks).tables := by
  intro h
  have hfollows := h 7 matchedBlocks (by decide) (fresh_firstReader (by decide)) ⟨100, by decide⟩
  revert hfollows
  decide +kernel

end Samples

end Ainur.TaskMirror
