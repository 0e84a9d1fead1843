import Ainur.Lib.Run
import Mathlib.Tactic.Common

set_option autoImplicit false

/-! # The replay worker and its cursor

`run_chain_replay` as a state machine: it subscribes to finalized blocks, records every supported
event later than its cursor, and moves the persisted cursor at the end of each block. A step is
one exit of the nested loops; what the node, the database and the process do there is in the
label. Every finalized chain is a `Chain`, of which a growing part is finalized.

What the worker does to agents, tasks and the outbox between reading an event and recording it
is not part of this module.
-/

namespace Ainur.Replay

/-- A position in the chain: block number and event index. -/
abbrev Cursor := UInt64 × UInt32

/-- The test of the cursor skip: `p` is at or before `c`. -/
def Cursor.AtMost (p c : Cursor) : Prop := p.1 < c.1 ∨ (p.1 = c.1 ∧ p.2 ≤ c.2)

instance (p c : Cursor) : Decidable (Cursor.AtMost p c) := by
  unfold Cursor.AtMost
  infer_instance

theorem Cursor.AtMost.trans {a b c : Cursor} (hab : Cursor.AtMost a b)
    (hbc : Cursor.AtMost b c) : Cursor.AtMost a c := by
  unfold Cursor.AtMost at *
  simp only [UInt64.lt_iff_toNat_lt, UInt32.le_iff_toNat_le, ← UInt64.toNat_inj] at *
  omega

theorem Cursor.le_refl (c : Cursor) : Cursor.AtMost c c :=
  Or.inr ⟨rfl, UInt32.le_iff_toNat_le.mpr (Nat.le_refl _)⟩

theorem Cursor.le_total {a b : Cursor} (h : ¬ Cursor.AtMost a b) : Cursor.AtMost b a := by
  unfold Cursor.AtMost at *
  simp only [UInt64.lt_iff_toNat_lt, UInt32.le_iff_toNat_le, ← UInt64.toNat_inj] at *
  omega

/-- The test before `update_chain_cursor` is the strict order. -/
theorem Cursor.advance_iff {last max : Cursor} :
    (last.1 < max.1 ∨ (max.1 = last.1 ∧ last.2 < max.2)) ↔ ¬ Cursor.AtMost max last := by
  unfold Cursor.AtMost
  simp only [UInt64.lt_iff_toNat_lt, UInt32.le_iff_toNat_le, UInt32.lt_iff_toNat_lt,
    ← UInt64.toNat_inj]
  omega

/-- An event of a block. -/
structure ChainEvent where
  index : UInt32
  pallet : String
  variant : String
  /-- The `Debug` text of the field values, where they can be decoded. -/
  fieldValues : Option String
  /-- The hash of the extrinsic whose phase the event belongs to. -/
  extrinsicHash : Option String
  deriving DecidableEq, Repr

/-- `is_supported`. -/
def isSupported (pallet variant : String) : Bool :=
  match pallet, variant with
  | "AgentRegistry", "AgentRegistered" => true
  | "AgentRegistry", "AgentUpdated" => true
  | "AgentRegistry", "AgentRetired" => true
  | "AgentRegistry", "AgentStatusForced" => true
  | "TaskMarket", "TaskCreated" => true
  | "TaskMarket", "BidSubmitted" => true
  | "TaskMarket", "BidRevealed" => true
  | "TaskMarket", "TaskAllocated" => true
  | "TaskMarket", "TaskCompleted" => true
  | "TaskMarket", "TaskFailed" => true
  | "Commitments", "CommitmentProposed" => true
  | "Commitments", "CommitmentSigned" => true
  | "Commitments", "CommitmentFinalized" => true
  | "Commitments", "CommitmentDisputed" => true
  | "Commitments", "CommitmentCancelled" => true
  | _, _ => false

/-- The finalized blocks, each with its events in the order of their indices. -/
structure Chain where
  events : UInt32 → List ChainEvent
  ordered : ∀ block, (events block).Pairwise fun e f => e.index < f.index

/-- The position of an event of a block. -/
def position (block : UInt32) (e : ChainEvent) : Cursor := (block.toUInt64, e.index)

/-! ## The Postgres sink -/

/-- A row of `chain_events`. -/
structure ChainEventRow where
  blockNumber : Int64
  eventIndex : Int32
  pallet : String
  variant : String
  payload : String
  correlationId : Option String
  deriving DecidableEq, Repr

/-- `record_chain_event`: `ON CONFLICT (block_number, event_index) DO NOTHING`. -/
def recordChainEvent (rows : List ChainEventRow) (row : ChainEventRow) : List ChainEventRow :=
  if rows.any fun r => r.blockNumber = row.blockNumber ∧ r.eventIndex = row.eventIndex then rows
  else rows ++ [row]

/-- The row of `chain_cursors` that `update_chain_cursor` writes. -/
def cursorRow (c : Cursor) : Int64 × Int32 := (c.1.toInt64, c.2.toInt32)

/-- `last_chain_cursor` on that row. -/
def readCursor (row : Int64 × Int32) : Cursor := (row.1.toUInt64, row.2.toUInt32)

/-- The cursor that a session starts from: `unwrap_or((0, 0))`. -/
def lastCursor (row : Option (Int64 × Int32)) : Cursor := (row.map readCursor).getD (0, 0)

@[simp] theorem readCursor_cursorRow (c : Cursor) : readCursor (cursorRow c) = c := by
  simp [readCursor, cursorRow]

/-! ## The worker -/

/-- Where `run_chain_replay` is. -/
inductive Worker where
  /-- Not running: before a start, after an error it returned, or after a crash. -/
  | stopped
  /-- At the top of the reconnect loop. -/
  | connecting
  /-- Waiting for the block `next` of its subscription. -/
  | listening (next : UInt32) (lastCursor : Cursor)
  /-- Iterating over the events of `block`. -/
  | reading (block : UInt32) (rest : List ChainEvent) (lastCursor maxCursor : Cursor)
  deriving DecidableEq, Repr

structure State where
  /-- The last finalized block. -/
  finalized : UInt32
  rows : List ChainEventRow
  cursor : Option (Int64 × Int32)
  worker : Worker
  deriving DecidableEq, Repr

inductive Label where
  /-- One more block is finalized. -/
  | finalize
  | start
  /-- The subscription begins at the block finalized now; `cursorRead` is the success of
  `last_chain_cursor`. -/
  | subscribe (cursorRead : Bool)
  /-- The next block arrives; `fetched` is the success of `block.events()`. -/
  | deliver (fetched : Bool)
  /-- The next event of the block; the flags are the success of its decoding, of
  `block.extrinsics()` and of `record_chain_event`. -/
  | event (decoded extrinsics recorded : Bool)
  /-- The iterator is exhausted; `updated` is the success of `update_chain_cursor`. -/
  | endBlock (updated : Bool)
  /-- The subscription breaks or ends. -/
  | disconnect
  | crash
  deriving DecidableEq, Repr

/-- The row of an event, as `run_chain_replay` records it. -/
def eventRow (block : UInt32) (e : ChainEvent) (extrinsics : Bool) : ChainEventRow where
  blockNumber := block.toUInt64.toInt64
  eventIndex := e.index.toInt32
  pallet := e.pallet
  variant := e.variant
  payload := e.fieldValues.getD "<undecodable>"
  correlationId := if extrinsics then e.extrinsicHash else none

/-- What a label does, where it is enabled. -/
def step (chain : Chain) (s : State) : Label → Option State
  | .finalize =>
      if s.finalized + 1 = 0 then none else some { s with finalized := s.finalized + 1 }
  | .start => if s.worker = .stopped then some { s with worker := .connecting } else none
  | .subscribe cursorRead =>
      match s.worker with
      | .connecting =>
          if cursorRead then
            some { s with worker := .listening s.finalized (lastCursor s.cursor) }
          else some { s with worker := .stopped }
      | _ => none
  | .deliver fetched =>
      match s.worker with
      | .listening next last =>
          if next ≤ s.finalized then
            if fetched then
              some { s with worker := .reading next (chain.events next) last last }
            else some { s with worker := .listening (next + 1) last }
          else none
      | _ => none
  | .event decoded extrinsics recorded =>
      match s.worker with
      | .reading block (e :: rest) last max =>
          if decoded = false ∨ Cursor.AtMost (position block e) last ∨
              isSupported e.pallet e.variant = false then
            some { s with worker := .reading block rest last max }
          else if recorded then
            some { s with
              rows := recordChainEvent s.rows (eventRow block e extrinsics)
              worker := .reading block rest last (position block e) }
          else some { s with worker := .stopped }
      | _ => none
  | .endBlock updated =>
      match s.worker with
      | .reading block [] last max =>
          if last.1 < max.1 ∨ (max.1 = last.1 ∧ last.2 < max.2) then
            if updated then
              some { s with
                cursor := some (cursorRow max)
                worker := .listening (block + 1) max }
            else some { s with worker := .stopped }
          else some { s with worker := .listening (block + 1) last }
      | _ => none
  | .disconnect =>
      match s.worker with
      | .listening _ _ => some { s with worker := .connecting }
      | _ => none
  | .crash => if s.worker = .stopped then none else some { s with worker := .stopped }

/-- The worker before its first start. -/
def initial (finalized : UInt32) (rows : List ChainEventRow) (cursor : Option (Int64 × Int32)) :
    State where
  finalized := finalized
  rows := rows
  cursor := cursor
  worker := .stopped

/-! ## No gap behind the cursor -/

/-- The event at `p` has its row. -/
def HasRow (s : State) (p : Cursor) : Prop :=
  ∃ row ∈ s.rows, (row.blockNumber, row.eventIndex) = cursorRow p

/-- Every supported event later than `start` and at most `c` has its row. -/
def NoGapUpTo (chain : Chain) (start : Cursor) (s : State) (c : Cursor) : Prop :=
  ∀ block, ∀ e ∈ chain.events block, isSupported e.pallet e.variant = true →
    ¬ Cursor.AtMost (position block e) start → Cursor.AtMost (position block e) c →
    HasRow s (position block e)

/-- No gap behind the persisted cursor, for a worker that first started from `start`. -/
def NoGap (chain : Chain) (start : Cursor) (s : State) : Prop :=
  ∀ row, s.cursor = some row → NoGapUpTo chain start s (readCursor row)

/-- An event that the worker would record: supported, later than `last`, and without a row. -/
def Due (s : State) (last : Cursor) (block : UInt32) (e : ChainEvent) : Prop :=
  isSupported e.pallet e.variant = true ∧ ¬ Cursor.AtMost (position block e) last ∧
    ¬ HasRow s (position block e)

/-- The step passes over an event that is due: a subscription begins after its block, its block
cannot be fetched, or it cannot be decoded. -/
def Loses (chain : Chain) (s : State) : Label → Prop
  | .subscribe _ =>
      ∃ block < s.finalized, ∃ e ∈ chain.events block,
        Due s (lastCursor s.cursor) block e
  | .deliver fetched =>
      match s.worker with
      | .listening next last => fetched = false ∧ ∃ e ∈ chain.events next, Due s last next e
      | _ => False
  | .event decoded _ _ =>
      match s.worker with
      | .reading block (e :: _) last _ => decoded = false ∧ Due s last block e
      | _ => False
  | _ => False

/-! ## The invariant -/

/-- Nothing is due in the blocks that a session has left behind, nor among the events of the
current block that it has passed. -/
def Session (chain : Chain) (start : Cursor) (s : State) : Worker → Prop
  | .stopped | .connecting => True
  | .listening next last =>
      NoGapUpTo chain start s last ∧ ∀ block < next, ∀ e ∈ chain.events block, ¬ Due s last block e
  | .reading block rest last max =>
      NoGapUpTo chain start s last ∧ (∀ b < block, ∀ e ∈ chain.events b, ¬ Due s last b e) ∧
        (∀ e ∈ chain.events block, e ∈ rest ∨ ¬ Due s last block e) ∧
        (max = last ∨ max.1 = block.toUInt64)

structure Invariant (chain : Chain) (start : Cursor) (s : State) : Prop where
  persisted : NoGapUpTo chain start s (lastCursor s.cursor)
  session : Session chain start s s.worker

theorem hasRow_of_not_due {s : State} {last : Cursor} {block : UInt32} {e : ChainEvent}
    (hdue : ¬ Due s last block e) (hsup : isSupported e.pallet e.variant = true)
    (hlast : ¬ Cursor.AtMost (position block e) last) : HasRow s (position block e) := by
  by_contra hrow
  exact hdue ⟨hsup, hlast, hrow⟩

/-! ### More rows -/

/-- `t` has the rows of `s` and perhaps more. -/
def Extends (s t : State) : Prop := ∀ p, HasRow s p → HasRow t p

theorem mem_recordChainEvent {rows : List ChainEventRow} {row r : ChainEventRow}
    (h : r ∈ rows) : r ∈ recordChainEvent rows row := by
  unfold recordChainEvent
  split
  · exact h
  · exact List.mem_append_left _ h

/-- The recorded event has its row, old or new. -/
theorem hasRow_recordChainEvent {rows : List ChainEventRow} (row : ChainEventRow) :
    ∃ r ∈ recordChainEvent rows row,
      (r.blockNumber, r.eventIndex) = (row.blockNumber, row.eventIndex) := by
  unfold recordChainEvent
  split
  · next hany =>
      obtain ⟨r, hr, heq⟩ := List.any_eq_true.mp hany
      exact ⟨r, hr, by simpa using heq⟩
  · exact ⟨row, by simp, rfl⟩

theorem NoGapUpTo.extends {chain : Chain} {start c : Cursor} {s t : State}
    (h : NoGapUpTo chain start s c) (hext : Extends s t) : NoGapUpTo chain start t c :=
  fun block e he hsup hstart hc => hext _ (h block e he hsup hstart hc)

theorem not_due_extends {s t : State} {last : Cursor} {block : UInt32} {e : ChainEvent}
    (h : ¬ Due s last block e) (hext : Extends s t) : ¬ Due t last block e :=
  fun ⟨hsup, hlast, hrow⟩ => h ⟨hsup, hlast, fun hs => hrow (hext _ hs)⟩

/-! ### Every step keeps it -/

section Steps

variable {chain : Chain} {start : Cursor} {s t : State}

/-- A step that leaves the database alone and ends the session. -/
theorem Invariant.endSession {worker : Worker} (h : Invariant chain start s)
    (hworker : worker = .stopped ∨ worker = .connecting) :
    Invariant chain start { s with worker := worker } where
  persisted := h.persisted
  session := by rcases hworker with rfl | rfl <;> trivial

theorem Invariant.finalize (h : Invariant chain start s) (n : UInt32) :
    Invariant chain start { s with finalized := n } where
  persisted := h.persisted
  session := h.session

theorem Invariant.subscribe {ok : Bool} (h : Invariant chain start s)
    (hkeep : ¬ Loses chain s (.subscribe ok)) :
    Invariant chain start { s with worker := .listening s.finalized (lastCursor s.cursor) } where
  persisted := h.persisted
  session := by
    refine ⟨h.persisted, fun block hlt e he hdue => hkeep ⟨block, hlt, e, he, hdue⟩⟩

/-- The block after `next` is past only what `next` and the blocks before it hold. -/
theorem lt_succ_cases {block next : UInt32} (h : block < next + 1) :
    block < next ∨ block = next := by
  rw [UInt32.lt_iff_toNat_lt] at h ⊢
  rw [← UInt32.toNat_inj]
  rw [UInt32.toNat_add] at h
  have hle : (next.toNat + UInt32.toNat 1) % 2 ^ 32 ≤ next.toNat + 1 := Nat.mod_le _ _
  omega

theorem Invariant.deliver {fetched : Bool} {next : UInt32} {last : Cursor}
    (h : Invariant chain start s) (hworker : s.worker = .listening next last)
    (hkeep : ¬ Loses chain s (.deliver fetched)) :
    Invariant chain start (if fetched then
        { s with worker := .reading next (chain.events next) last last }
      else { s with worker := .listening (next + 1) last }) := by
  have hsession := h.session
  rw [hworker] at hsession
  obtain ⟨hgap, hbefore⟩ := hsession
  cases fetched with
  | true => exact ⟨h.persisted, hgap, hbefore, fun e he => Or.inl he, Or.inl rfl⟩
  | false =>
      refine ⟨h.persisted, hgap, fun block hlt e he => ?_⟩
      rcases lt_succ_cases hlt with hlt | rfl
      · exact hbefore block hlt e he
      · intro hdue
        refine hkeep ?_
        simp only [Loses, hworker]
        exact ⟨trivial, e, he, hdue⟩

/-- An event that is passed over was not due. -/
theorem Invariant.passEvent {block : UInt32} {e : ChainEvent} {rest : List ChainEvent}
    {last max : Cursor} (h : Invariant chain start s)
    (hworker : s.worker = .reading block (e :: rest) last max) (hpass : ¬ Due s last block e) :
    Invariant chain start { s with worker := .reading block rest last max } := by
  have hsession := h.session
  rw [hworker] at hsession
  obtain ⟨hgap, hbefore, hblock, hmax⟩ := hsession
  refine ⟨h.persisted, hgap, hbefore, fun e' he' => ?_, hmax⟩
  rcases hblock e' he' with hrest | hdone
  · rcases List.mem_cons.mp hrest with rfl | hrest
    · exact Or.inr hpass
    · exact Or.inl hrest
  · exact Or.inr hdone

theorem Invariant.recordEvent {block : UInt32} {e : ChainEvent} {rest : List ChainEvent}
    {last max : Cursor} {extrinsics : Bool} (h : Invariant chain start s)
    (hworker : s.worker = .reading block (e :: rest) last max) :
    Invariant chain start { s with
      rows := recordChainEvent s.rows (eventRow block e extrinsics)
      worker := .reading block rest last (position block e) } := by
  have hsession := h.session
  rw [hworker] at hsession
  obtain ⟨hgap, hbefore, hblock, hmax⟩ := hsession
  have hext : Extends s { s with
      rows := recordChainEvent s.rows (eventRow block e extrinsics)
      worker := .reading block rest last (position block e) } :=
    fun p ⟨row, hrow, hp⟩ => ⟨row, mem_recordChainEvent hrow, hp⟩
  refine ⟨h.persisted.extends hext, hgap.extends hext,
    fun b hb e' he' => not_due_extends (hbefore b hb e' he') hext, fun e' he' => ?_,
    Or.inr rfl⟩
  rcases hblock e' he' with hrest | hdone
  · rcases List.mem_cons.mp hrest with rfl | hrest
    · exact Or.inr fun ⟨_, _, hrow⟩ => hrow (hasRow_recordChainEvent _)
    · exact Or.inl hrest
  · exact Or.inr (not_due_extends hdone hext)

/-- The end of a block: nothing up to `max` is due any more, so the cursor may move there. -/
theorem Invariant.endBlock {block : UInt32} {last max : Cursor} (h : Invariant chain start s)
    (hworker : s.worker = .reading block [] last max) :
    NoGapUpTo chain start s max ∧ ∀ b < block + 1, ∀ e ∈ chain.events b, ¬ Due s last b e := by
  have hsession := h.session
  rw [hworker] at hsession
  obtain ⟨hgap, hbefore, hblock, hmax⟩ := hsession
  have hdone : ∀ b < block + 1, ∀ e ∈ chain.events b, ¬ Due s last b e := by
    intro b hb e he
    rcases lt_succ_cases hb with hlt | rfl
    · exact hbefore b hlt e he
    · rcases hblock e he with hnil | hdue
      · cases hnil
      · exact hdue
  refine ⟨fun b e he hsup hstart hle => ?_, hdone⟩
  by_cases hlast : Cursor.AtMost (position b e) last
  · exact hgap b e he hsup hstart hlast
  · rcases hmax with rfl | hmax
    · exact absurd hle hlast
    · -- the cursor stands in this block, so the event is in it or in a block before it
      have hcases : b < block ∨ b = block := by
        unfold Cursor.AtMost position at hle
        rw [hmax] at hle
        simp only [UInt64.lt_iff_toNat_lt, UInt32.toNat_toUInt64, ← UInt64.toNat_inj] at hle
        rw [UInt32.lt_iff_toNat_lt, ← UInt32.toNat_inj]
        omega
      rcases hcases with hlt | rfl
      · exact hasRow_of_not_due (hbefore b hlt e he) hsup hlast
      · rcases hblock e he with hnil | hdue
        · cases hnil
        · exact hasRow_of_not_due hdue hsup hlast

/-- **A step that loses no event keeps the invariant.** -/
theorem Invariant.step (s : State) (l : Label) (t : State) (h : Invariant chain start s)
    (hkeep : ¬ Loses chain s l) (hstep : step chain s l = some t) : Invariant chain start t := by
  cases l with
  | finalize =>
      simp only [Replay.step] at hstep
      split at hstep
      · cases hstep
      · obtain rfl := Option.some.inj hstep
        exact h.finalize _
  | start =>
      simp only [Replay.step] at hstep
      split at hstep
      · obtain rfl := Option.some.inj hstep
        exact h.endSession (Or.inr rfl)
      · cases hstep
  | subscribe cursorRead =>
      simp only [Replay.step] at hstep
      split at hstep
      · split at hstep
        · obtain rfl := Option.some.inj hstep
          exact h.subscribe hkeep
        · obtain rfl := Option.some.inj hstep
          exact h.endSession (Or.inl rfl)
      · cases hstep
  | deliver fetched =>
      simp only [Replay.step] at hstep
      split at hstep
      · next next last hworker =>
          split at hstep
          · have hnext := h.deliver hworker hkeep
            cases fetched <;> (obtain rfl := Option.some.inj hstep; exact hnext)
          · cases hstep
      · cases hstep
  | event decoded extrinsics recorded =>
      simp only [Replay.step] at hstep
      split at hstep
      · next block e rest last max hworker =>
          split at hstep
          · next hskip =>
              obtain rfl := Option.some.inj hstep
              -- what is passed over is not due, or the step would lose it
              refine h.passEvent hworker ?_
              rintro ⟨hsup, hlast, hrow⟩
              rcases hskip with hdecoded | hle | hunsup
              · refine hkeep ?_
                simp only [Loses, hworker]
                exact ⟨hdecoded, hsup, hlast, hrow⟩
              · exact hlast hle
              · rw [hsup] at hunsup
                cases hunsup
          · split at hstep
            · obtain rfl := Option.some.inj hstep
              exact h.recordEvent hworker
            · obtain rfl := Option.some.inj hstep
              exact h.endSession (Or.inl rfl)
      · cases hstep
  | endBlock updated =>
      simp only [Replay.step] at hstep
      split at hstep
      · next block last max hworker =>
          obtain ⟨hgap, hdone⟩ := h.endBlock hworker
          have hsession := h.session
          rw [hworker] at hsession
          split at hstep
          · next hadvance =>
              split at hstep
              · obtain rfl := Option.some.inj hstep
                -- the new cursor is the later one, and the block has been read up to it
                have hle : Cursor.AtMost last max := Cursor.le_total (Cursor.advance_iff.mp hadvance)
                refine ⟨?_, hgap, fun b hb e he hdue => ?_⟩
                · show NoGapUpTo chain start _ (readCursor (cursorRow max))
                  rw [readCursor_cursorRow]
                  exact hgap
                · exact hdone b hb e he
                    ⟨hdue.1, fun hlast => hdue.2.1 (hlast.trans hle), hdue.2.2⟩
              · obtain rfl := Option.some.inj hstep
                exact h.endSession (Or.inl rfl)
          · obtain rfl := Option.some.inj hstep
            exact ⟨h.persisted, hsession.1, hdone⟩
      · cases hstep
  | disconnect =>
      simp only [Replay.step] at hstep
      split at hstep
      · obtain rfl := Option.some.inj hstep
        exact h.endSession (Or.inr rfl)
      · cases hstep
  | crash =>
      simp only [Replay.step] at hstep
      split at hstep
      · cases hstep
      · obtain rfl := Option.some.inj hstep
        exact h.endSession (Or.inl rfl)

theorem Invariant.initial (chain : Chain) (finalized : UInt32) (rows : List ChainEventRow)
    (cursor : Option (Int64 × Int32)) :
    Invariant chain (lastCursor cursor) (Replay.initial finalized rows cursor) where
  persisted := fun _ _ _ _ hstart hle => absurd hle hstart
  session := trivial

end Steps

/-- **No gap behind the replay cursor**, in any state of a run in which no step passes over an
event that is due. -/
theorem noGap_of_noLoss (chain : Chain) (finalized : UInt32) (rows : List ChainEventRow)
    (cursor : Option (Int64 × Int32)) (tr : List (State × Label)) (s : State)
    (hrun : Transition.Run (step chain) (initial finalized rows cursor) tr s)
    (hkeep : Transition.EachStep (fun s l => ¬ Loses chain s l) tr) :
    Transition.Always (NoGap chain (lastCursor cursor)) tr s := by
  have hinv : Transition.Always (Invariant chain (lastCursor cursor)) tr s :=
    Transition.Run.always_of (Invariant.initial chain finalized rows cursor)
      (fun s l t h hl hstep => h.step s l t hl hstep) hrun hkeep
  refine hinv.mono fun u hu row hrow => ?_
  have hgap := hu.persisted
  rw [hrow] at hgap
  exact hgap

/-! ## A block that no subscription delivers -/

/-- A task is created in each of the blocks 1, 2 and 3. -/
def threeTasks : Chain where
  events block := if block = 1 ∨ block = 2 ∨ block = 3 then
      [⟨0, "TaskMarket", "TaskCreated", some "[7, 1000]", none⟩] else []
  ordered block := by
    split
    · exact List.pairwise_singleton _ _
    · exact List.Pairwise.nil

/-- A session that begins at the first of these blocks loses nothing. -/
theorem threeTasks_first {s : State} (h : s.finalized = 1) {cursorRead : Bool} :
    ¬ Loses threeTasks s (.subscribe cursorRead) := by
  rintro ⟨block, hlt, e, he, -⟩
  obtain rfl : block = 0 := by
    rw [h] at hlt
    have hlt : block.toNat < 1 := hlt
    rw [← UInt32.toNat_inj]
    show block.toNat = 0
    omega
  cases he

/-- The worker processes block 1 as it is finalized. -/
def firstBlock : List Label :=
  [.start, .subscribe true, .deliver true, .event true true true, .endBlock true]

/-- It stops, blocks 2 and 3 are finalized, and the restarted worker subscribes at block 3. -/
def restart : List Label :=
  [.crash, .finalize, .finalize, .start, .subscribe true, .deliver true,
    .event true true true, .endBlock true]

/-- Without the restart there is no gap. -/
theorem firstBlock_noGap :
    ∃ tr s, Transition.Run (step threeTasks) (initial 1 [] none) tr s ∧
      s.cursor = some (cursorRow (1, 0)) ∧
      Transition.Always (NoGap threeTasks (lastCursor none)) tr s := by
  have hrun : Transition.Run (step threeTasks) (initial 1 [] none) _ _ :=
    ((((Transition.Run.nil.snoc (i := .start) rfl).snoc (i := .subscribe true) rfl).snoc
      (i := .deliver true) rfl).snoc (i := .event true true true) rfl).snoc
      (i := .endBlock true) rfl
  refine ⟨_, _, hrun, rfl, noGap_of_noLoss threeTasks 1 [] none _ _ hrun ?_⟩
  simp only [Transition.eachStep_cons]
  refine ⟨id, ?_, ?_, threeTasks_first rfl, id, Transition.eachStep_nil _⟩
  · rintro ⟨hfalse, _⟩
    cases hfalse
  · rintro ⟨hfalse, _⟩
    cases hfalse

/-- **The event of block 2 is behind the cursor and has no row.** -/
theorem restart_gap :
    ¬ ∀ (chain : Chain) (finalized : UInt32) (rows : List ChainEventRow)
        (cursor : Option (Int64 × Int32)) (tr : List (State × Label)) (s : State),
      Transition.Run (step chain) (initial finalized rows cursor) tr s →
        NoGap chain (lastCursor cursor) s := by
  intro hall
  have hexec : (Transition.exec (step threeTasks) (initial 1 [] none)
      (firstBlock ++ restart)).any (fun s => s.cursor = some (cursorRow (3, 0)) ∧
        s.rows.all fun r => (r.blockNumber, r.eventIndex) ≠ cursorRow (2, 0)) = true := by
    decide
  obtain ⟨tr, s, hrun, hend⟩ := Transition.Run.reach_of_exec hexec
  obtain ⟨hcursor, hnone⟩ := of_decide_eq_true hend
  have hgap := hall threeTasks 1 [] none tr s hrun _ hcursor
  obtain ⟨row, hmem, hrow⟩ := hgap 2 ⟨0, "TaskMarket", "TaskCreated", some "[7, 1000]", none⟩
    (List.mem_singleton.mpr rfl) rfl (by decide) (by decide)
  have hne := List.all_eq_true.mp hnone row hmem
  exact of_decide_eq_true hne hrow

end Ainur.Replay
