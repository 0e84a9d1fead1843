import Ainur.Chain.Replay
import Ainur.Lib.Refinement

set_option autoImplicit false

/-! # Blocks delivered in any order

The replay worker once more, with no chain behind it: whatever block the node delivers next, an
older one or the same one again, with whatever events, the worker goes by its cursors alone. Block
numbers are `u64` as in the cursor. `start` and `applied` are not part of the program; they record
the cursor that a session started from and the events that it has applied. The worker on a chain is
this one on a node that delivers the blocks of the chain (`replay_refines`).
-/

namespace Ainur.Deliveries

open Replay (Cursor ChainEvent ChainEventRow isSupported recordChainEvent cursorRow readCursor
  lastCursor)

inductive Worker where
  | stopped
  | connecting
  /-- Waiting for the next block. -/
  | listening (last : Cursor)
  /-- Iterating over the events of `block`. -/
  | reading (block : UInt64) (rest : List ChainEvent) (last max : Cursor)
  deriving DecidableEq, Repr

structure State where
  rows : List ChainEventRow
  cursor : Option (Int64 × Int32)
  worker : Worker
  /-- The cursor that the session started from. -/
  start : Cursor
  /-- The events that the session has applied, the latest first. -/
  applied : List Cursor
  deriving DecidableEq, Repr

inductive Label where
  | start
  /-- A session begins; `cursorRead` is the success of `last_chain_cursor`. -/
  | subscribe (cursorRead : Bool)
  /-- A block arrives; `fetched` is the success of `block.events()`. -/
  | deliver (block : UInt64) (events : List ChainEvent) (fetched : Bool)
  /-- The next event of the block; the flags are the success of its decoding, of
  `block.extrinsics()` and of `record_chain_event`. -/
  | event (decoded extrinsics recorded : Bool)
  /-- The iterator is exhausted; `updated` is the success of `update_chain_cursor`. -/
  | endBlock (updated : Bool)
  | disconnect
  | crash
  deriving DecidableEq, Repr

/-- The row of an event, as `run_chain_replay` records it. -/
def eventRow (block : UInt64) (e : ChainEvent) (extrinsics : Bool) : ChainEventRow where
  blockNumber := block.toInt64
  eventIndex := e.index.toInt32
  pallet := e.pallet
  variant := e.variant
  payload := e.fieldValues.getD "<undecodable>"
  correlationId := if extrinsics then e.extrinsicHash else none

/-- What a label does, where it is enabled. -/
def step (s : State) : Label → Option State
  | .start => if s.worker = .stopped then some { s with worker := .connecting } else none
  | .subscribe cursorRead =>
      match s.worker with
      | .connecting =>
          if cursorRead then
            some { s with
              worker := .listening (lastCursor s.cursor)
              start := lastCursor s.cursor
              applied := [] }
          else some { s with worker := .stopped }
      | _ => none
  | .deliver block events fetched =>
      match s.worker with
      | .listening last =>
          if events.Pairwise fun e f => e.index < f.index then
            if fetched then some { s with worker := .reading block events last last } else some s
          else none
      | _ => none
  | .event decoded extrinsics recorded =>
      match s.worker with
      | .reading block (e :: rest) last max =>
          if decoded = false ∨ Cursor.AtMost (block, e.index) last ∨
              isSupported e.pallet e.variant = false then
            some { s with worker := .reading block rest last max }
          else if recorded then
            some { s with
              rows := recordChainEvent s.rows (eventRow block e extrinsics)
              worker := .reading block rest last (block, e.index)
              applied := (block, e.index) :: s.applied }
          else some { s with worker := .stopped, applied := (block, e.index) :: s.applied }
      | _ => none
  | .endBlock updated =>
      match s.worker with
      | .reading _ [] last max =>
          if last.1 < max.1 ∨ (max.1 = last.1 ∧ last.2 < max.2) then
            if updated then
              some { s with cursor := some (cursorRow max), worker := .listening max }
            else some { s with worker := .stopped }
          else some { s with worker := .listening last }
      | _ => none
  | .disconnect =>
      match s.worker with
      | .listening _ => some { s with worker := .connecting }
      | _ => none
  | .crash => if s.worker = .stopped then none else some { s with worker := .stopped }

/-- The worker before its first start, on a database that it has used before or not. -/
def initial (rows : List ChainEventRow) (cursor : Option (Int64 × Int32)) : State where
  rows := rows
  cursor := cursor
  worker := .stopped
  start := lastCursor cursor
  applied := []

/-! ## The invariant -/

/-- The unique key of `chain_events`. -/
def rowKey (r : ChainEventRow) : Int64 × Int32 := (r.blockNumber, r.eventIndex)

theorem nodup_recordChainEvent {rows : List ChainEventRow} (row : ChainEventRow)
    (h : (rows.map rowKey).Nodup) : ((recordChainEvent rows row).map rowKey).Nodup := by
  unfold recordChainEvent
  split
  · exact h
  · next hnew =>
      rw [List.map_append, List.nodup_append]
      refine ⟨h, List.pairwise_singleton _ _, fun a ha b hb heq => hnew ?_⟩
      obtain ⟨r, hr, rfl⟩ := List.mem_map.mp ha
      have hkey : rowKey r = rowKey row := heq.trans (List.mem_singleton.mp hb)
      obtain ⟨hblock, hindex⟩ := Prod.mk.inj hkey
      exact List.any_eq_true.mpr ⟨r, hr, by simp [hblock, hindex]⟩

/-- How the cursors of the worker, the cursor of the database and the events applied hang
together. While a block is read, what the session has applied of it comes before what is left. -/
def Session (s : State) : Worker → Prop
  | .stopped | .connecting => True
  | .listening last =>
      lastCursor s.cursor = last ∧ Cursor.AtMost s.start last ∧
        ∀ p ∈ s.applied, Cursor.AtMost p last
  | .reading block rest last max =>
      lastCursor s.cursor = last ∧ Cursor.AtMost s.start last ∧ Cursor.AtMost last max ∧
        (rest.Pairwise fun e f => e.index < f.index) ∧
        ∀ p ∈ s.applied, Cursor.AtMost p last ∨
          (p.1 = block ∧ Cursor.AtMost p max ∧ ∀ e ∈ rest, p.2 < e.index)

structure Invariant (s : State) : Prop where
  /-- One row for each event. -/
  rows : (s.rows.map rowKey).Nodup
  /-- No event is applied twice in a session. -/
  once : s.applied.Nodup
  /-- None is at or below the cursor that the session started from. -/
  later : ∀ p ∈ s.applied, ¬ Cursor.AtMost p s.start
  session : Session s s.worker

section Steps

variable {s : State} {block : UInt64} {e : ChainEvent} {rest : List ChainEvent} {last max : Cursor}

/-- A step that ends the session and leaves the rest alone. -/
theorem Invariant.leave (h : Invariant s) {worker : Worker}
    (hworker : worker = .stopped ∨ worker = .connecting) :
    Invariant { s with worker := worker } where
  rows := h.rows
  once := h.once
  later := h.later
  session := by rcases hworker with rfl | rfl <;> trivial

theorem Invariant.subscribe (h : Invariant s) :
    Invariant { s with
      worker := .listening (lastCursor s.cursor)
      start := lastCursor s.cursor
      applied := [] } where
  rows := h.rows
  once := List.nodup_nil
  later := fun _ hp => nomatch hp
  session := ⟨rfl, Replay.Cursor.le_refl _, fun _ hp => nomatch hp⟩

theorem Invariant.deliver (h : Invariant s) (hworker : s.worker = .listening last)
    {events : List ChainEvent} (hordered : events.Pairwise fun e f => e.index < f.index) :
    Invariant { s with worker := .reading block events last last } where
  rows := h.rows
  once := h.once
  later := h.later
  session := by
    have hsession := h.session
    rw [hworker] at hsession
    obtain ⟨hcursor, hstart, happlied⟩ := hsession
    exact ⟨hcursor, hstart, Replay.Cursor.le_refl _, hordered, fun p hp => Or.inl (happlied p hp)⟩

/-- An event that is passed over. -/
theorem Invariant.skip (h : Invariant s) (hworker : s.worker = .reading block (e :: rest) last max) :
    Invariant { s with worker := .reading block rest last max } where
  rows := h.rows
  once := h.once
  later := h.later
  session := by
    have hsession := h.session
    rw [hworker] at hsession
    obtain ⟨hcursor, hstart, hmax, hordered, happlied⟩ := hsession
    refine ⟨hcursor, hstart, hmax, (List.pairwise_cons.mp hordered).2, fun p hp => ?_⟩
    rcases happlied p hp with hle | ⟨hblock, hle, hbefore⟩
    · exact Or.inl hle
    · exact Or.inr ⟨hblock, hle, fun f hf => hbefore f (List.mem_cons_of_mem _ hf)⟩

/-- An event that gets past the cursor skip has not been applied in this session, and is later than
the cursor that it started from. -/
theorem Invariant.fresh (h : Invariant s) (hworker : s.worker = .reading block (e :: rest) last max)
    (hnew : ¬ Cursor.AtMost (block, e.index) last) :
    (block, e.index) ∉ s.applied ∧ ¬ Cursor.AtMost (block, e.index) s.start := by
  have hsession := h.session
  rw [hworker] at hsession
  obtain ⟨-, hstart, -, -, happlied⟩ := hsession
  refine ⟨fun hmem => ?_, fun hle => hnew (Replay.Cursor.AtMost.trans hle hstart)⟩
  rcases happlied _ hmem with hle | ⟨-, -, hbefore⟩
  · exact hnew hle
  · -- the event would come before itself
    have hlt := hbefore e List.mem_cons_self
    rw [UInt32.lt_iff_toNat_lt] at hlt
    exact Nat.lt_irrefl _ hlt

theorem Invariant.apply (h : Invariant s) (hworker : s.worker = .reading block (e :: rest) last max)
    (hnew : ¬ Cursor.AtMost (block, e.index) last) (extrinsics : Bool) :
    Invariant { s with
      rows := recordChainEvent s.rows (eventRow block e extrinsics)
      worker := .reading block rest last (block, e.index)
      applied := (block, e.index) :: s.applied } := by
  obtain ⟨hfresh, hlater⟩ := h.fresh hworker hnew
  have hsession := h.session
  rw [hworker] at hsession
  obtain ⟨hcursor, hstart, -, hordered, happlied⟩ := hsession
  obtain ⟨hfirst, hrest⟩ := List.pairwise_cons.mp hordered
  refine ⟨nodup_recordChainEvent _ h.rows, List.nodup_cons.mpr ⟨hfresh, h.once⟩, fun p hp => ?_,
    hcursor, hstart, Replay.Cursor.le_total hnew, hrest, fun p hp => ?_⟩
  · rcases List.mem_cons.mp hp with rfl | hp
    · exact hlater
    · exact h.later p hp
  · rcases List.mem_cons.mp hp with rfl | hp
    · exact Or.inr ⟨rfl, Replay.Cursor.le_refl _, hfirst⟩
    · rcases happlied p hp with hle | ⟨hblock, -, hbefore⟩
      · exact Or.inl hle
      · have hlt := hbefore e List.mem_cons_self
        refine Or.inr ⟨hblock, Or.inr ⟨hblock, ?_⟩,
          fun f hf => hbefore f (List.mem_cons_of_mem _ hf)⟩
        rw [UInt32.lt_iff_toNat_lt] at hlt
        rw [UInt32.le_iff_toNat_le]
        exact Nat.le_of_lt hlt

/-- The event is applied, but its row is not recorded: `run_chain_replay` returns the error. -/
theorem Invariant.abort (h : Invariant s) (hworker : s.worker = .reading block (e :: rest) last max)
    (hnew : ¬ Cursor.AtMost (block, e.index) last) :
    Invariant { s with worker := .stopped, applied := (block, e.index) :: s.applied } := by
  obtain ⟨hfresh, hlater⟩ := h.fresh hworker hnew
  refine ⟨h.rows, List.nodup_cons.mpr ⟨hfresh, h.once⟩, fun p hp => ?_, trivial⟩
  rcases List.mem_cons.mp hp with rfl | hp
  · exact hlater
  · exact h.later p hp

/-- The cursor moves to the last event applied. -/
theorem Invariant.advance (h : Invariant s) (hworker : s.worker = .reading block [] last max) :
    Invariant { s with cursor := some (cursorRow max), worker := .listening max } := by
  have hsession := h.session
  rw [hworker] at hsession
  obtain ⟨-, hstart, hmax, -, happlied⟩ := hsession
  refine ⟨h.rows, h.once, h.later, Replay.readCursor_cursorRow max,
    Replay.Cursor.AtMost.trans hstart hmax, fun p hp => ?_⟩
  rcases happlied p hp with hle | ⟨-, hle, -⟩
  · exact Replay.Cursor.AtMost.trans hle hmax
  · exact hle

/-- The persisted cursor is the one that the block started from. -/
theorem Invariant.advance_cursor (h : Invariant s)
    (hworker : s.worker = .reading block [] last max) :
    Cursor.AtMost (lastCursor s.cursor) (lastCursor (some (cursorRow max))) := by
  have hsession := h.session
  rw [hworker] at hsession
  obtain ⟨hcursor, -, hmax, -⟩ := hsession
  show Cursor.AtMost (lastCursor s.cursor) (readCursor (cursorRow max))
  rw [hcursor, Replay.readCursor_cursorRow]
  exact hmax

/-- A block of which no event is applied leaves the cursor where it is. -/
theorem Invariant.stay (h : Invariant s) (hworker : s.worker = .reading block [] last max)
    (hstay : Cursor.AtMost max last) : Invariant { s with worker := .listening last } := by
  have hsession := h.session
  rw [hworker] at hsession
  obtain ⟨hcursor, hstart, -, -, happlied⟩ := hsession
  refine ⟨h.rows, h.once, h.later, hcursor, hstart, fun p hp => ?_⟩
  rcases happlied p hp with hle | ⟨-, hle, -⟩
  · exact hle
  · exact Replay.Cursor.AtMost.trans hle hstay

end Steps

/-- **Every step keeps the invariant, and the persisted cursor does not go back.** -/
theorem Invariant.step (s : State) (l : Label) (t : State) (h : Invariant s)
    (hstep : step s l = some t) :
    Invariant t ∧ Cursor.AtMost (lastCursor s.cursor) (lastCursor t.cursor) := by
  have hkeep : ∀ {u : State}, u.cursor = s.cursor →
      Cursor.AtMost (lastCursor s.cursor) (lastCursor u.cursor) := by
    intro u hu
    rw [hu]
    exact Replay.Cursor.le_refl _
  cases l with
  | start =>
      simp only [Deliveries.step] at hstep
      split at hstep
      · obtain rfl := Option.some.inj hstep
        exact ⟨h.leave (Or.inr rfl), hkeep rfl⟩
      · cases hstep
  | subscribe cursorRead =>
      simp only [Deliveries.step] at hstep
      split at hstep
      · split at hstep
        · obtain rfl := Option.some.inj hstep
          exact ⟨h.subscribe, hkeep rfl⟩
        · obtain rfl := Option.some.inj hstep
          exact ⟨h.leave (Or.inl rfl), hkeep rfl⟩
      · cases hstep
  | deliver block events fetched =>
      simp only [Deliveries.step] at hstep
      split at hstep
      · next last hworker =>
          split at hstep
          · next hordered =>
              split at hstep
              · obtain rfl := Option.some.inj hstep
                exact ⟨h.deliver hworker hordered, hkeep rfl⟩
              · obtain rfl := Option.some.inj hstep
                exact ⟨h, hkeep rfl⟩
          · cases hstep
      · cases hstep
  | event decoded extrinsics recorded =>
      simp only [Deliveries.step] at hstep
      split at hstep
      · next block e rest last max hworker =>
          split at hstep
          · obtain rfl := Option.some.inj hstep
            exact ⟨h.skip hworker, hkeep rfl⟩
          · next hpasses =>
              have hnew : ¬ Cursor.AtMost (block, e.index) last :=
                fun hle => hpasses (Or.inr (Or.inl hle))
              split at hstep
              · obtain rfl := Option.some.inj hstep
                exact ⟨h.apply hworker hnew extrinsics, hkeep rfl⟩
              · obtain rfl := Option.some.inj hstep
                exact ⟨h.abort hworker hnew, hkeep rfl⟩
      · cases hstep
  | endBlock updated =>
      simp only [Deliveries.step] at hstep
      split at hstep
      · next block last max hworker =>
          split at hstep
          · split at hstep
            · obtain rfl := Option.some.inj hstep
              exact ⟨h.advance hworker, h.advance_cursor hworker⟩
            · obtain rfl := Option.some.inj hstep
              exact ⟨h.leave (Or.inl rfl), hkeep rfl⟩
          · next hstay =>
              obtain rfl := Option.some.inj hstep
              have hle : Cursor.AtMost max last := by
                by_contra hlt
                exact hstay (Replay.Cursor.advance_iff.mpr hlt)
              exact ⟨h.stay hworker hle, hkeep rfl⟩
      · cases hstep
  | disconnect =>
      simp only [Deliveries.step] at hstep
      split at hstep
      · obtain rfl := Option.some.inj hstep
        exact ⟨h.leave (Or.inr rfl), hkeep rfl⟩
      · cases hstep
  | crash =>
      simp only [Deliveries.step] at hstep
      split at hstep
      · cases hstep
      · obtain rfl := Option.some.inj hstep
        exact ⟨h.leave (Or.inl rfl), hkeep rfl⟩

theorem Invariant.initial {rows : List ChainEventRow} (cursor : Option (Int64 × Int32))
    (hrows : (rows.map rowKey).Nodup) : Invariant (initial rows cursor) :=
  ⟨hrows, List.nodup_nil, fun _ hp => (nomatch hp), trivial⟩

/-- **Replay is ordered and applies nothing twice**: in every state of a run each event has one
row, a session has applied no event twice and none at or below the cursor it started from, the
persisted cursor is never behind an earlier one, and the columns give every cursor back. -/
theorem replay_ordered (rows : List ChainEventRow) (cursor : Option (Int64 × Int32))
    (tr : List (State × Label)) (s : State) (hrows : (rows.map rowKey).Nodup)
    (hrun : Transition.Run step (initial rows cursor) tr s) :
    Transition.Always (fun u => (u.rows.map rowKey).Nodup ∧ u.applied.Nodup ∧
        ∀ p ∈ u.applied, ¬ Cursor.AtMost p u.start) tr s ∧
      (∀ p ∈ tr, Cursor.AtMost (lastCursor p.1.cursor) (lastCursor s.cursor)) ∧
      ∀ c, readCursor (cursorRow c) = c := by
  have hinit := Invariant.initial cursor hrows
  refine ⟨?_, ?_, Replay.readCursor_cursorRow⟩
  · have hinv : Transition.Always Invariant tr s :=
      hrun.always_of hinit (C := fun _ _ => True)
        (fun s l t h _ hstep => (h.step s l t hstep).1) fun _ _ => trivial
    exact hinv.mono fun u hu => ⟨hu.rows, hu.once, hu.later⟩
  · refine hrun.related (R := fun u v => Cursor.AtMost (lastCursor u.cursor) (lastCursor v.cursor))
      hinit (fun s l t h hstep => (h.step s l t hstep).1) (fun r u v hru huv => ?_)
      fun s l t h hstep => (h.step s l t hstep).2
    exact Replay.Cursor.AtMost.trans hru huv

/-! ## A block that is processed again -/

/-- The events of block 9. -/
def nine : List ChainEvent :=
  [⟨0, "TaskMarket", "TaskCreated", some "[7, 1000]", none⟩,
    ⟨3, "TaskMarket", "TaskCompleted", some "[7, 2]", none⟩]

/-- The worker applies both events and crashes before the cursor update; after the restart it gets
block 9 twice and then an older block. -/
def again : List Label :=
  [.start, .subscribe true, .deliver 9 nine true, .event true true true, .event true true true,
    .crash, .start, .subscribe true, .deliver 9 nine true, .event true true true,
    .event true true true, .endBlock true, .deliver 9 nine true, .event true true true,
    .event true true true, .endBlock true, .deliver 4 nine true, .event true true true,
    .event true true true, .endBlock true]

/-- Each event has one row, and the cursor stays at the last of block 9. -/
theorem again_ordered : ∃ tr s, Transition.Run step (initial [] none) tr s ∧
    s.cursor = some (cursorRow (9, 3)) ∧ s.rows.length = 2 ∧
    Transition.Always (fun u => (u.rows.map rowKey).Nodup ∧ u.applied.Nodup ∧
      ∀ p ∈ u.applied, ¬ Cursor.AtMost p u.start) tr s := by
  have hexec : (Transition.exec step (initial [] none) again).any (fun s =>
      s.cursor = some (cursorRow (9, 3)) ∧ s.rows.length = 2) = true := by
    decide
  obtain ⟨tr, s, hrun, hend⟩ := Transition.Run.reach_of_exec hexec
  obtain ⟨hcursor, hlength⟩ := of_decide_eq_true hend
  exact ⟨tr, s, hrun, hcursor, hlength, (replay_ordered [] none tr s List.nodup_nil hrun).1⟩

/-! ## The worker on a chain -/

/-- The worker of `Replay`, without its place in the chain. -/
def Worker.ofReplay : Replay.Worker → Worker
  | .stopped => .stopped
  | .connecting => .connecting
  | .listening _ last => .listening last
  | .reading block rest last max => .reading block.toUInt64 rest last max

/-- What a step on a chain is here. Finalizing a block is nothing yet; its delivery is. -/
def deliveries (chain : Replay.Chain) (s : Replay.State) : Replay.Label → List Label
  | .finalize => []
  | .start => [.start]
  | .subscribe cursorRead => [.subscribe cursorRead]
  | .deliver fetched =>
      match s.worker with
      | .listening next _ => [.deliver next.toUInt64 (chain.events next) fetched]
      | _ => []
  | .event decoded extrinsics recorded => [.event decoded extrinsics recorded]
  | .endBlock updated => [.endBlock updated]
  | .disconnect => [.disconnect]
  | .crash => [.crash]

/-- `d` is `s`, with the two records of a session. -/
structure Behind (s : Replay.State) (d : State) : Prop where
  rows : d.rows = s.rows
  cursor : d.cursor = s.cursor
  worker : d.worker = .ofReplay s.worker

section Chain

variable {chain : Replay.Chain} {s t : Replay.State} {d : State} {l : Replay.Label}
variable {last max : Cursor}

theorem Worker.ofReplay_stopped {w : Replay.Worker} :
    Worker.ofReplay w = .stopped ↔ w = .stopped := by
  cases w <;> simp [Worker.ofReplay]

/-! ### The exits of the loops -/

theorem step_subscribe (hworker : d.worker = .connecting) (cursorRead : Bool) :
    step d (.subscribe cursorRead) =
      if cursorRead then
        some { d with
          worker := .listening (lastCursor d.cursor)
          start := lastCursor d.cursor
          applied := [] }
      else some { d with worker := .stopped } := by
  simp only [step, hworker]

theorem step_deliver {events : List ChainEvent} (hworker : d.worker = .listening last)
    (hordered : events.Pairwise fun e f => e.index < f.index) (block : UInt64) (fetched : Bool) :
    step d (.deliver block events fetched) =
      if fetched then some { d with worker := .reading block events last last } else some d := by
  simp only [step, hworker, if_pos hordered]

section Event

variable {block : UInt64} {e : ChainEvent} {rest : List ChainEvent} {decoded : Bool}

theorem step_pass (hworker : d.worker = .reading block (e :: rest) last max)
    (hskip : decoded = false ∨ Cursor.AtMost (block, e.index) last ∨
      isSupported e.pallet e.variant = false) (extrinsics recorded : Bool) :
    step d (.event decoded extrinsics recorded) =
      some { d with worker := .reading block rest last max } := by
  simp only [step, hworker, if_pos hskip]

theorem step_apply (hworker : d.worker = .reading block (e :: rest) last max)
    (hskip : ¬ (decoded = false ∨ Cursor.AtMost (block, e.index) last ∨
      isSupported e.pallet e.variant = false)) (extrinsics recorded : Bool) :
    step d (.event decoded extrinsics recorded) =
      if recorded then
        some { d with
          rows := recordChainEvent d.rows (eventRow block e extrinsics)
          worker := .reading block rest last (block, e.index)
          applied := (block, e.index) :: d.applied }
      else some { d with worker := .stopped, applied := (block, e.index) :: d.applied } := by
  simp only [step, hworker, if_neg hskip]

theorem step_advance (hworker : d.worker = .reading block [] last max)
    (hadvance : last.1 < max.1 ∨ (max.1 = last.1 ∧ last.2 < max.2)) (updated : Bool) :
    step d (.endBlock updated) =
      if updated then some { d with cursor := some (cursorRow max), worker := .listening max }
      else some { d with worker := .stopped } := by
  simp only [step, hworker, if_pos hadvance]

theorem step_stay (hworker : d.worker = .reading block [] last max)
    (hstay : ¬ (last.1 < max.1 ∨ (max.1 = last.1 ∧ last.2 < max.2))) (updated : Bool) :
    step d (.endBlock updated) = some { d with worker := .listening last } := by
  simp only [step, hworker, if_neg hstay]

end Event

theorem step_disconnect (hworker : d.worker = .listening last) :
    step d .disconnect = some { d with worker := .connecting } := by
  simp only [step, hworker]

/-! ### One step -/

/-- A step on a chain is one delivery at most, with the same effect. -/
theorem Behind.step (h : Behind s d) (hstep : Replay.step chain s l = some t) :
    ∃ d', Transition.exec step d (deliveries chain s l) = some d' ∧ Behind t d' := by
  have hworker := h.worker
  cases l with
  | finalize =>
      -- a block that nobody has delivered yet
      obtain ⟨-, hstep⟩ := Option.ite_none_left_eq_some.mp hstep
      obtain rfl := Option.some.inj hstep
      exact ⟨d, rfl, h.rows, h.cursor, h.worker⟩
  | start =>
      obtain ⟨hstopped, hstep⟩ := Option.ite_none_right_eq_some.mp hstep
      obtain rfl := Option.some.inj hstep
      have hstopped : d.worker = .stopped := hworker.trans (Worker.ofReplay_stopped.mpr hstopped)
      exact ⟨_, Transition.exec_one (if_pos hstopped), h.rows, h.cursor, rfl⟩
  | subscribe cursorRead =>
      simp only [Replay.step] at hstep
      split at hstep
      · next hconnecting =>
          rw [hconnecting] at hworker
          have hsubscribe := step_subscribe hworker cursorRead
          cases cursorRead with
          | true =>
              obtain rfl := Option.some.inj hstep
              have hlast : lastCursor d.cursor = lastCursor s.cursor :=
                congrArg lastCursor h.cursor
              exact ⟨_, Transition.exec_one hsubscribe, h.rows, h.cursor,
                congrArg Worker.listening hlast⟩
          | false =>
              obtain rfl := Option.some.inj hstep
              exact ⟨_, Transition.exec_one hsubscribe, h.rows, h.cursor, rfl⟩
      · cases hstep
  | deliver fetched =>
      simp only [Replay.step] at hstep
      split at hstep
      · next next last hlistening =>
          rw [hlistening] at hworker
          simp only [deliveries, hlistening]
          obtain ⟨-, hstep⟩ := Option.ite_none_right_eq_some.mp hstep
          have hdeliver := step_deliver hworker (chain.ordered next) next.toUInt64 fetched
          cases fetched with
          | true =>
              obtain rfl := Option.some.inj hstep
              exact ⟨_, Transition.exec_one hdeliver, h.rows, h.cursor, rfl⟩
          | false =>
              -- the block is missed, and here it had no effect
              obtain rfl := Option.some.inj hstep
              exact ⟨_, Transition.exec_one hdeliver, h.rows, h.cursor, hworker⟩
      · cases hstep
  | event decoded extrinsics recorded =>
      simp only [Replay.step] at hstep
      split at hstep
      · next block e rest last max hreading =>
          rw [hreading] at hworker
          -- both pass over the same events, since both have the same cursor
          by_cases hskip : decoded = false ∨ Cursor.AtMost (Replay.position block e) last ∨
              isSupported e.pallet e.variant = false
          · rw [if_pos hskip] at hstep
            obtain rfl := Option.some.inj hstep
            have hpass := step_pass hworker hskip extrinsics recorded
            exact ⟨_, Transition.exec_one hpass, h.rows, h.cursor, rfl⟩
          · rw [if_neg hskip] at hstep
            have happly := step_apply hworker hskip extrinsics recorded
            cases recorded with
            | true =>
                obtain rfl := Option.some.inj hstep
                refine ⟨_, Transition.exec_one happly, ?_, h.cursor, rfl⟩
                exact congrArg (recordChainEvent · (Replay.eventRow block e extrinsics)) h.rows
            | false =>
                obtain rfl := Option.some.inj hstep
                exact ⟨_, Transition.exec_one happly, h.rows, h.cursor, rfl⟩
      · cases hstep
  | endBlock updated =>
      simp only [Replay.step] at hstep
      split at hstep
      · next block last max hreading =>
          rw [hreading] at hworker
          by_cases hadvance : last.1 < max.1 ∨ (max.1 = last.1 ∧ last.2 < max.2)
          · rw [if_pos hadvance] at hstep
            have hend := step_advance hworker hadvance updated
            cases updated with
            | true =>
                obtain rfl := Option.some.inj hstep
                exact ⟨_, Transition.exec_one hend, h.rows, rfl, rfl⟩
            | false =>
                obtain rfl := Option.some.inj hstep
                exact ⟨_, Transition.exec_one hend, h.rows, h.cursor, rfl⟩
          · rw [if_neg hadvance] at hstep
            obtain rfl := Option.some.inj hstep
            have hend := step_stay hworker hadvance updated
            exact ⟨_, Transition.exec_one hend, h.rows, h.cursor, rfl⟩
      · cases hstep
  | disconnect =>
      simp only [Replay.step] at hstep
      split at hstep
      · next hlistening =>
          rw [hlistening] at hworker
          obtain rfl := Option.some.inj hstep
          exact ⟨_, Transition.exec_one (step_disconnect hworker), h.rows, h.cursor, rfl⟩
      · cases hstep
  | crash =>
      obtain ⟨hrunning, hstep⟩ := Option.ite_none_left_eq_some.mp hstep
      obtain rfl := Option.some.inj hstep
      have hrunning : d.worker ≠ .stopped :=
        fun hstopped => hrunning (Worker.ofReplay_stopped.mp (hworker.symm.trans hstopped))
      exact ⟨_, Transition.exec_one (if_neg hrunning), h.rows, h.cursor, rfl⟩

/-- **The worker on a chain is the worker of this module**, on a node that delivers the finalized
blocks of the chain, one after the other. -/
theorem replay_refines (chain : Replay.Chain) (finalized : UInt32) (rows : List ChainEventRow)
    (cursor : Option (Int64 × Int32)) :
    Transition.Refines (Replay.step chain) (Replay.initial finalized rows cursor)
      step (initial rows cursor) (fun _ _ => True) (deliveries chain) Behind where
  init := ⟨rfl, rfl, rfl⟩
  matched _ _ _ _ h _ hstep := h.step hstep

/-- What holds in any order holds on a chain: each event has one row, and the cursor is never
behind the first. -/
theorem chain_ordered {finalized : UInt32} {rows : List ChainEventRow}
    {cursor : Option (Int64 × Int32)} {tr : List (Replay.State × Replay.Label)}
    (hrows : (rows.map rowKey).Nodup)
    (hrun : Transition.Run (Replay.step chain) (Replay.initial finalized rows cursor) tr s) :
    (s.rows.map rowKey).Nodup ∧ Cursor.AtMost (lastCursor cursor) (lastCursor s.cursor) := by
  obtain ⟨d, hbehind, hinv, hle⟩ :=
    (replay_refines chain finalized rows cursor).invariant
      (P := fun d => Invariant d ∧ Cursor.AtMost (lastCursor cursor) (lastCursor d.cursor))
      ⟨Invariant.initial cursor hrows, Replay.Cursor.le_refl _⟩
      (fun d l d' ⟨hinv, hle⟩ hstep =>
        have hnext := hinv.step d l d' hstep
        ⟨hnext.1, hle.trans hnext.2⟩)
      hrun fun _ _ => trivial
  exact ⟨hbehind.rows ▸ hinv.rows, hbehind.cursor ▸ hle⟩

end Chain

end Ainur.Deliveries
