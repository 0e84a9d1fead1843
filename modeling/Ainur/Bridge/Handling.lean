import Ainur.Lib.Refinement
import Ainur.Bridge.System
import Ainur.Chain.Journal

set_option autoImplicit false

/-! # The replay worker as a whole

`run_chain_replay` with both of its halves: the loops over blocks and events with their cursor, and
the branch that each supported event goes through before it is recorded. A step is one exit of the
loops or one statement of a branch, and requests, the outbox worker and the backfill take steps of
their own in between. The worker refines the loops alone and the branches alone (`worker_refines`), and
what it records it has handled, the earlier events first (`recorded_handled`, `handled_in_order`).
-/

namespace Ainur.Handling

open Replay (Cursor ChainEvent ChainEventRow recordChainEvent)
open Bridge (Event Delivery)
open Storage (Database)
open Journal (Entry)

/-- A chain, with what `as_event` decodes of its events. -/
structure Feed where
  chain : Replay.Chain
  event : UInt32 → ChainEvent → Event
  names : ∀ block, ∀ e ∈ chain.events block, (event block e).names = (e.pallet, e.variant)

/-- The event as its branch gets it; `extrinsics` is the success of `block.extrinsics()`. -/
def Feed.delivery (feed : Feed) (block : UInt32) (e : ChainEvent) (extrinsics : Bool)
    (generatedId : String) (now : Int) : Delivery where
  event := feed.event block e
  blockNumber := block
  correlation := if extrinsics then e.extrinsicHash else none
  generatedId := generatedId
  now := now

structure Node where
  bridge : Bridge.System
  reader : Replay.State

inductive Label where
  /-- A request, the outbox worker or the backfill. -/
  | others (l : Bridge.Label)
  /-- A step of the loops that is not about an event. -/
  | loops (l : Replay.Label)
  /-- The next event cannot be decoded, is at or before the cursor, or is not supported. -/
  | pass (decoded : Bool)
  /-- The branch of the next event begins. -/
  | enter (extrinsics : Bool) (generatedId : String) (now : Int)
  | statement (performed : Bool) (pick : String)
  /-- The branch is through and the event is recorded; `recorded` is the success of that. -/
  | record (recorded : Bool)

def ofBranches : Bridge.Label → Bool
  | .deliver _ | .statement _ _ | .record | .stop => true
  | _ => false

def ofEvents : Replay.Label → Bool
  | .event _ _ _ => true
  | _ => false

/-- The worker has stopped. -/
def stopped (r : Replay.State) : Replay.State := { r with worker := .stopped }

variable (lib : Libraries) (db : Database) (pg : Jsonb) (feed : Feed)

/-- What a label does, where it is enabled. A panic in a branch stops the worker. -/
def step (s : Node) : Label → Option Node
  | .others l =>
      if ofBranches l then none
      else (Bridge.step lib db pg s.bridge l).map fun b => { s with bridge := b }
  | .loops l =>
      if ofEvents l then none
      else (Replay.step feed.chain s.reader l).map fun r =>
        { bridge := if l = .crash then { s.bridge with replay := none } else s.bridge, reader := r }
  | .pass decoded =>
      match s.reader.worker, s.bridge.replay with
      | .reading block (e :: rest) last max, none =>
          if decoded = false ∨ Cursor.AtMost (Replay.position block e) last ∨
              Replay.isSupported e.pallet e.variant = false then
            some { s with reader := { s.reader with worker := .reading block rest last max } }
          else none
      | _, _ => none
  | .enter extrinsics generatedId now =>
      match s.reader.worker, s.bridge.replay with
      | .reading block (e :: _) last _, none =>
          if Cursor.AtMost (Replay.position block e) last ∨
              Replay.isSupported e.pallet e.variant = false then none
          else
            match (feed.delivery block e extrinsics generatedId now).ops with
            | some ops =>
                some { s with bridge := { s.bridge with
                  replay := some (feed.delivery block e extrinsics generatedId now, ops) } }
            | none => some { s with reader := stopped s.reader }
      | _, _ => none
  | .statement performed pick =>
      (Bridge.step lib db pg s.bridge (.statement performed pick)).map fun b =>
        { bridge := b, reader := if b.replay.isSome then s.reader else stopped s.reader }
  | .record recorded =>
      match s.reader.worker, s.bridge.replay with
      | .reading block (e :: rest) last _, some (d, []) =>
          if recorded then
            some {
              bridge := { s.bridge with replay := none, processed := d :: s.bridge.processed }
              reader := { s.reader with
                rows := recordChainEvent s.reader.rows
                  { Replay.eventRow block e true with correlationId := d.correlation }
                worker := .reading block rest last (Replay.position block e) } }
          else
            some { bridge := { s.bridge with replay := none }, reader := stopped s.reader }
      | _, _ => none

/-- The worker before its first start, and empty tables. -/
def init (finalized : UInt32) (rows : List ChainEventRow) (cursor : Option (Int64 × Int32)) :
    Node where
  bridge := .init
  reader := Replay.initial finalized rows cursor

/-! ## What a step stands for -/

/-- The steps of the loops alone. -/
def loopSteps (s : Node) : Label → List Replay.Label
  | .others _ => []
  | .loops l => [l]
  | .pass decoded => [.event decoded true true]
  | .enter extrinsics generatedId now =>
      match s.reader.worker with
      | .reading block (e :: _) _ _ =>
          if (feed.delivery block e extrinsics generatedId now).ops.isSome then [] else [.crash]
      | _ => []
  | .statement performed pick =>
      if (Bridge.step lib db pg s.bridge (.statement performed pick)).any fun b =>
          b.replay.isSome then [] else [.crash]
  | .record recorded =>
      match s.bridge.replay with
      | some (d, _) => [.event true d.correlation.isSome recorded]
      | none => []

/-- The steps of the branches alone. -/
def branchSteps (s : Node) : Label → List Bridge.Label
  | .others l => [l]
  | .loops l => if l = .crash then [.stop] else []
  | .pass _ => []
  | .enter extrinsics generatedId now =>
      match s.reader.worker with
      | .reading block (e :: _) _ _ =>
          if (feed.delivery block e extrinsics generatedId now).ops.isSome then
            [.deliver (feed.delivery block e extrinsics generatedId now)]
          else []
      | _ => []
  | .statement performed pick => [.statement performed pick]
  | .record recorded => if recorded then [.record] else [.stop]

/-- While a branch runs, the loops are at its event. -/
def AtEvent (s : Node) (d : Delivery) : Prop :=
  ∃ block e rest last max extrinsics generatedId now,
    s.reader.worker = .reading block (e :: rest) last max ∧
      Replay.isSupported e.pallet e.variant = true ∧
      ¬ Cursor.AtMost (Replay.position block e) last ∧
      d = feed.delivery block e extrinsics generatedId now

def Sync (s : Node) : Prop := ∀ d ops, s.bridge.replay = some (d, ops) → AtEvent feed s d

/-! ## What a step can do -/

section Steps

variable {lib db pg feed} {s t : Node}

/-- The others leave the branch alone. -/
theorem others_branch {b b' : Bridge.System} {l : Bridge.Label} (hl : ofBranches l = false)
    (hstep : Bridge.step lib db pg b l = some b') :
    b'.replay = b.replay ∧ b'.processed = b.processed := by
  cases l with
  | request k draws req =>
      obtain ⟨_, c, _, rfl⟩ := Bridge.step_request.mp hstep
      exact ⟨rfl, rfl⟩
  | call k performed =>
      obtain ⟨c, _, _, ⟨_, rfl⟩ | ⟨_, rfl⟩⟩ := Bridge.step_call.mp hstep
      · exact ⟨rfl, rfl⟩
      · exact ⟨rfl, rfl⟩
  | enqueue k correlationId now =>
      obtain ⟨x, _, _, rfl⟩ := Bridge.step_enqueue.mp hstep
      exact ⟨rfl, rfl⟩
  | drop k =>
      obtain ⟨_, rfl⟩ := Bridge.step_drop.mp hstep
      exact ⟨rfl, rfl⟩
  | settle correlationId outcome now =>
      obtain ⟨row, _, _, f, _, rfl⟩ := Bridge.step_settle.mp hstep
      exact ⟨rfl, rfl⟩
  | backfill u =>
      obtain ⟨_, rows, _, rfl⟩ := Bridge.step_backfill.mp hstep
      exact ⟨rfl, rfl⟩
  | deliver d => cases hl
  | statement performed pick => cases hl
  | record => cases hl
  | stop => cases hl

/-- A statement goes on with the branch of the same event, or panics. -/
theorem statement_branch {b b' : Bridge.System} {performed : Bool} {pick : String}
    (hstep : Bridge.step lib db pg b (.statement performed pick) = some b') :
    b'.processed = b.processed ∧ ∃ d ops, b.replay = some (d, ops) ∧
      (b'.replay = none ∨ ∃ ops', b'.replay = some (d, ops')) := by
  obtain ⟨d, op, rest, hreplay, hcases⟩ := Bridge.step_statement.mp hstep
  rcases hcases with ⟨-, -, rfl⟩ | ⟨-, rfl⟩
  · refine ⟨rfl, d, _, hreplay, ?_⟩
    cases hnext : op.next db d b.tables pick with
    | none => exact .inl rfl
    | some ops => exact .inr ⟨ops ++ rest, rfl⟩
  · exact ⟨rfl, d, _, hreplay, .inr ⟨_, rfl⟩⟩

theorem step_pass {decoded : Bool} (h : step lib db pg feed s (.pass decoded) = some t) :
    ∃ block e rest last max, s.reader.worker = .reading block (e :: rest) last max ∧
      s.bridge.replay = none ∧
      (decoded = false ∨ Cursor.AtMost (Replay.position block e) last ∨
        Replay.isSupported e.pallet e.variant = false) ∧
      t = { s with reader := { s.reader with worker := .reading block rest last max } } := by
  simp only [step] at h
  split at h
  · next block e rest last max hworker hreplay =>
      obtain ⟨hskip, h⟩ := Option.ite_none_right_eq_some.mp h
      exact ⟨block, e, rest, last, max, hworker, hreplay, hskip, (Option.some.inj h).symm⟩
  · cases h

theorem step_enter {extrinsics : Bool} {generatedId : String} {now : Int}
    (h : step lib db pg feed s (.enter extrinsics generatedId now) = some t) :
    ∃ block e rest last max, s.reader.worker = .reading block (e :: rest) last max ∧
      s.bridge.replay = none ∧ ¬ Cursor.AtMost (Replay.position block e) last ∧
      Replay.isSupported e.pallet e.variant = true ∧
      ((∃ ops, (feed.delivery block e extrinsics generatedId now).ops = some ops ∧
          t = { s with bridge := { s.bridge with
            replay := some (feed.delivery block e extrinsics generatedId now, ops) } }) ∨
        ((feed.delivery block e extrinsics generatedId now).ops = none ∧
          t = { s with reader := stopped s.reader })) := by
  simp only [step] at h
  split at h
  · next block e rest last max hworker hreplay =>
      obtain ⟨hskip, h⟩ := Option.ite_none_left_eq_some.mp h
      have hlast : ¬ Cursor.AtMost (Replay.position block e) last := fun hle => hskip (.inl hle)
      have hsup : Replay.isSupported e.pallet e.variant = true :=
        Bool.not_eq_false _ ▸ fun hno => hskip (.inr hno)
      refine ⟨block, e, rest, last, max, hworker, hreplay, hlast, hsup, ?_⟩
      split at h
      · next ops hops => exact .inl ⟨ops, hops, (Option.some.inj h).symm⟩
      · next hops => exact .inr ⟨hops, (Option.some.inj h).symm⟩
  · cases h

theorem step_statement {performed : Bool} {pick : String}
    (h : step lib db pg feed s (.statement performed pick) = some t) :
    Bridge.step lib db pg s.bridge (.statement performed pick) = some t.bridge ∧
      t.reader = if t.bridge.replay.isSome then s.reader else stopped s.reader := by
  obtain ⟨b, hb, rfl⟩ := Option.map_eq_some_iff.mp h
  exact ⟨hb, rfl⟩

theorem step_record {recorded : Bool} (h : step lib db pg feed s (.record recorded) = some t) :
    ∃ block e rest last max d, s.reader.worker = .reading block (e :: rest) last max ∧
      s.bridge.replay = some (d, []) ∧
      ((recorded = true ∧ t = {
          bridge := { s.bridge with replay := none, processed := d :: s.bridge.processed }
          reader := { s.reader with
            rows := recordChainEvent s.reader.rows
              { Replay.eventRow block e true with correlationId := d.correlation }
            worker := .reading block rest last (Replay.position block e) } }) ∨
        (recorded = false ∧
          t = { bridge := { s.bridge with replay := none }, reader := stopped s.reader })) := by
  simp only [step] at h
  split at h
  · next block e rest last max d hworker hreplay =>
      refine ⟨block, e, rest, last, max, d, hworker, hreplay, ?_⟩
      cases recorded with
      | true => exact .inl ⟨rfl, (Option.some.inj h).symm⟩
      | false => exact .inr ⟨rfl, (Option.some.inj h).symm⟩
  · cases h

theorem step_loops {l : Replay.Label} (h : step lib db pg feed s (.loops l) = some t) :
    ofEvents l = false ∧ Replay.step feed.chain s.reader l = some t.reader ∧
      t.bridge = if l = .crash then { s.bridge with replay := none } else s.bridge := by
  simp only [step] at h
  obtain ⟨hl, h⟩ := Option.ite_none_left_eq_some.mp h
  obtain ⟨r, hr, rfl⟩ := Option.map_eq_some_iff.mp h
  exact ⟨Bool.not_eq_true _ ▸ hl, hr, rfl⟩

theorem step_others {l : Bridge.Label} (h : step lib db pg feed s (.others l) = some t) :
    ofBranches l = false ∧ Bridge.step lib db pg s.bridge l = some t.bridge ∧
      t.reader = s.reader := by
  simp only [step] at h
  obtain ⟨hl, h⟩ := Option.ite_none_left_eq_some.mp h
  obtain ⟨b, hb, rfl⟩ := Option.map_eq_some_iff.mp h
  exact ⟨Bool.not_eq_true _ ▸ hl, hb, rfl⟩

/-! ## The loops -/

theorem crash_stopped {r : Replay.State} {block : UInt32} {rest : List ChainEvent}
    {last max : Cursor} (hworker : r.worker = .reading block rest last max) :
    Replay.step feed.chain r .crash = some (stopped r) := by
  refine if_neg fun hstopped => ?_
  rw [hworker] at hstopped
  cases hstopped

/-- Two ways to say whether the row has the hash of the extrinsic. -/
theorem eventRow_correlation (block : UInt32) (e : ChainEvent) (extrinsics : Bool)
    (generatedId : String) (now : Int) :
    Replay.eventRow block e (feed.delivery block e extrinsics generatedId now).correlation.isSome =
      { Replay.eventRow block e true with
        correlationId := (feed.delivery block e extrinsics generatedId now).correlation } := by
  unfold Feed.delivery Replay.eventRow
  cases extrinsics with
  | true => cases e.extrinsicHash <;> rfl
  | false => rfl

/-- Where the loops stand still, or take one step. -/
theorem loop_step {l : Label} (hsync : Sync feed s) (hstep : step lib db pg feed s l = some t) :
    (loopSteps lib db pg feed s l = [] ∧ t.reader = s.reader) ∨
      ∃ l', loopSteps lib db pg feed s l = [l'] ∧
        Replay.step feed.chain s.reader l' = some t.reader := by
  cases l with
  | others l => exact .inl ⟨rfl, (step_others hstep).2.2⟩
  | loops l => exact .inr ⟨l, rfl, (step_loops hstep).2.1⟩
  | pass decoded =>
      obtain ⟨block, e, rest, last, max, hworker, -, hskip, rfl⟩ := step_pass hstep
      refine .inr ⟨_, rfl, ?_⟩
      simp only [Replay.step, hworker, if_pos hskip]
  | enter extrinsics generatedId now =>
      obtain ⟨block, e, rest, last, max, hworker, -, -, -, hcases⟩ := step_enter hstep
      rcases hcases with ⟨ops, hops, rfl⟩ | ⟨hops, rfl⟩
      · refine .inl ⟨?_, rfl⟩
        simp only [loopSteps, hworker, hops, Option.isSome_some, if_true]
      · refine .inr ⟨.crash, ?_, crash_stopped hworker⟩
        simp only [loopSteps, hworker, hops, Option.isSome_none, Bool.false_eq_true, if_false]
  | statement performed pick =>
      obtain ⟨hb, hreader⟩ := step_statement hstep
      obtain ⟨-, d, ops, hreplay, -⟩ := statement_branch hb
      obtain ⟨block, e, rest, last, max, -, -, -, hworker, -⟩ := hsync d ops hreplay
      cases hsome : t.bridge.replay.isSome with
      | true =>
          refine .inl ⟨?_, by rw [hreader, hsome]; rfl⟩
          simp only [loopSteps, hb, Option.any_some, hsome, if_true]
      | false =>
          refine .inr ⟨.crash, ?_, ?_⟩
          · simp only [loopSteps, hb, Option.any_some, hsome, Bool.false_eq_true, if_false]
          · rw [hreader, hsome]
            exact crash_stopped hworker
  | record recorded =>
      obtain ⟨block, e, rest, last, max, d, hworker, hreplay, hcases⟩ := step_record hstep
      obtain ⟨block', e', rest', last', max', extrinsics, generatedId, now, hworker', hsup, hlast,
        rfl⟩ := hsync d [] hreplay
      obtain ⟨rfl, hlist, rfl, rfl⟩ := Replay.Worker.reading.inj (hworker.symm.trans hworker')
      obtain ⟨rfl, rfl⟩ := List.cons.inj hlist
      have hgo : ¬ (true = false ∨ Cursor.AtMost (Replay.position block e) last ∨
          Replay.isSupported e.pallet e.variant = false) := by
        rintro (hno | hle | hunsup)
        · cases hno
        · exact hlast hle
        · rw [hsup] at hunsup
          cases hunsup
      refine .inr ⟨.event true
        (feed.delivery block e extrinsics generatedId now).correlation.isSome recorded, ?_, ?_⟩
      · simp only [loopSteps, hreplay]
      · rcases hcases with ⟨rfl, rfl⟩ | ⟨rfl, rfl⟩
        · simp only [Replay.step, hworker, if_neg hgo, if_true, eventRow_correlation]
        · simp only [Replay.step, hworker, if_neg hgo, Bool.false_eq_true, if_false]
          rfl

/-! ## The branches -/

/-- Between two steps a branch belongs to the event that the loops are at, and the loops hold a part
of the chain. -/
structure Invariant (feed : Feed) (start : Cursor) (s : Node) : Prop where
  sync : Sync feed s
  sound : Journal.Sound feed.chain start s.reader

/-- Only a block that is finalized leaves the loops where they are. -/
theorem atEvent_loops {l : Replay.Label} {r : Replay.State} {d : Delivery}
    (h : AtEvent feed s d) (hl : ofEvents l = false) (hcrash : l ≠ .crash)
    (hstep : Replay.step feed.chain s.reader l = some r) : r.worker = s.reader.worker := by
  obtain ⟨block, e, rest, last, max, -, -, -, hworker, -⟩ := h
  cases l with
  | finalize =>
      obtain ⟨-, hstep⟩ := Option.ite_none_left_eq_some.mp hstep
      rw [← Option.some.inj hstep]
  | start => simp only [Replay.step, hworker, reduceCtorEq, if_false] at hstep
  | subscribe cursorRead => simp only [Replay.step, hworker, reduceCtorEq] at hstep
  | deliver fetched => simp only [Replay.step, hworker, reduceCtorEq] at hstep
  | endBlock updated => simp only [Replay.step, hworker, reduceCtorEq] at hstep
  | disconnect => simp only [Replay.step, hworker, reduceCtorEq] at hstep
  | event decoded extrinsics recorded => cases hl
  | crash => exact absurd rfl hcrash

theorem AtEvent.of_worker {d : Delivery} (h : AtEvent feed s d)
    (hworker : t.reader.worker = s.reader.worker) : AtEvent feed t d := by
  unfold AtEvent at *
  rw [hworker]
  exact h

theorem Sync.of_none (h : s.bridge.replay = none) : Sync feed s := by
  intro d ops hreplay
  rw [h] at hreplay
  cases hreplay

theorem Sync.step {l : Label} (h : Sync feed s) (hstep : step lib db pg feed s l = some t) :
    Sync feed t := by
  cases l with
  | others l =>
      obtain ⟨hl, hb, hreader⟩ := step_others hstep
      intro d ops hreplay
      rw [(others_branch hl hb).1] at hreplay
      exact (h d ops hreplay).of_worker (by rw [hreader])
  | loops l =>
      obtain ⟨hl, hr, hbridge⟩ := step_loops hstep
      by_cases hcrash : l = .crash
      · refine .of_none ?_
        rw [hbridge, if_pos hcrash]
      · intro d ops hreplay
        rw [hbridge, if_neg hcrash] at hreplay
        have hat := h d ops hreplay
        exact hat.of_worker (atEvent_loops hat hl hcrash hr)
  | pass decoded =>
      obtain ⟨block, e, rest, last, max, -, hreplay, -, rfl⟩ := step_pass hstep
      exact .of_none hreplay
  | enter extrinsics generatedId now =>
      obtain ⟨block, e, rest, last, max, hworker, hreplay, hlast, hsup, hcases⟩ := step_enter hstep
      rcases hcases with ⟨ops, -, rfl⟩ | ⟨-, rfl⟩
      · intro d ops' heq
        obtain ⟨rfl, -⟩ := Prod.mk.inj (Option.some.inj heq)
        exact ⟨block, e, rest, last, max, extrinsics, generatedId, now, hworker, hsup, hlast, rfl⟩
      · exact .of_none hreplay
  | statement performed pick =>
      obtain ⟨hb, hreader⟩ := step_statement hstep
      obtain ⟨-, d, ops, hreplay, hnext⟩ := statement_branch hb
      intro d' ops' hreplay'
      rcases hnext with hnone | ⟨ops'', hsame⟩
      · rw [hnone] at hreplay'
        cases hreplay'
      · obtain ⟨rfl, -⟩ := Prod.mk.inj (Option.some.inj (hsame.symm.trans hreplay'))
        refine (h d ops hreplay).of_worker ?_
        rw [hreader, hsame]
        rfl
  | record recorded =>
      obtain ⟨block, e, rest, last, max, d, -, -, hcases⟩ := step_record hstep
      rcases hcases with ⟨-, rfl⟩ | ⟨-, rfl⟩
      · exact .of_none rfl
      · exact .of_none rfl

theorem Invariant.step {start : Cursor} {l : Label} (h : Invariant feed start s)
    (hstep : step lib db pg feed s l = some t) : Invariant feed start t where
  sync := h.sync.step hstep
  sound := by
    rcases loop_step h.sync hstep with ⟨-, hsame⟩ | ⟨l', -, hl'⟩
    · rw [hsame]
      exact h.sound
    · exact h.sound.step (Journal.moved hl')

theorem Invariant.init (finalized : UInt32) (rows : List ChainEventRow)
    (cursor : Option (Int64 × Int32)) :
    Invariant feed (Replay.lastCursor cursor) (init finalized rows cursor) where
  sync := .of_none rfl
  sound := Journal.sound_initial

/-- Each step does to the branches what the steps that it stands for do. -/
theorem branches_step {start : Cursor} {l : Label} (h : Invariant feed start s)
    (hstep : step lib db pg feed s l = some t) :
    Transition.exec (Bridge.step lib db pg) s.bridge (branchSteps feed s l) = some t.bridge := by
  cases l with
  | others l => exact Transition.exec_one (step_others hstep).2.1
  | loops l =>
      obtain ⟨-, -, hbridge⟩ := step_loops hstep
      simp only [branchSteps]
      by_cases hcrash : l = .crash
      · rw [if_pos hcrash, hbridge, if_pos hcrash]
        exact Transition.exec_one rfl
      · rw [if_neg hcrash, hbridge, if_neg hcrash]
        rfl
  | pass decoded =>
      obtain ⟨block, e, rest, last, max, -, -, -, rfl⟩ := step_pass hstep
      rfl
  | enter extrinsics generatedId now =>
      obtain ⟨block, e, rest, last, max, hworker, hreplay, -, hsup, hcases⟩ := step_enter hstep
      rcases hcases with ⟨ops, hops, rfl⟩ | ⟨hops, rfl⟩
      · simp only [branchSteps, hworker, hops, Option.isSome_some, if_true]
        refine Transition.exec_one (Bridge.step_deliver.mpr ⟨hreplay, ?_, ops, hops, rfl⟩)
        -- the event is supported under its own names
        have hsession := h.sound.session
        rw [hworker] at hsession
        have hnames := feed.names block e (hsession.2.2.subset List.mem_cons_self)
        show Replay.isSupported (feed.event block e).names.1 (feed.event block e).names.2 = true
        rw [hnames]
        exact hsup
      · simp only [branchSteps, hworker, hops, Option.isSome_none, Bool.false_eq_true, if_false]
        rfl
  | statement performed pick => exact Transition.exec_one (step_statement hstep).1
  | record recorded =>
      obtain ⟨block, e, rest, last, max, d, -, hreplay, hcases⟩ := step_record hstep
      rcases hcases with ⟨rfl, rfl⟩ | ⟨rfl, rfl⟩
      · exact Transition.exec_one (Bridge.step_record.mpr ⟨d, hreplay, rfl⟩)
      · exact Transition.exec_one rfl

end Steps

/-- The nodes that the worker can reach from empty tables. -/
abbrev Runs (finalized : UInt32) (rows : List ChainEventRow) (cursor : Option (Int64 × Int32))
    (tr : List (Node × Label)) (s : Node) : Prop :=
  Transition.Run (step lib db pg feed) (init finalized rows cursor) tr s

/-- **The worker refines the loops alone.** -/
theorem refines_loops (finalized : UInt32) (rows : List ChainEventRow)
    (cursor : Option (Int64 × Int32)) :
    Transition.Refines (step lib db pg feed) (init finalized rows cursor)
      (Replay.step feed.chain) (Replay.initial finalized rows cursor) (fun _ _ => True)
      (loopSteps lib db pg feed)
      fun s r => Invariant feed (Replay.lastCursor cursor) s ∧ s.reader = r where
  init := ⟨.init finalized rows cursor, rfl⟩
  matched := by
    rintro s l t r ⟨hinv, rfl⟩ - hstep
    refine ⟨t.reader, ?_, hinv.step hstep, rfl⟩
    rcases loop_step hinv.sync hstep with ⟨hnone, hsame⟩ | ⟨l', hone, hl'⟩
    · rw [hnone, hsame]
      rfl
    · rw [hone]
      exact Transition.exec_one hl'

/-- **The worker refines the branches alone.** -/
theorem refines_branches (finalized : UInt32) (rows : List ChainEventRow)
    (cursor : Option (Int64 × Int32)) :
    Transition.Refines (step lib db pg feed) (init finalized rows cursor)
      (Bridge.step lib db pg) Bridge.System.init (fun _ _ => True) (branchSteps feed)
      fun s b => Invariant feed (Replay.lastCursor cursor) s ∧ s.bridge = b where
  init := ⟨.init finalized rows cursor, rfl⟩
  matched := by
    rintro s l t b ⟨hinv, rfl⟩ - hstep
    exact ⟨t.bridge, branches_step hinv hstep, hinv.step hstep, rfl⟩

/-- **Both halves of the worker are the ones modelled apart.** In every run the loops have taken
the steps of the replay worker without its branches, and the tables are those that the branches make
together with the requests, the outbox worker and the backfill. -/
theorem worker_refines {finalized : UInt32} {rows : List ChainEventRow}
    {cursor : Option (Int64 × Int32)} {tr : List (Node × Label)} {s : Node}
    (hrun : Runs lib db pg feed finalized rows cursor tr s) :
    Transition.exec (Replay.step feed.chain) (Replay.initial finalized rows cursor)
        (Transition.trace (loopSteps lib db pg feed) tr) = some s.reader ∧
      Transition.exec (Bridge.step lib db pg) Bridge.System.init
        (Transition.trace (branchSteps feed) tr) = some s.bridge := by
  obtain ⟨r, hloops, -, rfl⟩ :=
    (refines_loops lib db pg feed finalized rows cursor).run hrun fun _ _ => trivial
  obtain ⟨b, hbranches, -, rfl⟩ :=
    (refines_branches lib db pg feed finalized rows cursor).run hrun fun _ _ => trivial
  exact ⟨hloops, hbranches⟩

/-! ## What has been handled -/

/-- The event, as it was handed to its branch. -/
def Handles (p : Entry) (d : Delivery) : Prop :=
  ∃ extrinsics generatedId now, d = feed.delivery p.1 p.2 extrinsics generatedId now

/-- `hs` are the events that have gone through their branches and been recorded, in this order. -/
structure Handled (start : Cursor) (rows : List ChainEventRow) (s : Node) (log hs : List Entry) :
    Prop where
  logged : Journal.Logged feed.chain start rows s.reader log
  handles : List.Forall₂ (Handles feed) hs s.bridge.processed.reverse
  recorded : ∀ p ∈ log, p ∈ hs
  hasRow : ∀ p ∈ hs, Replay.HasRow s.reader (Journal.positionOf p)

/-- The events that were handled before one are all that there are to record before it. -/
def After (start : Cursor) (rows : List ChainEventRow) (hs : List Entry) (p : Entry) : Prop :=
  ∀ q : Entry, q.2 ∈ feed.chain.events q.1 → Journal.Wanted start rows q → Journal.Earlier q p →
    q ∈ hs

def InOrder (start : Cursor) (rows : List ChainEventRow) (hs : List Entry) : Prop :=
  ∀ before p after, hs = before ++ p :: after → After feed start rows before p

section Handled

variable {lib db pg feed} {s t : Node} {start : Cursor} {rows : List ChainEventRow}
variable {log hs : List Entry}

theorem loops_rows {l : Replay.Label} {r r' : Replay.State} (hl : ofEvents l = false)
    (hstep : Replay.step feed.chain r l = some r') : r'.rows = r.rows := by
  cases l with
  | finalize => rw [← Option.some.inj (Option.ite_none_left_eq_some.mp hstep).2]
  | start => rw [← Option.some.inj (Option.ite_none_right_eq_some.mp hstep).2]
  | crash => rw [← Option.some.inj (Option.ite_none_left_eq_some.mp hstep).2]
  | subscribe cursorRead =>
      simp only [Replay.step] at hstep
      split at hstep
      · cases cursorRead <;> (rw [← Option.some.inj hstep])
      · cases hstep
  | deliver fetched =>
      simp only [Replay.step] at hstep
      split at hstep
      · have hstep := (Option.ite_none_right_eq_some.mp hstep).2
        cases fetched <;> (rw [← Option.some.inj hstep])
      · cases hstep
  | endBlock updated =>
      simp only [Replay.step] at hstep
      split at hstep
      · split at hstep
        · cases updated <;> (rw [← Option.some.inj hstep])
        · rw [← Option.some.inj hstep]
      · cases hstep
  | disconnect =>
      simp only [Replay.step] at hstep
      split at hstep
      · rw [← Option.some.inj hstep]
      · cases hstep
  | event decoded extrinsics recorded => cases hl

/-- A step records the event whose branch is through, or nothing. -/
theorem record_cases {l : Label} (hsync : Sync feed s) (hstep : step lib db pg feed s l = some t) :
    (t.reader.rows = s.reader.rows ∧ t.bridge.processed = s.bridge.processed) ∨
      ∃ block e rest last max d, s.reader.worker = .reading block (e :: rest) last max ∧
        Handles feed (block, e) d ∧ t.bridge.processed = d :: s.bridge.processed ∧
        Replay.HasRow t.reader (Replay.position block e) := by
  cases l with
  | others l =>
      obtain ⟨hl, hb, hreader⟩ := step_others hstep
      exact .inl ⟨by rw [hreader], (others_branch hl hb).2⟩
  | loops l =>
      obtain ⟨hl, hr, hbridge⟩ := step_loops hstep
      refine .inl ⟨loops_rows hl hr, ?_⟩
      rw [hbridge]
      split <;> rfl
  | pass decoded =>
      obtain ⟨block, e, rest, last, max, -, -, -, rfl⟩ := step_pass hstep
      exact .inl ⟨rfl, rfl⟩
  | enter extrinsics generatedId now =>
      obtain ⟨block, e, rest, last, max, -, -, -, -, ⟨ops, -, rfl⟩ | ⟨-, rfl⟩⟩ := step_enter hstep
      · exact .inl ⟨rfl, rfl⟩
      · exact .inl ⟨rfl, rfl⟩
  | statement performed pick =>
      obtain ⟨hb, hreader⟩ := step_statement hstep
      refine .inl ⟨?_, (statement_branch hb).1⟩
      rw [hreader]
      split <;> rfl
  | record recorded =>
      obtain ⟨block, e, rest, last, max, d, hworker, hreplay, ⟨-, rfl⟩ | ⟨-, rfl⟩⟩ :=
        step_record hstep
      · obtain ⟨block', e', _, _, _, extrinsics, generatedId, now, hworker', -, -, rfl⟩ :=
          hsync d [] hreplay
        obtain ⟨rfl, hlist, -⟩ := Replay.Worker.reading.inj (hworker.symm.trans hworker')
        obtain ⟨rfl, -⟩ := List.cons.inj hlist
        exact .inr ⟨block, e, rest, last, max, _, hworker, ⟨extrinsics, generatedId, now, rfl⟩, rfl,
          Replay.hasRow_recordChainEvent _⟩
      · exact .inl ⟨rfl, rfl⟩

/-- What a step adds to the log it adds to what has been handled. -/
theorem Handled.step {l : Label} (hinv : Invariant feed start s)
    (h : Handled feed start rows s log hs) (hstep : step lib db pg feed s l = some t) :
    ∃ log', (Handled feed start rows t log' hs ∧ t.bridge.processed = s.bridge.processed) ∨
      ∃ block e rest last max, s.reader.worker = .reading block (e :: rest) last max ∧
        Handled feed start rows t log' (hs ++ [(block, e)]) := by
  have hext : Replay.Extends s.reader t.reader := by
    rcases loop_step hinv.sync hstep with ⟨-, hsame⟩ | ⟨l', -, hl'⟩
    · rw [hsame]
      exact fun p hp => hp
    · exact (Journal.moved hl').extends
  have hle : s.reader.finalized ≤ t.reader.finalized := by
    rcases loop_step hinv.sync hstep with ⟨-, hsame⟩ | ⟨l', -, hl'⟩
    · rw [hsame]
      exact UInt32.le_refl _
    · exact (Journal.moved hl').finalized_le
  rcases record_cases hinv.sync hstep with
    ⟨hrows, hprocessed⟩ | ⟨block, e, rest, last, max, d, hworker, hhandles, hprocessed, hrow⟩
  · refine ⟨log, .inl ⟨⟨h.logged.same hrows hle, ?_, h.recorded, fun p hp => ?_⟩, hprocessed⟩⟩
    · rw [hprocessed]
      exact h.handles
    · exact hext _ (h.hasRow p hp)
  · -- the event is in the log already, or it is the new one
    obtain ⟨log', hlog', hmem⟩ : ∃ log', Journal.Logged feed.chain start rows t.reader log' ∧
        ∀ p ∈ log', p ∈ log ∨ p = (block, e) := by
      rcases loop_step hinv.sync hstep with ⟨-, hsame⟩ | ⟨l', -, hl'⟩
      · exact ⟨log, h.logged.same (by rw [hsame]) hle, fun p hp => .inl hp⟩
      · rcases h.logged.step hinv.sound (Journal.moved hl') with
          hsame | ⟨block', e', _, _, _, hworker', -, -, -, hmore⟩
        · exact ⟨log, hsame, fun p hp => .inl hp⟩
        · obtain ⟨rfl, hlist, -⟩ := Replay.Worker.reading.inj (hworker.symm.trans hworker')
          obtain ⟨rfl, -⟩ := List.cons.inj hlist
          refine ⟨_, hmore, fun p hp => ?_⟩
          rcases List.mem_append.mp hp with hp | hp
          · exact .inl hp
          · exact .inr (List.mem_singleton.mp hp)
    refine ⟨log', .inr ⟨block, e, rest, last, max, hworker, hlog', ?_, fun p hp => ?_,
      fun p hp => ?_⟩⟩
    · rw [hprocessed, List.reverse_cons]
      exact List.rel_append h.handles (.cons hhandles .nil)
    · rcases hmem p hp with hold | rfl
      · exact List.mem_append_left _ (h.recorded p hold)
      · exact List.mem_append_right _ List.mem_cons_self
    · rcases List.mem_append.mp hp with hold | hnew
      · exact hext _ (h.hasRow p hold)
      · obtain rfl := List.mem_singleton.mp hnew
        exact hrow

/-- At an event of the loops, everything earlier has been handled. -/
theorem Handled.after {block : UInt32} {e : ChainEvent} {rest : List ChainEvent}
    {last max : Cursor} (hinv : Invariant feed start s)
    (hreplay : Replay.Invariant feed.chain start s.reader) (h : Handled feed start rows s log hs)
    (hworker : s.reader.worker = .reading block (e :: rest) last max) :
    After feed start rows hs (block, e) := by
  intro q hq hwanted hearlier
  have hsession := hinv.sound.session
  rw [hworker] at hsession
  have hle : q.1 ≤ s.reader.finalized := by
    have hblock := UInt32.le_iff_toNat_le.mp hsession.2.1
    have hpos := Journal.earlier_iff.mp hearlier
    refine UInt32.le_iff_toNat_le.mpr ?_
    dsimp only at hpos
    omega
  have hrow := Journal.hasRow_of_earlier hinv.sound hreplay hworker hq hwanted.1 hwanted.2.1
    hearlier
  exact h.recorded q (h.logged.mem_of_hasRow (Journal.mem_journal.mpr ⟨hle, hq, hwanted⟩) hrow)

theorem InOrder.snoc {p : Entry} (h : InOrder feed start rows hs) (hp : After feed start rows hs p) :
    InOrder feed start rows (hs ++ [p]) := by
  intro before q after heq
  rcases List.eq_nil_or_concat after with rfl | ⟨after', r, rfl⟩
  · obtain ⟨rfl, hlast⟩ := List.append_inj' heq rfl
    obtain rfl := (List.cons.inj hlast).1
    exact hp
  · rw [List.concat_eq_append, ← List.cons_append, ← List.append_assoc] at heq
    exact h before q after' (List.append_inj' heq rfl).1

/-! ## Every run -/

variable {finalized : UInt32} {cursor : Option (Int64 × Int32)} {tr : List (Node × Label)}

theorem Handled.init (finalized : UInt32) (cursor : Option (Int64 × Int32)) :
    Handled feed start rows (init finalized rows cursor) [] [] where
  logged := Journal.Logged.initial finalized cursor
  handles := .nil
  recorded p hp := hp
  hasRow p hp := by cases hp

/-- **What is recorded has been handled, and what has been handled is recorded.** In every run each
row that the worker adds to `chain_events` is the row of an event whose branch has gone through to
its end, and each event whose branch has gone through, for the first time or again, has its row. -/
theorem recorded_handled (hrun : Runs lib db pg feed finalized rows cursor tr s) :
    ∃ log new hs, s.reader.rows = rows ++ new ∧ List.Forall₂ Journal.IsRow log new ∧
      List.Forall₂ (Handles feed) hs s.bridge.processed.reverse ∧ (∀ p ∈ log, p ∈ hs) ∧
      ∀ p ∈ hs, Replay.HasRow s.reader (Journal.positionOf p) := by
  obtain ⟨-, log, hs, h⟩ : Invariant feed (Replay.lastCursor cursor) s ∧
      ∃ log hs, Handled feed (Replay.lastCursor cursor) rows s log hs := by
    refine hrun.invariant (P := fun s => Invariant feed (Replay.lastCursor cursor) s ∧
      ∃ log hs, Handled feed (Replay.lastCursor cursor) rows s log hs) ?_ ?_
    · exact ⟨.init finalized rows cursor, [], [], .init finalized cursor⟩
    · rintro s l t ⟨hinv, log, hs, h⟩ hstep
      refine ⟨hinv.step hstep, ?_⟩
      obtain ⟨log', ⟨h', -⟩ | ⟨block, e, _, _, _, -, h'⟩⟩ := h.step hinv hstep
      · exact ⟨log', hs, h'⟩
      · exact ⟨log', hs ++ [(block, e)], h'⟩
  obtain ⟨new, hrows, hall⟩ := h.logged.rows
  exact ⟨log, new, hs, hrows, hall, h.handles, h.recorded, h.hasRow⟩

/-- The step passes over an event that is due. -/
def Loses (lib : Libraries) (db : Database) (pg : Jsonb) (feed : Feed) (s : Node) (l : Label) :
    Prop :=
  ∃ l' ∈ loopSteps lib db pg feed s l, Replay.Loses feed.chain s.reader l'

section Loses

variable {lib : Libraries} {db : Database} {pg : Jsonb} {feed : Feed} {s : Node}

theorem not_loses_loops {l : Replay.Label} (h : ¬ Replay.Loses feed.chain s.reader l) :
    ¬ Loses lib db pg feed s (.loops l) := by
  rintro ⟨l', hl', hlost⟩
  obtain rfl := List.mem_singleton.mp hl'
  exact h hlost

theorem not_loses_enter {extrinsics : Bool} {generatedId : String} {now : Int} :
    ¬ Loses lib db pg feed s (.enter extrinsics generatedId now) := by
  rintro ⟨l', hl', hlost⟩
  simp only [loopSteps] at hl'
  split at hl'
  · split at hl'
    · cases hl'
    · obtain rfl := List.mem_singleton.mp hl'
      exact hlost
  · cases hl'

theorem not_loses_statement {performed : Bool} {pick : String} :
    ¬ Loses lib db pg feed s (.statement performed pick) := by
  rintro ⟨l', hl', hlost⟩
  simp only [loopSteps] at hl'
  split at hl'
  · cases hl'
  · obtain rfl := List.mem_singleton.mp hl'
    exact hlost

/-- What has been decoded is not lost. -/
theorem not_loses_record {recorded : Bool} : ¬ Loses lib db pg feed s (.record recorded) := by
  rintro ⟨l', hl', hlost⟩
  simp only [loopSteps] at hl'
  split at hl'
  · obtain rfl := List.mem_singleton.mp hl'
    simp only [Replay.Loses] at hlost
    split at hlost
    · exact Bool.noConfusion hlost.1
    · exact hlost
  · cases hl'

end Loses

/-- **No event overtakes another.** In a run in which no step passes over an event that is due, the
branch of an event begins when the branches of all earlier events that there are to record have gone
through, whatever has crashed and been handled again. -/
theorem handled_in_order (hrun : Runs lib db pg feed finalized rows cursor tr s)
    (hkeep : Transition.EachStep (fun s l => ¬ Loses lib db pg feed s l) tr) :
    ∃ hs, List.Forall₂ (Handles feed) hs s.bridge.processed.reverse ∧
      InOrder feed (Replay.lastCursor cursor) rows hs ∧
      ∀ d ops, s.bridge.replay = some (d, ops) →
        ∃ p, Handles feed p d ∧ After feed (Replay.lastCursor cursor) rows hs p := by
  have hall : Transition.Always (fun s => Invariant feed (Replay.lastCursor cursor) s ∧
      Replay.Invariant feed.chain (Replay.lastCursor cursor) s.reader ∧
      ∃ log hs, Handled feed (Replay.lastCursor cursor) rows s log hs ∧
        InOrder feed (Replay.lastCursor cursor) rows hs) tr s := by
    refine Transition.Run.always_of ?_ ?_ hrun hkeep
    · refine ⟨.init finalized rows cursor, Replay.Invariant.initial feed.chain finalized rows cursor,
        [], [], .init finalized cursor, fun before p after heq => ?_⟩
      cases before <;> cases heq
    · rintro s l t ⟨hinv, hreplay, log, hs, h, hord⟩ hl hstep
      refine ⟨hinv.step hstep, ?_, ?_⟩
      · rcases loop_step hinv.sync hstep with ⟨-, hsame⟩ | ⟨l', hone, hl'⟩
        · rw [hsame]
          exact hreplay
        · refine hreplay.step s.reader l' t.reader (fun hlost => hl ⟨l', ?_, hlost⟩) hl'
          rw [hone]
          exact List.mem_cons_self
      · obtain ⟨log', ⟨h', -⟩ | ⟨block, e, _, _, _, hworker, h'⟩⟩ := h.step hinv hstep
        · exact ⟨log', hs, h', hord⟩
        · exact ⟨log', _, h', hord.snoc (h.after hinv hreplay hworker)⟩
  obtain ⟨hinv, hreplay, log, hs, h, hord⟩ := hall.1
  refine ⟨hs, h.handles, hord, fun d ops hbranch => ?_⟩
  obtain ⟨block, e, _, _, _, extrinsics, generatedId, now, hworker, -, -, hd⟩ :=
    hinv.sync d ops hbranch
  exact ⟨(block, e), ⟨extrinsics, generatedId, now, hd⟩, h.after hinv hreplay hworker⟩

end Handled

/-! ## A task that is created -/

/-- The events of `threeTasks`, decoded. -/
def taskFeed : Feed where
  chain := Replay.threeTasks
  event _ _ := .taskCreated 7 1000
  names block e he := by
    have hmem : e ∈ if block = 1 ∨ block = 2 ∨ block = 3 then
        [(⟨0, "TaskMarket", "TaskCreated", some "[7, 1000]", none⟩ : ChainEvent)] else [] := he
    split at hmem
    · obtain rfl := List.mem_singleton.mp hmem
      rfl
    · cases hmem

theorem not_loses_fetched {chain : Replay.Chain} {r : Replay.State} :
    ¬ Replay.Loses chain r (.deliver true) := by
  intro hlost
  simp only [Replay.Loses] at hlost
  split at hlost
  · exact Bool.noConfusion hlost.1
  · exact hlost

/-- The first block, whose branch is a mirror, a link and a patch, all of which fail. -/
theorem taskFeed_run :
    ∃ tr s, Runs Bridge.bridgeLibraries Storage.migrated (.onValues []) taskFeed 1 [] none tr s ∧
      s.reader.rows.length = 1 ∧ s.bridge.processed.length = 1 := by
  have hrun : Runs Bridge.bridgeLibraries Storage.migrated (.onValues []) taskFeed 1 [] none _ _ :=
    (((((((Transition.Run.nil.snoc (i := .loops .start) rfl).snoc
      (i := .loops (.subscribe true)) rfl).snoc (i := .loops (.deliver true)) rfl).snoc
      (i := .enter true "t1" 0) rfl).snoc (i := .statement false "") rfl).snoc
      (i := .statement false "") rfl).snoc (i := .statement false "") rfl).snoc
      (i := .record true) rfl
  exact ⟨_, _, hrun, rfl, rfl⟩

/-- The two halves of that run. -/
theorem taskFeed_refines : ∃ (tr : List (Node × Label)) (s : Node),
    s.reader.rows.length = 1 ∧ s.bridge.processed.length = 1 ∧
      Transition.exec (Replay.step Replay.threeTasks) (Replay.initial 1 [] none)
        (Transition.trace (loopSteps Bridge.bridgeLibraries Storage.migrated (.onValues []) taskFeed)
          tr) = some s.reader ∧
      Transition.exec (Bridge.step Bridge.bridgeLibraries Storage.migrated (.onValues []))
        Bridge.System.init (Transition.trace (branchSteps taskFeed) tr) = some s.bridge := by
  obtain ⟨tr, s, hrun, hrows, hprocessed⟩ := taskFeed_run
  obtain ⟨hloops, hbranches⟩ := worker_refines _ _ _ _ hrun
  exact ⟨tr, s, hrows, hprocessed, hloops, hbranches⟩

/-- The row of the event, and its branch. -/
theorem taskFeed_handled : ∃ (s : Node) (log hs : List Entry) (new : List ChainEventRow),
    s.reader.rows.length = 1 ∧ s.reader.rows = new ∧ List.Forall₂ Journal.IsRow log new ∧
      List.Forall₂ (Handles taskFeed) hs s.bridge.processed.reverse ∧ ∀ p ∈ log, p ∈ hs := by
  obtain ⟨tr, s, hrun, hlength, -⟩ := taskFeed_run
  obtain ⟨log, new, hs, hrows, hall, hhandles, hmem, -⟩ := recorded_handled hrun
  exact ⟨s, log, hs, new, hlength, hrows, hall, hhandles, hmem⟩

/-- The worker stops before the end of the first block, handles its event once more, and goes on with
the second block, which has been finalized by then. -/
theorem taskAgain_run :
    ∃ tr s, Runs Bridge.bridgeLibraries Storage.migrated (.onValues []) taskFeed 1 [] none tr s ∧
      Transition.EachStep (fun s l =>
        ¬ Loses Bridge.bridgeLibraries Storage.migrated (.onValues []) taskFeed s l) tr ∧
      s.reader.rows.length = 2 ∧ s.bridge.processed.reverse.map (·.blockNumber) = [1, 1, 2] := by
  have hfirst : Runs Bridge.bridgeLibraries Storage.migrated (.onValues []) taskFeed 1 [] none _ _ :=
    ((((((((Transition.Run.nil.snoc (i := .loops .start) rfl).snoc
      (i := .loops (.subscribe true)) rfl).snoc (i := .loops (.deliver true)) rfl).snoc
      (i := .enter true "t1" 0) rfl).snoc (i := .statement false "") rfl).snoc
      (i := .statement false "") rfl).snoc (i := .statement false "") rfl).snoc
      (i := .record true) rfl).snoc (i := .loops .crash) rfl
  have hagain := ((((((((hfirst.snoc (i := .loops .start) rfl).snoc
    (i := .loops (.subscribe true)) rfl).snoc (i := .loops (.deliver true)) rfl).snoc
    (i := .enter true "t2" 0) rfl).snoc (i := .statement false "") rfl).snoc
    (i := .statement false "") rfl).snoc (i := .statement false "") rfl).snoc
    (i := .record true) rfl).snoc (i := .loops (.endBlock true)) rfl
  have hrun := ((((((hagain.snoc (i := .loops .finalize) rfl).snoc
    (i := .loops (.deliver true)) rfl).snoc (i := .enter true "t3" 0) rfl).snoc
    (i := .statement false "") rfl).snoc (i := .statement false "") rfl).snoc
    (i := .statement false "") rfl).snoc (i := .record true) rfl
  refine ⟨_, _, hrun, ?_, rfl, rfl⟩
  simp only [Transition.eachStep_cons]
  exact ⟨not_loses_record, not_loses_statement, not_loses_statement, not_loses_statement,
    not_loses_enter, not_loses_loops not_loses_fetched, not_loses_loops id, not_loses_loops id,
    not_loses_record, not_loses_statement, not_loses_statement, not_loses_statement,
    not_loses_enter, not_loses_loops not_loses_fetched, not_loses_loops (Replay.threeTasks_first rfl),
    not_loses_loops id, not_loses_loops id, not_loses_record, not_loses_statement,
    not_loses_statement, not_loses_statement, not_loses_enter, not_loses_loops not_loses_fetched,
    not_loses_loops (Replay.threeTasks_first rfl), not_loses_loops id, Transition.eachStep_nil _⟩

/-- The blocks of what has been handled. -/
theorem blocks_of_handles {feed : Feed} {hs : List Entry} {ds : List Delivery}
    (h : List.Forall₂ (Handles feed) hs ds) : hs.map Prod.fst = ds.map (·.blockNumber) := by
  induction h with
  | nil => rfl
  | cons hd _ ih =>
      obtain ⟨extrinsics, generatedId, now, rfl⟩ := hd
      exact congrArg (_ :: ·) ih

/-- The event of the second block comes after that of the first, which has been handled twice. -/
theorem taskAgain_inOrder : ∃ (s : Node) (hs : List Entry),
    s.reader.rows.length = 2 ∧ hs.map Prod.fst = [1, 1, 2] ∧
      List.Forall₂ (Handles taskFeed) hs s.bridge.processed.reverse ∧
      InOrder taskFeed (0, 0) [] hs := by
  obtain ⟨tr, s, hrun, hkeep, hlength, hblocks⟩ := taskAgain_run
  obtain ⟨hs, hhandles, hord, -⟩ := handled_in_order hrun hkeep
  exact ⟨s, hs, hlength, (blocks_of_handles hhandles).trans hblocks, hhandles, hord⟩

end Ainur.Handling
