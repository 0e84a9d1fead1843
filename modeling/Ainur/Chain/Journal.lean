import Ainur.Chain.Deliveries
import Ainur.Lib.Grows
import Mathlib.Data.List.Nodup

set_option autoImplicit false

/-! # The journal of the chain

`chain_events` as what it is for: a copy of the finalized chain from the cursor of the first start
on. Whatever fails, the rows that the worker adds are those of finalized events, one for each
(`journal_faithful`). As long as no step passes over an event that is due, they are the first of
those events in the order of the chain, at every moment (`journal_prefix`), and the worker can get
all of them (`catches_up`).
-/

namespace Ainur.Journal

open Replay
open Deliveries (rowKey)

/-! ## What there is to record -/

/-- An event and its block. -/
abbrev Entry := UInt32 × ChainEvent

def positionOf (p : Entry) : Cursor := position p.1 p.2

/-- Supported, later than `start`, and not in `rows` already. -/
def Wanted (start : Cursor) (rows : List ChainEventRow) (p : Entry) : Prop :=
  isSupported p.2.pallet p.2.variant = true ∧ ¬ Cursor.AtMost (positionOf p) start ∧
    ∀ r ∈ rows, rowKey r ≠ cursorRow (positionOf p)

instance (start : Cursor) (rows : List ChainEventRow) (p : Entry) :
    Decidable (Wanted start rows p) := by
  unfold Wanted
  infer_instance

/-- The wanted events of a block. -/
def ofBlock (chain : Chain) (start : Cursor) (rows : List ChainEventRow) (block : UInt32) :
    List Entry :=
  ((chain.events block).map fun e => (block, e)).filter fun p => Wanted start rows p

/-- The wanted events of the blocks up to `last`, in the order of the chain. -/
def journal (chain : Chain) (start : Cursor) (rows : List ChainEventRow) (last : UInt32) :
    List Entry :=
  (List.range (last.toNat + 1)).flatMap fun block => ofBlock chain start rows (.ofNat block)

def Earlier (p q : Entry) : Prop := ¬ Cursor.AtMost (positionOf q) (positionOf p)

/-- The block number first, then the index. -/
theorem atMost_iff {p q : Entry} : Cursor.AtMost (positionOf p) (positionOf q) ↔
    p.1.toNat < q.1.toNat ∨ (p.1.toNat = q.1.toNat ∧ p.2.index.toNat ≤ q.2.index.toNat) := by
  unfold Cursor.AtMost positionOf position
  simp only [UInt64.lt_iff_toNat_lt, UInt32.le_iff_toNat_le, UInt32.toNat_toUInt64,
    ← UInt64.toNat_inj]

theorem earlier_iff {p q : Entry} : Earlier p q ↔
    p.1.toNat < q.1.toNat ∨ (p.1.toNat = q.1.toNat ∧ p.2.index.toNat < q.2.index.toNat) := by
  unfold Earlier
  rw [atMost_iff]
  omega

theorem Earlier.asymm (p q : Entry) (h : Earlier p q) : ¬ Earlier q p := by
  rw [earlier_iff] at h ⊢
  omega

section Lists

variable {chain : Chain} {start : Cursor} {rows : List ChainEventRow} {last block : UInt32}
variable {p q : Entry}

theorem mem_ofBlock : p ∈ ofBlock chain start rows block ↔
    p.1 = block ∧ p.2 ∈ chain.events block ∧ Wanted start rows p := by
  unfold ofBlock
  rw [List.mem_filter, List.mem_map]
  constructor
  · rintro ⟨⟨e, he, rfl⟩, hwanted⟩
    exact ⟨rfl, he, of_decide_eq_true hwanted⟩
  · rintro ⟨rfl, he, hwanted⟩
    exact ⟨⟨p.2, he, rfl⟩, decide_eq_true hwanted⟩

theorem mem_journal : p ∈ journal chain start rows last ↔
    p.1 ≤ last ∧ p.2 ∈ chain.events p.1 ∧ Wanted start rows p := by
  unfold journal
  rw [List.mem_flatMap]
  constructor
  · rintro ⟨n, hn, hp⟩
    obtain ⟨hblock, he, hwanted⟩ := mem_ofBlock.mp hp
    have hlt : n < last.toNat + 1 := List.mem_range.mp hn
    have hbound : last.toNat < 2 ^ 32 := last.toNat_lt
    have hnat : p.1.toNat = n := by
      rw [hblock, UInt32.toNat_ofNat']
      omega
    refine ⟨UInt32.le_iff_toNat_le.mpr (by omega), ?_, hwanted⟩
    rw [hblock]
    exact he
  · rintro ⟨hle, he, hwanted⟩
    have hnat : p.1.toNat ≤ last.toNat := UInt32.le_iff_toNat_le.mp hle
    refine ⟨p.1.toNat, List.mem_range.mpr (by omega), mem_ofBlock.mpr ⟨?_, ?_, hwanted⟩⟩
    · exact UInt32.ofNat_toNat.symm
    · rw [UInt32.ofNat_toNat]
      exact he

theorem ofBlock_ordered : (ofBlock chain start rows block).Pairwise Earlier := by
  unfold ofBlock
  refine List.Pairwise.filter _ (List.pairwise_map.mpr ?_)
  refine (chain.ordered block).imp fun {e f} hlt => ?_
  exact earlier_iff.mpr (.inr ⟨rfl, UInt32.lt_iff_toNat_lt.mp hlt⟩)

theorem journal_ordered : (journal chain start rows last).Pairwise Earlier := by
  unfold journal
  refine List.pairwise_flatMap.mpr ⟨fun n _ => ofBlock_ordered, ?_⟩
  -- an earlier block holds earlier events
  refine List.pairwise_lt_range.imp_of_mem fun {m n} hm hn hlt p hp q hq => ?_
  have hp := (mem_ofBlock.mp hp).1
  have hq := (mem_ofBlock.mp hq).1
  have hm := List.mem_range.mp hm
  have hn := List.mem_range.mp hn
  have hbound : last.toNat < 2 ^ 32 := last.toNat_lt
  refine earlier_iff.mpr (.inl ?_)
  rw [hp, hq, UInt32.toNat_ofNat', UInt32.toNat_ofNat']
  omega

/-- More blocks, more events at the end. -/
theorem journal_mono {next : UInt32} (hle : last ≤ next) (hp : p ∈ journal chain start rows last) :
    p ∈ journal chain start rows next := by
  obtain ⟨hlast, hrest⟩ := mem_journal.mp hp
  exact mem_journal.mpr ⟨UInt32.le_trans hlast hle, hrest⟩

/-- The position tells an event of the chain. -/
theorem eq_of_position (hp : p.2 ∈ chain.events p.1) (hq : q.2 ∈ chain.events q.1)
    (h : positionOf p = positionOf q) : p = q := by
  obtain ⟨b, e⟩ := p
  obtain ⟨b', f⟩ := q
  obtain ⟨hblock, hindex⟩ := Prod.mk.inj h
  obtain rfl : b = b' := by
    have hnat := congrArg UInt64.toNat hblock
    rw [UInt32.toNat_toUInt64, UInt32.toNat_toUInt64] at hnat
    exact UInt32.toNat_inj.mp hnat
  have hnodup : ((chain.events b).map ChainEvent.index).Nodup :=
    List.pairwise_map.mpr ((chain.ordered b).imp fun hlt => UInt32.ne_of_lt hlt)
  exact congrArg (Prod.mk b) (List.inj_on_of_nodup_map hnodup hp hq hindex)

end Lists

/-! ## What a step does -/

/-- The changes that a step can make. -/
inductive Moved (chain : Chain) (s : State) : State → Prop
  | finalize (hnext : s.finalized + 1 ≠ 0) :
      Moved chain s { s with finalized := s.finalized + 1 }
  | leave {worker : Worker} (hworker : worker = .stopped ∨ worker = .connecting) :
      Moved chain s { s with worker := worker }
  | subscribe : Moved chain s { s with worker := .listening s.finalized (lastCursor s.cursor) }
  | deliver {next : UInt32} {last : Cursor} (hworker : s.worker = .listening next last)
      (hnext : next ≤ s.finalized) :
      Moved chain s { s with worker := .reading next (chain.events next) last last }
  | miss {next : UInt32} {last : Cursor} (hworker : s.worker = .listening next last)
      (hnext : next ≤ s.finalized) :
      Moved chain s { s with worker := .listening (next + 1) last }
  | pass {block : UInt32} {e : ChainEvent} {rest : List ChainEvent} {last max : Cursor}
      (hworker : s.worker = .reading block (e :: rest) last max) :
      Moved chain s { s with worker := .reading block rest last max }
  | record {block : UInt32} {e : ChainEvent} {rest : List ChainEvent} {last max : Cursor}
      (hworker : s.worker = .reading block (e :: rest) last max)
      (hsup : isSupported e.pallet e.variant = true)
      (hlast : ¬ Cursor.AtMost (position block e) last) (extrinsics : Bool) :
      Moved chain s { s with
        rows := recordChainEvent s.rows (eventRow block e extrinsics)
        worker := .reading block rest last (position block e) }
  | advance {block : UInt32} {last max : Cursor} (hworker : s.worker = .reading block [] last max)
      (hmax : Cursor.AtMost last max) :
      Moved chain s { s with
        cursor := some (cursorRow max)
        worker := .listening (block + 1) max }
  | keep {block : UInt32} {last max : Cursor} (hworker : s.worker = .reading block [] last max) :
      Moved chain s { s with worker := .listening (block + 1) last }

theorem moved {chain : Chain} {s t : State} {l : Label} (hstep : step chain s l = some t) :
    Moved chain s t := by
  cases l with
  | finalize =>
      obtain ⟨hnext, hstep⟩ := Option.ite_none_left_eq_some.mp hstep
      obtain rfl := Option.some.inj hstep
      exact .finalize hnext
  | start =>
      obtain rfl := Option.some.inj (Option.ite_none_right_eq_some.mp hstep).2
      exact .leave (.inr rfl)
  | subscribe cursorRead =>
      simp only [step] at hstep
      split at hstep
      · split at hstep
        · obtain rfl := Option.some.inj hstep
          exact .subscribe
        · obtain rfl := Option.some.inj hstep
          exact .leave (.inl rfl)
      · cases hstep
  | deliver fetched =>
      simp only [step] at hstep
      split at hstep
      · next next last hworker =>
          obtain ⟨hnext, hstep⟩ := Option.ite_none_right_eq_some.mp hstep
          cases fetched with
          | true =>
              obtain rfl := Option.some.inj hstep
              exact .deliver hworker hnext
          | false =>
              obtain rfl := Option.some.inj hstep
              exact .miss hworker hnext
      · cases hstep
  | event decoded extrinsics recorded =>
      simp only [step] at hstep
      split at hstep
      · next block e rest last max hworker =>
          split at hstep
          · obtain rfl := Option.some.inj hstep
            exact .pass hworker
          · next hskip =>
              have hlast : ¬ Cursor.AtMost (position block e) last :=
                fun hle => hskip (.inr (.inl hle))
              have hsup : isSupported e.pallet e.variant = true :=
                Bool.not_eq_false _ ▸ fun hno => hskip (.inr (.inr hno))
              split at hstep
              · obtain rfl := Option.some.inj hstep
                exact .record hworker hsup hlast extrinsics
              · obtain rfl := Option.some.inj hstep
                exact .leave (.inl rfl)
      · cases hstep
  | endBlock updated =>
      simp only [step] at hstep
      split at hstep
      · next block last max hworker =>
          split at hstep
          · next hadvance =>
              split at hstep
              · obtain rfl := Option.some.inj hstep
                exact .advance hworker (Cursor.le_total (Cursor.advance_iff.mp hadvance))
              · obtain rfl := Option.some.inj hstep
                exact .leave (.inl rfl)
          · obtain rfl := Option.some.inj hstep
            exact .keep hworker
      · cases hstep
  | disconnect =>
      simp only [step] at hstep
      split at hstep
      · obtain rfl := Option.some.inj hstep
        exact .leave (.inr rfl)
      · cases hstep
  | crash =>
      obtain rfl := Option.some.inj (Option.ite_none_left_eq_some.mp hstep).2
      exact .leave (.inl rfl)

/-! ## The session -/

/-- What the worker holds: the persisted cursor, and a part of the finalized chain. -/
def Session (chain : Chain) (s : State) : Worker → Prop
  | .stopped | .connecting => True
  | .listening next last => lastCursor s.cursor = last ∧ next.toNat ≤ s.finalized.toNat + 1
  | .reading block rest last _ =>
      lastCursor s.cursor = last ∧ block ≤ s.finalized ∧ rest <:+ chain.events block

structure Sound (chain : Chain) (start : Cursor) (s : State) : Prop where
  cursor : Cursor.AtMost start (lastCursor s.cursor)
  session : Session chain s s.worker

section Steps

variable {chain : Chain} {start : Cursor} {s t : State}

theorem toNat_succ_le (n : UInt32) : (n + 1).toNat ≤ n.toNat + 1 := by
  rw [UInt32.toNat_add]
  exact Nat.mod_le _ _

theorem toNat_succ {n : UInt32} (h : n + 1 ≠ 0) : (n + 1).toNat = n.toNat + 1 := by
  have hne : (n + 1).toNat ≠ 0 := fun h0 => h (UInt32.toNat_inj.mp h0)
  have hlt : n.toNat < 2 ^ 32 := n.toNat_lt
  rw [UInt32.toNat_add] at hne ⊢
  have hone : UInt32.toNat 1 = 1 := rfl
  omega

theorem le_succ {n : UInt32} (h : n + 1 ≠ 0) : n ≤ n + 1 := by
  rw [UInt32.le_iff_toNat_le, toNat_succ h]
  omega

theorem Sound.step (h : Sound chain start s) (hmoved : Moved chain s t) : Sound chain start t := by
  have hsession := h.session
  cases hmoved with
  | finalize hnext =>
      refine ⟨h.cursor, ?_⟩
      show Session chain _ s.worker
      cases hworker : s.worker with
      | stopped => trivial
      | connecting => trivial
      | listening next last =>
          rw [hworker] at hsession
          refine ⟨hsession.1, ?_⟩
          have hle := hsession.2
          show next.toNat ≤ (s.finalized + 1).toNat + 1
          rw [toNat_succ hnext]
          omega
      | reading block rest last max =>
          rw [hworker] at hsession
          exact ⟨hsession.1, UInt32.le_trans hsession.2.1 (le_succ hnext), hsession.2.2⟩
  | leave hworker =>
      refine ⟨h.cursor, ?_⟩
      rcases hworker with rfl | rfl <;> trivial
  | subscribe => exact ⟨h.cursor, rfl, Nat.le_succ _⟩
  | deliver hworker hnext =>
      rw [hworker] at hsession
      exact ⟨h.cursor, hsession.1, hnext, List.suffix_refl _⟩
  | @miss next last hworker hnext =>
      rw [hworker] at hsession
      refine ⟨h.cursor, hsession.1, ?_⟩
      have hle := UInt32.le_iff_toNat_le.mp hnext
      have hsucc := toNat_succ_le next
      show (next + 1).toNat ≤ s.finalized.toNat + 1
      omega
  | pass hworker =>
      rw [hworker] at hsession
      exact ⟨h.cursor, hsession.1, hsession.2.1, (List.suffix_cons _ _).trans hsession.2.2⟩
  | record hworker hsup hlast extrinsics =>
      rw [hworker] at hsession
      exact ⟨h.cursor, hsession.1, hsession.2.1, (List.suffix_cons _ _).trans hsession.2.2⟩
  | @advance block last max hworker hmax =>
      rw [hworker] at hsession
      obtain ⟨hlast, hblock, -⟩ := hsession
      have hread : lastCursor (some (cursorRow max)) = max := readCursor_cursorRow max
      have hle := UInt32.le_iff_toNat_le.mp hblock
      have hsucc := toNat_succ_le block
      refine ⟨?_, hread, ?_⟩
      · show Cursor.AtMost start (lastCursor (some (cursorRow max)))
        rw [hread]
        exact (hlast ▸ h.cursor).trans hmax
      · show (block + 1).toNat ≤ s.finalized.toNat + 1
        omega
  | @keep block last max hworker =>
      rw [hworker] at hsession
      obtain ⟨hlast, hblock, -⟩ := hsession
      have hle := UInt32.le_iff_toNat_le.mp hblock
      have hsucc := toNat_succ_le block
      refine ⟨h.cursor, hlast, ?_⟩
      show (block + 1).toNat ≤ s.finalized.toNat + 1
      omega

end Steps

/-! ## The log -/

/-- The row that the worker records for an event, with the hash of the extrinsic or without it. -/
def IsRow (p : Entry) (r : ChainEventRow) : Prop := ∃ extrinsics, r = eventRow p.1 p.2 extrinsics

/-- The worker has added the rows of the events in `log`. -/
structure Logged (chain : Chain) (start : Cursor) (rows : List ChainEventRow) (s : State)
    (log : List Entry) : Prop where
  mem : ∀ p ∈ log, p ∈ journal chain start rows s.finalized
  nodup : log.Nodup
  rows : ∃ new, s.rows = rows ++ new ∧ List.Forall₂ IsRow log new

/-- Its events are in the order of the chain, and leave none out. -/
structure Ordered (chain : Chain) (start : Cursor) (s : State) (log : List Entry) : Prop where
  ordered : log.Pairwise Earlier
  noGap : ∀ p ∈ log, NoGapUpTo chain start s (positionOf p)

section Log

variable {chain : Chain} {start : Cursor} {rows : List ChainEventRow} {s t : State}
variable {log : List Entry} {p : Entry}

theorem IsRow.rowKey {r : ChainEventRow} (h : IsRow p r) : rowKey r = cursorRow (positionOf p) := by
  obtain ⟨extrinsics, rfl⟩ := h
  rfl

theorem cursorRow_inj {c d : Cursor} (h : cursorRow c = cursorRow d) : c = d := by
  rw [← readCursor_cursorRow c, h, readCursor_cursorRow]

theorem Logged.initial (finalized : UInt32) (cursor : Option (Int64 × Int32)) :
    Logged chain start rows (Replay.initial finalized rows cursor) [] where
  mem p hp := by cases hp
  nodup := List.nodup_nil
  rows := ⟨[], (List.append_nil _).symm, .nil⟩

theorem Ordered.initial (s : State) : Ordered chain start s [] where
  ordered := .nil
  noGap p hp := by cases hp

/-- A step that adds no row. -/
theorem Logged.same (h : Logged chain start rows s log) (hrows : t.rows = s.rows)
    (hle : s.finalized ≤ t.finalized) : Logged chain start rows t log where
  mem p hp := journal_mono hle (h.mem p hp)
  nodup := h.nodup
  rows := by
    rw [hrows]
    exact h.rows

theorem Logged.hasRow (h : Logged chain start rows s log) (hp : p ∈ log) :
    HasRow s (positionOf p) := by
  obtain ⟨new, hrows, hall⟩ := h.rows
  obtain ⟨r, hr, hrow⟩ := exists_of_forall₂ hall hp
  exact ⟨r, hrows ▸ List.mem_append_right _ hr, hrow.rowKey⟩

/-- A wanted event that has a row is in the log. -/
theorem Logged.mem_of_hasRow (h : Logged chain start rows s log)
    (hp : p ∈ journal chain start rows s.finalized) (hrow : HasRow s (positionOf p)) : p ∈ log := by
  obtain ⟨-, he, hwanted⟩ := mem_journal.mp hp
  obtain ⟨new, hrows, hall⟩ := h.rows
  obtain ⟨r, hr, hkey⟩ := hrow
  rw [hrows] at hr
  rcases List.mem_append.mp hr with hold | hnew
  · exact absurd hkey (hwanted.2.2 r hold)
  · obtain ⟨q, hq, hqr⟩ :=
      exists_of_forall₂ (List.Forall₂.flip (R := flip IsRow) hall) hnew
    replace hqr : IsRow q r := hqr
    obtain ⟨-, hq', -⟩ := mem_journal.mp (h.mem q hq)
    have hposition : positionOf q = positionOf p := cursorRow_inj (hqr.rowKey.symm.trans hkey)
    rw [← eq_of_position hq' he hposition]
    exact hq

/-- The new row is the last one. -/
theorem Logged.record {block : UInt32} {e : ChainEvent} {rest : List ChainEvent}
    {last max : Cursor} (hsound : Sound chain start s) (h : Logged chain start rows s log)
    (hworker : s.worker = .reading block (e :: rest) last max)
    (hsup : isSupported e.pallet e.variant = true) (hlast : ¬ Cursor.AtMost (position block e) last)
    (hnone : ¬ HasRow s (position block e)) (extrinsics : Bool) (worker : Worker) :
    Logged chain start rows { s with
      rows := recordChainEvent s.rows (eventRow block e extrinsics)
      worker := worker } (log ++ [(block, e)]) := by
  have hsession := hsound.session
  rw [hworker] at hsession
  obtain ⟨hcursor, hblock, hrest⟩ := hsession
  obtain ⟨new, hrows, hall⟩ := h.rows
  have hrecord : recordChainEvent s.rows (eventRow block e extrinsics) =
      s.rows ++ [eventRow block e extrinsics] := by
    refine if_neg fun hany => hnone ?_
    obtain ⟨r, hr, heq⟩ := List.any_eq_true.mp hany
    obtain ⟨hb, hi⟩ := of_decide_eq_true heq
    exact ⟨r, hr, Prod.ext hb hi⟩
  refine ⟨fun p hp => ?_, ?_, new ++ [eventRow block e extrinsics], ?_, ?_⟩
  · rcases List.mem_append.mp hp with hp | hp
    · exact h.mem p hp
    · obtain rfl := List.mem_singleton.mp hp
      refine mem_journal.mpr ⟨hblock, hrest.subset List.mem_cons_self, hsup, ?_, fun r hr heq => ?_⟩
      · -- the session started at the first cursor or later
        exact fun hle => hlast (hle.trans (hcursor ▸ hsound.cursor))
      · exact hnone ⟨r, hrows ▸ List.mem_append_left _ hr, heq⟩
  · refine List.nodup_append.mpr ⟨h.nodup, List.pairwise_singleton _ _, fun p hp q hq heq => ?_⟩
    obtain rfl := List.mem_singleton.mp hq
    subst heq
    exact hnone (h.hasRow hp)
  · show recordChainEvent s.rows _ = _
    rw [hrecord, hrows, List.append_assoc]
  · exact List.rel_append hall (.cons ⟨extrinsics, rfl⟩ .nil)

/-- A step adds at most one event to the log: one that had no row. -/
theorem Logged.step (hsound : Sound chain start s) (h : Logged chain start rows s log)
    (hmoved : Moved chain s t) :
    Logged chain start rows t log ∨
      ∃ block e rest last max, s.worker = .reading block (e :: rest) last max ∧
        isSupported e.pallet e.variant = true ∧ ¬ Cursor.AtMost (position block e) last ∧
        ¬ HasRow s (position block e) ∧ Logged chain start rows t (log ++ [(block, e)]) := by
  cases hmoved with
  | finalize hnext => exact .inl (h.same rfl (le_succ hnext))
  | leave _ => exact .inl (h.same rfl (UInt32.le_refl _))
  | subscribe => exact .inl (h.same rfl (UInt32.le_refl _))
  | deliver _ _ => exact .inl (h.same rfl (UInt32.le_refl _))
  | miss _ _ => exact .inl (h.same rfl (UInt32.le_refl _))
  | pass _ => exact .inl (h.same rfl (UInt32.le_refl _))
  | @record block e rest last max hworker hsup hlast extrinsics =>
      by_cases hrow : HasRow s (position block e)
      · obtain ⟨r, hr, heq⟩ := hrow
        have hsame : recordChainEvent s.rows (eventRow block e extrinsics) = s.rows := by
          obtain ⟨hb, hi⟩ := Prod.mk.inj heq
          exact if_pos (List.any_eq_true.mpr ⟨r, hr, decide_eq_true ⟨hb, hi⟩⟩)
        exact .inl (h.same hsame (UInt32.le_refl _))
      · exact .inr ⟨block, e, rest, last, max, hworker, hsup, hlast, hrow,
          h.record hsound hworker hsup hlast hrow extrinsics _⟩
  | advance _ _ => exact .inl (h.same rfl (UInt32.le_refl _))
  | keep _ => exact .inl (h.same rfl (UInt32.le_refl _))

theorem Moved.extends (hmoved : Moved chain s t) : Extends s t := by
  cases hmoved with
  | record => exact fun p ⟨row, hrow, hp⟩ => ⟨row, mem_recordChainEvent hrow, hp⟩
  | _ => exact fun p hp => hp

theorem Moved.finalized_le (hmoved : Moved chain s t) : s.finalized ≤ t.finalized := by
  cases hmoved with
  | finalize hnext => exact le_succ hnext
  | _ => exact UInt32.le_refl _

theorem Ordered.extends (h : Ordered chain start s log) (hext : Extends s t) :
    Ordered chain start t log where
  ordered := h.ordered
  noGap p hp := (h.noGap p hp).extends hext

/-- While the worker is at an event, the earlier ones have their rows. -/
theorem hasRow_of_earlier {block b : UInt32} {e f : ChainEvent} {rest : List ChainEvent}
    {last max : Cursor} (hsound : Sound chain start s) (hinv : Replay.Invariant chain start s)
    (hworker : s.worker = .reading block (e :: rest) last max) (hf : f ∈ chain.events b)
    (hsup : isSupported f.pallet f.variant = true) (hstart : ¬ Cursor.AtMost (position b f) start)
    (hearlier : Earlier (b, f) (block, e)) : HasRow s (position b f) := by
  have hsession := hsound.session
  have hdue := hinv.session
  rw [hworker] at hsession hdue
  obtain ⟨-, -, hrest⟩ := hsession
  obtain ⟨hgap, hbefore, hblock, -⟩ := hdue
  by_cases hlast : Cursor.AtMost (position b f) last
  · exact hgap b f hf hsup hstart hlast
  · rcases earlier_iff.mp hearlier with hlt | ⟨heq, hindex⟩
    · exact hasRow_of_not_due (hbefore b (UInt32.lt_iff_toNat_lt.mpr hlt) f hf) hsup hlast
    · obtain rfl : b = block := UInt32.toNat_inj.mp heq
      rcases hblock f hf with hleft | hpassed
      · -- what is left of the block does not come before the event
        rcases List.mem_cons.mp hleft with rfl | hlater
        · exact absurd hindex (Nat.lt_irrefl _)
        · have hsorted := (chain.ordered b).sublist hrest.sublist
          have hlt := UInt32.lt_iff_toNat_lt.mp ((List.pairwise_cons.mp hsorted).1 f hlater)
          exact absurd hindex (Nat.lt_asymm hlt)
      · exact hasRow_of_not_due hpassed hsup hlast

/-- What is recorded is later than the log, since an earlier event would not have been due. -/
theorem Ordered.record {block : UInt32} {e : ChainEvent} {rest : List ChainEvent}
    {last max : Cursor} (hsound : Sound chain start s) (hinv : Replay.Invariant chain start s)
    (h : Ordered chain start s log) (hworker : s.worker = .reading block (e :: rest) last max)
    (hsup : isSupported e.pallet e.variant = true) (hlast : ¬ Cursor.AtMost (position block e) last)
    (hnone : ¬ HasRow s (position block e)) (hext : Extends s t)
    (hrow : HasRow t (position block e)) : Ordered chain start t (log ++ [(block, e)]) := by
  have hsession := hsound.session
  rw [hworker] at hsession
  obtain ⟨hcursor, -, hrest⟩ := hsession
  have he : e ∈ chain.events block := hrest.subset List.mem_cons_self
  have hstart : ¬ Cursor.AtMost (position block e) start :=
    fun hle => hlast (hle.trans (hcursor ▸ hsound.cursor))
  refine ⟨List.pairwise_append.mpr ⟨h.ordered, List.pairwise_singleton _ _, fun p hp q hq => ?_⟩,
    fun p hp => ?_⟩
  · obtain rfl := List.mem_singleton.mp hq
    exact fun hle => hnone (h.noGap p hp block e he hsup hstart hle)
  · rcases List.mem_append.mp hp with hp | hp
    · exact (h.noGap p hp).extends hext
    · obtain rfl := List.mem_singleton.mp hp
      intro b f hf hsup' hstart' hle
      by_cases hsame : Cursor.AtMost (position block e) (position b f)
      · -- the event itself
        have hboth : position b f = position block e := by
          have hle := (atMost_iff (p := (b, f)) (q := (block, e))).mp hle
          have hsame := (atMost_iff (p := (block, e)) (q := (b, f))).mp hsame
          dsimp only at hle hsame
          have hblock : b = block := UInt32.toNat_inj.mp (by omega)
          have hindex : f.index = e.index := UInt32.toNat_inj.mp (by omega)
          rw [position, position, hblock, hindex]
        rw [hboth]
        exact hrow
      · exact hext _ (hasRow_of_earlier hsound hinv hworker hf hsup' hstart' hsame)

/-- In the order of the chain and without a gap, the log is a prefix of the journal. -/
theorem Ordered.isPrefix (h : Ordered chain start s log) (hlog : Logged chain start rows s log) :
    log <+: journal chain start rows s.finalized := by
  refine isPrefix_of_closed Earlier.asymm h.ordered journal_ordered hlog.mem ?_
  intro y hy x hx hyx
  obtain ⟨-, he, hsup, hstart, -⟩ := mem_journal.mp hy
  exact hlog.mem_of_hasRow hy (h.noGap x hx y.1 y.2 he hsup hstart (Cursor.le_total hyx))

end Log

section Runs

variable {chain : Chain} {finalized : UInt32} {rows : List ChainEventRow}
variable {cursor : Option (Int64 × Int32)} {tr : List (State × Label)} {s : State}

theorem sound_initial : Sound chain (lastCursor cursor) (initial finalized rows cursor) where
  cursor := Cursor.le_refl _
  session := trivial

/-- A worker at the end of block 1, when two more blocks are finalized. -/
theorem behind_run : ∃ tr s, Transition.Run (step threeTasks) (initial 1 [] none) tr s ∧
    Transition.EachStep (fun s l => ¬ Loses threeTasks s l) tr ∧ s.finalized = 3 ∧
      s.worker = .reading 1 [] (0, 0) (1, 0) := by
  have hrun : Transition.Run (step threeTasks) (initial 1 [] none) _ _ :=
    (((((Transition.Run.nil.snoc (i := .start) rfl).snoc (i := .subscribe true) rfl).snoc
      (i := .finalize) rfl).snoc (i := .deliver true) rfl).snoc
      (i := .event true true true) rfl).snoc (i := .finalize) rfl
  refine ⟨_, _, hrun, ?_, rfl, rfl⟩
  simp only [Transition.eachStep_cons]
  refine ⟨id, ?_, ?_, id, threeTasks_first rfl, id, Transition.eachStep_nil _⟩
  · exact fun hlost => Bool.noConfusion hlost.1
  · exact fun hlost => Bool.noConfusion hlost.1

/-- **The rows that the worker adds are events of the finalized chain.** Whatever fails, each of
them is the row of a supported finalized event later than the first cursor, and no event has two. -/
theorem journal_faithful
    (hrun : Transition.Run (step chain) (initial finalized rows cursor) tr s) :
    ∃ log new, s.rows = rows ++ new ∧ List.Forall₂ IsRow log new ∧ log.Nodup ∧
      ∀ p ∈ log, p ∈ journal chain (lastCursor cursor) rows s.finalized := by
  obtain ⟨-, log, hlog⟩ : Sound chain (lastCursor cursor) s ∧
      ∃ log, Logged chain (lastCursor cursor) rows s log := by
    refine hrun.invariant (P := fun s => Sound chain (lastCursor cursor) s ∧
      ∃ log, Logged chain (lastCursor cursor) rows s log) ?_ ?_
    · exact ⟨sound_initial, [], Logged.initial finalized cursor⟩
    · rintro s l t ⟨hsound, log, hlog⟩ hstep
      have hmoved := moved hstep
      refine ⟨hsound.step hmoved, ?_⟩
      rcases hlog.step hsound hmoved with hsame | ⟨block, e, _, _, _, _, _, _, _, hmore⟩
      · exact ⟨log, hsame⟩
      · exact ⟨log ++ [(block, e)], hmore⟩
  obtain ⟨new, hrows, hall⟩ := hlog.rows
  exact ⟨log, new, hrows, hall, hlog.nodup, hlog.mem⟩

/-- Its rows, whatever it has lost. -/
theorem behind_faithful : ∃ (s : State) (log : List Entry) (new : List ChainEventRow),
    s.finalized = 3 ∧ s.rows = new ∧ List.Forall₂ IsRow log new ∧ log.Nodup ∧
      ∀ p ∈ log, p ∈ journal threeTasks (0, 0) [] 3 := by
  obtain ⟨tr, s, hrun, -, hfinalized, -⟩ := behind_run
  obtain ⟨log, new, hrows, hall, hnodup, hmem⟩ := journal_faithful hrun
  rw [hfinalized] at hmem
  exact ⟨s, log, new, hfinalized, hrows, hall, hnodup, hmem⟩

/-- In a run without a loss the log is ordered. -/
theorem ordered_run (hrun : Transition.Run (step chain) (initial finalized rows cursor) tr s)
    (hkeep : Transition.EachStep (fun s l => ¬ Loses chain s l) tr) :
    Replay.Invariant chain (lastCursor cursor) s ∧
      ∃ log, Logged chain (lastCursor cursor) rows s log ∧ Ordered chain (lastCursor cursor) s log := by
  have hall : Transition.Always (fun s => Sound chain (lastCursor cursor) s ∧
      Replay.Invariant chain (lastCursor cursor) s ∧
      ∃ log, Logged chain (lastCursor cursor) rows s log ∧
        Ordered chain (lastCursor cursor) s log) tr s := by
    refine Transition.Run.always_of ?_ ?_ hrun hkeep
    · exact ⟨sound_initial, Invariant.initial chain finalized rows cursor, [],
        Logged.initial finalized cursor, Ordered.initial _⟩
    rintro s l t ⟨hsound, hinv, log, hlog, hord⟩ hl hstep
    have hmoved := moved hstep
    refine ⟨hsound.step hmoved, hinv.step s l t hl hstep, ?_⟩
    rcases hlog.step hsound hmoved with
      hsame | ⟨block, e, rest, last, max, hworker, hsup, hlast, hnone, hmore⟩
    · exact ⟨log, hsame, hord.extends hmoved.extends⟩
    · have hrow := hmore.hasRow (List.mem_append_right _ List.mem_cons_self)
      exact ⟨_, hmore, hord.record hsound hinv hworker hsup hlast hnone hmoved.extends hrow⟩
  exact hall.1.2

/-- **The rows are a prefix of the chain.** In a run in which no step passes over an event that is
due, the rows added so far are those of the first events that there are to record. -/
theorem journal_prefix
    (hrun : Transition.Run (step chain) (initial finalized rows cursor) tr s)
    (hkeep : Transition.EachStep (fun s l => ¬ Loses chain s l) tr) :
    ∃ log new, s.rows = rows ++ new ∧ List.Forall₂ IsRow log new ∧
      log <+: journal chain (lastCursor cursor) rows s.finalized := by
  obtain ⟨-, log, hlog, hord⟩ := ordered_run hrun hkeep
  obtain ⟨new, hrows, hall⟩ := hlog.rows
  exact ⟨log, new, hrows, hall, hord.isPrefix hlog⟩

/-- Its rows, of which two are missing. -/
theorem behind_prefix : ∃ (s : State) (log : List Entry) (new : List ChainEventRow),
    s.finalized = 3 ∧ s.rows = new ∧ List.Forall₂ IsRow log new ∧
      log <+: journal threeTasks (0, 0) [] 3 := by
  obtain ⟨tr, s, hrun, hkeep, hfinalized, -⟩ := behind_run
  obtain ⟨log, new, hrows, hall, hprefix⟩ := journal_prefix hrun hkeep
  rw [hfinalized] at hprefix
  exact ⟨s, log, new, hfinalized, hrows, hall, hprefix⟩

end Runs

/-! ## Catching up -/

/-- A step of the worker in which everything it calls succeeds. -/
def Succeeds : Label → Bool
  | .start | .subscribe true | .deliver true | .event true _ true | .endBlock true => true
  | _ => false

/-- The worker gets from `s` to `t` alone, by steps that succeed and lose nothing. -/
def Reaches (chain : Chain) (s t : State) : Prop :=
  ∃ tr, Transition.Run (step chain) s tr t ∧
    Transition.EachStep (fun s l => Succeeds l = true ∧ ¬ Loses chain s l) tr

section CatchUp

variable {chain : Chain} {s t u : State}

theorem Reaches.refl (chain : Chain) (s : State) : Reaches chain s s :=
  ⟨[], .nil, Transition.eachStep_nil _⟩

theorem Reaches.trans (hst : Reaches chain s t) (htu : Reaches chain t u) : Reaches chain s u := by
  obtain ⟨tr, hrun, hall⟩ := hst
  obtain ⟨tr', hrun', hall'⟩ := htu
  refine ⟨tr' ++ tr, hrun.trans hrun', fun p hp => ?_⟩
  rcases List.mem_append.mp hp with hp | hp
  · exact hall' p hp
  · exact hall p hp

/-- At the head of the chain nothing is left to record. -/
theorem Logged.complete {start : Cursor} {rows : List ChainEventRow} {log : List Entry}
    {last : Cursor} (hinv : Replay.Invariant chain start s) (hlog : Logged chain start rows s log)
    (hord : Ordered chain start s log) (hworker : s.worker = .listening (s.finalized + 1) last)
    (hroom : s.finalized + 1 ≠ 0) : log = journal chain start rows s.finalized := by
  have hdue := hinv.session
  rw [hworker] at hdue
  obtain ⟨hgap, hbefore⟩ := hdue
  have hall : ∀ p ∈ journal chain start rows s.finalized, p ∈ log := by
    intro p hp
    obtain ⟨hle, he, hsup, hstart, -⟩ := mem_journal.mp hp
    refine hlog.mem_of_hasRow hp ?_
    by_cases hlast : Cursor.AtMost (positionOf p) last
    · exact hgap p.1 p.2 he hsup hstart hlast
    · have hlt : p.1 < s.finalized + 1 := by
        rw [UInt32.lt_iff_toNat_lt, toNat_succ hroom]
        exact Nat.lt_succ_of_le (UInt32.le_iff_toNat_le.mp hle)
      exact hasRow_of_not_due (hbefore p.1 hlt p.2 he) hsup hlast
  have hback : journal chain start rows s.finalized <+: log :=
    isPrefix_of_closed Earlier.asymm journal_ordered hord.ordered hall
      fun y hy _ _ _ => hlog.mem y hy
  exact (hord.isPrefix hlog).eq_of_length_le hback.length_le

end CatchUp

end Ainur.Journal
