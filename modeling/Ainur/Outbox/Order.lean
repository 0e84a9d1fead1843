import Ainur.Lib.Queue
import Ainur.Outbox.Integrity

set_option autoImplicit false

/-! # The order of the outbox

No column numbers the rows of the outbox: `run_outbox` asks the table for the oldest pending row in
every iteration. With one worker, and rows that are enqueued at increasing times, the table is a
queue (`Ainur.Lib.Queue`), whatever the submissions return and whatever the other writers do between
two fetches.
-/

namespace Ainur.Outbox

open RowLock

/-! ## The table as a queue -/

/-- What the order is about in a row. -/
structure Entry where
  correlationId : String
  createdAt : Nat
  status : OutboxStatus
  retryCount : Nat
  lastError : Option String
  deriving DecidableEq, Repr

def Entry.pending (e : Entry) : Bool := e.status = .pending

def entry (row : OutboundExtrinsic) : Entry where
  correlationId := row.correlationId
  createdAt := row.createdAt
  status := row.status
  retryCount := row.retryCount
  lastError := row.lastError

/-- The committed rows, in the order in which they were enqueued. -/
def System.entries (s : System) : List Entry := s.table.map fun slot => entry slot.row

/-- The pending row that was enqueued first. -/
def System.next (s : System) : Option Entry := s.entries.find? Entry.pending

/-! ## Runs with their record -/

/-- The outbox, and what happened so far. -/
structure Watch where
  system : System
  /-- The rows that were handed to `submit_extrinsic`, latest first. -/
  submitted : List String
  /-- The row of the latest submission, as it was fetched. -/
  fetched : Option OutboundExtrinsic
  /-- That row, if its attempt has ended in a connection error and no row was fetched since. -/
  toRetry : Option OutboundExtrinsic

def Watch.init : Watch where
  system := System.init
  submitted := []
  fetched := none
  toRetry := none

/-- `submit_extrinsic` has returned a connection error. -/
def Worker.disconnected : Worker → Bool
  | .returned _ outcome =>
      match outcome.result with
      | .ok _ => false
      | .error err => isConnectionErr err
  | _ => false

/-- A step to `t` goes on record. -/
def Watch.record (s : Watch) (t : System) : Label → Watch
  | .take _ cand =>
      -- the fetch has returned a row, and its submission begins
      { system := t
        submitted := cand.2 :: s.submitted
        fetched := (s.system.table.find cand.2).map Slot.row
        toRetry := none }
  | .settle w _ =>
      -- on a connection error `run_outbox` rolls back and goes on with its loop
      { s with
        system := t
        toRetry := if (s.system.workers w).disconnected then s.fetched else s.toRetry }
  | _ => { s with system := t }

def Watch.step (pg : Jsonb) (s : Watch) (l : Label) : Option Watch :=
  (Outbox.step pg s.system l).map fun t => s.record t l

def Holder.isWorker : Holder → Bool
  | .worker _ => true
  | .statement _ => false

/-- No statement of another writer holds a row. -/
def System.Unlocked (s : System) : Prop :=
  ∀ slot ∈ s.table, (slot.lock.all fun held => held.1.isWorker) = true

instance (s : System) : Decidable s.Unlocked :=
  inferInstanceAs (Decidable (∀ slot ∈ s.table, _))

/-- The step is of the worker `w`, whose fetch query meets no lock of another writer, or it is of no
worker. A row is enqueued later than every row before it. -/
def OneWorker (w : Nat) (s : Watch) : Label → Prop
  | .enqueue _ _ _ _ now => ∀ e ∈ s.system.entries, e.createdAt < now
  | .fetch w' => w' = w ∧ s.system.Unlocked
  | .skip w' _ => w' = w ∧ s.system.Unlocked
  | .take w' _ => w' = w ∧ s.system.Unlocked
  | .noJob w' => w' = w ∧ s.system.Unlocked
  | .submit w' _ => w' = w
  | .settle w' _ => w' = w
  | .crash w' => w' = w
  | _ => True

instance (w : Nat) (s : Watch) : (l : Label) → Decidable (OneWorker w s l)
  | .enqueue _ _ _ _ now => inferInstanceAs (Decidable (∀ e ∈ s.system.entries, e.createdAt < now))
  | .fetch w' => inferInstanceAs (Decidable (w' = w ∧ s.system.Unlocked))
  | .skip w' _ => inferInstanceAs (Decidable (w' = w ∧ s.system.Unlocked))
  | .take w' _ => inferInstanceAs (Decidable (w' = w ∧ s.system.Unlocked))
  | .noJob w' => inferInstanceAs (Decidable (w' = w ∧ s.system.Unlocked))
  | .submit w' _ => inferInstanceAs (Decidable (w' = w))
  | .settle w' _ => inferInstanceAs (Decidable (w' = w))
  | .crash w' => inferInstanceAs (Decidable (w' = w))
  | .execute _ _ => .isTrue trivial
  | .change _ _ => .isTrue trivial
  | .pass _ _ => .isTrue trivial
  | .finish _ => .isTrue trivial
  | .abort _ => .isTrue trivial

/-! ## What is kept -/

/-- The order is kept: the row of an open attempt is the pending row that was enqueued first, rows
are submitted for the first time in the order in which they were enqueued, and a row whose attempt
has ended in a connection error is the first pending row still, with its status, its count of
retries and its last error as they were fetched. -/
structure InOrder (w : Nat) (s : Watch) : Prop where
  oldest : ∀ job, (s.system.workers w).job = some job →
    ∃ e, s.system.next = some e ∧ e.correlationId = job.correlationId
  first : s.submitted.dedup.reverse <+: s.system.entries.map Entry.correlationId
  unchanged : ∀ row, s.toRetry = some row → s.system.next = some (entry row)

/-- The fetch query returns the row whose attempt ended in a connection error, if there is one. -/
def Retried (s : Watch) (l : Label) : Prop :=
  ∀ row, s.toRetry = some row → ∀ w,
    (∀ cand, l = .take w cand → cand.2 = row.correlationId) ∧ l ≠ .noJob w

/-! ## Entries -/

section Entries

variable {pg : Jsonb} {s : System}

theorem keys_entries (h : Invariant pg s) :
    s.entries.map Entry.correlationId = s.table.keys := by
  rw [System.entries, List.map_map]
  exact List.map_congr_left fun slot hmem => (h.slots slot hmem).key

/-- A row that is found is an entry. -/
theorem mem_entries (h : Invariant pg s) {key : String}
    {slot : Slot String OutboundExtrinsic Holder} (hfind : s.table.find key = some slot) :
    entry slot.row ∈ s.entries ∧ (entry slot.row).correlationId = key := by
  obtain ⟨hmem, hkey⟩ := Table.find_eq_some hfind
  exact ⟨List.mem_map.mpr ⟨slot, hmem, rfl⟩, (h.slots slot hmem).key.trans hkey⟩

/-- The snapshot of the fetch query. -/
theorem mem_pendingRows_iff (h : Invariant pg s) {cand : Nat × String} :
    cand ∈ s.pendingRows ↔
      ∃ e ∈ s.entries, e.pending = true ∧ cand = (e.createdAt, e.correlationId) := by
  simp only [System.pendingRows, System.entries, List.mem_map, List.mem_filter]
  constructor
  · rintro ⟨slot, ⟨hmem, hpending⟩, rfl⟩
    exact ⟨entry slot.row, ⟨slot, hmem, rfl⟩, hpending,
      Prod.ext rfl (h.slots slot hmem).key.symm⟩
  · rintro ⟨e, ⟨slot, hmem, rfl⟩, hpending, rfl⟩
    exact ⟨slot, ⟨hmem, hpending⟩, Prod.ext rfl (h.slots slot hmem).key.symm⟩

/-- A lock, and what its holder writes, does not show. -/
theorem entries_modify_write (T : Table String OutboundExtrinsic Holder) (key : String)
    (holder : Holder) (f : OutboundExtrinsic → OutboundExtrinsic) :
    (T.modify key (Slot.write holder f)).map (fun slot => entry slot.row) =
      T.map fun slot => entry slot.row := by
  rw [Table.modify, List.map_map]
  refine List.map_congr_left fun slot _ => ?_
  by_cases hk : slot.key = key <;> simp [hk]

theorem entries_rollback (T : Table String OutboundExtrinsic Holder) (holder : Holder) :
    (T.rollback holder).map (fun slot => entry slot.row) = T.map fun slot => entry slot.row := by
  rw [Table.rollback, List.map_map]
  exact List.map_congr_left fun slot _ => congrArg entry (Slot.rollback_row holder slot)

/-- The other writers change neither the order nor the state of a row. -/
theorem entry_set {u : Update} {row : OutboundExtrinsic} (hhashed : row.Hashed)
    (happ : u.applies pg row = some true) : entry (u.set pg row) = entry row := by
  have hsame := Update.same hhashed happ
  have hrest : (u.set pg row).createdAt = row.createdAt ∧
      (u.set pg row).lastError = row.lastError := by
    cases u <;> exact ⟨rfl, rfl⟩
  simp only [entry, Entry.mk.injEq]
  exact ⟨hsame.correlationId, hrest.1, hsame.status, hsame.retryCount, hrest.2⟩

theorem entries_commit_statement (h : Invariant pg s) (q : Nat) :
    (s.table.commit (.statement q)).map (fun slot => entry slot.row) = s.entries := by
  rw [Table.commit, List.map_map]
  refine List.map_congr_left fun slot hmem => ?_
  by_cases hlock : ∃ v, slot.lock = some (.statement q, v)
  · obtain ⟨v, hlock⟩ := hlock
    obtain ⟨st, _, happ, rfl⟩ := (h.slots slot hmem).ofStatement q v hlock
    rw [Function.comp_apply, Slot.commit_of_held hlock]
    exact entry_set (h.slots slot hmem).history.hashed happ
  · rw [Function.comp_apply, Slot.commit_of_not_held (not_exists.mp hlock)]

section Conclude

variable {w : Nat} {job : Job} {outcome : Submission}

/-- An attempt that is rolled back leaves the entries as they were. -/
theorem entries_conclude_none : (s.conclude w job outcome none).entries = s.entries :=
  entries_rollback s.table (.worker w)

/-- The end of an attempt does not reorder the rows. -/
theorem entries_conclude (h : Invariant pg s) (hw : s.workers w = .returned job outcome)
    {write : Option (OutboundExtrinsic → OutboundExtrinsic)}
    (hwrite : ∀ f, write = some f → ∃ now, settlement now job outcome = some f) :
    (s.conclude w job outcome write).entries.map (fun e => (e.correlationId, e.createdAt)) =
      s.entries.map fun e => (e.correlationId, e.createdAt) := by
  rw [System.entries, System.entries, h.conclude_table hw, List.map_map, List.map_map,
    List.map_map]
  refine List.map_congr_left fun slot _ => ?_
  simp only [Function.comp_apply, entry]
  by_cases hk : slot.key = job.correlationId
  · rw [if_pos hk]
    cases write with
    | none => rfl
    | some f =>
        obtain ⟨now, hf⟩ := hwrite f rfl
        exact Prod.ext (settlement_correlationId hf slot.row) (settlement_createdAt hf slot.row)
  · rw [if_neg hk]

end Conclude

end Entries

/-! ## The invariant -/

/-- The candidates of a scan: pending rows, and every pending row that is not among them was
enqueued after all of them. -/
structure Snapshot (entries : List Entry) (cands : List (Nat × String)) : Prop where
  stored : ∀ c ∈ cands, ∃ e ∈ entries, e.pending = true ∧ c = (e.createdAt, e.correlationId)
  covers : ∀ e ∈ entries, e.pending = true →
    (e.createdAt, e.correlationId) ∈ cands ∨ ∀ c ∈ cands, c.1 < e.createdAt

structure OrderInv (pg : Jsonb) (w : Nat) (s : Watch) : Prop where
  base : Invariant pg s.system
  alone : ∀ w', w' ≠ w → (s.system.workers w').job = none
  sorted : s.system.entries.Pairwise fun a b => a.createdAt < b.createdAt
  scanned : ∀ cands, s.system.workers w = .scanning cands → Snapshot s.system.entries cands
  held : ∀ job, (s.system.workers w).job = some job →
    s.toRetry = none ∧ job.correlationId ∈ s.submitted ∧
      ∃ row, s.fetched = some row ∧ row.correlationId = job.correlationId ∧
        s.system.next = some (entry row)
  attempted : ∀ a ∈ s.system.attempts, a.job.correlationId ∈ s.submitted
  first : s.submitted.dedup.reverse <+: s.system.entries.map Entry.correlationId
  unchanged : ∀ row, s.toRetry = some row → s.system.next = some (entry row)
  awaited : ∀ row cands, s.toRetry = some row → s.system.workers w = .scanning cands →
    (row.createdAt, row.correlationId) ∈ cands

section Invariant

variable {pg : Jsonb} {w : Nat} {s : Watch}

theorem OrderInv.init : OrderInv pg w Watch.init where
  base := Invariant.init
  alone w' hw' := rfl
  sorted := List.Pairwise.nil
  scanned cands h := by cases h
  held job h := by cases h
  attempted a ha := by cases ha
  first := List.prefix_rfl
  unchanged row h := by cases h
  awaited row cands h := by cases h

theorem OrderInv.inOrder (h : OrderInv pg w s) : InOrder w s where
  oldest job hjob := by
    obtain ⟨-, -, row, -, hkey, hnext⟩ := h.held job hjob
    exact ⟨entry row, hnext, hkey⟩
  first := h.first
  unchanged := h.unchanged

theorem OrderInv.nodup (h : OrderInv pg w s) :
    (s.system.entries.map Entry.correlationId).Nodup := by
  rw [keys_entries h.base]
  exact h.base.keys

/-- A key names one entry. -/
theorem OrderInv.eq_of_key (h : OrderInv pg w s) {a b : Entry} (ha : a ∈ s.system.entries)
    (hb : b ∈ s.system.entries) (hkey : a.correlationId = b.correlationId) : a = b :=
  List.inj_on_of_nodup_map h.nodup ha hb hkey

/-- A row that was never submitted is pending. -/
theorem OrderInv.pending_of_new (h : OrderInv pg w s) {e : Entry} (he : e ∈ s.system.entries)
    (hnew : e.correlationId ∉ s.submitted) : e.pending = true := by
  obtain ⟨slot, hmem, rfl⟩ := List.mem_map.mp he
  have hkey : slot.row.correlationId = slot.key := (h.base.slots slot hmem).key
  have hnone : committedOf s.system.attempts slot.key = [] := by
    refine List.filter_eq_nil_iff.mpr fun a ha => ?_
    have hne : a.job.correlationId ≠ slot.key := by
      intro heq
      have hsubmitted := h.attempted a ha
      rw [heq, ← hkey] at hsubmitted
      exact hnew hsubmitted
    simp [hne]
  have hhistory := (h.base.slots slot hmem).history
  rw [hnone] at hhistory
  cases hhistory with
  | untried hs _ _ => exact decide_eq_true hs

/-! ### The fetch query -/

/-- The oldest candidate is the pending row that was enqueued first. -/
theorem OrderInv.next_of_oldest (h : OrderInv pg w s) {cands : List (Nat × String)}
    (hw : s.system.workers w = .scanning cands) {cand : Nat × String}
    (holdest : isOldest cand cands = true) :
    ∃ e, s.system.next = some e ∧ cand = (e.createdAt, e.correlationId) := by
  have hsnapshot := h.scanned cands hw
  simp only [isOldest, Bool.and_eq_true, List.contains_iff_mem, List.all_eq_true,
    decide_eq_true_eq] at holdest
  obtain ⟨hcand, hleast⟩ := holdest
  obtain ⟨e, he, hpending, rfl⟩ := hsnapshot.stored cand hcand
  refine ⟨e, Queue.find_of_oldest h.sorted he hpending fun b hb hbpending => ?_, rfl⟩
  rcases hsnapshot.covers b hb hbpending with hmem | hlate
  · exact hleast _ hmem
  · exact Nat.le_of_lt (hlate _ hcand)

theorem next_mem {s : System} {e : Entry} (h : s.next = some e) :
    e ∈ s.entries ∧ e.pending = true :=
  ⟨List.mem_of_find?_eq_some h, List.find?_some h⟩

/-- No candidate is skipped. -/
theorem OrderInv.not_skip (h : OrderInv pg w s) {cands : List (Nat × String)}
    (hw : s.system.workers w = .scanning cands) (hunlocked : s.system.Unlocked)
    {cand : Nat × String} (holdest : isOldest cand cands = true) :
    ¬ ((s.system.table.find cand.2).all fun slot => !isFree slot) = true := by
  obtain ⟨e, hnext, rfl⟩ := h.next_of_oldest hw holdest
  obtain ⟨he, hpending⟩ := next_mem hnext
  obtain ⟨slot, hmem, rfl⟩ := List.mem_map.mp he
  have hinv := h.base.slots slot hmem
  -- the only worker scans, so nobody holds the row
  have hfree : slot.lock = none := by
    cases hlock : slot.lock with
    | none => rfl
    | some held =>
        obtain ⟨holder, v⟩ := held
        cases holder with
        | statement q =>
            -- no other writer holds a row at a fetch
            have hworker := hunlocked slot hmem
            rw [hlock] at hworker
            cases hworker
        | worker w' =>
            have hjob := (hinv.ofWorker w' v hlock).2.2
            have hidle : (s.system.workers w').job = none := by
              by_cases hw' : w' = w
              · rw [hw', hw]
                rfl
              · exact h.alone w' hw'
            rw [hidle] at hjob
            cases hjob
  obtain ⟨found, hfound⟩ : ∃ found, s.system.table.find (entry slot.row).correlationId =
      some found := by
    rw [← Option.isSome_iff_exists, Table.find, List.find?_isSome]
    exact ⟨slot, hmem, decide_eq_true hinv.key.symm⟩
  obtain ⟨hfoundMem, hfoundKey⟩ := Table.find_eq_some hfound
  obtain rfl : found = slot :=
    Table.eq_of_key h.base.keys hfoundMem hmem (hfoundKey.trans hinv.key)
  have hpending' : found.row.status = .pending := of_decide_eq_true hpending
  simp [hfound, isFree, hfree, hpending']

/-! ### Steps -/

/-- A step that leaves the entries and the records alone. What is left to show is about the
workers. -/
theorem OrderInv.of_entries (h : OrderInv pg w s) {t : System} (hbase : Invariant pg t)
    (hentries : t.entries = s.system.entries) (hattempts : t.attempts = s.system.attempts)
    (halone : ∀ w', w' ≠ w → (t.workers w').job = none)
    (hheld : ∀ job, (t.workers w).job = some job → (s.system.workers w).job = some job)
    (hscan : ∀ cands, t.workers w = .scanning cands → Snapshot s.system.entries cands ∧
      ∀ row, s.toRetry = some row → (row.createdAt, row.correlationId) ∈ cands) :
    OrderInv pg w { s with system := t } := by
  have hnext : t.next = s.system.next := by rw [System.next, hentries, System.next]
  constructor
  · exact hbase
  · exact halone
  · rw [hentries]
    exact h.sorted
  · intro cands hcands
    rw [hentries]
    exact (hscan cands hcands).1
  · intro job hjob
    rw [hnext]
    exact h.held job (hheld job hjob)
  · rw [hattempts]
    exact h.attempted
  · rw [hentries]
    exact h.first
  · rw [hnext]
    exact h.unchanged
  · intro row cands hretry hcands
    exact (hscan cands hcands).2 row hretry

/-- The other writers. -/
theorem OrderInv.frame (h : OrderInv pg w s) {t : System} (hbase : Invariant pg t)
    (hworkers : t.workers = s.system.workers) (hentries : t.entries = s.system.entries)
    (hattempts : t.attempts = s.system.attempts) : OrderInv pg w { s with system := t } := by
  refine h.of_entries hbase hentries hattempts ?_ ?_ ?_
  · rw [hworkers]
    exact h.alone
  · rw [hworkers]
    exact fun job hjob => hjob
  · intro cands hcands
    rw [hworkers] at hcands
    exact ⟨h.scanned cands hcands, fun row hretry => h.awaited row cands hretry hcands⟩

theorem OrderInv.enqueue (h : OrderInv pg w s) {row : OutboundExtrinsic} {t : System}
    (hbase : Invariant pg t) (hworkers : t.workers = s.system.workers)
    (hentries : t.entries = s.system.entries ++ [entry row])
    (hattempts : t.attempts = s.system.attempts)
    (hlate : ∀ e ∈ s.system.entries, e.createdAt < row.createdAt) :
    OrderInv pg w { s with system := t } := by
  have hnext : ∀ e, s.system.next = some e → t.next = some e := by
    intro e he
    rw [System.next, hentries]
    exact Queue.find_append he _
  constructor
  · exact hbase
  · rw [hworkers]
    exact h.alone
  · rw [hentries]
    refine List.pairwise_append.mpr ⟨h.sorted, List.pairwise_singleton _ _, ?_⟩
    intro e he e' he'
    obtain rfl := List.mem_singleton.mp he'
    exact hlate e he
  · intro cands hcands
    rw [hworkers] at hcands
    obtain ⟨hstored, hcovers⟩ := h.scanned cands hcands
    rw [hentries]
    constructor
    · intro c hc
      obtain ⟨e, he, hpending, hkey⟩ := hstored c hc
      exact ⟨e, List.mem_append_left _ he, hpending, hkey⟩
    · intro e he hpending
      rcases List.mem_append.mp he with he | he
      · exact hcovers e he hpending
      · -- a row that is enqueued during the scan is later than every candidate
        obtain rfl := List.mem_singleton.mp he
        refine Or.inr fun c hc => ?_
        obtain ⟨e', he', -, rfl⟩ := hstored c hc
        exact hlate e' he'
  · intro job hjob
    rw [hworkers] at hjob
    obtain ⟨hretry, hsubmitted, taken, hfetched, hkey, hfirst⟩ := h.held job hjob
    exact ⟨hretry, hsubmitted, taken, hfetched, hkey, hnext _ hfirst⟩
  · rw [hattempts]
    exact h.attempted
  · rw [hentries, List.map_append]
    exact h.first.trans (List.prefix_append _ _)
  · intro taken hretry
    exact hnext _ (h.unchanged taken hretry)
  · rw [hworkers]
    exact h.awaited

/-- The worker goes from one state without a job to another. -/
theorem OrderInv.setWorker (h : OrderInv pg w s) {state : Worker}
    (hbefore : (s.system.workers w).job = none) (hafter : state.job = none)
    (hscan : ∀ cands, state = .scanning cands → Snapshot s.system.entries cands ∧
      ∀ row, s.toRetry = some row → (row.createdAt, row.correlationId) ∈ cands) :
    OrderInv pg w { s with system := s.system.setWorker w state } := by
  have hself : (s.system.setWorker w state).workers w = state := by simp [System.setWorker]
  refine h.of_entries (h.base.setWorker_noJob hbefore hafter) rfl rfl ?_ ?_ ?_
  · intro w' hw'
    simpa [System.setWorker, hw'] using h.alone w' hw'
  · intro job hjob
    rw [hself, hafter] at hjob
    cases hjob
  · intro cands hcands
    exact hscan cands (hself.symm.trans hcands)

theorem OrderInv.fetch (h : OrderInv pg w s) (hw : s.system.workers w = .idle) :
    OrderInv pg w { s with system := s.system.setWorker w (.scanning s.system.pendingRows) } := by
  refine h.setWorker (by rw [hw]; rfl) rfl fun cands hcands => ?_
  obtain rfl : s.system.pendingRows = cands := Worker.scanning.inj hcands
  refine ⟨⟨fun c hc => (mem_pendingRows_iff h.base).mp hc, fun e he hpending => ?_⟩, ?_⟩
  · exact Or.inl ((mem_pendingRows_iff h.base).mpr ⟨e, he, hpending, rfl⟩)
  · intro row hretry
    obtain ⟨hmem, hpending⟩ := next_mem (h.unchanged row hretry)
    exact (mem_pendingRows_iff h.base).mpr ⟨entry row, hmem, hpending, rfl⟩

/-- The row that is fetched is the pending row that was enqueued first. -/
theorem OrderInv.take (h : OrderInv pg w s) {cands : List (Nat × String)} {cand : Nat × String}
    {slot : Slot String OutboundExtrinsic Holder} (hw : s.system.workers w = .scanning cands)
    (hfind : s.system.table.find cand.2 = some slot) (holdest : isOldest cand cands = true)
    {t : System} (hbase : Invariant pg t)
    (hworkers : t.workers = (s.system.setWorker w (.submitting slot.row.job)).workers)
    (hentries : t.entries = s.system.entries) (hattempts : t.attempts = s.system.attempts) :
    OrderInv pg w ⟨t, cand.2 :: s.submitted, some slot.row, none⟩ := by
  obtain ⟨e, hnext, rfl⟩ := h.next_of_oldest hw holdest
  obtain ⟨he, -⟩ := next_mem hnext
  obtain ⟨hslot, hkey⟩ := mem_entries h.base hfind
  obtain rfl : entry slot.row = e := h.eq_of_key hslot he hkey
  have hself : t.workers w = .submitting slot.row.job := by simp [hworkers, System.setWorker]
  constructor
  · exact hbase
  · intro w' hw'
    simpa [hworkers, System.setWorker, hw'] using h.alone w' hw'
  · rw [hentries]
    exact h.sorted
  · intro cands' hcands'
    rw [hself] at hcands'
    cases hcands'
  · intro job hjob
    rw [hself] at hjob
    obtain rfl : slot.row.job = job := Option.some.inj hjob
    refine ⟨rfl, List.mem_cons_self, slot.row, rfl, rfl, ?_⟩
    rw [System.next, hentries]
    exact hnext
  · rw [hattempts]
    exact fun a ha => List.mem_cons_of_mem _ (h.attempted a ha)
  · -- first come, first served, since a row that was never submitted is pending
    rw [hentries]
    exact Queue.served_prefix h.nodup h.first (fun b hb => h.pending_of_new hb) hnext
  · intro row hretry
    cases hretry
  · intro row cands' hretry
    cases hretry

/-- The call has returned. -/
theorem OrderInv.submit (h : OrderInv pg w s) {job : Job} {outcome : Submission}
    (hw : s.system.workers w = .submitting job) {t : System} (hbase : Invariant pg t)
    (hworkers : t.workers = (s.system.setWorker w (.returned job outcome)).workers)
    (htable : t.table = s.system.table) (hattempts : t.attempts = s.system.attempts) :
    OrderInv pg w { s with system := t } := by
  have hself : t.workers w = .returned job outcome := by simp [hworkers, System.setWorker]
  have hentries : t.entries = s.system.entries := by rw [System.entries, htable, System.entries]
  refine h.of_entries hbase hentries hattempts ?_ ?_ ?_
  · intro w' hw'
    simpa [hworkers, System.setWorker, hw'] using h.alone w' hw'
  · intro job' hjob'
    rw [hself] at hjob'
    rw [hw]
    exact hjob'
  · intro cands hcands
    rw [hself] at hcands
    cases hcands

/-- The attempt ends. A row that is to be tried again was not written. -/
theorem OrderInv.conclude (h : OrderInv pg w s) {job : Job} {outcome : Submission}
    (hw : s.system.workers w = .returned job outcome)
    {write : Option (OutboundExtrinsic → OutboundExtrinsic)}
    (hwrite : ∀ f, write = some f → ∃ now, settlement now job outcome = some f)
    {toRetry : Option OutboundExtrinsic}
    (hretry : toRetry = none ∨ write = none ∧ toRetry = s.fetched) :
    OrderInv pg w { s with
      system := s.system.conclude w job outcome write, toRetry := toRetry } := by
  have hjob : (s.system.workers w).job = some job := by rw [hw]; rfl
  obtain ⟨-, hsubmitted, row, hfetched, -, hnext⟩ := h.held job hjob
  have hself : (s.system.conclude w job outcome write).workers w = .idle := by
    simp [System.conclude]
  have horder := entries_conclude h.base hw hwrite
  have hkeys : (s.system.conclude w job outcome write).entries.map Entry.correlationId =
      s.system.entries.map Entry.correlationId := by
    have hfst := congrArg (List.map Prod.fst) horder
    rw [List.map_map, List.map_map] at hfst
    exact hfst
  have htimes : (s.system.conclude w job outcome write).entries.map Entry.createdAt =
      s.system.entries.map Entry.createdAt := by
    have hsnd := congrArg (List.map Prod.snd) horder
    rw [List.map_map, List.map_map] at hsnd
    exact hsnd
  constructor
  · exact h.base.conclude hw hwrite
  · intro w' hw'
    simpa [System.conclude, hw'] using h.alone w' hw'
  · -- the settlement writes neither keys nor times
    have hsorted := List.pairwise_map.mpr h.sorted
    rw [← htimes] at hsorted
    exact List.pairwise_map.mp hsorted
  · intro cands hcands
    rw [hself] at hcands
    cases hcands
  · intro job' hjob'
    rw [hself] at hjob'
    cases hjob'
  · intro a ha
    rcases List.mem_cons.mp ha with rfl | ha
    · exact hsubmitted
    · exact h.attempted a ha
  · rw [hkeys]
    exact h.first
  · intro row' hrow'
    rcases hretry with hnone | ⟨rfl, hsome⟩
    · rw [hnone] at hrow'
      cases hrow'
    · -- rolled back: the row is the one that was fetched
      obtain rfl : row = row' := Option.some.inj (hfetched.symm.trans (hsome.symm.trans hrow'))
      rw [System.next, entries_conclude_none]
      exact hnext
  · intro row' cands _ hcands
    rw [hself] at hcands
    cases hcands

/-- A connection error is not settled. -/
theorem settlement_of_disconnected {now : Nat} {job : Job} {outcome : Submission}
    (h : (Worker.returned job outcome).disconnected = true) : settlement now job outcome = none := by
  unfold settlement
  cases hresult : outcome.result with
  | ok hash => simp [Worker.disconnected, hresult] at h
  | error err =>
      have hconnection : isConnectionErr err = true := by
        simpa [Worker.disconnected, hresult] using h
      simp [hconnection]

/-- **What every step of one worker keeps.** -/
theorem OrderInv.step (h : OrderInv pg w s) {l : Label} {t : Watch} (hone : OneWorker w s l)
    (hstep : s.step pg l = some t) : OrderInv pg w t := by
  obtain ⟨u, hu, rfl⟩ := Option.map_eq_some_iff.mp hstep
  have hbase : Invariant pg u := h.base.step _ _ _ hu
  cases l with
  | enqueue correlationId pallet call payload now =>
      obtain ⟨-, rfl⟩ := step_enqueue.mp hu
      have hentries : System.entries { s.system with table := s.system.table ++ [⟨correlationId,
          OutboundExtrinsic.insert correlationId pallet call payload .pending now, none⟩] } =
          s.system.entries ++
            [entry (OutboundExtrinsic.insert correlationId pallet call payload .pending now)] := by
        rw [System.entries, List.map_append]
        rfl
      exact h.enqueue hbase rfl hentries rfl hone
  | fetch w' =>
      obtain ⟨rfl, -⟩ := hone
      obtain ⟨hw, rfl⟩ := step_fetch.mp hu
      exact h.fetch hw
  | skip w' cand =>
      obtain ⟨rfl, hunlocked⟩ := hone
      -- without other locks the oldest row is free
      obtain ⟨cands, hw, ⟨holdest, hskip⟩, -⟩ := step_skip.mp hu
      exact absurd hskip (h.not_skip hw hunlocked holdest)
  | take w' cand =>
      obtain ⟨rfl, -⟩ := hone
      obtain ⟨cands, slot, ⟨hw, hfind⟩, ⟨holdest, -⟩, rfl⟩ := step_take.mp hu
      rw [Watch.record, hfind]
      exact h.take hw hfind holdest hbase rfl (entries_modify_write _ _ _ _) rfl
  | noJob w' =>
      obtain ⟨rfl, -⟩ := hone
      obtain ⟨hw, rfl⟩ := step_noJob.mp hu
      exact h.setWorker (by rw [hw]; rfl) rfl fun cands hcands => by cases hcands
  | submit w' outcome =>
      obtain rfl : w' = w := hone
      obtain ⟨job, hw, rfl⟩ := step_submit.mp hu
      exact h.submit hw hbase rfl rfl rfl
  | settle w' now =>
      obtain rfl : w' = w := hone
      obtain ⟨job, outcome, hw, rfl⟩ := step_settle.mp hu
      refine h.conclude hw (fun f hf => ⟨now, hf⟩) ?_
      rw [hw]
      -- a row is tried again after a connection error only
      by_cases hlost : (Worker.returned job outcome).disconnected = true
      · rw [if_pos hlost]
        exact Or.inr ⟨settlement_of_disconnected hlost, rfl⟩
      · rw [if_neg hlost]
        exact Or.inl (h.held job (by rw [hw]; rfl)).1
  | crash w' =>
      obtain rfl : w' = w := hone
      rcases step_crash.mp hu with ⟨cands, hw, rfl⟩ | ⟨job, outcome, hw, rfl⟩
      · exact h.setWorker (by rw [hw]; rfl) rfl fun cands hcands => by cases hcands
      · exact h.conclude hw (fun f hf => by cases hf)
          (Or.inl (h.held job (by rw [hw]; rfl)).1)
  | execute q update =>
      obtain ⟨-, rfl⟩ := step_execute.mp hu
      exact h.frame hbase rfl rfl rfl
  | change q correlationId =>
      obtain ⟨st, slot, -, -, rfl⟩ := step_change.mp hu
      exact h.frame hbase rfl (entries_modify_write _ _ _ _) rfl
  | pass q correlationId =>
      obtain ⟨st, slot, -, -, rfl⟩ := step_pass.mp hu
      exact h.frame hbase rfl rfl rfl
  | finish q =>
      obtain ⟨update, -, rfl⟩ := step_finish.mp hu
      exact h.frame hbase rfl (entries_commit_statement h.base q) rfl
  | abort q =>
      obtain ⟨st, -, rfl⟩ := step_abort.mp hu
      exact h.frame hbase rfl (entries_rollback _ _) rfl

/-- The fetch query returns the row that is to be tried again. -/
theorem OrderInv.retried (h : OrderInv pg w s) {l : Label} {t : Watch} (hone : OneWorker w s l)
    (hstep : s.step pg l = some t) : Retried s l := by
  obtain ⟨u, hu, -⟩ := Option.map_eq_some_iff.mp hstep
  intro row hretry w'
  have hnext := h.unchanged row hretry
  constructor
  · rintro cand rfl
    obtain ⟨rfl, -⟩ := hone
    obtain ⟨cands, slot, ⟨hw, -⟩, ⟨holdest, -⟩, -⟩ := step_take.mp hu
    obtain ⟨e, he, rfl⟩ := h.next_of_oldest hw holdest
    obtain rfl : entry row = e := Option.some.inj (hnext.symm.trans he)
    rfl
  · rintro rfl
    obtain ⟨rfl, -⟩ := hone
    obtain ⟨hw, -⟩ := step_noJob.mp hu
    exact absurd (h.awaited row [] hretry hw) List.not_mem_nil

end Invariant

/-! ## Every run of one worker -/

/-- **The outbox is a queue to a single worker.** In every run in which one worker fetches while no
other writer holds a row, and rows are enqueued at increasing times: no row is submitted while one
that was enqueued earlier is pending, rows are submitted for the first time in the order in which
they were enqueued, and a row whose attempt ends in a connection error stays as it was fetched and
is the next one that is fetched. -/
theorem outbox_order {pg : Jsonb} {w : Nat} {tr : List (Watch × Label)} {s : Watch}
    (hrun : Transition.Run (Watch.step pg) Watch.init tr s)
    (hone : Transition.EachStep (OneWorker w) tr) :
    Transition.Always (InOrder w) tr s ∧ Transition.EachStep Retried tr := by
  have hkeep : ∀ s l t, OrderInv pg w s → OneWorker w s l → Watch.step pg s l = some t →
      OrderInv pg w t := fun s l t h hone hstep => h.step hone hstep
  constructor
  · exact (hrun.always_of OrderInv.init hkeep hone).mono fun s h => h.inOrder
  · exact hrun.eachStep_of OrderInv.init hkeep
      (fun s l t h hone hstep => h.retried hone hstep) hone

/-! ### A lost connection -/

/-- Two rows; the connection is lost during the first submission. -/
def lostConnection : List Label :=
  [.enqueue "c1" "Balances" "transfer_allow_death" transferPayload 0,
    .enqueue "c2" "Balances" "transfer_allow_death" transferPayload 1,
    .fetch 0, .take 0 (0, "c1"), .submit 0 (.rejected "Connection closed"), .settle 0 9,
    .fetch 0, .take 0 (0, "c1"), .submit 0 (.finalized "0xaa"), .settle 0 9,
    .fetch 0, .take 0 (1, "c2")]

/-- The first row is submitted twice before the second. -/
theorem lostConnection_inOrder :
    ∃ tr s, Transition.Run (Watch.step (.onValues [])) Watch.init tr s ∧
      Transition.EachStep (OneWorker 0) tr ∧ s.submitted = ["c2", "c1", "c1"] ∧
      Transition.Always (InOrder 0) tr s ∧ Transition.EachStep Retried tr := by
  have hexec : (Transition.exec (Transition.guarded (Watch.step (.onValues [])) (OneWorker 0))
      Watch.init lostConnection).any (fun s => s.submitted = ["c2", "c1", "c1"]) = true := by
    decide
  obtain ⟨tr, s, hguarded, hsubmitted⟩ := Transition.Run.reach_of_exec hexec
  obtain ⟨hrun, hone⟩ := hguarded.of_guarded
  obtain ⟨horder, hretried⟩ := outbox_order hrun hone
  exact ⟨tr, s, hrun, hone, of_decide_eq_true hsubmitted, horder, hretried⟩

end Ainur.Outbox
