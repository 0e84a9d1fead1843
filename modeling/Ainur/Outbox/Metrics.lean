import Ainur.Lib.Keyed
import Ainur.Outbox.Commits

set_option autoImplicit false

/-! # The counters of the outbox

`run_outbox` keeps four counters, in the log and as `outbox_*_total` for the alerts, and adds to them
before it writes the row: an update or a commit that fails leaves them ahead of the table, and a
process that starts again begins at zero. `get_sync_status` counts the rows themselves.
-/

namespace Ainur.Outbox

open RowLock

/-- `OUTBOX_SUBMITTED`, `OUTBOX_FAILED`, `OUTBOX_DEAD` and `OUTBOX_RETRIED`. -/
structure Counters where
  submitted : Nat
  failed : Nat
  dead : Nat
  retried : Nat
  deriving DecidableEq, Repr

def Counters.zero : Counters := ⟨0, 0, 0, 0⟩

/-- What `run_outbox` adds once `submit_extrinsic` has returned. It rolls back on a connection error
and panics in the truncation of an error before it gets to a counter. -/
def Counters.add (c : Counters) (job : Job) (outcome : Submission) : Counters :=
  match outcome.result with
  | .ok _ => { c with submitted := c.submitted + 1 }
  | .error err =>
      if isConnectionErr err || (truncateErr err).isNone then c
      else if nextStatus job.retryCount = .dead then
        { c with dead := c.dead + 1, retried := c.retried + 1 }
      else { c with failed := c.failed + 1, retried := c.retried + 1 }

/-- The outbox columns of `get_sync_status`. -/
structure SyncCounts where
  outboxPending : Nat
  outboxFailed : Nat
  outboxDead : Nat
  deriving DecidableEq, Repr

/-- The query of `get_sync_status`. -/
def getSyncStatus (rows : List OutboundExtrinsic) : SyncCounts where
  outboxPending := rows.countP fun row => row.status = .pending
  outboxFailed := rows.countP fun row => row.status = .failed
  outboxDead := rows.countP fun row => row.status = .dead

/-! ## The processes and their counters -/

/-- The outbox and the counters of the process of each worker. `total` is all that has ever been
counted; it is not part of the program. -/
structure Meter where
  system : System
  counters : Nat → Counters
  /-- The worker has returned an error, and its process has not been started again. -/
  exited : Nat → Bool
  total : Counters

namespace Meter

def init : Meter where
  system := System.init
  counters _ := .zero
  exited _ := false
  total := .zero

inductive Label where
  /-- A step of the outbox in which no worker stops. -/
  | run (l : Outbox.Label)
  /-- A worker stops, before or after it has added to the counters. -/
  | crash (w : Nat) (counted : Bool)
  | restart (w : Nat)

/-- The worker `w` adds the outcome of its attempt. -/
def count (m : Meter) (w : Nat) : Meter :=
  match m.system.workers w with
  | .returned job outcome =>
      { m with
        counters := Function.update m.counters w ((m.counters w).add job outcome)
        total := m.total.add job outcome }
  | _ => m

def step (pg : Jsonb) (m : Meter) : Label → Option Meter
  | .run (.crash _) => none
  | .run (.fetch w) =>
      if m.exited w then none
      else (Outbox.step pg m.system (.fetch w)).map fun t => { m with system := t }
  | .run (.settle w now) =>
      (Outbox.step pg m.system (.settle w now)).map fun t => { m.count w with system := t }
  | .run l => (Outbox.step pg m.system l).map fun t => { m with system := t }
  | .crash w counted =>
      (Outbox.step pg m.system (.crash w)).map fun t =>
        { (if counted then m.count w else m) with
          system := t, exited := Function.update m.exited w true }
  | .restart w =>
      if m.exited w then
        some { m with
          counters := Function.update m.counters w .zero
          exited := Function.update m.exited w false }
      else none

/-! ### What a step does -/

section Steps

variable {pg : Jsonb} {m m' : Meter}

/-- The counters after a step that counts the outcome of worker `w`, or does not. -/
def Counted (m : Meter) (w : Nat) (counted : Bool) (m' : Meter) : Prop :=
  m'.counters = (if counted then m.count w else m).counters ∧
    m'.total = (if counted then m.count w else m).total

/-- A step of the outbox in which no attempt ends, the end of an attempt, or a new process. -/
theorem step_cases {l : Label} (h : step pg m l = some m') :
    (∃ l', (∀ w, (∀ now, l' ≠ .settle w now) ∧ l' ≠ .crash w) ∧
        Outbox.step pg m.system l' = some m'.system ∧ m'.counters = m.counters ∧
        m'.total = m.total) ∨
      (∃ w now, Outbox.step pg m.system (.settle w now) = some m'.system ∧
        Counted m w true m') ∨
      (∃ w counted, Outbox.step pg m.system (.crash w) = some m'.system ∧
        Counted m w counted m') ∨
      ∃ w, m'.system = m.system ∧ m'.counters = Function.update m.counters w .zero ∧
        m'.total = m.total := by
  have hplain : ∀ {l' : Outbox.Label}, (∀ w, (∀ now, l' ≠ .settle w now) ∧ l' ≠ .crash w) →
      ((Outbox.step pg m.system l').map fun t => { m with system := t }) = some m' →
      ∃ l', (∀ w, (∀ now, l' ≠ .settle w now) ∧ l' ≠ .crash w) ∧
        Outbox.step pg m.system l' = some m'.system ∧ m'.counters = m.counters ∧
        m'.total = m.total := by
    intro l' hl' hmap
    obtain ⟨t, ht, rfl⟩ := Option.map_eq_some_iff.mp hmap
    exact ⟨l', hl', ht, rfl, rfl⟩
  cases l with
  | run l =>
      cases l with
      | crash w => cases h
      | fetch w =>
          obtain ⟨-, h⟩ := Option.ite_none_left_eq_some.mp h
          exact Or.inl (hplain (by simp) h)
      | settle w now =>
          obtain ⟨t, ht, rfl⟩ := Option.map_eq_some_iff.mp h
          exact Or.inr (Or.inl ⟨w, now, ht, rfl, rfl⟩)
      | enqueue correlationId pallet call payload now => exact Or.inl (hplain (by simp) h)
      | skip w cand => exact Or.inl (hplain (by simp) h)
      | take w cand => exact Or.inl (hplain (by simp) h)
      | noJob w => exact Or.inl (hplain (by simp) h)
      | submit w outcome => exact Or.inl (hplain (by simp) h)
      | execute q update => exact Or.inl (hplain (by simp) h)
      | change q correlationId => exact Or.inl (hplain (by simp) h)
      | pass q correlationId => exact Or.inl (hplain (by simp) h)
      | finish q => exact Or.inl (hplain (by simp) h)
      | abort q => exact Or.inl (hplain (by simp) h)
  | crash w counted =>
      obtain ⟨t, ht, rfl⟩ := Option.map_eq_some_iff.mp h
      exact Or.inr (Or.inr (Or.inl ⟨w, counted, ht, rfl, rfl⟩))
  | restart w =>
      obtain ⟨-, h⟩ := Option.ite_none_right_eq_some.mp h
      obtain rfl := Option.some.inj h
      exact Or.inr (Or.inr (Or.inr ⟨w, rfl, rfl, rfl⟩))

end Steps

end Meter

/-! ## The rows that the counters are about -/

section Rows

variable {pg : Jsonb} {s t : System} {now : Nat} {job : Job} {outcome : Submission}

/-- How many committed rows have the status. -/
def System.rowsOf (s : System) (status : OutboxStatus) : Nat :=
  s.committed.countP fun row => row.status = status

/-- A worker submits a row at which no attempt has been committed. -/
theorem Invariant.retryCount_zero (h : Invariant pg s) {w : Nat}
    (hw : s.workers w = .returned job outcome) : job.retryCount = 0 := by
  obtain ⟨slot, hmem, hlock, rfl⟩ := h.holds w job (by rw [hw]; rfl)
  have hinv := h.slots slot hmem
  exact (hinv.history.pending (hinv.ofWorker w slot.row hlock).2.1).2

/-- No row is ever dead: a row has left `pending` after its first committed attempt. -/
theorem Invariant.not_dead (h : Invariant pg s) : s.rowsOf .dead = 0 := by
  refine List.countP_eq_zero.mpr fun row hrow => ?_
  obtain ⟨slot, hmem, rfl⟩ := List.mem_map.mp hrow
  have hhist := (h.slots slot hmem).history
  generalize committedOf s.attempts slot.key = as at hhist
  cases hhist with
  | untried hs _ _ => simp [hs]
  | finalized _ hs _ _ _ => simp [hs]
  | failed _ _ hs _ _ _ => simp [hs]

/-- Where no attempt ends, no row leaves `pending`. -/
theorem Invariant.rowsOf_plain (h : Invariant pg s) {l : Label}
    (hl : ∀ w, (∀ now, l ≠ .settle w now) ∧ l ≠ .crash w) (hstep : Outbox.step pg s l = some t)
    {status : OutboxStatus} (hne : status ≠ .pending) : t.rowsOf status = s.rowsOf status := by
  have hsame : t.committed = s.committed → t.rowsOf status = s.rowsOf status := by
    intro heq
    rw [System.rowsOf, System.rowsOf, heq]
  cases l with
  | settle w now => exact absurd rfl ((hl w).1 now)
  | crash w => exact absurd rfl (hl w).2
  | enqueue correlationId pallet call payload now =>
      obtain ⟨_, rfl⟩ := step_enqueue.mp hstep
      simp [System.rowsOf, System.committed, List.countP_append, OutboundExtrinsic.insert, hne.symm]
  | fetch w =>
      obtain ⟨_, rfl⟩ := step_fetch.mp hstep
      exact hsame rfl
  | skip w cand =>
      obtain ⟨_, _, _, rfl⟩ := step_skip.mp hstep
      exact hsame rfl
  | take w cand =>
      obtain ⟨_, _, _, _, rfl⟩ := step_take.mp hstep
      exact hsame (committed_modify_write _ _ _ _)
  | noJob w =>
      obtain ⟨_, rfl⟩ := step_noJob.mp hstep
      exact hsame rfl
  | submit w outcome =>
      obtain ⟨_, _, rfl⟩ := step_submit.mp hstep
      exact hsame rfl
  | execute q update =>
      obtain ⟨_, rfl⟩ := step_execute.mp hstep
      exact hsame rfl
  | change q correlationId =>
      obtain ⟨_, _, _, _, rfl⟩ := step_change.mp hstep
      exact hsame (committed_modify_write _ _ _ _)
  | pass q correlationId =>
      obtain ⟨_, _, _, _, rfl⟩ := step_pass.mp hstep
      exact hsame rfl
  | abort q =>
      obtain ⟨_, _, rfl⟩ := step_abort.mp hstep
      exact hsame (committed_rollback _ _)
  | finish q =>
      obtain ⟨_, _, rfl⟩ := step_finish.mp hstep
      rw [System.rowsOf, System.rowsOf, System.committed, System.committed, Table.commit,
        List.map_map, List.countP_map, List.countP_map]
      refine List.countP_congr fun slot hmem => ?_
      -- the update of a row keeps its status
      have hstatus : (slot.commit (.statement q)).row.status = slot.row.status := by
        by_cases hlock : ∃ v, slot.lock = some (.statement q, v)
        · obtain ⟨v, hlock⟩ := hlock
          obtain ⟨st, _, happ, rfl⟩ := (h.slots slot hmem).ofStatement q v hlock
          rw [Slot.commit_of_held hlock]
          exact (Update.same (h.slots slot hmem).history.hashed happ).status
        · rw [Slot.commit_of_not_held (not_exists.mp hlock)]
      simp [hstatus]

/-- An attempt that is rolled back changes no row. -/
theorem rowsOf_conclude_none {w : Nat} {status : OutboxStatus} :
    (s.conclude w job outcome none).rowsOf status = s.rowsOf status := by
  rw [System.rowsOf, System.rowsOf]
  exact congrArg _ (committed_rollback s.table (.worker w))

/-- The settlement of an attempt takes one row out of `pending`, into the status that it writes. -/
theorem Invariant.rowsOf_conclude (h : Invariant pg s) {w : Nat}
    (hw : s.workers w = .returned job outcome) {f : OutboundExtrinsic → OutboundExtrinsic}
    (hf : settlement now job outcome = some f) {written : OutboxStatus}
    (hwritten : ∀ row, (f row).status = written) (status : OutboxStatus) :
    (s.conclude w job outcome (some f)).rowsOf status + (if status = .pending then 1 else 0) =
      s.rowsOf status + if status = written then 1 else 0 := by
  have hrows : (s.conclude w job outcome (some f)).committed = s.committed.map fun row =>
      if row.correlationId = job.correlationId then f row else row := by
    have hcommit := attempt_committed h hw hf
    simp only [Commit.step] at hcommit
    rw [if_pos (h.job_committed hw), hf, Option.map_some] at hcommit
    exact (Option.some.inj hcommit).symm
  have hkeys : (s.committed.map (·.correlationId)).Nodup := by
    rw [committed_keys h]
    exact h.keys
  obtain ⟨row, hmem, hrow⟩ := List.any_eq_true.mp (h.job_committed hw)
  obtain ⟨hjob, hpending⟩ := of_decide_eq_true hrow
  have hid : row.correlationId = job.correlationId := by rw [← hjob]; rfl
  have hcount := Keyed.countP_update (·.correlationId) hkeys hmem hid f
    fun row => decide (row.status = status)
  rw [System.rowsOf, System.rowsOf, hrows]
  simpa [hpending, hwritten row, eq_comm] using hcount

end Rows

/-! ## What the counters tell -/

/-- What an operator can rely on, and what no run ever shows. -/
structure Reports (m : Meter) : Prop where
  /-- `get_sync_status` never finds a dead row. -/
  noDeadRow : (getSyncStatus m.system.committed).outboxDead = 0
  /-- `outbox_dead_total` stays at zero in every process. -/
  noDeadCount : ∀ w, (m.counters w).dead = 0
  /-- Every retry that is counted is a failure after which nothing is retried. -/
  retried : ∀ w, (m.counters w).retried = (m.counters w).failed
  /-- The failed rows that `get_sync_status` finds have all been counted. -/
  failed : (getSyncStatus m.system.committed).outboxFailed ≤ m.total.failed
  submitted : m.system.rowsOf .finalized ≤ m.total.submitted

section Invariant

variable {pg : Jsonb}

/-- What holds of the outbox and the counters. -/
structure Metered (pg : Jsonb) (m : Meter) : Prop where
  base : Invariant pg m.system
  noDead : ∀ w, (m.counters w).dead = 0 ∧ (m.counters w).retried = (m.counters w).failed
  failed : m.system.rowsOf .failed ≤ m.total.failed
  submitted : m.system.rowsOf .finalized ≤ m.total.submitted

theorem Metered.init : Metered pg Meter.init where
  base := Invariant.init
  noDead _ := ⟨rfl, rfl⟩
  failed := Nat.zero_le _
  submitted := Nat.zero_le _

/-- Of a job that has never been attempted, a failure is counted as such. -/
theorem Counters.add_cases (c : Counters) (now : Nat) {job : Job} (outcome : Submission)
    (hretry : job.retryCount = 0) :
    (∃ hash, outcome.result = .ok hash ∧
        c.add job outcome = { c with submitted := c.submitted + 1 }) ∨
      (settlement now job outcome = none ∧ c.add job outcome = c) ∨
      ∃ cut, settlement now job outcome = some (.fail .failed cut now) ∧
        c.add job outcome = { c with failed := c.failed + 1, retried := c.retried + 1 } := by
  have hnext : nextStatus job.retryCount = .failed := by
    rw [hretry]
    rfl
  unfold settlement Counters.add
  cases hres : outcome.result with
  | ok hash => exact Or.inl ⟨hash, rfl, rfl⟩
  | error err =>
      cases hconn : isConnectionErr err with
      | true => exact Or.inr (Or.inl ⟨by simp [hconn], by simp [hconn]⟩)
      | false =>
          cases hcut : truncateErr err with
          | none => exact Or.inr (Or.inl ⟨by simp [hcut], by simp [hcut]⟩)
          | some cut =>
              exact Or.inr (Or.inr ⟨cut, by simp [hconn, hcut, hnext], by simp [hconn, hcut, hnext]⟩)

/-- The counters never go back within a step of their worker. -/
theorem Metered.count {m : Meter} (h : Metered pg m) (w : Nat) :
    (∀ w', ((m.count w).counters w').dead = 0 ∧
        ((m.count w).counters w').retried = ((m.count w).counters w').failed) ∧
      m.total.failed ≤ (m.count w).total.failed ∧
      m.total.submitted ≤ (m.count w).total.submitted := by
  unfold Meter.count
  split
  · next job outcome hw =>
      have hretry := h.base.retryCount_zero hw
      constructor
      · intro w'
        by_cases hww : w' = w
        · subst hww
          simp only [Function.update_self]
          obtain ⟨hdead, hsame⟩ := h.noDead w'
          rcases (m.counters w').add_cases 0 outcome hretry with
            ⟨_, -, heq⟩ | ⟨-, heq⟩ | ⟨_, -, heq⟩
          · rw [heq]
            exact ⟨hdead, hsame⟩
          · rw [heq]
            exact ⟨hdead, hsame⟩
          · rw [heq]
            exact ⟨hdead, congrArg (· + 1) hsame⟩
        · simp only [Function.update_of_ne hww]
          exact h.noDead w'
      · rcases m.total.add_cases 0 outcome hretry with ⟨_, -, heq⟩ | ⟨-, heq⟩ | ⟨_, -, heq⟩
        · rw [heq]
          exact ⟨Nat.le_refl _, Nat.le_succ _⟩
        · rw [heq]
          exact ⟨Nat.le_refl _, Nat.le_refl _⟩
        · rw [heq]
          exact ⟨Nat.le_succ _, Nat.le_refl _⟩
  · exact ⟨h.noDead, Nat.le_refl _, Nat.le_refl _⟩

/-- The row that an attempt settles has been counted. -/
theorem Metered.settled {m : Meter} (h : Metered pg m) {w now : Nat} {t : System}
    (hstep : step pg m.system (.settle w now) = some t) :
    t.rowsOf .failed ≤ (m.count w).total.failed ∧
      t.rowsOf .finalized ≤ (m.count w).total.submitted := by
  obtain ⟨job, outcome, hw, rfl⟩ := step_settle.mp hstep
  have hretry := h.base.retryCount_zero hw
  have hcount : (m.count w).total = m.total.add job outcome := by
    simp only [Meter.count, hw]
  have hfailed := h.failed
  have hsubmitted := h.submitted
  rw [hcount]
  rcases m.total.add_cases now outcome hretry with ⟨hash, hres, heq⟩ | ⟨hf, heq⟩ | ⟨cut, hf, heq⟩
  · -- one more finalized row
    have hf : settlement now job outcome = some (.finalize hash now) := by simp [settlement, hres]
    have hmore := h.base.rowsOf_conclude hw hf (fun _ => rfl) .finalized
    have hkeep := h.base.rowsOf_conclude hw hf (fun _ => rfl) .failed
    simp only [reduceCtorEq, if_true, if_false] at hmore hkeep
    rw [heq, hf]
    constructor <;> simp only <;> omega
  · rw [heq, hf, rowsOf_conclude_none, rowsOf_conclude_none]
    exact ⟨hfailed, hsubmitted⟩
  · -- one more failed row
    have hmore := h.base.rowsOf_conclude hw hf (fun _ => rfl) .failed
    have hkeep := h.base.rowsOf_conclude hw hf (fun _ => rfl) .finalized
    simp only [reduceCtorEq, if_true, if_false] at hmore hkeep
    rw [heq, hf]
    constructor <;> simp only <;> omega

theorem Metered.step (m : Meter) (l : Meter.Label) (m' : Meter) (h : Metered pg m)
    (hstep : Meter.step pg m l = some m') : Metered pg m' := by
  rcases Meter.step_cases hstep with ⟨l', hl', hs, hcounters, htotal⟩ |
    ⟨w, now, hs, hcounters, htotal⟩ | ⟨w, counted, hs, hcounters, htotal⟩ |
    ⟨w, hs, hcounters, htotal⟩
  · refine ⟨h.base.step _ _ _ hs, ?_, ?_, ?_⟩
    · rw [hcounters]
      exact h.noDead
    -- no row is settled by such a step
    · rw [htotal, h.base.rowsOf_plain hl' hs (by simp)]
      exact h.failed
    · rw [htotal, h.base.rowsOf_plain hl' hs (by simp)]
      exact h.submitted
  · obtain ⟨hfailed, hsubmitted⟩ := h.settled hs
    refine ⟨h.base.step _ _ _ hs, ?_, ?_, ?_⟩
    · rw [hcounters]
      exact (h.count w).1
    · rw [htotal]
      exact hfailed
    · rw [htotal]
      exact hsubmitted
  · -- a worker that stops leaves the rows as they are
    have hrows : ∀ status, m'.system.rowsOf status = m.system.rowsOf status := by
      intro status
      rcases step_crash.mp hs with ⟨_, _, heq⟩ | ⟨job, outcome, _, heq⟩
      · rw [← heq]
        rfl
      · rw [← heq, rowsOf_conclude_none]
    obtain ⟨hnoDead, hfailed, hsubmitted⟩ := h.count w
    have hfailed' := h.failed
    have hsubmitted' := h.submitted
    cases counted with
    | true =>
        refine ⟨h.base.step _ _ _ hs, ?_, ?_, ?_⟩
        · rw [hcounters]
          exact hnoDead
        · rw [htotal, hrows]
          exact Nat.le_trans hfailed' hfailed
        · rw [htotal, hrows]
          exact Nat.le_trans hsubmitted' hsubmitted
    | false =>
        refine ⟨h.base.step _ _ _ hs, ?_, ?_, ?_⟩
        · rw [hcounters]
          exact h.noDead
        · rw [htotal, hrows]
          exact hfailed'
        · rw [htotal, hrows]
          exact hsubmitted'
  · -- the process starts again, and counts from zero
    refine ⟨by rw [hs]; exact h.base, ?_, ?_, ?_⟩
    · intro w'
      rw [hcounters]
      by_cases hww : w' = w
      · subst hww
        rw [Function.update_self]
        exact ⟨rfl, rfl⟩
      · rw [Function.update_of_ne hww]
        exact h.noDead w'
    · rw [htotal, hs]
      exact h.failed
    · rw [htotal, hs]
      exact h.submitted

/-- **No run shows a dead row.** In every reachable state and for every process the dead counter is
zero, so that the alert on it never fires, each retry that was counted is a failure, and every row
that was settled has been counted. -/
theorem counters_report {tr : List (Meter × Meter.Label)} {m : Meter}
    (hrun : Transition.Run (Meter.step pg) Meter.init tr m) : Reports m := by
  have h : Metered pg m := hrun.invariant Metered.init Metered.step
  exact ⟨h.base.not_dead, fun w => (h.noDead w).1, fun w => (h.noDead w).2, h.failed,
    h.submitted⟩

/-- A transfer that the node refuses, counted, with an update that fails; the process starts again
and refuses it once more. -/
def refusedTwice : List Meter.Label :=
  [.run (.enqueue "c1" "Balances" "transfer_allow_death" transferPayload 0), .run (.fetch 0),
    .run (.take 0 (0, "c1")), .run (.submit 0 (.rejected "submit: Invalid Transaction")),
    .crash 0 true, .restart 0, .run (.fetch 0), .run (.take 0 (0, "c1")),
    .run (.submit 0 (.rejected "submit: Invalid Transaction")), .run (.settle 0 9)]

theorem refusedTwice_reports :
    ∃ tr m, Transition.Run (Meter.step (.onValues [])) Meter.init tr m ∧
      m.total.failed = 2 ∧ (m.counters 0).failed = 1 ∧ Reports m := by
  have hexec : (Transition.exec (Meter.step (.onValues [])) Meter.init refusedTwice).any
      (fun m => m.total.failed = 2 && (m.counters 0).failed = 1) = true := by decide
  obtain ⟨tr, m, hrun, hfailed⟩ := Transition.Run.reach_of_exec hexec
  obtain ⟨htotal, hone⟩ := Bool.and_eq_true_iff.mp hfailed
  exact ⟨tr, m, hrun, of_decide_eq_true htotal, of_decide_eq_true hone, counters_report hrun⟩

end Invariant

end Ainur.Outbox
