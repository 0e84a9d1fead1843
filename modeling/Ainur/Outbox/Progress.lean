import Ainur.Outbox.Listing

set_option autoImplicit false

/-! # Progress of the outbox

Rows are neither lost nor doubled: what is enqueued is pending or has been settled once
(`Ledger`). A worker never waits, whatever the others hold (`worker_never_waits`), and where nothing
is held one worker settles all that is pending, the oldest row first (`drains`).
-/

namespace Ainur.Outbox

open RowLock

/-! ## Nothing is lost -/

def Commit.enqueues : Commit → Bool
  | .enqueue _ _ _ _ _ => true
  | _ => false

/-- An attempt whose submission returned a hash. -/
def Commit.finalizes : Commit → Bool
  | .attempt _ outcome _ => outcome.result.toOption.isSome
  | _ => false

/-- An attempt whose submission returned an error. -/
def Commit.fails : Commit → Bool
  | .attempt _ outcome _ => outcome.result.toOption.isNone
  | _ => false

/-- How many transactions with `p` a run has committed. -/
def committedIn (p : Commit → Bool) (tr : List (System × Label)) : Nat :=
  (Transition.trace commits tr).countP p

section Ledger

variable {pg : Jsonb} {s t : System} {tr : List (System × Label)}

theorem committedIn_cons (p : Commit → Bool) (s : System) (l : Label) :
    committedIn p ((s, l) :: tr) = committedIn p tr + (commits s l).countP p := by
  rw [committedIn, Transition.trace_cons, List.countP_append]
  rfl

/-- The rows of a table by their status. -/
theorem length_committed (s : System) :
    s.committed.length =
      s.rowsOf .pending + s.rowsOf .finalized + s.rowsOf .failed + s.rowsOf .dead := by
  simp only [System.rowsOf]
  induction s.committed with
  | nil => rfl
  | cons row rows ih =>
      simp only [List.length_cons, List.countP_cons, ih]
      cases row.status <;> simp <;> omega

/-- What the commits of a run amount to. -/
structure Ledger (s : System) (tr : List (System × Label)) : Prop where
  /-- Every row has been enqueued, and every enqueue is a row. -/
  enqueued : s.committed.length = committedIn Commit.enqueues tr
  finalized : s.rowsOf .finalized = committedIn Commit.finalizes tr
  failed : s.rowsOf .failed = committedIn Commit.fails tr
  /-- What is pending has been enqueued and not been settled. -/
  pending : s.rowsOf .pending + committedIn Commit.finalizes tr + committedIn Commit.fails tr =
    committedIn Commit.enqueues tr

/-- A settled attempt moves one row. -/
theorem Ledger.settle (h : Invariant pg s) {w now : Nat} {job : Job} {outcome : Submission}
    (hw : s.workers w = .returned job outcome) {f : OutboundExtrinsic → OutboundExtrinsic}
    (hf : settlement now job outcome = some f) :
    (s.conclude w job outcome (some f)).rowsOf .finalized =
        s.rowsOf .finalized + (if (Commit.attempt job outcome now).finalizes then 1 else 0) ∧
      (s.conclude w job outcome (some f)).rowsOf .failed =
        s.rowsOf .failed + if (Commit.attempt job outcome now).fails then 1 else 0 := by
  have hnext : nextStatus job.retryCount = .failed := by
    rw [h.retryCount_zero hw]
    rfl
  rcases settlement_cases hf with ⟨hash, hres, rfl⟩ | ⟨err, cut, hres, -, -, rfl⟩
  · have hfinalized := h.rowsOf_conclude hw hf (fun _ => rfl) .finalized
    have hfailed := h.rowsOf_conclude hw hf (fun _ => rfl) .failed
    simp only [reduceCtorEq, if_true, if_false] at hfinalized hfailed
    simp only [Commit.finalizes, Commit.fails, hres, Except.toOption, Option.isSome_some,
      Option.isNone_some, if_true]
    exact ⟨by omega, by simpa using hfailed⟩
  · have hfinalized := h.rowsOf_conclude hw hf (fun _ => hnext) .finalized
    have hfailed := h.rowsOf_conclude hw hf (fun _ => hnext) .failed
    simp only [reduceCtorEq, if_true, if_false] at hfinalized hfailed
    simp only [Commit.finalizes, Commit.fails, hres, Except.toOption, Option.isSome_none,
      Option.isNone_none, if_true]
    exact ⟨by simpa using hfinalized, by omega⟩

/-- What a step adds to the table is what it commits. -/
theorem ledger_step {l : Label} (hinv : Invariant pg s) (hstep : step pg s l = some t) :
    t.committed.length = s.committed.length + (commits s l).countP Commit.enqueues ∧
      t.rowsOf .finalized = s.rowsOf .finalized + (commits s l).countP Commit.finalizes ∧
      t.rowsOf .failed = s.rowsOf .failed + (commits s l).countP Commit.fails := by
  -- where no attempt ends, only an enqueue adds a row
  have hplain : (∀ w, (∀ now, l ≠ .settle w now) ∧ l ≠ .crash w) →
      (commits s l).countP Commit.finalizes = 0 → (commits s l).countP Commit.fails = 0 →
      t.committed.length = s.committed.length + (commits s l).countP Commit.enqueues →
      t.committed.length = s.committed.length + (commits s l).countP Commit.enqueues ∧
        t.rowsOf .finalized = s.rowsOf .finalized + (commits s l).countP Commit.finalizes ∧
        t.rowsOf .failed = s.rowsOf .failed + (commits s l).countP Commit.fails := by
    intro hl hfinalizes hfails hlength
    refine ⟨hlength, ?_, ?_⟩
    · rw [hfinalizes]
      exact hinv.rowsOf_plain hl hstep (by simp)
    · rw [hfails]
      exact hinv.rowsOf_plain hl hstep (by simp)
  have hlength : ∀ {T : Table String OutboundExtrinsic Holder}, T.length = s.table.length →
      (T.map Slot.row).length = s.committed.length + 0 := by
    intro T hT
    rw [System.committed, List.length_map, List.length_map, hT]
    rfl
  cases l with
  | enqueue correlationId pallet call payload now =>
      refine hplain (by simp) rfl rfl ?_
      obtain ⟨_, rfl⟩ := step_enqueue.mp hstep
      simp [System.committed, commits, Commit.enqueues]
  | settle w now =>
      obtain ⟨job, outcome, hw, rfl⟩ := step_settle.mp hstep
      cases hf : settlement now job outcome with
      | none =>
          have hnone : commits s (.settle w now) = [] := by simp [commits, hw, hf]
          rw [hnone, rowsOf_conclude_none, rowsOf_conclude_none]
          exact ⟨hlength (List.length_map _), rfl, rfl⟩
      | some f =>
          have hone : commits s (.settle w now) = [.attempt job outcome now] := by
            simp [commits, hw, hf]
          obtain ⟨hfinalized, hfailed⟩ := Ledger.settle hinv hw hf
          rw [hone, hfinalized, hfailed]
          refine ⟨?_, ?_, ?_⟩
          · rw [System.committed, hinv.conclude_table hw, System.committed]
            simp [Commit.enqueues]
          · simp [List.countP_cons]
          · simp [List.countP_cons]
  | crash w =>
      rcases step_crash.mp hstep with ⟨_, _, rfl⟩ | ⟨job, outcome, _, rfl⟩
      · exact ⟨rfl, rfl, rfl⟩
      · rw [rowsOf_conclude_none, rowsOf_conclude_none]
        exact ⟨hlength (List.length_map _), rfl, rfl⟩
  | fetch w =>
      refine hplain (by simp) rfl rfl ?_
      obtain ⟨_, rfl⟩ := step_fetch.mp hstep
      rfl
  | skip w cand =>
      refine hplain (by simp) rfl rfl ?_
      obtain ⟨_, _, _, rfl⟩ := step_skip.mp hstep
      rfl
  | take w cand =>
      refine hplain (by simp) rfl rfl ?_
      obtain ⟨_, _, _, _, rfl⟩ := step_take.mp hstep
      exact hlength (List.length_map _)
  | noJob w =>
      refine hplain (by simp) rfl rfl ?_
      obtain ⟨_, rfl⟩ := step_noJob.mp hstep
      rfl
  | submit w outcome =>
      refine hplain (by simp) rfl rfl ?_
      obtain ⟨_, _, rfl⟩ := step_submit.mp hstep
      rfl
  | execute q update =>
      refine hplain (by simp) rfl rfl ?_
      obtain ⟨_, rfl⟩ := step_execute.mp hstep
      rfl
  | change q correlationId =>
      refine hplain (by simp) rfl rfl ?_
      obtain ⟨_, _, _, _, rfl⟩ := step_change.mp hstep
      exact hlength (List.length_map _)
  | pass q correlationId =>
      refine hplain (by simp) rfl rfl ?_
      obtain ⟨_, _, _, _, rfl⟩ := step_pass.mp hstep
      rfl
  | finish q =>
      obtain ⟨update, hst, ht⟩ := step_finish.mp hstep
      refine hplain (by simp) (by simp [commits, hst, Commit.finalizes])
        (by simp [commits, hst, Commit.fails]) ?_
      rw [← ht, show (commits s (.finish q)).countP Commit.enqueues = 0 by
        simp [commits, hst, Commit.enqueues]]
      exact hlength (List.length_map _)
  | abort q =>
      refine hplain (by simp) rfl rfl ?_
      obtain ⟨_, _, rfl⟩ := step_abort.mp hstep
      exact hlength (List.length_map _)

/-- **No row is lost and none is settled twice.** In every run, whatever its interleaving, the rows
are as many as were enqueued, the finalized and the failed ones as many as attempts were committed
with a hash and with an error, and the rest is pending. -/
theorem nothing_lost (hrun : Runs pg tr s) : Ledger s tr := by
  have hbase : s.committed.length = committedIn Commit.enqueues tr ∧
      s.rowsOf .finalized = committedIn Commit.finalizes tr ∧
      s.rowsOf .failed = committedIn Commit.fails tr := by
    induction hrun with
    | nil => exact ⟨rfl, rfl, rfl⟩
    | @snoc tr m l t hrun hs ih =>
        obtain ⟨hlength, hfinalized, hfailed⟩ := ih
        obtain ⟨hlength', hfinalized', hfailed'⟩ := ledger_step (Runs.invariant hrun) hs
        refine ⟨?_, ?_, ?_⟩
        · rw [hlength', hlength, committedIn_cons]
        · rw [hfinalized', hfinalized, committedIn_cons]
        · rw [hfailed', hfailed, committedIn_cons]
  obtain ⟨henqueued, hfinalized, hfailed⟩ := hbase
  refine ⟨henqueued, hfinalized, hfailed, ?_⟩
  have hsum := length_committed s
  have hdead := (Runs.invariant hrun).not_dead
  omega

/-- Two rows, one transferred and one pending. -/
theorem besidePatch_ledger :
    ∃ tr s, Runs (.onValues [.object [("task_id", .number (.posInt 0))]]) tr s ∧
      s.rowsOf .pending = 1 ∧ Ledger s tr := by
  have hexec : (Transition.exec (step (.onValues [.object [("task_id", .number (.posInt 0))]]))
      System.init besidePatch).any (fun s => s.rowsOf .pending = 1) = true := by decide
  obtain ⟨tr, s, hrun, hpending⟩ := Transition.Run.reach_of_exec hexec
  exact ⟨tr, s, hrun, of_decide_eq_true hpending, nothing_lost hrun⟩

end Ledger

/-! ## No worker waits -/

/-- The worker that takes a step. -/
def Label.worker : Label → Option Nat
  | .fetch w => some w
  | .skip w _ => some w
  | .take w _ => some w
  | .noJob w => some w
  | .submit w _ => some w
  | .settle w _ => some w
  | .crash w => some w
  | _ => none

/-- How many steps of a run are steps of worker `w`. -/
def stepsOf (w : Nat) (tr : List (System × Label)) : Nat :=
  tr.countP fun p => p.2.worker = some w

/-- The worker runs its fetch query. -/
def Worker.scans : Worker → Bool
  | .scanning _ => true
  | _ => false

/-- How many rows its query has yet to look at. -/
def Worker.left : Worker → Nat
  | .scanning cands => cands.length
  | _ => 0

section Waiting

variable {pg : Jsonb} {s t : System}

/-- One of the rows that are left is the oldest. -/
theorem exists_oldest {cands : List (Nat × String)} (h : cands ≠ []) :
    ∃ cand, isOldest cand cands = true := by
  have hmin : ∃ cand ∈ cands, ∀ c ∈ cands, cand.1 ≤ c.1 := by
    induction cands with
    | nil => exact absurd rfl h
    | cons c cands ih =>
        by_cases hnil : cands = []
        · subst hnil
          refine ⟨c, List.mem_singleton.mpr rfl, fun c' hc' => ?_⟩
          exact Nat.le_of_eq (by rw [List.mem_singleton.mp hc'])
        · obtain ⟨cand, hcand, hle⟩ := ih hnil
          by_cases hc : c.1 ≤ cand.1
          · refine ⟨c, List.mem_cons_self, fun c' hc' => ?_⟩
            rcases List.mem_cons.mp hc' with rfl | hc'
            · exact Nat.le_refl _
            · exact Nat.le_trans hc (hle c' hc')
          · refine ⟨cand, List.mem_cons_of_mem _ hcand, fun c' hc' => ?_⟩
            rcases List.mem_cons.mp hc' with rfl | hc'
            · omega
            · exact hle c' hc'
  obtain ⟨cand, hcand, hle⟩ := hmin
  exact ⟨cand, by simpa [isOldest, hcand] using fun a b hab => hle (a, b) hab⟩

/-- Whatever the others hold, a worker can take its next step. -/
theorem exists_step (pg : Jsonb) (s : System) (w : Nat) :
    ∃ l, l.worker = some w ∧ l ≠ .crash w ∧ (step pg s l).isSome = true := by
  have henabled : ∀ {l t}, step pg s l = some t → (step pg s l).isSome = true := by
    intro l t h
    rw [h]
    rfl
  cases hw : s.workers w with
  | idle => exact ⟨.fetch w, rfl, by simp, henabled (step_fetch.mpr ⟨hw, rfl⟩)⟩
  | scanning cands =>
      by_cases hnil : cands = []
      · subst hnil
        exact ⟨.noJob w, rfl, by simp, henabled (step_noJob.mpr ⟨hw, rfl⟩)⟩
      · obtain ⟨cand, hcand⟩ := exists_oldest hnil
        -- a row that is held, or no longer pending, is skipped
        cases hfind : s.table.find cand.2 with
        | none =>
            have hall : ((s.table.find cand.2).all fun slot => !isFree slot) = true := by
              rw [hfind]
              rfl
            exact ⟨.skip w cand, rfl, by simp,
              henabled (step_skip.mpr ⟨cands, hw, ⟨hcand, hall⟩, rfl⟩)⟩
        | some slot =>
            by_cases hfree : isFree slot = true
            · exact ⟨.take w cand, rfl, by simp,
                henabled (step_take.mpr ⟨cands, slot, ⟨hw, hfind⟩, ⟨hcand, hfree⟩, rfl⟩)⟩
            · have hall : ((s.table.find cand.2).all fun slot => !isFree slot) = true := by
                rw [hfind]
                simpa using hfree
              exact ⟨.skip w cand, rfl, by simp,
                henabled (step_skip.mpr ⟨cands, hw, ⟨hcand, hall⟩, rfl⟩)⟩
  | submitting job =>
      exact ⟨.submit w (.rejected ""), rfl, by simp,
        henabled (step_submit.mpr ⟨job, hw, rfl⟩)⟩
  | returned job outcome =>
      exact ⟨.settle w 0, rfl, by simp, henabled (step_settle.mpr ⟨job, outcome, hw, rfl⟩)⟩

/-- The steps of the others do not touch a worker. -/
theorem workers_of_other {l : Label} {w : Nat} (hl : l.worker ≠ some w)
    (hstep : step pg s l = some t) : t.workers w = s.workers w := by
  have hset : ∀ {w' : Nat} {state : Worker}, some w' ≠ some w →
      Function.update s.workers w' state w = s.workers w := by
    intro w' state hne
    exact Function.update_of_ne (fun heq => hne (congrArg some heq.symm)) _ _
  cases l with
  | enqueue correlationId pallet call payload now =>
      obtain ⟨_, rfl⟩ := step_enqueue.mp hstep
      rfl
  | fetch w' =>
      obtain ⟨_, rfl⟩ := step_fetch.mp hstep
      exact hset hl
  | skip w' cand =>
      obtain ⟨_, _, _, rfl⟩ := step_skip.mp hstep
      exact hset hl
  | take w' cand =>
      obtain ⟨_, _, _, _, rfl⟩ := step_take.mp hstep
      exact hset hl
  | noJob w' =>
      obtain ⟨_, rfl⟩ := step_noJob.mp hstep
      exact hset hl
  | submit w' outcome =>
      obtain ⟨_, _, rfl⟩ := step_submit.mp hstep
      exact hset hl
  | settle w' now =>
      obtain ⟨_, _, _, rfl⟩ := step_settle.mp hstep
      exact hset hl
  | crash w' =>
      rcases step_crash.mp hstep with ⟨_, _, rfl⟩ | ⟨_, _, _, rfl⟩
      · exact hset hl
      · exact hset hl
  | execute q update =>
      obtain ⟨_, rfl⟩ := step_execute.mp hstep
      rfl
  | change q correlationId =>
      obtain ⟨_, _, _, _, rfl⟩ := step_change.mp hstep
      rfl
  | pass q correlationId =>
      obtain ⟨_, _, _, _, rfl⟩ := step_pass.mp hstep
      rfl
  | finish q =>
      obtain ⟨_, _, rfl⟩ := step_finish.mp hstep
      rfl
  | abort q =>
      obtain ⟨_, _, rfl⟩ := step_abort.mp hstep
      rfl

/-- A step of a scanning worker that goes on scanning leaves one row behind. -/
theorem left_of_scans {l : Label} {w : Nat} (hl : l.worker = some w)
    (hs : (s.workers w).scans = true) (ht : (t.workers w).scans = true)
    (hstep : step pg s l = some t) : (t.workers w).left + 1 ≤ (s.workers w).left := by
  cases l with
  | skip w' cand =>
      obtain rfl : w' = w := Option.some.inj hl
      obtain ⟨cands, hw, ⟨hcand, _⟩, rfl⟩ := step_skip.mp hstep
      -- the row that is skipped is not looked at again
      have hmem : cand ∈ cands := by
        simpa using (Bool.and_eq_true_iff.mp hcand).1
      have hlength := List.length_erase_of_mem hmem
      have hpos := List.length_pos_of_mem hmem
      simp only [System.setWorker, Function.update_self, Worker.left, hw]
      omega
  | fetch w' =>
      obtain rfl : w' = w := Option.some.inj hl
      obtain ⟨hw, rfl⟩ := step_fetch.mp hstep
      -- any other step of its own begins a scan or ends one
      simp [hw, Worker.scans] at hs
  | take w' cand =>
      obtain rfl : w' = w := Option.some.inj hl
      obtain ⟨_, _, _, _, rfl⟩ := step_take.mp hstep
      simp [System.setWorker, Worker.scans] at ht
  | noJob w' =>
      obtain rfl : w' = w := Option.some.inj hl
      obtain ⟨_, rfl⟩ := step_noJob.mp hstep
      simp [System.setWorker, Worker.scans] at ht
  | submit w' outcome =>
      obtain rfl : w' = w := Option.some.inj hl
      obtain ⟨job, hw, _⟩ := step_submit.mp hstep
      simp [hw, Worker.scans] at hs
  | settle w' now =>
      obtain rfl : w' = w := Option.some.inj hl
      obtain ⟨job, outcome, hw, _⟩ := step_settle.mp hstep
      simp [hw, Worker.scans] at hs
  | crash w' =>
      obtain rfl : w' = w := Option.some.inj hl
      rcases step_crash.mp hstep with ⟨_, _, rfl⟩ | ⟨_, _, _, rfl⟩
      · simp [System.setWorker, Worker.scans] at ht
      · simp [System.conclude, Worker.scans] at ht
  | enqueue correlationId pallet call payload now => cases hl
  | execute q update => cases hl
  | change q correlationId => cases hl
  | pass q correlationId => cases hl
  | finish q => cases hl
  | abort q => cases hl

/-- **No worker waits for another.** In every state each worker has a next step, whoever holds
whatever rows; and while its fetch query runs, in every interleaving with the other workers and
statements, it takes no more steps of its own than the query saw pending rows. -/
theorem worker_never_waits (pg : Jsonb) (s : System) (w : Nat) :
    (∃ l, l.worker = some w ∧ l ≠ .crash w ∧ (step pg s l).isSome = true) ∧
      ∀ tr t, Transition.Run (step pg) s tr t →
        Transition.Always (fun u => (u.workers w).scans = true) tr t →
        stepsOf w tr ≤ (s.workers w).left := by
  refine ⟨exists_step pg s w, fun tr t hrun halways => ?_⟩
  have hbound : stepsOf w tr + (t.workers w).left ≤ (s.workers w).left := by
    induction hrun with
    | nil => simp [stepsOf]
    | @snoc tr m l t _ hs ih =>
        have hm : (m.workers w).scans = true := halways.2 (m, l) List.mem_cons_self
        have hprev := ih ⟨hm, fun p hp => halways.2 p (List.mem_cons_of_mem _ hp)⟩
        have hcount : stepsOf w ((m, l) :: tr) =
            stepsOf w tr + if l.worker = some w then 1 else 0 := by
          simp [stepsOf, List.countP_cons]
        by_cases hl : l.worker = some w
        · have hleft := left_of_scans hl hm halways.1 hs
          rw [hcount, if_pos hl]
          omega
        · rw [hcount, if_neg hl, workers_of_other hl hs]
          omega
  omega

/-- The patch of `besidePatch` holds the first row, and a worker fetches. -/
def patchHolds : List Label := besidePatch.take 5

/-- The worker skips the row that the patch holds. -/
theorem patchHolds_scans :
    ∃ tr s t, Runs (.onValues [.object [("task_id", .number (.posInt 0))]]) tr s ∧
      ((s.table.find "c1").any fun slot => slot.lock.isSome) = true ∧
      s.workers 0 = .scanning [(0, "c1"), (1, "c2")] ∧ t.workers 0 = .scanning [(1, "c2")] ∧
      ∃ tr', Transition.Run (step (.onValues [.object [("task_id", .number (.posInt 0))]])) s tr' t ∧
        stepsOf 0 tr' = 1 ∧ stepsOf 0 tr' ≤ (s.workers 0).left := by
  have hexec : (Transition.exec (step (.onValues [.object [("task_id", .number (.posInt 0))]]))
      System.init patchHolds).any (fun s =>
        ((s.table.find "c1").any fun slot => slot.lock.isSome) &&
        (s.workers 0 = .scanning [(0, "c1"), (1, "c2")] &&
        (step (.onValues [.object [("task_id", .number (.posInt 0))]]) s (.skip 0 (0, "c1"))).any
          fun t => t.workers 0 = .scanning [(1, "c2")])) = true := by decide
  obtain ⟨tr, s, hrun, hheld⟩ := Transition.Run.reach_of_exec hexec
  obtain ⟨hheld, hnext⟩ := Bool.and_eq_true_iff.mp hheld
  obtain ⟨hscans, hnext⟩ := Bool.and_eq_true_iff.mp hnext
  obtain ⟨t, hstep, hskipped⟩ := (Option.any_eq_true _ _).mp hnext
  have hscans := of_decide_eq_true hscans
  have hskipped := of_decide_eq_true hskipped
  have hrun' := Transition.Run.nil.snoc hstep
  have halways : Transition.Always (fun u : System => (u.workers 0).scans = true)
      [(s, Label.skip 0 (0, "c1"))] t := by
    have hfirst : (s.workers 0).scans = true := by rw [hscans]; rfl
    exact (Transition.always_nil (P := fun u : System => (u.workers 0).scans = true) hfirst).snoc _
      (by rw [hskipped]; rfl)
  exact ⟨tr, s, t, hrun, hheld, hscans, hskipped, _, hrun', rfl,
    (worker_never_waits _ s 0).2 _ _ hrun' halways⟩

end Waiting

/-! ## One worker empties the queue -/

section Draining

variable {pg : Jsonb} {s : System} {w : Nat} {outcome : Job → Submission} {clock : Job → Nat}

/-- Nobody holds a row, and the worker is between two iterations of its loop. -/
structure Quiet (pg : Jsonb) (w : Nat) (s : System) : Prop where
  base : Invariant pg s
  idle : s.workers w = .idle
  free : ∀ slot ∈ s.table, slot.lock = none

/-- The rows that wait. -/
def System.waiting (s : System) : List OutboundExtrinsic :=
  s.committed.filter fun row => row.status = .pending

/-- One iteration of the loop on `row`, where `outcome` is what its submission does and `clock` the
time of its transaction. -/
def iteration (w : Nat) (outcome : Job → Submission) (clock : Job → Nat)
    (row : OutboundExtrinsic) : List Label :=
  [.fetch w, .take w (row.createdAt, row.correlationId), .submit w (outcome row.job),
    .settle w (clock row.job)]

/-- What its own submission makes of a row that waits; every other row stays. -/
def settled (outcome : Job → Submission) (clock : Job → Nat) (row : OutboundExtrinsic) :
    OutboundExtrinsic :=
  if row.status = .pending then
    ((settlement (clock row.job) row.job (outcome row.job)).getD id) row
  else row

/-- The fetch query sees the rows that wait. -/
theorem pendingRows_waiting (h : Invariant pg s) {cand : Nat × String} :
    cand ∈ s.pendingRows ↔ ∃ row ∈ s.waiting, cand = (row.createdAt, row.correlationId) := by
  rw [System.pendingRows, List.mem_map]
  constructor
  · rintro ⟨slot, hslot, rfl⟩
    obtain ⟨hslot, hrow⟩ := List.mem_filter.mp hslot
    refine ⟨slot.row, List.mem_filter.mpr ⟨List.mem_map.mpr ⟨slot, hslot, rfl⟩, hrow⟩, ?_⟩
    rw [(h.slots slot hslot).key]
  · rintro ⟨row, hrow, rfl⟩
    obtain ⟨hrow, hpending⟩ := List.mem_filter.mp hrow
    obtain ⟨slot, hslot, rfl⟩ := List.mem_map.mp hrow
    refine ⟨slot, List.mem_filter.mpr ⟨hslot, hpending⟩, ?_⟩
    rw [(h.slots slot hslot).key]

/-- The worker has submitted the oldest row that waits, and holds no other. -/
theorem Quiet.submit (h : Quiet pg w s) (hwaiting : s.waiting ≠ []) (outcome : Job → Submission) :
    ∃ row ∈ s.waiting, (∀ row' ∈ s.waiting, row.createdAt ≤ row'.createdAt) ∧
      ∃ u, Transition.exec (step pg) s
          [.fetch w, .take w (row.createdAt, row.correlationId), .submit w (outcome row.job)] =
            some u ∧
        Invariant pg u ∧ u.workers w = .returned row.job (outcome row.job) ∧
        u.committed = s.committed ∧
        ∀ slot ∈ u.table, slot.key ≠ row.correlationId → slot.lock = none := by
  have hnonempty : s.pendingRows ≠ [] := by
    obtain ⟨row, hrow⟩ := List.exists_mem_of_ne_nil _ hwaiting
    exact List.ne_nil_of_mem ((pendingRows_waiting h.base).mpr ⟨row, hrow, rfl⟩)
  obtain ⟨cand, hcand⟩ := exists_oldest hnonempty
  obtain ⟨hmem, holdest⟩ := Bool.and_eq_true_iff.mp hcand
  have hmem : cand ∈ s.pendingRows := by simpa using hmem
  -- the oldest row, free as all of them
  obtain ⟨row, hrow, rfl⟩ := (pendingRows_waiting h.base).mp hmem
  have hle : ∀ row' ∈ s.waiting, row.createdAt ≤ row'.createdAt := by
    intro row' hrow'
    exact of_decide_eq_true (List.all_eq_true.mp holdest (row'.createdAt, row'.correlationId)
      ((pendingRows_waiting h.base).mpr ⟨row', hrow', rfl⟩))
  obtain ⟨hcommitted, hpending⟩ := List.mem_filter.mp hrow
  obtain ⟨slot, hslot, rfl⟩ := List.mem_map.mp hcommitted
  have hkey := (h.base.slots slot hslot).key
  have hfind : s.table.find slot.row.correlationId = some slot := by
    rw [hkey]
    exact Table.find_of_mem h.base.keys hslot
  have hfree : isFree slot = true := by
    simp [isFree, h.free slot hslot, of_decide_eq_true hpending]
  -- the three steps
  obtain ⟨s1, hs1⟩ : ∃ s1, s.setWorker w (.scanning s.pendingRows) = s1 := ⟨_, rfl⟩
  have hw1 : s1.workers w = .scanning s.pendingRows := by
    rw [← hs1]
    exact Function.update_self _ _ _
  have ht1 : s1.table = s.table := by rw [← hs1]; rfl
  have h1 : step pg s (.fetch w) = some s1 := step_fetch.mpr ⟨h.idle, hs1⟩
  obtain ⟨s2, hs2⟩ : ∃ s2, { s1.setWorker w (.submitting slot.row.job) with
      table := s1.table.modify slot.row.correlationId (Slot.write (.worker w) id) } = s2 := ⟨_, rfl⟩
  have hw2 : s2.workers w = .submitting slot.row.job := by
    rw [← hs2]
    exact Function.update_self _ _ _
  have ht2 : s2.table = s.table.modify slot.row.correlationId (Slot.write (.worker w) id) := by
    rw [← hs2, ← ht1]
  have h2 : step pg s1 (.take w (slot.row.createdAt, slot.row.correlationId)) = some s2 :=
    step_take.mpr ⟨s.pendingRows, slot, ⟨hw1, by rw [ht1]; exact hfind⟩, ⟨hcand, hfree⟩, hs2⟩
  obtain ⟨s3, h3⟩ : ∃ s3, step pg s2 (.submit w (outcome slot.row.job)) = some s3 :=
    ⟨_, step_submit.mpr ⟨slot.row.job, hw2, rfl⟩⟩
  obtain ⟨job, hjob, hs3⟩ := step_submit.mp h3
  obtain rfl : slot.row.job = job := by
    rw [hw2] at hjob
    exact Worker.submitting.inj hjob
  have ht3 : s3.table = s.table.modify slot.row.correlationId (Slot.write (.worker w) id) := by
    rw [← hs3, ← ht2]
    rfl
  refine ⟨slot.row, hrow, hle, s3, ?_, ?_, ?_, ?_, ?_⟩
  · rw [Transition.exec, h1, Option.bind_some, Transition.exec, h2, Option.bind_some,
      Transition.exec, h3]
    rfl
  · exact ((h.base.step _ _ _ h1).step _ _ _ h2).step _ _ _ h3
  · rw [← hs3]
    exact Function.update_self _ _ _
  · rw [System.committed, ht3]
    exact committed_modify_write _ _ _ _
  · intro slot' hmem' hne
    rw [ht3] at hmem'
    obtain ⟨slot₀, hmem₀, rfl⟩ := Table.mem_modify.mp hmem'
    have hk : slot₀.key ≠ slot.row.correlationId := by
      intro hk
      rw [if_pos hk] at hne
      exact hne hk
    rw [if_neg hk]
    exact h.free slot₀ hmem₀

/-- An iteration settles the oldest row that waits, and no other. -/
theorem Quiet.iterate (h : Quiet pg w s) (hwaiting : s.waiting ≠ [])
    (hsettles : ∀ row ∈ s.waiting,
      (settlement (clock row.job) row.job (outcome row.job)).isSome = true) :
    ∃ row ∈ s.waiting, (∀ row' ∈ s.waiting, row.createdAt ≤ row'.createdAt) ∧
      ∃ t, Transition.exec (step pg) s (iteration w outcome clock row) = some t ∧ Quiet pg w t ∧
        t.committed = s.committed.map fun row' =>
          if row'.correlationId = row.correlationId then settled outcome clock row else row' := by
  obtain ⟨row, hrow, hle, u, hexec, hbase, hw, hcommitted, hfree⟩ := h.submit hwaiting outcome
  obtain ⟨f, hf⟩ := Option.isSome_iff_exists.mp (hsettles row hrow)
  have hsettle : step pg u (.settle w (clock row.job)) =
      some (u.conclude w row.job (outcome row.job) (some f)) :=
    step_settle.mpr ⟨row.job, outcome row.job, hw, by rw [hf]⟩
  refine ⟨row, hrow, hle, u.conclude w row.job (outcome row.job) (some f), ?_, ⟨?_, ?_, ?_⟩, ?_⟩
  · show Transition.exec (step pg) s ([.fetch w, .take w (row.createdAt, row.correlationId),
      .submit w (outcome row.job)] ++ [.settle w (clock row.job)]) = _
    rw [Transition.exec_append, hexec]
    exact Transition.exec_one hsettle
  · exact hbase.step _ _ _ hsettle
  · exact Function.update_self _ _ _
  · intro slot hmem
    obtain ⟨slot₀, hmem₀, rfl⟩ := (hbase.conclude_slot hw).mp hmem
    by_cases hk : slot₀.key = row.job.correlationId
    · rw [if_pos hk]
    · rw [if_neg hk]
      exact hfree slot₀ hmem₀ hk
  · -- the row of that key is the one that has been fetched
    have hattempt := attempt_committed hbase hw hf
    simp only [Commit.step] at hattempt
    rw [if_pos (hbase.job_committed hw), hf, Option.map_some, hcommitted] at hattempt
    rw [← Option.some.inj hattempt]
    refine List.map_congr_left fun row' hrow' => ?_
    obtain ⟨hmem, hpending⟩ := List.mem_filter.mp hrow
    by_cases hk : row'.correlationId = row.correlationId
    · have hnodup : (s.committed.map (·.correlationId)).Nodup := by
        rw [committed_keys h.base]
        exact h.base.keys
      obtain rfl : row' = row := List.inj_on_of_nodup_map hnodup hrow' hmem hk
      rw [if_pos rfl, settled, if_pos (of_decide_eq_true hpending), hf]
      exact if_pos rfl
    · rw [if_neg hk]
      exact if_neg hk

/-- A row that has been settled does not wait. -/
theorem settled_status {row : OutboundExtrinsic}
    (h : (settlement (clock row.job) row.job (outcome row.job)).isSome = true) :
    (settled outcome clock row).status ≠ .pending := by
  unfold settled
  by_cases hpending : row.status = .pending
  · rw [if_pos hpending]
    obtain ⟨f, hf⟩ := Option.isSome_iff_exists.mp h
    rw [hf]
    rcases settlement_cases hf with ⟨hash, -, rfl⟩ | ⟨err, cut, -, -, -, rfl⟩
    · exact OutboxStatus.noConfusion
    · show nextStatus row.job.retryCount ≠ .pending
      unfold nextStatus
      split <;> simp
  · rwa [if_neg hpending]

/-- Where one of the rows that wait has been settled, the others wait, and settling all of them comes
to the same. -/
theorem settle_one {rows : List OutboundExtrinsic} (hkeys : (rows.map (·.correlationId)).Nodup)
    {row : OutboundExtrinsic} (hrow : row ∈ rows) (hpending : row.status = .pending)
    (hsettles : (settlement (clock row.job) row.job (outcome row.job)).isSome = true)
    {rows' : List OutboundExtrinsic} (hrows' : rows' = rows.map fun row' =>
      if row'.correlationId = row.correlationId then settled outcome clock row else row') :
    (row :: rows'.filter fun row => row.status = .pending).Perm
        (rows.filter fun row => row.status = .pending) ∧
      rows'.map (settled outcome clock) = rows.map (settled outcome clock) := by
  have hne := settled_status hsettles
  obtain ⟨before, after, rfl⟩ := List.append_of_mem hrow
  -- no other row has its key
  rw [List.map_append, List.map_cons, List.nodup_middle, List.nodup_cons] at hkeys
  have hother : ∀ row' ∈ before ++ after, row'.correlationId ≠ row.correlationId := by
    intro row' hmem heq
    refine hkeys.1 ?_
    rw [← List.map_append, ← heq]
    exact List.mem_map.mpr ⟨row', hmem, rfl⟩
  have hkeep : ∀ l : List OutboundExtrinsic, (∀ row' ∈ l, row' ∈ before ++ after) →
      (l.map fun row' =>
        if row'.correlationId = row.correlationId then settled outcome clock row else row') = l := by
    intro l hl
    exact (List.map_congr_left fun row' h => if_neg (hother row' (hl row' h))).trans
      (List.map_id' l)
  have hsplit : rows' = before ++ settled outcome clock row :: after := by
    rw [hrows', List.map_append, List.map_cons, if_pos rfl,
      hkeep before fun _ h => List.mem_append_left _ h,
      hkeep after fun _ h => List.mem_append_right _ h]
  have hidem : settled outcome clock (settled outcome clock row) = settled outcome clock row :=
    if_neg hne
  subst hsplit
  constructor
  · rw [List.filter_append, List.filter_append, List.filter_cons_of_neg (by simpa using hne),
      List.filter_cons_of_pos (by simpa using hpending)]
    exact List.perm_middle.symm
  · rw [List.map_append, List.map_append, List.map_cons, List.map_cons, hidem]

/-- **The queue drains in order.** From every reachable state in which nobody holds a row, a worker
alone settles all the rows that wait, one iteration each and the oldest first, and leaves each of them
as its own submission makes it and every other row as it was; whatever the submissions return, short
of a connection error or an error that cannot be recorded. -/
theorem drains {tr : List (System × Label)} (hrun : Runs pg tr s) (hidle : s.workers w = .idle)
    (hfree : ∀ slot ∈ s.table, slot.lock = none)
    (hsettles : ∀ row ∈ s.waiting,
      (settlement (clock row.job) row.job (outcome row.job)).isSome = true) :
    ∃ (order : List OutboundExtrinsic) (t : System), order.Perm s.waiting ∧
      order.Pairwise (fun a b => a.createdAt ≤ b.createdAt) ∧
      Transition.exec (step pg) s (order.flatMap (iteration w outcome clock)) = some t ∧
      t.committed = s.committed.map (settled outcome clock) ∧ t.waiting = [] := by
  have hquiet : Quiet pg w s := ⟨Runs.invariant hrun, hidle, hfree⟩
  clear hrun hidle hfree
  -- one iteration for each row that waits
  generalize hn : s.waiting.length = n
  induction n generalizing s with
  | zero =>
      have hnil := List.eq_nil_of_length_eq_zero hn
      refine ⟨[], s, by rw [hnil], List.Pairwise.nil, rfl, ?_, hnil⟩
      refine ((List.map_congr_left fun row hrow => if_neg fun hpending => ?_).trans
        (List.map_id' _)).symm
      have hmem : row ∈ s.waiting := List.mem_filter.mpr ⟨hrow, decide_eq_true hpending⟩
      rw [hnil] at hmem
      cases hmem
  | succ n ih =>
      have hwaiting : s.waiting ≠ [] := List.ne_nil_of_length_eq_add_one hn
      obtain ⟨row, hrow, hle, u, hexec, hquiet', hcommitted⟩ := hquiet.iterate hwaiting hsettles
      obtain ⟨hmem, hpending⟩ := List.mem_filter.mp hrow
      have hkeys : (s.committed.map (·.correlationId)).Nodup := by
        rw [committed_keys hquiet.base]
        exact hquiet.base.keys
      obtain ⟨hperm, hsame⟩ := settle_one hkeys hmem (of_decide_eq_true hpending)
        (hsettles row hrow) hcommitted
      have hsub : ∀ row' ∈ u.waiting, row' ∈ s.waiting := fun row' hrow' =>
        hperm.mem_iff.mp (List.mem_cons_of_mem _ hrow')
      have hlength : u.waiting.length = n := by
        have := hperm.length_eq
        rw [List.length_cons] at this
        exact Nat.succ.inj (this.trans hn)
      obtain ⟨order, t, horder, hsorted, hrest, hrows, hnone⟩ :=
        ih (fun row' hrow' => hsettles row' (hsub row' hrow')) hquiet' hlength
      refine ⟨row :: order, t, (horder.cons row).trans hperm, ?_, ?_, hrows.trans hsame, hnone⟩
      · refine List.pairwise_cons.mpr ⟨fun row' hrow' => ?_, hsorted⟩
        exact hle row' (hsub row' (horder.mem_iff.mp hrow'))
      · rw [List.flatMap_cons, Transition.exec_append, hexec]
        exact hrest

/-- Two transfers, the second one enqueued at an earlier time. -/
def twoTransfers : List Label :=
  [.enqueue "c1" "Balances" "transfer_allow_death" transferPayload 1,
    .enqueue "c2" "Balances" "transfer_allow_death" transferPayload 0]

/-- The node refuses the first one. -/
def transferOutcome (job : Job) : Submission :=
  if job.correlationId = "c1" then .rejected "submit: Invalid Transaction" else .finalized "0xaa"

theorem twoTransfers_drain :
    ∃ tr s, Runs (.onValues []) tr s ∧ s.waiting.map (·.correlationId) = ["c1", "c2"] ∧
      ∃ (order : List OutboundExtrinsic) (t : System), order.Perm s.waiting ∧
        order.Pairwise (fun a b => a.createdAt ≤ b.createdAt) ∧
        Transition.exec (step (.onValues [])) s
          (order.flatMap (iteration 0 transferOutcome fun _ => 2)) = some t ∧
        t.committed.map (·.status) = [.failed, .finalized] := by
  have hexec : (Transition.exec (step (.onValues [])) System.init twoTransfers).any (fun s =>
      s.waiting.map (·.correlationId) = ["c1", "c2"] && (s.workers 0 = .idle &&
        ((s.table.all fun slot => slot.lock.isNone) &&
        ((s.waiting.all fun row =>
          (settlement 2 row.job (transferOutcome row.job)).isSome) &&
        (s.committed.map (settled transferOutcome fun _ => 2)).map (·.status) =
          [.failed, .finalized])))) = true := by decide
  obtain ⟨tr, s, hrun, hquiet⟩ := Transition.Run.reach_of_exec hexec
  simp only [Bool.and_eq_true, decide_eq_true_eq, List.all_eq_true] at hquiet
  obtain ⟨hwaiting, hidle, hfree, hsettles, hstatus⟩ := hquiet
  have hlock : ∀ slot ∈ s.table, slot.lock = none := fun slot hmem =>
    Option.isNone_iff_eq_none.mp (hfree slot hmem)
  obtain ⟨order, t, hperm, hsorted, hdrain, hrows, -⟩ :=
    @drains _ s 0 transferOutcome (fun _ => 2) tr hrun hidle hlock hsettles
  exact ⟨tr, s, hrun, hwaiting, order, t, hperm, hsorted, hdrain, by rw [hrows, hstatus]⟩

end Draining

end Ainur.Outbox
