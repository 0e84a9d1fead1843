import Ainur.Outbox.Integrity

set_option autoImplicit false

/-! # Attempts at an outbox row

What the invariant says about the number of attempts: how often one row can reach the chain, and
what becomes of the retry budget. An attempt whose transaction is rolled back leaves its row as
it found it, so the row is submitted again whether or not its extrinsic was included.
-/

namespace Ainur.Outbox

open RowLock

variable {pg : Jsonb} {s : System} {tr : List (System × Label)}

/-! ## Extrinsics of one row -/

/-- How many attempts at the row `key` put an extrinsic on the chain and were rolled back. -/
def rolledBackOf (attempts : List Attempt) (key : String) : Nat :=
  attempts.countP fun a => a.outcome.included && !a.committed && a.job.correlationId = key

/-- An attempt that put an extrinsic on the chain was committed or was rolled back. -/
theorem includedOf_le (attempts : List Attempt) (key : String) :
    includedOf attempts key ≤ (committedOf attempts key).length + rolledBackOf attempts key := by
  induction attempts with
  | nil => simp [includedOf]
  | cons a attempts ih =>
      by_cases hk : a.job.correlationId = key
      · cases hc : a.committed <;> cases hi : a.outcome.included <;>
          simp [includedOf, committedOf, rolledBackOf, hk, hc, hi] at ih ⊢ <;> omega
      · simpa [includedOf, committedOf, rolledBackOf, hk] using ih

/-- **A row reaches the chain once, and once more for each of its attempts that was included
and rolled back.** -/
theorem finalized_le_rolledBack (hrun : Runs pg tr s) (key : String) :
    s.chain.count key ≤ 1 + rolledBackOf s.attempts key := by
  have h := Runs.invariant hrun
  by_cases hkey : key ∈ s.table.keys
  · obtain ⟨slot, hmem, rfl⟩ := List.mem_map.mp hkey
    have hinv := h.slots slot hmem
    have hle := includedOf_le s.attempts slot.key
    have hopen : (committedOf s.attempts slot.key).length + s.inFlight slot ≤ 1 := by
      have hhist := hinv.history
      unfold System.inFlight
      split
      · next w v hlock =>
          obtain ⟨hnone, -⟩ := hhist.pending (hinv.ofWorker w v hlock).2.1
          have hflight : (s.workers w).inFlight ≤ 1 := by
            unfold Worker.inFlight
            split
            · split <;> omega
            · omega
          simpa [hnone] using hflight
      · generalize committedOf s.attempts slot.key = as at hhist
        cases hhist <;> simp
    have hsub := hinv.submissions
    omega
  · have hzero : s.chain.count key = 0 :=
      List.count_eq_zero.mpr fun hmem => hkey (h.knownChain key hmem)
    omega

/-- The transfer of `oneTransfer` whose watch broke after it was finalized. -/
def brokenWatch : List Label :=
  [.enqueue "c1" "Balances" "transfer_allow_death" transferPayload 0, .fetch 0, .take 0 (0, "c1"),
    .submit 0 (.unwatched "Connection closed"), .settle 0 9, .fetch 1, .take 1 (0, "c1"),
    .submit 1 (.finalized "0xaa"), .settle 1 9]

/-- **One row, two extrinsics on the chain**: the connection is lost while the first one is
watched, the row stays pending, and a second worker submits it again. -/
theorem brokenWatch_twice :
    ¬ ∀ (pg : Jsonb) (tr : List (System × Label)) (s : System), Runs pg tr s →
      ∀ key, s.chain.count key ≤ 1 := by
  intro hall
  have hexec : (Transition.exec (step (.onValues [])) System.init brokenWatch).any
      (fun s => decide (s.chain.count "c1" = 2)) = true := by decide
  obtain ⟨tr, s, hrun, htwo⟩ := Transition.Run.reach_of_exec hexec
  have hone := hall (.onValues []) tr s hrun "c1"
  have htwo' : s.chain.count "c1" = 2 := by simpa using htwo
  omega

/-- The bound is met there: one attempt was included and rolled back. -/
theorem brokenWatch_bound :
    ∃ tr s, Runs (.onValues []) tr s ∧ rolledBackOf s.attempts "c1" = 1 ∧
      s.chain.count "c1" ≤ 1 + rolledBackOf s.attempts "c1" := by
  have hexec : (Transition.exec (step (.onValues [])) System.init brokenWatch).any
      (fun s => decide (rolledBackOf s.attempts "c1" = 1)) = true := by decide
  obtain ⟨tr, s, hrun, hone⟩ := Transition.Run.reach_of_exec hexec
  exact ⟨tr, s, hrun, by simpa using hone, finalized_le_rolledBack hrun "c1"⟩

/-! ## The retry budget -/

/-- The attempt ended in an error that is no connection error. -/
def Attempt.failed (a : Attempt) : Bool :=
  match a.outcome.result with
  | .ok _ => false
  | .error err => !isConnectionErr err

/-- How many committed attempts at the row `key` failed for good. -/
def failedOf (attempts : List Attempt) (key : String) : Nat :=
  (committedOf attempts key).countP Attempt.failed

/-- No row is abandoned before its retry budget is spent. -/
structure RetryBudget (s : System) : Prop where
  fetched : ∀ slot ∈ s.table, slot.row.status ≠ .finalized → slot.row.status ≠ .dead →
    (slot.row.createdAt, slot.key) ∈ s.pendingRows
  counted : ∀ slot ∈ s.table, slot.row.retryCount = (committedOf s.attempts slot.key).length
  dead : ∀ slot ∈ s.table, slot.row.status = .dead ↔ failedOf s.attempts slot.key = 5

theorem mem_pendingRows (hkeys : s.table.keys.Nodup)
    {slot : Slot String OutboundExtrinsic Holder} (hmem : slot ∈ s.table) :
    (slot.row.createdAt, slot.key) ∈ s.pendingRows ↔ slot.row.status = .pending := by
  simp only [System.pendingRows, List.mem_map, List.mem_filter, decide_eq_true_eq, Prod.mk.injEq]
  constructor
  · rintro ⟨slot', ⟨hmem', hpending⟩, _, hkey⟩
    rwa [← Table.eq_of_key hkeys hmem' hmem hkey]
  · intro hpending
    exact ⟨slot, ⟨hmem, hpending⟩, rfl, rfl⟩

/-- The budget is kept exactly as long as no failure has been committed: the first one takes
its row out of the fetch query, with one attempt of five spent. -/
theorem Invariant.retryBudget_iff (h : Invariant pg s) :
    RetryBudget s ↔ ∀ a ∈ s.attempts, a.committed = true → a.failed = false := by
  -- by the history of each row, which has one committed attempt at most
  have hcounted : ∀ slot ∈ s.table,
      slot.row.retryCount = (committedOf s.attempts slot.key).length := by
    intro slot hmem
    have hhist := (h.slots slot hmem).history
    generalize committedOf s.attempts slot.key = as at hhist
    cases hhist with
    | untried _ _ hr => simpa using hr
    | finalized _ _ _ hr _ => simpa using hr
    | failed _ _ _ _ hr _ => simpa using hr
  have hdead : ∀ slot ∈ s.table,
      (slot.row.status = .dead ↔ failedOf s.attempts slot.key = 5) := by
    intro slot hmem
    have hhist := (h.slots slot hmem).history
    unfold failedOf
    generalize committedOf s.attempts slot.key = as at hhist
    have hlen : as.length ≤ 1 := by cases hhist <;> simp
    have hfew : as.countP Attempt.failed ≤ 1 := Nat.le_trans List.countP_le_length hlen
    have hnot : slot.row.status ≠ .dead := by
      cases hhist with
      | untried hs _ _ => simp [hs]
      | finalized _ hs _ _ _ => simp [hs]
      | failed _ _ hs _ _ _ => simp [hs]
    refine iff_of_false hnot (by omega)
  have hrow : ∀ slot ∈ s.table, slot.row.status = .failed ↔
      ∃ a ∈ committedOf s.attempts slot.key, a.failed = true := by
    intro slot hmem
    have hhist := (h.slots slot hmem).history
    generalize committedOf s.attempts slot.key = as at hhist
    cases hhist with
    | untried hs _ _ => simp [hs]
    | finalized ho hs _ _ _ => simp [hs, Attempt.failed, ho, Submission.result]
    | failed ho hc hs _ _ _ => simp [hs, Attempt.failed, ho, hc]
  constructor
  · intro hbudget a ha hcommitted
    obtain ⟨slot, hmem, hkey⟩ := List.mem_map.mp (h.knownAttempts a ha)
    by_contra hfailed
    -- the first failure has made the row failed, and such a row is not fetched
    have hs : slot.row.status = .failed :=
      (hrow slot hmem).mpr ⟨a, List.mem_filter.mpr ⟨ha, by simp [hcommitted, hkey]⟩,
        by simpa using hfailed⟩
    have hpending := (mem_pendingRows h.keys hmem).mp
      (hbudget.fetched slot hmem (by simp [hs]) (by simp [hs]))
    rw [hs] at hpending
    cases hpending
  · intro hall
    refine ⟨fun slot hmem hfin hdead' => ?_, hcounted, hdead⟩
    rw [mem_pendingRows h.keys hmem]
    have hnot : slot.row.status ≠ .failed := by
      rw [Ne, hrow slot hmem]
      rintro ⟨a, ha, hfailed⟩
      obtain ⟨hmema, hcond⟩ := List.mem_filter.mp ha
      have hcommitted : a.committed = true := by
        rw [Bool.and_eq_true] at hcond
        exact hcond.1
      rw [hall a hmema hcommitted] at hfailed
      cases hfailed
    cases hs : slot.row.status with
    | pending => rfl
    | finalized => exact absurd hs hfin
    | failed => exact absurd hs hnot
    | dead => exact absurd hs hdead'

/-- The step commits a failure: the submission returned an error that is no connection error and
that can be truncated. -/
def CommitsFailure (s : System) (l : Label) : Prop :=
  ∃ w now job outcome err, l = .settle w now ∧ s.workers w = .returned job outcome ∧
    outcome.result = .error err ∧ isConnectionErr err = false ∧ (truncateErr err).isSome = true

/-- Only the end of an attempt adds to the record of the attempts. -/
theorem step_attempts {l : Label} {t : System} (hstep : step pg s l = some t) :
    t.attempts = s.attempts ∨
      (∃ w now job outcome, l = .settle w now ∧ s.workers w = .returned job outcome ∧
        t.attempts = ⟨job, outcome, (settlement now job outcome).isSome⟩ :: s.attempts) ∨
      ∃ w job outcome, l = .crash w ∧ s.workers w = .returned job outcome ∧
        t.attempts = ⟨job, outcome, false⟩ :: s.attempts := by
  cases l with
  | enqueue correlationId pallet call payload now =>
      obtain ⟨_, rfl⟩ := step_enqueue.mp hstep
      exact Or.inl rfl
  | fetch w =>
      obtain ⟨_, rfl⟩ := step_fetch.mp hstep
      exact Or.inl rfl
  | skip w cand =>
      obtain ⟨_, _, _, rfl⟩ := step_skip.mp hstep
      exact Or.inl rfl
  | take w cand =>
      obtain ⟨_, _, _, _, rfl⟩ := step_take.mp hstep
      exact Or.inl rfl
  | noJob w =>
      obtain ⟨_, rfl⟩ := step_noJob.mp hstep
      exact Or.inl rfl
  | submit w outcome =>
      obtain ⟨_, _, rfl⟩ := step_submit.mp hstep
      exact Or.inl rfl
  | settle w now =>
      obtain ⟨job, outcome, hw, rfl⟩ := step_settle.mp hstep
      exact Or.inr (Or.inl ⟨w, now, job, outcome, rfl, hw, rfl⟩)
  | crash w =>
      rcases step_crash.mp hstep with ⟨_, _, rfl⟩ | ⟨job, outcome, hw, rfl⟩
      · exact Or.inl rfl
      · exact Or.inr (Or.inr ⟨w, job, outcome, rfl, hw, rfl⟩)
  | execute q update =>
      obtain ⟨_, rfl⟩ := step_execute.mp hstep
      exact Or.inl rfl
  | change q correlationId =>
      obtain ⟨_, _, _, _, rfl⟩ := step_change.mp hstep
      exact Or.inl rfl
  | pass q correlationId =>
      obtain ⟨_, _, _, _, rfl⟩ := step_pass.mp hstep
      exact Or.inl rfl
  | finish q =>
      obtain ⟨_, _, rfl⟩ := step_finish.mp hstep
      exact Or.inl rfl
  | abort q =>
      obtain ⟨_, _, rfl⟩ := step_abort.mp hstep
      exact Or.inl rfl

/-- An attempt that ends is a committed failure exactly when its error is no connection error
and can be truncated. -/
theorem settlement_failed (now : Nat) (job : Job) (outcome : Submission) :
    ((settlement now job outcome).isSome = true ∧
        Attempt.failed ⟨job, outcome, (settlement now job outcome).isSome⟩ = true) ↔
      ∃ err, outcome.result = .error err ∧ isConnectionErr err = false ∧
        (truncateErr err).isSome = true := by
  unfold Attempt.failed settlement
  cases hres : outcome.result with
  | ok hash => simp
  | error err => cases hconn : isConnectionErr err <;> simp [hconn]

/-- A step that keeps the budget so far keeps it exactly when it commits no failure. -/
theorem Invariant.step_retryBudget {l : Label} {t : System} (h : Invariant pg s)
    (hbudget : RetryBudget s) (hstep : Outbox.step pg s l = some t) :
    RetryBudget t ↔ ¬ CommitsFailure s l := by
  rw [(h.step s l t hstep).retryBudget_iff]
  have hold := h.retryBudget_iff.mp hbudget
  rcases step_attempts hstep with hsame | ⟨w, now, job, outcome, rfl, hw, hnew⟩ |
      ⟨w, job, outcome, rfl, hw, hnew⟩
  · rw [hsame]
    refine iff_of_true hold ?_
    rintro ⟨w, now, job, outcome, err, rfl, hw, hres, hconn, htrunc⟩
    obtain ⟨job', outcome', hw', rfl⟩ := step_settle.mp hstep
    have hlen := congrArg List.length hsame
    simp [System.conclude] at hlen
  · have hcommits : CommitsFailure s (.settle w now) ↔
        ∃ err, outcome.result = .error err ∧ isConnectionErr err = false ∧
          (truncateErr err).isSome = true := by
      constructor
      · rintro ⟨w', now', job', outcome', err, hl, hw', hrest⟩
        obtain ⟨rfl, -⟩ := Label.settle.inj hl
        rw [hw] at hw'
        obtain ⟨rfl, rfl⟩ : job = job' ∧ outcome = outcome' := by simpa using hw'
        exact ⟨err, hrest⟩
      · rintro ⟨err, hrest⟩
        exact ⟨w, now, job, outcome, err, rfl, hw, hrest⟩
    rw [hcommits, ← settlement_failed now job outcome, hnew]
    simp only [List.mem_cons, forall_eq_or_imp, not_and, Bool.not_eq_true]
    exact and_iff_left hold
  · rw [hnew]
    refine iff_of_true ?_ ?_
    · intro a ha hcommitted
      rcases List.mem_cons.mp ha with rfl | ha
      · cases hcommitted
      · exact hold a ha hcommitted
    · rintro ⟨_, _, _, _, _, hl, _⟩
      cases hl

theorem RetryBudget.init : RetryBudget System.init where
  fetched slot hmem := by cases hmem
  counted slot hmem := by cases hmem
  dead slot hmem := by cases hmem

/-- **The retry budget holds in every state of a run exactly when no step of the run commits a
failure.** -/
theorem retryBudget_iff_noFailure (hrun : Runs pg tr s) :
    Transition.Always RetryBudget tr s ↔
      Transition.EachStep (fun s l => ¬ CommitsFailure s l) tr :=
  Transition.Run.always_iff Invariant.init RetryBudget.init Invariant.step
    (fun _ _ _ h hbudget hstep => h.step_retryBudget hbudget hstep) hrun

/-- The transfer of `oneTransfer` goes through within its budget. -/
theorem oneTransfer_retryBudget :
    ∃ tr s, Runs (.onValues []) tr s ∧ s.chain = ["c1"] ∧
      (Transition.Always RetryBudget tr s ↔
        Transition.EachStep (fun s l => ¬ CommitsFailure s l) tr) := by
  have hexec : (Transition.exec (step (.onValues [])) System.init oneTransfer).any
      (fun s => decide (s.chain = ["c1"])) = true := by decide
  obtain ⟨tr, s, hrun, hchain⟩ := Transition.Run.reach_of_exec hexec
  exact ⟨tr, s, hrun, by simpa using hchain, retryBudget_iff_noFailure hrun⟩

/-- A transfer that the node refuses once. -/
def refusedTransfer : List Label :=
  [.enqueue "c1" "Balances" "transfer_allow_death" transferPayload 0, .fetch 0, .take 0 (0, "c1"),
    .submit 0 (.rejected "Priority is too low"), .settle 0 9]

/-- **One failure of five, and the row is never fetched again**: it is neither finalized nor
dead, and the fetch query does not match it. -/
theorem refusedTransfer_abandoned :
    ¬ ∀ (pg : Jsonb) (tr : List (System × Label)) (s : System), Runs pg tr s →
      RetryBudget s := by
  intro hall
  have hexec : (Transition.exec (step (.onValues [])) System.init refusedTransfer).any
      (fun s => s.table.any (fun slot => slot.row.status = .failed) && s.pendingRows.isEmpty)
        = true := by decide
  obtain ⟨tr, s, hrun, hfailed⟩ := Transition.Run.reach_of_exec hexec
  rw [Bool.and_eq_true, List.any_eq_true, List.isEmpty_iff] at hfailed
  obtain ⟨⟨slot, hmem, hs⟩, hnone⟩ := hfailed
  have hstatus : slot.row.status = .failed := by simpa using hs
  have hfetched := (hall (.onValues []) tr s hrun).fetched slot hmem (by simp [hstatus])
    (by simp [hstatus])
  rw [hnone] at hfetched
  cases hfetched

end Ainur.Outbox
