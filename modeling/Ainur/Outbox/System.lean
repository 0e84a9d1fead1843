import Ainur.Lib.RowLock
import Ainur.Lib.Run
import Ainur.Outbox.Row
import Mathlib.Logic.Function.Basic

set_option autoImplicit false

/-! # The outbox and everything that writes it

The state machine of `outbound_extrinsics`: API handlers enqueue, any number of `run_outbox`
workers fetch, submit and settle, and any number of statements of the replay worker, of
`patch_pending_with_ids` and of `backfill_once` run beside them. Rows are locked as Postgres locks
them: a worker holds its row from the fetch to the commit, an update holds every row it has
changed until it ends, and both look at the committed version of a row once more when they reach
it.

What the outside decides is in the label: the outcome of a submission, the moment a process stops
or a statement fails, and the order of all of it. `chain` and `attempts` are not part of the
program; they record what happened.
-/

namespace Ainur.Outbox

open RowLock

/-- What one call of `submit_extrinsic` did and returned. -/
inductive Submission where
  /-- Included and finalized, and the hash returned. -/
  | finalized (hash : String)
  /-- Included and finalized, but the watch broke and an error was returned. -/
  | unwatched (err : String)
  /-- Nothing included, and an error returned. -/
  | rejected (err : String)
  deriving DecidableEq, Repr

def Submission.result : Submission → Except String String
  | .finalized hash => .ok hash
  | .unwatched err => .error err
  | .rejected err => .error err

def Submission.included : Submission → Bool
  | .finalized _ => true
  | .unwatched _ => true
  | .rejected _ => false

/-- What `run_outbox` writes to the row once `submit_extrinsic` has returned; `none` where it
rolls back, on a connection error, or panics in the truncation of the error. `now` is the time at
which its transaction began. -/
def settlement (now : Nat) (job : Job) (outcome : Submission) :
    Option (OutboundExtrinsic → OutboundExtrinsic) :=
  match outcome.result with
  | .ok hash => some (.finalize hash now)
  | .error err =>
      if isConnectionErr err then none
      else (truncateErr err).map fun cut => .fail (nextStatus job.retryCount) cut now

section Settlement

variable {now : Nat} {job : Job} {outcome : Submission} {f : OutboundExtrinsic → OutboundExtrinsic}

/-- The two updates of `run_outbox`. -/
theorem settlement_cases (hf : settlement now job outcome = some f) :
    (∃ hash, outcome.result = .ok hash ∧ f = .finalize hash now) ∨
      ∃ err cut, outcome.result = .error err ∧ isConnectionErr err = false ∧
        truncateErr err = some cut ∧ f = .fail (nextStatus job.retryCount) cut now := by
  unfold settlement at hf
  cases hresult : outcome.result with
  | ok hash =>
      simp only [hresult, Option.some.injEq] at hf
      exact Or.inl ⟨hash, rfl, hf.symm⟩
  | error err =>
      simp only [hresult] at hf
      split at hf
      · cases hf
      · next hconn =>
          obtain ⟨cut, hcut, rfl⟩ := Option.map_eq_some_iff.mp hf
          exact Or.inr ⟨err, cut, rfl, by simpa using hconn, hcut, rfl⟩

theorem settlement_correlationId (hf : settlement now job outcome = some f)
    (row : OutboundExtrinsic) : (f row).correlationId = row.correlationId := by
  rcases settlement_cases hf with ⟨_, _, rfl⟩ | ⟨_, _, _, _, _, rfl⟩
  · rfl
  · rfl

theorem settlement_createdAt (hf : settlement now job outcome = some f)
    (row : OutboundExtrinsic) : (f row).createdAt = row.createdAt := by
  rcases settlement_cases hf with ⟨_, _, rfl⟩ | ⟨_, _, _, _, _, rfl⟩
  · rfl
  · rfl

end Settlement

/-- Where a worker is in the loop of `run_outbox`. -/
inductive Worker where
  | idle
  /-- The fetch query runs; what is left of the pending rows it saw, with their `created_at`. -/
  | scanning (cands : List (Nat × String))
  /-- `submit_extrinsic` runs on the fetched job. -/
  | submitting (job : Job)
  /-- It has returned, and the transaction is still open. -/
  | returned (job : Job) (outcome : Submission)
  deriving DecidableEq, Repr

/-- The job of a worker between fetch and commit. -/
def Worker.job : Worker → Option Job
  | .idle => none
  | .scanning _ => none
  | .submitting job => some job
  | .returned job _ => some job

/-- How many extrinsics of its open attempt are on the chain. -/
def Worker.inFlight : Worker → Nat
  | .returned _ outcome => if outcome.included then 1 else 0
  | _ => 0

/-- An update that runs, and the rows of its snapshot that it has yet to reach. -/
structure Statement where
  update : Update
  remaining : List String
  deriving DecidableEq, Repr

/-- The transactions. -/
inductive Holder where
  | worker (w : Nat)
  | statement (q : Nat)
  deriving DecidableEq, Repr

/-- One attempt at a row, once its transaction has ended. -/
structure Attempt where
  job : Job
  outcome : Submission
  committed : Bool
  deriving DecidableEq, Repr

structure System where
  table : Table String OutboundExtrinsic Holder
  workers : Nat → Worker
  statements : Nat → Option Statement
  /-- The correlation ids of the finalized extrinsics, latest first. -/
  chain : List String
  /-- The attempts that have ended, latest first. -/
  attempts : List Attempt

namespace System

def init : System where
  table := []
  workers _ := .idle
  statements _ := none
  chain := []
  attempts := []

def setWorker (s : System) (w : Nat) (state : Worker) : System :=
  { s with workers := Function.update s.workers w state }

def setStatement (s : System) (q : Nat) (state : Option Statement) : System :=
  { s with statements := Function.update s.statements q state }

/-- The rows that the fetch query sees: committed and pending. -/
def pendingRows (s : System) : List (Nat × String) :=
  (s.table.filter fun slot => slot.row.status = .pending).map
    fun slot => (slot.row.createdAt, slot.key)

/-- The end of the attempt of worker `w`: its settlement written and committed, or nothing. -/
def conclude (s : System) (w : Nat) (job : Job) (outcome : Submission)
    (write : Option (OutboundExtrinsic → OutboundExtrinsic)) : System :=
  { s with
    table :=
      match write with
      | some f =>
          (s.table.modify job.correlationId (Slot.write (.worker w) f)).commit (.worker w)
      | none => s.table.rollback (.worker w)
    workers := Function.update s.workers w .idle
    attempts := ⟨job, outcome, write.isSome⟩ :: s.attempts }

end System

inductive Label where
  /-- `record_outbound_extrinsic` with a fresh correlation id. -/
  | enqueue (correlationId pallet call : String) (payload : Option String) (now : Nat)
  /-- A worker begins a transaction and runs the fetch query. -/
  | fetch (w : Nat)
  /-- The oldest row left is locked by another, or no longer pending: `SKIP LOCKED`. -/
  | skip (w : Nat) (cand : Nat × String)
  /-- The oldest row left is locked and returned: `LIMIT 1`. -/
  | take (w : Nat) (cand : Nat × String)
  /-- The query found no row. -/
  | noJob (w : Nat)
  | submit (w : Nat) (outcome : Submission)
  /-- `now` is the time at which the worker's transaction began. -/
  | settle (w now : Nat)
  /-- The worker stops, or its update or its commit fails. -/
  | crash (w : Nat)
  /-- A statement of another writer takes its snapshot. -/
  | execute (q : Nat) (update : Update)
  /-- It changes a row of its snapshot. -/
  | change (q : Nat) (correlationId : String)
  /-- It finds that a row of its snapshot does not fit any more. -/
  | pass (q : Nat) (correlationId : String)
  | finish (q : Nat)
  /-- It fails, or its process stops. -/
  | abort (q : Nat)
  deriving Repr

/-- The fetch query takes the pending rows by `created_at`. -/
def isOldest (cand : Nat × String) (cands : List (Nat × String)) : Bool :=
  cands.contains cand && cands.all fun c => cand.1 ≤ c.1

/-- A row that the fetch query locks and returns. -/
def isFree (slot : Slot String OutboundExtrinsic Holder) : Bool :=
  slot.lock.isNone && slot.row.status = .pending

/-- What a label does, where it is enabled. -/
def step (pg : Jsonb) (s : System) : Label → Option System
  | .enqueue correlationId pallet call payload now =>
      let row := OutboundExtrinsic.insert correlationId pallet call payload .pending now
      if correlationId ∉ s.table.keys ∧ row.checks then
        some { s with table := s.table ++ [⟨correlationId, row, none⟩] }
      else none
  | .fetch w =>
      match s.workers w with
      | .idle => some (s.setWorker w (.scanning s.pendingRows))
      | _ => none
  | .skip w cand =>
      match s.workers w with
      | .scanning cands =>
          if isOldest cand cands ∧ (s.table.find cand.2).all fun slot => !isFree slot then
            some (s.setWorker w (.scanning (cands.erase cand)))
          else none
      | _ => none
  | .take w cand =>
      match s.workers w, s.table.find cand.2 with
      | .scanning cands, some slot =>
          if isOldest cand cands ∧ isFree slot then
            some { s.setWorker w (.submitting slot.row.job) with
              table := s.table.modify cand.2 (Slot.write (.worker w) id) }
          else none
      | _, _ => none
  | .noJob w =>
      match s.workers w with
      | .scanning [] => some (s.setWorker w .idle)
      | _ => none
  | .submit w outcome =>
      match s.workers w with
      | .submitting job =>
          some { s.setWorker w (.returned job outcome) with
            chain := if outcome.included then job.correlationId :: s.chain else s.chain }
      | _ => none
  | .settle w now =>
      match s.workers w with
      | .returned job outcome => some (s.conclude w job outcome (settlement now job outcome))
      | _ => none
  | .crash w =>
      match s.workers w with
      | .scanning _ => some (s.setWorker w .idle)
      | .returned job outcome => some (s.conclude w job outcome none)
      | _ => none
  | .execute q update =>
      if s.statements q = none ∧ s.table.all fun slot => (update.applies pg slot.row).isSome then
        some (s.setStatement q (some ⟨update,
          (s.table.filter fun slot => update.applies pg slot.row = some true).map Slot.key⟩))
      else none
  | .change q correlationId =>
      match s.statements q, s.table.find correlationId with
      | some st, some slot =>
          if correlationId ∈ st.remaining ∧ slot.lock.isNone ∧
              st.update.applies pg slot.row = some true ∧ (st.update.set pg slot.row).checks then
            some { s.setStatement q (some ⟨st.update, st.remaining.erase correlationId⟩) with
              table := s.table.modify correlationId
                (Slot.write (.statement q) (st.update.set pg)) }
          else none
      | _, _ => none
  | .pass q correlationId =>
      match s.statements q, s.table.find correlationId with
      | some st, some slot =>
          if correlationId ∈ st.remaining ∧ slot.lock.isNone ∧
              st.update.applies pg slot.row = some false then
            some (s.setStatement q (some ⟨st.update, st.remaining.erase correlationId⟩))
          else none
      | _, _ => none
  | .finish q =>
      match s.statements q with
      | some ⟨_, []⟩ => some { s.setStatement q none with table := s.table.commit (.statement q) }
      | _ => none
  | .abort q =>
      match s.statements q with
      | some _ => some { s.setStatement q none with table := s.table.rollback (.statement q) }
      | none => none

/-- The states that the outbox can reach. -/
abbrev Runs (pg : Jsonb) (tr : List (System × Label)) (s : System) : Prop :=
  Transition.Run (step pg) System.init tr s

/-! ## What a step can do

One lemma for each kind of label: when it is enabled and the state it leaves.
-/

section Steps

variable {pg : Jsonb} {s t : System}

theorem step_enqueue {correlationId pallet call : String} {payload : Option String} {now : Nat} :
    step pg s (.enqueue correlationId pallet call payload now) = some t ↔
      (correlationId ∉ s.table.keys ∧
        (OutboundExtrinsic.insert correlationId pallet call payload .pending now).checks) ∧
        { s with
          table := s.table ++ [⟨correlationId,
            OutboundExtrinsic.insert correlationId pallet call payload .pending now, none⟩] }
          = t := by
  simp only [step, Option.ite_none_right_eq_some, Option.some.injEq]

theorem step_fetch {w : Nat} :
    step pg s (.fetch w) = some t ↔
      s.workers w = .idle ∧ s.setWorker w (.scanning s.pendingRows) = t := by
  simp only [step]
  split
  · next h => simp [h]
  · next h => exact iff_of_false (by simp) fun ⟨hw, _⟩ => h hw

theorem step_skip {w : Nat} {cand : Nat × String} :
    step pg s (.skip w cand) = some t ↔
      ∃ cands, s.workers w = .scanning cands ∧ (isOldest cand cands = true ∧
        ((s.table.find cand.2).all fun slot => !isFree slot) = true) ∧
        s.setWorker w (.scanning (cands.erase cand)) = t := by
  simp only [step]
  split
  · next cands h => simp [h]
  · next h => exact iff_of_false (by simp) fun ⟨cands, hw, _⟩ => h cands hw

theorem step_take {w : Nat} {cand : Nat × String} :
    step pg s (.take w cand) = some t ↔
      ∃ cands slot, (s.workers w = .scanning cands ∧ s.table.find cand.2 = some slot) ∧
        (isOldest cand cands = true ∧ isFree slot = true) ∧
        { s.setWorker w (.submitting slot.row.job) with
          table := s.table.modify cand.2 (Slot.write (.worker w) id) } = t := by
  simp only [step]
  split
  · next cands slot hw hf => simp [hw, hf]
  · next h => exact iff_of_false (by simp) fun ⟨cands, slot, ⟨hw, hf⟩, _⟩ => h cands slot hw hf

theorem step_noJob {w : Nat} :
    step pg s (.noJob w) = some t ↔ s.workers w = .scanning [] ∧ s.setWorker w .idle = t := by
  simp only [step]
  split
  · next h => simp [h]
  · next h => exact iff_of_false (by simp) fun ⟨hw, _⟩ => h hw

theorem step_submit {w : Nat} {outcome : Submission} :
    step pg s (.submit w outcome) = some t ↔
      ∃ job, s.workers w = .submitting job ∧
        { s.setWorker w (.returned job outcome) with
          chain := if outcome.included then job.correlationId :: s.chain else s.chain } = t := by
  simp only [step]
  split
  · next job h => simp [h]
  · next h => exact iff_of_false (by simp) fun ⟨job, hw, _⟩ => h job hw

theorem step_settle {w now : Nat} :
    step pg s (.settle w now) = some t ↔
      ∃ job outcome, s.workers w = .returned job outcome ∧
        s.conclude w job outcome (settlement now job outcome) = t := by
  simp only [step]
  split
  · next job outcome h => simp [h]
  · next h => exact iff_of_false (by simp) fun ⟨job, outcome, hw, _⟩ => h job outcome hw

theorem step_crash {w : Nat} :
    step pg s (.crash w) = some t ↔
      (∃ cands, s.workers w = .scanning cands ∧ s.setWorker w .idle = t) ∨
        ∃ job outcome, s.workers w = .returned job outcome ∧
          s.conclude w job outcome none = t := by
  simp only [step]
  split
  · next cands h => simp [h]
  · next job outcome h => simp [h]
  · next h h' =>
      refine iff_of_false (by simp) ?_
      rintro (⟨cands, hw, _⟩ | ⟨job, outcome, hw, _⟩)
      · exact h cands hw
      · exact h' job outcome hw

theorem step_execute {q : Nat} {update : Update} :
    step pg s (.execute q update) = some t ↔
      (s.statements q = none ∧
        (s.table.all fun slot => (update.applies pg slot.row).isSome) = true) ∧
        s.setStatement q (some ⟨update,
          (s.table.filter fun slot => update.applies pg slot.row = some true).map Slot.key⟩)
          = t := by
  simp only [step, Option.ite_none_right_eq_some, Option.some.injEq]

theorem step_change {q : Nat} {correlationId : String} :
    step pg s (.change q correlationId) = some t ↔
      ∃ st slot, (s.statements q = some st ∧ s.table.find correlationId = some slot) ∧
        (correlationId ∈ st.remaining ∧ slot.lock.isNone ∧
          st.update.applies pg slot.row = some true ∧
          (st.update.set pg slot.row).checks = true) ∧
        { s.setStatement q (some ⟨st.update, st.remaining.erase correlationId⟩) with
          table := s.table.modify correlationId
            (Slot.write (.statement q) (st.update.set pg)) } = t := by
  simp only [step]
  split
  · next st slot hs hf => simp [hs, hf]
  · next h => exact iff_of_false (by simp) fun ⟨st, slot, ⟨hs, hf⟩, _⟩ => h st slot hs hf

theorem step_pass {q : Nat} {correlationId : String} :
    step pg s (.pass q correlationId) = some t ↔
      ∃ st slot, (s.statements q = some st ∧ s.table.find correlationId = some slot) ∧
        (correlationId ∈ st.remaining ∧ slot.lock.isNone ∧
          st.update.applies pg slot.row = some false) ∧
        s.setStatement q (some ⟨st.update, st.remaining.erase correlationId⟩) = t := by
  simp only [step]
  split
  · next st slot hs hf => simp [hs, hf]
  · next h => exact iff_of_false (by simp) fun ⟨st, slot, ⟨hs, hf⟩, _⟩ => h st slot hs hf

theorem step_finish {q : Nat} :
    step pg s (.finish q) = some t ↔
      ∃ update, s.statements q = some ⟨update, []⟩ ∧
        { s.setStatement q none with table := s.table.commit (.statement q) } = t := by
  simp only [step]
  split
  · next update h => simp [h]
  · next h => exact iff_of_false (by simp) fun ⟨update, hs, _⟩ => h update hs

theorem step_abort {q : Nat} :
    step pg s (.abort q) = some t ↔
      ∃ st, s.statements q = some st ∧
        { s.setStatement q none with table := s.table.rollback (.statement q) } = t := by
  simp only [step]
  split
  · next st h => simp [h]
  · next h => simp [h]

end Steps

end Ainur.Outbox
