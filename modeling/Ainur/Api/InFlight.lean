import Ainur.Lib.Run
import Ainur.Api.Handlers

set_option autoImplicit false

/-! # Handlers in flight

`register_agent`, `submit_task`, `submit_bid`, `submit_result` and `execute_task_local` one storage
call at a time. Between two calls a handler holds what it has read or built, and any number of
handlers may be between two calls of theirs. A handler that runs without the others does what its
program in `Ainur.Api.Handlers` does.
-/

namespace Ainur.InFlight

open Faulty

/-! ## Calls -/

/-- A request to one of the handlers. -/
inductive Arrival where
  | registerAgent (payload : AgentRegistrationRequest)
  | submitTask (payload : TaskSubmissionRequest)
  | submitBid (payload : BidSubmissionRequest)
  | submitResult (payload : ResultSubmissionRequest)
  | executeTaskLocal (id : String)

/-- The next storage call of a handler, with what the handler holds. -/
inductive Flight where
  | registerAgent (agent : AgentRegistrationRequest)
  | insertTask (stored : StoredTask)
  /-- `get_task` of `submit_bid`. -/
  | readForBid (draws : Draws) (payload : BidSubmissionRequest)
  | insertBid (stored : StoredBid)
  /-- `get_task` of `submit_result`. -/
  | readForResult (draws : Draws) (payload : ResultSubmissionRequest)
  /-- `get_task` of `execute_task_local`. -/
  | readToExecute (draws : Draws) (id : String)
  /-- `task` is the copy that was read; it is written back as completed. -/
  | upsertTask (task : StoredTask) (stored : StoredResult)
  | insertResult (stored : StoredResult)

/-- What follows a write. -/
def written (s : Store) (x : Except ApiError (Unit × Store)) (next : Option Flight) :
    Store × Option Flight :=
  match x with
  | .ok (_, s') => (s', next)
  | .error _ => (s, none)

/-- What follows a read. -/
def whenRead (s : Store) (x : Except ApiError StoredTask) (next : StoredTask → Option Flight) :
    Store × Option Flight :=
  match x with
  | .ok task => (s, next task)
  | .error _ => (s, none)

/-- Nothing follows the last write. -/
theorem written_none {s : Store} {x : Except ApiError (Unit × Store)} :
    (written s x none).2 = none := by
  cases x <;> rfl

/-- A read leaves the store alone. -/
theorem whenRead_store {s : Store} {x : Except ApiError StoredTask}
    {next : StoredTask → Option Flight} : (whenRead s x next).1 = s := by
  cases x <;> rfl

theorem whenRead_next {s : Store} {x : Except ApiError StoredTask}
    {next : StoredTask → Option Flight} {f : Flight} (h : (whenRead s x next).2 = some f) :
    ∃ task, next task = some f := by
  cases x with
  | ok task => exact ⟨task, h⟩
  | error e => cases h

section Calls

variable (lib : Libraries) (engine : ExecutionEngine)

/-- The first call of a request, its checks passed. -/
def Flight.start (draws : Draws) : Arrival → Option Flight
  | .registerAgent payload =>
      if isBlank payload.id || isBlank payload.label then none else some (.registerAgent payload)
  | .submitTask payload => (StoredTask.fromSubmission lib draws payload).toOption.map .insertTask
  | .submitBid payload => some (.readForBid draws payload)
  | .submitResult payload => some (.readForResult draws payload)
  | .executeTaskLocal id => some (.readToExecute draws id)

/-- A call: the store after it and the next call. A handler is done with the storage after its last
write, and where a call or what it builds from it is an error. -/
def Flight.advance (s : Store) : Flight → Store × Option Flight
  | .registerAgent agent => written s (s.registerAgent agent) none
  | .insertTask stored => written s (s.insertTask lib stored) none
  | .readForBid draws payload => whenRead s (s.task lib payload.taskId) fun task =>
      (StoredBid.fromSubmission lib draws payload task).toOption.map .insertBid
  | .insertBid stored => written s (s.insertBid lib stored) none
  | .readForResult draws payload => whenRead s (s.task lib payload.taskId) fun task =>
      (StoredResult.fromSubmission lib draws payload task).toOption.map (.upsertTask task)
  | .readToExecute draws id => whenRead s (s.task lib id) fun task =>
      (executeAndBuildResult lib draws engine task "local-echo").toOption.map (.upsertTask task)
  | .upsertTask task stored =>
      written s (s.upsertTask lib { task with status := .completed }) (some (.insertResult stored))
  | .insertResult stored => written s (s.insertResult lib stored) none

/-- The calls of a handler that runs alone, as long as they proceed. -/
def alone (fates : Nat → Fate ApiError) : Nat → Nat → Store → Option Flight → Store
  | 0, _, s, _ => s
  | _ + 1, _, s, none => s
  | fuel + 1, n, s, some f =>
      match fates n with
      | .proceed =>
          alone fates fuel (n + 1) (f.advance lib engine s).1 (f.advance lib engine s).2
      | _ => s

end Calls

/-! ### A handler alone -/

section Alone

variable {lib : Libraries} {engine : ExecutionEngine} {draws : Draws}
variable {fates : Nat → Fate ApiError} {n : Nat} {s : Store}

@[simp] theorem alone_none (fuel : Nat) : alone lib engine fates fuel n s none = s := by
  cases fuel <;> rfl

/-- What a handler does after its storage calls leaves the store alone. -/
theorem keeps_alone {α : Type} {m : Handler α} (hm : Request.Keeps id m) (fuel : Nat) :
    (m fates n s).2.2 = alone lib engine fates fuel n s none := by
  rw [alone_none]
  exact hm fates n s

theorem call_alone {α β : Type} {op : Store.Call α} {rest : α → Handler β} {f : Flight}
    {fuel : Nat}
    (hok : ∀ a s', op s = .ok (a, s') → (f.advance lib engine s).1 = s' ∧
      (rest a fates (n + 1) s').2.2 =
        alone lib engine fates fuel (n + 1) s' (f.advance lib engine s).2)
    (herr : ∀ e, op s = .error e → f.advance lib engine s = (s, none)) :
    ((Request.call op >>= rest) fates n s).2.2 =
      alone lib engine fates (fuel + 1) n s (some f) := by
  rw [Request.call_bind, alone]
  cases fates n with
  | proceed =>
      cases hop : op s with
      | ok r =>
          obtain ⟨hstore, hrest⟩ := hok r.1 r.2 hop
          rw [hstore]
          exact hrest
      | error e => simp [herr e hop]
  | fail e => rfl
  | stop => rfl

/-- A write and the rest of the handler. -/
theorem write_alone {β : Type} {op : Store.Call Unit} {rest : Unit → Handler β} {f : Flight}
    {next : Option Flight} {fuel : Nat} (hf : f.advance lib engine s = written s (op s) next)
    (hrest : ∀ n s', (rest () fates n s').2.2 = alone lib engine fates fuel n s' next) :
    ((Request.call op >>= rest) fates n s).2.2 =
      alone lib engine fates (fuel + 1) n s (some f) := by
  refine call_alone (fun a s' hop => ?_) fun e hop => ?_
  · rw [hf, hop]
    exact ⟨rfl, hrest _ _⟩
  · rw [hf, hop]
    rfl

/-- A read and the rest of the handler. -/
theorem read_alone {β : Type} {id : String} {rest : StoredTask → Handler β} {f : Flight}
    {next : StoredTask → Option Flight} {fuel : Nat}
    (hf : f.advance lib engine s = whenRead s (s.task lib id) next)
    (hrest : ∀ task n, (rest task fates n s).2.2 =
      alone lib engine fates fuel n s (next task)) :
    ((Request.call (Store.getTask lib id) >>= rest) fates n s).2.2 =
      alone lib engine fates (fuel + 1) n s (some f) := by
  refine call_alone (fun task s' hop => ?_) fun e hop => ?_
  · cases htask : s.task lib id with
    | error e => simp [Store.getTask, htask, Except.map] at hop
    | ok t =>
        obtain ⟨rfl, rfl⟩ : t = task ∧ s = s' := by
          simpa [Store.getTask, htask, Except.map] using hop
        rw [hf, htask]
        exact ⟨rfl, hrest _ _⟩
  · cases htask : s.task lib id with
    | error e =>
        rw [hf, htask]
        rfl
    | ok t => simp [Store.getTask, htask, Except.map] at hop

/-- A record that is built between two calls. -/
theorem build_alone {α β : Type} {x : Except ApiError α} {rest : α → Handler β}
    {next : α → Flight} {fuel : Nat}
    (hrest : ∀ a, (rest a fates n s).2.2 = alone lib engine fates fuel n s (some (next a))) :
    ((Request.ofExcept x >>= rest) fates n s).2.2 =
      alone lib engine fates fuel n s (x.toOption.map next) := by
  rw [Request.ofExcept_bind]
  cases x with
  | ok a => exact hrest a
  | error e => simp [Except.toOption]

/-- The last write of a handler. -/
theorem lastWrite_alone {op : Store.Call Unit} {f : Flight} {fuel : Nat}
    (hf : f.advance lib engine s = written s (op s) none) :
    (Request.call op fates n s).2.2 = alone lib engine fates (fuel + 1) n s (some f) := by
  rw [Request.call, alone, hf]
  cases fates n with
  | proceed => cases op s <;> simp [written]
  | fail e => rfl
  | stop => rfl

theorem storeResult_alone {β : Type} {task : StoredTask} {stored : StoredResult}
    {rest : Unit → Handler β} (hrest : ∀ a, Request.Keeps id (rest a)) :
    ((storeResult lib task stored >>= rest) fates n s).2.2 =
      alone lib engine fates 2 n s (some (.upsertTask task stored)) := by
  refine (Request.bind_keeps hrest fates n s).trans ?_
  exact write_alone rfl fun _ _ => lastWrite_alone rfl

theorem prepareRegisterAgent_alone (payload : AgentRegistrationRequest) :
    (prepareRegisterAgent lib draws payload fates n s).2.2 =
      alone lib engine fates 3 n s (Flight.start lib draws (.registerAgent payload)) := by
  unfold prepareRegisterAgent Flight.start
  by_cases hid : isBlank payload.id = true
  · simp [hid, Request.throw]
  · by_cases hlabel : isBlank payload.label = true
    · simp [hid, hlabel, Request.throw]
    · simp only [hid, hlabel, Bool.or_self, Bool.false_eq_true, if_false]
      exact write_alone rfl fun _ _ => keeps_alone (Request.keeps_pure _) _

theorem prepareSubmitTask_alone (payload : TaskSubmissionRequest) :
    (prepareSubmitTask lib draws payload fates n s).2.2 =
      alone lib engine fates 3 n s (Flight.start lib draws (.submitTask payload)) :=
  build_alone fun stored => write_alone rfl fun _ _ =>
    keeps_alone (Request.keeps_bind (keeps_createTaskOutgoing stored)
      fun _ => Request.keeps_pure _) _

theorem prepareSubmitBid_alone (payload : BidSubmissionRequest) :
    (prepareSubmitBid lib draws payload fates n s).2.2 =
      alone lib engine fates 3 n s (Flight.start lib draws (.submitBid payload)) :=
  read_alone rfl fun _ _ => build_alone fun _ => write_alone rfl fun _ _ =>
    keeps_alone (Request.keeps_bind (keeps_submitBidOutgoing _) fun _ => Request.keeps_pure _) _

theorem prepareSubmitResult_alone (payload : ResultSubmissionRequest) :
    (prepareSubmitResult lib draws payload fates n s).2.2 =
      alone lib engine fates 3 n s (Flight.start lib draws (.submitResult payload)) :=
  read_alone rfl fun _ _ => build_alone fun _ => storeResult_alone fun _ =>
    Request.keeps_bind (keeps_submitResultOutgoing _) fun _ => Request.keeps_pure _

theorem executeTaskLocal_alone (id : String) :
    (executeTaskLocal lib draws engine id fates n s).2.2 =
      alone lib engine fates 3 n s (Flight.start lib draws (.executeTaskLocal id)) :=
  read_alone rfl fun _ _ => build_alone fun _ => storeResult_alone fun _ =>
    Request.keeps_pure _

end Alone

/-! ## The system -/

/-- The store and the handlers in flight; `drawn` and `submitted` record the UUIDs that were drawn
and the tasks that `submit_task` has stored, the first one first. -/
structure World where
  store : Store
  flights : Nat → Option Flight
  drawn : List String
  submitted : List StoredTask

def World.init (store : Store) : World where
  store := store
  flights _ := none
  drawn := []
  submitted := []

inductive Label where
  /-- A request arrives and reaches its first storage call; its UUIDs are fresh. -/
  | arrive (k : Nat) (draws : Draws) (a : Arrival)
  /-- The next storage call of a handler. -/
  | call (k : Nat)
  /-- A handler ends early. -/
  | drop (k : Nat)

/-- The task that a call stores for the first time. -/
def Flight.submits : Flight → List StoredTask
  | .insertTask stored => [stored]
  | _ => []

def step (lib : Libraries) (engine : ExecutionEngine) (s : World) : Label → Option World
  | .arrive k draws a =>
      match s.flights k with
      | none =>
          if draws.uuid 0 ∈ s.drawn then none
          else (Flight.start lib draws a).map fun f =>
            { s with
              flights := Function.update s.flights k (some f)
              drawn := draws.uuid 0 :: s.drawn }
      | some _ => none
  | .call k => (s.flights k).map fun f =>
      { s with
        store := (f.advance lib engine s.store).1
        flights := Function.update s.flights k (f.advance lib engine s.store).2
        submitted := s.submitted ++ f.submits }
  | .drop k => some { s with flights := Function.update s.flights k none }

section Steps

variable {lib : Libraries} {engine : ExecutionEngine} {s t : World} {k : Nat}

theorem step_arrive {draws : Draws} {a : Arrival} :
    step lib engine s (.arrive k draws a) = some t ↔
      s.flights k = none ∧ draws.uuid 0 ∉ s.drawn ∧ ∃ f, Flight.start lib draws a = some f ∧
        { s with
          flights := Function.update s.flights k (some f)
          drawn := draws.uuid 0 :: s.drawn } = t := by
  simp only [step]
  split
  · next h => simp [h]
  · next h => simp [h]

theorem step_call :
    step lib engine s (.call k) = some t ↔ ∃ f, s.flights k = some f ∧
      { s with
        store := (f.advance lib engine s.store).1
        flights := Function.update s.flights k (f.advance lib engine s.store).2
        submitted := s.submitted ++ f.submits } = t := by
  simp only [step, Option.map_eq_some_iff]

end Steps

end Ainur.InFlight
