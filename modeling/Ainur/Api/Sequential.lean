import Ainur.Lib.Refinement
import Ainur.Api.MemoryIntegrity
import Ainur.Wasm.Echo

set_option autoImplicit false

/-! # One request after the other

The handlers of the in-memory store run beside each other, a storage call at a time. What they leave
is what the same requests leave when each is handled from its first line to its last before the next
one begins, in the order in which the handlers end. While handlers are in flight the store is ahead
of that in one point only: a task is completed as soon as its result is on its way.
-/

namespace Ainur.Sequential

open InFlight MemoryIntegrity
open Wasm (TaskContext)

/-! ## The sequential service -/

/-- A request, with what its handler draws. -/
abbrev Request := Draws × Arrival

/-- An engine that sees the context of a task only, as both engines of the orchestrator do. -/
def engineOf (execute : TaskContext → Except ApiError (List UInt8)) : ExecutionEngine := fun task =>
  execute (.ofTask task)

section Service

variable (lib : Libraries) (engine : ExecutionEngine)

/-- The handler of a request, from its first line to its last. -/
def handle (r : Request) : Handler Unit :=
  match r.2 with
  | .registerAgent payload => do
      let _ ← registerAgent lib r.1 payload
      return ()
  | .submitTask payload => do
      let _ ← submitTask lib r.1 payload
      return ()
  | .submitBid payload => do
      let _ ← submitBid lib r.1 payload
      return ()
  | .submitResult payload => do
      let _ ← submitResult lib r.1 payload
      return ()
  | .executeTaskLocal id => do
      let _ ← executeTaskLocal lib r.1 engine id
      return ()

/-- The store after a request that is handled with no other beside it. -/
def serve (s : Store) (r : Request) : Store := (handle lib engine r (fun _ => .proceed) 0 s).2.2

end Service

/-! ## The handlers and their requests -/

/-- The handlers in flight with the requests that they serve, the requests that arrived, and those
whose handlers have ended or were dropped, the first one first. -/
structure Node where
  world : World
  arrived : List Request
  serving : List (Nat × Request)
  served : List Request
  dropped : List Request

def Node.init : Node where
  world := World.init (.memory .default)
  arrived := []
  serving := []
  served := []
  dropped := []

/-- The request of handler `k`. -/
def Node.request (s : Node) (k : Nat) : List Request := (s.serving.lookup k).toList

/-- The requests of the other handlers. -/
def Node.others (s : Node) (k : Nat) : List (Nat × Request) := s.serving.filter fun e => e.1 ≠ k

/-- What a step records, with the handlers as they are after it. -/
def Node.record (s : Node) (w : World) : Label → Node
  | .arrive k draws a =>
      { s with
        world := w
        arrived := s.arrived ++ [(draws, a)]
        serving := (k, (draws, a)) :: s.serving }
  | .call k =>
      match w.flights k with
      | some _ => { s with world := w }
      | none => { s with world := w, serving := s.others k, served := s.served ++ s.request k }
  | .drop k => { s with world := w, serving := s.others k, dropped := s.dropped ++ s.request k }

def step (lib : Libraries) (engine : ExecutionEngine) (s : Node) (i : Label) : Option Node :=
  (InFlight.step lib engine s.world i).map fun w => s.record w i

/-- The second of two writes is next. -/
def halfway : Flight → Bool
  | .insertResult _ => true
  | _ => false

/-- No handler is dropped between its two writes. -/
def NotHalfway (w : World) : Label → Prop
  | .drop k => (w.flights k).any halfway = false
  | _ => True

instance (w : World) (i : Label) : Decidable (NotHalfway w i) :=
  match i with
  | .arrive .. => isTrue trivial
  | .call _ => isTrue trivial
  | .drop _ => inferInstanceAs (Decidable (_ = false))

/-- The two stores answer every lookup alike. -/
structure SameMaps (m m' : InMemoryStorage) : Prop where
  agents : ∀ id, m.agents.lookup id = m'.agents.lookup id
  tasks : ∀ id, m.tasks.lookup id = m'.tasks.lookup id
  bids : ∀ id, m.bids.lookup id = m'.bids.lookup id
  results : ∀ id, m.results.lookup id = m'.results.lookup id

/-! ## A request alone -/

section Alone

variable {lib : Libraries} {engine : ExecutionEngine} {s : Store} {m m' : InMemoryStorage}

/-- What a handler does after its last write does not reach the maps. -/
theorem inMemory_respond {α : Type} {prepare : Handler (Outgoing × α)} {draws : Draws} :
    inMemory ((do
      let _ ← (do
        let r ← prepare
        let correlation ← reportEnqueue lib draws r.1
        return ⟨correlation, r.2⟩ : Handler (ResponseWithCorrelation α))
      return () : Handler Unit) (fun _ => .proceed) 0 s).2.2 =
      inMemory (prepare (fun _ => .proceed) 0 s).2.2 := by
  have hπ : IgnoresOutbox inMemory := fun _ _ _ => rfl
  refine (Faulty.Request.bind_keeps (fun _ => Faulty.Request.keeps_pure _) _ _ _).trans ?_
  exact Faulty.Request.bind_keeps (fun r => keeps_respond hπ r) _ _ _

/-- A handler alone makes its storage calls one after the other. -/
theorem inMemory_serve (r : Request) :
    inMemory (serve lib engine s r) =
      inMemory (alone lib engine (fun _ => .proceed) 3 0 s (Flight.start lib r.1 r.2)) := by
  obtain ⟨draws, a⟩ := r
  cases a with
  | registerAgent payload =>
      rw [← prepareRegisterAgent_alone payload]
      exact inMemory_respond
  | submitTask payload =>
      rw [← prepareSubmitTask_alone payload]
      exact inMemory_respond
  | submitBid payload =>
      rw [← prepareSubmitBid_alone payload]
      exact inMemory_respond
  | submitResult payload =>
      rw [← prepareSubmitResult_alone payload]
      exact inMemory_respond
  | executeTaskLocal id =>
      rw [← executeTaskLocal_alone id]
      exact Faulty.Request.bind_keeps (fun _ => Faulty.Request.keeps_pure _) _ _ _

theorem serve_eq {r : Request} (h : alone lib engine (fun _ => .proceed) 3 0 s
    (Flight.start lib r.1 r.2) = .memory m') : serve lib engine s r = .memory m' := by
  rw [← inMemory_eq_some, inMemory_serve, h]
  rfl

/-- A request whose first call is its last. -/
theorem serve_once {r : Request} {f : Flight} (hstart : Flight.start lib r.1 r.2 = some f)
    (hlast : f.advance lib engine s = (.memory m', none)) :
    serve lib engine s r = .memory m' := by
  refine serve_eq ?_
  rw [hstart, alone, hlast]
  exact alone_none 2

/-- A bid: the task is read and the bid inserted. -/
theorem serve_bid {draws : Draws} {payload : BidSubmissionRequest} {task : StoredTask}
    {stored : StoredBid} (htask : m.tasks.lookup payload.taskId = some task)
    (hbid : StoredBid.fromSubmission lib draws payload task = .ok stored) :
    serve lib engine (.memory m) (draws, .submitBid payload) =
      .memory { m with bids := hashInsert m.bids stored.id stored } := by
  refine serve_eq ?_
  show alone lib engine (fun _ => .proceed) 3 0 (.memory m) (some (.readForBid draws payload)) = _
  have hread : (Flight.readForBid draws payload).advance lib engine (.memory m) =
      (.memory m, some (.insertBid stored)) := by
    simp [Flight.advance, whenRead, Store.task, htask, Fallible.okOr, hbid, Except.toOption]
  rw [alone, hread, alone]
  exact alone_none 1

/-- How `submit_result` and `execute_task_local` build the result: the id that they read the task
under, and what they make of the task. -/
def resultFor (lib : Libraries) (engine : ExecutionEngine) :
    Request → Option (String × (StoredTask → Except ApiError StoredResult))
  | (draws, .submitResult payload) =>
      some (payload.taskId, StoredResult.fromSubmission lib draws payload)
  | (draws, .executeTaskLocal id) =>
      some (id, fun task => executeAndBuildResult lib draws engine task "local-echo")
  | _ => none

/-- A result: the task is read, completed and the result inserted. -/
theorem serve_result {r : Request} {id : String} {build : StoredTask → Except ApiError StoredResult}
    {task : StoredTask} {stored : StoredResult} (hr : resultFor lib engine r = some (id, build))
    (htask : m.tasks.lookup id = some task) (hstored : build task = .ok stored) :
    serve lib engine (.memory m) r = .memory { putTask m { task with status := .completed } with
      results := hashInsert m.results stored.id stored } := by
  obtain ⟨f, hstart, hread⟩ : ∃ f, Flight.start lib r.1 r.2 = some f ∧
      f.advance lib engine (.memory m) = (.memory m, some (.upsertTask task stored)) := by
    obtain ⟨draws, a⟩ := r
    cases a with
    | submitResult payload =>
        obtain ⟨rfl, rfl⟩ := Prod.mk.inj (Option.some.inj hr)
        refine ⟨.readForResult draws payload, rfl, ?_⟩
        simp [Flight.advance, whenRead, Store.task, htask, Fallible.okOr, hstored, Except.toOption]
    | executeTaskLocal id' =>
        obtain ⟨rfl, rfl⟩ := Prod.mk.inj (Option.some.inj hr)
        refine ⟨.readToExecute draws id', rfl, ?_⟩
        simp [Flight.advance, whenRead, Store.task, htask, Fallible.okOr, hstored, Except.toOption]
    | registerAgent payload => cases hr
    | submitTask payload => cases hr
    | submitBid payload => cases hr
  have hcomplete : (Flight.upsertTask task stored).advance lib engine (.memory m) =
      (.memory (putTask m { task with status := .completed }), some (.insertResult stored)) := rfl
  refine serve_eq ?_
  rw [hstart, alone, hread, alone, hcomplete]
  rfl

end Alone

/-! ## What a handler has done so far -/

/-- A result of that task is about to be inserted. -/
def OnItsWay (flights : Nat → Option Flight) (id : String) : Prop :=
  ∃ k stored, flights k = some (.insertResult stored) ∧ stored.taskId = id

/-- The store with handlers in flight, beside the one of the requests that have ended: it may have
completed a task whose result is on its way. -/
structure Ahead (flights : Nat → Option Flight) (m m' : InMemoryStorage) : Prop where
  agents : ∀ id, m.agents.lookup id = m'.agents.lookup id
  tasks : ∀ id, m.tasks.lookup id = m'.tasks.lookup id ∨
    ∃ t, m'.tasks.lookup id = some t ∧ m.tasks.lookup id = some { t with status := .completed } ∧
      OnItsWay flights id
  bids : ∀ id, m.bids.lookup id = m'.bids.lookup id
  results : ∀ id, m.results.lookup id = m'.results.lookup id

/-- Where the handler of a request stands: what it holds was built from the stored task. -/
inductive Stage (lib : Libraries) (engine : ExecutionEngine) (m : InMemoryStorage) :
    Request → Flight → Prop
  | first {r : Request} {f : Flight} : Flight.start lib r.1 r.2 = some f → Stage lib engine m r f
  | bid {draws : Draws} {payload : BidSubmissionRequest} {task : StoredTask} {stored : StoredBid} :
      m.tasks.lookup payload.taskId = some task →
      StoredBid.fromSubmission lib draws payload task = .ok stored →
      Stage lib engine m (draws, .submitBid payload) (.insertBid stored)
  | copied {r : Request} {id : String} {build : StoredTask → Except ApiError StoredResult}
      {task : StoredTask} {status : TaskStatus} {stored : StoredResult} :
      resultFor lib engine r = some (id, build) → m.tasks.lookup id = some task →
      build task = .ok stored →
      Stage lib engine m r (.upsertTask { task with status := status } stored)
  | completed {r : Request} {id : String} {build : StoredTask → Except ApiError StoredResult}
      {task : StoredTask} {stored : StoredResult} :
      resultFor lib engine r = some (id, build) → m.tasks.lookup id = some task →
      build task = .ok stored → Stage lib engine m r (.insertResult stored)

section Blind

variable {lib : Libraries} {execute : TaskContext → Except ApiError (List UInt8)}

/-- A result does not depend on the status of the task, and is of the task. -/
theorem resultFor_blind {r : Request} {id : String}
    {build : StoredTask → Except ApiError StoredResult}
    (hr : resultFor lib (engineOf execute) r = some (id, build)) (task : StoredTask)
    (status : TaskStatus) : build { task with status := status } = build task := by
  obtain ⟨draws, a⟩ := r
  cases a with
  | submitResult payload =>
      obtain ⟨-, rfl⟩ := Prod.mk.inj (Option.some.inj hr)
      rfl
  | executeTaskLocal id' =>
      obtain ⟨-, rfl⟩ := Prod.mk.inj (Option.some.inj hr)
      rfl
  | registerAgent payload => cases hr
  | submitTask payload => cases hr
  | submitBid payload => cases hr

theorem resultFor_taskId {r : Request} {id : String}
    {build : StoredTask → Except ApiError StoredResult}
    (hr : resultFor lib (engineOf execute) r = some (id, build)) {task : StoredTask}
    {stored : StoredResult} (hstored : build task = .ok stored) : stored.taskId = task.id := by
  obtain ⟨draws, a⟩ := r
  cases a with
  | submitResult payload =>
      obtain ⟨-, rfl⟩ := Prod.mk.inj (Option.some.inj hr)
      exact (fromSubmission_ids hstored).1
  | executeTaskLocal id' =>
      obtain ⟨-, rfl⟩ := Prod.mk.inj (Option.some.inj hr)
      obtain ⟨output, -, hok⟩ := Fallible.bind_eq_ok.mp hstored
      exact (fromSubmission_ids hok).1
  | registerAgent payload => cases hr
  | submitTask payload => cases hr
  | submitBid payload => cases hr

/-- What others do to the tasks does not move a handler. -/
theorem Stage.evolve {m m' : InMemoryStorage} {r : Request} {f : Flight}
    (h : Stage lib (engineOf execute) m r f) (hev : Evolves m m') :
    Stage lib (engineOf execute) m' r f := by
  cases h with
  | first hstart => exact .first hstart
  | bid htask hbid =>
      obtain ⟨t', ht', hsame, -⟩ := hev _ _ htask
      refine .bid ht' ?_
      rw [hsame]
      exact hbid
  | @copied _ _ _ task status _ hr htask hstored =>
      obtain ⟨t', ht', hsame, -⟩ := hev _ _ htask
      have hcopy : { task with status := status } = { t' with status := status } := by
        rw [hsame]
      rw [hcopy]
      refine .copied hr ht' ?_
      rw [hsame, resultFor_blind hr]
      exact hstored
  | completed hr htask hstored =>
      obtain ⟨t', ht', hsame, -⟩ := hev _ _ htask
      refine .completed hr ht' ?_
      rw [hsame, resultFor_blind hr]
      exact hstored

end Blind

/-! ## The two stores side by side -/

section Ahead

variable {flights flights' : Nat → Option Flight} {m m' : InMemoryStorage} {id : String}

/-- A result stays on its way while its handler does not move. -/
theorem OnItsWay.update (h : OnItsWay flights id) {k : Nat} {f : Option Flight}
    (hk : ∀ stored, flights k = some (.insertResult stored) → stored.taskId ≠ id) :
    OnItsWay (Function.update flights k f) id := by
  obtain ⟨k', stored, hf, hid⟩ := h
  refine ⟨k', stored, ?_, hid⟩
  have hne : k' ≠ k := by
    intro heq
    rw [heq] at hf
    exact hk stored hf hid
  rw [Function.update_of_ne hne]
  exact hf

theorem Ahead.mono (h : Ahead flights m m')
    (hway : ∀ id, OnItsWay flights id → OnItsWay flights' id) : Ahead flights' m m' where
  agents := h.agents
  tasks id := by
    rcases h.tasks id with hsame | ⟨t, ht', ht, hon⟩
    · exact Or.inl hsame
    · exact Or.inr ⟨t, ht', ht, hway id hon⟩
  bids := h.bids
  results := h.results

/-- A task that the one has is, but for its status, the task that the other has. -/
theorem Ahead.task (h : Ahead flights m m') {t : StoredTask} (ht : m.tasks.lookup id = some t) :
    ∃ t', m'.tasks.lookup id = some t' ∧ t = { t' with status := t.status } := by
  rcases h.tasks id with hsame | ⟨t', ht', hcompleted, -⟩
  · exact ⟨t, hsame ▸ ht, rfl⟩
  · obtain rfl := Option.some.inj (ht.symm.trans hcompleted)
    exact ⟨t', ht', rfl⟩

theorem Ahead.noTask (h : Ahead flights m m') (hnone : m.tasks.lookup id = none) :
    m'.tasks.lookup id = none := by
  rcases h.tasks id with hsame | ⟨t', -, hcompleted, -⟩
  · exact hsame ▸ hnone
  · rw [hnone] at hcompleted
    cases hcompleted

/-- Both maps get the same pair. -/
theorem lookup_hashInsert_congr {α : Type} {map map' : List (String × α)}
    (h : ∀ id, map.lookup id = map'.lookup id) (key : String) (a : α) (id : String) :
    (hashInsert map key a).lookup id = (hashInsert map' key a).lookup id := by
  rw [lookup_hashInsert, lookup_hashInsert, h id]

theorem Ahead.insertAgent (h : Ahead flights m m') (agent : AgentRegistrationRequest) :
    Ahead flights { m with agents := hashInsert m.agents agent.id agent }
      { m' with agents := hashInsert m'.agents agent.id agent } where
  agents := lookup_hashInsert_congr h.agents agent.id agent
  tasks := h.tasks
  bids := h.bids
  results := h.results

theorem Ahead.insertBid (h : Ahead flights m m') (bid : StoredBid) :
    Ahead flights { m with bids := hashInsert m.bids bid.id bid }
      { m' with bids := hashInsert m'.bids bid.id bid } where
  agents := h.agents
  tasks := h.tasks
  bids := lookup_hashInsert_congr h.bids bid.id bid
  results := h.results

theorem lookup_putTask (m : InMemoryStorage) (task : StoredTask) (id : String) :
    (putTask m task).tasks.lookup id = if id = task.id then some task else m.tasks.lookup id :=
  lookup_hashInsert ..

theorem Ahead.insertTask (h : Ahead flights m m') (task : StoredTask) :
    Ahead flights (putTask m task) (putTask m' task) where
  agents := h.agents
  tasks id := by
    rw [lookup_putTask, lookup_putTask]
    by_cases hid : id = task.id
    · rw [if_pos hid, if_pos hid]
      exact Or.inl rfl
    · rw [if_neg hid, if_neg hid]
      exact h.tasks id
  bids := h.bids
  results := h.results

/-- A task is completed, and its result is on its way. -/
theorem Ahead.complete (h : Ahead flights m m') {task : StoredTask} {t' : StoredTask}
    (ht' : m'.tasks.lookup task.id = some t')
    (hsame : { task with status := .completed } = { t' with status := .completed })
    (hway : ∀ id, OnItsWay flights id → OnItsWay flights' id) (hon : OnItsWay flights' task.id) :
    Ahead flights' (putTask m { task with status := .completed }) m' where
  agents := h.agents
  tasks id := by
    rw [lookup_putTask]
    by_cases hid : id = task.id
    · rw [if_pos hid, hid]
      exact Or.inr ⟨t', ht', congrArg some hsame, hon⟩
    · rw [if_neg hid]
      exact (h.mono hway).tasks id
  bids := h.bids
  results := h.results

/-- The result is there, and with it the other store completes the task as well. -/
theorem Ahead.insertResult (h : Ahead flights m m') {t' : StoredTask} {stored : StoredResult}
    (ht : m.tasks.lookup t'.id = some { t' with status := .completed })
    (hway : ∀ id, id ≠ t'.id → OnItsWay flights id → OnItsWay flights' id) :
    Ahead flights' { m with results := hashInsert m.results stored.id stored }
      { putTask m' { t' with status := .completed } with
        results := hashInsert m'.results stored.id stored } where
  agents := h.agents
  tasks id := by
    show m.tasks.lookup id = (putTask m' { t' with status := .completed }).tasks.lookup id ∨ _
    by_cases hid : id = t'.id
    · rw [lookup_putTask, if_pos hid, hid]
      exact Or.inl ht
    · rcases h.tasks id with hsame | ⟨t, ht', hcompleted, hon⟩
      · rw [lookup_putTask, if_neg hid]
        exact Or.inl hsame
      · refine Or.inr ⟨t, ?_, hcompleted, hway id hid hon⟩
        exact (lookup_putTask ..).trans ((if_neg hid).trans ht')
  bids := h.bids
  results := lookup_hashInsert_congr h.results stored.id stored

end Ahead

/-! ## One call -/

section Calls

variable {lib : Libraries} {execute : TaskContext → Except ApiError (List UInt8)}
variable {flights : Nat → Option Flight} {m m' : InMemoryStorage} {sub : List StoredTask} {k : Nat}
variable {r : Request} {f : Flight}

/-- What a call leaves, of a handler that goes on or ends. -/
inductive Called (lib : Libraries) (engine : ExecutionEngine) (flights : Nat → Option Flight)
    (m' : InMemoryStorage) (k : Nat) (r : Request) : Store × Option Flight → Prop
  /-- The handler goes on; one request after the other, its request has yet to begin. -/
  | on {m₁ : InMemoryStorage} {f' : Flight} : Stage lib engine m₁ r f' →
      Ahead (Function.update flights k (some f')) m₁ m' →
      Called lib engine flights m' k r (.memory m₁, some f')
  /-- The handler ends, and its request is handled as a whole. -/
  | ended {m₁ m₁' : InMemoryStorage} : serve lib engine (.memory m') r = .memory m₁' →
      Ahead (Function.update flights k none) m₁ m₁' →
      Called lib engine flights m' k r (.memory m₁, none)

/-- The results on their way stay where the handler holds none. -/
theorem onItsWay_update (hf : flights k = some f) (hne : ∀ stored, f ≠ .insertResult stored)
    (next : Option Flight) (id : String) (h : OnItsWay flights id) :
    OnItsWay (Function.update flights k next) id := by
  refine h.update fun stored hstored => ?_
  exact absurd (Option.some.inj (hf.symm.trans hstored)) (hne stored)

/-- The first call reads a task. -/
theorem called_read {engine : ExecutionEngine} {id : String} {next : StoredTask → Option Flight}
    (h : Ahead flights m m') (hf : flights k = some f)
    (hstart : Flight.start lib r.1 r.2 = some f)
    (hadvance : ∀ s, f.advance lib engine s = whenRead s (s.task lib id) next)
    (hne : ∀ stored, f ≠ .insertResult stored)
    (hnext : ∀ t f', m.tasks.lookup id = some t → next t = some f' → Stage lib engine m r f')
    (hblind : ∀ t status, next t = none → next { t with status := status } = none) :
    Called lib engine flights m' k r (f.advance lib engine (.memory m)) := by
  have hread : ∀ (m : InMemoryStorage), f.advance lib engine (.memory m) =
      (.memory m, (m.tasks.lookup id).bind next) := by
    intro m
    rw [hadvance]
    cases hlookup : m.tasks.lookup id with
    | none => simp [whenRead, Store.task, hlookup, Fallible.okOr]
    | some t => simp [whenRead, Store.task, hlookup, Fallible.okOr]
  rw [hread]
  have hahead : ∀ next, Ahead (Function.update flights k next) m m' := fun next =>
    h.mono (onItsWay_update hf hne next)
  cases hlookup : m.tasks.lookup id with
  | none =>
      refine .ended (serve_once hstart ?_) (hahead none)
      rw [hread, h.noTask hlookup]
      rfl
  | some t =>
      show Called lib engine flights m' k r (.memory m, next t)
      cases hgo : next t with
      | some f' => exact .on (hnext t f' hlookup hgo) (hahead (some f'))
      | none =>
          -- what the task makes an error is one for the same task in another status
          obtain ⟨t', ht', hsame⟩ := h.task hlookup
          have hnone : next t' = none := by
            have hback : { t with status := t'.status } = t' := by rw [hsame]
            rw [← hback]
            exact hblind t t'.status hgo
          refine .ended (serve_once hstart ?_) (hahead none)
          rw [hread, ht', Option.bind_some, hnone]

/-- The first call of a request. -/
theorem called_first (h : Ahead flights m m') (hf : flights k = some f)
    (hstart : Flight.start lib r.1 r.2 = some f) :
    Called lib (engineOf execute) flights m' k r
      (f.advance lib (engineOf execute) (.memory m)) := by
  obtain ⟨draws, a⟩ := r
  cases a with
  | registerAgent payload =>
      obtain ⟨-, rfl⟩ : _ ∧ Flight.registerAgent payload = f := by
        simpa [Flight.start] using hstart
      refine .ended (serve_once hstart rfl) ((h.insertAgent payload).mono ?_)
      exact onItsWay_update hf (fun _ hne => by cases hne) none
  | submitTask payload =>
      obtain ⟨stored, -, rfl⟩ := Option.map_eq_some_iff.mp hstart
      refine .ended (serve_once hstart rfl) ((h.insertTask stored).mono ?_)
      exact onItsWay_update hf (fun _ hne => by cases hne) none
  | submitBid payload =>
      cases hstart
      refine called_read h hf rfl (fun _ => rfl) (fun _ hne => by cases hne) ?_ ?_
      · intro t f' ht hf'
        obtain ⟨stored, hstored, rfl⟩ := Option.map_eq_some_iff.mp hf'
        exact .bid ht (Fallible.toOption_eq_some.mp hstored)
      · intro t status hnone
        exact hnone
  | submitResult payload =>
      cases hstart
      refine called_read h hf rfl (fun _ => rfl) (fun _ hne => by cases hne) ?_ ?_
      · intro t f' ht hf'
        obtain ⟨stored, hstored, rfl⟩ := Option.map_eq_some_iff.mp hf'
        exact .copied rfl ht (Fallible.toOption_eq_some.mp hstored)
      · intro t status hnone
        rw [Option.map_eq_none_iff] at hnone ⊢
        exact hnone
  | executeTaskLocal id =>
      cases hstart
      refine called_read h hf rfl (fun _ => rfl) (fun _ hne => by cases hne) ?_ ?_
      · intro t f' ht hf'
        obtain ⟨stored, hstored, rfl⟩ := Option.map_eq_some_iff.mp hf'
        exact .copied rfl ht (Fallible.toOption_eq_some.mp hstored)
      · intro t status hnone
        rw [Option.map_eq_none_iff] at hnone ⊢
        exact hnone

/-- **The call lemma.** A handler that ends has had the effect of its whole request; one that goes on
has had none but for a task that is completed ahead of its result. -/
theorem called (hintact : Intact m sub) (h : Ahead flights m m') (hf : flights k = some f)
    (hstage : Stage lib (engineOf execute) m r f) (hholds : Holds m f) :
    Called lib (engineOf execute) flights m' k r
      (f.advance lib (engineOf execute) (.memory m)) := by
  cases hstage with
  | first hstart => exact called_first h hf hstart
  | @bid draws payload task stored htask hbid =>
      obtain ⟨t', ht', hsame⟩ := h.task htask
      have hbid' : StoredBid.fromSubmission lib draws payload t' = .ok stored := by
        rw [hsame] at hbid
        exact hbid
      refine .ended (serve_bid ht' hbid') ((h.insertBid stored).mono ?_)
      exact onItsWay_update hf (fun _ hne => by cases hne) none
  | @copied _ id build task status stored hr htask hstored =>
      obtain ⟨t', ht', hsame⟩ := h.task htask
      obtain rfl : task.id = id := hintact.taskId id task htask
      -- the result is built from a copy of the task, and does not look at its status
      have hput : (putTask m { task with status := .completed }).tasks.lookup task.id =
          some { task with status := .completed } := (lookup_putTask ..).trans (if_pos rfl)
      have hbuild : build { task with status := .completed } = .ok stored := by
        rw [resultFor_blind hr]
        exact hstored
      have hid : stored.taskId = task.id := resultFor_taskId hr hstored
      refine .on (.completed hr hput hbuild) (h.complete ht' ?_ ?_ ?_)
      · rw [hsame]
      · exact onItsWay_update hf (fun _ hne => by cases hne) _
      · exact ⟨k, stored, Function.update_self .., hid⟩
  | @completed _ id build task stored hr htask hstored =>
      obtain ⟨t', ht', hsame⟩ := h.task htask
      obtain rfl : task.id = id := hintact.taskId id task htask
      have hid : stored.taskId = task.id := resultFor_taskId hr hstored
      -- the sequential store completes the task and stores the result at once
      have hcompleted : task.status = .completed := by
        obtain ⟨t, ht, -, hstatus⟩ := hholds
        rw [hid] at ht
        rw [Option.some.inj (htask.symm.trans ht)]
        exact hstatus
      have htask' : t'.id = task.id := by rw [hsame]
      have heq : task = { t' with status := .completed } := by
        rw [← hcompleted]
        exact hsame
      have hstored' : build t' = .ok stored := by
        rw [hsame, resultFor_blind hr] at hstored
        exact hstored
      refine .ended (serve_result hr ht' hstored') (h.insertResult ?_ ?_)
      · calc m.tasks.lookup t'.id = m.tasks.lookup task.id := by rw [htask']
          _ = some task := htask
          _ = some { t' with status := .completed } := congrArg some heq
      · intro id hne hon
        refine hon.update fun stored' hstored' => ?_
        obtain rfl := Flight.insertResult.inj (Option.some.inj (hf.symm.trans hstored'))
        rw [hid, ← htask']
        exact hne.symm

end Calls

/-! ## Steps and runs -/

section Runs

variable {lib : Libraries} {execute : TaskContext → Except ApiError (List UInt8)}
variable {m m' : InMemoryStorage} {s t : Node}

/-- What holds in every state: the requests that have ended make `m'` when they are handled one after
the other, the store is ahead of it, and every handler in flight serves a request. -/
structure Serial (lib : Libraries) (engine : ExecutionEngine) (m m' : InMemoryStorage) (s : Node) :
    Prop where
  base : Inv m s.world
  sequential : s.served.foldl (serve lib engine) (.memory .default) = .memory m'
  ahead : Ahead s.world.flights m m'
  stage : ∀ k f, s.world.flights k = some f →
    ∃ r, s.serving.lookup k = some r ∧ Stage lib engine m r f
  busy : ∀ e ∈ s.serving, s.world.flights e.1 ≠ none
  nodup : (s.serving.map Prod.fst).Nodup
  arrived : (s.served ++ s.dropped ++ s.serving.map Prod.snd).Perm s.arrived

theorem Serial.init : Serial lib (engineOf execute) .default .default Node.init where
  base := inv_init
  sequential := rfl
  ahead := ⟨fun _ => rfl, fun _ => Or.inl rfl, fun _ => rfl, fun _ => rfl⟩
  stage k f hf := by cases hf
  busy e he := by cases he
  nodup := List.nodup_nil
  arrived := List.Perm.refl _

/-- The request of a handler, and those of the others. -/
theorem serving_perm {serving : List (Nat × Request)} {k : Nat} {r : Request}
    (hnodup : (serving.map Prod.fst).Nodup) (hk : serving.lookup k = some r) :
    (serving.map Prod.snd).Perm (r :: (serving.filter fun e => e.1 ≠ k).map Prod.snd) := by
  induction serving with
  | nil => cases hk
  | cons e serving ih =>
      obtain ⟨hfresh, hrest⟩ := List.nodup_cons.mp hnodup
      rw [List.lookup_cons] at hk
      by_cases he : k = e.1
      · -- no other handler has the number
        have hsame : (serving.filter fun e => e.1 ≠ k) = serving := by
          refine List.filter_eq_self.mpr fun e' he' => decide_eq_true fun heq => ?_
          exact hfresh (List.mem_map.mpr ⟨e', he', heq.trans he⟩)
        obtain rfl : e.2 = r := by simpa [he] using hk
        rw [List.filter_cons_of_neg (by simp [he]), hsame]
        exact List.Perm.refl _
      · have hne : (k == e.1) = false := by simpa using he
        rw [hne] at hk
        rw [List.filter_cons_of_pos (by simpa using Ne.symm he)]
        exact ((ih hrest hk).cons e.2).trans (List.Perm.swap _ _ _)

/-- A handler that ends leaves the others to theirs. -/
theorem lookup_others {k k' : Nat} (hne : k' ≠ k) :
    (s.others k).lookup k' = s.serving.lookup k' := by
  unfold Node.others
  induction s.serving with
  | nil => rfl
  | cons e serving ih =>
      by_cases he : e.1 = k
      · have hk : (k' == e.1) = false := by simpa [he] using hne
        rw [List.filter_cons_of_neg (by simp [he]), ih, List.lookup_cons, hk]
      · rw [List.filter_cons_of_pos (by simp [he]), List.lookup_cons, List.lookup_cons, ih]

theorem busy_others {k : Nat} {flights : Nat → Option Flight} {f : Option Flight}
    (h : ∀ e ∈ s.serving, flights e.1 ≠ none) :
    ∀ e ∈ s.others k, Function.update flights k f e.1 ≠ none := by
  intro e he
  obtain ⟨hmem, hne⟩ := List.mem_filter.mp he
  rw [Function.update_of_ne (of_decide_eq_true hne)]
  exact h e hmem

theorem nodup_others {k : Nat} (h : (s.serving.map Prod.fst).Nodup) :
    ((s.others k).map Prod.fst).Nodup :=
  h.sublist (List.filter_sublist.map _)

theorem Serial.arrive (h : Serial lib (engineOf execute) m m' s) {k : Nat} {draws : Draws}
    {a : Arrival} (hstep : step lib (engineOf execute) s (.arrive k draws a) = some t) :
    Serial lib (engineOf execute) m m' t := by
  obtain ⟨w, hw, rfl⟩ := Option.map_eq_some_iff.mp hstep
  have hbase : Inv m w := inv_arrive h.base hw
  obtain ⟨hidle, -, f, hstart, rfl⟩ := step_arrive.mp hw
  constructor
  · exact hbase
  · exact h.sequential
  · refine h.ahead.mono fun id hon => hon.update fun stored hstored => ?_
    rw [hidle] at hstored
    cases hstored
  · intro k' f' hf'
    rcases flight_of_update hf' with ⟨rfl, hf⟩ | ⟨hne, hold⟩
    · refine ⟨(draws, a), by simp [Node.record], .first ?_⟩
      rw [← hf]
      exact hstart
    · obtain ⟨r, hr, hstage⟩ := h.stage k' f' hold
      refine ⟨r, ?_, hstage⟩
      show List.lookup k' ((k, (draws, a)) :: s.serving) = some r
      rw [List.lookup_cons, show (k' == k) = false by simpa using hne]
      exact hr
  · intro e he
    show Function.update s.world.flights k (some f) e.1 ≠ none
    by_cases hk : e.1 = k
    · rw [hk, Function.update_self]
      exact Option.some_ne_none f
    · rw [Function.update_of_ne hk]
      rcases List.mem_cons.mp he with rfl | he
      · exact absurd rfl hk
      · exact h.busy e he
  · refine List.nodup_cons.mpr ⟨fun hmem => ?_, h.nodup⟩
    obtain ⟨e, he, hk⟩ := List.mem_map.mp hmem
    exact h.busy e he (hk ▸ hidle)
  · show (s.served ++ s.dropped ++ (draws, a) :: s.serving.map Prod.snd).Perm
      (s.arrived ++ [(draws, a)])
    refine List.perm_middle.trans ((h.arrived.cons _).trans ?_)
    exact (List.perm_append_singleton _ _).symm

/-- A handler that goes on keeps its request. -/
theorem Node.record_on {w : World} {k : Nat} {f : Flight} (hf : w.flights k = some f) :
    s.record w (.call k) = { s with world := w } := by
  rw [Node.record, hf]

theorem Node.record_ended {w : World} {k : Nat} {r : Request} (hf : w.flights k = none)
    (hr : s.serving.lookup k = some r) :
    s.record w (.call k) =
      { s with world := w, serving := s.others k, served := s.served ++ [r] } := by
  rw [Node.record, hf]
  simp only [Node.request, hr, Option.toList_some]

theorem Serial.call (h : Serial lib (engineOf execute) m m' s) {k : Nat}
    (hstep : step lib (engineOf execute) s (.call k) = some t) :
    ∃ m₁ m₁', Serial lib (engineOf execute) m₁ m₁' t := by
  obtain ⟨w, hw, rfl⟩ := Option.map_eq_some_iff.mp hstep
  obtain ⟨m₁, hbase, hev⟩ := inv_call h.base hw
  obtain ⟨f, hf, hflights⟩ : ∃ f, s.world.flights k = some f ∧
      w.flights = Function.update s.world.flights k
        (f.advance lib (engineOf execute) s.world.store).2 ∧
      w.store = (f.advance lib (engineOf execute) s.world.store).1 := by
    obtain ⟨f, hf, rfl⟩ := step_call.mp hw
    exact ⟨f, hf, rfl, rfl⟩
  obtain ⟨r, hr, hstage⟩ := h.stage k f hf
  have hcalled := called h.base.intact h.ahead hf hstage (h.base.holds k f hf)
  rw [← h.base.store] at hcalled
  generalize f.advance lib (engineOf execute) s.world.store = next at hcalled hflights
  obtain ⟨hflights, hstore⟩ := hflights
  -- what the others hold is as it was
  have hold : ∀ {k' f'}, k' ≠ k → w.flights k' = some f' →
      ∃ r, s.serving.lookup k' = some r ∧ Stage lib (engineOf execute) m₁ r f' := by
    intro k' f' hne hf'
    rw [hflights, Function.update_of_ne hne] at hf'
    obtain ⟨r', hr', hstage'⟩ := h.stage k' f' hf'
    exact ⟨r', hr', hstage'.evolve hev⟩
  cases hcalled with
  | @on m₂ f' hstage' hahead =>
      obtain rfl : m₁ = m₂ := Store.memory.inj (hbase.store.symm.trans hstore)
      have hk : w.flights k = some f' := by rw [hflights, Function.update_self]
      refine ⟨m₁, m', ?_⟩
      rw [Node.record_on hk]
      constructor
      · exact hbase
      · exact h.sequential
      · exact hflights ▸ hahead
      · intro k' f'' hf''
        by_cases hne : k' = k
        · subst hne
          obtain rfl := Option.some.inj (hk.symm.trans hf'')
          exact ⟨r, hr, hstage'⟩
        · exact hold hne hf''
      · intro e he hnone
        by_cases hne : e.1 = k
        · rw [hne, hk] at hnone
          cases hnone
        · rw [hflights, Function.update_of_ne hne] at hnone
          exact h.busy e he hnone
      · exact h.nodup
      · exact h.arrived
  | @ended m₂ m₁' hserve hahead =>
      obtain rfl : m₁ = m₂ := Store.memory.inj (hbase.store.symm.trans hstore)
      have hk : w.flights k = none := by rw [hflights, Function.update_self]
      refine ⟨m₁, m₁', ?_⟩
      rw [Node.record_ended hk hr]
      constructor
      · exact hbase
      · show (s.served ++ [r]).foldl _ _ = _
        rw [List.foldl_append, h.sequential]
        exact hserve
      · exact hflights ▸ hahead
      · intro k' f'' hf''
        have hne : k' ≠ k := by
          intro heq
          rw [heq, hk] at hf''
          cases hf''
        obtain ⟨r', hr', hstage'⟩ := hold hne hf''
        exact ⟨r', (lookup_others hne).trans hr', hstage'⟩
      · show ∀ e ∈ s.others k, w.flights e.1 ≠ none
        rw [hflights]
        exact busy_others h.busy
      · exact nodup_others h.nodup
      · -- the request moves from the one list to the other
        have hmove := serving_perm h.nodup hr
        calc (s.served ++ [r] ++ s.dropped ++ (s.others k).map Prod.snd)
            = s.served ++ r :: (s.dropped ++ (s.others k).map Prod.snd) := by simp
          List.Perm _ (s.served ++ (s.dropped ++ r :: (s.others k).map Prod.snd)) :=
            List.Perm.append_left _ List.perm_middle.symm
          List.Perm _ (s.served ++ (s.dropped ++ s.serving.map Prod.snd)) :=
            List.Perm.append_left _ (List.Perm.append_left _ hmove.symm)
          _ = s.served ++ s.dropped ++ s.serving.map Prod.snd := by simp
          List.Perm _ s.arrived := h.arrived

theorem Serial.drop (h : Serial lib (engineOf execute) m m' s) {k : Nat}
    (hC : NotHalfway s.world (.drop k))
    (hstep : step lib (engineOf execute) s (.drop k) = some t) :
    Serial lib (engineOf execute) m m' t := by
  obtain ⟨w, hw, rfl⟩ := Option.map_eq_some_iff.mp hstep
  obtain rfl : { s.world with flights := Function.update s.world.flights k none } = w :=
    Option.some.inj hw
  constructor
  · exact inv_drop h.base
  · exact h.sequential
  · refine h.ahead.mono fun id hon => hon.update fun stored hstored => ?_
    have hhalf : (s.world.flights k).any halfway = false := hC
    rw [hstored] at hhalf
    cases hhalf
  · intro k' f' hf'
    rcases flight_of_update hf' with ⟨-, hf⟩ | ⟨hne, hold⟩
    · cases hf
    · obtain ⟨r, hr, hstage⟩ := h.stage k' f' hold
      exact ⟨r, (lookup_others hne).trans hr, hstage⟩
  · exact busy_others h.busy
  · exact nodup_others h.nodup
  · show (s.served ++ (s.dropped ++ s.request k) ++ (s.others k).map Prod.snd).Perm s.arrived
    have hmove : (s.request k ++ (s.others k).map Prod.snd).Perm (s.serving.map Prod.snd) := by
      unfold Node.request
      cases hr : s.serving.lookup k with
      | some r => exact (serving_perm h.nodup hr).symm
      | none =>
          -- nobody is dropped
          have hsame : s.others k = s.serving := by
            refine List.filter_eq_self.mpr fun e he => decide_eq_true fun heq => ?_
            have hne := List.lookup_eq_none_iff.mp hr e he
            simp [heq] at hne
          rw [hsame]
          exact List.Perm.refl _
    calc (s.served ++ (s.dropped ++ s.request k) ++ (s.others k).map Prod.snd)
        = s.served ++ s.dropped ++ (s.request k ++ (s.others k).map Prod.snd) := by simp
      List.Perm _ (s.served ++ s.dropped ++ s.serving.map Prod.snd) :=
        List.Perm.append_left _ hmove
      List.Perm _ s.arrived := h.arrived

theorem Serial.step {i : Label} (h : Serial lib (engineOf execute) m m' s) (hC : NotHalfway s.world i)
    (hstep : step lib (engineOf execute) s i = some t) :
    ∃ m₁ m₁', Serial lib (engineOf execute) m₁ m₁' t := by
  cases i with
  | arrive k draws a => exact ⟨m, m', h.arrive hstep⟩
  | call k => exact h.call hstep
  | drop k => exact ⟨m, m', h.drop hC hstep⟩

/-- No handler is in flight where none serves a request. -/
theorem Serial.quiet_iff (h : Serial lib (engineOf execute) m m' s) :
    s.serving = [] ↔ ∀ k, s.world.flights k = none := by
  constructor
  · intro hnone k
    cases hf : s.world.flights k with
    | none => rfl
    | some f =>
        obtain ⟨r, hr, -⟩ := h.stage k f hf
        rw [hnone] at hr
        cases hr
  · intro hquiet
    refine List.eq_nil_iff_forall_not_mem.mpr fun e he => ?_
    exact h.busy e he (hquiet e.1)

theorem exists_serial {tr : List (Node × Label)}
    (hrun : Transition.Run (step lib (engineOf execute)) Node.init tr s)
    (hdrops : Transition.EachStep (fun s i => NotHalfway s.world i) tr) :
    ∃ m m', Serial lib (engineOf execute) m m' s :=
  (hrun.always_of (P := fun s => ∃ m m', Serial lib (engineOf execute) m m' s)
    ⟨_, _, Serial.init⟩ (fun _ _ _ ⟨_, _, h⟩ hC hstep => h.step hC hstep) hdrops).1

/-- **The handlers are serializable.** Whatever the interleaving of their storage calls, when no
handler is in flight any more the in-memory store holds what the requests whose handlers have ended
make of an empty one when each is handled from its first line to its last, in the order in which
they ended; every other request was dropped, and has left nothing. -/
theorem requests_serializable {tr : List (Node × Label)}
    (hrun : Transition.Run (step lib (engineOf execute)) Node.init tr s)
    (hdrops : Transition.EachStep (fun s i => NotHalfway s.world i) tr) (hquiet : ∀ k, s.world.flights k = none) :
    (s.served ++ s.dropped).Perm s.arrived ∧
      ∃ m m', s.world.store = .memory m ∧
        s.served.foldl (serve lib (engineOf execute)) (.memory .default) = .memory m' ∧
        SameMaps m m' := by
  obtain ⟨m, m', h⟩ := exists_serial hrun hdrops
  have harrived := h.arrived
  rw [h.quiet_iff.mpr hquiet, List.map_nil, List.append_nil] at harrived
  refine ⟨harrived, m, m', h.base.store, h.sequential, ?_⟩
  refine ⟨h.ahead.agents, fun id => ?_, h.ahead.bids, h.ahead.results⟩
  rcases h.ahead.tasks id with hsame | ⟨t, -, -, k, stored, hf, -⟩
  · exact hsame
  · rw [hquiet k] at hf
    cases hf

/-- A task and two results for it, each built from a copy that was read before the other was stored,
and a bid whose client went away. -/
def interleaved : List Label :=
  twoResults ++ [.arrive 0 (otherDraws "c") (.submitBid ⟨sampleDraws.uuid 0, "a", 1, 1, 1⟩),
    .call 0, .drop 0]

/-- The three that ended are handled one after the other. -/
theorem interleaved_serializable :
    ∃ tr s, Transition.Run (step (sampleLibraries []) (engineOf fun _ => .ok [])) Node.init tr s ∧
      s.served.length = 3 ∧ s.dropped.length = 1 ∧
      ∃ m m', s.world.store = .memory m ∧
        s.served.foldl (serve (sampleLibraries []) (engineOf fun _ => .ok []))
          (.memory .default) = .memory m' ∧ SameMaps m m' := by
  obtain ⟨tr, s, hrun, hend⟩ := Transition.Run.reach_of_exec
    (p := fun s => s.serving.isEmpty && s.served.length = 3 && s.dropped.length = 1)
    (show (Transition.exec (Transition.guarded (step (sampleLibraries [])
      (engineOf fun _ => .ok [])) fun s i => NotHalfway s.world i) Node.init interleaved).any _ = true from rfl)
  obtain ⟨hrun, hdrops⟩ := hrun.of_guarded
  simp only [Bool.and_eq_true, List.isEmpty_iff, decide_eq_true_eq] at hend
  obtain ⟨⟨hserving, hserved⟩, hdropped⟩ := hend
  obtain ⟨_, _, hserial⟩ := exists_serial hrun hdrops
  exact ⟨tr, s, hrun, hserved, hdropped,
    (requests_serializable hrun hdrops (hserial.quiet_iff.mp hserving)).2⟩

end Runs

end Ainur.Sequential
