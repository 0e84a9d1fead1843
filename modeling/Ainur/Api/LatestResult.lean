import Ainur.Lib.Keyed
import Ainur.Api.MemoryIntegrity

set_option autoImplicit false

/-! # The latest result of a task

The in-memory store keeps results by their own ids and looks for the result of a task among the
values of the map, in whatever order the map yields them. A task can collect several results, and
then the order decides.
-/

namespace Ainur

/-- `get_result_for_task`, the values of the map in the order in which it yields them. -/
def InMemoryStorage.getResultForTask (order : List StoredResult) (taskId : String) :
    Except ApiError StoredResult :=
  Fallible.okOr (order.find? fun r => r.taskId = taskId)
    (.notFound s!"no result for task {taskId}")

/-- `get_task_result`. -/
def InMemoryStorage.getTaskResult (lib : Libraries) (m : InMemoryStorage)
    (order : List StoredResult) (id : String) : Except ApiError ResultView := do
  let _ ← (Store.memory m).task lib id
  let stored ← getResultForTask order id
  return ResultView.fromStored lib stored

namespace LatestResult

open InFlight MemoryIntegrity

/-! ## The results of a run -/

/-- The handlers and their store, and the results that were inserted, the last one first. -/
structure Node where
  world : World
  inserted : List StoredResult

def Node.init : Node where
  world := World.init (.memory .default)
  inserted := []

/-- The result that a call inserts. -/
def inserts : Flight → List StoredResult
  | .insertResult stored => [stored]
  | _ => []

theorem inserts_cases (f : Flight) : inserts f = [] ∨ ∃ stored, f = .insertResult stored := by
  cases f with
  | insertResult stored => exact Or.inr ⟨stored, rfl⟩
  | _ => exact Or.inl rfl

/-- The result that a step inserts. -/
def Node.inserts (s : Node) : Label → List StoredResult
  | .call k => ((s.world.flights k).map LatestResult.inserts).getD []
  | _ => []

def step (lib : Libraries) (engine : ExecutionEngine) (s : Node) (i : Label) : Option Node :=
  (InFlight.step lib engine s.world i).map fun w =>
    { world := w
      inserted := s.inserts i ++ s.inserted }

/-- Whatever the order of the map, a task's result is the one that was inserted last for it, and
`GET /v1/tasks/:id/result` answers with it. -/
def Latest (lib : Libraries) (s : Node) : Prop :=
  ∀ m, s.world.store = .memory m → ∀ order, order.Perm (m.results.map Prod.snd) →
    ∀ taskId stored, (s.inserted.find? fun r => r.taskId = taskId) = some stored →
      InMemoryStorage.getResultForTask order taskId = .ok stored ∧
        m.getTaskResult lib order taskId = .ok (ResultView.fromStored lib stored)

/-- A result that the step inserts is the first for its task. -/
def FirstResult (s : Node) (i : Label) : Prop :=
  ∀ stored ∈ s.inserts i, ∀ r ∈ s.inserted, r.taskId ≠ stored.taskId

/-! ## Ids of results -/

/-- The id under which a handler will insert a result. -/
def resultId : Flight → Option String
  | .readForResult draws _ => some (draws.uuid 0)
  | .readToExecute draws _ => some (draws.uuid 0)
  | .upsertTask _ stored => some stored.id
  | .insertResult stored => some stored.id
  | _ => none

/-- What holds in every reachable state: the map has the inserted results under their ids, and a
handler that will insert one has an id that no other has. -/
structure Inv (m : InMemoryStorage) (s : Node) : Prop where
  base : MemoryIntegrity.Inv m s.world
  results : m.results = s.inserted.map fun r => (r.id, r)
  ids : (s.inserted.map StoredResult.id).Nodup
  drawn : ∀ r ∈ s.inserted, r.id ∈ s.world.drawn
  waiting : ∀ k f id, s.world.flights k = some f → resultId f = some id →
    id ∈ s.world.drawn ∧ ∀ r ∈ s.inserted, r.id ≠ id
  distinct : ∀ k k' f f' id, s.world.flights k = some f → resultId f = some id →
    s.world.flights k' = some f' → resultId f' = some id → k = k'

theorem inv_init : Inv .default Node.init where
  base := MemoryIntegrity.inv_init
  results := rfl
  ids := List.nodup_nil
  drawn r hr := by cases hr
  waiting k f id hf := by cases hf
  distinct k k' f f' id hf := by cases hf

section Calls

variable {lib : Libraries} {engine : ExecutionEngine} {draws : Draws} {m : InMemoryStorage}

theorem executeAndBuildResult_id {task : StoredTask} {agentId : String} {stored : StoredResult}
    (h : executeAndBuildResult lib draws engine task agentId = .ok stored) :
    stored.id = draws.uuid 0 := by
  obtain ⟨output, -, hstored⟩ := Fallible.bind_eq_ok.mp h
  exact StoredResult.fromSubmission_id hstored

/-- A call puts the result it inserts into the map. -/
theorem advance_results {f : Flight} {m' : InMemoryStorage}
    (h : (f.advance lib engine (.memory m)).1 = .memory m') :
    m'.results = (inserts f).foldl (fun map r => hashInsert map r.id r) m.results := by
  cases f with
  | insertResult stored => exact (congrArg InMemoryStorage.results (Store.memory.inj h)).symm
  | readForBid draws payload =>
      rw [← Store.memory.inj (whenRead_store.symm.trans h)]
      rfl
  | readForResult draws payload =>
      rw [← Store.memory.inj (whenRead_store.symm.trans h)]
      rfl
  | readToExecute draws id =>
      rw [← Store.memory.inj (whenRead_store.symm.trans h)]
      rfl
  | registerAgent agent => exact (congrArg InMemoryStorage.results (Store.memory.inj h)).symm
  | insertTask stored => exact (congrArg InMemoryStorage.results (Store.memory.inj h)).symm
  | insertBid stored => exact (congrArg InMemoryStorage.results (Store.memory.inj h)).symm
  | upsertTask task stored => exact (congrArg InMemoryStorage.results (Store.memory.inj h)).symm

/-- The id of a result stays the same from the read to the insert. -/
theorem advance_resultId {f f' : Flight} {s : Store} {id : String}
    (h : (f.advance lib engine s).2 = some f') (hid : resultId f' = some id) :
    resultId f = some id := by
  have hdone : ∀ x, (written s x none).2 = some f' → resultId f = some id := by
    intro x hx
    rw [written_none] at hx
    cases hx
  cases f with
  | readForBid draws payload =>
      obtain ⟨task, hnext⟩ := whenRead_next h
      obtain ⟨stored, -, rfl⟩ := Option.map_eq_some_iff.mp hnext
      cases hid
  | readForResult draws payload =>
      obtain ⟨task, hnext⟩ := whenRead_next h
      obtain ⟨stored, hstored, rfl⟩ := Option.map_eq_some_iff.mp hnext
      rw [← hid]
      exact congrArg some
        (StoredResult.fromSubmission_id (Fallible.toOption_eq_some.mp hstored)).symm
  | readToExecute draws taskId =>
      obtain ⟨task, hnext⟩ := whenRead_next h
      obtain ⟨stored, hstored, rfl⟩ := Option.map_eq_some_iff.mp hnext
      rw [← hid]
      exact congrArg some
        (executeAndBuildResult_id (Fallible.toOption_eq_some.mp hstored)).symm
  | upsertTask task stored =>
      have hnext : f' = .insertResult stored := by
        cases hx : s.upsertTask lib { task with status := .completed } with
        | ok r =>
            rw [Flight.advance, hx] at h
            exact (Option.some.inj h).symm
        | error e =>
            rw [Flight.advance, hx] at h
            cases h
      rw [hnext] at hid
      exact hid
  | registerAgent agent => exact hdone _ h
  | insertTask stored => exact hdone _ h
  | insertBid stored => exact hdone _ h
  | insertResult stored => exact hdone _ h

/-- A handler that arrives has the UUID that it drew. -/
theorem start_resultId {a : Arrival} {f : Flight} {id : String}
    (h : Flight.start lib draws a = some f) (hid : resultId f = some id) :
    id = draws.uuid 0 := by
  cases a with
  | registerAgent payload =>
      obtain ⟨-, rfl⟩ : _ ∧ Flight.registerAgent payload = f := by
        simpa [Flight.start] using h
      cases hid
  | submitTask payload =>
      obtain ⟨stored, -, rfl⟩ := Option.map_eq_some_iff.mp h
      cases hid
  | submitBid payload =>
      cases h
      cases hid
  | submitResult payload =>
      cases h
      exact (Option.some.inj hid).symm
  | executeTaskLocal taskId =>
      cases h
      exact (Option.some.inj hid).symm

end Calls

/-! ## Steps -/

section Steps

variable {lib : Libraries} {engine : ExecutionEngine} {m : InMemoryStorage} {s t : Node}

theorem step_eq_some {i : Label} :
    step lib engine s i = some t ↔
      InFlight.step lib engine s.world i = some t.world ∧ t.inserted = s.inserts i ++ s.inserted := by
  obtain ⟨w, inserted⟩ := t
  simp only [step, Option.map_eq_some_iff, Node.mk.injEq]
  constructor
  · rintro ⟨w', hw, rfl, rfl⟩
    exact ⟨hw, rfl⟩
  · rintro ⟨hw, rfl⟩
    exact ⟨w, hw, rfl, rfl⟩

/-- A result with a new id goes in front of the map. -/
theorem hashInsert_results {inserted : List StoredResult} {stored : StoredResult}
    (hnew : ∀ r ∈ inserted, r.id ≠ stored.id) :
    hashInsert (inserted.map fun r => (r.id, r)) stored.id stored =
      (stored :: inserted).map fun r => (r.id, r) := by
  have hkeep : (inserted.map fun r => (r.id, r)).filter (fun entry => entry.1 ≠ stored.id) =
      inserted.map fun r => (r.id, r) := by
    rw [List.filter_eq_self]
    intro entry hentry
    obtain ⟨r, hr, rfl⟩ := List.mem_map.mp hentry
    simpa using hnew r hr
  rw [hashInsert, hkeep, List.map_cons]

/-- What is inserted by a call is what the handler waited to insert. -/
theorem mem_inserts_call {k : Nat} {r : StoredResult} :
    r ∈ s.inserts (.call k) ↔ s.world.flights k = some (.insertResult r) := by
  rw [Node.inserts]
  cases hf : s.world.flights k with
  | none => simp
  | some f =>
      cases f <;> simp [LatestResult.inserts, eq_comm]

theorem inv_arrive (hinv : Inv m s) {k : Nat} {draws : Draws} {a : Arrival}
    (h : InFlight.step lib engine s.world (.arrive k draws a) = some t.world)
    (hinserted : t.inserted = s.inserted) : Inv m t := by
  have hbase := MemoryIntegrity.inv_arrive hinv.base h
  obtain ⟨hidle, hfresh, f, hstart, hworld⟩ := step_arrive.mp h
  have hflights : t.world.flights = Function.update s.world.flights k (some f) := by rw [← hworld]
  have hdrawn : t.world.drawn = draws.uuid 0 :: s.world.drawn := by rw [← hworld]
  -- the id of a result that was under way before is not the UUID that is drawn now
  have hold : ∀ k' f' id, s.world.flights k' = some f' → resultId f' = some id →
      id ≠ draws.uuid 0 := by
    intro k' f' id hf' hid heq
    exact hfresh (heq ▸ (hinv.waiting k' f' id hf' hid).1)
  constructor
  · exact hbase
  · rw [hinserted]
    exact hinv.results
  · rw [hinserted]
    exact hinv.ids
  · intro r hr
    rw [hinserted] at hr
    rw [hdrawn]
    exact List.mem_cons_of_mem _ (hinv.drawn r hr)
  · intro k' f' id hf' hid
    rw [hflights] at hf'
    rw [hdrawn, hinserted]
    rcases flight_of_update hf' with ⟨-, hf⟩ | ⟨-, hf⟩
    · -- the handler that arrives has a UUID that nobody has drawn
      rw [← Option.some.inj hf] at hid
      have hnew : id = draws.uuid 0 := start_resultId hstart hid
      rw [hnew]
      exact ⟨List.mem_cons_self, fun r hr heq => hfresh (heq ▸ hinv.drawn r hr)⟩
    · obtain ⟨hmem, hne⟩ := hinv.waiting k' f' id hf hid
      exact ⟨List.mem_cons_of_mem _ hmem, hne⟩
  · intro k₁ k₂ f₁ f₂ id h₁ hid₁ h₂ hid₂
    rw [hflights] at h₁ h₂
    rcases flight_of_update h₁ with ⟨hk₁, hf₁⟩ | ⟨-, hf₁⟩
    · rcases flight_of_update h₂ with ⟨hk₂, -⟩ | ⟨-, hf₂⟩
      · rw [hk₁, hk₂]
      · rw [← Option.some.inj hf₁] at hid₁
        exact absurd (start_resultId hstart hid₁) (hold k₂ f₂ id hf₂ hid₂)
    · rcases flight_of_update h₂ with ⟨-, hf₂⟩ | ⟨-, hf₂⟩
      · rw [← Option.some.inj hf₂] at hid₂
        exact absurd (start_resultId hstart hid₂) (hold k₁ f₁ id hf₁ hid₁)
      · exact hinv.distinct k₁ k₂ f₁ f₂ id hf₁ hid₁ hf₂ hid₂

theorem inv_drop (hinv : Inv m s) {k : Nat} (hinserted : t.inserted = s.inserted)
    (hworld : { s.world with flights := Function.update s.world.flights k none } = t.world) :
    Inv m t := by
  obtain ⟨w, inserted⟩ := t
  obtain rfl : _ = w := hworld
  obtain rfl : inserted = s.inserted := hinserted
  have hold : ∀ k' f', Function.update s.world.flights k none k' = some f' →
      s.world.flights k' = some f' := by
    intro k' f' hf'
    rcases flight_of_update hf' with ⟨-, hf⟩ | ⟨-, hf⟩
    · cases hf
    · exact hf
  exact ⟨MemoryIntegrity.inv_drop hinv.base, hinv.results, hinv.ids, hinv.drawn,
    fun k' f' id hf' hid => hinv.waiting k' f' id (hold k' f' hf') hid,
    fun k₁ k₂ f₁ f₂ id h₁ hid₁ h₂ hid₂ =>
      hinv.distinct k₁ k₂ f₁ f₂ id (hold k₁ f₁ h₁) hid₁ (hold k₂ f₂ h₂) hid₂⟩

/-- A result that is under way after a call was under way before, at the same handler. -/
theorem resultId_before {k k' : Nat} {w : World} {f : Flight} {id : String}
    (h : InFlight.step lib engine s.world (.call k) = some w) (hf : w.flights k' = some f)
    (hid : resultId f = some id) :
    ∃ f₀, s.world.flights k' = some f₀ ∧ resultId f₀ = some id := by
  obtain ⟨f₀, hf₀, rfl⟩ := step_call.mp h
  rcases flight_of_update hf with ⟨hk, hnow⟩ | ⟨-, hold⟩
  · rw [hk]
    exact ⟨f₀, hf₀, advance_resultId hnow hid⟩
  · exact ⟨f, hold, hid⟩

/-- A handler that has inserted its result is done. -/
theorem done_after_insert {k : Nat} {w : World} {stored : StoredResult}
    (h : InFlight.step lib engine s.world (.call k) = some w)
    (hf : s.world.flights k = some (.insertResult stored)) : w.flights k = none := by
  obtain ⟨f, hf', rfl⟩ := step_call.mp h
  obtain rfl : Flight.insertResult stored = f := Option.some.inj (hf.symm.trans hf')
  exact (Function.update_self ..).trans written_none

theorem inv_call (hinv : Inv m s) {k : Nat}
    (h : InFlight.step lib engine s.world (.call k) = some t.world)
    (hinserted : t.inserted = s.inserts (.call k) ++ s.inserted) : ∃ m', Inv m' t := by
  obtain ⟨m', hbase, -⟩ := MemoryIntegrity.inv_call hinv.base h
  obtain ⟨f, hf, hworld⟩ := step_call.mp h
  have hdrawn : t.world.drawn = s.world.drawn := by rw [← hworld]
  have hinserts : s.inserts (.call k) = inserts f := by rw [Node.inserts, hf]; rfl
  have hstore : (f.advance lib engine (.memory m)).1 = .memory m' := by
    rw [← hinv.base.store, ← hbase.store, ← hworld]
  -- the result that is inserted has an id of its own
  have hown : ∀ r, f = .insertResult r → ∀ r' ∈ s.inserted, r'.id ≠ r.id := by
    intro r hr
    exact (hinv.waiting k f r.id hf (by rw [hr]; rfl)).2
  refine ⟨m', hbase, ?_, ?_, ?_, ?_, ?_⟩
  · rw [advance_results hstore, hinv.results, hinserted, hinserts]
    rcases inserts_cases f with hnone | ⟨stored, rfl⟩
    · rw [hnone]
      rfl
    · exact hashInsert_results (hown stored rfl)
  · -- a new entry has a new key
    rw [hinserted, hinserts]
    rcases inserts_cases f with hnone | ⟨stored, rfl⟩
    · rw [hnone]
      exact hinv.ids
    · refine List.nodup_cons.mpr ⟨fun hmem => ?_, hinv.ids⟩
      obtain ⟨r, hr, hid⟩ := List.mem_map.mp hmem
      exact hown stored rfl r hr hid
  · intro r hr
    rw [hinserted] at hr
    rw [hdrawn]
    rcases List.mem_append.mp hr with hr | hr
    · exact (hinv.waiting k _ r.id (mem_inserts_call.mp hr) rfl).1
    · exact hinv.drawn r hr
  · intro k' f' id hf' hid
    obtain ⟨f₀, hf₀, hid₀⟩ := resultId_before h hf' hid
    obtain ⟨hmem, hne⟩ := hinv.waiting k' f₀ id hf₀ hid₀
    rw [hdrawn, hinserted]
    refine ⟨hmem, fun r hr => ?_⟩
    rcases List.mem_append.mp hr with hr | hr
    · -- what is inserted now is not under way afterwards
      have hfr : s.world.flights k = some (.insertResult r) := mem_inserts_call.mp hr
      rintro rfl
      obtain rfl : k' = k := hinv.distinct k' k f₀ _ r.id hf₀ hid₀ hfr rfl
      rw [done_after_insert h hfr] at hf'
      cases hf'
    · exact hne r hr
  · intro k₁ k₂ f₁ f₂ id h₁ hid₁ h₂ hid₂
    obtain ⟨g₁, hg₁, hgid₁⟩ := resultId_before h h₁ hid₁
    obtain ⟨g₂, hg₂, hgid₂⟩ := resultId_before h h₂ hid₂
    exact hinv.distinct k₁ k₂ g₁ g₂ id hg₁ hgid₁ hg₂ hgid₂

theorem inv_step (hinv : Inv m s) {i : Label} (h : step lib engine s i = some t) :
    ∃ m', Inv m' t := by
  obtain ⟨hworld, hinserted⟩ := step_eq_some.mp h
  cases i with
  | arrive k draws a => exact ⟨m, inv_arrive hinv hworld hinserted⟩
  | call k => exact inv_call hinv hworld hinserted
  | drop k => exact ⟨m, inv_drop hinv hinserted (Option.some.inj hworld)⟩

end Steps

/-! ## When the latest result is found -/

section Latest

variable {lib : Libraries} {engine : ExecutionEngine} {m : InMemoryStorage} {s t : Node}

/-- No two results are of one task. -/
def OnePerTask (inserted : List StoredResult) : Prop :=
  ∀ a ∈ inserted, ∀ b ∈ inserted, a.taskId = b.taskId → a = b

theorem onePerTask_cons {stored : StoredResult} {inserted : List StoredResult}
    (hnew : ∀ r ∈ inserted, r.id ≠ stored.id) :
    OnePerTask (stored :: inserted) ↔
      OnePerTask inserted ∧ ∀ r ∈ inserted, r.taskId ≠ stored.taskId := by
  constructor
  · intro h
    refine ⟨fun a ha b hb => h a (List.mem_cons_of_mem _ ha) b (List.mem_cons_of_mem _ hb), ?_⟩
    intro r hr heq
    have hsame := h r (List.mem_cons_of_mem _ hr) stored List.mem_cons_self heq
    exact hnew r hr (by rw [hsame])
  · rintro ⟨hone, hfirst⟩ a ha b hb heq
    rcases List.mem_cons.mp ha with rfl | ha'
    · rcases List.mem_cons.mp hb with rfl | hb'
      · rfl
      · exact absurd heq.symm (hfirst b hb')
    · rcases List.mem_cons.mp hb with rfl | hb'
      · exact absurd heq (hfirst a ha')
      · exact hone a ha' b hb' heq

/-- **What the order of the map can decide.** The latest results are found whatever the order is
exactly when no task has two of them. -/
theorem latest_iff_onePerTask (hinv : Inv m s) : Latest lib s ↔ OnePerTask s.inserted := by
  have hvalues : m.results.map Prod.snd = s.inserted := by
    rw [hinv.results, List.map_map]
    exact List.map_id _
  constructor
  · intro h a ha b hb heq
    -- the search for their task finds the same in every order
    have hsearch : ∀ order : List StoredResult, order.Perm s.inserted →
        (order.find? fun r => r.taskId = a.taskId) =
          s.inserted.find? fun r => r.taskId = a.taskId := by
      intro order horder
      cases hfind : s.inserted.find? fun r => r.taskId = a.taskId with
      | none =>
          exact absurd (decide_eq_true rfl) (List.find?_eq_none.mp hfind a ha)
      | some stored =>
          have hanswer := (h m hinv.base.store order (hvalues ▸ horder) a.taskId stored hfind).1
          exact Fallible.okOr_eq_ok.mp hanswer
    exact Keyed.find_any_order_iff.mp hsearch a ha b hb (decide_eq_true rfl)
      (decide_eq_true heq.symm)
  · intro hone m' hm' order horder taskId stored hfind
    obtain rfl : m = m' := Store.memory.inj (hinv.base.store.symm.trans hm')
    rw [hvalues] at horder
    have hunique : ∀ a ∈ s.inserted, ∀ b ∈ s.inserted, decide (a.taskId = taskId) = true →
        decide (b.taskId = taskId) = true → a = b := by
      intro a ha b hb hpa hpb
      have hka : a.taskId = taskId := by simpa using hpa
      have hkb : b.taskId = taskId := by simpa using hpb
      exact hone a ha b hb (hka.trans hkb.symm)
    have hresult : InMemoryStorage.getResultForTask order taskId = .ok stored :=
      Fallible.okOr_eq_ok.mpr
        ((Keyed.find_any_order_iff.mpr hunique order horder).trans hfind)
    refine ⟨hresult, ?_⟩
    -- the map refers to stored tasks only, so `get_task` finds the task
    have hmem : stored ∈ s.inserted := List.mem_of_find?_eq_some hfind
    have hkey : stored.taskId = taskId := by simpa using List.find?_some hfind
    have hlookup : m.results.lookup stored.id = some stored := by
      rw [hinv.results]
      refine Keyed.lookup_of_mem ?_ (List.mem_map.mpr ⟨stored, hmem, rfl⟩)
      rw [List.map_map]
      exact hinv.ids
    obtain ⟨task, htask, -⟩ := hinv.base.intact.resultTask stored.id stored hlookup
    rw [hkey] at htask
    rw [InMemoryStorage.getTaskResult, Store.task, htask, Fallible.okOr_some, Fallible.ok_bind,
      hresult, Fallible.ok_bind]
    rfl

/-- A step leaves the latest results to be found exactly when what it inserts is the first result
of its task. -/
theorem latest_step (hinv : Inv m s) {m' : InMemoryStorage} (hinv' : Inv m' t) {i : Label}
    (h : step lib engine s i = some t) (hlatest : Latest lib s) :
    Latest lib t ↔ FirstResult s i := by
  have hone : OnePerTask s.inserted := (latest_iff_onePerTask hinv).mp hlatest
  rw [latest_iff_onePerTask hinv', (step_eq_some.mp h).2, FirstResult]
  have hsplit : s.inserts i = [] ∨ ∃ k stored, i = .call k ∧ s.inserts i = [stored] ∧
      s.world.flights k = some (.insertResult stored) := by
    cases i with
    | arrive k draws a => exact Or.inl rfl
    | drop k => exact Or.inl rfl
    | call k =>
        cases hf : s.world.flights k with
        | none => exact Or.inl (by rw [Node.inserts, hf]; rfl)
        | some f =>
            have hinserts : s.inserts (.call k) = inserts f := by rw [Node.inserts, hf]; rfl
            rcases inserts_cases f with hnone | ⟨stored, rfl⟩
            · exact Or.inl (hinserts.trans hnone)
            · exact Or.inr ⟨k, stored, rfl, hinserts, hf⟩
  rcases hsplit with hnone | ⟨k, stored, -, hstored, hf⟩
  · -- nothing is inserted
    rw [hnone]
    refine ⟨fun _ stored hmem => ?_, fun _ => hone⟩
    cases hmem
  · rw [hstored, List.singleton_append,
      onePerTask_cons (hinv.waiting k _ stored.id hf rfl).2]
    constructor
    · rintro ⟨-, hfirst⟩ stored' hmem
      obtain rfl : stored' = stored := List.mem_singleton.mp hmem
      exact hfirst
    · intro hfirst
      exact ⟨hone, hfirst stored List.mem_cons_self⟩

/-- **When the in-memory store returns the latest result.** In every state of a run of the
handlers, in whatever order the map yields its values, the result found for a task is the one
inserted last, exactly when no result is inserted for a task that already has one. -/
theorem latest_iff {tr : List (Node × Label)}
    (hrun : Transition.Run (step lib engine) Node.init tr s) :
    Transition.Always (Latest lib) tr s ↔ Transition.EachStep FirstResult tr := by
  have hstart : Latest lib Node.init := (latest_iff_onePerTask inv_init).mpr fun a ha => by cases ha
  have hstep : ∀ s i t, (∃ m, Inv m s) → step lib engine s i = some t → ∃ m, Inv m t := by
    rintro s i t ⟨m, hinv⟩ h
    exact inv_step hinv h
  refine hrun.always_iff ⟨_, inv_init⟩ hstart hstep ?_
  rintro s i t ⟨m, hinv⟩ hlatest h
  obtain ⟨m', hinv'⟩ := inv_step hinv h
  exact latest_step hinv hinv' h hlatest

/-! ### Two results -/

/-- A task and one result for it. -/
def oneResult : List Label :=
  [.arrive 0 sampleDraws (.submitTask (taskWithBudget 5)), .call 0,
    .arrive 1 (otherDraws "a") (.submitResult sampleResult), .call 1, .call 1, .call 1]

theorem latest_iff_oneResult :
    ∃ tr s, Transition.Run (step (sampleLibraries []) fun _ => .ok []) Node.init tr s ∧
      s.inserted.length = 1 ∧
      (Transition.Always (Latest (sampleLibraries [])) tr s ↔
        Transition.EachStep FirstResult tr) := by
  obtain ⟨tr, s, hrun, hone⟩ := Transition.Run.reach_of_exec
    (p := fun s : Node => decide (s.inserted.length = 1))
    (show (Transition.exec (step (sampleLibraries []) fun _ => .ok []) Node.init
      oneResult).any _ = true from rfl)
  exact ⟨tr, s, hrun, of_decide_eq_true hone, latest_iff hrun⟩

/-- **With two results the order decides.** -/
theorem twoResults_not_latest :
    ∃ tr s, Transition.Run (step (sampleLibraries []) fun _ => .ok []) Node.init tr s ∧
      ¬ Latest (sampleLibraries []) s := by
  obtain ⟨tr, s, hrun, htwo⟩ := Transition.Run.reach_of_exec
    (p := fun s : Node => s.inserted.map (fun r => (r.id, r.taskId)) =
      [("b", sampleDraws.uuid 0), ("a", sampleDraws.uuid 0)])
    (show (Transition.exec (step (sampleLibraries []) fun _ => .ok []) Node.init
      twoResults).any _ = true from rfl)
  obtain ⟨m, hinv⟩ : ∃ m, Inv m s :=
    hrun.invariant (P := fun s => ∃ m, Inv m s) ⟨_, inv_init⟩ fun _ _ _ hinv h =>
      hinv.elim fun _ hinv => inv_step hinv h
  refine ⟨tr, s, hrun, fun hlatest => ?_⟩
  have hone : OnePerTask s.inserted := (latest_iff_onePerTask hinv).mp hlatest
  have hids : s.inserted.map (fun r => (r.id, r.taskId)) =
      [("b", sampleDraws.uuid 0), ("a", sampleDraws.uuid 0)] := of_decide_eq_true htwo
  obtain ⟨b, rest, hinserted, hb, hrest⟩ := List.map_eq_cons_iff.mp hids
  obtain ⟨a, rest', rfl, ha, -⟩ := List.map_eq_cons_iff.mp hrest
  rw [hinserted] at hone
  -- both results are of the task, and their ids differ
  have hsame : a = b := hone a (by simp) b (by simp)
    ((congrArg Prod.snd ha).trans (congrArg Prod.snd hb).symm)
  have hid : ("a" : String) = "b" := by
    calc "a" = a.id := (congrArg Prod.fst ha).symm
      _ = b.id := by rw [hsame]
      _ = "b" := congrArg Prod.fst hb
  exact absurd hid (by decide)

end Latest

end LatestResult

end Ainur
