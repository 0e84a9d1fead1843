import Ainur.Api.InFlight

set_option autoImplicit false

/-! # The in-memory store under concurrent handlers

A handler reads a task, builds a record from its copy and, for a result, writes the whole copy back.
The copies in flight agree with the stored task in every field but the status, and that is what
keeps the references between the maps intact.
-/

namespace Ainur.MemoryIntegrity

open InFlight

/-! ## What holds of the maps -/

/-- The record refers to a stored task by its id and by its core id. -/
def Refers (m : InMemoryStorage) (taskId : String) (core : Core.TaskId) : Prop :=
  ∃ t, m.tasks.lookup taskId = some t ∧ core = t.task.id

/-- It does, and the task is completed. -/
def RefersCompleted (m : InMemoryStorage) (taskId : String) (core : Core.TaskId) : Prop :=
  ∃ t, m.tasks.lookup taskId = some t ∧ core = t.task.id ∧ t.status = .completed

structure Intact (m : InMemoryStorage) (submitted : List StoredTask) : Prop where
  agentId : ∀ id a, m.agents.lookup id = some a → a.id = id
  taskId : ∀ id t, m.tasks.lookup id = some t → t.id = id
  bidId : ∀ id b, m.bids.lookup id = some b → b.id = id
  resultId : ∀ id r, m.results.lookup id = some r → r.id = id
  bidTask : ∀ id b, m.bids.lookup id = some b → Refers m b.taskId b.bid.taskId
  resultTask : ∀ id r, m.results.lookup id = some r → RefersCompleted m r.taskId r.result.taskId
  /-- But for its status, a stored task is the first that was submitted under its id. -/
  submitted : ∀ id t, m.tasks.lookup id = some t →
    ∃ t₀, (submitted.find? fun t₀ => t₀.id = id) = some t₀ ∧ t = { t₀ with status := t.status }

/-- The tasks only change in their status, and never back from completed. -/
def Evolves (m m' : InMemoryStorage) : Prop :=
  ∀ id t, m.tasks.lookup id = some t → ∃ t', m'.tasks.lookup id = some t' ∧
    t' = { t with status := t'.status } ∧ (t.status = .completed → t'.status = .completed)

theorem Evolves.of_tasks_eq {m m' : InMemoryStorage} (h : m'.tasks = m.tasks) : Evolves m m' := by
  intro id t ht
  exact ⟨t, by rw [h]; exact ht, rfl, fun hs => hs⟩

theorem Evolves.trans {a b c : InMemoryStorage} (hab : Evolves a b) (hbc : Evolves b c) :
    Evolves a c := by
  intro id t ht
  obtain ⟨t', ht', hsame, hstatus⟩ := hab id t ht
  obtain ⟨t'', ht'', hsame', hstatus'⟩ := hbc id t' ht'
  refine ⟨t'', ht'', ?_, fun hs => hstatus' (hstatus hs)⟩
  rw [hsame', hsame]

section Stable

variable {m m' : InMemoryStorage} {taskId : String} {core : Core.TaskId}

theorem Refers.evolve (h : Refers m taskId core) (hev : Evolves m m') : Refers m' taskId core := by
  obtain ⟨t, ht, hcore⟩ := h
  obtain ⟨t', ht', hsame, _⟩ := hev taskId t ht
  exact ⟨t', ht', by rw [hsame]; exact hcore⟩

theorem RefersCompleted.evolve (h : RefersCompleted m taskId core) (hev : Evolves m m') :
    RefersCompleted m' taskId core := by
  obtain ⟨t, ht, hcore, hcompleted⟩ := h
  obtain ⟨t', ht', hsame, hstatus⟩ := hev taskId t ht
  exact ⟨t', ht', by rw [hsame]; exact hcore, hstatus hcompleted⟩

end Stable

/-! ## What holds of the copies -/

/-- What a handler in flight holds fits the maps: a copy of a task is that task but for its status,
and a record refers to the task that it was built from. -/
def Holds (m : InMemoryStorage) : Flight → Prop
  | .insertBid stored => Refers m stored.taskId stored.bid.taskId
  | .upsertTask task stored =>
      (∃ t, m.tasks.lookup task.id = some t ∧ task = { t with status := task.status }) ∧
        stored.taskId = task.id ∧ stored.result.taskId = task.task.id
  | .insertResult stored => RefersCompleted m stored.taskId stored.result.taskId
  | _ => True

theorem Holds.evolve {m m' : InMemoryStorage} {f : Flight} (h : Holds m f)
    (hev : Evolves m m') : Holds m' f := by
  cases f with
  | insertBid stored => exact Refers.evolve h hev
  | upsertTask task stored =>
      obtain ⟨⟨t, ht, hsame⟩, hids⟩ := h
      obtain ⟨t', ht', hsame', _⟩ := hev task.id t ht
      refine ⟨⟨t', ht', ?_⟩, hids⟩
      rw [hsame', hsame]
  | insertResult stored => exact RefersCompleted.evolve h hev
  | registerAgent agent => trivial
  | insertTask stored => trivial
  | readForBid draws payload => trivial
  | readForResult draws payload => trivial
  | readToExecute draws id => trivial

/-- What holds in every reachable state: the maps are intact, every copy in flight fits them, and
the tasks that are still to be inserted have ids of their own. -/
structure Inv (m : InMemoryStorage) (s : World) : Prop where
  store : s.store = .memory m
  intact : Intact m s.submitted
  holds : ∀ k f, s.flights k = some f → Holds m f
  drawn : ∀ t ∈ s.submitted, t.id ∈ s.drawn
  unsubmitted : ∀ k t, s.flights k = some (.insertTask t) →
    t.id ∈ s.drawn ∧ ∀ t' ∈ s.submitted, t'.id ≠ t.id
  distinct : ∀ k k' t t', s.flights k = some (.insertTask t) →
    s.flights k' = some (.insertTask t') → t.id = t'.id → k = k'

theorem inv_init : Inv .default (World.init (.memory .default)) := by
  constructor
  · rfl
  · constructor <;> intro _ _ h <;> cases h
  · intro k f h
    cases h
  · intro t h
    cases h
  · intro k t h
    cases h
  · intro k k' t t' h
    cases h

/-! ## Writes -/

section Writes

variable {m : InMemoryStorage} {sub : List StoredTask}

theorem Intact.insertAgent (h : Intact m sub) (agent : AgentRegistrationRequest) :
    Intact { m with agents := hashInsert m.agents agent.id agent } sub where
  agentId id a ha := by
    rw [lookup_hashInsert] at ha
    split at ha
    · next hid => rw [← Option.some.inj ha, hid]
    · exact h.agentId id a ha
  taskId := h.taskId
  bidId := h.bidId
  resultId := h.resultId
  bidTask := h.bidTask
  resultTask := h.resultTask
  submitted := h.submitted

theorem Intact.insertBid (h : Intact m sub) {bid : StoredBid}
    (hrefers : Refers m bid.taskId bid.bid.taskId) :
    Intact { m with bids := hashInsert m.bids bid.id bid } sub where
  agentId := h.agentId
  taskId := h.taskId
  bidId id b hb := by
    rw [lookup_hashInsert] at hb
    split at hb
    · next hid => rw [← Option.some.inj hb, hid]
    · exact h.bidId id b hb
  resultId := h.resultId
  bidTask id b hb := by
    rw [lookup_hashInsert] at hb
    split at hb
    · rw [← Option.some.inj hb]
      exact hrefers
    · exact h.bidTask id b hb
  resultTask := h.resultTask
  submitted := h.submitted

theorem Intact.insertResult (h : Intact m sub) {result : StoredResult}
    (hrefers : RefersCompleted m result.taskId result.result.taskId) :
    Intact { m with results := hashInsert m.results result.id result } sub where
  agentId := h.agentId
  taskId := h.taskId
  bidId := h.bidId
  resultId id r hr := by
    rw [lookup_hashInsert] at hr
    split at hr
    · next hid => rw [← Option.some.inj hr, hid]
    · exact h.resultId id r hr
  bidTask := h.bidTask
  resultTask id r hr := by
    rw [lookup_hashInsert] at hr
    split at hr
    · rw [← Option.some.inj hr]
      exact hrefers
    · exact h.resultTask id r hr
  submitted := h.submitted

/-- `m` with a task under its id. -/
def putTask (m : InMemoryStorage) (task : StoredTask) : InMemoryStorage :=
  { m with tasks := hashInsert m.tasks task.id task }

/-- A task that is new, or the stored one but for a status that does not go back. -/
theorem evolves_putTask {task : StoredTask}
    (h : ∀ t, m.tasks.lookup task.id = some t →
      task = { t with status := task.status } ∧ (t.status = .completed → task.status = .completed)) :
    Evolves m (putTask m task) := by
  intro id t ht
  have hlookup : (putTask m task).tasks.lookup id =
      if id = task.id then some task else m.tasks.lookup id := lookup_hashInsert ..
  by_cases hid : id = task.id
  · subst hid
    rw [if_pos rfl] at hlookup
    exact ⟨task, hlookup, h t ht⟩
  · rw [if_neg hid] at hlookup
    exact ⟨t, by rw [hlookup]; exact ht, rfl, fun hs => hs⟩

theorem Intact.putTask (h : Intact m sub) {task : StoredTask} {sub' : List StoredTask}
    (hev : Evolves m (putTask m task))
    (hfirst : ∃ t₀, (sub'.find? fun t₀ => t₀.id = task.id) = some t₀ ∧
      task = { t₀ with status := task.status })
    (hkeep : ∀ id t₀, (sub.find? fun t₀ => t₀.id = id) = some t₀ →
      (sub'.find? fun t₀ => t₀.id = id) = some t₀) :
    Intact (putTask m task) sub' where
  agentId := h.agentId
  taskId id t ht := by
    rw [show (MemoryIntegrity.putTask m task).tasks.lookup id =
      if id = task.id then some task else m.tasks.lookup id from lookup_hashInsert ..] at ht
    split at ht
    · next hid => rw [← Option.some.inj ht, hid]
    · exact h.taskId id t ht
  bidId := h.bidId
  resultId := h.resultId
  bidTask id b hb := (h.bidTask id b hb).evolve hev
  resultTask id r hr := (h.resultTask id r hr).evolve hev
  submitted id t ht := by
    rw [show (MemoryIntegrity.putTask m task).tasks.lookup id =
      if id = task.id then some task else m.tasks.lookup id from lookup_hashInsert ..] at ht
    split at ht
    · next hid =>
        rw [hid, ← Option.some.inj ht]
        exact hfirst
    · obtain ⟨t₀, ht₀, hsame⟩ := h.submitted id t ht
      exact ⟨t₀, hkeep id t₀ ht₀, hsame⟩

end Writes

/-! ## Calls -/

section Calls

variable {lib : Libraries} {engine : ExecutionEngine} {draws : Draws}
variable {m : InMemoryStorage} {sub : List StoredTask}

/-- A bid refers to the task that it was built from. -/
theorem fromSubmission_refers {payload : BidSubmissionRequest} {task : StoredTask}
    {stored : StoredBid} (htask : m.tasks.lookup task.id = some task)
    (h : StoredBid.fromSubmission lib draws payload task = .ok stored) :
    Refers m stored.taskId stored.bid.taskId := by
  unfold StoredBid.fromSubmission at h
  split at h
  · cases h
  · rw [← Except.ok.inj h]
    exact ⟨task, htask, rfl⟩

theorem fromSubmission_ids {payload : ResultSubmissionRequest} {task : StoredTask}
    {stored : StoredResult}
    (h : StoredResult.fromSubmission lib draws payload task = .ok stored) :
    stored.taskId = task.id ∧ stored.result.taskId = task.task.id := by
  unfold StoredResult.fromSubmission at h
  split at h
  · cases h
  · obtain ⟨output, -, h⟩ := Fallible.bind_eq_ok.mp h
    rw [← Fallible.pure_eq_ok.mp h]
    exact ⟨rfl, rfl⟩

/-- What a call makes of the maps, and what the handler holds next. -/
structure Advances (m : InMemoryStorage) (sub : List StoredTask) (m' : InMemoryStorage)
    (next : Option Flight) : Prop where
  intact : Intact m' sub
  evolves : Evolves m m'
  holds : ∀ f, next = some f → Holds m' f ∧ ∀ t, f ≠ .insertTask t

/-- A read leaves the maps alone and hands the stored task over. -/
theorem whenRead_advances {id : String} {next : StoredTask → Option Flight}
    (hintact : Intact m sub)
    (hnext : ∀ task f, m.tasks.lookup task.id = some task → next task = some f →
      Holds m f ∧ ∀ t, f ≠ .insertTask t) :
    ∃ m', (whenRead (.memory m) ((Store.memory m).task lib id) next).1 = .memory m' ∧
      Advances m sub m' (whenRead (.memory m) ((Store.memory m).task lib id) next).2 := by
  have hself : Evolves m m := Evolves.of_tasks_eq rfl
  cases hlookup : m.tasks.lookup id with
  | none =>
      have hread : whenRead (.memory m) ((Store.memory m).task lib id) next = (.memory m, none) := by
        simp [whenRead, Store.task, hlookup, Fallible.okOr]
      rw [hread]
      exact ⟨m, rfl, hintact, hself, fun f hf => by cases hf⟩
  | some task =>
      have hread : whenRead (.memory m) ((Store.memory m).task lib id) next =
          (.memory m, next task) := by
        simp [whenRead, Store.task, hlookup, Fallible.okOr]
      rw [hread]
      refine ⟨m, rfl, hintact, hself, fun f hf => hnext task f ?_ hf⟩
      rw [hintact.taskId id task hlookup]
      exact hlookup

/-- The copy and the result that a handler holds after its read. -/
theorem holds_upsertTask {task : StoredTask} {stored : StoredResult}
    (htask : m.tasks.lookup task.id = some task)
    (hids : stored.taskId = task.id ∧ stored.result.taskId = task.task.id) :
    Holds m (.upsertTask task stored) ∧ ∀ t, Flight.upsertTask task stored ≠ .insertTask t :=
  ⟨⟨⟨task, htask, rfl⟩, hids⟩, fun _ h => by cases h⟩

variable (lib engine) in
theorem advance_memory {f : Flight} (hintact : Intact m sub) (hholds : Holds m f)
    (hnew : ∀ t, f = .insertTask t → ∀ t' ∈ sub, t'.id ≠ t.id) :
    ∃ m', (f.advance lib engine (.memory m)).1 = .memory m' ∧
      Advances m (sub ++ f.submits) m' (f.advance lib engine (.memory m)).2 := by
  have hdone : ∀ (m' : InMemoryStorage) f', (none : Option Flight) = some f' →
      Holds m' f' ∧ ∀ t, f' ≠ .insertTask t := fun _ f' hf => by cases hf
  cases f with
  | registerAgent agent =>
      simp only [Flight.submits, List.append_nil]
      exact ⟨_, rfl, hintact.insertAgent agent, Evolves.of_tasks_eq rfl, hdone _⟩
  | insertTask stored =>
      have hfind : (sub.find? fun t₀ => t₀.id = stored.id) = none :=
        List.find?_eq_none.mpr fun t' ht' => by simpa using hnew stored rfl t' ht'
      -- a stored task has been submitted, and this one has not
      have hnone : m.tasks.lookup stored.id = none := by
        cases hlookup : m.tasks.lookup stored.id with
        | none => rfl
        | some t =>
            obtain ⟨t₀, ht₀, _⟩ := hintact.submitted stored.id t hlookup
            rw [hfind] at ht₀
            cases ht₀
      have hev : Evolves m (putTask m stored) := by
        refine evolves_putTask fun t ht => ?_
        rw [hnone] at ht
        cases ht
      refine ⟨putTask m stored, rfl, hintact.putTask hev ⟨stored, ?_, rfl⟩ ?_, hev, hdone _⟩
      · simp [Flight.submits, List.find?_append, hfind]
      · intro id t₀ ht₀
        rw [List.find?_append, ht₀, Option.some_or]
  | readForBid draws payload =>
      simp only [Flight.submits, List.append_nil]
      refine whenRead_advances hintact fun task f htask hf => ?_
      obtain ⟨stored, hstored, rfl⟩ := Option.map_eq_some_iff.mp hf
      have hok := Fallible.toOption_eq_some.mp hstored
      exact ⟨fromSubmission_refers htask hok, fun _ h => by cases h⟩
  | insertBid stored =>
      simp only [Flight.submits, List.append_nil]
      exact ⟨_, rfl, hintact.insertBid hholds, Evolves.of_tasks_eq rfl, hdone _⟩
  | readForResult draws payload =>
      simp only [Flight.submits, List.append_nil]
      refine whenRead_advances hintact fun task f htask hf => ?_
      obtain ⟨stored, hstored, rfl⟩ := Option.map_eq_some_iff.mp hf
      exact holds_upsertTask htask (fromSubmission_ids (Fallible.toOption_eq_some.mp hstored))
  | readToExecute draws id =>
      simp only [Flight.submits, List.append_nil]
      refine whenRead_advances hintact fun task f htask hf => ?_
      obtain ⟨stored, hstored, rfl⟩ := Option.map_eq_some_iff.mp hf
      obtain ⟨output, -, hok⟩ := Fallible.bind_eq_ok.mp (Fallible.toOption_eq_some.mp hstored)
      exact holds_upsertTask htask (fromSubmission_ids hok)
  | upsertTask task stored =>
      obtain ⟨⟨t, ht, hsame⟩, hid, hcore⟩ := hholds
      -- the copy may be older than the stored task, but differs from it in the status only
      have hev : Evolves m (putTask m { task with status := .completed }) := by
        refine evolves_putTask fun t' ht' => ?_
        obtain rfl : t = t' := Option.some.inj (ht.symm.trans ht')
        exact ⟨by rw [hsame], fun _ => rfl⟩
      -- both the copy and the stored task go back to the one submitted first
      obtain ⟨t₀, ht₀, hsame₀⟩ := hintact.submitted task.id t ht
      simp only [Flight.submits, List.append_nil]
      refine ⟨putTask m { task with status := .completed }, rfl,
        hintact.putTask hev ⟨t₀, ht₀, by rw [hsame, hsame₀]⟩ fun _ _ h => h, hev, ?_⟩
      intro f' hf'
      obtain rfl : Flight.insertResult stored = f' := Option.some.inj hf'
      -- the result waits for its insert; its task is completed by now
      refine ⟨⟨{ task with status := .completed }, ?_, hcore, rfl⟩, fun _ h => by cases h⟩
      rw [hid]
      exact (lookup_hashInsert ..).trans (if_pos rfl)
  | insertResult stored =>
      simp only [Flight.submits, List.append_nil]
      exact ⟨_, rfl, hintact.insertResult hholds, Evolves.of_tasks_eq rfl, hdone _⟩

end Calls

/-! ## Steps and runs -/

section Runs

variable {lib : Libraries} {engine : ExecutionEngine} {m : InMemoryStorage} {s t : World}

/-- What is in flight after handler `k` has got `f`: `f` itself, or a flight of before. -/
theorem flight_of_update {flights : Nat → Option Flight} {k k' : Nat} {f : Option Flight}
    {f' : Flight} (h : Function.update flights k f k' = some f') :
    (k' = k ∧ f = some f') ∨ (k' ≠ k ∧ flights k' = some f') := by
  by_cases hk : k' = k
  · subst hk
    rw [Function.update_self] at h
    exact Or.inl ⟨rfl, h⟩
  · rw [Function.update_of_ne hk] at h
    exact Or.inr ⟨hk, h⟩

/-- A handler that has just arrived holds no copy, and a new task under the UUID it drew. -/
theorem start_spec {draws : Draws} {a : Arrival} {f : Flight}
    (h : Flight.start lib draws a = some f) :
    Holds m f ∧ ∀ task, f = .insertTask task → task.id = draws.uuid 0 := by
  cases a with
  | registerAgent payload =>
      obtain ⟨-, rfl⟩ : _ ∧ Flight.registerAgent payload = f := by
        simpa [Flight.start] using h
      exact ⟨trivial, fun _ hf => by cases hf⟩
  | submitTask payload =>
      obtain ⟨stored, hstored, rfl⟩ := Option.map_eq_some_iff.mp h
      refine ⟨trivial, fun task htask => ?_⟩
      cases htask
      exact StoredTask.fromSubmission_id (Fallible.toOption_eq_some.mp hstored)
  | submitBid payload =>
      cases h
      exact ⟨trivial, fun _ hf => by cases hf⟩
  | submitResult payload =>
      cases h
      exact ⟨trivial, fun _ hf => by cases hf⟩
  | executeTaskLocal id =>
      cases h
      exact ⟨trivial, fun _ hf => by cases hf⟩

theorem mem_submits {f : Flight} {task : StoredTask} :
    task ∈ f.submits ↔ f = .insertTask task := by
  cases f <;> simp [Flight.submits, eq_comm]

theorem inv_arrive (hinv : Inv m s) {k : Nat} {draws : Draws} {a : Arrival}
    (h : step lib engine s (.arrive k draws a) = some t) : Inv m t := by
  obtain ⟨hidle, hfresh, f, hstart, rfl⟩ := step_arrive.mp h
  obtain ⟨hholds, hid⟩ := start_spec (m := m) hstart
  constructor
  · exact hinv.store
  · exact hinv.intact
  · intro k' f' hf'
    rcases flight_of_update hf' with ⟨_, hf⟩ | ⟨_, hold⟩
    · rw [← Option.some.inj hf]
      exact hholds
    · exact hinv.holds k' f' hold
  · intro task htask
    exact List.mem_cons_of_mem _ (hinv.drawn task htask)
  · intro k' task hf'
    rcases flight_of_update hf' with ⟨_, hf⟩ | ⟨_, hold⟩
    -- the task that just arrived is under a new UUID, so no task stored before has its id
    · have htask := hid task (Option.some.inj hf)
      refine ⟨by rw [htask]; exact List.mem_cons_self, fun t' ht' heq => hfresh ?_⟩
      rw [← htask, ← heq]
      exact hinv.drawn t' ht'
    · obtain ⟨hdrawn, hne⟩ := hinv.unsubmitted k' task hold
      exact ⟨List.mem_cons_of_mem _ hdrawn, hne⟩
  · intro k₁ k₂ t₁ t₂ h₁ h₂ heq
    rcases flight_of_update h₁ with ⟨hk₁, hf₁⟩ | ⟨_, hold₁⟩
    · rcases flight_of_update h₂ with ⟨hk₂, _⟩ | ⟨_, hold₂⟩
      · rw [hk₁, hk₂]
      -- a task under way from before has a UUID drawn before
      · have hdrawn := (hinv.unsubmitted k₂ t₂ hold₂).1
        rw [← heq, hid t₁ (Option.some.inj hf₁)] at hdrawn
        exact absurd hdrawn hfresh
    · rcases flight_of_update h₂ with ⟨_, hf₂⟩ | ⟨_, hold₂⟩
      · have hdrawn := (hinv.unsubmitted k₁ t₁ hold₁).1
        rw [heq, hid t₂ (Option.some.inj hf₂)] at hdrawn
        exact absurd hdrawn hfresh
      · exact hinv.distinct k₁ k₂ t₁ t₂ hold₁ hold₂ heq

theorem inv_drop (hinv : Inv m s) {k : Nat} :
    Inv m { s with flights := Function.update s.flights k none } := by
  have hold : ∀ k' f', Function.update s.flights k none k' = some f' → s.flights k' = some f' := by
    intro k' f' hf'
    rcases flight_of_update hf' with ⟨_, hf⟩ | ⟨_, hold⟩
    · cases hf
    · exact hold
  exact ⟨hinv.store, hinv.intact, fun k' f' hf' => hinv.holds k' f' (hold k' f' hf'), hinv.drawn,
    fun k' task hf' => hinv.unsubmitted k' task (hold k' _ hf'),
    fun k₁ k₂ t₁ t₂ h₁ h₂ => hinv.distinct k₁ k₂ t₁ t₂ (hold k₁ _ h₁) (hold k₂ _ h₂)⟩

theorem inv_call (hinv : Inv m s) {k : Nat} (h : step lib engine s (.call k) = some t) :
    ∃ m', Inv m' t ∧ Evolves m m' := by
  obtain ⟨f, hf, rfl⟩ := step_call.mp h
  obtain ⟨m', hstore, hadv⟩ := advance_memory lib engine hinv.intact
    (hinv.holds k f hf) fun task htask => (hinv.unsubmitted k task (htask ▸ hf)).2
  refine ⟨m', ?_, hadv.evolves⟩
  rw [← hinv.store] at hstore hadv
  constructor
  · exact hstore
  · exact hadv.intact
  · intro k' f' hf'
    rcases flight_of_update hf' with ⟨_, hnext⟩ | ⟨_, hold⟩
    · exact (hadv.holds f' hnext).1
    · exact (hinv.holds k' f' hold).evolve hadv.evolves
  · intro task htask
    rcases List.mem_append.mp htask with htask | htask
    · exact hinv.drawn task htask
    · exact (hinv.unsubmitted k task (mem_submits.mp htask ▸ hf)).1
  · intro k' task hf'
    rcases flight_of_update hf' with ⟨_, hnext⟩ | ⟨hk, hold⟩
    · exact absurd rfl ((hadv.holds _ hnext).2 task)
    · obtain ⟨hdrawn, hne⟩ := hinv.unsubmitted k' task hold
      refine ⟨hdrawn, fun t' ht' heq => ?_⟩
      rcases List.mem_append.mp ht' with ht' | ht'
      · exact hne t' ht' heq
      · exact hk (hinv.distinct k' k task t' hold (mem_submits.mp ht' ▸ hf) heq.symm)
  · intro k₁ k₂ t₁ t₂ h₁ h₂ heq
    rcases flight_of_update h₁ with ⟨_, hnext⟩ | ⟨_, hold₁⟩
    · exact absurd rfl ((hadv.holds _ hnext).2 t₁)
    · rcases flight_of_update h₂ with ⟨_, hnext⟩ | ⟨_, hold₂⟩
      · exact absurd rfl ((hadv.holds _ hnext).2 t₂)
      · exact hinv.distinct k₁ k₂ t₁ t₂ hold₁ hold₂ heq

theorem inv_step (hinv : Inv m s) {i : Label} (h : step lib engine s i = some t) :
    ∃ m', Inv m' t ∧ Evolves m m' := by
  cases i with
  | arrive k draws a => exact ⟨m, inv_arrive hinv h, Evolves.of_tasks_eq rfl⟩
  | call k => exact inv_call hinv h
  | drop k =>
      rw [← Option.some.inj h]
      exact ⟨m, inv_drop hinv, Evolves.of_tasks_eq rfl⟩

/-- In every state that is reached from an empty store the maps are intact, and every earlier state
of the run has evolved into it: no task is lost, none changes in a field other than its status, and
a completed one stays completed. -/
theorem memory_intact {tr : List (World × Label)}
    (hrun : Transition.Run (step lib engine) (World.init (.memory .default)) tr s) :
    ∃ m, s.store = .memory m ∧ Intact m s.submitted ∧
      ∀ p ∈ tr, ∃ m₀, p.1.store = .memory m₀ ∧ Evolves m₀ m := by
  have hreached : ∃ m, Inv m s :=
    hrun.invariant (P := fun s => ∃ m, Inv m s) ⟨_, inv_init⟩ fun s i t ⟨m, hinv⟩ h => by
      obtain ⟨m', hinv', _⟩ := inv_step hinv h
      exact ⟨m', hinv'⟩
  obtain ⟨m, hinv⟩ := hreached
  refine ⟨m, hinv.store, hinv.intact, fun p hp => ?_⟩
  obtain ⟨m₀, m', hstore₀, hstore, hev⟩ := hrun.related (I := fun s => ∃ m, Inv m s)
    (R := fun s t => ∃ m m', s.store = .memory m ∧ t.store = .memory m' ∧ Evolves m m')
    ⟨_, inv_init⟩
    (fun s i t ⟨m, hinv⟩ h => by
      obtain ⟨m', hinv', _⟩ := inv_step hinv h
      exact ⟨m', hinv'⟩)
    (fun r s t ⟨a, b, ha, hb, hab⟩ ⟨b', c, hb', hc, hbc⟩ => by
      obtain rfl : b = b' := Store.memory.inj (hb.symm.trans hb')
      exact ⟨a, c, ha, hc, hab.trans hbc⟩)
    (fun s i t ⟨m, hinv⟩ h => by
      obtain ⟨m', hinv', hev⟩ := inv_step hinv h
      exact ⟨m, m', hinv.store, hinv'.store, hev⟩) p hp
  obtain rfl : m' = m := Store.memory.inj (hstore.symm.trans hinv.store)
  exact ⟨m₀, hstore₀, hev⟩

/-! ## Two results for one task -/

/-- `sampleDraws` with other UUIDs. -/
def otherDraws (uuid : String) : Draws := { sampleDraws with uuid := fun _ => uuid }

def sampleResult : ResultSubmissionRequest := ⟨sampleDraws.uuid 0, sampleAgent.id, ""⟩

/-- A task, and two results for it whose handlers both read it before either completes it. -/
def twoResults : List Label :=
  [.arrive 0 sampleDraws (.submitTask (taskWithBudget 5)), .call 0,
    .arrive 1 (otherDraws "a") (.submitResult sampleResult), .call 1,
    .arrive 2 (otherDraws "b") (.submitResult sampleResult), .call 2,
    .call 1, .call 1, .call 2, .call 2]

/-- The last write of the second handler stores its result beside that of the first. -/
theorem twoResults_intact :
    ∃ tr s, Transition.Run (step (sampleLibraries []) fun _ => .ok [])
        (World.init (.memory .default)) tr s ∧
      ∃ m, s.store = .memory m ∧ m.results.length = 2 ∧ Intact m s.submitted := by
  obtain ⟨tr, s, hrun, htwo⟩ := Transition.Run.reach_of_exec
    (p := fun s => (inMemory s.store).any fun m => m.results.length = 2)
    (show (Transition.exec (step (sampleLibraries []) fun _ => .ok [])
      (World.init (.memory .default)) twoResults).any _ = true from rfl)
  obtain ⟨m, hstore, hintact, _⟩ := memory_intact hrun
  refine ⟨tr, s, hrun, m, hstore, ?_, hintact⟩
  simpa [hstore, inMemory] using htwo

end Runs

end Ainur.MemoryIntegrity
