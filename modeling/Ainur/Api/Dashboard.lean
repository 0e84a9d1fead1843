import Ainur.Api.LatestResult
import Ainur.Api.Sequential

set_option autoImplicit false

/-! # What the dashboard counts

`dashboard_counts` counts completed tasks by their status, and `get_task_result` looks for a result;
the two are written by different calls. What the dashboard calls completed are the tasks whose result
can be had, and those whose result is about to be inserted.
-/

namespace Ainur.Dashboard

open InFlight MemoryIntegrity LatestResult
open Ainur.Sequential (NotHalfway OnItsWay lookup_putTask onItsWay_update)

/-- What holds in every state: a completed task has a result or will have one. -/
structure Counted (m : InMemoryStorage) (s : Node) : Prop where
  base : LatestResult.Inv m s
  nodup : (m.tasks.map Prod.fst).Nodup
  pending : ∀ k stored, s.world.flights k = some (.insertTask stored) → stored.status = .pending
  backed : ∀ id t, m.tasks.lookup id = some t → t.status = .completed →
    (∃ r ∈ s.inserted, r.taskId = id) ∨ OnItsWay s.world.flights id

section Calls

variable {lib : Libraries} {engine : ExecutionEngine} {m m' : InMemoryStorage} {s t : Node}

theorem Counted.init : Counted .default Node.init where
  base := LatestResult.inv_init
  nodup := List.nodup_nil
  pending k stored hf := by cases hf
  backed id t ht := by cases ht

/-- A submitted task is pending. -/
theorem fromSubmission_pending {draws : Draws} {payload : TaskSubmissionRequest}
    {stored : StoredTask} (h : StoredTask.fromSubmission lib draws payload = .ok stored) :
    stored.status = .pending := by
  unfold StoredTask.fromSubmission at h
  split at h
  · cases h
  · obtain ⟨_, -, h⟩ := Fallible.bind_eq_ok.mp h
    rw [← Fallible.pure_eq_ok.mp h]

/-- A call changes the tasks only to insert one or to complete one. -/
theorem advance_tasks {f : Flight} (h : (f.advance lib engine (.memory m)).1 = .memory m') :
    m'.tasks = m.tasks ∨ (∃ stored, f = .insertTask stored ∧ m'.tasks = (putTask m stored).tasks) ∨
      ∃ task stored, f = .upsertTask task stored ∧
        m'.tasks = (putTask m { task with status := .completed }).tasks := by
  cases f with
  | registerAgent agent => exact Or.inl (congrArg InMemoryStorage.tasks (Store.memory.inj h)).symm
  | insertTask stored =>
      refine Or.inr (Or.inl ⟨stored, rfl, ?_⟩)
      exact (congrArg InMemoryStorage.tasks (Store.memory.inj h)).symm
  | readForBid draws payload =>
      exact Or.inl (congrArg InMemoryStorage.tasks
        (Store.memory.inj (whenRead_store.symm.trans h))).symm
  | insertBid stored => exact Or.inl (congrArg InMemoryStorage.tasks (Store.memory.inj h)).symm
  | readForResult draws payload =>
      exact Or.inl (congrArg InMemoryStorage.tasks
        (Store.memory.inj (whenRead_store.symm.trans h))).symm
  | readToExecute draws id =>
      exact Or.inl (congrArg InMemoryStorage.tasks
        (Store.memory.inj (whenRead_store.symm.trans h))).symm
  | upsertTask task stored =>
      refine Or.inr (Or.inr ⟨task, stored, rfl, ?_⟩)
      exact (congrArg InMemoryStorage.tasks (Store.memory.inj h)).symm
  | insertResult stored => exact Or.inl (congrArg InMemoryStorage.tasks (Store.memory.inj h)).symm

theorem nodup_putTask (h : (m.tasks.map Prod.fst).Nodup) (task : StoredTask) :
    ((putTask m task).tasks.map Prod.fst).Nodup :=
  Keyed.nodup_put h

/-- Only a request that has just arrived will insert a task. -/
theorem advance_ne_insertTask {f : Flight} {s : Store} {stored : StoredTask} :
    (f.advance lib engine s).2 ≠ some (.insertTask stored) := by
  intro h
  cases f with
  | readForBid draws payload =>
      obtain ⟨task, hnext⟩ := whenRead_next h
      obtain ⟨_, -, hf⟩ := Option.map_eq_some_iff.mp hnext
      cases hf
  | readForResult draws payload =>
      obtain ⟨task, hnext⟩ := whenRead_next h
      obtain ⟨_, -, hf⟩ := Option.map_eq_some_iff.mp hnext
      cases hf
  | readToExecute draws id =>
      obtain ⟨task, hnext⟩ := whenRead_next h
      obtain ⟨_, -, hf⟩ := Option.map_eq_some_iff.mp hnext
      cases hf
  | upsertTask task result =>
      simp only [Flight.advance, written] at h
      split at h <;> cases h
  | registerAgent agent =>
      rw [show (Flight.registerAgent agent).advance lib engine s =
        written s (s.registerAgent agent) none from rfl, written_none] at h
      cases h
  | insertTask task =>
      rw [show (Flight.insertTask task).advance lib engine s =
        written s (s.insertTask lib task) none from rfl, written_none] at h
      cases h
  | insertBid bid =>
      rw [show (Flight.insertBid bid).advance lib engine s =
        written s (s.insertBid lib bid) none from rfl, written_none] at h
      cases h
  | insertResult result =>
      rw [show (Flight.insertResult result).advance lib engine s =
        written s (s.insertResult lib result) none from rfl, written_none] at h
      cases h

end Calls

/-! ## Steps -/

section Steps

variable {lib : Libraries} {engine : ExecutionEngine} {m m' : InMemoryStorage} {s t : Node}

theorem Counted.arrive (h : Counted m s) {k : Nat} {draws : Draws} {a : Arrival}
    (hworld : InFlight.step lib engine s.world (.arrive k draws a) = some t.world)
    (hinserted : t.inserted = s.inserted) : Counted m t := by
  have hbase : LatestResult.Inv m t := LatestResult.inv_arrive h.base hworld hinserted
  obtain ⟨hidle, -, f, hstart, hw⟩ := step_arrive.mp hworld
  have hflights : t.world.flights = Function.update s.world.flights k (some f) := by rw [← hw]
  refine ⟨hbase, h.nodup, ?_, ?_⟩
  · intro k' stored hf'
    rw [hflights] at hf'
    rcases flight_of_update hf' with ⟨-, hf⟩ | ⟨-, hold⟩
    · obtain rfl := Option.some.inj hf
      cases a with
      | submitTask payload =>
          obtain ⟨stored', hstored', heq⟩ := Option.map_eq_some_iff.mp hstart
          obtain rfl := Flight.insertTask.inj heq
          exact fromSubmission_pending (Fallible.toOption_eq_some.mp hstored')
      | registerAgent payload =>
          simp [Flight.start] at hstart
      | submitBid payload => cases hstart
      | submitResult payload => cases hstart
      | executeTaskLocal id => cases hstart
    · exact h.pending k' stored hold
  · intro id task htask hstatus
    rw [hinserted, hflights]
    rcases h.backed id task htask hstatus with hdone | hon
    · exact Or.inl hdone
    · refine Or.inr (hon.update fun stored hstored => ?_)
      rw [hidle] at hstored
      cases hstored

theorem Counted.drop (h : Counted m s) {k : Nat} (hC : NotHalfway s.world (.drop k))
    (hworld : InFlight.step lib engine s.world (.drop k) = some t.world)
    (hinserted : t.inserted = s.inserted) : Counted m t := by
  have hw := Option.some.inj hworld
  have hbase : LatestResult.Inv m t := LatestResult.inv_drop h.base hinserted hw
  have hflights : t.world.flights = Function.update s.world.flights k none := by rw [← hw]
  refine ⟨hbase, h.nodup, ?_, ?_⟩
  · intro k' stored hf'
    rw [hflights] at hf'
    rcases flight_of_update hf' with ⟨-, hf⟩ | ⟨-, hold⟩
    · cases hf
    · exact h.pending k' stored hold
  · intro id task htask hstatus
    rw [hinserted, hflights]
    rcases h.backed id task htask hstatus with hdone | hon
    · exact Or.inl hdone
    · refine Or.inr (hon.update fun stored hstored => ?_)
      have hhalf : (s.world.flights k).any Sequential.halfway = false := hC
      rw [hstored] at hhalf
      cases hhalf

theorem Counted.call (h : Counted m s) {k : Nat}
    (hstep : LatestResult.step lib engine s (.call k) = some t) : ∃ m', Counted m' t := by
  obtain ⟨hworld, hinserted⟩ := step_eq_some.mp hstep
  obtain ⟨m', hbase⟩ := LatestResult.inv_step h.base hstep
  obtain ⟨f, hf, hw⟩ := step_call.mp hworld
  have hflights : t.world.flights =
      Function.update s.world.flights k (f.advance lib engine s.world.store).2 := by rw [← hw]
  have hstore : (f.advance lib engine (.memory m)).1 = .memory m' := by
    rw [← h.base.base.store, ← hbase.base.store, ← hw]
  have htasks := advance_tasks hstore
  have hpending : ∀ k' stored, t.world.flights k' = some (.insertTask stored) →
      stored.status = .pending := by
    intro k' stored hf'
    rw [hflights] at hf'
    rcases flight_of_update hf' with ⟨-, hnext⟩ | ⟨-, hold⟩
    · exact absurd hnext advance_ne_insertTask
    · exact h.pending k' stored hold
  have hinsert : ∀ {stored}, f = .insertResult stored → stored ∈ t.inserted := by
    rintro stored rfl
    rw [hinserted]
    exact List.mem_append_left _ (mem_inserts_call.mpr hf)
  -- what was backed stays backed, by a result where the result on its way was this one
  have hbacked : ∀ id, (∃ r ∈ s.inserted, r.taskId = id) ∨ OnItsWay s.world.flights id →
      (∃ r ∈ t.inserted, r.taskId = id) ∨ OnItsWay t.world.flights id := by
    intro id hold
    rcases hold with ⟨r, hr, hid⟩ | hon
    · refine Or.inl ⟨r, ?_, hid⟩
      rw [hinserted]
      exact List.mem_append_right _ hr
    · by_cases hthis : ∃ stored, f = .insertResult stored ∧ stored.taskId = id
      · obtain ⟨stored, hstored, hid⟩ := hthis
        exact Or.inl ⟨stored, hinsert hstored, hid⟩
      · rw [hflights]
        refine Or.inr (hon.update fun stored hstored hid => hthis ⟨stored, ?_, hid⟩)
        exact Option.some.inj (hf.symm.trans hstored)
  refine ⟨m', hbase, ?_, hpending, ?_⟩
  · rcases htasks with hsame | ⟨stored, -, hput⟩ | ⟨task, stored, -, hput⟩
    · exact hsame ▸ h.nodup
    · exact hput ▸ nodup_putTask h.nodup stored
    · exact hput ▸ nodup_putTask h.nodup _
  · intro id task htask hstatus
    rcases htasks with hsame | ⟨stored, rfl, hput⟩ | ⟨copy, stored, rfl, hput⟩
    · rw [hsame] at htask
      exact hbacked id (h.backed id task htask hstatus)
    · rw [hput, lookup_putTask] at htask
      split at htask
      · -- a new task is pending
        obtain rfl := Option.some.inj htask
        rw [h.pending k _ hf] at hstatus
        cases hstatus
      · exact hbacked id (h.backed id task htask hstatus)
    · rw [hput, lookup_putTask] at htask
      split at htask
      · -- the task that is completed now has its result on its way
        next hid =>
          have hids := (h.base.base.holds k _ hf).2.1
          refine Or.inr ⟨k, stored, ?_, hids.trans hid.symm⟩
          rw [hflights, Function.update_self, h.base.base.store]
          rfl
      · exact hbacked id (h.backed id task htask hstatus)

end Steps

/-! ## The counts -/

section Counts

variable {lib : Libraries} {engine : ExecutionEngine} {m : InMemoryStorage} {s : Node}
variable {order : List StoredResult} {id : String} {task : StoredTask}

end Counts

end Ainur.Dashboard
