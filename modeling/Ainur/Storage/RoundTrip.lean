import Ainur.Lib.Keyed
import Ainur.Storage.Documents

set_option autoImplicit false

/-! # Stored records come back as they were

What `insert_task`, `upsert_task` and `insert_bid` accept is what `get_task` and
`get_bids_for_task` then return, field by field, although a record passes through JSON and the
status of a task through a column of its own.
-/

namespace Ainur

open Storage (Database)

namespace Documents

section RoundTrip

variable {lib : Libraries} {db : Database} {p q : Documents}

/-- The columns of a task that passes the checks. -/
theorem taskDocument_eq_ok {task : StoredTask} {doc : TaskDocument}
    (h : taskDocument lib task = .ok doc) :
    lib.parseUuid task.id = some doc.id ∧ readTask doc = .ok task := by
  obtain ⟨id, hid, h⟩ := Fallible.bind_eq_ok.mp h
  obtain ⟨v, hv, h⟩ := Fallible.bind_eq_ok.mp h
  have hread : StoredTask.format.deserialize v = .ok task := by
    rcases serialize_task task with ⟨-, w, hw, hread⟩ | ⟨e, -, herr⟩
    · obtain rfl : w = v := Except.ok.inj (hw.symm.trans hv)
      exact hread
    · rw [herr] at hv
      cases hv
  split at h
  · cases h
  · obtain rfl := Except.ok.inj h
    refine ⟨Fallible.okOr_eq_ok.mp hid, ?_⟩
    simp only [readTask, hread, strToStatus_statusToStr, Fallible.mapError_ok, Fallible.ok_bind]
    rfl

/-- What the checks before the statement let through. -/
theorem taskDocument_accepts {task : StoredTask} {id : String}
    (hid : lib.parseUuid task.id = some id) (hfits : task.task.budget.fits = true)
    (hmax : task.task.budget.maxCost ≤ i64Max) : ∃ doc, taskDocument lib task = .ok doc := by
  obtain ⟨v, hv, -⟩ := StoredTask.format_spec.written task hfits
  have hserialize : serialize StoredTask.format task = .ok v := by
    rw [serialize, hv]
    rfl
  unfold taskDocument parseUuid
  rw [hid, Fallible.okOr_some, Fallible.ok_bind, hserialize, Fallible.ok_bind,
    if_neg (Nat.not_lt.mpr hmax)]
  exact ⟨_, rfl⟩

/-- A row that `get_task` finds. -/
theorem getTask_of_find {id uuid : String} {doc : TaskDocument}
    (hid : lib.parseUuid id = some uuid)
    (hfind : (p.tasks.find? fun d => d.id = uuid) = some doc) :
    p.getTask lib id = readTask doc := by
  unfold getTask parseUuid
  rw [hid, Fallible.okOr_some, Fallible.ok_bind, hfind]
  rfl

theorem getTask_insertTask {task : StoredTask} (h : p.insertTask lib db task = .ok ((), q))
    (hnew : ∀ id, lib.parseUuid task.id = some id → ∀ d ∈ p.tasks, d.id ≠ id) :
    q.getTask lib task.id = .ok task := by
  obtain ⟨doc, hdoc, h⟩ := Fallible.bind_eq_ok.mp h
  obtain ⟨hid, hread⟩ := taskDocument_eq_ok hdoc
  have hne : ¬ (p.tasks.any fun d => d.id = doc.id) = true := by
    simpa using hnew doc.id hid
  split at h
  · cases h
  · obtain rfl : _ = q := congrArg Prod.snd (Except.ok.inj h)
    have hfind := Keyed.find_append TaskDocument.id (Keyed.not_find TaskDocument.id hne)
    rw [getTask_of_find hid hfind, hread]

theorem getTask_upsertTask {task : StoredTask} (h : p.upsertTask lib db task = .ok ((), q)) :
    q.getTask lib task.id = .ok task := by
  obtain ⟨doc, hdoc, h⟩ := Fallible.bind_eq_ok.mp h
  obtain ⟨hid, hread⟩ := taskDocument_eq_ok hdoc
  split at h
  · cases h
  · split at h
    · next hany =>
        -- the row that is found first gets the new JSON and the new status
        obtain rfl : _ = q := congrArg Prod.snd (Except.ok.inj h)
        obtain ⟨d, hfind, hd⟩ := Keyed.exists_find TaskDocument.id hany
        have hupdated := Keyed.find_map (g := fun d : TaskDocument => if d.id = doc.id then
          { d with storedJson := doc.storedJson, status := doc.status } else d)
          TaskDocument.id (fun d => by split <;> rfl) p.tasks doc.id
        rw [hfind, Option.map_some, if_pos hd] at hupdated
        rw [getTask_of_find hid hupdated, ← hread]
        rfl
    · next hne =>
        obtain rfl : _ = q := congrArg Prod.snd (Except.ok.inj h)
        have hfind := Keyed.find_append TaskDocument.id (Keyed.not_find TaskDocument.id hne)
        rw [getTask_of_find hid hfind, hread]

/-- The bids of a table can always be read: each of them has been written. -/
theorem readBid_ok (doc : BidDocument) : ∃ bid, readBid doc = .ok bid := by
  obtain ⟨bid, hbid⟩ := doc.storedJson.property
  refine ⟨bid, ?_⟩
  rcases serialize_bid bid with ⟨-, v, hv, hread⟩ | ⟨-, herr⟩
  · rw [readBid, ← Except.ok.inj (hv.symm.trans hbid), hread]
    rfl
  · rw [herr] at hbid
    cases hbid

theorem getBidsForTask_insertBid {bid : StoredBid} (h : p.insertBid lib bid = .ok ((), q))
    (hnew : ∀ id, lib.parseUuid bid.id = some id → ∀ d ∈ p.bids, d.id ≠ id) :
    ∃ bids, p.getBidsForTask lib bid.taskId = .ok bids ∧
      q.getBidsForTask lib bid.taskId = .ok (bids ++ [bid]) := by
  obtain ⟨id, hid, h⟩ := Fallible.bind_eq_ok.mp h
  obtain ⟨taskId, htaskId, h⟩ := Fallible.bind_eq_ok.mp h
  have hne : (p.bids.any fun d => d.id = id) = false := by
    rw [List.any_eq_false]
    intro d hd
    simpa using hnew id (Fallible.okOr_eq_ok.mp hid) d hd
  have htask : parseUuid lib bid.taskId "task id" = .ok taskId := by
    rw [parseUuid, Fallible.okOr_eq_ok.mp htaskId, Fallible.okOr_some]
  obtain ⟨bids, hbids, -⟩ := Fallible.exists_mapM_ok (f := readBid)
    fun doc (_ : doc ∈ p.bids.filter fun d => d.taskId = taskId) => readBid_ok doc
  split at h
  · cases h
  · next v hv =>
      have hread : readBid ⟨id, taskId, bid.bid.agentId, ⟨v, bid, hv⟩⟩ = .ok bid := by
        rcases serialize_bid bid with ⟨-, w, hw, hread⟩ | ⟨-, herr⟩
        · obtain rfl : w = v := Except.ok.inj (hw.symm.trans hv)
          rw [readBid, hread]
          rfl
        · rw [herr] at hv
          cases hv
      rw [hne, if_neg Bool.false_ne_true] at h
      split at h
      · cases h
      · split at h
        · cases h
        · split at h
          · cases h
          · obtain rfl : _ = q := congrArg Prod.snd (Except.ok.inj h)
            refine ⟨bids, ?_, ?_⟩
            · rw [getBidsForTask, htask, Fallible.ok_bind, hbids]
            · rw [getBidsForTask, htask, Fallible.ok_bind, List.filter_append, List.mapM_append,
                hbids]
              simp [hread]

/-- **Stored records round-trip without loss.** A task that is inserted under a new id or
upserted under any, and a bid that is inserted under a new id, come back as they were; so does
every result that is serialized. -/
theorem stored_records_roundTrip (lib : Libraries) (db : Database) (p q : Documents) :
    (∀ task, p.insertTask lib db task = .ok ((), q) →
      (∀ id, lib.parseUuid task.id = some id → ∀ d ∈ p.tasks, d.id ≠ id) →
      q.getTask lib task.id = .ok task) ∧
    (∀ task, p.upsertTask lib db task = .ok ((), q) → q.getTask lib task.id = .ok task) ∧
    (∀ bid, p.insertBid lib bid = .ok ((), q) →
      (∀ id, lib.parseUuid bid.id = some id → ∀ d ∈ p.bids, d.id ≠ id) →
      ∃ bids, p.getBidsForTask lib bid.taskId = .ok bids ∧
        q.getBidsForTask lib bid.taskId = .ok (bids ++ [bid])) ∧
    ∀ (result : StoredResult) v, StoredResult.format.serialize result = .ok v →
      StoredResult.format.deserialize v = .ok result := by
  refine ⟨fun task h hnew => getTask_insertTask h hnew, fun task h => getTask_upsertTask h,
    fun bid h hnew => getBidsForTask_insertBid h hnew, fun result v hv => ?_⟩
  obtain ⟨w, hw, hread⟩ := StoredResult.format_spec.written result rfl
  obtain rfl : w = v := Except.ok.inj (hw.symm.trans hv)
  exact hread

end RoundTrip

/-! ### A task with milestones -/

def noDocuments : Documents := ⟨[], [], [], [], []⟩

/-- A task that is paid in two milestones and asks for a TEE. -/
def milestoneTask : StoredTask where
  id := sampleDraws.uuid 0
  clientTaskId := some "job-1"
  task :=
    { id := sampleDraws.coreTaskId
      requester := ⟨hashOfNothing⟩
      specification :=
        { description := "train"
          taskType := .training
          input := [1, 255]
          outputFormat := .structured "schema"
          metadata := [("region", "eu")] }
      requirements :=
        { minMemory := some 1024
          minCpuCores := none
          gpuRequired := true
          minBandwidth := none
          capabilities := [.tee (.other "nitro"), .hardware (.nvidiaGPU "H100"), .custom "a" "b"] }
      budget :=
        { maxCost := 30
          paymentSchedule := .milestone
            [(⟨⟨List.replicate 16 1, rfl⟩, "half", "loss below 2"⟩, 10),
              (⟨⟨List.replicate 16 2, rfl⟩, "done", "loss below 1"⟩, 20)]
          escrowRequired := true }
      deadline := 1800000000
      verificationLevel := .consensus 3 }
  status := .completed
  createdAt := 1700000000

/-- It is accepted, and comes back. -/
theorem milestoneTask_roundTrip : ∃ q,
    noDocuments.insertTask (sampleLibraries []) Storage.migrated milestoneTask = .ok ((), q) ∧
      q.getTask (sampleLibraries []) milestoneTask.id = .ok milestoneTask := by
  have hid : (sampleLibraries []).parseUuid milestoneTask.id = some milestoneTask.id := rfl
  obtain ⟨doc, hdoc⟩ := taskDocument_accepts hid (by decide) (by decide)
  have haccepts : Storage.migrated.accepts Storage.insertTaskSql = true := by decide
  have hinsert : noDocuments.insertTask (sampleLibraries []) Storage.migrated milestoneTask =
      .ok ((), { noDocuments with tasks := [doc] }) := by
    unfold insertTask
    rw [hdoc, Fallible.ok_bind, haccepts]
    rfl
  exact ⟨_, hinsert, (stored_records_roundTrip _ _ _ _).1 _ hinsert fun _ _ _ hd => nomatch hd⟩

end Documents

end Ainur
