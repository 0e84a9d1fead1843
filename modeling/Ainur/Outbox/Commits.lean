import Ainur.Lib.Refinement
import Ainur.Outbox.Integrity
import Ainur.Outbox.LastError

set_option autoImplicit false

/-! # The outbox as the record of its commits

What `outbound_extrinsics` comes to, once nothing is open: rows that are enqueued, attempted and
annotated, one committed write after the other. A record says what was written and to which rows.
Which row a fetch takes and which rows an update reaches has been decided before the commit, by a
snapshot and by the locks of the others, and is not decided again when the record is replayed; but a
write applies only to rows that are still what its transaction took them for. The workers, the
statements and their locks refine this table: replaying the commits of a run makes its rows.
-/

namespace Ainur.Outbox

open RowLock

/-! ## The record -/

/-- What a transaction has written when it commits. -/
inductive Commit where
  | enqueue (correlationId pallet call : String) (payload : Option String) (now : Nat)
  /-- A worker has submitted the job that it fetched, and settles its outcome. -/
  | attempt (job : Job) (outcome : Submission) (now : Nat)
  /-- A statement has changed the rows of these keys. -/
  | write (update : Update) (keys : List String)

/-- The table's checks pass for a row that `update` matches. -/
def writes (pg : Jsonb) (update : Update) (row : OutboundExtrinsic) : Bool :=
  update.applies pg row = some true && (update.set pg row).checks

/-- A committed write on the committed rows. It applies where the job is still pending and as it was
fetched, and where every row that it changes matches the `WHERE` clause and passes the checks. -/
def Commit.step (pg : Jsonb) (rows : List OutboundExtrinsic) :
    Commit → Option (List OutboundExtrinsic)
  | .enqueue correlationId pallet call payload now =>
      let row := OutboundExtrinsic.insert correlationId pallet call payload .pending now
      if correlationId ∉ rows.map (·.correlationId) ∧ row.checks then some (rows ++ [row]) else none
  | .attempt job outcome now =>
      if rows.any fun row => row.job = job ∧ row.status = .pending then
        (settlement now job outcome).map fun f =>
          rows.map fun row => if row.correlationId = job.correlationId then f row else row
      else none
  | .write update keys =>
      if rows.all fun row => row.correlationId ∉ keys ∨ writes pg update row then
        some (rows.map fun row => if row.correlationId ∈ keys then update.set pg row else row)
      else none

/-! ## What the steps of the workers and the statements stand for -/

/-- The rows as every transaction reads them. -/
def System.committed (s : System) : List OutboundExtrinsic := s.table.map Slot.row

/-- The rows that a statement has changed. -/
def System.changedBy (s : System) (q : Nat) : List String :=
  (s.table.filter fun slot => slot.lock.any fun held => held.1 = .statement q).map Slot.key

/-- The write that a step commits. -/
def commits (s : System) : Label → List Commit
  | .enqueue correlationId pallet call payload now =>
      [.enqueue correlationId pallet call payload now]
  | .settle w now =>
      match s.workers w with
      | .returned job outcome =>
          if (settlement now job outcome).isSome then [.attempt job outcome now] else []
      | _ => []
  | .finish q =>
      match s.statements q with
      | some st => [.write st.update (s.changedBy q)]
      | none => []
  | _ => []

/-! ### Rows that pass the checks -/

section Checks

variable {pg : Jsonb} {s t : System} {now : Nat} {job : Job} {outcome : Submission}

/-- Every version of a row passes the checks of the table. -/
def Checked (s : System) : Prop :=
  ∀ slot ∈ s.table, slot.row.checks = true ∧
    ∀ holder v, slot.lock = some (holder, v) → v.checks = true

theorem Checked.init : Checked System.init := by
  intro slot hmem
  cases hmem

/-- Neither of the two updates of `run_outbox` violates a check. -/
theorem checks_settlement {f : OutboundExtrinsic → OutboundExtrinsic} {row : OutboundExtrinsic}
    (hf : settlement now job outcome = some f) (hrow : row.checks = true) :
    (f row).checks = true := by
  rcases settlement_cases hf with ⟨hash, -, rfl⟩ | ⟨err, cut, -, -, hcut, rfl⟩
  · simp only [OutboundExtrinsic.checks, OutboundExtrinsic.finalize, Bool.and_eq_true] at hrow ⊢
    exact ⟨hrow.1, rfl⟩
  · have hlen : cut.length ≤ 512 := by
      calc cut.length
        _ = cut.toList.length := String.length_toList.symm
        _ ≤ (errBytes cut).length := Utf8.length_le_length_encode cut.toList
        _ ≤ 512 := (truncateErr_spec hcut).2
    exact checks_fail hrow hlen

theorem Checked.of_table (h : Checked s) {T : Table String OutboundExtrinsic Holder}
    (hT : ∀ slot ∈ T, ∃ slot₀ ∈ s.table, (slot.row = slot₀.row ∨ slot.row.checks = true) ∧
      ∀ holder v, slot.lock = some (holder, v) → slot₀.lock = some (holder, v) ∨ v.checks = true) :
    ∀ slot ∈ T, slot.row.checks = true ∧
      ∀ holder v, slot.lock = some (holder, v) → v.checks = true := by
  intro slot hmem
  obtain ⟨slot₀, hmem₀, hrow, hlock⟩ := hT slot hmem
  constructor
  · rcases hrow with hrow | hrow
    · rw [hrow]
      exact (h slot₀ hmem₀).1
    · exact hrow
  · intro holder v hv
    rcases hlock holder v hv with hold | hchecks
    · exact (h slot₀ hmem₀).2 holder v hold
    · exact hchecks

theorem Checked.conclude (h : Checked s) (hinv : Invariant pg s) {w : Nat}
    (hw : s.workers w = .returned job outcome)
    {write : Option (OutboundExtrinsic → OutboundExtrinsic)}
    (hwrite : ∀ f, write = some f → ∃ now, settlement now job outcome = some f) :
    Checked (s.conclude w job outcome write) := by
  refine h.of_table fun slot hmem => ?_
  obtain ⟨slot₀, hmem₀, rfl⟩ := (hinv.conclude_slot hw).mp hmem
  refine ⟨slot₀, hmem₀, ?_⟩
  by_cases hk : slot₀.key = job.correlationId
  · rw [if_pos hk]
    refine ⟨?_, fun holder v hv => by cases hv⟩
    cases write with
    | none => exact Or.inl rfl
    | some f =>
        obtain ⟨now, hf⟩ := hwrite f rfl
        exact Or.inr (checks_settlement hf (h slot₀ hmem₀).1)
  · rw [if_neg hk]
    exact ⟨Or.inl rfl, fun _ _ hv => Or.inl hv⟩

theorem Checked.step {l : Label} (h : Checked s) (hinv : Invariant pg s)
    (hstep : step pg s l = some t) : Checked t := by
  cases l with
  | enqueue correlationId pallet call payload now =>
      obtain ⟨⟨_, hrow⟩, rfl⟩ := step_enqueue.mp hstep
      intro slot hmem
      rcases List.mem_append.mp hmem with hold | hnew
      · exact h slot hold
      · obtain rfl := List.mem_singleton.mp hnew
        exact ⟨hrow, fun _ _ hv => by cases hv⟩
  | fetch w =>
      obtain ⟨_, rfl⟩ := step_fetch.mp hstep
      exact h
  | skip w cand =>
      obtain ⟨_, _, _, rfl⟩ := step_skip.mp hstep
      exact h
  | take w cand =>
      obtain ⟨cands, slot, ⟨_, hfind⟩, ⟨_, hfree⟩, rfl⟩ := step_take.mp hstep
      obtain ⟨hlock, -⟩ : slot.lock = none ∧ slot.row.status = .pending := by
        simpa [isFree] using hfree
      obtain ⟨hslot, hkey⟩ := Table.find_eq_some hfind
      refine h.of_table fun slot' hmem => ?_
      obtain ⟨slot₀, hmem₀, rfl⟩ := Table.mem_modify.mp hmem
      refine ⟨slot₀, hmem₀, ?_⟩
      by_cases hk : slot₀.key = cand.2
      · -- the worker only locks the row
        obtain rfl : slot₀ = slot := Table.eq_of_key hinv.keys hmem₀ hslot (hk.trans hkey.symm)
        rw [if_pos hk]
        refine ⟨Or.inl rfl, fun holder v hv => Or.inr ?_⟩
        obtain ⟨-, rfl⟩ := Prod.mk.inj (Option.some.inj hv)
        rw [Slot.view_of_free hlock]
        exact (h slot₀ hmem₀).1
      · rw [if_neg hk]
        exact ⟨Or.inl rfl, fun _ _ hv => Or.inl hv⟩
  | noJob w =>
      obtain ⟨_, rfl⟩ := step_noJob.mp hstep
      exact h
  | submit w outcome =>
      obtain ⟨_, _, rfl⟩ := step_submit.mp hstep
      exact h
  | settle w now =>
      obtain ⟨job, outcome, hw, rfl⟩ := step_settle.mp hstep
      exact h.conclude hinv hw fun f hf => ⟨now, hf⟩
  | crash w =>
      rcases step_crash.mp hstep with ⟨_, _, rfl⟩ | ⟨job, outcome, hw, rfl⟩
      · exact h
      · exact h.conclude hinv hw fun f hf => by cases hf
  | execute q update =>
      obtain ⟨_, rfl⟩ := step_execute.mp hstep
      exact h
  | change q correlationId =>
      obtain ⟨st, slot, ⟨_, hfind⟩, ⟨_, hfree, _, hset⟩, rfl⟩ := step_change.mp hstep
      obtain ⟨hslot, hkey⟩ := Table.find_eq_some hfind
      refine h.of_table fun slot' hmem => ?_
      obtain ⟨slot₀, hmem₀, rfl⟩ := Table.mem_modify.mp hmem
      refine ⟨slot₀, hmem₀, ?_⟩
      by_cases hk : slot₀.key = correlationId
      · -- the new version has been checked
        obtain rfl : slot₀ = slot := Table.eq_of_key hinv.keys hmem₀ hslot (hk.trans hkey.symm)
        rw [if_pos hk]
        refine ⟨Or.inl rfl, fun holder v hv => Or.inr ?_⟩
        obtain ⟨-, rfl⟩ := Prod.mk.inj (Option.some.inj hv)
        rw [Slot.view_of_free (by simpa using hfree)]
        exact hset
      · rw [if_neg hk]
        exact ⟨Or.inl rfl, fun _ _ hv => Or.inl hv⟩
  | pass q correlationId =>
      obtain ⟨_, _, _, _, rfl⟩ := step_pass.mp hstep
      exact h
  | finish q =>
      obtain ⟨_, _, rfl⟩ := step_finish.mp hstep
      refine h.of_table fun slot hmem => ?_
      obtain ⟨slot₀, hmem₀, rfl⟩ := Table.mem_commit.mp hmem
      refine ⟨slot₀, hmem₀, ?_⟩
      by_cases hlock : ∃ v, slot₀.lock = some (.statement q, v)
      · obtain ⟨v, hlock⟩ := hlock
        rw [Slot.commit_of_held hlock]
        exact ⟨Or.inr ((h slot₀ hmem₀).2 _ v hlock), fun _ _ hv => by cases hv⟩
      · rw [Slot.commit_of_not_held (not_exists.mp hlock)]
        exact ⟨Or.inl rfl, fun _ _ hv => Or.inl hv⟩
  | abort q =>
      obtain ⟨_, _, rfl⟩ := step_abort.mp hstep
      refine h.of_table fun slot hmem => ?_
      obtain ⟨slot₀, hmem₀, rfl⟩ := Table.mem_rollback.mp hmem
      refine ⟨slot₀, hmem₀, Or.inl (Slot.rollback_row _ _), fun holder v hv => Or.inl ?_⟩
      by_cases hlock : ∃ v, slot₀.lock = some (.statement q, v)
      · obtain ⟨v', hlock⟩ := hlock
        rw [Slot.rollback_of_held hlock] at hv
        cases hv
      · rwa [Slot.rollback_of_not_held (not_exists.mp hlock)] at hv

end Checks

/-! ## One step of the replay for each commit -/

section Refinement

variable {pg : Jsonb} {s t : System} {now : Nat} {job : Job} {outcome : Submission}

/-- A lock, and what its holder writes, is not committed. -/
theorem committed_modify_write (T : Table String OutboundExtrinsic Holder) (key : String)
    (holder : Holder) (f : OutboundExtrinsic → OutboundExtrinsic) :
    (T.modify key (Slot.write holder f)).map Slot.row = T.map Slot.row := by
  rw [Table.modify, List.map_map]
  refine List.map_congr_left fun slot _ => ?_
  by_cases hk : slot.key = key <;> simp [hk]

theorem committed_rollback (T : Table String OutboundExtrinsic Holder) (holder : Holder) :
    (T.rollback holder).map Slot.row = T.map Slot.row := by
  rw [Table.rollback, List.map_map]
  exact List.map_congr_left fun slot _ => Slot.rollback_row holder slot

/-- The committed rows are found under the keys of the table. -/
theorem committed_keys (h : Invariant pg s) :
    s.committed.map (·.correlationId) = s.table.keys := by
  rw [System.committed, Table.keys, List.map_map]
  exact List.map_congr_left fun slot hmem => (h.slots slot hmem).key

/-- At its commit a worker settles the job that the row still holds. -/
theorem Invariant.job_committed (h : Invariant pg s) {w : Nat}
    (hw : s.workers w = .returned job outcome) :
    (s.committed.any fun row => row.job = job ∧ row.status = .pending) = true := by
  obtain ⟨slot, hmem, hlock, hjob⟩ := h.holds w job (by rw [hw]; rfl)
  have hpending := ((h.slots slot hmem).ofWorker w slot.row hlock).2.1
  refine List.any_eq_true.mpr ⟨slot.row, List.mem_map.mpr ⟨slot, hmem, rfl⟩, ?_⟩
  exact decide_eq_true ⟨hjob, hpending⟩

theorem attempt_committed (h : Invariant pg s) {w : Nat}
    (hw : s.workers w = .returned job outcome) {f : OutboundExtrinsic → OutboundExtrinsic}
    (hf : settlement now job outcome = some f) :
    Commit.step pg s.committed (.attempt job outcome now) =
      some (s.conclude w job outcome (some f)).committed := by
  simp only [Commit.step]
  rw [if_pos (h.job_committed hw), hf, Option.map_some]
  refine congrArg some ?_
  rw [System.committed, System.committed, h.conclude_table hw, List.map_map, List.map_map]
  refine List.map_congr_left fun slot hmem => ?_
  have hkey := (h.slots slot hmem).key
  by_cases hk : slot.key = job.correlationId
  · simp [hkey, hk]
  · simp [hkey, hk]

/-- The rows that a statement holds are the ones that it has changed. -/
theorem mem_changedBy (h : Invariant pg s) {q : Nat}
    {slot : Slot String OutboundExtrinsic Holder} (hmem : slot ∈ s.table) :
    slot.row.correlationId ∈ s.changedBy q ↔ ∃ v, slot.lock = some (.statement q, v) := by
  rw [System.changedBy, (h.slots slot hmem).key, List.mem_map]
  constructor
  · rintro ⟨held, hheld, hkey⟩
    obtain ⟨hheld, hlock⟩ := List.mem_filter.mp hheld
    obtain rfl : held = slot := Table.eq_of_key h.keys hheld hmem hkey
    obtain ⟨⟨holder, v⟩, hv, heq⟩ := (Option.any_eq_true _ _).mp hlock
    obtain rfl : holder = .statement q := by simpa using heq
    exact ⟨v, hv⟩
  · rintro ⟨v, hv⟩
    refine ⟨slot, List.mem_filter.mpr ⟨hmem, ?_⟩, rfl⟩
    simp [hv]

theorem write_committed (h : Invariant pg s) (hchecked : Checked s) {q : Nat} {st : Statement}
    (hst : s.statements q = some st) :
    Commit.step pg s.committed (.write st.update (s.changedBy q)) =
      some ((s.table.commit (.statement q)).map Slot.row) := by
  -- what a statement holds is its update of the committed row
  have hheld : ∀ slot ∈ s.table, ∀ v, slot.lock = some (.statement q, v) →
      st.update.applies pg slot.row = some true ∧ v = st.update.set pg slot.row := by
    intro slot hmem v hlock
    obtain ⟨st', hst', happ, hv⟩ := (h.slots slot hmem).ofStatement q v hlock
    obtain rfl : st = st' := Option.some.inj (hst.symm.trans hst')
    exact ⟨happ, hv⟩
  have hall : (s.committed.all fun row =>
      row.correlationId ∉ s.changedBy q ∨ writes pg st.update row) = true := by
    refine List.all_eq_true.mpr fun row hrow => decide_eq_true ?_
    obtain ⟨slot, hmem, rfl⟩ := List.mem_map.mp hrow
    by_cases hlock : ∃ v, slot.lock = some (.statement q, v)
    · obtain ⟨v, hv⟩ := hlock
      obtain ⟨happ, rfl⟩ := hheld slot hmem v hv
      have hchecks := (hchecked slot hmem).2 _ _ hv
      exact Or.inr (by simp [writes, happ, hchecks])
    · exact Or.inl fun hin => hlock ((mem_changedBy h hmem).mp hin)
  simp only [Commit.step]
  rw [if_pos hall]
  refine congrArg some ?_
  rw [System.committed, Table.commit, List.map_map, List.map_map]
  refine List.map_congr_left fun slot hmem => ?_
  rw [Function.comp_apply, Function.comp_apply]
  by_cases hlock : ∃ v, slot.lock = some (.statement q, v)
  · rw [if_pos ((mem_changedBy h hmem).mpr hlock)]
    obtain ⟨v, hv⟩ := hlock
    rw [Slot.commit_of_held hv]
    exact (hheld slot hmem v hv).2.symm
  · rw [if_neg fun hin => hlock ((mem_changedBy h hmem).mp hin),
      Slot.commit_of_not_held (not_exists.mp hlock)]

/-- Each step does to the committed rows what the write that it commits does. -/
theorem step_commits {l : Label} (h : Invariant pg s) (hchecked : Checked s)
    (hstep : step pg s l = some t) :
    Transition.exec (Commit.step pg) s.committed (commits s l) = some t.committed := by
  have hnone : ∀ rows, s.committed = rows →
      Transition.exec (Commit.step pg) s.committed [] = some rows := fun _ => congrArg some
  cases l with
  | enqueue correlationId pallet call payload now =>
      obtain ⟨⟨hfresh, hrow⟩, rfl⟩ := step_enqueue.mp hstep
      refine Transition.exec_one ?_
      simp only [Commit.step, committed_keys h]
      rw [if_pos ⟨hfresh, hrow⟩]
      simp [System.committed]
  | fetch w =>
      obtain ⟨_, rfl⟩ := step_fetch.mp hstep
      exact hnone _ rfl
  | skip w cand =>
      obtain ⟨_, _, _, rfl⟩ := step_skip.mp hstep
      exact hnone _ rfl
  | take w cand =>
      -- a lock does not show
      obtain ⟨_, _, _, _, rfl⟩ := step_take.mp hstep
      exact hnone _ (committed_modify_write _ _ _ _).symm
  | noJob w =>
      obtain ⟨_, rfl⟩ := step_noJob.mp hstep
      exact hnone _ rfl
  | submit w outcome =>
      obtain ⟨_, _, rfl⟩ := step_submit.mp hstep
      exact hnone _ rfl
  | settle w now =>
      obtain ⟨job, outcome, hw, rfl⟩ := step_settle.mp hstep
      simp only [commits, hw]
      cases hf : settlement now job outcome with
      | none =>
          -- a connection error or a panic, and the transaction is rolled back
          exact hnone _ (committed_rollback _ _).symm
      | some f => exact Transition.exec_one (attempt_committed h hw hf)
  | crash w =>
      rcases step_crash.mp hstep with ⟨_, _, rfl⟩ | ⟨_, _, _, rfl⟩
      · exact hnone _ rfl
      · exact hnone _ (committed_rollback _ _).symm
  | execute q update =>
      obtain ⟨_, rfl⟩ := step_execute.mp hstep
      exact hnone _ rfl
  | change q correlationId =>
      -- nor does a version that is not committed
      obtain ⟨_, _, _, _, rfl⟩ := step_change.mp hstep
      exact hnone _ (committed_modify_write _ _ _ _).symm
  | pass q correlationId =>
      obtain ⟨_, _, _, _, rfl⟩ := step_pass.mp hstep
      exact hnone _ rfl
  | finish q =>
      obtain ⟨update, hst, rfl⟩ := step_finish.mp hstep
      simp only [commits, hst]
      exact Transition.exec_one (write_committed h hchecked hst)
  | abort q =>
      obtain ⟨_, _, rfl⟩ := step_abort.mp hstep
      exact hnone _ (committed_rollback _ _).symm

/-- The replayed rows are the committed rows of the table. -/
def Shows (pg : Jsonb) (s : System) (rows : List OutboundExtrinsic) : Prop :=
  Invariant pg s ∧ Checked s ∧ s.committed = rows

theorem refines (pg : Jsonb) :
    Transition.Refines (step pg) System.init (Commit.step pg) [] (fun _ _ => True) commits
      (Shows pg) where
  init := ⟨Invariant.init, Checked.init, rfl⟩
  matched := by
    rintro s l t rows ⟨hinv, hchecked, rfl⟩ - hstep
    exact ⟨t.committed, step_commits hinv hchecked hstep, hinv.step s l t hstep,
      hchecked.step hinv hstep, rfl⟩

/-- **The commits replay.** Whatever the workers, the replay worker, the patches and the backfill do
at the same time, the committed rows are what the committed writes make of an empty table, in the
order of the commits: each is there as a whole, on rows that nobody has changed under it, and nothing
else is. -/
theorem outbox_replays {tr : List (System × Label)} {s : System} (hrun : Runs pg tr s) :
    Transition.exec (Commit.step pg) [] (Transition.trace commits tr) = some s.committed := by
  obtain ⟨rows, hexec, -, -, rfl⟩ := (refines pg).run hrun fun _ _ => trivial
  exact hexec

/-- A row that a patch holds while a worker fetches: the worker skips it and takes the next one. -/
def besidePatch : List Label :=
  [.enqueue "c1" "TaskMarket" "allocate_task" (some "\x7b\"task_id\":0\x7d") 0,
    .enqueue "c2" "TaskMarket" "allocate_task" none 1,
    .execute 0 (.patch .taskId 7), .change 0 "c1", .fetch 0, .skip 0 (0, "c1"), .take 0 (1, "c2"),
    .submit 0 (.finalized "0xaa"), .finish 0, .settle 0 9]

/-- The patch and the attempt are replayed one after the other. -/
theorem besidePatch_replays :
    ∃ tr s, Runs (.onValues [.object [("task_id", .number (.posInt 0))]]) tr s ∧
      s.committed.map (·.status) = [.pending, .finalized] ∧
      Transition.exec (Commit.step (.onValues [.object [("task_id", .number (.posInt 0))]])) []
        (Transition.trace commits tr) = some s.committed := by
  have hexec : (Transition.exec (step (.onValues [.object [("task_id", .number (.posInt 0))]]))
      System.init besidePatch).any
      (fun s => s.committed.map (·.status) = [.pending, .finalized]) = true := by decide
  obtain ⟨tr, s, hrun, hstatus⟩ := Transition.Run.reach_of_exec hexec
  exact ⟨tr, s, hrun, of_decide_eq_true hstatus, outbox_replays hrun⟩

end Refinement

end Ainur.Outbox
