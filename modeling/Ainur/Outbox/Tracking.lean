import Ainur.Api.Model
import Ainur.Lib.Grows
import Ainur.Outbox.Listing
import Mathlib.Data.List.Induction

set_option autoImplicit false

/-! # Following one extrinsic

An enqueue answers with a correlation id, and `get_outbox_status` shows the row of an id. A client
that asks again and again reads one story, whatever the workers and the other writers do in between:
its extrinsic is pending, and then finalized or failed for good (`status_tracked`).
-/

namespace Ainur.Outbox

/-- `get_outbox_status`. -/
def getOutboxStatus (rows : List OutboundExtrinsic) (id : String) :
    Except ApiError OutboxStatusView :=
  match rows.find? fun row => row.correlationId = id with
  | some row => .ok (.ofRow row)
  | none => .error (.notFound ("outbox id " ++ id ++ " not found"))

/-- The columns of an answer fit together: an extrinsic is pending until its only attempt is
recorded, with a time, and has an error exactly where that attempt failed. -/
def OutboxStatusView.Coherent (v : OutboxStatusView) : Prop :=
  match v.status with
  | .pending => v.retryCount = 0 ∧ v.lastError = none ∧ v.processedAt = none
  | .finalized => v.retryCount = 1 ∧ v.lastError = none ∧ v.processedAt.isSome = true
  | .failed => v.retryCount = 1 ∧ v.lastError.isSome = true ∧ v.processedAt.isSome = true
  | .dead => False

/-- `v'` may be answered after `v`. -/
structure OutboxStatusView.Later (v v' : OutboxStatusView) : Prop where
  correlationId : v'.correlationId = v.correlationId
  pallet : v'.pallet = v.pallet
  call : v'.call = v.call
  createdAt : v'.createdAt = v.createdAt
  settled : v.status ≠ .pending → v' = v

theorem OutboxStatusView.Later.refl (v : OutboxStatusView) : v.Later v :=
  ⟨rfl, rfl, rfl, rfl, fun _ => rfl⟩

theorem OutboxStatusView.Later.trans {u v w : OutboxStatusView} (huv : u.Later v)
    (hvw : v.Later w) : u.Later w where
  correlationId := hvw.correlationId.trans huv.correlationId
  pallet := hvw.pallet.trans huv.pallet
  call := hvw.call.trans huv.call
  createdAt := hvw.createdAt.trans huv.createdAt
  settled hne := by
    have hv := huv.settled hne
    rw [hvw.settled (hv ▸ hne), hv]

/-- The rows change as their answers may. -/
def RowLater (row row' : OutboundExtrinsic) : Prop :=
  (OutboxStatusView.ofRow row).Later (OutboxStatusView.ofRow row')

/-- A row that is answered coherently. -/
structure Told (row : OutboundExtrinsic) : Prop where
  hashed : row.Hashed
  coherent : (OutboxStatusView.ofRow row).Coherent

/-! ## What a transaction does to the rows -/

section Commits

variable {pg : Jsonb} {rows rows' : List OutboundExtrinsic} {row : OutboundExtrinsic}

theorem Told.insert (correlationId pallet call : String) (payload : Option String) (now : Nat) :
    Told (.insert correlationId pallet call payload .pending now) where
  hashed := by simp [OutboundExtrinsic.Hashed, OutboundExtrinsic.insert]
  coherent := ⟨rfl, rfl, rfl⟩

/-- An update by another writer does not show. -/
theorem ofRow_set {update : Update} (h : row.Hashed) (happ : update.applies pg row = some true) :
    OutboxStatusView.ofRow (update.set pg row) = OutboxStatusView.ofRow row := by
  have hsame := Update.same h happ
  have herror : (update.set pg row).lastError = row.lastError := by cases update <;> rfl
  have htime : (update.set pg row).createdAt = row.createdAt := by cases update <;> rfl
  have hprocessed : (update.set pg row).processedAt = row.processedAt := by cases update <;> rfl
  simp only [OutboxStatusView.ofRow, hsame.correlationId, hsame.pallet, hsame.call, hsame.status,
    hsame.retryCount, herror, htime, hprocessed]

theorem Told.set {update : Update} (h : Told row) (happ : update.applies pg row = some true) :
    Told (update.set pg row) ∧ RowLater row (update.set pg row) := by
  have hsame := Update.same h.hashed happ
  have hview := ofRow_set h.hashed happ
  refine ⟨⟨?_, ?_⟩, ?_⟩
  · have hhashed := h.hashed
    rw [OutboundExtrinsic.Hashed, ← hsame.txHash, ← hsame.status] at hhashed
    exact hhashed
  · rw [hview]
    exact h.coherent
  · unfold RowLater
    rw [hview]
    exact .refl _

/-- The settlement of a pending row. -/
theorem Told.settle {now : Nat} {job : Job} {outcome : Submission}
    {f : OutboundExtrinsic → OutboundExtrinsic} (h : Told row) (hpending : row.status = .pending)
    (hjob : row.job = job) (hf : settlement now job outcome = some f) :
    Told (f row) ∧ RowLater row (f row) := by
  obtain ⟨hretry, -, -⟩ : row.retryCount = 0 ∧ row.lastError = none ∧ row.processedAt = none := by
    have hcoherent := h.coherent
    simp only [OutboxStatusView.Coherent, OutboxStatusView.ofRow, hpending] at hcoherent
    exact hcoherent
  have hnone : row.txHash = none := by
    have hhashed := h.hashed
    simpa [OutboundExtrinsic.Hashed, hpending] using hhashed
  have hlater : (f row).pallet = row.pallet → (f row).call = row.call → RowLater row (f row) := by
    intro hpallet hcall
    exact ⟨settlement_correlationId hf row, hpallet, hcall, settlement_createdAt hf row,
      fun hne => absurd hpending hne⟩
  subst hjob
  rcases settlement_cases hf with ⟨hash, -, rfl⟩ | ⟨err, cut, -, -, -, rfl⟩
  · refine ⟨⟨?_, ?_⟩, hlater rfl rfl⟩
    · simp [OutboundExtrinsic.Hashed, OutboundExtrinsic.finalize]
    · exact ⟨congrArg (· + 1) hretry, rfl, rfl⟩
  · have hnext : nextStatus row.job.retryCount = .failed := by
      simp [OutboundExtrinsic.job, hretry, nextStatus, maxRetries]
    have hlater := hlater rfl rfl
    rw [hnext] at hlater ⊢
    refine ⟨⟨?_, ?_⟩, hlater⟩
    · simp [OutboundExtrinsic.Hashed, OutboundExtrinsic.fail, hnone]
    · exact ⟨congrArg (· + 1) hretry, rfl, rfl⟩

/-- Rows with different ids, answered coherently. -/
structure AllTold (rows : List OutboundExtrinsic) : Prop where
  keys : (rows.map (·.correlationId)).Nodup
  told : ∀ row ∈ rows, Told row

/-- A transaction adds a pending row under a new id, or changes the rows as their answers may. -/
theorem AllTold.commit {c : Commit} (h : AllTold rows) (hstep : c.step pg rows = some rows') :
    (∃ correlationId pallet call payload now,
        c = .enqueue correlationId pallet call payload now ∧
        correlationId ∉ rows.map (·.correlationId) ∧
        rows' = rows ++ [.insert correlationId pallet call payload .pending now]) ∨
      (∀ correlationId pallet call payload now,
        c ≠ .enqueue correlationId pallet call payload now) ∧
      ∃ g, rows' = rows.map g ∧ ∀ row ∈ rows, Told (g row) ∧ RowLater row (g row) := by
  have hstay : ∀ row ∈ rows, Told row ∧ RowLater row row :=
    fun row hrow => ⟨h.told row hrow, .refl _⟩
  cases c with
  | enqueue correlationId pallet call payload now =>
      simp only [Commit.step, Option.ite_none_right_eq_some] at hstep
      obtain ⟨⟨hfresh, -⟩, hstep⟩ := hstep
      obtain rfl := Option.some.inj hstep
      exact .inl ⟨correlationId, pallet, call, payload, now, rfl, hfresh, rfl⟩
  | attempt job outcome now =>
      obtain ⟨hany, hstep⟩ := Option.ite_none_right_eq_some.mp hstep
      obtain ⟨f, hf, rfl⟩ := Option.map_eq_some_iff.mp hstep
      refine .inr ⟨by simp, _, rfl, fun row hrow => ?_⟩
      by_cases hid : row.correlationId = job.correlationId
      · -- no other row has the id of the job
        obtain ⟨row₀, hrow₀, hheld⟩ := List.any_eq_true.mp hany
        obtain ⟨hjob, hpending⟩ := of_decide_eq_true hheld
        have hid₀ : row.correlationId = row₀.correlationId := by
          rw [hid, ← hjob]
          rfl
        obtain rfl : row = row₀ := List.inj_on_of_nodup_map h.keys hrow hrow₀ hid₀
        rw [if_pos hid]
        exact (h.told row hrow).settle hpending hjob hf
      · rw [if_neg hid]
        exact hstay row hrow
  | write update keys =>
      obtain ⟨hall, hstep⟩ := Option.ite_none_right_eq_some.mp hstep
      obtain rfl := Option.some.inj hstep
      refine .inr ⟨by simp, _, rfl, fun row hrow => ?_⟩
      by_cases hkey : row.correlationId ∈ keys
      · rw [if_pos hkey]
        have hwrites : writes pg update row = true := by
          have hrow := of_decide_eq_true (List.all_eq_true.mp hall row hrow)
          exact hrow.resolve_left fun hno => hno hkey
        have happ : update.applies pg row = some true :=
          of_decide_eq_true (Bool.and_eq_true_iff.mp hwrites).1
        exact (h.told row hrow).set happ
      · rw [if_neg hkey]
        exact hstay row hrow

theorem AllTold.step {c : Commit} (h : AllTold rows) (hstep : c.step pg rows = some rows') :
    AllTold rows' ∧ Grows RowLater rows rows' := by
  rcases h.commit hstep with
    ⟨correlationId, pallet, call, payload, now, -, hfresh, rfl⟩ | ⟨-, g, rfl, hg⟩
  · refine ⟨⟨?_, fun row hrow => ?_⟩, .append (fun _ => .refl _) _ _⟩
    · rw [List.map_append]
      refine List.nodup_append.mpr ⟨h.keys, List.pairwise_singleton _ _, fun a ha b hb heq => ?_⟩
      obtain rfl := List.mem_singleton.mp hb
      exact hfresh (heq ▸ ha)
    · rcases List.mem_append.mp hrow with hold | hnew
      · exact h.told row hold
      · obtain rfl := List.mem_singleton.mp hnew
        exact .insert _ _ _ _ _
  · have hkeys : (rows.map g).map (·.correlationId) = rows.map (·.correlationId) := by
      rw [List.map_map]
      exact List.map_congr_left fun row hrow => (hg row hrow).2.correlationId
    refine ⟨⟨by rw [hkeys]; exact h.keys, fun row' hrow' => ?_⟩, .map fun row hrow => (hg row hrow).2⟩
    obtain ⟨row, hrow, rfl⟩ := List.mem_map.mp hrow'
    exact (hg row hrow).1

theorem AllTold.nil : AllTold [] where
  keys := List.nodup_nil
  told row hrow := by cases hrow

/-- An execution, in one step. -/
theorem AllTold.exec {cs : List Commit} (h : AllTold rows)
    (hexec : Transition.exec (Commit.step pg) rows cs = some rows') :
    AllTold rows' ∧ Grows RowLater rows rows' := by
  refine Transition.exec_invariant (P := fun r => AllTold r ∧ Grows RowLater rows r) ?_
    ⟨h, .refl (fun _ => .refl _) rows⟩ hexec
  rintro r c r' ⟨hr, hgrown⟩ hstep
  obtain ⟨hr', hmore⟩ := hr.step hstep
  exact ⟨hr', hgrown.trans (fun _ _ _ => .trans) hmore⟩

/-- Each row is the row of an enqueue, and each enqueue has a row. -/
structure Origins (cs : List Commit) (rows : List OutboundExtrinsic) : Prop where
  enqueued : ∀ row ∈ rows, ∃ payload,
    Commit.enqueue row.correlationId row.pallet row.call payload row.createdAt ∈ cs
  found : ∀ correlationId pallet call payload now,
    Commit.enqueue correlationId pallet call payload now ∈ cs →
      correlationId ∈ rows.map (·.correlationId)

theorem Origins.exec {cs : List Commit}
    (hexec : Transition.exec (Commit.step pg) [] cs = some rows) : Origins cs rows := by
  induction cs using List.reverseRecOn generalizing rows with
  | nil =>
      obtain rfl := Option.some.inj hexec
      refine ⟨fun row hrow => ?_, fun _ _ _ _ _ hc => ?_⟩
      · cases hrow
      · cases hc
  | append_singleton cs c ih =>
      rw [Transition.exec_append] at hexec
      obtain ⟨mid, hmid, hlast⟩ := Option.bind_eq_some_iff.mp hexec
      obtain ⟨rows', hstep, hlast⟩ := Option.bind_eq_some_iff.mp hlast
      obtain rfl := Option.some.inj hlast
      obtain ⟨henqueued, hfound⟩ := ih hmid
      rcases (AllTold.nil.exec hmid).1.commit hstep with
        ⟨correlationId, pallet, call, payload, now, rfl, -, rfl⟩ | ⟨hc, g, rfl, hg⟩
      · refine ⟨fun row hrow => ?_, fun id _ _ _ _ hmem => ?_⟩
        · rcases List.mem_append.mp hrow with hold | hnew
          · obtain ⟨payload', hmem⟩ := henqueued row hold
            exact ⟨payload', List.mem_append_left _ hmem⟩
          · obtain rfl := List.mem_singleton.mp hnew
            exact ⟨payload, List.mem_append_right _ List.mem_cons_self⟩
        · rw [List.map_append]
          rcases List.mem_append.mp hmem with hold | hnew
          · exact List.mem_append_left _ (hfound _ _ _ _ _ hold)
          · obtain ⟨rfl, -⟩ := Commit.enqueue.inj (List.mem_singleton.mp hnew)
            exact List.mem_append_right _ List.mem_cons_self
      · refine ⟨fun row' hrow' => ?_, fun id pallet call payload now hmem => ?_⟩
        · obtain ⟨row, hrow, rfl⟩ := List.mem_map.mp hrow'
          obtain ⟨payload, hmem⟩ := henqueued row hrow
          have hlater := (hg row hrow).2
          have hid : (g row).correlationId = row.correlationId := hlater.correlationId
          have hpallet : (g row).pallet = row.pallet := hlater.pallet
          have hcall : (g row).call = row.call := hlater.call
          have htime : (g row).createdAt = row.createdAt := hlater.createdAt
          rw [hid, hpallet, hcall, htime]
          exact ⟨payload, List.mem_append_left _ hmem⟩
        · have hold : Commit.enqueue id pallet call payload now ∈ cs :=
            (List.mem_append.mp hmem).resolve_right fun hnew =>
              hc _ _ _ _ _ (List.mem_singleton.mp hnew).symm
          obtain ⟨row, hrow, hid⟩ := List.mem_map.mp (hfound _ _ _ _ _ hold)
          refine List.mem_map.mpr ⟨g row, List.mem_map.mpr ⟨row, hrow, rfl⟩, ?_⟩
          exact (hg row hrow).2.correlationId.trans hid

end Commits

/-! ## The answers -/

section Answers

variable {pg : Jsonb} {tr : List (System × Label)} {s : System}
variable {rows rows' : List OutboundExtrinsic} {id : String} {v : OutboxStatusView}

theorem getOutboxStatus_ok : getOutboxStatus rows id = .ok v ↔
    ∃ row, (rows.find? fun row => row.correlationId = id) = some row ∧ .ofRow row = v := by
  unfold getOutboxStatus
  cases rows.find? fun row => row.correlationId = id with
  | none => simp
  | some row => simp

/-- The answer to the same request, later. -/
theorem getOutboxStatus_later (h : Grows RowLater rows rows') (hv : getOutboxStatus rows id = .ok v) :
    ∃ v', getOutboxStatus rows' id = .ok v' ∧ v.Later v' := by
  obtain ⟨row, hfind, rfl⟩ := getOutboxStatus_ok.mp hv
  obtain ⟨row', hfind', hlater⟩ := h.find (fun _ _ h => h.correlationId) hfind
  exact ⟨_, getOutboxStatus_ok.mpr ⟨row', hfind', rfl⟩, hlater⟩

/-- What is answered of the rows that a list of transactions leaves. -/
theorem answers_of_exec {cs : List Commit}
    (hexec : Transition.exec (Commit.step pg) [] cs = some rows) (id : String) :
    ((∃ v, getOutboxStatus rows id = .ok v) ↔ ∃ pallet call payload now,
        Commit.enqueue id pallet call payload now ∈ cs) ∧
      ∀ v, getOutboxStatus rows id = .ok v → v.Coherent ∧ ∃ payload,
        Commit.enqueue id v.pallet v.call payload v.createdAt ∈ cs := by
  have horigins := Origins.exec hexec
  have htold := (AllTold.nil.exec hexec).1
  have hanswer : ∀ v, getOutboxStatus rows id = .ok v → v.Coherent ∧ ∃ payload,
      Commit.enqueue id v.pallet v.call payload v.createdAt ∈ cs := by
    intro v hv
    obtain ⟨row, hfind, rfl⟩ := getOutboxStatus_ok.mp hv
    obtain rfl : row.correlationId = id := by simpa using List.find?_some hfind
    have hrow := List.mem_of_find?_eq_some hfind
    exact ⟨(htold.told row hrow).coherent, horigins.enqueued row hrow⟩
  refine ⟨⟨?_, ?_⟩, hanswer⟩
  · rintro ⟨v, hv⟩
    obtain ⟨-, payload, hmem⟩ := hanswer v hv
    exact ⟨v.pallet, v.call, payload, v.createdAt, hmem⟩
  · rintro ⟨pallet, call, payload, now, hmem⟩
    obtain ⟨row, hrow, hid⟩ := List.mem_map.mp (horigins.found _ _ _ _ _ hmem)
    cases hfind : rows.find? fun row => row.correlationId = id with
    | none => exact absurd hid (by simpa using List.find?_eq_none.mp hfind row hrow)
    | some row' => exact ⟨_, getOutboxStatus_ok.mpr ⟨row', hfind, rfl⟩⟩

/-- **One story for each extrinsic.** In every run, exactly the ids that have been enqueued are
answered, each with the pallet, the call and the time of its enqueue, and coherently; the answer
changes at most in what is pending, and never once it says that the extrinsic is finalized or has
failed. -/
theorem status_tracked (hrun : Runs pg tr s) (id : String) :
    ((∃ v, getOutboxStatus s.committed id = .ok v) ↔ ∃ pallet call payload now,
        Commit.enqueue id pallet call payload now ∈ Transition.trace commits tr) ∧
      (∀ v, getOutboxStatus s.committed id = .ok v → v.Coherent ∧ ∃ payload,
        Commit.enqueue id v.pallet v.call payload v.createdAt ∈ Transition.trace commits tr) ∧
      ∀ p ∈ tr, ∀ v, getOutboxStatus p.1.committed id = .ok v →
        ∃ v', getOutboxStatus s.committed id = .ok v' ∧ v.Later v' := by
  obtain ⟨rows, hexec, -, -, rfl⟩ := (refines pg).run hrun fun _ _ => trivial
  obtain ⟨hfound, hanswer⟩ := answers_of_exec hexec id
  refine ⟨hfound, hanswer, ?_⟩
  -- every state of the run shows coherent rows, and each step lets them grow
  have hgrows := hrun.related (I := fun s => Invariant pg s ∧ Checked s ∧ AllTold s.committed)
    (R := fun s t => Grows RowLater s.committed t.committed) ?_ ?_ ?_ ?_
  · exact fun p hp v hv => getOutboxStatus_later (hgrows p hp) hv
  · exact ⟨Invariant.init, Checked.init, AllTold.nil⟩
  · rintro s l t ⟨hinv, hchecked, htold⟩ hstep
    have hcommits := step_commits hinv hchecked hstep
    exact ⟨hinv.step s l t hstep, hchecked.step hinv hstep, (htold.exec hcommits).1⟩
  · exact fun r s t hrs hst => hrs.trans (fun _ _ _ => .trans) hst
  · rintro s l t ⟨hinv, hchecked, htold⟩ hstep
    exact (htold.exec (step_commits hinv hchecked hstep)).2

/-- What is answered for the second row of `besidePatch` when it is finalized. -/
def besideAnswer : OutboxStatusView :=
  ⟨"c2", "TaskMarket", "allocate_task", .finalized, 1, none, 1, some 9⟩

/-- It is the answer to the enqueue. -/
theorem besidePatch_tracked :
    ∃ tr s, Runs (.onValues [.object [("task_id", .number (.posInt 0))]]) tr s ∧
      getOutboxStatus s.committed "c2" = .ok besideAnswer ∧ ∃ payload,
        Commit.enqueue "c2" "TaskMarket" "allocate_task" payload 1 ∈
          Transition.trace commits tr := by
  have hexec : (Transition.exec (step (.onValues [.object [("task_id", .number (.posInt 0))]]))
      System.init besidePatch).any
      (fun s => getOutboxStatus s.committed "c2" = .ok besideAnswer) = true := by decide
  obtain ⟨tr, s, hrun, hanswer⟩ := Transition.Run.reach_of_exec hexec
  have hanswer := of_decide_eq_true hanswer
  obtain ⟨-, henqueued, -⟩ := status_tracked hrun "c2"
  exact ⟨tr, s, hrun, hanswer, (henqueued besideAnswer hanswer).2⟩

end Answers

end Ainur.Outbox
