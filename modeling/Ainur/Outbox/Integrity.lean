import Ainur.Outbox.System

set_option autoImplicit false

/-! # Integrity of outbox rows

One invariant carries everything that holds of the outbox in every reachable state
(`Invariant`). Row by row it says who holds the row and with which version, what the committed
attempts at the row have made of it (`History`), and how many extrinsics of the row are on the
chain. Every writer keeps it, so it holds along every run (`Runs.invariant`).
-/

namespace Ainur.Outbox

open RowLock

/-! ## The invariant -/

/-- The committed attempts at the row `key`. -/
def committedOf (attempts : List Attempt) (key : String) : List Attempt :=
  attempts.filter fun a => a.committed && a.job.correlationId = key

/-- How many ended attempts at the row `key` put an extrinsic on the chain. -/
def includedOf (attempts : List Attempt) (key : String) : Nat :=
  attempts.countP fun a => a.outcome.included && a.job.correlationId = key

/-- What the committed attempts at a row make of it: no second attempt is committed, and the
row still holds the job of the first. -/
inductive History (row : OutboundExtrinsic) : List Attempt → Prop
  | untried : row.status = .pending → row.txHash = none → row.retryCount = 0 → History row []
  | finalized {a : Attempt} {hash : String} : a.outcome = .finalized hash →
      row.status = .finalized → row.txHash = some hash → row.retryCount = 1 →
      a.job = { row.job with retryCount := 0 } → History row [a]
  | failed {a : Attempt} {err : String} : a.outcome.result = .error err →
      isConnectionErr err = false → row.status = .failed → row.txHash = none →
      row.retryCount = 1 → a.job = { row.job with retryCount := 0 } → History row [a]

/-- How many extrinsics of the row's open attempt are on the chain. -/
def System.inFlight (s : System) (slot : Slot String OutboundExtrinsic Holder) : Nat :=
  match slot.lock with
  | some (.worker w, _) => (s.workers w).inFlight
  | _ => 0

/-- The invariant of one row. -/
structure SlotInv (pg : Jsonb) (s : System) (slot : Slot String OutboundExtrinsic Holder) :
    Prop where
  key : slot.row.correlationId = slot.key
  ofWorker : ∀ w v, slot.lock = some (.worker w, v) →
    v = slot.row ∧ slot.row.status = .pending ∧ (s.workers w).job = some slot.row.job
  ofStatement : ∀ q v, slot.lock = some (.statement q, v) →
    ∃ st, s.statements q = some st ∧ st.update.applies pg slot.row = some true ∧
      v = st.update.set pg slot.row
  history : History slot.row (committedOf s.attempts slot.key)
  submissions : s.chain.count slot.key = includedOf s.attempts slot.key + s.inFlight slot

structure Invariant (pg : Jsonb) (s : System) : Prop where
  keys : s.table.keys.Nodup
  slots : ∀ slot ∈ s.table, SlotInv pg s slot
  holds : ∀ w job, (s.workers w).job = some job →
    ∃ slot ∈ s.table, slot.lock = some (.worker w, slot.row) ∧ slot.row.job = job
  knownChain : ∀ key ∈ s.chain, key ∈ s.table.keys
  knownAttempts : ∀ a ∈ s.attempts, a.job.correlationId ∈ s.table.keys

/-! ## Histories -/

theorem History.hashed {row : OutboundExtrinsic} {as : List Attempt} (h : History row as) :
    row.Hashed := by
  cases h with
  | untried hs ht _ => simp [OutboundExtrinsic.Hashed, hs, ht]
  | finalized _ hs ht _ _ => simp [OutboundExtrinsic.Hashed, hs, ht]
  | failed _ _ hs ht _ _ => simp [OutboundExtrinsic.Hashed, hs, ht]

/-- An update of another writer does not rewrite history. -/
theorem History.same {row row' : OutboundExtrinsic} {as : List Attempt} (h : History row as)
    (hsame : row.Same row') : History row' as := by
  have hjob : row.status ≠ .pending →
      ({ row'.job with retryCount := 0 } : Job) = { row.job with retryCount := 0 } := by
    intro hne
    simp [OutboundExtrinsic.job, hsame.correlationId, hsame.pallet, hsame.call,
      hsame.payload hne]
  cases h with
  | untried hs ht hr =>
      exact .untried (hsame.status.trans hs) (hsame.txHash.trans ht) (hsame.retryCount.trans hr)
  | finalized ho hs ht hr hj =>
      exact .finalized ho (hsame.status.trans hs) (hsame.txHash.trans ht)
        (hsame.retryCount.trans hr) (hj.trans (hjob (by simp [hs])).symm)
  | failed ho hc hs ht hr hj =>
      exact .failed ho hc (hsame.status.trans hs) (hsame.txHash.trans ht)
        (hsame.retryCount.trans hr) (hj.trans (hjob (by simp [hs])).symm)

/-- A pending row has no committed attempt. -/
theorem History.pending {row : OutboundExtrinsic} {as : List Attempt} (h : History row as)
    (hs : row.status = .pending) : as = [] ∧ row.retryCount = 0 := by
  cases h with
  | untried _ _ hr => exact ⟨rfl, hr⟩
  | finalized _ hs' _ _ _ => simp [hs] at hs'
  | failed _ _ hs' _ _ _ => simp [hs] at hs'

/-- What a committed settlement makes of a pending row. -/
theorem History.settled {row : OutboundExtrinsic} {now : Nat} {job : Job} {outcome : Submission}
    {f : OutboundExtrinsic → OutboundExtrinsic} (h : History row [])
    (hjob : row.job = job) (hf : settlement now job outcome = some f) :
    History (f row) [⟨job, outcome, true⟩] := by
  obtain ⟨_, ht, hr⟩ : row.status = .pending ∧ row.txHash = none ∧ row.retryCount = 0 := by
    cases h with
    | untried hs ht hr => exact ⟨hs, ht, hr⟩
  subst hjob
  have hretry : ({ row.job with retryCount := 0 } : Job) = row.job := by
    simp [OutboundExtrinsic.job, hr]
  rcases settlement_cases hf with ⟨hash, hres, rfl⟩ | ⟨err, cut, hres, hconn, -, rfl⟩
  · have ho : outcome = .finalized hash := by
      cases outcome <;> simp_all [Submission.result]
    exact .finalized ho rfl rfl (by simp [OutboundExtrinsic.finalize, hr]) hretry.symm
  · have hnext : nextStatus row.job.retryCount = .failed := by
      simp [OutboundExtrinsic.job, hr, nextStatus, maxRetries]
    exact .failed hres hconn hnext ht (by simp [OutboundExtrinsic.fail, hr]) hretry.symm

/-! ## Frames -/

section Frames

variable {pg : Jsonb} {s t : System} {slot : Slot String OutboundExtrinsic Holder}

/-- A row that a step does not touch, nor the transaction that holds it, nor its records. -/
theorem SlotInv.frame (h : SlotInv pg s slot)
    (hworker : ∀ w v, slot.lock = some (.worker w, v) → t.workers w = s.workers w)
    (hstatement : ∀ q v st, slot.lock = some (.statement q, v) → s.statements q = some st →
      ∃ st', t.statements q = some st' ∧ st'.update = st.update)
    (hcommitted : committedOf t.attempts slot.key = committedOf s.attempts slot.key)
    (hincluded : includedOf t.attempts slot.key = includedOf s.attempts slot.key)
    (hchain : t.chain.count slot.key = s.chain.count slot.key) : SlotInv pg t slot where
  key := h.key
  ofWorker w v hlock := by
    rw [hworker w v hlock]
    exact h.ofWorker w v hlock
  ofStatement q v hlock := by
    obtain ⟨st, hst, happ, hv⟩ := h.ofStatement q v hlock
    obtain ⟨st', hst', hu⟩ := hstatement q v st hlock hst
    exact ⟨st', hst', by rwa [hu], by rwa [hu]⟩
  history := by rw [hcommitted]; exact h.history
  submissions := by
    have hflight : t.inFlight slot = s.inFlight slot := by
      unfold System.inFlight
      split
      · next w v hlock => rw [hworker w v hlock]
      · rfl
    rw [hchain, hincluded, hflight]
    exact h.submissions

/-- A worker without a job holds no row. -/
theorem SlotInv.not_held_of_noJob (h : SlotInv pg s slot) {w : Nat}
    (hw : (s.workers w).job = none) (v : OutboundExtrinsic) :
    slot.lock ≠ some (.worker w, v) := by
  intro hlock
  have hjob := (h.ofWorker w v hlock).2.2
  rw [hw] at hjob
  cases hjob

/-- The row that a worker with a job holds is the one its job names. -/
theorem Invariant.held (h : Invariant pg s) {w : Nat} {job : Job}
    (hw : (s.workers w).job = some job) (hmem : slot ∈ s.table) :
    (∃ v, slot.lock = some (.worker w, v)) ↔ slot.key = job.correlationId := by
  obtain ⟨held, hheld, hlock, hjob⟩ := h.holds w job hw
  have hkey : held.key = job.correlationId := by
    rw [← (h.slots held hheld).key, ← hjob]
    rfl
  constructor
  · rintro ⟨v, hv⟩
    have hjob' := (h.slots slot hmem).ofWorker w v hv
    rw [hw] at hjob'
    rw [← (h.slots slot hmem).key, Option.some.inj hjob'.2.2]
    rfl
  · intro hslot
    have heq : slot = held := Table.eq_of_key h.keys hmem hheld (hslot.trans hkey.symm)
    exact ⟨slot.row, heq ▸ hlock⟩

/-- A worker that goes from one state without a job to another changes nothing. -/
theorem Invariant.setWorker_noJob (h : Invariant pg s) {w : Nat} {state : Worker}
    (hw : (s.workers w).job = none) (hstate : state.job = none) :
    Invariant pg (s.setWorker w state) where
  keys := h.keys
  slots slot hmem := by
    refine (h.slots slot hmem).frame ?_ (fun q v st _ hst => ⟨st, hst, rfl⟩) rfl rfl rfl
    intro w' v hlock
    have hne : w' ≠ w := by
      rintro rfl
      exact (h.slots slot hmem).not_held_of_noJob hw v hlock
    simp [System.setWorker, hne]
  holds w' job hjob := by
    have hne : w' ≠ w := by
      rintro rfl
      simp [System.setWorker, hstate] at hjob
    exact h.holds w' job (by simpa [System.setWorker, hne] using hjob)
  knownChain := h.knownChain
  knownAttempts := h.knownAttempts

/-- Another statement starts, or one that runs has one row fewer to reach. -/
theorem Invariant.setStatement (h : Invariant pg s) {q : Nat} {st' : Statement}
    (hq : ∀ st, s.statements q = some st → st'.update = st.update) :
    Invariant pg (s.setStatement q (some st')) where
  keys := h.keys
  slots slot hmem := by
    refine (h.slots slot hmem).frame (fun _ _ _ => rfl) ?_ rfl rfl rfl
    intro q' v st _ hst
    by_cases hne : q' = q
    · subst hne
      exact ⟨st', by simp [System.setStatement], hq st hst⟩
    · exact ⟨st, by simpa [System.setStatement, hne] using hst, rfl⟩
  holds := h.holds
  knownChain := h.knownChain
  knownAttempts := h.knownAttempts

end Frames

/-! ## Every step keeps the invariant -/

section Steps

variable {pg : Jsonb} {s : System}

theorem Invariant.init : Invariant pg System.init where
  keys := List.nodup_nil
  slots slot hmem := by cases hmem
  holds w job hjob := by cases hjob
  knownChain key hkey := by cases hkey
  knownAttempts a ha := by cases ha

theorem Invariant.enqueue (h : Invariant pg s) {correlationId pallet call : String}
    {payload : Option String} {now : Nat} (hfresh : correlationId ∉ s.table.keys) :
    Invariant pg { s with
      table := s.table ++ [⟨correlationId,
        OutboundExtrinsic.insert correlationId pallet call payload .pending now, none⟩] } where
  keys := by
    simp only [Table.keys, List.map_append, List.map_cons, List.map_nil]
    exact List.Nodup.append h.keys (List.nodup_singleton _) (by simpa [Table.keys] using hfresh)
  slots slot hmem := by
    rcases List.mem_append.mp hmem with hold | hnew
    · exact (h.slots slot hold).frame (fun _ _ _ => rfl) (fun q v st _ hst => ⟨st, hst, rfl⟩)
        rfl rfl rfl
    · obtain rfl := List.mem_singleton.mp hnew
      have hnone : ∀ a ∈ s.attempts, a.job.correlationId ≠ correlationId :=
        fun a ha heq => hfresh (heq ▸ h.knownAttempts a ha)
      have hcommitted : committedOf s.attempts correlationId = [] := by
        refine List.filter_eq_nil_iff.mpr fun a ha => ?_
        simp [hnone a ha]
      have hincluded : includedOf s.attempts correlationId = 0 := by
        refine List.countP_eq_zero.mpr fun a ha => ?_
        simp [hnone a ha]
      have hchain : s.chain.count correlationId = 0 :=
        List.count_eq_zero.mpr fun hmem => hfresh (h.knownChain _ hmem)
      refine ⟨rfl, (fun w v hlock => by cases hlock), (fun q v hlock => by cases hlock), ?_, ?_⟩
      · rw [hcommitted]
        exact .untried rfl rfl rfl
      · simp [hchain, hincluded, System.inFlight]
  holds w job hjob := by
    obtain ⟨slot, hmem, hlock⟩ := h.holds w job hjob
    exact ⟨slot, List.mem_append_left _ hmem, hlock⟩
  knownChain key hkey := by
    have := h.knownChain key hkey
    simp only [Table.keys, List.map_append, List.mem_append] at this ⊢
    exact Or.inl this
  knownAttempts a ha := by
    have := h.knownAttempts a ha
    simp only [Table.keys, List.map_append, List.mem_append] at this ⊢
    exact Or.inl this

/-- The fetch query locks a pending row that nobody holds. -/
theorem Invariant.take (h : Invariant pg s) {w : Nat} {key : String}
    {slot : Slot String OutboundExtrinsic Holder} (hw : (s.workers w).job = none)
    (hfind : s.table.find key = some slot) (hfree : slot.lock = none)
    (hpending : slot.row.status = .pending) :
    Invariant pg { s.setWorker w (.submitting slot.row.job) with
      table := s.table.modify key (Slot.write (.worker w) id) } := by
  obtain ⟨hslot, hkey⟩ := Table.find_eq_some hfind
  have hkeys : (s.table.modify key (Slot.write (Holder.worker w) id)).keys = s.table.keys :=
    Table.keys_modify fun _ => rfl
  have hview : slot.view (Holder.worker w) = slot.row := Slot.view_of_free hfree
  refine ⟨by rw [hkeys]; exact h.keys, ?_, ?_, ?_, ?_⟩
  · intro slot' hmem
    obtain ⟨slot₀, hmem₀, rfl⟩ := Table.mem_modify.mp hmem
    have hinv := h.slots slot₀ hmem₀
    -- the row that is taken was free, and the others keep their holders
    by_cases hk : slot₀.key = key
    · obtain rfl : slot₀ = slot := Table.eq_of_key h.keys hmem₀ hslot (hk.trans hkey.symm)
      rw [if_pos hk]
      refine ⟨hinv.key, ?_, ?_, hinv.history, ?_⟩
      · intro w' v hlock
        simp only [Slot.write_lock, id_eq, hview, Option.some.injEq, Prod.mk.injEq,
          Holder.worker.injEq] at hlock
        obtain ⟨rfl, rfl⟩ := hlock
        exact ⟨rfl, hpending, by simp [System.setWorker, Worker.job]⟩
      · intro q v hlock
        simp at hlock
      · have hsub := hinv.submissions
        simp only [System.inFlight, hfree] at hsub
        simpa [System.inFlight, System.setWorker, Worker.inFlight] using hsub
    · rw [if_neg hk]
      refine hinv.frame ?_ (fun q v st _ hst => ⟨st, hst, rfl⟩) rfl rfl rfl
      intro w' v hlock
      have hne : w' ≠ w := by
        rintro rfl
        exact hinv.not_held_of_noJob hw v hlock
      simp [System.setWorker, hne]
  · intro w' job hjob
    by_cases hww : w' = w
    · subst hww
      refine ⟨slot.write (.worker w') id, Table.mem_modify.mpr ⟨slot, hslot, by rw [if_pos hkey]⟩,
        by simp [hview], ?_⟩
      simpa [System.setWorker, Worker.job] using hjob
    · obtain ⟨slot₀, hmem₀, hlock, hjob₀⟩ := h.holds w' job (by
        simpa [System.setWorker, hww] using hjob)
      refine ⟨slot₀, Table.mem_modify.mpr ⟨slot₀, hmem₀, if_neg ?_⟩, hlock, hjob₀⟩
      intro hk
      obtain rfl : slot₀ = slot := Table.eq_of_key h.keys hmem₀ hslot (hk.trans hkey.symm)
      rw [hfree] at hlock
      cases hlock
  · rw [hkeys]
    exact h.knownChain
  · rw [hkeys]
    exact h.knownAttempts

theorem Invariant.submit (h : Invariant pg s) {w : Nat} {job : Job}
    (hw : s.workers w = .submitting job) (outcome : Submission) :
    Invariant pg { s.setWorker w (.returned job outcome) with
      chain := if outcome.included then job.correlationId :: s.chain else s.chain } := by
  have hjob : (s.workers w).job = some job := by rw [hw]; rfl
  refine ⟨h.keys, ?_, ?_, ?_, h.knownAttempts⟩
  · intro slot hmem
    have hinv := h.slots slot hmem
    -- the row of the job has one more submission on the chain or in flight
    by_cases hkey : slot.key = job.correlationId
    · obtain ⟨v, hlock⟩ := (h.held hjob hmem).mpr hkey
      obtain ⟨rfl, hpending, hjob'⟩ := hinv.ofWorker w v hlock
      refine ⟨hinv.key, ?_, ?_, hinv.history, ?_⟩
      · intro w' v' hlock'
        rw [hlock] at hlock'
        obtain ⟨rfl, rfl⟩ : w = w' ∧ slot.row = v' := by simpa using hlock'
        refine ⟨rfl, hpending, ?_⟩
        rw [hjob] at hjob'
        simpa [System.setWorker, Worker.job] using hjob'
      · intro q v' hlock'
        rw [hlock] at hlock'
        simp at hlock'
      · have hsub := hinv.submissions
        simp only [System.inFlight, hlock, hw, Worker.inFlight] at hsub
        cases hincl : outcome.included <;>
          simp [System.inFlight, hlock, System.setWorker, Worker.inFlight, hincl, hkey] <;>
          simpa [hkey] using hsub
    · refine hinv.frame ?_ (fun q v st _ hst => ⟨st, hst, rfl⟩) rfl rfl ?_
      · intro w' v hlock
        have hne : w' ≠ w := by
          rintro rfl
          exact hkey ((h.held hjob hmem).mp ⟨v, hlock⟩)
        simp [System.setWorker, hne]
      · cases outcome.included with
        | false => rfl
        | true => simp [Ne.symm hkey]
  · intro w' job' hjob'
    refine h.holds w' job' ?_
    by_cases hww : w' = w
    · subst hww
      rw [hjob]
      simpa [System.setWorker, Worker.job] using hjob'
    · simpa [System.setWorker, hww] using hjob'
  · intro key hmem
    cases hincl : outcome.included with
    | false => exact h.knownChain key (by simpa [hincl] using hmem)
    | true =>
        have hcases : key = job.correlationId ∨ key ∈ s.chain := by simpa [hincl] using hmem
        rcases hcases with rfl | hold
        · obtain ⟨slot, hslot, hlock, _⟩ := h.holds w job hjob
          exact List.mem_map.mpr ⟨slot, hslot, (h.held hjob hslot).mp ⟨_, hlock⟩⟩
        · exact h.knownChain key hold

/-- Nothing but the row `key` is in the records of one attempt at it. -/
theorem committedOf_cons_ne {a : Attempt} {attempts : List Attempt} {key : String}
    (h : a.job.correlationId ≠ key) : committedOf (a :: attempts) key = committedOf attempts key :=
  List.filter_cons_of_neg (by simp [h])

theorem includedOf_cons_ne {a : Attempt} {attempts : List Attempt} {key : String}
    (h : a.job.correlationId ≠ key) : includedOf (a :: attempts) key = includedOf attempts key :=
  List.countP_cons_of_neg (by simp [h])

theorem includedOf_cons_self {job : Job} {outcome : Submission} {committed : Bool}
    {attempts : List Attempt} :
    includedOf (⟨job, outcome, committed⟩ :: attempts) job.correlationId
      = includedOf attempts job.correlationId + if outcome.included then 1 else 0 := by
  simp [includedOf, List.countP_cons]

/-- What the end of an attempt leaves of the table: the row of the job is free, with the
settlement where there is one, and every other row is as it was. -/
theorem Invariant.conclude_table (h : Invariant pg s) {w : Nat} {job : Job}
    {outcome : Submission} (hw : s.workers w = .returned job outcome)
    {write : Option (OutboundExtrinsic → OutboundExtrinsic)} :
    (s.conclude w job outcome write).table = s.table.map fun slot =>
      if slot.key = job.correlationId then
        { slot with row := write.elim slot.row (· slot.row), lock := none }
      else slot := by
  have hjob : (s.workers w).job = some job := by rw [hw]; rfl
  have hheld : ∀ slot ∈ s.table, slot.key = job.correlationId →
      slot.lock = some (.worker w, slot.row) := by
    intro slot hmem hk
    obtain ⟨v, hlock⟩ := (h.held hjob hmem).mpr hk
    rw [hlock, ((h.slots slot hmem).ofWorker w v hlock).1]
  have hfree : ∀ slot ∈ s.table, slot.key ≠ job.correlationId →
      ∀ v, slot.lock ≠ some (.worker w, v) :=
    fun slot hmem hk v hlock => hk ((h.held hjob hmem).mp ⟨v, hlock⟩)
  cases write with
  | none =>
      refine List.map_congr_left fun slot hmem => ?_
      by_cases hk : slot.key = job.correlationId
      · rw [if_pos hk, Slot.rollback_of_held (hheld slot hmem hk)]
        rfl
      · rw [if_neg hk, Slot.rollback_of_not_held (hfree slot hmem hk)]
  | some f =>
      rw [show (s.conclude w job outcome (some f)).table
          = (s.table.modify job.correlationId (Slot.write (.worker w) f)).commit (.worker w)
          from rfl, Table.commit, Table.modify, List.map_map]
      refine List.map_congr_left fun slot hmem => ?_
      rw [Function.comp_apply]
      by_cases hk : slot.key = job.correlationId
      · rw [if_pos hk, if_pos hk, Slot.commit_of_held (Slot.write_lock _ _ _),
          Slot.view_of_held (hheld slot hmem hk)]
        rfl
      · rw [if_neg hk, if_neg hk, Slot.commit_of_not_held (hfree slot hmem hk)]

theorem Invariant.conclude_slot (h : Invariant pg s) {w : Nat} {job : Job}
    {outcome : Submission} (hw : s.workers w = .returned job outcome)
    {write : Option (OutboundExtrinsic → OutboundExtrinsic)}
    {slot : Slot String OutboundExtrinsic Holder} :
    slot ∈ (s.conclude w job outcome write).table ↔
      ∃ slot₀ ∈ s.table, slot =
        if slot₀.key = job.correlationId then
          { slot₀ with row := write.elim slot₀.row (· slot₀.row), lock := none }
        else slot₀ := by
  rw [h.conclude_table hw, List.mem_map]
  refine exists_congr fun slot₀ => and_congr_right fun _ => ?_
  exact eq_comm

/-- A worker ends its attempt: it commits its settlement or is rolled back. -/
theorem Invariant.conclude (h : Invariant pg s) {w : Nat} {job : Job} {outcome : Submission}
    (hw : s.workers w = .returned job outcome)
    {write : Option (OutboundExtrinsic → OutboundExtrinsic)}
    (hwrite : ∀ f, write = some f → ∃ now, settlement now job outcome = some f) :
    Invariant pg (s.conclude w job outcome write) := by
  have hjob : (s.workers w).job = some job := by rw [hw]; rfl
  have hkeys : (s.conclude w job outcome write).table.keys = s.table.keys := by
    cases write with
    | none => exact Table.keys_rollback _ _
    | some f => exact (Table.keys_commit _ _).trans (Table.keys_modify fun _ => rfl)
  refine ⟨by rw [hkeys]; exact h.keys, ?_, ?_, ?_, ?_⟩
  · intro slot hmem
    obtain ⟨slot₀, hmem₀, rfl⟩ := (h.conclude_slot hw).mp hmem
    have hinv := h.slots slot₀ hmem₀
    -- the row of the job is released, with its first committed attempt or with none
    by_cases hk : slot₀.key = job.correlationId
    · rw [if_pos hk]
      obtain ⟨v, hlock⟩ := (h.held hjob hmem₀).mpr hk
      obtain ⟨rfl, hpending, hjob'⟩ := hinv.ofWorker w v hlock
      have hrow : slot₀.row.job = job := by
        rw [hjob] at hjob'
        exact (Option.some.inj hjob').symm
      obtain ⟨hnone, -⟩ := hinv.history.pending hpending
      have hsub := hinv.submissions
      simp only [System.inFlight, hlock, hw, Worker.inFlight] at hsub
      refine ⟨?_, (fun w' v hlock => by cases hlock), (fun q v hlock => by cases hlock), ?_, ?_⟩
      · cases write with
        | none => exact hinv.key
        | some f =>
            obtain ⟨now, hf⟩ := hwrite f rfl
            exact (settlement_correlationId hf _).trans hinv.key
      · have hhist := hinv.history
        rw [hnone] at hhist
        cases write with
        | none =>
            have hkeep : committedOf (s.conclude w job outcome none).attempts slot₀.key = [] :=
              (List.filter_cons_of_neg (by simp)).trans hnone
            rw [hkeep]
            exact hhist
        | some f =>
            obtain ⟨now, hf⟩ := hwrite f rfl
            have hnew : committedOf (s.conclude w job outcome (some f)).attempts slot₀.key
                = [⟨job, outcome, true⟩] :=
              (List.filter_cons_of_pos (by simp [hk])).trans (congrArg _ hnone)
            rw [hnew]
            exact hhist.settled hrow hf
      · simp only [System.inFlight, Nat.add_zero]
        rw [hk] at hsub ⊢
        exact hsub.trans includedOf_cons_self.symm
    · rw [if_neg hk]
      refine hinv.frame ?_ (fun q v st _ hst => ⟨st, hst, rfl⟩)
        (committedOf_cons_ne (Ne.symm hk)) (includedOf_cons_ne (Ne.symm hk)) rfl
      intro w' v hlock
      have hne : w' ≠ w := by
        rintro rfl
        exact hk ((h.held hjob hmem₀).mp ⟨v, hlock⟩)
      simp [System.conclude, hne]
  · intro w' job' hjob'
    have hne : w' ≠ w := by
      rintro rfl
      simp [System.conclude, Worker.job] at hjob'
    obtain ⟨slot₀, hmem₀, hlock, hrow⟩ := h.holds w' job' (by
      simpa [System.conclude, hne] using hjob')
    have hk : slot₀.key ≠ job.correlationId := by
      intro hk
      obtain ⟨v, hv⟩ := (h.held hjob hmem₀).mpr hk
      rw [hlock] at hv
      simp [hne] at hv
    exact ⟨slot₀, (h.conclude_slot hw).mpr ⟨slot₀, hmem₀, (if_neg hk).symm⟩, hlock, hrow⟩
  · rw [hkeys]
    exact h.knownChain
  · rw [hkeys]
    intro a ha
    rcases List.mem_cons.mp ha with rfl | hold
    · obtain ⟨slot, hslot, hlock, _⟩ := h.holds w job hjob
      exact List.mem_map.mpr ⟨slot, hslot, (h.held hjob hslot).mp ⟨_, hlock⟩⟩
    · exact h.knownAttempts a hold

/-- An update changes a row that nobody holds. -/
theorem Invariant.change (h : Invariant pg s) {q : Nat} {key : String} {st : Statement}
    {slot : Slot String OutboundExtrinsic Holder} (hst : s.statements q = some st)
    (hfind : s.table.find key = some slot) (hfree : slot.lock = none)
    (happ : st.update.applies pg slot.row = some true) :
    Invariant pg { s.setStatement q (some ⟨st.update, st.remaining.erase key⟩) with
      table := s.table.modify key (Slot.write (.statement q) (st.update.set pg)) } := by
  obtain ⟨hslot, hkey⟩ := Table.find_eq_some hfind
  have hkeys : (s.table.modify key (Slot.write (Holder.statement q) (st.update.set pg))).keys
      = s.table.keys := Table.keys_modify fun _ => rfl
  have hbase : Invariant pg (s.setStatement q (some ⟨st.update, st.remaining.erase key⟩)) :=
    h.setStatement fun st₀ hst₀ => by rw [hst] at hst₀; rw [← Option.some.inj hst₀]
  refine ⟨by rw [hkeys]; exact h.keys, ?_, ?_, by rw [hkeys]; exact h.knownChain,
    by rw [hkeys]; exact h.knownAttempts⟩
  · intro slot' hmem
    obtain ⟨slot₀, hmem₀, rfl⟩ := Table.mem_modify.mp hmem
    have hinv := hbase.slots slot₀ hmem₀
    by_cases hk : slot₀.key = key
    · obtain rfl : slot₀ = slot := Table.eq_of_key h.keys hmem₀ hslot (hk.trans hkey.symm)
      rw [if_pos hk]
      refine ⟨hinv.key, ?_, ?_, hinv.history, ?_⟩
      · intro w v hlock
        simp at hlock
      · intro q' v hlock
        simp only [Slot.write_lock, Slot.view_of_free hfree, Option.some.injEq, Prod.mk.injEq,
          Holder.statement.injEq] at hlock
        obtain ⟨rfl, rfl⟩ := hlock
        exact ⟨⟨st.update, st.remaining.erase key⟩, by simp [System.setStatement], happ, rfl⟩
      · have hsub := hinv.submissions
        simp only [System.inFlight, hfree] at hsub
        simpa [System.inFlight] using hsub
    · rw [if_neg hk]
      exact hinv.frame (fun _ _ _ => rfl) (fun q' v st' _ hst' => ⟨st', hst', rfl⟩) rfl rfl rfl
  · intro w job hjob
    obtain ⟨slot₀, hmem₀, hlock, hrow⟩ := h.holds w job hjob
    refine ⟨slot₀, Table.mem_modify.mpr ⟨slot₀, hmem₀, if_neg ?_⟩, hlock, hrow⟩
    intro hk
    obtain rfl : slot₀ = slot := Table.eq_of_key h.keys hmem₀ hslot (hk.trans hkey.symm)
    rw [hfree] at hlock
    cases hlock

/-- A statement ends. Rows that it does not hold stay as they are; `g` is what becomes of a row
that it holds. -/
theorem Invariant.endStatement (h : Invariant pg s) {q : Nat}
    {g : Slot String OutboundExtrinsic Holder → Slot String OutboundExtrinsic Holder}
    (hkey : ∀ slot, (g slot).key = slot.key)
    (hother : ∀ slot, (∀ v, slot.lock ≠ some (.statement q, v)) → g slot = slot)
    (hheld : ∀ slot v, slot.lock = some (.statement q, v) →
      (g slot).lock = none ∧ ((g slot).row = slot.row ∨ (g slot).row = v)) :
    Invariant pg { s.setStatement q none with table := s.table.map g } := by
  have hkeys : Table.keys (s.table.map g) = s.table.keys := by
    simp only [Table.keys, List.map_map]
    exact List.map_congr_left fun slot _ => hkey slot
  refine ⟨by rw [hkeys]; exact h.keys, ?_, ?_, by rw [hkeys]; exact h.knownChain,
    by rw [hkeys]; exact h.knownAttempts⟩
  · intro slot' hmem
    obtain ⟨slot, hslot, rfl⟩ := List.mem_map.mp hmem
    have hinv := h.slots slot hslot
    by_cases hlock : ∃ v, slot.lock = some (.statement q, v)
    · obtain ⟨v, hlock⟩ := hlock
      obtain ⟨hnone, hrow⟩ := hheld slot v hlock
      obtain ⟨st, _, happ, hv⟩ := hinv.ofStatement q v hlock
      -- committed or rolled back, the row has the same history
      have hsame : slot.row.Same (g slot).row := by
        rcases hrow with hrow | hrow
        · rw [hrow]
          exact .refl _
        · rw [hrow, hv]
          exact Update.same hinv.history.hashed happ
      have hsub := hinv.submissions
      simp only [System.inFlight, hlock] at hsub
      refine ⟨?_, ?_, ?_, ?_, ?_⟩
      · rw [hsame.correlationId, hkey]
        exact hinv.key
      · intro w v hw
        rw [hnone] at hw
        cases hw
      · intro q' v hq
        rw [hnone] at hq
        cases hq
      · rw [hkey]
        exact hinv.history.same hsame
      · simpa [System.inFlight, System.setStatement, hnone, hkey] using hsub
    · have hne : ∀ v, slot.lock ≠ some (.statement q, v) := not_exists.mp hlock
      rw [hother slot hne]
      refine hinv.frame (fun _ _ _ => rfl) ?_ rfl rfl rfl
      intro q' v st hq' hst
      have hqq : q' ≠ q := by
        rintro rfl
        exact hne v hq'
      exact ⟨st, by simpa [System.setStatement, hqq] using hst, rfl⟩
  · intro w job hjob
    obtain ⟨slot, hslot, hlock, hrow⟩ := h.holds w job hjob
    refine ⟨slot, List.mem_map.mpr ⟨slot, hslot, hother slot ?_⟩, hlock, hrow⟩
    intro v hv
    rw [hlock] at hv
    simp at hv

theorem Invariant.finish (h : Invariant pg s) {q : Nat} :
    Invariant pg { s.setStatement q none with table := s.table.commit (.statement q) } := by
  refine h.endStatement (Slot.commit_key _) (fun slot hne => Slot.commit_of_not_held hne) ?_
  intro slot v hlock
  rw [Slot.commit_of_held hlock]
  exact ⟨rfl, Or.inr rfl⟩

theorem Invariant.abort (h : Invariant pg s) {q : Nat} :
    Invariant pg { s.setStatement q none with table := s.table.rollback (.statement q) } := by
  refine h.endStatement (Slot.rollback_key _) (fun slot hne => Slot.rollback_of_not_held hne) ?_
  intro slot v hlock
  rw [Slot.rollback_of_held hlock]
  exact ⟨rfl, Or.inl rfl⟩

/-- **Every step keeps the invariant.** -/
theorem Invariant.step (s : System) (l : Label) (t : System) (h : Invariant pg s)
    (hstep : step pg s l = some t) : Invariant pg t := by
  cases l with
  | enqueue correlationId pallet call payload now =>
      obtain ⟨⟨hfresh, _⟩, rfl⟩ := step_enqueue.mp hstep
      exact h.enqueue hfresh
  | fetch w =>
      obtain ⟨hw, rfl⟩ := step_fetch.mp hstep
      exact h.setWorker_noJob (by rw [hw]; rfl) rfl
  | skip w cand =>
      obtain ⟨cands, hw, _, rfl⟩ := step_skip.mp hstep
      exact h.setWorker_noJob (by rw [hw]; rfl) rfl
  | take w cand =>
      obtain ⟨cands, slot, ⟨hw, hfind⟩, ⟨_, hfree⟩, rfl⟩ := step_take.mp hstep
      obtain ⟨hlock, hpending⟩ : slot.lock = none ∧ slot.row.status = .pending := by
        simpa [isFree] using hfree
      exact h.take (by rw [hw]; rfl) hfind hlock hpending
  | noJob w =>
      obtain ⟨hw, rfl⟩ := step_noJob.mp hstep
      exact h.setWorker_noJob (by rw [hw]; rfl) rfl
  | submit w outcome =>
      obtain ⟨job, hw, rfl⟩ := step_submit.mp hstep
      exact h.submit hw outcome
  | settle w now =>
      obtain ⟨job, outcome, hw, rfl⟩ := step_settle.mp hstep
      exact h.conclude hw fun f hf => ⟨now, hf⟩
  | crash w =>
      rcases step_crash.mp hstep with ⟨cands, hw, rfl⟩ | ⟨job, outcome, hw, rfl⟩
      · exact h.setWorker_noJob (by rw [hw]; rfl) rfl
      · exact h.conclude hw fun f hf => by cases hf
  | execute q update =>
      obtain ⟨⟨hq, _⟩, rfl⟩ := step_execute.mp hstep
      exact h.setStatement fun st hst => by rw [hq] at hst; cases hst
  | change q correlationId =>
      obtain ⟨st, slot, ⟨hst, hfind⟩, ⟨_, hfree, happ, _⟩, rfl⟩ := step_change.mp hstep
      exact h.change hst hfind (by simpa using hfree) happ
  | pass q correlationId =>
      obtain ⟨st, slot, ⟨hst, _⟩, _, rfl⟩ := step_pass.mp hstep
      exact h.setStatement fun st' hst' => by rw [hst] at hst'; rw [← Option.some.inj hst']
  | finish q =>
      obtain ⟨update, _, rfl⟩ := step_finish.mp hstep
      exact h.finish
  | abort q =>
      obtain ⟨st, _, rfl⟩ := step_abort.mp hstep
      exact h.abort

theorem Runs.invariant {tr : List (System × Label)} (h : Runs pg tr s) : Invariant pg s :=
  Transition.Run.invariant Invariant.init Invariant.step h

/-! ## Rows that have left `pending` -/

/-- A step keeps every row and, once it has left `pending`, all that `Same` names. -/
theorem Invariant.step_row {t : System} {l : Label} (h : Invariant pg s)
    (hstep : Outbox.step pg s l = some t) {slot : Slot String OutboundExtrinsic Holder}
    (hmem : slot ∈ s.table) (hleft : slot.row.status ≠ .pending) :
    ∃ slot' ∈ t.table, slot'.key = slot.key ∧ slot.row.Same slot'.row := by
  have hstay : ∀ {T : Table String OutboundExtrinsic Holder}, slot ∈ T →
      ∃ slot' ∈ T, slot'.key = slot.key ∧ slot.row.Same slot'.row :=
    fun hT => ⟨slot, hT, rfl, .refl _⟩
  have hwrite : ∀ {key : String} {x : Holder} {f : OutboundExtrinsic → OutboundExtrinsic},
      ∃ slot' ∈ s.table.modify key (Slot.write x f),
        slot'.key = slot.key ∧ slot.row.Same slot'.row := by
    intro key x f
    refine ⟨_, Table.mem_modify.mpr ⟨slot, hmem, rfl⟩, ?_, ?_⟩
    · split <;> rfl
    · split <;> exact .refl _
  have hconclude : ∀ {w : Nat} {job : Job} {outcome : Submission}
      {write : Option (OutboundExtrinsic → OutboundExtrinsic)},
      s.workers w = .returned job outcome →
      ∃ slot' ∈ (s.conclude w job outcome write).table,
        slot'.key = slot.key ∧ slot.row.Same slot'.row := by
    intro w job outcome write hw
    have hjob : (s.workers w).job = some job := by rw [hw]; rfl
    have hk : slot.key ≠ job.correlationId := by
      intro hk
      obtain ⟨v, hlock⟩ := (h.held hjob hmem).mpr hk
      exact hleft ((h.slots slot hmem).ofWorker w v hlock).2.1
    exact ⟨slot, (h.conclude_slot hw).mpr ⟨slot, hmem, (if_neg hk).symm⟩, rfl, .refl _⟩
  cases l with
  | enqueue correlationId pallet call payload now =>
      obtain ⟨_, rfl⟩ := step_enqueue.mp hstep
      exact hstay (List.mem_append_left _ hmem)
  | fetch w =>
      obtain ⟨_, rfl⟩ := step_fetch.mp hstep
      exact hstay hmem
  | skip w cand =>
      obtain ⟨_, _, _, rfl⟩ := step_skip.mp hstep
      exact hstay hmem
  | take w cand =>
      obtain ⟨_, _, _, _, rfl⟩ := step_take.mp hstep
      exact hwrite
  | noJob w =>
      obtain ⟨_, rfl⟩ := step_noJob.mp hstep
      exact hstay hmem
  | submit w outcome =>
      obtain ⟨_, _, rfl⟩ := step_submit.mp hstep
      exact hstay hmem
  | settle w now =>
      obtain ⟨job, outcome, hw, rfl⟩ := step_settle.mp hstep
      exact hconclude hw
  | crash w =>
      rcases step_crash.mp hstep with ⟨_, _, rfl⟩ | ⟨job, outcome, hw, rfl⟩
      · exact hstay hmem
      · exact hconclude hw
  | execute q update =>
      obtain ⟨_, rfl⟩ := step_execute.mp hstep
      exact hstay hmem
  | change q correlationId =>
      obtain ⟨_, _, _, _, rfl⟩ := step_change.mp hstep
      exact hwrite
  | pass q correlationId =>
      obtain ⟨_, _, _, _, rfl⟩ := step_pass.mp hstep
      exact hstay hmem
  | finish q =>
      obtain ⟨_, _, rfl⟩ := step_finish.mp hstep
      refine ⟨_, Table.mem_commit.mpr ⟨slot, hmem, rfl⟩, Slot.commit_key _ _, ?_⟩
      by_cases hlock : ∃ v, slot.lock = some (.statement q, v)
      · obtain ⟨v, hlock⟩ := hlock
        obtain ⟨st, _, happ, rfl⟩ := (h.slots slot hmem).ofStatement q v hlock
        rw [Slot.commit_of_held hlock]
        exact Update.same (h.slots slot hmem).history.hashed happ
      · rw [Slot.commit_of_not_held (not_exists.mp hlock)]
        exact .refl _
  | abort q =>
      obtain ⟨_, _, rfl⟩ := step_abort.mp hstep
      refine ⟨_, Table.mem_rollback.mpr ⟨slot, hmem, rfl⟩, Slot.rollback_key _ _, ?_⟩
      rw [Slot.rollback_row]
      exact .refl _

/-- A row that has left `pending` in a state with the invariant is left alone in every later
state. -/
theorem Invariant.settled {t : System} {tr : List (System × Label)} (h : Invariant pg s)
    {slot : Slot String OutboundExtrinsic Holder} (hmem : slot ∈ s.table)
    (hleft : slot.row.status ≠ .pending) (hrun : Transition.Run (Outbox.step pg) s tr t) :
    ∃ slot' ∈ t.table, slot'.key = slot.key ∧ slot.row.Same slot'.row := by
  have hboth : Invariant pg t ∧
      ∃ slot' ∈ t.table, slot'.key = slot.key ∧ slot.row.Same slot'.row := by
    refine hrun.invariant (P := fun u => Invariant pg u ∧
      ∃ slot' ∈ u.table, slot'.key = slot.key ∧ slot.row.Same slot'.row)
      ⟨h, slot, hmem, rfl, .refl _⟩ ?_
    rintro m l u ⟨hinv, mid, hmid, hkey, hsame⟩ hstep
    refine ⟨hinv.step m l u hstep, ?_⟩
    obtain ⟨last, hlast, hkey', hsame'⟩ :=
      hinv.step_row hstep hmid (by rw [hsame.status]; exact hleft)
    exact ⟨last, hlast, hkey'.trans hkey, hsame.trans hsame'⟩
  exact hboth.2

end Steps

/-! ## Row integrity -/

/-- The worker `w` is between fetch and commit on the row `key`. -/
def System.Working (s : System) (w : Nat) (key : String) : Prop :=
  ∃ job, (s.workers w).job = some job ∧ job.correlationId = key

/-- What holds of the outbox rows in a state, and of what becomes of them. -/
structure Integrity (pg : Jsonb) (s : System) : Prop where
  unique : s.table.keys.Nodup
  exclusive : ∀ w w' key, s.Working w key → s.Working w' key → w = w'
  hashed : ∀ slot ∈ s.table, slot.row.txHash.isSome = true ↔ slot.row.status = .finalized
  settled : ∀ slot ∈ s.table, slot.row.status ≠ .pending →
    ∀ tr t, Transition.Run (step pg) s tr t →
      ∃ slot' ∈ t.table, slot'.key = slot.key ∧ slot'.row.status ≠ .pending ∧
        slot'.row.pallet = slot.row.pallet ∧ slot'.row.call = slot.row.call ∧
        slot'.row.payload = slot.row.payload
  submitted : ∀ slot ∈ s.table, slot.row.status = .finalized →
    ∃ a hash, committedOf s.attempts slot.key = [a] ∧ a.outcome = .finalized hash ∧
      slot.row.txHash = some hash ∧ a.job.payload = slot.row.payload

/-- **Outbox rows keep their integrity in every reachable state**, whatever the workers, the
replay worker, the patches and the backfill do and in whatever order. -/
theorem outbox_integrity (pg : Jsonb) (tr : List (System × Label)) (s : System)
    (hrun : Runs pg tr s) : Integrity pg s := by
  have h := Runs.invariant hrun
  refine ⟨h.keys, ?_, fun slot hmem => (h.slots slot hmem).history.hashed, ?_, ?_⟩
  · rintro w w' key ⟨job, hw, rfl⟩ ⟨job', hw', hkey⟩
    obtain ⟨slot, hmem, hlock, _⟩ := h.holds w job hw
    have hslot := (h.held hw hmem).mp ⟨_, hlock⟩
    obtain ⟨v, hlock'⟩ := (h.held hw' hmem).mpr (hslot.trans hkey.symm)
    rw [hlock] at hlock'
    exact (by simpa using hlock' : w = w' ∧ _).1
  · intro slot hmem hleft tr' t hrun'
    obtain ⟨slot', hmem', hkey, hsame⟩ := h.settled hmem hleft hrun'
    exact ⟨slot', hmem', hkey, by rw [hsame.status]; exact hleft, hsame.pallet, hsame.call,
      hsame.payload hleft⟩
  · intro slot hmem hfin
    have hhist := (h.slots slot hmem).history
    generalize committedOf s.attempts slot.key = as at hhist
    cases hhist with
    | untried hs _ _ => simp [hfin] at hs
    | finalized ho _ ht _ hj => exact ⟨_, _, rfl, ho, ht, by rw [hj]; rfl⟩
    | failed _ _ hs _ _ _ => simp [hfin] at hs

/-- Five units to an account. -/
def transferPayload : Option String :=
  some "\x7b\"address\":\"5GrwvaEF5zXb26Fz9rcQpDWS57CtERHpNehXCPcNoHGKutQY\",\"amount\":5\x7d"

/-- One transfer, enqueued, submitted and finalized. -/
def oneTransfer : List Label :=
  [.enqueue "c1" "Balances" "transfer_allow_death" transferPayload 0, .fetch 0, .take 0 (0, "c1"),
    .submit 0 (.finalized "0xaa"), .settle 0 9]

/-- The finalized transfer has its integrity. -/
theorem oneTransfer_integrity :
    ∃ tr s, Runs (.onValues []) tr s ∧ s.table.any (fun slot => slot.row.txHash = some "0xaa") ∧
      Integrity (.onValues []) s := by
  have hexec : (Transition.exec (step (.onValues [])) System.init oneTransfer).any
      (fun s => s.table.any fun slot => slot.row.txHash = some "0xaa") = true := by decide
  obtain ⟨tr, s, hrun, hhash⟩ := Transition.Run.reach_of_exec hexec
  exact ⟨tr, s, hrun, hhash, outbox_integrity (.onValues []) tr s hrun⟩

end Ainur.Outbox
