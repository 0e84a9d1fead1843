import Ainur.Chain.Payload
import Ainur.Lib.Paging
import Ainur.Outbox.Metrics

set_option autoImplicit false

/-! # Listing the outbox

`list_outbox` answers with a page of the rows, the latest first, and `get_sync_status` counts them.
A client that follows the pages while the workers and the other clients go on sees every row that
was there when it began, and where nothing changes it gets as many rows as are counted.
-/

namespace Ainur.Outbox

/-! ## The endpoint -/

/-- `OutboxQuery`. -/
structure OutboxQuery where
  status : Option String
  limit : Option Int
  offset : Option Int
  deriving DecidableEq, Repr

/-- The statuses that the filter knows. -/
def statusOfName : String → Option OutboxStatus
  | "pending" => some .pending
  | "failed" => some .failed
  | "finalized" => some .finalized
  | "dead" => some .dead
  | _ => none

namespace OutboxQuery

/-- `status_filter`: in any case, and none for a status that there is not. -/
def statusFilter (q : OutboxQuery) : Option OutboxStatus :=
  q.status.bind fun s => statusOfName (toLowercase s)

/-- `limit.unwrap_or(50).clamp(1, 200)`. -/
def pageLimit (q : OutboxQuery) : Nat := (max 1 (min 200 (q.limit.getD 50))).toNat

/-- `offset.unwrap_or(0).max(0)`. -/
def pageOffset (q : OutboxQuery) : Nat := (max 0 (q.offset.getD 0)).toNat

theorem pageLimit_pos (q : OutboxQuery) : 0 < q.pageLimit := by
  unfold pageLimit
  omega

end OutboxQuery

/-- `OutboxStatusView`. -/
structure OutboxStatusView where
  correlationId : String
  pallet : String
  call : String
  status : OutboxStatus
  retryCount : Nat
  lastError : Option String
  createdAt : Nat
  processedAt : Option Nat
  deriving DecidableEq, Repr

def OutboxStatusView.ofRow (row : OutboundExtrinsic) : OutboxStatusView where
  correlationId := row.correlationId
  pallet := row.pallet
  call := row.call
  status := row.status
  retryCount := row.retryCount
  lastError := row.lastError
  createdAt := row.createdAt
  processedAt := row.processedAt

/-- `$1 IS NULL OR status = $1`. -/
def matching (filter : Option OutboxStatus) (row : OutboundExtrinsic) : Bool :=
  filter.all fun status => row.status = status

/-- The rows that match, `ORDER BY created_at DESC`. Nothing orders the rows of one `created_at`: they
come as the query reads the table, and `scan` is the table in the order in which it does. -/
def listing (filter : Option OutboxStatus) (scan : List OutboundExtrinsic) :
    List OutboundExtrinsic :=
  (scan.filter (matching filter)).mergeSort fun a b => b.createdAt ≤ a.createdAt

/-- `list_outbox`, on the table as its query reads it. -/
def listOutbox (scan : List OutboundExtrinsic) (q : OutboxQuery) : List OutboxStatusView :=
  (Paging.page (listing q.statusFilter scan) q.pageLimit q.pageOffset).map .ofRow

section Listing

variable {filter : Option OutboxStatus} {scan scan' rows : List OutboundExtrinsic}

theorem listing_perm (filter : Option OutboxStatus) (h : scan.Perm rows) :
    (listing filter scan).Perm (rows.filter (matching filter)) :=
  (List.mergeSort_perm _ _).trans (h.filter _)

theorem listing_sorted (filter : Option OutboxStatus) (scan : List OutboundExtrinsic) :
    (listing filter scan).Pairwise fun a b => b.createdAt ≤ a.createdAt := by
  have hsort := @List.pairwise_mergeSort _ (fun a b => decide (b.createdAt ≤ a.createdAt))
    (fun a b c hab hbc => by simp at hab hbc ⊢; omega) (fun a b => by simp; omega)
    (scan.filter (matching filter))
  exact hsort.imp fun hle => of_decide_eq_true hle

/-- Where no two rows have one time, every scan is listed in the same way. -/
theorem listing_eq (h : scan.Perm rows) {l : List OutboundExtrinsic}
    (hl : l.Perm (rows.filter (matching filter)))
    (hsorted : l.Pairwise fun a b => b.createdAt < a.createdAt) : listing filter scan = l := by
  have hperm := (listing_perm filter h).trans hl.symm
  have hinj : ∀ a ∈ l, ∀ b ∈ l, a.createdAt = b.createdAt → a = b := by
    have htimes : (l.map (·.createdAt)).Nodup :=
      List.pairwise_map.mpr (hsorted.imp fun hlt => (Nat.ne_of_lt hlt).symm)
    exact fun a ha b hb => List.inj_on_of_nodup_map htimes ha hb
  refine List.Perm.eq_of_pairwise ?_ (listing_sorted filter scan)
    (hsorted.imp fun hlt => Nat.le_of_lt hlt) hperm
  intro a b ha hb hab hba
  exact hinj a (hperm.mem_iff.mp ha) b hb (Nat.le_antisymm hba hab)

/-- One listing for all scans. -/
theorem listing_scan (htimes : ((rows.filter (matching filter)).map (·.createdAt)).Nodup)
    (h : scan.Perm rows) (h' : scan'.Perm rows) : listing filter scan = listing filter scan' := by
  have hperm := listing_perm filter h'
  have hdistinct : (listing filter scan').Pairwise fun a b => a.createdAt ≠ b.createdAt :=
    List.pairwise_map.mp ((hperm.map OutboundExtrinsic.createdAt).nodup_iff.mpr htimes)
  refine listing_eq h hperm ?_
  exact ((listing_sorted filter scan').and hdistinct).imp fun ⟨hle, hne⟩ =>
    Nat.lt_of_le_of_ne hle (Ne.symm hne)

end Listing

/-! ## A client that follows the pages -/

section Client

variable (status : Option String) (limit : Nat → Option Int)
variable (scans : Nat → List OutboundExtrinsic)

/-- The offset that the client asks for next: all that it has got. -/
def nextOffset : Nat → Nat
  | 0 => 0
  | i + 1 => nextOffset i + (listOutbox (scans i) ⟨status, limit i, some (nextOffset i)⟩).length

/-- The answer to request `i`, on the table as its query reads it then. -/
def answer (i : Nat) : List OutboxStatusView :=
  listOutbox (scans i) ⟨status, limit i, some (nextOffset status limit scans i)⟩

/-- The filter of every request. -/
def filterOf (status : Option String) : Option OutboxStatus :=
  status.bind fun s => statusOfName (toLowercase s)

/-- The correlation ids that the client reads. -/
def ids : Paging.Reading String where
  source i := (listing (filterOf status) (scans i)).map (·.correlationId)
  limit i := OutboxQuery.pageLimit ⟨status, limit i, none⟩

theorem answer_ids_at (i : Nat)
    (hoffset : nextOffset status limit scans i = (ids status limit scans).offset i) :
    (answer status limit scans i).map (·.correlationId) =
      (ids status limit scans).pageAt i := by
  have hpage : (max 0 ((some ((ids status limit scans).offset i : Int)).getD 0)).toNat =
      (ids status limit scans).offset i := by
    show (max 0 (((ids status limit scans).offset i : Nat) : Int)).toNat = _
    omega
  rw [answer, hoffset, listOutbox, OutboxQuery.pageOffset, hpage, List.map_map,
    Paging.Reading.pageAt, Paging.page, Paging.page, List.map_take, List.map_drop]
  rfl

theorem nextOffset_eq (i : Nat) :
    nextOffset status limit scans i = (ids status limit scans).offset i := by
  induction i with
  | zero => rfl
  | succ i ih =>
      have hlength := congrArg List.length (answer_ids_at status limit scans i ih)
      rw [List.length_map] at hlength
      calc nextOffset status limit scans (i + 1)
          = nextOffset status limit scans i + (answer status limit scans i).length := rfl
        _ = (ids status limit scans).offset (i + 1) := by
            rw [ih, hlength, Paging.Reading.offset_succ]

/-- The client reads the ids page by page. -/
theorem answer_ids (i : Nat) :
    (answer status limit scans i).map (·.correlationId) = (ids status limit scans).pageAt i :=
  answer_ids_at status limit scans i (nextOffset_eq status limit scans i)

/-- All that the client reads up to page `n`. -/
theorem answers_ids (n : Nat) :
    ((List.range n).flatMap (answer status limit scans)).map (·.correlationId) =
      (List.range n).flatMap (ids status limit scans).pageAt := by
  rw [List.map_flatMap]
  exact congrArg (List.flatMap · _) (funext (answer_ids status limit scans))

theorem pageAt_of_answer_nil {n : Nat} (h : answer status limit scans n = []) :
    (ids status limit scans).pageAt n = [] := by
  rw [← answer_ids, h]
  rfl

end Client

/-! ### A table that does not change -/

/-- A status is counted as `get_sync_status` counts it. -/
def SyncCounts.of (c : SyncCounts) : OutboxStatus → Option Nat
  | .pending => some c.outboxPending
  | .failed => some c.outboxFailed
  | .dead => some c.outboxDead
  | .finalized => none

theorem getSyncStatus_of {rows : List OutboundExtrinsic} {status : OutboxStatus} {n : Nat}
    (h : (getSyncStatus rows).of status = some n) :
    n = (rows.filter (matching (some status))).length := by
  have hcount : (rows.filter (matching (some status))).length =
      rows.countP fun row => row.status = status := by
    rw [List.countP_eq_length_filter]
    rfl
  rw [hcount]
  cases status with
  | pending => exact (Option.some.inj h).symm
  | failed => exact (Option.some.inj h).symm
  | dead => exact (Option.some.inj h).symm
  | finalized => cases h

/-- **The pages and the counts agree.** While the outbox does not change, a client that follows the
pages of a status up to the first empty one, with any limits, gets as many rows as `get_sync_status`
counts, in whatever order each query reads the rows of one time; and where no two rows of that status
have one time, it gets each of them once. -/
theorem pages_counted {rows : List OutboundExtrinsic} {name : String} {limit : Nat → Option Int}
    {scans : Nat → List OutboundExtrinsic} {status : OutboxStatus}
    (hname : statusOfName (toLowercase name) = some status) (hscans : ∀ i, (scans i).Perm rows)
    {n : Nat} (hend : answer (some name) limit scans n = []) :
    (∀ count, (getSyncStatus rows).of status = some count →
      ((List.range n).flatMap (answer (some name) limit scans)).length = count) ∧
    (((rows.filter (matching (some status))).map (·.createdAt)).Nodup →
      (((List.range n).flatMap (answer (some name) limit scans)).map (·.correlationId)).Perm
        ((rows.filter (matching (some status))).map (·.correlationId))) := by
  have hsource : ∀ i, (ids (some name) limit scans).source i =
      (listing (some status) (scans i)).map (·.correlationId) := by
    intro i
    rw [← hname]
    rfl
  have hperm : ∀ i, (listing (some status) (scans i)).Perm (rows.filter (matching (some status))) :=
    fun i => listing_perm (some status) (hscans i)
  have hlimit : ∀ i, 0 < (ids (some name) limit scans).limit i :=
    fun _ => OutboxQuery.pageLimit_pos _
  have hpage := pageAt_of_answer_nil _ _ _ hend
  constructor
  · -- the order of a page does not change how many rows it has
    intro count hcount
    have hlength : ∀ i, ((ids (some name) limit scans).source i).length = count := by
      intro i
      rw [hsource, List.length_map, (hperm i).length_eq, getSyncStatus_of hcount]
    calc ((List.range n).flatMap (answer (some name) limit scans)).length
        = (((List.range n).flatMap (answer (some name) limit scans)).map
            (·.correlationId)).length := List.length_map _ |>.symm
      _ = ((List.range n).flatMap (ids (some name) limit scans).pageAt).length := by
          rw [answers_ids]
      _ = count := Paging.Reading.length_flatMap_pages _ hlength hlimit hpage
  · -- one listing for all pages
    intro htimes
    have hsame : ∀ i, (ids (some name) limit scans).source i =
        (listing (some status) (scans 0)).map (·.correlationId) := by
      intro i
      rw [hsource, listing_scan htimes (hscans i) (hscans 0)]
    rw [answers_ids, Paging.Reading.flatMap_pages _ hsame hlimit hpage]
    exact (hperm 0).map _

/-- Two pending rows, and one that has failed. -/
def threeRows : List OutboundExtrinsic :=
  [.insert "c1" "Balances" "transfer_allow_death" transferPayload .pending 0,
    .insert "c2" "Balances" "transfer_allow_death" transferPayload .failed 1,
    .insert "c3" "Balances" "transfer_allow_death" transferPayload .pending 2]

/-- The second query reads the table the other way round. -/
def threeScans (i : Nat) : List OutboundExtrinsic :=
  if i = 1 then threeRows.reverse else threeRows

theorem threeScans_perm (i : Nat) : (threeScans i).Perm threeRows := by
  unfold threeScans
  split
  · exact List.reverse_perm _
  · exact .refl _

/-- Two pages of one row each, and an empty one. -/
theorem threeRows_counted :
    answer (some "Pending") (fun _ => some 1) threeScans 2 = [] ∧
      ((List.range 2).flatMap (answer (some "Pending") (fun _ => some 1) threeScans)).length = 2 ∧
      (((List.range 2).flatMap (answer (some "Pending") (fun _ => some 1) threeScans)).map
        (·.correlationId)).Perm ["c1", "c3"] := by
  have hname : statusOfName (toLowercase "Pending") = some .pending := by decide
  -- the later row comes first, whatever the scan
  have hlist : ∀ i, listing (some .pending) (threeScans i) =
      [.insert "c3" "Balances" "transfer_allow_death" transferPayload .pending 2,
        .insert "c1" "Balances" "transfer_allow_death" transferPayload .pending 0] :=
    fun i => listing_eq (threeScans_perm i) (by decide) (by decide)
  have hend : answer (some "Pending") (fun _ => some 1) threeScans 2 = [] := by
    simp only [answer, nextOffset, listOutbox, OutboxQuery.statusFilter, hname, Option.bind_some,
      hlist]
    decide
  obtain ⟨hcount, hids⟩ := pages_counted hname threeScans_perm hend
  exact ⟨hend, hcount 2 (by decide), hids (by decide)⟩

/-! ### A table that others write -/

/-- A row is enqueued later than all the rows before it. -/
def Clocked (s : System) : Label → Prop
  | .enqueue _ _ _ _ now => ∀ row ∈ s.committed, row.createdAt < now
  | _ => True

instance (s : System) : (l : Label) → Decidable (Clocked s l)
  | .enqueue _ _ _ _ now => inferInstanceAs (Decidable (∀ row ∈ s.committed, row.createdAt < now))
  | .fetch _ => .isTrue trivial
  | .skip _ _ => .isTrue trivial
  | .take _ _ => .isTrue trivial
  | .noJob _ => .isTrue trivial
  | .submit _ _ => .isTrue trivial
  | .settle _ _ => .isTrue trivial
  | .crash _ => .isTrue trivial
  | .execute _ _ => .isTrue trivial
  | .change _ _ => .isTrue trivial
  | .pass _ _ => .isTrue trivial
  | .finish _ => .isTrue trivial
  | .abort _ => .isTrue trivial

/-- What a listing orders by, and what the client tells rows apart by. -/
def stamp (row : OutboundExtrinsic) : String × Nat := (row.correlationId, row.createdAt)

section Stamps

variable {pg : Jsonb} {rows rows' : List OutboundExtrinsic} {s t : System}

/-- A transaction other than an enqueue keeps the rows and their times. -/
theorem stamps_commit {c : Commit} (h : c.step pg rows = some rows')
    (hc : ∀ correlationId pallet call payload now,
      c ≠ .enqueue correlationId pallet call payload now) : rows'.map stamp = rows.map stamp := by
  cases c with
  | enqueue correlationId pallet call payload now => exact absurd rfl (hc _ _ _ _ _)
  | attempt job outcome now =>
      obtain ⟨-, h⟩ := Option.ite_none_right_eq_some.mp h
      obtain ⟨f, hf, rfl⟩ := Option.map_eq_some_iff.mp h
      rw [List.map_map]
      refine List.map_congr_left fun row _ => ?_
      rw [Function.comp_apply]
      by_cases hk : row.correlationId = job.correlationId
      · rw [if_pos hk]
        exact Prod.ext (settlement_correlationId hf row) (settlement_createdAt hf row)
      · rw [if_neg hk]
  | write update keys =>
      obtain ⟨-, h⟩ := Option.ite_none_right_eq_some.mp h
      obtain rfl := Option.some.inj h
      rw [List.map_map]
      refine List.map_congr_left fun row _ => ?_
      have hset : stamp (update.set pg row) = stamp row := by cases update <;> rfl
      by_cases hk : row.correlationId ∈ keys
      · simp [hk, hset]
      · simp [hk]

/-- A step adds rows at the end at most, and later ones. -/
theorem stamps_step {l : Label} (hinv : Invariant pg s) (hchecked : Checked s)
    (hclock : Clocked s l) (hstep : step pg s l = some t) :
    t.committed.map stamp = s.committed.map stamp ∨
      ∃ correlationId now, t.committed.map stamp = s.committed.map stamp ++ [(correlationId, now)] ∧
        ∀ row ∈ s.committed, row.createdAt < now := by
  have hexec := step_commits hinv hchecked hstep
  -- a step commits nothing or one transaction
  have hsame : commits s l = [] → t.committed.map stamp = s.committed.map stamp := by
    intro hnone
    rw [hnone] at hexec
    rw [Option.some.inj hexec]
  have hone : ∀ c, commits s l = [c] → (∀ correlationId pallet call payload now,
      c ≠ .enqueue correlationId pallet call payload now) →
      t.committed.map stamp = s.committed.map stamp := by
    intro c hc hne
    rw [hc] at hexec
    obtain ⟨rows, hrows, hlast⟩ := Option.bind_eq_some_iff.mp hexec
    obtain rfl : rows = t.committed := Option.some.inj hlast
    exact stamps_commit hrows hne
  cases l with
  | enqueue correlationId pallet call payload now =>
      obtain ⟨_, rfl⟩ := step_enqueue.mp hstep
      refine Or.inr ⟨correlationId, now, ?_, hclock⟩
      simp [System.committed, stamp, OutboundExtrinsic.insert]
  | settle w now =>
      refine Or.inl ?_
      obtain ⟨job, outcome, hw, -⟩ := step_settle.mp hstep
      by_cases hf : (settlement now job outcome).isSome = true
      · exact hone (.attempt job outcome now) (by simp [commits, hw, hf]) (by simp)
      · exact hsame (by simp [commits, hw, hf])
  | finish q =>
      refine Or.inl ?_
      obtain ⟨update, hst, -⟩ := step_finish.mp hstep
      exact hone (.write update (s.changedBy q)) (by simp [commits, hst]) (by simp)
  | fetch w => exact Or.inl (hsame rfl)
  | skip w cand => exact Or.inl (hsame rfl)
  | take w cand => exact Or.inl (hsame rfl)
  | noJob w => exact Or.inl (hsame rfl)
  | submit w outcome => exact Or.inl (hsame rfl)
  | crash w => exact Or.inl (hsame rfl)
  | execute q update => exact Or.inl (hsame rfl)
  | change q correlationId => exact Or.inl (hsame rfl)
  | pass q correlationId => exact Or.inl (hsame rfl)
  | abort q => exact Or.inl (hsame rfl)

/-- The rows are in the order of their times. -/
def InTime (s : System) : Prop := (s.committed.map (·.createdAt)).Pairwise (· < ·)

/-- What a clocked run keeps, from a state to every later one. -/
structure Growing (pg : Jsonb) (s t : System) : Prop where
  base : Invariant pg t
  checked : Checked t
  inTime : InTime t
  grown : s.committed.map stamp <+: t.committed.map stamp

theorem inTime_iff : InTime s ↔ ((s.committed.map stamp).map Prod.snd).Pairwise (· < ·) := by
  rw [InTime, List.map_map]
  rfl

theorem Growing.step {m : System} {l : Label} (h : Growing pg s m) (hclock : Clocked m l)
    (hstep : Outbox.step pg m l = some t) : Growing pg s t := by
  have hbase := h.base.step m l t hstep
  have hchecked := h.checked.step h.base hstep
  rcases stamps_step h.base h.checked hclock hstep with hsame | ⟨correlationId, now, hnew, hlater⟩
  · refine ⟨hbase, hchecked, ?_, ?_⟩
    · rw [inTime_iff, hsame, ← inTime_iff]
      exact h.inTime
    · rw [hsame]
      exact h.grown
  · refine ⟨hbase, hchecked, ?_, ?_⟩
    · rw [inTime_iff, hnew, List.map_append, List.pairwise_append]
      refine ⟨inTime_iff.mp h.inTime, List.pairwise_singleton _ _, ?_⟩
      intro a ha b hb
      obtain rfl := List.mem_singleton.mp hb
      obtain ⟨_, hmem, rfl⟩ := List.mem_map.mp ha
      obtain ⟨row, hrow, rfl⟩ := List.mem_map.mp hmem
      exact hlater row hrow
    · rw [hnew]
      exact h.grown.trans (List.prefix_append _ _)

theorem Growing.run {tr : List (System × Label)} {r : System} (h : Growing pg r s)
    (hrun : Transition.Run (Outbox.step pg) s tr t) (hclock : Transition.EachStep Clocked tr) :
    Growing pg r t := by
  induction hrun with
  | nil => exact h
  | snoc _ hs ih =>
      obtain ⟨hc, hrest⟩ := Transition.eachStep_cons.mp hclock
      exact (ih hrest).step hc hs

theorem Growing.refl (hbase : Invariant pg s) (hchecked : Checked s) (htime : InTime s) :
    Growing pg s s :=
  ⟨hbase, hchecked, htime, List.prefix_rfl⟩

/-- Rows in the order of their times are listed the other way round. -/
theorem listing_inTime (h : InTime s) {scan : List OutboundExtrinsic}
    (hscan : scan.Perm s.committed) : listing none scan = s.committed.reverse := by
  have hall : s.committed.filter (matching none) = s.committed :=
    List.filter_eq_self.mpr fun _ _ => rfl
  refine listing_eq hscan ?_ (List.pairwise_reverse.mpr (List.pairwise_map.mp h))
  rw [hall]
  exact List.reverse_perm _

/-- What has grown at its end is listed with the new rows in front. -/
theorem Growing.listed {r : System} (h : Growing pg r s) (htime : InTime r)
    {scan scan' : List OutboundExtrinsic} (hscan : scan.Perm r.committed)
    (hscan' : scan'.Perm s.committed) :
    (listing none scan).map (·.correlationId) <:+ (listing none scan').map (·.correlationId) := by
  have hids : ∀ m : System, m.committed.map (·.correlationId) =
      (m.committed.map stamp).map Prod.fst := fun m => by
    rw [List.map_map]
    rfl
  rw [listing_inTime htime hscan, listing_inTime h.inTime hscan', List.map_reverse, List.map_reverse,
    List.reverse_suffix, hids r, hids s]
  exact h.grown.map Prod.fst

end Stamps

/-- **No page misses a row.** Whatever the workers, the patches and other clients do between two
requests, and in whatever order the queries read the table, a client that follows the pages of the
whole outbox up to the first empty one sees every row that was there at its first request, where rows
are enqueued in the order of their times. -/
theorem pages_see_all {pg : Jsonb} {s : Nat → System} {limit : Nat → Option Int}
    {scans : Nat → List OutboundExtrinsic}
    (hstart : ∃ tr, Runs pg tr (s 0) ∧ Transition.EachStep Clocked tr)
    (hnext : ∀ i, ∃ tr, Transition.Run (step pg) (s i) tr (s (i + 1)) ∧
      Transition.EachStep Clocked tr)
    (hscans : ∀ i, (scans i).Perm (s i).committed) {n : Nat}
    (hend : answer none limit scans n = []) {row : OutboundExtrinsic}
    (hrow : row ∈ (s 0).committed) :
    ∃ i < n, ∃ view ∈ answer none limit scans i, view.correlationId = row.correlationId := by
  have hself : ∀ i, Growing pg (s i) (s i) := by
    intro i
    induction i with
    | zero =>
        obtain ⟨tr, hrun, hclock⟩ := hstart
        have hinit : Growing pg System.init System.init :=
          .refl Invariant.init Checked.init List.Pairwise.nil
        have hfirst := hinit.run hrun hclock
        exact .refl hfirst.base hfirst.checked hfirst.inTime
    | succ i ih =>
        obtain ⟨tr, hrun, hclock⟩ := hnext i
        have hlater := ih.run hrun hclock
        exact .refl hlater.base hlater.checked hlater.inTime
  have hgrown : ∀ i, Growing pg (s i) (s (i + 1)) := by
    intro i
    obtain ⟨tr, hrun, hclock⟩ := hnext i
    exact (hself i).run hrun hclock
  have hid : row.correlationId ∈ (listing none (scans 0)).map (·.correlationId) := by
    rw [listing_inTime (hself 0).inTime (hscans 0)]
    exact List.mem_map.mpr ⟨row, List.mem_reverse.mpr hrow, rfl⟩
  obtain ⟨i, hi, hseen⟩ := Paging.Reading.seen_of_suffix (ids none limit scans)
    (fun i => (hgrown i).listed (hself i).inTime (hscans i) (hscans (i + 1)))
    (fun i => OutboxQuery.pageLimit_pos _) (pageAt_of_answer_nil _ _ _ hend) hid
  rw [← answer_ids] at hseen
  obtain ⟨view, hview, hsame⟩ := List.mem_map.mp hseen
  exact ⟨i, hi, view, hview, hsame⟩

/-- Two rows are enqueued. -/
def twoRows : List Label :=
  [.enqueue "c1" "Balances" "transfer_allow_death" transferPayload 0,
    .enqueue "c2" "Balances" "transfer_allow_death" transferPayload 1]

/-- A third row is enqueued, and the first one is attempted. -/
def betweenPages : List Label :=
  [.enqueue "c3" "Balances" "transfer_allow_death" transferPayload 2, .fetch 0, .take 0 (0, "c1"),
    .submit 0 (.finalized "0xaa"), .settle 0 3]

/-- The rows at the first page. -/
def rowsBefore : List OutboundExtrinsic :=
  [.insert "c1" "Balances" "transfer_allow_death" transferPayload .pending 0,
    .insert "c2" "Balances" "transfer_allow_death" transferPayload .pending 1]

/-- The rows at the pages after it. -/
def rowsAfter : List OutboundExtrinsic :=
  [.finalize "0xaa" 3 (.insert "c1" "Balances" "transfer_allow_death" transferPayload .pending 0),
    .insert "c2" "Balances" "transfer_allow_death" transferPayload .pending 1,
    .insert "c3" "Balances" "transfer_allow_death" transferPayload .pending 2]

/-- The row that is finalized between the pages of one row each is on the third of them: the new
row has moved it there. -/
theorem betweenPages_seen :
    ∃ s : Nat → System, (s 0).committed = rowsBefore ∧ (s 1).committed = rowsAfter ∧
      answer none (fun _ => some 1) (fun i => (s i).committed.reverse) 3 = [] ∧
      ∃ i < 3, ∃ view ∈ answer none (fun _ => some 1) (fun i => (s i).committed.reverse) i,
        view.correlationId = "c1" := by
  have hexec : (Transition.exec (Transition.guarded (step (.onValues [])) Clocked) System.init
      twoRows).any (fun s₀ => s₀.committed = rowsBefore &&
        (Transition.exec (Transition.guarded (step (.onValues [])) Clocked) s₀ betweenPages).any
          fun s₁ => s₁.committed = rowsAfter) = true := by decide
  obtain ⟨tr₀, s₀, hrun₀, hnext⟩ := Transition.Run.reach_of_exec hexec
  obtain ⟨hbefore, hnext⟩ := Bool.and_eq_true_iff.mp hnext
  obtain ⟨tr₁, s₁, hrun₁, hafter⟩ := Transition.Run.reach_of_exec hnext
  have hbefore := of_decide_eq_true hbefore
  have hafter := of_decide_eq_true hafter
  obtain ⟨s, h0, hlater⟩ : ∃ s : Nat → System, s 0 = s₀ ∧ ∀ i, s (i + 1) = s₁ :=
    ⟨fun i => if i = 0 then s₀ else s₁, rfl, fun i => if_neg (Nat.succ_ne_zero i)⟩
  have hsteps : ∀ i, ∃ tr, Transition.Run (step (.onValues [])) (s i) tr (s (i + 1)) ∧
      Transition.EachStep Clocked tr := by
    intro i
    cases i with
    | zero =>
        rw [h0, hlater]
        exact ⟨tr₁, hrun₁.of_guarded⟩
    | succ i =>
        rw [hlater, hlater]
        exact ⟨[], .nil, Transition.eachStep_nil _⟩
  -- the two listings
  have hlist₀ : listing none (s 0).committed.reverse = rowsBefore.reverse := by
    have hrows : (s 0).committed = rowsBefore := by rw [h0, hbefore]
    have htime : InTime (s 0) := by
      rw [InTime, hrows]
      decide
    rw [listing_inTime htime (List.reverse_perm _), hrows]
  have hlist : ∀ i, listing none (s (i + 1)).committed.reverse = rowsAfter.reverse := by
    intro i
    have hrows : (s (i + 1)).committed = rowsAfter := by rw [hlater, hafter]
    have htime : InTime (s (i + 1)) := by
      rw [InTime, hrows]
      decide
    rw [listing_inTime htime (List.reverse_perm _), hrows]
  have hend : answer none (fun _ => some 1) (fun i => (s i).committed.reverse) 3 = [] := by
    simp only [answer, nextOffset, listOutbox, OutboxQuery.statusFilter, Option.bind_none, hlist₀,
      hlist]
    decide
  have hfirst : OutboundExtrinsic.insert "c1" "Balances" "transfer_allow_death" transferPayload
      .pending 0 ∈ (s 0).committed := by
    rw [h0, hbefore]
    exact List.mem_cons_self
  exact ⟨s, by rw [h0, hbefore], by rw [hlater, hafter], hend,
    pages_see_all ⟨tr₀, by rw [h0]; exact hrun₀.of_guarded⟩ hsteps
      (fun i => List.reverse_perm _) hend hfirst⟩

end Ainur.Outbox
