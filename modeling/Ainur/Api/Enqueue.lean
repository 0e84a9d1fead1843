import Ainur.Api.Handlers

set_option autoImplicit false

/-! # What a correlation id stands for

The six handlers that enqueue an extrinsic, each as a preparation and an enqueue, and what the
sink behind them holds after the enqueue. With the Postgres sink the row is there exactly when the
response carries its id. The in-memory sink keeps no rows at all.
-/

namespace Ainur

open Faulty
open Faulty.Request (Keeps Returns)
open Fallible (bind_eq_ok)

/-! ## The sink of a store -/

/-- Which sink the store has and what it holds. -/
def sink : Store → Bool × List OutboundExtrinsic
  | .memory _ => (false, [])
  | .postgres _ p => (true, p.outbox)

theorem outbox_eq_sink (s : Store) : s.outbox = (sink s).2 := by
  cases s <;> rfl

section Keep

variable {lib : Libraries} {draws : Draws}

theorem keeps_registerAgent (agent : AgentRegistrationRequest) :
    Keeps sink (Request.call (Store.registerAgent agent)) := by
  refine Request.keeps_call fun s u s' h => ?_
  cases s with
  | memory m =>
      obtain rfl : _ = s' := congrArg Prod.snd (Except.ok.inj h)
      rfl
  | postgres db p =>
      obtain ⟨q, hop, rfl⟩ := postgres_map_eq_ok h
      simp only [sink, (PostgresStorage.registerAgent_frame hop).2]

theorem keeps_insertTask (task : StoredTask) :
    Keeps sink (Request.call (Store.insertTask lib task)) := by
  refine Request.keeps_call fun s u s' h => ?_
  cases s with
  | memory m =>
      obtain rfl : _ = s' := congrArg Prod.snd (Except.ok.inj h)
      rfl
  | postgres db p =>
      obtain ⟨q, hop, rfl⟩ := postgres_map_eq_ok h
      simp only [sink, (PostgresStorage.insertTask_frame hop).2]

theorem keeps_upsertTask (task : StoredTask) :
    Keeps sink (Request.call (Store.upsertTask lib task)) := by
  refine Request.keeps_call fun s u s' h => ?_
  cases s with
  | memory m =>
      obtain rfl : _ = s' := congrArg Prod.snd (Except.ok.inj h)
      rfl
  | postgres db p =>
      obtain ⟨q, hop, rfl⟩ := postgres_map_eq_ok h
      simp only [sink, (PostgresStorage.upsertTask_frame hop).2]

theorem keeps_insertBid (bid : StoredBid) :
    Keeps sink (Request.call (Store.insertBid lib bid)) := by
  refine Request.keeps_call fun s u s' h => ?_
  cases s with
  | memory m =>
      obtain rfl : _ = s' := congrArg Prod.snd (Except.ok.inj h)
      rfl
  | postgres db p =>
      obtain ⟨q, hop, rfl⟩ := postgres_map_eq_ok h
      simp only [sink, (PostgresStorage.insertBid_frame hop).2.2]

theorem keeps_insertResult (result : StoredResult) :
    Keeps sink (Request.call (Store.insertResult lib result)) := by
  refine Request.keeps_call fun s u s' h => ?_
  cases s with
  | memory m =>
      obtain rfl : _ = s' := congrArg Prod.snd (Except.ok.inj h)
      rfl
  | postgres db p =>
      obtain ⟨q, hop, rfl⟩ := postgres_map_eq_ok h
      simp only [sink, (PostgresStorage.insertResult_frame hop).2.2]

end Keep

/-! ## The six handlers -/

section Requests

variable (lib : Libraries) (draws : Draws)

/-- A request to one of the handlers that enqueue. -/
inductive ApiRequest where
  /-- `register_agent`. -/
  | agent (payload : AgentRegistrationRequest)
  /-- `submit_task`. -/
  | task (payload : TaskSubmissionRequest)
  /-- `submit_bid`. -/
  | bid (payload : BidSubmissionRequest)
  /-- `submit_result`. -/
  | result (payload : ResultSubmissionRequest)
  /-- `enqueue_outbox`. -/
  | outbox (req : OutboundExtrinsicRequest)
  /-- `request_faucet`. -/
  | faucet (body : Value)

/-- The correlation id that a response carries. -/
def carried {α : Type} (handler : Handler (ResponseWithCorrelation α)) :
    Handler (Option String) := do
  let response ← handler
  return response.correlationId

/-- The extrinsic of a preparation. -/
def built {α : Type} (prepare : Handler (Outgoing × α)) : Handler Outgoing := do
  let r ← prepare
  return r.1

/-- The handler of a request: the correlation id that its response carries. -/
def ApiRequest.run : ApiRequest → Handler (Option String)
  | .agent payload => carried (registerAgent lib draws payload)
  | .task payload => carried (submitTask lib draws payload)
  | .bid payload => carried (submitBid lib draws payload)
  | .result payload => carried (submitResult lib draws payload)
  | .outbox req => carried (enqueueOutbox lib draws req)
  | .faucet body => carried (requestFaucet lib draws body)

/-- The handler up to its enqueue step: the extrinsic it has built. -/
def ApiRequest.prepare : ApiRequest → Handler Outgoing
  | .agent payload => built (prepareRegisterAgent lib draws payload)
  | .task payload => built (prepareSubmitTask lib draws payload)
  | .bid payload => built (prepareSubmitBid lib draws payload)
  | .result payload => built (prepareSubmitResult lib draws payload)
  | .outbox req => built (prepareEnqueueOutbox lib draws req)
  | .faucet body => built (prepareRequestFaucet lib draws body)

/-- The row of an extrinsic that has just been enqueued. -/
def Outgoing.row (draws : Draws) (out : Outgoing) : OutboundExtrinsic :=
  .insert out.correlationId out.pallet out.call out.payload .pending draws.now.toNat

/-- A returned correlation id is a queued extrinsic: where the response carries the id `c`, the
outbox holds exactly one row of that id, the pending row of the extrinsic that the handler built;
where it carries none, the outbox is as before. -/
def ApiRequest.Queued (fates : Nat → Fate ApiError) (s : Store) (req : ApiRequest) : Prop :=
  (∀ c, (req.run lib draws fates 0 s).1 = .ok (some c) →
    ∃ out n s', req.prepare lib draws fates 0 s = (.ok out, n, s') ∧ out.correlationId = c ∧
      (req.run lib draws fates 0 s).2.2.outbox.filter (fun row => row.correlationId = c)
        = [out.row draws]) ∧
  ((∀ c, (req.run lib draws fates 0 s).1 ≠ .ok (some c)) →
    (req.run lib draws fates 0 s).2.2.outbox = s.outbox)

end Requests

/-! ## The Postgres sink -/

section Postgres

variable {lib : Libraries} {draws : Draws}

/-- The two ways in which an enqueue step with a fresh id can end. -/
def EnqueueStep (draws : Draws) (finish : Outgoing → Handler (Option String)) : Prop :=
  ∀ out fates n db (p : PostgresStorage),
    (∀ row ∈ p.outbox, row.correlationId ≠ out.correlationId) →
    (∃ n', finish out fates n (.postgres db p) = (.ok (some out.correlationId), n',
        .postgres db { p with outbox := p.outbox ++ [out.row draws] })) ∨
      ∃ o n', finish out fates n (.postgres db p) = (o, n', .postgres db p) ∧
        ∀ c, o ≠ .ok (some c)

/-- `record_outbound_extrinsic` with a fresh id inserts the row or fails. -/
theorem recordOutgoing_cases (draws : Draws) (fates : Nat → Fate ApiError) (n : Nat)
    (db : Storage.Database) {p : PostgresStorage} {out : Outgoing}
    (hfresh : ∀ row ∈ p.outbox, row.correlationId ≠ out.correlationId) :
    recordOutgoing draws out fates n (.postgres db p) = (.ok (), n + 1,
        .postgres db { p with outbox := p.outbox ++ [out.row draws] }) ∨
      (∃ e, recordOutgoing draws out fates n (.postgres db p) = (.err e, n + 1, .postgres db p)) ∨
      recordOutgoing draws out fates n (.postgres db p) = (.stopped, n + 1, .postgres db p) := by
  have hany : (p.outbox.any fun r => decide (r.correlationId = out.correlationId)) = false := by
    rw [List.any_eq_false]
    intro row hrow
    simpa using hfresh row hrow
  unfold recordOutgoing Request.call
  cases fates n with
  | fail e => exact Or.inr (Or.inl ⟨e, rfl⟩)
  | stop => exact Or.inr (Or.inr rfl)
  | proceed =>
      simp only [Store.recordOutboundExtrinsic, PostgresStorage.recordOutboundExtrinsic, hany]
      by_cases hchecks : (out.row draws).checks = true
      · left
        unfold Outgoing.row at hchecks
        simp [hchecks, Except.map, Outgoing.row]
      · right
        left
        unfold Outgoing.row at hchecks
        simp [hchecks, Except.map]

theorem requireEnqueue_step (draws : Draws) : EnqueueStep draws (requireEnqueue draws) := by
  intro out fates n db p hfresh
  unfold requireEnqueue
  rcases recordOutgoing_cases draws fates n db hfresh with h | ⟨e, h⟩ | h
  · exact Or.inl ⟨n + 1, Request.bind_of_ok h⟩
  · exact Or.inr ⟨.err e, n + 1, Request.bind_of_err h, by simp⟩
  · exact Or.inr ⟨.stopped, n + 1, Request.bind_of_stopped h, by simp⟩

theorem reportEnqueue_step (lib : Libraries) (draws : Draws) :
    EnqueueStep draws (reportEnqueue lib draws) := by
  intro out fates n db p hfresh
  unfold reportEnqueue
  cases validateOutboxPayload lib out with
  | error e => exact Or.inr ⟨.ok none, n, rfl, by simp⟩
  | ok _ =>
      rcases recordOutgoing_cases draws fates n db hfresh with h | ⟨e, h⟩ | h
      · exact Or.inl ⟨n + 1, Request.bind_of_ok (Request.attempt_of_ok h)⟩
      · exact Or.inr ⟨.ok none, n + 1, Request.bind_of_ok (Request.attempt_of_err h), by simp⟩
      · exact Or.inr ⟨.stopped, n + 1, Request.bind_of_stopped (Request.attempt_of_stopped h),
          by simp⟩

/-! ### A preparation, and then an enqueue step -/

/-- A handler: it prepares an extrinsic, enqueues it and answers. -/
def respond {α : Type} (prepare : Handler (Outgoing × α))
    (finish : Outgoing → Handler (Option String)) : Handler (ResponseWithCorrelation α) := do
  let (out, data) ← prepare
  let correlation ← finish out
  return ⟨correlation, data⟩

/-- What a preparation is: it leaves the sink alone, and the id of its extrinsic is drawn. -/
structure Prepares {α : Type} (draws : Draws) (prepare : Handler (Outgoing × α)) : Prop where
  keeps : Keeps sink prepare
  drawn : Returns (fun r => ∃ k, r.1.correlationId = draws.uuid k) prepare

/-- Every way in which a handler on Postgres can end, with fresh ids drawn: the row of the
extrinsic that it built is appended and the response carries its id, or the outbox is as it was
and the response carries none. -/
theorem respond_cases {α : Type} {prepare : Handler (Outgoing × α)}
    {finish : Outgoing → Handler (Option String)} (hprepare : Prepares draws prepare)
    (hfinish : EnqueueStep draws finish) (fates : Nat → Fate ApiError) (db : Storage.Database)
    (p : PostgresStorage) (hfresh : ∀ k, ∀ row ∈ p.outbox, row.correlationId ≠ draws.uuid k) :
    (∃ out n s' n' q, built prepare fates 0 (.postgres db p) = (.ok out, n, s') ∧
        (∀ row ∈ p.outbox, row.correlationId ≠ out.correlationId) ∧
        carried (respond prepare finish) fates 0 (.postgres db p)
          = (.ok (some out.correlationId), n', q) ∧
        q.outbox = p.outbox ++ [out.row draws]) ∨
      ∃ o n' q, carried (respond prepare finish) fates 0 (.postgres db p) = (o, n', q) ∧
        (∀ c, o ≠ .ok (some c)) ∧ q.outbox = p.outbox := by
  have hkept := hprepare.keeps fates 0 (.postgres db p)
  unfold carried built
  cases hm : prepare fates 0 (.postgres db p) with
  | mk o rest =>
      obtain ⟨n, s'⟩ := rest
      rw [hm] at hkept
      have houtbox : s'.outbox = p.outbox := by
        rw [outbox_eq_sink, hkept]
        rfl
      cases o with
      | err e =>
          -- the preparation ends the request before there is an extrinsic
          exact Or.inr ⟨_, _, s', Request.bind_of_err (Request.bind_of_err hm), by simp, houtbox⟩
      | panicked =>
          exact Or.inr ⟨_, _, s', Request.bind_of_panicked (Request.bind_of_panicked hm),
            by simp, houtbox⟩
      | stopped =>
          exact Or.inr ⟨_, _, s', Request.bind_of_stopped (Request.bind_of_stopped hm),
            by simp, houtbox⟩
      | ok r =>
          obtain ⟨out, data⟩ := r
          obtain ⟨k, hk⟩ := hprepare.drawn fates 0 _ _ _ _ hm
          -- the id has just been drawn, so the insert meets no conflict
          have hnew : ∀ row ∈ p.outbox, row.correlationId ≠ out.correlationId := by
            rw [hk]
            exact hfresh k
          cases s' with
          | memory m => simp [sink] at hkept
          | postgres db' p' =>
              have hp : p'.outbox = p.outbox := houtbox
              have hresp : respond prepare finish fates 0 (.postgres db p)
                  = (do
                      let correlation ← finish out
                      return ⟨correlation, data⟩ : Handler (ResponseWithCorrelation α))
                      fates n (.postgres db' p') := Request.bind_of_ok hm
              rcases hfinish out fates n db' p' (hp ▸ hnew) with ⟨n', h⟩ | ⟨o, n', h, hnone⟩
              · refine Or.inl ⟨out, n, _, n', _, Request.bind_of_ok hm, hnew,
                  Request.bind_of_ok (hresp.trans (Request.bind_of_ok h)), ?_⟩
                simp [Store.outbox, hp]
              · right
                cases o with
                | ok c =>
                    exact ⟨_, _, _, Request.bind_of_ok (hresp.trans (Request.bind_of_ok h)), by
                      simpa using hnone, houtbox⟩
                | err e =>
                    exact ⟨_, _, _, Request.bind_of_err (hresp.trans (Request.bind_of_err h)),
                      by simp, houtbox⟩
                | panicked =>
                    exact ⟨_, _, _, Request.bind_of_panicked (hresp.trans (Request.bind_of_panicked h)),
                      by simp,
                      houtbox⟩
                | stopped =>
                    exact ⟨_, _, _, Request.bind_of_stopped (hresp.trans (Request.bind_of_stopped h)),
                      by simp,
                      houtbox⟩

/-! ### The six preparations -/

theorem prepares_registerAgent (payload : AgentRegistrationRequest) :
    Prepares draws (prepareRegisterAgent lib draws payload) where
  keeps := by
    unfold prepareRegisterAgent
    split
    · exact Request.keeps_throw _
    · split
      · exact Request.keeps_throw _
      · exact Request.keeps_bind (keeps_registerAgent payload) fun _ => Request.keeps_pure _
  drawn := by
    unfold prepareRegisterAgent
    split
    · exact Request.returns_throw _
    · split
      · exact Request.returns_throw _
      · exact Request.returns_bind_of_forall fun _ => Request.returns_pure ⟨0, rfl⟩

theorem prepares_submitTask (payload : TaskSubmissionRequest) :
    Prepares draws (prepareSubmitTask lib draws payload) where
  keeps := Request.keeps_bind (Request.keeps_ofExcept _) fun stored =>
    Request.keeps_bind (keeps_insertTask stored) fun _ =>
      Request.keeps_bind (keeps_createTaskOutgoing stored) fun _ => Request.keeps_pure _
  drawn := by
    refine Request.returns_bind_of_forall fun stored =>
      Request.returns_bind_of_forall fun _ =>
        Request.returns_bind (P := fun out => ∃ k, out.correlationId = draws.uuid k) ?_
          fun out hout => Request.returns_pure hout
    unfold createTaskOutgoing
    simp only
    split
    · exact Request.returns_panic
    · exact Request.returns_pure ⟨1, rfl⟩

theorem prepares_submitBid (payload : BidSubmissionRequest) :
    Prepares draws (prepareSubmitBid lib draws payload) where
  keeps := Request.keeps_bind (keeps_read fun s => s.task lib payload.taskId) fun _ =>
    Request.keeps_bind (Request.keeps_ofExcept _) fun stored =>
      Request.keeps_bind (keeps_insertBid stored) fun _ =>
        Request.keeps_bind (keeps_submitBidOutgoing _) fun _ => Request.keeps_pure _
  drawn := Request.returns_bind_of_forall fun _ => Request.returns_bind_of_forall fun _ =>
    Request.returns_bind_of_forall fun _ =>
      Request.returns_bind (Request.returns_bind_of_forall fun _ =>
        Request.returns_bind_of_forall fun _ => Request.returns_pure ⟨1, rfl⟩)
        fun _ hout => Request.returns_pure hout

theorem prepares_submitResult (payload : ResultSubmissionRequest) :
    Prepares draws (prepareSubmitResult lib draws payload) where
  keeps := Request.keeps_bind (keeps_read fun s => s.task lib payload.taskId) fun _ =>
    Request.keeps_bind (Request.keeps_ofExcept _) fun stored =>
      Request.keeps_bind (Request.keeps_bind (keeps_upsertTask _) fun _ =>
        keeps_insertResult stored) fun _ =>
        Request.keeps_bind (keeps_submitResultOutgoing _) fun _ => Request.keeps_pure _
  drawn := Request.returns_bind_of_forall fun _ => Request.returns_bind_of_forall fun _ =>
    Request.returns_bind_of_forall fun _ =>
      Request.returns_bind (Request.returns_bind_of_forall fun _ =>
        Request.returns_bind_of_forall fun _ => Request.returns_pure ⟨1, rfl⟩)
        fun _ hout => Request.returns_pure hout

theorem prepares_enqueueOutbox (req : OutboundExtrinsicRequest) :
    Prepares draws (prepareEnqueueOutbox lib draws req) where
  keeps := by
    unfold prepareEnqueueOutbox
    simp only
    split
    · exact Request.keeps_throw _
    · exact Request.keeps_bind (Request.keeps_ofExcept _) fun _ => Request.keeps_pure _
  drawn := by
    unfold prepareEnqueueOutbox
    simp only
    split
    · exact Request.returns_throw _
    · exact Request.returns_bind_of_forall fun _ => Request.returns_pure ⟨0, rfl⟩

theorem prepares_requestFaucet (body : Value) :
    Prepares draws (prepareRequestFaucet lib draws body) where
  keeps := Request.keeps_bind (Request.keeps_ofExcept _) fun _ =>
    Request.keeps_bind (Request.keeps_ofExcept _) fun _ => Request.keeps_pure _
  drawn := Request.returns_bind_of_forall fun _ =>
    Request.returns_bind_of_forall fun _ => Request.returns_pure ⟨0, rfl⟩

/-! ### Postgres queues -/

/-- With fresh ids drawn, a handler on Postgres queues what its response says it queues. -/
theorem queued_of_respond {α : Type} {prepare : Handler (Outgoing × α)}
    {finish : Outgoing → Handler (Option String)} (hprepare : Prepares draws prepare)
    (hfinish : EnqueueStep draws finish) {fates : Nat → Fate ApiError} {db : Storage.Database}
    {p : PostgresStorage} (hfresh : ∀ k, ∀ row ∈ p.outbox, row.correlationId ≠ draws.uuid k)
    {req : ApiRequest} (hrun : req.run lib draws = carried (respond prepare finish))
    (hbuilt : req.prepare lib draws = built prepare) :
    req.Queued lib draws fates (.postgres db p) := by
  unfold ApiRequest.Queued
  rw [hrun, hbuilt]
  rcases respond_cases hprepare hfinish fates db p hfresh with
    ⟨out, n, s', n', q, hprep, hnew, hresp, houtbox⟩ | ⟨o, n', q, hresp, hnone, houtbox⟩
  · rw [hresp]
    refine ⟨fun c hc => ?_, fun hno => absurd rfl (hno out.correlationId)⟩
    obtain rfl : out.correlationId = c := Option.some.inj (Outcome.ok.inj hc)
    refine ⟨out, n, s', hprep, rfl, ?_⟩
    have hold : p.outbox.filter (fun row => row.correlationId = out.correlationId) = [] := by
      rw [List.filter_eq_nil_iff]
      intro row hrow
      simpa using hnew row hrow
    show q.outbox.filter _ = _
    rw [houtbox, List.filter_append, hold]
    simp [Outgoing.row, OutboundExtrinsic.insert]
  · rw [hresp]
    exact ⟨fun c hc => absurd hc (hnone c), fun _ => houtbox⟩

end Postgres

/-! ## The in-memory sink -/

section Memory

variable {lib : Libraries} {draws : Draws}

theorem keepsMemory_recordOutgoing (out : Outgoing) : Keeps inMemory (recordOutgoing draws out) := by
  refine Request.keeps_call fun s u s' h => ?_
  cases s with
  | memory m =>
      obtain rfl : _ = s' := congrArg Prod.snd (Except.ok.inj h)
      rfl
  | postgres db p =>
      obtain ⟨q, -, rfl⟩ := postgres_map_eq_ok h
      rfl

theorem keepsMemory_requireEnqueue (out : Outgoing) :
    Keeps inMemory (requireEnqueue draws out) :=
  Request.keeps_bind (keepsMemory_recordOutgoing out) fun _ => Request.keeps_pure _

theorem keepsMemory_reportEnqueue (out : Outgoing) :
    Keeps inMemory (reportEnqueue lib draws out) := by
  unfold reportEnqueue
  split
  · exact Request.keeps_pure _
  · refine Request.keeps_bind (Request.keeps_attempt (keepsMemory_recordOutgoing out)) fun r => ?_
    cases r with
    | error e => exact Request.keeps_pure _
    | ok u => exact Request.keeps_pure _

/-- The in-memory storage after the handler is that before its enqueue step: nothing is queued. -/
def ApiRequest.Unqueued (lib : Libraries) (draws : Draws) (fates : Nat → Fate ApiError)
    (s : Store) (req : ApiRequest) : Prop :=
  ∃ m, (req.prepare lib draws fates 0 s).2.2 = .memory m ∧
    (req.run lib draws fates 0 s).2.2 = .memory m

theorem unqueued_of_respond {α : Type} {prepare : Handler (Outgoing × α)}
    {finish : Outgoing → Handler (Option String)} (hprepare : Prepares draws prepare)
    (hfinish : ∀ out, Keeps inMemory (finish out)) {fates : Nat → Fate ApiError}
    {m : InMemoryStorage} {req : ApiRequest}
    (hrun : req.run lib draws = carried (respond prepare finish))
    (hbuilt : req.prepare lib draws = built prepare) :
    req.Unqueued lib draws fates (.memory m) := by
  have hprep : inMemory (built prepare fates 0 (.memory m)).2.2
      = inMemory (prepare fates 0 (.memory m)).2.2 :=
    Request.bind_keeps (fun _ => Request.keeps_pure _) fates 0 (Store.memory m)
  have hresp : inMemory (carried (respond prepare finish) fates 0 (.memory m)).2.2
      = inMemory (prepare fates 0 (.memory m)).2.2 :=
    (Request.bind_keeps (fun _ => Request.keeps_pure _) fates 0 (Store.memory m)).trans
      (Request.bind_keeps (fun r => Request.keeps_bind (hfinish _) fun _ =>
        Request.keeps_pure _) fates 0 (Store.memory m))
  have hkept := hprepare.keeps fates 0 (.memory m)
  unfold ApiRequest.Unqueued
  rw [hrun, hbuilt]
  cases hs : (prepare fates 0 (.memory m)).2.2 with
  | memory m' =>
      rw [hs] at hprep hresp
      exact ⟨m', inMemory_eq_some.mp hprep, inMemory_eq_some.mp hresp⟩
  | postgres db p => simp [hs, sink] at hkept

end Memory

/-! ## Both sinks -/

/-- Every handler is a preparation and an enqueue step after it. -/
theorem ApiRequest.shape (lib : Libraries) (draws : Draws) (req : ApiRequest) :
    ∃ (α : Type) (prepare : Handler (Outgoing × α)) (finish : Outgoing → Handler (Option String)),
      Prepares draws prepare ∧ EnqueueStep draws finish ∧
        (∀ out, Keeps inMemory (finish out)) ∧
        req.run lib draws = carried (respond prepare finish) ∧
        req.prepare lib draws = built prepare := by
  cases req with
  | agent payload =>
      exact ⟨_, _, _, prepares_registerAgent payload, reportEnqueue_step lib draws,
        keepsMemory_reportEnqueue, rfl, rfl⟩
  | task payload =>
      exact ⟨_, _, _, prepares_submitTask payload, reportEnqueue_step lib draws,
        keepsMemory_reportEnqueue, rfl, rfl⟩
  | bid payload =>
      exact ⟨_, _, _, prepares_submitBid payload, reportEnqueue_step lib draws,
        keepsMemory_reportEnqueue, rfl, rfl⟩
  | result payload =>
      exact ⟨_, _, _, prepares_submitResult payload, reportEnqueue_step lib draws,
        keepsMemory_reportEnqueue, rfl, rfl⟩
  | outbox req =>
      exact ⟨_, _, _, prepares_enqueueOutbox req, requireEnqueue_step draws,
        keepsMemory_requireEnqueue, rfl, rfl⟩
  | faucet body =>
      exact ⟨_, _, _, prepares_requestFaucet body, requireEnqueue_step draws,
        keepsMemory_requireEnqueue, rfl, rfl⟩

/-- **With Postgres behind the API, a response carries a correlation id exactly of the row that
the handler has queued. With the in-memory storage, which keeps no outbox, no handler queues
anything, whatever id its response carries.** -/
theorem queued_or_inMemory (lib : Libraries) (draws : Draws) (fates : Nat → Fate ApiError)
    (s : Store) (req : ApiRequest)
    (hfresh : ∀ k, ∀ row ∈ s.outbox, row.correlationId ≠ draws.uuid k) :
    match s with
    | .postgres _ _ => req.Queued lib draws fates s
    | .memory _ => req.Unqueued lib draws fates s := by
  obtain ⟨α, prepare, finish, hprepare, hstep, hmemory, hrun, hbuilt⟩ := req.shape lib draws
  cases s with
  | postgres db p => exact queued_of_respond hprepare hstep hfresh hrun hbuilt
  | memory m => exact unqueued_of_respond hprepare hmemory hrun hbuilt

/-- The body of a request to the faucet. -/
def faucetBody : Value := faucetPayload "5GrwvaEF5zXb26Fz9rcQpDWS57CtERHpNehXCPcNoHGKutQY" 5

/-- The faucet on an empty Postgres store. -/
theorem faucet_queued :
    (ApiRequest.faucet faucetBody).Queued (sampleLibraries [faucetBody]) sampleDraws
      (fun _ => .proceed) (.postgres Storage.migrated emptyPostgres) :=
  queued_or_inMemory (sampleLibraries [faucetBody]) sampleDraws (fun _ => .proceed)
    (.postgres Storage.migrated emptyPostgres) (.faucet faucetBody)
    (by simp [Store.outbox, emptyPostgres])

/-- **Without a database the faucet answers with a correlation id of which there is no row.** -/
theorem faucet_unqueued :
    ¬ ∀ (lib : Libraries) (draws : Draws) (fates : Nat → Fate ApiError) (url : Option String)
        (connect : String → Except ApiError (Storage.Database × PostgresStorage))
        (req : ApiRequest),
      (∀ k, ∀ row ∈ (fromConfig url connect).outbox, row.correlationId ≠ draws.uuid k) →
      req.Queued lib draws fates (fromConfig url connect) := by
  intro hall
  have hqueued := hall (sampleLibraries [faucetBody]) sampleDraws (fun _ => .proceed) none
    (fun _ => .error (.internal "")) (.faucet faucetBody)
    (by simp [fromConfig, Store.outbox])
  obtain ⟨out, n, s', -, -, hrow⟩ := hqueued.1 (sampleDraws.uuid 0) rfl
  have hempty : ((ApiRequest.faucet faucetBody).run (sampleLibraries [faucetBody]) sampleDraws
      (fun _ => .proceed) 0 (fromConfig none fun _ => .error (.internal ""))).2.2.outbox = [] := rfl
  rw [hempty] at hrow
  cases hrow

end Ainur
