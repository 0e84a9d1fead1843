import Ainur.Bridge.System

set_option autoImplicit false

/-! # The chain ids in a bid

What `submit_bid` finds under the migrated schema. The lookup of the task compares a `uuid` with a
text, and the statements that would give an agent its chain id set a column that `agents` does not
have; all these errors are dropped. So every lookup yields 0, in every state.
-/

namespace Ainur.Bridge

open Storage (migrated)

/-- Under the migrated schema the lookup of a task is refused. -/
theorem taskChainId_migrated (p : PostgresStorage) (taskId : String) :
    p.taskChainId migrated taskId = 0 := by
  unfold PostgresStorage.taskChainId
  rw [Storage.migrated_taskChainId]
  rfl

/-- No agent has a chain id. -/
def NoAgentIds (p : PostgresStorage) : Prop := ∀ row ∈ p.agents, row.chainAgentId = none

theorem NoAgentIds.agentChainId {p : PostgresStorage} (h : NoAgentIds p) (agentId : String) :
    p.agentChainId migrated agentId = 0 := by
  unfold PostgresStorage.agentChainId
  split
  · cases hfind : p.agents.find? fun a => a.id = agentId with
    | none => rfl
    | some row =>
        rw [Option.bind_some, h row (List.mem_of_find?_eq_some hfind)]
        rfl
  · rfl

/-- A request in flight that has no chain ids: those looked up so far are 0. -/
def Call.NoIds (lib : Libraries) : Call → Prop
  | .lookupAgent _ taskChainId => taskChainId = 0
  | .enqueue x => ∀ taskId agentId, x.origin = .bid taskId agentId →
      ∃ view, x = (Work.bid view).intent lib 0 0
  | _ => True

/-- No chain id has reached an agent or a request. -/
structure NoIds (lib : Libraries) (s : System) : Prop where
  agents : NoAgentIds s.tables
  calls : ∀ k c, s.calls k = some c → c.NoIds lib

theorem NoIds.init (lib : Libraries) : NoIds lib System.init where
  agents row h := by cases h
  calls k c h := by cases h

/-! ## Every step keeps it -/

section Steps

variable {lib : Libraries} {pg : Jsonb} {s t : System} {l : Label}

theorem NoAgentIds.registerAgent {p q : PostgresStorage} {agent : AgentRegistrationRequest}
    {u : Unit} (h : NoAgentIds p) (hop : p.registerAgent migrated agent = .ok (u, q)) :
    NoAgentIds q := by
  unfold PostgresStorage.registerAgent at hop
  split at hop
  · obtain rfl : _ = q := congrArg Prod.snd (Except.ok.inj hop)
    intro row hrow
    simp only at hrow
    split at hrow
    · obtain ⟨old, hold, rfl⟩ := List.mem_map.mp hrow
      split
      · exact h old hold
      · exact h old hold
    · rcases List.mem_append.mp hrow with hold | hnew
      · exact h row hold
      · obtain rfl := List.mem_singleton.mp hnew
        rfl
  · cases hop

theorem NoAgentIds.of_eq {p q : PostgresStorage} (h : NoAgentIds p) (hagents : q.agents = p.agents) :
    NoAgentIds q := fun row hrow => h row (hagents ▸ hrow)

theorem NoAgentIds.advance {p : PostgresStorage} (h : NoAgentIds p) (c : Call) :
    NoAgentIds (c.advance lib migrated p).1 := by
  cases c with
  | registerAgent agent =>
      simp only [Call.advance]
      split
      · next hop => exact h.registerAgent hop
      · exact h
  | insertTask stored =>
      simp only [Call.advance]
      split
      · next hop => exact h.of_eq (PostgresStorage.insertTask_frame hop).1
      · exact h
  | insertBid stored =>
      simp only [Call.advance]
      split
      · next hop => exact h.of_eq (PostgresStorage.insertBid_frame hop).1
      · exact h
  | upsertTask task stored =>
      simp only [Call.advance]
      split
      · next hop => exact h.of_eq (PostgresStorage.upsertTask_frame hop).1
      · exact h
  | insertResult stored =>
      simp only [Call.advance]
      split
      · next hop => exact h.of_eq (PostgresStorage.insertResult_frame hop).1
      · exact h
  | lookupTask work => exact h
  | lookupAgent work taskChainId => exact h
  | enqueue x => exact h

/-- The extrinsic of a bid or a result with both ids 0. -/
theorem Work.intent_noIds (work : Work) : (Call.enqueue (work.intent lib 0 0)).NoIds lib := by
  intro taskId agentId horigin
  cases work with
  | bid view => exact ⟨view, rfl⟩
  | result view => cases horigin

theorem Call.begin_noIds {draws : Draws} {p : PostgresStorage} {req : ApiRequest} {c : Call}
    (h : Call.begin lib draws p req = some c) : c.NoIds lib := by
  cases req with
  | agent payload =>
      simp only [begin] at h
      split at h
      · cases h
      · obtain rfl := Option.some.inj h
        trivial
  | task payload =>
      obtain ⟨stored, -, rfl⟩ := Option.map_eq_some_iff.mp h
      trivial
  | bid payload =>
      obtain ⟨task, -, h⟩ := Option.bind_eq_some_iff.mp h
      obtain ⟨stored, -, h⟩ := Option.bind_eq_some_iff.mp h
      obtain rfl := Option.some.inj h
      trivial
  | result payload =>
      obtain ⟨task, -, h⟩ := Option.bind_eq_some_iff.mp h
      obtain ⟨stored, -, h⟩ := Option.bind_eq_some_iff.mp h
      obtain rfl := Option.some.inj h
      trivial
  | outbox req =>
      simp only [begin] at h
      split at h
      · cases h
      · obtain rfl := Option.some.inj h
        intro taskId agentId horigin
        cases horigin
  | faucet body =>
      obtain ⟨address, -, h⟩ := Option.bind_eq_some_iff.mp h
      obtain rfl := Option.some.inj h
      intro taskId agentId horigin
      cases horigin

theorem Call.advance_noIds {p : PostgresStorage} {c c' : Call} (h : NoAgentIds p) (hc : c.NoIds lib)
    (hnext : (c.advance lib migrated p).2 = some c') : c'.NoIds lib := by
  cases c with
  | registerAgent agent =>
      simp only [advance] at hnext
      split at hnext
      · obtain rfl := Option.some.inj hnext
        intro taskId agentId horigin
        cases horigin
      · cases hnext
  | insertTask stored =>
      simp only [advance] at hnext
      split at hnext
      · obtain ⟨budget, -, rfl⟩ := Option.map_eq_some_iff.mp hnext
        intro taskId agentId horigin
        cases horigin
      · cases hnext
  | insertBid stored =>
      simp only [advance] at hnext
      split at hnext
      · obtain rfl := Option.some.inj hnext
        trivial
      · cases hnext
  | upsertTask task stored =>
      simp only [advance] at hnext
      split at hnext
      · obtain rfl := Option.some.inj hnext
        trivial
      · cases hnext
  | insertResult stored =>
      simp only [advance] at hnext
      split at hnext
      · obtain rfl := Option.some.inj hnext
        trivial
      · cases hnext
  | lookupTask work =>
      obtain rfl := Option.some.inj hnext
      -- the database refuses the lookup
      exact taskChainId_migrated p work.taskId
  | lookupAgent work taskChainId =>
      obtain rfl := Option.some.inj hnext
      obtain rfl : taskChainId = 0 := hc
      rw [h.agentChainId]
      exact work.intent_noIds
  | enqueue x =>
      obtain rfl := Option.some.inj hnext
      exact hc

theorem Call.fail_noIds {c c' : Call} (hc : c.NoIds lib) (hnext : c.fail lib = some c') :
    c'.NoIds lib := by
  cases c with
  | lookupTask work =>
      obtain rfl := Option.some.inj hnext
      exact rfl
  | lookupAgent work taskChainId =>
      obtain rfl := Option.some.inj hnext
      obtain rfl : taskChainId = 0 := hc
      exact work.intent_noIds
  | _ => cases hnext

/-- A statement of the replay worker. -/
theorem NoAgentIds.write {p : PostgresStorage} {d : Delivery} {pick : String} {op : ReplayOp}
    (h : NoAgentIds p) : NoAgentIds (op.write migrated pg d pick p) := by
  cases op with
  | mirrorAgent agentId owner => 
      simp only [ReplayOp.write, Storage.migrated_mirrorAgent]
      exact h
  | linkAgents agentId owner =>
      simp only [ReplayOp.write, Storage.migrated_linkAgent]
      exact h
  | _ =>
      refine h.of_eq ?_
      simp only [ReplayOp.write]
      repeat' split
      all_goals rfl

theorem NoIds.setCall {k : Nat} {c : Option Call} (h : NoIds lib s)
    (hc : ∀ c', c = some c' → c'.NoIds lib) : NoIds lib (s.setCall k c) where
  agents := h.agents
  calls j c' hj := by
    by_cases hjk : j = k
    · subst hjk
      exact hc c' (by simpa [System.setCall] using hj)
    · exact h.calls j c' (by simpa [System.setCall, hjk] using hj)

/-- The tables and the records may change, the agents and the requests stay. -/
theorem NoIds.of_eq (h : NoIds lib s) (hagents : t.tables.agents = s.tables.agents)
    (hcalls : t.calls = s.calls) : NoIds lib t where
  agents := h.agents.of_eq hagents
  calls k c hc := h.calls k c (hcalls ▸ hc)

theorem NoIds.step (h : NoIds lib s) (hstep : step lib migrated pg s l = some t) : NoIds lib t := by
  cases l with
  | request k draws req =>
      obtain ⟨-, c, hc, rfl⟩ := step_request.mp hstep
      refine h.setCall fun c' heq => ?_
      obtain rfl := Option.some.inj heq
      exact Call.begin_noIds hc
  | call k performed =>
      obtain ⟨c, hc, -, ⟨-, rfl⟩ | ⟨-, rfl⟩⟩ := step_call.mp hstep
      · have hcalls : NoIds lib (s.setCall k (c.advance lib migrated s.tables).2) :=
          h.setCall fun c' hnext => Call.advance_noIds h.agents (h.calls k c hc) hnext
        exact ⟨h.agents.advance c, hcalls.calls⟩
      · exact h.setCall fun c' hnext => Call.fail_noIds (h.calls k c hc) hnext
  | enqueue k correlationId now =>
      obtain ⟨x, -, -, rfl⟩ := step_enqueue.mp hstep
      have hcalls : NoIds lib (s.setCall k none) := h.setCall fun c' heq => by cases heq
      exact hcalls.of_eq rfl rfl
  | drop k =>
      obtain ⟨-, rfl⟩ := step_drop.mp hstep
      exact h.setCall fun c' heq => by cases heq
  | settle correlationId outcome now =>
      obtain ⟨row, -, -, f, -, rfl⟩ := step_settle.mp hstep
      exact h.of_eq rfl rfl
  | deliver d =>
      obtain ⟨-, -, ops, -, rfl⟩ := step_deliver.mp hstep
      exact h.of_eq rfl rfl
  | statement performed pick =>
      obtain ⟨d, op, rest, -, ⟨-, -, rfl⟩ | ⟨-, rfl⟩⟩ := step_statement.mp hstep
      · exact ⟨h.agents.write, h.calls⟩
      · exact h.of_eq rfl rfl
  | record =>
      obtain ⟨d, -, rfl⟩ := step_record.mp hstep
      exact h.of_eq rfl rfl
  | stop =>
      obtain rfl := Option.some.inj hstep
      exact h.of_eq rfl rfl
  | backfill u =>
      obtain ⟨-, rows, -, rfl⟩ := step_backfill.mp hstep
      exact h.of_eq rfl rfl

theorem Runs.noIds {tr : List (System × Label)} (hrun : Runs lib migrated pg tr s) : NoIds lib s :=
  Transition.Run.invariant (NoIds.init lib) (fun _ _ _ h hstep => h.step hstep) hrun

end Steps

/-! ## Bids for known tasks and agents -/

/-- An outbox row of that origin is finalized, and the worker has recorded an event of its
extrinsic that satisfies `P`. -/
def Confirmed (s : System) (origin : Origin) (P : Event → Prop) : Prop :=
  ∃ row ∈ s.tables.outbox, (row.correlationId, origin) ∈ s.enqueued ∧ row.status = .finalized ∧
    ∃ h, row.txHash = some h ∧ ∃ d ∈ s.processed, d.correlation = some h ∧ P d.event

/-- `AgentRegistered(a)` and `TaskCreated(t)` of the rows of this task and agent have been
processed. -/
structure ChainIdsKnown (s : System) (taskId agentId : String) (t a : UInt64) : Prop where
  task : Confirmed s (.task taskId) fun e => ∃ budget, e = .taskCreated t budget
  agent : Confirmed s (.agent agentId) fun e => ∃ owner, e = .agentRegistered a owner

/-- The payload of the row has these chain ids. -/
def CarriesIds (serde : SerdeJson) (row : OutboundExtrinsic) (t a : UInt64) : Prop :=
  ∃ v, payloadVal serde row.payload = .ok v ∧ v.get "task_id" = some (jsonU64 t) ∧
    v.get "agent_id" = some (jsonU64 a)

/-- **The bid that is enqueued for a task and an agent whose chain ids are known carries these ids
exactly when both of them are 0.** -/
theorem bid_carries_iff {lib : Libraries} {pg : Jsonb} {tr : List (System × Label)}
    {s s' : System} {k : Nat} {x : Intent} {taskId agentId c : String} {t a : UInt64} {now : Nat}
    (hrun : Runs lib migrated pg tr s) (_hknown : ChainIdsKnown s taskId agentId t a)
    (hcall : s.calls k = some (.enqueue x)) (horigin : x.origin = .bid taskId agentId)
    (hserde : ∀ v ∈ x.payload, lib.serde.fromStr (lib.serde.toString v) = .ok v)
    (hstep : step lib migrated pg s (.enqueue k c now) = some s') :
    x.row lib c now ∈ s'.tables.outbox ∧
      (CarriesIds lib.serde (x.row lib c now) t a ↔ t = 0 ∧ a = 0) := by
  obtain ⟨view, hx⟩ := hrun.noIds.calls k _ hcall taskId agentId horigin
  obtain ⟨x', hcall', -, rfl⟩ := step_enqueue.mp hstep
  obtain rfl : x = x' := Call.enqueue.inj (Option.some.inj (hcall.symm.trans hcall'))
  refine ⟨List.mem_append_right _ (List.mem_singleton.mpr rfl), ?_⟩
  have hread : payloadVal lib.serde (x.row lib c now).payload = .ok (submitBidPayload 0 0
      (hashHex lib (utf8 s!"{view.taskId}:{view.agentId}")) view.completionTime) := by
    subst hx
    show (lib.serde.fromStr _).mapError _ = _
    rw [hserde _ rfl]
    rfl
  simp only [CarriesIds, hread, Except.ok.injEq, exists_eq_left']
  have hget : ∀ n : UInt64, some (jsonInt 0) = some (jsonU64 n) ↔ n = 0 := by
    intro n
    rw [show jsonInt 0 = jsonU64 0 from rfl]
    simp [jsonU64, eq_comm]
  exact and_congr (hget t) (hget a)

/-! ## A bid for a known task and a known agent -/

/-- A check for `Confirmed`: the row, its hash and the event. -/
def confirms (s : System) (origin : Origin) (c h : String) (d : Delivery) : Bool :=
  (s.tables.outbox.any fun row =>
    row.correlationId = c && row.status = .finalized && row.txHash = some h) &&
    s.enqueued.contains (c, origin) && s.processed.contains d && d.correlation = some h

theorem confirmed_of_confirms {s : System} {origin : Origin} {c h : String} {d : Delivery}
    {P : Event → Prop} (hcheck : confirms s origin c h d = true) (hP : P d.event) :
    Confirmed s origin P := by
  simp only [confirms, Bool.and_eq_true, List.any_eq_true, decide_eq_true_eq,
    List.contains_iff_mem] at hcheck
  obtain ⟨⟨⟨⟨row, hrow, ⟨hc, hstatus⟩, hhash⟩, horigin⟩, hd⟩, hcorr⟩ := hcheck
  exact ⟨row, hrow, hc ▸ horigin, hstatus, h, hhash, d, hd, hcorr, hP⟩

/-- The agent is registered on the chain as 3. -/
def agentEvent : Delivery := ⟨.agentRegistered 3 "5Grw", 12, some "0xa1", "", 1700000100⟩

/-- The task is created on the chain as 7. -/
def taskEvent : Delivery :=
  ⟨.taskCreated 7 5, 13, some "0xb2", "5f0c8f4e-3f0a-4b8e-9d43-5a3c1c2b7e10", 1700000106⟩

/-- Both are finalized and replayed, and a bid for them is about to be enqueued. -/
def knownIds : List Label :=
  agentRequest ++ taskRequest ++
    [.settle "c1" (.finalized "0xa1") 9, .settle "c2" (.finalized "0xb2") 9,
      .deliver agentEvent, .statement true "", .statement true "", .statement true "", .record,
      .deliver taskEvent, .statement true "", .statement true "",
      .statement true (sampleDraws.uuid 0), .statement true "", .record] ++
    bidRequest.dropLast

/-- The end of `knownIds`: both ids are known, and the bid is next. -/
def atKnownBid (s : System) : Bool :=
  confirms s (.task (sampleDraws.uuid 0)) "c2" "0xb2" taskEvent &&
    confirms s (.agent sampleAgent.id) "c1" "0xa1" agentEvent &&
    (match s.calls 0 with
      | some (.enqueue x) =>
          x.origin = .bid (sampleDraws.uuid 0) sampleAgent.id &&
            (x.payload.bind fun v => (v.get "estimated_duration").bind Value.asU64) = some 7
      | _ => false) &&
    (step bridgeLibraries migrated (.onValues samplePayloads) s (.enqueue 0 "c3" 0)).isSome

theorem knownIds_runs :
    ∃ tr s s' x, Runs bridgeLibraries migrated (.onValues samplePayloads) tr s ∧
      ChainIdsKnown s (sampleDraws.uuid 0) sampleAgent.id 7 3 ∧
      s.calls 0 = some (.enqueue x) ∧ x.origin = .bid (sampleDraws.uuid 0) sampleAgent.id ∧
      x.payload = some (submitBidPayload 0 0 (hashHex (sampleLibraries []) []) 7) ∧
      step bridgeLibraries migrated (.onValues samplePayloads) s (.enqueue 0 "c3" 0)
        = some s' := by
  have hexec : (Transition.exec (step bridgeLibraries migrated (.onValues samplePayloads))
      System.init knownIds).any atKnownBid = true := by
    decide +kernel
  obtain ⟨tr, s, hrun, hend⟩ := Transition.Run.reach_of_exec hexec
  simp only [atKnownBid, Bool.and_eq_true] at hend
  obtain ⟨⟨⟨htask, hagent⟩, hcall⟩, hstep⟩ := hend
  obtain ⟨s', hs'⟩ := Option.isSome_iff_exists.mp hstep
  split at hcall
  · next x hx =>
      simp only [Bool.and_eq_true, decide_eq_true_eq] at hcall
      obtain ⟨horigin, hduration⟩ := hcall
      obtain ⟨view, rfl⟩ := (Runs.noIds hrun).calls 0 _ hx _ _ horigin
      obtain hseven : view.completionTime = 7 := Option.some.inj hduration
      refine ⟨tr, s, s', _, hrun, ⟨confirmed_of_confirms htask ⟨5, rfl⟩,
        confirmed_of_confirms hagent ⟨"5Grw", rfl⟩⟩, hx, horigin, ?_, hs'⟩
      rw [← hseven]
      rfl
  · cases hcall

/-- With the ids 7 and 3 the bid does not carry them. -/
theorem knownIds_carries_iff :
    ∃ (s s' : System) (x : Intent), ChainIdsKnown s (sampleDraws.uuid 0) sampleAgent.id 7 3 ∧
      x.row bridgeLibraries "c3" 0 ∈ s'.tables.outbox ∧
        (CarriesIds bridgeLibraries.serde (x.row bridgeLibraries "c3" 0) 7 3 ↔
          (7 : UInt64) = 0 ∧ (3 : UInt64) = 0) := by
  obtain ⟨tr, s, s', x, hrun, hknown, hcall, horigin, hpayload, hstep⟩ := knownIds_runs
  refine ⟨s, s', x, hknown, bid_carries_iff hrun hknown hcall horigin ?_ hstep⟩
  intro v hv
  obtain rfl := Option.some.inj (hpayload.symm.trans hv)
  exact SerdeJson.onValues_fromStr _ _

/-- **The bid for a task and an agent with the chain ids 7 and 3 is enqueued without them.** -/
theorem knownIds_without_ids :
    ¬ ∀ (lib : Libraries) (pg : Jsonb) (tr : List (System × Label)) (s s' : System) (k : Nat)
        (x : Intent) (taskId agentId c : String) (t a : UInt64) (now : Nat),
      Runs lib migrated pg tr s → ChainIdsKnown s taskId agentId t a →
      s.calls k = some (.enqueue x) → x.origin = .bid taskId agentId →
      (∀ v ∈ x.payload, lib.serde.fromStr (lib.serde.toString v) = .ok v) →
      step lib migrated pg s (.enqueue k c now) = some s' →
      CarriesIds lib.serde (x.row lib c now) t a := by
  intro hall
  obtain ⟨tr, s, s', x, hrun, hknown, hcall, horigin, hpayload, hstep⟩ := knownIds_runs
  have hserde : bridgeLibraries.serde.fromStr (bridgeLibraries.serde.toString
      (submitBidPayload 0 0 (hashHex (sampleLibraries []) []) 7)) = .ok _ :=
    SerdeJson.onValues_fromStr _ _
  obtain ⟨v, hv, htask, -⟩ := hall _ _ tr s s' 0 x _ _ "c3" 7 3 0 hrun hknown hcall horigin
    (fun v hv => by
      obtain rfl := Option.some.inj (hpayload.symm.trans hv)
      exact hserde) hstep
  have hread : payloadVal bridgeLibraries.serde (x.payload.map bridgeLibraries.serde.toString)
      = .ok v := hv
  rw [hpayload, Option.map_some, payloadVal, hserde] at hread
  obtain rfl := Except.ok.inj hread
  have hseven : jsonU64 0 = jsonU64 7 := Option.some.inj htask
  simp [jsonU64] at hseven

end Ainur.Bridge
