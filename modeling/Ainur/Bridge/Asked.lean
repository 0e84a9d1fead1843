import Ainur.Api.Handlers
import Ainur.Chain.HexFields
import Ainur.Bridge.Signed

set_option autoImplicit false

/-! # From a request to the call that is signed

What a request of the API asks the chain for, in terms of the request alone: no payload, no JSON.
The handlers write it into a payload, the outbox keeps it, and `submit_extrinsic` reads it back. A
row that was enqueued for a request is signed as the call that the request asks for, up to chain ids
that were patched in; a registration, a task and a transfer of the faucet have none of these.
-/

namespace Ainur.Asked

open Outbox Signed

/-! ## What the handlers enqueue -/

section Outgoing

variable (lib : Libraries) (draws : Draws)

/-- The extrinsic of `submit_task`, for a budget that is a `u64`. -/
def taskOutgoing (stored : StoredTask) (budget : UInt64) : Outgoing where
  correlationId := draws.uuid 1
  pallet := "TaskMarket"
  call := "create_task"
  payload := some (lib.serde.toString (createTaskPayload
    (hashHex lib stored.task.specification.input) (jsonU64 budget) (jsonU64 stored.task.deadline)))

/-- The extrinsic of `submit_bid`, for the ids that were found. -/
def bidOutgoing (view : BidView) (taskChainId agentChainId : Int) : Outgoing where
  correlationId := draws.uuid 1
  pallet := "TaskMarket"
  call := "submit_bid"
  payload := some (lib.serde.toString (submitBidPayload taskChainId agentChainId
    (hashHex lib (utf8 s!"{view.taskId}:{view.agentId}")) view.completionTime))

/-- The extrinsic of `submit_result`, for the ids that were found. -/
def resultOutgoing (view : ResultView) (taskChainId agentChainId : Int) : Outgoing where
  correlationId := draws.uuid 1
  pallet := "TaskMarket"
  call := "submit_result"
  payload := some (lib.serde.toString (submitResultPayload taskChainId agentChainId
    (hashHex lib (utf8 view.outputBase64))))

variable {lib draws}

theorem createTaskOutgoing_eq {stored : StoredTask} {budget : UInt64}
    (h : stored.task.budget.maxCost = budget.toNat) :
    createTaskOutgoing lib draws stored = pure (taskOutgoing lib draws stored budget) := by
  have hle : budget.toNat ≤ u64Max.toNat := Nat.le_of_lt_succ budget.toNat_lt
  have hjson : jsonU128 (TaskView.fromStored stored).maxBudget = some (jsonU64 budget) := by
    show jsonU128 stored.task.budget.maxCost = _
    rw [h, jsonU128, if_pos hle, UInt64.ofNat_toNat]
  unfold createTaskOutgoing
  simp only [hjson]
  rfl

theorem submitBidOutgoing_eq (view : BidView) :
    submitBidOutgoing lib draws view = (do
      let taskChainId ← lookupTask view.taskId
      let agentChainId ← lookupAgent view.agentId
      return bidOutgoing lib draws view taskChainId agentChainId) := rfl

theorem submitResultOutgoing_eq (view : ResultView) :
    submitResultOutgoing lib draws view = (do
      let taskChainId ← lookupTask view.taskId
      let agentChainId ← lookupAgent view.agentId
      return resultOutgoing lib draws view taskChainId agentChainId) := rfl

end Outgoing

/-! ## What is asked -/

section Asks

variable {A : Type} (accountFromStr : String → Except String A) (lib : Libraries) (draws : Draws)

/-- The request whose handler enqueues `out`, with its payload as a value, asks for the call. -/
inductive Asks : Outgoing → Value → RuntimeCall A → Prop
  /-- `register_agent`: the id as the DID, the label as metadata. -/
  | agent (payload : AgentRegistrationRequest) :
      Asks (registerAgentOutgoing lib draws payload) (registerAgentPayload payload)
        (.registerAgent (utf8 payload.id) [] (some (utf8 payload.label)) none .bestEffort)
  /-- `submit_task`: the hash of the input, the budget and the deadline, of what the chain has room
  for. -/
  | task (stored : StoredTask) (budget : UInt64) (deadline : UInt32) :
      stored.task.budget.maxCost = budget.toNat → stored.task.deadline = deadline.toUInt64 →
      Asks (taskOutgoing lib draws stored budget)
        (createTaskPayload (hashHex lib stored.task.specification.input) (jsonU64 budget)
          (jsonU64 stored.task.deadline))
        (.createTask (lib.blake3 stored.task.specification.input) stored.task.budget.maxCost deadline
          .bestEffort)
  /-- `submit_bid`, with the chain ids that were found and a duration that the chain has room for. -/
  | bid (view : BidView) (taskId agentId : UInt64) (duration : UInt32) :
      view.completionTime = duration.toUInt64 →
      Asks (bidOutgoing lib draws view taskId.toNat agentId.toNat)
        (submitBidPayload taskId.toNat agentId.toNat
          (hashHex lib (utf8 s!"{view.taskId}:{view.agentId}")) view.completionTime)
        (.submitBid taskId agentId (lib.blake3 (utf8 s!"{view.taskId}:{view.agentId}")) duration)
  /-- `submit_result`, with the chain ids that were found. -/
  | result (view : ResultView) (taskId agentId : UInt64) :
      Asks (resultOutgoing lib draws view taskId.toNat agentId.toNat)
        (submitResultPayload taskId.toNat agentId.toNat (hashHex lib (utf8 view.outputBase64)))
        (.submitResult taskId agentId (lib.blake3 (utf8 view.outputBase64)) [])
  /-- `request_faucet`, for the account of the address. -/
  | faucet (address : String) (amount : UInt64) (account : A) :
      accountFromStr address = .ok account →
      Asks (faucetOutgoing lib draws address amount) (faucetPayload address amount)
        (.transferAllowDeath account amount.toNat)

end Asks

section Builds

variable {A : Type} {accountFromStr : String → Except String A} {lib : Libraries} {draws : Draws}
variable {out : Outgoing} {v : Value} {c : RuntimeCall A}

theorem Asks.payload (h : Asks accountFromStr lib draws out v c) :
    out.payload = some (lib.serde.toString v) := by
  cases h <;> rfl

theorem parseVerification_bestEffort :
    parseVerification (some (.string "best_effort")) = .ok .bestEffort := by rfl

/-- An id in `json!` is read back. -/
theorem jsonInt_asU64 (n : UInt64) : (jsonInt n.toNat).asU64 = some n := by
  show some (UInt64.ofNat n.toNat) = some n
  rw [UInt64.ofNat_toNat]

/-- A value with the members of the payload of a request stands for the call that the request asks
for. -/
theorem Asks.builds (h : Asks accountFromStr lib draws out v c) {w : Value}
    (hget : ∀ key, w.get key = v.get key) :
    buildValue accountFromStr out.pallet out.call w = .ok c := by
  cases h with
  | agent payload =>
      show buildRegisterAgent w = _
      have hdid : w.get "did" = some (.string payload.id) := hget "did"
      have hcaps : w.get "capabilities" = some (.array []) := hget "capabilities"
      have hmetadata : w.get "metadata" = some (.string payload.label) := hget "metadata"
      have hattestation : w.get "attestation" = none := hget "attestation"
      have hlevel : w.get "verification_level" = some (.string "best_effort") :=
        hget "verification_level"
      unfold buildRegisterAgent
      rw [hdid, hcaps, hmetadata, hattestation, hlevel, parseVerification_bestEffort]
      rfl
  | task stored budget deadline hbudget hfits =>
      show buildCreateTask w = _
      have hhash : hexTo32 (w.get "spec_hash") =
          .ok (lib.blake3 stored.task.specification.input) :=
        (congrArg hexTo32 (hget "spec_hash")).trans (hexTo32_hashHex lib _)
      have hamount : w.get "budget" = some (jsonU64 budget) := hget "budget"
      have hdeadline : w.get "deadline" = some (jsonU64 stored.task.deadline) := hget "deadline"
      have hlevel : w.get "verification_level" = some (.string "best_effort") :=
        hget "verification_level"
      unfold buildCreateTask
      rw [hhash, hamount, hdeadline, hlevel, parseVerification_bestEffort, hbudget, hfits]
      -- the `as u32` of the code loses nothing
      exact congrArg (fun d => Except.ok (RuntimeCall.createTask _ _ d _)) deadline.toUInt32_toUInt64
  | bid view taskId agentId duration hfits =>
      show buildSubmitBid w = _
      have htask : (w.get "task_id").bind Value.asU64 = some taskId :=
        (congrArg (Option.bind · Value.asU64) (hget "task_id")).trans (jsonInt_asU64 taskId)
      have hagent : (w.get "agent_id").bind Value.asU64 = some agentId :=
        (congrArg (Option.bind · Value.asU64) (hget "agent_id")).trans (jsonInt_asU64 agentId)
      have hhash : hexTo32 (w.get "commitment") =
          .ok (lib.blake3 (utf8 s!"{view.taskId}:{view.agentId}")) :=
        (congrArg hexTo32 (hget "commitment")).trans (hexTo32_hashHex lib _)
      have hduration : w.get "estimated_duration" = some (jsonU64 view.completionTime) :=
        hget "estimated_duration"
      unfold buildSubmitBid
      rw [htask, hagent, hhash, hduration, hfits]
      exact congrArg (fun d => Except.ok (RuntimeCall.submitBid _ _ _ d)) duration.toUInt32_toUInt64
  | result view taskId agentId =>
      show buildSubmitResult w = _
      have htask : (w.get "task_id").bind Value.asU64 = some taskId :=
        (congrArg (Option.bind · Value.asU64) (hget "task_id")).trans (jsonInt_asU64 taskId)
      have hagent : (w.get "agent_id").bind Value.asU64 = some agentId :=
        (congrArg (Option.bind · Value.asU64) (hget "agent_id")).trans (jsonInt_asU64 agentId)
      have hhash : hexTo32 (w.get "result_hash") = .ok (lib.blake3 (utf8 view.outputBase64)) :=
        (congrArg hexTo32 (hget "result_hash")).trans (hexTo32_hashHex lib _)
      have hproof : w.get "proof" = some (.string "") := hget "proof"
      unfold buildSubmitResult
      rw [htask, hagent, hhash, hproof]
      rfl
  | faucet address amount account haccount =>
      show buildTransfer accountFromStr w = _
      have haddress : w.get "address" = some (.string address) := hget "address"
      have hamount : w.get "amount" = some (jsonU64 amount) := hget "amount"
      unfold buildTransfer
      rw [haddress, hamount]
      simp only [Option.bind_some, Value.asStr, Fallible.okOr_some, Fallible.ok_bind, haccount,
        Fallible.mapError_ok]
      rfl

/-- `serde_json` reads the members of the value back from its text. -/
def ReadsBack (json : SerdeJson) (v : Value) : Prop :=
  ∃ w, json.fromStr (json.toString v) = .ok w ∧ ∀ key, w.get key = v.get key

/-- The row of a request that was validated stands for the call that the request asks for. -/
theorem Asks.extrinsic (h : Asks accountFromStr lib draws out v c) (hread : ReadsBack lib.serde v)
    (hvalid : validateOutboxPayload lib out = .ok ()) :
    buildExtrinsic accountFromStr lib.serde out.pallet out.call out.payload = .ok c := by
  obtain ⟨w, hw, hget⟩ := hread
  have hpayload : payloadVal lib.serde out.payload = .ok w := by
    rw [h.payload]
    exact payloadVal_some.mpr hw
  have hdecode : decodePayload lib.serde out.pallet out.call out.payload = .ok () :=
    Fallible.mapError_eq_ok.mp hvalid
  refine Fallible.bind_eq_ok.mpr ⟨w, hpayload, Fallible.bind_eq_ok.mpr ⟨(), hdecode, ?_⟩⟩
  exact h.builds hget

end Builds

/-! ## What is signed -/

section Signs

variable {A : Type} {ids : List (IdMember × Int)} {c c₀ : RuntimeCall A}

theorem withoutIds_of_none (h : ∀ m, idArgument m c = none) : withoutIds c = c := by
  cases c with
  | submitBid taskId agentId commitment duration => cases h .taskId
  | revealBid taskId agentId cost nonce => cases h .taskId
  | allocateTask taskId => cases h .taskId
  | submitResult taskId agentId resultHash proof => cases h .taskId
  | registerAgent did capabilities metadata attestation verification => rfl
  | createTask specHash budget deadline verification => rfl
  | transferAllowDeath dest amount => rfl

/-- A call without ids is signed as it is. -/
theorem eq_of_signsAs (h : SignsAs ids c₀ c) (hnone : ∀ m, idArgument m c₀ = none) :
    c = c₀ := by
  have hsigned : ∀ m, idArgument m c = none := by
    intro m
    cases hm : idArgument m c with
    | none => rfl
    | some n =>
        rcases h.idArguments m n hm with hid | ⟨hid, -⟩
        · cases (hnone m).symm.trans hid
        · cases (hnone m).symm.trans hid
  calc c = withoutIds c := (withoutIds_of_none hsigned).symm
    _ = withoutIds c₀ := h.arguments
    _ = c₀ := withoutIds_of_none hnone

end Signs

/-! ## One enqueue for each correlation id -/

section Unique

variable {pg : Jsonb} {cs : List Commit} {rows : List OutboundExtrinsic}

/-- The key of a row stays in the table. -/
theorem keys_step {c : Commit} {rows' : List OutboundExtrinsic}
    (hstep : Commit.step pg rows c = some rows') {key : String}
    (hkey : key ∈ rows.map OutboundExtrinsic.correlationId) :
    key ∈ rows'.map OutboundExtrinsic.correlationId := by
  obtain ⟨row, hrow, rfl⟩ := List.mem_map.mp hkey
  cases c with
  | enqueue correlationId pallet call payload now =>
      simp only [Commit.step, Option.ite_none_right_eq_some, Option.some.injEq] at hstep
      obtain ⟨-, rfl⟩ := hstep
      exact List.mem_map_of_mem (List.mem_append_left _ hrow)
  | attempt job outcome now =>
      simp only [Commit.step, Option.ite_none_right_eq_some] at hstep
      obtain ⟨f, hf, rfl⟩ := Option.map_eq_some_iff.mp hstep.2
      refine List.mem_map.mpr ⟨_, List.mem_map_of_mem hrow, ?_⟩
      split
      · exact settlement_correlationId hf row
      · rfl
  | write update keys =>
      simp only [Commit.step, Option.ite_none_right_eq_some, Option.some.injEq] at hstep
      obtain ⟨-, rfl⟩ := hstep
      refine List.mem_map.mpr ⟨_, List.mem_map_of_mem hrow, ?_⟩
      split
      · cases update <;> rfl
      · rfl

/-- What was enqueued is in the table. -/
theorem enqueued_key (hexec : Transition.exec (Commit.step pg) [] cs = some rows)
    {correlationId pallet call : String} {payload : Option String} {now : Nat}
    (h : .enqueue correlationId pallet call payload now ∈ cs) :
    correlationId ∈ rows.map OutboundExtrinsic.correlationId := by
  induction cs using List.reverseRecOn generalizing rows with
  | nil => cases h
  | append_singleton cs c ih =>
      rw [Transition.exec_append] at hexec
      obtain ⟨mid, hmid, hlast⟩ := Option.bind_eq_some_iff.mp hexec
      obtain ⟨rows', hstep, hnil⟩ := Option.bind_eq_some_iff.mp hlast
      obtain rfl : rows' = rows := Option.some.inj hnil
      rcases List.mem_append.mp h with hold | hnew
      · exact keys_step hstep (ih hmid hold)
      · obtain rfl := List.mem_singleton.mp hnew
        simp only [Commit.step, Option.ite_none_right_eq_some, Option.some.injEq] at hstep
        obtain ⟨-, rfl⟩ := hstep
        exact List.mem_map.mpr ⟨_, List.mem_append_right _ (List.mem_singleton.mpr rfl), rfl⟩

/-- A correlation id is enqueued once. -/
theorem enqueue_unique (hexec : Transition.exec (Commit.step pg) [] cs = some rows)
    {correlationId pallet pallet' call call' : String} {payload payload' : Option String}
    {now now' : Nat} (h : .enqueue correlationId pallet call payload now ∈ cs)
    (h' : .enqueue correlationId pallet' call' payload' now' ∈ cs) :
    pallet' = pallet ∧ call' = call ∧ payload' = payload := by
  induction cs using List.reverseRecOn generalizing rows with
  | nil => cases h
  | append_singleton cs c ih =>
      rw [Transition.exec_append] at hexec
      obtain ⟨mid, hmid, hlast⟩ := Option.bind_eq_some_iff.mp hexec
      obtain ⟨rows', hstep, -⟩ := Option.bind_eq_some_iff.mp hlast
      -- the last commit cannot enqueue a key that is there already
      have hfresh : ∀ {pallet call : String} {payload : Option String} {now : Nat},
          .enqueue correlationId pallet call payload now ∈ cs →
          ∀ {pallet' call' : String} {payload' : Option String} {now' : Nat},
            c ≠ .enqueue correlationId pallet' call' payload' now' := by
        rintro pallet call payload now hmem pallet' call' payload' now' rfl
        simp only [Commit.step, Option.ite_none_right_eq_some] at hstep
        exact hstep.1.1 (enqueued_key hmid hmem)
      rcases List.mem_append.mp h with hold | hnew
      · rcases List.mem_append.mp h' with hold' | hnew'
        · exact ih hmid hold hold'
        · exact absurd (List.mem_singleton.mp hnew').symm (hfresh hold)
      · rcases List.mem_append.mp h' with hold' | hnew'
        · exact absurd (List.mem_singleton.mp hnew).symm (hfresh hold')
        · have heq := (List.mem_singleton.mp hnew).trans (List.mem_singleton.mp hnew').symm
          obtain ⟨-, hpallet, hcall, hpayload, -⟩ := Commit.enqueue.inj heq
          exact ⟨hpallet.symm, hcall.symm, hpayload.symm⟩

end Unique

/-! ## From the request to the worker -/

section Signed

variable {A : Type} {accountFromStr : String → Except String A} {lib : Libraries} {draws : Draws}
variable {pg : Jsonb} {s : System} {tr : List (System × Label)}
variable {texts : String → Prop} {out : Outgoing} {v : Value} {c₀ : RuntimeCall A}

/-- **What a request asks for is what is signed.** Whatever a worker submits under the correlation
id of a request is the call that the request asks for, up to chain ids that committed patches put in
place of its placeholders; a call without placeholders is signed exactly as it was asked for. -/
theorem signed_as_asked (hrun : Runs pg tr s)
    (hpg : Transcribes lib.serde pg (patches (Transition.trace commits tr)) texts)
    (hcounted : CountedIds (patches (Transition.trace commits tr)))
    (hcovered : QueuedIn texts (Transition.trace commits tr))
    (hasks : Asks accountFromStr lib draws out v c₀) (hread : ReadsBack lib.serde v)
    (hvalid : validateOutboxPayload lib out = .ok ()) {now : Nat}
    (hqueued : .enqueue out.correlationId out.pallet out.call out.payload now ∈
      Transition.trace commits tr)
    {w : Nat} {job : Job} (hjob : (s.workers w).job = some job)
    (hid : job.correlationId = out.correlationId) :
    ∃ c, buildExtrinsic accountFromStr lib.serde job.pallet job.call job.payload = .ok c ∧
      SignsAs (patches (Transition.trace commits tr)) c₀ c ∧
      ((∀ m, idArgument m c₀ = none) → c = c₀) := by
  obtain ⟨payload, now', hmem, hkeeps⟩ := job_enqueued hrun hpg hcounted hcovered hjob
  obtain ⟨rows, hexec, -⟩ := (refines pg).run hrun fun _ _ => trivial
  rw [hid] at hmem
  obtain ⟨hpallet, hcall, rfl⟩ := enqueue_unique hexec hqueued hmem
  rw [hpallet, hcall]
  obtain ⟨c, hc, hsigns⟩ := hkeeps.builds (hasks.extrinsic hread hvalid)
  exact ⟨c, hc, hsigns, eq_of_signsAs hsigns⟩

/-- A transfer of 5 to an address. -/
def transferPayload : Value := faucetPayload "5GrwvaEF5zXb26Fz9rcQpDWS57CtERHpNehXCPcNoHGKutQY" 5

def transferLibraries : Libraries := sampleLibraries [transferPayload]

def transferOutgoing : Outgoing :=
  faucetOutgoing transferLibraries sampleDraws "5GrwvaEF5zXb26Fz9rcQpDWS57CtERHpNehXCPcNoHGKutQY" 5

/-- It is enqueued, a patch passes over it, and a worker takes it. -/
def requestedTransfer : List Label :=
  [.enqueue transferOutgoing.correlationId transferOutgoing.pallet transferOutgoing.call
      transferOutgoing.payload 0,
    .execute 0 (.patch .taskId 7), .finish 0, .fetch 0, .take 0 (0, transferOutgoing.correlationId)]

/-- The payload of the transfer. -/
def transferTexts (text : String) : Prop := transferOutgoing.payload = some text

theorem transfer_transcribes :
    Transcribes transferLibraries.serde (.onValues [transferPayload]) [(.taskId, 7)]
      transferTexts where
  cast text v w _ hv hw key := by
    have hw' : [transferPayload].find? (fun v => v.render "," ":" = text) = some w := hw
    have hread : transferLibraries.serde.fromStr text = .ok w := by
      simp only [transferLibraries, sampleLibraries, SerdeJson.onValues, hw']
    obtain rfl := Except.ok.inj (hv.symm.trans hread)
    exact .refl v key
  text text w _ hw x hx hsome := by
    -- the transfer has no member that a patch could set
    have hw' : [transferPayload].find? (fun v => v.render "," ":" = text) = some w := hw
    obtain rfl := List.mem_singleton.mp (List.mem_of_find?_eq_some hw')
    obtain rfl := List.mem_singleton.mp hx
    cases hsome
  zero n hn := by
    have hzero : n.toNat = 0 := by
      simpa [Jsonb.onValues, Value.integer?] using hn
    exact UInt64.toNat_inj.mp hzero

/-- The worker signs the transfer. -/
theorem requestedTransfer_signed :
    ∃ tr s job, Runs (.onValues [transferPayload]) tr s ∧ (s.workers 0).job = some job ∧
      buildExtrinsic (fun a => .ok a) transferLibraries.serde job.pallet job.call job.payload =
        .ok (.transferAllowDeath "5GrwvaEF5zXb26Fz9rcQpDWS57CtERHpNehXCPcNoHGKutQY" 5) := by
  obtain ⟨s, hexec, job, hjob, hid⟩ : ∃ s, Transition.exec (step (.onValues [transferPayload]))
      System.init requestedTransfer = some s ∧ ∃ job, (s.workers 0).job = some job ∧
        job.correlationId = transferOutgoing.correlationId :=
    ⟨_, by rfl, _, by rfl, by rfl⟩
  have hpatches : patches (Transition.trace commits (Transition.history
      (step (.onValues [transferPayload])) System.init requestedTransfer)) = [(.taskId, 7)] := by
    rfl
  have hrun := Transition.Run.of_history hexec
  have hasks : Asks (fun a => .ok a) transferLibraries sampleDraws transferOutgoing transferPayload
      (.transferAllowDeath "5GrwvaEF5zXb26Fz9rcQpDWS57CtERHpNehXCPcNoHGKutQY" 5) :=
    .faucet _ 5 _ rfl
  have hread : ReadsBack transferLibraries.serde transferPayload :=
    ⟨transferPayload, SerdeJson.onValues_fromStr _ _, fun _ => rfl⟩
  have hqueued : .enqueue transferOutgoing.correlationId transferOutgoing.pallet
      transferOutgoing.call transferOutgoing.payload 0 ∈ Transition.trace commits
        (Transition.history (step (.onValues [transferPayload])) System.init requestedTransfer) := by
    exact List.mem_cons_self
  have hcommits : Transition.trace commits (Transition.history (step (.onValues [transferPayload]))
      System.init requestedTransfer) = [.enqueue transferOutgoing.correlationId
        transferOutgoing.pallet transferOutgoing.call transferOutgoing.payload 0,
        .write (.patch .taskId 7) []] := by rfl
  have hcovered : QueuedIn transferTexts (Transition.trace commits (Transition.history
      (step (.onValues [transferPayload])) System.init requestedTransfer)) := by
    rw [hcommits]
    intro correlationId pallet call text now hmem
    rcases List.mem_cons.mp hmem with heq | hmem
    · obtain ⟨-, -, -, htext, -⟩ := Commit.enqueue.inj heq
      exact htext.symm
    · cases List.mem_singleton.mp hmem
  have hcounted : CountedIds (patches (Transition.trace commits (Transition.history
      (step (.onValues [transferPayload])) System.init requestedTransfer))) := by
    rw [hpatches]
    intro x hx
    obtain rfl := List.mem_singleton.mp hx
    decide
  obtain ⟨c, hc, -, hexact⟩ := signed_as_asked hrun (by rw [hpatches]; exact transfer_transcribes)
    hcounted hcovered hasks hread (by decide +kernel) hqueued hjob hid
  rw [hexact fun m => by cases m <;> rfl] at hc
  exact ⟨_, s, job, hrun, hjob, hc⟩

end Signed

end Ainur.Asked
