import Ainur.Lib.JsonText
import Ainur.Lib.Serde
import Ainur.Api.Handlers

set_option autoImplicit false

/-! # The size of a registration

`register_agent` has its payload validated before it enqueues it. The validation bounds the bytes of
the decoded id and label, the column `payload` bounds the characters of the encoded text, and the
encoding can make six characters of one.
-/

namespace Ainur

open Fallible (bind_eq_ok mapError_eq_ok okOr_eq_ok)

/-! ## The text of a payload -/

mutual

/-- `Value::to_string`, without `preserve_order`: the members of an object by their names. -/
def Value.compact : Value → String
  | .null => "null"
  | .bool b => if b then "true" else "false"
  | .number n => n.text
  | .string s => JsonText.string s
  | .array items => JsonText.array (compactItems items)
  | .object members =>
      JsonText.object ((compactMembers members).mergeSort fun a b => !Serde.keyLt b.1 a.1)

def Value.compactItems : List Value → List String
  | [] => []
  | v :: rest => v.compact :: compactItems rest

def Value.compactMembers : List (String × Value) → List (String × String)
  | [] => []
  | m :: rest => compactMember m :: compactMembers rest

def Value.compactMember : String × Value → String × String
  | (key, v) => (key, v.compact)

end

/-- The length of an object does not depend on the order of its members. -/
theorem Value.length_compact_object (members : List (String × Value)) :
    (Value.object members).compact.length =
      (JsonText.object (compactMembers members)).length := by
  rw [compact]
  exact JsonText.length_object_of_perm (List.mergeSort_perm _ _)

/-! ## Registrations -/

section Registration

variable (lib : Libraries) (draws : Draws) (agent : AgentRegistrationRequest)

/-- The payload is within the column, and the insert of the extrinsic succeeds. -/
def RegistrationFits : Prop :=
  (∀ text ∈ (registerAgentOutgoing lib draws agent).payload, text.length ≤ 4096) ∧
    ∀ (p : PostgresStorage) (now : Nat), ∃ q, p.recordOutboundExtrinsic
      (registerAgentOutgoing lib draws agent).correlationId
      (registerAgentOutgoing lib draws agent).pallet (registerAgentOutgoing lib draws agent).call
      (registerAgentOutgoing lib draws agent).payload .pending now = .ok ((), q)

/-- What `serde_json` reads back from the text of the payload has the members of the payload. -/
def ReadsBack : Prop :=
  ∃ v, lib.serde.fromStr (lib.serde.toString (registerAgentPayload agent)) = .ok v ∧
    ∀ key, v.get key = (registerAgentPayload agent).get key

variable {lib draws agent}

/-- The text has 77 characters besides the id and the label. -/
theorem length_registerAgentPayload :
    (registerAgentPayload agent).compact.length =
      JsonText.escapedLength agent.id + JsonText.escapedLength agent.label + 77 := by
  rw [registerAgentPayload, Value.length_compact_object, JsonText.length_object]
  simp only [Value.compactMembers, Value.compactMember, Value.compact, Value.compactItems,
    List.map_cons, List.map_nil, List.sum_cons, List.sum_nil, List.length_cons, List.length_nil,
    JsonText.length_string]
  have hdid : JsonText.escapedLength "did" = 3 := by decide
  have hcapabilities : JsonText.escapedLength "capabilities" = 12 := by decide
  have hmetadata : JsonText.escapedLength "metadata" = 8 := by decide
  have hlevel : JsonText.escapedLength "verification_level" = 18 := by decide
  have hbestEffort : JsonText.escapedLength "best_effort" = 11 := by decide
  have harray : (JsonText.array []).length = 2 := by decide
  omega

/-- The insert succeeds where the check on the payload does. -/
theorem recordOutboundExtrinsic_ok_iff {p : PostgresStorage} {corr pallet call text : String}
    {status : OutboxStatus} {now : Nat} :
    (∃ q, p.recordOutboundExtrinsic corr pallet call (some text) status now = .ok ((), q)) ↔
      text.length ≤ 4096 := by
  have hchecks : (OutboundExtrinsic.insert corr pallet call (some text) status now).checks = true ↔
      text.length ≤ 4096 := by
    simp [OutboundExtrinsic.checks, OutboundExtrinsic.insert]
  unfold PostgresStorage.recordOutboundExtrinsic
  by_cases h : text.length ≤ 4096
  · simp only [hchecks.mpr h, Bool.not_true, Bool.false_eq_true, if_false, iff_true_intro h,
      iff_true]
    split
    · exact ⟨_, rfl⟩
    · exact ⟨_, rfl⟩
  · have hfalse : (OutboundExtrinsic.insert corr pallet call (some text) status now).checks =
        false := Bool.eq_false_iff.mpr fun hc => h (hchecks.mp hc)
    simp only [hfalse, Bool.not_false, if_true, iff_false_intro h, iff_false]
    rintro ⟨q, hq⟩
    cases hq

theorem registrationFits_iff_length :
    RegistrationFits lib draws agent ↔
      (lib.serde.toString (registerAgentPayload agent)).length ≤ 4096 := by
  constructor
  · rintro ⟨htext, -⟩
    exact htext _ rfl
  · intro hlen
    refine ⟨fun text htext => ?_, fun p now => recordOutboundExtrinsic_ok_iff.mpr hlen⟩
    obtain rfl := Option.some.inj htext
    exact hlen

/-- The validation looks at the bytes of the id and of the label. -/
theorem validateOutboxPayload_registration (hread : ReadsBack lib agent) :
    validateOutboxPayload lib (registerAgentOutgoing lib draws agent) = .ok () ↔
      agent.id.utf8ByteSize ≤ 128 ∧ agent.label.utf8ByteSize ≤ 1024 := by
  obtain ⟨v, hv, hget⟩ := hread
  have hdid : v.get "did" = some (.string agent.id) := hget "did"
  have hcaps : v.get "capabilities" = some (.array []) := hget "capabilities"
  have hmetadata : v.get "metadata" = some (.string agent.label) := hget "metadata"
  have hlevel : v.get "verification_level" = some (.string "best_effort") :=
    hget "verification_level"
  have hverification : parseVerification (some (.string "best_effort")) = .ok .bestEffort := by
    decide
  have hcall : OutboxCall.parse "AgentRegistry" "register_agent" = some .registerAgent := rfl
  simp only [validateOutboxPayload, registerAgentOutgoing, mapError_eq_ok, decodePayload,
    payloadVal, hv, Fallible.mapError_ok, Fallible.ok_bind, decodeValue, hcall,
    decodeRegisterAgent, hdid, hcaps, hmetadata, hlevel, hverification, getStr, Option.bind_some,
    Value.asStr, Value.asArray, Fallible.okOr_some, checkCapabilities, checkOptionalText]
  by_cases hid : agent.id.utf8ByteSize ≤ 128
  · rw [if_neg (Nat.not_lt.mpr hid), Fallible.ok_bind]
    by_cases hlabel : agent.label.utf8ByteSize ≤ 1024
    · rw [if_neg (Nat.not_lt.mpr hlabel)]
      exact ⟨fun _ => ⟨hid, hlabel⟩, fun _ => rfl⟩
    · rw [if_pos (Nat.lt_of_not_le hlabel)]
      refine ⟨fun h => ?_, fun h => absurd h.2 hlabel⟩
      cases h
  · rw [if_pos (Nat.lt_of_not_le hid)]
    refine ⟨fun h => ?_, fun h => absurd h.1 hid⟩
    cases h

/-- **When a validated registration fits.** Where the payload is validated, the insert accepts it
exactly when the id and the label have at most 4019 characters once they are escaped. -/
theorem registrationFits_iff (lib : Libraries) (draws : Draws) (agent : AgentRegistrationRequest)
    (hprint : lib.serde.toString (registerAgentPayload agent) =
      (registerAgentPayload agent).compact)
    (_hvalid : validateOutboxPayload lib (registerAgentOutgoing lib draws agent) = .ok ()) :
    RegistrationFits lib draws agent ↔
      JsonText.escapedLength agent.id + JsonText.escapedLength agent.label ≤ 4019 := by
  rw [registrationFits_iff_length, hprint, length_registerAgentPayload]
  omega

end Registration

/-! ### A label of control characters -/

/-- `serde_json` on the payload of one registration. -/
def registrationLibraries (agent : AgentRegistrationRequest) : Libraries :=
  { sampleLibraries [] with
    serde :=
      { fromStr := fun text =>
          if text = (registerAgentPayload agent).compact then .ok (registerAgentPayload agent)
          else .error "expected value at line 1 column 1"
        toString := Value.compact } }

theorem registrationLibraries_readsBack (agent : AgentRegistrationRequest) :
    ReadsBack (registrationLibraries agent) agent :=
  ⟨registerAgentPayload agent, if_pos rfl, fun _ => rfl⟩

theorem registrationFits_iff_echo :
    RegistrationFits (registrationLibraries ⟨"agent-1", "Echo"⟩) sampleDraws ⟨"agent-1", "Echo"⟩ ↔
      JsonText.escapedLength "agent-1" + JsonText.escapedLength "Echo" ≤ 4019 :=
  registrationFits_iff (registrationLibraries ⟨"agent-1", "Echo"⟩) sampleDraws ⟨"agent-1", "Echo"⟩
    rfl ((validateOutboxPayload_registration (registrationLibraries_readsBack _)).mpr (by decide))

/-- A label of 700 characters, which are 700 bytes and 4200 characters of JSON. -/
def controlLabel : AgentRegistrationRequest where
  id := "agent-1"
  label := String.ofList (List.replicate 700 (Char.ofNat 1))

/-- **It is validated, and the insert is refused.** -/
theorem controlLabel_not_fits :
    validateOutboxPayload (registrationLibraries controlLabel)
        (registerAgentOutgoing (registrationLibraries controlLabel) sampleDraws controlLabel) =
      .ok () ∧
      ¬ RegistrationFits (registrationLibraries controlLabel) sampleDraws controlLabel := by
  constructor
  · rw [validateOutboxPayload_registration (registrationLibraries_readsBack _)]
    decide +kernel
  · rw [registrationFits_iff_length]
    have hlen : (registerAgentPayload controlLabel).compact.length = _ :=
      length_registerAgentPayload
    have hlabel : 4200 ≤ JsonText.escapedLength controlLabel.label := by
      have hcontrol : JsonText.isControl (Char.ofNat 1) = true := by decide
      have hlength : controlLabel.label.length = 700 := by
        rw [controlLabel, String.length_ofList, List.length_replicate]
      have hcount : controlLabel.label.toList.countP JsonText.isControl = 700 := by
        rw [controlLabel, String.toList_ofList, List.countP_replicate, if_pos hcontrol]
      rw [JsonText.escapedLength, hlength, hcount]
      omega
    change ¬ (registerAgentPayload controlLabel).compact.length ≤ 4096
    omega

end Ainur
