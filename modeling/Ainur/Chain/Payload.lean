import Ainur.Json
import Ainur.Lib.Fallible

set_option autoImplicit false

/-! # Outbox payloads: the check and the submission

`chain.rs` reads the payload of an outbox row twice, with two decoders written by hand over the
same JSON: `decode_payload`, the check behind `validate_outbox_payload` that runs before a row is
enqueued, and the argument-building part of `submit_extrinsic`, everything before `client.tx()`,
that runs when the row is submitted. Both are translated here member by member; a check whose
result the source throws away (`let _ = get_u64(..)`) is thrown away here as well.
-/

namespace Ainur

open Fallible (okOr)

/-! ## Text and hexadecimal digits -/

/-- The UTF-8 bytes of a text, `str::as_bytes`. -/
def utf8 (s : String) : List UInt8 := s.toList.flatMap String.utf8EncodeChar

/-- `str::to_lowercase` as far as a comparison with a lowercase ASCII name can tell: besides
the capitals of ASCII, only the Kelvin sign has a lowercase form in ASCII. -/
def toLowercase (s : String) : String :=
  String.ofList (s.toList.map fun c => if c = Char.ofNat 0x212A then 'k' else c.toLower)

/-- `trim_start_matches("0x")`: every leading `0x` goes, not only the first. -/
def trimStart0x : List Char → List Char
  | '0' :: 'x' :: cs => trimStart0x cs
  | cs => cs

/-- `hex::FromHexError`, as far as decoding into a `Vec` raises it. -/
inductive FromHexError where
  | invalidHexCharacter (c : UInt8) (index : Nat)
  | oddLength
  deriving DecidableEq, Repr

/-- `{:?}` of the `char` of a byte. The no-break space and the soft hyphen do not count as
printable. -/
def debugChar (c : UInt8) : String :=
  let shown :=
    if c = 0 then "\\0"
    else if c = 9 then "\\t"
    else if c = 10 then "\\n"
    else if c = 13 then "\\r"
    else if c = 39 then "\\'"
    else if c = 92 then "\\\\"
    else if c < 32 ∨ (127 ≤ c ∧ c ≤ 160) ∨ c = 173 then
      "\\u\x7b" ++ String.ofList (Nat.toDigits 16 c.toNat) ++ "\x7d"
    else String.singleton (Char.ofNat c.toNat)
  "'" ++ shown ++ "'"

/-- The message of a `FromHexError`. -/
def FromHexError.message : FromHexError → String
  | .invalidHexCharacter c index => s!"Invalid character {debugChar c} at position {index}"
  | .oddLength => "Odd number of digits"

example : (FromHexError.invalidHexCharacter 127 3).message =
    "Invalid character '\\u\x7b7f\x7d' at position 3" := by decide

/-- The value of one hexadecimal digit, in either case. -/
def hexVal (c : UInt8) (index : Nat) : Except FromHexError UInt8 :=
  if 65 ≤ c ∧ c ≤ 70 then .ok (c - 65 + 10)
  else if 97 ≤ c ∧ c ≤ 102 then .ok (c - 97 + 10)
  else if 48 ≤ c ∧ c ≤ 57 then .ok (c - 48)
  else .error (.invalidHexCharacter c index)

/-- The bytes of a list of digit pairs. -/
def hexPairs : List UInt8 → Nat → Except FromHexError (List UInt8)
  | a :: b :: rest, index => do
      let hi ← hexVal a index
      let lo ← hexVal b (index + 1)
      let tail ← hexPairs rest (index + 2)
      return (hi <<< 4 ||| lo) :: tail
  | _, _ => .ok []

/-- `hex::decode`. -/
def hexDecode (digits : List UInt8) : Except FromHexError (List UInt8) :=
  if digits.length % 2 ≠ 0 then .error .oddLength else hexPairs digits 0

/-- `[u8; 32]`. -/
abbrev Bytes32 := { bytes : List UInt8 // bytes.length = 32 }

/-- `hex_to_32`. -/
def hexTo32 (val : Option Value) : Except String Bytes32 := do
  let hexStr ← okOr (val.bind Value.asStr) "missing hex field"
  let digits := utf8 (String.ofList (trimStart0x hexStr.toList))
  let bytes ← (hexDecode digits).mapError fun e => s!"hex decode: {e.message}"
  if h : bytes.length = 32 then .ok ⟨bytes, h⟩ else .error "expected 32-byte hex"

/-- The pallet's `VerificationLevel`. -/
inductive VerificationLevel where
  | bestEffort
  | optimistic
  | tee
  | zkSnark
  | redundant
  deriving DecidableEq, Repr

/-- The level a lowercase name stands for. -/
def VerificationLevel.ofName : String → Option VerificationLevel
  | "best_effort" => some .bestEffort
  | "optimistic" => some .optimistic
  | "tee" => some .tee
  | "zksnark" => some .zkSnark
  | "redundant" => some .redundant
  | _ => none

/-- `parse_verification`: what is not a string counts as `best_effort`. -/
def parseVerification (val : Option Value) : Except String VerificationLevel :=
  let s := toLowercase ((val.bind Value.asStr).getD "best_effort")
  okOr (VerificationLevel.ofName s) "invalid verification_level"

/-! ## The calls -/

/-- The pairs of pallet and call that both decoders know. -/
inductive OutboxCall where
  | registerAgent
  | createTask
  | submitBid
  | revealBid
  | allocateTask
  | submitResult
  | transferAllowDeath
  deriving DecidableEq, Repr

def OutboxCall.parse : String → String → Option OutboxCall
  | "AgentRegistry", "register_agent" => some .registerAgent
  | "TaskMarket", "create_task" => some .createTask
  | "TaskMarket", "submit_bid" => some .submitBid
  | "TaskMarket", "reveal_bid" => some .revealBid
  | "TaskMarket", "allocate_task" => some .allocateTask
  | "TaskMarket", "submit_result" => some .submitResult
  | "Balances", "transfer_allow_death" => some .transferAllowDeath
  | _, _ => none

/-- The last arm of both decoders. -/
def unsupportedCall (pallet call : String) : String :=
  s!"unsupported pallet/call: {pallet}::{call}"

/-- The payload text read as JSON; no text is the empty object. -/
def payloadVal (serde : SerdeJson) : Option String → Except String Value
  | none => .ok (.object [])
  | some p => (serde.fromStr p).mapError fun e => s!"payload json decode: {e}"

/-! ## `decode_payload` -/

def u64Max : UInt64 := 0xffffffffffffffff
def u32Max : UInt64 := 0xffffffff

/-- `get_str` of `decode_payload`. -/
def getStr (val : Option Value) (key : String) (maxLen : Nat) : Except String String := do
  let s ← okOr (val.bind Value.asStr) s!"missing {key}"
  if s.utf8ByteSize > maxLen then .error s!"{key} exceeds {maxLen} chars" else .ok s

/-- `get_u64` of `decode_payload`. -/
def getU64 (val : Option Value) (key : String) (max : UInt64) : Except String UInt64 := do
  let n ← okOr (val.bind Value.asU64) s!"missing {key}"
  if n > max then .error s!"{key} exceeds max {max}" else .ok n

/-- The loop over the capabilities. -/
def checkCapabilities : List Value → Except String Unit
  | [] => .ok ()
  | c :: caps =>
      match c.asStr with
      | some s =>
          if s.utf8ByteSize > 256 then .error "capability exceeds 256 chars"
          else checkCapabilities caps
      | none => .error "capabilities must be strings"

/-- An optional text member with a bound on its length; a member that is no string passes. -/
def checkOptionalText (val : Option Value) (maxLen : Nat) (err : String) : Except String Unit :=
  match val.bind Value.asStr with
  | some s => if s.utf8ByteSize > maxLen then .error err else .ok ()
  | none => .ok ()

def decodeRegisterAgent (v : Value) : Except String Unit := do
  let _did ← getStr (v.get "did") "did" 128
  let caps ← okOr ((v.get "capabilities").bind Value.asArray) "missing capabilities"
  checkCapabilities caps
  checkOptionalText (v.get "metadata") 1024 "metadata exceeds 1024 chars"
  let _ ← parseVerification (v.get "verification_level")
  return ()

-- From here on `get_u64` is called without `?`: what it refuses passes all the same.

def decodeCreateTask (v : Value) : Except String Unit := do
  let _ ← hexTo32 (v.get "spec_hash")
  let _ := getU64 (v.get "budget") "budget" u64Max
  let _ := getU64 (v.get "deadline") "deadline" u32Max
  let _ ← parseVerification (v.get "verification_level")
  return ()

def decodeSubmitBid (v : Value) : Except String Unit := do
  let _ := getU64 (v.get "task_id") "task_id" u64Max
  let _ := getU64 (v.get "agent_id") "agent_id" u64Max
  let _ ← hexTo32 (v.get "commitment")
  let _ := getU64 (v.get "estimated_duration") "estimated_duration" u32Max
  return ()

def decodeRevealBid (v : Value) : Except String Unit := do
  let _ := getU64 (v.get "task_id") "task_id" u64Max
  let _ := getU64 (v.get "agent_id") "agent_id" u64Max
  let _ := getU64 (v.get "cost") "cost" u64Max
  let _ ← hexTo32 (v.get "nonce")
  return ()

def decodeAllocateTask (v : Value) : Except String Unit := do
  let _ := getU64 (v.get "task_id") "task_id" u64Max
  return ()

def decodeSubmitResult (v : Value) : Except String Unit := do
  let _ := getU64 (v.get "task_id") "task_id" u64Max
  let _ := getU64 (v.get "agent_id") "agent_id" u64Max
  let _ ← hexTo32 (v.get "result_hash")
  checkOptionalText (v.get "proof") 4096 "proof exceeds 4096 chars"
  return ()

def decodeTransfer (v : Value) : Except String Unit := do
  let _ ← getStr (v.get "address") "address" 128
  let _ ← okOr ((v.get "amount").bind Value.asU64) "missing amount"
  return ()

/-- The `match` of `decode_payload`, on the payload as a value. -/
def decodeValue (pallet call : String) (v : Value) : Except String Unit :=
  match OutboxCall.parse pallet call with
  | some .registerAgent => decodeRegisterAgent v
  | some .createTask => decodeCreateTask v
  | some .submitBid => decodeSubmitBid v
  | some .revealBid => decodeRevealBid v
  | some .allocateTask => decodeAllocateTask v
  | some .submitResult => decodeSubmitResult v
  | some .transferAllowDeath => decodeTransfer v
  | none => .error (unsupportedCall pallet call)

/-- `decode_payload`. -/
def decodePayload (serde : SerdeJson) (pallet call : String) (payload : Option String) :
    Except String Unit := do
  let v ← payloadVal serde payload
  decodeValue pallet call v

/-! ## The arguments of `submit_extrinsic` -/

/-- The call a submission signs, with its arguments. `A` is the type of account ids. -/
inductive RuntimeCall (A : Type) where
  | registerAgent (did : List UInt8) (capabilities : List (List UInt8))
      (metadata attestation : Option (List UInt8)) (verification : VerificationLevel)
  | createTask (specHash : Bytes32) (budget : Nat) (deadline : UInt32)
      (verification : VerificationLevel)
  | submitBid (taskId agentId : UInt64) (commitment : Bytes32) (estimatedDuration : UInt32)
  | revealBid (taskId agentId : UInt64) (cost : Nat) (nonce : Bytes32)
  | allocateTask (taskId : UInt64)
  | submitResult (taskId agentId : UInt64) (resultHash : Bytes32) (proof : List UInt8)
  | transferAllowDeath (dest : A) (amount : Nat)
  deriving DecidableEq, Repr

section Submission

variable {A : Type} (accountFromStr : String → Except String A)

/-- The bytes of an optional text member. -/
def textBytes (val : Option Value) : Option (List UInt8) := (val.bind Value.asStr).map utf8

def buildRegisterAgent (v : Value) : Except String (RuntimeCall A) := do
  let did ← okOr ((v.get "did").bind Value.asStr) "missing did"
  let caps ← okOr ((v.get "capabilities").bind Value.asArray) "missing capabilities"
  let metadata := textBytes (v.get "metadata")
  let attestation := textBytes (v.get "attestation")
  let verification ← parseVerification (v.get "verification_level")
  return .registerAgent (utf8 did) (caps.map fun c => utf8 (c.asStr.getD "")) metadata attestation
    verification

def buildCreateTask (v : Value) : Except String (RuntimeCall A) := do
  let specHash ← hexTo32 (v.get "spec_hash")
  let budget ← okOr ((v.get "budget").bind Value.asU64) "missing budget"
  let deadline ← okOr ((v.get "deadline").bind Value.asU64) "missing deadline"
  let verification ← parseVerification (v.get "verification_level")
  return .createTask specHash budget.toNat deadline.toUInt32 verification

def buildSubmitBid (v : Value) : Except String (RuntimeCall A) := do
  let taskId ← okOr ((v.get "task_id").bind Value.asU64) "missing task_id"
  let agentId ← okOr ((v.get "agent_id").bind Value.asU64) "missing agent_id"
  let commitment ← hexTo32 (v.get "commitment")
  let duration ← okOr ((v.get "estimated_duration").bind Value.asU64) "missing estimated_duration"
  return .submitBid taskId agentId commitment duration.toUInt32

def buildRevealBid (v : Value) : Except String (RuntimeCall A) := do
  let taskId ← okOr ((v.get "task_id").bind Value.asU64) "missing task_id"
  let agentId ← okOr ((v.get "agent_id").bind Value.asU64) "missing agent_id"
  let cost ← okOr ((v.get "cost").bind Value.asU64) "missing cost"
  let nonce ← hexTo32 (v.get "nonce")
  return .revealBid taskId agentId cost.toNat nonce

def buildAllocateTask (v : Value) : Except String (RuntimeCall A) := do
  let taskId ← okOr ((v.get "task_id").bind Value.asU64) "missing task_id"
  return .allocateTask taskId

def buildSubmitResult (v : Value) : Except String (RuntimeCall A) := do
  let taskId ← okOr ((v.get "task_id").bind Value.asU64) "missing task_id"
  let agentId ← okOr ((v.get "agent_id").bind Value.asU64) "missing agent_id"
  let resultHash ← hexTo32 (v.get "result_hash")
  return .submitResult taskId agentId resultHash ((textBytes (v.get "proof")).getD [])

def buildTransfer (v : Value) : Except String (RuntimeCall A) := do
  let dest ← okOr ((v.get "address").bind Value.asStr) "missing address"
  let account ← (accountFromStr dest).mapError fun e => s!"invalid ss58 address: {e}"
  let amount ← okOr ((v.get "amount").bind Value.asU64) "missing amount"
  return .transferAllowDeath account amount.toNat

/-- The `match` of `submit_extrinsic` up to the submission, on the payload as a value. -/
def buildValue (pallet call : String) (v : Value) : Except String (RuntimeCall A) :=
  match OutboxCall.parse pallet call with
  | some .registerAgent => buildRegisterAgent v
  | some .createTask => buildCreateTask v
  | some .submitBid => buildSubmitBid v
  | some .revealBid => buildRevealBid v
  | some .allocateTask => buildAllocateTask v
  | some .submitResult => buildSubmitResult v
  | some .transferAllowDeath => buildTransfer accountFromStr v
  | none => .error (unsupportedCall pallet call)

/-- `submit_extrinsic` before `client.tx()`: the payload is parsed, checked by `decode_payload`
and only then read. -/
def buildExtrinsic (serde : SerdeJson) (pallet call : String) (payload : Option String) :
    Except String (RuntimeCall A) := do
  let v ← payloadVal serde payload
  decodePayload serde pallet call payload
  buildValue accountFromStr pallet call v

end Submission

end Ainur
