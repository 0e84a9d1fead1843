import Ainur.Chain.Payload

set_option autoImplicit false

/-! # When an accepted payload is submitted as it reads

`decode_payload` is meant to refuse, before a row is enqueued, every payload that `submit_extrinsic`
cannot turn into a call. `Carries c v` says that the arguments of the call `c` are the members of the
payload `v`, and `Submittable` names, call by call, the accepted payloads for which a call is built
and carries them. The gap between the two decoders is `Submittable` itself: a number that was
checked without `?`, a deadline or a duration wider than 32 bits, an optional text member that is
present but is no text, and an address that is no account.
-/

namespace Ainur

open Fallible

/-! ## What the members of a payload stand for -/

/-- The member `key` is the integer `n`. -/
def IntMember (v : Value) (key : String) (n : Nat) : Prop :=
  (v.get key).bind Value.integer? = some (n : Int)

/-- The member `key` is the text with the bytes `bytes`. -/
def TextMember (v : Value) (key : String) (bytes : List UInt8) : Prop :=
  ∃ s, v.get key = some (.string s) ∧ bytes = utf8 s

/-- An optional text member: no bytes where there is no member, else the bytes of its text. -/
def OptionalText (v : Value) (key : String) : Option (List UInt8) → Prop
  | none => v.get key = none
  | some bytes => TextMember v key bytes

/-- The member `key`, if there is one, names the verification level. -/
def LevelMember (v : Value) (key : String) (level : VerificationLevel) : Prop :=
  ∀ x, v.get key = some x →
    ∃ s, x = .string s ∧ VerificationLevel.ofName (toLowercase s) = some level

/-- The members of an array of texts. -/
def TextsMember (v : Value) (key : String) (items : List (List UInt8)) : Prop :=
  ∃ texts : List String,
    v.get key = some (.array (texts.map Value.string)) ∧ items = texts.map utf8

/-- **Every argument of the call equals the payload's member of that name.** -/
def RuntimeCall.Carries {A : Type} (accountFromStr : String → Except String A) (v : Value) :
    RuntimeCall A → Prop
  | .registerAgent did capabilities metadata attestation verification =>
      TextMember v "did" did ∧ TextsMember v "capabilities" capabilities ∧
      OptionalText v "metadata" metadata ∧ OptionalText v "attestation" attestation ∧
      LevelMember v "verification_level" verification
  | .createTask specHash budget deadline verification =>
      hexTo32 (v.get "spec_hash") = .ok specHash ∧ IntMember v "budget" budget ∧
      IntMember v "deadline" deadline.toNat ∧ LevelMember v "verification_level" verification
  | .submitBid taskId agentId commitment estimatedDuration =>
      IntMember v "task_id" taskId.toNat ∧ IntMember v "agent_id" agentId.toNat ∧
      hexTo32 (v.get "commitment") = .ok commitment ∧
      IntMember v "estimated_duration" estimatedDuration.toNat
  | .revealBid taskId agentId cost nonce =>
      IntMember v "task_id" taskId.toNat ∧ IntMember v "agent_id" agentId.toNat ∧
      IntMember v "cost" cost ∧ hexTo32 (v.get "nonce") = .ok nonce
  | .allocateTask taskId => IntMember v "task_id" taskId.toNat
  | .submitResult taskId agentId resultHash proof =>
      IntMember v "task_id" taskId.toNat ∧ IntMember v "agent_id" agentId.toNat ∧
      hexTo32 (v.get "result_hash") = .ok resultHash ∧
      (v.get "proof" = none ∧ proof = [] ∨ TextMember v "proof" proof)
  | .transferAllowDeath dest amount =>
      (∃ s, v.get "address" = some (.string s) ∧ accountFromStr s = .ok dest) ∧
      IntMember v "amount" amount

/-! ## The condition -/

/-- The member `key` is an integer from `0` to `max`. -/
def BoundedMember (v : Value) (key : String) (max : UInt64) : Prop :=
  ∃ n : UInt64, v.get key = some (.number (.posInt n)) ∧ n ≤ max

/-- The member `key` is a text, if there is one. -/
def TextOrAbsent (v : Value) (key : String) : Prop :=
  ∀ x, v.get key = some x → ∃ s, x = .string s

/-- **The accepted payloads that are submitted as they read.** -/
def Submittable {A : Type} (accountFromStr : String → Except String A) (v : Value) :
    OutboxCall → Prop
  | .registerAgent =>
      TextOrAbsent v "metadata" ∧ TextOrAbsent v "attestation" ∧
      TextOrAbsent v "verification_level"
  | .createTask =>
      BoundedMember v "budget" u64Max ∧ BoundedMember v "deadline" u32Max ∧
      TextOrAbsent v "verification_level"
  | .submitBid =>
      BoundedMember v "task_id" u64Max ∧ BoundedMember v "agent_id" u64Max ∧
      BoundedMember v "estimated_duration" u32Max
  | .revealBid =>
      BoundedMember v "task_id" u64Max ∧ BoundedMember v "agent_id" u64Max ∧
      BoundedMember v "cost" u64Max
  | .allocateTask => BoundedMember v "task_id" u64Max
  | .submitResult =>
      BoundedMember v "task_id" u64Max ∧ BoundedMember v "agent_id" u64Max ∧
      TextOrAbsent v "proof"
  | .transferAllowDeath =>
      ∀ s, v.get "address" = some (.string s) → ∃ a, accountFromStr s = .ok a

/-! ## Reading a member -/

theorem asU64_member {v : Value} {key : String} {n : UInt64} :
    (v.get key).bind Value.asU64 = some n ↔ v.get key = some (.number (.posInt n)) := by
  rw [Option.bind_eq_some_iff]
  constructor
  · rintro ⟨x, hx, hn⟩
    rw [hx, Value.asU64_eq_some.mp hn]
  · intro h
    exact ⟨_, h, rfl⟩

theorem asStr_member {v : Value} {key : String} {s : String} :
    (v.get key).bind Value.asStr = some s ↔ v.get key = some (.string s) := by
  rw [Option.bind_eq_some_iff]
  constructor
  · rintro ⟨x, hx, hs⟩
    rw [hx, Value.asStr_eq_some.mp hs]
  · intro h
    exact ⟨_, h, rfl⟩

theorem intMember_posInt {v : Value} {key : String} {n : UInt64} {k : Nat}
    (h : v.get key = some (.number (.posInt n))) : IntMember v key k ↔ n.toNat = k := by
  rw [IntMember, h]
  show some (n.toNat : Int) = some (k : Int) ↔ _
  rw [Option.some.injEq]
  omega

theorem le_u64Max (n : UInt64) : n ≤ u64Max := by
  have h := n.toNat_lt
  have hmax : u64Max.toNat = 2 ^ 64 - 1 := rfl
  rw [UInt64.le_iff_toNat_le, hmax]
  omega

/-- `as u32` keeps a number exactly when it fits. -/
theorem toUInt32_toNat_eq_iff (n : UInt64) : n.toNat = n.toUInt32.toNat ↔ n ≤ u32Max := by
  have hmax : u32Max.toNat = 2 ^ 32 - 1 := rfl
  rw [UInt64.le_iff_toNat_le, hmax, UInt64.toNat_toUInt32]
  omega

/-- A `u64` argument is read from the payload exactly when its member is an integer. -/
theorem u64_argument {v : Value} {key : String} :
    (∃ n, (v.get key).bind Value.asU64 = some n ∧ IntMember v key n.toNat)
      ↔ BoundedMember v key u64Max := by
  constructor
  · rintro ⟨n, hn, -⟩
    exact ⟨n, asU64_member.mp hn, le_u64Max n⟩
  · rintro ⟨n, hn, -⟩
    exact ⟨n, asU64_member.mpr hn, (intMember_posInt hn).mpr rfl⟩

/-- A `u32` argument is read from the payload exactly when its member fits. -/
theorem u32_argument {v : Value} {key : String} :
    (∃ n, (v.get key).bind Value.asU64 = some n ∧ IntMember v key n.toUInt32.toNat)
      ↔ BoundedMember v key u32Max := by
  constructor
  · rintro ⟨n, hn, hm⟩
    have hget := asU64_member.mp hn
    exact ⟨n, hget, (toUInt32_toNat_eq_iff n).mp ((intMember_posInt hget).mp hm)⟩
  · rintro ⟨n, hn, hle⟩
    exact ⟨n, asU64_member.mpr hn,
      (intMember_posInt hn).mpr ((toUInt32_toNat_eq_iff n).mpr hle)⟩

/-- An optional text argument is the member's text exactly when the member is a text or missing. -/
theorem optionalText_argument {v : Value} {key : String} :
    OptionalText v key (textBytes (v.get key)) ↔ TextOrAbsent v key := by
  cases hget : v.get key with
  | none =>
      refine ⟨fun _ x hx => ?_, fun _ => hget⟩
      rw [hget] at hx
      cases hx
  | some x =>
      constructor
      · intro h y hy
        rw [hget] at hy
        obtain rfl : x = y := Option.some.inj hy
        cases hs : x.asStr with
        | none =>
            have hnone : v.get key = none := by simpa [textBytes, hs, OptionalText] using h
            rw [hget] at hnone
            cases hnone
        | some s => exact ⟨s, Value.asStr_eq_some.mp hs⟩
      · intro h
        obtain ⟨s, rfl⟩ := h x hget
        exact ⟨s, hget, rfl⟩

/-- The level that was parsed is the one named exactly when the member is a text or missing. -/
theorem levelMember_argument {v : Value} {key : String} {level : VerificationLevel}
    (h : parseVerification (v.get key) = .ok level) :
    LevelMember v key level ↔ TextOrAbsent v key := by
  constructor
  · intro hl x hx
    obtain ⟨s, hs, -⟩ := hl x hx
    exact ⟨s, hs⟩
  · intro ht x hx
    obtain ⟨s, rfl⟩ := ht x hx
    refine ⟨s, rfl, ?_⟩
    rw [hx] at h
    exact okOr_eq_ok.mp h

/-- The capabilities that pass the check are texts, and their bytes are what is submitted. -/
theorem checkCapabilities_texts {caps : List Value} (h : checkCapabilities caps = .ok ()) :
    ∃ texts : List String,
      caps = texts.map Value.string ∧ caps.map (fun c => utf8 (c.asStr.getD "")) = texts.map utf8 := by
  induction caps with
  | nil => exact ⟨[], rfl, rfl⟩
  | cons c caps ih =>
      rw [checkCapabilities] at h
      cases hs : c.asStr with
      | none => simp [hs] at h
      | some s =>
          simp only [hs] at h
          split at h
          · cases h
          · obtain ⟨texts, htexts, hbytes⟩ := ih h
            refine ⟨s :: texts, ?_, ?_⟩
            · rw [List.map_cons, Value.asStr_eq_some.mp hs, htexts]
            · rw [List.map_cons, List.map_cons, hbytes, hs, Option.getD_some]

theorem getStr_eq_ok {val : Option Value} {key : String} {maxLen : Nat} {s : String}
    (h : getStr val key maxLen = .ok s) : val.bind Value.asStr = some s := by
  rw [getStr, bind_eq_ok] at h
  obtain ⟨t, ht, h⟩ := h
  split at h
  · cases h
  · obtain rfl : t = s := Except.ok.inj h
    exact okOr_eq_ok.mp ht

/-! ## The calls, one by one

In each lemma the hypothesis is that `decode_payload` accepts, and the conclusion that a call is
built and carries the payload exactly where `Submittable` says so. -/

section Calls

variable {A : Type} {accountFromStr : String → Except String A} {v : Value}

theorem registerAgent_carries_iff (h : decodeRegisterAgent v = .ok ()) :
    (∃ c : RuntimeCall A, buildRegisterAgent v = .ok c ∧ c.Carries accountFromStr v)
      ↔ Submittable accountFromStr v .registerAgent := by
  simp only [decodeRegisterAgent, bind_eq_ok] at h
  obtain ⟨did, hdid, caps, hcaps, _, hcheck, _, -, level, hlevel, -⟩ := h
  have hdid' := asStr_member.mp (getStr_eq_ok hdid)
  have hcaps' := okOr_eq_ok.mp hcaps
  obtain ⟨texts, htexts, hbytes⟩ := checkCapabilities_texts hcheck
  have hbuild : buildRegisterAgent v = .ok (.registerAgent (utf8 did) (texts.map utf8)
      (textBytes (v.get "metadata")) (textBytes (v.get "attestation")) level
      : RuntimeCall A) := by
    simp only [buildRegisterAgent, asStr_member.mpr hdid', hcaps', hlevel, okOr_some, ← hbytes]
    rfl
  have harr : v.get "capabilities" = some (.array (texts.map Value.string)) := by
    obtain ⟨x, hx, harr⟩ := Option.bind_eq_some_iff.mp hcaps'
    rw [hx, Value.asArray_eq_some.mp harr, htexts]
  simp only [hbuild, Except.ok.injEq, exists_eq_left', RuntimeCall.Carries, Submittable,
    optionalText_argument, levelMember_argument hlevel]
  exact ⟨fun ⟨_, _, hrest⟩ => hrest, fun hrest => ⟨⟨did, hdid', rfl⟩, ⟨texts, harr, rfl⟩, hrest⟩⟩

theorem createTask_carries_iff (h : decodeCreateTask v = .ok ()) :
    (∃ c : RuntimeCall A, buildCreateTask v = .ok c ∧ c.Carries accountFromStr v)
      ↔ Submittable accountFromStr v .createTask := by
  simp only [decodeCreateTask, bind_eq_ok] at h
  obtain ⟨hash, hhash, level, hlevel, -⟩ := h
  simp only [Submittable, ← u64_argument, ← u32_argument, ← levelMember_argument hlevel]
  constructor
  · rintro ⟨c, hbuild, hcarries⟩
    simp only [buildCreateTask, bind_eq_ok, okOr_eq_ok, hhash, hlevel, Except.ok.injEq,
      exists_eq_left', pure_eq_ok] at hbuild
    obtain ⟨budget, hbudget, deadline, hdeadline, rfl⟩ := hbuild
    obtain ⟨-, hb, hd, hl⟩ := hcarries
    exact ⟨⟨budget, hbudget, hb⟩, ⟨deadline, hdeadline, hd⟩, hl⟩
  · rintro ⟨⟨budget, hbudget, hb⟩, ⟨deadline, hdeadline, hd⟩, hl⟩
    refine ⟨.createTask hash budget.toNat deadline.toUInt32 level, ?_, hhash, hb, hd, hl⟩
    simp only [buildCreateTask, hhash, hbudget, hdeadline, hlevel, okOr_some]
    rfl

theorem submitBid_carries_iff (h : decodeSubmitBid v = .ok ()) :
    (∃ c : RuntimeCall A, buildSubmitBid v = .ok c ∧ c.Carries accountFromStr v)
      ↔ Submittable accountFromStr v .submitBid := by
  simp only [decodeSubmitBid, bind_eq_ok] at h
  obtain ⟨commitment, hcommitment, -⟩ := h
  simp only [Submittable, ← u64_argument, ← u32_argument]
  constructor
  · rintro ⟨c, hbuild, hcarries⟩
    simp only [buildSubmitBid, bind_eq_ok, okOr_eq_ok, hcommitment, Except.ok.injEq,
      exists_eq_left', pure_eq_ok] at hbuild
    obtain ⟨taskId, htask, agentId, hagent, duration, hduration, rfl⟩ := hbuild
    obtain ⟨ht, ha, -, hd⟩ := hcarries
    exact ⟨⟨taskId, htask, ht⟩, ⟨agentId, hagent, ha⟩, ⟨duration, hduration, hd⟩⟩
  · rintro ⟨⟨taskId, htask, ht⟩, ⟨agentId, hagent, ha⟩, ⟨duration, hduration, hd⟩⟩
    refine ⟨.submitBid taskId agentId commitment duration.toUInt32, ?_, ht, ha, hcommitment, hd⟩
    simp only [buildSubmitBid, htask, hagent, hcommitment, hduration, okOr_some]
    rfl

theorem revealBid_carries_iff (h : decodeRevealBid v = .ok ()) :
    (∃ c : RuntimeCall A, buildRevealBid v = .ok c ∧ c.Carries accountFromStr v)
      ↔ Submittable accountFromStr v .revealBid := by
  simp only [decodeRevealBid, bind_eq_ok] at h
  obtain ⟨nonce, hnonce, -⟩ := h
  simp only [Submittable, ← u64_argument]
  constructor
  · rintro ⟨c, hbuild, hcarries⟩
    simp only [buildRevealBid, bind_eq_ok, okOr_eq_ok, hnonce, Except.ok.injEq,
      exists_eq_left', pure_eq_ok] at hbuild
    obtain ⟨taskId, htask, agentId, hagent, cost, hcost, rfl⟩ := hbuild
    obtain ⟨ht, ha, hc, -⟩ := hcarries
    exact ⟨⟨taskId, htask, ht⟩, ⟨agentId, hagent, ha⟩, ⟨cost, hcost, hc⟩⟩
  · rintro ⟨⟨taskId, htask, ht⟩, ⟨agentId, hagent, ha⟩, ⟨cost, hcost, hc⟩⟩
    refine ⟨.revealBid taskId agentId cost.toNat nonce, ?_, ht, ha, hc, hnonce⟩
    simp only [buildRevealBid, htask, hagent, hcost, hnonce, okOr_some]
    rfl

theorem allocateTask_carries_iff :
    (∃ c : RuntimeCall A, buildAllocateTask v = .ok c ∧ c.Carries accountFromStr v)
      ↔ Submittable accountFromStr v .allocateTask := by
  simp only [Submittable, ← u64_argument]
  constructor
  · rintro ⟨c, hbuild, hcarries⟩
    simp only [buildAllocateTask, bind_eq_ok, okOr_eq_ok, pure_eq_ok] at hbuild
    obtain ⟨taskId, htask, rfl⟩ := hbuild
    exact ⟨taskId, htask, hcarries⟩
  · rintro ⟨taskId, htask, ht⟩
    refine ⟨.allocateTask taskId, ?_, ht⟩
    simp only [buildAllocateTask, htask, okOr_some]
    rfl

/-- The proof that is submitted is the member's text, or empty where there is no member. -/
theorem proof_argument {key : String} :
    (v.get key = none ∧ (textBytes (v.get key)).getD [] = [] ∨
        TextMember v key ((textBytes (v.get key)).getD [])) ↔ TextOrAbsent v key := by
  cases hget : v.get key with
  | none =>
      refine ⟨fun _ x hx => ?_, fun _ => Or.inl ⟨rfl, rfl⟩⟩
      rw [hget] at hx
      cases hx
  | some x =>
      constructor
      · rintro (⟨hnone, -⟩ | ⟨s, hs, -⟩) y hy
        · cases hnone
        · rw [hs] at hy
          exact ⟨s, (Option.some.inj hy).symm⟩
      · intro h
        obtain ⟨s, rfl⟩ := h x hget
        exact Or.inr ⟨s, hget, rfl⟩

theorem submitResult_carries_iff (h : decodeSubmitResult v = .ok ()) :
    (∃ c : RuntimeCall A, buildSubmitResult v = .ok c ∧ c.Carries accountFromStr v)
      ↔ Submittable accountFromStr v .submitResult := by
  simp only [decodeSubmitResult, bind_eq_ok] at h
  obtain ⟨hash, hhash, -⟩ := h
  simp only [Submittable, ← u64_argument, ← proof_argument]
  constructor
  · rintro ⟨c, hbuild, hcarries⟩
    simp only [buildSubmitResult, bind_eq_ok, okOr_eq_ok, hhash, Except.ok.injEq,
      exists_eq_left', pure_eq_ok] at hbuild
    obtain ⟨taskId, htask, agentId, hagent, rfl⟩ := hbuild
    obtain ⟨ht, ha, -, hp⟩ := hcarries
    exact ⟨⟨taskId, htask, ht⟩, ⟨agentId, hagent, ha⟩, hp⟩
  · rintro ⟨⟨taskId, htask, ht⟩, ⟨agentId, hagent, ha⟩, hp⟩
    refine ⟨.submitResult taskId agentId hash ((textBytes (v.get "proof")).getD []), ?_, ht, ha,
      hhash, hp⟩
    simp only [buildSubmitResult, htask, hagent, hhash, okOr_some]
    rfl

theorem transfer_carries_iff (h : decodeTransfer v = .ok ()) :
    (∃ c : RuntimeCall A, buildTransfer accountFromStr v = .ok c ∧ c.Carries accountFromStr v)
      ↔ Submittable accountFromStr v .transferAllowDeath := by
  simp only [decodeTransfer, bind_eq_ok, okOr_eq_ok] at h
  obtain ⟨address, haddress, amount, hamount, -⟩ := h
  have hget := asStr_member.mp (getStr_eq_ok haddress)
  have hbind := asStr_member.mpr hget
  constructor
  · rintro ⟨c, hbuild, -⟩ s hs
    simp only [buildTransfer, bind_eq_ok, okOr_eq_ok, mapError_eq_ok] at hbuild
    obtain ⟨dest, hdest, account, haccount, -⟩ := hbuild
    obtain rfl : s = dest := by simpa [hs] using asStr_member.mp hdest
    exact ⟨account, haccount⟩
  · intro hsub
    obtain ⟨a, ha⟩ := hsub address hget
    refine ⟨.transferAllowDeath a amount.toNat, ?_, ⟨address, hget, ha⟩,
      (intMember_posInt (asU64_member.mp hamount)).mpr rfl⟩
    simp only [buildTransfer, hbind, hamount, okOr_some, ok_bind, ha, mapError_ok]
    rfl

end Calls

/-! ## Validation and submission -/

/-- **Validation and submission agree on the submittable payloads, and on no other accepted
one.** -/
theorem validated_carries_iff {A : Type} (accountFromStr : String → Except String A)
    (serde : SerdeJson) (pallet call : String) (payload : Option String)
    (haccept : decodePayload serde pallet call payload = .ok ()) :
    (∃ v c, payloadVal serde payload = .ok v ∧
        buildExtrinsic accountFromStr serde pallet call payload = .ok c ∧
        c.Carries accountFromStr v)
      ↔ ∃ v kind, payloadVal serde payload = .ok v ∧ OutboxCall.parse pallet call = some kind ∧
          Submittable accountFromStr v kind := by
  obtain ⟨v, hv, hdecode⟩ := bind_eq_ok.mp haccept
  have hbuild : buildExtrinsic accountFromStr serde pallet call payload
      = buildValue accountFromStr pallet call v := by
    simp only [buildExtrinsic, hv, haccept]
    rfl
  have key : ∀ kind, OutboxCall.parse pallet call = some kind →
      ((∃ c, buildValue accountFromStr pallet call v = .ok c ∧ c.Carries accountFromStr v)
        ↔ Submittable accountFromStr v kind) := by
    intro kind hkind
    simp only [decodeValue, hkind] at hdecode
    simp only [buildValue, hkind]
    cases kind with
    | registerAgent => exact registerAgent_carries_iff hdecode
    | createTask => exact createTask_carries_iff hdecode
    | submitBid => exact submitBid_carries_iff hdecode
    | revealBid => exact revealBid_carries_iff hdecode
    | allocateTask => exact allocateTask_carries_iff
    | submitResult => exact submitResult_carries_iff hdecode
    | transferAllowDeath => exact transfer_carries_iff hdecode
  simp only [hbuild, hv, Except.ok.injEq, exists_and_left, exists_eq_left']
  cases hkind : OutboxCall.parse pallet call with
  | none => simp [decodeValue, hkind] at hdecode
  | some kind => simpa using key kind hkind

/-- A payload for the chain task `3`. -/
def taskThree : Value := .object [("task_id", .number (.posInt 3))]

/-- `allocate_task` for the chain task `3` is accepted and submitted as it reads. -/
theorem allocateTask_three_carries :
    ∃ v c, payloadVal (.onValues [taskThree]) (some "\x7b\"task_id\":3\x7d") = .ok v ∧
      buildExtrinsic (A := String) Except.ok (.onValues [taskThree]) "TaskMarket" "allocate_task"
        (some "\x7b\"task_id\":3\x7d") = .ok c ∧
      c.Carries Except.ok v :=
  (validated_carries_iff Except.ok _ "TaskMarket" "allocate_task" _ rfl).mpr
    ⟨taskThree, .allocateTask, rfl, rfl, 3, rfl, by decide⟩

/-- A `create_task` payload that names a specification and nothing else. -/
def noBudget : Value :=
  .object [("spec_hash",
    .string "0x0000000000000000000000000000000000000000000000000000000000000000")]

def noBudgetText : String := noBudget.render "," ":"

/-- **The payload without a budget is accepted, and its submission fails.** -/
theorem createTask_without_budget :
    ¬ (decodePayload (.onValues [noBudget]) "TaskMarket" "create_task" (some noBudgetText)
          = .ok () →
        ∃ v c, payloadVal (.onValues [noBudget]) (some noBudgetText) = .ok v ∧
          buildExtrinsic (A := String) Except.ok (.onValues [noBudget])
            "TaskMarket" "create_task" (some noBudgetText) = .ok c ∧
          c.Carries Except.ok v) := by
  intro h
  obtain ⟨v, c, -, hbuild, -⟩ := h rfl
  have herr : buildExtrinsic (A := String) Except.ok (.onValues [noBudget])
      "TaskMarket" "create_task" (some noBudgetText) = .error "missing budget" := rfl
  rw [herr] at hbuild
  cases hbuild

end Ainur
