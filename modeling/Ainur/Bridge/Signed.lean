import Mathlib.Algebra.Group.Int.Defs
import Mathlib.Data.List.Induction
import Ainur.Bridge.Placeholders
import Ainur.Outbox.Commits

set_option autoImplicit false

/-! # What is signed is what was enqueued

Between the request that enqueues a row and the submission that signs it, the payload of the row is
read by `serde_json`, cast to `jsonb` by Postgres, changed by a patch and written out again, any
number of times. A reader of single members does not notice: every member reads as it did when the
row was enqueued, and a member that held the placeholder `0` reads as it did or as a chain id that
was patched in. So the call that a worker signs is the call that was enqueued, up to those ids, and
a payload that could be signed never becomes one that cannot.
-/

namespace Ainur.Signed

open Outbox

/-! ## Members that read alike -/

/-- What the decoders can tell of the member `key`: the one value has all that the other has. -/
structure SameAt (v w : Value) (key : String) : Prop where
  str : (w.get key).bind Value.asStr = (v.get key).bind Value.asStr
  num : ∀ n, (v.get key).bind Value.asU64 = some n → (w.get key).bind Value.asU64 = some n
  items : ((w.get key).bind Value.asArray).map (·.map Value.asStr) =
    ((v.get key).bind Value.asArray).map (·.map Value.asStr)

theorem SameAt.refl (v : Value) (key : String) : SameAt v v key := ⟨rfl, fun _ h => h, rfl⟩

theorem SameAt.trans {u v w : Value} {key : String} (huv : SameAt u v key)
    (hvw : SameAt v w key) : SameAt u w key where
  str := hvw.str.trans huv.str
  num n hn := hvw.num n (huv.num n hn)
  items := hvw.items.trans huv.items

theorem SameAt.of_get {v w : Value} {key : String} (h : w.get key = v.get key) :
    SameAt v w key where
  str := by rw [h]
  num n hn := by rw [h]; exact hn
  items := by rw [h]

/-- The payload `v` as it was enqueued and `w` as it is, after some of these ids were patched in. -/
structure SameBut (ids : List (IdMember × Int)) (v w : Value) : Prop where
  other : ∀ key, (∀ m : IdMember, key ≠ m.name) → SameAt v w key
  member : ∀ m n, (v.get m.name).bind Value.asU64 = some n →
    ∃ n', (w.get m.name).bind Value.asU64 = some n' ∧
      (n' = n ∨ n = 0 ∧ (m, (n'.toNat : Int)) ∈ ids)

theorem SameBut.refl (ids : List (IdMember × Int)) (v : Value) : SameBut ids v v where
  other key _ := .refl v key
  member _ n hn := ⟨n, hn, Or.inl rfl⟩

theorem SameBut.mono {ids ids' : List (IdMember × Int)} {v w : Value} (h : SameBut ids v w)
    (hsub : ids ⊆ ids') : SameBut ids' v w where
  other := h.other
  member m n hn := by
    obtain ⟨n', hn', hid⟩ := h.member m n hn
    exact ⟨n', hn', hid.imp id fun hid => ⟨hid.1, hsub hid.2⟩⟩

/-- What a reader of all members does not notice. -/
theorem SameBut.same {ids : List (IdMember × Int)} {u v w : Value} (h : SameBut ids u v)
    (hvw : ∀ key, SameAt v w key) : SameBut ids u w where
  other key hkey := (h.other key hkey).trans (hvw key)
  member m n hn := by
    obtain ⟨n', hn', hid⟩ := h.member m n hn
    exact ⟨n', (hvw m.name).num n' hn', hid⟩

/-! ## The two decoders on members that read alike -/

section Decoders

variable {v w : Value} {key : String}

theorem hexTo32_congr (h : SameAt v w key) : hexTo32 (w.get key) = hexTo32 (v.get key) := by
  unfold hexTo32
  rw [h.str]

theorem parseVerification_congr (h : SameAt v w key) :
    parseVerification (w.get key) = parseVerification (v.get key) := by
  unfold parseVerification
  rw [h.str]

theorem getStr_congr (h : SameAt v w key) (name : String) (maxLen : Nat) :
    getStr (w.get key) name maxLen = getStr (v.get key) name maxLen := by
  unfold getStr
  rw [h.str]

theorem checkOptionalText_congr (h : SameAt v w key) (maxLen : Nat) (err : String) :
    checkOptionalText (w.get key) maxLen err = checkOptionalText (v.get key) maxLen err := by
  unfold checkOptionalText
  rw [h.str]

theorem textBytes_congr (h : SameAt v w key) : textBytes (w.get key) = textBytes (v.get key) := by
  unfold textBytes
  rw [h.str]

/-- The loop over the capabilities looks at their texts only. -/
theorem checkCapabilities_congr : ∀ {xs ys : List Value},
    ys.map Value.asStr = xs.map Value.asStr → checkCapabilities ys = checkCapabilities xs := by
  intro xs
  induction xs with
  | nil =>
      intro ys h
      rw [List.map_eq_nil_iff.mp h]
  | cons x xs ih =>
      intro ys h
      obtain ⟨y, rest, rfl, hy, hrest⟩ := List.map_eq_cons_iff.mp h
      rw [checkCapabilities, checkCapabilities, hy, ih hrest]

/-- An array of texts, or none. -/
theorem items_cases (h : SameAt v w key) :
    ((v.get key).bind Value.asArray = none ∧ (w.get key).bind Value.asArray = none) ∨
      ∃ xs ys, (v.get key).bind Value.asArray = some xs ∧
        (w.get key).bind Value.asArray = some ys ∧ ys.map Value.asStr = xs.map Value.asStr := by
  have hitems := h.items
  cases hv : (v.get key).bind Value.asArray with
  | none =>
      rw [hv, Option.map_none, Option.map_eq_none_iff] at hitems
      exact Or.inl ⟨rfl, hitems⟩
  | some xs =>
      rw [hv, Option.map_some, Option.map_eq_some_iff] at hitems
      obtain ⟨ys, hys, heq⟩ := hitems
      exact Or.inr ⟨xs, ys, rfl, hys, heq⟩

end Decoders

section Payloads

variable {ids : List (IdMember × Int)} {v w : Value}

theorem SameBut.at (h : SameBut ids v w) {key : String} (htask : key ≠ "task_id")
    (hagent : key ≠ "agent_id") : SameAt v w key := by
  refine h.other key fun m => ?_
  cases m with
  | taskId => exact htask
  | agentId => exact hagent

theorem decodeRegisterAgent_congr (h : SameBut ids v w) :
    decodeRegisterAgent w = decodeRegisterAgent v := by
  have hdid : SameAt v w "did" := h.at (by decide) (by decide)
  have hcaps : SameAt v w "capabilities" := h.at (by decide) (by decide)
  have hmeta : SameAt v w "metadata" := h.at (by decide) (by decide)
  have hlevel : SameAt v w "verification_level" := h.at (by decide) (by decide)
  unfold decodeRegisterAgent
  rw [getStr_congr hdid, checkOptionalText_congr hmeta, parseVerification_congr hlevel]
  rcases items_cases hcaps with ⟨hv, hw⟩ | ⟨xs, ys, hv, hw, heq⟩
  · rw [hv, hw]
  · rw [hv, hw]
    cases getStr (v.get "did") "did" 128 with
    | error e => rfl
    | ok did =>
        show (checkCapabilities ys >>= _) = (checkCapabilities xs >>= _)
        rw [checkCapabilities_congr heq]

/-- **The check passes again.** A payload that was accepted when its row was enqueued is accepted as
it is now. -/
theorem decodeValue_keeps (h : SameBut ids v w) {pallet call : String}
    (hok : decodeValue pallet call v = .ok ()) : decodeValue pallet call w = .ok () := by
  unfold decodeValue at hok ⊢
  cases hcall : OutboxCall.parse pallet call with
  | none =>
      rw [hcall] at hok
      cases hok
  | some c =>
      rw [hcall] at hok
      cases c with
      | registerAgent => exact (decodeRegisterAgent_congr h).trans hok
      | createTask =>
          have hhash : SameAt v w "spec_hash" := h.at (by decide) (by decide)
          have hlevel : SameAt v w "verification_level" := h.at (by decide) (by decide)
          unfold decodeCreateTask at hok ⊢
          rw [hexTo32_congr hhash, parseVerification_congr hlevel]
          exact hok
      | submitBid =>
          have hhash : SameAt v w "commitment" := h.at (by decide) (by decide)
          unfold decodeSubmitBid at hok ⊢
          rw [hexTo32_congr hhash]
          exact hok
      | revealBid =>
          have hhash : SameAt v w "nonce" := h.at (by decide) (by decide)
          unfold decodeRevealBid at hok ⊢
          rw [hexTo32_congr hhash]
          exact hok
      | allocateTask => rfl
      | submitResult =>
          have hhash : SameAt v w "result_hash" := h.at (by decide) (by decide)
          have hproof : SameAt v w "proof" := h.at (by decide) (by decide)
          unfold decodeSubmitResult at hok ⊢
          rw [hexTo32_congr hhash, checkOptionalText_congr hproof]
          exact hok
      | transferAllowDeath =>
          have haddress : SameAt v w "address" := h.at (by decide) (by decide)
          have hamount : SameAt v w "amount" := h.at (by decide) (by decide)
          unfold decodeTransfer at hok ⊢
          rw [getStr_congr haddress]
          obtain ⟨address, haddr, hok⟩ := Fallible.bind_eq_ok.mp hok
          obtain ⟨amount, hread, -⟩ := Fallible.bind_eq_ok.mp hok
          refine Fallible.bind_eq_ok.mpr ⟨address, haddr, Fallible.bind_eq_ok.mpr ⟨amount, ?_, rfl⟩⟩
          exact Fallible.okOr_eq_ok.mpr (hamount.num amount (Fallible.okOr_eq_ok.mp hread))

end Payloads

/-! ## The calls that are signed -/

section Calls

variable {A : Type} {accountFromStr : String → Except String A}
variable {ids : List (IdMember × Int)} {v w : Value}

/-- The argument that a placeholder member stands for. -/
def idArgument (m : IdMember) : RuntimeCall A → Option UInt64
  | .submitBid taskId agentId _ _ | .revealBid taskId agentId _ _
  | .submitResult taskId agentId _ _ =>
      match m with
      | .taskId => some taskId
      | .agentId => some agentId
  | .allocateTask taskId =>
      match m with
      | .taskId => some taskId
      | .agentId => none
  | .registerAgent .. | .createTask .. | .transferAllowDeath .. => none

/-- The call with `0` for its ids. -/
def withoutIds : RuntimeCall A → RuntimeCall A
  | .submitBid _ _ commitment duration => .submitBid 0 0 commitment duration
  | .revealBid _ _ cost nonce => .revealBid 0 0 cost nonce
  | .allocateTask _ => .allocateTask 0
  | .submitResult _ _ resultHash proof => .submitResult 0 0 resultHash proof
  | c => c

/-- The call `c` is the call `c₀` with some of these ids in place of its placeholders. -/
structure SignsAs (ids : List (IdMember × Int)) (c₀ c : RuntimeCall A) : Prop where
  arguments : withoutIds c = withoutIds c₀
  idArguments : ∀ m n, idArgument m c = some n →
    idArgument m c₀ = some n ∨ idArgument m c₀ = some 0 ∧ (m, (n.toNat : Int)) ∈ ids

theorem SignsAs.refl (ids : List (IdMember × Int)) (c : RuntimeCall A) : SignsAs ids c c :=
  ⟨rfl, fun _ _ h => Or.inl h⟩

/-- A number that the one payload has. -/
theorem okOr_num {key err : String} {n : UInt64} (h : SameAt v w key)
    (hok : Fallible.okOr ((v.get key).bind Value.asU64) err = .ok n) :
    Fallible.okOr ((w.get key).bind Value.asU64) err = .ok n :=
  Fallible.okOr_eq_ok.mpr (h.num n (Fallible.okOr_eq_ok.mp hok))

/-- An id that the one payload has. -/
theorem okOr_member (h : SameBut ids v w) (m : IdMember) {err : String} {n : UInt64}
    (hok : Fallible.okOr ((v.get m.name).bind Value.asU64) err = .ok n) :
    ∃ n', Fallible.okOr ((w.get m.name).bind Value.asU64) err = .ok n' ∧
      ∀ k, some n' = some k → some n = some k ∨ some n = some 0 ∧ (m, (k.toNat : Int)) ∈ ids := by
  obtain ⟨n', hn', hid⟩ := h.member m n (Fallible.okOr_eq_ok.mp hok)
  refine ⟨n', Fallible.okOr_eq_ok.mpr hn', ?_⟩
  rintro k hk
  obtain rfl := Option.some.inj hk
  rcases hid with rfl | ⟨rfl, hmem⟩
  · exact Or.inl rfl
  · exact Or.inr ⟨rfl, hmem⟩

theorem buildRegisterAgent_congr (h : SameBut ids v w) :
    (buildRegisterAgent w : Except String (RuntimeCall A)) = buildRegisterAgent v := by
  have hdid : SameAt v w "did" := h.at (by decide) (by decide)
  have hcaps : SameAt v w "capabilities" := h.at (by decide) (by decide)
  have hmeta : SameAt v w "metadata" := h.at (by decide) (by decide)
  have hattest : SameAt v w "attestation" := h.at (by decide) (by decide)
  have hlevel : SameAt v w "verification_level" := h.at (by decide) (by decide)
  unfold buildRegisterAgent
  rw [hdid.str, textBytes_congr hmeta, textBytes_congr hattest, parseVerification_congr hlevel]
  rcases items_cases hcaps with ⟨hv, hw⟩ | ⟨xs, ys, hv, hw, heq⟩
  · rw [hv, hw]
  · -- the bytes of the capabilities are those of their texts
    have hbytes : ys.map (fun c => utf8 (c.asStr.getD "")) =
        xs.map fun c => utf8 (c.asStr.getD "") := by
      calc ys.map (fun c => utf8 (c.asStr.getD ""))
          = (ys.map Value.asStr).map fun s => utf8 (s.getD "") := by simp
        _ = (xs.map Value.asStr).map fun s => utf8 (s.getD "") := by rw [heq]
        _ = xs.map fun c => utf8 (c.asStr.getD "") := by simp
    rw [hv, hw]
    simp only [Fallible.okOr_some, Fallible.ok_bind, hbytes]

/-- **The same call is built.** Where a call is built of the payload as it was enqueued, one is built
of the payload as it is, and it is the same up to ids that were patched in. -/
theorem buildValue_keeps (h : SameBut ids v w) {pallet call : String} {c₀ : RuntimeCall A}
    (hok : buildValue accountFromStr pallet call v = .ok c₀) :
    ∃ c, buildValue accountFromStr pallet call w = .ok c ∧ SignsAs ids c₀ c := by
  unfold buildValue at hok ⊢
  cases hcall : OutboxCall.parse pallet call with
  | none =>
      rw [hcall] at hok
      cases hok
  | some c =>
      rw [hcall] at hok
      cases c with
      | registerAgent =>
          -- a call without ids is the same call
          exact ⟨c₀, (buildRegisterAgent_congr h).trans hok, .refl ids c₀⟩
      | createTask =>
          have hhash : SameAt v w "spec_hash" := h.at (by decide) (by decide)
          have hlevel : SameAt v w "verification_level" := h.at (by decide) (by decide)
          obtain ⟨hash, hread, hok⟩ := Fallible.bind_eq_ok.mp hok
          obtain ⟨budget, hbudget, hok⟩ := Fallible.bind_eq_ok.mp hok
          obtain ⟨deadline, hdeadline, hok⟩ := Fallible.bind_eq_ok.mp hok
          refine ⟨c₀, ?_, .refl ids c₀⟩
          simp only [buildCreateTask]
          rw [hexTo32_congr hhash, hread, okOr_num (h.at (by decide) (by decide)) hbudget,
            okOr_num (h.at (by decide) (by decide)) hdeadline, parseVerification_congr hlevel]
          exact hok
      | submitBid =>
          have hhash : SameAt v w "commitment" := h.at (by decide) (by decide)
          obtain ⟨taskId, htask, hok⟩ := Fallible.bind_eq_ok.mp hok
          obtain ⟨agentId, hagent, hok⟩ := Fallible.bind_eq_ok.mp hok
          obtain ⟨hash, hread, hok⟩ := Fallible.bind_eq_ok.mp hok
          obtain ⟨duration, hduration, hok⟩ := Fallible.bind_eq_ok.mp hok
          obtain rfl := Fallible.pure_eq_ok.mp hok
          -- the ids are read from members that may have been patched, the rest from the same ones
          obtain ⟨taskId', htask', hids⟩ := okOr_member h .taskId htask
          obtain ⟨agentId', hagent', hids'⟩ := okOr_member h .agentId hagent
          refine ⟨.submitBid taskId' agentId' hash duration.toUInt32, ?_, rfl, fun m => ?_⟩
          · have hduration' := okOr_num (h.at (by decide) (by decide)) hduration
            exact Fallible.bind_eq_ok.mpr ⟨taskId', htask', Fallible.bind_eq_ok.mpr ⟨agentId', hagent',
              Fallible.bind_eq_ok.mpr ⟨hash, (hexTo32_congr hhash).trans hread,
                Fallible.bind_eq_ok.mpr ⟨duration, hduration', rfl⟩⟩⟩⟩
          · cases m with
            | taskId => exact hids
            | agentId => exact hids'
      | revealBid =>
          have hhash : SameAt v w "nonce" := h.at (by decide) (by decide)
          obtain ⟨taskId, htask, hok⟩ := Fallible.bind_eq_ok.mp hok
          obtain ⟨agentId, hagent, hok⟩ := Fallible.bind_eq_ok.mp hok
          obtain ⟨cost, hcost, hok⟩ := Fallible.bind_eq_ok.mp hok
          obtain ⟨nonce, hread, hok⟩ := Fallible.bind_eq_ok.mp hok
          obtain rfl := Fallible.pure_eq_ok.mp hok
          obtain ⟨taskId', htask', hids⟩ := okOr_member h .taskId htask
          obtain ⟨agentId', hagent', hids'⟩ := okOr_member h .agentId hagent
          refine ⟨.revealBid taskId' agentId' cost.toNat nonce, ?_, rfl, fun m => ?_⟩
          · have hcost' := okOr_num (h.at (by decide) (by decide)) hcost
            exact Fallible.bind_eq_ok.mpr ⟨taskId', htask', Fallible.bind_eq_ok.mpr ⟨agentId', hagent',
              Fallible.bind_eq_ok.mpr ⟨cost, hcost', Fallible.bind_eq_ok.mpr ⟨nonce,
                (hexTo32_congr hhash).trans hread, rfl⟩⟩⟩⟩
          · cases m with
            | taskId => exact hids
            | agentId => exact hids'
      | allocateTask =>
          obtain ⟨taskId, htask, hok⟩ := Fallible.bind_eq_ok.mp hok
          obtain rfl := Fallible.pure_eq_ok.mp hok
          obtain ⟨taskId', htask', hids⟩ := okOr_member h .taskId htask
          refine ⟨.allocateTask taskId', ?_, rfl, fun m => ?_⟩
          · exact Fallible.bind_eq_ok.mpr ⟨taskId', htask', rfl⟩
          · cases m with
            | taskId => exact hids
            | agentId =>
                intro n hn
                cases hn
      | submitResult =>
          have hhash : SameAt v w "result_hash" := h.at (by decide) (by decide)
          have hproof : SameAt v w "proof" := h.at (by decide) (by decide)
          obtain ⟨taskId, htask, hok⟩ := Fallible.bind_eq_ok.mp hok
          obtain ⟨agentId, hagent, hok⟩ := Fallible.bind_eq_ok.mp hok
          obtain ⟨hash, hread, hok⟩ := Fallible.bind_eq_ok.mp hok
          obtain rfl := Fallible.pure_eq_ok.mp hok
          obtain ⟨taskId', htask', hids⟩ := okOr_member h .taskId htask
          obtain ⟨agentId', hagent', hids'⟩ := okOr_member h .agentId hagent
          refine ⟨.submitResult taskId' agentId' hash ((textBytes (v.get "proof")).getD []), ?_, rfl,
            fun m => ?_⟩
          · rw [← textBytes_congr hproof]
            exact Fallible.bind_eq_ok.mpr ⟨taskId', htask', Fallible.bind_eq_ok.mpr ⟨agentId', hagent',
              Fallible.bind_eq_ok.mpr ⟨hash, (hexTo32_congr hhash).trans hread, rfl⟩⟩⟩
          · cases m with
            | taskId => exact hids
            | agentId => exact hids'
      | transferAllowDeath =>
          have haddress : SameAt v w "address" := h.at (by decide) (by decide)
          obtain ⟨dest, hdest, hok⟩ := Fallible.bind_eq_ok.mp hok
          obtain ⟨account, haccount, hok⟩ := Fallible.bind_eq_ok.mp hok
          obtain ⟨amount, hamount, hok⟩ := Fallible.bind_eq_ok.mp hok
          refine ⟨c₀, ?_, .refl ids c₀⟩
          simp only [buildTransfer]
          rw [haddress.str, hdest, Fallible.ok_bind, haccount, Fallible.ok_bind,
            okOr_num (h.at (by decide) (by decide)) hamount]
          exact hok

end Calls

/-! ## What Postgres makes of a payload -/

/-- Postgres and `serde_json` on the payloads in which these ids are written: a member of the text is
the same member of the `jsonb`, and a member of the `jsonb` is the same member of its text. The
payloads are among `texts`, and so are those that the patches write. -/
structure Transcribes (json : SerdeJson) (pg : Jsonb) (ids : List (IdMember × Int))
    (texts : String → Prop) : Prop where
  cast : ∀ text v w, texts text → json.fromStr text = .ok v → pg.cast text = some w →
    ∀ key, SameAt v w key
  text : ∀ text w, texts text → pg.cast text = some w → ∀ x ∈ ids,
    (w.get x.1.name).isSome = true →
    texts (pg.text (w.set x.1.name (.number (Number.ofI64 x.2)))) ∧
      ∃ v, json.fromStr (pg.text (w.set x.1.name (.number (Number.ofI64 x.2)))) = .ok v ∧
        ∀ key, SameAt (w.set x.1.name (.number (Number.ofI64 x.2))) v key
  /-- Only the number `0` casts to it. -/
  zero : ∀ n, pg.bigint (.number (.posInt n)) = some (some 0) → n = 0

/-- Chain ids are counted up from 0. -/
def CountedIds (ids : List (IdMember × Int)) : Prop := ∀ x ∈ ids, 0 ≤ x.2 ∧ x.2 < 2 ^ 63

section Patches

variable {json : SerdeJson} {pg : Jsonb} {ids : List (IdMember × Int)}
variable {texts : String → Prop} {m : IdMember} {n : Int} {payload payload₀ : Option String}

/-- Every call that the payload stood for when it was enqueued it stands for now. -/
structure Keeps (json : SerdeJson) (ids : List (IdMember × Int)) (texts : String → Prop)
    (payload₀ payload : Option String) : Prop where
  covered : ∀ text, payload = some text → texts text
  same : ∀ v, payloadVal json payload₀ = .ok v →
    ∃ w, payloadVal json payload = .ok w ∧ SameBut ids v w

theorem Keeps.refl (json : SerdeJson) (ids : List (IdMember × Int))
    (hcovered : ∀ text, payload = some text → texts text) :
    Keeps json ids texts payload payload :=
  ⟨hcovered, fun v hv => ⟨v, hv, .refl ids v⟩⟩

theorem payloadVal_some {text : String} {v : Value} :
    payloadVal json (some text) = .ok v ↔ json.fromStr text = .ok v :=
  Fallible.mapError_eq_ok

theorem holdsPlaceholder_true (h : holdsPlaceholder pg m payload = some true) :
    ∃ text w x, payload = some text ∧ pg.cast text = some w ∧ w.get m.name = some x ∧
      pg.bigint x = some (some 0) := by
  cases payload with
  | none => simp [holdsPlaceholder] at h
  | some text =>
      obtain ⟨w, hw, h⟩ := Option.bind_eq_some_iff.mp h
      cases hx : w.get m.name with
      | none => simp [hx] at h
      | some x =>
          rw [hx] at h
          obtain ⟨k, hk, h⟩ := Option.bind_eq_some_iff.mp h
          refine ⟨text, w, x, rfl, hw, hx, ?_⟩
          rw [hk, of_decide_eq_true (Option.some.inj h)]

/-- **One patch.** -/
theorem Keeps.patch (h : Keeps json ids texts payload₀ payload)
    (hpg : Transcribes json pg ids texts)
    (hcounted : CountedIds ids) (hmem : (m, n) ∈ ids)
    (hholds : holdsPlaceholder pg m payload = some true) :
    Keeps json ids texts payload₀ (setPlaceholder pg m n payload) := by
  obtain ⟨text, w, x, rfl, hw, hx, hzero⟩ := holdsPlaceholder_true hholds
  have hset : setPlaceholder pg m n (some text) =
      some (pg.text (w.set m.name (.number (Number.ofI64 n)))) := by
    simp [setPlaceholder, hw]
  have hsome : (w.get m.name).isSome = true := by rw [hx]; rfl
  have hcovered := h.covered text rfl
  obtain ⟨hcovered', v', hv', hread⟩ := hpg.text text w hcovered hw (m, n) hmem hsome
  refine ⟨fun text' htext' => ?_, fun v hv => ?_⟩
  · rw [hset] at htext'
    obtain rfl := Option.some.inj htext'
    exact hcovered'
  obtain ⟨u, hu, hsame⟩ := h.same v hv
  refine ⟨v', by rw [hset]; exact payloadVal_some.mpr hv', ?_⟩
  -- up to the member that is patched, nothing changes on the way
  have hcast := hpg.cast text u w hcovered (payloadVal_some.mp hu) hw
  have hkeep : ∀ key, key ≠ m.name → SameAt u v' key := by
    intro key hkey
    refine ((hcast key).trans (.of_get ?_)).trans (hread key)
    exact Value.get_set_ne _ hsome hkey
  refine ⟨fun key hkey => (hsame.other key hkey).trans (hkeep key (hkey m)), fun m' k hk => ?_⟩
  obtain ⟨k', hk', hid⟩ := hsame.member m' k hk
  by_cases hm : m' = m
  · subst hm
    -- the member was the number 0, in the row and when it was enqueued
    have hnum := (hcast m'.name).num k' hk'
    rw [hx, Option.bind_some, Value.asU64_eq_some] at hnum
    have hk0 : k' = 0 := by
      rw [hnum] at hzero
      exact hpg.zero k' hzero
    have hk : k = 0 := by
      rcases hid with hid | hid
      · exact hid.symm.trans hk0
      · exact hid.1
    obtain ⟨hnonneg, hbound⟩ := hcounted (m', n) hmem
    obtain ⟨i, rfl⟩ := Int.eq_ofNat_of_zero_le hnonneg
    have hi : (UInt64.ofNat i).toNat = i := by
      have hlt : (i : Int) < 2 ^ 63 := hbound
      rw [UInt64.toNat_ofNat']
      omega
    refine ⟨UInt64.ofNat i, (hread m'.name).num _ ?_, Or.inr ⟨hk, ?_⟩⟩
    · rw [Value.get_set_self _ hsome]
      rfl
    · rw [hi]
      exact hmem
  · have hname : m'.name ≠ m.name := by
      cases m <;> cases m' <;> first | exact absurd rfl hm | decide
    exact ⟨k', (hkeep m'.name hname).num k' hk', hid⟩

end Patches

/-! ## Rows and their enqueues -/

/-- The ids that committed patches write. -/
def patches (cs : List Commit) : List (IdMember × Int) :=
  cs.flatMap fun c =>
    match c with
    | .write (.patch m n) _ => [(m, n)]
    | _ => []

/-- The payloads that are enqueued are among `texts`. -/
def QueuedIn (texts : String → Prop) (cs : List Commit) : Prop :=
  ∀ correlationId pallet call text now,
    .enqueue correlationId pallet call (some text) now ∈ cs → texts text

/-- The row is one that was enqueued, and stands for what it stood for then. -/
def FromEnqueue (json : SerdeJson) (ids : List (IdMember × Int)) (texts : String → Prop)
    (cs : List Commit) (row : OutboundExtrinsic) : Prop :=
  ∃ payload now, .enqueue row.correlationId row.pallet row.call payload now ∈ cs ∧
    Keeps json ids texts payload row.payload

section Rows

variable {json : SerdeJson} {pg : Jsonb} {ids : List (IdMember × Int)} {texts : String → Prop}
variable {cs : List Commit}
variable {row row' : OutboundExtrinsic} {rows rows' : List OutboundExtrinsic}

/-- What an update of the outbox does to the payload. -/
theorem FromEnqueue.same (h : FromEnqueue json ids texts cs row)
    (hkey : row'.correlationId = row.correlationId) (hpallet : row'.pallet = row.pallet)
    (hcall : row'.call = row.call)
    (hpayload : ∀ payload, Keeps json ids texts payload row.payload →
      Keeps json ids texts payload row'.payload) :
    FromEnqueue json ids texts cs row' := by
  obtain ⟨payload, now, hmem, hkeeps⟩ := h
  refine ⟨payload, now, ?_, hpayload payload hkeeps⟩
  rw [hkey, hpallet, hcall]
  exact hmem

theorem FromEnqueue.settle {now : Nat} {job : Job} {outcome : Submission}
    {f : OutboundExtrinsic → OutboundExtrinsic} (h : FromEnqueue json ids texts cs row)
    (hf : settlement now job outcome = some f) : FromEnqueue json ids texts cs (f row) := by
  rcases settlement_cases hf with ⟨_, -, rfl⟩ | ⟨_, _, -, -, -, rfl⟩
  · exact h.same rfl rfl rfl fun _ hk => hk
  · exact h.same rfl rfl rfl fun _ hk => hk

theorem FromEnqueue.write {update : Update} (h : FromEnqueue json ids texts cs row)
    (hpg : Transcribes json pg ids texts) (hcounted : CountedIds ids)
    (hids : ∀ m n, update = .patch m n → (m, n) ∈ ids)
    (happ : update.applies pg row = some true) :
    FromEnqueue json ids texts cs (update.set pg row) := by
  cases update with
  | patch m n =>
      have hholds : holdsPlaceholder pg m row.payload = some true := by
        rw [Update.applies] at happ
        split at happ
        · exact happ
        · cases happ
      exact h.same rfl rfl rfl fun payload hk =>
        hk.patch hpg hcounted (hids m n rfl) hholds
  | agentRegistered corr agentId => exact h.same rfl rfl rfl fun _ hk => hk
  | taskCreated corr taskId => exact h.same rfl rfl rfl fun _ hk => hk
  | bothIds corr taskId agentId => exact h.same rfl rfl rfl fun _ hk => hk
  | backfillAgent corr agentId => exact h.same rfl rfl rfl fun _ hk => hk
  | backfillTask corr taskId => exact h.same rfl rfl rfl fun _ hk => hk
  | coalesceTask corr taskId => exact h.same rfl rfl rfl fun _ hk => hk

/-- One commit. -/
theorem fromEnqueue_step {c : Commit} (h : ∀ row ∈ rows, FromEnqueue json ids texts cs row)
    (hpg : Transcribes json pg ids texts) (hcounted : CountedIds ids) (hids : patches [c] ⊆ ids)
    (hqueued : QueuedIn texts [c])
    (hstep : Commit.step pg rows c = some rows') :
    ∀ row ∈ rows', FromEnqueue json ids texts (cs ++ [c]) row := by
  have hold : ∀ row, FromEnqueue json ids texts cs row →
      FromEnqueue json ids texts (cs ++ [c]) row := by
    rintro row ⟨payload, now, hmem, hkeeps⟩
    exact ⟨payload, now, List.mem_append_left _ hmem, hkeeps⟩
  intro row hrow
  cases c with
  | enqueue correlationId pallet call payload now =>
      simp only [Commit.step, Option.ite_none_right_eq_some, Option.some.injEq] at hstep
      obtain ⟨-, rfl⟩ := hstep
      rcases List.mem_append.mp hrow with hrow | hrow
      · exact hold row (h row hrow)
      · obtain rfl := List.mem_singleton.mp hrow
        refine ⟨payload, now, List.mem_append_right _ (List.mem_singleton.mpr rfl),
          .refl json ids fun text htext => ?_⟩
        obtain rfl : payload = some text := htext
        exact hqueued correlationId pallet call text now (List.mem_singleton.mpr rfl)
  | attempt job outcome now =>
      simp only [Commit.step, Option.ite_none_right_eq_some] at hstep
      obtain ⟨f, hf, rfl⟩ := Option.map_eq_some_iff.mp hstep.2
      obtain ⟨row₀, hrow₀, rfl⟩ := List.mem_map.mp hrow
      split
      · exact hold _ ((h row₀ hrow₀).settle hf)
      · exact hold row₀ (h row₀ hrow₀)
  | write update keys =>
      simp only [Commit.step, Option.ite_none_right_eq_some, Option.some.injEq] at hstep
      obtain ⟨hall, rfl⟩ := hstep
      obtain ⟨row₀, hrow₀, rfl⟩ := List.mem_map.mp hrow
      split
      · next hkey =>
          have hwrites : writes pg update row₀ = true := by
            have hone := List.all_eq_true.mp hall row₀ hrow₀
            simpa [hkey] using hone
          have happ : update.applies pg row₀ = some true := by
            have hboth := Bool.and_eq_true_iff.mp hwrites
            simpa using hboth.1
          refine hold _ ((h row₀ hrow₀).write hpg hcounted ?_ happ)
          rintro m n rfl
          exact hids (List.mem_singleton.mpr rfl)
      · exact hold row₀ (h row₀ hrow₀)

/-- Every row of the queue is one that was enqueued, and stands for what it stood for then. -/
theorem fromEnqueue_exec (hpg : Transcribes json pg ids texts) (hcounted : CountedIds ids)
    (hids : patches cs ⊆ ids) (hqueued : QueuedIn texts cs)
    (hexec : Transition.exec (Commit.step pg) [] cs = some rows) :
    ∀ row ∈ rows, FromEnqueue json ids texts cs row := by
  induction cs using List.reverseRecOn generalizing rows with
  | nil =>
      obtain rfl : [] = rows := Option.some.inj hexec
      exact List.forall_mem_nil _
  | append_singleton cs c ih =>
      rw [Transition.exec_append] at hexec
      obtain ⟨mid, hmid, hlast⟩ := Option.bind_eq_some_iff.mp hexec
      obtain ⟨rows', hstep, hnil⟩ := Option.bind_eq_some_iff.mp hlast
      obtain rfl : rows' = rows := Option.some.inj hnil
      have hsplit : patches (cs ++ [c]) = patches cs ++ patches [c] := by
        simp [patches]
      rw [hsplit] at hids
      have hprev := ih (List.Subset.trans (List.subset_append_left _ _) hids)
        (fun _ _ _ _ _ h => hqueued _ _ _ _ _ (List.mem_append_left _ h)) hmid
      exact fromEnqueue_step hprev hpg hcounted
        (List.Subset.trans (List.subset_append_right _ _) hids)
        (fun _ _ _ _ _ h => hqueued _ _ _ _ _ (List.mem_append_right _ h)) hstep

end Rows

/-! ## The call of a worker -/

section Signed

variable {A : Type} {accountFromStr : String → Except String A} {json : SerdeJson} {pg : Jsonb}
variable {texts : String → Prop} {s : System} {tr : List (System × Label)}

/-- The job of a worker is that of a row that was enqueued. -/
theorem job_enqueued (hrun : Runs pg tr s)
    (hpg : Transcribes json pg (patches (Transition.trace commits tr)) texts)
    (hcounted : CountedIds (patches (Transition.trace commits tr)))
    (hqueued : QueuedIn texts (Transition.trace commits tr))
    {w : Nat} {job : Job} (hjob : (s.workers w).job = some job) :
    ∃ payload now, .enqueue job.correlationId job.pallet job.call payload now ∈
        Transition.trace commits tr ∧
      Keeps json (patches (Transition.trace commits tr)) texts payload job.payload := by
  obtain ⟨slot, hslot, -, rfl⟩ := (Runs.invariant hrun).holds w job hjob
  obtain ⟨rows, hexec, -, -, rfl⟩ := (refines pg).run hrun fun _ _ => trivial
  exact fromEnqueue_exec hpg hcounted (List.Subset.refl _) hqueued hexec slot.row
    (List.mem_map_of_mem hslot)

/-- A payload that stands for what another one stood for builds the same call. -/
theorem Keeps.builds {ids : List (IdMember × Int)} {payload₀ payload : Option String}
    (h : Keeps json ids texts payload₀ payload) {pallet call : String} {c₀ : RuntimeCall A}
    (hok : buildExtrinsic accountFromStr json pallet call payload₀ = .ok c₀) :
    ∃ c, buildExtrinsic accountFromStr json pallet call payload = .ok c ∧ SignsAs ids c₀ c := by
  obtain ⟨v, hv, hok⟩ := Fallible.bind_eq_ok.mp hok
  obtain ⟨⟨⟩, hdecode, hbuild⟩ := Fallible.bind_eq_ok.mp hok
  obtain ⟨w, hw, hsame⟩ := h.same v hv
  have hvalue : decodeValue pallet call v = .ok () := by
    obtain ⟨v', hv', hd⟩ := Fallible.bind_eq_ok.mp hdecode
    obtain rfl : v = v' := Except.ok.inj (hv.symm.trans hv')
    exact hd
  obtain ⟨c, hc, hsigns⟩ := buildValue_keeps hsame hbuild
  refine ⟨c, Fallible.bind_eq_ok.mpr ⟨w, hw, Fallible.bind_eq_ok.mpr ⟨(), ?_, hc⟩⟩, hsigns⟩
  exact Fallible.bind_eq_ok.mpr ⟨w, hw, decodeValue_keeps hsame hvalue⟩

/-- **What is signed is what was enqueued.** Whatever happened to a row in between, the job that a
worker submits is that of a row as it was enqueued; and where the payload stood for a call then, the
worker signs that call, with some chain ids of committed patches in place of its placeholders. -/
theorem signed_as_enqueued (hrun : Runs pg tr s)
    (hpg : Transcribes json pg (patches (Transition.trace commits tr)) texts)
    (hcounted : CountedIds (patches (Transition.trace commits tr)))
    (hqueued : QueuedIn texts (Transition.trace commits tr))
    {w : Nat} {job : Job} (hjob : (s.workers w).job = some job) :
    ∃ payload now, .enqueue job.correlationId job.pallet job.call payload now ∈
        Transition.trace commits tr ∧
      ∀ c₀, buildExtrinsic accountFromStr json job.pallet job.call payload = .ok c₀ →
        ∃ c, buildExtrinsic accountFromStr json job.pallet job.call job.payload = .ok c ∧
          SignsAs (patches (Transition.trace commits tr)) c₀ c := by
  obtain ⟨payload, now, hmem, hkeeps⟩ := job_enqueued hrun hpg hcounted hqueued hjob
  exact ⟨payload, now, hmem, fun c₀ hok => hkeeps.builds hok⟩

/-- The ids of `patchedAllocation`. -/
theorem sample_transcribes :
    Transcribes Placeholders.sampleSerde Placeholders.samplePostgres [(.taskId, 7)]
      Placeholders.sampleTexts where
  cast text v w _ hv hw key := by
    have hread : Placeholders.readText Placeholders.sampleValues text = some w := hw
    simp only [Placeholders.sampleSerde, hread, Except.ok.injEq] at hv
    rw [hv]
    exact .refl v key
  text text w _ hw x hx _ := by
    obtain rfl := List.mem_singleton.mp hx
    have hread : Placeholders.readText Placeholders.sampleValues text = some w := hw
    have hmem : w ∈ Placeholders.sampleValues := List.mem_of_find?_eq_some hread
    simp only [Placeholders.sampleValues, List.mem_cons, List.not_mem_nil, or_false] at hmem
    rcases hmem with rfl | rfl | rfl
    · exact ⟨by rfl, Placeholders.taskId (.number (.posInt 7)), by rfl, fun key => .refl _ key⟩
    · exact ⟨by rfl, Placeholders.taskId (.number (.posInt 7)), by rfl, fun key => .refl _ key⟩
    · exact ⟨by rfl, Placeholders.taskId (.number (.posInt 7)), by rfl, fun key => .refl _ key⟩
  zero n hn := by
    have hzero : n.toNat = 0 := by
      simpa [Placeholders.samplePostgres, Value.integer?] using hn
    exact UInt64.toNat_inj.mp hzero

/-- An `allocate_task` that is enqueued with a placeholder, patched and taken by a worker. -/
def patchedAllocation : List Label :=
  [.enqueue "c1" "TaskMarket" "allocate_task" (some "\x7b\"task_id\":0\x7d") 0,
    .execute 0 (.patch .taskId 7), .change 0 "c1", .finish 0, .fetch 0, .take 0 (0, "c1")]

/-- The worker signs it for the task 7. -/
theorem patchedAllocation_signed :
    ∃ tr s job, Runs Placeholders.samplePostgres tr s ∧ (s.workers 0).job = some job ∧
      job.payload = some "\x7b\"task_id\": 7\x7d" ∧
      ∃ payload now, Commit.enqueue job.correlationId job.pallet job.call payload now ∈
          Transition.trace commits tr ∧
        ∀ c₀ : RuntimeCall Unit, buildExtrinsic (fun _ => .ok ()) Placeholders.sampleSerde
            job.pallet job.call payload = .ok c₀ →
          ∃ c, buildExtrinsic (fun _ => .ok ()) Placeholders.sampleSerde job.pallet job.call
              job.payload = .ok c ∧
            SignsAs (patches (Transition.trace commits tr)) c₀ c := by
  obtain ⟨s, hexec, hjob⟩ : ∃ s, Transition.exec (step Placeholders.samplePostgres) System.init
      patchedAllocation = some s ∧ (s.workers 0).job =
        some ⟨"c1", "TaskMarket", "allocate_task", some "\x7b\"task_id\": 7\x7d", 0⟩ :=
    ⟨_, by rfl, by rfl⟩
  have hpatches : patches (Transition.trace commits (Transition.history
      (step Placeholders.samplePostgres) System.init patchedAllocation)) = [(.taskId, 7)] := by rfl
  have hrun := Transition.Run.of_history hexec
  have hcommits : Transition.trace commits (Transition.history (step Placeholders.samplePostgres)
      System.init patchedAllocation) = [.enqueue "c1" "TaskMarket" "allocate_task"
        (some "\x7b\"task_id\":0\x7d") 0, .write (.patch .taskId 7) ["c1"]] := by rfl
  have hqueued : QueuedIn Placeholders.sampleTexts (Transition.trace commits (Transition.history
      (step Placeholders.samplePostgres) System.init patchedAllocation)) := by
    rw [hcommits]
    intro correlationId pallet call text now hmem
    rcases List.mem_cons.mp hmem with heq | hmem
    · obtain ⟨-, -, -, htext, -⟩ := Commit.enqueue.inj heq
      obtain rfl := Option.some.inj htext
      rfl
    · cases List.mem_singleton.mp hmem
  refine ⟨_, s, _, hrun, hjob, rfl, signed_as_enqueued hrun ?_ ?_ hqueued hjob⟩
  · rw [hpatches]
    exact sample_transcribes
  · rw [hpatches]
    intro x hx
    obtain rfl := List.mem_singleton.mp hx
    decide

end Signed

end Ainur.Signed
