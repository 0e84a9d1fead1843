import Mathlib.Algebra.Group.Int.Defs
import Ainur.Bridge.Events
import Ainur.Chain.Payload
import Ainur.Lib.Sql

set_option autoImplicit false

/-! # Patching the placeholders of pending rows

`patch_pending_with_ids` sends one `UPDATE` a given id over all pending rows and drops its error.
Whether it is sent at all depends on its parameters, and whether it changes a row on the payloads
of all the others. A row holds a placeholder where the payload that was validated has the number
`0` as the member.
-/

namespace Ainur.Placeholders

open Bridge (Update.exec)

/-! ## The statements -/

/-- The text of both statements names `$2`, and one value is bound. -/
def patchParameters : Sql.Parameters := ⟨[2], 1⟩

/-- One `UPDATE`, its error dropped. -/
def patchStatement (accepts : Sql.Parameters → Bool) (pg : Jsonb) (m : IdMember) (chainId : Int)
    (rows : List OutboundExtrinsic) : List OutboundExtrinsic :=
  if accepts patchParameters then (Update.exec pg (.patch m chainId) rows).getD rows else rows

/-- The members to patch, in the order of the statements. -/
def chainIds (taskId agentId : Option Int) : List (IdMember × Int) :=
  (taskId.toList.map fun id => (.taskId, id)) ++ agentId.toList.map fun id => (.agentId, id)

def patchAll (accepts : Sql.Parameters → Bool) (pg : Jsonb) (ids : List (IdMember × Int))
    (rows : List OutboundExtrinsic) : List OutboundExtrinsic :=
  ids.foldl (fun rows x => patchStatement accepts pg x.1 x.2 rows) rows

/-- `patch_pending_with_ids`, on the rows of `outbound_extrinsics`. -/
def patchPendingWithIds (accepts : Sql.Parameters → Bool) (pg : Jsonb)
    (taskId agentId : Option Int) (rows : List OutboundExtrinsic) : List OutboundExtrinsic :=
  patchAll accepts pg (chainIds taskId agentId) rows

/-- The replay worker sends a statement for each of them. -/
theorem patchPendingWithIds_ops (taskId agentId : Option Int) :
    Bridge.patchPendingWithIds taskId agentId =
      (chainIds taskId agentId).map fun x => .outbox (.patch x.1 x.2) := by
  simp [Bridge.patchPendingWithIds, chainIds, Function.comp_def]

/-- Where the statement is accepted, it writes what the replay worker's statement writes. -/
theorem write_patch (db : Storage.Database) (pg : Jsonb) (d : Bridge.Delivery) (pick : String)
    (p : PostgresStorage) (m : IdMember) (chainId : Int) :
    (Bridge.ReplayOp.write db pg d pick p (.outbox (.patch m chainId))).outbox =
      patchStatement (fun _ => true) pg m chainId p.outbox := by
  simp only [Bridge.ReplayOp.write, patchStatement]
  cases Update.exec pg (.patch m chainId) p.outbox with
  | none => rfl
  | some rows => rfl

/-! ## What the patch is for -/

/-- The member is the number `0`. -/
def isZero (x : Option Value) : Bool := x.bind Value.asU64 = some 0

/-- The row is pending and its payload holds the placeholder. -/
def placeholder (json : SerdeJson) (m : IdMember) (row : OutboundExtrinsic) : Bool :=
  row.status = .pending && row.payload.any fun text =>
    match json.fromStr text with
    | .ok v => isZero (v.get m.name)
    | .error _ => false

def idNumber (chainId : Int) : Value := .number (Number.ofI64 chainId)

/-- A payload with one placeholder replaced. -/
def replaceMember (v : Value) (x : IdMember × Int) : Value :=
  if isZero (v.get x.1.name) then v.set x.1.name (idNumber x.2) else v

/-- What a row shall be afterwards: a row with a placeholder is the same but for its payload, whose
value has the given ids for its placeholders; any other row is unchanged. -/
def Patched (json : SerdeJson) (pg : Jsonb) (ids : List (IdMember × Int))
    (row row' : OutboundExtrinsic) : Prop :=
  if ids.any fun x => placeholder json x.1 row then
    ∃ v text, row.payload.bind pg.cast = some v ∧ row' = { row with payload := some text } ∧
      pg.cast text = some (ids.foldl replaceMember v)
  else row' = row

/-! ## When the statements do it -/

/-- The statement runs: its parameters are accepted, no cast raises, and every row it writes passes
the checks of the table. -/
def executes (accepts : Sql.Parameters → Bool) (pg : Jsonb) (x : IdMember × Int)
    (rows : List OutboundExtrinsic) : Bool :=
  accepts patchParameters && rows.all fun row =>
    ((Update.patch x.1 x.2).applies pg row).isSome &&
      ((Update.patch x.1 x.2).applies pg row ≠ some true ||
        ((Update.patch x.1 x.2).set pg row).checks)

/-- A statement does its part: it runs if there is a placeholder to replace, and if it runs, every
row that its `WHERE` clause selects holds the number `0` and not another text of it. -/
structure Effective (accepts : Sql.Parameters → Bool) (json : SerdeJson) (pg : Jsonb)
    (x : IdMember × Int) (rows : List OutboundExtrinsic) : Prop where
  runs : ∀ row ∈ rows, placeholder json x.1 row = true → executes accepts pg x rows = true
  selects : executes accepts pg x rows = true →
    ∀ row ∈ rows, (Update.patch x.1 x.2).applies pg row = some true →
      placeholder json x.1 row = true

/-- The row with one placeholder replaced. -/
def replaceRow (json : SerdeJson) (pg : Jsonb) (x : IdMember × Int) (row : OutboundExtrinsic) :
    OutboundExtrinsic :=
  if placeholder json x.1 row then (Update.patch x.1 x.2).set pg row else row

/-- Each statement does its part on the rows that the ones before it should leave. -/
def AllEffective (accepts : Sql.Parameters → Bool) (json : SerdeJson) (pg : Jsonb) :
    List (IdMember × Int) → List OutboundExtrinsic → Prop
  | [], _ => True
  | x :: rest, rows =>
      Effective accepts json pg x rows ∧
        AllEffective accepts json pg rest (rows.map (replaceRow json pg x))

/-! ## How the two readers of a payload agree -/

/-- What Postgres and `serde_json` make of the same payloads, when these ids are written. The payloads
are among `texts`, and so are those that the patches write. -/
structure Readers (json : SerdeJson) (pg : Jsonb) (ids : List (IdMember × Int))
    (texts : String → Prop) : Prop where
  /-- A member is the number `0` for both of them or for none. -/
  zero : ∀ text v w, texts text → json.fromStr text = .ok v → pg.cast text = some w →
    ∀ m : IdMember, isZero (v.get m.name) = isZero (w.get m.name)
  /-- The text of an integer casts to it. -/
  bigint : ∀ x n, Value.integer? x = some n → -2 ^ 63 ≤ n → n < 2 ^ 63 →
    pg.bigint x = some (some n)
  /-- The text of a patched payload reads back, in both. -/
  patched : ∀ text v, texts text → pg.cast text = some v → ∀ x ∈ ids,
    (v.get x.1.name).isSome → texts (pg.text (v.set x.1.name (idNumber x.2))) ∧
      pg.cast (pg.text (v.set x.1.name (idNumber x.2))) = some (v.set x.1.name (idNumber x.2)) ∧
      ∃ w, json.fromStr (pg.text (v.set x.1.name (idNumber x.2))) = .ok w

/-- A chain id that is not `0`, in the range of `i64`. -/
def RealId (n : Int) : Prop := n ≠ 0 ∧ -2 ^ 63 ≤ n ∧ n < 2 ^ 63

/-- The payload of a pending row is among `texts`. -/
def Covered (texts : String → Prop) (row : OutboundExtrinsic) : Prop :=
  row.status = .pending → ∀ text, row.payload = some text → texts text

/-- It is, and `serde_json` reads it. -/
def Readable (json : SerdeJson) (texts : String → Prop) (row : OutboundExtrinsic) : Prop :=
  row.status = .pending → ∀ text, row.payload = some text →
    texts text ∧ ∃ v, json.fromStr text = .ok v

theorem readable_of_validated {json : SerdeJson} {texts : String → Prop} {row : OutboundExtrinsic}
    (hcovered : Covered texts row)
    (h : row.status = .pending → decodePayload json row.pallet row.call row.payload = .ok ()) :
    Readable json texts row := by
  intro hpending text htext
  refine ⟨hcovered hpending text htext, ?_⟩
  have hok := h hpending
  rw [htext] at hok
  cases hread : json.fromStr text with
  | ok v => exact ⟨v, rfl⟩
  | error e => simp [decodePayload, payloadVal, hread, Except.mapError] at hok; cases hok

/-! ## Members -/

theorem isZero_iff {x : Option Value} : isZero x = true ↔ x = some (.number (.posInt 0)) := by
  cases x with
  | none => simp [isZero]
  | some v => simp [isZero, Value.asU64_eq_some]

theorem integer?_idNumber {n : Int} (h : RealId n) : (idNumber n).integer? = some n := by
  obtain ⟨_, hlo, hhi⟩ := h
  cases n with
  | ofNat k =>
      have hk : k % 2 ^ 64 = k := by
        have hk : (k : Int) < 2 ^ 63 := hhi
        omega
      simp only [idNumber, Number.ofI64, Value.integer?, UInt64.toNat_ofNat', hk]
      rfl
  | negSucc k => rfl

theorem isZero_idNumber {n : Int} (h : RealId n) : isZero (some (idNumber n)) = false := by
  rw [Bool.eq_false_iff]
  intro hzero
  have hint := integer?_idNumber h
  rw [Option.some.inj (isZero_iff.mp hzero)] at hint
  exact h.1 (by simpa [Value.integer?] using hint.symm)

theorem IdMember.name_injective {m m' : IdMember} (h : m.name = m'.name) : m = m' := by
  cases m <;> cases m' <;> simp_all [IdMember.name]

/-! ## One row -/

section OneRow

variable {accepts : Sql.Parameters → Bool} {json : SerdeJson} {pg : Jsonb}
variable {ids rest : List (IdMember × Int)} {x : IdMember × Int} {m : IdMember}
variable {texts : String → Prop} {row : OutboundExtrinsic} {rows : List OutboundExtrinsic}

/-- The payload as Postgres reads it. -/
def payloadValue (pg : Jsonb) (row : OutboundExtrinsic) : Option Value := row.payload.bind pg.cast

theorem placeholder_iff : placeholder json m row = true ↔
    row.status = .pending ∧ ∃ text v, row.payload = some text ∧ json.fromStr text = .ok v ∧
      isZero (v.get m.name) = true := by
  cases hpayload : row.payload with
  | none => simp [placeholder, hpayload]
  | some text =>
      cases hread : json.fromStr text with
      | ok v => simp [placeholder, hpayload, hread]
      | error e => simp [placeholder, hpayload, hread]

/-- Where Postgres reads a payload that `serde_json` reads too, a placeholder is a member `0`. -/
theorem placeholder_eq (hpg : Readers json pg ids texts) (hread : Readable json texts row)
    (hpending : row.status = .pending) {v : Value} (hv : payloadValue pg row = some v)
    (m : IdMember) : placeholder json m row = isZero (v.get m.name) := by
  obtain ⟨text, htext, hcast⟩ := Option.bind_eq_some_iff.mp hv
  obtain ⟨hcovered, w, hw⟩ := hread hpending text htext
  simp [placeholder, hpending, htext, hw, hpg.zero text w v hcovered hw hcast m]

/-- What the `WHERE` clause of a patch selects, and what the `SET` clause makes of it. -/
theorem set_of_applies (hpg : Readers json pg ids texts) (hx : x ∈ ids)
    (hread : Readable json texts row)
    (happ : (Update.patch x.1 x.2).applies pg row = some true) :
    row.status = .pending ∧ ∃ v y, payloadValue pg row = some v ∧ v.get x.1.name = some y ∧
      pg.bigint y = some (some 0) ∧
      (Update.patch x.1 x.2).set pg row =
        { row with payload := some (pg.text (v.set x.1.name (idNumber x.2))) } ∧
      payloadValue pg ((Update.patch x.1 x.2).set pg row) =
        some (v.set x.1.name (idNumber x.2)) ∧
      Readable json texts ((Update.patch x.1 x.2).set pg row) := by
  by_cases hpending : row.status = .pending
  · simp only [Update.applies, hpending, if_true] at happ
    cases hpayload : row.payload with
    | none => simp [hpayload, holdsPlaceholder] at happ
    | some text =>
        cases hcast : pg.cast text with
        | none => simp [hpayload, holdsPlaceholder, hcast] at happ
        | some v =>
            cases hget : v.get x.1.name with
            | none => simp [hpayload, holdsPlaceholder, hcast, hget] at happ
            | some y =>
                have hzero : pg.bigint y = some (some 0) := by
                  cases hy : pg.bigint y with
                  | none => simp [hpayload, holdsPlaceholder, hcast, hget, hy] at happ
                  | some n => simpa [hpayload, holdsPlaceholder, hcast, hget, hy] using happ
                -- the cast, the member and the integer are there, or nothing would be selected
                obtain ⟨hcovered, hback, w, hw⟩ :=
                  hpg.patched text v (hread hpending text hpayload).1 hcast x hx (by simp [hget])
                have hset : (Update.patch x.1 x.2).set pg row =
                    { row with payload := some (pg.text (v.set x.1.name (idNumber x.2))) } := by
                  simp [Update.set, setPlaceholder, hpayload, hcast, idNumber]
                refine ⟨hpending, v, y, by simp [payloadValue, hpayload, hcast], hget, hzero, hset,
                  by simp [hset, payloadValue, hback], ?_⟩
                intro _ text' htext'
                rw [hset] at htext'
                obtain rfl := Option.some.inj htext'
                exact ⟨hcovered, w, hw⟩
  · simp [Update.applies, hpending] at happ

/-- A row with a placeholder is selected, unless its payload raises. -/
theorem applies_of_placeholder (hpg : Readers json pg ids texts) (hread : Readable json texts row)
    (hplace : placeholder json x.1 row = true)
    (hsome : ((Update.patch x.1 x.2).applies pg row).isSome = true) :
    (Update.patch x.1 x.2).applies pg row = some true := by
  obtain ⟨hpending, text, _, htext, _, _⟩ := placeholder_iff.mp hplace
  have happ : (Update.patch x.1 x.2).applies pg row = holdsPlaceholder pg x.1 (some text) := by
    simp [Update.applies, hpending, htext]
  cases hcast : pg.cast text with
  | none => simp [happ, holdsPlaceholder, hcast] at hsome
  | some w =>
      have hzero := placeholder_eq hpg hread hpending
        (show payloadValue pg row = some w by simp [payloadValue, htext, hcast]) x.1
      have hget : w.get x.1.name = some (.number (.posInt 0)) :=
        isZero_iff.mp (hzero.symm.trans hplace)
      -- the number `0` casts to `0` whatever the other members are
      have hbigint : pg.bigint (.number (.posInt 0)) = some (some 0) :=
        hpg.bigint _ 0 rfl (by decide) (by decide)
      simp [happ, holdsPlaceholder, hcast, hget, hbigint]

/-- A member of the payload as Postgres reads it. -/
def member (pg : Jsonb) (m : IdMember) (row : OutboundExtrinsic) : Option Value :=
  (payloadValue pg row).bind fun v => v.get m.name

/-- A patch writes its own member. -/
theorem member_set_self (hpg : Readers json pg ids texts) (hx : x ∈ ids)
    (hread : Readable json texts row)
    (happ : (Update.patch x.1 x.2).applies pg row = some true) :
    member pg x.1 ((Update.patch x.1 x.2).set pg row) = some (idNumber x.2) := by
  obtain ⟨_, v, y, _, hget, _, _, hvalue, _⟩ := set_of_applies hpg hx hread happ
  simp [member, hvalue, Value.get_set_self _ (show (v.get x.1.name).isSome = true by simp [hget])]

/-- And no other. -/
theorem member_set_ne (hpg : Readers json pg ids texts) (hx : x ∈ ids)
    (hread : Readable json texts row)
    (happ : (Update.patch x.1 x.2).applies pg row = some true) (hne : m ≠ x.1) :
    member pg m ((Update.patch x.1 x.2).set pg row) = member pg m row := by
  obtain ⟨_, v, y, hv, hget, _, _, hvalue, _⟩ := set_of_applies hpg hx hread happ
  have hname : m.name ≠ x.1.name := fun h => hne (IdMember.name_injective h)
  simp [member, hvalue, hv,
    Value.get_set_ne _ (show (v.get x.1.name).isSome = true by simp [hget]) hname]

end OneRow

/-! ## Replacing members -/

section Replace

variable {v : Value} {x : IdMember × Int} {ids : List (IdMember × Int)}

theorem get_replaceMember_self :
    (replaceMember v x).get x.1.name =
      if isZero (v.get x.1.name) then some (idNumber x.2) else v.get x.1.name := by
  unfold replaceMember
  split
  · next h => exact Value.get_set_self _ (by simp [isZero_iff.mp h])
  · rfl

theorem get_replaceMember_ne {key : String} (hne : key ≠ x.1.name) :
    (replaceMember v x).get key = v.get key := by
  unfold replaceMember
  split
  · next h => exact Value.get_set_ne _ (by simp [isZero_iff.mp h]) hne
  · rfl

/-- A member without a given id stays as it is. -/
theorem get_replaceMembers_ne {key : String} (hkey : ∀ x ∈ ids, key ≠ x.1.name) :
    (ids.foldl replaceMember v).get key = v.get key := by
  induction ids generalizing v with
  | nil => rfl
  | cons x rest ih =>
      rw [List.foldl_cons, ih fun y hy => hkey y (List.mem_cons_of_mem _ hy),
        get_replaceMember_ne (hkey x List.mem_cons_self)]

/-- A member with a given id has it in the place of its `0`. -/
theorem get_replaceMembers (hnodup : (ids.map Prod.fst).Nodup) (hx : x ∈ ids) :
    (ids.foldl replaceMember v).get x.1.name =
      if isZero (v.get x.1.name) then some (idNumber x.2) else v.get x.1.name := by
  induction ids generalizing v with
  | nil => cases hx
  | cons z rest ih =>
      rw [List.map_cons, List.nodup_cons] at hnodup
      have hne : ∀ y ∈ rest, y.1 ≠ z.1 := by
        intro y hy heq
        exact hnodup.1 (heq ▸ List.mem_map_of_mem hy)
      rw [List.foldl_cons]
      rcases List.mem_cons.mp hx with rfl | hrest
      · rw [get_replaceMembers_ne fun y hy hname =>
          hne y hy (IdMember.name_injective hname).symm, get_replaceMember_self]
      · rw [ih hnodup.2 hrest, get_replaceMember_ne fun hname =>
          hne x hrest (IdMember.name_injective hname)]

theorem replaceMembers_of_none (h : ∀ x ∈ ids, isZero (v.get x.1.name) = false) :
    ids.foldl replaceMember v = v := by
  induction ids with
  | nil => rfl
  | cons x rest ih =>
      have hx : replaceMember v x = v := by simp [replaceMember, h x List.mem_cons_self]
      rw [List.foldl_cons, hx]
      exact ih fun y hy => h y (List.mem_cons_of_mem _ hy)

end Replace

/-! ## All rows -/

section AllRows

variable {accepts : Sql.Parameters → Bool} {json : SerdeJson} {pg : Jsonb}
variable {ids rest : List (IdMember × Int)} {x : IdMember × Int} {m : IdMember}
variable {texts : String → Prop} {row : OutboundExtrinsic} {rows : List OutboundExtrinsic}

/-- The statement changes the row. -/
def affected (accepts : Sql.Parameters → Bool) (pg : Jsonb) (x : IdMember × Int)
    (rows : List OutboundExtrinsic) (row : OutboundExtrinsic) : Bool :=
  executes accepts pg x rows && (Update.patch x.1 x.2).applies pg row = some true

/-- What a statement makes of a row among the given ones. -/
def patchRow (accepts : Sql.Parameters → Bool) (pg : Jsonb) (x : IdMember × Int)
    (rows : List OutboundExtrinsic) (row : OutboundExtrinsic) : OutboundExtrinsic :=
  if affected accepts pg x rows row then (Update.patch x.1 x.2).set pg row else row

theorem patchRow_of_not_executes (h : executes accepts pg x rows = false) :
    patchRow accepts pg x rows = id := by
  funext row
  simp [patchRow, affected, h]

theorem patchStatement_eq (rows : List OutboundExtrinsic) :
    patchStatement accepts pg x.1 x.2 rows = rows.map (patchRow accepts pg x rows) := by
  unfold patchStatement
  by_cases hacc : accepts patchParameters = true
  · rw [if_pos hacc]
    unfold Update.exec
    split
    · next hall =>
        have hexec : executes accepts pg x rows = true := Bool.and_eq_true_iff.mpr ⟨hacc, hall⟩
        rw [Option.getD_some]
        refine List.map_congr_left fun row _ => ?_
        simp [patchRow, affected, hexec]
    · next hall =>
        have hexec : executes accepts pg x rows = false := by
          rw [executes, Bool.and_eq_false_iff]
          exact Or.inr (by simpa using hall)
        rw [patchRow_of_not_executes hexec, List.map_id, Option.getD_none]
  · have hexec : executes accepts pg x rows = false := by simp [executes, hacc]
    rw [if_neg hacc, patchRow_of_not_executes hexec, List.map_id]

/-- What all statements make of a row. -/
def fate (accepts : Sql.Parameters → Bool) (pg : Jsonb) :
    List (IdMember × Int) → List OutboundExtrinsic → OutboundExtrinsic → OutboundExtrinsic
  | [], _, row => row
  | x :: rest, rows, row =>
      fate accepts pg rest (rows.map (patchRow accepts pg x rows)) (patchRow accepts pg x rows row)

theorem patchAll_eq (rows : List OutboundExtrinsic) :
    patchAll accepts pg ids rows = rows.map (fate accepts pg ids rows) := by
  induction ids generalizing rows with
  | nil => simp [patchAll, fate]
  | cons x rest ih =>
      have hrest := ih (patchStatement accepts pg x.1 x.2 rows)
      rw [patchStatement_eq, List.map_map] at hrest
      rw [patchAll, List.foldl_cons, patchStatement_eq]
      exact hrest

theorem Readers.mono {ids' : List (IdMember × Int)} (hpg : Readers json pg ids texts)
    (hsub : ∀ x ∈ ids', x ∈ ids) : Readers json pg ids' texts :=
  ⟨hpg.zero, hpg.bigint, fun text v hcovered hcast x hx =>
    hpg.patched text v hcovered hcast x (hsub x hx)⟩

/-- What a row is like after a statement: as pending and as readable as it was. -/
theorem patchRow_readable (hpg : Readers json pg ids texts) (hx : x ∈ ids) (hread : Readable json texts row) :
    (patchRow accepts pg x rows row).status = row.status ∧
      Readable json texts (patchRow accepts pg x rows row) := by
  unfold patchRow
  split
  · next h =>
      have happ : (Update.patch x.1 x.2).applies pg row = some true := by
        simpa using (Bool.and_eq_true_iff.mp h).2
      obtain ⟨_, _, _, _, _, _, _, _, hreadable⟩ := set_of_applies hpg hx hread happ
      exact ⟨rfl, hreadable⟩
  · exact ⟨rfl, hread⟩

/-- The statements leave every member alone that they are not for. -/
theorem member_fate (hpg : Readers json pg ids texts) (hread : Readable json texts row)
    (hm : ∀ x ∈ ids, m ≠ x.1) :
    member pg m (fate accepts pg ids rows row) = member pg m row := by
  induction ids generalizing rows row with
  | nil => rfl
  | cons x rest ih =>
      rw [fate, ih (hpg.mono fun y hy => List.mem_cons_of_mem _ hy)
        (patchRow_readable hpg List.mem_cons_self hread).2
        fun y hy => hm y (List.mem_cons_of_mem _ hy)]
      unfold patchRow
      split
      · next h =>
          have happ : (Update.patch x.1 x.2).applies pg row = some true := by
            simpa using (Bool.and_eq_true_iff.mp h).2
          exact member_set_ne hpg List.mem_cons_self hread happ (hm x List.mem_cons_self)
      · rfl

/-- What the members of a row shall be afterwards. -/
def MembersPatched (json : SerdeJson) (pg : Jsonb) (ids : List (IdMember × Int))
    (row row' : OutboundExtrinsic) : Prop :=
  ∀ x ∈ ids, member pg x.1 row' =
    if placeholder json x.1 row then some (idNumber x.2) else member pg x.1 row

theorem Patched.members (hpg : Readers json pg ids texts) (hnodup : (ids.map Prod.fst).Nodup)
    (hread : Readable json texts row) {row' : OutboundExtrinsic} (h : Patched json pg ids row row') :
    MembersPatched json pg ids row row' := by
  intro x hx
  unfold Patched at h
  split at h
  · next hany =>
      obtain ⟨v, text, hv, rfl, hcast⟩ := h
      obtain ⟨y, _, hy⟩ := List.any_eq_true.mp hany
      have hpending := (placeholder_iff.mp hy).1
      rw [placeholder_eq hpg hread hpending hv]
      simp [member, payloadValue, hcast, show row.payload.bind pg.cast = some v from hv,
        get_replaceMembers hnodup hx]
  · next hnone =>
      have hx' : placeholder json x.1 row = false := by
        simpa using fun h => hnone (List.any_eq_true.mpr ⟨x, hx, h⟩)
      rw [h, if_neg (by simp [hx'])]

/-- A row whose members end up right was changed by the statement for a member if and only if it
held the placeholder: a row that is left out keeps its `0`, and one that should be left out gets an
id that is no `0`. -/
theorem affected_eq_placeholder (hpg : Readers json pg (x :: rest) texts) (hid : RealId x.2)
    (hne : ∀ y ∈ rest, x.1 ≠ y.1) (hread : Readable json texts row)
    (h : MembersPatched json pg (x :: rest) row (fate accepts pg (x :: rest) rows row)) :
    affected accepts pg x rows row = placeholder json x.1 row := by
  have hmember := h x List.mem_cons_self
  rw [fate, member_fate (hpg.mono fun y hy => List.mem_cons_of_mem _ hy)
    (patchRow_readable hpg List.mem_cons_self hread).2 hne] at hmember
  by_cases haff : affected accepts pg x rows row = true
  -- changed without a placeholder: its member was read as `0` and is now the id
  · have happ : (Update.patch x.1 x.2).applies pg row = some true := by
      simpa using (Bool.and_eq_true_iff.mp haff).2
    rw [patchRow, if_pos haff, member_set_self hpg List.mem_cons_self hread happ] at hmember
    by_contra hdiff
    have hplace : placeholder json x.1 row = false := by simpa [haff] using Ne.symm hdiff
    obtain ⟨_, v, y, hv, hget, hzero, _⟩ := set_of_applies hpg List.mem_cons_self hread happ
    have hy : y = idNumber x.2 := by simpa [hplace, member, hv, hget] using hmember.symm
    rw [hy, hpg.bigint _ _ (integer?_idNumber hid) hid.2.1 hid.2.2] at hzero
    exact hid.1 (by simpa using hzero)
  -- a placeholder left out: its member is still `0` and should be the id
  · rw [patchRow, if_neg haff] at hmember
    by_contra hdiff
    have hplace : placeholder json x.1 row = true := by simpa [haff] using Ne.symm hdiff
    rw [if_pos hplace] at hmember
    obtain ⟨v, hv, hget⟩ := Option.bind_eq_some_iff.mp hmember
    have hzero := placeholder_eq hpg hread (placeholder_iff.mp hplace).1 hv x.1
    rw [hplace, hget, isZero_idNumber hid] at hzero
    cases hzero

/-- A statement that changes the rows with a placeholder and no others does its part. -/
theorem effective_iff (hpg : Readers json pg ids texts) (hread : ∀ row ∈ rows, Readable json texts row) :
    Effective accepts json pg x rows ↔
      ∀ row ∈ rows, affected accepts pg x rows row = placeholder json x.1 row := by
  constructor
  · intro h row hrow
    by_cases hplace : placeholder json x.1 row = true
    · have hexec := h.runs row hrow hplace
      have hsome : ((Update.patch x.1 x.2).applies pg row).isSome = true := by
        have hall := List.all_eq_true.mp (Bool.and_eq_true_iff.mp hexec).2 row hrow
        exact (Bool.and_eq_true_iff.mp hall).1
      have happ := applies_of_placeholder hpg (hread row hrow) hplace hsome
      rw [affected, hexec, happ, hplace]
      rfl
    · have hnot : affected accepts pg x rows row ≠ true := by
        intro haff
        obtain ⟨hexec, happ⟩ := Bool.and_eq_true_iff.mp haff
        exact hplace (h.selects hexec row hrow (by simpa using happ))
      simp [hplace, hnot]
  · intro h
    constructor
    · intro row hrow hplace
      rw [← h row hrow] at hplace
      exact (Bool.and_eq_true_iff.mp hplace).1
    · intro hexec row hrow happ
      rw [← h row hrow, affected, hexec, happ]
      rfl

theorem map_replaceRow_eq
    (h : ∀ row ∈ rows, affected accepts pg x rows row = placeholder json x.1 row) :
    rows.map (patchRow accepts pg x rows) = rows.map (replaceRow json pg x) := by
  refine List.map_congr_left fun row hrow => ?_
  rw [patchRow, replaceRow, h row hrow]

/-- A step further, a row whose members end up right still has the others to come. -/
theorem MembersPatched.tail (hpg : Readers json pg (x :: rest) texts) (hne : ∀ y ∈ rest, y.1 ≠ x.1)
    (hread : Readable json texts row) {row' : OutboundExtrinsic}
    (h : MembersPatched json pg (x :: rest) row row') :
    MembersPatched json pg rest (patchRow accepts pg x rows row) row' := by
  by_cases haff : affected accepts pg x rows row = true
  · intro y hy
    have happ : (Update.patch x.1 x.2).applies pg row = some true := by
      simpa using (Bool.and_eq_true_iff.mp haff).2
    obtain ⟨hpending, v, z, hv, hget, _, hset, hvalue, hreadable⟩ :=
      set_of_applies hpg List.mem_cons_self hread happ
    have hname : y.1.name ≠ x.1.name := fun h => hne y hy (IdMember.name_injective h)
    have hplace : placeholder json y.1 ((Update.patch x.1 x.2).set pg row) =
        placeholder json y.1 row := by
      rw [placeholder_eq hpg hreadable (by rw [hset]; exact hpending) hvalue,
        placeholder_eq hpg hread hpending hv,
        Value.get_set_ne _ (show (v.get x.1.name).isSome = true by simp [hget]) hname]
    rw [patchRow, if_pos haff, hplace, member_set_ne hpg List.mem_cons_self hread happ (hne y hy)]
    exact h y (List.mem_cons_of_mem _ hy)
  · intro y hy
    rw [patchRow, if_neg haff]
    exact h y (List.mem_cons_of_mem _ hy)

theorem allEffective_of_members (hpg : Readers json pg ids texts)
    (hnodup : (ids.map Prod.fst).Nodup) (hids : ∀ x ∈ ids, RealId x.2)
    (hread : ∀ row ∈ rows, Readable json texts row)
    (h : ∀ row ∈ rows, MembersPatched json pg ids row (fate accepts pg ids rows row)) :
    AllEffective accepts json pg ids rows := by
  induction ids generalizing rows with
  | nil => trivial
  | cons x rest ih =>
      rw [List.map_cons, List.nodup_cons] at hnodup
      have hne : ∀ y ∈ rest, y.1 ≠ x.1 := by
        intro y hy heq
        exact hnodup.1 (heq ▸ List.mem_map_of_mem hy)
      have haff : ∀ row ∈ rows, affected accepts pg x rows row = placeholder json x.1 row :=
        fun row hrow => affected_eq_placeholder hpg (hids x List.mem_cons_self)
          (fun y hy => (hne y hy).symm) (hread row hrow) (h row hrow)
      refine ⟨(effective_iff hpg hread).mpr haff, ?_⟩
      rw [← map_replaceRow_eq haff]
      refine ih (hpg.mono fun y hy => List.mem_cons_of_mem _ hy) hnodup.2
        (fun y hy => hids y (List.mem_cons_of_mem _ hy)) ?_ ?_
      · intro row' hrow'
        obtain ⟨row, hrow, rfl⟩ := List.mem_map.mp hrow'
        exact (patchRow_readable hpg List.mem_cons_self (hread row hrow)).2
      · intro row' hrow'
        obtain ⟨row, hrow, rfl⟩ := List.mem_map.mp hrow'
        exact (h row hrow).tail hpg hne (hread row hrow)

/-- The other way: a row that is right for the later statements is right for all of them. -/
theorem Patched.cons (hpg : Readers json pg (x :: rest) texts) (hread : Readable json texts row)
    (haff : affected accepts pg x rows row = placeholder json x.1 row)
    {row' : OutboundExtrinsic} (h : Patched json pg rest (patchRow accepts pg x rows row) row') :
    Patched json pg (x :: rest) row row' := by
  by_cases hplace : placeholder json x.1 row = true
  · rw [hplace] at haff
    have happ : (Update.patch x.1 x.2).applies pg row = some true := by
      simpa using (Bool.and_eq_true_iff.mp haff).2
    obtain ⟨hpending, v, y, hv, hget, _, hset, hvalue, hreadable⟩ :=
      set_of_applies hpg List.mem_cons_self hread happ
    have hzero := placeholder_eq hpg hread hpending hv x.1
    have hreplace : replaceMember v x = v.set x.1.name (idNumber x.2) := by
      rw [replaceMember, if_pos (hzero.symm.trans hplace)]
    rw [patchRow, if_pos haff] at h
    rw [Patched, if_pos (by simp [hplace])]
    unfold Patched at h
    split at h
    · obtain ⟨w, text, hw, rfl, hcast⟩ := h
      have hwv : w = v.set x.1.name (idNumber x.2) := Option.some.inj (hw.symm.trans hvalue)
      exact ⟨v, text, hv, by simp [hset], by rw [hcast, List.foldl_cons, hreplace, hwv]⟩
    · next hnone =>
        -- no placeholder is left, so the later members have nothing to replace in the value
        have hrest : rest.foldl replaceMember (v.set x.1.name (idNumber x.2)) =
            v.set x.1.name (idNumber x.2) := by
          refine replaceMembers_of_none fun z hz => ?_
          rw [← placeholder_eq hpg hreadable (by rw [hset]; exact hpending) hvalue]
          simpa using fun h => hnone (List.any_eq_true.mpr ⟨z, hz, h⟩)
        refine ⟨v, pg.text (v.set x.1.name (idNumber x.2)), hv, by rw [h, hset], ?_⟩
        rw [List.foldl_cons, hreplace, hrest, ← hvalue, hset]
        simp [payloadValue]
  · have haff' : affected accepts pg x rows row = false := by simpa [hplace] using haff
    rw [patchRow, if_neg (by simp [haff'])] at h
    unfold Patched at h ⊢
    rw [List.any_cons, show placeholder json x.1 row = false by simpa using hplace, Bool.false_or]
    split at h
    · next hany =>
        obtain ⟨v, text, hv, hrow, hcast⟩ := h
        obtain ⟨y, _, hy⟩ := List.any_eq_true.mp hany
        have hzero := placeholder_eq hpg hread (placeholder_iff.mp hy).1 hv x.1
        have hreplace : replaceMember v x = v := by
          simp [replaceMember, ← hzero, hplace]
        rw [if_pos hany]
        exact ⟨v, text, hv, hrow, by rw [hcast, List.foldl_cons, hreplace]⟩
    · next hnone => rw [if_neg hnone]; exact h

/-- One statement at a time. -/
theorem patched_of_allEffective (hpg : Readers json pg ids texts)
    (hread : ∀ row ∈ rows, Readable json texts row) (h : AllEffective accepts json pg ids rows) :
    ∀ row ∈ rows, Patched json pg ids row (fate accepts pg ids rows row) := by
  induction ids generalizing rows with
  | nil => intro row _; rfl
  | cons x rest ih =>
      intro row hrow
      obtain ⟨heff, hrest⟩ := h
      have haff := (effective_iff hpg hread).mp heff
      rw [← map_replaceRow_eq haff] at hrest
      have hreadable : ∀ row' ∈ rows.map (patchRow accepts pg x rows), Readable json texts row' := by
        intro row' hrow'
        obtain ⟨row, hrow, rfl⟩ := List.mem_map.mp hrow'
        exact (patchRow_readable hpg List.mem_cons_self (hread row hrow)).2
      have hlater := ih (hpg.mono fun y hy => List.mem_cons_of_mem _ hy) hreadable hrest
        (patchRow accepts pg x rows row) (List.mem_map_of_mem hrow)
      exact hlater.cons hpg (hread row hrow) (haff row hrow)

/-- For every list of distinct members: the patches make of every row what they shall if and only
if each of them does its part. -/
theorem patchAll_iff (hpg : Readers json pg ids texts) (hnodup : (ids.map Prod.fst).Nodup)
    (hids : ∀ x ∈ ids, RealId x.2) (hread : ∀ row ∈ rows, Readable json texts row) :
    List.Forall₂ (Patched json pg ids) rows (patchAll accepts pg ids rows) ↔
      AllEffective accepts json pg ids rows := by
  rw [patchAll_eq, List.forall₂_map_right_iff, List.forall₂_same]
  constructor
  · intro h
    exact allEffective_of_members hpg hnodup hids hread fun row hrow =>
      (h row hrow).members hpg hnodup (hread row hrow)
  · exact patched_of_allEffective hpg hread

end AllRows

theorem chainIds_nodup (taskId agentId : Option Int) :
    ((chainIds taskId agentId).map Prod.fst).Nodup := by
  cases taskId <;> cases agentId <;> simp [chainIds]

/-- Every pending row that the validator let in has its placeholders replaced by the given ids and
all other rows are unchanged if and only if each of the two statements does its part: it runs if
any row holds its placeholder, and selects no row that holds none. -/
theorem patchPendingWithIds_patches_iff {accepts : Sql.Parameters → Bool} {json : SerdeJson}
    {pg : Jsonb} {taskId agentId : Option Int} {rows : List OutboundExtrinsic}
    {texts : String → Prop} (hids : ∀ x ∈ chainIds taskId agentId, RealId x.2)
    (hpg : Readers json pg (chainIds taskId agentId) texts)
    (hcovered : ∀ row ∈ rows, Covered texts row)
    (hvalid : ∀ row ∈ rows, row.status = .pending →
      decodePayload json row.pallet row.call row.payload = .ok ()) :
    List.Forall₂ (Patched json pg (chainIds taskId agentId)) rows
        (patchPendingWithIds accepts pg taskId agentId rows) ↔
      AllEffective accepts json pg (chainIds taskId agentId) rows :=
  patchAll_iff hpg (chainIds_nodup taskId agentId) hids
    fun row hrow => readable_of_validated (hcovered row hrow) (hvalid row hrow)

/-! ## What the server makes of the parameters -/

/-- `$2` alone asks for two values. -/
theorem patchParameters_incomplete : patchParameters.complete = false := by decide

/-- A server that wants a value for every parameter runs neither statement, so that only rows
without a placeholder end up as they should. -/
theorem allEffective_complete_iff {json : SerdeJson} {pg : Jsonb} {ids : List (IdMember × Int)}
    {rows : List OutboundExtrinsic} :
    AllEffective Sql.Parameters.complete json pg ids rows ↔
      ∀ x ∈ ids, ∀ row ∈ rows, placeholder json x.1 row = false := by
  have hexec : ∀ x rows, executes Sql.Parameters.complete pg x rows = false := by
    intro x rows
    rw [executes, patchParameters_incomplete, Bool.false_and]
  have heff : ∀ x rows, Effective Sql.Parameters.complete json pg x rows ↔
      ∀ row ∈ rows, placeholder json x.1 row = false := by
    intro x rows
    constructor
    · intro h row hrow
      rw [Bool.eq_false_iff]
      intro hplace
      have hruns := h.runs row hrow hplace
      rw [hexec] at hruns
      cases hruns
    · intro h
      exact ⟨fun row hrow hplace => absurd hplace (by simp [h row hrow]),
        fun hruns => absurd hruns (by simp [hexec])⟩
  induction ids generalizing rows with
  | nil => simp [AllEffective]
  | cons x rest ih =>
      rw [AllEffective, heff, List.forall_mem_cons]
      refine and_congr_right fun hnone => ?_
      have hrows : rows.map (replaceRow json pg x) = rows := by
        rw [List.map_congr_left (g := id) fun row hrow => by simp [replaceRow, hnone row hrow],
          List.map_id]
      rw [hrows]
      exact ih

/-! ## Two payloads -/

section Samples

/-- The values that have the text, with or without the spaces that Postgres writes. -/
def readText (values : List Value) (text : String) : Option Value :=
  values.find? fun v => v.render "," ":" = text || v.render ", " ": " = text

def taskId (x : Value) : Value := .object [("task_id", x)]

def sampleValues : List Value :=
  [taskId (.number (.posInt 0)), taskId (.number (.posInt 7)), taskId (.string "abc")]

def sampleSerde : SerdeJson where
  fromStr text :=
    match readText sampleValues text with
    | some v => .ok v
    | none => .error "expected value at line 1 column 1"
  toString := Value.render "," ":"

/-- Postgres on these texts: a number casts, the string `abc` raises. -/
def samplePostgres : Jsonb where
  cast := readText sampleValues
  text := Value.render ", " ": "
  bigint v := v.integer?.map some

/-- A pending `allocate_task` with this member. -/
def allocation (correlationId : String) (x : Value) : OutboundExtrinsic :=
  .insert correlationId "TaskMarket" "allocate_task" (some ((taskId x).render "," ":")) .pending 0

/-- The texts of the sample values, with or without spaces. -/
def sampleTexts (text : String) : Prop := (readText sampleValues text).isSome = true

theorem sample_readers :
    Readers sampleSerde samplePostgres (chainIds (some 7) none) sampleTexts where
  zero text v w _ hv hw m := by
    have hread : readText sampleValues text = some w := hw
    simp only [sampleSerde, hread, Except.ok.injEq] at hv
    rw [hv]
  bigint x n hx _ _ := by simp [samplePostgres, hx]
  patched text v _ hv x hx _ := by
    have hx7 : x = (.taskId, 7) := by simpa [chainIds] using hx
    subst hx7
    have hfind : readText sampleValues text = some v := hv
    have hmem : v ∈ sampleValues := List.mem_of_find?_eq_some hfind
    simp only [sampleValues, List.mem_cons, List.not_mem_nil, or_false] at hmem
    rcases hmem with rfl | rfl | rfl
    · exact ⟨by rfl, by rfl, _, by rfl⟩
    · exact ⟨by rfl, by rfl, _, by rfl⟩
    · exact ⟨by rfl, by rfl, _, by rfl⟩

theorem sample_realIds : ∀ x ∈ chainIds (some 7) none, RealId x.2 := by
  intro x hx
  have hx7 : x = (.taskId, 7) := by simpa [chainIds] using hx
  subst hx7
  exact ⟨by decide, by decide, by decide⟩

/-- A placeholder among rows without one, on a server that takes the statement. -/
theorem placeholder_patched :
    List.Forall₂ (Patched sampleSerde samplePostgres (chainIds (some 7) none))
      [allocation "a" (.number (.posInt 0)), allocation "b" (.number (.posInt 7))]
      (patchPendingWithIds (fun _ => true) samplePostgres (some 7) none
        [allocation "a" (.number (.posInt 0)), allocation "b" (.number (.posInt 7))]) := by
  refine (patchPendingWithIds_patches_iff ?_ sample_readers ?_ ?_).mpr ⟨⟨?_, ?_⟩, trivial⟩
  · exact sample_realIds
  · intro row hrow _ text htext
    simp only [List.mem_cons, List.not_mem_nil, or_false] at hrow
    rcases hrow with rfl | rfl
    · obtain rfl := Option.some.inj htext
      rfl
    · obtain rfl := Option.some.inj htext
      rfl
  · intro row hrow _
    simp only [List.mem_cons, List.not_mem_nil, or_false] at hrow
    rcases hrow with rfl | rfl <;> rfl
  · intro row _ _
    rfl
  · intro _ row hrow happ
    simp only [List.mem_cons, List.not_mem_nil, or_false] at hrow
    rcases hrow with rfl | rfl
    · rfl
    · exact absurd happ (by decide)

/-- A second row whose member is a text, which the validator lets in, and neither row is patched,
whether or not the server takes the statement. -/
theorem placeholder_left :
    (∀ row ∈ [allocation "a" (.number (.posInt 0)), allocation "b" (.string "abc")],
      decodePayload sampleSerde row.pallet row.call row.payload = .ok ()) ∧
    ∀ accepts, ¬ List.Forall₂ (Patched sampleSerde samplePostgres (chainIds (some 7) none))
      [allocation "a" (.number (.posInt 0)), allocation "b" (.string "abc")]
      (patchPendingWithIds accepts samplePostgres (some 7) none
        [allocation "a" (.number (.posInt 0)), allocation "b" (.string "abc")]) := by
  have hvalid : ∀ row ∈ [allocation "a" (.number (.posInt 0)), allocation "b" (.string "abc")],
      decodePayload sampleSerde row.pallet row.call row.payload = .ok () := by
    intro row hrow
    simp only [List.mem_cons, List.not_mem_nil, or_false] at hrow
    rcases hrow with rfl | rfl <;> rfl
  refine ⟨hvalid, fun accepts h => ?_⟩
  have hplace : placeholder sampleSerde .taskId (allocation "a" (.number (.posInt 0))) = true := rfl
  have hraises : ((Update.patch .taskId 7).applies samplePostgres
      (allocation "b" (.string "abc"))).isSome = false := rfl
  have hcovered : ∀ row ∈ [allocation "a" (.number (.posInt 0)), allocation "b" (.string "abc")],
      Covered sampleTexts row := by
    intro row hrow _ text htext
    simp only [List.mem_cons, List.not_mem_nil, or_false] at hrow
    rcases hrow with rfl | rfl
    · obtain rfl := Option.some.inj htext
      rfl
    · obtain rfl := Option.some.inj htext
      rfl
  have heff := (patchAll_iff sample_readers (chainIds_nodup _ _) sample_realIds fun row hrow =>
    readable_of_validated (hcovered row hrow) fun _ => hvalid row hrow).mp h
  have hexec := heff.1.runs _ List.mem_cons_self hplace
  have hall := List.all_eq_true.mp (Bool.and_eq_true_iff.mp hexec).2
    (allocation "b" (.string "abc")) (by simp)
  rw [hraises] at hall
  cases hall

end Samples

end Ainur.Placeholders
