import Ainur.Json
import Ainur.Lib.Fallible
import Mathlib.Data.List.Nodup

set_option autoImplicit false

/-! # Derived JSON formats

What `#[derive(Serialize, Deserialize)]` generates for a type, read and written through
`serde_json::Value`. A format is built as its type is declared: a struct from its named fields, an
enum from its variants (externally tagged), the rest from `Option`, `Vec`, tuples, arrays and
numbers. Reading and writing the fields and variants is the work of the combinators; the format
of a type only lists them.

Writing fails in one place, an integer above `u64::MAX`. `Codec.Spec c fits` says where (`fits`)
and that everything that is written reads back as it was. Each combinator has one rule for it, so
the rule of a type is assembled as its format is.
-/

namespace Serde

open Ainur (Value Number)
open Fallible (bind_eq_ok ok_bind)

/-! ## Errors -/

/-- `Unexpected`, as `serde_json` shows it. -/
def unexpected : Value → String
  | .null => "null"
  | .bool b => s!"boolean `{b}`"
  | .number (.posInt n) => s!"integer `{n.toNat}`"
  | .number (.negInt n) => s!"integer `-{n + 1}`"
  | .number (.float text) => s!"floating point `{text}`"
  | .string s => s!"string \"{s}\""
  | .array _ => "sequence"
  | .object _ => "map"

def invalidType (found : Value) (expected : String) : String :=
  s!"invalid type: {unexpected found}, expected {expected}"

def invalidValue (found : Value) (expected : String) : String :=
  s!"invalid value: {unexpected found}, expected {expected}"

def invalidLength (n : Nat) (expected : String) : String :=
  s!"invalid length {n}, expected {expected}"

def missingField (name : String) : String := s!"missing field `{name}`"

/-- `OneOf`. -/
def oneOf : List String → String
  | [] => "there are no variants"
  | [a] => s!"`{a}`"
  | [a, b] => s!"`{a}` or `{b}`"
  | names => "one of " ++ String.intercalate ", " (names.map fun name => s!"`{name}`")

def unknownVariant (name : String) (expected : List String) : String :=
  s!"unknown variant `{name}`, expected {oneOf expected}"

def trailing (n : Nat) : String := invalidLength n "fewer elements in array"

/-- `NumberOutOfRange`. -/
def outOfRange : String := "number out of range"

/-! ## Maps -/

/-- The order of keys, which is that of their bytes. -/
def keyLt (a b : String) : Bool := List.lex a.toList b.toList fun x y => x.toNat < y.toNat

theorem keyLt_irrefl (a : String) : keyLt a a = false := by
  unfold keyLt
  generalize a.toList = l
  induction l with
  | nil => rfl
  | cons c l ih => simp [List.lex, ih]

/-- `Map::insert`; the map is ordered by key. -/
def insertMember (key : String) (x : Value) : List (String × Value) → List (String × Value)
  | [] => [(key, x)]
  | m :: rest =>
      if keyLt key m.1 then (key, x) :: m :: rest
      else if key = m.1 then (key, x) :: rest
      else m :: insertMember key x rest

/-- The map that has been given these members, one after the other. -/
def mapOf (members : List (String × Value)) : List (String × Value) :=
  members.foldl (fun map m => insertMember m.1 m.2 map) []

theorem lookup_insertMember (key : String) (x : Value) (map : List (String × Value))
    (name : String) :
    (insertMember key x map).lookup name = if name = key then some x else map.lookup name := by
  induction map with
  | nil =>
      by_cases hname : name = key
      · simp [insertMember, hname]
      · have hne : (name == key) = false := by simpa using hname
        rw [insertMember, List.lookup_cons, hne, if_neg hname]
  | cons m rest ih =>
      by_cases hname : name = key
      · subst hname
        by_cases heq : name = m.1
        · simp [insertMember, heq, keyLt_irrefl]
        · have hne : (name == m.1) = false := by simpa using heq
          simp only [insertMember, if_neg heq]
          split
          · simp
          · rw [List.lookup_cons, hne]
            simpa using ih
      · have hne : (name == key) = false := by simpa using hname
        simp only [insertMember, if_neg hname] at ih ⊢
        split
        · rw [List.lookup_cons, hne]
        · split
          · next heq =>
              rw [List.lookup_cons, hne, List.lookup_cons, ← heq, hne]
          · rw [List.lookup_cons, List.lookup_cons, ih]

theorem mem_insertMember {key : String} {x : Value} {map : List (String × Value)}
    {m : String × Value} (h : m ∈ insertMember key x map) : m = (key, x) ∨ m ∈ map := by
  induction map with
  | nil => exact Or.inl (List.mem_singleton.mp h)
  | cons m' rest ih =>
      simp only [insertMember] at h
      split at h
      · rcases List.mem_cons.mp h with rfl | h
        · exact Or.inl rfl
        · exact Or.inr h
      · split at h
        · rcases List.mem_cons.mp h with rfl | h
          · exact Or.inl rfl
          · exact Or.inr (List.mem_cons_of_mem _ h)
        · rcases List.mem_cons.mp h with rfl | h
          · exact Or.inr List.mem_cons_self
          · rcases ih h with heq | h
            · exact Or.inl heq
            · exact Or.inr (List.mem_cons_of_mem _ h)

/-- Where the names are distinct, the map has the members that it has been given. -/
theorem mapOf_spec {members : List (String × Value)} (h : (members.map Prod.fst).Nodup) :
    (∀ name, (mapOf members).lookup name = members.lookup name) ∧
      ∀ m ∈ mapOf members, m ∈ members := by
  have hfold : ∀ (ms acc : List (String × Value)), (ms.map Prod.fst).Nodup →
      (∀ m ∈ ms, acc.lookup m.1 = none) →
      (∀ name, (ms.foldl (fun map m => insertMember m.1 m.2 map) acc).lookup name
        = (ms.lookup name).or (acc.lookup name)) ∧
      ∀ m ∈ ms.foldl (fun map m => insertMember m.1 m.2 map) acc, m ∈ ms ∨ m ∈ acc := by
    intro ms
    induction ms with
    | nil => exact fun acc _ _ => ⟨fun name => rfl, fun m hm => Or.inr hm⟩
    | cons m ms ih =>
        intro acc hnodup hacc
        obtain ⟨hm, hrest⟩ := List.nodup_cons.mp hnodup
        have hne : ∀ m' ∈ ms, m'.1 ≠ m.1 := fun m' hm' heq =>
          hm (heq ▸ List.mem_map_of_mem hm')
        obtain ⟨hlookup, hmem⟩ := ih (insertMember m.1 m.2 acc) hrest fun m' hm' => by
          rw [lookup_insertMember, if_neg (hne m' hm')]
          exact hacc m' (List.mem_cons_of_mem _ hm')
        refine ⟨fun name => ?_, fun m' hm' => ?_⟩
        · rw [List.foldl_cons, hlookup, lookup_insertMember, List.lookup_cons]
          by_cases hname : name = m.1
          · -- the rest of the list does not name this member again
            have hnone : ms.lookup m.1 = none := by
              rw [List.lookup_eq_none_iff]
              intro m' hm'
              simpa using fun heq => hne m' hm' heq.symm
            simp [hname, hnone]
          · have hfalse : (name == m.1) = false := by simpa using hname
            rw [if_neg hname, hfalse]
        · rcases hmem m' hm' with hm' | hm'
          · exact Or.inl (List.mem_cons_of_mem _ hm')
          · rcases mem_insertMember hm' with rfl | hm'
            · exact Or.inl List.mem_cons_self
            · exact Or.inr hm'
  obtain ⟨hlookup, hmem⟩ := hfold members [] h fun m _ => rfl
  refine ⟨fun name => ?_, fun m hm => ?_⟩
  · rw [mapOf, hlookup]
    simp
  · rcases hmem m hm with hm | hm
    · exact hm
    · cases hm

/-! ## Formats -/

/-- How values of a type are written and read. -/
structure Codec (α : Type) where
  serialize : α → Except String Value
  deserialize : Value → Except String α

/-- What fits is written, and reads back as it was; what does not fit is refused. -/
structure Codec.Spec {α : Type} (c : Codec α) (fits : α → Bool) : Prop where
  written : ∀ a, fits a = true → ∃ v, c.serialize a = .ok v ∧ c.deserialize v = .ok a
  refused : ∀ a, fits a = false → c.serialize a = .error outOfRange

theorem Codec.Spec.congr {α : Type} {c : Codec α} {fits fits' : α → Bool} (h : c.Spec fits)
    (heq : ∀ a, fits' a = fits a) : c.Spec fits' :=
  ⟨fun a ha => h.written a (heq a ▸ ha), fun a ha => h.refused a (heq a ▸ ha)⟩

/-- Everything fits. -/
abbrev Codec.Total {α : Type} (c : Codec α) : Prop := c.Spec fun _ => true

section Scalars

def string : Codec String where
  serialize s := .ok (.string s)
  deserialize
    | .string s => .ok s
    | v => .error (invalidType v "a string")

def bool : Codec Bool where
  serialize b := .ok (.bool b)
  deserialize
    | .bool b => .ok b
    | v => .error (invalidType v "a boolean")

/-- An unsigned integer up to `max`, read from any integer. -/
def readUnsigned (name : String) (max : Nat) : Value → Except String Nat
  | .number (.posInt n) =>
      if n.toNat ≤ max then .ok n.toNat else .error (invalidValue (.number (.posInt n)) name)
  | .number (.negInt n) => .error (invalidValue (.number (.negInt n)) name)
  | v => .error (invalidType v name)

def u8 : Codec UInt8 where
  serialize n := .ok (.number (.posInt n.toUInt64))
  deserialize v := (readUnsigned "u8" 255 v).map UInt8.ofNat

def u32 : Codec UInt32 where
  serialize n := .ok (.number (.posInt n.toUInt64))
  deserialize v := (readUnsigned "u32" 4294967295 v).map UInt32.ofNat

def u64 : Codec UInt64 where
  serialize n := .ok (.number (.posInt n))
  deserialize v := (readUnsigned "u64" 18446744073709551615 v).map UInt64.ofNat

/-- The integers that `serde_json` writes without `arbitrary_precision`. -/
def fitsU64 (n : Nat) : Bool := n ≤ 18446744073709551615

/-- A `u128`, held as a natural number. -/
def u128 : Codec Nat where
  serialize n := if fitsU64 n then .ok (.number (.posInt (UInt64.ofNat n))) else .error outOfRange
  deserialize := readUnsigned "u128" 340282366920938463463374607431768211455

theorem string_spec : string.Total := ⟨fun s _ => ⟨.string s, rfl, rfl⟩, fun _ h => by cases h⟩

theorem bool_spec : bool.Total := ⟨fun b _ => ⟨.bool b, rfl, rfl⟩, fun _ h => by cases h⟩

theorem u8_spec : u8.Total := by
  refine ⟨fun n _ => ⟨_, rfl, ?_⟩, fun _ h => by cases h⟩
  have hle : n.toNat ≤ 255 := Nat.le_of_lt_succ n.toNat_lt
  simp [u8, readUnsigned, hle, Except.map]

theorem u32_spec : u32.Total := by
  refine ⟨fun n _ => ⟨_, rfl, ?_⟩, fun _ h => by cases h⟩
  have hle : n.toNat ≤ 4294967295 := Nat.le_of_lt_succ n.toNat_lt
  simp [u32, readUnsigned, hle, Except.map]

theorem u64_spec : u64.Total := by
  refine ⟨fun n _ => ⟨_, rfl, ?_⟩, fun _ h => by cases h⟩
  have hle : n.toNat ≤ 18446744073709551615 := Nat.le_of_lt_succ n.toNat_lt
  simp [u64, readUnsigned, hle, Except.map]

theorem u128_spec : u128.Spec fitsU64 := by
  refine ⟨fun n h => ⟨_, if_pos h, ?_⟩, fun n h => by simp [u128, h]⟩
  have hle : n ≤ 18446744073709551615 := by simpa [fitsU64] using h
  have hn : (UInt64.ofNat n).toNat = n := UInt64.toNat_ofNat_of_lt' (Nat.lt_succ_of_le hle)
  simp only [u128, readUnsigned, hn]
  rw [if_pos (by omega)]

end Scalars

/-! ## Sequences and tuples -/

section Sequences

variable {α β : Type}

/-- `Vec<T>`. -/
def seq (c : Codec α) : Codec (List α) where
  serialize xs := do
    let items ← xs.mapM c.serialize
    return .array items
  deserialize
    | .array items => items.mapM c.deserialize
    | v => .error (invalidType v "a sequence")

/-- `[u8; n]`. -/
def bytes (n : Nat) : Codec { xs : List UInt8 // xs.length = n } where
  serialize xs := (seq u8).serialize xs.val
  deserialize
    | .array items => do
        let xs ← (items.take n).mapM u8.deserialize
        if h : xs.length = n then
          if items.length > n then .error (trailing items.length) else return ⟨xs, h⟩
        else .error (invalidLength xs.length s!"an array of length {n}")
    | v => .error (invalidType v s!"an array of length {n}")

/-- The two elements of a sequence, `expected` in the message where there are fewer. -/
def readPair (c : Codec α) (d : Codec β) (expected : String) : List Value → Except String (α × β)
  | [] => .error (invalidLength 0 expected)
  | v :: rest => do
      let a ← c.deserialize v
      match rest with
      | [] => .error (invalidLength 1 expected)
      | w :: more => do
          let b ← d.deserialize w
          if more.isEmpty then return (a, b) else .error (trailing (more.length + 2))

/-- A tuple of size 2. -/
def pair (c : Codec α) (d : Codec β) : Codec (α × β) where
  serialize x := do
    let a ← c.serialize x.1
    let b ← d.serialize x.2
    return .array [a, b]
  deserialize
    | .array items => readPair c d "a tuple of size 2" items
    | v => .error (invalidType v "a tuple of size 2")

/-- A newtype: the format of what it wraps. -/
def newtype (c : Codec α) (wrap : α → β) (inner : β → α) : Codec β where
  serialize b := c.serialize (inner b)
  deserialize v := (c.deserialize v).map wrap

/-- `Option<T>`. -/
def option (c : Codec α) : Codec (Option α) where
  serialize
    | none => .ok .null
    | some a => c.serialize a
  deserialize
    | .null => .ok none
    | v => (c.deserialize v).map some

variable {c : Codec α} {d : Codec β} {fits : α → Bool} {fits' : β → Bool}

theorem mapM_written (h : c.Spec fits) (xs : List α) (hxs : xs.all fits = true) :
    ∃ items, xs.mapM c.serialize = .ok items ∧ items.mapM c.deserialize = .ok xs ∧
      items.length = xs.length := by
  induction xs with
  | nil => exact ⟨[], rfl, rfl, rfl⟩
  | cons x xs ih =>
      obtain ⟨hx, hrest⟩ := Bool.and_eq_true_iff.mp hxs
      obtain ⟨v, hv, hread⟩ := h.written x hx
      obtain ⟨items, hitems, hback, hlen⟩ := ih hrest
      refine ⟨v :: items, ?_, ?_, by simp [hlen]⟩
      · rw [List.mapM_cons, hv, hitems]
        rfl
      · rw [List.mapM_cons, hread, hback]
        rfl

theorem mapM_refused (h : c.Spec fits) (xs : List α) (hxs : xs.all fits = false) :
    xs.mapM c.serialize = .error outOfRange := by
  induction xs with
  | nil => cases hxs
  | cons x xs ih =>
      rw [List.mapM_cons]
      by_cases hx : fits x = true
      · obtain ⟨v, hv, -⟩ := h.written x hx
        have hrest : xs.all fits = false := by simpa [hx] using hxs
        rw [hv, ih hrest]
        rfl
      · rw [h.refused x (by simpa using hx)]
        rfl

theorem seq_spec (h : c.Spec fits) : (seq c).Spec fun xs => xs.all fits := by
  refine ⟨fun xs hxs => ?_, fun xs hxs => ?_⟩
  · obtain ⟨items, hitems, hback, -⟩ := mapM_written h xs hxs
    refine ⟨.array items, ?_, hback⟩
    show (do let items ← xs.mapM c.serialize; return Value.array items) = _
    rw [hitems]
    rfl
  · show (do let items ← xs.mapM c.serialize; return Value.array items) = _
    rw [mapM_refused h xs hxs]
    rfl

theorem bytes_spec (n : Nat) : (bytes n).Total := by
  refine ⟨fun xs _ => ?_, fun xs h => by cases h⟩
  obtain ⟨items, hitems, hback, hlen⟩ := mapM_written u8_spec xs.val (by simp)
  have hn : items.length = n := hlen.trans xs.property
  -- `n` elements are read and the array has no more of them
  have htake : items.take n = items := List.take_of_length_le (Nat.le_of_eq hn)
  refine ⟨.array items, ?_, ?_⟩
  · show (do let items ← xs.val.mapM u8.serialize; return Value.array items) = _
    rw [hitems]
    rfl
  · simp only [bytes, htake, hback, ok_bind]
    rw [dif_pos xs.property, if_neg (by omega)]
    rfl

/-- What is written is two values, which read back as they were whatever is expected. -/
theorem pair_written (hc : c.Spec fits) (hd : d.Spec fits') {x : α × β}
    (hx : (fits x.1 && fits' x.2) = true) :
    ∃ v w, (pair c d).serialize x = .ok (.array [v, w]) ∧
      ∀ expected, readPair c d expected [v, w] = .ok x := by
  obtain ⟨h1, h2⟩ := Bool.and_eq_true_iff.mp hx
  obtain ⟨v, hv, hreadv⟩ := hc.written x.1 h1
  obtain ⟨w, hw, hreadw⟩ := hd.written x.2 h2
  refine ⟨v, w, ?_, fun expected => ?_⟩
  · simp only [pair, hv, hw, ok_bind]
    rfl
  · simp only [readPair, hreadv, hreadw, ok_bind]
    rfl

theorem pair_spec (hc : c.Spec fits) (hd : d.Spec fits') :
    (pair c d).Spec fun x => fits x.1 && fits' x.2 := by
  refine ⟨fun x hx => ?_, fun x hx => ?_⟩
  · obtain ⟨v, w, hwrite, hread⟩ := pair_written hc hd hx
    exact ⟨.array [v, w], hwrite, hread "a tuple of size 2"⟩
  · simp only [pair]
    by_cases h1 : fits x.1 = true
    · obtain ⟨v, hv, -⟩ := hc.written x.1 h1
      have h2 : fits' x.2 = false := by simpa [h1] using hx
      rw [hv, hd.refused x.2 h2]
      rfl
    · rw [hc.refused x.1 (by simpa using h1)]
      rfl

theorem newtype_spec (hc : c.Spec fits) {wrap : α → β} {inner : β → α}
    (hwrap : ∀ b, wrap (inner b) = b) : (newtype c wrap inner).Spec fun b => fits (inner b) := by
  refine ⟨fun b hb => ?_, fun b hb => hc.refused _ hb⟩
  obtain ⟨v, hv, hread⟩ := hc.written _ hb
  refine ⟨v, hv, ?_⟩
  simp only [newtype, hread, Except.map, hwrap]

/-- Never written as `null`, so an option of it can be told from no value. -/
def Codec.NotNull (c : Codec α) : Prop := ∀ a, c.serialize a ≠ .ok .null

theorem string_notNull : string.NotNull := fun _ h => by cases h

theorem u32_notNull : u32.NotNull := fun _ h => by cases h

theorem u64_notNull : u64.NotNull := fun _ h => by cases h

theorem option_spec (hc : c.Spec fits) (hnull : c.NotNull) :
    (option c).Spec fun o => o.all fits := by
  refine ⟨fun o ho => ?_, fun o ho => ?_⟩
  · cases o with
    | none => exact ⟨.null, rfl, rfl⟩
    | some a =>
        obtain ⟨v, hv, hread⟩ := hc.written a ho
        have hne : v ≠ .null := by
          rintro rfl
          exact hnull a hv
        refine ⟨v, hv, ?_⟩
        show (option c).deserialize v = _
        unfold option
        cases v with
        | null => exact absurd rfl hne
        | bool b => simp only [hread, Except.map]
        | number n => simp only [hread, Except.map]
        | string s => simp only [hread, Except.map]
        | array xs => simp only [hread, Except.map]
        | object ms => simp only [hread, Except.map]
  · cases o with
    | none => cases ho
    | some a => exact hc.refused a ho

end Sequences

/-! ## Structs -/

/-- Named fields and what they hold together. -/
structure Fields (α : Type) where
  names : List String
  serialize : α → Except String (List (String × Value))
  /-- The decoding of a member of the map; a name that is no field's is ignored. -/
  visit : String → Value → Except String Unit
  /-- The fields, once every member of the map has been decoded. -/
  collect : List (String × Value) → Except String α
  /-- The fields from a sequence, of which `i` elements have been taken. -/
  sequence : String → Nat → List Value → Except String (α × List Value)

namespace Fields

variable {α β : Type}

/-- The decoding of one field. -/
def visitField (name : String) (c : Codec α) (key : String) (v : Value) : Except String Unit :=
  if key = name then (c.deserialize v).map fun _ => () else .ok ()

/-- The next element of a sequence. -/
def nextElement (c : Codec α) (expected : String) (i : Nat) :
    List Value → Except String (α × List Value)
  | [] => .error (invalidLength i expected)
  | v :: rest => (c.deserialize v).map fun a => (a, rest)

/-- A field that must be there. -/
def field (name : String) (c : Codec α) : Fields α where
  names := [name]
  serialize a := (c.serialize a).map fun v => [(name, v)]
  visit := visitField name c
  collect map :=
    match map.lookup name with
    | some v => c.deserialize v
    | none => .error (missingField name)
  sequence := nextElement c

/-- A field of type `Option<T>`; where it is missing, there is no value. -/
def optional (name : String) (c : Codec α) : Fields (Option α) where
  names := [name]
  serialize o := ((option c).serialize o).map fun v => [(name, v)]
  visit := visitField name (option c)
  collect map :=
    match map.lookup name with
    | some v => (option c).deserialize v
    | none => .ok none
  sequence := nextElement (option c)

/-- These fields, then those. -/
def and (f : Fields α) (g : Fields β) : Fields (α × β) where
  names := f.names ++ g.names
  serialize x := do
    let ms ← f.serialize x.1
    let ns ← g.serialize x.2
    return ms ++ ns
  visit key v := do
    f.visit key v
    g.visit key v
  collect map := do
    let a ← f.collect map
    let b ← g.collect map
    return (a, b)
  sequence expected i items := do
    let (a, rest) ← f.sequence expected i items
    let (b, rest') ← g.sequence expected (i + f.names.length) rest
    return ((a, b), rest')

/-- What fits is written under the fields' names, and any map that agrees on these names reads
back as it was. -/
structure Spec (f : Fields α) (fits : α → Bool) : Prop where
  written : ∀ a, fits a = true → ∃ members, f.serialize a = .ok members ∧
    members.map Prod.fst = f.names ∧ (∀ m ∈ members, f.visit m.1 m.2 = .ok ()) ∧
    ∀ map, (∀ name ∈ f.names, map.lookup name = members.lookup name) → f.collect map = .ok a
  refused : ∀ a, fits a = false → f.serialize a = .error outOfRange
  ignores : ∀ key, key ∉ f.names → ∀ v, f.visit key v = .ok ()

section Spec

variable {c : Codec α} {fits : α → Bool} {fits' : β → Bool} {f : Fields α} {g : Fields β}

theorem visitField_ignores {name key : String} (h : key ∉ [name]) (v : Value) :
    visitField name c key v = .ok () :=
  if_neg fun heq => h (List.mem_singleton.mpr heq)

theorem field_spec (name : String) (hc : c.Spec fits) : (field name c).Spec fits := by
  refine ⟨fun a ha => ?_, fun a ha => ?_, fun key hkey v => visitField_ignores hkey v⟩
  · obtain ⟨v, hv, hread⟩ := hc.written a ha
    refine ⟨[(name, v)], ?_, rfl, fun m hm => ?_, fun map hmap => ?_⟩
    · simp only [field, hv, Except.map]
    · obtain rfl := List.mem_singleton.mp hm
      simp only [field, visitField, hread, Except.map, if_pos]
    · have hlookup : map.lookup name = some v := by
        rw [hmap name (List.mem_singleton.mpr rfl)]
        simp
      simp only [field, hlookup, hread]
  · simp only [field, hc.refused a ha, Except.map]

theorem optional_spec (name : String) (hc : c.Spec fits) (hnull : c.NotNull) :
    (optional name c).Spec fun o => o.all fits := by
  have hspec := option_spec hc hnull
  refine ⟨fun o ho => ?_, fun o ho => ?_, fun key hkey v => visitField_ignores hkey v⟩
  · obtain ⟨v, hv, hread⟩ := hspec.written o ho
    refine ⟨[(name, v)], ?_, rfl, fun m hm => ?_, fun map hmap => ?_⟩
    · simp only [optional, hv, Except.map]
    · obtain rfl := List.mem_singleton.mp hm
      simp only [optional, visitField, hread, Except.map, if_pos]
    · have hlookup : map.lookup name = some v := by
        rw [hmap name (List.mem_singleton.mpr rfl)]
        simp
      simp only [optional, hlookup, hread]
  · simp only [optional, hspec.refused o ho, Except.map]

/-- Fields under distinct names do not meddle with each other. -/
theorem and_spec (hf : f.Spec fits) (hg : g.Spec fits')
    (hnames : (f.names ++ g.names).Nodup) : (f.and g).Spec fun x => fits x.1 && fits' x.2 := by
  obtain ⟨-, -, hdisjoint⟩ := List.nodup_append.mp hnames
  refine ⟨fun x hx => ?_, fun x hx => ?_, fun key hkey v => ?_⟩
  · obtain ⟨h1, h2⟩ := Bool.and_eq_true_iff.mp hx
    obtain ⟨ms, hms, hmsNames, hmsVisit, hmsCollect⟩ := hf.written x.1 h1
    obtain ⟨ns, hns, hnsNames, hnsVisit, hnsCollect⟩ := hg.written x.2 h2
    have hmem : ∀ {m}, m ∈ ms → m.1 ∈ f.names := fun hm => hmsNames ▸ List.mem_map_of_mem hm
    have hmem' : ∀ {m}, m ∈ ns → m.1 ∈ g.names := fun hm => hnsNames ▸ List.mem_map_of_mem hm
    refine ⟨ms ++ ns, ?_, ?_, fun m hm => ?_, fun map hmap => ?_⟩
    · simp only [Fields.and, hms, hns, ok_bind]
      rfl
    · show (ms ++ ns).map Prod.fst = f.names ++ g.names
      rw [List.map_append, hmsNames, hnsNames]
    · -- a member is decoded by the side that it belongs to and ignored by the other
      simp only [Fields.and]
      rcases List.mem_append.mp hm with hm | hm
      · have hne : m.1 ∉ g.names := fun hg' => hdisjoint m.1 (hmem hm) m.1 hg' rfl
        rw [hmsVisit m hm, hg.ignores m.1 hne]
        rfl
      · have hne : m.1 ∉ f.names := fun hf' => hdisjoint m.1 hf' m.1 (hmem' hm) rfl
        rw [hnsVisit m hm, hf.ignores m.1 hne]
        rfl
    · have hleft : f.collect map = .ok x.1 := by
        refine hmsCollect map fun name hname => ?_
        have hnone : ns.lookup name = none := by
          rw [List.lookup_eq_none_iff]
          intro m hm
          simpa using hdisjoint name hname m.1 (hmem' hm)
        rw [hmap name (List.mem_append_left _ hname), List.lookup_append, hnone, Option.or_none]
      have hright : g.collect map = .ok x.2 := by
        refine hnsCollect map fun name hname => ?_
        have hnone : ms.lookup name = none := by
          rw [List.lookup_eq_none_iff]
          intro m hm
          simpa using fun heq : name = m.1 => hdisjoint m.1 (hmem hm) name hname heq.symm
        rw [hmap name (List.mem_append_right _ hname), List.lookup_append, hnone, Option.none_or]
      simp only [Fields.and, hleft, hright, ok_bind]
      rfl
  · simp only [Fields.and]
    by_cases h1 : fits x.1 = true
    · obtain ⟨ms, hms, -⟩ := hf.written x.1 h1
      have h2 : fits' x.2 = false := by simpa [h1] using hx
      rw [hms, hg.refused x.2 h2]
      rfl
    · rw [hf.refused x.1 (by simpa using h1)]
      rfl
  · have hkeys : key ∉ f.names ∧ key ∉ g.names := by
      rw [← not_or, ← List.mem_append]
      exact hkey
    simp only [Fields.and, hf.ignores key hkeys.1, hg.ignores key hkeys.2]
    rfl

end Spec

/-- The fields written as a map. -/
def toObject (f : Fields α) (a : α) : Except String Value :=
  (f.serialize a).map fun members => .object (mapOf members)

/-- The fields of a map: every member is decoded, then they are put together. -/
def ofObject (f : Fields α) (members : List (String × Value)) : Except String α := do
  members.forM fun m => f.visit m.1 m.2
  f.collect members

/-- The fields of a sequence. -/
def ofArray (f : Fields α) (expected : String) (items : List Value) : Except String α := do
  let (a, rest) ← f.sequence s!"{expected} with {f.names.length} elements" 0 items
  if rest.isEmpty then return a else .error (trailing items.length)

/-- A member that cannot be decoded ends the reading of the map. -/
theorem ofObject_of_visit {f : Fields α} {m : String × Value} {rest : List (String × Value)}
    {err : String} (h : f.visit m.1 m.2 = .error err) : f.ofObject (m :: rest) = .error err := by
  show (do (do f.visit m.1 m.2; rest.forM fun m => f.visit m.1 m.2); f.collect (m :: rest)) = _
  rw [h]
  rfl

theorem toObject_spec {f : Fields α} {fits : α → Bool} (hf : f.Spec fits)
    (hnames : f.names.Nodup) {a : α} (ha : fits a = true) :
    ∃ members, f.toObject a = .ok (.object members) ∧ f.ofObject members = .ok a := by
  obtain ⟨ms, hms, hmsNames, hvisit, hcollect⟩ := hf.written a ha
  obtain ⟨hlookup, hmem⟩ := mapOf_spec (hmsNames ▸ hnames)
  have hforM : ∀ xs : List (String × Value), (∀ m ∈ xs, m ∈ ms) →
      xs.forM (fun m => f.visit m.1 m.2) = .ok () := by
    intro xs hxs
    induction xs with
    | nil => rfl
    | cons x xs ih =>
        show (do f.visit x.1 x.2; xs.forM fun m => f.visit m.1 m.2) = _
        rw [hvisit x (hxs x List.mem_cons_self),
          ih fun m hm => hxs m (List.mem_cons_of_mem _ hm)]
        rfl
  refine ⟨mapOf ms, by simp only [toObject, hms, Except.map], ?_⟩
  show (do (mapOf ms).forM fun m => f.visit m.1 m.2; f.collect (mapOf ms)) = _
  rw [hforM _ hmem, hcollect _ fun name _ => hlookup name]
  rfl

end Fields

/-- A struct with named fields. -/
def Codec.struct {α β : Type} (name : String) (f : Fields β) (ofFields : β → α) (fields : α → β) :
    Codec α where
  serialize a := f.toObject (fields a)
  deserialize
    | .object members => (f.ofObject members).map ofFields
    | .array items => (f.ofArray s!"struct {name}" items).map ofFields
    | v => .error (invalidType v s!"struct {name}")

theorem struct_spec {α β : Type} {name : String} {f : Fields β} {fits : β → Bool}
    {ofFields : β → α} {fields : α → β} (hf : f.Spec fits) (hnames : f.names.Nodup)
    (hfields : ∀ a, ofFields (fields a) = a) :
    (Codec.struct name f ofFields fields).Spec fun a => fits (fields a) := by
  refine ⟨fun a ha => ?_, fun a ha => ?_⟩
  · obtain ⟨members, hwrite, hread⟩ := Fields.toObject_spec hf hnames ha
    refine ⟨.object members, hwrite, ?_⟩
    simp only [Codec.struct, hread, Except.map, hfields]
  · simp only [Codec.struct, Fields.toObject, hf.refused _ ha, Except.map]

/-! ## Enums -/

/-- What a variant holds. `serialize` is given the name of the variant, and `deserialize` what
stands under it; a variant that is only named has nothing there. -/
structure Content (γ : Type) where
  serialize : String → γ → Except String Value
  deserialize : Option Value → Except String γ

namespace Content

variable {γ δ : Type}

/-- The value under the name of its variant. -/
def tagged (write : γ → Except String Value) (name : String) (x : γ) : Except String Value :=
  (write x).map fun v => .object [(name, v)]

/-- The message for a variant that is only named. -/
def unitVariant (expected : String) : String := s!"invalid type: unit variant, expected {expected}"

/-- No content: the name alone. -/
def unit : Content Unit where
  serialize name _ := .ok (.string name)
  deserialize
    | none => .ok ()
    | some .null => .ok ()
    | some v => .error (invalidType v "unit")

/-- One value. -/
def newtype (c : Codec γ) : Content γ where
  serialize := tagged c.serialize
  deserialize
    | none => .error (unitVariant "newtype variant")
    | some v => c.deserialize v

/-- Two values of the variant `expected`; no value at all reads as `null`. -/
def tuple (expected : String) (c : Codec γ) (d : Codec δ) : Content (γ × δ) where
  serialize := tagged (pair c d).serialize
  deserialize
    | none => .error (unitVariant "tuple variant")
    | some (.array []) => .error (invalidType .null s!"tuple variant {expected}")
    | some (.array items) => readPair c d s!"tuple variant {expected} with 2 elements" items
    | some v => .error (invalidType v "tuple variant")

/-- Named fields. -/
def struct (f : Fields γ) : Content γ where
  serialize := tagged f.toObject
  deserialize
    | none => .error (unitVariant "struct variant")
    | some (.object members) => f.ofObject members
    | some v => .error (invalidType v "struct variant")

/-- The value that a variant is written as: its name, or an object with that one member. -/
inductive Form (name : String) : Option Value → Value → Prop
  | named : Form name none (.string name)
  | tagged (v : Value) : Form name (some v) (.object [(name, v)])

/-- What fits is written under the name, and reads back as it was. -/
structure Spec (k : Content γ) (fits : γ → Bool) : Prop where
  written : ∀ name x, fits x = true → ∃ content v, k.serialize name x = .ok v ∧
    Form name content v ∧ k.deserialize content = .ok x
  refused : ∀ name x, fits x = false → k.serialize name x = .error outOfRange

theorem unit_spec : unit.Spec fun _ => true :=
  ⟨fun _ _ _ => ⟨none, _, rfl, .named, rfl⟩, fun _ _ h => by cases h⟩

theorem newtype_spec {c : Codec γ} {fits : γ → Bool} (hc : c.Spec fits) :
    (newtype c).Spec fits := by
  refine ⟨fun name x hx => ?_, fun name x hx => ?_⟩
  · obtain ⟨v, hv, hread⟩ := hc.written x hx
    exact ⟨some v, _, by simp only [newtype, Content.tagged, hv, Except.map], .tagged v, hread⟩
  · simp only [newtype, Content.tagged, hc.refused x hx, Except.map]

theorem tuple_spec {expected : String} {c : Codec γ} {d : Codec δ} {fits : γ → Bool}
    {fits' : δ → Bool} (hc : c.Spec fits) (hd : d.Spec fits') :
    (tuple expected c d).Spec fun x => fits x.1 && fits' x.2 := by
  refine ⟨fun name x hx => ?_, fun name x hx => ?_⟩
  · obtain ⟨v, w, hwrite, hread⟩ := pair_written hc hd hx
    exact ⟨some (.array [v, w]), _, by simp only [tuple, Content.tagged, hwrite, Except.map],
      .tagged _, hread s!"tuple variant {expected} with 2 elements"⟩
  · simp only [tuple, Content.tagged, (pair_spec hc hd).refused x hx, Except.map]

theorem struct_spec {f : Fields γ} {fits : γ → Bool} (hf : f.Spec fits) (hnames : f.names.Nodup) :
    (struct f).Spec fits := by
  refine ⟨fun name x hx => ?_, fun name x hx => ?_⟩
  · obtain ⟨members, hwrite, hread⟩ := Fields.toObject_spec hf hnames hx
    exact ⟨some (.object members), _, by simp only [struct, Content.tagged, hwrite, Except.map],
      .tagged _, hread⟩
  · simp only [struct, Content.tagged, Fields.toObject, hf.refused x hx, Except.map]

end Content

/-- A variant of an enum: its name, how its values are written (`none` for those of another
variant), and how its content is read. -/
structure Variant (α : Type) where
  name : String
  serialize : α → Option (Except String Value)
  deserialize : Option Value → Except String α

namespace Variant

variable {α γ : Type}

/-- A variant with this content. -/
def of (name : String) (k : Content γ) (make : γ → α) (content : α → Option γ) : Variant α where
  name := name
  serialize a := (content a).map (k.serialize name)
  deserialize v := (k.deserialize v).map make

/-- A variant without content. -/
def unit [DecidableEq α] (name : String) (a : α) : Variant α :=
  of name .unit (fun _ => a) fun b => if b = a then some () else none

/-- The values of this variant that fit are written, and read back as they were. -/
structure Spec (variant : Variant α) (fits : α → Bool) : Prop where
  written : ∀ a x, variant.serialize a = some x → fits a = true →
    ∃ content v, x = .ok v ∧ Content.Form variant.name content v ∧
      variant.deserialize content = .ok a
  refused : ∀ a x, variant.serialize a = some x → fits a = false → x = .error outOfRange

theorem of_spec {name : String} {k : Content γ} {make : γ → α} {content : α → Option γ}
    {fits : α → Bool} {fits' : γ → Bool} (hk : k.Spec fits')
    (hmake : ∀ a x, content a = some x → make x = a) (hfits : ∀ x, fits (make x) = fits' x) :
    (of name k make content).Spec fits := by
  refine ⟨fun a x hx ha => ?_, fun a x hx ha => ?_⟩
  · obtain ⟨c, hc, rfl⟩ := Option.map_eq_some_iff.mp hx
    obtain rfl := hmake a c hc
    obtain ⟨o, v, hv, hform, hread⟩ := hk.written name c (hfits c ▸ ha)
    exact ⟨o, v, hv, hform, by simp only [of, hread, Except.map]⟩
  · obtain ⟨c, hc, rfl⟩ := Option.map_eq_some_iff.mp hx
    obtain rfl := hmake a c hc
    exact hk.refused name c (hfits c ▸ ha)

theorem unit_spec [DecidableEq α] {name : String} {a : α} {fits : α → Bool}
    (ha : fits a = true) : (unit name a).Spec fits := by
  refine of_spec Content.unit_spec (fun b x hb => ?_) fun _ => ha
  by_contra hne
  rw [if_neg fun heq : b = a => hne heq.symm] at hb
  cases hb

end Variant

/-- An externally tagged enum. -/
def Codec.enum {α : Type} (variants : List (Variant α)) : Codec α where
  serialize a := (variants.findSome? fun variant => variant.serialize a).getD (.error "no variant")
  deserialize v := do
    let (name, content) ← match v with
      | .string name => .ok (name, none)
      | .object [(name, x)] => .ok (name, some x)
      | .object _ => .error (invalidValue v "map with a single key")
      | v => .error (invalidType v "string or map")
    match variants.find? fun variant => variant.name = name with
    | some variant => variant.deserialize content
    | none => .error (unknownVariant name (variants.map Variant.name))

section Enum

variable {α : Type} {variants : List (Variant α)} {fits : α → Bool}

/-- The value that a variant is written as is read as that variant. -/
theorem enum_deserialize {variant : Variant α} {content : Option Value} {v : Value}
    (hnames : (variants.map Variant.name).Nodup) (hmem : variant ∈ variants)
    (hform : Content.Form variant.name content v) :
    (Codec.enum variants).deserialize v = variant.deserialize content := by
  have hfind : (variants.find? fun w => w.name = variant.name) = some variant := by
    obtain ⟨w, hw⟩ := Option.isSome_iff_exists.mp
      (List.find?_isSome (p := fun w : Variant α => decide (w.name = variant.name)).mpr
        ⟨variant, hmem, by simp⟩)
    have hname : w.name = variant.name := by simpa using List.find?_some hw
    rw [hw, List.inj_on_of_nodup_map hnames (List.mem_of_find?_eq_some hw) hmem hname]
  cases hform with
  | named => simp only [Codec.enum, ok_bind, hfind]
  | tagged x => simp only [Codec.enum, ok_bind, hfind]

/-- Distinct names, a rule for every variant, and a variant for every value. -/
theorem enum_spec (hnames : (variants.map Variant.name).Nodup)
    (hspec : ∀ variant ∈ variants, variant.Spec fits)
    (hcover : ∀ a, (variants.any fun variant => (variant.serialize a).isSome) = true) :
    (Codec.enum variants).Spec fits := by
  have hwrite : ∀ a, ∃ variant ∈ variants, ∃ x, variant.serialize a = some x ∧
      (Codec.enum variants).serialize a = x := by
    intro a
    obtain ⟨w, hw, hsome⟩ := List.any_eq_true.mp (hcover a)
    have hfind : (variants.findSome? fun variant => variant.serialize a).isSome = true :=
      List.findSome?_isSome_iff.mpr ⟨w, hw, hsome⟩
    obtain ⟨x, hx⟩ := Option.isSome_iff_exists.mp hfind
    obtain ⟨variant, hmem, hser⟩ := List.exists_of_findSome?_eq_some hx
    exact ⟨variant, hmem, x, hser, by simp only [Codec.enum, hx, Option.getD_some]⟩
  refine ⟨fun a ha => ?_, fun a ha => ?_⟩
  · obtain ⟨variant, hmem, x, hser, heq⟩ := hwrite a
    obtain ⟨content, v, rfl, hform, hread⟩ := (hspec variant hmem).written a x hser ha
    exact ⟨v, heq, (enum_deserialize hnames hmem hform).trans hread⟩
  · obtain ⟨variant, hmem, x, hser, heq⟩ := hwrite a
    rw [heq]
    exact (hspec variant hmem).refused a x hser ha

theorem enum_notNull (hspec : ∀ variant ∈ variants, variant.Spec fits) :
    (Codec.enum variants).NotNull := by
  intro a hnull
  have hgetD : (variants.findSome? fun variant => variant.serialize a).getD
      (.error "no variant") = .ok Value.null := hnull
  cases hfind : variants.findSome? fun variant => variant.serialize a with
  | none =>
      rw [hfind] at hgetD
      cases hgetD
  | some x =>
      obtain ⟨variant, hmem, hser⟩ := List.exists_of_findSome?_eq_some hfind
      rw [hfind] at hgetD
      obtain rfl : x = .ok Value.null := hgetD
      by_cases ha : fits a = true
      · obtain ⟨content, v, hv, hform, -⟩ := (hspec variant hmem).written a _ hser ha
        obtain rfl : Value.null = v := Except.ok.inj hv
        cases hform
      · have herr := (hspec variant hmem).refused a _ hser (by simpa using ha)
        cases herr

end Enum

end Serde
