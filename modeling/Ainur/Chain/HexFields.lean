import Ainur.Lib.Utf8
import Ainur.Api.Handlers

set_option autoImplicit false

/-! # Hash fields as hexadecimal text

`hex_to_32` reads the hashes of every payload, and the handlers write them as `"0x"` followed by
`hex::encode`. The texts it accepts are described exactly: groups `0x`, as many as there are, and
then the 64 digits of the result, each in either case.
-/

namespace Ainur

open Fallible (bind_eq_ok mapError_eq_ok okOr_eq_ok)

/-! ## One digit -/

/-- The characters that `hex::decode` takes for digits. -/
def IsHexDigit (c : Char) : Prop :=
  ('0' ≤ c ∧ c ≤ '9') ∨ ('a' ≤ c ∧ c ≤ 'f') ∨ ('A' ≤ c ∧ c ≤ 'F')

/-- The two lowercase digits of a byte. -/
def digitPair (b : UInt8) : List Char := [hexDigit (b >>> 4), hexDigit (b &&& 15)]

theorem hexEncode_toList (bytes : List UInt8) :
    (hexEncode bytes).toList = bytes.flatMap digitPair := String.toList_ofList

theorem char_le_iff {c d : Char} : c ≤ d ↔ c.toNat ≤ d.toNat := Iff.rfl

theorem toLower_toNat (c : Char) :
    c.toLower.toNat = if 65 ≤ c.toNat ∧ c.toNat ≤ 90 then c.toNat + 32 else c.toNat := by
  unfold Char.toLower
  by_cases h : c.val ≥ 'A'.val ∧ c.val ≤ 'Z'.val
  · have hn : 65 ≤ c.toNat ∧ c.toNat ≤ 90 := h
    rw [dif_pos h, if_pos hn]
    change (c.val + ('a'.val - 'A'.val)).toNat = c.val.toNat + 32
    have hc : c.val.toNat ≤ 90 := hn.2
    simp only [Char.reduceVal, UInt32.reduceSub, UInt32.toNat_add, UInt32.reduceToNat]
    omega
  · have hn : ¬ (65 ≤ c.toNat ∧ c.toNat ≤ 90) := h
    rw [dif_neg h, if_neg hn]

theorem toNat_ofNat_of_lt {n : Nat} (h : n < 128) : (Char.ofNat n).toNat = n := by
  have hv : n.isValidChar := .inl (by omega)
  rw [Char.ofNat, dif_pos hv]
  rfl

theorem hexDigit_toNat {v : UInt8} (h : v < 16) :
    (hexDigit v).toNat = if v.toNat < 10 then 48 + v.toNat else 87 + v.toNat := by
  have hv : v.toNat < 16 := h
  unfold hexDigit
  by_cases h10 : v < 10
  · have hn : v.toNat < 10 := h10
    rw [if_pos h10, if_pos hn]
    exact toNat_ofNat_of_lt (by omega)
  · have hn : ¬ v.toNat < 10 := h10
    rw [if_neg h10, if_neg hn]
    exact toNat_ofNat_of_lt (by omega)

/-- The three ranges of `hexVal`. -/
theorem hexVal_eq_ok_iff {b v : UInt8} {i : Nat} :
    hexVal b i = .ok v ↔
      (65 ≤ b.toNat ∧ b.toNat ≤ 70 ∧ b.toNat = v.toNat + 55) ∨
      (97 ≤ b.toNat ∧ b.toNat ≤ 102 ∧ b.toNat = v.toNat + 87) ∨
      (48 ≤ b.toNat ∧ b.toNat ≤ 57 ∧ b.toNat = v.toNat + 48) := by
  have hb := b.toNat_lt
  simp only [hexVal, UInt8.le_iff_toNat_le, UInt8.reduceToNat]
  split
  · next h =>
      simp only [Except.ok.injEq, ← UInt8.toNat_inj, UInt8.toNat_add, UInt8.toNat_sub,
        UInt8.reduceToNat]
      omega
  split
  · next h =>
      simp only [Except.ok.injEq, ← UInt8.toNat_inj, UInt8.toNat_add, UInt8.toNat_sub,
        UInt8.reduceToNat]
      omega
  split
  · next h =>
      simp only [Except.ok.injEq, ← UInt8.toNat_inj, UInt8.toNat_sub, UInt8.reduceToNat]
      omega
  · next h₁ h₂ h₃ =>
      simp only [reduceCtorEq, false_iff]
      omega

/-- A one-byte character has the value `v` exactly when its lowercase form is the digit of
`v`. -/
theorem hexVal_iff_toLower {c : Char} {v : UInt8} {i : Nat} (hc : c.toNat < 128) :
    hexVal (UInt8.ofNat c.toNat) i = .ok v ↔ v < 16 ∧ c.toLower = hexDigit v := by
  have hbyte : (UInt8.ofNat c.toNat).toNat = c.toNat := by
    rw [UInt8.toNat_ofNat']
    omega
  rw [hexVal_eq_ok_iff, hbyte]
  constructor
  · intro h
    have hv : v.toNat < 16 := by omega
    refine ⟨hv, Char.toNat_inj.1 ?_⟩
    rw [toLower_toNat, hexDigit_toNat hv]
    split <;> split <;> omega
  · rintro ⟨hv, h⟩
    have hv' : v.toNat < 16 := hv
    have hn := congrArg Char.toNat h
    rw [toLower_toNat, hexDigit_toNat hv] at hn
    split at hn <;> split at hn <;> omega

/-! ## Pairs of digits -/

theorem pair_of_halves (b : UInt8) : (b >>> 4) <<< 4 ||| (b &&& 15) = b := by
  obtain ⟨⟨n⟩⟩ := b
  revert n
  decide +kernel

theorem halves_of_pair {hi lo : UInt8} (hhi : hi < 16) (hlo : lo < 16) :
    (hi <<< 4 ||| lo) >>> 4 = hi ∧ (hi <<< 4 ||| lo) &&& 15 = lo := by
  have hall : ∀ a b : Fin 16,
      (UInt8.ofNat a <<< 4 ||| UInt8.ofNat b) >>> 4 = UInt8.ofNat a ∧
        (UInt8.ofNat a <<< 4 ||| UInt8.ofNat b) &&& 15 = UInt8.ofNat b := by decide
  simpa using hall ⟨hi.toNat, hhi⟩ ⟨lo.toNat, hlo⟩

theorem half_lt (b : UInt8) : b >>> 4 < 16 ∧ b &&& 15 < 16 := by
  obtain ⟨⟨n⟩⟩ := b
  revert n
  decide +kernel

/-- Two one-byte characters are read as `b` exactly when their lowercase forms are its digits. -/
theorem hexVal_pair_iff {c d : Char} {b : UInt8} {i j : Nat} (hc : c.toNat < 128)
    (hd : d.toNat < 128) :
    (∃ hi, hexVal (UInt8.ofNat c.toNat) i = .ok hi ∧
      ∃ lo, hexVal (UInt8.ofNat d.toNat) j = .ok lo ∧ hi <<< 4 ||| lo = b) ↔
    c.toLower = hexDigit (b >>> 4) ∧ d.toLower = hexDigit (b &&& 15) := by
  constructor
  · rintro ⟨hi, hhi, lo, hlo, rfl⟩
    obtain ⟨hhi, hc'⟩ := (hexVal_iff_toLower hc).1 hhi
    obtain ⟨hlo, hd'⟩ := (hexVal_iff_toLower hd).1 hlo
    obtain ⟨h₁, h₂⟩ := halves_of_pair hhi hlo
    exact ⟨by rw [h₁, hc'], by rw [h₂, hd']⟩
  · rintro ⟨hc', hd'⟩
    obtain ⟨hhi, hlo⟩ := half_lt b
    exact ⟨_, (hexVal_iff_toLower hc).2 ⟨hhi, hc'⟩, _, (hexVal_iff_toLower hd).2 ⟨hlo, hd'⟩,
      pair_of_halves b⟩

theorem hexPairs_eq_ok_iff : ∀ {cs : List Char} {bytes : List UInt8} {i : Nat},
    (∀ c ∈ cs, c.toNat < 128) → cs.length % 2 = 0 →
    (hexPairs (cs.map fun c => UInt8.ofNat c.toNat) i = .ok bytes ↔
      cs.map Char.toLower = bytes.flatMap digitPair)
  | [], bytes, i, _, _ => by
      cases bytes with
      | nil => simp [hexPairs]
      | cons b bytes => simp [hexPairs, digitPair]
  | [_], _, _, _, heven => by simp at heven
  | c :: d :: cs, bytes, i, hascii, heven => by
      have hc : c.toNat < 128 := hascii c (by simp)
      have hd : d.toNat < 128 := hascii d (by simp)
      have hrest : ∀ e ∈ cs, e.toNat < 128 := fun e he => hascii e (by simp [he])
      have heven' : cs.length % 2 = 0 := by
        simp only [List.length_cons] at heven
        omega
      simp only [List.map_cons, hexPairs, bind_eq_ok]
      constructor
      · rintro ⟨hi, hhi, lo, hlo, tail, htail, hbytes⟩
        obtain rfl := (Except.ok.inj hbytes).symm
        obtain ⟨hc', hd'⟩ := (hexVal_pair_iff hc hd).1 ⟨hi, hhi, lo, hlo, rfl⟩
        have ih := (hexPairs_eq_ok_iff hrest heven').1 htail
        rw [List.flatMap_cons, ← ih, hc', hd']
        rfl
      · intro h
        cases bytes with
        | nil => simp at h
        | cons b tail =>
            simp only [List.flatMap_cons, digitPair, List.cons_append, List.nil_append,
              List.cons.injEq] at h
            obtain ⟨hc', hd', htail⟩ := h
            obtain ⟨hi, hhi, lo, hlo, hb⟩ := (hexVal_pair_iff hc hd).2 ⟨hc', hd'⟩
            exact ⟨hi, hhi, lo, hlo, tail, (hexPairs_eq_ok_iff hrest heven').2 htail,
              congrArg Except.ok (congrArg (· :: tail) hb)⟩

/-- What `hex::decode` reads are one-byte characters. -/
theorem ascii_of_hexPairs : ∀ {ds : List UInt8} {i : Nat} {bytes : List UInt8},
    ds.length % 2 = 0 → hexPairs ds i = .ok bytes → ∀ b ∈ ds, b < 0x80
  | [], _, _, _, _ => by simp
  | [_], _, _, heven, _ => by simp at heven
  | a :: b :: ds, i, bytes, heven, h => by
      have digit : ∀ {x v : UInt8} {j : Nat}, hexVal x j = .ok v → x < 0x80 := by
        intro x v j hx
        rw [hexVal_eq_ok_iff] at hx
        change x.toNat < 128
        omega
      have heven' : ds.length % 2 = 0 := by
        simp only [List.length_cons] at heven
        omega
      simp only [hexPairs, bind_eq_ok] at h
      obtain ⟨hi, hhi, lo, hlo, tail, htail, -⟩ := h
      intro x hx
      simp only [List.mem_cons] at hx
      rcases hx with rfl | rfl | hx
      · exact digit hhi
      · exact digit hlo
      · exact ascii_of_hexPairs heven' htail x hx

theorem length_flatMap_digitPair (bytes : List UInt8) :
    (bytes.flatMap digitPair).length = 2 * bytes.length := by
  induction bytes with
  | nil => rfl
  | cons b bytes ih =>
      rw [List.flatMap_cons, List.length_append, ih, List.length_cons]
      change 2 + 2 * bytes.length = 2 * (bytes.length + 1)
      omega

theorem IsHexDigit.toNat_lt {c : Char} (h : IsHexDigit c) : c.toNat < 128 := by
  simp only [IsHexDigit, char_le_iff, Char.reduceToNat] at h
  omega

/-- A text that is the digits of some bytes up to case has hexadecimal digits only. -/
theorem isHexDigit_of_mem {cs : List Char} {bytes : List UInt8}
    (h : cs.map Char.toLower = bytes.flatMap digitPair) {c : Char} (hc : c ∈ cs) :
    IsHexDigit c := by
  have hmem : c.toLower ∈ bytes.flatMap digitPair := by
    rw [← h]
    exact List.mem_map_of_mem hc
  obtain ⟨b, -, hb⟩ := List.mem_flatMap.1 hmem
  obtain ⟨v, hv, hlow⟩ : ∃ v, v < 16 ∧ c.toLower = hexDigit v := by
    simp only [digitPair, List.mem_cons, List.not_mem_nil, or_false] at hb
    rcases hb with hb | hb
    · exact ⟨_, (half_lt b).1, hb⟩
    · exact ⟨_, (half_lt b).2, hb⟩
  have hv' : v.toNat < 16 := hv
  have hn := congrArg Char.toNat hlow
  rw [toLower_toNat, hexDigit_toNat hv] at hn
  simp only [IsHexDigit, char_le_iff, Char.reduceToNat]
  split at hn <;> split at hn <;> omega

/-- `hex::decode` returns the bytes whose digits the text is, up to case. -/
theorem hexDecode_eq_ok_iff {cs : List Char} {bytes : List UInt8} :
    hexDecode (Utf8.encode cs) = .ok bytes ↔ cs.map Char.toLower = bytes.flatMap digitPair := by
  unfold hexDecode
  constructor
  · intro h
    split at h
    · cases h
    · next heven =>
        have hascii := Utf8.ascii_of_encode (ascii_of_hexPairs (by omega) h)
        rw [Utf8.encode_of_ascii hascii] at h heven
        rw [List.length_map] at heven
        exact (hexPairs_eq_ok_iff hascii (by omega)).1 h
  · intro h
    have hlen := congrArg List.length h
    rw [List.length_map, length_flatMap_digitPair] at hlen
    have hascii : ∀ c ∈ cs, c.toNat < 128 := fun c hc =>
      (isHexDigit_of_mem h hc).toNat_lt
    rw [Utf8.encode_of_ascii hascii, if_neg (by rw [List.length_map]; omega)]
    exact (hexPairs_eq_ok_iff hascii (by omega)).2 h

/-! ## The prefix -/

/-- `0x`, `n` times over. -/
def groups : Nat → List Char
  | 0 => []
  | n + 1 => '0' :: 'x' :: groups n

theorem trimStart0x_groups (n : Nat) (cs : List Char) :
    trimStart0x (groups n ++ cs) = trimStart0x cs := by
  induction n with
  | zero => rfl
  | succ n ih => exact ih

theorem exists_groups (cs : List Char) : ∃ n, cs = groups n ++ trimStart0x cs := by
  induction cs using trimStart0x.induct with
  | case1 cs ih =>
      obtain ⟨n, hn⟩ := ih
      exact ⟨n + 1, congrArg (fun l => '0' :: 'x' :: l) hn⟩
  | case2 cs h =>
      refine ⟨0, ?_⟩
      rw [trimStart0x]
      · rfl
      · exact h

/-- A digit is no `x`, so nothing is stripped from the digits themselves. -/
theorem trimStart0x_digits {cs : List Char} (h : ∀ c ∈ cs, IsHexDigit c) :
    trimStart0x cs = cs := by
  rw [trimStart0x]
  rintro rest rfl
  have hx : IsHexDigit 'x' := h 'x' (by simp)
  simp only [IsHexDigit, char_le_iff, Char.reduceToNat] at hx
  omega

/-! ## `hex_to_32` -/

theorem utf8_ofList (cs : List Char) : utf8 (String.ofList cs) = Utf8.encode cs := by
  rw [utf8, String.toList_ofList]
  rfl

/-- A text is accepted as `a` when what is left of it after its prefix is `a`'s digits, up to
case. -/
theorem hexTo32_string_iff {s : String} {a : Bytes32} :
    hexTo32 (some (.string s)) = .ok a ↔
      (trimStart0x s.toList).map Char.toLower = a.val.flatMap digitPair := by
  rw [← hexDecode_eq_ok_iff]
  simp only [hexTo32, bind_eq_ok, mapError_eq_ok, utf8_ofList, Option.bind_some, Value.asStr,
    okOr_eq_ok]
  constructor
  · rintro ⟨_, hs, bytes, hbytes, h⟩
    obtain rfl := Option.some.inj hs
    split at h
    · obtain rfl := Except.ok.inj h
      exact hbytes
    · cases h
  · intro h
    exact ⟨s, rfl, a.val, h, dif_pos a.property⟩

theorem isSome_of_hexTo32 {val : Option Value} {a : Bytes32} (h : hexTo32 val = .ok a) :
    ∃ s, val = some (.string s) := by
  simp only [hexTo32, bind_eq_ok, okOr_eq_ok] at h
  obtain ⟨s, hs, -⟩ := h
  obtain ⟨v, rfl, hv⟩ := Option.bind_eq_some_iff.1 hs
  cases v with
  | string t => exact ⟨t, rfl⟩
  | null => cases hv
  | bool b => cases hv
  | number n => cases hv
  | array items => cases hv
  | object members => cases hv

/-- The digits of `a`, each in either case. -/
def IsDigitsOf (digits : List Char) (a : Bytes32) : Prop :=
  digits.map Char.toLower = (hexEncode a.val).toList

theorem IsDigitsOf.isHexDigit {digits : List Char} {a : Bytes32} (h : IsDigitsOf digits a) :
    ∀ c ∈ digits, IsHexDigit c := by
  rw [IsDigitsOf, hexEncode_toList] at h
  exact fun _ hc => isHexDigit_of_mem h hc

theorem IsDigitsOf.length {digits : List Char} {a : Bytes32} (h : IsDigitsOf digits a) :
    digits.length = 64 := by
  calc digits.length
    _ = (digits.map Char.toLower).length := (List.length_map _).symm
    _ = (a.val.flatMap digitPair).length := by rw [h, hexEncode_toList]
    _ = 2 * a.val.length := length_flatMap_digitPair a.val
    _ = 64 := by rw [a.property]

theorem hexTo32_groups_iff {n : Nat} {digits : List Char} {a : Bytes32}
    (h : ∀ c ∈ digits, IsHexDigit c) :
    hexTo32 (some (.string (String.ofList (groups n ++ digits)))) = .ok a ↔
      IsDigitsOf digits a := by
  rw [hexTo32_string_iff, String.toList_ofList, trimStart0x_groups, trimStart0x_digits h,
    IsDigitsOf, hexEncode_toList]

theorem hexDigit_toLower {v : UInt8} (h : v < 16) : (hexDigit v).toLower = hexDigit v := by
  have hv : v.toNat < 16 := h
  apply Char.toNat_inj.1
  rw [toLower_toNat, hexDigit_toNat h]
  split <;> split <;> omega

theorem isDigitsOf_hexEncode (a : Bytes32) : IsDigitsOf (hexEncode a.val).toList a := by
  rw [IsDigitsOf, hexEncode_toList]
  refine (List.map_congr_left fun c hc => ?_).trans (List.map_id _)
  obtain ⟨b, -, hb⟩ := List.mem_flatMap.1 hc
  simp only [digitPair, List.mem_cons, List.not_mem_nil, or_false] at hb
  rcases hb with rfl | rfl
  · exact hexDigit_toLower (half_lt b).1
  · exact hexDigit_toLower (half_lt b).2

/-- Every value `hex_to_32` accepts is a text of groups `0x` and the digits of its result. -/
theorem exists_groups_of_hexTo32 {val : Option Value} {a : Bytes32} (h : hexTo32 val = .ok a) :
    ∃ n digits, val = some (.string (String.ofList (groups n ++ digits))) ∧
      IsDigitsOf digits a := by
  obtain ⟨s, rfl⟩ := isSome_of_hexTo32 h
  obtain ⟨n, hn⟩ := exists_groups s.toList
  refine ⟨n, trimStart0x s.toList, ?_, ?_⟩
  · rw [← hn, String.ofList_toList]
  · rw [IsDigitsOf, hexEncode_toList]
    exact hexTo32_string_iff.1 h

theorem prefixed_eq (cs : List Char) : "0x" ++ String.ofList cs = String.ofList (groups 1 ++ cs) := by
  apply String.toList_injective
  simp only [String.toList_append, String.toList_ofList]
  rfl

/-- The digits of `a` are read as `a`, with a prefix and without. -/
theorem hexTo32_of_isDigitsOf {digits : List Char} {a : Bytes32} (h : IsDigitsOf digits a) :
    hexTo32 (some (.string ("0x" ++ String.ofList digits))) = .ok a ∧
      hexTo32 (some (.string (String.ofList digits))) = .ok a := by
  refine ⟨?_, (hexTo32_groups_iff (n := 0) h.isHexDigit).2 h⟩
  rw [prefixed_eq]
  exact (hexTo32_groups_iff h.isHexDigit).2 h

/-- The text a handler writes for a hash, read back. -/
theorem hexTo32_hashHex (lib : Libraries) (bytes : List UInt8) :
    hexTo32 (some (.string (hashHex lib bytes))) = .ok (lib.blake3 bytes) := by
  have h := (hexTo32_of_isDigitsOf (isDigitsOf_hexEncode (lib.blake3 bytes))).1
  rw [String.ofList_toList] at h
  exact h

/-- **Hash fields are decoded faithfully.** The digits of `a`, in any case and with or without a
prefix, are read as `a`, the text of the handlers among them; nothing else is accepted; and two
accepted texts give one hash exactly when their digits agree up to case. -/
theorem hexTo32_faithful :
    (∀ a : Bytes32, hexTo32 (some (.string ("0x" ++ hexEncode a.val))) = .ok a ∧
      hexTo32 (some (.string (hexEncode a.val))) = .ok a) ∧
    (∀ (a : Bytes32) (digits : List Char), digits.map Char.toLower = (hexEncode a.val).toList →
      hexTo32 (some (.string ("0x" ++ String.ofList digits))) = .ok a ∧
      hexTo32 (some (.string (String.ofList digits))) = .ok a) ∧
    (∀ (val : Option Value) (a : Bytes32), hexTo32 val = .ok a →
      ∃ (n : Nat) (digits : List Char),
        val = some (.string (String.ofList (groups n ++ digits))) ∧ digits.length = 64 ∧
        (∀ c ∈ digits, IsHexDigit c) ∧ digits.map Char.toLower = (hexEncode a.val).toList) ∧
    (∀ (m n : Nat) (ds es : List Char) (a b : Bytes32),
      (∀ c ∈ ds, IsHexDigit c) → (∀ c ∈ es, IsHexDigit c) →
      hexTo32 (some (.string (String.ofList (groups m ++ ds)))) = .ok a →
      hexTo32 (some (.string (String.ofList (groups n ++ es)))) = .ok b →
      (a = b ↔ ds.map Char.toLower = es.map Char.toLower)) := by
  refine ⟨fun a => ?_, fun a digits h => hexTo32_of_isDigitsOf h, ?_, ?_⟩
  · have h := hexTo32_of_isDigitsOf (isDigitsOf_hexEncode a)
    rw [String.ofList_toList] at h
    exact h
  · intro val a h
    obtain ⟨n, digits, hval, hd⟩ := exists_groups_of_hexTo32 h
    exact ⟨n, digits, hval, hd.length, hd.isHexDigit, hd⟩
  · intro m n ds es a b hds hes ha hb
    have ha' : IsDigitsOf ds a := (hexTo32_groups_iff hds).1 ha
    have hb' : IsDigitsOf es b := (hexTo32_groups_iff hes).1 hb
    constructor
    · rintro rfl
      exact ha'.trans hb'.symm
    · intro heq
      -- one text is read as both, and `hex_to_32` is a function
      have hb'' : IsDigitsOf ds b := heq.trans hb'
      have h := (hexTo32_of_isDigitsOf ha').2
      rw [(hexTo32_of_isDigitsOf hb'').2] at h
      exact (Except.ok.inj h).symm

end Ainur
