import Mathlib.Tactic.Common

set_option autoImplicit false

/-! # Characters and their bytes

The encoding of one character is a single byte below `0x80`, or a first byte from `0xC0` on and
continuation bytes after it. From this alone: a text whose bytes are all below `0x80` is those
bytes, and the byte at a position tells whether a character starts there.
-/

namespace Utf8

/-- The bytes of a list of characters. -/
def encode (cs : List Char) : List UInt8 := cs.flatMap String.utf8EncodeChar

@[simp] theorem encode_nil : encode [] = [] := rfl

@[simp] theorem encode_cons (c : Char) (cs : List Char) :
    encode (c :: cs) = String.utf8EncodeChar c ++ encode cs := rfl

@[simp] theorem encode_append (cs ds : List Char) : encode (cs ++ ds) = encode cs ++ encode ds :=
  List.flatMap_append

/-- A byte inside a character: `0b10xxxxxx`. -/
def IsContinuation (b : UInt8) : Prop := 0x80 ≤ b ∧ b < 0xC0

instance (b : UInt8) : Decidable (IsContinuation b) := by
  unfold IsContinuation; infer_instance

/-! ## One character -/

theorem encodeChar_cases (c : Char) :
    (c.toNat < 128 ∧ String.utf8EncodeChar c = [UInt8.ofNat c.toNat]) ∨
    ∃ b rest, String.utf8EncodeChar c = b :: rest ∧ 0xC0 ≤ b ∧ ∀ x ∈ rest, IsContinuation x := by
  -- `0x80 + k` with `k < 64` is a continuation byte
  have cont : ∀ k : Nat, IsContinuation (UInt8.ofNat (k % 0x40 + 0x80)) := by
    intro k
    simp only [IsContinuation, UInt8.le_iff_toNat_le, UInt8.lt_iff_toNat_lt, UInt8.toNat_ofNat']
    have h : k % 0x40 < 0x40 := Nat.mod_lt _ (by decide)
    simp only [UInt8.reduceToNat]
    omega
  have first : ∀ k m : Nat, 0xC0 ≤ m → m + k < 256 → 0xC0 ≤ UInt8.ofNat (k + m) := by
    intro k m h₁ h₂
    simp only [UInt8.le_iff_toNat_le, UInt8.toNat_ofNat', UInt8.reduceToNat]
    omega
  unfold String.utf8EncodeChar
  simp only
  split
  · next h => exact .inl ⟨Nat.lt_succ_of_le h, rfl⟩
  split
  · refine .inr ⟨_, _, rfl, first _ _ (by decide) (by omega), ?_⟩
    intro x hx
    rw [List.mem_singleton.1 hx]
    exact cont _
  split
  · refine .inr ⟨_, _, rfl, first _ _ (by decide) (by omega), ?_⟩
    intro x hx
    simp only [List.mem_cons, List.not_mem_nil, or_false] at hx
    rcases hx with rfl | rfl <;> exact cont _
  · refine .inr ⟨_, _, rfl, first _ _ (by decide) (by omega), ?_⟩
    intro x hx
    simp only [List.mem_cons, List.not_mem_nil, or_false] at hx
    rcases hx with rfl | rfl | rfl <;> exact cont _

theorem encodeChar_of_ascii {c : Char} (h : c.toNat < 128) :
    String.utf8EncodeChar c = [UInt8.ofNat c.toNat] := by
  unfold String.utf8EncodeChar
  exact if_pos (Nat.le_of_lt_succ h)

/-! ## Texts of one-byte characters -/

theorem encode_of_ascii {cs : List Char} (h : ∀ c ∈ cs, c.toNat < 128) :
    encode cs = cs.map fun c => UInt8.ofNat c.toNat := by
  induction cs with
  | nil => rfl
  | cons c cs ih =>
      rw [encode_cons, encodeChar_of_ascii (h c (by simp)), ih fun d hd => h d (by simp [hd])]
      rfl

/-- A text whose bytes are all below `0x80` has one-byte characters only. -/
theorem ascii_of_encode {cs : List Char} (h : ∀ b ∈ encode cs, b < 0x80) :
    ∀ c ∈ cs, c.toNat < 128 := by
  intro c hc
  obtain ⟨hn, -⟩ | ⟨b, rest, hb, hfirst, -⟩ := encodeChar_cases c
  · exact hn
  · -- the first byte of a longer encoding is at least `0xC0`
    have hmem : b ∈ encode cs := List.mem_flatMap.2 ⟨c, hc, by simp [hb]⟩
    exact absurd (h b hmem) (UInt8.not_lt.2 (UInt8.le_trans (by decide) hfirst))

/-! ## How many bytes -/

theorem length_encode_cons (c : Char) (cs : List Char) :
    (encode (c :: cs)).length = c.utf8Size + (encode cs).length := by
  rw [encode_cons, List.length_append, String.length_utf8EncodeChar]

/-- Every character takes at least one byte. -/
theorem length_le_length_encode (cs : List Char) : cs.length ≤ (encode cs).length := by
  induction cs with
  | nil => exact Nat.le_refl 0
  | cons c cs ih =>
      have hc : 0 < c.utf8Size := c.utf8Size_pos
      rw [length_encode_cons, List.length_cons]
      omega

/-! ## Where a character starts -/

/-- `str::is_char_boundary`, on the bytes. -/
def IsCharBoundary (bytes : List UInt8) (n : Nat) : Prop :=
  n = bytes.length ∨ ∃ b, bytes[n]? = some b ∧ ¬ IsContinuation b

/-- The first byte of a character is no continuation byte. -/
theorem encodeChar_head (c : Char) :
    ∃ b, (String.utf8EncodeChar c).head? = some b ∧ ¬ IsContinuation b := by
  obtain ⟨hn, h⟩ | ⟨b, rest, h, hb, -⟩ := encodeChar_cases c
  · refine ⟨_, by rw [h, List.head?_cons], fun hcont => ?_⟩
    have hge : 128 ≤ (UInt8.ofNat c.toNat).toNat := UInt8.le_iff_toNat_le.1 hcont.1
    rw [UInt8.toNat_ofNat'] at hge
    omega
  · refine ⟨b, by rw [h, List.head?_cons], fun hcont => ?_⟩
    exact absurd hcont.2 (UInt8.not_lt.2 hb)

/-- Every later byte of a character is one. -/
theorem encodeChar_tail {c : Char} {n : Nat} {b : UInt8}
    (h : (String.utf8EncodeChar c)[n + 1]? = some b) : IsContinuation b := by
  obtain ⟨-, hc⟩ | ⟨b', rest, hc, -, hrest⟩ := encodeChar_cases c
  · simp [hc] at h
  · rw [hc, List.getElem?_cons_succ] at h
    exact hrest b (List.mem_of_getElem? h)

/-- The boundaries of a text are the lengths of its beginnings. -/
theorem isCharBoundary_encode_iff {cs : List Char} {n : Nat} :
    IsCharBoundary (encode cs) n ↔ ∃ l r, cs = l ++ r ∧ (encode l).length = n := by
  constructor
  · intro h
    induction cs generalizing n with
    | nil =>
        refine ⟨[], [], rfl, ?_⟩
        rcases h with h | ⟨b, hb, -⟩
        · exact h.symm
        · simp at hb
    | cons c cs ih =>
        rcases Nat.eq_zero_or_pos n with rfl | hpos
        · exact ⟨[], c :: cs, rfl, rfl⟩
        rw [encode_cons] at h
        rcases Nat.lt_or_ge n (String.utf8EncodeChar c).length with hlt | hge
        · -- inside the first character there is no boundary
          obtain ⟨m, rfl⟩ : ∃ m, n = m + 1 := ⟨n - 1, by omega⟩
          rcases h with h | ⟨b, hb, hcont⟩
          · rw [List.length_append] at h
            omega
          · rw [List.getElem?_append_left hlt] at hb
            exact absurd (encodeChar_tail hb) hcont
        · have hrest : IsCharBoundary (encode cs) (n - (String.utf8EncodeChar c).length) := by
            rcases h with h | ⟨b, hb, hcont⟩
            · rw [List.length_append] at h
              exact .inl (by omega)
            · rw [List.getElem?_append_right hge] at hb
              exact .inr ⟨b, hb, hcont⟩
          obtain ⟨l, r, rfl, hl⟩ := ih hrest
          refine ⟨c :: l, r, rfl, ?_⟩
          rw [encode_cons, List.length_append]
          omega
  · rintro ⟨l, r, rfl, rfl⟩
    cases r with
    | nil => exact .inl (by rw [List.append_nil])
    | cons c r =>
        obtain ⟨b, hb, hcont⟩ := encodeChar_head c
        refine .inr ⟨b, ?_, hcont⟩
        rw [encode_append, List.getElem?_append_right (Nat.le_refl _), Nat.sub_self, encode_cons,
          ← List.head?_eq_getElem?, List.head?_append, hb]
        rfl

end Utf8
