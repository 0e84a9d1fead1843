import Mathlib.Algebra.Group.Nat.Defs
import Mathlib.Tactic.Common

set_option autoImplicit false

/-! # Unsigned values read as signed ones

A cast from an unsigned integer to a signed one of `width` bits keeps the lower bits: the value
stays what it is below `2 ^ (width - 1)`, and is another one from there on.
-/

namespace Cast

/-- The signed value of the lower `width` bits of `n`. -/
def wrap (width n : Nat) : Int := (n : Int).bmod (2 ^ width)

variable {width n : Nat}

theorem wrap_lt (hwidth : 0 < width) : wrap width n < ((2 ^ (width - 1) : Nat) : Int) := by
  obtain ⟨k, rfl⟩ : ∃ k, width = k + 1 := ⟨width - 1, by omega⟩
  have hlt : wrap (k + 1) n < ((2 ^ (k + 1) : Nat) + 1) / 2 := Int.bmod_lt (Nat.two_pow_pos _)
  have hpow : (2 : Nat) ^ (k + 1) = 2 * 2 ^ k := Nat.pow_succ'
  rw [Nat.add_sub_cancel]
  omega

theorem wrap_of_lt (h : n < 2 ^ (width - 1)) : wrap width n = n := by
  cases width with
  | zero =>
      obtain rfl : n = 0 := by simpa using h
      rfl
  | succ k =>
      have hpow : (2 : Nat) ^ (k + 1) = 2 * 2 ^ k := Nat.pow_succ'
      rw [Nat.add_sub_cancel] at h
      exact Int.bmod_eq_of_le_mul_two (by omega) (by omega)

/-- The cast keeps the value exactly below the signed limit. -/
theorem wrap_eq_iff (hwidth : 0 < width) : wrap width n = n ↔ n < 2 ^ (width - 1) := by
  constructor
  · intro h
    have hlt := wrap_lt (n := n) hwidth
    rw [h] at hlt
    exact Int.ofNat_lt.1 hlt
  · exact wrap_of_lt

theorem toInt_toInt64 (n : UInt64) : n.toInt64.toInt = wrap 64 n.toNat :=
  BitVec.toInt_eq_toNat_bmod n.toBitVec

theorem toInt_toInt32 (n : UInt32) : n.toInt32.toInt = wrap 32 n.toNat :=
  BitVec.toInt_eq_toNat_bmod n.toBitVec

end Cast
