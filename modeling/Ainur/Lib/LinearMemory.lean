import Mathlib.Algebra.Group.Nat.Defs
import Mathlib.Tactic.Common

set_option autoImplicit false

/-! # Linear memory

A memory of bytes with a size, and reads and writes of byte strings at an address. `bytes` and
`put` are total; `read` and `write` are what a host gets, and fail outside the memory. A pair of
32-bit words is packed in a 64-bit word, as a function with one result returns a pointer and a
length.
-/

namespace Linear

structure Memory where
  size : Nat
  byte : Nat → UInt8

namespace Memory

variable (mem : Memory) (addr len : Nat) (data : List UInt8)

/-- The bytes at `addr`. -/
def bytes : List UInt8 := (List.range len).map fun i => mem.byte (addr + i)

/-- The memory with `data` at `addr`. -/
def put : Memory :=
  { mem with
    byte := fun a => if addr ≤ a then (data[a - addr]?).getD (mem.byte a) else mem.byte a }

def read : Option (List UInt8) :=
  if addr + len ≤ mem.size then some (mem.bytes addr len) else none

def write : Option Memory :=
  if addr + data.length ≤ mem.size then some (mem.put addr data) else none

@[simp] theorem length_bytes : (mem.bytes addr len).length = len := by
  simp [bytes]

@[simp] theorem size_put : (mem.put addr data).size = mem.size := rfl

variable {mem addr len data}

/-- What was put is what is there. -/
@[simp] theorem bytes_put : (mem.put addr data).bytes addr data.length = data := by
  refine List.ext_getElem (by simp) fun i _ hi => ?_
  simp [bytes, put, hi]

/-- Outside of the data nothing changes. -/
theorem byte_put_of_outside {a : Nat} (h : a < addr ∨ addr + data.length ≤ a) :
    (mem.put addr data).byte a = mem.byte a := by
  simp only [put]
  split
  · next hle =>
      have hnone : data[a - addr]? = none := by
        rw [List.getElem?_eq_none_iff]
        omega
      rw [hnone, Option.getD_none]
  · rfl

theorem bytes_congr {mem' : Memory} (h : ∀ i < len, mem'.byte (addr + i) = mem.byte (addr + i)) :
    mem'.bytes addr len = mem.bytes addr len :=
  List.map_congr_left fun i hi => h i (List.mem_range.mp hi)

theorem bytes_succ : mem.bytes addr (len + 1) = mem.byte addr :: mem.bytes (addr + 1) len := by
  simp [bytes, List.range_succ_eq_map, Nat.add_assoc, Nat.add_comm 1]

/-- A part of the bytes at `addr`. -/
theorem drop_take_bytes {i n : Nat} (h : i + n ≤ len) :
    ((mem.bytes addr len).drop i).take n = mem.bytes (addr + i) n := by
  refine List.ext_getElem ?_ fun k _ _ => ?_
  · simp only [List.length_take, List.length_drop, length_bytes]
    omega
  · simp [bytes, Nat.add_assoc]

/-- What is put inside of a range replaces a part of its bytes. -/
theorem bytes_put_inside {i : Nat} (h : i + data.length ≤ len) :
    (mem.put (addr + i) data).bytes addr len =
      (mem.bytes addr len).take i ++ data ++ (mem.bytes addr len).drop (i + data.length) := by
  refine List.ext_getElem ?_ fun k hk _ => ?_
  · simp only [List.length_append, List.length_take, List.length_drop, length_bytes]
    omega
  · rw [length_bytes] at hk
    simp only [bytes, List.getElem_map, List.getElem_range, List.getElem_append,
      List.length_append, List.length_take, List.length_map, List.length_range,
      List.getElem_take, List.getElem_drop, put]
    by_cases hbelow : k < i
    · rw [if_neg (by omega), dif_pos (by omega), dif_pos (by omega)]
    · rw [if_pos (by omega)]
      by_cases hin : k < i + data.length
      · have hsome : data[addr + k - (addr + i)]? = some data[k - i] := by
          rw [List.getElem?_eq_some_iff]
          exact ⟨by omega, by congr 1; omega⟩
        rw [dif_pos (by omega), dif_neg (by omega), hsome, Option.getD_some]
        congr 1
        omega
      · have hnone : data[addr + k - (addr + i)]? = none := by
          rw [List.getElem?_eq_none_iff]
          omega
        rw [dif_neg (by omega), hnone, Option.getD_none]
        congr 1
        omega

theorem read_of_le (h : addr + len ≤ mem.size) : mem.read addr len = some (mem.bytes addr len) :=
  if_pos h

theorem write_of_le (h : addr + data.length ≤ mem.size) :
    mem.write addr data = some (mem.put addr data) :=
  if_pos h

end Memory

/-! ## Pairs of words -/

/-- `(high << 32) | low`. -/
def pack (low high : UInt32) : UInt64 := (high.toUInt64 <<< 32) ||| low.toUInt64

/-- The lower 32 bits. -/
def low (w : UInt64) : UInt32 := (w &&& 0xffffffff).toUInt32

/-- The upper 32 bits. -/
def high (w : UInt64) : UInt32 := (w >>> 32).toUInt32

theorem toNat_pack (l h : UInt32) : (pack l h).toNat = h.toNat * 2 ^ 32 + l.toNat := by
  have hl := l.toNat_lt
  have hh := h.toNat_lt
  have hshift : (h.toUInt64 <<< 32).toNat = h.toNat <<< 32 := by
    rw [UInt64.toNat_shiftLeft, UInt32.toNat_toUInt64]
    show h.toNat <<< 32 % 2 ^ 64 = _
    rw [Nat.shiftLeft_eq]
    omega
  rw [pack, UInt64.toNat_or, hshift, UInt32.toNat_toUInt64,
    ← Nat.shiftLeft_add_eq_or_of_lt hl, Nat.shiftLeft_eq]

@[simp] theorem low_pack (l h : UInt32) : low (pack l h) = l := by
  have hl := l.toNat_lt
  rw [← UInt32.toNat_inj, low, UInt64.toNat_toUInt32, UInt64.toNat_and, toNat_pack]
  show ((h.toNat * 2 ^ 32 + l.toNat) &&& (2 ^ 32 - 1)) % 2 ^ 32 = l.toNat
  rw [Nat.and_two_pow_sub_one_eq_mod]
  omega

@[simp] theorem high_pack (l h : UInt32) : high (pack l h) = h := by
  have hl := l.toNat_lt
  have hh := h.toNat_lt
  rw [← UInt32.toNat_inj, high, UInt64.toNat_toUInt32, UInt64.toNat_shiftRight, toNat_pack]
  show (h.toNat * 2 ^ 32 + l.toNat) >>> 32 % 2 ^ 32 = h.toNat
  rw [Nat.shiftRight_eq_div_pow]
  omega
end Linear
