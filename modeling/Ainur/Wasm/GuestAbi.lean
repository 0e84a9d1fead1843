import Ainur.Wasm.Echo

set_option autoImplicit false

/-! # The guest's `execute`, with its own integers

`execute` of `echo-wasm` once more, now with every cast, sum and index as the guest computes it on
its 32-bit `usize`: where an index is outside of the window or a plain sum overflows, there is no
result. It always has one, and what it packs the host unpacks.
-/

namespace Ainur.Wasm

open Linear (Memory pack low high)

/-! ## The guest's types -/

/-- The slice of `memory_as_slice_mut`. -/
@[ext]
structure Window where
  bytes : List UInt8
  length_eq : bytes.length = windowLength

/-- A `Vec<u8>` of the guest, which never holds more than `isize::MAX` bytes. -/
structure GuestVec where
  bytes : List UInt8
  length_lt : bytes.length < 2 ^ 31

/-- `Vec::len`. -/
def GuestVec.len (v : GuestVec) : UInt32 := UInt32.ofNat v.bytes.length

/-- `usize::saturating_add`. -/
def saturatingAdd (a b : UInt32) : UInt32 :=
  if a.toNat + b.toNat < 2 ^ 32 then a + b else 0xffffffff

/-- `+` on `usize`; `none` where it overflows. -/
def plainAdd (a b : UInt32) : Option UInt32 :=
  if a.toNat + b.toNat < 2 ^ 32 then some (a + b) else none

namespace Window

/-- `mem.len()`. -/
def len (_mem : Window) : UInt32 := 65536

/-- `&mem[start..stop]`; `none` where it panics. -/
def slice (mem : Window) (start stop : UInt32) : Option (List UInt8) :=
  if start ≤ stop ∧ stop ≤ mem.len then
    some ((mem.bytes.drop start.toNat).take (stop.toNat - start.toNat))
  else none

/-- The window with `data` at an offset. -/
def put (mem : Window) (offset : Nat) (data : List UInt8)
    (h : offset + data.length ≤ windowLength) : Window where
  bytes := mem.bytes.take offset ++ data ++ mem.bytes.drop (offset + data.length)
  length_eq := by
    have hlen := mem.length_eq
    simp only [List.length_append, List.length_take, List.length_drop]
    omega

/-- `mem[start..stop].copy_from_slice(data)`; `none` where the index or the lengths make it
panic. -/
def copyFromSlice (mem : Window) (start stop : UInt32) (data : List UInt8) : Option Window :=
  if h : start ≤ stop ∧ stop.toNat ≤ windowLength ∧ data.length = stop.toNat - start.toNat then
    some (mem.put start.toNat data (by
      have hle : start.toNat ≤ stop.toNat := h.1
      omega))
  else none

end Window

/-! ## `execute` -/

/-- `execute` of the guest: the value it returns and the window it leaves; `none` where it panics
or wraps. What its allocator does to the window, in two places, is `alloc`. -/
def execute (agent : TaskContext → Except AgentError GuestVec) (alloc : Nat → Window → Window)
    (ptr len : Int32) (mem : Window) : Option (Int64 × Window) :=
  let start := ptr.toUInt32
  let stop := saturatingAdd start len.toUInt32
  if stop > mem.len then some (-1, mem)
  else do
    let copied := alloc 0 mem
    let input ← copied.slice start stop
    match agent ⟨"", input⟩ with
    | .error _ => return (-1, alloc 1 copied)
    | .ok output =>
        let computed := alloc 1 copied
        let outPtr := stop
        let outLen := output.len
        let outEnd ← plainAdd outPtr outLen
        if outEnd > computed.len then return (-1, computed)
        else
          let written ← computed.copyFromSlice outPtr outEnd output.bytes
          return ((outLen.toUInt64.toInt64 <<< 32) ||| outPtr.toUInt64.toInt64, written)

/-- `(ret & 0xffffffff) as i32` of the host. -/
def outPtr (ret : Int64) : Int32 := (ret &&& 0xffffffff).toInt32

/-- `(ret >> 32) as i32` of the host. -/
def outLen (ret : Int64) : Int32 := (ret >>> 32).toInt32

/-- The host once the guest has returned. -/
def readReturned (mem : Memory) (ret : Int64) : Except AgentError (List UInt8) :=
  if outLen ret < 0 ∨ outPtr ret < 0 then
    .error (.runtime "guest returned negative pointer/length")
  else
    match mem.read (outPtr ret).toInt.toNat (outLen ret).toInt.toNat with
    | none => .error outOfBounds
    | some buf => .ok buf

/-! ## Casts -/

/-- An `i32` as an integer, by its bits. -/
theorem toInt_eq (n : Int32) :
    n.toInt = if n.toUInt32.toNat < 2 ^ 31 then (n.toUInt32.toNat : Int)
      else n.toUInt32.toNat - 4294967296 := by
  change n.toBitVec.toInt = _
  rw [BitVec.toInt_eq_toNat_cond]
  have hn : n.toBitVec.toNat = n.toUInt32.toNat := rfl
  rw [hn]
  split <;> split <;> omega

theorem lt_zero_iff (n : Int32) : n < 0 ↔ 2 ^ 31 ≤ n.toUInt32.toNat := by
  have hn := n.toUInt32.toNat_lt
  rw [Int32.lt_iff_toInt_lt, toInt_eq, Int32.toInt_zero]
  split <;> omega

theorem outPtr_toUInt32 (ret : Int64) : (outPtr ret).toUInt32 = low ret.toUInt64 := by
  apply UInt32.toBitVec_inj.1
  exact BitVec.signExtend_eq_setWidth_of_le _ (by decide)

/-- The sign that the shift draws in is cut off again. -/
theorem outLen_toUInt32 (ret : Int64) : (outLen ret).toUInt32 = high ret.toUInt64 := by
  apply UInt32.toBitVec_inj.1
  refine (BitVec.signExtend_eq_setWidth_of_le _ (by decide)).trans ?_
  change (ret.toBitVec.sshiftRight 32).setWidth 32 = (ret.toBitVec >>> 32).setWidth 32
  apply BitVec.eq_of_getLsbD_eq
  intro i hi
  have hin : 32 + i < 64 := by omega
  have hlt : ¬ 64 ≤ i := by omega
  simp [BitVec.getLsbD_sshiftRight, hin, hlt]

/-- What the guest packs. -/
theorem packed_toUInt64 (len ptr : UInt32) :
    ((len.toUInt64.toInt64 <<< 32) ||| ptr.toUInt64.toInt64).toUInt64 = pack ptr len := rfl

/-! ## What the guest does -/

theorem toNat_saturatingAdd (a b : UInt32) :
    (saturatingAdd a b).toNat = min (a.toNat + b.toNat) (2 ^ 32 - 1) := by
  unfold saturatingAdd
  split
  · next h =>
      rw [UInt32.toNat_add, Nat.mod_eq_of_lt h]
      omega
  · next h =>
      change 2 ^ 32 - 1 = _
      omega

theorem Window.bytes_put (mem : Window) {offset : Nat} {data : List UInt8}
    (h : offset + data.length ≤ windowLength) :
    ((mem.put offset data h).bytes.drop offset).take data.length = data := by
  have hlen := mem.length_eq
  have htake : (mem.bytes.take offset).length = offset := by
    rw [List.length_take]
    omega
  have hdrop : (mem.bytes.take offset ++ data ++ mem.bytes.drop (offset + data.length)).drop offset
      = data ++ mem.bytes.drop (offset + data.length) := by
    rw [List.append_assoc, List.drop_append_of_le_length (by omega),
      List.drop_of_length_le (by omega), List.nil_append]
  rw [Window.put, hdrop, List.take_append_of_le_length (Nat.le_refl _), List.take_length]

section Guest

variable {agent : TaskContext → Except AgentError GuestVec} {alloc : Nat → Window → Window}
  {ptr len : Int32} {mem : Window}

/-- The end of the input region, before any wrap. -/
def regionEnd (ptr len : Int32) : Nat := ptr.toUInt32.toNat + len.toUInt32.toNat

/-- The bytes of the input region. -/
def inputRegion (ptr len : Int32) (mem : Window) : List UInt8 :=
  (mem.bytes.drop ptr.toUInt32.toNat).take len.toUInt32.toNat

/-- A position past the end of the window. -/
theorem gt_len_iff {mem : Window} {n : UInt32} : n > mem.len ↔ windowLength < n.toNat := Iff.rfl

/-- A region that does not end in the window. -/
theorem execute_of_outside (h : windowLength < regionEnd ptr len) :
    execute agent alloc ptr len mem = some (-1, mem) := by
  have hw : windowLength = 65536 := rfl
  have hstop : saturatingAdd ptr.toUInt32 len.toUInt32 > mem.len := by
    rw [gt_len_iff, toNat_saturatingAdd]
    unfold regionEnd at h
    omega
  unfold execute
  exact if_pos hstop

/-- Within the window the sum does not saturate. -/
theorem stop_toNat (h : regionEnd ptr len ≤ windowLength) :
    (saturatingAdd ptr.toUInt32 len.toUInt32).toNat = regionEnd ptr len := by
  have hw : windowLength = 65536 := rfl
  rw [toNat_saturatingAdd]
  unfold regionEnd at h ⊢
  omega

/-- The first slice is the region. -/
theorem slice_region (h : regionEnd ptr len ≤ windowLength) :
    mem.slice ptr.toUInt32 (saturatingAdd ptr.toUInt32 len.toUInt32) =
      some (inputRegion ptr len mem) := by
  have hstop := stop_toNat h
  have hle : ptr.toUInt32.toNat ≤ (saturatingAdd ptr.toUInt32 len.toUInt32).toNat := by
    rw [hstop]
    exact Nat.le_add_right _ _
  have hmem : (saturatingAdd ptr.toUInt32 len.toUInt32).toNat ≤ mem.len.toNat := by
    rw [hstop]
    exact h
  rw [Window.slice, if_pos ⟨hle, hmem⟩, hstop, inputRegion, regionEnd, Nat.add_sub_cancel_left]

theorem GuestVec.len_toNat (output : GuestVec) : output.len.toNat = output.bytes.length := by
  have hvec := output.length_lt
  rw [GuestVec.len, UInt32.toNat_ofNat']
  omega

/-- The plain sum does not wrap: it is at most `65536 + (2 ^ 31 - 1)`. -/
theorem outEnd_spec (h : regionEnd ptr len ≤ windowLength) (output : GuestVec) :
    plainAdd (saturatingAdd ptr.toUInt32 len.toUInt32) output.len =
        some (saturatingAdd ptr.toUInt32 len.toUInt32 + output.len) ∧
      (saturatingAdd ptr.toUInt32 len.toUInt32 + output.len).toNat =
        regionEnd ptr len + output.bytes.length := by
  have hw : windowLength = 65536 := rfl
  have hvec := output.length_lt
  have hstop := stop_toNat h
  have hout := output.len_toNat
  constructor
  · rw [plainAdd, if_pos]
    omega
  · rw [UInt32.toNat_add, hstop, hout]
    omega

/-- The output is copied to the end of the region where it fits. -/
theorem copy_output (h : regionEnd ptr len ≤ windowLength) (output : GuestVec)
    (hfit : regionEnd ptr len + output.bytes.length ≤ windowLength) :
    mem.copyFromSlice (saturatingAdd ptr.toUInt32 len.toUInt32)
        (saturatingAdd ptr.toUInt32 len.toUInt32 + output.len) output.bytes =
      some (mem.put (regionEnd ptr len) output.bytes hfit) := by
  have hstop := stop_toNat h
  have hend := (outEnd_spec h output).2
  have hle : (saturatingAdd ptr.toUInt32 len.toUInt32).toNat ≤
      (saturatingAdd ptr.toUInt32 len.toUInt32 + output.len).toNat := by omega
  rw [Window.copyFromSlice, dif_pos ⟨hle, by omega, by omega⟩]
  simp only [hstop]

/-- A region within the window. -/
theorem execute_of_inside (h : regionEnd ptr len ≤ windowLength) :
    execute agent alloc ptr len mem =
      match agent ⟨"", inputRegion ptr len (alloc 0 mem)⟩ with
      | .error _ => some (-1, alloc 1 (alloc 0 mem))
      | .ok output =>
          if hfit : regionEnd ptr len + output.bytes.length ≤ windowLength then
            some ((output.len.toUInt64.toInt64 <<< 32) |||
                (UInt32.ofNat (regionEnd ptr len)).toUInt64.toInt64,
              (alloc 1 (alloc 0 mem)).put (regionEnd ptr len) output.bytes hfit)
          else some (-1, alloc 1 (alloc 0 mem)) := by
  have hw : windowLength = 65536 := rfl
  have hstop := stop_toNat h
  have hcast : saturatingAdd ptr.toUInt32 len.toUInt32 = UInt32.ofNat (regionEnd ptr len) := by
    apply UInt32.toNat_inj.1
    rw [hstop, UInt32.toNat_ofNat']
    omega
  have hin : ¬ saturatingAdd ptr.toUInt32 len.toUInt32 > mem.len := by
    rw [gt_len_iff]
    omega
  unfold execute
  rw [if_neg hin]
  simp only [slice_region h, Option.bind_some, bind, pure]
  cases hagent : agent ⟨"", inputRegion ptr len (alloc 0 mem)⟩ with
  | error e => rfl
  | ok output =>
      obtain ⟨hadd, hend⟩ := outEnd_spec h output
      simp only [hadd, Option.bind_some]
      by_cases hfit : regionEnd ptr len + output.bytes.length ≤ windowLength
      · have hle : ¬ saturatingAdd ptr.toUInt32 len.toUInt32 + output.len >
            (alloc 1 (alloc 0 mem)).len := by
          rw [gt_len_iff]
          omega
        rw [if_neg hle, dif_pos hfit, copy_output h output hfit, hcast]
        rfl
      · have hgt : saturatingAdd ptr.toUInt32 len.toUInt32 + output.len >
            (alloc 1 (alloc 0 mem)).len := by
          rw [gt_len_iff]
          omega
        rw [if_pos hgt, dif_neg hfit]

end Guest

/-! ## What the host unpacks -/

theorem toInt_of_lt {n : Int32} (h : n.toUInt32.toNat < 2 ^ 31) : n.toInt = n.toUInt32.toNat := by
  rw [toInt_eq, if_pos h]

/-- A pointer and a length below `2 ^ 31` come apart as they were packed. -/
theorem unpack_packed {len ptr : UInt32} {ret : Int64} (hret : ret.toUInt64 = pack ptr len)
    (hptr : ptr.toNat < 2 ^ 31) (hlen : len.toNat < 2 ^ 31) :
    (outPtr ret).toInt = ptr.toNat ∧ (outLen ret).toInt = len.toNat := by
  have hp : (outPtr ret).toUInt32 = ptr := by rw [outPtr_toUInt32, hret, Linear.low_pack]
  have hl : (outLen ret).toUInt32 = len := by rw [outLen_toUInt32, hret, Linear.high_pack]
  constructor
  · rw [toInt_of_lt (by rwa [hp]), hp]
  · rw [toInt_of_lt (by rwa [hl]), hl]

theorem readReturned_negative {mem : Memory} {ret : Int64} (h : outPtr ret < 0 ∨ outLen ret < 0) :
    readReturned mem ret = .error (.runtime "guest returned negative pointer/length") :=
  if_pos h.symm

/-- The host reads the bytes a non-negative pair names. -/
theorem readReturned_ok {mem : Memory} {ret : Int64} {addr n : Nat}
    (hptr : (outPtr ret).toInt = addr) (hlen : (outLen ret).toInt = n) (hmem : addr + n ≤ mem.size) :
    readReturned mem ret = .ok (mem.bytes addr n) := by
  have hpos : ¬ (outLen ret < 0 ∨ outPtr ret < 0) := by
    rw [Int32.lt_iff_toInt_lt, Int32.lt_iff_toInt_lt, Int32.toInt_zero, hptr, hlen]
    omega
  rw [readReturned, if_neg hpos, hptr, hlen]
  simp only [Int.toNat_natCast, Memory.read_of_le hmem]

/-- **The guest ABI is safe and lossless.** The guest always returns. A value other than -1 is
unpacked by the host as the end of the input region and the length of the output, whose bytes are
there in the window. The host makes an error of -1 and of every value with a negative half. -/
theorem guestAbi_safe (agent : TaskContext → Except AgentError GuestVec)
    (alloc : Nat → Window → Window) (ptr len : Int32) (mem : Window) :
    (∃ ret left, execute agent alloc ptr len mem = some (ret, left) ∧
      (ret = -1 ∨ ∃ output, agent ⟨"", inputRegion ptr len (alloc 0 mem)⟩ = .ok output ∧
        0 ≤ (outPtr ret).toInt ∧ (outPtr ret).toInt = ptr.toInt + len.toInt ∧
        (outLen ret).toInt = output.bytes.length ∧
        (left.bytes.drop (outPtr ret).toInt.toNat).take (outLen ret).toInt.toNat =
          output.bytes)) ∧
    (∀ memory : Memory,
      readReturned memory (-1) = .error (.runtime "guest returned negative pointer/length")) ∧
    (∀ (memory : Memory) (ret : Int64), outPtr ret < 0 ∨ outLen ret < 0 →
      readReturned memory ret = .error (.runtime "guest returned negative pointer/length")) := by
  refine ⟨?_, fun _ => readReturned_negative (by decide), fun _ _ h => readReturned_negative h⟩
  rcases Nat.lt_or_ge windowLength (regionEnd ptr len) with hout | hin
  · exact ⟨-1, mem, execute_of_outside hout, .inl rfl⟩
  rw [execute_of_inside hin]
  cases hagent : agent ⟨"", inputRegion ptr len (alloc 0 mem)⟩ with
  | error e => exact ⟨-1, _, rfl, .inl rfl⟩
  | ok output =>
      by_cases hfit : regionEnd ptr len + output.bytes.length ≤ windowLength
      · have hw : windowLength = 65536 := rfl
        have hend : (UInt32.ofNat (regionEnd ptr len)).toNat = regionEnd ptr len := by
          rw [UInt32.toNat_ofNat']
          omega
        have hlen := output.len_toNat
        have hvec := output.length_lt
        obtain ⟨hptr, hout⟩ := unpack_packed
          (packed_toUInt64 output.len (UInt32.ofNat (regionEnd ptr len))) (by omega) (by omega)
        rw [hend] at hptr
        rw [hlen] at hout
        -- neither argument is negative, or the region would end outside
        have hregion : ((regionEnd ptr len : Nat) : Int) = ptr.toInt + len.toInt := by
          unfold regionEnd at hin ⊢
          rw [toInt_of_lt (by omega), toInt_of_lt (by omega), Int.natCast_add]
        refine ⟨_, _, dif_pos hfit, .inr ⟨output, rfl, by omega, hptr.trans hregion, hout, ?_⟩⟩
        rw [hptr, hout, Int.toNat_natCast, Int.toNat_natCast]
        exact Window.bytes_put _ hfit
      · exact ⟨-1, _, dif_neg hfit, .inl rfl⟩

/-! ## The same guest and host over linear memory -/

/-- The window of a memory. -/
def windowOf (heapBase : Nat) (mem : Memory) : Window :=
  ⟨mem.bytes heapBase windowLength, Memory.length_bytes mem heapBase windowLength⟩

theorem windowOf_bytes (heapBase : Nat) (mem : Memory) :
    (windowOf heapBase mem).bytes = mem.bytes heapBase windowLength := by
  rw [windowOf]

theorem windowOf_put {heapBase offset : Nat} {data : List UInt8} (mem : Memory)
    (h : offset + data.length ≤ windowLength) :
    windowOf heapBase (mem.put (heapBase + offset) data) =
      (windowOf heapBase mem).put offset data h := by
  apply Window.ext
  simp only [Window.put, windowOf_bytes, Memory.bytes_put_inside h]

/-- `guestExecute` is `execute` on the window, where the agents agree and the allocator keeps
out of the window. -/
theorem guestExecute_eq_execute {serde : SerdeJson} {heapBase : Nat}
    {alloc : Nat → Memory → Memory} (halloc : KeepsWindow heapBase alloc)
    {agent : TaskContext → Except AgentError GuestVec}
    (hagent : ∀ ctx, (agent ctx).map GuestVec.bytes = echoAgent serde ctx) (ptr len : Int32)
    (mem : Memory) :
    ∃ ret left, execute agent (fun _ w => w) ptr len (windowOf heapBase mem) = some (ret, left) ∧
      (guestExecute serde heapBase alloc ptr.toUInt32 len.toUInt32 mem).1 = ret.toUInt64 ∧
      windowOf heapBase
        (guestExecute serde heapBase alloc ptr.toUInt32 len.toUInt32 mem).2 = left := by
  have hw : windowLength = 65536 := rfl
  -- the allocator writes outside the window
  have hkeep : ∀ i m, windowOf heapBase (alloc i m) = windowOf heapBase m := by
    intro i m
    have hbytes : (alloc i m).bytes heapBase windowLength = m.bytes heapBase windowLength :=
      Memory.bytes_congr fun k hk => halloc.byte i m _ (by omega) (by omega)
    apply Window.ext
    rw [windowOf_bytes, windowOf_bytes, hbytes]
  unfold guestExecute
  rcases Nat.lt_or_ge windowLength (regionEnd ptr len) with hout | hin
  · -- a region that ends outside the window is refused by both
    have hstop : min (ptr.toUInt32.toNat + len.toUInt32.toNat) (2 ^ 32 - 1) > windowLength := by
      unfold regionEnd at hout
      omega
    rw [execute_of_outside hout]
    simp only [if_pos hstop]
    exact ⟨-1, _, rfl, rfl, rfl⟩
  · have hstop : min (ptr.toUInt32.toNat + len.toUInt32.toNat) (2 ^ 32 - 1) =
        regionEnd ptr len := by
      unfold regionEnd at hin ⊢
      omega
    -- inside, the agent gets the same bytes
    have hinput : (alloc 0 mem).bytes (heapBase + ptr.toUInt32.toNat)
        (regionEnd ptr len - ptr.toUInt32.toNat) =
        inputRegion ptr len (windowOf heapBase mem) := by
      unfold regionEnd at hin ⊢
      rw [Nat.add_sub_cancel_left, ← Memory.drop_take_bytes hin, inputRegion, ← hkeep 0 mem,
        windowOf_bytes]
    rw [execute_of_inside hin]
    simp only [hstop, if_neg (Nat.not_lt.mpr hin), hinput, ← hagent]
    cases agent ⟨"", inputRegion ptr len (windowOf heapBase mem)⟩ with
    | error e =>
        refine ⟨-1, _, rfl, rfl, ?_⟩
        exact (hkeep 1 _).trans (hkeep 0 _)
    | ok output =>
        simp only [Except.map]
        by_cases hfit : regionEnd ptr len + output.bytes.length ≤ windowLength
        · rw [dif_pos hfit, if_neg (Nat.not_lt.mpr hfit)]
          refine ⟨_, _, rfl, (packed_toUInt64 _ _).symm, ?_⟩
          rw [windowOf_put _ hfit, hkeep, hkeep]
        · rw [dif_neg hfit, if_pos (Nat.lt_of_not_le hfit)]
          exact ⟨-1, _, rfl, rfl, (hkeep 1 _).trans (hkeep 0 _)⟩

theorem isNegative_iff (n : UInt32) : isNegative n = true ↔ 2 ^ 31 ≤ n.toNat := by
  rw [isNegative, decide_eq_true_iff, lt_zero_iff]
  rfl

/-- The host's reading, by the bits of the two halves. -/
theorem readReturned_toInt64 (mem : Memory) (ret : UInt64) :
    readReturned mem ret.toInt64 =
      if isNegative (high ret) || isNegative (low ret) then
        .error (.runtime "guest returned negative pointer/length")
      else
        match mem.read (low ret).toNat (high ret).toNat with
        | none => .error outOfBounds
        | some buf => .ok buf := by
  have hp : (outPtr ret.toInt64).toUInt32 = low ret := outPtr_toUInt32 _
  have hl : (outLen ret.toInt64).toUInt32 = high ret := outLen_toUInt32 _
  have hbits : (isNegative (high ret) || isNegative (low ret)) = true ↔
      outLen ret.toInt64 < 0 ∨ outPtr ret.toInt64 < 0 := by
    rw [Bool.or_eq_true, isNegative_iff, isNegative_iff, lt_zero_iff, lt_zero_iff, hp, hl]
  unfold readReturned
  by_cases hneg : outLen ret.toInt64 < 0 ∨ outPtr ret.toInt64 < 0
  · rw [if_pos hneg, if_pos (hbits.2 hneg)]
  · obtain ⟨hl', hp'⟩ := not_or.1 hneg
    rw [lt_zero_iff, Nat.not_le] at hl' hp'
    rw [if_neg hneg, if_neg fun h => hneg (hbits.1 h), toInt_of_lt hl', toInt_of_lt hp', hp, hl]
    rfl

/-- `cognitionExecute` ends as `readReturned` does. -/
theorem cognitionExecute_eq_readReturned {serde : SerdeJson} {heapBase : Nat}
    {alloc : Nat → Memory → Memory} {mem : Memory} {ctx : TaskContext} :
    cognitionExecute serde heapBase alloc mem ctx =
      match mem.write 0 ctx.input with
      | none => .error outOfBounds
      | some written =>
          readReturned
            (guestExecute serde heapBase alloc 0 (UInt32.ofNat ctx.input.length) written).2
            (guestExecute serde heapBase alloc 0 (UInt32.ofNat ctx.input.length) written).1.toInt64
            := by
  unfold cognitionExecute
  cases mem.write 0 ctx.input with
  | none => rfl
  | some written => exact (readReturned_toInt64 _ _).symm

end Ainur.Wasm
