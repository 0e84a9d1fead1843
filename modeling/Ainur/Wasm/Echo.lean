import Ainur.Lib.LinearMemory
import Ainur.Api.Handlers

set_option autoImplicit false

/-! # The echo agent, in process and as a WASM guest

`EchoAgent` of the SDK, the guest `echo-wasm` that runs it over linear memory, the host
`CognitionWasmEngine` and the two execution engines of the orchestrator. The module is taken to
export its memory and `execute`. What the guest's own code does to the memory besides, in two
places, is the parameter `alloc`.

The host works with addresses from the start of the memory, the guest with offsets from
`__heap_base`. They mean the same bytes exactly when `__heap_base` is 0, or there are none.
-/

namespace Ainur.Wasm

open Linear (Memory pack low high)

/-! ## The SDK -/

structure TaskContext where
  taskId : String
  input : List UInt8

inductive AgentError where
  | serialization (message : String)
  | runtime (message : String)
  deriving DecidableEq, Repr

/-- `Display` of `AgentError`. -/
def AgentError.display : AgentError → String
  | .serialization message => s!"serialization error: {message}"
  | .runtime message => s!"runtime error: {message}"

section Engines

variable (serde : SerdeJson)

/-- `input_as_json::<Value>`. -/
def TaskContext.inputAsJson (ctx : TaskContext) : Except AgentError Value :=
  match String.fromUTF8? ⟨ctx.input.toArray⟩ with
  | none => .error (.serialization "invalid utf-8 sequence")
  | some text => (serde.fromStr text).mapError .serialization

/-- `to_output_json`, which never fails on a `Value`. -/
def toOutputJson (v : Value) : List UInt8 := utf8 (serde.toString v)

/-- `map.insert("ainur_echo_metadata", ..)` on an object. -/
def annotate (v : Value) : Value :=
  v.set "ainur_echo_metadata"
    (.object [("version", .string "0.1.0"), ("note", .string "processed by EchoAgent")])

/-- `EchoAgent::execute`. -/
def echoAgent (ctx : TaskContext) : Except AgentError (List UInt8) :=
  match ctx.inputAsJson serde with
  | .ok v => .ok (toOutputJson serde (annotate v))
  | .error _ => .ok ctx.input

/-! ## The guest -/

/-- The length of the slice of `memory_as_slice_mut`, which begins at `__heap_base`. -/
def windowLength : Nat := 64 * 1024

/-- A return value of -1. -/
def minusOne : UInt64 := 0xffffffffffffffff

variable (heapBase : Nat) (alloc : Nat → Memory → Memory)

/-- `execute` of the guest: the value it returns and the memory it leaves. Its `usize` has 32 bits,
and no length in its memory comes near them. -/
def guestExecute (ptr len : UInt32) (mem : Memory) : UInt64 × Memory :=
  let start := ptr.toNat
  let stop := min (start + len.toNat) (2 ^ 32 - 1)
  if stop > windowLength then (minusOne, mem)
  else
    let copied := alloc 0 mem
    match echoAgent serde ⟨"", copied.bytes (heapBase + start) (stop - start)⟩ with
    | .error _ => (minusOne, alloc 1 copied)
    | .ok output =>
        let computed := alloc 1 copied
        if stop + output.length > windowLength then (minusOne, computed)
        else
          (pack (UInt32.ofNat stop) (UInt32.ofNat output.length),
            computed.put (heapBase + stop) output)

/-! ## The host -/

/-- `e.to_string()` of a `MemoryAccessError`. -/
def outOfBounds : AgentError := .runtime "out of bounds memory access"

/-- The `i32` of these bits is negative. -/
def isNegative (n : UInt32) : Bool := n.toInt32 < 0

/-- `CognitionWasmEngine::execute` on an instance with this memory. -/
def cognitionExecute (mem : Memory) (ctx : TaskContext) : Except AgentError (List UInt8) :=
  match mem.write 0 ctx.input with
  | none => .error outOfBounds
  | some written =>
      let (ret, returned) :=
        guestExecute serde heapBase alloc 0 (UInt32.ofNat ctx.input.length) written
      if isNegative (high ret) || isNegative (low ret) then
        .error (.runtime "guest returned negative pointer/length")
      else
        match returned.read (low ret).toNat (high ret).toNat with
        | none => .error outOfBounds
        | some buf => .ok buf

/-! ## The execution engines -/

/-- The context that both engines build. -/
def TaskContext.ofTask (task : StoredTask) : TaskContext :=
  ⟨task.id, task.task.specification.input⟩

/-- `LocalEchoEngine`. -/
def localEchoEngine : ExecutionEngine := fun task =>
  (echoAgent serde (.ofTask task)).mapError fun e => .internal e.display

/-- `WasmExecutionEngine`, each run on a fresh instance. -/
def wasmExecutionEngine (mem : Memory) : ExecutionEngine := fun task =>
  (cognitionExecute serde heapBase alloc mem (.ofTask task)).mapError fun e =>
    .internal e.display

/-- The host returns what the agent returns, and so do the engines. -/
def SameOutput (mem : Memory) (task : StoredTask) : Prop :=
  cognitionExecute serde heapBase alloc mem (.ofTask task) = echoAgent serde (.ofTask task) ∧
    wasmExecutionEngine serde heapBase alloc mem task = localEchoEngine serde task

/-- The guest's allocator never shrinks the memory and does not write into the window. -/
structure KeepsWindow : Prop where
  size : ∀ i mem, mem.size ≤ (alloc i mem).size
  byte : ∀ i mem a, heapBase ≤ a → a < heapBase + windowLength → (alloc i mem).byte a = mem.byte a

end Engines

/-! ## What the agent returns -/

section Agent

variable {serde : SerdeJson}

/-- What the guest makes of its bytes. -/
def echoBytes (serde : SerdeJson) (input : List UInt8) : List UInt8 :=
  match (TaskContext.mk "" input).inputAsJson serde with
  | .ok v => toOutputJson serde (annotate v)
  | .error _ => input

theorem utf8_ne_nil {s : String} (h : s ≠ "") : utf8 s ≠ [] := by
  intro hnil
  cases hs : s.toList with
  | nil => exact h (String.toList_inj.mp hs)
  | cons c cs =>
      have hlen := congrArg List.length hnil
      have hpos := c.utf8Size_pos
      simp only [utf8, hs, List.flatMap_cons, List.length_append, String.length_utf8EncodeChar,
        List.length_nil] at hlen
      omega

/-- No bytes are no JSON. -/
theorem echoBytes_nil (hempty : (serde.fromStr "").isOk = false) : echoBytes serde [] = [] := by
  have hutf8 : String.fromUTF8? ⟨([] : List UInt8).toArray⟩ = some "" := rfl
  unfold echoBytes TaskContext.inputAsJson
  simp only [hutf8]
  cases hread : serde.fromStr "" with
  | ok v => simp [hread, Except.isOk, Except.toBool] at hempty
  | error e => rfl

/-- Some bytes are echoed as some. -/
theorem echoBytes_ne_nil (hprint : ∀ v, serde.toString v ≠ "") {input : List UInt8}
    (h : input ≠ []) : echoBytes serde input ≠ [] := by
  unfold echoBytes
  split
  · exact utf8_ne_nil (hprint _)
  · exact h

/-- The agent never fails, and does not look at the id of the task. -/
theorem echoAgent_eq (ctx : TaskContext) : echoAgent serde ctx = .ok (echoBytes serde ctx.input) := by
  have hjson : (TaskContext.mk "" ctx.input).inputAsJson serde = ctx.inputAsJson serde := rfl
  unfold echoAgent echoBytes
  rw [hjson]
  split <;> rfl

end Agent

/-! ## What the host reads -/

section Host

variable {serde : SerdeJson} {heapBase : Nat} {alloc : Nat → Memory → Memory} {mem : Memory}
  {ctx : TaskContext}

theorem isNegative_of_lt {n : Nat} (h : n < 2 ^ 31) : isNegative (UInt32.ofNat n) = false := by
  have hint : (UInt32.ofNat n).toInt32.toInt = n := by
    show (UInt32.ofNat n).toBitVec.toInt = n
    rw [BitVec.toInt_eq_toNat_of_lt] <;> simp <;> omega
  unfold isNegative
  rw [decide_eq_false_iff_not, Int32.lt_iff_toInt_lt, hint]
  simp

/-- The bytes that the guest takes for its input. -/
def guestInput (heapBase : Nat) (alloc : Nat → Memory → Memory) (mem : Memory)
    (ctx : TaskContext) : List UInt8 :=
  (alloc 0 (mem.put 0 ctx.input)).bytes heapBase ctx.input.length

/-- The memory when the guest writes its output. -/
def guestMemory (alloc : Nat → Memory → Memory) (mem : Memory) (ctx : TaskContext) : Memory :=
  alloc 1 (alloc 0 (mem.put 0 ctx.input))

/-- The guest echoes the bytes at `__heap_base` and writes the result behind them. -/
theorem guestExecute_eq (hfit : ctx.input.length ≤ windowLength) :
    guestExecute serde heapBase alloc 0 (UInt32.ofNat ctx.input.length) (mem.put 0 ctx.input) =
      let output := echoBytes serde (guestInput heapBase alloc mem ctx)
      if ctx.input.length + output.length > windowLength then
        (minusOne, guestMemory alloc mem ctx)
      else
        (pack (UInt32.ofNat ctx.input.length) (UInt32.ofNat output.length),
          (guestMemory alloc mem ctx).put (heapBase + ctx.input.length) output) := by
  have hwidth : ctx.input.length < 2 ^ 32 - 1 := Nat.lt_of_le_of_lt hfit (by decide)
  have hlen : (UInt32.ofNat ctx.input.length).toNat = ctx.input.length := by
    simp
    omega
  have hstop : min ((0 : UInt32).toNat + ctx.input.length) (2 ^ 32 - 1) = ctx.input.length := by
    simp
    omega
  unfold guestExecute
  simp only [hlen, hstop, echoAgent_eq]
  rw [if_neg (Nat.not_lt.mpr hfit)]
  rfl

/-- The host reads as many bytes behind its own input. -/
theorem cognitionExecute_eq (halloc : KeepsWindow heapBase alloc)
    (hwindow : heapBase + windowLength ≤ mem.size) (hfit : ctx.input.length ≤ windowLength) :
    cognitionExecute serde heapBase alloc mem ctx =
      let output := echoBytes serde (guestInput heapBase alloc mem ctx)
      if ctx.input.length + output.length > windowLength then
        .error (.runtime "guest returned negative pointer/length")
      else
        .ok (((guestMemory alloc mem ctx).put (heapBase + ctx.input.length) output).bytes
          ctx.input.length output.length) := by
  have hwrite : mem.write 0 ctx.input = some (mem.put 0 ctx.input) :=
    Memory.write_of_le (by omega)
  have hsize : mem.size ≤ (guestMemory alloc mem ctx).size :=
    Nat.le_trans (halloc.size 0 (mem.put 0 ctx.input)) (halloc.size 1 _)
  unfold cognitionExecute
  rw [hwrite]
  simp only [guestExecute_eq hfit]
  by_cases hout : ctx.input.length + (echoBytes serde (guestInput heapBase alloc mem ctx)).length
      > windowLength
  · simp only [if_pos hout]
    rfl
  · simp only [if_neg hout, Linear.low_pack, Linear.high_pack]
    have hw : windowLength = 65536 := rfl
    rw [isNegative_of_lt (by omega), isNegative_of_lt (by omega)]
    have hin : (UInt32.ofNat ctx.input.length).toNat = ctx.input.length := by
      simp
      omega
    have hret : (UInt32.ofNat (echoBytes serde (guestInput heapBase alloc mem ctx)).length).toNat
        = (echoBytes serde (guestInput heapBase alloc mem ctx)).length := by
      simp
      omega
    rw [hin, hret, Memory.read_of_le]
    · rfl
    · rw [Memory.size_put]
      omega

/-! ## Where the two agree -/

/-- With `__heap_base` at 0 the guest reads what the host wrote, and the host reads what the guest
wrote. -/
theorem cognitionExecute_zero (halloc : KeepsWindow 0 alloc) (hwindow : windowLength ≤ mem.size)
    (hfit : ctx.input.length + (echoBytes serde ctx.input).length ≤ windowLength) :
    cognitionExecute serde 0 alloc mem ctx = echoAgent serde ctx := by
  have hinput : guestInput 0 alloc mem ctx = ctx.input := by
    have hkept : guestInput 0 alloc mem ctx = (mem.put 0 ctx.input).bytes 0 ctx.input.length :=
      Memory.bytes_congr fun i hi => halloc.byte 0 _ _ (Nat.zero_le _) (by omega)
    rw [hkept, Memory.bytes_put]
  rw [cognitionExecute_eq halloc (by omega) (by omega), echoAgent_eq]
  simp only [hinput, Nat.zero_add, Memory.bytes_put]
  rw [if_neg (by omega)]

/-- No bytes are echoed as no bytes, wherever they are. -/
theorem cognitionExecute_nil (halloc : KeepsWindow heapBase alloc)
    (hwindow : heapBase + windowLength ≤ mem.size) (hnil : ctx.input = [])
    (hempty : echoBytes serde [] = []) :
    cognitionExecute serde heapBase alloc mem ctx = echoAgent serde ctx := by
  have hinput : guestInput heapBase alloc mem ctx = [] := by
    simp [guestInput, hnil, Memory.bytes]
  rw [cognitionExecute_eq halloc hwindow (by simp [hnil]), echoAgent_eq]
  simp [hinput, hempty, hnil, Memory.bytes]

/-- With `__heap_base` elsewhere, the first byte that the host reads was not written by the
guest. -/
theorem cognitionExecute_head (halloc : KeepsWindow heapBase alloc)
    (hwindow : heapBase + windowLength ≤ mem.size) (hfit : ctx.input.length ≤ windowLength)
    (hbase : heapBase ≠ 0) {b : UInt8} {rest : List UInt8}
    (hrun : cognitionExecute serde heapBase alloc mem ctx = .ok (b :: rest)) :
    b = (guestMemory alloc mem ctx).byte ctx.input.length := by
  rw [cognitionExecute_eq halloc hwindow hfit] at hrun
  simp only at hrun
  split at hrun
  · cases hrun
  · have hbytes := Except.ok.inj hrun
    cases hlen : (echoBytes serde (guestInput heapBase alloc mem ctx)).length with
    | zero =>
        rw [hlen] at hbytes
        cases hbytes
    | succ n =>
        rw [hlen, Memory.bytes_succ] at hbytes
        rw [← (List.cons.inj hbytes).1, Memory.byte_put_of_outside (Or.inl (by omega))]

end Host

/-! ## The two engines -/

/-- Where the host and the agent agree, so do the engines. -/
theorem sameOutput_iff {serde : SerdeJson} {heapBase : Nat} {alloc : Nat → Memory → Memory}
    {mem : Memory} {task : StoredTask} :
    SameOutput serde heapBase alloc mem task ↔
      cognitionExecute serde heapBase alloc mem (.ofTask task) = echoAgent serde (.ofTask task) := by
  refine ⟨fun h => h.1, fun h => ⟨h, ?_⟩⟩
  unfold wasmExecutionEngine localEchoEngine
  rw [h]

/-- **The engines give the same output on every memory with `__heap_base` at `heapBase` exactly
when `heapBase` is 0 or the input is empty.** -/
theorem sameOutput_forall_iff (serde : SerdeJson) (hempty : (serde.fromStr "").isOk = false)
    (hprint : ∀ v, serde.toString v ≠ "") (heapBase size : Nat)
    (hwindow : heapBase + windowLength ≤ size) (task : StoredTask)
    (hfit : ∀ output, echoAgent serde (.ofTask task) = .ok output →
      (TaskContext.ofTask task).input.length + output.length ≤ windowLength) :
    (∀ alloc (mem : Memory), KeepsWindow heapBase alloc → mem.size = size →
      SameOutput serde heapBase alloc mem task) ↔
      heapBase = 0 ∨ (TaskContext.ofTask task).input = [] := by
  have hfit' := hfit _ (echoAgent_eq _)
  constructor
  · intro hall
    by_contra hne
    obtain ⟨hbase, hinput⟩ := not_or.mp hne
    -- a memory full of a byte that the output does not begin with
    obtain ⟨b, rest, hout⟩ := List.exists_cons_of_ne_nil (echoBytes_ne_nil hprint hinput)
    have hkeeps : KeepsWindow heapBase fun _ mem => mem :=
      ⟨fun _ _ => Nat.le_refl _, fun _ _ _ _ _ => rfl⟩
    have hsame := (hall (fun _ mem => mem) ⟨size, fun _ => b + 1⟩ hkeeps rfl).1
    rw [echoAgent_eq, hout] at hsame
    have hhead := cognitionExecute_head hkeeps hwindow (by omega) hbase hsame
    rw [guestMemory, Memory.byte_put_of_outside (Or.inr (by omega))] at hhead
    simp at hhead
  · rintro (rfl | hnil) alloc mem halloc rfl
    · exact sameOutput_iff.mpr (cognitionExecute_zero halloc (by omega) hfit')
    · exact sameOutput_iff.mpr (cognitionExecute_nil halloc hwindow hnil (echoBytes_nil hempty))

/-! ## A guest of 17 pages -/

/-- `serde_json` on texts that are no JSON. -/
def noJson : SerdeJson := ⟨fun _ => .error "expected value at line 1 column 1", fun _ => "null"⟩

theorem echoBytes_noJson (input : List UInt8) : echoBytes noJson input = input := by
  unfold echoBytes TaskContext.inputAsJson
  cases String.fromUTF8? ⟨input.toArray⟩ <;> rfl

/-- A task with that input. -/
def taskOn (input : List UInt8) : StoredTask where
  id := sampleDraws.uuid 0
  clientTaskId := none
  task := buildCoreTask (sampleLibraries []) sampleDraws (taskWithBudget 5) input
  status := .pending
  createdAt := sampleDraws.now

/-- The input `x` on memories of 17 pages with a stack of 16 below `__heap_base`. -/
theorem letter_sameOutput_iff :
    (∀ alloc (mem : Memory), KeepsWindow 1048576 alloc → mem.size = 1114112 →
      SameOutput noJson 1048576 alloc mem (taskOn [120])) ↔
      1048576 = 0 ∨ (TaskContext.ofTask (taskOn [120])).input = [] :=
  sameOutput_forall_iff noJson rfl (fun _ => by simp [noJson]) 1048576 1114112 (by decide) (taskOn [120])
    (by
      intro output hout
      rw [echoAgent_eq, echoBytes_noJson] at hout
      obtain rfl := Except.ok.inj hout
      decide)

/-- **The local engine echoes `x`, the WASM engine on a fresh memory does not.** -/
theorem letter_not_sameOutput :
    ¬ ∀ (serde : SerdeJson) (heapBase : Nat) (alloc : Nat → Memory → Memory) (mem : Memory)
        (task : StoredTask), KeepsWindow heapBase alloc → heapBase + windowLength ≤ mem.size →
      (∀ output, echoAgent serde (.ofTask task) = .ok output →
        (TaskContext.ofTask task).input.length + output.length ≤ windowLength) →
      SameOutput serde heapBase alloc mem task := by
  intro hall
  have hkeeps : KeepsWindow 1048576 fun _ mem => mem :=
    ⟨fun _ _ => Nat.le_refl _, fun _ _ _ _ _ => rfl⟩
  have hfit : ∀ output, echoAgent noJson (.ofTask (taskOn [120])) = .ok output →
      (TaskContext.ofTask (taskOn [120])).input.length + output.length ≤ windowLength := by
    intro output hout
    rw [echoAgent_eq, echoBytes_noJson] at hout
    obtain rfl := Except.ok.inj hout
    decide
  have hsame := (hall noJson 1048576 (fun _ mem => mem) ⟨1114112, fun _ => 0⟩ (taskOn [120])
    hkeeps (by decide) hfit).1
  rw [echoAgent_eq, echoBytes_noJson] at hsame
  have hhead := cognitionExecute_head hkeeps (by decide) (by decide) (by decide) hsame
  have hzero : (guestMemory (fun _ mem => mem) ⟨1114112, fun _ => 0⟩
      (.ofTask (taskOn [120]))).byte 1 = 0 := rfl
  rw [show (TaskContext.ofTask (taskOn [120])).input.length = 1 from rfl, hzero] at hhead
  cases hhead

end Ainur.Wasm
