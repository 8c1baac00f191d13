/-
  Rish.SoftVm.Step — fetching, executing and stepping: the decode cache in front of the decoder, the
  retry of an instruction after its page fault was delivered, and guest time.

  The retry loop of the source has no bound. `executeOne` takes the number of rounds it may make and
  says whether it came to an end within them; a result with some number of rounds is the result with
  every larger one.
-/

import Rish.SoftVm.Dispatch

namespace Rish.SoftVm

open Lib
open BitVec (ofNat)
open Exec (update fail)

/-! ## What may fault -/

def memoryOperandKinds : List OpKind :=
  [.memory, .memorySegSI, .memorySegESI, .memorySegRSI, .memoryESDI, .memoryESEDI, .memoryESRDI]

/-- Instructions whose memory access is not an operand. -/
def implicitMemory : List Mnemonic :=
  [.push, .lsl, .pop, .call, .ret, .retf, .leave, .enter, .pushf, .pushfd, .pushfq, .popf, .popfd, .popfq, .pusha,
   .pushad, .popa, .popad, .iret, .iretd, .iretq, .int, .int3, .int1, .into, .bound, .xsave, .xsave64, .xsavec,
   .xsavec64, .xsaves, .xsaves64, .xrstor, .xrstor64, .xrstors, .xrstors64, .fxsave, .fxsave64, .fxrstor, .fxrstor64]

def mayFault (i : Instruction) : Bool :=
  i.operands.any (fun o => o.kind ∈ memoryOperandKinds) || i.mnemonic ∈ implicitMemory

namespace Cpu

/-! ## Fetch -/

def bitness (mode : CpuMode) : Nat :=
  match mode with
  | .real | .protected16 => 16
  | .protected32 => 32
  | .long => 64

def instructionPointer (mode : CpuMode) (rip : U64) : U64 :=
  match mode with
  | .real | .protected16 => rip &&& 0xFFFF
  | .protected32 => rip &&& 0xFFFFFFFF
  | .long => rip

variable (r : Registers)

/-- Bitness, privilege level and the control bits an execute permission depends on. -/
def executionContext : U32 :=
  ofNat 32 (bitness r.mode) ||| (ofNat 32 r.cpl <<< 8) |||
    (if contains r.cr0 Cr0.PG then 1#32 <<< 10 else 0) ||| (if contains r.cr4 Cr4.SMEP then 1#32 <<< 11 else 0) |||
    (if contains r.efer Efer.NXE then 1#32 <<< 12 else 0)

def fetchPointer : U64 := instructionPointer r.mode r.rip

def fetchLinear : U64 := r.codeBase + fetchPointer r

def inPage (physical : U64) : Nat := 4096 - (physical &&& 0xFFF).toNat

/-- The fifteen bytes from an address on whose first page is translated already. -/
def readWindow (linear first : U64) : CpuM (List U8) :=
  if MAX_INSTRUCTION_BYTES ≤ inPage first then memoryRead first MAX_INSTRUCTION_BYTES
  else do
    let head ← memoryRead first (inPage first)
    let tail ← readPages (translate · .execute) MAX_INSTRUCTION_BYTES (linear + ofNat 64 (inPage first))
      (MAX_INSTRUCTION_BYTES - inPage first)
    return head ++ tail

/-- A window inside one page and inside RAM: the page's write counter stands for its bytes. -/
def cacheable (m : Memory) (first : U64) : Bool :=
  MAX_INSTRUCTION_BYTES ≤ inPage first ∧ first.toNat ≤ m.len.toNat - MAX_INSTRUCTION_BYTES

/-- The mapping of a fetch by the machine `c` that found its bytes at `first`. -/
def fetchMapping (c : Cpu) (first : U64) : DecodeMapping where
  ip := fetchPointer c.regs
  linear := fetchLinear c.regs
  physical := first
  pageGeneration := c.memory.pageGeneration first
  translationEpoch := c.tlb.epoch
  executionContext := executionContext c.regs

variable (mapping : DecodeMapping)

/-- The cached decode of a translated fetch; a hit renews its entry. -/
def lookupDecoded (usable : Bool) : CpuM (Option Instruction) :=
  if usable then do
    let c ← get
    update fun c => { c with decoded := (c.decoded.lookup mapping).2 }
    return (c.decoded.lookup mapping).1
  else return none

def keepDecoded (i : Instruction) : CpuM Unit :=
  update fun c => { c with decoded := c.decoded.insert mapping i }

def finishDecode (usable : Bool) (window : List U8) (i : Instruction) : CpuM Instruction := do
  let c ← get
  if i.isInvalid then fail (.unimplementedInstruction "invalid" c.regs.rip window)
  else do
    Exec.when usable (keepDecoded mapping i)
    return i

variable (decoder : Decoder)

def decodeFresh (mapping : DecodeMapping) (usable : Bool) : CpuM Instruction := do
  let c ← get
  let window ← readWindow mapping.linear mapping.physical
  finishDecode mapping usable window (decoder (bitness c.regs.mode) window mapping.ip)

def decodeUnless (mapping : DecodeMapping) (usable : Bool) (cached : Option Instruction) : CpuM Instruction :=
  match cached with
  | some i => return i
  | none => decodeFresh decoder mapping usable

/-- The slow path: translate, then try the cache before touching guest memory. -/
def fetchTranslated : CpuM Instruction := do
  let c ← get
  let first ← translate (fetchLinear c.regs) .execute
  let mapping := fetchMapping c first
  let usable := cacheable c.memory first
  let cached ← lookupDecoded mapping usable
  decodeUnless decoder mapping usable cached

def fetchUnless (cached : Option Instruction) : CpuM Instruction :=
  match cached with
  | some i => return i
  | none => fetchTranslated decoder

def lookupFast (c : Cpu) : Option Instruction :=
  if c.tlbDisabled then none
  else c.decoded.lookupMapped c.memory (fetchPointer c.regs) (fetchLinear c.regs) c.tlb.epoch (executionContext c.regs)

def fetch : CpuM Instruction := do
  let c ← get
  fetchUnless decoder (lookupFast c)

/-- The bytes of the instruction again, for tracing and for a fatal error. -/
def readFetchWindow : CpuM (List U8) := do
  let c ← get
  let linear := c.regs.codeBase + instructionPointer c.regs.mode c.instructionStart
  let first ← translate linear .execute
  readWindow linear first

/-! ## One instruction -/

def deliverPageFault (linear : U64) (errorCode : U16) : CpuM Unit := do
  updateRegs fun r => { r with cr2 := linear }
  raise VECTOR_PAGE_FAULT errorCode true

variable (i : Instruction) (before : Registers)

/-- The general registers and flags go back to before the instruction, and RIP to its start. -/
def rollback (r : Registers) : Registers :=
  let r := if mayFault i then { r with gpr := before.gpr, rflags := before.rflags } else r
  { r with rip := r.rip - ofNat 64 i.len }

def windowOrZeros : Outcome CpuError (List U8) → Outcome CpuError (List U8)
  | .ok window => .ok window
  | .err _ => .ok (List.replicate MAX_INSTRUCTION_BYTES 0)
  | .panic => .panic

def failUnimplemented (code : String) (address : U64) : CpuM Bool := do
  let read ← readFetchWindow.attempt
  let window ← Exec.lift (windowOrZeros read)
  fail (.unimplementedInstruction code address window)

def restart (linear : U64) (errorCode : U16) : CpuM Bool := do
  updateRegs (rollback i before)
  deliverPageFault linear errorCode
  return false

/-- What follows the execution: a page fault is delivered and the instruction retried. -/
def afterDispatch (result : Outcome CpuError Unit) : CpuM Bool :=
  match result with
  | .ok _ => return true
  | .err (.pageFault linear errorCode) => restart i before linear errorCode
  | .err (.unimplementedInstruction code address _) => failUnimplemented code address
  | .err e => fail e
  | .panic => Exec.lift .panic

/-- With tracing on the bytes are read again; the trace itself is left out. -/
def traceWindow : CpuM Unit := do
  let c ← get
  Exec.when (c.traceCapacity ≠ 0) (readFetchWindow >>= fun _ => pure ())

def advanceRip : CpuM Unit := updateRegs fun r => { r with rip := r.rip + ofNat 64 i.len }

def executeFetched : CpuM Bool := do
  traceWindow
  let c ← get
  advanceRip i
  let result ← (dispatch i).attempt
  afterDispatch i c.regs result

def retryFetch (linear : U64) (errorCode : U16) : CpuM Bool := do
  deliverPageFault linear errorCode
  return false

def afterFetch (fetched : Outcome CpuError Instruction) : CpuM Bool :=
  match fetched with
  | .ok i => executeFetched i
  | .err (.pageFault linear errorCode) => retryFetch linear errorCode
  | .err e => fail e
  | .panic => Exec.lift .panic

/-- One round of the retry loop: true when the instruction is done, false when a fault was delivered
    in its place. -/
def executeRound : CpuM Bool := do
  update fun c => { c with instructionStart := c.regs.rip }
  let fetched ← (fetch decoder).attempt
  afterFetch fetched

/-- The retry loop, for a number of rounds; false when they did not suffice. -/
def executeOne (decoder : Decoder) : Nat → CpuM Bool
  | 0 => return false
  | rounds + 1 => do
    let done ← executeRound decoder
    if done then return true else executeOne decoder rounds

/-! ## Steps -/

def serveInterrupts : CpuM Unit := do
  let c ← get
  if c.interruptShadow then update fun c => { c with interruptShadow := false } else deliverPending

/-- Halted with interrupts enabled: only time passes. -/
def idle : CpuM Unit := do
  update fun c => { c with tsc := ofNat 64 (min (c.tsc.toNat + DEVICE_TICK_INTERVAL) (2 ^ 64 - 1)) }
  serviceDevices DEVICE_TICK_INTERVAL

def countInstruction (c : Cpu) : Cpu :=
  { c with
    regs := { c.regs with instructionsRetired := saturatingSucc c.regs.instructionsRetired }
    tsc := saturatingSucc c.tsc
    deviceCountdown := if h : 1 < c.deviceCountdown.val
      then ⟨c.deviceCountdown.val - 1, by have := c.deviceCountdown.property; omega⟩ else .full }

/-- Devices are served when the countdown runs out. -/
def retire : CpuM Unit := do
  let c ← get
  update countInstruction
  Exec.when (c.deviceCountdown.val = 1) (serviceDevices DEVICE_TICK_INTERVAL)

def finishStep (done : Bool) : CpuM Bool :=
  if done then do
    retire
    return true
  else return false

variable (rounds : Nat)

def stepAwake : CpuM Bool := do
  let done ← executeOne decoder rounds
  finishStep done

def stepIdle : CpuM Bool := do
  idle
  return true

def stepRunning : CpuM Bool := do
  serveInterrupts
  let c ← get
  if c.waitingForInterrupt then stepIdle else stepAwake decoder rounds

def step : CpuM Bool := do
  let c ← get
  if c.halted then fail .halted else stepRunning decoder rounds

end Cpu

end Rish.SoftVm
