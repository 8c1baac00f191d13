/-
  Rish.SoftVm.Cpu — the machine and its memory accesses: address translation, operands, descriptor
  tables, the stack and buffers at linear addresses.

  Code of the interpreter is a program over the machine (`CpuM`); an access of guest memory, and an
  access of a page table on the way to it, is counted. The diagnostic logs, the trace ring and the
  hit counters are left out, and so is the generic port bus, to which nothing is attached.
-/

import Rish.SoftVm.Chipset
import Rish.SoftVm.Decode
import Rish.SoftVm.Tlb

namespace Rish.SoftVm

open Lib

def NANOSECONDS_PER_INSTRUCTION : Nat := 10
def DEVICE_TICK_INTERVAL : Nat := 64

/-- Instructions left until the next device tick. -/
abbrev Countdown := { n : Nat // 0 < n ∧ n ≤ DEVICE_TICK_INTERVAL }

def Countdown.full : Countdown := ⟨DEVICE_TICK_INTERVAL, by decide⟩

/-- An interrupt or exception waiting to be delivered. -/
structure Deliverable where
  vector : U8
  errorCode : U16
  hasErrorCode : Bool
  deriving DecidableEq, Repr

structure Cpu where
  regs : Registers
  memory : Memory
  pic : Pic8259
  pit : Pit8254
  cmos : Cmos
  acpiPm : AcpiPm
  uartConsole : Uart16550
  uartControl : Uart16550
  /-- asserted interrupt request lines -/
  lines : U16
  tsc : U64
  halted : Bool
  kernelGsBase : U64
  xcr0 : U64
  msrStar : U64
  msrLstar : U64
  msrCstar : U64
  msrFmask : U64
  msrTscAux : U64
  fpuControlWord : U16
  fpuStatusWord : U16
  /-- x87 stack slots, as the bit patterns of doubles -/
  fpuStack : Fin 8 → U64
  fpuTop : Fin 8
  mxcsr : U32
  traceCapacity : Nat
  interruptsDelivered : U64
  exceptionsRaised : U64
  pendingInterrupts : List Deliverable
  inException : Bool
  inDoubleFault : Bool
  tlb : Tlb
  decoded : DecodeCache
  deviceCountdown : Countdown
  waitingForInterrupt : Bool
  interruptShadow : Bool
  instructionStart : U64
  /-- the environment switch `RISH_NO_TLB` -/
  tlbDisabled : Bool

def Cpu.new (memory : Memory) (bootEpochSeconds : U64) (traceCapacity : Nat) (tlbDisabled : Bool) : Cpu where
  regs := .reset
  memory := { memory with lapic := some .new }
  pic := .new
  pit := .new
  cmos := ⟨0, bootEpochSeconds⟩
  acpiPm := .new
  uartConsole := .new 0x3F8 4096 65536
  uartControl := .new 0x2F8 65536 65536
  lines := 0
  tsc := 0
  halted := false
  kernelGsBase := 0
  xcr0 := 0x3
  msrStar := 0
  msrLstar := 0
  msrCstar := 0
  msrFmask := 0
  msrTscAux := 0
  fpuControlWord := 0x037F
  fpuStatusWord := 0
  fpuStack := fun _ => 0
  fpuTop := 0
  mxcsr := 0x1F80
  traceCapacity := traceCapacity
  interruptsDelivered := 0
  exceptionsRaised := 0
  pendingInterrupts := []
  inException := false
  inDoubleFault := false
  tlb := .new
  decoded := .new
  deviceCountdown := .full
  waitingForInterrupt := false
  interruptShadow := false
  instructionStart := 0
  tlbDisabled := tlbDisabled

abbrev CpuM := Exec Cpu CpuError

namespace Cpu

def get : CpuM Cpu := Exec.view id

@[simp] theorem get_bind {β : Type} (f : Cpu → CpuM β) (c : Cpu) : (get >>= f) c = f c c := Exec.view_bind id f c

def updateRegs (f : Registers → Registers) : CpuM Unit := Exec.update fun c => { c with regs := f c.regs }

def setGpr (i : GprIndex) (v : U64) : CpuM Unit := updateRegs fun r => r.setGpr i v

def setRflags (flags : U64) : CpuM Unit := updateRegs fun r => { r with rflags := flags }

def guestFault {α : Type} (message : String) : CpuM α := Exec.fail (.guestFault message)

/-! ## Physical memory -/

def onMemory {α : Type} (x : Exec Memory CpuError α) : CpuM α :=
  x.zoom Cpu.memory fun c memory => { c with memory }

variable (physical : U64)

def memoryRead (n : Nat) : CpuM (List U8) := Exec.query 1 fun c => c.memory.read physical n

/-- A little-endian read of at most eight bytes, zero extended. -/
def memoryReadLe (size : Nat) : CpuM U64 := Exec.query 1 fun c => c.memory.readU64At physical size

def memoryWrite (bytes : List U8) : CpuM Unit := fun c =>
  match c.memory.write physical bytes with
  | .ok memory => ⟨.ok (), { c with memory }, 1⟩
  | .err e => ⟨.err e, c, 1⟩
  | .panic => ⟨.panic, c, 1⟩

def memoryWriteLe (size : Nat) (value : U64) : CpuM Unit :=
  memoryWrite physical (leBytes size value.toNat)

/-! ## Address translation -/

def pageFault (fault : PageFault) : CpuError := .pageFault fault.linear fault.errorCode

def isPageFault {α : Type} : Outcome CpuError α → Bool
  | .err (.pageFault _ _) => true
  | _ => false

variable (linear : U64)

def tlbInsert (walked : Translation) : CpuM Unit :=
  Exec.update fun c => { c with tlb := c.tlb.insert linear walked }

def tlbInvalidate : CpuM Unit := Exec.update fun c => { c with tlb := c.tlb.invalidate linear }

def tlbLookup (c : Cpu) (linear : U64) : Option Translation :=
  if c.tlbDisabled then none else c.tlb.lookup linear

variable (kind : AccessKind)

/-- A walk of the active tables, kept in the TLB. -/
def walkAndInsert (cpl : Nat) : CpuM Translation := do
  let c ← get
  let walked ← onMemory ((walk c.regs.cr3 c.regs.cr4 c.regs.efer linear).mapErr fun fault =>
    pageFault (withAccessBits fault kind cpl))
  tlbInsert linear walked
  return walked

def cachedWalk (cpl : Nat) (cached : Option Translation) : CpuM Translation :=
  match cached with
  | some walked => return walked
  | none => walkAndInsert linear kind cpl

/-- What follows the access check. A permission fault drops the cached entry, so that the retried
    access walks again and sees what the guest did about it. -/
def settleAccess (walked : Translation) (checked : Except PageFault Unit) : CpuM U64 :=
  match checked with
  | .ok _ => return walked.physical linear
  | .error fault => do
    tlbInvalidate linear
    Exec.fail (pageFault fault)

def checkWalked (cpl : Nat) (walked : Translation) : CpuM U64 := do
  let c ← get
  settleAccess linear walked
    (checkAccess walked linear kind cpl c.regs.cr0 c.regs.cr4 c.regs.efer (contains c.regs.rflags RFlags.AC))

def translateAs (cpl : Nat) : CpuM U64 := do
  let c ← get
  if !contains c.regs.cr0 Cr0.PG then return linear
  else
    let walked ← cachedWalk linear kind cpl (c.tlbLookup linear)
    checkWalked linear kind cpl walked

/-- At the current privilege level. -/
def translate : CpuM U64 := do
  let c ← get
  translateAs linear kind c.regs.cpl

/-- For an access the CPU itself makes to descriptor tables. -/
def translatePrivileged : CpuM U64 := translateAs linear kind 0

def flushTlb : CpuM Unit := Exec.update fun c => { c with tlb := c.tlb.flush }

def invalidatePage : CpuM Unit := tlbInvalidate linear

/-! ## Buffers at linear addresses -/

/-- `n` bytes from a linear address on, each page translated for itself. Every round takes at least
    one byte, so `n` rounds are enough. -/
def readPages (toPhysical : U64 → CpuM U64) : Nat → U64 → Nat → CpuM (List U8)
  | 0, _, _ => return []
  | rounds + 1, linear, n =>
    if n = 0 then return []
    else do
      let physical ← toPhysical linear
      let inPage := min (4096 - (physical &&& 0xFFF).toNat) n
      let head ← memoryRead physical inPage
      let tail ← readPages toPhysical rounds (linear + BitVec.ofNat 64 inPage) (n - inPage)
      return head ++ tail

def readLinearBytes (n : Nat) : CpuM (List U8) := readPages (translate · .read) n linear n

def writePages : Nat → U64 → List U8 → CpuM Unit
  | 0, _, _ => return ()
  | rounds + 1, linear, bytes =>
    if bytes.length = 0 then return ()
    else do
      let physical ← translate linear .write
      let inPage := min (4096 - (physical &&& 0xFFF).toNat) bytes.length
      memoryWrite physical (bytes.take inPage)
      writePages rounds (linear + BitVec.ofNat 64 inPage) (bytes.drop inPage)

def writeLinearBytes (bytes : List U8) : CpuM Unit := writePages bytes.length linear bytes

/-! ## Operands -/

/-- Number of a register in the general-purpose file; a register of another file is RAX. -/
def registerIndex : Register → GprIndex
  | .low8 i => i
  | .high8 i => ⟨i.val, by omega⟩
  | .word i => i
  | .dword i => i
  | .qword i => i
  | _ => index.RAX

variable (i : Instruction)

def addressSizeOf : Nat :=
  match if i.memoryBase ≠ .none then i.memoryBase else i.memoryIndex with
  | .none => 8
  | .qword _ => 8
  | .dword _ => 4
  | _ => 2

def gprOr0 (r : Registers) (register : Register) : U64 :=
  if register = .none then 0 else r.gpr (registerIndex register)

/-- The linear address of the memory operand. A segment override also applies to a RIP-relative one. -/
def effectiveAddress (c : Cpu) : U64 :=
  let segmentBase := c.regs.dataBase i.segmentPrefix
  if i.isIpRelMemoryOperand then segmentBase + i.ipRelMemoryAddress
  else
    let address := i.memoryDisplacement64 + gprOr0 c.regs i.memoryBase +
      gprOr0 c.regs i.memoryIndex * i.memoryIndexScale.setWidth 64
    segmentBase + match addressSizeOf i with
      | 2 => address &&& 0xFFFF
      | 4 => address &&& 0xFFFFFFFF
      | _ => address

def operandWidth (size : Nat) : Bool := size = 1 ∨ size = 2 ∨ size = 4 ∨ size = 8

def unsupportedSize {α : Type} (size : Nat) : CpuM α := guestFault ("unsupported operand size " ++ toString size)

/-- Whether `size` bytes from an address on lie inside its page. -/
def onePage (size : Nat) : Bool := (linear &&& 0xFFF).toNat + size ≤ 0x1000

/-- A memory operand, zero extended. Inside one page one translation is exact. -/
def readLinear (size : Nat) : CpuM U64 :=
  if onePage linear size then do
    let physical ← translate linear .read
    if operandWidth size then memoryReadLe physical size else unsupportedSize size
  else if operandWidth size then do
    let bytes ← readLinearBytes linear size
    return BitVec.ofNat 64 (leNat bytes)
  else unsupportedSize size

def readOperand (size : Nat) : CpuM U64 := do
  let c ← get
  readLinear (effectiveAddress i c) size

def writeLinear (size : Nat) (value : U64) : CpuM Unit :=
  if onePage linear size then do
    let physical ← translate linear .write
    if operandWidth size then memoryWriteLe physical size value else unsupportedSize size
  else if operandWidth size then writeLinearBytes linear (leBytes size value.toNat)
  else unsupportedSize size

def writeOperand (size : Nat) (value : U64) : CpuM Unit := do
  let c ← get
  writeLinear (effectiveAddress i c) size value

def operandSize : Nat :=
  match i.codeSize with
  | .code16 => 2
  | .code32 => 4
  | .code64 => 8
  | .unknown => 8

/-! ## Descriptor tables -/

variable (selector : SegmentSelector)

def descriptorAddress (c : Cpu) : U64 :=
  (if selector.table = 0 then c.regs.gdtBase else c.regs.ldtr.base) + selector.index.setWidth 64 * 8

/-- Eight bytes of a system table, under supervisor rights. -/
def readTable : CpuM U64 := do
  let physical ← translatePrivileged linear .read
  memoryReadLe physical 8

def descriptorEntry : CpuM U64 := do
  let c ← get
  readTable (descriptorAddress selector c)

/-- A data or stack segment; a null selector reads no table. -/
def loadSegmentFromTable : CpuM SegmentRegister :=
  if selector.index = 0 ∧ selector.table = 0
    then return { SegmentRegister.unloaded with selector, base := 0, limit := 0 }
  else do
    let entry ← descriptorEntry selector
    return (Descriptor.decode entry).load selector

/-- A 16-byte system descriptor (LDT or TSS); its upper half carries base bits 63:32. -/
def loadSystemDescriptor : CpuM SegmentRegister := do
  let low ← descriptorEntry selector
  let loaded := (Descriptor.decode low).load selector
  let c ← get
  if c.regs.mode = .long then do
    let high ← readTable (descriptorAddress selector c + 8)
    return { loaded with base := loaded.base ||| ((high &&& 0xFFFFFFFF) <<< 32) }
  else return loaded

/-- A data segment on a return to a weaker ring: nulled when its privilege is stronger. -/
def dropIfInaccessible (cpl : Nat) (s : SegmentRegister) : SegmentRegister :=
  if s.selector.raw ≠ 0 ∧ !s.conforming ∧ s.attributes.dpl < cpl then
    { SegmentRegister.unloaded with selector := ⟨0⟩, base := s.base, limit := 0 }
  else s

def dropInaccessibleDataSegments (cpl : Nat) : CpuM Unit := updateRegs fun r =>
  { r with
    ds := dropIfInaccessible cpl r.ds, es := dropIfInaccessible cpl r.es
    fs := dropIfInaccessible cpl r.fs, gs := dropIfInaccessible cpl r.gs }

/-! ## The stack -/

variable (size : Nat)

/-- Linear address of the top of the stack; the 64-bit forms do not add the stack base. -/
def stackTop (c : Cpu) : U64 := if size = 8 then c.regs.rsp else c.regs.stackBase + c.regs.rsp

/-- The stack pointer moves before the store, and one translation serves the whole slot. -/
def push (value : U64) : CpuM Unit := do
  updateRegs fun r => r.setGpr index.RSP (r.rsp - BitVec.ofNat 64 size)
  let c ← get
  let physical ← translate (stackTop size c) .write
  memoryWriteLe physical size value

def pop : CpuM U64 := do
  let c ← get
  let physical ← translate (stackTop size c) .read
  let value ← memoryReadLe physical size
  updateRegs fun r => r.setGpr index.RSP (r.rsp + BitVec.ofNat 64 size)
  return value

def stackSlot (mode : CpuMode) : Nat :=
  match mode with
  | .long => 8
  | .protected32 => 4
  | _ => 2

def popNative : CpuM U64 := do
  let c ← get
  pop (stackSlot c.regs.mode)

def pushNative (value : U64) : CpuM Unit := do
  let c ← get
  push (stackSlot c.regs.mode) value

end Cpu

end Rish.SoftVm
