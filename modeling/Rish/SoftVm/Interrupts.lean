/-
  Rish.SoftVm.Interrupts — exception and interrupt delivery through the guest IDT.

  The gate type decides whether IF survives, a gate that raises the privilege level switches to the
  stack in the TSS, and an IST index selects one of the seven dedicated stacks.
-/

import Rish.SoftVm.Cpu

namespace Rish.SoftVm

open Lib
open Exec (update)

def VECTOR_DIVIDE : U8 := 0
def VECTOR_INVALID_OPCODE : U8 := 6
def VECTOR_DOUBLE_FAULT : U8 := 8
def VECTOR_GENERAL_PROTECTION : U8 := 13
def VECTOR_PAGE_FAULT : U8 := 14

def TSS_RSP0 : U64 := 4
def TSS_IST1 : U64 := 36

/-- One decoded IDT gate. -/
structure Gate where
  selector : SegmentSelector
  offset : U64
  /-- interrupt stack table index, 0 when unused -/
  ist : Nat
  /-- type nibble: 0xE interrupt gate, 0xF trap gate -/
  kind : Nat
  dpl : Nat
  present : Bool
  deriving DecidableEq, Repr

namespace Gate

/-- An interrupt gate clears IF on entry; a trap gate leaves it alone. -/
def clearsInterruptFlag (g : Gate) : Bool := g.kind % 16 ≠ 0xF

def decode (longMode : Bool) (low high : U64) : Gate where
  selector := ⟨(low >>> 16).setWidth 16⟩
  offset :=
    (low &&& 0xFFFF) ||| ((low >>> 32) &&& 0xFFFF0000) ||| (if longMode then (high &&& 0xFFFFFFFF) <<< 32 else 0)
  ist := if longMode then ((low >>> 32) &&& 0b111).toNat else 0
  kind := ((low >>> 40) &&& 0xF).toNat
  dpl := ((low >>> 45) &&& 0b11).toNat
  present := (low >>> 40) &&& 0x80 != 0

end Gate

namespace Cpu

def idtEntrySize (mode : CpuMode) : Nat := if mode = .long then 16 else 8

/-- The upper half of a long-mode gate. Its address is the gate's plus eight, unchecked. -/
def idtGateHigh (address : U64) : CpuM U64 := do
  let upper ← Exec.lift (Outcome.add address 8)
  readTable upper

variable (vector : U8)

def idtGate : CpuM Gate := do
  let c ← get
  let longMode := c.regs.mode == .long
  let entrySize := idtEntrySize c.regs.mode
  if c.regs.idtLimit.toNat < vector.toNat * entrySize + entrySize - 1 then
    guestFault ("IDT limit " ++ toString c.regs.idtLimit.toNat ++ " cannot reach vector " ++ toString vector.toNat)
  else
    let address := c.regs.idtBase + BitVec.ofNat 64 (vector.toNat * entrySize)
    let low ← readTable address
    let high ← if longMode then idtGateHigh address else pure 0
    return Gate.decode longMode low high

def tssField (offset : U64) : CpuM U64 := do
  let c ← get
  if c.regs.trBase = 0 then
    guestFault "interrupt needs a stack from the TSS, but no task register is loaded"
  else readTable (c.regs.trBase + offset)

/-- The handler's stack, aligned to 16 bytes, with a null stack segment. -/
def setGateStack (rsp : U64) : CpuM Unit := updateRegs fun r =>
  { r.setGpr index.RSP (rsp &&& ~~~0xF) with ss := SegmentRegister.unloaded }

variable (gate : Gate)

/-- An IST entry when the gate names one, the ring stack of the TSS when the privilege level rises,
    and otherwise the interrupted stack. -/
def switchToGateStack (oldCpl newCpl : Nat) : CpuM Unit :=
  if gate.ist ≠ 0 then do
    let rsp ← tssField (TSS_IST1 + BitVec.ofNat 64 ((gate.ist - 1) * 8))
    setGateStack rsp
  else if newCpl < oldCpl then do
    let rsp ← tssField (TSS_RSP0 + BitVec.ofNat 64 (newCpl * 8))
    setGateStack rsp
  else return ()

def loadCodeSegment (selector : SegmentSelector) : CpuM SegmentRegister := do
  let c ← get
  if c.regs.mode = .real ∨ c.regs.mode = .protected16 then return .realMode selector
  else loadSegmentFromTable selector

/-- The frame below the handler, from the state `old` before the transfer. -/
def pushFrame (old : Registers) (errorCode : U16) (hasErrorCode : Bool) : CpuM Unit := do
  let size := stackSlot old.mode
  Exec.when (old.mode = .long) do
    push size (old.ss.selector.raw.setWidth 64)
    push size old.rsp
  push size old.rflags
  push size (old.cs.selector.raw.setWidth 64)
  push size old.rip
  Exec.when hasErrorCode (push size (errorCode.setWidth 64))

/-- Both gate kinds clear TF, NT and RF. -/
def gateFlags (flags : U64) : U64 :=
  let flags := flags &&& ~~~RFlags.TF &&& ~~~RFlags.NT &&& ~~~RFlags.RF
  if gate.clearsInterruptFlag then flags &&& ~~~RFlags.IF else flags

def saturatingSucc (n : U64) : U64 := if n = BitVec.allOnes 64 then n else n + 1

def countDelivery (isException : Bool) : CpuM Unit := update fun c =>
  if isException then { c with exceptionsRaised := saturatingSucc c.exceptionsRaised }
  else { c with interruptsDelivered := saturatingSucc c.interruptsDelivered }

def gateRip (mode : CpuMode) (offset : U64) : U64 :=
  match mode with
  | .long => offset
  | .protected32 => offset &&& 0xFFFFFFFF
  | _ => offset &&& 0xFFFF

/-- The handler's code segment takes effect before the frame is pushed, so the pushes run at the
    handler's privilege level against the handler's stack. -/
def transferToGate (vector : U8) (errorCode : U16) (hasErrorCode isException : Bool) : CpuM Unit := do
  let c ← get
  if !gate.present then
    guestFault ("IDT gate for vector " ++ hex (vector.setWidth 64) ++ " (selector " ++
      hex (gate.selector.raw.setWidth 64) ++ ") is not present; idt=" ++ hex c.regs.idtBase ++ "/" ++
      hex (c.regs.idtLimit.setWidth 64))
  else
    let old := c.regs
    let newCs ← loadCodeSegment gate.selector
    let newCpl := if old.mode = .real then 0 else newCs.selector.rpl
    Exec.when (old.mode = .long) (switchToGateStack gate old.cpl newCpl)
    updateRegs fun r => { r with cs := newCs }
    pushFrame old errorCode hasErrorCode
    countDelivery isException
    updateRegs fun r => { r with rflags := gateFlags gate old.rflags, rip := gateRip old.mode gate.offset }

variable (errorCode : U16)

def deliverGate (hasErrorCode isException : Bool) : CpuM Unit := do
  let gate ← idtGate vector
  transferToGate gate vector errorCode hasErrorCode isException

/-- Delivery with a flag up that says what is being delivered; the flag goes down on every path. -/
def deliverMarked (mark : Bool → Cpu → Cpu) (x : CpuM Unit) : CpuM Unit := do
  update (mark true)
  let result ← x.attempt
  update (mark false)
  Exec.lift result

/-- Raises a fault: the return address is rewound to the faulting instruction. -/
def raise (hasErrorCode : Bool) : CpuM Unit := do
  let c ← get
  updateRegs fun r => { r with rip := c.instructionStart }
  if c.inException then
    if c.inDoubleFault then Exec.fail .tripleFault
    else deliverMarked (fun b c => { c with inDoubleFault := b }) (deliverGate VECTOR_DOUBLE_FAULT 0 true true)
  else
    deliverMarked (fun b c => { c with inException := b }) (deliverGate vector errorCode hasErrorCode true)

/-- Queues a trap (INT n, INT3, INTO) for the next step. -/
def injectInterrupt (hasErrorCode : Bool) : CpuM Unit := update fun c =>
  { c with pendingInterrupts := c.pendingInterrupts ++ [⟨vector, errorCode, hasErrorCode⟩] }

def wake : CpuM Unit := update fun c => { c with waitingForInterrupt := false }

/-- The highest-priority vector of the local APIC, taken out of it. -/
def nextLapicVector : CpuM (Option U8) := do
  let c ← get
  update fun c => { c with memory := c.memory.lapicPopInterrupt.2 }
  return c.memory.lapicPopInterrupt.1

def deliverInterrupt : CpuM Unit := do
  deliverGate vector 0 false false
  wake

def acknowledgePic (irq : Nat) : CpuM U8 := do
  let c ← get
  update fun c => { c with pic := (c.pic.acknowledge irq).2 }
  return (c.pic.acknowledge irq).1

def deliverPic (pending : Option Nat) : CpuM Unit :=
  match pending with
  | some irq => do
    let vector ← acknowledgePic irq
    deliverInterrupt vector
  | none => return ()

/-- A pending interrupt of the local APIC, or else of the 8259 pair. -/
def deliverExternal (lapic : Option U8) : CpuM Unit :=
  match lapic with
  | some vector => deliverInterrupt vector
  | none => do
    let c ← get
    deliverPic c.pic.pendingIrq

/-- Queued traps are not maskable by IF: they are part of the instruction that requested them. -/
def deliverQueued (item : Deliverable) (rest : List Deliverable) : CpuM Unit := do
  update fun c => { c with pendingInterrupts := rest }
  deliverGate item.vector item.errorCode item.hasErrorCode true
  wake

def deliverMaskable : CpuM Unit := do
  let c ← get
  if !contains c.regs.rflags RFlags.IF then return ()
  else
    let vector ← nextLapicVector
    deliverExternal vector

def deliverFrom (pending : List Deliverable) : CpuM Unit :=
  match pending with
  | item :: rest => deliverQueued item rest
  | [] => deliverMaskable

def deliverPending : CpuM Unit := do
  let c ← get
  deliverFrom c.pendingInterrupts

end Cpu

end Rish.SoftVm
