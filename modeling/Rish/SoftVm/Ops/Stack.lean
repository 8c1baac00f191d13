/-
  Rish.SoftVm.Ops.Stack — push and pop, the flag forms, and stack frames.
-/

import Rish.SoftVm.Ops.Operand

namespace Rish.SoftVm.Ops

open Lib Cpu

def isSegment (register : Register) : Bool :=
  match register with
  | .segment _ => true
  | _ => false

def putSegment (register : Register) (loaded : SegmentRegister) (r : Registers) : Registers :=
  match register with
  | .segment .es => { r with es := loaded }
  | .segment .cs => { r with cs := loaded }
  | .segment .ss => { r with ss := loaded }
  | .segment .ds => { r with ds := loaded }
  | .segment .fs => { r with fs := loaded }
  | .segment .gs => { r with gs := loaded }
  | _ => r

def pushFlags : CpuM Unit := do
  let c ← get
  pushNative c.regs.rflags

/-- TF stays; every other defined flag comes from the stack, IF and IOPL included. -/
def popFlags : CpuM Unit := do
  let value ← popNative
  updateRegs fun r =>
    let bits := match r.mode with
      | .long => value
      | .protected32 => value &&& 0xFFFFFFFF
      | _ => value &&& 0xFFFF
    { r with rflags := RFlags.fromBitsTruncate bits ||| (r.rflags &&& RFlags.TF) }

def leave : CpuM Unit := do
  updateRegs fun r => r.setGpr index.RSP (r.gpr index.RBP)
  let value ← popNative
  setGpr index.RBP value

variable (i : Instruction)

def popSegment : CpuM Unit := do
  let selector ← popNative
  let loaded ← loadCodeSegment ⟨selector.setWidth 16⟩
  updateRegs (putSegment (i.opRegister 0) loaded)

def pushSegment : CpuM Unit := do
  let c ← get
  pushNative ((c.regs.segmentSelector (i.opRegister 0)).setWidth 64)

/-- The immediate of a push, sign extended except for the 16-bit one. -/
def pushImmediate (kind : OpKind) (immediate : U64) : Option U64 :=
  match kind with
  | .immediate8 | .immediate8to64 | .immediate8to16 | .immediate8to32 => some ((immediate.setWidth 8).signExtend 64)
  | .immediate16 => some ((immediate.setWidth 16).setWidth 64)
  | .immediate32 | .immediate32to64 => some ((immediate.setWidth 32).signExtend 64)
  | _ => none

def pushSource : CpuM U64 :=
  match pushImmediate (i.opKind 0) (i.immediate 0) with
  | some value => return value
  | none => readOperand0 i

def pushValue : CpuM Unit := do
  let value ← pushSource i
  pushNative value

def popValue : CpuM Unit := do
  let value ← popNative
  writeOperand0 i value

/-- One enclosing frame pointer copied; the copy reads eight bytes in every mode. -/
def enterLevel (frame : U64) (level : Nat) : CpuM Unit := do
  let c ← get
  let physical ← translate (frame - BitVec.ofNat 64 (level * stackSlot c.regs.mode)) .read
  let value ← memoryReadLe physical 8
  pushNative value

def enter : CpuM Unit := do
  let frameSize := (i.immediate 0).setWidth 16
  let nesting := (i.immediate 1 &&& 0x1F).toNat
  let c ← get
  let frame := c.regs.gpr index.RBP
  pushNative frame
  let pushed ← get
  let framePointer := pushed.regs.rsp
  Exec.when (nesting ≠ 0) do
    (List.range' 1 (nesting - 1)).forM (enterLevel frame)
    pushNative framePointer
  updateRegs fun r => (r.setGpr index.RBP framePointer).setGpr index.RSP (r.rsp - frameSize.setWidth 64)

def pushPop : CpuM Unit :=
  if i.mnemonic ∈ [.pushf, .pushfq, .pushfd] then pushFlags
  else if i.mnemonic ∈ [.popf, .popfq, .popfd] then popFlags
  else if i.mnemonic = .enter then enter i
  else if i.mnemonic = .leave then leave
  else if i.mnemonic = .pop then if isSegment (i.opRegister 0) then popSegment i else popValue i
  else if i.mnemonic = .push then if isSegment (i.opRegister 0) then pushSegment i else pushValue i
  else return ()

end Rish.SoftVm.Ops
