/-
  Rish.SoftVm.Ops.Data — data movement: mov, lea, movzx and movsx, xchg, xadd, cmpxchg, xlat.
-/

import Rish.SoftVm.Ops.Stack

namespace Rish.SoftVm.Ops

open Lib Cpu

/-! ## mov -/

variable (i : Instruction)

def movFromSegment : CpuM Unit := do
  let c ← get
  writeOperand0 i ((c.regs.segmentSelector (i.opRegister 1)).setWidth 64)

/-- The descriptor is loaded before a move to CS is refused. -/
def movToSegment : CpuM Unit := do
  let selector ← readOperand1 i
  let loaded ← loadSegmentFromTable ⟨selector.setWidth 16⟩
  if i.opRegister 0 = .segment .cs then raise 13 0 true
  else updateRegs (putSegment (i.opRegister 0) loaded)

def isMoffsStore (code : Code) : Bool :=
  code = .movMoffs8Al ∨ code = .movMoffs16Ax ∨ code = .movMoffs32Eax ∨ code = .movMoffs64Rax

def isMoffsLoad (code : Code) : Bool :=
  code = .movAlMoffs8 ∨ code = .movAxMoffs16 ∨ code = .movEaxMoffs32 ∨ code = .movRaxMoffs64

/-- The source declares other widths unreachable. -/
def moffsWidth (size : Nat) : Outcome CpuError Unit := if operandWidth size then .ok () else .panic

def movMoffsStore : CpuM Unit := do
  let size := memorySize i
  let c ← get
  let physical ← translate i.memoryDisplacement64 .write
  Exec.lift (moffsWidth size)
  memoryWriteLe physical size (readAccumulator c.regs size)

def movMoffsLoad : CpuM Unit := do
  let size := memorySize i
  let physical ← translate i.memoryDisplacement64 .read
  Exec.lift (moffsWidth size)
  let value ← memoryReadLe physical size
  updateRegs fun r => writeAccumulator r size value

def movValue : CpuM Unit := do
  let value ← readOperand1 i
  writeOperand0 i value

def mov : CpuM Unit :=
  if isSegment (i.opRegister 1) then movFromSegment i
  else if isSegment (i.opRegister 0) then movToSegment i
  else if isMoffsStore i.code then movMoffsStore i
  else if isMoffsLoad i.code then movMoffsLoad i
  else movValue i

def lea : CpuM Unit := do
  let c ← get
  setRegister (i.opRegister 0) (operandSize i 0) (effectiveAddress i c)

/-! ## Extending moves -/

def movxSize : Nat :=
  if i.mnemonic = .movzx ∨ i.mnemonic = .movsx then
    if i.opKind 1 = .register then registerSize (i.opRegister 1)
    else
      match i.memorySize with
      | .uInt8 | .int8 => 1
      | .uInt16 | .int16 => 2
      | _ => 4
  else 4

def signExtend (value : U64) (size : Nat) : U64 :=
  let shift := 64 - size * 8
  (value <<< shift).sshiftRight shift

def movxSource : CpuM U64 :=
  if i.opKind 1 = .memory then readOperand i (movxSize i) else viewRegister (i.opRegister 1) (movxSize i)

def movx : CpuM Unit := do
  let value ← movxSource i
  let value := if i.mnemonic = .movsx ∨ i.mnemonic = .movsxd then signExtend value (movxSize i) else value
  setRegister (i.opRegister 0) (operandSize i 0) value

/-! ## Exchanges -/

/-- The old first operand into the second. -/
def writeOperand1 (size : Nat) (value : U64) : CpuM Unit :=
  if i.opKind 1 = .memory then writeOperand i (memorySize i) value
  else setRegister (i.opRegister 1) size value

def xchg : CpuM Unit := do
  let left ← readOperand0 i
  let right ← readOperand1 i
  writeOperand0 i right
  writeOperand1 i (operandSize i 0) left

def xadd : CpuM Unit := do
  let size := operandSize i 0
  let left ← readOperand0 i
  let right ← readOperand1 i
  let sum := addWithFlags left right false (size * 8)
  updateRegs fun r => setArithmetic r sum (size * 8)
  writeOperand0 i sum.result
  writeOperand1 i size left

def cmpxchg : CpuM Unit := do
  let size := operandSize i 0
  let c ← get
  let accumulator := readAccumulator c.regs size
  let memory ← readOperand0 i
  let compare ← readOperand1 i
  updateRegs fun r => setArithmetic r (subWithFlags accumulator memory false (size * 8)) (size * 8)
  if accumulator = memory then writeOperand0 i compare
  else updateRegs fun r => writeAccumulator r size memory

/-- Two adjacent words of a physical address; the second address is computed unchecked. -/
def readPair (physical : U64) (half : Nat) : CpuM (U64 × U64) := do
  let low ← memoryReadLe physical half
  let next ← Exec.lift (Outcome.add physical (BitVec.ofNat 64 half))
  let high ← memoryReadLe next half
  return (low, high)

def writePair (physical : U64) (half : Nat) (low high : U64) : CpuM Unit := do
  memoryWriteLe physical half low
  let next ← Exec.lift (Outcome.add physical (BitVec.ofNat 64 half))
  memoryWriteLe next half high

/-- Both forms: the pair in EDX:EAX or RDX:RAX, the new value in ECX:EBX or RCX:RBX. -/
def cmpxchg8b : CpuM Unit := do
  let half := if memorySize i = 16 then 8 else 4
  let c ← get
  let linear := effectiveAddress i c
  let physical ← translate linear .read
  let memory ← readPair physical half
  let equal := memory.1 = readRegister c.regs (registerOf half index.RAX) half ∧
    memory.2 = readRegister c.regs (registerOf half index.RDX) half
  updateRegs fun r => withFlag r RFlags.ZF equal
  if equal then do
    let physical ← translate linear .write
    writePair physical half (readRegister c.regs (registerOf half index.RBX) half)
      (readRegister c.regs (registerOf half index.RCX) half)
  else
    updateRegs fun r => writeRegister (writeAccumulator r half memory.1) (registerOf half index.RDX) half memory.2

def xlatb : CpuM Unit := do
  let c ← get
  let linear := readRegister c.regs (.qword index.RBX) 8 + readRegister c.regs (.low8 index.RAX) 1
  let physical ← translate linear .read
  let value ← memoryReadLe physical 1
  setRegister (.low8 index.RAX) 1 value

end Rish.SoftVm.Ops
