/-
  Rish.SoftVm.Ops.StringOp — string instructions with REP, REPE and REPNE prefixes.

  The whole repeat is one instruction: nothing is delivered between two elements, and a page fault
  on an element ends the instruction.
-/

import Rish.SoftVm.Ops.Operand

namespace Rish.SoftVm.Ops

open Lib Cpu

variable (i : Instruction)

def isRepeated : Bool := i.hasRepPrefix || i.hasRepePrefix || i.hasRepnePrefix

/-- CX in 16-bit mode, ECX in 32-bit mode, RCX in 64-bit mode. -/
def repeatCount (r : Registers) : Nat :=
  if isRepeated i then
    (match r.mode with
      | .long => r.gpr index.RCX
      | .protected32 => r.gpr index.RCX &&& 0xFFFFFFFF
      | _ => r.gpr index.RCX &&& 0xFFFF).toNat
  else 1

variable (size : Nat)

/-- The step from one element to the next, down when DF is set. -/
def direction (flags : U64) : U64 :=
  if contains flags RFlags.DF then 0 - BitVec.ofNat 64 size else BitVec.ofNat 64 size

def advance (i : GprIndex) (step : U64) (r : Registers) : Registers := r.setGpr i (r.gpr i + step)

def decrementCounter (r : Registers) : Registers :=
  if isRepeated i then r.setGpr index.RCX (r.gpr index.RCX - 1) else r

/-- At most `count` elements, until one asks to stop. -/
def elements (body : CpuM Bool) : Nat → CpuM Unit
  | 0 => return ()
  | count + 1 => do
    let again ← body
    if again then elements body count else return ()

/-- The element buffer has eight bytes. -/
def elementWidth : CpuM Unit := Exec.lift (Outcome.slice size 8)

def readValue (address : U64) (size : Nat) : CpuM U64 := do
  elementWidth size
  let bytes ← readLinearBytes address size
  return BitVec.ofNat 64 (leNat bytes)

variable (step : U64)

def movsElement : CpuM Bool := do
  let c ← get
  elementWidth size
  let bytes ← readLinearBytes (c.regs.gpr index.RSI) size
  writeLinearBytes (c.regs.gpr index.RDI) bytes
  updateRegs fun r => decrementCounter i (advance index.RDI step (advance index.RSI step r))
  return true

def stosElement (step value : U64) : CpuM Bool := do
  let c ← get
  elementWidth size
  writeLinearBytes (c.regs.gpr index.RDI) (leBytes size value.toNat)
  updateRegs fun r => decrementCounter i (advance index.RDI step r)
  return true

def lodsElement : CpuM Bool := do
  let c ← get
  let value ← readValue (c.regs.gpr index.RSI) size
  updateRegs fun r => decrementCounter i (advance index.RSI step (writeAccumulator r size value))
  return true

/-- REPE goes on while the elements are equal, REPNE while they differ. -/
def goesOn (flags : U64) : Bool :=
  !(i.hasRepePrefix && !contains flags RFlags.ZF) && !(i.hasRepnePrefix && contains flags RFlags.ZF)

def scasElement (step accumulator : U64) : CpuM Bool := do
  let c ← get
  let value ← readValue (c.regs.gpr index.RDI) size
  updateRegs fun r =>
    decrementCounter i (advance index.RDI step
      (setArithmetic r (subWithFlags accumulator value false (size * 8)) (size * 8)))
  let c ← get
  return goesOn i c.regs.rflags

def cmpsElement : CpuM Bool := do
  let c ← get
  let left ← readValue (c.regs.gpr index.RSI) size
  let right ← readValue (c.regs.gpr index.RDI) size
  updateRegs fun r =>
    decrementCounter i (advance index.RDI step (advance index.RSI step
      (setArithmetic r (subWithFlags left right false (size * 8)) (size * 8))))
  let c ← get
  return goesOn i c.regs.rflags

inductive StringKind where
  | movs | stos | lods | scas | cmps
  deriving DecidableEq, Repr

def stringKindOf (mnemonic : Mnemonic) : Option StringKind :=
  if mnemonic ∈ [.movsb, .movsw, .movsd, .movsq] then some .movs
  else if mnemonic ∈ [.stosb, .stosw, .stosd, .stosq] then some .stos
  else if mnemonic ∈ [.lodsb, .lodsw, .lodsd, .lodsq] then some .lods
  else if mnemonic ∈ [.scasb, .scasw, .scasd, .scasq] then some .scas
  else if mnemonic ∈ [.cmpsb, .cmpsw, .cmpsd, .cmpsq] then some .cmps
  else none

/-- One element; the accumulator of STOS and SCAS is read once, before the first. -/
def element (start : Registers) (kind : StringKind) : CpuM Bool :=
  let step := direction size start.rflags
  match kind with
  | .movs => movsElement i size step
  | .stos => stosElement i size step (readAccumulator start size)
  | .lods => lodsElement i size step
  | .scas => scasElement i size step (readAccumulator start size)
  | .cmps => cmpsElement i size step

def stringElements (start : Registers) (kind : Option StringKind) : CpuM Unit :=
  match kind with
  | some kind => elements (element i (memorySize i) start kind) (repeatCount i start)
  | none => return ()

def stringOp : CpuM Unit := do
  let c ← get
  stringElements i c.regs (stringKindOf i.mnemonic)

end Rish.SoftVm.Ops
