/-
  Rish.SoftVm.Ops.Operand — what every instruction family shares: register and memory operands at
  their natural width, and the flags of an addition or a subtraction.
-/

import Rish.SoftVm.Interrupts

namespace Rish.SoftVm.Ops

open Lib Cpu

/-! ## Registers -/

def lowBytes (size : Nat) (value : U64) : U64 :=
  match size with
  | 1 => value &&& 0xFF
  | 2 => value &&& 0xFFFF
  | 4 => value &&& 0xFFFFFFFF
  | _ => value

variable (r : Registers)

/-- A register operand, zero extended. A legacy high byte is the only one that is not the low bytes
    of its register. -/
def readRegister (register : Register) (size : Nat) : U64 :=
  let value := r.gpr (registerIndex register)
  match register with
  | .high8 _ => (value >>> 8) &&& 0xFF
  | _ => lowBytes size value

/-- A write of the low bytes: 8- and 16-bit writes keep the upper bits, a 32-bit write zeroes them. -/
def patchLow (old : U64) (size : Nat) (value : U64) : U64 :=
  match size with
  | 1 => (old &&& ~~~0xFF#64) ||| (value &&& 0xFF)
  | 2 => (old &&& ~~~0xFFFF#64) ||| (value &&& 0xFFFF)
  | 4 => value &&& 0xFFFFFFFF
  | _ => value

def writeRegister (register : Register) (size : Nat) (value : U64) : Registers :=
  let index := registerIndex register
  let old := r.gpr index
  match register with
  | .high8 _ => r.setGpr index ((old &&& ~~~0xFF00#64) ||| ((value &&& 0xFF) <<< 8))
  | _ => r.setGpr index (patchLow old size value)

def registerSize : Register → Nat
  | .low8 _ => 1
  | .high8 _ => 1
  | .word _ => 2
  | .dword _ => 4
  | _ => 8

variable (i : Instruction)

def memorySize : Nat :=
  match i.memorySize with
  | .uInt8 | .int8 => 1
  | .uInt16 | .int16 => 2
  | .uInt32 | .int32 => 4
  | .uInt64 | .int64 => 8
  | .uInt128 | .int128 => 16
  | .uInt256 | .int256 => 32
  | .uInt512 | .int512 => 64
  | _ => 8

def operandSize (k : Nat) : Nat :=
  if i.opKind k = .register then registerSize (i.opRegister k)
  else if i.opKind k = .memory then memorySize i
  else 8

variable (size : Nat)

def accumulator : Register :=
  match size with
  | 1 => .low8 index.RAX
  | 2 => .word index.RAX
  | 4 => .dword index.RAX
  | _ => .qword index.RAX

/-- A register of the file at a width above a byte. -/
def registerOf (i : GprIndex) : Register :=
  match size with
  | 2 => .word i
  | 4 => .dword i
  | _ => .qword i

def readAccumulator : U64 :=
  readRegister r (accumulator size) (match size with | 1 => 1 | 2 => 2 | 4 => 4 | _ => 8)

def writeAccumulator (value : U64) : Registers :=
  writeRegister r (accumulator size) (match size with | 1 => 1 | 2 => 2 | 4 => 4 | _ => 8) value

/-! ## Explicit operands -/

def viewRegister (register : Register) (size : Nat) : CpuM U64 := Exec.view fun c => readRegister c.regs register size

def setRegister (register : Register) (size : Nat) (value : U64) : CpuM Unit :=
  updateRegs fun r => writeRegister r register size value

def readOperand0 : CpuM U64 :=
  if i.opKind 0 = .memory then readOperand i (memorySize i)
  else viewRegister (i.opRegister 0) (operandSize i 0)

def readOperand1 : CpuM U64 :=
  if i.opKind 1 = .memory then readOperand i (memorySize i)
  else if i.opKind 1 = .register then viewRegister (i.opRegister 1) (operandSize i 1)
  else return i.immediate 1

def writeOperand0 (value : U64) : CpuM Unit :=
  if i.opKind 0 = .memory then writeOperand i (memorySize i) value
  else setRegister (i.opRegister 0) (operandSize i 0) value

/-! ## Flags -/

structure AddResult where
  result : U64
  carry : Bool
  overflow : Bool
  adjust : Bool
  deriving DecidableEq, Repr

def bitsMask (bits : Nat) : U64 := if 64 ≤ bits then BitVec.allOnes 64 else (1#64 <<< bits) - 1

def signBit (bits : Nat) : U64 := 1#64 <<< (bits - 1)

def addWithFlags (left right : U64) (carry : Bool) (bits : Nat) : AddResult :=
  let carryIn : U64 := if carry then 1 else 0
  let result := left + right + carryIn
  let mask := bitsMask bits
  let truncated := result &&& mask
  let leftT := left &&& mask
  let rightT := right &&& mask
  { result
    carry := mask.toNat < leftT.toNat + rightT.toNat + carryIn.toNat
    overflow := ~~~(leftT ^^^ rightT) &&& (leftT ^^^ truncated) &&& signBit bits != 0
    adjust := (leftT ^^^ rightT ^^^ truncated) &&& 0x10 != 0 }

def subWithFlags (left right : U64) (carry : Bool) (bits : Nat) : AddResult :=
  let borrow : U64 := if carry then 1 else 0
  let result := left - right - borrow
  let mask := bitsMask bits
  let truncated := result &&& mask
  let leftT := left &&& mask
  let rightT := right &&& mask
  { result
    carry := leftT < rightT || (carry && leftT == rightT)
    overflow := (leftT ^^^ rightT) &&& (leftT ^^^ truncated) &&& signBit bits != 0
    adjust := (leftT ^^^ rightT ^^^ truncated) &&& 0x10 != 0 }

def countOnes {w : Nat} (v : BitVec w) : Nat := (List.range w).countP fun i => v.getLsbD i

def withFlag (bit : U64) (value : Bool) : Registers := { r with rflags := setFlag r.rflags bit value }

def setSzp (result : U64) (bits : Nat) : Registers :=
  let truncated := result &&& bitsMask bits
  withFlag (withFlag (withFlag r RFlags.SF (truncated &&& signBit bits != 0)) RFlags.ZF (truncated == 0))
    RFlags.PF (countOnes (truncated.setWidth 8) % 2 == 0)

def setCarry (carry : Bool) : Registers := withFlag r RFlags.CF carry

def setOverflow (overflow : Bool) : Registers := withFlag r RFlags.OF overflow

def setAdjust (adjust : Bool) : Registers := withFlag r RFlags.AF adjust

def carry : Bool := contains r.rflags RFlags.CF

def setArithmetic (flags : AddResult) (bits : Nat) : Registers :=
  setAdjust (setOverflow (setCarry (setSzp r flags.result bits) flags.carry) flags.overflow) flags.adjust

end Rish.SoftVm.Ops
