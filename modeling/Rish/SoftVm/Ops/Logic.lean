/-
  Rish.SoftVm.Ops.Logic — bitwise logic, shifts and rotates, bit scans and bit tests.
-/

import Rish.SoftVm.Ops.Data

namespace Rish.SoftVm.Ops

open Lib Cpu

/-! ## Logic -/

/-- The flags of a logic result: CF, OF and AF are clear. -/
def setLogic (r : Registers) (result : U64) (bits : Nat) : Registers :=
  setAdjust (setOverflow (setCarry (setSzp r result bits) false) false) false

def logicResult (mnemonic : Mnemonic) (left right : U64) : U64 :=
  if mnemonic = .or then left ||| right else if mnemonic = .xor then left ^^^ right else left &&& right

variable (i : Instruction)

def andOrXor : CpuM Unit := do
  let left ← readOperand0 i
  let right ← readOperand1 i
  let result := logicResult i.mnemonic left right
  updateRegs fun r => setLogic r result (operandSize i 0 * 8)
  writeOperand0 i result

def test : CpuM Unit := do
  let left ← readOperand0 i
  let right ← readOperand1 i
  updateRegs fun r => setLogic r (left &&& right) (operandSize i 0 * 8)

/-! ## Shifts and rotates -/

/-- A result with the flags it defines. -/
structure ShiftOutcome where
  result : U64
  carry : Bool
  overflow : Bool
  affectsSignZeroParity : Bool
  deriving DecidableEq, Repr

variable (value : U64)

def bitAt (k : Nat) : Bool := (value >>> k) &&& 1 != 0

/-- OF is defined only for a single step. -/
def rotate (count bits : Nat) (mask : U64) (left : Bool) : Option ShiftOutcome :=
  if count = 0 then none
  else
    let steps := count % bits
    let result :=
      if steps = 0 then value
      else if left then ((value <<< steps) ||| (value >>> (bits - steps))) &&& mask
      else ((value >>> steps) ||| (value <<< (bits - steps))) &&& mask
    let top := bitAt result (bits - 1)
    let carry := if left then result &&& 1 != 0 else top
    some
      { result, carry
        overflow := count == 1 && (if left then top != carry else top != bitAt result (bits - 2))
        affectsSignZeroParity := false }

def rotateCarryStep (bits : Nat) (mask : U64) (left : Bool) (s : U64 × Bool) : U64 × Bool :=
  let carryBit : U64 := if s.2 then 1 else 0
  if left then (((s.1 <<< 1) &&& mask) ||| carryBit, bitAt s.1 (bits - 1))
  else ((s.1 >>> 1) ||| (carryBit <<< (bits - 1)), s.1 &&& 1 != 0)

/-- The period is one bit wider than the operand. -/
def rotateThroughCarry (count bits : Nat) (mask : U64) (carryIn left : Bool) : Option ShiftOutcome :=
  let steps := count % (bits + 1)
  if steps = 0 then none
  else
    let (result, carry) := (rotateCarryStep bits mask left)^[steps] (value, carryIn)
    let top := bitAt result (bits - 1)
    some
      { result := result &&& mask, carry
        overflow := count == 1 && (if left then top != carry else top != bitAt result (bits - 2))
        affectsSignZeroParity := false }

def shiftLeft (steps bits : Nat) (mask : U64) : U64 × Bool :=
  if bits ≤ steps then (0, steps == bits && value &&& 1 != 0)
  else ((value <<< steps) &&& mask, value &&& (1#64 <<< (bits - steps)) != 0)

def shiftArithmetic (steps bits : Nat) (mask : U64) : U64 × Bool :=
  let negative := value &&& signBit bits != 0
  let filled :=
    if bits ≤ steps then if negative then mask else 0
    else if negative then ((BitVec.allOnes 64 <<< (bits - steps)) ||| (value >>> steps)) &&& mask
    else value >>> steps
  (filled, if bits ≤ steps then negative else value &&& (1#64 <<< (steps - 1)) != 0)

def shiftRight (steps bits : Nat) : U64 × Bool :=
  if bits ≤ steps then (0, steps == bits && value &&& signBit bits != 0)
  else (value >>> steps, value &&& (1#64 <<< (steps - 1)) != 0)

def shift (count bits : Nat) (mask : U64) (mnemonic : Mnemonic) : Option ShiftOutcome :=
  if count = 0 then none
  else
    let (result, carry) :=
      if mnemonic = .shl then shiftLeft value count bits mask
      else if mnemonic = .sar then shiftArithmetic value count bits mask
      else shiftRight value count bits
    let overflow :=
      if mnemonic = .shl then bitAt result (bits - 1) != carry
      else if mnemonic = .sar then false
      else value &&& signBit bits != 0
    some { result, carry, overflow := count == 1 && overflow, affectsSignZeroParity := true }

variable (size : Nat) (r : Registers)

/-- The count is masked by the operand width before anything else. -/
def shiftCount : Nat :=
  let raw :=
    if i.opKind 1 = .immediate8 then i.immediate 1
    else if i.opKind 1 = .register then readRegister r (.low8 index.RCX) 1
    else 1
  (raw &&& (if size = 8 then 0x3F else 0x1F)).toNat

def shiftOutcome (value : U64) (r : Registers) : Option ShiftOutcome :=
  let bits := size * 8
  let mask := bitsMask bits
  let count := shiftCount i size r
  if i.mnemonic = .rol ∨ i.mnemonic = .ror then rotate (value &&& mask) count bits mask (i.mnemonic = .rol)
  else if i.mnemonic = .rcl ∨ i.mnemonic = .rcr then
    rotateThroughCarry (value &&& mask) count bits mask (carry r) (i.mnemonic = .rcl)
  else shift (value &&& mask) count bits mask i.mnemonic

/-- Rotates leave SF, ZF, PF and AF alone. -/
def setShift (outcome : ShiftOutcome) (bits : Nat) : Registers :=
  let r := setOverflow (setCarry r outcome.carry) outcome.overflow
  if outcome.affectsSignZeroParity then setSzp r outcome.result bits else r

/-- A zero count leaves the operand and every flag. -/
def finishShift (outcome : Option ShiftOutcome) : CpuM Unit :=
  match outcome with
  | none => return ()
  | some outcome => do
    updateRegs fun r => setShift r outcome (operandSize i 0 * 8)
    writeOperand0 i outcome.result

def bitNot : CpuM Unit := do
  let value ← readOperand0 i
  writeOperand0 i (~~~value)

def shiftRotate : CpuM Unit :=
  if i.mnemonic = .not then bitNot i
  else do
    let value ← readOperand0 i
    let c ← get
    finishShift i (shiftOutcome i (operandSize i 0) value c.regs)

/-! ## Bit scans -/

/-- Index of the lowest set bit of a value, or its width. -/
def trailingZeros {w : Nat} (v : BitVec w) : Nat := ((List.range w).find? fun i => v.getLsbD i).getD w

def leadingZeros {w : Nat} (v : BitVec w) : Nat := ((List.range w).find? fun i => v.getMsbD i).getD w

/-- A scan of zero leaves the destination. -/
def scan (source : U64) (index : Nat) (r : Registers) : Registers :=
  if source = 0 then withFlag r RFlags.ZF true
  else writeRegister (withFlag r RFlags.ZF false) (i.opRegister 0) (operandSize i 0) (BitVec.ofNat 64 index)

/-- A count of zeros has the operand width for zero. -/
def countZeros (source : U64) (index : U64 → Nat) (r : Registers) : Registers :=
  let size := operandSize i 0
  let masked := source &&& bitsMask (size * 8)
  let count := if masked = 0 then size * 8 else index masked
  writeRegister (withFlag (withFlag r RFlags.CF (source == 0)) RFlags.ZF (count == 0)) (i.opRegister 0) size
    (BitVec.ofNat 64 count)

def bitScan (source : U64) (r : Registers) : Registers :=
  if i.mnemonic = .bsf then scan i source (trailingZeros source) r
  else if i.mnemonic = .bsr then scan i source (63 - leadingZeros source) r
  else if i.mnemonic = .tzcnt then countZeros i source trailingZeros r
  else countZeros i source (fun masked => leadingZeros masked - (64 - operandSize i 0 * 8)) r

/-! ## Bit tests -/

def updateBit (mnemonic : Mnemonic) (value mask : U64) : U64 :=
  if mnemonic = .bts then value ||| mask else if mnemonic = .btr then value &&& ~~~mask else value ^^^ mask

/-- A register offset is a signed displacement in a bit string, an immediate one wraps in the unit. -/
def bitAddress (c : Cpu) : U64 × Nat :=
  let base := effectiveAddress i c
  let width := size * 8
  if i.opKind 1 = .register then
    let offset := (signExtend (readRegister c.regs (i.opRegister 1) size) size).toInt
    (base + BitVec.ofInt 64 (offset.ediv width * size), (offset.emod width).toNat)
  else (base, (i.immediate 1).toNat % width)

def bitUnit : Nat := if size = 1 ∨ size = 2 ∨ size = 4 then size else 8

/-- One translation serves the read and the write, for the stronger of the two kinds. -/
def bitTestMemory : CpuM Unit := do
  let size := operandSize i 0
  let c ← get
  let target := bitAddress i size c
  let physical ← translate target.1 (if i.mnemonic = .bt then .read else .write)
  let value ← memoryReadLe physical (bitUnit size)
  let mask : U64 := 1#64 <<< target.2
  updateRegs fun r => setCarry r (value &&& mask != 0)
  Exec.when (i.mnemonic ≠ .bt) (memoryWriteLe physical (bitUnit size) (updateBit i.mnemonic value mask))

def registerBit : Nat :=
  (if i.opKind 1 = .immediate8 then i.immediate 1
    else if i.opKind 1 = .register then readRegister r (i.opRegister 1) size else 0).toNat % (size * 8)

def bitTestRegister : CpuM Unit := updateRegs fun r =>
  let size := operandSize i 0
  let value := readRegister r (i.opRegister 0) size
  let mask : U64 := 1#64 <<< registerBit i size r
  let r := setCarry r (value &&& mask != 0)
  if i.mnemonic = .bt then r else writeRegister r (i.opRegister 0) size (updateBit i.mnemonic value mask)

def bitTest : CpuM Unit :=
  if i.opKind 0 = .memory then bitTestMemory i else bitTestRegister i

def bitScanTest : CpuM Unit :=
  if i.mnemonic ∈ [.bsf, .bsr, .tzcnt, .lzcnt] then do
    let source ← readOperand1 i
    updateRegs (bitScan i source)
  else bitTest i

end Rish.SoftVm.Ops
