/-
  Rish.SoftVm.Ops.Arithmetic — add, sub, cmp, adc, sbb, inc, dec, neg, mul, imul, div, idiv and the
  accumulator conversions.
-/

import Rish.SoftVm.Ops.Data

namespace Rish.SoftVm.Ops

open Lib Cpu

/-! ## Addition and subtraction -/

variable (i : Instruction)

def binary (sub withCarry : Bool) : CpuM Unit := do
  let bits := operandSize i 0 * 8
  let left ← readOperand0 i
  let right ← readOperand1 i
  let c ← get
  let carryIn := withCarry && carry c.regs
  let flags := if sub then subWithFlags left right carryIn bits else addWithFlags left right carryIn bits
  updateRegs fun r => setArithmetic r flags bits
  writeOperand0 i flags.result

def add : CpuM Unit := binary i false false

def sub : CpuM Unit := binary i true false

/-- Flags only. -/
def cmp : CpuM Unit := do
  let bits := operandSize i 0 * 8
  let left ← readOperand0 i
  let right ← readOperand1 i
  updateRegs fun r => setArithmetic r (subWithFlags left right false bits) bits

def adcSbb : CpuM Unit := binary i (i.mnemonic = .sbb) true

/-- CF stays. -/
def incDec : CpuM Unit := do
  let bits := operandSize i 0 * 8
  let left ← readOperand0 i
  let flags := if i.mnemonic = .inc then addWithFlags left 1 false bits else subWithFlags left 1 false bits
  updateRegs fun r => setAdjust (setOverflow (setSzp r flags.result bits) flags.overflow) flags.adjust
  writeOperand0 i flags.result

/-- AF stays. -/
def neg : CpuM Unit := do
  let bits := operandSize i 0 * 8
  let value ← readOperand0 i
  let result := 0 - value
  updateRegs fun r =>
    setOverflow (setCarry (setSzp r result bits) (value != 0)) (result &&& bitsMask bits == signBit bits)
  writeOperand0 i result

/-! ## Multiplication -/

variable (size : Nat)

/-- The two halves of a double-width value put into the accumulator pair; a byte form uses AX. -/
def writeHalves (low high : U64) (r : Registers) : Registers :=
  match size with
  | 2 => writeRegister (writeRegister r (.word index.RAX) 2 low) (.word index.RDX) 2 high
  | 4 => writeRegister (writeRegister r (.dword index.RAX) 4 low) (.dword index.RDX) 4 high
  | _ => writeRegister (writeRegister r (.qword index.RAX) 8 low) (.qword index.RDX) 8 high

def writeProduct (product : U128) (r : Registers) : Registers :=
  if size = 1 then writeRegister r (.word index.RAX) 2 (product.setWidth 64)
  else writeHalves size (product.setWidth 64) ((product >>> (size * 8)).setWidth 64) r

def fullProduct (accumulator multiplicand : U64) (size : Nat) (signed : Bool) : U128 :=
  let product : U128 :=
    if signed then (signExtend accumulator size).signExtend 128 * (signExtend multiplicand size).signExtend 128
    else accumulator.setWidth 128 * multiplicand.setWidth 128
  product &&& (BitVec.allOnes 128 >>> (128 - size * 8 * 2))

/-- MUL reports a non-zero upper half, IMUL one that is not the sign extension of the lower half. -/
def productOverflow (product : U128) (size : Nat) (signed : Bool) : Bool :=
  let bits := size * 8
  let high : U64 := (product >>> bits).setWidth 64
  let low : U64 := product.setWidth 64
  if signed then high &&& bitsMask bits != low.sshiftRight (bits - 1) &&& bitsMask bits else high != 0

variable (signed : Bool)

def mul : CpuM Unit := do
  let size := operandSize i 0
  let multiplicand ← readOperand0 i
  updateRegs fun r =>
    let product := fullProduct (readAccumulator r size) multiplicand size signed
    let overflow := productOverflow product size signed
    writeProduct size product (setOverflow (setCarry r overflow) overflow)

/-- The factors of the two- and three-operand forms; the shorthand with an immediate repeats the
    destination as its second operand. -/
def imulFactors : CpuM (U64 × U64) :=
  if i.opCount = 2 then do
    let left ← readOperand0 i
    let right ← readOperand1 i
    return (left, right)
  else if 3 ≤ i.opCount ∧ i.opKind 1 = .register ∧ i.opRegister 1 = i.opRegister 0 then do
    let left ← readOperand0 i
    return (left, i.immediate 2)
  else do
    let left ← readOperand1 i
    return (left, i.immediate 2)

def imulTwoThree : CpuM Unit := do
  let size := operandSize i 0
  let factors ← imulFactors i
  let product := (signExtend factors.1 size).toInt * (signExtend factors.2 size).toInt
  let truncated := BitVec.ofInt 64 product &&& bitsMask (size * 8)
  let lost := (signExtend truncated size).toInt != product
  updateRegs fun r => setOverflow (setCarry r lost) lost
  writeOperand0 i truncated

/-! ## Division -/

/-- The dividend register pair: AX, or the low and high halves. -/
def dividendOf (r : Registers) (size : Nat) : U128 :=
  match size with
  | 1 => (readRegister r (.word index.RAX) 2).setWidth 128
  | 2 => (((readRegister r (.word index.RDX) 2) <<< 16) ||| readRegister r (.word index.RAX) 2).setWidth 128
  | 4 => (((readRegister r (.dword index.RDX) 4) <<< 32) ||| readRegister r (.dword index.RAX) 4).setWidth 128
  | _ => ((readRegister r (.qword index.RDX) 8).setWidth 128 <<< 64) |||
      (readRegister r (.qword index.RAX) 8).setWidth 128

def signExtend128 (value : U128) (bits : Nat) : U128 := (value <<< (128 - bits)).sshiftRight (128 - bits)

/-- Division of 128-bit signed integers aborts on zero and where the quotient has no 128-bit value. -/
def i128Div (dividend divisor : Int) : Outcome CpuError (Int × Int) :=
  if divisor = 0 ∨ (dividend = -2 ^ 127 ∧ divisor = -1) then .panic
  else .ok (dividend.tdiv divisor, dividend.tmod divisor)

variable (dividend : U128)

/-- Quotient and remainder, or none for the divide exception. -/
def signedQuotient (divisor : U64) (size : Nat) : Outcome CpuError (Option (U64 × U64)) := do
  let result ← i128Div (signExtend128 dividend (size * 16)).toInt (signExtend divisor size).toInt
  let max : Int := 2 ^ (size * 8 - 1) - 1
  let min : Int := -2 ^ (size * 8 - 1)
  if result.1 > max ∨ result.1 < min then return none
  else return some (BitVec.ofInt 64 result.1, BitVec.ofInt 64 result.2)

def unsignedQuotient (divisor : U64) (size : Nat) : Option (U64 × U64) :=
  let quotient := dividend / divisor.setWidth 128
  if quotient > (bitsMask (size * 8)).setWidth 128 then none
  else some (quotient.setWidth 64, (dividend % divisor.setWidth 128).setWidth 64)

def divide (divisor : U64) (size : Nat) : Outcome CpuError (Option (U64 × U64)) :=
  if divisor = 0 then .ok none
  else if signed then signedQuotient dividend divisor size
  else .ok (unsignedQuotient dividend divisor size)

def writeQuotient (quotient remainder : U64) (r : Registers) : Registers :=
  if size = 1 then writeRegister (writeRegister r (.low8 index.RAX) 1 quotient) (.high8 0) 1 remainder
  else writeHalves size quotient remainder r

def finishDivide (result : Option (U64 × U64)) : CpuM Unit :=
  match result with
  | none => raise VECTOR_DIVIDE 0 false
  | some (quotient, remainder) => updateRegs (writeQuotient size quotient remainder)

def div : CpuM Unit := do
  let size := operandSize i 0
  let divisor ← readOperand0 i
  let c ← get
  let result ← Exec.lift (divide signed (dividendOf c.regs size) divisor size)
  finishDivide size result

def mulDiv : CpuM Unit :=
  if i.mnemonic = .mul then mul i false
  else if i.mnemonic = .imul then if i.opCount = 1 then mul i true else imulTwoThree i
  else if i.mnemonic = .div then div i false
  else if i.mnemonic = .idiv then div i true
  else return ()

/-! ## Conversions of the accumulator -/

def widenAccumulator (r : Registers) : Registers :=
  writeRegister r (registerOf (size * 2) index.RAX) (size * 2) (signExtend (readAccumulator r size) size)

def spreadSign (r : Registers) : Registers :=
  writeRegister r (registerOf size index.RDX) size
    (lowBytes size ((signExtend (readAccumulator r size) size).sshiftRight 63))

def convert : CpuM Unit :=
  if i.mnemonic = .cbw then updateRegs (widenAccumulator 1)
  else if i.mnemonic = .cwde then updateRegs (widenAccumulator 2)
  else if i.mnemonic = .cdqe then updateRegs (widenAccumulator 4)
  else if i.mnemonic = .cwd then updateRegs (spreadSign 2)
  else if i.mnemonic = .cdq then updateRegs (spreadSign 4)
  else if i.mnemonic = .cqo then updateRegs (spreadSign 8)
  else return ()

end Rish.SoftVm.Ops
