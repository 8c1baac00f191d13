/-
  Rish.SoftVm.Ops.SseConvert — conversions between integers and floats with their MXCSR status, and
  the table of the SSE instructions.
-/

import Rish.SoftVm.Ops.Sse

namespace Rish.SoftVm.Ops

open Lib Cpu
open BitVec (ofNat)

def INVALID : U32 := 1
def DENORMAL : U32 := 1#32 <<< 1
def PRECISION : U32 := 1#32 <<< 5

def denormalsAreZero (mxcsr : U32) : Bool := mxcsr &&& (1#32 <<< 6) != 0

def mxcsrRounding (mxcsr : U32) : Nat := ((mxcsr >>> 13) &&& 3).toNat

/-- An exception that the masks let through. -/
def unmasked (exception mxcsr : U32) : Bool := exception &&& ~~~(mxcsr >>> 7) != 0

/-- Raises #XM, or #UD where the system has not enabled it; says that nothing is to be written. -/
def raiseSimd : CpuM Bool := do
  let c ← get
  raise (if contains c.regs.cr4 Cr4.OSXMMEXCPT then 19 else 6) 0 false
  return false

/-- The status is sticky; an unmasked exception leaves the destination alone. -/
def recordException (exception : U32) : CpuM Bool := do
  Exec.update fun c => { c with mxcsr := c.mxcsr ||| exception }
  let c ← get
  if unmasked exception c.mxcsr then raiseSimd else return true

/-- A single widened to a double, with the exception it raises. -/
def widenSingle (raw : U32) (daz : Bool) : U64 × U32 :=
  let sign : U64 := (raw >>> 31).setWidth 64 <<< 63
  let exponent := ((raw >>> 23) &&& 0xFF).toNat
  let fraction := (raw &&& 0x7FFFFF).toNat
  if exponent = 0 then
    if fraction = 0 ∨ daz then (sign, 0)
    else
      let highest := Nat.log2 fraction
      (sign ||| ofNat 64 ((highest + 874) * 2 ^ 52) ||| (ofNat 64 (fraction * 2 ^ (52 - highest)) &&& 0xFFFFFFFFFFFFF),
        DENORMAL)
  else if exponent = 0xFF then
    let bits := sign ||| 0x7FF0000000000000 ||| ofNat 64 (fraction * 2 ^ 29)
    if fraction = 0 then (bits, 0)
    else (bits ||| (1#64 <<< 51), if raw &&& (1#32 <<< 22) = 0 then INVALID else 0)
  else (sign ||| ofNat 64 ((exponent + 896) * 2 ^ 52) ||| ofNat 64 (fraction * 2 ^ 29), 0)

def roundsUp (rounding : Nat) (negative : Bool) (significand remainder shift : Nat) : Bool :=
  match rounding with
  | 0 => 2 ^ (shift - 1) < remainder ∨ (remainder = 2 ^ (shift - 1) ∧ significand % 2 = 1)
  | 1 => negative
  | 2 => !negative
  | _ => false

/-- The pattern of a nonzero integer, rounded once, and whether it is inexact. -/
def integerToFloat (value : Int) (double : Bool) (rounding : Nat) : U64 × Bool :=
  if value = 0 then (0, false)
  else
    let negative : Bool := value < 0
    let magnitude := value.natAbs
    let fractionBits := if double then 52 else 23
    let bias := if double then 1023 else 127
    let exponent := Nat.log2 magnitude
    let shift := exponent - fractionBits
    let significand := if fractionBits < exponent then magnitude / 2 ^ shift
      else magnitude * 2 ^ (fractionBits - exponent)
    let remainder := if fractionBits < exponent then magnitude % 2 ^ shift else 0
    let rounded :=
      if remainder ≠ 0 ∧ roundsUp rounding negative significand remainder shift then significand + 1 else significand
    let carried := rounded = 2 ^ (fractionBits + 1)
    let exponent := if carried then exponent + 1 else exponent
    let significand := if carried then rounded / 2 else rounded
    ((if negative then 1#64 <<< (if double then 63 else 31) else 0) |||
      ofNat 64 ((exponent + bias) * 2 ^ fractionBits) ||| ofNat 64 (significand % 2 ^ fractionBits),
      remainder ≠ 0)

def signed32 (v : U64) : Int := (v.setWidth 32).toInt

variable (i : Instruction)

/-- The low two integers, exactly. -/
def cvtdq2pd : CpuM Unit := do
  let raw ← scalarSource i true
  setXmm (i.opRegister 0)
    ((integerToFloat (signed32 raw) true 0).1.setWidth 128 |||
      ((integerToFloat (signed32 (raw >>> 32)) true 0).1.setWidth 128 <<< 64))

def finishCvtps2pd (low high : U64 × U32) : CpuM Unit := do
  let written ← recordException (low.2 ||| high.2)
  Exec.when written (setXmm (i.opRegister 0) (low.1.setWidth 128 ||| (high.1.setWidth 128 <<< 64)))

def cvtps2pd : CpuM Unit := do
  let raw ← scalarSource i true
  let c ← get
  let daz := denormalsAreZero c.mxcsr
  finishCvtps2pd i (widenSingle (raw.setWidth 32) daz) (widenSingle ((raw >>> 32).setWidth 32) daz)

def integerSource : CpuM U64 :=
  if i.opKind 1 = .memory then readOperand i (operandSize i 1) else viewRegister (i.opRegister 1) (operandSize i 1)

def finishCvtsi2s (double : Bool) (converted : U64 × Bool) : CpuM Unit := do
  let written ← recordException (if converted.2 then PRECISION else 0)
  Exec.when written (updateRegs fun r =>
    writeXmm (i.opRegister 0)
      ((readXmm r (i.opRegister 0) &&& ~~~laneMask (floatBits double)) ||| converted.1.setWidth 128) r)

def cvtsi2s : CpuM Unit := do
  let raw ← integerSource i
  let c ← get
  let integer := if operandSize i 1 = 8 then raw.toInt else signed32 raw
  let double := i.mnemonic = .cvtsi2sd
  finishCvtsi2s i double (integerToFloat integer double (mxcsrRounding c.mxcsr))

def f64IsFinite (a : U64) : Bool := !f64IsNan a && !f64IsInfinite a

/-- Zero with the sign of a value. -/
def zeroLike (a : U64) : U64 := a &&& (1#64 <<< 63)

/-- The source of a conversion as a double, a denormal taken as zero where MXCSR says so. -/
def conversionSource (double : Bool) (raw : U64) (mxcsr : U32) : U64 :=
  let denormal := if double then SoftFloat.isSubnormal SoftFloat.binary64 raw.toNat
    else SoftFloat.isSubnormal SoftFloat.binary32 (raw.setWidth 32).toNat
  if denormal ∧ denormalsAreZero mxcsr then zeroLike (scalarFloat double raw) else scalarFloat double raw

/-- The integer of a double at a width, or the integer indefinite with the invalid exception. -/
def toInteger (value : U64) (rounding size : Nat) : U64 × U32 :=
  let bits := if size = 8 then 64 else 32
  let rounded := f64Round (roundingMode rounding) value
  let limit := f64OfInt (2 ^ (bits - 1))
  if !f64IsFinite rounded ∨ f64Compare rounded (f64Neg limit) = some .lt ∨
      f64Compare rounded limit = some .gt ∨ f64Compare rounded limit = some .eq then
    (1#64 <<< (bits - 1), INVALID)
  else
    (BitVec.ofInt 64 (SoftFloat.toInt SoftFloat.binary64 64 rounded.toNat),
      if f64Compare rounded value = some .eq then 0 else PRECISION)

def finishToInteger (converted : U64 × U32) : CpuM Unit := do
  let written ← recordException converted.2
  Exec.when written (setRegister (i.opRegister 0) (operandSize i 0) converted.1)

/-- Truncation ignores the rounding mode of MXCSR. -/
def floatToInteger (truncate : Bool) : CpuM Unit := do
  let double := i.mnemonic = .cvtsd2si ∨ i.mnemonic = .cvttsd2si
  let raw ← scalarSource i double
  let c ← get
  finishToInteger i
    (toInteger (conversionSource double raw c.mxcsr) (if truncate then 3 else mxcsrRounding c.mxcsr) (operandSize i 0))

/-! ## The SSE instructions -/

/-- The forms that are one row of a table. -/
def sseTable : CpuM Unit :=
  match vectorTable.lookup i.mnemonic, (registerTable i).lookup i.mnemonic, shiftTable.lookup i.mnemonic,
    scalarTable.lookup i.mnemonic with
  | some f, _, _, _ => applyVector i f
  | none, some f, _, _ => applyRegisters i f
  | none, none, some f, _ => applyShift i f
  | none, none, none, some op => applyScalar i op.1 op.2
  | none, none, none, none => unimplemented i.mnemonicName

def sseOp : CpuM Unit :=
  if i.mnemonic ∈ [.movaps, .movups, .movapd, .movupd, .movdqa, .movdqu, .movntdq, .movntps, .movntq] then mov128 i
  else if i.mnemonic = .movq then mov64 i
  else if i.mnemonic = .movd then mov32 i
  else if i.mnemonic ∈ [.movss, .movsd] then movScalar i
  else if i.mnemonic ∈ [.movlps, .movlpd] then movLow i
  else if i.mnemonic ∈ [.movhps, .movhpd] then movHigh i
  else if i.mnemonic = .movnti then movnti i
  else if i.mnemonic = .pinsrw then pinsrw i
  else if i.mnemonic = .pextrw then extract i 2
  else if i.mnemonic = .pmovmskb then movmsk i 8
  else if i.mnemonic = .movmskps then movmsk i 32
  else if i.mnemonic = .movmskpd then movmsk i 64
  else if i.mnemonic ∈ [.ucomisd, .comisd] then comis i true
  else if i.mnemonic ∈ [.ucomiss, .comiss] then comis i false
  else if i.mnemonic = .sqrtsd then sqrtScalar i true
  else if i.mnemonic = .sqrtss then sqrtScalar i false
  else if i.mnemonic = .cmpsd then cmpScalar i true
  else if i.mnemonic = .cmpss then cmpScalar i false
  else if i.mnemonic ∈ [.cvtsi2sd, .cvtsi2ss] then cvtsi2s i
  else if i.mnemonic ∈ [.cvttsd2si, .cvttss2si] then floatToInteger i true
  else if i.mnemonic ∈ [.cvtsd2si, .cvtss2si] then floatToInteger i false
  else if i.mnemonic = .cvtss2sd then cvtPrecision i true
  else if i.mnemonic = .cvtsd2ss then cvtPrecision i false
  else if i.mnemonic = .cvtps2pd then cvtps2pd i
  else if i.mnemonic = .cvtdq2pd then cvtdq2pd i
  else if i.mnemonic ∈ [.emms, .femms] then return ()
  else sseTable i

end Rish.SoftVm.Ops
