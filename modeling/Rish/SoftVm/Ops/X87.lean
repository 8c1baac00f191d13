/-
  Rish.SoftVm.Ops.X87 — the x87 unit over a stack of eight doubles.

  The 80-bit format is converted where a value crosses to memory. Stack slots are bit patterns; the
  host's double arithmetic is the one of `Rish.Lib.SoftFloat`.
-/

import Rish.Lib.SoftFloat
import Rish.SoftVm.Ops.Branch

namespace Rish.SoftVm.Ops

open Lib Cpu
open SoftFloat (binary64 binary32)
open BitVec (ofNat ofInt)
open Exec (update)

/-! ## Doubles -/

/-- A host operation on patterns, as a function of 64-bit patterns. -/
def onDoubles (op : SoftFloat.Format → Nat → Nat → Nat) (a b : U64) : U64 :=
  ofNat 64 (op binary64 a.toNat b.toNat)

def f64Add : U64 → U64 → U64 := onDoubles SoftFloat.add
def f64Sub : U64 → U64 → U64 := onDoubles SoftFloat.sub
def f64Mul : U64 → U64 → U64 := onDoubles SoftFloat.mul
def f64Div : U64 → U64 → U64 := onDoubles SoftFloat.div

variable (a : U64)

def f64Neg : U64 := a ^^^ (1#64 <<< 63)
def f64Abs : U64 := a &&& ~~~(1#64 <<< 63)
def f64Sqrt : U64 := ofNat 64 (SoftFloat.sqrt binary64 a.toNat)
def f64IsNan : Bool := SoftFloat.isNan binary64 a.toNat
def f64IsInfinite : Bool := SoftFloat.isInfinite binary64 a.toNat
def f64IsNegative : Bool := a.getLsbD 63
def f64Compare (a b : U64) : Option Ordering := SoftFloat.compare binary64 a.toNat b.toNat
def f64OfInt (i : Int) : U64 := ofNat 64 (SoftFloat.ofInt binary64 i)
def f64Round (mode : SoftFloat.Rounding) (a : U64) : U64 := ofNat 64 (SoftFloat.toIntegral binary64 mode a.toNat)
def f64OfF32 (a : U32) : U64 := ofNat 64 (SoftFloat.convert binary32 binary64 a.toNat)
def f32OfF64 : U32 := ofNat 32 (SoftFloat.convert binary64 binary32 a.toNat)

/-- The saturating cast to a signed integer, as its two's complement bytes. -/
def f64ToInt (bytes : Nat) (a : U64) : List U8 :=
  leBytes bytes (ofInt (8 * bytes) (SoftFloat.toInt binary64 (8 * bytes) a.toNat)).toNat

def roundingMode (control : Nat) : SoftFloat.Rounding :=
  match control with
  | 0 => .nearestEven
  | 1 => .down
  | 2 => .up
  | _ => .towardZero

variable (value : U64)

def roundToControl (control : U16) : U64 := f64Round (roundingMode ((control >>> 10) &&& 3).toNat) value

/-! ## The 80-bit format -/

/-- `2 ^ n` by repeated multiplication, and the reciprocal of it for a negative `n`. -/
def powerOfTwo (n : Int) : U64 :=
  let power := if n.natAbs < 1024 then f64OfInt (2 ^ n.natAbs) else ofNat 64 (SoftFloat.infinity binary64 false)
  if n < 0 then f64Div (f64OfInt 1) power else power

def extended80ToF64 (bytes : List U8) : U64 :=
  let mantissa : U64 := ofNat 64 (leNat (bytes.take 8))
  let signExp : U16 := ofNat 16 (leNat (bytes.drop 8))
  let sign := signExp.getLsbD 15
  let exponent := (signExp &&& 0x7FFF).toNat
  let signBit : U64 := if sign then 1#64 <<< 63 else 0
  if exponent = 0 ∧ mantissa = 0 then signBit
  else if exponent = 0x7FFF then
    if mantissa <<< 1 = 0 then signBit ||| 0x7FF0000000000000 else 0x7FF8000000000000
  else
    let value := f64Mul (f64OfInt mantissa.toNat) (powerOfTwo (exponent - 16383 - 63))
    if sign then f64Neg value else value

def f64ToExtended80 : List U8 :=
  let sign : U16 := ((value >>> 63) &&& 1).setWidth 16
  let exponent := ((value >>> 52) &&& 0x7FF).toNat
  let fraction := value &&& 0x000FFFFFFFFFFFFF
  let join (mantissa : U64) (signExp : U16) := leBytes 8 mantissa.toNat ++ leBytes 2 signExp.toNat
  if exponent = 0x7FF then
    join (if fraction = 0 then 0x8000000000000000 else 0xC000000000000000) ((sign <<< 15) ||| 0x7FFF)
  else if exponent = 0 ∧ fraction = 0 then join 0 (sign <<< 15)
  else
    join (0x8000000000000000 ||| (fraction <<< 11))
      ((sign <<< 15) ||| (ofInt 16 ((exponent : Int) - 1023 + 16383) &&& 0x7FFF))

/-! ## The stack -/

def fpuSt (c : Cpu) (k : Fin 8) : U64 := c.fpuStack (c.fpuTop + k)

def fpuSetSt (k : Fin 8) (value : U64) (c : Cpu) : Cpu :=
  { c with fpuStack := Function.update c.fpuStack (c.fpuTop + k) value }

def fpuPush (c : Cpu) : Cpu := fpuSetSt 0 value { c with fpuTop := c.fpuTop - 1 }

def fpuPop (c : Cpu) : Cpu := { c with fpuTop := c.fpuTop + 1 }

def setStatus (f : U16 → U16) (c : Cpu) : Cpu := { c with fpuStatusWord := f c.fpuStatusWord }

def stIndex (register : Register) : Option (Fin 8) :=
  match register with
  | .st k => some k
  | _ => none

variable (i : Instruction)

def sourceIndex : Fin 8 :=
  ((stIndex (i.opRegister 0)).orElse fun _ => stIndex (i.opRegister 1)).getD 0

/-- The source of binary arithmetic is the second operand; one-register forms name only it. -/
def arithmeticSourceIndex : Fin 8 :=
  if 1 < i.opCount then (stIndex (i.opRegister 1)).getD 0 else sourceIndex i

/-- The target of binary arithmetic. -/
def destinationIndex : Fin 8 :=
  if i.opKind 0 = .register then (stIndex (i.opRegister 0)).getD 0 else 0

/-! ## Memory operands -/

def bytesToNat64 (bytes : List U8) : U64 := ofNat 64 (leNat bytes)

variable (size : MemorySize)

/-- Length and decoding of the memory formats a load reads. -/
def fpFormat : Option (Nat × (List U8 → U64)) :=
  match size with
  | .float32 => some (4, fun b => f64OfF32 (ofNat 32 (leNat b)))
  | .float64 => some (8, bytesToNat64)
  | .float80 => some (10, extended80ToF64)
  | .int16 => some (2, fun b => f64OfInt (ofNat 16 (leNat b)).toInt)
  | .int32 => some (4, fun b => f64OfInt (ofNat 32 (leNat b)).toInt)
  | .int64 => some (8, fun b => f64OfInt (bytesToNat64 b).toInt)
  | _ => none

def readFpMemory : CpuM U64 :=
  match fpFormat i.memorySize with
  | some (length, decode) => do
    let c ← get
    let bytes ← readLinearBytes (effectiveAddress i c) length
    return decode bytes
  | none => guestFault ("x87 memory operand size " ++ i.memorySizeName ++ " is unsupported")

def fpBytes (value : U64) : Option (List U8) :=
  match size with
  | .float32 => some (leBytes 4 (f32OfF64 value).toNat)
  | .float64 => some (leBytes 8 value.toNat)
  | .float80 => some (f64ToExtended80 value)
  | _ => none

def intBytes (rounded : U64) : Option (List U8) :=
  match size with
  | .int16 => some (f64ToInt 2 rounded)
  | .int32 => some (f64ToInt 4 rounded)
  | .int64 => some (f64ToInt 8 rounded)
  | _ => none

def storeBytes (kind : String) (bytes : Option (List U8)) : CpuM Unit :=
  match bytes with
  | some bytes => do
    let c ← get
    writeLinearBytes (effectiveAddress i c) bytes
  | none => guestFault ("x87 " ++ kind ++ " store size " ++ i.memorySizeName ++ " is unsupported")

variable (value : U64)

def storeFpMemory : CpuM Unit := storeBytes i "float" (fpBytes i.memorySize value)

def storeIntMemory (truncate : Bool) : CpuM Unit := do
  let c ← get
  let rounded := if truncate then f64Round .towardZero value else roundToControl value c.fpuControlWord
  storeBytes i "integer" (intBytes i.memorySize rounded)

def readArithOperand : CpuM U64 :=
  if i.opKind 0 = .memory then readFpMemory i else Exec.view fun c => fpuSt c (arithmeticSourceIndex i)

/-! ## Comparisons -/

/-- Three condition bits of a comparison: equal or unordered, unordered, less or unordered. -/
def compareBits (a b : U64) : Bool × Bool × Bool :=
  match f64Compare a b with
  | none => (true, true, true)
  | some .gt => (false, false, false)
  | some .lt => (false, false, true)
  | some .eq => (true, false, false)

def conditionCodes (c3 c2 c1 c0 : Bool) (status : U16) : U16 :=
  let bit (b : Bool) (k : Nat) : U16 := if b then 1#16 <<< k else 0
  (status &&& ~~~0x4700#16) ||| bit c3 14 ||| bit c2 10 ||| bit c1 9 ||| bit c0 8

def setCompareStatus (a b : U64) (c : Cpu) : Cpu :=
  let bits := compareBits a b
  setStatus (conditionCodes bits.1 bits.2.1 false bits.2.2) c

def setCompareFlags (a b : U64) (r : Registers) : Registers :=
  let bits := compareBits a b
  withFlag (withFlag (withFlag (withFlag (withFlag r RFlags.ZF bits.1) RFlags.PF bits.2.1) RFlags.CF bits.2.2)
    RFlags.OF false) RFlags.SF false

def fxam (c : Cpu) : Cpu :=
  let value := fpuSt c 0
  let codes : Bool × Bool × Bool :=
    if f64IsNan value then (false, false, true)
    else if f64IsInfinite value then (false, true, true)
    else if f64Abs value = 0 then (true, false, false)
    else (false, true, false)
  setStatus (conditionCodes codes.1 codes.2.1 (f64IsNegative value) codes.2.2) c

/-! ## Partial remainder -/

def QUIET : U64 := 1#64 <<< 51

def signalingNan : Bool := f64IsNan value && value &&& QUIET == 0

/-- A quiet NaN before a signalling one, then the larger significand, then the positive sign. -/
def nanRank : Nat :=
  let bit (b : Bool) (k : Nat) := if b then 2 ^ k else 0
  bit (f64IsNan value) 54 + bit (value &&& QUIET != 0) 53 + (value &&& 0x000FFFFFFFFFFFFF).toNat * 2 +
    bit (!value.getLsbD 63) 0

def propagateNan (a b : U64) : U64 := (if nanRank b ≤ nanRank a then a else b) ||| QUIET

/-- A 53-bit significand and the exponent of its leading bit. -/
def normalized : Nat × Int :=
  let exponent := ((value >>> 52) &&& 0x7FF).toNat
  let fraction := (value &&& 0x000FFFFFFFFFFFFF).toNat
  if exponent = 0 then
    let shift := 52 - fraction.log2
    (fraction * 2 ^ shift, -1022 - shift)
  else (fraction + 2 ^ 52, exponent - 1023)

/-- `significand * 2 ^ exponent`, which a reduction leaves exactly representable. -/
def encodeExact (significand : Nat) (exponent : Int) (sign : U64) : U64 :=
  if significand = 0 then sign
  else
    let shift := 52 - significand.log2
    let normalized := significand * 2 ^ shift
    let leading := exponent + 52 - shift
    sign ||| ofNat 64 (if -1022 ≤ leading then (leading + 1023).toNat * 2 ^ 52 + normalized % 2 ^ 52
      else normalized / 2 ^ (-1022 - leading).toNat)

/-- The remainder, the low quotient bits, and whether the reduction is partial. -/
def reduce (dividend divisor : U64) : U64 × Nat × Bool :=
  let (a, expA) := normalized dividend
  let (b, expB) := normalized divisor
  let difference := expA - expB
  if difference < 0 then (dividend, 0, false)
  else
    let isPartial := decide (64 ≤ difference)
    let shift := if isPartial then 32 else difference.toNat
    let numerator := a * 2 ^ shift
    (encodeExact (numerator % b) (expA - shift - 52) (dividend &&& (1#64 <<< 63)), numerator / b % 8, isPartial)

def remainderOf (dividend divisor : U64) (invalid : Bool) : U64 × Nat × Bool :=
  if f64IsNan dividend || f64IsNan divisor then (propagateNan dividend divisor, 0, false)
  else if invalid then (0xFFF8000000000000, 0, false)
  else if f64IsInfinite divisor || f64Abs dividend == 0 then (dividend, 0, false)
  else reduce dividend divisor

def invalidRemainder (dividend divisor : U64) : Bool :=
  signalingNan dividend || signalingNan divisor ||
    (!(f64IsNan dividend || f64IsNan divisor) && (f64IsInfinite dividend || f64Abs divisor == 0))

/-- An unmasked invalid operation is recorded for the next waiting instruction and leaves ST(0). -/
def remainderInto (c : Cpu) : Cpu :=
  let invalid := invalidRemainder (fpuSt c 0) (fpuSt c 1)
  let c := if invalid then setStatus (· ||| 1) c else c
  if invalid ∧ c.fpuControlWord &&& 1 = 0 then setStatus (· ||| 0x8080) c
  else
    let (remainder, quotient, isPartial) := remainderOf (fpuSt c 0) (fpuSt c 1) invalid
    let q : U16 := ofNat 16 quotient
    let codes : U16 :=
      if isPartial then 1#16 <<< 10 else ((q &&& 4) <<< 6) ||| ((q &&& 2) <<< 13) ||| ((q &&& 1) <<< 9)
    setStatus (fun status => (status &&& ~~~0x4700#16) ||| codes) (fpuSetSt 0 remainder c)

def fprem : CpuM Unit := do
  let c ← get
  if i.hasLockPrefix then raise VECTOR_INVALID_OPCODE 0 false
  else if c.regs.cr0 &&& (Cr0.EM ||| Cr0.TS) ≠ 0 then raise 7 0 false
  else if c.fpuStatusWord &&& ~~~c.fpuControlWord &&& 0x3F ≠ 0 then
    if contains c.regs.cr0 Cr0.NE then raise 16 0 false
    else guestFault "x87 legacy FERR exception delivery is unsupported"
  else update remainderInto

/-! ## The instructions -/

def LN_2 : U64 := 0x3FE62E42FEFA39EF
def LN_10 : U64 := 0x40026BB1BBB55516

variable (mnemonic : Mnemonic)

def fpConstant : Option U64 :=
  [(Mnemonic.fld1, 0x3FF0000000000000), (.fldz, 0), (.fldpi, 0x400921FB54442D18), (.fldl2e, 0x3FF71547652B82FE),
   (.fldl2t, f64Div LN_10 LN_2), (.fldlg2, f64Div LN_2 LN_10), (.fldln2, LN_2)].lookup mnemonic

/-- Binary arithmetic, of the target's value and the operand. -/
def fpArithmetic : Option (U64 → U64 → U64) :=
  [(Mnemonic.fadd, f64Add), (.fsub, f64Sub), (.fsubr, fun d s => f64Sub s d), (.fmul, f64Mul), (.fdiv, f64Div),
   (.fdivr, fun d s => f64Div s d)].lookup mnemonic

def fpIntArithmetic : Option (U64 → U64 → U64) :=
  [(Mnemonic.fiadd, f64Add), (.fisub, f64Sub), (.fimul, f64Mul), (.fidiv, f64Div)].lookup mnemonic

def fpPopArithmetic : Option (U64 → U64 → U64) :=
  [(Mnemonic.faddp, f64Add), (.fsubp, f64Sub), (.fsubrp, fun d s => f64Sub s d), (.fmulp, f64Mul), (.fdivp, f64Div),
   (.fdivrp, fun d s => f64Div s d)].lookup mnemonic

def fpUnary : Option (U16 → U64 → U64) :=
  [(Mnemonic.fchs, fun _ => f64Neg), (.fabs, fun _ => f64Abs), (.fsqrt, fun _ => f64Sqrt),
   (.frndint, fun control v => roundToControl v control)].lookup mnemonic

def fld : CpuM Unit :=
  if i.opKind 0 = .memory then do
    let value ← readFpMemory i
    update (fpuPush value)
  else update fun c => fpuPush (fpuSt c ((stIndex (i.opRegister 0)).getD 0)) c

def fild : CpuM Unit := do
  let value ← readFpMemory i
  update (fpuPush value)

def fst : CpuM Unit := do
  let c ← get
  if i.opKind 0 = .memory then storeFpMemory i (fpuSt c 0)
  else update (fpuSetSt ((stIndex (i.opRegister 0)).getD 0) (fpuSt c 0))

/-- The pop comes after the store. -/
def fstp : CpuM Unit := do
  fst i
  update fpuPop

def fist : CpuM Unit := do
  let c ← get
  storeIntMemory i (fpuSt c 0) false

def fistp (truncate : Bool) : CpuM Unit := do
  let c ← get
  storeIntMemory i (fpuSt c 0) truncate
  update fpuPop

variable (op : U64 → U64 → U64)

/-- `ST(k) := op ST(k) operand`. -/
def fpApply (k : Fin 8) (operand : U64) (c : Cpu) : Cpu :=
  fpuSetSt k (op (fpuSt c k) operand) c

def fpBinary : CpuM Unit := do
  let operand ← readArithOperand i
  update (fpApply op (destinationIndex i) operand)

def fpIntBinary : CpuM Unit := do
  let operand ← readFpMemory i
  update (fpApply op 0 operand)

def fpBinaryPop : CpuM Unit :=
  update fun c => fpuPop (fpApply op (sourceIndex i) (fpuSt c 0) c)

def fxch (c : Cpu) : Cpu :=
  let k := arithmeticSourceIndex i
  setStatus (· &&& ~~~(1#16 <<< 9)) (fpuSetSt k (fpuSt c 0) (fpuSetSt 0 (fpuSt c k) c))

/-- A comparison with an operand, and the pops after it. -/
def fcom (operand : CpuM U64) (after : Cpu → Cpu) : CpuM Unit := do
  let rhs ← operand
  update fun c => after (setCompareStatus (fpuSt c 0) rhs c)

def fcomi (after : Cpu → Cpu) : CpuM Unit := update fun c =>
  after { c with regs := setCompareFlags (fpuSt c 0) (fpuSt c (arithmeticSourceIndex i)) c.regs }

def fldcw : CpuM Unit := do
  let value ← readOperand i 2
  update fun c => { c with fpuControlWord := value.setWidth 16 }

def fnstcw : CpuM Unit := do
  let c ← get
  writeOperand i 2 (c.fpuControlWord.setWidth 64)

def statusWithTop (c : Cpu) : U16 := (c.fpuStatusWord &&& ~~~0x3800#16) ||| (ofNat 16 c.fpuTop.val <<< 11)

def fnstsw : CpuM Unit := do
  let c ← get
  if i.opKind 0 = .register then setRegister (.word index.RAX) 2 ((statusWithTop c).setWidth 64)
  else writeOperand i 2 ((statusWithTop c).setWidth 64)

def finit (c : Cpu) : Cpu :=
  { c with fpuControlWord := 0x037F, fpuStatusWord := 0, fpuTop := 0, fpuStack := fun _ => 0 }

def x87Table : CpuM Unit :=
  match fpConstant i.mnemonic, fpArithmetic i.mnemonic, fpIntArithmetic i.mnemonic, fpPopArithmetic i.mnemonic,
    fpUnary i.mnemonic with
  | some value, _, _, _, _ => update (fpuPush value)
  | none, some op, _, _, _ => fpBinary i op
  | none, none, some op, _, _ => fpIntBinary i op
  | none, none, none, some op, _ => fpBinaryPop i op
  | none, none, none, none, some op => update fun c => fpuSetSt 0 (op c.fpuControlWord (fpuSt c 0)) c
  | none, none, none, none, none => unimplemented i.mnemonicName

/-- Environment loads and stores are accepted and do nothing. -/
def x87Op : CpuM Unit :=
  if i.mnemonic = .fld then fld i
  else if i.mnemonic = .fild then fild i
  else if i.mnemonic = .fst then fst i
  else if i.mnemonic = .fstp then fstp i
  else if i.mnemonic = .fist then fist i
  else if i.mnemonic = .fistp then fistp i false
  else if i.mnemonic = .fisttp then fistp i true
  else if i.mnemonic = .fprem then fprem i
  else if i.mnemonic = .fxch then update (fxch i)
  else if i.mnemonic ∈ [.fcom, .fucom] then fcom (readArithOperand i) id
  else if i.mnemonic ∈ [.fcomp, .fucomp] then fcom (readArithOperand i) fpuPop
  else if i.mnemonic ∈ [.fcompp, .fucompp] then fcom (Exec.view fun c => fpuSt c 1) (fpuPop ∘ fpuPop)
  else if i.mnemonic = .ficom then fcom (readFpMemory i) id
  else if i.mnemonic = .ficomp then fcom (readFpMemory i) fpuPop
  else if i.mnemonic ∈ [.fcomi, .fucomi] then fcomi i id
  else if i.mnemonic ∈ [.fcomip, .fucomip] then fcomi i fpuPop
  else if i.mnemonic = .fxam then update fxam
  else if i.mnemonic = .ftst then fcom (pure 0) id
  else if i.mnemonic = .fldcw then fldcw i
  else if i.mnemonic ∈ [.fnstcw, .fstcw] then fnstcw i
  else if i.mnemonic ∈ [.fnstsw, .fstsw] then fnstsw i
  else if i.mnemonic = .ffree then return ()
  else if i.mnemonic ∈ [.ffreep, .fincstp] then update fpuPop
  else if i.mnemonic = .fdecstp then update fun c => { c with fpuTop := c.fpuTop - 1 }
  else if i.mnemonic ∈ [.finit, .fninit] then update finit
  else if i.mnemonic ∈ [.fclex, .fnclex] then update (setStatus (· &&& ~~~0x80FF#16))
  else if i.mnemonic ∈ [.fldenv, .frstor, .fnstenv, .fstenv, .fnsave, .fsave, .wait] then return ()
  else x87Table i

end Rish.SoftVm.Ops
