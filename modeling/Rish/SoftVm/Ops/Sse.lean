/-
  Rish.SoftVm.Ops.Sse — the SSE and SSE2 subset: moves, logic, shuffles, packed integer and
  floating-point arithmetic, comparisons and conversions on 128-bit registers.

  Most instructions are one shape: read the second operand, apply a function of two vectors, write
  the first. `vectorTable` is the table of those functions.
-/

import Rish.SoftVm.Ops.X87

namespace Rish.SoftVm.Ops

open Lib Cpu
open BitVec (ofNat ofInt)

/-! ## Registers, operands and lanes -/

variable (register : Register)

def xmmIndex : Option (Fin 16) :=
  match register with
  | .xmm k => some k
  | _ => none

/-- A register of another file reads as zero. -/
def readXmm (r : Registers) (register : Register) : U128 :=
  match register with
  | .xmm k => r.xmm k
  | _ => 0

def writeXmm (value : U128) (r : Registers) : Registers :=
  match register with
  | .xmm k => { r with xmm := Function.update r.xmm k value }
  | _ => r

def setXmm (value : U128) : CpuM Unit := updateRegs (writeXmm register value)

def isXmm : Bool := (xmmIndex register).isSome

variable (i : Instruction) (bytes : Nat)

def readMemory : CpuM U128 := do
  let c ← get
  let read ← readLinearBytes (effectiveAddress i c) bytes
  return ofNat 128 (leNat read)

def writeMemory (value : U128) : CpuM Unit := do
  let c ← get
  writeLinearBytes (effectiveAddress i c) (leBytes bytes value.toNat)

/-- The second operand: `bytes` bytes of memory, or a whole register. -/
def vectorSource : CpuM U128 :=
  if i.opKind 1 = .memory then readMemory i bytes else Exec.view fun c => readXmm c.regs (i.opRegister 1)

def bad {α : Type} (label : String) (i : Instruction) : CpuM α :=
  unimplemented (label ++ " (" ++ (i.opKind 0).name ++ ", " ++ (i.opKind 1).name ++ ")")

variable (bits : Nat)

def laneMask : U128 := (1#128 <<< bits) - 1

def laneAt (v : U128) (k : Nat) : U128 := (v >>> (k * bits)) &&& laneMask bits

def joinLanes (bits n : Nat) (lane : Nat → U128) : U128 :=
  (List.range n).foldl (fun acc k => acc ||| ((lane k &&& laneMask bits) <<< (k * bits))) 0

/-- A function of each lane of two vectors. -/
def zipLanes (f : U128 → U128 → U128) (left right : U128) : U128 :=
  joinLanes bits (128 / bits) fun k => f (laneAt bits left k) (laneAt bits right k)

def lowHalf (v : U128) : U128 := v &&& laneMask 64

def replaceLow (destination value : U128) : U128 :=
  (destination &&& ~~~laneMask bits) ||| (value &&& laneMask bits)

/-! ## Moves -/

/-- A load, a store or a register form; `registers` is none where there is no register form. -/
def vectorMove (label : String) (bytes : Nat) (registers : Option (Registers → Registers))
    (load : U128 → U128 → U128) (store : U128 → U128) (i : Instruction) : CpuM Unit :=
  match i.opKind 0, i.opKind 1, registers with
  | .register, .register, some move => updateRegs move
  | .register, .memory, _ => do
    let value ← readMemory i bytes
    updateRegs fun r => writeXmm (i.opRegister 0) (load (readXmm r (i.opRegister 0)) value) r
  | .memory, .register, _ => do
    let c ← get
    writeMemory i bytes (store (readXmm c.regs (i.opRegister 1)))
  | _, _, _ => bad label i

def mov128 (i : Instruction) : CpuM Unit :=
  vectorMove "mov128" 16 (some fun r => writeXmm (i.opRegister 0) (readXmm r (i.opRegister 1)) r) (fun _ v => v) id i

def mov64Registers (r : Registers) : Registers :=
  let source := i.opRegister 1
  let destination := i.opRegister 0
  if isXmm destination ∧ !isXmm source then writeXmm destination ((readRegister r source 8).setWidth 128) r
  else if !isXmm destination ∧ isXmm source then
    writeRegister r destination 8 ((readXmm r source).setWidth 64)
  else writeXmm destination (lowHalf (readXmm r source)) r

def mov64 : CpuM Unit := vectorMove "movq" 8 (some (mov64Registers i)) (fun _ v => v) id i

def mov32Registers (r : Registers) : Registers :=
  if isXmm (i.opRegister 0) then writeXmm (i.opRegister 0) ((readRegister r (i.opRegister 1) 4).setWidth 128) r
  else writeRegister r (i.opRegister 0) 4 ((laneAt 32 (readXmm r (i.opRegister 1)) 0).setWidth 64)

def mov32 : CpuM Unit := vectorMove "movd" 4 (some (mov32Registers i)) (fun _ v => v) id i

/-- A load clears the upper part, a register move keeps it. -/
def movScalar : CpuM Unit :=
  let size := if i.mnemonic = .movsd then 8 else 4
  vectorMove "movss/movsd" size
    (some fun r => writeXmm (i.opRegister 0)
      (replaceLow (size * 8) (readXmm r (i.opRegister 0)) (readXmm r (i.opRegister 1))) r)
    (fun _ v => v) id i

def movLow : CpuM Unit := vectorMove "movlps/movlpd" 8 none (replaceLow 64) id i

def movHigh : CpuM Unit :=
  vectorMove "movhps/movhpd" 8 none (fun d v => lowHalf d ||| (v <<< 64)) (· >>> 64) i

def movnti : CpuM Unit := do
  let c ← get
  writeOperand i (operandSize i 1) (readRegister c.regs (i.opRegister 1) (operandSize i 1))

/-! ## Functions of two vectors -/

inductive PackedOp where
  | addWrap | subWrap | mulWrap | cmpGt | minU | maxU | minS | maxS | addSatU | subSatU | addSatS | subSatS
  deriving DecidableEq, Repr

def clampInt (low high v : Int) : Int := max low (min high v)

def PackedOp.apply (op : PackedOp) (bits : Nat) (a b : U128) : U128 :=
  let sext (v : U128) : Int := (v.setWidth bits).toInt
  let saturate (v : Int) : U128 := ofInt 128 (clampInt (-2 ^ (bits - 1)) (2 ^ (bits - 1) - 1) v)
  match op with
  | .addWrap => a + b
  | .subWrap => a - b
  | .mulWrap => a * b
  | .cmpGt => if sext b < sext a then laneMask bits else 0
  | .minU => if a ≤ b then a else b
  | .maxU => if b ≤ a then a else b
  | .minS => ofInt 128 (min (sext a) (sext b))
  | .maxS => ofInt 128 (max (sext a) (sext b))
  | .addSatU => if laneMask bits < a + b then laneMask bits else a + b
  | .subSatU => if a < b then 0 else a - b
  | .addSatS => saturate (sext a + sext b)
  | .subSatS => saturate (sext a - sext b)

def packedArith (op : PackedOp) (_ : U8) (left right : U128) : U128 := zipLanes bits (op.apply bits) left right

def pcmpeq (_ : U8) (left right : U128) : U128 :=
  zipLanes bits (fun a b => if a = b then laneMask bits else 0) left right

/-- Interleaves the low or the high halves. -/
def punpck (high : Bool) (_ : U8) (left right : U128) : U128 :=
  let start := if high then 128 / bits / 2 else 0
  joinLanes bits (128 / bits) fun k => laneAt bits (if k % 2 = 0 then left else right) (start + k / 2)

variable (control : U8)

/-- The two-bit selector of a result lane. -/
def selector (k : Nat) : Nat := ((control >>> (k * 2)) &&& 0b11).toNat

def pshufd (_ right : U128) : U128 := joinLanes 32 4 fun k => laneAt 32 right (selector control k)

def pshufw (high : Bool) (control : U8) (_ right : U128) : U128 :=
  joinLanes 16 8 fun k =>
    if high then if k < 4 then laneAt 16 right k else laneAt 16 right (4 + selector control (k - 4))
    else if k < 4 then laneAt 16 right (selector control k) else laneAt 16 right k

/-- The low half selects from the destination, the high half from the source. -/
def shufps (left right : U128) : U128 :=
  joinLanes 32 4 fun k => laneAt 32 (if k < 2 then left else right) (selector control k)

def shufpd (left right : U128) : U128 :=
  joinLanes 64 2 fun k =>
    if k = 0 then laneAt 64 left (control &&& 1).toNat else laneAt 64 right ((control >>> 1) &&& 1).toNat

def pmuludq (_ : U8) (left right : U128) : U128 :=
  joinLanes 64 2 fun k => laneAt 32 left (2 * k) * laneAt 32 right (2 * k)

inductive FloatOp where
  | add | sub | mul | div | min | max
  deriving DecidableEq, Repr

/-- MIN and MAX give the second operand when the operands are unordered or equal. -/
def FloatOp.apply (op : FloatOp) (a b : U64) : U64 :=
  match op with
  | .add => f64Add a b
  | .sub => f64Sub a b
  | .mul => f64Mul a b
  | .div => f64Div a b
  | .min => if f64Compare a b = some .lt then a else b
  | .max => if f64Compare a b = some .gt then a else b

variable (double : Bool)

/-- A lane as a double; singles are widened. -/
def laneFloat (v : U128) : U64 := if double then v.setWidth 64 else f64OfF32 (v.setWidth 32)

def floatLane (v : U64) : U128 := if double then v.setWidth 128 else (f32OfF64 v).setWidth 128

def floatBits : Nat := if double then 64 else 32

def packedFloat (op : FloatOp) (_ : U8) (left right : U128) : U128 :=
  zipLanes (floatBits double) (fun a b => floatLane double (op.apply (laneFloat double a) (laneFloat double b)))
    left right

/-- The compare predicates; the negated ones hold for unordered operands. -/
def floatCompare (a b : U64) (predicate : U8) : Bool :=
  let order := f64Compare a b
  match (predicate &&& 7).toNat with
  | 0 => order = some .eq
  | 1 => order = some .lt
  | 2 => order = some .lt ∨ order = some .eq
  | 3 => order = none
  | 4 => ¬order = some .eq
  | 5 => ¬order = some .lt
  | 6 => ¬(order = some .lt ∨ order = some .eq)
  | _ => ¬order = none

def compareLane (predicate : U8) (a b : U128) : U128 :=
  if floatCompare (laneFloat double a) (laneFloat double b) predicate then laneMask (floatBits double) else 0

def cmpPacked (control : U8) (left right : U128) : U128 :=
  zipLanes (floatBits double) (compareLane double control) left right

/-- Subtracts in the even lanes and adds in the odd ones; singles are added as singles. -/
def alternating (_ : U8) (left right : U128) : U128 :=
  let format := if double then SoftFloat.binary64 else SoftFloat.binary32
  let op (k : Nat) := if k % 2 = 0 then SoftFloat.sub format else SoftFloat.add format
  joinLanes (floatBits double) (128 / floatBits double) fun k =>
    ofNat 128 (op k (laneAt (floatBits double) left k).toNat (laneAt (floatBits double) right k).toNat)

def vectorTable : List (Mnemonic × (U8 → U128 → U128 → U128)) :=
  let logic (f : U128 → U128 → U128) : U8 → U128 → U128 → U128 := fun _ => f
  [(.xorps, logic (· ^^^ ·)), (.xorpd, logic (· ^^^ ·)), (.pxor, logic (· ^^^ ·)),
   (.andps, logic (· &&& ·)), (.andpd, logic (· &&& ·)), (.pand, logic (· &&& ·)),
   (.andnps, logic (~~~· &&& ·)), (.andnpd, logic (~~~· &&& ·)), (.pandn, logic (~~~· &&& ·)),
   (.orps, logic (· ||| ·)), (.orpd, logic (· ||| ·)), (.por, logic (· ||| ·)),
   (.pshufd, pshufd), (.pshuflw, pshufw false), (.pshufhw, pshufw true), (.shufps, shufps), (.shufpd, shufpd),
   (.punpcklbw, punpck 8 false), (.punpcklwd, punpck 16 false), (.punpckldq, punpck 32 false),
   (.punpcklqdq, punpck 64 false), (.punpckhbw, punpck 8 true), (.punpckhwd, punpck 16 true),
   (.punpckhdq, punpck 32 true), (.punpckhqdq, punpck 64 true),
   (.pcmpeqb, pcmpeq 8), (.pcmpeqw, pcmpeq 16), (.pcmpeqd, pcmpeq 32), (.pcmpeqq, pcmpeq 64),
   (.paddb, packedArith 8 .addWrap), (.paddw, packedArith 16 .addWrap), (.paddd, packedArith 32 .addWrap),
   (.paddq, packedArith 64 .addWrap), (.psubb, packedArith 8 .subWrap), (.psubw, packedArith 16 .subWrap),
   (.psubd, packedArith 32 .subWrap), (.psubq, packedArith 64 .subWrap), (.pcmpgtb, packedArith 8 .cmpGt),
   (.pcmpgtw, packedArith 16 .cmpGt), (.pcmpgtd, packedArith 32 .cmpGt), (.pminub, packedArith 8 .minU),
   (.pmaxub, packedArith 8 .maxU), (.pminsw, packedArith 16 .minS), (.pmaxsw, packedArith 16 .maxS),
   (.pminsb, packedArith 8 .minS), (.pmaxsb, packedArith 8 .maxS), (.pminsd, packedArith 32 .minS),
   (.pmaxsd, packedArith 32 .maxS), (.pminuw, packedArith 16 .minU), (.pmaxuw, packedArith 16 .maxU),
   (.pminud, packedArith 32 .minU), (.pmaxud, packedArith 32 .maxU), (.paddusb, packedArith 8 .addSatU),
   (.paddusw, packedArith 16 .addSatU), (.psubusb, packedArith 8 .subSatU), (.psubusw, packedArith 16 .subSatU),
   (.paddsb, packedArith 8 .addSatS), (.paddsw, packedArith 16 .addSatS), (.psubsb, packedArith 8 .subSatS),
   (.psubsw, packedArith 16 .subSatS), (.pmulld, packedArith 32 .mulWrap), (.pmuludq, pmuludq),
   (.addps, packedFloat false .add), (.subps, packedFloat false .sub), (.mulps, packedFloat false .mul),
   (.divps, packedFloat false .div), (.minps, packedFloat false .min), (.maxps, packedFloat false .max),
   (.addpd, packedFloat true .add), (.subpd, packedFloat true .sub), (.mulpd, packedFloat true .mul),
   (.divpd, packedFloat true .div), (.minpd, packedFloat true .min), (.maxpd, packedFloat true .max),
   (.cmppd, cmpPacked true), (.cmpps, cmpPacked false),
   (.unpcklps, punpck 32 false), (.unpckhps, punpck 32 true), (.unpcklpd, punpck 64 false), (.unpckhpd, punpck 64 true)]

def applyVector (f : U8 → U128 → U128 → U128) : CpuM Unit := do
  let right ← vectorSource i 16
  updateRegs fun r =>
    writeXmm (i.opRegister 0) (f ((i.immediate 2).setWidth 8) (readXmm r (i.opRegister 0)) right) r

/-! ## Functions of one register -/

def movhl (high : Bool) (destination source : U128) : U128 :=
  if high then replaceLow 64 destination (source >>> 64) else lowHalf destination ||| (source <<< 64)

/-- Register-only forms: the new first operand from both old ones. A memory operand reads as zero. -/
def registerTable : List (Mnemonic × (U128 → U128 → U128)) :=
  let bytes := ((i.immediate 1).setWidth 32 * 8#32).toNat
  [(.movddup, fun _ s => joinLanes 64 2 fun _ => laneAt 64 s 0),
   (.movsldup, fun _ s => joinLanes 32 4 fun k => laneAt 32 s (k / 2 * 2)),
   (.movshdup, fun _ s => joinLanes 32 4 fun k => laneAt 32 s (k / 2 * 2 + 1)),
   (.movhlps, movhl true), (.movlhps, movhl false),
   (.pslldq, fun d _ => if 128 ≤ bytes then 0 else d <<< bytes),
   (.psrldq, fun d _ => if 128 ≤ bytes then 0 else d >>> bytes)]

def applyRegisters (f : U128 → U128 → U128) : CpuM Unit := updateRegs fun r =>
  writeXmm (i.opRegister 0) (f (readXmm r (i.opRegister 0)) (readXmm r (i.opRegister 1))) r

/-! ## Shifts by a count -/

/-- The low 64 bits of the source, or an immediate; only the XMM forms are supported. -/
def shiftCountSource : CpuM U64 :=
  if !isXmm (i.opRegister 0) then unimplemented i.mnemonicName
  else if i.opKind 1 = .immediate8 then return i.immediate 1
  else if i.opKind 1 = .memory ∨ (i.opKind 1 = .register ∧ isXmm (i.opRegister 1)) then do
    let source ← vectorSource i 16
    return source.setWidth 64
  else unimplemented i.mnemonicName

def shiftLanes (bits : Nat) (f : Nat → U128 → U128) (count : U64) (v : U128) : U128 :=
  joinLanes bits (128 / bits) fun k => f (min count.toNat bits) (laneAt bits v k)

def psra (bits count : Nat) (v : U128) : U128 :=
  let negative := v &&& (1#128 <<< (bits - 1)) != 0
  if bits ≤ count then if negative then laneMask bits else 0
  else if negative then (v >>> count) ||| ((laneMask bits <<< (bits - count)) &&& laneMask bits)
  else v >>> count

def shiftTable : List (Mnemonic × (U64 → U128 → U128)) :=
  let left (bits : Nat) := shiftLanes bits fun n v => v <<< n
  let right (bits : Nat) := shiftLanes bits fun n v => v >>> n
  [(.psllw, left 16), (.pslld, left 32), (.psllq, left 64), (.psrlw, right 16), (.psrld, right 32), (.psrlq, right 64),
   (.psraw, shiftLanes 16 (psra 16)), (.psrad, shiftLanes 32 (psra 32))]

def applyShift (f : U64 → U128 → U128) : CpuM Unit := do
  let count ← shiftCountSource i
  updateRegs fun r => writeXmm (i.opRegister 0) (f count (readXmm r (i.opRegister 0))) r

/-! ## Scalars -/

/-- The second scalar operand: memory of its width, or the low half of a register. -/
def scalarSource : CpuM U64 := do
  let source ← vectorSource i (if double then 8 else 4)
  return source.setWidth 64

def scalarFloat (raw : U64) : U64 := if double then raw else f64OfF32 (raw.setWidth 32)

def writeScalar (value : U64) (r : Registers) : Registers :=
  writeXmm (i.opRegister 0) (replaceLow (floatBits double) (readXmm r (i.opRegister 0)) (floatLane double value)) r

def scalarTable : List (Mnemonic × Bool × FloatOp) :=
  [(.addsd, true, .add), (.subsd, true, .sub), (.mulsd, true, .mul), (.divsd, true, .div), (.minsd, true, .min),
   (.maxsd, true, .max), (.addss, false, .add), (.subss, false, .sub), (.mulss, false, .mul), (.divss, false, .div),
   (.minss, false, .min), (.maxss, false, .max)]

def applyScalar (op : FloatOp) : CpuM Unit := do
  let raw ← scalarSource i double
  updateRegs fun r =>
    writeScalar i double
      (op.apply (scalarFloat double ((readXmm r (i.opRegister 0)).setWidth 64)) (scalarFloat double raw)) r

def sqrtScalar : CpuM Unit := do
  let raw ← scalarSource i double
  let root := if double then f64Sqrt raw
    else f64OfF32 (ofNat 32 (SoftFloat.sqrt SoftFloat.binary32 (raw.setWidth 32).toNat))
  updateRegs (writeScalar i double root)

/-- Precision changes write the low lane and keep the upper bits. -/
def cvtPrecision (toDouble : Bool) : CpuM Unit := do
  let raw ← scalarSource i (!toDouble)
  updateRegs (writeScalar i toDouble (scalarFloat (!toDouble) raw))

def cmpScalar : CpuM Unit := do
  let raw ← scalarSource i double
  updateRegs fun r =>
    let left := readXmm r (i.opRegister 0)
    let bits := floatBits double
    writeXmm (i.opRegister 0)
      (replaceLow bits left (compareLane double ((i.immediate 2).setWidth 8) (laneAt bits left 0)
        (laneAt bits (raw.setWidth 128) 0))) r

/-- The flags of an ordered comparison; the operands' other status flags are cleared. -/
def comisFlags (order : Option Ordering) (flags : U64) : U64 :=
  let flags := flags &&& ~~~(RFlags.OF ||| RFlags.SF ||| RFlags.AF ||| RFlags.ZF ||| RFlags.PF ||| RFlags.CF)
  match order with
  | none => flags ||| RFlags.ZF ||| RFlags.PF ||| RFlags.CF
  | some .gt => flags
  | some .lt => flags ||| RFlags.CF
  | some .eq => flags ||| RFlags.ZF

def comis : CpuM Unit := do
  let raw ← scalarSource i double
  updateRegs fun r =>
    let left := scalarFloat double ((readXmm r (i.opRegister 0)).setWidth 64)
    { r with rflags := comisFlags (f64Compare left (scalarFloat double raw)) r.rflags }

/-! ## Lanes to and from general registers -/

def pinsrw : CpuM Unit := do
  let word ← if i.opKind 1 = .memory then readMemory i 2
    else Exec.view fun c => (readRegister c.regs (i.opRegister 1) 4).setWidth 128
  let shift := (i.immediate 2 &&& 7).toNat * 16
  updateRegs fun r =>
    writeXmm (i.opRegister 0)
      ((readXmm r (i.opRegister 0) &&& ~~~(laneMask 16 <<< shift)) ||| ((word &&& laneMask 16) <<< shift)) r

/-- The top bit of each lane. -/
def signMask (bits : Nat) (v : U128) : U64 :=
  ofNat 64 ((List.range (128 / bits)).foldl
    (fun acc k => if v.getLsbD (k * bits + bits - 1) then acc + 2 ^ k else acc) 0)

def movmsk (bits : Nat) : CpuM Unit := updateRegs fun r =>
  writeRegister r (i.opRegister 0) (operandSize i 0) (signMask bits (readXmm r (i.opRegister 1)))

/-- One lane to a general register or to memory. -/
def extract (width : Nat) : CpuM Unit :=
  match xmmIndex (i.opRegister 1) with
  | none => unimplemented i.mnemonicName
  | some source => do
    let c ← get
    let lane := (i.immediate 2).toNat % 256 % (16 / width)
    let value := laneAt (width * 8) (c.regs.xmm source) lane
    if i.opKind 0 = .memory then writeMemory i width value
    else setRegister (i.opRegister 0) (if width = 8 then 8 else 4) (value.setWidth 64)

end Rish.SoftVm.Ops
