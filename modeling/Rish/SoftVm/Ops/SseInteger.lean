/-
  Rish.SoftVm.Ops.SseInteger — the later SSE extensions: packed integer forms, lane widening,
  rounding, horizontal and alternating arithmetic.

  Every form reads its whole source before it writes its destination.
-/

import Rish.SoftVm.Ops.SseConvert

namespace Rish.SoftVm.Ops

open Lib Cpu
open BitVec (ofInt ofNat)
open SoftFloat (isSubnormal binary32 binary64)

variable (i : Instruction)

def strictSource (bytes : Nat) : CpuM U128 :=
  if i.opKind 1 = .memory ∨ (i.opKind 1 = .register ∧ isXmm (i.opRegister 1)) then vectorSource i bytes
  else unimplemented i.mnemonicName

/-- The MMX forms alias x87 state and are not implemented. -/
def requireXmm (x : CpuM Unit) : CpuM Unit :=
  if isXmm (i.opRegister 0) then x else unimplemented i.mnemonicName

def immediate8 : U8 := (i.immediate 2).setWidth 8

/-! ## Packed integers -/

variable (bits : Nat)

def laneInt (v : U128) (k : Nat) : Int := ((laneAt bits v k).setWidth bits).toInt

def blend (takeRight : Nat → Bool) (left right : U128) : U128 :=
  joinLanes bits (128 / bits) fun k => laneAt bits (if takeRight k then right else left) k

def palignr (shift : Nat) (left right : U128) : U128 := (((left ++ right : BitVec 256)) >>> (8 * shift)).setWidth 128

/-- Narrows the lanes of both operands with saturation. -/
def packLanes (low high : Int) (left right : U128) : U128 :=
  let n := 128 / bits
  joinLanes (bits / 2) (2 * n) fun k =>
    ofInt 128 (clampInt low high (if k < n then laneInt bits left k else laneInt bits right (k - n)))

def pmaddwd (left right : U128) : U128 :=
  joinLanes 32 4 fun k =>
    ofInt 128 (laneInt 16 left (2 * k) * laneInt 16 right (2 * k) +
      laneInt 16 left (2 * k + 1) * laneInt 16 right (2 * k + 1))

def pmaddubsw (left right : U128) : U128 :=
  joinLanes 16 8 fun k =>
    ofInt 128 (clampInt (-32768) 32767
      ((laneAt 8 left (2 * k)).toNat * laneInt 8 right (2 * k) +
        (laneAt 8 left (2 * k + 1)).toNat * laneInt 8 right (2 * k + 1)))

def pmulh (signed : Bool) (left right : U128) : U128 :=
  joinLanes 16 8 fun k =>
    let product : U128 := if signed then ofInt 128 (laneInt 16 left k * laneInt 16 right k)
      else laneAt 16 left k * laneAt 16 right k
    (product >>> 16) &&& laneMask 16

def pshufb (left right : U128) : U128 :=
  joinLanes 8 16 fun k =>
    let control := laneAt 8 right k
    if control &&& 0x80 != 0 then 0 else laneAt 8 left (control &&& 0x0F).toNat

def psadbw (left right : U128) : U128 :=
  joinLanes 64 2 fun g => (List.range 8).foldl
    (fun sum k => sum + ofNat 128 ((laneAt 8 left (8 * g + k)).toNat - (laneAt 8 right (8 * g + k)).toNat +
      ((laneAt 8 right (8 * g + k)).toNat - (laneAt 8 left (8 * g + k)).toNat))) 0

def pavgb (left right : U128) : U128 := zipLanes 8 (fun a b => (a + b + 1) >>> 1) left right

def phaddd (left right : U128) : U128 :=
  joinLanes 32 4 fun k =>
    let source := if k < 2 then left else right
    laneAt 32 source (2 * (k % 2)) + laneAt 32 source (2 * (k % 2) + 1)

/-- The result from the immediate, the implicit mask in XMM0 and both operands. -/
def packedTable (control : U8) (mask : U128) : List (Mnemonic × (U128 → U128 → U128)) :=
  let byImmediate (k : Nat) := control.getLsbD k
  let byMask (bits k : Nat) := mask.getLsbD (k * bits + bits - 1)
  [(.pblendw, blend 16 byImmediate), (.blendps, blend 32 byImmediate), (.blendpd, blend 64 byImmediate),
   (.palignr, palignr control.toNat), (.pblendvb, blend 8 (byMask 8)), (.blendvps, blend 32 (byMask 32)),
   (.blendvpd, blend 64 (byMask 64)), (.pmaddwd, pmaddwd), (.pmaddubsw, pmaddubsw), (.pmulhuw, pmulh false),
   (.pmulhw, pmulh true), (.pmullw, zipLanes 16 (· * ·)), (.packssdw, packLanes 32 (-32768) 32767),
   (.packsswb, packLanes 16 (-128) 127), (.pshufb, pshufb), (.psadbw, psadbw), (.packuswb, packLanes 16 0 255),
   (.packusdw, packLanes 32 0 65535), (.pavgb, pavgb), (.phaddd, phaddd)]

def finishPacked (right : U128) (f : Option (U128 → U128 → U128)) : CpuM Unit :=
  match f with
  | some f => updateRegs fun r => writeXmm (i.opRegister 0) (f (readXmm r (i.opRegister 0)) right) r
  | none => unimplemented i.mnemonicName

def packed : CpuM Unit := do
  let right ← strictSource i 16
  let c ← get
  finishPacked i right ((packedTable (immediate8 i) (c.regs.xmm 0)).lookup i.mnemonic)

def ptestFlags (left right : U128) (r : Registers) : Registers :=
  let r := { r with rflags := r.rflags &&& ~~~(RFlags.OF ||| RFlags.SF ||| RFlags.AF ||| RFlags.PF) }
  withFlag (withFlag r RFlags.ZF (left &&& right == 0)) RFlags.CF (~~~left &&& right == 0)

def ptest : CpuM Unit := do
  let right ← strictSource i 16
  updateRegs fun r => ptestFlags (readXmm r (i.opRegister 0)) right r

/-- One lane truncated to 32 bits, with its exception. -/
def truncateLane (mxcsr raw : U32) : U32 × U32 :=
  let value := f64OfF32 (if denormalsAreZero mxcsr ∧ isSubnormal binary32 raw.toNat then 0 else raw)
  let converted := toInteger value 3 4
  (converted.1.setWidth 32, converted.2)

/-- The lanes of a result, each with an exception, and all the exceptions together. -/
def joinChecked (bits n : Nat) (lane : Nat → U128 × U32) : U128 × U32 :=
  (joinLanes bits n fun k => (lane k).1, (List.range n).foldl (fun acc k => acc ||| (lane k).2) 0)

/-- Records the status; an unmasked exception ends the run, for its delivery is not implemented. -/
def commitChecked (message : String) (result : U128 × U32) : CpuM Unit := do
  Exec.update fun c => { c with mxcsr := c.mxcsr ||| result.2 }
  let c ← get
  if unmasked result.2 c.mxcsr then guestFault message else setXmm (i.opRegister 0) result.1

def cvttps2dq : CpuM Unit := do
  let right ← strictSource i 16
  let c ← get
  commitChecked i "unmasked SIMD conversion exception"
    (joinChecked 32 4 fun k =>
      let lane := truncateLane c.mxcsr ((laneAt 32 right k).setWidth 32)
      (lane.1.setWidth 128, lane.2))

def insertSource (width : Nat) : CpuM U128 :=
  if i.opKind 1 = .register then Exec.view fun c => (readRegister c.regs (i.opRegister 1) width).setWidth 128
  else if i.opKind 1 = .memory then readMemory i width
  else unimplemented i.mnemonicName

def insertLane (bits k : Nat) (value v : U128) : U128 :=
  (v &&& ~~~(laneMask bits <<< (k * bits))) ||| ((value &&& laneMask bits) <<< (k * bits))

def insert (width : Nat) : CpuM Unit := do
  let value ← insertSource i width
  updateRegs fun r =>
    writeXmm (i.opRegister 0)
      (insertLane (8 * width) ((immediate8 i).toNat % (16 / width)) value (readXmm r (i.opRegister 0))) r

def sseInteger : CpuM Unit :=
  if i.mnemonic = .pextrb then extract i 1
  else if i.mnemonic ∈ [.pextrd, .extractps] then extract i 4
  else if i.mnemonic = .pextrq then extract i 8
  else if i.mnemonic = .pinsrb then requireXmm i (insert i 1)
  else if i.mnemonic = .pinsrd then requireXmm i (insert i 4)
  else if i.mnemonic = .pinsrq then requireXmm i (insert i 8)
  else if i.mnemonic = .ptest then requireXmm i (ptest i)
  else if i.mnemonic = .cvttps2dq then requireXmm i (cvttps2dq i)
  else requireXmm i (packed i)

/-! ## Widening -/

def widenTable : List (Mnemonic × Nat × Nat × Bool) :=
  [(.pmovsxbw, 1, 2, true), (.pmovsxbd, 1, 4, true), (.pmovsxbq, 1, 8, true), (.pmovsxwd, 2, 4, true),
   (.pmovsxwq, 2, 8, true), (.pmovsxdq, 4, 8, true), (.pmovzxbw, 1, 2, false), (.pmovzxbd, 1, 4, false),
   (.pmovzxbq, 1, 8, false), (.pmovzxwd, 2, 4, false), (.pmovzxwq, 2, 8, false), (.pmovzxdq, 4, 8, false)]

def widenLanes (source destination : Nat) (signed : Bool) (v : U128) : U128 :=
  joinLanes (8 * destination) (16 / destination) fun k =>
    if signed then ofInt 128 (laneInt (8 * source) v k) else laneAt (8 * source) v k

def widen (source destination : Nat) (signed : Bool) : CpuM Unit := do
  let v ← strictSource i (16 / destination * source)
  setXmm (i.opRegister 0) (widenLanes source destination signed v)

def sseWiden : CpuM Unit :=
  match widenTable.lookup i.mnemonic with
  | some row => requireXmm i (widen i row.1 row.2.1 row.2.2)
  | none => unimplemented i.mnemonicName

/-! ## Rounding -/

variable (double : Bool)

def roundLane (mxcsr : U32) (control : U8) (bits : U64) : U64 × U32 :=
  let format := if double then binary64 else binary32
  let quiet : U64 := if double then 0x0008000000000000 else 0x00400000
  if SoftFloat.isNan format bits.toNat then (bits ||| quiet, if bits &&& quiet = 0 then 1 else 0)
  else
    let exact := scalarFloat double bits
    let value := if denormalsAreZero mxcsr ∧ isSubnormal format bits.toNat then zeroLike exact else exact
    let mode := if control &&& 4 != 0 then mxcsrRounding mxcsr else (control &&& 3).toNat
    let rounded := f64Round (roundingMode mode) value
    (if double then rounded else (f32OfF64 rounded).setWidth 64,
      if control &&& 8 = 0 ∧ f64Compare rounded value ≠ some .eq then 0x20 else 0)

/-- Lanes outside the source keep the destination's bits. -/
def roundLanes (double isPacked : Bool) (mxcsr : U32) (control : U8) (destination source : U128) : U128 × U32 :=
  let bits := floatBits double
  let n := if isPacked then 128 / bits else 1
  let result := joinChecked bits n fun k =>
    let lane := roundLane double mxcsr control ((laneAt bits source k).setWidth 64)
    (lane.1.setWidth 128, lane.2)
  (if isPacked then result.1 else replaceLow bits destination result.1, result.2)

def round (double isPacked : Bool) : CpuM Unit := do
  let source ← strictSource i (if isPacked then 16 else floatBits double / 8)
  let c ← get
  commitChecked i "unmasked SIMD rounding exception"
    (roundLanes double isPacked c.mxcsr (immediate8 i) (readXmm c.regs (i.opRegister 0)) source)

def sseRound : CpuM Unit :=
  if i.mnemonic = .roundsd then requireXmm i (round i true false)
  else if i.mnemonic = .roundss then requireXmm i (round i false false)
  else if i.mnemonic = .roundpd then requireXmm i (round i true true)
  else if i.mnemonic = .roundps then requireXmm i (round i false true)
  else unimplemented i.mnemonicName

/-! ## Horizontal and alternating arithmetic -/

def isDenormal (v : U64) : Bool :=
  if double then isSubnormal binary64 v.toNat
  else isSubnormal binary32 (f32OfF64 v).toNat

def addSingles (a b : U64) : U64 :=
  f64OfF32 (ofNat 32 (SoftFloat.add binary32 (f32OfF64 a).toNat (f32OfF64 b).toNat))

/-- The sum of two finite values with its exceptions; inexactness is found from the residual. -/
def horizontalLane (double subtract : Bool) (mxcsr : U32) (a b : U64) : U64 × U32 :=
  let daz := denormalsAreZero mxcsr
  let flush (v : U64) := if isDenormal double v ∧ daz then zeroLike v else v
  let denormal : U32 := if (isDenormal double a ∨ isDenormal double b) ∧ !daz then 2 else 0
  let a := flush a
  let b := if subtract then f64Neg (flush b) else flush b
  let sum := f64Add a b
  let rounded := if double then sum else addSingles a b
  if !f64IsFinite rounded then (rounded, denormal ||| 0x28)
  else
    let virtualB := f64Sub sum a
    let residual := f64Add (f64Sub a (f64Sub sum virtualB)) (f64Sub b virtualB)
    let inexact : U32 := if f64Compare rounded sum ≠ some .eq ∨ f64Compare residual 0 ≠ some .eq then 0x20 else 0
    if mxcsr &&& 0x8000 != 0 ∧ isDenormal double rounded then (zeroLike rounded, denormal ||| inexact ||| 0x30)
    else (rounded, denormal ||| inexact)

/-- The two values of one result lane: a pair of the first operand, then of the second. -/
def horizontalPair (left right : U128) (k : Nat) : U64 × U64 :=
  let bits := floatBits double
  let half := 64 / bits
  let source := if k < half then left else right
  (laneFloat double (laneAt bits source (2 * (k % half))), laneFloat double (laneAt bits source (2 * (k % half) + 1)))

def horizontalFinite (left right : U128) : Bool :=
  (List.range (128 / floatBits double)).all fun k =>
    f64IsFinite (horizontalPair double left right k).1 && f64IsFinite (horizontalPair double left right k).2

def horizontalLanes (double subtract : Bool) (mxcsr : U32) (left right : U128) : U128 × U32 :=
  joinChecked (floatBits double) (128 / floatBits double) fun k =>
    let pair := horizontalPair double left right k
    let lane := horizontalLane double subtract mxcsr pair.1 pair.2
    (floatLane double lane.1, lane.2)

def storeHorizontal (double subtract : Bool) (right : U128) (c : Cpu) : Cpu :=
  let result := horizontalLanes double subtract c.mxcsr (readXmm c.regs (i.opRegister 0)) right
  { c with mxcsr := c.mxcsr ||| result.2, regs := writeXmm (i.opRegister 0) result.1 c.regs }

def horizontal (i : Instruction) (double subtract : Bool) : CpuM Unit := do
  let right ← strictSource i 16
  let c ← get
  if horizontalFinite double (readXmm c.regs (i.opRegister 0)) right then
    Exec.update (storeHorizontal i double subtract right)
  else guestFault "horizontal non-finite FP operands are not implemented"

/-- Only round-to-nearest with every exception masked is implemented. -/
def sseHorizontal : CpuM Unit := do
  let c ← get
  if c.mxcsr &&& 0x6000 != 0 ∨ c.mxcsr &&& 0x1F80 ≠ 0x1F80 then guestFault "horizontal FP mode is not implemented"
  else
    requireXmm i (horizontal i (i.mnemonic = .haddpd ∨ i.mnemonic = .hsubpd)
      (i.mnemonic = .hsubpd ∨ i.mnemonic = .hsubps))

def plainForm : Bool := i.opKind 0 = .register ∧ (i.opKind 1 = .register ∨ i.opKind 1 = .memory)

def sse3Op : CpuM Unit :=
  if !plainForm i then bad i.mnemonicName i else applyVector i (alternating (i.mnemonic = .addsubpd))

/-! ## INSERTPS -/

def insertpsSource : CpuM U128 :=
  if i.opKind 1 = .memory then readMemory i 4
  else Exec.view fun c => laneAt 32 (readXmm c.regs (i.opRegister 1)) ((immediate8 i) >>> 6).toNat

/-- One lane is inserted, then the lanes of the low mask are zeroed. -/
def insertps (control : U8) (value v : U128) : U128 :=
  let inserted := insertLane 32 ((control >>> 4) &&& 0b11).toNat value v
  joinLanes 32 4 fun k => if control.getLsbD k then 0 else laneAt 32 inserted k

def insertSingle : CpuM Unit :=
  if !plainForm i then bad i.mnemonicName i
  else do
    let value ← insertpsSource i
    updateRegs fun r => writeXmm (i.opRegister 0) (insertps (immediate8 i) value (readXmm r (i.opRegister 0))) r

end Rish.SoftVm.Ops
