/-
  Rish.SoftVm.Ops.SsePacked — what the packed integer instructions compute, lane by lane.

  A `LaneOp` is the reference of one instruction: which lanes of the operands a result lane reads, and the
  function of those lanes alone. The shifts also read their count, the low quadword of the second operand.
  `laneOps` lists them: shifts that run out to zero or to the sign, comparison, interleaving, narrowing with
  signed and unsigned saturation, products and sums of products.

  Proved: every one of these instructions leaves in every lane of its destination the reference's value
  (`packed_lanes_exact`), with an operand from a register, from memory or, for a shift, immediate.
-/

import Rish.Lib.Lanes
import Rish.SoftVm.Ops.Alu

namespace Rish.SoftVm.Ops

open Lib Cpu List
open List (mem_cons not_mem_nil)
open BitVec (setWidth_eq eq_of_getLsbD_eq getLsbD_setWidth getLsbD_shiftLeft getLsbD_ushiftRight getLsbD_of_ge
  getLsbD_or ofInt_mul toNat_ofNat toNat_ofInt allOnes ofInt ofNat)

/-! ## The references -/

inductive Side where
  | left | right
  deriving DecidableEq, Repr

def Side.of (side : Side) (left right : U128) : U128 :=
  match side with
  | .left => left
  | .right => right

structure LaneOp where
  sourceBits : Nat
  resultBits : Nat
  /-- A shift: its function also reads the count. -/
  usesCount : Bool
  /-- The source lanes of a result lane. -/
  sources : Nat → List (Side × Nat)
  scalar : U64 → List (BitVec sourceBits) → BitVec resultBits

namespace LaneOp

variable (op : LaneOp)

def count (right : U128) : U64 := if op.usesCount then right.setWidth 64 else 0

def read (left right : U128) (k : Nat) : List (BitVec op.sourceBits) :=
  (op.sources k).map fun source => lane op.sourceBits (source.1.of left right) source.2

def result (left right : U128) (k : Nat) : BitVec op.resultBits :=
  op.scalar (op.count right) (op.read left right k)

end LaneOp

section

variable (bits : Nat)

/-- The same lane of each operand. -/
def facing (k : Nat) : List (Side × Nat) := [(.left, k), (.right, k)]

/-- A function of one source lane, of two, and of two pairs. -/
def ofOne {source result : Nat} (f : BitVec source → BitVec result) : List (BitVec source) → BitVec result
  | [a] => f a
  | _ => 0

def ofTwo {source result : Nat} (f : BitVec source → BitVec source → BitVec result) :
    List (BitVec source) → BitVec result
  | [a, b] => f a b
  | _ => 0

def ofPairs {source result : Nat} (f : BitVec source → BitVec source → BitVec source → BitVec source → BitVec result) :
    List (BitVec source) → BitVec result
  | [a, b, c, d] => f a b c d
  | _ => 0

def shiftOp (f : Nat → BitVec bits → BitVec bits) : LaneOp :=
  ⟨bits, bits, true, fun k => [(.left, k)], fun count => ofOne (f count.toNat)⟩

variable (count : Nat) (a : BitVec bits)

/-- A count of the lane's width or more leaves nothing. -/
def shiftLeftLane : BitVec bits := if bits ≤ count then 0 else a <<< count

def shiftRightLane : BitVec bits := if bits ≤ count then 0 else a >>> count

/-- A count of the lane's width or more leaves the sign. -/
def shiftSignLane : BitVec bits :=
  if bits ≤ count then if a.msb then allOnes bits else 0 else a.sshiftRight count

def compareOp : LaneOp :=
  ⟨bits, bits, false, facing, fun _ => ofTwo fun a b => if a = b then allOnes bits else 0⟩

/-- Even lanes from the first operand, odd ones from the second. -/
def interleaveOp (high : Bool) : LaneOp :=
  ⟨bits, bits, false,
    fun k => [(if k % 2 = 0 then .left else .right, (if high then 128 / bits / 2 else 0) + k / 2)],
    fun _ => ofOne id⟩

/-- The nearest number of the range. -/
def saturate (low high x : Int) : BitVec bits :=
  ofInt bits (if x < low then low else if high < x then high else x)

def signedSaturate (x : Int) : BitVec bits := saturate bits (-2 ^ (bits - 1)) (2 ^ (bits - 1) - 1) x

def unsignedSaturate (x : Int) : BitVec bits := saturate bits 0 (2 ^ bits - 1) x

/-- The lanes of the first operand, then those of the second, each narrowed to half its width. -/
def packOp (narrow : Int → BitVec (bits / 2)) : LaneOp :=
  ⟨bits, bits / 2, false, fun k => [if k < 128 / bits then (.left, k) else (.right, k - 128 / bits)],
    fun _ => ofOne fun a => narrow a.toInt⟩

/-- The same two adjacent lanes of each operand. -/
def facingPairs (k : Nat) : List (Side × Nat) :=
  [(.left, 2 * k), (.right, 2 * k), (.left, 2 * k + 1), (.right, 2 * k + 1)]

def maddwdOp : LaneOp :=
  ⟨16, 32, false, facingPairs, fun _ => ofPairs fun a b c d =>
    a.signExtend 32 * b.signExtend 32 + c.signExtend 32 * d.signExtend 32⟩

/-- Unsigned bytes of the first operand, signed ones of the second. -/
def maddubswOp : LaneOp :=
  ⟨8, 16, false, facingPairs, fun _ => ofPairs fun a b c d =>
    signedSaturate 16 (a.toNat * b.toInt + c.toNat * d.toInt)⟩

def mulhuwOp : LaneOp :=
  ⟨16, 16, false, facing, fun _ => ofTwo fun a b => ofNat 16 (a.toNat * b.toNat / 2 ^ 16)⟩

def mulhwOp : LaneOp :=
  ⟨16, 16, false, facing, fun _ => ofTwo fun a b => ofInt 16 (a.toInt * b.toInt / 2 ^ 16)⟩

def mullOp : LaneOp := ⟨bits, bits, false, facing, fun _ => ofTwo fun a b => a * b⟩

end

/-- The instructions of the SSE table. -/
def vectorLaneOps : List (Mnemonic × LaneOp) :=
  [(.pcmpeqb, compareOp 8), (.pcmpeqw, compareOp 16), (.pcmpeqd, compareOp 32), (.pcmpeqq, compareOp 64),
   (.punpcklbw, interleaveOp 8 false), (.punpcklwd, interleaveOp 16 false), (.punpckldq, interleaveOp 32 false),
   (.punpcklqdq, interleaveOp 64 false), (.punpckhbw, interleaveOp 8 true), (.punpckhwd, interleaveOp 16 true),
   (.punpckhdq, interleaveOp 32 true), (.punpckhqdq, interleaveOp 64 true), (.pmulld, mullOp 32)]

def shiftLaneOps : List (Mnemonic × LaneOp) :=
  [(.psllw, shiftOp 16 (shiftLeftLane 16)), (.pslld, shiftOp 32 (shiftLeftLane 32)),
   (.psllq, shiftOp 64 (shiftLeftLane 64)), (.psrlw, shiftOp 16 (shiftRightLane 16)),
   (.psrld, shiftOp 32 (shiftRightLane 32)), (.psrlq, shiftOp 64 (shiftRightLane 64)),
   (.psraw, shiftOp 16 (shiftSignLane 16)), (.psrad, shiftOp 32 (shiftSignLane 32))]

def integerLaneOps : List (Mnemonic × LaneOp) :=
  [(.packsswb, packOp 16 (signedSaturate 8)), (.packssdw, packOp 32 (signedSaturate 16)),
   (.packuswb, packOp 16 (unsignedSaturate 8)), (.packusdw, packOp 32 (unsignedSaturate 16)),
   (.pmaddwd, maddwdOp), (.pmaddubsw, maddubswOp), (.pmulhuw, mulhuwOp), (.pmulhw, mulhwOp), (.pmullw, mullOp 16)]

def laneOps : List (Mnemonic × LaneOp) := vectorLaneOps ++ shiftLaneOps ++ integerLaneOps

/-! ## Lanes in the source's words -/

section

variable {bits : Nat} (hb : bits ≤ 128)

include hb

theorem narrow_wide (a : BitVec bits) : (a.setWidth 128).setWidth bits = a := by
  rw [BitVec.setWidth_setWidth_of_le _ hb, setWidth_eq]

theorem laneAt_eq (v k) : laneAt bits v k = (lane bits v k).setWidth 128 := shift_and_mask hb v k

theorem laneInt_eq (v k) : laneInt bits v k = (lane bits v k).toInt := by
  rw [laneInt, laneAt_eq hb, narrow_wide hb]

theorem laneAt_toNat (v k) : (laneAt bits v k).toNat = (lane bits v k).toNat := by
  rw [laneAt_eq hb, BitVec.toNat_setWidth_of_le hb]

theorem laneMask_eq : laneMask bits = (allOnes bits).setWidth 128 := by
  apply eq_of_getLsbD_eq
  intro i hi
  rw [laneMask, getLsbD_mask hb, getLsbD_setWidth, BitVec.getLsbD_allOnes, decide_eq_true hi, Bool.true_and]

end

theorem lane_joinLanes {bits n} (h : n * bits ≤ 128) (f) {k : Nat} (hk : k < n) :
    lane bits (joinLanes bits n f) k = (f k).setWidth bits :=
  lane_join h f hk

variable {bits : Nat} {i : Instruction} {m : Mnemonic} {op : LaneOp}

theorem lane_joinAll (f) {k : Nat} (hk : k < 128 / bits) :
    lane bits (joinLanes bits (128 / bits) f) k = (f k).setWidth bits :=
  lane_joinLanes (Nat.div_mul_le_self 128 bits) f hk

/-- A vector function gives the reference's lanes. -/
def LaneOp.Computes (op : LaneOp) (f : U128 → U128 → U128) : Prop :=
  ∀ left right k, k < 128 / op.resultBits → lane op.resultBits (f left right) k = op.result left right k

/-! ## The functions of the table -/

theorem compare_computes (hb : bits ≤ 128) (control : U8) : (compareOp bits).Computes (pcmpeq bits control) := by
  intro left right k (hk : k < 128 / bits)
  have hinj : laneAt bits left k = laneAt bits right k ↔ lane bits left k = lane bits right k := by
    rw [laneAt_eq hb, laneAt_eq hb]
    constructor
    · intro h
      have hcut := congrArg (BitVec.setWidth bits) h
      rwa [narrow_wide hb, narrow_wide hb] at hcut
    · intro h
      rw [h]
  show lane bits (joinLanes bits (128 / bits) _) k = if lane bits left k = lane bits right k then _ else _
  rw [lane_joinAll _ hk]
  show BitVec.setWidth bits (if laneAt bits left k = laneAt bits right k then _ else _) = _
  by_cases h : lane bits left k = lane bits right k
  · rw [if_pos (hinj.mpr h), if_pos h, laneMask_eq hb, narrow_wide hb]
  · rw [if_neg (mt hinj.mp h), if_neg h]
    exact BitVec.setWidth_zero _ _

theorem interleave_computes (hb : bits ≤ 128) (high) (control : U8) :
    (interleaveOp bits high).Computes (punpck bits high control) := by
  intro left right k (hk : k < 128 / bits)
  have hside : (if k % 2 = 0 then left else right) = (if k % 2 = 0 then Side.left else Side.right).of left right := by
    split <;> rfl
  show lane bits (joinLanes bits (128 / bits) _) k = lane bits _ _
  rw [lane_joinAll _ hk, laneAt_eq hb, narrow_wide hb, hside]

theorem mull_computes (hb : bits ≤ 128) : (mullOp bits).Computes (zipLanes bits (· * ·)) := by
  intro left right k (hk : k < 128 / bits)
  show lane bits (joinLanes bits (128 / bits) _) k = lane bits left k * lane bits right k
  rw [lane_joinAll _ hk, BitVec.setWidth_mul _ _ hb, laneAt_eq hb, laneAt_eq hb, narrow_wide hb,
    narrow_wide hb]

/-! ## Shifts -/

theorem shift_computes (hb : bits ≤ 128) {f g}
    (h : ∀ count a, (f (min count bits) (a.setWidth 128)).setWidth bits = g count a) :
    (shiftOp bits g).Computes fun left right => shiftLanes bits f (right.setWidth 64) left := by
  intro left right k (hk : k < 128 / bits)
  show lane bits (joinLanes bits (128 / bits) _) k = g (right.setWidth 64).toNat (lane bits left k)
  rw [lane_joinAll _ hk, laneAt_eq hb, h]

theorem shiftLeft_lane (hb : bits ≤ 128) (count) (a : BitVec bits) :
    ((a.setWidth 128) <<< min count bits).setWidth bits = shiftLeftLane bits count a := by
  apply eq_of_getLsbD_eq
  intro i hi
  rw [getLsbD_setWidth, getLsbD_shiftLeft, getLsbD_setWidth, shiftLeftLane]
  by_cases h : bits ≤ count
  · have hlow : i < min count bits := by omega
    rw [if_pos h, decide_eq_true hlow]
    simp
  · rw [if_neg h, Nat.min_eq_left (by omega), getLsbD_shiftLeft]
    grind

theorem shiftRight_lane (hb : bits ≤ 128) (count) (a : BitVec bits) :
    ((a.setWidth 128) >>> min count bits).setWidth bits = shiftRightLane bits count a := by
  apply eq_of_getLsbD_eq
  intro i hi
  rw [getLsbD_setWidth, getLsbD_ushiftRight, getLsbD_setWidth, shiftRightLane]
  by_cases h : bits ≤ count
  · rw [if_pos h, Nat.min_eq_right h, getLsbD_of_ge a (bits + i) (by omega)]
    simp
  · rw [if_neg h, Nat.min_eq_left (by omega), getLsbD_ushiftRight]
    by_cases hin : count + i < 128
    · simp [hi, hin]
    · rw [getLsbD_of_ge a (count + i) (by omega)]
      simp

theorem topBit_set (hpos : 0 < bits) (hb : bits ≤ 128) (a : BitVec bits) :
    (a.setWidth 128 &&& (1#128 <<< (bits - 1)) != 0) = a.msb := by
  have hbit : 1#128 <<< (bits - 1) = BitVec.twoPow 128 (bits - 1) := (BitVec.twoPow_eq 128 (bits - 1)).symm
  have hlt : bits - 1 < 128 := by omega
  rw [hbit, BitVec.and_twoPow, getLsbD_setWidth, decide_eq_true hlt, Bool.true_and, BitVec.msb_eq_getLsbD_last]
  cases h : a.getLsbD (bits - 1) with
  | false => simp
  | true =>
    have hne : BitVec.twoPow 128 (bits - 1) ≠ 0#128 := by
      intro hzero
      have hat := congrArg (fun v => v.getLsbD (bits - 1)) hzero
      simp [hlt] at hat
    simp [hne]

theorem getLsbD_fill {bits s i} (hb : bits ≤ 128) (hi : i < bits) :
    ((laneMask bits <<< s) &&& laneMask bits).getLsbD i = decide (s ≤ i) := by
  have hmask (j : Nat) : (laneMask bits).getLsbD j = decide (j < bits) := getLsbD_mask hb j
  rw [BitVec.getLsbD_and, getLsbD_shiftLeft, hmask, hmask]
  by_cases h : s ≤ i
  · simp [h, hi, show i < 128 by omega, show i - s < bits by omega]
  · simp [h, Nat.lt_of_not_le h]

theorem shiftSign_lane (hpos : 0 < bits) (hb : bits ≤ 128) (count) (a : BitVec bits) :
    (psra bits (min count bits) (a.setWidth 128)).setWidth bits = shiftSignLane bits count a := by
  have hones : (laneMask bits).setWidth bits = allOnes bits := by
    rw [laneMask_eq hb, narrow_wide hb]
  simp only [psra, topBit_set hpos hb, shiftSignLane]
  by_cases h : bits ≤ count
  · rw [if_pos h, if_pos (show bits ≤ min count bits by omega)]
    split
    · exact hones
    · exact BitVec.setWidth_zero _ _
  · rw [if_neg h, Nat.min_eq_left (by omega), if_neg h]
    apply eq_of_getLsbD_eq
    intro i hi
    have hlogical : ((a.setWidth 128) >>> count).getLsbD i = a.getLsbD (count + i) := by
      rw [getLsbD_ushiftRight, getLsbD_setWidth]
      by_cases hin : count + i < 128
      · simp [hin]
      · simp [hin, getLsbD_of_ge a (count + i) (by omega)]
    rw [BitVec.getLsbD_sshiftRight, getLsbD_setWidth, decide_eq_true hi, Bool.true_and,
      decide_eq_false (show ¬bits ≤ i by omega), Bool.not_false, Bool.true_and]
    -- below the vacated bits both sides read the lane; in them the fill stands for the sign
    by_cases hin : count + i < bits
    · rw [if_pos hin]
      split
      · rw [getLsbD_or, hlogical, getLsbD_fill hb hi, decide_eq_false (by omega), Bool.or_false]
      · exact hlogical
    · rw [if_neg hin]
      have hout : a.getLsbD (count + i) = false := getLsbD_of_ge a _ (by omega)
      cases hsign : a.msb with
      | true =>
        rw [if_pos rfl, getLsbD_or, hlogical, hout, getLsbD_fill hb hi, decide_eq_true (by omega), Bool.false_or]
      | false => rw [if_neg Bool.false_ne_true, hlogical, hout]

/-! ## Narrowing -/

theorem clampInt_eq_saturate {low high x} (h : low ≤ high) (bits) :
    ofInt bits (clampInt low high x) = saturate bits low high x := by
  have hclamp : clampInt low high x = if x < low then low else if high < x then high else x := by
    unfold clampInt
    split
    · omega
    · split <;> omega
  rw [hclamp, saturate]

theorem pack_computes (hb : bits ≤ 128) (hn : 128 / (bits / 2) = 2 * (128 / bits)) {low high} (h : low ≤ high) :
    (packOp bits (saturate (bits / 2) low high)).Computes (packLanes bits low high) := by
  intro left right k (hk : k < 128 / (bits / 2))
  have hfit : 2 * (128 / bits) * (bits / 2) ≤ 128 := by
    rw [← hn]
    exact Nat.div_mul_le_self 128 (bits / 2)
  show lane (bits / 2) (joinLanes (bits / 2) (2 * (128 / bits)) _) k =
    saturate (bits / 2) low high (lane bits _ _).toInt
  rw [lane_joinLanes hfit _ (hn ▸ hk), setWidth_ofInt (by omega), clampInt_eq_saturate h]
  split
  · rw [laneInt_eq hb]; rfl
  · rw [laneInt_eq hb]; rfl

/-! ## Products -/

theorem maddwd_computes : maddwdOp.Computes pmaddwd := by
  intro left right k (hk : k < 4)
  show lane 32 (joinLanes 32 4 _) k = ofInt 32 _ * ofInt 32 _ + ofInt 32 _ * ofInt 32 _
  rw [lane_joinLanes (by decide) _ hk, setWidth_ofInt (by decide), BitVec.ofInt_add, ofInt_mul, ofInt_mul]
  simp only [laneInt_eq (show 16 ≤ 128 by decide)]
  rfl

theorem maddubsw_computes : maddubswOp.Computes pmaddubsw := by
  intro left right k (hk : k < 8)
  show lane 16 (joinLanes 16 8 _) k = saturate 16 (-32768) 32767 _
  rw [lane_joinLanes (by decide) _ hk, setWidth_ofInt (by decide), clampInt_eq_saturate (by decide)]
  simp only [laneInt_eq (show 8 ≤ 128 by decide), laneAt_toNat (show 8 ≤ 128 by decide)]
  rfl

theorem high_half (v : U128) : ((v >>> 16) &&& laneMask 16).setWidth 16 = ofNat 16 (v.toNat / 2 ^ 16) := by
  rw [laneMask, and_low_mask (by decide), BitVec.setWidth_setWidth_of_le _ (by decide), setWidth_eq]
  apply BitVec.eq_of_toNat_eq
  rw [BitVec.toNat_setWidth, BitVec.toNat_ushiftRight, Nat.shiftRight_eq_div_pow, toNat_ofNat]

theorem mulhuw_computes : mulhuwOp.Computes (pmulh false) := by
  intro left right k (hk : k < 8)
  have hl := (lane 16 left k).isLt
  have hr := (lane 16 right k).isLt
  have hlt : (lane 16 left k).toNat * (lane 16 right k).toNat < 2 ^ 16 * 2 ^ 16 := Nat.mul_lt_mul'' hl hr
  show lane 16 (joinLanes 16 8 _) k = ofNat 16 ((lane 16 left k).toNat * (lane 16 right k).toNat / 2 ^ 16)
  rw [lane_joinLanes (by decide) _ hk]
  simp only [Bool.false_eq_true, if_false]
  rw [high_half, BitVec.toNat_mul, laneAt_toNat (by decide), laneAt_toNat (by decide), Nat.mod_eq_of_lt (by omega)]

theorem mulhw_computes : mulhwOp.Computes (pmulh true) := by
  intro left right k (hk : k < 8)
  show lane 16 (joinLanes 16 8 _) k = ofInt 16 ((lane 16 left k).toInt * (lane 16 right k).toInt / 2 ^ 16)
  rw [lane_joinLanes (by decide) _ hk]
  simp only [if_true, laneInt_eq (show 16 ≤ 128 by decide)]
  rw [high_half]
  generalize (lane 16 left k).toInt * (lane 16 right k).toInt = x
  apply BitVec.eq_of_toNat_eq
  rw [toNat_ofNat, toNat_ofInt, toNat_ofInt]
  omega

/-! ## Every instruction of the list -/

/-- The second operand: sixteen bytes of memory, a register, or the immediate of a shift. -/
def secondOperand (i : Instruction) : CpuM U128 :=
  if i.opKind 1 = .immediate8 then return (i.immediate 1).setWidth 128 else vectorSource i 16

instance (i) : Keeps SameRegs (secondOperand i) := by
  unfold secondOperand vectorSource readMemory; infer_instance

def applyPacked (i : Instruction) (f : U128 → U128 → U128) : CpuM Unit := do
  let right ← secondOperand i
  updateRegs fun r => writeXmm (i.opRegister 0) (f (readXmm r (i.opRegister 0)) right) r

def LaneOp.HasForm (op : LaneOp) (i : Instruction) : Prop :=
  i.opKind 1 = .memory ∨ (i.opKind 1 = .register ∧ isXmm (i.opRegister 1)) ∨
    (op.usesCount ∧ i.opKind 1 = .immediate8)

/-- Two pairs of operands with the same source lanes of result lane `k`, and the same count. -/
def LaneOp.AgreeAt (op : LaneOp) (k : Nat) (left right left' right' : U128) : Prop :=
  op.read left right k = op.read left' right' k ∧ op.count right = op.count right'

section

variable (hform : op.HasForm i)
include hform

theorem secondOperand_eq (hcount : op.usesCount = false) :
    secondOperand i = vectorSource i 16 ∧ strictSource i 16 = vectorSource i 16 := by
  have hsource : i.opKind 1 = .memory ∨ (i.opKind 1 = .register ∧ isXmm (i.opRegister 1)) := by
    rcases hform with h | h | ⟨h, -⟩
    · exact Or.inl h
    · exact Or.inr h
    · rw [hcount] at h; cases h
  constructor
  · rw [secondOperand, if_neg]
    rcases hsource with h | ⟨h, -⟩ <;> simp [h]
  · rw [strictSource, if_pos hsource]

theorem applyVector_eq (hcount : op.usesCount = false)
    (f) : applyVector i f = applyPacked i (f ((i.immediate 2).setWidth 8)) := by
  rw [applyVector, applyPacked, (secondOperand_eq hform hcount).1]

theorem applyShift_eq (hxmm : isXmm (i.opRegister 0))
    (f) : applyShift i f = applyPacked i fun left right => f (right.setWidth 64) left := by
  rw [applyShift, applyPacked, shiftCountSource, secondOperand, if_neg (by simp [hxmm])]
  by_cases himm : i.opKind 1 = .immediate8
  · have hwide : ((i.immediate 1).setWidth 128).setWidth 64 = i.immediate 1 := narrow_wide (by decide) _
    rw [if_pos himm, if_pos himm, pure_bind, pure_bind, hwide]
  · have hsource : i.opKind 1 = .memory ∨ (i.opKind 1 = .register ∧ isXmm (i.opRegister 1)) := by
      rcases hform with h | h | h
      · exact Or.inl h
      · exact Or.inr h
      · exact absurd h.2 himm
    rw [if_neg himm, if_neg himm, if_pos hsource, bind_assoc]
    simp only [pure_bind]

theorem packed_eq (hcount : op.usesCount = false)
    (f) (h : ∀ control mask, (packedTable control mask).lookup i.mnemonic = some f) :
    packed i = applyPacked i f := by
  funext c
  rw [packed, applyPacked, (secondOperand_eq hform hcount).1, (secondOperand_eq hform hcount).2]
  simp only [h]
  rfl

end

/-- The mnemonics the handler of the SSE family singles out before its tables. -/
def singledOut : List Mnemonic :=
  [.movaps, .movups, .movapd, .movupd, .movdqa, .movdqu, .movntdq, .movntps, .movntq, .movq, .movd, .movss, .movsd,
   .movlps, .movlpd, .movhps, .movhpd, .movnti, .pinsrw, .pextrw, .pmovmskb, .movmskps, .movmskpd, .ucomisd, .comisd,
   .ucomiss, .comiss, .sqrtsd, .sqrtss, .cmpsd, .cmpss, .cvtsi2sd, .cvtsi2ss, .cvttsd2si, .cvttss2si, .cvtsd2si,
   .cvtss2si, .cvtss2sd, .cvtsd2ss, .cvtps2pd, .cvtdq2pd, .emms, .femms]

theorem sseOp_table (h : i.mnemonic ∉ singledOut) : sseOp i = sseTable i := by
  simp only [singledOut, mem_cons, not_mem_nil, or_false, not_or] at h
  simp only [sseOp, mem_cons, not_mem_nil, h, or_false, if_false]

def routeOfMnemonic (m : Mnemonic) : Option Route := (routes.find? fun row => m ∈ row.2).map (·.1)

theorem routeOf_plain (h : i.mnemonic ∉ [.mov, .movsd, .cmpsd]) : routeOf i = routeOfMnemonic i.mnemonic := by
  simp only [mem_cons, not_mem_nil, or_false, not_or] at h
  simp only [routeOf, h, false_and, or_false, if_false, routeOfMnemonic]

theorem dispatch_sse (hroute : routeOfMnemonic i.mnemonic = some .sse)
    (hplain : i.mnemonic ∉ .mov :: singledOut) : dispatch i = sseTable i := by
  have hout : i.mnemonic ∉ singledOut := fun h => hplain (mem_cons_of_mem _ h)
  have hmoves : i.mnemonic ∉ [.mov, .movsd, .cmpsd] := by
    intro h
    apply hplain
    simp only [mem_cons, not_mem_nil, or_false] at h
    rcases h with h | h | h <;> rw [h] <;> decide
  rw [dispatch_route .sse (by rw [routeOf_plain hmoves, hroute]), handler, sseOp_table hout]

theorem dispatch_vectorLanes (hop : (m, op) ∈ vectorLaneOps)
    (hm : i.mnemonic = m) (hform : op.HasForm i) : ∃ f, op.Computes f ∧ dispatch i = applyPacked i f := by
  have hall : ∀ m ∈ vectorLaneOps.map Prod.fst, routeOfMnemonic m = some .sse ∧ m ∉ .mov :: singledOut := by decide
  have hrow := hall m (mem_map_of_mem hop)
  have htable : op.usesCount = false ∧ ∃ f, vectorTable.lookup m = some f ∧ ∀ control, op.Computes (f control) := by
    simp only [vectorLaneOps, mem_cons, not_mem_nil, or_false, Prod.mk.injEq] at hop
    rcases hop with h | h | h | h | h | h | h | h | h | h | h | h | h <;> obtain ⟨rfl, rfl⟩ := h
    iterate 4 exact ⟨rfl, _, rfl, compare_computes (by decide)⟩
    iterate 8 exact ⟨rfl, _, rfl, interleave_computes (by decide) _⟩
    exact ⟨rfl, _, rfl, fun _ => mull_computes (by decide)⟩
  obtain ⟨hcount, f, hf, hcomputes⟩ := htable
  subst hm
  refine ⟨f ((i.immediate 2).setWidth 8), hcomputes _, ?_⟩
  rw [dispatch_sse hrow.1 hrow.2, sseTable, hf, ← applyVector_eq hform hcount]

theorem dispatch_shiftLanes (hop : (m, op) ∈ shiftLaneOps)
    (hm : i.mnemonic = m) (hxmm : isXmm (i.opRegister 0)) (hform : op.HasForm i) :
    ∃ f, op.Computes f ∧ dispatch i = applyPacked i f := by
  have hall : ∀ m ∈ shiftLaneOps.map Prod.fst, routeOfMnemonic m = some .sse ∧ m ∉ .mov :: singledOut := by decide
  have hrow := hall m (mem_map_of_mem hop)
  have htable : vectorTable.lookup m = none ∧ (registerTable i).lookup m = none ∧ ∃ f, shiftTable.lookup m = some f ∧
      op.Computes fun left right => f (right.setWidth 64) left := by
    simp only [shiftLaneOps, mem_cons, not_mem_nil, or_false, Prod.mk.injEq] at hop
    rcases hop with h | h | h | h | h | h | h | h <;> obtain ⟨rfl, rfl⟩ := h
    iterate 3 exact ⟨rfl, rfl, _, rfl, shift_computes (by decide) (shiftLeft_lane (by decide))⟩
    iterate 3 exact ⟨rfl, rfl, _, rfl, shift_computes (by decide) (shiftRight_lane (by decide))⟩
    iterate 2 exact ⟨rfl, rfl, _, rfl, shift_computes (by decide) (shiftSign_lane (by decide) (by decide))⟩
  obtain ⟨hvector, hregister, f, hf, hcomputes⟩ := htable
  subst hm
  refine ⟨_, hcomputes, ?_⟩
  rw [dispatch_sse hrow.1 hrow.2, sseTable, hvector, hregister, hf, ← applyShift_eq hform hxmm]

theorem sseInteger_packed (hxmm : isXmm (i.opRegister 0))
    (h : i.mnemonic ∉ [.pextrb, .pextrd, .extractps, .pextrq, .pinsrb, .pinsrd, .pinsrq, .ptest, .cvttps2dq]) :
    sseInteger i = packed i := by
  simp only [mem_cons, not_mem_nil, or_false, not_or] at h
  simp only [sseInteger, mem_cons, not_mem_nil, h, or_false, if_false, requireXmm, if_pos hxmm]

theorem dispatch_integerLanes (hop : (m, op) ∈ integerLaneOps)
    (hm : i.mnemonic = m) (hxmm : isXmm (i.opRegister 0)) (hform : op.HasForm i) :
    ∃ f, op.Computes f ∧ dispatch i = applyPacked i f := by
  have hall : ∀ m ∈ integerLaneOps.map Prod.fst, routeOfMnemonic m = some .sseInteger ∧ m ∉ [.mov, .movsd, .cmpsd] ∧
      m ∉ [.pextrb, .pextrd, .extractps, .pextrq, .pinsrb, .pinsrd, .pinsrq, .ptest, .cvttps2dq] := by decide
  have hrow := hall m (mem_map_of_mem hop)
  have htable : op.usesCount = false ∧ ∃ f, (∀ control mask, (packedTable control mask).lookup m = some f) ∧
      op.Computes f := by
    simp only [integerLaneOps, mem_cons, not_mem_nil, or_false, Prod.mk.injEq] at hop
    rcases hop with h | h | h | h | h | h | h | h | h <;> obtain ⟨rfl, rfl⟩ := h
    iterate 4 exact ⟨rfl, _, fun _ _ => rfl, pack_computes (by decide) (by decide) (by decide)⟩
    · exact ⟨rfl, _, fun _ _ => rfl, maddwd_computes⟩
    · exact ⟨rfl, _, fun _ _ => rfl, maddubsw_computes⟩
    · exact ⟨rfl, _, fun _ _ => rfl, mulhuw_computes⟩
    · exact ⟨rfl, _, fun _ _ => rfl, mulhw_computes⟩
    · exact ⟨rfl, _, fun _ _ => rfl, mull_computes (by decide)⟩
  obtain ⟨hcount, f, hf, hcomputes⟩ := htable
  subst hm
  refine ⟨f, hcomputes, ?_⟩
  rw [dispatch_route .sseInteger (by rw [routeOf_plain hrow.2.1, hrow.1]), handler, sseInteger_packed hxmm hrow.2.2,
    packed_eq hform hcount f hf]

theorem dispatch_applies (hop : (m, op) ∈ laneOps) (hm : i.mnemonic = m)
    (hxmm : isXmm (i.opRegister 0)) (hform : op.HasForm i) :
    ∃ f, op.Computes f ∧ dispatch i = applyPacked i f := by
  rcases mem_append.mp hop with hop | hop
  · rcases mem_append.mp hop with hop | hop
    · exact dispatch_vectorLanes hop hm hform
    · exact dispatch_shiftLanes hop hm hxmm hform
  · exact dispatch_integerLanes hop hm hxmm hform

/-- Every lane of the result is the reference's function of its source lanes, and of the count of a shift;
    operands that agree on those give the same lane. -/
theorem packed_lanes_exact {m : Mnemonic} {op : LaneOp} (hop : (m, op) ∈ laneOps) {i : Instruction}
    (hm : i.mnemonic = m) {d : Fin 16} (hd : i.opRegister 0 = .xmm d) (hform : op.HasForm i) {c c' : Cpu} {right : U128}
    {n : Nat} (hread : secondOperand i c = ⟨.ok right, c', n⟩) :
    ∃ value, dispatch i c = ⟨.ok (), { c' with regs := { c.regs with xmm := Function.update c.regs.xmm d value } }, n⟩ ∧
      ∀ k < 128 / op.resultBits, lane op.resultBits value k = op.result (c.regs.xmm d) right k ∧
        ∀ left' right', op.AgreeAt k (c.regs.xmm d) right left' right' →
          op.result left' right' k = op.result (c.regs.xmm d) right k := by
  obtain ⟨f, hf, hrun⟩ := dispatch_applies hop hm (by rw [hd]; rfl) hform
  have hregs : c'.regs = c.regs := Keeps.run (R := SameRegs) hread
  refine ⟨f (c.regs.xmm d) right, ?_, fun k hk => ⟨hf _ _ k hk, fun left' right' h => ?_⟩⟩
  · rw [hrun, applyPacked, Exec.bind_ok hread, hd, ← hregs]
    rfl
  · rw [LaneOp.result, LaneOp.result, h.1, h.2]

def psradXmm1 : Instruction :=
  { Instruction.empty with
    len := 4, mnemonic := .psrad, mnemonicName := "Psrad", codeName := "Psrad_xmm_xmmm128", codeSize := .code64
    operands := [⟨.register, .xmm 0, 0⟩, ⟨.register, .xmm 1, 0⟩], isInvalid := false }

/-- A CPU with a negative and a positive lane in XMM0 and a count of 2^63 in XMM1. -/
def beforeShift : Cpu :=
  let c := holding 0
  { c with regs := { c.regs with xmm := fun k => if k = 0 then 0x7FFFFFFF80000000 else 0x8000000000000000 } }

theorem psrad_leaves_signs : ∃ value, dispatch psradXmm1 beforeShift =
        ⟨.ok (), { beforeShift with
          regs := { beforeShift.regs with xmm := Function.update beforeShift.regs.xmm 0 value } }, 0⟩ ∧
      lane 32 value 0 = allOnes 32 ∧ lane 32 value 1 = 0 := by
  have hop : (Mnemonic.psrad, shiftOp 32 (shiftSignLane 32)) ∈ laneOps := by simp [laneOps, shiftLaneOps]
  have hform : (shiftOp 32 (shiftSignLane 32)).HasForm psradXmm1 := Or.inr (Or.inl ⟨rfl, rfl⟩)
  have hread : secondOperand psradXmm1 beforeShift = ⟨.ok 0x8000000000000000, beforeShift, 0⟩ := rfl
  obtain ⟨value, hrun, hlanes⟩ := packed_lanes_exact hop rfl (d := 0) rfl hform hread
  refine ⟨value, hrun, ?_, ?_⟩
  · refine (hlanes 0 (by decide)).1.trans ?_
    show shiftSignLane 32 0x8000000000000000 (lane 32 (0x7FFFFFFF80000000 : U128) 0) = allOnes 32
    decide
  · refine (hlanes 1 (by decide)).1.trans ?_
    show shiftSignLane 32 0x8000000000000000 (lane 32 (0x7FFFFFFF80000000 : U128) 1) = 0
    decide

end Rish.SoftVm.Ops
