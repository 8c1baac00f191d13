/-
  Rish.SoftVm.Ops.Multiplication — MUL and IMUL against multiplication of integers.

  `Multiply.meaning` multiplies the operands as numbers of their width. The one-operand forms store the
  product at twice the width in AX or in the accumulator pair, the others its low half; CF and OF tell
  that the high half is more than the extension of the low one.

  Proved: the 128-bit product of the interpreter (`fullProduct_toNat`), its overflow test by shifts
  (`productOverflow_eq`, `truncated_lost`), and that every form runs as its meaning
  (`multiplication_meaning`).
-/

import Rish.SoftVm.Ops.Frame

namespace Rish.SoftVm.Ops

open Lib Cpu Int BitVec
open BitVec (ofNat ofInt)

/-! ## What a multiplication means -/

namespace Multiply

variable (bits : Nat) (product : Int)

/-- The pattern of a product at twice the width. -/
def double : Nat := (product % 2 ^ (2 * bits)).toNat

def highHalf : Nat := double bits product / 2 ^ bits

def lowHalf : Nat := double bits product % 2 ^ bits

/-- The high half that extends a low half, with zeros or with its sign. -/
def extension (signed : Bool) (bits low : Nat) : Nat := if signed ∧ 2 ^ (bits - 1) ≤ low then 2 ^ bits - 1 else 0

/-- What CF and OF report. -/
def lost (signed : Bool) (bits : Nat) (product : Int) : Bool :=
  highHalf bits product ≠ extension signed bits (lowHalf bits product)

/-- AX, or the low half in the accumulator and the high half in the data register. -/
def store (size : Nat) (product : Int) (r : Registers) : Registers :=
  if size = 1 then writeRegister r (.word index.RAX) 2 (ofNat 64 (double 8 product))
  else writeHalves size (ofNat 64 (lowHalf (size * 8) product)) (ofNat 64 (highHalf (size * 8) product)) r

variable (i : Instruction)

def oneOperand (signed : Bool) : CpuM Unit := do
  let size := operandSize i 0
  let multiplicand ← readOperand0 i
  updateRegs fun r =>
    let product := intValue signed (size * 8) (r.gpr index.RAX).toNat * intValue signed (size * 8) multiplicand.toNat
    store size product (setOverflow (setCarry r (lost signed (size * 8) product)) (lost signed (size * 8) product))

/-- Destination by source, or source by immediate. -/
def factors : CpuM (U64 × U64) :=
  if i.opCount = 2 then do
    let left ← readOperand0 i
    let right ← readOperand1 i
    return (left, right)
  else do
    let left ← readOperand1 i
    return (left, i.immediate 2)

def twoThree : CpuM Unit := do
  let bits := operandSize i 0 * 8
  let factors ← factors i
  let product := intValue true bits factors.1.toNat * intValue true bits factors.2.toNat
  updateRegs fun r => setOverflow (setCarry r (lost true bits product)) (lost true bits product)
  writeOperand0 i (ofNat 64 (lowHalf bits product))

def meaning : CpuM Unit :=
  if i.mnemonic = .mul then oneOperand i false
  else if i.opCount = 1 then oneOperand i true
  else twoThree i

end Multiply

/-! ## The product -/

theorem double_lt (size product) : Multiply.double (size * 8) product < 2 ^ (2 * (size * 8)) := by
  have hpos : (0 : Int) < ((2 ^ (2 * (size * 8)) : Nat) : Int) := by positivity
  have hlt := emod_lt_of_pos product hpos
  have hcast : ((2 ^ (2 * (size * 8)) : Nat) : Int) = 2 ^ (2 * (size * 8)) := by push_cast; rfl
  rw [Multiply.double, ← hcast]
  omega

section

variable {size : Nat} (hs : operandWidth size)

include hs

theorem signExtend_toInt (v) : (signExtend v size).toInt = intValue true (size * 8) v.toNat := by
  obtain ⟨h8, h64⟩ := bits_of_width hs
  rw [signExtend, toInt_shift_pair _ (by omega), show 64 - (64 - size * 8) = size * 8 by omega]

theorem wideMask (product) :
    (product &&& (BitVec.allOnes 128 >>> (128 - size * 8 * 2))).toNat = product.toNat % 2 ^ (2 * (size * 8)) := by
  obtain ⟨h8, h64⟩ := bits_of_width hs
  have hmask : (BitVec.allOnes 128 >>> (128 - size * 8 * 2)).toNat = 2 ^ (2 * (size * 8)) - 1 := by
    rcases width_cases hs with rfl | rfl | rfl | rfl <;> decide
  rw [toNat_and, hmask, Nat.and_two_pow_sub_one_eq_mod]

theorem fullProduct_toNat (signed) {a b} (ha : a.toNat < 2 ^ (size * 8)) (hb : b.toNat < 2 ^ (size * 8)) :
    (fullProduct a b size signed).toNat =
      Multiply.double (size * 8) (intValue signed (size * 8) a.toNat * intValue signed (size * 8) b.toNat) := by
  obtain ⟨h8, h64⟩ := bits_of_width hs
  have hdvd : (2 : Int) ^ (2 * (size * 8)) ∣ 2 ^ 128 := pow_dvd_pow 2 (by omega)
  apply ofNat_inj.mp
  rw [fullProduct, wideMask hs, Multiply.double, toNat_of_nonneg (emod_nonneg _ (by omega))]
  push_cast
  cases signed with
  | false =>
    have hprod : ((a.setWidth 128 * b.setWidth 128 : U128).toNat : Int) = (a.toNat * b.toNat : Int) % 2 ^ 128 := by
      rw [BitVec.toNat_mul, setWidth_toNat_of_le _ (by decide), setWidth_toNat_of_le _ (by decide)]
      push_cast
      rfl
    rw [if_neg (by decide), hprod, emod_emod_of_dvd _ hdvd]
    simp only [intValue, Bool.false_eq_true, if_false, Nat.mod_eq_of_lt ha, Nat.mod_eq_of_lt hb]
  | true =>
    have hnat (v : U128) : (v.toNat : Int) = v.toInt % ((2 ^ 128 : Nat) : Int) := by
      have hlt := v.isLt
      rw [toInt_eq_toNat_bmod, bmod_emod, emod_eq_of_lt (by omega) (by omega)]
    have hext (v : U64) : (v.signExtend 128).toInt = v.toInt := toInt_signExtend_of_le (by decide)
    rw [if_pos rfl, hnat, toInt_mul, hext, hext, signExtend_toInt hs, signExtend_toInt hs,
      bmod_emod, emod_emod_of_dvd _ (by exact_mod_cast hdvd)]

theorem low_sshiftRight (v : U64) (k : Nat) :
    (low (size * 8) (v.sshiftRight k) : Int) = v.toInt / 2 ^ k % 2 ^ (size * 8) := by
  obtain ⟨h8, h64⟩ := bits_of_width hs
  have hdvd : (2 : Int) ^ (size * 8) ∣ ((2 ^ 64 : Nat) : Int) := by exact_mod_cast pow_dvd_pow 2 h64
  have hmod : ((v.sshiftRight k).toNat : Int) % 2 ^ (size * 8) = (v.sshiftRight k).toInt % 2 ^ (size * 8) := by
    rw [toInt_eq_toNat_bmod, ← emod_emod_of_dvd (Int.bmod _ _) hdvd, bmod_emod,
      emod_emod_of_dvd _ hdvd]
  rw [low]
  push_cast
  rw [hmod, toInt_sshiftRight, shiftRight_eq_div_pow]
  push_cast
  rfl

theorem productOverflow_eq (signed : Bool) {product : U128} {p : Int}
    (h : product.toNat = Multiply.double (size * 8) p) :
    productOverflow product size signed = Multiply.lost signed (size * 8) p := by
  have hlt := double_lt size p
  have hhigh : ((product >>> (size * 8)).setWidth 64 : U64).toNat = product.toNat / 2 ^ (size * 8) % 2 ^ 64 := by
    rw [toNat_setWidth, toNat_ushiftRight, Nat.shiftRight_eq_div_pow]
  have hlow : ((product.setWidth 64 : U64)).toNat = product.toNat % 2 ^ 64 := toNat_setWidth ..
  obtain ⟨h8, h64⟩ := bits_of_width hs
  cases signed with
  | false =>
    rw [productOverflow, if_neg (by decide), Multiply.lost, Bool.eq_iff_iff, bne_iff_ne, ne_eq, ← toNat_inj, hhigh]
    simp only [Multiply.highHalf, ← h, Multiply.extension, Bool.false_eq_true, false_and, if_false, decide_eq_true_eq,
      ne_eq] at hlt ⊢
    replace hs := width_cases hs
    rw [show BitVec.toNat (0 : U64) = 0 from rfl]
    rcases hs with rfl | rfl | rfl | rfl <;> omega
  | true =>
    have hshift := low_sshiftRight hs (product.setWidth 64) (size * 8 - 1)
    rw [toInt_eq_toNat_cond, hlow] at hshift
    rw [productOverflow, if_pos rfl, Multiply.lost, Bool.eq_iff_iff, bne_iff_ne, ne_eq, ← toNat_inj,
      and_bitsMask_toNat h64, and_bitsMask_toNat h64]
    generalize low (size * 8) ((product.setWidth 64).sshiftRight (size * 8 - 1)) = shifted at *
    simp only [low, hhigh, Multiply.highHalf, Multiply.lowHalf, ← h, Multiply.extension, true_and, decide_eq_true_eq,
      ne_eq] at hlt ⊢
    generalize product.toNat = d at *
    rcases width_cases hs with rfl | rfl | rfl | rfl <;> split <;> split at hshift <;> omega

theorem product_bounds {a b} (ha : fits true (size * 8) a) (hb : fits true (size * 8) b) :
    -2 ^ (2 * (size * 8) - 1) ≤ a * b ∧ a * b < 2 ^ (2 * (size * 8) - 1) := by
  obtain ⟨h8, h64⟩ := bits_of_width hs
  simp only [fits, if_true] at ha hb
  have habs : |a * b| ≤ 2 ^ (size * 8 - 1) * 2 ^ (size * 8 - 1) := by
    rw [abs_mul]
    exact mul_le_mul (abs_le.mpr ⟨ha.1, by omega⟩) (abs_le.mpr ⟨hb.1, by omega⟩) (abs_nonneg b) (by positivity)
  have hpow : (2 : Int) ^ (2 * (size * 8) - 1) = 2 * (2 ^ (size * 8 - 1) * 2 ^ (size * 8 - 1)) := by
    rw [← pow_add, ← pow_succ']
    congr 1
    omega
  have hpos : (0 : Int) < 2 ^ (size * 8 - 1) * 2 ^ (size * 8 - 1) := by positivity
  obtain ⟨h1, h2⟩ := abs_le.mp habs
  omega

theorem truncated_toNat (p) :
    (ofInt 64 p &&& bitsMask (size * 8)).toNat = Multiply.lowHalf (size * 8) p := by
  obtain ⟨h8, h64⟩ := bits_of_width hs
  have hdvd : (2 : Int) ^ (size * 8) ∣ ((2 ^ 64 : Nat) : Int) := by exact_mod_cast pow_dvd_pow 2 h64
  have hdvd' : (2 : Int) ^ (size * 8) ∣ 2 ^ (2 * (size * 8)) := pow_dvd_pow 2 (by omega)
  have hpos : (0 : Int) < 2 ^ (2 * (size * 8)) := by positivity
  rw [and_bitsMask_toNat h64, low, Multiply.lowHalf, Multiply.double, toNat_ofInt]
  apply ofNat_inj.mp
  push_cast
  rw [toNat_of_nonneg (emod_nonneg _ (by decide)), toNat_of_nonneg (emod_nonneg _ (by omega)),
    emod_emod_of_dvd _ (by exact_mod_cast hdvd), emod_emod_of_dvd _ hdvd']

theorem truncated_lost {a b} (ha : fits true (size * 8) a) (hb : fits true (size * 8) b) :
    ((signExtend (ofInt 64 (a * b) &&& bitsMask (size * 8)) size).toInt != a * b) =
      Multiply.lost true (size * 8) (a * b) := by
  obtain ⟨h8, h64⟩ := bits_of_width hs
  obtain ⟨hmin, hmax⟩ := product_bounds hs ha hb
  have hlt : Multiply.lowHalf (size * 8) (a * b) < 2 ^ (size * 8) := Nat.mod_lt _ (Nat.two_pow_pos _)
  have hsplit := two_pow_split (show 0 < size * 8 by omega)
  rw [signExtend_toInt hs, truncated_toNat hs, intValue_signed (by omega) hlt, Multiply.lost, Bool.eq_iff_iff]
  simp only [bne_iff_ne, ne_eq, decide_eq_true_eq, Multiply.extension, true_and]
  generalize a * b = p at *
  by_cases hneg : Multiply.lowHalf (size * 8) p < 2 ^ (size * 8 - 1)
  · rw [if_pos hneg, if_neg (by omega)]
    simp only [Multiply.highHalf, Multiply.lowHalf, Multiply.double] at hneg ⊢
    rcases width_cases hs with rfl | rfl | rfl | rfl <;> omega
  · rw [if_neg hneg, if_pos (by omega)]
    simp only [Multiply.highHalf, Multiply.lowHalf, Multiply.double] at hneg ⊢
    rcases width_cases hs with rfl | rfl | rfl | rfl <;> omega

end

/-! ## The instructions -/

variable {size : Nat}

theorem writeRegister_congr {register} (hs : operandWidth size)
    (hr : registerSize register ≤ size) (r) {v w} (h : low (size * 8) v = low (size * 8) w) :
    writeRegister r register size v = writeRegister r register size w := by
  rw [← writeRegister_low hs hr, h, writeRegister_low hs hr]

theorem low_ofNat {bits n} (hb : bits ≤ 64) : low bits (ofNat 64 n) = n % 2 ^ bits := by
  rw [low, toNat_ofNat, Nat.mod_mod_of_dvd _ (Nat.pow_dvd_pow 2 hb)]

theorem writeProduct_eq (hs : operandWidth size) {product p}
    (h : product.toNat = Multiply.double (size * 8) p) (r) :
    writeProduct size product r = Multiply.store size p r := by
  have hlow {bits : Nat} (hb : bits ≤ 64) : low bits (product.setWidth 64) = product.toNat % 2 ^ bits := by
    rw [low, toNat_setWidth, Nat.mod_mod_of_dvd _ (Nat.pow_dvd_pow 2 hb)]
  have hhigh : low (size * 8) ((product >>> (size * 8)).setWidth 64) =
      low (size * 8) (ofNat 64 (Multiply.highHalf (size * 8) p)) := by
    obtain ⟨h8, h64⟩ := bits_of_width hs
    rw [low_ofNat h64, low, toNat_setWidth, toNat_ushiftRight, Nat.shiftRight_eq_div_pow,
      Nat.mod_mod_of_dvd _ (Nat.pow_dvd_pow 2 h64), h]
    rfl
  have hhalf : low (size * 8) (product.setWidth 64) = low (size * 8) (ofNat 64 (Multiply.lowHalf (size * 8) p)) := by
    obtain ⟨h8, h64⟩ := bits_of_width hs
    rw [low_ofNat h64, hlow h64, h, Multiply.lowHalf, Nat.mod_mod]
  unfold writeProduct Multiply.store
  by_cases h1 : size = 1
  · subst h1
    rw [if_pos rfl, if_pos rfl]
    apply writeRegister_congr (by decide) (by decide)
    rw [hlow (by decide), low_ofNat (by decide), h]
  · rw [if_neg h1, if_neg h1]
    rcases width_cases hs with rfl | rfl | rfl | rfl
    · exact absurd rfl h1
    all_goals
      simp only [writeHalves]
      rw [writeRegister_congr (by decide) (by decide) _ hhigh, writeRegister_congr (by decide) (by decide) _ hhalf]

theorem readAccumulator_toNat (r) (hs : operandWidth size) :
    (readAccumulator r size).toNat = low (size * 8) (r.gpr index.RAX) := by
  have h := lowBytes_toNat hs (r.gpr index.RAX)
  rw [pow_bits] at h
  rcases width_cases hs with rfl | rfl | rfl | rfl <;> exact h

variable (i : Instruction)

theorem mul_meaning (signed) : mul i signed = Multiply.oneOperand i signed := by
  funext c
  apply Exec.bind_congr_ok
  intro multiplicand t n hread
  obtain ⟨hs, hlt⟩ := readOperand0_lt hread
  rw [pow_bits] at hlt
  have hproduct (r : Registers) := fullProduct_toNat hs signed (a := readAccumulator r (operandSize i 0))
    (by rw [readAccumulator_toNat r hs]; exact low_lt _ _) hlt
  simp only [readAccumulator_toNat _ hs, low, intValue_mod] at hproduct
  simp only [productOverflow_eq hs signed (hproduct _), writeProduct_eq hs (hproduct _)]

theorem imulFactors_eq (hreg : i.opKind 0 = .register) : imulFactors i = Multiply.factors i := by
  unfold imulFactors Multiply.factors
  by_cases h2 : i.opCount = 2
  · rw [if_pos h2, if_pos h2]
  · rw [if_neg h2, if_neg h2]
    split
    · rename_i h
      obtain ⟨-, hkind, hsame⟩ := h
      have hread : readOperand0 i = readOperand1 i := by
        simp only [readOperand0, readOperand1, operandSize, hreg, hkind, hsame, reduceCtorEq, if_false, if_true]
      rw [hread]
    · rfl

theorem imulTwoThree_meaning (hreg : i.opKind 0 = .register) : imulTwoThree i = Multiply.twoThree i := by
  have hs : operandWidth (operandSize i 0) := by
    rw [operandSize, if_pos hreg]
    exact registerSize_width _
  obtain ⟨h8, h64⟩ := bits_of_width hs
  have hfits (v : U64) : fits true (operandSize i 0 * 8) (intValue true (operandSize i 0 * 8) v.toNat) :=
    intValue_bounds (by omega) true v.toNat
  have hlost (v w : U64) := truncated_lost hs (hfits v) (hfits w)
  have hword (p : Int) : ofInt 64 p &&& bitsMask (operandSize i 0 * 8) =
      ofNat 64 (Multiply.lowHalf (operandSize i 0 * 8) p) := by
    rw [← truncated_toNat hs, BitVec.ofNat_toNat, setWidth_eq]
  unfold imulTwoThree Multiply.twoThree
  rw [imulFactors_eq i hreg]
  simp only [signExtend_toInt hs (Prod.fst _), signExtend_toInt hs (Prod.snd _)]
  simp only [hlost]
  simp only [hword]

/-- Every multiplication stores the product and reports the high half that is more than an extension of
    the low one. The forms with more than one operand have a register as destination. -/
theorem multiplication_meaning (i : Instruction) (hm : i.mnemonic = .mul ∨ i.mnemonic = .imul)
    (hreg : i.mnemonic = .imul → i.opCount ≠ 1 → i.opKind 0 = .register) : dispatch i = Multiply.meaning i := by
  have hroute : routeOf i = some .mulDiv := by
    rcases hm with hm | hm <;> (simp only [routeOf, hm]; rfl)
  have hdispatch : dispatch i = mulDiv i := by
    rw [dispatch, hroute]
    rfl
  rw [hdispatch, mulDiv, Multiply.meaning]
  rcases hm with hm | hm
  · rw [if_pos hm, if_pos hm, mul_meaning]
  · have hne : i.mnemonic ≠ .mul := by simp [hm]
    rw [if_neg hne, if_neg hne, if_pos hm]
    by_cases h1 : i.opCount = 1
    · rw [if_pos h1, if_pos h1, mul_meaning]
    · rw [if_neg h1, if_neg h1, imulTwoThree_meaning i (hreg hm h1)]

def imulBl : Instruction :=
  { Instruction.empty with
    len := 2, mnemonic := .imul, mnemonicName := "Imul", codeName := "Imul_rm8", codeSize := .code64
    operands := [⟨.register, .low8 index.RBX, 0⟩], isInvalid := false }

def multiplying (rax rbx : U64) : Cpu :=
  let c := Cpu.new Memory.withLapic 0 0 false
  { c with regs := (c.regs.setGpr index.RAX rax).setGpr index.RBX rbx }

/-- Minus 128 by minus one is 128, whose pattern in AX is not the extension of a byte. -/
theorem imul_min_by_minus_one :
    (dispatch imulBl (multiplying 0x80 0xFF)).state.regs.gpr index.RAX = 0x80 ∧
      contains (dispatch imulBl (multiplying 0x80 0xFF)).state.regs.rflags RFlags.OF = true := by
  rw [multiplication_meaning imulBl (.inr rfl) (by decide)]
  decide +kernel

end Rish.SoftVm.Ops
