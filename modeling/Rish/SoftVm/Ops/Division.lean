/-
  Rish.SoftVm.Ops.Division — DIV and IDIV against division of integers.

  `checkedDivision` says what a division is for: the quotient truncated toward zero with its
  remainder, and the divide exception where there is no quotient or it has no room.
-/

import Rish.SoftVm.Dispatch
import Rish.SoftVm.Ops.Values

namespace Rish.SoftVm

open Lib
open BitVec (ofInt)

namespace Ops

open Cpu

/-! ## The arithmetic -/

/-- The dividend pair as a number: AX, or the high and the low half. -/
def dividendNat (r : Registers) (size : Nat) : Nat :=
  if size = 1 then (r.gpr index.RAX).toNat % 256 ^ 2
  else (r.gpr index.RDX).toNat % 256 ^ size * 256 ^ size + (r.gpr index.RAX).toNat % 256 ^ size

def dividendValue (signed : Bool) (size : Nat) (r : Registers) : Int := intValue signed (16 * size) (dividendNat r size)

def divisorValue (signed : Bool) (size : Nat) (divisor : U64) : Int := intValue signed (8 * size) divisor.toNat

variable {divisor : U64} {signed : Bool} {size : Nat} (r : Registers)

theorem dividendOf_toNat (hs : operandWidth size) : (dividendOf r size).toNat = dividendNat r size := by
  rcases width_cases hs with rfl | rfl | rfl | rfl
  · exact (setWidth_toNat_of_le _ (by decide)).trans (lowBytes_toNat (rfl : operandWidth 2) _)
  · have hh := lowBytes_toNat (rfl : operandWidth 2) (r.gpr index.RDX)
    have hl := lowBytes_toNat (rfl : operandWidth 2) (r.gpr index.RAX)
    refine (setWidth_toNat_of_le _ (by decide)).trans ((halves_toNat ?_ ?_).trans ?_)
    · exact hl ▸ Nat.mod_lt _ (by decide)
    · exact hh ▸ by omega
    · exact congrArg₂ (fun a b => a * 256 ^ 2 + b) hh hl
  · have hh := lowBytes_toNat (rfl : operandWidth 4) (r.gpr index.RDX)
    have hl := lowBytes_toNat (rfl : operandWidth 4) (r.gpr index.RAX)
    refine (setWidth_toNat_of_le _ (by decide)).trans ((halves_toNat ?_ ?_).trans ?_)
    · exact hl ▸ Nat.mod_lt _ (by decide)
    · exact hh ▸ by omega
    · exact congrArg₂ (fun a b => a * 256 ^ 4 + b) hh hl
  · have hh : ((r.gpr index.RDX).setWidth 128).toNat = (r.gpr index.RDX).toNat := setWidth_toNat_of_le _ (by decide)
    have hl : ((r.gpr index.RAX).setWidth 128).toNat = (r.gpr index.RAX).toNat := setWidth_toNat_of_le _ (by decide)
    have hd := (r.gpr index.RDX).isLt
    have ha := (r.gpr index.RAX).isLt
    refine (halves_toNat (hl ▸ ha) (hh ▸ by omega)).trans ?_
    rw [show (readRegister r (.qword index.RDX) 8).setWidth 128 = (r.gpr index.RDX).setWidth 128 from rfl, hh,
      show (readRegister r (.qword index.RAX) 8).setWidth 128 = (r.gpr index.RAX).setWidth 128 from rfl, hl]
    simp only [dividendNat, if_neg (by decide : ¬8 = 1)]
    rw [Nat.mod_eq_of_lt (by omega), Nat.mod_eq_of_lt (by omega), show 256 ^ 8 = 2 ^ 64 from rfl]

theorem dividendNat_lt (hs : operandWidth size) : dividendNat r size < 2 ^ (16 * size) := by
  have hh := Nat.mod_lt (r.gpr index.RDX).toNat (Nat.pow_pos (n := size) (by decide : 0 < 256))
  have hl := Nat.mod_lt (r.gpr index.RAX).toNat (Nat.pow_pos (n := size) (by decide : 0 < 256))
  replace hs := width_cases hs
  unfold dividendNat
  rcases hs with rfl | rfl | rfl | rfl
  · exact Nat.mod_lt _ (by decide)
  all_goals simp only [if_neg, Nat.reduceEqDiff, not_false_eq_true]; omega

theorem intValue_of_lt {bits v} (h : v < 2 ^ bits) : intValue false bits v = v := by
  simp [intValue, Nat.mod_eq_of_lt h]

theorem divisorValue_eq_zero (hd : divisor.toNat < 256 ^ size) :
    divisorValue signed size divisor = 0 ↔ divisor = 0 := by
  have hpow : 256 ^ size = 2 ^ (8 * size) := by rw [show 256 = 2 ^ 8 from rfl, ← pow_mul]
  rw [hpow] at hd
  constructor
  · intro h
    cases signed with
    | false =>
      rw [divisorValue, intValue_of_lt hd] at h
      exact BitVec.eq_of_toNat_eq (by simpa using h)
    | true =>
      have hmod := Int.bmod_emod (x := divisor.toNat) (m := 2 ^ (8 * size))
      rw [show Int.bmod divisor.toNat (2 ^ (8 * size)) = 0 from h, Int.zero_emod, ← Int.natCast_emod,
        Nat.mod_eq_of_lt hd] at hmod
      exact BitVec.eq_of_toNat_eq (by simpa using hmod.symm)
  · rintro rfl
    cases signed <;> simp [divisorValue, intValue]

/-- The one dividend and divisor whose quotient the host's 128-bit integers do not have. -/
def Unrepresentable (signed : Bool) (size : Nat) (dividend divisor : Int) : Prop :=
  signed = true ∧ size = 8 ∧ dividend = -2 ^ 127 ∧ divisor = -1

instance (signed : Bool) (size : Nat) (dividend divisor : Int) :
    Decidable (Unrepresentable signed size dividend divisor) :=
  inferInstanceAs (Decidable (_ ∧ _))

def words (result : Int × Int) : U64 × U64 := (ofInt 64 result.1, ofInt 64 result.2)

theorem unsignedQuotient_eq (hs : operandWidth size) (hd : divisor.toNat < 256 ^ size) (h0 : divisor ≠ 0) :
    unsignedQuotient (dividendOf r size) divisor size =
      (checkedDivision false (8 * size) (dividendValue false size r) (divisorValue false size divisor)).map words := by
  have hpow : 256 ^ size = 2 ^ (8 * size) := by rw [show 256 = 2 ^ 8 from rfl, ← pow_mul]
  have hN : dividendValue false size r = ((dividendOf r size).toNat : Int) := by
    rw [dividendValue, intValue_of_lt (dividendNat_lt r hs), dividendOf_toNat r hs]
  have hD : divisorValue false size divisor = (divisor.toNat : Int) := intValue_of_lt (hpow ▸ hd)
  have hD0 : (divisor.toNat : Int) ≠ 0 := by
    rw [← hD, ne_eq, divisorValue_eq_zero hd]
    exact h0
  have hmask : ((bitsMask (size * 8)).setWidth 128).toNat = 2 ^ (8 * size) - 1 := by
    rcases width_cases hs with rfl | rfl | rfl | rfl <;> decide
  have hq : (dividendOf r size / divisor.setWidth 128).toNat = (dividendOf r size).toNat / divisor.toNat := by
    rw [BitVec.toNat_udiv, setWidth_toNat_of_le _ (by decide)]
  have hr : (dividendOf r size % divisor.setWidth 128).toNat = (dividendOf r size).toNat % divisor.toNat := by
    rw [BitVec.toNat_umod, setWidth_toNat_of_le _ (by decide)]
  have hbig : dividendOf r size / divisor.setWidth 128 > (bitsMask (size * 8)).setWidth 128 ↔
      ¬fits false (8 * size) (((dividendOf r size).toNat : Int).tdiv divisor.toNat) := by
    rw [gt_iff_lt, BitVec.lt_def, hq, hmask, ← Int.ofNat_tdiv]
    have hp := Nat.two_pow_pos (8 * size)
    have hc : ((2 ^ (8 * size) : Nat) : Int) = 2 ^ (8 * size) := by push_cast; rfl
    simp only [fits, Bool.false_eq_true, if_false, ← hc]
    omega
  unfold unsignedQuotient checkedDivision
  simp only [hbig, hN, hD, hD0, ne_eq, not_false_eq_true, true_and]
  split
  · simp [*]
  · rename_i hfit
    rw [not_not] at hfit
    rw [if_pos hfit]
    simp only [Option.map_some, words, ← Int.ofNat_tdiv, ← Int.ofNat_tmod, BitVec.ofInt_natCast, ← hq, ← hr,
      BitVec.ofNat_toNat]

theorem signedQuotient_eq (hs : operandWidth size) (hd : divisor.toNat < 256 ^ size) (h0 : divisor ≠ 0) :
    signedQuotient (dividendOf r size) divisor size =
      if Unrepresentable true size (dividendValue true size r) (divisorValue true size divisor) then .panic
      else .ok ((checkedDivision true (8 * size) (dividendValue true size r)
        (divisorValue true size divisor)).map words) := by
  have hsize : 0 < size ∧ size ≤ 8 := by
    have := width_cases hs
    omega
  have hN : (signExtend128 (dividendOf r size) (size * 16)).toInt = dividendValue true size r := by
    rw [signExtend128, toInt_shift_pair _ (by omega), dividendOf_toNat r hs, dividendValue,
      show 128 - (128 - size * 16) = 16 * size by omega]
  have hD : (signExtend divisor size).toInt = divisorValue true size divisor := by
    rw [signExtend, toInt_shift_pair _ (by omega), divisorValue, show 64 - (64 - size * 8) = 8 * size by omega]
  have hD0 : divisorValue true size divisor ≠ 0 := by
    rw [ne_eq, divisorValue_eq_zero hd]
    exact h0
  -- a dividend of fewer than 128 bits is above the least 128-bit number
  have hsize8 : dividendValue true size r = -2 ^ 127 → size = 8 := by
    intro h
    have hb := intValue_bounds (by omega : 0 < 16 * size) true (dividendNat r size)
    rw [show intValue true (16 * size) (dividendNat r size) = -2 ^ 127 from h] at hb
    rcases width_cases hs with rfl | rfl | rfl | rfl
    · exact absurd hb (by decide)
    · exact absurd hb (by decide)
    · exact absurd hb (by decide)
    · rfl
  have hpanic : (divisorValue true size divisor = 0 ∨
      (dividendValue true size r = -2 ^ 127 ∧ divisorValue true size divisor = -1)) ↔
      Unrepresentable true size (dividendValue true size r) (divisorValue true size divisor) := by
    simp only [hD0, false_or, Unrepresentable, true_and]
    exact ⟨fun h => ⟨hsize8 h.1, h⟩, fun h => h.2⟩
  simp only [signedQuotient, hN, hD, i128Div, hpanic]
  split
  · rfl
  · simp only [Outcome.bind_ok, checkedDivision, hD0, ne_eq, not_false_eq_true, true_and, Nat.mul_comm size 8]
    by_cases hfit : fits true (8 * size) ((dividendValue true size r).tdiv (divisorValue true size divisor))
    · rw [if_pos hfit, if_neg (by simp only [fits, if_true] at hfit; omega)]
      rfl
    · rw [if_neg hfit, if_pos (by simp only [fits, if_true] at hfit; omega)]
      rfl

theorem divide_eq (signed r) (hs : operandWidth size) (hd : divisor.toNat < 256 ^ size) :
    divide signed (dividendOf r size) divisor size =
      if Unrepresentable signed size (dividendValue signed size r) (divisorValue signed size divisor) then .panic
      else .ok ((checkedDivision signed (8 * size) (dividendValue signed size r)
        (divisorValue signed size divisor)).map words) := by
  by_cases h0 : divisor = 0
  · have hz : divisorValue signed size divisor = 0 := (divisorValue_eq_zero hd).mpr h0
    rw [divide, if_pos h0, if_neg (by simp [Unrepresentable, hz])]
    simp [checkedDivision, hz]
  · rw [divide, if_neg h0]
    cases signed with
    | false => simp [Unrepresentable, unsignedQuotient_eq r hs hd h0]
    | true => simpa using signedQuotient_eq r hs hd h0

/-! ## The stores -/

/-- The registers hold a quotient and a remainder: AL and AH, or the accumulator and the data
    register; nothing else changed. -/
structure Stores (signed : Bool) (size : Nat) (quotient remainder : Int) (r r' : Registers) : Prop where
  quotient : intValue signed (8 * size) (r'.gpr index.RAX).toNat = quotient
  remainder : intValue signed (8 * size)
    (if size = 1 then (r'.gpr index.RAX).toNat / 256 else (r'.gpr index.RDX).toNat) = remainder
  others : ∀ k, k ≠ index.RAX → k ≠ index.RDX → r'.gpr k = r.gpr k
  rest : r' = { r with gpr := r'.gpr }

theorem intValue_congr {bits v w} (h : v % 2 ^ bits = w % 2 ^ bits) :
    intValue signed bits v = intValue signed bits w := by
  rw [← intValue_mod, h, intValue_mod]

theorem writeQuotient_stores {q rem} (r) (hs : operandWidth size)
    (hq : fits signed (8 * size) q) (hr : fits signed (8 * size) rem) :
    Stores signed size q rem r (writeQuotient size (ofInt 64 q) (ofInt 64 rem) r) := by
  have hne : index.RAX ≠ index.RDX := by decide
  have hsize : 0 < size ∧ size ≤ 8 := by
    have := width_cases hs
    omega
  have hq64 := intValue_ofInt (w := 64) (by omega) (by omega) hq
  have hr64 := intValue_ofInt (w := 64) (by omega) (by omega) hr
  generalize ofInt 64 q = qw at hq64
  generalize ofInt 64 rem = rw at hr64
  have hpatch (old v : U64) := mod_of_setWidth (patchLow_setWidth hs old v)
  rcases width_cases hs with rfl | rfl | rfl | rfl
  · have hrax : (writeQuotient 1 qw rw r).gpr index.RAX =
        (patchLow (r.gpr index.RAX) 1 qw &&& ~~~0xFF00#64) ||| ((rw &&& 0xFF) <<< 8) := by
      simp [writeQuotient, writeRegister, registerIndex, Registers.setGpr, index.RAX]
    refine ⟨?_, ?_, ?_, rfl⟩
    · rw [hrax]
      exact (intValue_congr ((mod_of_setWidth (highByte_low _ _)).trans (hpatch _ _))).trans hq64
    · rw [hrax, if_pos rfl, show 256 = 2 ^ 8 from rfl, ← Nat.shiftRight_eq_div_pow, ← BitVec.toNat_ushiftRight]
      exact (intValue_congr (mod_of_setWidth (highByte_high _ _))).trans hr64
    · intro k hk _
      have hk0 : k ≠ 0 := hk
      simp [writeQuotient, writeRegister, registerIndex, Registers.setGpr, index.RAX, hk0]
  all_goals
    refine ⟨?_, ?_, ?_, rfl⟩
    · refine (intValue_congr (Eq.trans ?_ (hpatch (r.gpr index.RAX) qw))).trans hq64
      simp [writeQuotient, writeHalves, writeRegister, registerIndex, Registers.setGpr, Function.update_of_ne hne]
    · rw [if_neg (by decide)]
      refine (intValue_congr (Eq.trans ?_ (hpatch (r.gpr index.RDX) rw))).trans hr64
      simp [writeQuotient, writeHalves, writeRegister, registerIndex, Registers.setGpr, Function.update_of_ne hne.symm]
    · intro k hk hk'
      simp [writeQuotient, writeHalves, writeRegister, registerIndex, Registers.setGpr, hk, hk']

theorem checkedDivision_fits {bits n d q rem} (hd : fits signed bits d)
    (hn : signed = false → 0 ≤ n) (h : checkedDivision signed bits n d = some (q, rem)) :
    fits signed bits q ∧ fits signed bits rem := by
  unfold checkedDivision at h
  split at h
  · rename_i hc
    cases h
    refine ⟨hc.2, ?_⟩
    have hlt : (n.tmod d).natAbs < d.natAbs := by
      rw [Int.natAbs_tmod]
      exact Nat.mod_lt _ (Int.natAbs_pos.mpr hc.1)
    cases signed with
    | false =>
      have := Int.tmod_nonneg d (hn rfl)
      simp only [fits, Bool.false_eq_true, if_false] at hd ⊢
      omega
    | true =>
      simp only [fits, if_true] at hd ⊢
      omega
  · cases h

/-! ## The instructions -/

/-- What a run of DIV or IDIV is to do whose divisor took `n` accesses to read and left the machine
    in `c`. -/
structure DividesCorrectly (signed : Bool) (size : Nat) (divisor : U64) (c : Cpu) (n : Nat)
    (run : Run Cpu CpuError Unit) :
    Prop where
  /-- the host's arithmetic does not abort -/
  returns : divide signed (dividendOf c.regs size) divisor size ≠ .panic
  raises : checkedDivision signed (8 * size) (dividendValue signed size c.regs)
    (divisorValue signed size divisor) = none →
    run = (raise VECTOR_DIVIDE 0 false c).after n
  stores : ∀ quotient remainder,
    checkedDivision signed (8 * size) (dividendValue signed size c.regs) (divisorValue signed size divisor) =
      some (quotient, remainder) →
    ∃ r', run = ⟨.ok (), { c with regs := r' }, n⟩ ∧ Stores signed size quotient remainder c.regs r'

variable (i : Instruction)

/-- The division proper, after the divisor was read. -/
def divideBy (signed : Bool) (divisor : U64) : CpuM Unit := do
  let c ← get
  let result ← Exec.lift (divide signed (dividendOf c.regs (operandSize i 0)) divisor (operandSize i 0))
  finishDivide (operandSize i 0) result

theorem dividendValue_nonneg (size r) : 0 ≤ dividendValue false size r := by
  simp only [dividendValue, intValue, Bool.false_eq_true, if_false]
  exact Int.natCast_nonneg _

theorem divideBy_correct_iff (signed c n)
    (hs : operandWidth (operandSize i 0)) (hd : divisor.toNat < 256 ^ operandSize i 0) :
    DividesCorrectly signed (operandSize i 0) divisor c n ((divideBy i signed divisor c).after n) ↔
      ¬Unrepresentable signed (operandSize i 0) (dividendValue signed (operandSize i 0) c.regs)
        (divisorValue signed (operandSize i 0) divisor) := by
  have hdiv := divide_eq signed c.regs hs hd
  constructor
  · intro h hu
    exact h.returns (hdiv.trans (if_pos hu))
  · intro hu
    rw [if_neg hu] at hdiv
    refine ⟨by rw [hdiv]; nofun, fun hnone => ?_, fun q rem hsome => ?_⟩
    · rw [divideBy, get_bind, hdiv, hnone, Exec.lift_ok_bind]
      rfl
    · have hsize : 0 < operandSize i 0 := by
        have := width_cases hs
        omega
      obtain ⟨hq, hr⟩ := checkedDivision_fits (intValue_bounds (by omega) signed _)
        (fun hsigned => hsigned ▸ dividendValue_nonneg _ _) hsome
      refine ⟨_, ?_, writeQuotient_stores c.regs hs hq hr⟩
      rw [divideBy, get_bind, hdiv, hsome, Exec.lift_ok_bind]
      rfl

theorem dispatch_divide (signed) (hm : i.mnemonic = if signed then .idiv else .div) :
    dispatch i = readOperand0 i >>= divideBy i signed := by
  have hroute : routeOf i = some .mulDiv := by
    unfold routeOf
    cases signed <;> simp only [hm, Bool.false_eq_true, if_false, if_true] <;> rfl
  rw [dispatch, hroute]
  cases signed <;> simp only [handlerOr, handler, mulDiv, hm, Bool.false_eq_true, if_false, if_true] <;> rfl

/-- An instruction that has read its divisor is correct exactly when dividend and divisor are not the
    least 128-bit number and minus one. -/
theorem divide_correct_iff (i : Instruction) (signed : Bool) (hm : i.mnemonic = if signed then .idiv else .div)
    (c c1 : Cpu) (divisor : U64) (n : Nat) (h : readOperand0 i c = ⟨.ok divisor, c1, n⟩) :
    DividesCorrectly signed (operandSize i 0) divisor c1 n (dispatch i c) ↔
      ¬Unrepresentable signed (operandSize i 0) (dividendValue signed (operandSize i 0) c1.regs)
        (divisorValue signed (operandSize i 0) divisor) := by
  obtain ⟨hs, hd⟩ := readOperand0_lt h
  rw [dispatch_divide i signed hm, Exec.bind_ok h]
  exact divideBy_correct_iff i signed c1 n hs hd

def idivRbx : Instruction :=
  { Instruction.empty with
    len := 3, mnemonic := .idiv, mnemonicName := "Idiv", codeName := "Idiv_rm64", codeSize := .code64
    operands := [⟨.register, .qword index.RBX, 0⟩], isInvalid := false }

def dividing (rdx rax rbx : U64) : Cpu :=
  let c := Cpu.new Memory.withLapic 0 0 false
  { c with regs := ((c.regs.setGpr index.RDX rdx).setGpr index.RAX rax).setGpr index.RBX rbx }

/-- Seven by minus two is minus three, remainder one. -/
theorem idiv_seven_by_minus_two :
    DividesCorrectly true 8 (-2) (dividing 0 7 (-2)) 0 (dispatch idivRbx (dividing 0 7 (-2))) :=
  (divide_correct_iff idivRbx true rfl (dividing 0 7 (-2)) (dividing 0 7 (-2)) (-2) 0 rfl).mpr (by decide)

/-- The least 128-bit number divided by minus one aborts the host. -/
theorem idiv_min_by_minus_one_panics : (dispatch idivRbx (dividing 0x8000000000000000 0 (-1))).outcome = .panic := by
  have hdiv : divide true (dividendOf (dividing 0x8000000000000000 0 (-1)).regs 8) (-1) 8 = .panic := by decide
  have hread : readOperand0 idivRbx (dividing 0x8000000000000000 0 (-1)) =
      ⟨.ok (-1), dividing 0x8000000000000000 0 (-1), 0⟩ := rfl
  have hsize : operandSize idivRbx 0 = 8 := rfl
  rw [dispatch_divide idivRbx true rfl, Exec.bind_ok hread, divideBy, get_bind, hsize, hdiv, Exec.lift_panic_bind]
  rfl

end Ops

end Rish.SoftVm
