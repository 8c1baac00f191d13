/-
  Rish.SoftVm.Ops.DoubleShift — SHLD and SHRD against shifts of the two operands put together.
-/

import Rish.SoftVm.Ops.Alu

namespace Rish.SoftVm.Ops

open Lib Cpu Nat BitVec

/-! ## What a double shift means -/

variable (left : Bool)

/-- The window of `bits` bits of the two operands put together, the destination on the side it is
    shifted out of. -/
def window (bits count destination source : Nat) : Nat :=
  if left then (destination * 2 ^ bits + source) * 2 ^ count / 2 ^ bits % 2 ^ bits
  else (source * 2 ^ bits + destination) / 2 ^ count % 2 ^ bits

def lastOut (bits count destination : Nat) : Bool :=
  if left then destination.testBit (bits - count) else destination.testBit (count - 1)

def signChanged (bits before after : Nat) : Bool := before.testBit (bits - 1) != after.testBit (bits - 1)

/-- A run that stores the window over registers that differ in their flags, with CF and, for a count of
    one, OF as they are defined. -/
def ShiftsCorrectly (i : Instruction) (count : Nat) (destination source : U64) (c : Cpu) (n : Nat)
    (run : Run Cpu CpuError Unit) : Prop :=
  let bits := operandSize i 0 * 8
  let result := window (i.mnemonic = .shld) bits count (low bits destination) (low bits source)
  ∃ flags, run = (writeOperand0 i (BitVec.ofNat 64 result) { c with regs := { c.regs with rflags := flags } }).after n ∧
    contains flags RFlags.CF = lastOut (i.mnemonic = .shld) bits count (low bits destination) ∧
    (count = 1 → contains flags RFlags.OF = signChanged bits (low bits destination) result)

/-- When CF comes out right: a single shift to the left, a single shift to the right of a destination
    whose outer bits agree, and otherwise a carry that was right before. -/
def FlagsRight (bits count destination : Nat) (flags : U64) : Prop :=
  if count = 1 then left = true ∨ destination.testBit (bits - 1) = destination.testBit 0
  else contains flags RFlags.CF = lastOut left bits count destination

instance (bits count destination : Nat) (flags : U64) : Decidable (FlagsRight left bits count destination flags) :=
  inferInstanceAs (Decidable (if count = 1 then _ else _))

/-! ## The result -/

section

variable {bits count : Nat} {destination source : U64} (h64 : bits ≤ 64) (hc : count < bits)

theorem window_lt (left d s) : window left bits count d s < 2 ^ bits := by
  unfold window
  split <;> exact mod_lt _ (Nat.two_pow_pos _)

include hc

theorem window_testBit (left) {d s j} (hd : d < 2 ^ bits) (hs : s < 2 ^ bits) (hj : j < bits) :
    (window left bits count d s).testBit j =
      if left then (if j < count then s.testBit (bits - count + j) else d.testBit (j - count))
      else (if j + count < bits then d.testBit (j + count) else s.testBit (j + count - bits)) := by
  cases left with
  | true =>
    simp only [window, if_true]
    rw [testBit_mod_two_pow, decide_eq_true hj, Bool.true_and, testBit_div_two_pow, testBit_mul_two_pow,
      decide_eq_true (by omega), Bool.true_and, Nat.mul_comm d, testBit_two_pow_mul_add _ hs]
    by_cases h : j < count
    · rw [if_pos (by omega), if_pos h]
      congr 1
      omega
    · rw [if_neg (by omega), if_neg h]
      congr 1
      omega
  | false =>
    simp only [window, Bool.false_eq_true, if_false]
    rw [testBit_mod_two_pow, decide_eq_true hj, Bool.true_and, testBit_div_two_pow, Nat.mul_comm s,
      testBit_two_pow_mul_add _ hd]

include h64

theorem shldResult_toNat (left) : (shldResult left destination source bits count).toNat =
      window left bits count (low bits destination) (low bits source) := by
  rw [shldResult, and_bitsMask_toNat h64, low]
  apply eq_of_testBit_eq
  intro j
  rw [testBit_mod_two_pow]
  by_cases hj : j < bits
  · have hbeyond {v k : Nat} (hv : v < 2 ^ bits) (hk : bits ≤ k) : v.testBit k = false :=
      testBit_lt_two_pow (Nat.lt_of_lt_of_le hv (Nat.pow_le_pow_right (by decide) hk))
    rw [window_testBit hc left (low_lt _ _) (low_lt _ _) hj, decide_eq_true hj, Bool.true_and, testBit_toNat]
    cases left with
    | true =>
      simp only [if_true, getLsbD_or, getLsbD_shiftLeft, getLsbD_ushiftRight,
        getLsbD_and_bitsMask h64, decide_eq_true (show j < 64 by omega), Bool.true_and]
      by_cases h : j < count
      · simp [h]
      · rw [hbeyond (low_lt bits source) (show bits ≤ bits - count + j by omega)]
        simp [h]
    | false =>
      simp only [Bool.false_eq_true, if_false, getLsbD_or, getLsbD_shiftLeft,
        getLsbD_ushiftRight, getLsbD_and_bitsMask h64, decide_eq_true (show j < 64 by omega), Bool.true_and]
      by_cases h : j + count < bits
      · rw [decide_eq_true (show j < bits - count by omega), if_pos h, Nat.add_comm count j]
        simp
      · rw [decide_eq_false (show ¬j < bits - count by omega), if_neg h,
          hbeyond (low_lt bits destination) (show bits ≤ count + j by omega),
          show j - (bits - count) = j + count - bits by omega]
        simp
  · rw [testBit_lt_two_pow (Nat.lt_of_lt_of_le (window_lt left _ _) (Nat.pow_le_pow_right (by decide) (by omega))),
      decide_eq_false hj, Bool.false_and]

end

/-! ## The flags -/

theorem shiftRight_and_one (v : U64) (k : Nat) : (v >>> k &&& 1 != 0) = v.getLsbD k := by
  rw [show (1 : U64) = 1#64 <<< 0 from rfl, and_one_shiftLeft_ne_zero _ (by decide), getLsbD_ushiftRight,
    Nat.add_zero]

section

variable {bits : Nat} {destination : U64} (h0 : 0 < bits) (h64 : bits ≤ 64)
  (hd : destination.toNat < 2 ^ bits) (r : Registers)

theorem shldFlags_regs (result count) : shldFlags destination result bits count r =
    { r with rflags := (shldFlags destination result bits count r).rflags } := by
  unfold shldFlags
  split <;> rfl

include h0 h64 hd

theorem and_signBit_low : (destination &&& signBit bits != 0) = (low bits destination).testBit (bits - 1) := by
  rw [and_signBit h64 h0, low_of_lt hd]
  rfl

theorem shldFlags_carry (result count) :
    contains (shldFlags destination result bits count r).rflags RFlags.CF =
      if count = 1 then (low bits destination).testBit (bits - 1) else contains r.rflags RFlags.CF := by
  unfold shldFlags
  split
  · simp (disch := decide) only [setOverflow, setCarry, setSzp, withFlag, contains_setFlag_of_ne, contains_setFlag_self,
      and_signBit_low h0 h64 hd]
  · simp (disch := decide) only [setSzp, withFlag, contains_setFlag_of_ne]

theorem shldFlags_overflow (result : U64) {count : Nat} (hcount : count = 1) :
    contains (shldFlags destination result bits count r).rflags RFlags.OF =
      signChanged bits (low bits destination) result.toNat := by
  simp (disch := decide) only [shldFlags, hcount, if_true, setOverflow, withFlag, contains_setFlag_self,
    and_signBit_low h0 h64 hd, shiftRight_and_one]
  rfl

end

/-! ## The instructions -/

theorem shldCount_lt (i r) {bits} (h : 0 < bits) (h64 : bits ≤ 64) :
    shldCount i r bits < bits := by
  have hle : shldCount i r bits ≤ (BitVec.ofNat 64 (bits - 1)).toNat := by
    rw [shldCount, toNat_and]
    exact and_le_right
  rw [toNat_ofNat, mod_eq_of_lt (by omega)] at hle
  omega

/-- A double shift that has read its destination, with a masked count from one on, stores the window and
    sets CF and OF as they are defined exactly in the cases of `FlagsRight`. -/
theorem doubleShift_correct_iff (i : Instruction) (hm : i.mnemonic = .shld ∨ i.mnemonic = .shrd) (c c1 : Cpu)
    (destination : U64) (n : Nat) (hread : readOperand0 i c = ⟨.ok destination, c1, n⟩)
    (hcount : shldCount i c1.regs (operandSize i 0 * 8) ≠ 0) :
    ShiftsCorrectly i (shldCount i c1.regs (operandSize i 0 * 8)) destination
        (readRegister c1.regs (i.opRegister 1) (operandSize i 0)) c1 n (dispatch i c) ↔
      FlagsRight (i.mnemonic = .shld) (operandSize i 0 * 8) (shldCount i c1.regs (operandSize i 0 * 8))
        (low (operandSize i 0 * 8) destination) c1.regs.rflags := by
  obtain ⟨hs, hd⟩ := readOperand0_lt hread
  obtain ⟨h8, h64⟩ := bits_of_width hs
  rw [pow_bits] at hd
  have hlt := shldCount_lt i c1.regs (show 0 < operandSize i 0 * 8 by omega) h64
  have hroute : routeOf i = some .extra := by
    rcases hm with hm | hm <;> (simp only [routeOf, hm]; rfl)
  have hextra : extraOp i = shldShrd i := by
    rcases hm with hm | hm <;> (simp only [extraOp, hm]; rfl)
  generalize hk : shldCount i c1.regs (operandSize i 0 * 8) = count at *
  generalize hsrc : readRegister c1.regs (i.opRegister 1) (operandSize i 0) = source
  generalize hresult : shldResult (i.mnemonic = .shld) destination source (operandSize i 0 * 8) count = result
  have hwindow : result.toNat = window (i.mnemonic = .shld) (operandSize i 0 * 8) count
      (low (operandSize i 0 * 8) destination) (low (operandSize i 0 * 8) source) := by
    rw [← hresult]
    exact shldResult_toNat h64 hlt _
  have hrun : dispatch i c = (writeOperand0 i result { c1 with
      regs := shldFlags destination result (operandSize i 0 * 8) count c1.regs }).after n := by
    rw [dispatch_route _ hroute, handler, hextra, shldShrd, Exec.bind_ok hread]
    simp only [get_bind, hk, hsrc, hresult, if_neg hcount, finishShld]
    exact congrArg (Run.after n) (Exec.update_bind _ _ c1)
  have hword : BitVec.ofNat 64 (window (i.mnemonic = .shld) (operandSize i 0 * 8) count
      (low (operandSize i 0 * 8) destination) (low (operandSize i 0 * 8) source)) = result := by
    rw [← hwindow, ofNat_toNat, setWidth_eq]
  have hcf := shldFlags_carry (by omega) h64 hd c1.regs result count
  -- the interpreter's carry is the defined one exactly in the cases listed
  have hright : contains (shldFlags destination result (operandSize i 0 * 8) count c1.regs).rflags RFlags.CF =
      lastOut (i.mnemonic = .shld) (operandSize i 0 * 8) count (low (operandSize i 0 * 8) destination) ↔
      FlagsRight (i.mnemonic = .shld) (operandSize i 0 * 8) count (low (operandSize i 0 * 8) destination)
        c1.regs.rflags := by
    rw [hcf, FlagsRight]
    by_cases h1 : count = 1
    · rw [if_pos h1, if_pos h1, lastOut, h1]
      rcases hm with hm | hm <;> simp [hm]
    · rw [if_neg h1, if_neg h1]
  rw [ShiftsCorrectly, hword, hrun, ← hright]
  constructor
  · rintro ⟨flags, hsame, hcarry, -⟩
    have hflags (u : Cpu) : (writeOperand0 i result u).state.regs.rflags = u.regs.rflags :=
      Keeps.keeps (R := SameFlags) u
    have h := congrArg (fun run => run.state.regs.rflags) hsame
    simp only [Run.after_state, hflags] at h
    rw [h, hcarry]
  · intro hcarry
    refine ⟨(shldFlags destination result (operandSize i 0 * 8) count c1.regs).rflags, ?_, hcarry, ?_⟩
    · rw [← shldFlags_regs]
    · intro h1
      rw [← hwindow]
      exact shldFlags_overflow (by omega) h64 hd c1.regs result h1

def shrdEbx (count : U64) : Instruction :=
  { Instruction.empty with
    len := 4, mnemonic := .shrd, mnemonicName := "Shrd", codeName := "Shrd_rm32_r32_imm8", codeSize := .code64
    operands := [⟨.register, .dword index.RBX, 0⟩, ⟨.register, .dword index.RCX, 0⟩, ⟨.immediate8, .none, count⟩]
    isInvalid := false }

/-- Both outer bits of the destination are set, so the wrong one is as good. -/
theorem shrd_of_equal_ends :
    ShiftsCorrectly (shrdEbx 1) 1 0x80000001 0 (holding 0x80000001) 0 (dispatch (shrdEbx 1) (holding 0x80000001)) :=
  (doubleShift_correct_iff (shrdEbx 1) (.inr rfl) (holding 0x80000001) (holding 0x80000001) 0x80000001 0 rfl
    (by decide)).mpr (by decide)

/-- The bit shifted out is one, and CF comes out clear. -/
theorem shrd_of_one_loses_carry :
    contains (dispatch (shrdEbx 1) (holding 1)).state.regs.rflags RFlags.CF = false ∧ lastOut false 32 1 1 = true := by
  decide +kernel

end Rish.SoftVm.Ops
