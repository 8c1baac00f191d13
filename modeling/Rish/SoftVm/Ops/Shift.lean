/-
  Rish.SoftVm.Ops.Shift — shifts and rotates against single-bit steps.

  `Shift.step` is one step of each instruction. The interpreter uses closed forms with counts at or
  beyond the width, and the period of a rotate through the carry.
-/

import Rish.Lib.Shifts
import Rish.SoftVm.Ops.BitCount
import Rish.SoftVm.Ops.DoubleShift

namespace Rish.SoftVm.Ops

open Lib Cpu
open Function (iterate_succ_apply')
open BitVec (getLsbD_shiftLeft getLsbD_ushiftRight getLsbD_or ofNat)
open Lib.Shift (eq_of_bits half_lt left_iterate_lt pull_testBit push_eq push_testBit rcl_period rcr_period
  right_iterate_lt right_left_carry rol_bits ror_bits rotate_index sar_bits shl_bits shr_bits)

/-! ## What the instructions mean -/

namespace Shift

variable (mnemonic : Mnemonic) (bits : Nat)

def fill (s : Nat × Bool) : Bool :=
  if mnemonic = .rcl ∨ mnemonic = .rcr then s.2
  else if mnemonic = .rol ∨ mnemonic = .sar then s.1.testBit (bits - 1)
  else if mnemonic = .ror then s.1.testBit 0
  else false

/-- One step on the operand and the carry. -/
def step : Nat × Bool → Nat × Bool :=
  if mnemonic = .shl ∨ mnemonic = .rol ∨ mnemonic = .rcl then Lib.Shift.left bits (fill mnemonic bits)
  else Lib.Shift.right bits (fill mnemonic bits)

/-- OF of a single step: whether the sign changed for a step to the left, the sign that was shifted away
    for SHR, and whether the two highest bits of the result differ for a rotate to the right. -/
def overflow (bits before : Nat) (after : Nat × Bool) : Bool :=
  if mnemonic = .shl ∨ mnemonic = .rol ∨ mnemonic = .rcl then after.1.testBit (bits - 1) != after.2
  else if mnemonic = .sar then false
  else if mnemonic = .shr then before.testBit (bits - 1)
  else after.1.testBit (bits - 1) != after.1.testBit (bits - 2)

def shifts : List Mnemonic := [.shl, .shr, .sar]

def rotates : List Mnemonic := [.rol, .ror, .rcl, .rcr]

/-- CF and OF, and for a shift SF, ZF and PF of the result. -/
def flags (after : Nat × Bool) (overflow : Bool) (r : Registers) : Registers :=
  let r := setOverflow (setCarry r after.2) overflow
  if mnemonic ∈ rotates then r else storeResult bits ⟨after.1, after.2, overflow, false⟩ r

end Shift

/-! ## The closed forms -/

/-- An outcome that is what a number of steps give, with OF for one step. -/
structure Performs (mnemonic : Mnemonic) (bits count value : Nat) (carryIn : Bool) (o : ShiftOutcome) : Prop where
  result : o.result.toNat = ((Shift.step mnemonic bits)^[count] (value, carryIn)).1
  carry : o.carry = ((Shift.step mnemonic bits)^[count] (value, carryIn)).2
  overflow : count = 1 →
    o.overflow = Shift.overflow mnemonic bits value ((Shift.step mnemonic bits)^[count] (value, carryIn))
  szp : o.affectsSignZeroParity = decide (mnemonic ∉ Shift.rotates)

/-- What a rotate by less than the width gives. -/
def rotated (v : U64) (k bits : Nat) (left : Bool) : U64 :=
  if k = 0 then v else if left then ((v <<< k) ||| (v >>> (bits - k))) &&& bitsMask bits
  else ((v >>> k) ||| (v <<< (bits - k))) &&& bitsMask bits

def throughCarry (bits : Nat) (left : Bool) : Nat × Bool → Nat × Bool :=
  if left then Lib.Shift.left bits Prod.snd else Lib.Shift.right bits Prod.snd

theorem bitAt_eq (v k) : bitAt v k = v.toNat.testBit k := shiftRight_and_one v k

section

variable {bits : Nat} (h8 : 8 ≤ bits) (h64 : bits ≤ 64) {v : U64} (hv : v.toNat < 2 ^ bits)

theorem and_one_ne_zero (v : U64) : (v &&& 1 != 0) = v.toNat.testBit 0 := by
  rw [show (1 : U64) = 1#64 <<< 0 from rfl, and_one_shiftLeft_ne_zero _ (by decide)]
  rfl

theorem testBit_beyond {v k} (hv : v < 2 ^ bits) (hk : bits ≤ k) : v.testBit k = false :=
  Nat.testBit_lt_two_pow (Nat.lt_of_lt_of_le hv (Nat.pow_le_pow_right (by decide) hk))

include h8 h64 hv

variable (n : Nat) (c : Bool)

theorem shiftLeft_steps :
    (shiftLeft v (n + 1) bits (bitsMask bits)).1.toNat = ((Lib.Shift.left bits fun _ => false)^[n + 1] (v.toNat, c)).1 ∧
      (shiftLeft v (n + 1) bits (bitsMask bits)).2 = ((Lib.Shift.left bits fun _ => false)^[n + 1] (v.toNat, c)).2 := by
  have hb : 0 < bits := by omega
  have hlt := left_iterate_lt hb (s := (v.toNat, c)) hv (fun _ => false) (n + 1)
  have hcarry : ((Lib.Shift.left bits fun _ => false)^[n + 1] (v.toNat, c)).2 =
      if bits - 1 < n then false else v.toNat.testBit (bits - 1 - n) := by
    rw [iterate_succ_apply']
    exact shl_bits hb n (by omega)
  unfold shiftLeft
  split
  · rename_i hge
    constructor
    · refine (eq_of_bits hlt (Nat.two_pow_pos bits) ?_).symm
      intro j hj
      rw [shl_bits hb (n + 1) hj, if_pos (by omega), Nat.zero_testBit]
    · rw [hcarry, and_one_ne_zero]
      by_cases h : n + 1 = bits
      · rw [if_neg (by omega), show bits - 1 - n = 0 by omega]
        simp [h]
      · rw [if_pos (by omega)]
        simp [h]
  · rename_i hge
    constructor
    · refine eq_of_bits ?_ hlt ?_
      · rw [and_bitsMask_toNat h64]
        exact low_lt _ _
      · intro j hj
        rw [shl_bits hb (n + 1) hj, and_bitsMask_testBit h64 hj, getLsbD_shiftLeft, decide_eq_true (by omega),
          Bool.true_and]
        by_cases h : j < n + 1
        · simp [h]
        · simp only [h, decide_false, Bool.not_false, Bool.true_and, if_false]
          rfl
    · rw [hcarry, if_neg (by omega), and_one_shiftLeft_ne_zero _ (by omega)]
      exact congrArg v.toNat.testBit (by omega)

theorem shiftRight_steps :
    (shiftRight v (n + 1) bits).1.toNat = ((Lib.Shift.right bits fun _ => false)^[n + 1] (v.toNat, c)).1 ∧
      (shiftRight v (n + 1) bits).2 = ((Lib.Shift.right bits fun _ => false)^[n + 1] (v.toNat, c)).2 := by
  have hb : 0 < bits := by omega
  have hlt := right_iterate_lt hb (s := (v.toNat, c)) hv (fun _ => false) (n + 1)
  have hcarry : ((Lib.Shift.right bits fun _ => false)^[n + 1] (v.toNat, c)).2 = v.toNat.testBit n := by
    rw [iterate_succ_apply']
    exact (shr_bits hb (s := (v.toNat, c)) hv n hb).trans (by rw [Nat.zero_add])
  unfold shiftRight
  split
  · rename_i hge
    constructor
    · refine (eq_of_bits hlt (Nat.two_pow_pos bits) ?_).symm
      intro j hj
      rw [shr_bits hb hv (n + 1) hj, Nat.zero_testBit]
      exact testBit_beyond hv (by omega)
    · rw [hcarry, and_signBit h64 hb]
      by_cases h : n + 1 = bits
      · obtain rfl : n = bits - 1 := by omega
        simp only [h, beq_self_eq_true, Bool.true_and]
        rfl
      · rw [testBit_beyond hv (by omega)]
        simp [h]
  · rename_i hge
    constructor
    · refine eq_of_bits ?_ hlt ?_
      · rw [BitVec.toNat_ushiftRight, Nat.shiftRight_eq_div_pow]
        exact Nat.lt_of_le_of_lt (Nat.div_le_self _ _) hv
      · intro j hj
        rw [shr_bits hb hv (n + 1) hj, BitVec.testBit_toNat, getLsbD_ushiftRight, Nat.add_comm j]
        rfl
    · rw [hcarry, and_one_shiftLeft_ne_zero _ (by omega), Nat.add_sub_cancel]
      rfl

theorem shiftArithmetic_steps : (shiftArithmetic v (n + 1) bits (bitsMask bits)).1.toNat =
        ((Lib.Shift.right bits fun s => s.1.testBit (bits - 1))^[n + 1] (v.toNat, c)).1 ∧
      (shiftArithmetic v (n + 1) bits (bitsMask bits)).2 =
        ((Lib.Shift.right bits fun s => s.1.testBit (bits - 1))^[n + 1] (v.toNat, c)).2 := by
  have hb : 0 < bits := by omega
  have hlt := right_iterate_lt hb (s := (v.toNat, c)) hv (fun s => s.1.testBit (bits - 1)) (n + 1)
  have hcarry : ((Lib.Shift.right bits fun s => s.1.testBit (bits - 1))^[n + 1] (v.toNat, c)).2 =
      v.toNat.testBit (min n (bits - 1)) := by
    rw [iterate_succ_apply']
    exact (sar_bits hb (s := (v.toNat, c)) hv n hb).trans (by rw [Nat.zero_add])
  have hneg : (v &&& signBit bits != 0) = v.toNat.testBit (bits - 1) := and_signBit h64 hb v
  have hsteps (j : Nat) (hj : j < bits) := sar_bits hb (s := (v.toNat, c)) hv (n + 1) hj
  unfold shiftArithmetic
  simp only [hneg]
  constructor
  · by_cases hge : bits ≤ n + 1
    · -- only copies of the sign are left
      rw [if_pos hge]
      refine eq_of_bits ?_ hlt ?_
      · split
        · rw [bitsMask_toNat h64]
          exact Nat.sub_lt (Nat.two_pow_pos _) (by decide)
        · exact Nat.two_pow_pos bits
      · intro j hj
        rw [hsteps j hj, Nat.min_eq_right (by omega)]
        cases hsign : v.toNat.testBit (bits - 1) with
        | false => exact Nat.zero_testBit j
        | true =>
          rw [if_pos rfl, bitsMask_toNat h64, Nat.testBit_two_pow_sub_one, decide_eq_true hj]
    · rw [if_neg hge]
      cases hsign : v.toNat.testBit (bits - 1) with
      | false =>
        refine eq_of_bits ?_ hlt ?_
        · rw [if_neg (by decide), BitVec.toNat_ushiftRight, Nat.shiftRight_eq_div_pow]
          exact Nat.lt_of_le_of_lt (Nat.div_le_self _ _) hv
        · intro j hj
          rw [hsteps j hj, if_neg (by decide), BitVec.testBit_toNat, getLsbD_ushiftRight]
          by_cases hin : j + (n + 1) < bits
          · rw [Nat.min_eq_left (by omega), Nat.add_comm j]
            rfl
          · rw [Nat.min_eq_right (by omega), hsign]
            exact testBit_beyond hv (by omega)
      | true =>
        refine eq_of_bits ?_ hlt ?_
        · rw [if_pos rfl, and_bitsMask_toNat h64]
          exact low_lt _ _
        · intro j hj
          rw [hsteps j hj, if_pos rfl, and_bitsMask_testBit h64 hj, getLsbD_or, getLsbD_shiftLeft,
            BitVec.getLsbD_allOnes, getLsbD_ushiftRight, decide_eq_true (show j < 64 by omega), Bool.true_and,
            decide_eq_true (show j - (bits - (n + 1)) < 64 by omega), Bool.and_true]
          by_cases hin : j + (n + 1) < bits
          · rw [Nat.min_eq_left (by omega), decide_eq_true (show j < bits - (n + 1) by omega), Nat.add_comm j]
            rfl
          · rw [Nat.min_eq_right (by omega), hsign, decide_eq_false (show ¬j < bits - (n + 1) by omega)]
            rfl
  · rw [hcarry]
    split
    · rw [Nat.min_eq_right (by omega)]
    · rw [Nat.min_eq_left (by omega), and_one_shiftLeft_ne_zero _ (by omega), Nat.add_sub_cancel]
      rfl

theorem rotate_result {k} (hk : k < bits) (left) : ∀ j < bits, (rotated v k bits left).toNat.testBit j =
      v.toNat.testBit ((j + if left then bits - k else k) % bits) := by
  intro j hj
  unfold rotated
  have hj64 : j < 64 := by omega
  by_cases h0 : k = 0
  · rw [if_pos h0, h0]
    cases left <;> simp [Nat.mod_eq_of_lt hj]
  · rw [if_neg h0]
    cases left with
    | true =>
      simp only [if_true]
      rw [and_bitsMask_testBit h64 hj, getLsbD_or, getLsbD_shiftLeft, getLsbD_ushiftRight,
        decide_eq_true hj64, Bool.true_and]
      by_cases h : j < k
      · rw [Nat.mod_eq_of_lt (by omega), decide_eq_true h, Nat.add_comm j]
        rfl
      · rw [show j + (bits - k) = j - k + bits by omega, Nat.add_mod_right, Nat.mod_eq_of_lt (by omega),
          decide_eq_false h, show v.getLsbD (bits - k + j) = false from testBit_beyond hv (by omega)]
        simp only [Bool.not_false, Bool.true_and, Bool.or_false]
        rfl
    | false =>
      simp only [Bool.false_eq_true, if_false]
      rw [and_bitsMask_testBit h64 hj, getLsbD_or, getLsbD_shiftLeft, getLsbD_ushiftRight,
        decide_eq_true hj64, Bool.true_and]
      by_cases h : j + k < bits
      · rw [Nat.mod_eq_of_lt h, decide_eq_true (show j < bits - k by omega), Nat.add_comm j]
        simp only [Bool.not_true, Bool.false_and, Bool.or_false]
        rfl
      · rw [show j + k = j + k - bits + bits by omega, Nat.add_mod_right, Nat.mod_eq_of_lt (by omega),
          decide_eq_false (show ¬j < bits - k by omega),
            show v.getLsbD (k + j) = false from testBit_beyond hv (by omega),
          show j - (bits - k) = j + k - bits by omega]
        simp only [Bool.not_false, Bool.true_and, Bool.false_or]
        rfl

omit h8 in
theorem rotate_lt {k} (left) : (rotated v k bits left).toNat < 2 ^ bits := by
  unfold rotated
  split
  · exact hv
  · split <;> (rw [and_bitsMask_toNat h64]; exact low_lt _ _)

theorem rotate_performs (c left : Bool) :
    match rotate v n bits (bitsMask bits) left with
    | none => n ≠ 1 ∧ (Shift.step (if left then .rol else .ror) bits)^[n] (v.toNat, c) = (v.toNat, c)
    | some o => n ≠ 0 ∧ Performs (if left then .rol else .ror) bits n v.toNat c o := by
  have hb : 0 < bits := by omega
  cases n with
  | zero => exact ⟨by decide, rfl⟩
  | succ n =>
  have hk : (n + 1) % bits < bits := Nat.mod_lt _ hb
  generalize hresult : rotated v ((n + 1) % bits) bits left = result
  have hbits := rotate_result h8 h64 hv hk left
  have hlt := rotate_lt h64 hv (k := (n + 1) % bits) left
  rw [hresult] at hbits hlt
  rw [rotated] at hresult
  rw [rotate, if_neg (by omega)]
  refine ⟨by omega, ?_⟩
  simp only [hresult]
  cases left with
  | true =>
    have hstep : Shift.step (if true then .rol else .ror) bits = Lib.Shift.left bits fun s =>
        s.1.testBit (bits - 1) := by
      rfl
    have hvalue : result.toNat = ((Lib.Shift.left bits fun s => s.1.testBit (bits - 1))^[n + 1] (v.toNat, c)).1 := by
      refine eq_of_bits hlt (left_iterate_lt hb (s := (v.toNat, c)) hv _ _) ?_
      intro j hj
      rw [hbits j hj, rol_bits hb (s := (v.toNat, c)) hv (n + 1) hj, if_pos rfl, rotate_index hb]
    have hcarry : ((Lib.Shift.left bits fun s => s.1.testBit (bits - 1))^[n + 1] (v.toNat, c)).2 =
        result.toNat.testBit 0 := by
      rw [hvalue, iterate_succ_apply']
      simp only [Lib.Shift.left]
      rw [push_testBit hb _ hb, if_pos rfl]
    refine ⟨?_, ?_, ?_, rfl⟩
    · rw [hstep]
      exact hvalue
    · rw [hstep, hcarry]
      exact and_one_ne_zero result
    · intro h1
      rw [hstep, Shift.overflow, hcarry, ← hvalue]
      simp only [h1, beq_self_eq_true, Bool.true_and, if_true, true_or, or_true, bitAt_eq, and_one_ne_zero]
  | false =>
    have hstep : Shift.step (if false then .rol else .ror) bits = Lib.Shift.right bits fun s => s.1.testBit 0 := by
      rfl
    have hvalue : result.toNat = ((Lib.Shift.right bits fun s => s.1.testBit 0)^[n + 1] (v.toNat, c)).1 := by
      refine eq_of_bits hlt (right_iterate_lt hb (s := (v.toNat, c)) hv _ _) ?_
      intro j hj
      rw [hbits j hj, ror_bits hb (s := (v.toNat, c)) hv (n + 1) hj, if_neg (by decide), Nat.add_mod_mod,
        Nat.mul_one]
    have hcarry : ((Lib.Shift.right bits fun s => s.1.testBit 0)^[n + 1] (v.toNat, c)).2 =
        result.toNat.testBit (bits - 1) := by
      rw [hvalue, iterate_succ_apply']
      simp only [Lib.Shift.right]
      rw [pull_testBit hb (right_iterate_lt hb (s := (v.toNat, c)) hv _ _) _ (by omega), if_pos rfl]
    refine ⟨?_, ?_, ?_, rfl⟩
    · rw [hstep]
      exact hvalue
    · rw [hstep, hcarry]
      exact bitAt_eq result (bits - 1)
    · intro h1
      rw [hstep, Shift.overflow, if_neg (by decide), if_neg (by decide), if_neg (by decide), ← hvalue]
      simp [h1, bitAt_eq]

theorem rotateCarryStep_steps (left : Bool) (c : Bool) :
    ((rotateCarryStep bits (bitsMask bits) left (v, c)).1.toNat, (rotateCarryStep bits (bitsMask bits) left (v, c)).2) =
      throughCarry bits left (v.toNat, c) := by
  have hb : 0 < bits := by omega
  have hbit : (if c then 1 else 0 : U64).toNat = c.toNat := by cases c <;> rfl
  have hc := Bool.toNat_le c
  cases left with
  | true =>
    refine Prod.ext ?_ (bitAt_eq v (bits - 1))
    have hlow : low bits (v <<< 1) = (v.toNat % 2 ^ (bits - 1)) <<< 1 := by
      rw [low, BitVec.toNat_shiftLeft, Nat.mod_mod_of_dvd _ (Nat.pow_dvd_pow 2 h64), Nat.shiftLeft_eq, Nat.shiftLeft_eq,
        two_pow_split hb, Nat.pow_one, Nat.mul_comm v.toNat, Nat.mul_mod_mul_left, Nat.mul_comm]
    have hor := Nat.shiftLeft_add_eq_or_of_lt (show c.toNat < 2 ^ 1 by omega) (v.toNat % 2 ^ (bits - 1))
    simp only [rotateCarryStep, throughCarry, if_true, Lib.Shift.left]
    rw [BitVec.toNat_or, and_bitsMask_toNat h64, hlow, hbit, ← hor, push_eq hb, Nat.shiftLeft_eq, Nat.pow_one,
      Nat.mul_comm]
  | false =>
    refine Prod.ext ?_ (and_one_ne_zero v)
    have hfill : ((if c then 1 else 0 : U64) <<< (bits - 1)).toNat = c.toNat <<< (bits - 1) := by
      have hpow : 2 ^ (bits - 1) < 2 ^ 64 := Nat.pow_lt_pow_right (by decide) (by omega)
      rw [BitVec.toNat_shiftLeft, hbit, Nat.mod_eq_of_lt]
      rw [Nat.shiftLeft_eq]
      cases c <;> simp only [Bool.toNat_true, Bool.toNat_false] <;> omega
    have hor := Nat.shiftLeft_add_eq_or_of_lt (half_lt hb hv) c.toNat
    simp only [rotateCarryStep, throughCarry, Bool.false_eq_true, if_false, Lib.Shift.right]
    rw [BitVec.toNat_or, hfill, BitVec.toNat_ushiftRight, Nat.shiftRight_eq_div_pow, Nat.pow_one, Nat.or_comm, ← hor,
      Lib.Shift.pull, Nat.shiftLeft_eq, Nat.add_comm]

omit h64 in
theorem throughCarry_lt (left c n) :
    ((throughCarry bits left)^[n] (v.toNat, c)).1 < 2 ^ bits := by
  cases left with
  | true => exact left_iterate_lt (by omega) (s := (v.toNat, c)) hv _ n
  | false => exact right_iterate_lt (by omega) (s := (v.toNat, c)) hv _ n

theorem rotateCarry_iterate (left c n) :
    (((rotateCarryStep bits (bitsMask bits) left)^[n] (v, c)).1.toNat,
        ((rotateCarryStep bits (bitsMask bits) left)^[n] (v, c)).2) =
      (throughCarry bits left)^[n] (v.toNat, c) := by
  induction n with
  | zero => rfl
  | succ n ih =>
    rw [iterate_succ_apply', iterate_succ_apply', ← ih]
    have hlt := throughCarry_lt h8 hv left c n
    rw [← ih] at hlt
    exact rotateCarryStep_steps h8 h64 hlt left _

omit h64 in
theorem throughCarry_mod (left c n) :
    (throughCarry bits left)^[n] (v.toNat, c) = (throughCarry bits left)^[n % (bits + 1)] (v.toNat, c) := by
  have hb : 0 < bits := by omega
  have hturn : (throughCarry bits left)^[bits + 1] (v.toNat, c) = (v.toNat, c) := by
    cases left with
    | true => exact rcl_period hb (s := (v.toNat, c)) hv
    | false => exact rcr_period hb (s := (v.toNat, c)) hv
  have hn := Nat.mod_add_div n (bits + 1)
  generalize n % (bits + 1) = k at *
  rw [← hn, Function.iterate_add_apply, Function.iterate_mul, Function.iterate_fixed hturn]

theorem rotateThroughCarry_performs (c left) :
    match rotateThroughCarry v n bits (bitsMask bits) c left with
    | none => n ≠ 1 ∧ (Shift.step (if left then .rcl else .rcr) bits)^[n] (v.toNat, c) = (v.toNat, c)
    | some o => n ≠ 0 ∧ Performs (if left then .rcl else .rcr) bits n v.toNat c o := by
  have hstep : Shift.step (if left then .rcl else .rcr) bits = throughCarry bits left := by
    cases left <;> rfl
  have hmod := throughCarry_mod h8 hv left c n
  have hiter := rotateCarry_iterate h8 h64 hv left c (n % (bits + 1))
  unfold rotateThroughCarry
  by_cases h0 : n % (bits + 1) = 0
  · rw [if_pos h0]
    refine ⟨?_, ?_⟩
    · rintro rfl
      rw [Nat.mod_eq_of_lt (by omega)] at h0
      cases h0
    · rw [hstep, hmod, h0]
      rfl
  · rw [if_neg h0]
    rw [← hmod] at hiter
    generalize (rotateCarryStep bits (bitsMask bits) left)^[n % (bits + 1)] (v, c) = t at *
    obtain ⟨result, carry⟩ := t
    have hlt := throughCarry_lt h8 hv left c n
    rw [← hiter] at hlt
    have hmask : (result &&& bitsMask bits).toNat = result.toNat := by
      rw [and_bitsMask_toNat h64, low_of_lt hlt]
    refine ⟨?_, ?_, ?_, ?_, ?_⟩
    · rintro rfl
      exact h0 (Nat.zero_mod _)
    · rw [hstep, ← hiter]
      exact hmask
    · rw [hstep, ← hiter]
    · intro h1
      rw [hstep, ← hiter]
      cases left <;> simp [h1, bitAt_eq, Shift.overflow]
    · cases left <;> rfl

omit h8 h64 hv in
theorem overflow_shl (before after) :
    Shift.overflow .shl bits before after = (after.1.testBit (bits - 1) != after.2) := rfl

omit h8 h64 hv in
theorem overflow_shr (before after) :
    Shift.overflow .shr bits before after = before.testBit (bits - 1) := rfl

omit h8 h64 hv in
theorem overflow_sar (before after) : Shift.overflow .sar bits before after = false := rfl

theorem shift_steps (mnemonic) (hm : mnemonic ∈ Shift.shifts) :
    match shift v n bits (bitsMask bits) mnemonic with
    | none => n ≠ 1 ∧ (Shift.step mnemonic bits)^[n] (v.toNat, c) = (v.toNat, c)
    | some o => n ≠ 0 ∧ Performs mnemonic bits n v.toNat c o := by
  have hb : 0 < bits := by omega
  cases n with
  | zero => exact ⟨by decide, rfl⟩
  | succ n =>
  rw [shift, if_neg (by omega)]
  refine ⟨by omega, ?_⟩
  simp only [Shift.shifts, List.mem_cons, List.not_mem_nil, or_false] at hm
  rcases hm with rfl | rfl | rfl
  · obtain ⟨hvalue, hcarry⟩ := shiftLeft_steps h8 h64 hv n c
    refine ⟨hvalue, hcarry, ?_, rfl⟩
    intro h1
    rw [show Shift.step .shl bits = Lib.Shift.left bits fun _ => false from rfl, overflow_shl, ← hvalue, ← hcarry,
      ← bitAt_eq]
    simp only [h1, beq_self_eq_true, Bool.true_and]
    rfl
  · obtain ⟨hvalue, hcarry⟩ := shiftRight_steps h8 h64 hv n c
    refine ⟨hvalue, hcarry, ?_, rfl⟩
    intro h1
    rw [overflow_shr]
    simp only [h1, beq_self_eq_true, Bool.true_and, reduceCtorEq, if_false]
    exact and_signBit h64 hb v
  · obtain ⟨hvalue, hcarry⟩ := shiftArithmetic_steps h8 h64 hv n c
    refine ⟨hvalue, hcarry, ?_, rfl⟩
    intro h1
    rw [overflow_sar]
    simp only [reduceCtorEq, if_false, if_true, Bool.and_false]

end

/-! ## The instructions -/

variable {i : Instruction}

section

variable (hm : i.mnemonic ∈ Shift.shifts ++ Shift.rotates)
include hm

theorem shiftOutcome_steps {size}
    (hs : operandWidth size) {value} (hv : value.toNat < 2 ^ (size * 8)) (r) :
    match shiftOutcome i size value r with
    | none => shiftCount i size r ≠ 1 ∧
        (Shift.step i.mnemonic (size * 8))^[shiftCount i size r] (value.toNat, carry r) = (value.toNat, carry r)
    | some o => shiftCount i size r ≠ 0 ∧
        Performs i.mnemonic (size * 8) (shiftCount i size r) value.toNat (carry r) o := by
  obtain ⟨h8, h64⟩ := bits_of_width hs
  have hmask : value &&& bitsMask (size * 8) = value := by
    apply BitVec.eq_of_toNat_eq
    rw [and_bitsMask_toNat h64, low_of_lt hv]
  simp only [shiftOutcome, hmask]
  generalize shiftCount i size r = count
  simp only [Shift.shifts, Shift.rotates, List.cons_append, List.nil_append, List.mem_cons, List.not_mem_nil,
    or_false] at hm
  rcases hm with hm | hm | hm | hm | hm | hm | hm
  · simp only [hm, reduceCtorEq, or_self, if_false]
    exact shift_steps h8 h64 hv count (carry r) .shl (by decide)
  · simp only [hm, reduceCtorEq, or_self, if_false]
    exact shift_steps h8 h64 hv count (carry r) .shr (by decide)
  · simp only [hm, reduceCtorEq, or_self, if_false]
    exact shift_steps h8 h64 hv count (carry r) .sar (by decide)
  · simp only [hm, true_or, if_true, decide_true]
    exact rotate_performs h8 h64 hv count (carry r) true
  · simp only [hm, reduceCtorEq, or_true, if_true, decide_false]
    exact rotate_performs h8 h64 hv count (carry r) false
  · simp only [hm, reduceCtorEq, or_self, true_or, if_false, if_true, decide_true]
    exact rotateThroughCarry_performs h8 h64 hv count (carry r) true
  · simp only [hm, reduceCtorEq, or_self, or_true, if_false, if_true, decide_false]
    exact rotateThroughCarry_performs h8 h64 hv count (carry r) false

theorem dispatch_shift : dispatch i = shiftRotate i := by
  refine dispatch_route .shiftRotate ?_
  simp only [Shift.shifts, Shift.rotates, List.cons_append, List.nil_append, List.mem_cons, List.not_mem_nil,
    or_false] at hm
  rcases hm with hm | hm | hm | hm | hm | hm | hm <;> (simp only [routeOf, hm]; rfl)

theorem shift_ne_not : i.mnemonic ≠ .not := by
  intro h
  rw [h] at hm
  revert hm
  decide

theorem dispatch_shift_run {c c1 value n} (hread : readOperand0 i c = ⟨.ok value, c1, n⟩) :
    dispatch i c = (finishShift i (shiftOutcome i (operandSize i 0) value c1.regs) c1).after n := by
  rw [dispatch_shift hm, shiftRotate, if_neg (shift_ne_not hm), Exec.bind_ok hread]
  simp only [get_bind]

end

theorem step_iterate_lt {bits value} (hb : 0 < bits) (hv : value < 2 ^ bits) (mnemonic c)
    (n) : ((Shift.step mnemonic bits)^[n] (value, c)).1 < 2 ^ bits := by
  unfold Shift.step
  split
  · exact left_iterate_lt hb (s := (value, c)) hv _ n
  · exact right_iterate_lt hb (s := (value, c)) hv _ n

theorem setShift_flags {mnemonic bits count value c o} (h8 : 8 ≤ bits)
    (h64 : bits ≤ 64) (hv : value < 2 ^ bits) (h : Performs mnemonic bits count value c o) (r) :
    setShift r o bits = Shift.flags mnemonic bits ((Shift.step mnemonic bits)^[count] (value, c)) o.overflow r := by
  have hlt := step_iterate_lt (by omega) hv mnemonic c count
  simp only [setShift, Shift.flags, ← h.carry, h.szp, decide_eq_true_eq]
  by_cases hrot : mnemonic ∈ Shift.rotates
  · rw [if_neg (by simpa using hrot), if_pos hrot]
  · rw [if_pos hrot, if_neg hrot]
    refine setSzp_eq h8 h64 _ _ _ ?_
    rw [low_of_lt (h.result ▸ hlt)]
    exact h.result

/-- Both ends of a run of an instruction that has read its operand: it stores the result of the steps
    over the flags they set, or it leaves all as it was where the steps come back to where they began. -/
def PerformsSteps (i : Instruction) (value : U64) (c : Cpu) (n : Nat) (run : Run Cpu CpuError Unit) : Prop :=
  let bits := operandSize i 0 * 8
  let count := shiftCount i (operandSize i 0) c.regs
  let before := (low bits value, carry c.regs)
  let after := (Shift.step i.mnemonic bits)^[count] before
  (count = 0 → run = ⟨.ok (), c, n⟩) ∧
    ((count ≠ 1 ∧ after = before ∧ run = ⟨.ok (), c, n⟩) ∨
      ∃ overflow, (count = 1 → overflow = Shift.overflow i.mnemonic bits before.1 after) ∧
        run = (writeOperand0 i (ofNat 64 after.1)
          { c with regs := Shift.flags i.mnemonic bits after overflow c.regs }).after n)

theorem shift_performs (hm : i.mnemonic ∈ Shift.shifts ++ Shift.rotates) {c c1 value}
    {n} (hread : readOperand0 i c = ⟨.ok value, c1, n⟩) : PerformsSteps i value c1 n (dispatch i c) := by
  obtain ⟨hs, hv⟩ := readOperand0_lt hread
  obtain ⟨h8, h64⟩ := bits_of_width hs
  rw [pow_bits] at hv
  have hsteps := shiftOutcome_steps hm hs hv c1.regs
  rw [PerformsSteps, dispatch_shift_run hm hread, low_of_lt hv]
  cases ho : shiftOutcome i (operandSize i 0) value c1.regs with
  | none =>
    rw [ho] at hsteps
    exact ⟨fun _ => rfl, .inl ⟨hsteps.1, hsteps.2, rfl⟩⟩
  | some o =>
    rw [ho] at hsteps
    obtain ⟨hcount, hperforms⟩ := hsteps
    refine ⟨fun h => absurd h hcount, .inr ⟨o.overflow, hperforms.overflow, ?_⟩⟩
    have hword : ofNat 64 ((Shift.step i.mnemonic (operandSize i 0 * 8))^[shiftCount i (operandSize i 0) c1.regs]
        (value.toNat, carry c1.regs)).1 = o.result := by
      rw [← hperforms.result, BitVec.ofNat_toNat, BitVec.setWidth_eq]
    rw [hword, ← setShift_flags h8 h64 hv hperforms]
    exact congrArg (Run.after n) (Exec.update_bind _ _ c1)

/-! ## Rotating there and back -/

def shifted (i : Instruction) (r : Registers) : Registers :=
  match shiftOutcome i (operandSize i 0) (readRegister r (i.opRegister 0) (operandSize i 0)) r with
  | none => r
  | some o => writeRegister (setShift r o (operandSize i 0 * 8)) (i.opRegister 0) (operandSize i 0) o.result

theorem dispatch_shifted (hm : i.mnemonic ∈ Shift.shifts ++ Shift.rotates)
    (hreg : i.opKind 0 = .register) (c) : dispatch i c = ⟨.ok (), { c with regs := shifted i c.regs }, 0⟩ := by
  have hread : readOperand0 i c = ⟨.ok (readRegister c.regs (i.opRegister 0) (operandSize i 0)), c, 0⟩ := by
    rw [readOperand0, if_neg (by simp [hreg])]
    rfl
  rw [dispatch_shift_run hm hread, shifted]
  cases shiftOutcome i (operandSize i 0) (readRegister c.regs (i.opRegister 0) (operandSize i 0)) c.regs with
  | none => rfl
  | some o =>
    simp only [finishShift, writeOperand0, hreg, reduceCtorEq, if_false]
    rfl

def operandAndCarry (register : Register) (r : Registers) : Nat × Bool :=
  ((readRegister r register (registerSize register)).toNat, carry r)

theorem shifted_steps (hm : i.mnemonic ∈ Shift.shifts ++ Shift.rotates)
    (hreg : i.opKind 0 = .register) (r) :
    operandAndCarry (i.opRegister 0) (shifted i r) =
      (Shift.step i.mnemonic (operandSize i 0 * 8))^[shiftCount i (operandSize i 0) r]
        (operandAndCarry (i.opRegister 0) r) := by
  have hsize : operandSize i 0 = registerSize (i.opRegister 0) := by rw [operandSize, if_pos hreg]
  have hs := registerSize_width (i.opRegister 0)
  obtain ⟨h8, h64⟩ := bits_of_width hs
  have hv := readRegister_lt r (i.opRegister 0)
  rw [pow_bits] at hv
  have hsteps := shiftOutcome_steps hm hs hv r
  simp only [shifted, hsize]
  cases ho : shiftOutcome i (registerSize (i.opRegister 0))
      (readRegister r (i.opRegister 0) (registerSize (i.opRegister 0))) r with
  | none =>
    rw [ho] at hsteps
    exact hsteps.2.symm
  | some o =>
    rw [ho] at hsteps
    obtain ⟨-, hperforms⟩ := hsteps
    have hlt := step_iterate_lt (by omega) hv i.mnemonic (carry r) (shiftCount i (registerSize (i.opRegister 0)) r)
    refine Prod.ext ?_ ?_
    · rw [operandAndCarry]
      dsimp only
      rw [readRegister_writeRegister, low_of_lt (hperforms.result ▸ hlt), hperforms.result]
      rfl
    · have hflag : carry (writeRegister (setShift r o (registerSize (i.opRegister 0) * 8)) (i.opRegister 0)
          (registerSize (i.opRegister 0)) o.result) = o.carry := by
        rw [carry, writeRegister_rflags, setShift]
        split <;> simp (disch := decide) only [setSzp, setOverflow, setCarry, withFlag, contains_setFlag_of_ne,
          contains_setFlag_self]
      exact hflag.trans hperforms.carry

section

variable {bits value : Nat} (hb : 0 < bits) (hv : value < 2 ^ bits) (c : Bool) (n : Nat)

include hb hv

theorem rcr_rcl : (Shift.step .rcr bits)^[n] ((Shift.step .rcl bits)^[n] (value, c)) = (value, c) := by
  induction n with
  | zero => rfl
  | succ n ih =>
    rw [Function.iterate_succ_apply, iterate_succ_apply',
      show Shift.step .rcr bits (Shift.step .rcl bits ((Shift.step .rcl bits)^[n] (value, c))) = _ from
        right_left_carry hb (step_iterate_lt hb hv .rcl c n), ih]

theorem ror_rol : (Shift.step .ror bits)^[n] ((Shift.step .rol bits)^[n] (value, c)) =
      (value, if n = 0 then c else value.testBit (bits - 1)) := by
  have hrol := step_iterate_lt hb hv .rol c n
  have hvalue : ((Shift.step .ror bits)^[n] ((Shift.step .rol bits)^[n] (value, c))).1 = value := by
    refine eq_of_bits (step_iterate_lt hb hrol .ror _ n) hv ?_
    intro j hj
    have hror := ror_bits hb hrol n hj
    have hback := rol_bits hb (s := (value, c)) hv n (Nat.mod_lt (j + n * 1) hb)
    -- n steps there move the index by n (bits - 1), and n steps back by n
    have hindex : ((j + n * 1) % bits + n * (bits - 1)) % bits = j := by
      rw [Nat.mod_add_mod, Nat.mul_one, Nat.add_assoc, show n + n * (bits - 1) = n * bits by
        rw [Nat.mul_sub_one]; have := Nat.le_mul_of_pos_right n hb; omega, Nat.add_mul_mod_self_right,
          Nat.mod_eq_of_lt hj]
    rw [hindex] at hback
    exact hror.trans hback
  refine Prod.ext hvalue ?_
  cases n with
  | zero => rfl
  | succ n =>
    -- the last step to the right has put the carry at the top
    have htop : ((Shift.step .ror bits)^[n + 1] ((Shift.step .rol bits)^[n + 1] (value, c))).2 =
        ((Shift.step .ror bits)^[n + 1] ((Shift.step .rol bits)^[n + 1] (value, c))).1.testBit (bits - 1) := by
      rw [iterate_succ_apply']
      have hlt := step_iterate_lt hb hrol .ror ((Shift.step .rol bits)^[n + 1] (value, c)).2 n
      exact ((pull_testBit hb hlt _ (by omega)).trans (if_pos rfl)).symm
    rw [htop, hvalue]
    rfl

end

/-- The rotate that undoes another. -/
def Shift.inverse (there back : Mnemonic) : Prop :=
  there = .rol ∧ back = .ror ∨ there = .rcl ∧ back = .rcr

/-- The operand and the carry after rotating a register there and back. -/
def Shift.restored (back : Mnemonic) (bits count : Nat) (before : Nat × Bool) : Nat × Bool :=
  (before.1, if back = .rcr ∨ count = 0 then before.2 else before.1.testBit (bits - 1))

theorem restored_steps {there back} (hinverse : Shift.inverse there back) {bits value} (hb : 0 < bits)
    (hv : value < 2 ^ bits) (c count) :
    (Shift.step back bits)^[count] ((Shift.step there bits)^[count] (value, c)) =
      Shift.restored back bits count (value, c) := by
  rcases hinverse with ⟨rfl, rfl⟩ | ⟨rfl, rfl⟩
  · rw [ror_rol hb hv, Shift.restored]
    simp only [reduceCtorEq, false_or]
  · rw [rcr_rcl hb hv, Shift.restored, if_pos (.inl rfl)]

/-- Every shift and rotate is its masked count of single steps. Steps to the left and as many to the right
    restore the operand; those of RCL and RCR restore the carry as well, and ROR leaves the bit it moved to
    the top in it. So do two instructions on one register. -/
theorem shifts_and_rotates (i : Instruction) (hm : i.mnemonic ∈ Shift.shifts ++ Shift.rotates) (c : Cpu) :
    (∀ value c1 n, readOperand0 i c = ⟨.ok value, c1, n⟩ → PerformsSteps i value c1 n (dispatch i c)) ∧
      (∀ there back bits value carry count, Shift.inverse there back → 0 < bits → value < 2 ^ bits →
        (Shift.step back bits)^[count] ((Shift.step there bits)^[count] (value, carry)) =
          Shift.restored back bits count (value, carry)) ∧
      ∀ j register, Shift.inverse i.mnemonic j.mnemonic → i.opKind 0 = .register → j.opKind 0 = .register →
        i.opRegister 0 = register → j.opRegister 0 = register →
        shiftCount j (registerSize register) (dispatch i c).state.regs = shiftCount i (registerSize register) c.regs →
        operandAndCarry register (dispatch j (dispatch i c).state).state.regs =
          Shift.restored j.mnemonic (registerSize register * 8) (shiftCount i (registerSize register) c.regs)
            (operandAndCarry register c.regs) := by
  refine ⟨fun value c1 n hread => shift_performs hm hread, fun there back bits value carry count hinverse hb hv =>
    restored_steps hinverse hb hv carry count, ?_⟩
  intro j register hinverse hi hj hri hrj hcount
  have hmj : j.mnemonic ∈ Shift.shifts ++ Shift.rotates := by
    rcases hinverse with ⟨-, h⟩ | ⟨-, h⟩ <;> (rw [h]; decide)
  have hv := readRegister_lt c.regs register
  rw [pow_bits] at hv
  have hb : 0 < registerSize register * 8 := by
    have := bits_of_width (registerSize_width register)
    omega
  have hthere := shifted_steps hm hi c.regs
  have hback := shifted_steps hmj hj (shifted i c.regs)
  rw [dispatch_shifted hm hi] at hcount ⊢
  rw [dispatch_shifted hmj hj]
  rw [operandSize, if_pos hi, hri] at hthere
  rw [operandSize, if_pos hj, hrj, hcount, hthere] at hback
  exact hback.trans (restored_steps hinverse hb hv _ _)

def rotateBl (mnemonic : Mnemonic) (count : U64) : Instruction :=
  { Instruction.empty with
    len := 3, mnemonic := mnemonic, codeSize := .code64
    operands := [⟨.register, .low8 index.RBX, 0⟩, ⟨.immediate8, .low8 index.RBX, count⟩], isInvalid := false }

/-- RCL and RCR by three bring back an operand and a carry that was set. -/
theorem rcl_rcr_by_three : operandAndCarry (.low8 index.RBX)
      (dispatch (rotateBl .rcr 3) (dispatch (rotateBl .rcl 3) (flagged 0x81 RFlags.CF)).state).state.regs =
        (0x81, true) :=
  ((shifts_and_rotates (rotateBl .rcl 3) (by decide) (flagged 0x81 RFlags.CF)).2.2 (rotateBl .rcr 3) (.low8 index.RBX)
    (.inr ⟨rfl, rfl⟩) rfl rfl rfl rfl rfl).trans (by decide)

/-- ROL and ROR of zero lose the carry. -/
theorem rol_ror_loses_carry : operandAndCarry (.low8 index.RBX)
      (dispatch (rotateBl .ror 1) (dispatch (rotateBl .rol 1) (flagged 0 RFlags.CF)).state).state.regs = (0, false) ∧
      operandAndCarry (.low8 index.RBX) (flagged 0 RFlags.CF).regs = (0, true) := by
  decide +kernel

end Rish.SoftVm.Ops
