/-
  Rish.Lib.Alu — addition and subtraction of numbers of a width with a carry, and the flags they define.

  `Arith.sum` and `Arith.difference` say what the flags mean: the carry or borrow out of the top bit,
  the signed result that does not fit, the carry or borrow out of bit 3, and zero, sign and low-byte
  parity of the result.

  Proved: the bit formulas of an adder compute them (`sum_overflow_bits`, `difference_overflow_bits`,
  `sum_adjust_bits`, `difference_adjust_bits`), and how a subtraction compares its operands
  (`difference_zero`, `difference_sign_overflow`).
-/

import Rish.Lib.Words

namespace Rish.Lib

open Bool

/-! ## What the flags mean -/

@[ext] structure Arith where
  result : Nat
  carry : Bool
  overflow : Bool
  adjust : Bool
  deriving DecidableEq, Repr

namespace Arith

def sum (bits a b : Nat) (c : Bool) : Arith where
  result := (a + b + c.toNat) % 2 ^ bits
  carry := 2 ^ bits ≤ a + b + c.toNat
  overflow := ¬fits true bits (intValue true bits a + intValue true bits b + c.toNat)
  adjust := 16 ≤ a % 16 + b % 16 + c.toNat

def difference (bits a b : Nat) (c : Bool) : Arith where
  result := (((a : Int) - b - c.toNat) % 2 ^ bits).toNat
  carry := a < b + c.toNat
  overflow := ¬fits true bits (intValue true bits a - intValue true bits b - c.toNat)
  adjust := a % 16 < b % 16 + c.toNat

def zero (x : Arith) : Bool := x.result = 0

def sign (bits : Nat) (x : Arith) : Bool := intValue true bits x.result < 0

/-- Whether the low byte of the result has an even number of ones. -/
def parity (x : Arith) : Bool := (List.range 8).countP x.result.testBit % 2 = 0

end Arith

/-! ## Bits of a word -/

theorem and_one_shiftLeft_ne_zero {w} (v : BitVec w) {k} (hk : k < w) :
    (v &&& (1#w <<< k) != 0) = v.getLsbD k := by
  have hv : v &&& (1#w <<< k) = if v.getLsbD k then BitVec.twoPow w k else 0#w := by
    rw [← BitVec.and_twoPow, BitVec.twoPow_eq]
  rw [hv]
  cases v.getLsbD k with
  | false => simp
  | true =>
    have h0 : BitVec.twoPow w k ≠ 0#w := by
      intro h
      have := congrArg (BitVec.getLsbD · k) h
      simp [hk] at this
    simpa using h0

theorem testBit_top {bits a} (hb : 0 < bits) (ha : a < 2 ^ bits) :
    a.testBit (bits - 1) = decide (2 ^ (bits - 1) ≤ a) := by
  obtain ⟨b, rfl⟩ : ∃ b, bits = b + 1 := ⟨bits - 1, by omega⟩
  simp only [Nat.add_sub_cancel]
  rw [Nat.testBit_eq_decide_div_mod_eq, decide_eq_decide]
  rw [pow_succ] at ha
  have hp : 0 < 2 ^ b := Nat.two_pow_pos b
  have hlt : a / 2 ^ b < 2 := Nat.div_lt_of_lt_mul (by omega)
  have hiff : 1 ≤ a / 2 ^ b ↔ 2 ^ b ≤ a := by rw [Nat.le_div_iff_mul_le hp, one_mul]
  generalize a / 2 ^ b = q at *
  omega

theorem cast_two_pow (bits) : ((2 ^ bits : Nat) : Int) = 2 ^ bits := by
  push_cast
  rfl

theorem intValue_signed {bits a} (hb : 0 < bits) (ha : a < 2 ^ bits) :
    intValue true bits a = if a < 2 ^ (bits - 1) then (a : Int) else a - 2 ^ bits := by
  obtain ⟨b, rfl⟩ : ∃ b, bits = b + 1 := ⟨bits - 1, by omega⟩
  simp only [intValue, if_true, Nat.add_sub_cancel, ← cast_two_pow, Int.bmod_def]
  rw [Int.emod_eq_of_lt (by omega) (by omega)]
  have hiff : (a : Int) < (((2 ^ (b + 1) : Nat) : Int) + 1) / 2 ↔ a < 2 ^ b := by omega
  simp only [hiff]

theorem testBit_four (a) : a.testBit 4 = decide (a / 16 % 2 = 1) := by
  rw [Nat.testBit_eq_decide_div_mod_eq]

/-! ## The formulas of an adder -/

section

variable {bits a b : Nat}

theorem fits_signed (bits x) :
    fits true bits x ↔ -((2 ^ (bits - 1) : Nat) : Int) ≤ x ∧ x < ((2 ^ (bits - 1) : Nat) : Int) := by
  simp only [fits, if_true]
  push_cast
  rfl

theorem two_pow_split (hb : 0 < bits) : 2 ^ bits = 2 * 2 ^ (bits - 1) := by
  obtain ⟨b, rfl⟩ : ∃ b, bits = b + 1 := ⟨bits - 1, by omega⟩
  rw [Nat.add_sub_cancel, pow_succ]
  ring

theorem sum_result_lt (bits a b c) : (Arith.sum bits a b c).result < 2 ^ bits := Nat.mod_lt _ (Nat.two_pow_pos _)

theorem difference_result_lt (bits a b c) : (Arith.difference bits a b c).result < 2 ^ bits := by
  have hpos := Nat.two_pow_pos bits
  have h := Int.emod_lt_of_pos ((a : Int) - b - c.toNat) (b := ((2 ^ bits : Nat) : Int)) (by omega)
  simp only [Arith.difference, ← cast_two_pow]
  omega

variable (ha : a < 2 ^ bits) (hb : b < 2 ^ bits) (c : Bool)

include ha hb

theorem sum_result : (Arith.sum bits a b c).result = a + b + c.toNat ∨
    (Arith.sum bits a b c).result + 2 ^ bits = a + b + c.toNat := by
  have hc := toNat_le c
  simp only [Arith.sum]
  by_cases h : a + b + c.toNat < 2 ^ bits
  · exact .inl (Nat.mod_eq_of_lt h)
  · right
    rw [Nat.mod_eq_sub_mod (by omega), Nat.mod_eq_of_lt (by omega)]
    omega

theorem difference_result : (Arith.difference bits a b c).result + b + c.toNat = a ∨
    (Arith.difference bits a b c).result + b + c.toNat = a + 2 ^ bits := by
  have hc := toNat_le c
  simp only [Arith.difference, ← cast_two_pow]
  by_cases h : b + c.toNat ≤ a
  · left
    rw [Int.emod_eq_of_lt (by omega) (by omega)]
    omega
  · right
    rw [← Int.add_emod_right, Int.emod_eq_of_lt (by omega) (by omega)]
    omega

theorem sum_overflow_bits (hbits : 0 < bits) : (a.testBit (bits - 1) == b.testBit (bits - 1) &&
      a.testBit (bits - 1) != (Arith.sum bits a b c).result.testBit (bits - 1)) = (Arith.sum bits a b c).overflow := by
  have hval := sum_result ha hb c
  have hlt := sum_result_lt bits a b c
  have hsplit := two_pow_split hbits
  have hc := toNat_le c
  have hover : (Arith.sum bits a b c).overflow =
      decide (¬fits true bits (intValue true bits a + intValue true bits b + c.toNat)) := rfl
  rw [testBit_top hbits ha, testBit_top hbits hb, testBit_top hbits hlt, hover, Bool.eq_iff_iff]
  simp only [and_eq_true, beq_iff_eq, bne_iff_ne, ne_eq, decide_eq_decide, decide_eq_true_eq, fits_signed,
    intValue_signed hbits ha, intValue_signed hbits hb, ← cast_two_pow]
  generalize (Arith.sum bits a b c).result = r at *
  generalize 2 ^ (bits - 1) = m at *
  split <;> split <;> omega

theorem difference_overflow_bits (hbits : 0 < bits) : (a.testBit (bits - 1) != b.testBit (bits - 1) &&
      a.testBit (bits - 1) != (Arith.difference bits a b c).result.testBit (bits - 1)) =
        (Arith.difference bits a b c).overflow := by
  have hval := difference_result ha hb c
  have hlt := difference_result_lt bits a b c
  have hsplit := two_pow_split hbits
  have hc := toNat_le c
  have hover : (Arith.difference bits a b c).overflow =
      decide (¬fits true bits (intValue true bits a - intValue true bits b - c.toNat)) := rfl
  rw [testBit_top hbits ha, testBit_top hbits hb, testBit_top hbits hlt, hover, Bool.eq_iff_iff]
  simp only [and_eq_true, bne_iff_ne, ne_eq, decide_eq_decide, decide_eq_true_eq, fits_signed,
    intValue_signed hbits ha, intValue_signed hbits hb, ← cast_two_pow]
  generalize (Arith.difference bits a b c).result = r at *
  generalize 2 ^ (bits - 1) = m at *
  split <;> split <;> omega

omit ha hb in
theorem xor_bits (x y z) :
    (decide (x % 2 = 1) ^^ decide (y % 2 = 1) ^^ decide (z % 2 = 1)) = decide ((x + y + z) % 2 = 1) := by
  rcases Nat.mod_two_eq_zero_or_one x with hx | hx <;> rcases Nat.mod_two_eq_zero_or_one y with hy | hy <;>
    rcases Nat.mod_two_eq_zero_or_one z with hz | hz <;> simp [Nat.add_mod, hx, hy, hz]

omit ha hb in
theorem two_pow_blocks (hbits : 5 ≤ bits) : ∃ k, 2 ^ bits = 32 * k :=
  ⟨2 ^ (bits - 5), by rw [show 32 = 2 ^ 5 from rfl, ← pow_add, Nat.add_sub_cancel' hbits]⟩

theorem sum_adjust_bits (hbits : 5 ≤ bits) :
    (a.testBit 4 ^^ b.testBit 4 ^^ (Arith.sum bits a b c).result.testBit 4) = (Arith.sum bits a b c).adjust := by
  obtain ⟨k, hk⟩ := two_pow_blocks hbits
  have hval := sum_result ha hb c
  have hc := toNat_le c
  have hadjust : (Arith.sum bits a b c).adjust = decide (16 ≤ a % 16 + b % 16 + c.toNat) := rfl
  rw [testBit_four, testBit_four, testBit_four, xor_bits, hadjust, decide_eq_decide]
  rw [hk] at hval
  generalize (Arith.sum bits a b c).result = r at *
  rcases hval with hval | hval <;> omega

theorem difference_adjust_bits (hbits : 5 ≤ bits) :
    (a.testBit 4 ^^ b.testBit 4 ^^ (Arith.difference bits a b c).result.testBit 4) =
      (Arith.difference bits a b c).adjust := by
  obtain ⟨k, hk⟩ := two_pow_blocks hbits
  have hval := difference_result ha hb c
  have hc := toNat_le c
  have hadjust : (Arith.difference bits a b c).adjust = decide (a % 16 < b % 16 + c.toNat) := rfl
  rw [testBit_four, testBit_four, testBit_four, xor_bits, hadjust, decide_eq_decide]
  rw [hk] at hval
  generalize (Arith.difference bits a b c).result = r at *
  rcases hval with hval | hval <;> omega

/-! ## What a subtraction says about its operands -/

theorem difference_zero : (Arith.difference bits a b false).zero = decide (a = b) := by
  have hval := difference_result ha hb false
  have hlt := difference_result_lt bits a b false
  simp only [Arith.zero, decide_eq_decide]
  generalize (Arith.difference bits a b false).result = r at *
  simp only [toNat_false] at hval
  omega

omit hb in
theorem intValue_neg (hbits : 0 < bits) : intValue true bits a < 0 ↔ 2 ^ (bits - 1) ≤ a := by
  have hsplit := two_pow_split hbits
  rw [intValue_signed hbits ha, ← cast_two_pow]
  split <;> omega

theorem difference_sign_overflow (hbits : 0 < bits) :
    ((Arith.difference bits a b false).sign bits != (Arith.difference bits a b false).overflow) =
      decide (intValue true bits a < intValue true bits b) := by
  have hval := difference_result ha hb false
  have hlt := difference_result_lt bits a b false
  have hsplit := two_pow_split hbits
  have hover : (Arith.difference bits a b false).overflow =
      decide (¬fits true bits (intValue true bits a - intValue true bits b - (false).toNat)) := rfl
  rw [hover, Arith.sign, Bool.eq_iff_iff]
  simp only [bne_iff_ne, ne_eq, decide_eq_decide, decide_eq_true_eq, fits_signed, intValue_neg hlt hbits,
    intValue_signed hbits ha, intValue_signed hbits hb, ← cast_two_pow, toNat_false] at hval ⊢
  generalize (Arith.difference bits a b false).result = r at *
  generalize 2 ^ (bits - 1) = m at *
  split <;> split <;> omega

end

end Rish.Lib
