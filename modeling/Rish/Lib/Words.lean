/-
  Rish.Lib.Words — bit patterns as numbers: the unsigned and the two's complement value of the low
  bits of a word, and division with a checked quotient.
-/

import Mathlib.Tactic.Positivity
import Rish.Lib.Bytes

namespace Rish.Lib

open Int BitVec

variable (signed : Bool)

def intValue (bits v : Nat) : Int := if signed then Int.bmod v (2 ^ bits) else (v % 2 ^ bits : Nat)

variable (bits : Nat)

def fits (x : Int) : Prop :=
  if signed then -2 ^ (bits - 1) ≤ x ∧ x < 2 ^ (bits - 1) else 0 ≤ x ∧ x < 2 ^ bits

instance (x : Int) : Decidable (fits signed bits x) := by unfold fits; infer_instance

/-- Quotient and remainder truncated toward zero, when there is a quotient and it has `bits` bits. -/
def checkedDivision (dividend divisor : Int) : Option (Int × Int) :=
  if divisor ≠ 0 ∧ fits signed bits (dividend.tdiv divisor) then some (dividend.tdiv divisor, dividend.tmod divisor)
  else none

theorem intValue_bounds {bits} (hb : 0 < bits) (signed v) : fits signed bits (intValue signed bits v) := by
  obtain ⟨b, rfl⟩ := Nat.exists_eq_add_of_lt hb
  cases signed with
  | false =>
    have hlt : v % 2 ^ (0 + b + 1) < 2 ^ (0 + b + 1) := Nat.mod_lt _ (Nat.two_pow_pos _)
    simp only [fits, intValue, Bool.false_eq_true, if_false]
    exact ⟨natCast_nonneg _, by exact_mod_cast hlt⟩
  | true =>
    have hlow := le_bmod (x := v) (m := 2 ^ (0 + b + 1)) (Nat.two_pow_pos _)
    have hhigh := bmod_lt (x := v) (m := 2 ^ (0 + b + 1)) (Nat.two_pow_pos _)
    have hpow : (2 : Int) ^ (0 + b + 1) = 2 * 2 ^ b := by rw [Nat.zero_add, pow_succ]; ring
    simp only [fits, intValue, if_true, Nat.add_sub_cancel, Nat.zero_add] at *
    push_cast [hpow] at hlow hhigh
    omega

theorem intValue_mod (bits v) : intValue signed bits (v % 2 ^ bits) = intValue signed bits v := by
  cases signed with
  | false => simp [intValue]
  | true =>
    simp only [intValue, if_true]
    rw [natCast_emod]
    exact emod_bmod _ _

theorem bmod_two_pow_mul (x : Int) (k b : Nat) :
    (2 ^ k * x).bmod (2 ^ k * 2 ^ (b + 1)) = 2 ^ k * x.bmod (2 ^ (b + 1)) := by
  have hk : (0 : Int) < 2 ^ k := Int.pow_pos (by decide)
  have hb : (2 : Int) ^ (b + 1) = 2 * 2 ^ b := by rw [pow_succ]; ring
  have hsmall : ((2 : Int) ^ (b + 1) + 1) / 2 = 2 ^ b := by rw [hb]; omega
  have hbig : ((2 : Int) ^ k * 2 ^ (b + 1) + 1) / 2 = 2 ^ k * 2 ^ b := by
    have : (2 : Int) ^ k * 2 ^ (b + 1) = 2 * (2 ^ k * 2 ^ b) := by rw [hb]; ring
    rw [this]
    omega
  have hlt : 2 ^ k * (x % 2 ^ (b + 1)) < 2 ^ k * 2 ^ b ↔ x % 2 ^ (b + 1) < 2 ^ b := Int.mul_lt_mul_left hk
  simp only [bmod_def]
  push_cast
  rw [mul_emod_mul_of_pos _ _ hk, hsmall, hbig]
  simp only [hlt]
  split
  · rfl
  · ring

variable {w : Nat}

theorem toInt_shift_pair (v : BitVec w) {k} (hk : k < w) :
    ((v <<< k).sshiftRight k).toInt = intValue true (w - k) v.toNat := by
  obtain ⟨b, hb⟩ := Nat.exists_eq_add_of_lt hk
  have hw : 2 ^ w = 2 ^ k * 2 ^ (b + 1) := by rw [← pow_add, hb, Nat.add_assoc]
  have hpos : (2 : Int) ^ k ≠ 0 := Int.ne_of_gt (Int.pow_pos (by decide))
  rw [toInt_sshiftRight, toInt_shiftLeft, Nat.shiftLeft_eq, hw, Nat.mul_comm v.toNat, natCast_mul]
  push_cast
  rw [bmod_two_pow_mul, shiftRight_eq_div_pow]
  push_cast
  rw [mul_ediv_cancel_left _ hpos, intValue, if_pos rfl]
  congr 2
  omega

theorem intValue_ofInt {signed bits w x} (hb : 0 < bits) (hw : bits ≤ w) (h : fits signed bits x) :
    intValue signed bits (BitVec.ofInt w x).toNat = x := by
  obtain ⟨b, rfl⟩ := Nat.exists_eq_add_of_lt hb
  have hdvd : (2 : Int) ^ (0 + b + 1) ∣ 2 ^ w := pow_dvd_pow 2 hw
  have hpow : (2 : Int) ^ (0 + b + 1) = 2 * 2 ^ b := by rw [Nat.zero_add, pow_succ]; ring
  have hcast : ((BitVec.ofInt w x).toNat : Int) = x % 2 ^ w := by
    rw [toNat_ofInt, toNat_of_nonneg (emod_nonneg _ (by positivity))]
    push_cast
    rfl
  have hmod : x % 2 ^ w % 2 ^ (0 + b + 1) = x % 2 ^ (0 + b + 1) := emod_emod_of_dvd x hdvd
  cases signed with
  | false =>
    simp only [fits, Bool.false_eq_true, if_false] at h
    simp only [intValue, Bool.false_eq_true, if_false]
    push_cast
    rw [hcast, hmod, emod_eq_of_lt h.1 h.2]
  | true =>
    simp only [fits, if_true, Nat.zero_add, Nat.add_sub_cancel] at h
    simp only [intValue, if_true, bmod_def]
    push_cast
    rw [hcast, hmod]
    have he := emod_add_mul_ediv x (2 ^ (0 + b + 1))
    rw [hpow] at he ⊢
    generalize (2 : Int) ^ b = p at *
    -- the quotient is 0 or -1 by the bounds of `x`
    rcases lt_or_ge x 0 with hx | hx
    · have hq : x % (2 * p) = x + 2 * p := by
        rw [← add_emod_right]
        exact emod_eq_of_lt (by omega) (by omega)
      rw [hq]
      split <;> omega
    · have hq : x % (2 * p) = x := emod_eq_of_lt hx (by omega)
      rw [hq]
      split <;> omega

/-! ## Fields of a word -/

theorem getLsbD_and_field (x : BitVec w) (n k i) :
    (x &&& BitVec.ofNat w ((2 ^ n - 1) <<< k)).getLsbD i = (x.getLsbD i && decide (k ≤ i ∧ i < k + n)) := by
  by_cases h : i < w
  · rw [getLsbD_and, getLsbD_ofNat, decide_eq_true h, Nat.testBit_shiftLeft, Nat.testBit_two_pow_sub_one]
    grind
  · have hx : x.getLsbD i = false := getLsbD_of_ge x i (by omega)
    simp [hx]

theorem getLsbD_field_shiftLeft (x : BitVec w) (n k s) {i} (hi : i < w) :
    ((x &&& BitVec.ofNat w ((2 ^ n - 1) <<< k)) <<< s).getLsbD i =
      (decide (k + s ≤ i ∧ i < k + s + n) && x.getLsbD (i - s)) := by
  rw [getLsbD_shiftLeft, getLsbD_and_field]
  by_cases hs : i < s
  · have hout : ¬(k + s ≤ i ∧ i < k + s + n) := by omega
    simp [hs, hout]
  · have hin : (k ≤ i - s ∧ i - s < k + n) ↔ (k + s ≤ i ∧ i < k + s + n) := by omega
    simp only [hi, hs, hin, decide_true, decide_false, Bool.not_false, Bool.true_and, Bool.and_comm]

end Rish.Lib
