/-
  Rish.Lib.Lanes — a word as a row of lanes of one width.

  A lane is cut out with a shift and a mask, and a word is put together from its lanes by shifting each to
  its place and taking the union.

  Proved: the cut is the lane (`shift_and_mask`), and lane `k` of a union of lanes is the `k`-th of them,
  whatever the others are (`lane_join`).
-/

import Mathlib.Data.BitVec
import Rish.Lib.Words

namespace Rish.Lib

open BitVec

def lane (n : Nat) {w : Nat} (v : BitVec w) (k : Nat) : BitVec n := v.extractLsb' (k * n) n

variable {n : Nat} {w : Nat}

theorem getLsbD_lane (n k i) (v : BitVec w) :
    (lane n v k).getLsbD i = (decide (i < n) && v.getLsbD (k * n + i)) :=
  getLsbD_extractLsb' _ _ _ _

/-! ## The mask of the low bits -/

theorem getLsbD_mask (h : n ≤ w) (i) : ((1#w <<< n) - 1).getLsbD i = decide (i < n) := by
  rcases Nat.lt_or_eq_of_le h with h | rfl
  · have hw : 1 < 2 ^ w := Nat.one_lt_two_pow (by omega)
    have hn : 2 ^ n < 2 ^ w := Nat.pow_lt_pow_right (by decide) h
    have hone : (1#w).toNat = 1 := by rw [toNat_ofNat, Nat.mod_eq_of_lt hw]
    have hshift : (1#w <<< n).toNat = 2 ^ n := by
      rw [toNat_shiftLeft, hone, Nat.one_shiftLeft, Nat.mod_eq_of_lt hn]
    have hle : 1#w ≤ 1#w <<< n := by
      rw [le_def, hone, hshift]
      exact Nat.one_le_two_pow
    have hmask : ((1#w <<< n) - 1).toNat = 2 ^ n - 1 := by
      rw [show (1 : BitVec w) = 1#w from rfl, toNat_sub_of_le hle, hshift, hone]
    rw [BitVec.getLsbD, hmask, Nat.testBit_two_pow_sub_one]
  · -- the shift leaves nothing, and zero less one is every bit
    have hones : (1#n <<< n) - 1 = BitVec.allOnes n := by
      rw [shiftLeft_eq_zero (Nat.le_refl n), BitVec.zero_sub]
      exact neg_one_eq_allOnes
    rw [hones, getLsbD_allOnes]

theorem and_low_mask (h : n ≤ w) (v : BitVec w) : v &&& ((1#w <<< n) - 1) = (v.setWidth n).setWidth w := by
  apply eq_of_getLsbD_eq
  intro i hi
  rw [getLsbD_and, getLsbD_mask h, getLsbD_setWidth, getLsbD_setWidth, decide_eq_true hi,
    Bool.true_and, Bool.and_comm]

theorem shift_and_mask (h : n ≤ w) (v : BitVec w) (k) :
    (v >>> (k * n)) &&& ((1#w <<< n) - 1) = (lane n v k).setWidth w := by
  rw [and_low_mask h]
  congr 1
  apply eq_of_getLsbD_eq
  intro i hi
  rw [getLsbD_setWidth, getLsbD_ushiftRight, getLsbD_lane]

/-! ## Lanes put together -/

theorem getLsbD_foldl_or (g : Nat → BitVec w) (i : Nat) (ks : List Nat) (acc : BitVec w) :
    (ks.foldl (fun acc k => acc ||| g k) acc).getLsbD i = (acc.getLsbD i || ks.any fun k => (g k).getLsbD i) := by
  induction ks generalizing acc with
  | nil => rw [List.foldl_nil, List.any_nil, Bool.or_false]
  | cons k ks ih => rw [List.foldl_cons, ih, getLsbD_or, List.any_cons, Bool.or_assoc]

theorem getLsbD_placed (h : n ≤ w) (v : BitVec w) {j k i} (hi : i < n) (hw : k * n + i < w) :
    ((v &&& ((1#w <<< n) - 1)) <<< (j * n)).getLsbD (k * n + i) = (decide (j = k) && v.getLsbD i) := by
  rw [getLsbD_shiftLeft, getLsbD_and, getLsbD_mask h]
  rcases Nat.lt_trichotomy j k with hj | rfl | hj
  · have hstep : (j + 1) * n ≤ k * n := Nat.mul_le_mul_right n hj
    have hout : ¬(k * n + i - j * n < n) := by rw [Nat.succ_mul] at hstep; omega
    simp [hout, Nat.ne_of_lt hj]
  · simp [hw, hi]
  · have hstep : (k + 1) * n ≤ j * n := Nat.mul_le_mul_right n hj
    have hout : k * n + i < j * n := by rw [Nat.succ_mul] at hstep; omega
    simp [hout, Nat.ne_of_gt hj]

theorem lane_join {m : Nat} (hw : m * n ≤ w) (f : Nat → BitVec w) {k : Nat} (hk : k < m) :
    lane n ((List.range m).foldl (fun acc j => acc ||| ((f j &&& ((1#w <<< n) - 1)) <<< (j * n))) 0) k =
      (f k).setWidth n := by
  have hlast : (k + 1) * n ≤ m * n := Nat.mul_le_mul_right n hk
  rw [Nat.succ_mul] at hlast
  apply eq_of_getLsbD_eq
  intro i hi
  have hbit (j : Nat) := getLsbD_placed (j := j) (by omega) (f j) hi (show k * n + i < w by omega)
  rw [getLsbD_lane, getLsbD_foldl_or, getLsbD_setWidth, decide_eq_true hi, Bool.true_and, Bool.true_and]
  have hzero : (0 : BitVec w).getLsbD (k * n + i) = false := getLsbD_zero
  simp only [hbit, hzero, Bool.false_or]
  rw [Bool.eq_iff_iff, List.any_eq_true]
  constructor
  · rintro ⟨j, -, hj⟩
    obtain ⟨hjk, hbit⟩ := Bool.and_eq_true_iff.mp hj
    rwa [of_decide_eq_true hjk] at hbit
  · intro h
    exact ⟨k, List.mem_range.mpr hk, by simp [h]⟩

/-! ## Lanes as numbers -/

theorem setWidth_ofInt (h : n ≤ w) (x) : (BitVec.ofInt w x).setWidth n = BitVec.ofInt n x := by
  have hdvd : ((2 ^ n : Nat) : Int) ∣ ((2 ^ w : Nat) : Int) := Int.natCast_dvd_natCast.mpr (Nat.pow_dvd_pow 2 h)
  have hpos (m : Nat) : ((2 ^ m : Nat) : Int) ≠ 0 := by have := Nat.two_pow_pos m; omega
  have hcast (m : Nat) : ((BitVec.ofInt m x).toNat : Int) = x % (2 ^ m : Nat) := by
    rw [toNat_ofInt, Int.toNat_of_nonneg (Int.emod_nonneg x (hpos m))]
  apply eq_of_toNat_eq
  apply Int.ofNat_inj.mp
  rw [toNat_setWidth, Int.natCast_emod, hcast, hcast, Int.emod_emod_of_dvd x hdvd]

end Rish.Lib
