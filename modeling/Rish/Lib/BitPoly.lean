/-
  Rish.Lib.BitPoly — a bit vector as a polynomial over two elements, bit `i` the coefficient of `X ^ i`.
-/

import Mathlib

namespace Rish.Lib

open Polynomial
open BitVec (twoPow getLsbD_of_ge)

variable {w : Nat} (x y : BitVec w)

noncomputable def poly : (ZMod 2)[X] := ∑ i ∈ Finset.range w, C (if x.getLsbD i then 1 else 0) * X ^ i

theorem coeff_poly (i) : (poly x).coeff i = if x.getLsbD i then 1 else 0 := by
  simp only [poly, finsetSum_coeff, coeff_C_mul, coeff_X_pow, mul_ite, mul_one, mul_zero, Finset.sum_ite_eq,
    Finset.mem_range]
  split
  · rfl
  next h => rw [getLsbD_of_ge x i (Nat.not_lt.mp h), if_neg Bool.false_ne_true]

theorem poly_xor : poly (x ^^^ y) = poly x + poly y := by
  ext i
  rw [coeff_add, coeff_poly, coeff_poly, coeff_poly, BitVec.getLsbD_xor]
  cases x.getLsbD i <;> cases y.getLsbD i <;> decide

theorem degree_poly_lt : (poly x).degree < w := by
  rw [degree_lt_iff_coeff_zero]
  intro i hi
  rw [coeff_poly, getLsbD_of_ge x i hi, if_neg Bool.false_ne_true]

theorem poly_setWidth {v} (h : w ≤ v) : poly (x.setWidth v) = poly x := by
  ext i
  rw [coeff_poly, coeff_poly, BitVec.getLsbD_setWidth]
  by_cases hi : i < v
  · simp [hi]
  · simp [hi, getLsbD_of_ge x i (h.trans (Nat.not_lt.mp hi))]

theorem poly_twoPow {i} (h : i < w) : poly (twoPow w i) = X ^ i := by
  ext j
  rw [coeff_poly, coeff_X_pow, BitVec.getLsbD_twoPow]
  simp [h, eq_comm]

theorem poly_shiftLeft {n} (h : ∀ i, w ≤ i + n → x.getLsbD i = false) : poly (x <<< n) = poly x * X ^ n := by
  ext i
  rw [coeff_poly, coeff_mul_X_pow', coeff_poly, BitVec.getLsbD_shiftLeft]
  by_cases hn : n ≤ i
  · by_cases hi : i < w
    · simp [hn, hi]
    · simp [hn, hi, h (i - n) (by omega)]
  · simp [hn]

end Rish.Lib
