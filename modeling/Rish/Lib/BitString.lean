/-
  Rish.Lib.BitString — a byte store as one string of bits: bit `k` is bit `k % 8` of byte `k / 8`.

  Proved: the bits of a little-endian number read from a store (`testBit_readBytes`), and the bits of a store after
  such a number was written (`bitOf_writeBytes`).
-/

import Rish.Lib.Bytes

namespace Rish.Lib

variable (m : Bytes)

def bitOf (k : Nat) : Bool := (m (k / 8)).getLsbD (k % 8)

theorem testBit_leNat (bs k) : (leNat bs).testBit k = (bs.getD (k / 8) 0).getLsbD (k % 8) := by
  induction bs generalizing k with
  | nil => simp [leNat]
  | cons b bs ih =>
    have hb : b.toNat < 2 ^ 8 := b.isLt
    rw [leNat, Nat.add_comm, show 256 = 2 ^ 8 from rfl, Nat.testBit_two_pow_mul_add _ hb]
    by_cases hk : k < 8
    · rw [if_pos hk, Nat.div_eq_of_lt hk, Nat.mod_eq_of_lt hk, BitVec.testBit_toNat]
      rfl
    · rw [if_neg hk, ih, show k / 8 = (k - 8) / 8 + 1 by omega, show (k - 8) % 8 = k % 8 by omega]
      rfl

theorem testBit_readBytes (start n k) :
    (leNat (readBytes m start n)).testBit k = (decide (k < 8 * n) && bitOf m (8 * start + k)) := by
  rw [testBit_leNat, bitOf, show (8 * start + k) / 8 = start + k / 8 by omega,
    show (8 * start + k) % 8 = k % 8 by omega]
  by_cases hk : k < 8 * n
  · have hlt : k / 8 < (readBytes m start n).length := by
      rw [readBytes_length]
      omega
    rw [decide_eq_true hk, Bool.true_and, List.getD_eq_getElem _ _ hlt]
    simp [readBytes]
  · rw [decide_eq_false hk, Bool.false_and, List.getD_eq_default _ _ (by rw [readBytes_length]; omega)]
    simp

theorem getLsbD_leBytes {n j} (v) (hj : j < n) {b} (hb : b < 8) :
    ((leBytes n v).getD j 0).getLsbD b = v.testBit (8 * j + b) := by
  induction j generalizing n v with
  | zero =>
    obtain ⟨n, rfl⟩ : ∃ n', n = n' + 1 := ⟨n - 1, by omega⟩
    rw [leBytes, List.getD_cons_zero, BitVec.getLsbD_ofNat, decide_eq_true hb, Bool.true_and, Nat.mul_zero,
      Nat.zero_add]
  | succ j ih =>
    obtain ⟨n, rfl⟩ : ∃ n', n = n' + 1 := ⟨n - 1, by omega⟩
    rw [leBytes, List.getD_cons_succ, ih _ (by omega), show 256 = 2 ^ 8 from rfl, Nat.testBit_div_two_pow]
    congr 1
    omega

theorem bitOf_writeBytes (start n v k) : bitOf (writeBytes m start (leBytes n v)) k =
      if 8 * start ≤ k ∧ k < 8 * (start + n) then v.testBit (k - 8 * start) else bitOf m k := by
  rw [bitOf, writeBytes, leBytes_length]
  by_cases h : 8 * start ≤ k ∧ k < 8 * (start + n)
  · rw [if_pos h, if_pos (by omega), getLsbD_leBytes v (by omega) (Nat.mod_lt k (by decide))]
    congr 1
    omega
  · rw [if_neg h, if_neg (by omega), bitOf]

theorem bitOf_update {start n t} (ht : t < 8 * n) {v b}
    (hv : ∀ k, k < 8 * n → v.testBit k = if k = t then b else (leNat (readBytes m start n)).testBit k) (k : Nat) :
    bitOf (writeBytes m start (leBytes n v)) k = if k = 8 * start + t then b else bitOf m k := by
  rw [bitOf_writeBytes]
  by_cases h : 8 * start ≤ k ∧ k < 8 * (start + n)
  · rw [if_pos h, hv _ (by omega), testBit_readBytes, decide_eq_true (by omega), Bool.true_and,
      show 8 * start + (k - 8 * start) = k by omega]
    by_cases hk : k - 8 * start = t
    · rw [if_pos hk, if_pos (by omega)]
    · rw [if_neg hk, if_neg (by omega)]
  · rw [if_neg h, if_neg (by omega)]

end Rish.Lib
