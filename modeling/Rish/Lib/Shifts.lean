/-
  Rish.Lib.Shifts — shifts and rotates of numbers of a width, one bit at a time.

  A step moves every bit by one, fills the bit that came free and puts the bit that fell out into the
  carry. What fills it makes the difference: nothing, the sign, the bit that fell out, or the carry.
-/

import Mathlib.Data.Nat.ModEq
import Rish.Lib.Alu

namespace Rish.Lib

open Nat Function

namespace Shift

/-- One place up, with a new lowest bit. -/
def push (bits v : Nat) (fill : Bool) : Nat := 2 * v % 2 ^ bits + fill.toNat

/-- One place down, with a new highest bit. -/
def pull (bits v : Nat) (fill : Bool) : Nat := v / 2 + fill.toNat * 2 ^ (bits - 1)

def left (bits : Nat) (fill : Nat × Bool → Bool) (s : Nat × Bool) : Nat × Bool :=
  (push bits s.1 (fill s), s.1.testBit (bits - 1))

def right (bits : Nat) (fill : Nat × Bool → Bool) (s : Nat × Bool) : Nat × Bool :=
  (pull bits s.1 (fill s), s.1.testBit 0)

/-! ## One step -/

section

variable {bits v : Nat}

section

variable (hb : 0 < bits)
include hb

variable (fill : Bool)

theorem push_eq : push bits v fill = 2 * (v % 2 ^ (bits - 1)) + fill.toNat := by
  rw [push, two_pow_split hb, mul_mod_mul_left]

theorem push_lt : push bits v fill < 2 ^ bits := by
  have hmod := mod_lt v (Nat.two_pow_pos (bits - 1))
  have hfill := Bool.toNat_le fill
  have hsplit := two_pow_split hb
  rw [push_eq hb]
  omega

theorem push_testBit {j} (hj : j < bits) :
    (push bits v fill).testBit j = if j = 0 then fill else v.testBit (j - 1) := by
  have hfill := Bool.toNat_le fill
  rw [push_eq hb]
  cases j with
  | zero =>
    rw [if_pos rfl, testBit_zero]
    cases fill <;> simp
  | succ j =>
    rw [if_neg (by omega), testBit_succ, Nat.add_sub_cancel,
      show (2 * (v % 2 ^ (bits - 1)) + fill.toNat) / 2 = v % 2 ^ (bits - 1) by omega, testBit_mod_two_pow,
      decide_eq_true (by omega), Bool.true_and]

theorem half_lt (hv : v < 2 ^ bits) : v / 2 < 2 ^ (bits - 1) := by
  have hsplit := two_pow_split hb
  omega

theorem pull_lt (hv : v < 2 ^ bits) (fill) : pull bits v fill < 2 ^ bits := by
  have hhalf := half_lt hb hv
  have hsplit := two_pow_split hb
  cases fill <;> simp only [pull, Bool.toNat_true, Bool.toNat_false] <;> omega

theorem pull_testBit (hv : v < 2 ^ bits) (fill) {j} (hj : j < bits) :
    (pull bits v fill).testBit j = if j = bits - 1 then fill else v.testBit (j + 1) := by
  rw [pull, Nat.add_comm, Nat.mul_comm, testBit_two_pow_mul_add _ (half_lt hb hv)]
  by_cases h : j = bits - 1
  · rw [if_neg (by omega), if_pos h, h, Nat.sub_self]
    cases fill <;> rfl
  · rw [if_pos (by omega), if_neg h, testBit_succ]

end

theorem eq_of_bits {w} (hv : v < 2 ^ bits) (hw : w < 2 ^ bits) (h : ∀ j < bits, v.testBit j = w.testBit j) :
    v = w := by
  apply eq_of_testBit_eq
  intro j
  by_cases hj : j < bits
  · exact h j hj
  · have hpow : 2 ^ bits ≤ 2 ^ j := Nat.pow_le_pow_right (by decide) (by omega)
    rw [testBit_lt_two_pow (Nat.lt_of_lt_of_le hv hpow), testBit_lt_two_pow (Nat.lt_of_lt_of_le hw hpow)]

variable {s : Nat × Bool} (hb : 0 < bits) (hs : s.1 < 2 ^ bits)

include hb hs

theorem right_left_carry : right bits Prod.snd (left bits Prod.snd s) = s := by
  refine Prod.ext (eq_of_bits (pull_lt hb (push_lt hb _) _) hs ?_) ?_
  · intro j hj
    simp only [right, left]
    rw [pull_testBit hb (push_lt hb _) _ hj]
    by_cases h : j = bits - 1
    · rw [if_pos h, h]
    · rw [if_neg h, push_testBit hb _ (by omega), if_neg (by omega), Nat.add_sub_cancel]
  · simp only [right, left]
    rw [push_testBit hb _ hb, if_pos rfl]

end

/-! ## Many steps -/

section

variable {bits : Nat} (hb : 0 < bits) {s : Nat × Bool} (hs : s.1 < 2 ^ bits) (fill : Nat × Bool → Bool)

include hb hs

variable (n : Nat)

theorem left_iterate_lt : ((left bits fill)^[n] s).1 < 2 ^ bits := by
  cases n with
  | zero => exact hs
  | succ n =>
    rw [iterate_succ_apply']
    exact push_lt hb _

theorem right_iterate_lt : ((right bits fill)^[n] s).1 < 2 ^ bits := by
  induction n with
  | zero => exact hs
  | succ n ih =>
    rw [iterate_succ_apply']
    exact pull_lt hb ih _

omit hs in
theorem shl_bits (n) {j} (hj : j < bits) :
    ((left bits fun _ => false)^[n] s).1.testBit j = if j < n then false else s.1.testBit (j - n) := by
  induction n generalizing j with
  | zero => simp
  | succ n ih =>
    rw [iterate_succ_apply']
    simp only [left]
    rw [push_testBit hb _ hj]
    by_cases h : j = 0
    · rw [if_pos h, if_pos (by omega)]
    · rw [if_neg h, ih (by omega)]
      by_cases h' : j < n + 1
      · rw [if_pos (by omega), if_pos h']
      · rw [if_neg (by omega), if_neg h', Nat.sub_sub, Nat.add_comm 1 n]

variable {j : Nat}

theorem shr_bits (hj : j < bits) : ((right bits fun _ => false)^[n] s).1.testBit j = s.1.testBit (j + n) := by
  induction n generalizing j with
  | zero => rfl
  | succ n ih =>
    rw [iterate_succ_apply']
    simp only [right]
    rw [pull_testBit hb (right_iterate_lt hb hs _ n) _ hj]
    by_cases h : j = bits - 1
    · rw [if_pos h, testBit_lt_two_pow (Nat.lt_of_lt_of_le hs (Nat.pow_le_pow_right (by decide) (by omega)))]
    · rw [if_neg h, ih (by omega), Nat.add_assoc, Nat.add_comm 1 n]

theorem sar_bits (hj : j < bits) :
    ((right bits fun s => s.1.testBit (bits - 1))^[n] s).1.testBit j = s.1.testBit (min (j + n) (bits - 1)) := by
  induction n generalizing j with
  | zero =>
    rw [Nat.add_zero, Nat.min_eq_left (by omega)]
    rfl
  | succ n ih =>
    rw [iterate_succ_apply']
    simp only [right]
    rw [pull_testBit hb (right_iterate_lt hb hs _ n) _ hj]
    by_cases h : j = bits - 1
    · rw [if_pos h, ih (by omega)]
      congr 1
      omega
    · rw [if_neg h, ih (by omega)]
      congr 1
      omega

omit hb hs in
theorem iterate_index {σ : Type} (step : σ → σ) (bit : σ → Nat → Bool) (P : σ → Prop) (m k : Nat)
    (hP : ∀ s, P s → P (step s)) (hstep : ∀ s, P s → ∀ j < m, bit (step s) j = bit s ((j + k) % m)) (n : Nat) (s : σ)
    (h : P s) : ∀ j < m, bit (step^[n] s) j = bit s ((j + n * k) % m) := by
  induction n generalizing s with
  | zero =>
    intro j hj
    rw [Nat.zero_mul, Nat.add_zero, mod_eq_of_lt hj]
    rfl
  | succ n ih =>
    intro j hj
    rw [iterate_succ_apply, ih (step s) (hP s h) j hj, hstep s h _ (mod_lt _ (by omega)), mod_add_mod]
    congr 2
    ring

theorem rol_bits (hj : j < bits) :
    ((left bits fun s => s.1.testBit (bits - 1))^[n] s).1.testBit j = s.1.testBit ((j + n * (bits - 1)) % bits) := by
  refine iterate_index (left bits fun s => s.1.testBit (bits - 1)) (fun s j => s.1.testBit j)
    (fun s => s.1 < 2 ^ bits) bits
    (bits - 1) (fun _ _ => push_lt hb _) ?_ n s hs j hj
  intro s _ j hj
  simp only [left]
  rw [push_testBit hb _ hj]
  by_cases h : j = 0
  · rw [if_pos h, h, Nat.zero_add, mod_eq_of_lt (by omega)]
  · rw [if_neg h, show j + (bits - 1) = j - 1 + bits by omega, add_mod_right, mod_eq_of_lt (by omega)]

theorem ror_bits (hj : j < bits) :
    ((right bits fun s => s.1.testBit 0)^[n] s).1.testBit j = s.1.testBit ((j + n * 1) % bits) := by
  refine iterate_index (right bits fun s => s.1.testBit 0) (fun s j => s.1.testBit j) (fun s => s.1 < 2 ^ bits) bits 1
    (fun _ h => pull_lt hb h _) ?_ n s hs j hj
  intro s h j hj
  simp only [right]
  rw [pull_testBit hb h _ hj]
  by_cases h : j = bits - 1
  · rw [if_pos h, h, show bits - 1 + 1 = bits by omega, mod_self]
  · rw [if_neg h, mod_eq_of_lt (by omega)]

omit hb hs in
def withCarry (bits : Nat) (s : Nat × Bool) (j : Nat) : Bool := if j < bits then s.1.testBit j else s.2

omit hb hs in
theorem eq_of_withCarry {t} (hs : s.1 < 2 ^ bits) (ht : t.1 < 2 ^ bits)
    (h : ∀ j < bits + 1, withCarry bits s j = withCarry bits t j) : s = t := by
  refine Prod.ext (eq_of_bits hs ht ?_) ?_
  · intro j hj
    have hbit := h j (by omega)
    rwa [withCarry, withCarry, if_pos hj, if_pos hj] at hbit
  · have hbit := h bits (by omega)
    rwa [withCarry, withCarry, if_neg (by omega), if_neg (by omega)] at hbit

theorem rcl_period : (left bits Prod.snd)^[bits + 1] s = s := by
  refine eq_of_withCarry (left_iterate_lt hb hs _ _) hs ?_
  intro j hj
  rw [iterate_index _ (withCarry bits) (fun s => s.1 < 2 ^ bits) (bits + 1) bits (fun _ _ => push_lt hb _) ?_
    (bits + 1) s hs j hj, add_mul_mod_self_left, mod_eq_of_lt hj]
  intro s _ j hj
  simp only [withCarry, left]
  by_cases hjb : j < bits
  · rw [if_pos hjb, push_testBit hb _ hjb]
    by_cases h : j = 0
    · rw [if_pos h, h, Nat.zero_add, mod_eq_of_lt (by omega), if_neg (by omega)]
    · rw [if_neg h, show j + bits = j - 1 + (bits + 1) by omega, add_mod_right, mod_eq_of_lt (by omega),
        if_pos (by omega)]
  · obtain rfl : j = bits := by omega
    rw [if_neg hjb, show j + j = j - 1 + (j + 1) by omega, add_mod_right, mod_eq_of_lt (by omega),
      if_pos (by omega)]

theorem rcr_period : (right bits Prod.snd)^[bits + 1] s = s := by
  refine eq_of_withCarry (right_iterate_lt hb hs _ _) hs ?_
  intro j hj
  rw [iterate_index _ (withCarry bits) (fun s => s.1 < 2 ^ bits) (bits + 1) 1 (fun _ h => pull_lt hb h _) ?_
    (bits + 1) s hs j hj, Nat.mul_one, add_mod_right, mod_eq_of_lt hj]
  intro s hs j hj
  simp only [withCarry, right]
  by_cases hjb : j < bits
  · rw [if_pos hjb, pull_testBit hb hs _ hjb, mod_eq_of_lt (by omega)]
    by_cases h : j = bits - 1
    · rw [if_pos h, if_neg (by omega)]
    · rw [if_neg h, if_pos (by omega)]
  · obtain rfl : j = bits := by omega
    rw [if_neg hjb, mod_self, if_pos (by omega)]

end

theorem rotate_index {bits} (hb : 0 < bits) (n j) : (j + (bits - n % bits)) % bits = (j + n * (bits - 1)) % bits := by
  have hk := mod_lt n hb
  have hdiv := div_add_mod n bits
  refine Nat.ModEq.add_right_cancel' n ?_
  have hleft : j + (bits - n % bits) + n = j + bits * (n / bits + 1) := by
    rw [Nat.mul_add]
    omega
  have hright : j + n * (bits - 1) + n = j + bits * n := by
    obtain ⟨m, rfl⟩ : ∃ m, bits = m + 1 := ⟨bits - 1, by omega⟩
    rw [Nat.add_sub_cancel]
    ring
  rw [hleft, hright, Nat.ModEq, add_mul_mod_self_left, add_mul_mod_self_left]

end Shift

end Rish.Lib
