/-
  Rish.Lib.ExactFloat — results of the floating-point operations that need no rounding.

  A number that fits the format is encoded as it is (`encode_normal`), and what a normal pattern decodes to is the
  number it was packed from (`decode_pack`). `number` is the rational number a value stands for.
-/

import Mathlib.Algebra.Order.Field.Rat
import Mathlib.Algebra.Order.Field.Power
import Rish.Lib.SoftFloat

namespace Rish.Lib.SoftFloat

open Nat

variable {f : Format} {m s : Nat} {e p : Int}

def SameNumber (m : Nat) (e : Int) (s : Nat) (p : Int) : Prop :=
  (∃ k : Nat, m = s * 2 ^ k ∧ p = e + k) ∨ ∃ k : Nat, s = m * 2 ^ k ∧ e = p + k

theorem roundShift_mul (m k) : roundShift (m * 2 ^ k) k = m := by
  unfold roundShift
  by_cases hk : k = 0
  · subst hk
    simp
  · have hhalf : 0 < 2 ^ k / 2 := by
      obtain ⟨j, rfl⟩ := exists_eq_succ_of_ne_zero hk
      rw [Nat.pow_succ, Nat.mul_div_cancel _ (by decide)]
      exact Nat.two_pow_pos j
    simp only [if_neg hk, Nat.mul_div_cancel _ (Nat.two_pow_pos k), mul_mod_left]
    rw [if_neg]
    omega

theorem SameNumber.place (h : SameNumber m e s p) (hlow : 2 ^ f.fractionBits ≤ s)
    (hhigh : s < 2 ^ (f.fractionBits + 1)) :
    m ≠ 0 ∧ e + (m.log2 : Int) - f.fractionBits = p := by
  have hs : s ≠ 0 := by
    have := Nat.two_pow_pos f.fractionBits
    omega
  have hlog : s.log2 = f.fractionBits := (log2_eq_iff hs).mpr ⟨hlow, hhigh⟩
  rcases h with ⟨k, rfl, rfl⟩ | ⟨k, rfl, rfl⟩
  · have hm : s * 2 ^ k ≠ 0 := Nat.mul_ne_zero hs (Nat.two_pow_pos k).ne'
    have hlogm : (s * 2 ^ k).log2 = f.fractionBits + k := by
      rw [log2_eq_iff hm, Nat.pow_add, Nat.add_right_comm, Nat.pow_add _ _ k]
      exact ⟨Nat.mul_le_mul_right _ hlow, Nat.mul_lt_mul_of_pos_right hhigh (Nat.two_pow_pos k)⟩
    refine ⟨hm, ?_⟩
    rw [hlogm]
    push_cast
    ring
  · have hm : m ≠ 0 := by
      rintro rfl
      simp at hs
    have hlogm : (m * 2 ^ k).log2 = m.log2 + k := by
      have h := (log2_eq_iff hm).mp rfl
      rw [log2_eq_iff hs, Nat.pow_add, Nat.add_right_comm, Nat.pow_add _ _ k]
      exact ⟨Nat.mul_le_mul_right _ h.1, Nat.mul_lt_mul_of_pos_right h.2 (Nat.two_pow_pos k)⟩
    refine ⟨hm, ?_⟩
    rw [hlogm] at hlog
    rw [← hlog]
    push_cast
    ring

theorem SameNumber.rounded (h : SameNumber m e s p) :
    (if p ≤ e then m * 2 ^ (e - p).toNat else roundShift m (p - e).toNat) = s := by
  rcases h with ⟨k, rfl, rfl⟩ | ⟨k, rfl, rfl⟩
  · by_cases hk : k = 0
    · subst hk
      simp
    · rw [if_neg (by omega), show (e + (k : Int) - e).toNat = k by omega, roundShift_mul]
  · rw [if_pos (by omega), show (p + (k : Int) - p).toNat = k by omega]

theorem encode_normal (negative) (h : SameNumber m e s p) (hlow : 2 ^ f.fractionBits ≤ s)
    (hhigh : s < 2 ^ (f.fractionBits + 1)) (hplace : f.minPlace ≤ p)
    (hfinite : (p + f.fractionBits + f.bias).toNat < f.maxExponent) :
    encode f negative m e = pack f negative (p + f.fractionBits + f.bias).toNat (s - 2 ^ f.fractionBits) := by
  obtain ⟨hm, hlast⟩ := h.place hlow hhigh
  have hcarried : s ≠ 2 ^ (f.fractionBits + 1) := by omega
  unfold encode
  simp only [if_neg hm, hlast, max_eq_right hplace, h.rounded, if_neg hcarried, if_neg (Nat.not_lt.mpr hlow),
    if_neg (Nat.not_le.mpr hfinite)]

section

variable {exponent fraction : Nat} (hexponent : exponent < f.maxExponent) (hfraction : fraction < 2 ^ f.fractionBits)

include hexponent hfraction

theorem pack_lt : pack f false exponent fraction < 2 ^ (f.fractionBits + f.exponentBits) := by
  have hle : exponent + 1 ≤ 2 ^ f.exponentBits := by
    unfold Format.maxExponent at hexponent
    omega
  calc pack f false exponent fraction
      = exponent * 2 ^ f.fractionBits + fraction := by simp [pack]
    _ < (exponent + 1) * 2 ^ f.fractionBits := by rw [Nat.add_mul]; omega
    _ ≤ 2 ^ f.exponentBits * 2 ^ f.fractionBits := Nat.mul_le_mul_right _ hle
    _ = 2 ^ (f.fractionBits + f.exponentBits) := by rw [← Nat.pow_add, Nat.add_comm]

theorem decode_pack (hnormal : exponent ≠ 0) : decode f (pack f false exponent fraction) =
      .finite false (fraction + 2 ^ f.fractionBits) (exponent - f.bias - f.fractionBits) := by
  have hpack : pack f false exponent fraction = fraction + exponent * 2 ^ f.fractionBits := by
    simp [pack, Nat.add_comm]
  have hpos := Nat.two_pow_pos f.fractionBits
  have hexp : exponentField f (pack f false exponent fraction) = exponent := by
    unfold exponentField
    rw [hpack, add_mul_div_right _ _ hpos, div_eq_of_lt hfraction, Nat.zero_add, mod_eq_of_lt]
    unfold Format.maxExponent at hexponent
    omega
  have hfrac : fractionField f (pack f false exponent fraction) = fraction := by
    unfold fractionField
    rw [hpack, add_mul_mod_self_right, mod_eq_of_lt hfraction]
  have hsign : isNegative f (pack f false exponent fraction) = false := by
    simp [isNegative, div_eq_of_lt (pack_lt hexponent hfraction)]
  unfold decode
  simp only [hexp, hfrac, hsign, if_neg hexponent.ne, if_neg hnormal]

end

/-! ## Numbers -/

def numberOf (negative : Bool) (m : Nat) (e : Int) : ℚ := (if negative then -1 else 1) * (m * 2 ^ e)

def Value.number : Value → Option ℚ
  | .nan => none
  | .infinite _ => none
  | .finite negative m e => some (numberOf negative m e)

theorem numberOf_shift (negative : Bool) (m k : Nat) (e : Int) :
    numberOf negative (m * 2 ^ k) e = numberOf negative m (e + k) := by
  have hpow : (2 : ℚ) ^ (e + k) = 2 ^ k * 2 ^ e := by
    rw [zpow_add₀ (by decide), zpow_natCast, mul_comm]
  unfold numberOf
  rw [hpow]
  push_cast
  ring

theorem numberOf_zero (negative e) : numberOf negative 0 e = 0 := by
  simp [numberOf]

theorem numberOf_inj {negative m m' e} :
    numberOf negative m e = numberOf negative m' e ↔ m = m' := by
  have hsign : (if negative then -1 else 1 : ℚ) ≠ 0 := by
    cases negative <;> decide
  have hpow : (2 : ℚ) ^ e ≠ 0 := zpow_ne_zero e (by decide)
  unfold numberOf
  rw [mul_right_inj' hsign, mul_left_inj' hpow]
  exact Nat.cast_inj

end Rish.Lib.SoftFloat
