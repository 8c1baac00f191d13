/-
  Rish.SoftVm.Ops.Extended80 — doubles stored in the 80-bit format and loaded again.

  The conversion back multiplies the significand by a power of two that is itself a double, computed as the reciprocal
  of the opposite power. Below `2 ^ -1023` that power is an infinity, its reciprocal is zero, and the value is lost.

  Proved: which finite doubles come back (`extended80_roundTrip`), and which are stored as the number they are
  (`extended80_exact_iff`).
-/

import Rish.Lib.ExactFloat
import Rish.SoftVm.Ops.X87

namespace Rish.SoftVm.Ops

open Lib Lib.SoftFloat BitVec Nat

/-! ## Fields of a double -/

variable (v : U64)

def biasedExponent : Nat := ((v >>> 52) &&& 0x7FF).toNat

/-- The fraction bits of a double. -/
def fractionOf : U64 := v &&& 0x000FFFFFFFFFFFFF

/-- Neither an infinity nor a NaN. -/
def IsFinite : Prop := biasedExponent v ≠ 0x7FF

/-- A zero of either sign, or a number whose 63-bit shift is still a power of two the host can invert. -/
def Survives : Prop := (biasedExponent v = 0 ∧ fractionOf v = 0) ∨ 63 ≤ biasedExponent v

instance : Decidable (IsFinite v) := inferInstanceAs (Decidable (_ ≠ _))
instance : Decidable (Survives v) := inferInstanceAs (Decidable (_ ∨ _))

variable {v : U64}

theorem biasedExponent_eq (v) : biasedExponent v = v.toNat / 2 ^ 52 % 2 ^ 11 := by
  unfold biasedExponent
  rw [toNat_and, toNat_ushiftRight, shiftRight_eq_div_pow]
  exact and_two_pow_sub_one_eq_mod _ 11

theorem fractionOf_toNat (v) : (fractionOf v).toNat = v.toNat % 2 ^ 52 := by
  unfold fractionOf
  rw [toNat_and]
  exact and_two_pow_sub_one_eq_mod _ 52

theorem signOf_toNat (v : U64) : (((v >>> 63) &&& 1).setWidth 16).toNat = v.toNat / 2 ^ 63 := by
  have hlt := v.isLt
  rw [toNat_setWidth, toNat_and, toNat_ushiftRight, shiftRight_eq_div_pow,
    show BitVec.toNat (1 : U64) = 2 ^ 1 - 1 from rfl, and_two_pow_sub_one_eq_mod]
  omega

theorem fields (v) : v.toNat = v.toNat / 2 ^ 63 * 2 ^ 63 + biasedExponent v * 2 ^ 52 + (fractionOf v).toNat := by
  rw [biasedExponent_eq, fractionOf_toNat]
  omega

/-! ## The bytes of the 80-bit format -/

theorem mantissa_toNat (v) :
    (0x8000000000000000#64 ||| (fractionOf v <<< 11)).toNat = ((fractionOf v).toNat + 2 ^ 52) * 2 ^ 11 := by
  have hlt : (fractionOf v).toNat < 2 ^ 52 := by
    rw [fractionOf_toNat]
    omega
  have hshift : (fractionOf v <<< 11).toNat = (fractionOf v).toNat * 2 ^ 11 := by
    rw [toNat_shiftLeft, Nat.shiftLeft_eq]
    omega
  have hor := two_pow_add_eq_or_of_lt (show (fractionOf v <<< 11).toNat < 2 ^ 63 by omega) 1
  rw [toNat_or]
  exact hor.symm.trans (by omega)

theorem signExp_toNat {low : U16} (hlow : low.toNat < 2 ^ 15) :
    ((((v >>> 63) &&& 1).setWidth 16 <<< 15) ||| low).toNat = v.toNat / 2 ^ 63 * 2 ^ 15 + low.toNat := by
  have hsign := signOf_toNat v
  have hshift : (((v >>> 63) &&& 1).setWidth 16 <<< 15).toNat = 2 ^ 15 * (v.toNat / 2 ^ 63) := by
    rw [toNat_shiftLeft, Nat.shiftLeft_eq, hsign]
    omega
  rw [toNat_or, hshift, ← two_pow_add_eq_or_of_lt hlow, Nat.mul_comm]

theorem exponent80_toNat (v) :
    (BitVec.ofInt 16 ((biasedExponent v : Int) - 1023 + 16383) &&& 0x7FFF).toNat = biasedExponent v + 15360 := by
  have hlt : biasedExponent v < 2 ^ 11 := by
    rw [biasedExponent_eq]
    omega
  rw [toNat_and, show BitVec.toNat (0x7FFF : U16) = 2 ^ 15 - 1 from rfl, and_two_pow_sub_one_eq_mod, toNat_ofInt]
  omega

theorem exponent80_lt (v) :
    (BitVec.ofInt 16 ((biasedExponent v : Int) - 1023 + 16383) &&& 0x7FFF).toNat < 2 ^ 15 := by
  have heq := biasedExponent_eq v
  rw [exponent80_toNat]
  omega

theorem ofNat_leNat_leBytes {w n} (h : 2 ^ w = 256 ^ n) (x : BitVec w) :
    BitVec.ofNat w (leNat (leBytes n x.toNat)) = x := by
  apply eq_of_toNat_eq
  rw [toNat_ofNat, leNat_leBytes, ← h, mod_mod, mod_eq_of_lt x.isLt]

theorem join_split (mantissa signExp) :
    (leBytes 8 mantissa ++ leBytes 2 signExp).take 8 = leBytes 8 mantissa ∧
      (leBytes 8 mantissa ++ leBytes 2 signExp).drop 8 = leBytes 2 signExp :=
  ⟨List.take_left' (leBytes_length 8 _), List.drop_left' (leBytes_length 8 _)⟩

theorem extended80ToF64_join (mantissa : U64) (signExp : U16) :
    extended80ToF64 (leBytes 8 mantissa.toNat ++ leBytes 2 signExp.toNat) =
      if (signExp &&& 0x7FFF).toNat = 0 ∧ mantissa = 0 then if signExp.getLsbD 15 then 1#64 <<< 63 else 0
      else if (signExp &&& 0x7FFF).toNat = 0x7FFF then
        if mantissa <<< 1 = 0 then (if signExp.getLsbD 15 then 1#64 <<< 63 else 0) ||| 0x7FF0000000000000
        else 0x7FF8000000000000
      else if signExp.getLsbD 15 then
        f64Neg (f64Mul (f64OfInt mantissa.toNat) (powerOfTwo ((signExp &&& 0x7FFF).toNat - 16383 - 63)))
      else f64Mul (f64OfInt mantissa.toNat) (powerOfTwo ((signExp &&& 0x7FFF).toNat - 16383 - 63)) := by
  have hmantissa := ofNat_leNat_leBytes (show 2 ^ 64 = 256 ^ 8 by decide) mantissa
  have hsignExp := ofNat_leNat_leBytes (show 2 ^ 16 = 256 ^ 2 by decide) signExp
  unfold extended80ToF64
  simp only [join_split, hmantissa, hsignExp]

/-! ## The power of two -/

/-- A positive normal double. -/
def normal (exponent fraction : Nat) : U64 := BitVec.ofNat 64 (pack binary64 false exponent fraction)

variable {exponent fraction : Nat}

theorem normal_toNat (he : exponent < 2047) (hf : fraction < 2 ^ 52) :
    (normal exponent fraction).toNat = exponent * 2 ^ 52 + fraction := by
  have hpack : pack binary64 false exponent fraction = exponent * 2 ^ 52 + fraction := by
    simp [pack, binary64]
  unfold normal
  rw [toNat_ofNat, hpack]
  omega

theorem decode_normal (hpos : exponent ≠ 0) (he : exponent < 2047) (hf : fraction < 2 ^ 52) :
    decode binary64 (normal exponent fraction).toNat = .finite false (fraction + 2 ^ 52) (exponent - 1075) := by
  have hpack : (normal exponent fraction).toNat = pack binary64 false exponent fraction := by
    rw [normal_toNat he hf]
    simp [pack, binary64]
  have hvalue := decode_pack (f := binary64) he hf hpos
  rw [hpack, hvalue]
  congr 1
  simp only [Format.bias, binary64]
  omega

theorem encode_binary64 {m s e p} (h : SameNumber m e s p) (hlow : 2 ^ 52 ≤ s) (hhigh : s < 2 ^ 53)
    (hplace : -1074 ≤ p) (hfinite : p ≤ 971) :
    BitVec.ofNat 64 (encode binary64 false m e) = normal (p + 1075).toNat (s - 2 ^ 52) := by
  have hexponent : p + binary64.fractionBits + binary64.bias = p + 1075 := by
    simp only [Format.bias, binary64]
    omega
  have hmin : binary64.minPlace = -1074 := by decide
  have hmax : binary64.maxExponent = 2047 := by decide
  have henc := encode_normal (f := binary64) false h hlow hhigh (by omega) (by rw [hexponent, hmax]; omega)
  rw [henc, hexponent]
  rfl

theorem f64OfInt_two_pow {n} (hn : n < 1024) : f64OfInt (2 ^ n) = normal (n + 1023) 0 := by
  have hsame : SameNumber (2 ^ n) 0 (2 ^ 52) (n - 52) := by
    by_cases h : 52 ≤ n
    · refine .inl ⟨n - 52, ?_, by omega⟩
      rw [← Nat.pow_add]
      congr 1
      omega
    · refine .inr ⟨52 - n, ?_, by omega⟩
      rw [← Nat.pow_add]
      congr 1
      omega
  have hnat : (2 ^ n : Int).natAbs = 2 ^ n := by
    rw [Int.natAbs_pow]
    rfl
  have hneg : ¬ (2 ^ n : Int) < 0 := by
    exact Int.not_lt.mpr (Int.pow_nonneg (by decide))
  have henc := encode_binary64 hsame (by decide) (by decide) (by omega) (by omega)
  unfold f64OfInt ofInt
  rw [hnat, decide_eq_false hneg, henc, Nat.sub_self]
  congr 1
  omega

theorem f64Div_two_pow {k} (hk : k ≤ 1022) : f64Div (f64OfInt 1) (f64OfInt (2 ^ k)) = normal (1023 - k) 0 := by
  have hone : decode binary64 (f64OfInt 1).toNat = .finite false (2 ^ 52) (-52) := by decide +kernel
  have hpower : decode binary64 (f64OfInt (2 ^ k)).toNat =
      .finite false (2 ^ 52) (((k + 1023 : Nat) : Int) - 1075) := by
    rw [f64OfInt_two_pow (by omega), decode_normal (by omega) (by omega) (by decide), Nat.zero_add]
  have hsame : SameNumber (2 ^ 52 * 2 ^ 59) (-52 - (((k + 1023 : Nat) : Int) - 1075) - ((2 * 52 + 6 : Nat) : Int) - 1)
      (2 ^ 52) (-(k : Int) - 52) := .inl ⟨59, rfl, by omega⟩
  have henc := encode_binary64 hsame (by decide) (by decide) (by omega) (by omega)
  have hquotient (q : Int) : divFinite binary64 false (2 ^ 52) (-52) (2 ^ 52) q =
      encode binary64 false (2 ^ 52 * 2 ^ 59) (-52 - q - ((2 * 52 + 6 : Nat) : Int) - 1) := rfl
  unfold f64Div onDoubles SoftFloat.div
  rw [hone, hpower]
  simp only [bne_self_eq_false]
  rw [if_neg (by decide), hquotient, henc, Nat.sub_self]
  congr 1
  omega

theorem decode_powerOfTwo {n} (hlow : -1023 ≤ n) (hhigh : n < 1024) :
    ∃ j : Nat, decode binary64 (powerOfTwo n).toNat = .finite false (2 ^ j) (n - j) := by
  by_cases hleast : n = -1023
  · subst hleast
    exact ⟨51, by decide +kernel⟩
  · refine ⟨52, ?_⟩
    have hpower : powerOfTwo n = normal (n + 1023).toNat 0 := by
      have hin : n.natAbs < 1024 := by omega
      simp only [powerOfTwo, if_pos hin]
      by_cases hneg : n < 0
      · rw [if_pos hneg, f64Div_two_pow (by omega)]
        congr 1
        omega
      · rw [if_neg hneg, f64OfInt_two_pow hin]
        congr 1
        omega
    have hplace : (((n + 1023).toNat : Nat) : Int) - 1075 = n - (52 : Nat) := by omega
    rw [hpower, decode_normal (by omega) (by omega) (by decide), Nat.zero_add, hplace]

theorem powerOfTwo_eq_zero {n} (h : n < -1023) : powerOfTwo n = 0 := by
  have hzero : f64Div (f64OfInt 1) (BitVec.ofNat 64 (infinity binary64 false)) = 0 := by decide +kernel
  have hbig : ¬ n.natAbs < 1024 := by omega
  have hneg : n < 0 := by omega
  simp only [powerOfTwo, if_neg hbig, if_pos hneg, hzero]

/-! ## The way back -/

section

variable {fraction : Nat} (hfraction : fraction < 2 ^ 52)

include hfraction

theorem decode_significand :
    decode binary64 (f64OfInt ((fraction + 2 ^ 52) * 2 ^ 11 : Nat)).toNat = .finite false (fraction + 2 ^ 52) 11 := by
  have hsame : SameNumber ((fraction + 2 ^ 52) * 2 ^ 11) 0 (fraction + 2 ^ 52) 11 := .inl ⟨11, rfl, rfl⟩
  have hvalue : f64OfInt ((fraction + 2 ^ 52) * 2 ^ 11 : Nat) = normal 1086 fraction := by
    have hneg : ¬ (((fraction + 2 ^ 52) * 2 ^ 11 : Nat) : Int) < 0 := by omega
    unfold f64OfInt ofInt
    rw [Int.natAbs_natCast, decide_eq_false hneg,
      encode_binary64 hsame (by omega) (by omega) (by decide) (by decide), Nat.add_sub_cancel]
    rfl
  rw [hvalue, decode_normal (by decide) (by decide) hfraction]
  rfl

theorem f64Mul_exact {exponent : Nat} (hlow : 63 ≤ exponent) (hhigh : exponent < 2047) :
    f64Mul (f64OfInt ((fraction + 2 ^ 52) * 2 ^ 11 : Nat)) (powerOfTwo ((exponent : Int) - 1086)) =
      normal exponent fraction := by
  obtain ⟨j, hpower⟩ := decode_powerOfTwo (n := (exponent : Int) - 1086) (by omega) (by omega)
  have hsame : SameNumber ((fraction + 2 ^ 52) * 2 ^ j) (11 + ((exponent : Int) - 1086 - j)) (fraction + 2 ^ 52)
      ((exponent : Int) - 1075) := .inl ⟨j, rfl, by omega⟩
  unfold f64Mul onDoubles SoftFloat.mul
  rw [decode_significand hfraction, hpower]
  simp only [mulValue, ofValue, bne_self_eq_false]
  rw [encode_binary64 hsame (by omega) (by omega) (by omega) (by omega), Nat.add_sub_cancel]
  congr 1
  omega

theorem f64Mul_lost {exponent} (h : exponent < 63) :
    f64Mul (f64OfInt ((fraction + 2 ^ 52) * 2 ^ 11 : Nat)) (powerOfTwo ((exponent : Int) - 1086)) = 0 := by
  have hzero : decode binary64 (0 : U64).toNat = .finite false 0 (-1074) := by decide
  rw [powerOfTwo_eq_zero (by omega)]
  unfold f64Mul onDoubles SoftFloat.mul
  rw [decode_significand hfraction, hzero]
  simp only [mulValue, ofValue, encode, Nat.mul_zero, if_true]
  rfl

end

theorem neg_of_sign {u} (hu : u.toNat = v.toNat % 2 ^ 63) :
    (if v.toNat / 2 ^ 63 = 1 then f64Neg u else u) = v := by
  apply eq_of_toNat_eq
  by_cases hsign : v.toNat / 2 ^ 63 = 1
  · have hu' : u.toNat < 2 ^ 63 := by omega
    have hxor : u.toNat ^^^ 2 ^ 63 = 2 ^ 63 * 1 ||| u.toNat := by
      apply eq_of_testBit_eq
      intro j
      rw [Nat.mul_one, testBit_xor, testBit_or, testBit_two_pow]
      by_cases hj : 63 = j
      · subst hj
        simp [testBit_lt_two_pow hu']
      · simp [hj]
    rw [if_pos hsign, f64Neg, toNat_xor]
    exact (hxor.trans (two_pow_add_eq_or_of_lt hu' 1).symm).trans (by omega)
  · rw [if_neg hsign]
    omega

theorem signExp_sign {low} (hlow : low.toNat < 2 ^ 15) :
    ((((v >>> 63) &&& 1).setWidth 16 <<< 15) ||| low).getLsbD 15 = decide (v.toNat / 2 ^ 63 = 1) := by
  have hlt := v.isLt
  rw [BitVec.getLsbD, signExp_toNat hlow, testBit_eq_decide_div_mod_eq]
  exact decide_eq_decide.mpr (by omega)

theorem signExp_exponent {low} (hlow : low.toNat < 2 ^ 15) :
    ((((v >>> 63) &&& 1).setWidth 16 <<< 15 ||| low) &&& 0x7FFF).toNat = low.toNat := by
  rw [toNat_and, signExp_toNat hlow, show BitVec.toNat (0x7FFF : U16) = 2 ^ 15 - 1 from rfl,
    and_two_pow_sub_one_eq_mod]
  omega

theorem f64ToExtended80_zero (h : IsFinite v) (hzero : biasedExponent v = 0 ∧ fractionOf v = 0) :
    f64ToExtended80 v = leBytes 8 (0 : U64).toNat ++
      leBytes 2 ((((v >>> 63) &&& 1).setWidth 16 <<< 15) ||| (0 : U16)).toNat := by
  have hor : ((((v >>> 63) &&& 1).setWidth 16 <<< 15) ||| (0 : U16)) = ((v >>> 63) &&& 1).setWidth 16 <<< 15 :=
    BitVec.or_zero
  rw [hor]
  exact (if_neg h).trans (if_pos hzero)

theorem f64ToExtended80_nonzero (h : IsFinite v) (hzero : ¬(biasedExponent v = 0 ∧ fractionOf v = 0)) :
    f64ToExtended80 v = leBytes 8 (0x8000000000000000#64 ||| (fractionOf v <<< 11)).toNat ++
      leBytes 2 ((((v >>> 63) &&& 1).setWidth 16 <<< 15) |||
        (BitVec.ofInt 16 ((biasedExponent v : Int) - 1023 + 16383) &&& 0x7FFF)).toNat :=
  (if_neg h).trans (if_neg hzero)

theorem fractionOf_lt (v) : (fractionOf v).toNat < 2 ^ 52 := by
  rw [fractionOf_toNat]
  omega

theorem IsFinite.exponent_lt (h : IsFinite v) : biasedExponent v < 2047 := by
  have hne : biasedExponent v ≠ 2047 := h
  have heq := biasedExponent_eq v
  omega

theorem extended80_roundTrip (h : IsFinite v) : extended80ToF64 (f64ToExtended80 v) = v ↔ Survives v := by
  have hfields := fields v
  have hfraction := fractionOf_lt v
  have hexponent := h.exponent_lt
  by_cases hzero : biasedExponent v = 0 ∧ fractionOf v = 0
  · rw [f64ToExtended80_zero h hzero, extended80ToF64_join, signExp_exponent (by decide), signExp_sign (by decide)]
    refine iff_of_true ?_ (.inl hzero)
    rw [if_pos ⟨rfl, rfl⟩]
    have hmagnitude : (0 : U64).toNat = v.toNat % 2 ^ 63 := by
      rw [hzero.1, hzero.2] at hfields
      omega
    have hneg : f64Neg 0 = 1#64 <<< 63 := by decide
    simpa only [decide_eq_true_eq, hneg] using neg_of_sign hmagnitude
  · have hlow := exponent80_lt v
    have hplace : ((biasedExponent v + 15360 : Nat) : Int) - 16383 - 63 = (biasedExponent v : Int) - 1086 := by omega
    rw [f64ToExtended80_nonzero h hzero, extended80ToF64_join, signExp_exponent hlow, signExp_sign hlow,
      exponent80_toNat,
      mantissa_toNat, hplace,
      if_neg (by omega), if_neg (by omega)]
    simp only [decide_eq_true_eq]
    by_cases hbig : 63 ≤ biasedExponent v
    · refine iff_of_true ?_ (.inr hbig)
      rw [f64Mul_exact hfraction hbig hexponent]
      exact neg_of_sign (by rw [normal_toNat hexponent hfraction]; omega)
    · refine iff_of_false ?_ (by rintro (hz | hb); exacts [hzero hz, hbig hb])
      rw [f64Mul_lost hfraction (by omega)]
      intro hback
      -- what came back is a zero
      apply hzero
      rw [← hback]
      split <;> decide

/-! ## The number ten bytes stand for -/

/-- The number a double stands for; an infinity and a NaN stand for none. -/
def f64Number (v : U64) : Option ℚ := (decode binary64 v.toNat).number

/-- The number an x87 extended pattern stands for: a sign, an exponent of fifteen bits with bias 16383 and a significand
    of 64 bits with an explicit integer bit. The least exponent is that of the denormals too. -/
def extendedNumber (bytes : List U8) : Option ℚ :=
  let significand := leNat (bytes.take 8)
  let signExp := leNat (bytes.drop 8)
  let exponent := signExp % 2 ^ 15
  if exponent = 0x7FFF then none
  else some (numberOf (signExp / 2 ^ 15 = 1) significand ((max exponent 1 : Nat) - 16383 - 63))

/-- Not zero, and without a leading one. -/
def IsSubnormal (v : U64) : Prop := biasedExponent v = 0 ∧ fractionOf v ≠ 0

instance (v : U64) : Decidable (IsSubnormal v) := inferInstanceAs (Decidable (_ ∧ _))

theorem extendedNumber_join (mantissa : U64) (signExp : U16) :
    extendedNumber (leBytes 8 mantissa.toNat ++ leBytes 2 signExp.toNat) =
      if signExp.toNat % 2 ^ 15 = 0x7FFF then none
      else some (numberOf (signExp.toNat / 2 ^ 15 = 1) mantissa.toNat
        ((max (signExp.toNat % 2 ^ 15) 1 : Nat) - 16383 - 63)) := by
  have hmantissa : leNat (leBytes 8 mantissa.toNat) = mantissa.toNat := by
    rw [leNat_leBytes]
    exact mod_eq_of_lt mantissa.isLt
  have hsignExp : leNat (leBytes 2 signExp.toNat) = signExp.toNat := by
    rw [leNat_leBytes]
    exact mod_eq_of_lt signExp.isLt
  unfold extendedNumber
  simp only [join_split, hmantissa, hsignExp]

theorem f64Number_eq (h : IsFinite v) : f64Number v =
    if biasedExponent v = 0 then some (numberOf (v.toNat / 2 ^ 63 = 1) (fractionOf v).toNat (-1074))
    else some (numberOf (v.toNat / 2 ^ 63 = 1) ((fractionOf v).toNat + 2 ^ 52) ((biasedExponent v : Int) - 1075)) := by
  have hexponent : exponentField binary64 v.toNat = biasedExponent v := (biasedExponent_eq v).symm
  have hfraction : fractionField binary64 v.toNat = (fractionOf v).toNat := (fractionOf_toNat v).symm
  have hsign : isNegative binary64 v.toNat = decide (v.toNat / 2 ^ 63 = 1) := by
    have hlt := v.isLt
    exact decide_eq_decide.mpr (by simp only [binary64]; omega)
  have hfinite : biasedExponent v ≠ binary64.maxExponent := h
  have hplace : (biasedExponent v : Int) - binary64.bias - binary64.fractionBits = (biasedExponent v : Int) - 1075 := by
    simp only [Format.bias, binary64]
    omega
  unfold f64Number decode
  simp only [hexponent, hfraction, hsign, if_neg hfinite, hplace]
  split <;> rfl

/-- The ten bytes stored for a finite double are the same number, unless it is subnormal. -/
theorem extended80_exact_iff (v : U64) (h : IsFinite v) :
    extendedNumber (f64ToExtended80 v) = f64Number v ↔ ¬IsSubnormal v := by
  have hfraction := fractionOf_lt v
  have hexponent := h.exponent_lt
  rw [f64Number_eq h]
  by_cases hzero : biasedExponent v = 0 ∧ fractionOf v = 0
  · refine iff_of_true ?_ fun hsub => hsub.2 hzero.2
    have hsignExp : v.toNat / 2 ^ 63 * 2 ^ 15 % 2 ^ 15 ≠ 0x7FFF := by omega
    rw [f64ToExtended80_zero h hzero, extendedNumber_join, signExp_toNat (by decide), if_pos hzero.1, hzero.2]
    rw [show (0 : U16).toNat = 0 from rfl, Nat.add_zero, if_neg hsignExp, show (0 : U64).toNat = 0 from rfl,
      numberOf_zero,
      numberOf_zero]
  · have hlow := exponent80_lt v
    have hmod : (v.toNat / 2 ^ 63 * 2 ^ 15 + (biasedExponent v + 15360)) % 2 ^ 15 = biasedExponent v + 15360 := by omega
    have hdiv : (v.toNat / 2 ^ 63 * 2 ^ 15 + (biasedExponent v + 15360)) / 2 ^ 15 = v.toNat / 2 ^ 63 := by omega
    have hplace : ((max (biasedExponent v + 15360) 1 : Nat) : Int) - 16383 - 63 + (11 : Nat) =
        (biasedExponent v : Int) - 1075 := by
      omega
    rw [f64ToExtended80_nonzero h hzero, extendedNumber_join, signExp_toNat hlow, exponent80_toNat, hmod, hdiv,
      if_neg (by omega), mantissa_toNat, numberOf_shift, hplace]
    by_cases hsub : biasedExponent v = 0
    · -- the stored leading one makes it another number
      refine iff_of_false ?_ fun hnot => hnot ⟨hsub, fun hf => hzero ⟨hsub, hf⟩⟩
      have hdouble := numberOf_shift (decide (v.toNat / 2 ^ 63 = 1)) (fractionOf v).toNat 1 (-1075)
      rw [if_pos hsub, hsub, Option.some_inj]
      intro heq
      have hsame := heq.trans hdouble.symm
      rw [show ((0 : Nat) : Int) - 1075 = -1075 from rfl, numberOf_inj] at hsame
      omega
    · rw [if_neg hsub]
      exact iff_of_true rfl fun hnot => hsub hnot.1

/-- One half is stored as one half. -/
theorem half_is_exact : extendedNumber (f64ToExtended80 0x3FE0000000000000) = f64Number 0x3FE0000000000000 :=
  (extended80_exact_iff 0x3FE0000000000000 (by decide)).mpr (by decide)

/-- The smallest double is stored with the significand of `2 ^ -1023`. -/
theorem smallest_stored_wrong :
    IsFinite 1 ∧ leNat ((f64ToExtended80 1).take 8) = 2 ^ 63 + 2 ^ 11 ∧
      extendedNumber (f64ToExtended80 1) ≠ f64Number 1 := by
  refine ⟨by decide, by decide, ?_⟩
  decide +kernel

end Rish.SoftVm.Ops
