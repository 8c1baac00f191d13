/-
  Rish.Applets.Cksum — the checksum of `cksum`, as a remainder of polynomials over two elements.

  The shift register holds a polynomial of degree below 32. A turn of its loop multiplies it by `X` modulo the generator,
  so after the bytes of a message it holds the remainder of the message times `X ^ 32`.
-/

import Rish.Lib.BitPoly
import Rish.Lib.Bytes

namespace Rish.Applets

open Lib Polynomial
open BitVec (twoPow getLsbD_of_ge)

/-! ## The loop -/

def shift (crc : U32) : U32 := if crc &&& 0x80000000 ≠ 0 then (crc <<< 1) ^^^ 0x04C11DB7 else crc <<< 1

def feed (crc : U32) (byte : U8) : U32 := shift^[8] (crc ^^^ (byte.setWidth 32 <<< 24))

/-- The length, a byte at a time while any is left. -/
def feedLength (crc : U32) (length : Nat) : U32 :=
  if length = 0 then crc else feedLength (feed crc (BitVec.ofNat 8 length)) (length / 256)

def posixCrc32 (bytes : List U8) : U32 := ~~~feedLength (bytes.foldl feed 0) bytes.length

/-! ## The polynomials -/

noncomputable def generator : (ZMod 2)[X] := poly 0x104C11DB7#33

/-- The bits of a message, the first byte in the highest places. -/
noncomputable def message (bytes : List U8) : (ZMod 2)[X] := bytes.foldl (fun m byte => m * X ^ 8 + poly byte) 0

/-- The length in the fewest bytes, the lowest first. -/
def lengthBytes (length : Nat) : List U8 := (Nat.digits 256 length).map (BitVec.ofNat 8)

theorem generator_eq : generator = X ^ 32 + poly (0x04C11DB7 : U32) := by
  have hbits : 0x104C11DB7#33 = twoPow 33 32 ^^^ (0x04C11DB7 : U32).setWidth 33 := rfl
  rw [generator, hbits, poly_xor, poly_twoPow (by decide), poly_setWidth _ (by decide)]

/-! ## One turn, one byte, a message -/

noncomputable def residue : (ZMod 2)[X] →+* AdjoinRoot generator := AdjoinRoot.mk generator

theorem residue_shift (crc) : residue (poly (shift crc)) = residue (poly crc * X) := by
  have hlow {x : U32} (h : x.getLsbD 31 = false) : poly (x <<< 1) = poly x * X := by
    rw [poly_shiftLeft, pow_one]
    intro i hi
    obtain rfl | hlt := (show 31 ≤ i by omega).eq_or_lt
    · exact h
    · exact getLsbD_of_ge x i hlt
  have htop : crc &&& 0x80000000 = if crc.getLsbD 31 then twoPow 32 31 else 0 := BitVec.and_twoPow crc 31
  cases hbit : crc.getLsbD 31 with
  | false => rw [shift, htop, hbit, if_neg (by decide), hlow hbit]
  | true =>
    -- the bit shifted out is `X ^ 32`, which the generator turns into its lower bits
    obtain ⟨x, rfl⟩ : ∃ x, crc = x ^^^ twoPow 32 31 := ⟨crc ^^^ twoPow 32 31, by simp⟩
    have hx : x.getLsbD 31 = false := by simpa using hbit
    have hsum : poly x * X + poly (0x04C11DB7 : U32) - (poly x + X ^ 31) * X = generator := by
      rw [CharTwo.sub_eq_add, add_mul, ← pow_succ, add_add_add_comm, CharTwo.add_self_eq_zero, zero_add, add_comm,
        generator_eq]
    rw [shift, htop, hbit, if_pos (by decide), BitVec.shiftLeft_xor_distrib, show twoPow 32 31 <<< 1 = 0#32 from rfl,
      BitVec.xor_zero, poly_xor, poly_xor, poly_twoPow (by decide), hlow hx, residue, AdjoinRoot.mk_eq_mk, hsum]

theorem residue_feed (crc byte) : residue (poly (feed crc byte)) = residue (poly crc * X ^ 8 + poly byte * X ^ 32) := by
  have hturns (n : Nat) (crc) : residue (poly (shift^[n] crc)) = residue (poly crc * X ^ n) := by
    induction n generalizing crc with
    | zero => simp
    | succ n ih => rw [Function.iterate_succ_apply, ih, map_mul, residue_shift, ← map_mul, mul_assoc, ← pow_succ']
  rw [feed, hturns, poly_xor, poly_shiftLeft, poly_setWidth _ (by decide)]
  · ring_nf
  · intro i hi
    rw [BitVec.getLsbD_setWidth, getLsbD_of_ge byte i (by omega), Bool.and_false]

theorem residue_message (bytes : List U8) : residue (poly (bytes.foldl feed 0)) = residue (message bytes * X ^ 32) := by
  induction bytes using List.reverseRecOn with
  | nil =>
    congr 1
    ext i
    simp [coeff_poly, message]
  | append_singleton bytes byte ih =>
    simp only [message, List.foldl_append, List.foldl_cons, List.foldl_nil] at ih ⊢
    rw [residue_feed, map_add, map_mul, ih, ← map_mul, ← map_add]
    exact congrArg residue (by ring)

theorem feedLength_eq (crc length) : feedLength crc length = (lengthBytes length).foldl feed crc := by
  fun_induction feedLength crc length with
  | case1 crc => rfl
  | case2 crc length h ih =>
    have hbyte : BitVec.ofNat 8 (length % 256) = BitVec.ofNat 8 length := BitVec.eq_of_toNat_eq (by simp)
    rw [ih, lengthBytes, lengthBytes, Nat.digits_def' (by decide) (Nat.pos_of_ne_zero h), List.map_cons, hbyte,
      List.foldl_cons]

/-- The checksum is the complement of the remainder of the message and its length, times `X ^ 32`. -/
theorem posix_crc32_remainder (bytes : List U8) : ∃ remainder : U32, posixCrc32 bytes = ~~~remainder ∧
    poly remainder = message (bytes ++ lengthBytes bytes.length) * X ^ 32 %ₘ generator := by
  refine ⟨_, rfl, ?_⟩
  rw [feedLength_eq, ← List.foldl_append]
  have hresidue := residue_message (bytes ++ lengthBytes bytes.length)
  have hmonic : generator.Monic := generator_eq ▸ monic_X_pow_add (degree_poly_lt _)
  have hsmall (x : U32) : poly x %ₘ generator = poly x := by
    rw [modByMonic_eq_self_iff hmonic, generator_eq, degree_add_eq_left_of_degree_lt] <;> rw [degree_X_pow] <;>
      exact degree_poly_lt _
  rw [← hsmall]
  exact modByMonic_eq_of_dvd_sub hmonic (AdjoinRoot.mk_eq_mk.mp hresidue)

end Rish.Applets
