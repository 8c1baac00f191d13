/-
  Rish.SoftVm.Ops.Values — operands as numbers of their width.
-/

import Rish.Lib.Alu
import Rish.SoftVm.Ops.Operand

namespace Rish.SoftVm

open Lib BitVec Nat
open BitVec (ofNat)

namespace Cpu

theorem offset_lt (physical : U64) : (physical &&& 0xFFF).toNat < 4096 := by
  have h : (physical &&& 0xFFF).toNat ≤ 0xFFF := by
    rw [toNat_and]
    exact and_le_right
  omega

theorem readPages_length {toPhysical} {rounds n k : Nat} {linear : U64} {c c' : Cpu} {bytes : List U8}
    (hn : n ≤ rounds) (h : readPages toPhysical rounds linear n c = ⟨.ok bytes, c', k⟩) : bytes.length = n := by
  induction rounds generalizing linear n c c' bytes k with
  | zero =>
    cases h
    exact (le_zero.mp hn).symm
  | succ rounds ih =>
    unfold readPages at h
    split at h
    · cases h
      exact Eq.symm ‹n = 0›
    · obtain ⟨physical, c1, _, _, -, h, -⟩ := Exec.bind_eq_ok h
      obtain ⟨head, c2, _, _, hhead, h, -⟩ := Exec.bind_eq_ok h
      obtain ⟨tail, c3, _, _, htail, h, -⟩ := Exec.bind_eq_ok h
      have hread : c1.memory.read physical (min (4096 - (physical &&& 0xFFF).toNat) n) = .ok head := by
        simpa [memoryRead] using congrArg Run.outcome hhead
      have hlt := offset_lt physical
      have hrest := ih (by omega) htail
      cases h
      rw [List.length_append, c1.memory.read_length hread, hrest]
      omega

theorem readLinear_lt {linear size n c c' v}
    (h : readLinear linear size c = ⟨.ok v, c', n⟩) : operandWidth size ∧ v.toNat < 256 ^ size := by
  unfold readLinear at h
  split at h
  · obtain ⟨physical, c1, _, _, -, h, -⟩ := Exec.bind_eq_ok h
    split at h
    · have hread : c1.memory.readU64At physical size = .ok v := by
        simpa [memoryReadLe] using congrArg Run.outcome h
      exact ⟨‹_›, c1.memory.readU64At_lt hread⟩
    · cases h
  · split at h
    · obtain ⟨bytes, c1, _, _, hbytes, h, -⟩ := Exec.bind_eq_ok h
      cases h
      have hlt := leNat_lt bytes
      rw [readPages_length (Nat.le_refl _) hbytes] at hlt
      exact ⟨‹_›, Nat.lt_of_le_of_lt (mod_le _ _) hlt⟩
    · cases h

end Cpu

namespace Ops

open Cpu

/-! ## Operands that were read -/

variable {size : Nat}

theorem width_cases (hs : operandWidth size) : size = 1 ∨ size = 2 ∨ size = 4 ∨ size = 8 := of_decide_eq_true hs

theorem lowBytes_toNat (hs : operandWidth size) (v) : (lowBytes size v).toNat = v.toNat % 256 ^ size := by
  rcases width_cases hs with rfl | rfl | rfl | rfl
  · exact (toNat_and v 0xFF).trans (and_two_pow_sub_one_eq_mod v.toNat 8)
  · exact (toNat_and v 0xFFFF).trans (and_two_pow_sub_one_eq_mod v.toNat 16)
  · exact (toNat_and v 0xFFFFFFFF).trans (and_two_pow_sub_one_eq_mod v.toNat 32)
  · exact (mod_eq_of_lt v.isLt).symm

theorem registerSize_width (register) : operandWidth (registerSize register) := by cases register <;> rfl

theorem readRegister_lt (r register) :
    (readRegister r register (registerSize register)).toNat < 256 ^ registerSize register := by
  cases register with
  | high8 k =>
    refine Nat.lt_of_le_of_lt (m := 0xFF) ?_ (by decide : 0xFF < 256 ^ 1)
    simp only [readRegister, toNat_and]
    exact and_le_right
  | _ =>
    refine Nat.lt_of_le_of_lt (Nat.le_of_eq (lowBytes_toNat (registerSize_width _) _)) (mod_lt _ ?_)
    exact Nat.pow_pos (by decide)

theorem readOperand0_lt {i c c' v n}
    (h : readOperand0 i c = ⟨.ok v, c', n⟩) : operandWidth (operandSize i 0) ∧ v.toNat < 256 ^ operandSize i 0 := by
  unfold readOperand0 at h
  split at h
  · rename_i hk
    have hsize : operandSize i 0 = memorySize i := by simp [operandSize, hk]
    rw [hsize]
    obtain ⟨c1, _, _, _, -, h, -⟩ := Exec.bind_eq_ok h
    exact readLinear_lt h
  · rename_i hk
    cases h
    by_cases hr : i.opKind 0 = .register
    · have hsize : operandSize i 0 = registerSize (i.opRegister 0) := by simp [operandSize, hr]
      rw [hsize]
      exact ⟨registerSize_width _, readRegister_lt _ _⟩
    · have hsize : operandSize i 0 = 8 := by simp [operandSize, hr, hk]
      rw [hsize]
      exact ⟨by decide, BitVec.isLt _⟩

/-! ## Words in parts -/

theorem halves_toNat {w n : Nat} {high low : BitVec w} (hl : low.toNat < 2 ^ n) (hh : high.toNat * 2 ^ n < 2 ^ w) :
    ((high <<< n) ||| low).toNat = high.toNat * 2 ^ n + low.toNat := by
  rw [toNat_or, toNat_shiftLeft, Nat.shiftLeft_eq, mod_eq_of_lt hh, ← Nat.shiftLeft_eq,
    shiftLeft_add_eq_or_of_lt hl]

theorem setWidth_toNat_of_le {w v} (x : BitVec w) (h : w ≤ v) : (x.setWidth v).toNat = x.toNat := by
  rw [toNat_setWidth, mod_eq_of_lt (Nat.lt_of_lt_of_le x.isLt (Nat.pow_le_pow_right (by decide) h))]

theorem and_mask (size : Nat) {mask : U64} (h : mask.setWidth (8 * size) = BitVec.allOnes (8 * size)) (v : U64) :
    (v &&& mask).setWidth (8 * size) = v.setWidth (8 * size) := by
  rw [setWidth_and, h, and_allOnes]

theorem or_mask (size : Nat) {mask : U64} (h : mask.setWidth (8 * size) = 0#(8 * size)) (old v : U64) :
    ((old &&& mask) ||| v).setWidth (8 * size) = v.setWidth (8 * size) := by
  rw [setWidth_or, setWidth_and, h, BitVec.and_zero, BitVec.zero_or]

theorem patchLow_setWidth (hs : operandWidth size) (old v : U64) :
    (patchLow old size v).setWidth (8 * size) = v.setWidth (8 * size) := by
  rcases width_cases hs with rfl | rfl | rfl | rfl
  · exact (or_mask 1 (by decide) _ _).trans (and_mask 1 (by decide) v)
  · exact (or_mask 2 (by decide) _ _).trans (and_mask 2 (by decide) v)
  · exact and_mask 4 (by decide) v
  · rfl

theorem highByte_low (old v : U64) :
    ((old &&& ~~~0xFF00#64) ||| ((v &&& 0xFF) <<< 8)).setWidth 8 = old.setWidth 8 := by
  have hv : ((v &&& 0xFF) <<< 8).setWidth 8 = 0#8 := by
    ext k hk
    simp
  rw [setWidth_or, hv, BitVec.or_zero]
  exact and_mask 1 (by decide) old

theorem highByte_high (old v : U64) :
    (((old &&& ~~~0xFF00#64) ||| ((v &&& 0xFF) <<< 8)) >>> 8).setWidth 8 = v.setWidth 8 := by
  have hold : ((old &&& ~~~0xFF00#64) >>> 8).setWidth 8 = 0#8 := by
    rw [ushiftRight_and_distrib]
    exact (setWidth_and ..).trans (by rw [show ((~~~0xFF00#64) >>> 8).setWidth 8 = 0#8 by decide, BitVec.and_zero])
  have hv : ((v &&& 0xFF) <<< 8) >>> 8 = v &&& 0xFF := by
    have hlt : (v &&& 0xFF).toNat ≤ 0xFF := by
      rw [toNat_and]
      exact and_le_right
    apply eq_of_toNat_eq
    rw [toNat_ushiftRight, toNat_shiftLeft, Nat.shiftLeft_eq, shiftRight_eq_div_pow]
    omega
  rw [ushiftRight_or_distrib, setWidth_or, hold, hv, BitVec.zero_or]
  exact and_mask 1 (by decide) v

theorem mod_of_setWidth {n : Nat} {v w : U64} (h : v.setWidth n = w.setWidth n) :
    v.toNat % 2 ^ n = w.toNat % 2 ^ n := by
  rw [← toNat_setWidth, ← toNat_setWidth, h]

/-! ## Values at a width -/

def low (bits : Nat) (v : U64) : Nat := v.toNat % 2 ^ bits

theorem low_lt (bits v) : low bits v < 2 ^ bits := mod_lt _ (Nat.two_pow_pos _)

theorem low_of_lt {bits v} (h : v.toNat < 2 ^ bits) : low bits v = v.toNat := mod_eq_of_lt h

theorem bits_of_width (hs : operandWidth size) : 8 ≤ size * 8 ∧ size * 8 ≤ 64 := by
  have := width_cases hs
  omega

theorem pow_bits (size) : 256 ^ size = 2 ^ (size * 8) := by
  rw [show 256 = 2 ^ 8 from rfl, ← pow_mul, Nat.mul_comm]

section

variable {bits : Nat} (hb : bits ≤ 64)

include hb

theorem bitsMask_toNat : (bitsMask bits).toNat = 2 ^ bits - 1 := by
  unfold bitsMask
  split
  · rw [show bits = 64 by omega]
    rfl
  · have hlt : 2 ^ bits < 2 ^ 64 := Nat.pow_lt_pow_right (by decide) (by omega)
    have hone : ((1#64 <<< bits : U64)).toNat = 2 ^ bits := by
      rw [toNat_shiftLeft, Nat.shiftLeft_eq]
      simpa using hlt
    have hpos := Nat.two_pow_pos bits
    rw [toNat_sub, hone, show BitVec.toNat (1 : U64) = 1 from rfl]
    omega

theorem and_bitsMask_toNat (v) : (v &&& bitsMask bits).toNat = low bits v := by
  rw [toNat_and, bitsMask_toNat hb, and_two_pow_sub_one_eq_mod, low]

theorem and_bitsMask_testBit {j} (hj : j < bits) (v) :
    (v &&& bitsMask bits).toNat.testBit j = v.getLsbD j := by
  rw [and_bitsMask_toNat hb, low, testBit_mod_two_pow, decide_eq_true hj, Bool.true_and, testBit_toNat]

theorem ofNat_low (v) : ofNat 64 (low bits v) = v &&& bitsMask bits := by
  apply eq_of_toNat_eq
  rw [and_bitsMask_toNat hb, toNat_ofNat, mod_eq_of_lt]
  exact Nat.lt_of_le_of_lt (mod_le _ _) v.isLt

theorem and_signBit (h0 : 0 < bits) (v) : (v &&& signBit bits != 0) = v.getLsbD (bits - 1) :=
  and_one_shiftLeft_ne_zero v (by omega)

theorem getLsbD_and_bitsMask (v k) : (v &&& bitsMask bits).getLsbD k = (low bits v).testBit k := by
  rw [BitVec.getLsbD, and_bitsMask_toNat hb]

end

/-! ## A write takes the low bits only -/

theorem leBytes_mod (n v) : leBytes n (v % 256 ^ n) = leBytes n v := by
  have h := leBytes_leNat (leBytes n v)
  rwa [leBytes_length, leNat_leBytes] at h

theorem patchLow_low {size} (hs : operandWidth size) (old v) :
    patchLow old size (ofNat 64 (low (size * 8) v)) = patchLow old size v := by
  have hmask (m : U64) : v &&& m &&& m = v &&& m := by rw [BitVec.and_assoc, BitVec.and_self]
  rw [ofNat_low (bits_of_width hs).2]
  rcases width_cases hs with rfl | rfl | rfl | rfl
  · exact congrArg (_ ||| ·) (hmask 0xFF)
  · exact congrArg (_ ||| ·) (hmask 0xFFFF)
  · exact hmask 0xFFFFFFFF
  · exact and_allOnes

theorem writeRegister_low {register size} (hs : operandWidth size)
    (hr : registerSize register ≤ size) (r v) :
    writeRegister r register size (ofNat 64 (low (size * 8) v)) = writeRegister r register size v := by
  cases register with
  | high8 k =>
    have hbyte : ofNat 64 (low (size * 8) v) &&& 0xFF = v &&& 0xFF := by
      rw [ofNat_low (bits_of_width hs).2, BitVec.and_assoc]
      congr 1
      rcases width_cases hs with rfl | rfl | rfl | rfl <;> decide
    simp only [writeRegister, hbyte]
  | _ => simp only [writeRegister, patchLow_low hs]

theorem writeOperand0_low {i} (hs : operandWidth (operandSize i 0)) (v) :
    writeOperand0 i (ofNat 64 (low (operandSize i 0 * 8) v)) = writeOperand0 i v := by
  unfold writeOperand0
  split
  · rename_i hk
    have hsize : operandSize i 0 = memorySize i := by simp [operandSize, hk]
    rw [hsize] at hs ⊢
    have hbytes : leBytes (memorySize i) (ofNat 64 (low (memorySize i * 8) v)).toNat =
        leBytes (memorySize i) v.toNat := by
      rw [ofNat_low (bits_of_width hs).2, and_bitsMask_toNat (bits_of_width hs).2, low, ← pow_bits, leBytes_mod]
    simp only [writeOperand, writeLinear, memoryWriteLe, hbytes]
  · rename_i hk
    have hr : registerSize (i.opRegister 0) ≤ operandSize i 0 := by
      unfold operandSize
      split
      · exact Nat.le_refl _
      · have := bits_of_width (registerSize_width (i.opRegister 0))
        omega
    funext c
    simp only [setRegister, writeRegister_low hs hr]

end Ops

end Rish.SoftVm
