/-
  Rish.SoftVm.Ops.FpuArea — the 512 bytes an FXSAVE writes, read back field by field.

  Proved: a restore of the area saved from a machine brings every field back, the x87 registers through the 80-bit format
  (`restoreFpu_legacyFpuArea`).
-/

import Rish.SoftVm.Ops.Extended80
import Rish.SoftVm.Ops.System

namespace Rish.SoftVm.Ops

open Lib Cpu List BitVec

/-! ## Fields of a region -/

theorem field_append (before here behind) :
    field (before ++ (here ++ behind)) before.length here.length = here := by
  rw [field, drop_left, take_left]

theorem drop_flatMap {m w} (g : Fin m → List U8) (hg : ∀ k, (g k).length = w) (k : Fin m) :
    ∃ behind, ((List.finRange m).flatMap g).drop (k.val * w) = g k ++ behind := by
  induction m with
  | zero => exact k.elim0
  | succ m ih =>
    rw [finRange_succ, flatMap_cons, flatMap_map]
    induction k using Fin.cases with
    | zero => exact ⟨_, by rw [Fin.val_zero, Nat.zero_mul, drop_zero]⟩
    | succ k =>
      obtain ⟨behind, hbehind⟩ := ih (fun k => g k.succ) (fun k => hg k.succ) k
      refine ⟨behind, ?_⟩
      have hoffset : k.succ.val * w = (g 0).length + k.val * w := by
        rw [hg 0, Fin.val_succ, Nat.add_mul, Nat.one_mul, Nat.add_comm]
      rw [hoffset, drop_length_add_append]
      exact hbehind

theorem length_flatMap {m w} (g : Fin m → List U8) (hg : ∀ k, (g k).length = w) :
    ((List.finRange m).flatMap g).length = m * w := by
  induction m with
  | zero => simp
  | succ m ih =>
    rw [finRange_succ, flatMap_cons, flatMap_map, length_append, hg, ih _ fun k => hg k.succ,
      Nat.add_mul, Nat.one_mul, Nat.add_comm]

theorem field_block {m w n} (before behind) (g : Fin m → List U8) (hg : ∀ k, (g k).length = w) (k : Fin m)
    (hn : n ≤ w) :
    field (before ++ ((List.finRange m).flatMap g ++ behind)) (before.length + k.val * w) n = (g k).take n := by
  obtain ⟨rest, hrest⟩ := drop_flatMap g hg k
  have hin : k.val * w ≤ ((List.finRange m).flatMap g).length := by
    rw [length_flatMap g hg]
    exact Nat.mul_le_mul_right w k.isLt.le
  rw [field, drop_length_add_append, drop_append_of_le_length hin, hrest, List.append_assoc,
    take_append_of_le_length (by rw [hg]; exact hn)]

/-! ## The saved area -/

section

variable (c : Cpu)

/-- An x87 register with its padding. -/
def stackSlot (k : Fin 8) : List U8 := f64ToExtended80 (c.fpuStack k) ++ zeros 6

variable (k : Fin 16)

def xmmSlot : List U8 := leBytes 16 (c.regs.xmm k).toNat

/-- The part before the x87 registers. -/
def areaHead : List U8 :=
  leBytes 2 c.fpuControlWord.toNat ++ (leBytes 2 (statusWithTop c).toNat ++ (([0xFF] ++ zeros 19) ++
    (leBytes 4 c.mxcsr.toNat ++ leBytes 4 0xFFFF)))

theorem legacyFpuArea_eq : legacyFpuArea c = areaHead c ++ ((List.finRange 8).flatMap (stackSlot c) ++
    ((List.finRange 16).flatMap (xmmSlot c) ++ zeros 96)) := by
  simp only [legacyFpuArea, areaHead, List.append_assoc]
  rfl

theorem f64ToExtended80_length (v) : (f64ToExtended80 v).length = 10 := by
  unfold f64ToExtended80
  dsimp only
  split
  · simp
  · split <;> simp

theorem stackSlot_length (k) : (stackSlot c k).length = 16 := by
  simp [stackSlot, zeros, f64ToExtended80_length]

theorem xmmSlot_length : (xmmSlot c k).length = 16 := leBytes_length 16 _

theorem areaHead_length : (areaHead c).length = 32 := by simp [areaHead, zeros]

theorem legacyFpuArea_length : (legacyFpuArea c).length = 512 := by
  rw [legacyFpuArea_eq, length_append, length_append, length_append, areaHead_length,
    length_flatMap _ (stackSlot_length c), length_flatMap _ (xmmSlot_length c)]
  rfl

theorem field_control : field (legacyFpuArea c) 0 2 = leBytes 2 c.fpuControlWord.toNat := by
  rw [legacyFpuArea_eq, areaHead, List.append_assoc]
  simpa only [nil_append, length_nil, leBytes_length] using field_append [] (leBytes 2 c.fpuControlWord.toNat) _

theorem field_status : field (legacyFpuArea c) 2 2 = leBytes 2 (statusWithTop c).toNat := by
  rw [legacyFpuArea_eq, areaHead, List.append_assoc, List.append_assoc]
  simpa only [leBytes_length] using field_append (leBytes 2 c.fpuControlWord.toNat)
    (leBytes 2 (statusWithTop c).toNat) _

theorem field_mxcsr : field (legacyFpuArea c) 24 4 = leBytes 4 c.mxcsr.toNat := by
  have h := field_append
    (leBytes 2 c.fpuControlWord.toNat ++ leBytes 2 (statusWithTop c).toNat ++ ([0xFF] ++ zeros 19))
    (leBytes 4 c.mxcsr.toNat) (leBytes 4 0xFFFF ++ ((List.finRange 8).flatMap (stackSlot c) ++
      ((List.finRange 16).flatMap (xmmSlot c) ++ zeros 96)))
  rw [legacyFpuArea_eq, areaHead]
  simpa [zeros, List.append_assoc] using h

theorem field_stack (k) : field (legacyFpuArea c) (32 + k.val * 16) 10 = f64ToExtended80 (c.fpuStack k) := by
  have h := field_block (areaHead c) ((List.finRange 16).flatMap (xmmSlot c) ++ zeros 96) (stackSlot c)
    (stackSlot_length c)
    k (show 10 ≤ 16 by decide)
  rw [areaHead_length] at h
  rw [legacyFpuArea_eq, h, stackSlot, take_left' (f64ToExtended80_length _)]

theorem field_xmm : field (legacyFpuArea c) (160 + k.val * 16) 16 = leBytes 16 (c.regs.xmm k).toNat := by
  have h := field_block (areaHead c ++ (List.finRange 8).flatMap (stackSlot c)) (zeros 96) (xmmSlot c)
    (xmmSlot_length c) k
    (Nat.le_refl 16)
  rw [length_append, areaHead_length, length_flatMap _ (stackSlot_length c)] at h
  rw [legacyFpuArea_eq, ← List.append_assoc, h, take_of_length_le (xmmSlot_length c k).le]
  rfl

theorem top_of_status : Fin.ofNat 8 (statusWithTop c >>> 11).toNat = c.fpuTop := by
  have htop := c.fpuTop.isLt
  have hplaced : (BitVec.ofNat 16 c.fpuTop.val <<< 11).toNat >>> 11 = c.fpuTop.val := by
    rw [toNat_shiftLeft, toNat_ofNat, Nat.shiftLeft_eq, Nat.shiftRight_eq_div_pow]
    omega
  have hmask : ((c.fpuStatusWord &&& ~~~0x3800#16).toNat >>> 11) % 2 ^ 3 = 0 := by
    rw [toNat_and, Nat.shiftRight_and_distrib, Nat.and_mod_two_pow]
    exact Nat.and_zero _
  apply Fin.ext
  show (statusWithTop c >>> 11).toNat % 2 ^ 3 = c.fpuTop.val
  rw [toNat_ushiftRight, statusWithTop, toNat_or, Nat.shiftRight_or_distrib, Nat.or_mod_two_pow, hmask,
    Nat.zero_or, hplaced]
  exact Nat.mod_eq_of_lt htop

theorem restoreFpu_legacyFpuArea (c2) : restoreFpu (legacyFpuArea c) c2 =
    { c2 with
      fpuControlWord := c.fpuControlWord, fpuStatusWord := statusWithTop c, fpuTop := c.fpuTop, mxcsr := c.mxcsr
      fpuStack := fun k => extended80ToF64 (f64ToExtended80 (c.fpuStack k))
      regs := { c2.regs with xmm := c.regs.xmm } } := by
  unfold restoreFpu
  simp only [field_control, field_status, field_mxcsr, field_stack, field_xmm,
    ofNat_leNat_leBytes (show 2 ^ 16 = 256 ^ 2 by decide), ofNat_leNat_leBytes (show 2 ^ 32 = 256 ^ 4 by decide),
    ofNat_leNat_leBytes (show 2 ^ 128 = 256 ^ 16 by decide), top_of_status]

theorem statusWithTop_rest : statusWithTop c &&& ~~~0x3800#16 = c.fpuStatusWord &&& ~~~0x3800#16 := by
  have htop : (BitVec.ofNat 16 c.fpuTop.val <<< 11) &&& ~~~0x3800#16 = 0#16 := by
    generalize c.fpuTop = top
    revert top
    decide
  unfold statusWithTop
  rw [and_or_distrib_right, htop, or_zero, BitVec.and_assoc, BitVec.and_self]

end

end Rish.SoftVm.Ops
