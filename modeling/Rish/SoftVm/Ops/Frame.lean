/-
  Rish.SoftVm.Ops.Frame — what an operand access leaves alone, and flags one by one.

  Proved: an access to memory leaves the registers (`SameRegs`), a write of an operand leaves the flags
  (`SameFlags`), and a flag that is set is the only one that changes
  (`contains_setFlag_self`, `contains_setFlag_of_ne`).
-/

import Rish.SoftVm.Events
import Rish.SoftVm.Ops.Values

namespace Rish.SoftVm

open Lib BitVec

/-! ## Flags -/

variable (flags : U64)

theorem contains_one_shiftLeft {k} (hk : k < 64) : contains flags (1#64 <<< k) = flags.getLsbD k := by
  have hand : flags &&& 1#64 <<< k = if flags.getLsbD k then BitVec.twoPow 64 k else 0#64 := by
    rw [← and_twoPow, twoPow_eq]
  have hne : (0#64 == 1#64 <<< k) = false := by
    rw [beq_eq_false_iff_ne]
    intro h
    have := congrArg (BitVec.getLsbD · k) h
    simp [hk] at this
  rw [contains, hand]
  cases flags.getLsbD k with
  | false => exact hne
  | true => simp [twoPow_eq]

variable (value : Bool)

theorem getLsbD_setFlag {k} (hk : k < 64) (j) :
    (setFlag flags (1#64 <<< k) value).getLsbD j = if j = k then value else flags.getLsbD j := by
  have hbit : (1#64 <<< k).getLsbD j = decide (j = k) := by
    rw [← twoPow_eq, getLsbD_twoPow]
    by_cases h : j = k
    · simp [h, hk]
    · simp [h, Ne.symm h]
  unfold setFlag
  by_cases h64 : j < 64
  · cases value with
    | false =>
      rw [if_neg (by decide), getLsbD_and, getLsbD_not, hbit]
      by_cases hj : j = k <;> simp [hj, h64]
    | true =>
      rw [if_pos rfl, getLsbD_or, hbit]
      by_cases hj : j = k <;> simp [hj]
  · have hj : j ≠ k := by omega
    rw [if_neg hj, getLsbD_of_ge _ _ (Nat.le_of_not_lt h64), getLsbD_of_ge _ _ (Nat.le_of_not_lt h64)]

theorem contains_setFlag_self {bit} (h : bit ≠ 0) : contains (setFlag flags bit value) bit = value := by
  cases value with
  | false =>
    have hzero : flags &&& ~~~bit &&& bit = 0 := by
      rw [BitVec.and_assoc, BitVec.not_and_self]
      exact and_zero
    rw [setFlag, if_neg (by decide), contains, hzero, beq_eq_false_iff_ne]
    exact h.symm
  | true =>
    have hone : (flags ||| bit) &&& bit = bit := by
      ext k hk
      simp only [getElem_and, getElem_or]
      cases bit[k] <;> simp
    rw [setFlag, if_pos rfl, contains, hone, beq_self_eq_true]

theorem contains_setFlag_of_ne {bit other} (h : bit &&& other = 0) :
    contains (setFlag flags bit value) other = contains flags other := by
  have hkeep : setFlag flags bit value &&& other = flags &&& other := by
    ext k hk
    have hbit := congrArg (BitVec.getLsbD · k) h
    simp only [getLsbD_and, show (0 : U64).getLsbD k = false from getLsbD_zero] at hbit
    rw [getLsbD_eq_getElem hk, getLsbD_eq_getElem hk] at hbit
    cases value <;> simp only [setFlag, Bool.false_eq_true, if_false, if_true, getElem_and, getElem_or,
      getElem_not] <;> revert hbit <;> cases bit[k] <;> cases other[k] <;> simp
  rw [contains, contains, hkeep]

theorem setFlag_self {k} (hk : k < 64) : setFlag flags (1#64 <<< k) (contains flags (1#64 <<< k)) = flags := by
  apply eq_of_getLsbD_eq
  intro j _
  rw [getLsbD_setFlag _ _ hk, contains_one_shiftLeft _ hk]
  split
  · rw [‹j = k›]
  · rfl

namespace Cpu

/-! ## Memory accesses leave the registers -/

def SameRegs (c c' : Cpu) : Prop := c'.regs = c.regs

instance : IsPreorder Cpu SameRegs where
  refl _ := rfl
  trans _ _ _ hab hbc := Eq.trans hbc hab

section

variable (linear physical : U64) (kind : AccessKind) (i : Instruction) (size n : Nat)

instance : Keeps SameRegs (translate linear kind) := Keeps.mono (R := Refills) inferInstance fun _ _ h => h.regs

instance : Keeps SameRegs (memoryRead physical n) := by unfold memoryRead; infer_instance
instance : Keeps SameRegs (memoryReadLe physical n) := by unfold memoryReadLe; infer_instance

instance (bytes) : Keeps SameRegs (memoryWrite physical bytes) where
  keeps c := by
    unfold memoryWrite
    cases c.memory.write physical bytes <;> rfl

instance (value) : Keeps SameRegs (memoryWriteLe physical size value) := by unfold memoryWriteLe; infer_instance

instance {α : Type} : Keeps SameRegs (unsupportedSize size : CpuM α) := by
  unfold unsupportedSize guestFault; infer_instance

instance (rounds) : Keeps SameRegs (readPages (translate · kind) rounds linear n) := by
  induction rounds generalizing linear n <;> (unfold readPages; infer_instance)

instance (rounds bytes) : Keeps SameRegs (writePages rounds linear bytes) := by
  induction rounds generalizing linear bytes <;> (unfold writePages; infer_instance)

instance : Keeps SameRegs (readLinearBytes linear n) := by unfold readLinearBytes; infer_instance
instance (bytes) : Keeps SameRegs (writeLinearBytes linear bytes) := by
  unfold writeLinearBytes; infer_instance
instance : Keeps SameRegs (readLinear linear size) := by unfold readLinear; infer_instance
instance (value) : Keeps SameRegs (writeLinear linear size value) := by unfold writeLinear; infer_instance
instance : Keeps SameRegs (readOperand i size) := by unfold readOperand; infer_instance
instance (value) : Keeps SameRegs (writeOperand i size value) := by unfold writeOperand; infer_instance

end

end Cpu

namespace Ops

open Cpu

instance (register size) : Keeps SameRegs (viewRegister register size) := by
  unfold viewRegister; infer_instance
instance (i) : Keeps SameRegs (readOperand0 i) := by unfold readOperand0; infer_instance
instance (i) : Keeps SameRegs (readOperand1 i) := by unfold readOperand1; infer_instance

instance (i) : Keeps SameRegs (cmovSource i) := by unfold cmovSource; infer_instance

/-! ## Writes leave the flags -/

def SameFlags (c c' : Cpu) : Prop := c'.regs.rflags = c.regs.rflags

@[simp] theorem writeRegister_rflags (r register size value) :
    (writeRegister r register size value).rflags = r.rflags := by
  cases register <;> rfl

instance (register size value) : Keeps SameFlags (setRegister register size value) :=
  .update fun c => writeRegister_rflags c.regs register size value

instance (i value) : Keeps SameFlags (writeOperand0 i value) := by
  have hmemory : Keeps SameFlags (writeOperand i (memorySize i) value) :=
    Keeps.mono (R := SameRegs) inferInstance fun _ _ h => congrArg Registers.rflags h
  unfold writeOperand0
  infer_instance

end Ops

end Rish.SoftVm
