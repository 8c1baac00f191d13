/-
  Rish.SoftVm.Ops.Conditions — the sixteen conditions after a comparison.

  `Related` says what a condition means for two numbers of a width: their order without and with sign,
  their equality, and the overflow, sign and parity of their difference.

  Proved: after CMP every condition holds exactly when the operands are so related, for the condition
  itself and for the jump, the set and the move that test it (`conditions_after_cmp`).
-/

import Rish.SoftVm.Ops.Alu

namespace Rish.SoftVm.Ops

open Lib Cpu

/-! ## What a condition means -/

def Related (condition : Condition) (bits a b : Nat) : Bool :=
  let signedA := intValue true bits a
  let signedB := intValue true bits b
  match condition with
  | .o => ¬fits true bits (signedA - signedB)
  | .no => fits true bits (signedA - signedB)
  | .b => a < b
  | .ae => b ≤ a
  | .e => a = b
  | .ne => a ≠ b
  | .be => a ≤ b
  | .a => b < a
  | .s => (Arith.difference bits a b false).sign bits
  | .ns => !(Arith.difference bits a b false).sign bits
  | .p => (Arith.difference bits a b false).parity
  | .np => !(Arith.difference bits a b false).parity
  | .l => signedA < signedB
  | .ge => signedB ≤ signedA
  | .le => signedA ≤ signedB
  | .g => signedB < signedA

/-! ## The flags that are tested -/

theorem storeStatus_tested (bits x r) :
    contains (storeStatus bits x r).rflags RFlags.CF = x.carry ∧
      contains (storeStatus bits x r).rflags RFlags.ZF = x.zero ∧
      contains (storeStatus bits x r).rflags RFlags.SF = x.sign bits ∧
      contains (storeStatus bits x r).rflags RFlags.OF = x.overflow ∧
      contains (storeStatus bits x r).rflags RFlags.PF = x.parity := by
  refine ⟨?_, ?_, ?_, ?_, ?_⟩ <;>
    simp (disch := decide) only [storeStatus, storeResult, setAdjust, setOverflow, setCarry, withFlag,
      contains_setFlag_of_ne, contains_setFlag_self]

theorem conditionHolds_difference {bits a b} (h0 : 0 < bits) (ha : a < 2 ^ bits) (hb : b < 2 ^ bits)
    (condition r) :
    conditionHolds condition (storeStatus bits (.difference bits a b false) r).rflags = Related condition bits a b := by
  have hcarry : (Arith.difference bits a b false).carry = decide (a < b) := rfl
  have hover : (Arith.difference bits a b false).overflow =
      decide (¬fits true bits (intValue true bits a - intValue true bits b)) := by
    rw [← Int.sub_zero (intValue true bits a - intValue true bits b)]
    rfl
  have hzero := difference_zero ha hb
  have hless := difference_sign_overflow ha hb h0
  have hsame : ((Arith.difference bits a b false).sign bits == (Arith.difference bits a b false).overflow) =
      decide (intValue true bits b ≤ intValue true bits a) := by
    have hnot (p q : Bool) : (p == q) = !(p != q) := by cases p <;> cases q <;> rfl
    rw [hnot, hless, ← decide_not, decide_eq_decide, Int.not_lt]
  -- equal numbers are those of equal signed value
  have hinj : a = b ↔ intValue true bits a = intValue true bits b := by
    constructor
    · rintro rfl
      rfl
    · intro h
      rw [intValue_signed h0 ha, intValue_signed h0 hb, ← cast_two_pow] at h
      split at h <;> split at h <;> omega
  unfold conditionHolds
  simp only [storeStatus_tested, hzero,
    hcarry]
  cases condition <;> simp only [Related, hless, hsame]
  case o => exact hover
  case no => rw [hover, ← decide_not, decide_eq_decide, not_not]
  case ae => rw [← decide_not, decide_eq_decide, Nat.not_lt]
  case ne => rw [← decide_not]
  case be =>
    rw [← Bool.decide_or, decide_eq_decide]
    omega
  case a =>
    rw [← decide_not, ← decide_not, ← Bool.decide_and, decide_eq_decide]
    omega
  case le =>
    rw [← Bool.decide_or, decide_eq_decide, hinj]
    omega
  case g =>
    rw [← decide_not, ← Bool.decide_and, decide_eq_decide, hinj]
    omega

/-! ## After CMP -/

theorem dispatch_cmp {i} (hm : i.mnemonic = .cmp) : dispatch i = Alu.cmp i := by
  rw [dispatch_route .cmp (by simp only [routeOf, hm]; rfl), handler, cmp_meaning]

theorem dispatch_cmp_run {i} (hm : i.mnemonic = .cmp) {c c1 c2 : Cpu} {a b : U64} {m n : Nat}
    (ha : readOperand0 i c = ⟨.ok a, c1, m⟩) (hb : readOperand1 i c1 = ⟨.ok b, c2, n⟩) :
    dispatch i c = ⟨.ok (), { c2 with regs := storeStatus (operandSize i 0 * 8) (.difference (operandSize i 0 * 8)
      (low (operandSize i 0 * 8) a) (low (operandSize i 0 * 8) b) false) c2.regs }, m + (n + 0)⟩ := by
  rw [dispatch_cmp hm]
  refine (Exec.bind_ok ha).trans ?_
  rw [Exec.bind_ok hb]
  rfl

/-- The instruction that jumps on a condition. -/
def Condition.jump : Condition → Mnemonic
  | .o => .jo | .no => .jno | .b => .jb | .ae => .jae | .e => .je | .ne => .jne | .be => .jbe | .a => .ja
  | .s => .js | .ns => .jns | .p => .jp | .np => .jnp | .l => .jl | .ge => .jge | .le => .jle | .g => .jg

/-- The instruction that stores a condition. -/
def Condition.set : Condition → Mnemonic
  | .o => .seto | .no => .setno | .b => .setb | .ae => .setae | .e => .sete | .ne => .setne | .be => .setbe
  | .a => .seta | .s => .sets | .ns => .setns | .p => .setp | .np => .setnp | .l => .setl | .ge => .setge
  | .le => .setle | .g => .setg

/-- The instruction that moves on a condition. -/
def Condition.move : Condition → Mnemonic
  | .o => .cmovo | .no => .cmovno | .b => .cmovb | .ae => .cmovae | .e => .cmove | .ne => .cmovne | .be => .cmovbe
  | .a => .cmova | .s => .cmovs | .ns => .cmovns | .p => .cmovp | .np => .cmovnp | .l => .cmovl | .ge => .cmovge
  | .le => .cmovle | .g => .cmovg

theorem dispatch_jump {j} {condition : Condition} (hm : j.mnemonic = condition.jump) :
    conditionOf j.mnemonic = some condition ∧ dispatch j = jcc j := by
  rw [dispatch_route .jcc (by simp only [routeOf, hm]; cases condition <;> rfl), hm]
  exact ⟨by cases condition <;> rfl, rfl⟩

theorem dispatch_set {j} {condition : Condition} (hm : j.mnemonic = condition.set) :
    conditionOf j.mnemonic = some condition ∧ dispatch j = setcc j := by
  rw [dispatch_route .setcc (by simp only [routeOf, hm]; cases condition <;> rfl), hm]
  exact ⟨by cases condition <;> rfl, rfl⟩

theorem dispatch_move {j} {condition : Condition} (hm : j.mnemonic = condition.move) :
    conditionOf j.mnemonic = some condition ∧ dispatch j = cmovcc j := by
  rw [dispatch_route .cmovcc (by simp only [routeOf, hm]; cases condition <;> rfl), hm]
  exact ⟨by cases condition <;> rfl, rfl⟩

/-- After CMP each condition holds exactly when the operands are so related at their width, and the
    instructions that test it jump, set and move by that. -/
theorem conditions_after_cmp (i : Instruction) (hm : i.mnemonic = .cmp) (c c1 c2 : Cpu) (a b : U64) (m n : Nat)
    (ha : readOperand0 i c = ⟨.ok a, c1, m⟩) (hb : readOperand1 i c1 = ⟨.ok b, c2, n⟩) :
    (dispatch i c).outcome = .ok () ∧
    (∀ condition, conditionHolds condition (dispatch i c).state.regs.rflags =
      Related condition (operandSize i 0 * 8) (low (operandSize i 0 * 8) a) (low (operandSize i 0 * 8) b)) ∧
    (∀ j condition related, conditionOf j.mnemonic = some condition →
      related = Related condition (operandSize i 0 * 8) (low (operandSize i 0 * 8) a) (low (operandSize i 0 * 8) b) →
      jcc j (dispatch i c).state = (if related then setRip j.nearBranchTarget else return ()) (dispatch i c).state ∧
      setcc j (dispatch i c).state =
        (if j.opKind 0 = .memory then writeOperand j 1 (if related then 1 else 0)
          else setRegister (j.opRegister 0) 1 (if related then 1 else 0)) (dispatch i c).state ∧
      cmovcc j (dispatch i c).state =
        (cmovSource j >>= fun value => updateRegs (cmovInto j related value)) (dispatch i c).state) ∧
    ∀ (j : Instruction) (condition : Condition),
      (j.mnemonic = condition.jump → conditionOf j.mnemonic = some condition ∧ dispatch j = jcc j) ∧
      (j.mnemonic = condition.set → conditionOf j.mnemonic = some condition ∧ dispatch j = setcc j) ∧
      (j.mnemonic = condition.move → conditionOf j.mnemonic = some condition ∧ dispatch j = cmovcc j) := by
  obtain ⟨h8, h64⟩ := bits_of_width (readOperand0_lt ha).1
  have hrun := dispatch_cmp_run hm ha hb
  have hholds (condition : Condition) : conditionHolds condition (dispatch i c).state.regs.rflags =
      Related condition (operandSize i 0 * 8) (low (operandSize i 0 * 8) a) (low (operandSize i 0 * 8) b) := by
    rw [hrun]
    exact conditionHolds_difference (by omega) (low_lt _ a) (low_lt _ b) condition c2.regs
  refine ⟨by rw [hrun], hholds, ?_, fun j condition => ⟨dispatch_jump, dispatch_set, dispatch_move⟩⟩
  intro j condition related hj hrelated
  have hexpect : expectCondition j.mnemonic = .ok condition := by rw [expectCondition, hj]
  refine ⟨?_, ?_, ?_⟩
  · rw [jcc, hexpect, Exec.lift_ok_bind, get_bind, hholds, ← hrelated]
    rfl
  · rw [setcc, hexpect, Exec.lift_ok_bind, get_bind, hholds, ← hrelated]
  · rw [cmovcc, hexpect, Exec.lift_ok_bind]
    apply Exec.bind_congr_ok
    intro value t k hvalue
    -- reading the source does not touch the flags
    have hregs : t.regs = (dispatch i c).state.regs := Keeps.run (R := SameRegs) hvalue
    simp only [updateRegs, Exec.update_apply, hregs, hholds, ← hrelated]

def cmpBl (value : U64) : Instruction :=
  { Instruction.empty with
    len := 3, mnemonic := .cmp, mnemonicName := "Cmp", codeName := "Cmp_rm8_imm8", codeSize := .code64
    operands := [⟨.register, .low8 index.RBX, 0⟩, ⟨.immediate8, .none, value⟩], isInvalid := false }

/-- 0x80 is above 0x7F without sign and less than it with sign. -/
theorem cmp_across_the_sign :
    conditionHolds .a (dispatch (cmpBl 0x7F) (holding 0x80)).state.regs.rflags = true ∧
      conditionHolds .l (dispatch (cmpBl 0x7F) (holding 0x80)).state.regs.rflags = true := by
  obtain ⟨-, h, -, -⟩ :=
    conditions_after_cmp (cmpBl 0x7F) rfl (holding 0x80) (holding 0x80) (holding 0x80) 0x80 0x7F 0 0 rfl rfl
  exact ⟨(h .a).trans (by decide), (h .l).trans (by decide)⟩

end Rish.SoftVm.Ops
