/-
  Rish.SoftVm.Ops.Alu — the integer ALU against arithmetic on numbers of a width.

  `Alu.meaning` is the ALU in the terms of `Rish.Lib.Alu`: an instruction reads its operands, computes
  with numbers of the operand width, sets its flags to what they mean and stores the result. The
  interpreter computes on 64-bit words, with masks.
-/

import Rish.SoftVm.Ops.Frame

namespace Rish.SoftVm.Ops

open Lib Cpu BitVec
open Arith (sum difference)

/-! ## The flag helpers -/

/-- What a helper computed, as numbers of the width. -/
def AddResult.arith (bits : Nat) (x : AddResult) : Arith := ⟨low bits x.result, x.carry, x.overflow, x.adjust⟩

section

variable {bits : Nat} (h8 : 8 ≤ bits) (h64 : bits ≤ 64) (left right : U64) (c : Bool)

include h64

theorem low_add (a b) : low bits (a + b) = (low bits a + low bits b) % 2 ^ bits := by
  rw [low, low, low, toNat_add, Nat.mod_mod_of_dvd _ (Nat.pow_dvd_pow 2 h64), Nat.add_mod]

theorem low_sub (a b) : (low bits (a - b) : Int) = ((low bits a : Int) - low bits b) % 2 ^ bits := by
  have hdvd : (2 : Int) ^ bits ∣ 2 ^ 64 := pow_dvd_pow 2 h64
  have hcast : ((a - b).toNat : Int) = ((a.toNat : Int) - b.toNat) % 2 ^ 64 := by
    have hb := b.isLt
    rw [toNat_sub]
    omega
  simp only [low]
  push_cast
  rw [hcast, Int.emod_emod_of_dvd _ hdvd, Int.sub_emod]

theorem low_bool (h : 0 < bits) : low bits (if c then 1 else 0) = c.toNat := by
  cases c with
  | false => exact Nat.zero_mod _
  | true => exact Nat.mod_eq_of_lt (Nat.one_lt_two_pow (by omega))

include h8

theorem sum_low :
    low bits (left + right + if c then 1 else 0) = (sum bits (low bits left) (low bits right) c).result := by
  rw [low_add h64, low_add h64, low_bool h64 c (by omega), Nat.mod_add_mod]
  rfl

theorem difference_low : low bits (left - right - if c then 1 else 0) =
      (difference bits (low bits left) (low bits right) c).result := by
  apply Int.ofNat_inj.mp
  have hpos : (0 : Int) < 2 ^ bits := by positivity
  rw [low_sub h64, low_sub h64, low_bool h64 c (by omega), Int.emod_sub_emod]
  exact (Int.toNat_of_nonneg (Int.emod_nonneg _ (by omega))).symm

theorem addWithFlags_arith :
    (addWithFlags left right c bits).arith bits = sum bits (low bits left) (low bits right) c := by
  have hl := low_lt bits left
  have hr := low_lt bits right
  have hsum := sum_low h8 h64 left right c
  have hcarry : (if c then 1 else 0 : U64).toNat = c.toNat := by cases c <;> rfl
  have hpos := Nat.two_pow_pos bits
  have hsame (x y : Bool) : (!(x ^^ y)) = (x == y) := by cases x <;> cases y <;> rfl
  refine Arith.ext hsum ?_ ?_ ?_
  · simp only [AddResult.arith, addWithFlags, sum, bitsMask_toNat h64, and_bitsMask_toNat h64, hcarry,
      decide_eq_decide]
    omega
  · rw [← sum_overflow_bits hl hr c (by omega), ← hsum]
    simp only [AddResult.arith, addWithFlags]
    rw [and_signBit h64 (by omega)]
    simp only [getLsbD_and, getLsbD_xor, getLsbD_not, getLsbD_and_bitsMask h64,
      show bits - 1 < 64 by omega, decide_true, Bool.true_and]
    exact congrArg (· && _) (hsame _ _)
  · rw [← sum_adjust_bits hl hr c (by omega), ← hsum]
    simp only [AddResult.arith, addWithFlags]
    rw [show (0x10 : U64) = 1#64 <<< 4 from rfl, and_one_shiftLeft_ne_zero _ (by decide)]
    simp only [getLsbD_xor, getLsbD_and_bitsMask h64]

theorem subWithFlags_arith :
    (subWithFlags left right c bits).arith bits = difference bits (low bits left) (low bits right) c := by
  have hl := low_lt bits left
  have hr := low_lt bits right
  have hdiff := difference_low h8 h64 left right c
  refine Arith.ext hdiff ?_ ?_ ?_
  · simp only [AddResult.arith, subWithFlags, difference, lt_def, beq_eq_decide, ← toNat_inj,
      and_bitsMask_toNat h64]
    cases c with
    | false => simp
    | true =>
      rw [Bool.true_and, ← Bool.decide_or, decide_eq_decide, Bool.toNat_true]
      omega
  · rw [← difference_overflow_bits hl hr c (by omega), ← hdiff]
    simp only [AddResult.arith, subWithFlags]
    rw [and_signBit h64 (by omega)]
    simp only [getLsbD_and, getLsbD_xor, getLsbD_and_bitsMask h64]
  · rw [← difference_adjust_bits hl hr c (by omega), ← hdiff]
    simp only [AddResult.arith, subWithFlags]
    rw [show (0x10 : U64) = 1#64 <<< 4 from rfl, and_one_shiftLeft_ne_zero _ (by decide)]
    simp only [getLsbD_xor, getLsbD_and_bitsMask h64]

end

/-! ## The flags of a result -/

def storeResult (bits : Nat) (x : Arith) (r : Registers) : Registers :=
  withFlag (withFlag (withFlag r RFlags.SF (x.sign bits)) RFlags.ZF x.zero) RFlags.PF x.parity

/-- The six arithmetic flags. -/
def storeStatus (bits : Nat) (x : Arith) (r : Registers) : Registers :=
  setAdjust (setOverflow (setCarry (storeResult bits x r) x.carry) x.overflow) x.adjust

theorem setSzp_eq {bits} (h8 : 8 ≤ bits) (h64 : bits ≤ 64) (r result x)
    (hx : low bits result = x.result) : setSzp r result bits = storeResult bits x r := by
  have hlt : x.result < 2 ^ bits := hx ▸ low_lt bits result
  have hsign : (result &&& bitsMask bits &&& signBit bits != 0) = x.sign bits := by
    rw [and_signBit h64 (by omega), getLsbD_and_bitsMask h64, hx, testBit_top (by omega) hlt, Arith.sign,
      decide_eq_decide, intValue_neg hlt (by omega)]
  have hzero : (result &&& bitsMask bits == 0) = x.zero := by
    rw [Arith.zero, ← hx, ← and_bitsMask_toNat h64, beq_eq_decide, decide_eq_decide, ← toNat_inj]
    rfl
  have hparity : (countOnes ((result &&& bitsMask bits).setWidth 8) % 2 == 0) = x.parity := by
    have hcount : countOnes ((result &&& bitsMask bits).setWidth 8) = (List.range 8).countP x.result.testBit := by
      apply List.countP_congr
      intro k hk
      have hk8 : k < 8 := List.mem_range.mp hk
      rw [getLsbD_setWidth, getLsbD_and_bitsMask h64, hx]
      simp [hk8]
    rw [hcount, Arith.parity, beq_eq_decide]
  simp only [setSzp, storeResult, hsign, hzero, hparity]

theorem setArithmetic_eq {bits} (h8 : 8 ≤ bits) (h64 : bits ≤ 64) (r flags) :
    setArithmetic r flags bits = storeStatus bits (flags.arith bits) r := by
  unfold setArithmetic storeStatus
  rw [setSzp_eq h8 h64 r flags.result (flags.arith bits) rfl]
  rfl

/-! ## What the instructions mean -/

namespace Alu

def combine (sub : Bool) (bits a b : Nat) (c : Bool) : Arith :=
  if sub then .difference bits a b c else .sum bits a b c

variable (i : Instruction)

/-- ADD, ADC, SUB and SBB. -/
def binary (sub withCarry : Bool) : CpuM Unit := do
  let bits := operandSize i 0 * 8
  let left ← readOperand0 i
  let right ← readOperand1 i
  let c ← get
  let x := combine sub bits (low bits left) (low bits right) (withCarry && carry c.regs)
  updateRegs (storeStatus bits x)
  writeOperand0 i (BitVec.ofNat 64 x.result)

/-- The flags of a subtraction. -/
def cmp : CpuM Unit := do
  let bits := operandSize i 0 * 8
  let left ← readOperand0 i
  let right ← readOperand1 i
  updateRegs (storeStatus bits (.difference bits (low bits left) (low bits right) false))

/-- INC and DEC: every flag but CF. -/
def incDec (sub : Bool) : CpuM Unit := do
  let bits := operandSize i 0 * 8
  let left ← readOperand0 i
  let x := combine sub bits (low bits left) 1 false
  updateRegs fun r => setAdjust (setOverflow (storeResult bits x r) x.overflow) x.adjust
  writeOperand0 i (BitVec.ofNat 64 x.result)

/-- A subtraction from zero. -/
def neg : CpuM Unit := do
  let bits := operandSize i 0 * 8
  let value ← readOperand0 i
  let x := difference bits 0 (low bits value) false
  updateRegs (storeStatus bits x)
  writeOperand0 i (BitVec.ofNat 64 x.result)

/-- Both operands are the same register. -/
def twice : Bool := i.opKind 0 = .register && i.opKind 1 = .register && i.opRegister 0 = i.opRegister 1

/-- A sum whose second operand takes the old value of the first. A register that is both keeps the sum. -/
def xadd : CpuM Unit := do
  let bits := operandSize i 0 * 8
  let left ← readOperand0 i
  let right ← readOperand1 i
  let x := sum bits (low bits left) (low bits right) false
  updateRegs (storeStatus bits x)
  writeOperand0 i (BitVec.ofNat 64 x.result)
  if twice i then return () else writeOperand1 i (operandSize i 0) left

/-- The flags of the accumulator less the first operand. -/
def cmpxchg : CpuM Unit := do
  let size := operandSize i 0
  let c ← get
  let accumulator := readAccumulator c.regs size
  let memory ← readOperand0 i
  let compare ← readOperand1 i
  updateRegs (storeStatus (size * 8) (.difference (size * 8) (low (size * 8) accumulator)
    (low (size * 8) memory) false))
  if accumulator = memory then writeOperand0 i compare
  else updateRegs fun r => writeAccumulator r size memory

def scasElement (size : Nat) (step accumulator : U64) : CpuM Bool := do
  let bits := size * 8
  let c ← get
  let value ← readValue (c.regs.gpr index.RDI) size
  updateRegs fun r =>
    decrementCounter i (advance index.RDI step
      (storeStatus bits (.difference bits (low bits accumulator) (low bits value) false) r))
  let c ← get
  return goesOn i c.regs.rflags

def cmpsElement (size : Nat) (step : U64) : CpuM Bool := do
  let bits := size * 8
  let c ← get
  let left ← readValue (c.regs.gpr index.RSI) size
  let right ← readValue (c.regs.gpr index.RDI) size
  updateRegs fun r =>
    decrementCounter i (advance index.RDI step (advance index.RSI step
      (storeStatus bits (.difference bits (low bits left) (low bits right) false) r)))
  let c ← get
  return goesOn i c.regs.rflags

/-- SCAS and CMPS with their repeats. -/
def string (compares : Bool) : CpuM Unit := do
  let c ← get
  let size := memorySize i
  let step := direction size c.regs.rflags
  elements (if compares then cmpsElement i size step else scasElement i size step (readAccumulator c.regs size))
    (repeatCount i c.regs)

def scas : List Mnemonic := [.scasb, .scasw, .scasd, .scasq]

def cmps : List Mnemonic := [.cmpsb, .cmpsw, .cmpsd, .cmpsq]

def meaning : CpuM Unit :=
  if i.mnemonic = .add then binary i false false
  else if i.mnemonic = .adc then binary i false true
  else if i.mnemonic = .sub then binary i true false
  else if i.mnemonic = .sbb then binary i true true
  else if i.mnemonic = .cmp then cmp i
  else if i.mnemonic = .inc then incDec i false
  else if i.mnemonic = .dec then incDec i true
  else if i.mnemonic = .neg then neg i
  else if i.mnemonic = .xadd then xadd i
  else if i.mnemonic = .cmpxchg then cmpxchg i
  else string i (i.mnemonic ∈ cmps)

/-- The instructions of the ALU. A CMPSD that names an XMM register is another instruction. -/
def Instructions : Prop :=
  i.mnemonic ∈ [.add, .adc, .sub, .sbb, .cmp, .inc, .dec, .neg, .xadd, .cmpxchg] ++ scas ++ cmps ∧
    (i.mnemonic = .cmpsd → usesXmmRegister i = false)

end Alu

/-! ## The interpreter against the meaning -/

section

variable {size : Nat} (hs : operandWidth size)

include hs

theorem add_status (left right c r) :
    setArithmetic r (addWithFlags left right c (size * 8)) (size * 8) =
      storeStatus (size * 8) (.sum (size * 8) (low (size * 8) left) (low (size * 8) right) c) r := by
  obtain ⟨h8, h64⟩ := bits_of_width hs
  rw [setArithmetic_eq h8 h64, addWithFlags_arith h8 h64]

theorem sub_status (left right c r) :
    setArithmetic r (subWithFlags left right c (size * 8)) (size * 8) =
      storeStatus (size * 8) (.difference (size * 8) (low (size * 8) left) (low (size * 8) right) c) r := by
  obtain ⟨h8, h64⟩ := bits_of_width hs
  rw [setArithmetic_eq h8 h64, subWithFlags_arith h8 h64]

theorem helper_arith (sub left right c) :
    (if sub then subWithFlags left right c (size * 8) else addWithFlags left right c (size * 8)).arith (size * 8) =
      Alu.combine sub (size * 8) (low (size * 8) left) (low (size * 8) right) c := by
  obtain ⟨h8, h64⟩ := bits_of_width hs
  cases sub with
  | false => exact addWithFlags_arith h8 h64 left right c
  | true => exact subWithFlags_arith h8 h64 left right c

end

theorem writeOperand0_arith {i : Instruction} (hs : operandWidth (operandSize i 0)) {flags : AddResult} {x : Arith}
    (h : flags.arith (operandSize i 0 * 8) = x) :
    writeOperand0 i flags.result = writeOperand0 i (BitVec.ofNat 64 x.result) := by
  rw [← h]
  exact (writeOperand0_low hs flags.result).symm

variable (i : Instruction)

theorem binary_meaning (sub withCarry : Bool) : binary i sub withCarry = Alu.binary i sub withCarry := by
  funext c
  apply Exec.bind_congr_ok
  intro left t n hleft
  have hs := (readOperand0_lt hleft).1
  obtain ⟨h8, h64⟩ := bits_of_width hs
  apply Exec.bind_congr_ok
  intro right t' n' _
  have hx := helper_arith hs sub left right (withCarry && carry t'.regs)
  simp only [get_bind, setArithmetic_eq h8 h64, hx, writeOperand0_arith hs hx]

theorem cmp_meaning : cmp i = Alu.cmp i := by
  funext c
  apply Exec.bind_congr_ok
  intro left t n hleft
  simp only [sub_status (readOperand0_lt hleft).1]

theorem incDec_meaning (sub : Bool) (hm : (i.mnemonic = .inc) = (sub = false)) : incDec i = Alu.incDec i sub := by
  funext c
  apply Exec.bind_congr_ok
  intro left t n hleft
  have hs := (readOperand0_lt hleft).1
  obtain ⟨h8, h64⟩ := bits_of_width hs
  have hone : low (operandSize i 0 * 8) 1 = 1 := Nat.mod_eq_of_lt (Nat.one_lt_two_pow (by omega))
  have hflags : (if i.mnemonic = .inc then addWithFlags left 1 false (operandSize i 0 * 8)
      else subWithFlags left 1 false (operandSize i 0 * 8)) =
      if sub then subWithFlags left 1 false (operandSize i 0 * 8)
      else addWithFlags left 1 false (operandSize i 0 * 8) := by
    cases sub <;> simp [hm]
  have hx := helper_arith hs sub left 1 false
  rw [← hflags, hone] at hx
  simp only [writeOperand0_arith hs hx, setSzp_eq h8 h64 _ _ _ (congrArg Arith.result hx),
    ← show _ = _ from congrArg Arith.overflow hx, ← show _ = _ from congrArg Arith.adjust hx]
  rfl

theorem xadd_meaning (htwice : Alu.twice i = false) : xadd i = Alu.xadd i := by
  funext c
  apply Exec.bind_congr_ok
  intro left t n hleft
  have hs := (readOperand0_lt hleft).1
  obtain ⟨h8, h64⟩ := bits_of_width hs
  have hx (right : U64) := addWithFlags_arith h8 h64 left right false
  simp only [add_status hs, writeOperand0_arith hs (hx _), htwice, Bool.false_eq_true, if_false]

theorem cmpxchg_meaning : cmpxchg i = Alu.cmpxchg i := by
  funext c
  simp only [cmpxchg, Alu.cmpxchg, get_bind]
  apply Exec.bind_congr_ok
  intro memory t n hmemory
  simp only [sub_status (readOperand0_lt hmemory).1]

/-! ## XADD of a register to itself -/

theorem readRegister_writeRegister (r) (register : Register) (v : U64) :
    (readRegister (writeRegister r register (registerSize register) v) register (registerSize register)).toNat =
      low (registerSize register * 8) v := by
  have hgpr (k : GprIndex) (w : U64) : (r.setGpr k w).gpr k = w := Function.update_self ..
  have hpatch := mod_of_setWidth (patchLow_setWidth (registerSize_width register) (r.gpr (registerIndex register)) v)
  cases register with
  | high8 k =>
    have h := mod_of_setWidth (highByte_high (r.gpr (registerIndex (.high8 k))) v)
    simp only [readRegister, writeRegister, hgpr]
    exact (BitVec.toNat_and _ 0xFF).trans ((Nat.and_two_pow_sub_one_eq_mod _ 8).trans h)
  | _ =>
    simp only [readRegister, writeRegister, hgpr]
    rw [lowBytes_toNat (registerSize_width _), pow_bits, low, ← Nat.mul_comm 8]
    exact hpatch

theorem patch_again (old v m : U64) : ((old &&& ~~~m) ||| (v &&& m)) &&& ~~~m ||| (v &&& m) = (old &&& ~~~m) |||
    (v &&& m) := by
  apply eq_of_getLsbD_eq
  intro k hk
  simp only [getLsbD_or, getLsbD_and, getLsbD_not, hk, decide_true, Bool.true_and]
  cases old.getLsbD k <;> cases v.getLsbD k <;> cases m.getLsbD k <;> rfl

theorem writeRegister_again (r) (register : Register) (size : Nat) (v : U64) :
    writeRegister (writeRegister r register size v) register size v = writeRegister r register size v := by
  have hgpr (k : GprIndex) (a b : U64) (hab : a = b) : (r.setGpr k b).setGpr k a = r.setGpr k b := by
    subst hab
    simp only [Registers.setGpr, Function.update_idem]
  have hself (k : GprIndex) (w : U64) : (r.setGpr k w).gpr k = w := Function.update_self ..
  cases register with
  | high8 k =>
    simp only [writeRegister, hself]
    refine hgpr _ _ _ ?_
    have hmask : (v &&& 0xFF) <<< 8 = v <<< 8 &&& 0xFF00 := by rw [shiftLeft_and_distrib]; rfl
    rw [hmask]
    exact patch_again _ _ _
  | _ =>
    simp only [writeRegister, hself]
    refine hgpr _ _ _ ?_
    unfold patchLow
    split
    · exact patch_again _ _ _
    · exact patch_again _ _ _
    · rfl
    · rfl

theorem xadd_twice_iff (htwice : Alu.twice i = true) (c) :
    xadd i c = Alu.xadd i c ↔ readRegister c.regs (i.opRegister 0) (operandSize i 0) = 0 := by
  obtain ⟨⟨h0, h1⟩, hsame⟩ : (i.opKind 0 = .register ∧ i.opKind 1 = .register) ∧ i.opRegister 0 = i.opRegister 1 := by
    simpa [Alu.twice] using htwice
  have hsize0 : operandSize i 0 = registerSize (i.opRegister 0) := by rw [operandSize, if_pos h0]
  have hsize1 : operandSize i 1 = registerSize (i.opRegister 0) := by rw [operandSize, if_pos h1, hsame]
  rw [hsize0]
  generalize hregister : i.opRegister 0 = register at *
  have hs := registerSize_width register
  obtain ⟨h8, h64⟩ := bits_of_width hs
  have hlt := readRegister_lt c.regs register
  rw [pow_bits] at hlt
  generalize hvalue : readRegister c.regs register (registerSize register) = value at hlt ⊢
  have hwritten (r v) := readRegister_writeRegister r register v
  have hlow (r v) := writeRegister_low hs (Nat.le_refl (registerSize register)) r v
  generalize registerSize register = size at *
  obtain ⟨flagged, hflagged⟩ :
      ∃ flagged, setArithmetic c.regs (addWithFlags value value false (size * 8)) (size * 8) = flagged := ⟨_, rfl⟩
  have hresult : (addWithFlags value value false (size * 8)).result = value + value := BitVec.add_zero _
  -- the code writes the old value over the sum
  have hcode : xadd i c = ⟨.ok (),
      { c with regs := writeRegister (writeRegister flagged register size (value + value)) register size value },
        0⟩ := by
    simp only [xadd, readOperand0, readOperand1, writeOperand0, writeOperand1, h0, h1, reduceCtorEq, if_false, if_true,
      viewRegister, setRegister, updateRegs, hregister, ← hsame, hsize0, hsize1]
    rw [Exec.view_bind, Exec.view_bind, Exec.update_bind, Exec.update_bind, Exec.update_apply, hvalue,
      hflagged, hresult]
  have hmeans : Alu.xadd i c =
      ⟨.ok (), { c with regs := writeRegister flagged register size (value + value) }, 0⟩ := by
    simp only [Alu.xadd, htwice, readOperand0, readOperand1, writeOperand0, h0, h1, reduceCtorEq, if_false, if_true,
      viewRegister, setRegister, updateRegs, hregister, ← hsame, hsize0, hsize1, ← add_status hs]
    rw [Exec.view_bind, Exec.view_bind, Exec.update_bind, Exec.update_bind, hvalue, hflagged,
      ← addWithFlags_arith h8 h64, AddResult.arith, hlow, hresult]
    rfl
  rw [hcode, hmeans]
  constructor
  · intro h
    have hread := congrArg (fun run : Run Cpu CpuError Unit => (readRegister run.state.regs register size).toNat) h
    simp only [hwritten, low_add h64] at hread
    rw [low_of_lt hlt] at hread
    have hsplit := Nat.div_add_mod (value.toNat + value.toNat) (2 ^ (size * 8))
    rw [← hread] at hsplit
    apply eq_of_toNat_eq
    show value.toNat = 0
    rcases Nat.eq_zero_or_pos ((value.toNat + value.toNat) / 2 ^ (size * 8)) with hq | hq
    · rw [hq] at hsplit
      omega
    · have := Nat.le_mul_of_pos_right (2 ^ (size * 8)) hq
      omega
  · rintro rfl
    rw [show (0 + 0 : U64) = 0 from rfl, writeRegister_again]

/-! ## Strings -/

theorem readValue_width {i address v c c' n}
    (h : readValue address (memorySize i) c = ⟨.ok v, c', n⟩) : operandWidth (memorySize i) := by
  obtain ⟨u, c1, k, m, hwidth, -⟩ := Exec.bind_eq_ok h
  have hle : memorySize i ≤ 8 := by
    by_contra hgt
    rw [elementWidth, Exec.lift_apply, Outcome.slice_panic (by omega)] at hwidth
    cases hwidth
  revert hle
  unfold memorySize
  split <;> simp [operandWidth]

theorem scasElement_meaning (step accumulator) :
    scasElement i (memorySize i) step accumulator = Alu.scasElement i (memorySize i) step accumulator := by
  funext c
  simp only [scasElement, Alu.scasElement, get_bind]
  apply Exec.bind_congr_ok
  intro value t n hvalue
  simp only [sub_status (readValue_width hvalue)]

theorem cmpsElement_meaning (step) :
    cmpsElement i (memorySize i) step = Alu.cmpsElement i (memorySize i) step := by
  funext c
  simp only [cmpsElement, Alu.cmpsElement, get_bind]
  apply Exec.bind_congr_ok
  intro left t n hleft
  simp only [sub_status (readValue_width hleft)]

theorem stringOp_meaning (compares)
    (hk : stringKindOf i.mnemonic = some (if compares then .cmps else .scas)) : stringOp i = Alu.string i compares := by
  funext c
  simp only [stringOp, Alu.string, get_bind, hk, stringElements]
  cases compares with
  | false => simp only [Bool.false_eq_true, if_false, element, scasElement_meaning]
  | true => simp only [if_true, element, cmpsElement_meaning]

/-! ## NEG -/

def negFlags (bits : Nat) (value : U64) (r : Registers) : Registers :=
  setOverflow (setCarry (setSzp r (0 - value) bits) (value != 0)) ((0 - value) &&& bitsMask bits == signBit bits)

theorem low_neg {bits} (h8 : 8 ≤ bits) (h64 : bits ≤ 64) (value) :
    low bits (0 - value) = (difference bits 0 (low bits value) false).result := by
  have h := difference_low h8 h64 0 value false
  rwa [if_neg (by decide), show (0 - value - 0 : U64) = 0 - value from BitVec.sub_zero _,
    show low bits 0 = 0 from Nat.zero_mod _] at h

theorem negFlags_adjust {bits} (h8 : 8 ≤ bits) (h64 : bits ≤ 64) {value} (hv : value.toNat < 2 ^ bits)
    (r) :
    setAdjust (negFlags bits value r) (value.toNat % 16 != 0) =
      storeStatus bits (.difference bits 0 (low bits value) false) r := by
  have hlow : low bits value = value.toNat := low_of_lt hv
  have hresult := low_neg h8 h64 value
  have hval := difference_result (Nat.two_pow_pos bits) (low_lt bits value) false
  have hsplit := two_pow_split (show 0 < bits by omega)
  have hcarry : (value != 0) = (difference bits 0 (low bits value) false).carry := by
    rw [Bool.eq_iff_iff, bne_iff_ne, ne_eq, ← toNat_inj, ← hlow]
    simp [difference, Nat.pos_iff_ne_zero]
  have hover : ((0 - value) &&& bitsMask bits == signBit bits) =
      (difference bits 0 (low bits value) false).overflow := by
    have hsign : (signBit bits).toNat = 2 ^ (bits - 1) := by
      have : 2 ^ (bits - 1) < 2 ^ 64 := Nat.pow_lt_pow_right (by decide) (by omega)
      rw [signBit, toNat_shiftLeft, Nat.shiftLeft_eq]
      simpa using this
    have hmeans : (difference bits 0 (low bits value) false).overflow =
        decide (¬fits true bits (intValue true bits 0 - intValue true bits (low bits value) - (false).toNat)) := rfl
    rw [hmeans, Bool.eq_iff_iff, beq_iff_eq, ← toNat_inj, and_bitsMask_toNat h64, hsign, hresult]
    simp only [decide_eq_true_eq, fits_signed, intValue_signed (by omega : 0 < bits) (Nat.two_pow_pos bits),
      intValue_signed (by omega : 0 < bits) (low_lt bits value), ← cast_two_pow, Bool.toNat_false] at hval ⊢
    have hpos := Nat.two_pow_pos (bits - 1)
    generalize (difference bits 0 (low bits value) false).result = x at *
    generalize 2 ^ (bits - 1) = m at *
    generalize low bits value = v at *
    split <;> split <;> omega
  have hadjust : (value.toNat % 16 != 0) = (difference bits 0 (low bits value) false).adjust := by
    rw [Bool.eq_iff_iff, bne_iff_ne, ← hlow]
    simp [difference, Nat.pos_iff_ne_zero]
  rw [negFlags, setSzp_eq h8 h64 r _ _ hresult, hcarry, hover, hadjust]
  rfl

theorem negFlags_keeps_adjust (bits value r) :
    contains (negFlags bits value r).rflags RFlags.AF = contains r.rflags RFlags.AF := by
  simp (disch := decide) only [negFlags, setOverflow, setCarry, setSzp, withFlag, contains_setFlag_of_ne]

theorem setAdjust_rflags_iff (r value) :
    r.rflags = (setAdjust r value).rflags ↔ contains r.rflags RFlags.AF = value := by
  constructor
  · intro h
    rw [h]
    exact contains_setFlag_self r.rflags value (by decide)
  · rintro rfl
    exact (setFlag_self r.rflags (by decide : 4 < 64)).symm

theorem setAdjust_self {r value} (h : contains r.rflags RFlags.AF = value) : setAdjust r value = r :=
  congrArg (fun flags => { r with rflags := flags }) ((setAdjust_rflags_iff r value).mpr h).symm

theorem neg_meaning_iff (c) :
    neg i c = Alu.neg i c ↔ ∀ value c' n, readOperand0 i c = ⟨.ok value, c', n⟩ →
      contains c.regs.rflags RFlags.AF = (value.toNat % 16 != 0) := by
  -- both sides store the same result, over flags that differ in AF only
  have hruns {value : U64} {t : Cpu} {n : Nat} (hread : readOperand0 i c = ⟨.ok value, t, n⟩) :
      neg i c = (writeOperand0 i (0 - value) { t with regs := negFlags (operandSize i 0 * 8) value t.regs }).after n ∧
      Alu.neg i c = (writeOperand0 i (0 - value) { t with
        regs := setAdjust (negFlags (operandSize i 0 * 8) value t.regs) (value.toNat % 16 != 0) }).after n := by
    obtain ⟨hs, hlt⟩ := readOperand0_lt hread
    obtain ⟨h8, h64⟩ := bits_of_width hs
    rw [pow_bits] at hlt
    refine ⟨(Exec.bind_ok hread).trans (congrArg (Run.after n) (Exec.update_bind _ _ t)),
      (Exec.bind_ok hread).trans (congrArg (Run.after n) ((Exec.update_bind _ _ t).trans ?_))⟩
    rw [negFlags_adjust h8 h64 hlt, ← low_neg h8 h64 value]
    exact congrFun (writeOperand0_low hs (0 - value)) _
  have hregs {value : U64} {t : Cpu} {n : Nat} (hread : readOperand0 i c = ⟨.ok value, t, n⟩) : t.regs = c.regs :=
    Keeps.run (R := SameRegs) hread
  constructor
  · intro heq value t n hread
    obtain ⟨hcode, hmeans⟩ := hruns hread
    have hstate := congrArg (fun run => run.state.regs.rflags) ((hcode.symm.trans heq).trans hmeans)
    have hflags (u : Cpu) : (writeOperand0 i (0 - value) u).state.regs.rflags = u.regs.rflags :=
      Keeps.keeps (R := SameFlags) u
    simp only [Run.after_state, hflags] at hstate
    rw [← hregs hread, ← negFlags_keeps_adjust (operandSize i 0 * 8) value t.regs]
    exact (setAdjust_rflags_iff _ _).mp hstate
  · intro h
    rcases hread : readOperand0 i c with ⟨value | e | _, t, n⟩
    · obtain ⟨hcode, hmeans⟩ := hruns hread
      have hflag : contains (negFlags (operandSize i 0 * 8) value t.regs).rflags RFlags.AF =
          (value.toNat % 16 != 0) := by
        rw [negFlags_keeps_adjust, hregs hread]
        exact h value t n hread
      rw [hcode, hmeans, setAdjust_self hflag]
    · exact (Exec.bind_err hread).trans (Exec.bind_err hread).symm
    · exact (Exec.bind_panic hread).trans (Exec.bind_panic hread).symm

/-! ## Every instruction of the ALU -/

theorem dispatch_route {i} (route) (h : routeOf i = some route) : dispatch i = handler route i := by
  rw [dispatch, h]
  rfl

theorem dispatch_meaning (hi : Alu.Instructions i) (hneg : i.mnemonic ≠ .neg)
    (hxadd : i.mnemonic = .xadd → Alu.twice i = false) : dispatch i = Alu.meaning i := by
  obtain ⟨hm, hxmm⟩ := hi
  simp only [Alu.scas, Alu.cmps, List.cons_append, List.nil_append, List.mem_cons, List.not_mem_nil, or_false] at hm
  rcases hm with hm | hm | hm | hm | hm | hm | hm | hm | hm | hm | hm | hm | hm | hm | hm | hm | hm | hm
  · rw [dispatch_route .add (by simp only [routeOf, hm]; rfl)]
    simp only [Alu.meaning, hm, handler, add, binary_meaning, if_true]
  · rw [dispatch_route .adcSbb (by simp only [routeOf, hm]; rfl)]
    simp only [Alu.meaning, hm, handler, adcSbb, binary_meaning, if_true, reduceCtorEq, if_false, decide_false]
  · rw [dispatch_route .sub (by simp only [routeOf, hm]; rfl)]
    simp only [Alu.meaning, hm, handler, sub, binary_meaning, if_true, reduceCtorEq, if_false]
  · rw [dispatch_route .adcSbb (by simp only [routeOf, hm]; rfl)]
    simp only [Alu.meaning, hm, handler, adcSbb, binary_meaning, if_true, reduceCtorEq, if_false, decide_true]
  · rw [dispatch_route .cmp (by simp only [routeOf, hm]; rfl)]
    simp only [Alu.meaning, hm, handler, cmp_meaning, if_true, reduceCtorEq, if_false]
  · rw [dispatch_route .incDec (by simp only [routeOf, hm]; rfl)]
    simp only [Alu.meaning, hm, handler, incDec_meaning i false (by simp [hm]), if_true, reduceCtorEq, if_false]
  · rw [dispatch_route .incDec (by simp only [routeOf, hm]; rfl)]
    simp only [Alu.meaning, hm, handler, incDec_meaning i true (by simp [hm]), if_true, reduceCtorEq, if_false]
  · exact absurd hm hneg
  · rw [dispatch_route .xadd (by simp only [routeOf, hm]; rfl)]
    simp only [Alu.meaning, hm, handler, xadd_meaning i (hxadd hm), if_true, reduceCtorEq, if_false]
  · rw [dispatch_route .cmpxchg (by simp only [routeOf, hm]; rfl)]
    simp only [Alu.meaning, hm, handler, cmpxchg_meaning, if_true, reduceCtorEq, if_false]
  -- the four widths of SCAS, then those of CMPS
  iterate 4
    · rw [dispatch_route .string (by simp only [routeOf, hm]; rfl), handler,
        stringOp_meaning i false (by rw [hm]; rfl)]
      simp only [Alu.meaning, hm, reduceCtorEq, if_false]
      rfl
  all_goals
    rw [dispatch_route .string (by simp only [routeOf, hm, hxmm, reduceCtorEq, false_and, or_true, or_false,
      Bool.false_eq_true, and_false, if_false]; rfl), handler, stringOp_meaning i true (by rw [hm]; rfl)]
    simp only [Alu.meaning, hm, reduceCtorEq, if_false]
    rfl

/-- Every instruction of the ALU stores the result and sets the flags as they are defined, but for a NEG
    that finds AF other than the borrow out of bit 3 it should set, and an XADD of a register that is not zero
    to itself. -/
theorem dispatch_meaning_iff (i : Instruction) (hi : Alu.Instructions i) (c : Cpu) :
    dispatch i c = Alu.meaning i c ↔
      (i.mnemonic = .neg → ∀ value c' n, readOperand0 i c = ⟨.ok value, c', n⟩ →
        contains c.regs.rflags RFlags.AF = (value.toNat % 16 != 0)) ∧
      (i.mnemonic = .xadd → Alu.twice i = true → readRegister c.regs (i.opRegister 0) (operandSize i 0) = 0) := by
  by_cases hm : i.mnemonic = .neg
  · rw [dispatch_route .neg (by simp only [routeOf, hm]; rfl), handler,
      show Alu.meaning i = Alu.neg i by simp only [Alu.meaning, hm, reduceCtorEq, if_false, if_true], neg_meaning_iff]
    exact ⟨fun h => ⟨fun _ => h, fun hx => absurd (hm.symm.trans hx) (by decide)⟩, fun h => h.1 hm⟩
  · rw [and_iff_right (fun h => absurd h hm)]
    by_cases htwice : i.mnemonic = .xadd ∧ Alu.twice i = true
    · obtain ⟨hx, htwice⟩ := htwice
      rw [dispatch_route .xadd (by simp only [routeOf, hx]; rfl), handler,
        show Alu.meaning i = Alu.xadd i by simp only [Alu.meaning, hx, reduceCtorEq, if_false, if_true],
        xadd_twice_iff i htwice]
      exact ⟨fun h _ _ => h, fun h => h hx htwice⟩
    · have hxadd (hx : i.mnemonic = .xadd) : Alu.twice i = false := Bool.eq_false_iff.mpr fun h => htwice ⟨hx, h⟩
      rw [dispatch_meaning i hi hm hxadd]
      exact iff_of_true rfl fun hx h => absurd ⟨hx, h⟩ htwice

def negBl : Instruction :=
  { Instruction.empty with
    len := 2, mnemonic := .neg, mnemonicName := "Neg", codeName := "Neg_rm8", codeSize := .code64
    operands := [⟨.register, .low8 index.RBX, 0⟩], isInvalid := false }

/-- A reset machine, all flags clear, with a value in RBX. -/
def holding (value : U64) : Cpu :=
  let c := Cpu.new Memory.withLapic 0 0 false
  { c with regs := c.regs.setGpr index.RBX value }

/-- The low digit of 0x10 does not borrow, and AF was clear. -/
theorem neg_of_sixteen : Alu.Instructions negBl ∧ dispatch negBl (holding 0x10) = Alu.meaning negBl (holding 0x10) := by
  have hi : Alu.Instructions negBl := ⟨by decide, by decide⟩
  refine ⟨hi, (dispatch_meaning_iff negBl hi (holding 0x10)).mpr ⟨?_, fun h => by cases h⟩⟩
  intro _ value c' n h
  cases h
  decide

/-- The negation of one borrows out of bit 3 and leaves AF clear. -/
theorem neg_of_one_leaves_adjust :
    contains (dispatch negBl (holding 1)).state.regs.rflags RFlags.AF = false ∧
      contains (Alu.meaning negBl (holding 1)).state.regs.rflags RFlags.AF = true := by
  decide +kernel

end Rish.SoftVm.Ops
