/-
  Rish.SoftVm.Ops.BitString — bit tests of memory against the bits of linear memory.

  A register offset names bit `8 * base + offset` of linear memory. The interpreter reads the unit of the operand
  width that holds the bit, through one translation of the unit's first byte, and writes it back whole.
-/

import Rish.Lib.BitString
import Rish.SoftVm.Linear
import Rish.SoftVm.Ops.BitCount
import Rish.SoftVm.Ops.Multiplication

namespace Rish.SoftVm.Ops

open Lib Cpu BitVec
open BitVec (ofInt ofNat)

/-! ## What the instructions mean -/

namespace BitString

def instructions : List Mnemonic := [.bt, .bts, .btr, .btc]

variable (i : Instruction)

def access : AccessKind := if i.mnemonic = .bt then .read else .write

variable (c : Cpu)

/-- The number of the bit in linear memory. -/
def number : Int :=
  8 * (effectiveAddress i c).toNat +
    intValue true (operandSize i 0 * 8) (readRegister c.regs (i.opRegister 1) (operandSize i 0)).toNat

/-- The bit lies at this place of RAM. -/
def Located (k : Nat) : Prop :=
  ∃ physical, c.translation (ofInt 64 (number i c / 8)) (access i) = .ok physical ∧
    k = 8 * physical.toNat + (number i c % 8).toNat

def updated (mnemonic : Mnemonic) (bit : Bool) : Bool :=
  if mnemonic = .bt then bit else if mnemonic = .bts then true else if mnemonic = .btr then false else !bit

/-- A run that has put a bit of RAM into CF, updated it and left everything else. -/
structure TestsAt (i : Instruction) (c : Cpu) (k : Nat) (run : Run Cpu CpuError Unit) : Prop where
  returns : run.outcome = .ok ()
  flags : run.state.regs = setCarry c.regs (bitOf c.memory.ram.bytes k)
  bits : ∀ j, bitOf run.state.memory.ram.bytes j =
    if j = k then updated i.mnemonic (bitOf c.memory.ram.bytes k) else bitOf c.memory.ram.bytes j
  devices : run.state.memory = { c.memory with
    ram := { run.state.memory.ram with len := c.memory.ram.len }, generation := run.state.memory.generation }

/-- The run is one for the bit the instruction names. -/
def Correct (run : Run Cpu CpuError Unit) : Prop :=
  ∃ k, Located i c k ∧ TestsAt i c k run

/-- The named bit is the one at this place, or has the same value and both stay. -/
def Reaches (place : Nat) : Prop :=
  ∃ k, Located i c k ∧ (k = place ∨ bitOf c.memory.ram.bytes k = bitOf c.memory.ram.bytes place ∧
    updated i.mnemonic (bitOf c.memory.ram.bytes place) = bitOf c.memory.ram.bytes place)

theorem testsAt_iff {i} {c : Cpu} {k place : Nat} {run} (h : TestsAt i c place run) :
    TestsAt i c k run ↔ k = place ∨ bitOf c.memory.ram.bytes k = bitOf c.memory.ram.bytes place ∧
      updated i.mnemonic (bitOf c.memory.ram.bytes place) = bitOf c.memory.ram.bytes place := by
  constructor
  · intro hk
    by_cases he : k = place
    · exact .inl he
    right
    have hflags : setCarry c.regs (bitOf c.memory.ram.bytes k) = setCarry c.regs (bitOf c.memory.ram.bytes place) :=
      hk.flags.symm.trans h.flags
    have hcarry := congrArg (fun r : Registers => contains r.rflags RFlags.CF) hflags
    simp (disch := decide) only [setCarry, withFlag, contains_setFlag_self] at hcarry
    refine ⟨hcarry, ?_⟩
    have hhere := h.bits place
    have hthere := hk.bits place
    rw [if_pos rfl] at hhere
    rw [if_neg (Ne.symm he)] at hthere
    exact hhere.symm.trans hthere
  · rintro (rfl | ⟨hsame, hstays⟩)
    · exact h
    · refine ⟨h.returns, by rw [h.flags, hsame], fun j => ?_, h.devices⟩
      have hbits : bitOf run.state.memory.ram.bytes j = bitOf c.memory.ram.bytes j := by
        rw [h.bits]
        by_cases hj : j = place
        · rw [if_pos hj, hstays, hj]
        · rw [if_neg hj]
      rw [hbits]
      by_cases hj : j = k
      · rw [if_pos hj, hsame, hstays, hj, hsame]
      · rw [if_neg hj]

end BitString

open BitString

/-! ## The unit -/

theorem bitAddress_eq {i} (hreg : i.opKind 1 = .register) (hs : operandWidth (operandSize i 0)) (c : Cpu) :
    ofInt 64 (number i c / 8) =
        (bitAddress i (operandSize i 0) c).1 + ofNat 64 ((bitAddress i (operandSize i 0) c).2 / 8) ∧
      (number i c % 8).toNat = (bitAddress i (operandSize i 0) c).2 % 8 ∧
      (bitAddress i (operandSize i 0) c).2 < 8 * operandSize i 0 := by
  rw [bitAddress, if_pos hreg, number]
  dsimp only
  rw [signExtend_toInt hs]
  generalize intValue true (operandSize i 0 * 8) _ = offset
  generalize effectiveAddress i c = base
  have hediv : offset.ediv ((operandSize i 0 * 8 : Nat) : Int) = offset / ((operandSize i 0 * 8 : Nat) : Int) := rfl
  have hemod : offset.emod ((operandSize i 0 * 8 : Nat) : Int) = offset % ((operandSize i 0 * 8 : Nat) : Int) := rfl
  have hbase : base = ofInt 64 base.toNat := by rw [ofInt_natCast, ofNat_toNat, setWidth_eq]
  rw [hediv, hemod]
  replace hs := width_cases hs
  generalize operandSize i 0 = size at *
  refine ⟨?_, ?_, ?_⟩
  · conv_rhs => rw [hbase, ← ofInt_natCast, ← ofInt_add, ← ofInt_add]
    congr 1
    rcases hs with rfl | rfl | rfl | rfl <;> omega
  · rcases hs with rfl | rfl | rfl | rfl <;> omega
  · rcases hs with rfl | rfl | rfl | rfl <;> omega

theorem bitUnit_eq {size} (hs : operandWidth size) : bitUnit size = size := by
  rcases width_cases hs with rfl | rfl | rfl | rfl <;> rfl

theorem getLsbD_bit {t k} (hk : k < 64) : (1#64 <<< t).getLsbD k = decide (k = t) := by
  rw [← twoPow_eq, getLsbD_twoPow]
  by_cases h : k = t
  · subst h
    simp [hk]
  · simp [h, Ne.symm h]

theorem updateBit_testBit {mnemonic} (hm : mnemonic ≠ .bt) (v) {t k} (hk : k < 64) :
    (updateBit mnemonic v (1#64 <<< t)).toNat.testBit k =
      if k = t then updated mnemonic (v.toNat.testBit t) else v.toNat.testBit k := by
  rw [testBit_toNat, testBit_toNat, testBit_toNat]
  unfold updateBit updated
  rw [if_neg hm]
  by_cases h : k = t
  · subst h
    rw [if_pos rfl]
    by_cases hs : mnemonic = .bts
    · rw [if_pos hs, if_pos hs, getLsbD_or, getLsbD_bit hk]
      simp
    by_cases hr : mnemonic = .btr
    · rw [if_neg hs, if_neg hs, if_pos hr, if_pos hr, getLsbD_and, getLsbD_not, getLsbD_bit hk]
      simp
    · rw [if_neg hs, if_neg hs, if_neg hr, if_neg hr, getLsbD_xor, getLsbD_bit hk]
      simp
  · rw [if_neg h]
    split
    · rw [getLsbD_or, getLsbD_bit hk]
      simp [h]
    split
    · rw [getLsbD_and, getLsbD_not, getLsbD_bit hk]
      simp [h, hk]
    · rw [getLsbD_xor, getLsbD_bit hk]
      simp [h]

/-! ## The run -/

section

variable {i : Instruction} (hm : i.mnemonic ∈ instructions) (hmem : i.opKind 0 = .memory)
  (hreg : i.opKind 1 = .register)
  (hs : operandWidth (operandSize i 0)) {c : Cpu} {physical : U64}
  (htranslate : c.translation (bitAddress i (operandSize i 0) c).1 (access i) = .ok physical)
  (hram : c.memory.InRam physical (operandSize i 0))

include hm hmem in
theorem dispatch_bitTest : dispatch i = bitTestMemory i := by
  have hroute : routeOf i = some .bitScanTest := by
    simp only [instructions, List.mem_cons, List.not_mem_nil, or_false] at hm
    rcases hm with hm | hm | hm | hm <;> (simp only [routeOf, hm]; rfl)
  rw [dispatch_route .bitScanTest hroute]
  show bitScanTest i = bitTestMemory i
  rw [bitScanTest, if_neg ?_, bitTest, if_pos hmem]
  intro h
  simp only [instructions, List.mem_cons, List.not_mem_nil, or_false] at hm h
  rcases hm with hm | hm | hm | hm <;> simp [hm] at h

include hm hmem hreg hs htranslate hram

theorem bitTest_run : ∃ c1 n, Refills c c1 ∧
    dispatch i c =
      (Exec.when (i.mnemonic ≠ .bt) (memoryWriteLe physical (operandSize i 0)
          (updateBit i.mnemonic (ofNat 64 (leNat (readBytes c.memory.ram.bytes physical.toNat (operandSize i 0))))
            (1#64 <<< (bitAddress i (operandSize i 0) c).2)))
        { c1 with regs := setCarry c.regs (bitOf c.memory.ram.bytes
            (8 * physical.toNat + (bitAddress i (operandSize i 0) c).2)) }).after n := by
  obtain ⟨-, -, hbit⟩ := bitAddress_eq hreg hs c
  obtain ⟨h8, h64⟩ := bits_of_width hs
  obtain ⟨c1, n, hrun, hrefills⟩ := translate_run htranslate
  refine ⟨c1, n + 1, hrefills, ?_⟩
  have hread : memoryReadLe physical (operandSize i 0) c1 =
      ⟨.ok (ofNat 64 (leNat (readBytes c.memory.ram.bytes physical.toNat (operandSize i 0)))), c1, 1⟩ := by
    rw [memoryReadLe, Exec.query_apply, hrefills.memory, Memory.readU64At_ram hram]
  have hcarry : (ofNat 64 (leNat (readBytes c.memory.ram.bytes physical.toNat (operandSize i 0))) &&&
      1#64 <<< (bitAddress i (operandSize i 0) c).2 != 0) =
      bitOf c.memory.ram.bytes (8 * physical.toNat + (bitAddress i (operandSize i 0) c).2) := by
    rw [and_one_shiftLeft_ne_zero _ (by omega), getLsbD_ofNat, decide_eq_true (by omega), Bool.true_and,
      testBit_readBytes, decide_eq_true hbit, Bool.true_and]
  rw [dispatch_bitTest hm hmem, bitTestMemory]
  simp only [get_bind, bitUnit_eq hs]
  refine (Exec.bind_ok hrun).trans ?_
  rw [Exec.bind_ok hread, ← hcarry, ← hrefills.regs]
  refine (congrArg (fun run => Run.after n (Run.after 1 run)) (Exec.update_bind _ _ c1)).trans ?_
  simp only [Run.after, Nat.add_assoc]

theorem testsAt_unit : TestsAt i c (8 * physical.toNat + (bitAddress i (operandSize i 0) c).2) (dispatch i c) := by
  obtain ⟨-, -, hbit⟩ := bitAddress_eq hreg hs c
  obtain ⟨h8, h64⟩ := bits_of_width hs
  obtain ⟨c1, n, hrefills, hrun⟩ := bitTest_run hm hmem hreg hs htranslate hram
  rw [hrun]
  by_cases hbt : i.mnemonic = .bt
  · rw [Exec.when, if_neg (by simpa using hbt)]
    refine ⟨rfl, rfl, fun j => ?_, ?_⟩
    · show bitOf c1.memory.ram.bytes j = _
      rw [hrefills.memory, updated, if_pos hbt]
      split
      · rename_i hj
        rw [hj]
      · rfl
    · show c1.memory = { c.memory with
        ram := { c1.memory.ram with len := c.memory.ram.len }, generation := c1.memory.generation }
      rw [hrefills.memory]
  · rw [Exec.when, if_pos hbt, memoryWriteLe, memoryWrite]
    dsimp only
    rw [hrefills.memory, Memory.write_ram (by rw [leBytes_length]; exact hram)]
    refine ⟨rfl, rfl, fun j => ?_, rfl⟩
    show bitOf (writeBytes c.memory.ram.bytes physical.toNat (leBytes (operandSize i 0) _)) j = _
    refine bitOf_update c.memory.ram.bytes hbit (fun k hk => ?_) j
    have hvalue (k : Nat) (hk : k < 8 * operandSize i 0) :
        (ofNat 64 (leNat (readBytes c.memory.ram.bytes physical.toNat (operandSize i 0)))).toNat.testBit k =
          (leNat (readBytes c.memory.ram.bytes physical.toNat (operandSize i 0))).testBit k := by
      rw [testBit_toNat, getLsbD_ofNat, decide_eq_true (by omega), Bool.true_and]
    rw [updateBit_testBit hbt _ (by omega), hvalue k hk, hvalue _ hbit, testBit_readBytes _ _ _ (bitAddress _ _ _).2,
      decide_eq_true hbit, Bool.true_and]

end

/-- A bit test of RAM tests the bit it names exactly when the place behind the first byte of the unit is that bit's, or
    has the same value and both stay. Inside a page it always does. -/
theorem bitString_correct_iff (i : Instruction) (hm : i.mnemonic ∈ instructions) (hmem : i.opKind 0 = .memory)
    (hreg : i.opKind 1 = .register) (hs : operandWidth (operandSize i 0)) (c : Cpu) (physical : U64)
    (htranslate : c.translation (bitAddress i (operandSize i 0) c).1 (access i) = .ok physical)
    (hram : c.memory.InRam physical (operandSize i 0)) :
    (Correct i c (dispatch i c) ↔ Reaches i c (8 * physical.toNat + (bitAddress i (operandSize i 0) c).2)) ∧
      (onePage (bitAddress i (operandSize i 0) c).1 (operandSize i 0) → Correct i c (dispatch i c)) := by
  have hunit := testsAt_unit hm hmem hreg hs htranslate hram
  refine ⟨exists_congr fun k => and_congr_right fun _ => testsAt_iff hunit, ?_⟩
  intro hpage
  refine ⟨_, ⟨physical + ofNat 64 ((bitAddress i (operandSize i 0) c).2 / 8), ?_, ?_⟩, hunit⟩
  all_goals obtain ⟨hbyte, hmod, hbit⟩ := bitAddress_eq hreg hs c
  · rw [hbyte]
    refine translation_add htranslate ?_
    simp only [onePage, decide_eq_true_eq] at hpage
    omega
  · have hin := hram.2
    rw [hmod, toNat_add, toNat_ofNat]
    omega

def btsEcx (address : U64) : Instruction :=
  { Instruction.empty with
    len := 7, mnemonic := .bts, codeSize := .code32, memorySize := .uInt32, memoryDisplacement64 := address
    operands := [⟨.memory, .none, 0⟩, ⟨.register, .dword index.RCX, 0⟩], isInvalid := false }

def withOffset (offset : U64) : Cpu :=
  let c := Cpu.new Memory.withLapic 0 0 false
  { c with regs := c.regs.setGpr index.RCX offset }

/-- A negative offset sets a bit below the base. -/
theorem bts_below_base : Correct (btsEcx 0x2000) (withOffset 0xFFFFFFFF)
    (dispatch (btsEcx 0x2000) (withOffset 0xFFFFFFFF)) :=
  (bitString_correct_iff (btsEcx 0x2000) (by decide) rfl rfl rfl (withOffset 0xFFFFFFFF) 0x1FFC (by decide +kernel)
    ⟨by decide +kernel, by decide +kernel⟩).2 (by decide +kernel)

/-- The same under 32-bit paging, with the first two pages at frames 5 and 7. -/
def scattered (offset : U64) : Cpu :=
  let c := withOffset offset
  let ram := ((c.memory.ram.store 0x1000 [3, 0x20, 0, 0]).store 0x2000 [3, 0x50, 0, 0, 3, 0x70, 0, 0])
  { c with
    memory := { c.memory with ram }, regs := { c.regs with cr0 := Cr0.PG ||| Cr0.PE, cr3 := 0x1000 } }

/-- Bit 16 of a doubleword two bytes before the end of a page is in frame 7, and the byte behind frame 5 is set. -/
theorem bts_misses_next_page :
    (scattered 16).translation 0x1000 .write = .ok 0x7000 ∧
      (dispatch (btsEcx 0xFFE) (scattered 16)).outcome = .ok () ∧
      (dispatch (btsEcx 0xFFE) (scattered 16)).state.memory.ram.bytes 0x7000 = 0 ∧
      (scattered 16).memory.ram.bytes 0x6000 = 0 ∧
      (dispatch (btsEcx 0xFFE) (scattered 16)).state.memory.ram.bytes 0x6000 = 1 := by
  decide +kernel

end Rish.SoftVm.Ops
