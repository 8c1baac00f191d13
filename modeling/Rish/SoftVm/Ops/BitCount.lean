/-
  Rish.SoftVm.Ops.BitCount — BSF, BSR, TZCNT, LZCNT and POPCNT.

  `Counted` says what each of them leaves in the registers, by the bits of the source: its lowest or
  highest set bit, or the number of them, and the flags.

  Proved: every instruction leaves that, but for POPCNT, which clears CF alone of the five flags it
  should clear and is right exactly when the other four were clear (`bitCount_correct_iff`).
-/

import Rish.SoftVm.Ops.Alu

namespace Rish.SoftVm.Ops

open Lib Cpu

/-! ## What the instructions count -/

structure Lowest (v k : Nat) : Prop where
  bit : v.testBit k = true
  below : ∀ j < k, v.testBit j = false

structure Highest (v k : Nat) : Prop where
  bit : v.testBit k = true
  above : ∀ j, k < j → v.testBit j = false

/-- The number of set bits. -/
def ones (bits v : Nat) : Nat := ((Finset.range bits).filter fun k => v.testBit k).card

variable (i : Instruction)

def countInto (k : Nat) (r : Registers) : Registers :=
  writeRegister r (i.opRegister 0) (operandSize i 0) (BitVec.ofNat 64 k)

/-- A scan: the destination stays for zero. -/
def Scanned (index : Nat → Nat → Prop) (v : Nat) (r r' : Registers) : Prop :=
  (v = 0 → r' = withFlag r RFlags.ZF true) ∧
    (v ≠ 0 → ∃ k, index v k ∧ r' = countInto i k (withFlag r RFlags.ZF false))

/-- A count of the zeros at one end, the width for zero. -/
def ZerosCounted (zeros : Nat → Nat → Prop) (bits v : Nat) (r r' : Registers) : Prop :=
  ∃ k, (v = 0 → k = bits) ∧ (v ≠ 0 → zeros v k) ∧
    r' = countInto i k (withFlag (withFlag r RFlags.CF (v = 0)) RFlags.ZF (k = 0))

def OnesCounted (bits v : Nat) (r r' : Registers) : Prop :=
  r' = countInto i (ones bits v)
    (withFlag (withFlag (withFlag (withFlag (withFlag (withFlag r RFlags.ZF (v = 0)) RFlags.CF false) RFlags.OF false)
      RFlags.SF false) RFlags.AF false) RFlags.PF false)

def Counted (bits v : Nat) (r r' : Registers) : Prop :=
  if i.mnemonic = .bsf then Scanned i Lowest v r r'
  else if i.mnemonic = .bsr then Scanned i Highest v r r'
  else if i.mnemonic = .tzcnt then ZerosCounted i Lowest bits v r r'
  else if i.mnemonic = .lzcnt then ZerosCounted i (fun v k => k < bits ∧ Highest v (bits - 1 - k)) bits v r r'
  else OnesCounted i bits v r r'

def CountsCorrectly (source : U64) (c : Cpu) (n : Nat) (run : Run Cpu CpuError Unit) : Prop :=
  ∃ r', run = ⟨.ok (), { c with regs := r' }, n⟩ ∧ Counted i (operandSize i 0 * 8) source.toNat c.regs r'

/-! ## The counts of the host -/

theorem find_bit {p} (hex : ∃ k, k < 64 ∧ p k = true) :
    ∃ k < 64, (List.range 64).find? p = some k ∧ p k = true ∧ ∀ j < k, p j = false := by
  cases hfind : (List.range 64).find? p with
  | none =>
    obtain ⟨k, hk, hbit⟩ := hex
    exact absurd hbit (List.find?_eq_none.mp hfind k (List.mem_range.mpr hk))
  | some k =>
    obtain ⟨hbit, hk, hbelow⟩ := List.find?_range_eq_some.mp hfind
    exact ⟨k, List.mem_range.mp hk, rfl, hbit, fun j hj => by simpa using hbelow j hj⟩

variable {v : U64}

theorem trailingZeros_lowest (hv : v ≠ 0) : Lowest v.toNat (trailingZeros v) := by
  have hex : ∃ k, k < 64 ∧ v.getLsbD k = true := by
    by_contra hno
    apply hv
    apply BitVec.eq_of_getLsbD_eq
    intro k hk
    by_contra hbit
    exact hno ⟨k, hk, by simpa using hbit⟩
  obtain ⟨k, -, hfind, hbit, hbelow⟩ := find_bit hex
  unfold trailingZeros
  rw [hfind]
  exact ⟨hbit, hbelow⟩

theorem leadingZeros_highest (hv : v ≠ 0) : leadingZeros v < 64 ∧ Highest v.toNat (63 - leadingZeros v) := by
  have hex : ∃ k, k < 64 ∧ v.getMsbD k = true := by
    by_contra hno
    apply hv
    apply BitVec.eq_of_getMsbD_eq
    intro k hk
    by_contra hbit
    exact hno ⟨k, hk, by simpa using hbit⟩
  obtain ⟨k, hk, hfind, hbit, hbelow⟩ := find_bit hex
  have hmsb (j : Nat) (hj : j < 64) : v.getMsbD j = v.toNat.testBit (63 - j) := by
    rw [BitVec.getMsbD, decide_eq_true hj, Bool.true_and]
    rfl
  unfold leadingZeros
  rw [hfind, Option.getD_some]
  refine ⟨hk, (hmsb k hk).symm.trans hbit, fun j hj => ?_⟩
  by_cases hj64 : j < 64
  · have hz := hbelow (63 - j) (by omega)
    rwa [hmsb _ (by omega), show 63 - (63 - j) = j by omega] at hz
  · exact BitVec.getLsbD_of_ge v j (by omega)

theorem countP_range (p n) :
    (List.range n).countP p = ((Finset.range n).filter fun k => p k).card := by
  induction n with
  | zero => rfl
  | succ n ih =>
    rw [List.range_succ, List.countP_append, ih, Finset.range_add_one, Finset.filter_insert]
    cases h : p n <;> simp [h]

theorem countOnes_eq {bits} (h64 : bits ≤ 64) (hv : v.toNat < 2 ^ bits) : countOnes v = ones bits v.toNat := by
  have hbits : ((Finset.range 64).filter fun k => v.toNat.testBit k) =
      (Finset.range bits).filter fun k => v.toNat.testBit k := by
    ext k
    simp only [Finset.mem_filter, Finset.mem_range]
    constructor
    · rintro ⟨-, hk⟩
      refine ⟨?_, hk⟩
      by_contra hge
      rw [Nat.testBit_lt_two_pow (Nat.lt_of_lt_of_le hv (Nat.pow_le_pow_right (by decide) (by omega)))] at hk
      cases hk
    · rintro ⟨hk, hbit⟩
      exact ⟨by omega, hbit⟩
  rw [ones, ← hbits]
  exact countP_range _ 64

/-! ## The registers they leave -/

section

variable {i : Instruction} {source : U64} (r : Registers)

theorem toNat_eq_zero : source.toNat = 0 ↔ source = 0 := by
  rw [← BitVec.toNat_inj]
  rfl

variable {P : Nat → Nat → Prop}

theorem scan_scanned {index} (h : source ≠ 0 → P source.toNat index) :
    Scanned i P source.toNat r (scan i source index r) := by
  unfold scan
  constructor
  · intro hz
    rw [if_pos (toNat_eq_zero.mp hz)]
  · intro hz
    have hne : source ≠ 0 := fun h => hz (toNat_eq_zero.mpr h)
    rw [if_neg hne]
    exact ⟨index, h hne, rfl⟩

theorem countZeros_counted {index} (hs : operandWidth (operandSize i 0))
    (hv : source.toNat < 2 ^ (operandSize i 0 * 8)) (h : source ≠ 0 → P source.toNat (index source)) :
    ZerosCounted i P (operandSize i 0 * 8) source.toNat r (countZeros i source index r) := by
  have hmask : source &&& bitsMask (operandSize i 0 * 8) = source := by
    apply BitVec.eq_of_toNat_eq
    rw [and_bitsMask_toNat (bits_of_width hs).2, low_of_lt hv]
  have hzero : (source == 0) = decide (source.toNat = 0) := by
    rw [beq_eq_decide, decide_eq_decide, toNat_eq_zero]
  simp only [countZeros, hmask, hzero]
  refine ⟨if source = 0 then operandSize i 0 * 8 else index source, ?_, ?_, ?_⟩
  · intro hz
    rw [if_pos (toNat_eq_zero.mp hz)]
  · intro hz
    have hne : source ≠ 0 := fun h => hz (toNat_eq_zero.mpr h)
    rw [if_neg hne]
    exact h hne
  · rw [beq_eq_decide]
    rfl

theorem leadingZeros_width {bits} (h8 : 8 ≤ bits) (h64 : bits ≤ 64) (hv : source.toNat < 2 ^ bits) (hne : source ≠ 0) :
    leadingZeros source - (64 - bits) < bits ∧
      Highest source.toNat (bits - 1 - (leadingZeros source - (64 - bits))) := by
  obtain ⟨hlt, hhigh⟩ := leadingZeros_highest hne
  have htop : 63 - leadingZeros source < bits := by
    by_contra hge
    have hbit := hhigh.bit
    rw [Nat.testBit_lt_two_pow (Nat.lt_of_lt_of_le hv (Nat.pow_le_pow_right (by decide) (by omega)))] at hbit
    cases hbit
  have hidx : bits - 1 - (leadingZeros source - (64 - bits)) = 63 - leadingZeros source := by omega
  exact ⟨by omega, by rwa [hidx]⟩

theorem bitScan_counted (hm : i.mnemonic ∈ [.bsf, .bsr, .tzcnt, .lzcnt]) (hs : operandWidth (operandSize i 0))
    (hv : source.toNat < 2 ^ (operandSize i 0 * 8)) :
    Counted i (operandSize i 0 * 8) source.toNat r (bitScan i source r) := by
  obtain ⟨h8, h64⟩ := bits_of_width hs
  simp only [List.mem_cons, List.not_mem_nil, or_false] at hm
  rcases hm with hm | hm | hm | hm
  · simp only [Counted, bitScan, hm, if_true]
    exact scan_scanned r trailingZeros_lowest
  · simp only [Counted, bitScan, hm, if_true, reduceCtorEq, if_false]
    exact scan_scanned r fun hne => (leadingZeros_highest hne).2
  · simp only [Counted, bitScan, hm, if_true, reduceCtorEq, if_false]
    exact countZeros_counted r hs hv trailingZeros_lowest
  · simp only [Counted, bitScan, hm, if_true, reduceCtorEq, if_false]
    exact countZeros_counted r hs hv (leadingZeros_width h8 h64 hv)

end

/-! ## POPCNT -/

/-- The flags POPCNT should clear and does not touch. -/
def Cleared (r : Registers) : Prop :=
  contains r.rflags RFlags.OF = false ∧ contains r.rflags RFlags.SF = false ∧
    contains r.rflags RFlags.AF = false ∧ contains r.rflags RFlags.PF = false

instance (r : Registers) : Decidable (Cleared r) := inferInstanceAs (Decidable (_ ∧ _))

def popcntRegs (i : Instruction) (value : U64) (r : Registers) : Registers :=
  writeRegister (withFlag (withFlag r RFlags.ZF (value == 0)) RFlags.CF false) (i.opRegister 0) (operandSize i 1)
    (BitVec.ofNat 64 (countOnes value))

theorem withFlag_self {r k} (hk : k < 64) {value}
    (h : contains r.rflags (1#64 <<< k) = value) : withFlag r (1#64 <<< k) value = r := by
  subst h
  exact congrArg (fun flags => { r with rflags := flags }) (setFlag_self r.rflags hk)

theorem popcntRegs_counted_iff {i} (hw : operandSize i 1 = operandSize i 0) {value}
    (hs : operandWidth (operandSize i 0)) (hv : value.toNat < 2 ^ (operandSize i 0 * 8)) (r) :
    OnesCounted i (operandSize i 0 * 8) value.toNat r (popcntRegs i value r) ↔ Cleared r := by
  have hones := countOnes_eq (bits_of_width hs).2 hv
  have hzero : (value == 0) = decide (value.toNat = 0) := by
    rw [beq_eq_decide, decide_eq_decide, toNat_eq_zero]
  have hregs : popcntRegs i value r = countInto i (ones (operandSize i 0 * 8) value.toNat)
      (withFlag (withFlag r RFlags.ZF (value.toNat = 0)) RFlags.CF false) := by
    rw [popcntRegs, hw, hones, hzero]
    rfl
  rw [OnesCounted, hregs]
  constructor
  · intro h
    have hflags := congrArg Registers.rflags h
    simp only [countInto, writeRegister_rflags] at hflags
    have hread (bit : U64) := congrArg (contains · bit) hflags
    have hof := hread RFlags.OF
    have hsf := hread RFlags.SF
    have haf := hread RFlags.AF
    have hpf := hread RFlags.PF
    simp (disch := decide) only [withFlag, contains_setFlag_of_ne, contains_setFlag_self] at hof hsf haf hpf
    exact ⟨hof, hsf, haf, hpf⟩
  · rintro ⟨hof, hsf, haf, hpf⟩
    have hstays {bit : U64} (h : contains r.rflags bit = false) (hz : RFlags.ZF &&& bit = 0)
        (hc : RFlags.CF &&& bit = 0) :
        contains (withFlag (withFlag r RFlags.ZF (value.toNat = 0)) RFlags.CF false).rflags bit = false := by
      rw [withFlag, withFlag, contains_setFlag_of_ne _ _ hc, contains_setFlag_of_ne _ _ hz, h]
    have h1 := withFlag_self (by decide : 11 < 64) (hstays hof (by decide) (by decide))
    have h2 := withFlag_self (by decide : 7 < 64) (hstays hsf (by decide) (by decide))
    have h3 := withFlag_self (by decide : 4 < 64) (hstays haf (by decide) (by decide))
    have h4 := withFlag_self (by decide : 2 < 64) (hstays hpf (by decide) (by decide))
    exact congrArg _ (by rw [show RFlags.OF = 1#64 <<< 11 from rfl, h1, show RFlags.SF = 1#64 <<< 7 from rfl, h2,
      show RFlags.AF = 1#64 <<< 4 from rfl, h3, show RFlags.PF = 1#64 <<< 2 from rfl, h4])

/-! ## The instructions -/

theorem readOperand1_lt {i} (hk : i.opKind 1 = .register ∨ i.opKind 1 = .memory) {c c' v}
    {n} (h : readOperand1 i c = ⟨.ok v, c', n⟩) :
    operandWidth (operandSize i 1) ∧ v.toNat < 256 ^ operandSize i 1 := by
  unfold readOperand1 at h
  rcases hk with hk | hk
  · rw [if_neg (by simp [hk]), if_pos hk] at h
    have hsize : operandSize i 1 = registerSize (i.opRegister 1) := by simp [operandSize, hk]
    rw [hsize] at h ⊢
    cases h
    exact ⟨registerSize_width _, readRegister_lt _ _⟩
  · rw [if_pos hk] at h
    have hsize : operandSize i 1 = memorySize i := by simp [operandSize, hk]
    rw [hsize]
    obtain ⟨c1, _, _, _, -, h, -⟩ := Exec.bind_eq_ok h
    exact readLinear_lt h

theorem cmovSource_eq {i} (hk : i.opKind 1 = .register ∨ i.opKind 1 = .memory) :
    cmovSource i = readOperand1 i := by
  unfold cmovSource readOperand1
  rcases hk with hk | hk <;> simp [hk]

/-- With a source of the width of the destination, each instruction leaves its count and its flags,
    POPCNT exactly when OF, SF, AF and PF were clear. -/
theorem bitCount_correct_iff (i : Instruction) (hm : i.mnemonic ∈ [.bsf, .bsr, .tzcnt, .lzcnt, .popcnt])
    (hk : i.opKind 1 = .register ∨ i.opKind 1 = .memory) (hw : operandSize i 1 = operandSize i 0) (c c1 : Cpu)
    (source : U64) (n : Nat) (hread : readOperand1 i c = ⟨.ok source, c1, n⟩) :
    CountsCorrectly i source c1 n (dispatch i c) ↔ (i.mnemonic = .popcnt → Cleared c.regs) := by
  obtain ⟨hs, hv⟩ := readOperand1_lt hk hread
  rw [hw, pow_bits] at hv
  rw [hw] at hs
  by_cases hp : i.mnemonic = .popcnt
  · have hrun : dispatch i c = ⟨.ok (), { c1 with regs := popcntRegs i source c1.regs }, n⟩ := by
      rw [dispatch_route .extra (by simp only [routeOf, hp]; rfl), handler, extraOp]
      simp only [hp, reduceCtorEq, if_false, if_true, popcnt, cmovSource_eq hk]
      rw [Exec.bind_ok hread]
      rfl
    have hregs : c1.regs = c.regs := Keeps.run (R := SameRegs) hread
    rw [hrun, ← hregs, ← popcntRegs_counted_iff hw hs hv c1.regs]
    constructor
    · rintro ⟨r', hr, hcount⟩ _
      simp only [Counted, hp, reduceCtorEq, if_false] at hcount
      have hr' : popcntRegs i source c1.regs = r' := congrArg (fun run => run.state.regs) hr
      rw [hr']
      exact hcount
    · intro h
      refine ⟨_, rfl, ?_⟩
      simp only [Counted, hp, reduceCtorEq, if_false]
      exact h hp
  · have hm' : i.mnemonic ∈ [.bsf, .bsr, .tzcnt, .lzcnt] := by
      simp only [List.mem_cons, List.not_mem_nil, or_false] at hm ⊢
      tauto
    have hrun : dispatch i c = ⟨.ok (), { c1 with regs := bitScan i source c1.regs }, n⟩ := by
      have hroute : routeOf i = some .bitScanTest := by
        simp only [List.mem_cons, List.not_mem_nil, or_false] at hm'
        rcases hm' with h | h | h | h <;> (simp only [routeOf, h]; rfl)
      rw [dispatch_route _ hroute, handler, bitScanTest, if_pos hm', Exec.bind_ok hread]
      rfl
    rw [hrun]
    refine ⟨fun _ h => absurd h hp, fun _ => ⟨_, rfl, ?_⟩⟩
    exact bitScan_counted c1.regs hm' hs hv

def popcntEbx : Instruction :=
  { Instruction.empty with
    len := 4, mnemonic := .popcnt, mnemonicName := "Popcnt", codeName := "Popcnt_r32_rm32", codeSize := .code64
    operands := [⟨.register, .dword index.RAX, 0⟩, ⟨.register, .dword index.RBX, 0⟩], isInvalid := false }

/-- A reset machine with a value in RBX and some flags. -/
def flagged (value flags : U64) : Cpu :=
  { holding value with regs := { (holding value).regs with rflags := flags } }

/-- Seven has three ones, and no flag was set. -/
theorem popcnt_seven : CountsCorrectly popcntEbx 7 (flagged 7 0) 0 (dispatch popcntEbx (flagged 7 0)) :=
  (bitCount_correct_iff popcntEbx (by decide) (.inl rfl) rfl (flagged 7 0) (flagged 7 0) 7 0 rfl).mpr fun _ => by decide

/-- POPCNT leaves an overflow flag it should clear. -/
theorem popcnt_leaves_overflow :
    contains (dispatch popcntEbx (flagged 7 RFlags.OF)).state.regs.rflags RFlags.OF = true := by
  decide +kernel

end Rish.SoftVm.Ops
