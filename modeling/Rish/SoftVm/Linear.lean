/-
  Rish.SoftVm.Linear — linear memory: where a byte of it lies, and what RAM holds there.

  `translation` is what the machine answers for an address without taking a step.

  Proved: a translation answers it and only refills the TLB (`answers_translate`), the rest of a page lies behind any
  byte of it (`translation_add`), and an access that no device answers is one of RAM (`readU64At_ram`, `write_ram`).
-/

import Rish.SoftVm.Events

namespace Rish.SoftVm

open Lib
open BitVec (ofNat getElem_and)

/-! ## Translations of one page -/

theorem pageOffset_toNat (x : U64) : (x &&& 0xFFF).toNat = x.toNat % 4096 := by
  rw [BitVec.toNat_and]
  exact Nat.and_two_pow_sub_one_eq_mod x.toNat 12

theorem and_not_add_and (x mask : U64) : (x &&& ~~~mask) + (x &&& mask) = x := by
  have hdisjoint : (x &&& ~~~mask) &&& (x &&& mask) = 0#64 := by
    ext j hj
    rw [getElem_and, getElem_and, getElem_and, BitVec.getElem_not hj, BitVec.getElem_zero]
    cases x[j] <;> cases mask[j] <;> rfl
  rw [BitVec.add_eq_or_of_and_eq_zero _ _ hdisjoint]
  ext j hj
  rw [BitVec.getElem_or, getElem_and, getElem_and, BitVec.getElem_not hj]
  cases x[j] <;> cases mask[j] <;> rfl

theorem page_add_offset (x : U64) : (x &&& ~~~0xFFF) + (x &&& 0xFFF) = x := and_not_add_and x 0xFFF

section

variable {linear : U64} {k : Nat} (hk : (linear &&& 0xFFF).toNat + k < 4096)

include hk

theorem pageOffset_add : (linear + ofNat 64 k) &&& 0xFFF = (linear &&& 0xFFF) + ofNat 64 k := by
  apply BitVec.eq_of_toNat_eq
  rw [pageOffset_toNat] at hk ⊢
  rw [BitVec.toNat_add, BitVec.toNat_add, pageOffset_toNat, BitVec.toNat_ofNat]
  omega

theorem page_add : (linear + ofNat 64 k) &&& ~~~0xFFF = linear &&& ~~~0xFFF := by
  have h := page_add_offset (linear + ofNat 64 k)
  have h' := page_add_offset linear
  rw [pageOffset_add hk] at h
  generalize (linear + ofNat 64 k) &&& ~~~0xFFF = a at *
  generalize linear &&& ~~~0xFFF = b at *
  generalize linear &&& 0xFFF = o at *
  generalize ofNat 64 k = d at *
  bv_omega

theorem tlbPage_add : Tlb.page (linear + ofNat 64 k) = Tlb.page linear := by
  apply BitVec.eq_of_toNat_eq
  rw [pageOffset_toNat] at hk
  simp only [Tlb.page, BitVec.toNat_ushiftRight, Nat.shiftRight_eq_div_pow, BitVec.toNat_add, BitVec.toNat_ofNat]
  omega

theorem Translation.physical_add (t : Translation) :
    t.physical (linear + ofNat 64 k) = t.physical linear + ofNat 64 k := by
  have hpage (x : U64) : t.physical x &&& ~~~0xFFF = (t.frame &&& ~~~0xFFF) |||
      ((x &&& ~~~0xFFF) &&& (t.pageSize - 1)) := by
    rw [Translation.physical, BitVec.and_comm, BitVec.and_or_distrib_left, BitVec.and_comm, BitVec.and_comm (~~~0xFFF),
      BitVec.and_assoc, BitVec.and_comm (t.pageSize - 1), ← BitVec.and_assoc]
  have h := page_add_offset (t.physical (linear + ofNat 64 k))
  have h' := page_add_offset (t.physical linear)
  rw [hpage, t.physical_offset, page_add hk, pageOffset_add hk] at h
  rw [hpage, t.physical_offset] at h'
  rw [← h, ← h', BitVec.add_assoc]

end

namespace Cpu

/-- What a translation answers at the current privilege level. -/
def translation (linear : U64) (kind : AccessKind) (c : Cpu) : Outcome CpuError U64 :=
  if !contains c.regs.cr0 Cr0.PG then .ok linear
  else (c.usedWalk linear).mapErr (walkFault kind c.regs.cpl) >>= checked linear kind c.regs.cpl c

theorem answers_translate (linear kind c) :
    Answers (translate linear kind) c (c.translation linear kind) := by
  have h := answers_translateAs linear kind c.regs.cpl c
  have heq : translate linear kind c = translateAs linear kind c.regs.cpl c := get_bind _ c
  exact ⟨by rw [heq]; exact h.outcome, by rw [heq]; exact h.refills⟩

variable {c : Cpu} {kind : AccessKind} {linear : U64} {physical : U64}

theorem translate_run (h : c.translation linear kind = .ok physical) :
    ∃ c1 n, translate linear kind c = ⟨.ok physical, c1, n⟩ ∧ Refills c c1 := by
  obtain ⟨ho, hr⟩ := answers_translate linear kind c
  rw [h] at ho
  rcases hrun : translate linear kind c with ⟨o, c1, n⟩
  rw [hrun] at ho hr
  exact ⟨c1, n, by rw [← ho], hr⟩

variable {walked : Translation}

theorem checked_ok {cpl} :
    checked linear kind cpl c walked = .ok physical ↔
      denied walked kind cpl c.regs.cr0 c.regs.cr4 c.regs.efer (contains c.regs.rflags RFlags.AC) = false ∧
        physical = walked.physical linear := by
  unfold checked checkAccess
  cases denied walked kind cpl c.regs.cr0 c.regs.cr4 c.regs.efer (contains c.regs.rflags RFlags.AC) with
  | true => simp only [if_true, reduceCtorEq, Bool.true_eq_false, false_and]
  | false =>
    simp only [Bool.false_eq_true, if_false, Outcome.ok.injEq, true_and]
    exact eq_comm

theorem usedWalk_page {linear'} (h : Tlb.page linear' = Tlb.page linear)
    (hw : c.usedWalk linear = .ok walked) : c.usedWalk linear' = .ok walked := by
  have hlookup : c.tlbLookup linear' = c.tlbLookup linear := by
    unfold tlbLookup Tlb.lookup
    rw [h]
  unfold usedWalk at hw ⊢
  rw [hlookup]
  cases hl : c.tlbLookup linear with
  | some w =>
    rw [hl] at hw
    exact hw
  | none =>
    rw [hl] at hw
    exact walkOf_page h hw

theorem translation_add {k : Nat}
    (h : c.translation linear kind = .ok physical) (hk : (linear &&& 0xFFF).toNat + k < 4096) :
    c.translation (linear + ofNat 64 k) kind = .ok (physical + ofNat 64 k) := by
  unfold translation at h ⊢
  by_cases hpg : !contains c.regs.cr0 Cr0.PG
  · rw [if_pos hpg] at h ⊢
    cases h
    rfl
  · rw [if_neg hpg] at h ⊢
    obtain ⟨walked, hw, hc⟩ := Outcome.bind_eq_ok.mp h
    have hwalk : c.usedWalk linear = .ok walked := by
      cases hu : c.usedWalk linear <;> rw [hu] at hw <;> cases hw
      rfl
    obtain ⟨hallowed, rfl⟩ := checked_ok.mp hc
    rw [usedWalk_page (tlbPage_add hk) hwalk]
    exact checked_ok.mpr ⟨hallowed, (walked.physical_add hk).symm⟩

end Cpu

/-! ## RAM -/

namespace Memory

variable (m : Memory)

/-- No device answers at the address. -/
def ordinary (address : U64) : Bool :=
  !inVirtioBlk2 address && !inVirtioNet address && !inVirtio address && !inIoapic address &&
    !(inLapic address && m.lapic.isSome)

/-- The bytes are in RAM, and no device answers for them. -/
def InRam (address : U64) (n : Nat) : Prop := m.ordinary address = true ∧ address.toNat + n ≤ m.ram.len.toNat

variable {m} {address : U64}

theorem device_window {address} (h : m.ordinary address = false) :
    (0xFEBF0000 ≤ address.toNat ∧ address.toNat < 0xFEBF3000) ∨
      (0xFEC00000 ≤ address.toNat ∧ address.toNat < 0xFEC01000) ∨
      (0xFEE00000 ≤ address.toNat ∧ address.toNat < 0xFEE01000) := by
  simp only [ordinary, Bool.and_eq_false_iff, Bool.not_eq_false', Bool.and_eq_true, inVirtioBlk2, inVirtioNet, inVirtio,
    inIoapic, inLapic] at h
  rcases h with (((h | h) | h) | h) | ⟨h, -⟩
  · have hwindow : 0xFEBF2000 ≤ address.toNat ∧ address.toNat < 0xFEBF2000 + 0x400 := (inWindow_iff (by decide)).mp h
    omega
  · have hwindow : 0xFEBF1000 ≤ address.toNat ∧ address.toNat < 0xFEBF1000 + 0x400 := (inWindow_iff (by decide)).mp h
    omega
  · have hwindow : 0xFEBF0000 ≤ address.toNat ∧ address.toNat < 0xFEBF0000 + 0x400 := (inWindow_iff (by decide)).mp h
    omega
  · have hwindow : 0xFEC00000 ≤ address.toNat ∧ address.toNat < 0xFEC00000 + 0x1000 := (inWindow_iff (by decide)).mp h
    omega
  · have hwindow : 0xFEE00000 ≤ address.toNat ∧ address.toNat < 0xFEE00000 + 0x1000 := (inWindow_iff (by decide)).mp h
    omega

theorem read_ordinary (h : m.ordinary address = true) (n) : m.read address n = m.readRam address n := by
  simp only [ordinary, Bool.and_eq_true, Bool.not_eq_true'] at h
  obtain ⟨⟨⟨⟨h1, h2⟩, h3⟩, h4⟩, h5⟩ := h
  simp only [read, h1, h2, h3, h4, Bool.false_eq_true, if_false]
  cases ha : m.lapic with
  | none => rfl
  | some a =>
    rw [ha, Option.isSome_some, Bool.and_true] at h5
    simp only [h5, Bool.false_eq_true, if_false]

theorem write_ordinary (h : m.ordinary address = true) (input) :
    m.write address input = m.writeRam address input := by
  simp only [ordinary, Bool.and_eq_true, Bool.not_eq_true'] at h
  obtain ⟨⟨⟨⟨h1, h2⟩, h3⟩, h4⟩, h5⟩ := h
  simp only [write, h1, h2, h3, h4, Bool.false_eq_true, if_false]
  cases ha : m.lapic with
  | none => rfl
  | some a =>
    rw [ha, Option.isSome_some, Bool.and_true] at h5
    simp only [h5, Bool.false_eq_true, if_false]

theorem read_ram {n} (h : m.InRam address n) : m.read address n = .ok (m.ram.load address.toNat n) := by
  have hlen := m.ram.len.isLt
  obtain ⟨hordinary, hin⟩ := h
  rw [read_ordinary hordinary, readRam, if_neg (by omega), if_neg (by omega), Outcome.slice_ok hin]
  rfl

theorem readU64At_ram {n} (h : m.InRam address n) :
    m.readU64At address n = .ok (ofNat 64 (leNat (readBytes m.ram.bytes address.toNat n))) := by
  rw [readU64At, read_ram h]
  rfl

theorem write_ram {input} (h : m.InRam address input.length) :
    m.write address input = .ok { m with ram := m.ram.store address.toNat input, generation := m.generation + 1 } := by
  have hlen := m.ram.len.isLt
  obtain ⟨hordinary, hin⟩ := h
  rw [write_ordinary hordinary, writeRam, if_neg (by omega), if_neg (by omega), Outcome.slice_ok hin]
  rfl

end Memory

end Rish.SoftVm
