/-
  Rish.SoftVm.Ops.FpuContext — an FPU context switch: the state saved by one instruction and restored by another.

  The area may cross a page; the header of the extended forms lies behind it and is reached through one translation.
  What is asked of the mapping is that the bytes of the area keep their places while they are written and read.

  Proved: a save succeeds and leaves the area and the header (`save_run`), a restore reads them back (`fxrstor_run`,
  `xrstor_run`), and when a round trip brings a state back and when XRSTOR treats its components one by one
  (`fpu_context_switch_iff`).
-/

import Rish.SoftVm.LinearArea
import Rish.SoftVm.Ops.FpuArea

namespace Rish.SoftVm.Ops

open Lib Cpu List BitVec
open BitVec (ofNat)

/-! ## The instructions -/

variable (i : Instruction)

def savesLegacy : Prop := i.mnemonic ∈ [Mnemonic.fxsave, .fxsave64]

def savesExtended : Prop :=
  i.mnemonic ∈ [Mnemonic.xsave, .xsave64, .xsaveopt, .xsaveopt64, .xsavec, .xsavec64, .xsaves, .xsaves64]

def restoresLegacy : Prop := i.mnemonic ∈ [Mnemonic.fxrstor, .fxrstor64]

def restoresExtended : Prop := i.mnemonic ∈ [Mnemonic.xrstor, .xrstor64, .xrstors, .xrstors64]

section

variable {i : Instruction}

theorem extraOp_fxsave (h : savesLegacy i) : extraOp i = fxsave i := by
  simp only [savesLegacy, mem_cons, not_mem_nil, or_false] at h
  unfold extraOp
  rcases h with h | h <;> simp [h]

theorem extraOp_xsave (h : savesExtended i) : extraOp i = xsave i := by
  simp only [savesExtended, mem_cons, not_mem_nil, or_false] at h
  unfold extraOp
  rcases h with h | h | h | h | h | h | h | h <;> simp [h]

theorem extraOp_fxrstor (h : restoresLegacy i) : extraOp i = fxrstor i := by
  simp only [restoresLegacy, mem_cons, not_mem_nil, or_false] at h
  unfold extraOp
  rcases h with h | h <;> simp [h]

theorem extraOp_xrstor (h : restoresExtended i) : extraOp i = xrstor i := by
  simp only [restoresExtended, mem_cons, not_mem_nil, or_false] at h
  unfold extraOp
  rcases h with h | h | h | h <;> simp [h]

end

/-! ## Where the state is saved -/

/-- The bytes of RAM a save writes: the legacy area, and the header of the extended forms. -/
def savedBytes (place : Nat → U64) (header : U64) (extended : Prop) : Set Nat :=
  { a | (∃ k < 512, a = (place k).toNat) ∨ (extended ∧ ∃ j < 64, a = header.toNat + j) }

structure SavesTo (place : Nat → U64) (header : U64) (i : Instruction) (c : Cpu) : Prop where
  legacy : Mapped (savedBytes place header (savesExtended i)) (effectiveAddress i c) 512 .write place c
  header : savesExtended i → ∀ c', Touches (savedBytes place header (savesExtended i)) c c' →
    c'.translation (effectiveAddress i c + 512) .write = .ok header ∧ c'.memory.InRam header 8 ∧
      c'.memory.InRam (header + 8) 8 ∧ c'.memory.InRam (header + 16) 48

structure RestoresFrom (place : Nat → U64) (header : U64) (j : Instruction) (c : Cpu) : Prop where
  legacy : Mapped ∅ (effectiveAddress j c) 512 .read place c
  header : restoresExtended j →
    c.translation (effectiveAddress j c + 512) .read = .ok header ∧ c.memory.InRam header 8

def region (place : Nat → U64) (c : Cpu) : List U8 := bytesAt place 512 c

def xstateBv (header : U64) (c : Cpu) : U64 := ofNat 64 (leNat (readBytes c.memory.ram.bytes header.toNat 8))

/-! ## A save -/

section

variable {place : Nat → U64} {header : U64} {i : Instruction} {c : Cpu}

theorem legacy_saved (harea : Mapped (savedBytes place header (savesExtended i))
    (effectiveAddress i c) 512 .write place c) :
    ∃ c1 t, saveLegacyFpuArea (effectiveAddress i c) c = ⟨.ok (), c1, t⟩ ∧
      Wrote (savedBytes place header (savesExtended i)) place (legacyFpuArea c) c c1 := by
  have hlen := legacyFpuArea_length c
  unfold saveLegacyFpuArea writeLinearBytes
  rw [get_bind]
  refine writePages_mapped (Nat.le_refl _) (by omega) (by rw [hlen]; exact harea) fun k hk => ?_
  exact .inl ⟨k, by omega, rfl⟩

/-- What a save leaves in the area. -/
structure Saved (place : Nat → U64) (header : U64) (i : Instruction) (c c' : Cpu) : Prop where
  area : region place c' = legacyFpuArea c
  header : savesExtended i → xstateBv header c' = 3

theorem region_eq {bytes} (hlen : bytes.length = 512)
    (h : ∀ k (hk : k < bytes.length), c.memory.ram.bytes (place k).toNat = bytes[k]) : region place c = bytes := by
  apply ext_getElem
  · simp [region, bytesAt, hlen]
  · intro k _ hk
    simp only [region, bytesAt, getElem_map, getElem_range]
    exact h k hk

theorem region_congr {c'} (h : ∀ k < 512, c'.memory.ram.bytes (place k).toNat = c.memory.ram.bytes (place k).toNat) :
    region place c' = region place c := by
  unfold region bytesAt
  apply map_congr_left
  intro k hk
  exact h k (mem_range.mp hk)

theorem SavesTo.header_ne (h : SavesTo place header i c) (hi : savesExtended i) {k j} (hk : k < 512) (hj : j < 64) :
    (place k).toNat ≠ header.toNat + j := by
  have hplace := h.legacy.offset hk
  have hheader := translation_offset (h.header hi c .refl).1
  rw [toNat_add] at hheader
  have h512 : BitVec.toNat (512 : U64) = 512 := rfl
  omega

/-- XCOMP_BV as an instruction writes it. -/
def compactionOf (i : Instruction) : U64 :=
  if i.mnemonic ∈ [Mnemonic.xsavec, .xsavec64, .xsaves, .xsaves64] then (1#64 <<< 63) ||| 0x3 else 0

/-- The three writes of the header. -/
def headerWritten (header : U64) (compaction : U64) (c : Cpu) : Cpu :=
  stored (header.toNat + 16) (zeros 48)
    (stored (header.toNat + 8) (leBytes 8 compaction.toNat) (stored header.toNat (leBytes 8 (0x3 : U64).toNat) c))

theorem headerWritten_elsewhere (compaction) {a} (h : ∀ j < 64, a ≠ header.toNat + j) :
    (headerWritten header compaction c).memory.ram.bytes a = c.memory.ram.bytes a := by
  have hskip (m : Bytes) (offset : Nat) (bytes : List U8) (hin : offset + bytes.length ≤ 64) :
      writeBytes m (header.toNat + offset) bytes a = m a := by
    by_cases hlow : a < header.toNat + offset
    · exact writeBytes_of_lt hlow
    · refine writeBytes_of_ge (Nat.le_of_not_lt fun hlt => ?_)
      exact h (a - header.toNat) (by omega) (by omega)
  show writeBytes (writeBytes (writeBytes c.memory.ram.bytes (header.toNat + 0) (leBytes 8 (0x3 : U64).toNat))
    (header.toNat + 8)
    (leBytes 8 compaction.toNat)) (header.toNat + 16) (zeros 48) a = _
  rw [hskip _ 16 _ (by simp [zeros]), hskip _ 8 _ (by rw [leBytes_length]; decide),
    hskip _ 0 _ (by rw [leBytes_length]; decide)]

theorem headerWritten_bv (compaction) : xstateBv header (headerWritten header compaction c) = 3 := by
  have hbytes : readBytes (headerWritten header compaction c).memory.ram.bytes header.toNat 8 =
      leBytes 8 (0x3 : U64).toNat := by
    show readBytes (writeBytes (writeBytes (writeBytes c.memory.ram.bytes header.toNat (leBytes 8 (0x3 : U64).toNat))
      (header.toNat + 8) (leBytes 8 compaction.toNat)) (header.toNat + 16) (zeros 48)) header.toNat 8 = _
    rw [readBytes_writeBytes_disjoint (by omega), readBytes_writeBytes_disjoint (by omega)]
    have hself := readBytes_writeBytes_self c.memory.ram.bytes header.toNat (leBytes 8 (0x3 : U64).toNat)
    rwa [leBytes_length] at hself
  rw [xstateBv, hbytes, leNat_leBytes]
  rfl

theorem header_saved (h : SavesTo place header i c) (hi : savesExtended i) {c1}
    (ht : Touches (savedBytes place header (savesExtended i)) c c1) (compaction : U64) :
    (do
      memoryWriteLe header 8 0x3
      let second ← Exec.lift (Outcome.add header 8)
      memoryWriteLe second 8 compaction
      let third ← Exec.lift (Outcome.add header 16)
      memoryWrite third (zeros 48) : CpuM Unit) c1 = ⟨.ok (), headerWritten header compaction c1, 3⟩ := by
  have hlen := c1.memory.ram.len.isLt
  obtain ⟨-, h1, h2, -⟩ := h.header hi c1 ht
  have hzeros : (zeros 48).length = 48 := length_replicate
  have h8 : BitVec.toNat (8 : U64) = 8 := rfl
  have h16 : BitVec.toNat (16 : U64) = 16 := rfl
  have hsecond : (header + 8).toNat = header.toNat + 8 := by
    have := h1.2
    rw [toNat_add]
    omega
  have hthird : (header + 16).toNat = header.toNat + 16 := by
    have := h2.2
    rw [toNat_add]
    omega
  have hadd8 : (Outcome.add header 8 : Outcome CpuError U64) = .ok (header + 8) := if_pos (by have := h1.2; omega)
  have hadd16 : (Outcome.add header 16 : Outcome CpuError U64) = .ok (header + 16) := if_pos (by have := h2.2; omega)
  have hin (offset : Nat) (bytes : List U8) (hle : offset + bytes.length ≤ 64) (j : Nat) (hj : j < bytes.length) :
      header.toNat + offset + j ∈ savedBytes place header (savesExtended i) :=
    .inr ⟨hi, offset + j, by omega, by omega⟩
  have ht1 : Touches _ c (stored header.toNat (leBytes 8 (0x3 : U64).toNat) c1) :=
    .store _ _ ht (hin 0 _ (by rw [leBytes_length]; decide))
  have ht2 : Touches _ c (stored (header.toNat + 8) (leBytes 8 compaction.toNat) _) :=
    .store _ _ ht1 (hin 8 _ (by rw [leBytes_length]; decide))
  have hw1 : memoryWriteLe header 8 0x3 c1 = ⟨.ok (), _, 1⟩ := memoryWrite_ram (by rw [leBytes_length]; exact h1)
  have hw2 : memoryWriteLe (header + 8) 8 compaction _ = ⟨.ok (), _, 1⟩ :=
    memoryWrite_ram (by rw [leBytes_length]; exact (h.header hi _ ht1).2.2.1)
  have hw3 : memoryWrite (header + 16) (zeros 48) _ = ⟨.ok (), _, 1⟩ :=
    memoryWrite_ram (by rw [hzeros]; exact (h.header hi _ ht2).2.2.2)
  rw [hsecond] at hw2
  rw [hthird] at hw3
  rw [Exec.bind_ok hw1, hadd8, Exec.lift_ok_bind, Exec.bind_ok hw2, hadd16, Exec.lift_ok_bind, hw3]
  rfl

theorem save_run (h : SavesTo place header i c) (hi : savesLegacy i ∨ savesExtended i) :
    (extraOp i c).outcome = .ok () ∧ Saved place header i c (extraOp i c).state := by
  obtain ⟨c1, t, hrun, hwrote⟩ := legacy_saved h.legacy
  have harea : region place c1 = legacyFpuArea c := region_eq (legacyFpuArea_length c) hwrote.here
  by_cases hext : savesExtended i
  · obtain ⟨c2, t2, htranslate, hrefills⟩ := translate_run (h.header hext c1 hwrote.touches).1
    have hrest := header_saved h hext (.refill hwrote.touches hrefills) (compactionOf i)
    have heq : extraOp i c =
        ((⟨.ok (), headerWritten header (compactionOf i) c2, 3⟩ : Run Cpu CpuError Unit).after t2).after t := by
      rw [extraOp_xsave hext, ← hrest]
      exact (get_bind _ c).trans ((Exec.bind_ok hrun).trans (congrArg (Run.after t) (Exec.bind_ok htranslate)))
    rw [heq]
    refine ⟨rfl, ?_, fun _ => headerWritten_bv _⟩
    rw [← harea]
    refine region_congr fun k hk => ?_
    refine (headerWritten_elsewhere _ fun j hj => h.header_ne hext hk hj).trans ?_
    rw [hrefills.memory]
  · have heq : extraOp i c = ⟨.ok (), c1, t⟩ := by
      rw [extraOp_fxsave (hi.resolve_right hext)]
      exact (get_bind _ c).trans hrun
    rw [heq]
    exact ⟨rfl, harea, fun hx => absurd hx hext⟩

end

/-! ## A restore -/

def x87Of (c : Cpu) : U16 × U16 × Fin 8 × (Fin 8 → U64) := (c.fpuControlWord, c.fpuStatusWord, c.fpuTop, c.fpuStack)

def sseOf (c : Cpu) : U32 × (Fin 16 → BitVec 128) := (c.mxcsr, c.regs.xmm)

def areaX87 (region : List U8) : U16 × U16 × Fin 8 × (Fin 8 → U64) :=
  (ofNat 16 (leNat (field region 0 2)), ofNat 16 (leNat (field region 2 2)),
    Fin.ofNat 8 (ofNat 16 (leNat (field region 2 2)) >>> 11).toNat,
    fun k => extended80ToF64 (field region (32 + k.val * 16) 10))

def areaSse (region : List U8) : U32 × (Fin 16 → BitVec 128) :=
  (ofNat 32 (leNat (field region 24 4)), fun k => ofNat 128 (leNat (field region (160 + k.val * 16) 16)))

def initX87 : U16 × U16 × Fin 8 × (Fin 8 → U64) := (0x037F, 0, 0, fun _ => 0)

/-- The SSE component after a reset. -/
def initSse : U32 × (Fin 16 → BitVec 128) := (0x1F80, fun _ => 0)

/-- A translation leaves the x87 component. -/
def SameX87 (c c' : Cpu) : Prop := c'.fpuTop = c.fpuTop ∧ c'.fpuStack = c.fpuStack

instance : IsPreorder Cpu SameX87 where
  refl _ := ⟨rfl, rfl⟩
  trans _ _ _ hab hbc := ⟨hbc.1.trans hab.1, hbc.2.trans hab.2⟩

section

variable (linear : U64) (kind : AccessKind) (cpl : Nat)

instance (walked) : Keeps SameX87 (tlbInsert linear walked) := Keeps.update fun _ => ⟨rfl, rfl⟩

instance : Keeps SameX87 (tlbInvalidate linear) := Keeps.update fun _ => ⟨rfl, rfl⟩

instance {α : Type} (x : Exec Memory CpuError α) : Keeps SameX87 (onMemory x) := ⟨fun _ => ⟨rfl, rfl⟩⟩

instance : Keeps SameX87 (walkAndInsert linear kind cpl) := by unfold walkAndInsert; infer_instance

instance (cached) : Keeps SameX87 (cachedWalk linear kind cpl cached) := by
  cases cached <;> unfold cachedWalk <;> infer_instance

instance (walked answer) : Keeps SameX87 (settleAccess linear walked answer) := by
  cases answer <;> unfold settleAccess <;> infer_instance

instance (walked) : Keeps SameX87 (checkWalked linear kind cpl walked) := by
  unfold checkWalked; infer_instance

instance : Keeps SameX87 (translateAs linear kind cpl) := by unfold translateAs; infer_instance
instance : Keeps SameX87 (Cpu.translate linear kind) := by unfold Cpu.translate; infer_instance

end

section

variable {place : Nat → U64} {header : U64} {j : Instruction} {c : Cpu}

theorem legacy_restored {linear} (harea : Mapped ∅ linear 512 .read place c) :
    ∃ c1 t, restoreLegacyFpuArea linear c = ⟨.ok (), restoreFpu (region place c) c1, t⟩ := by
  obtain ⟨c1, t, hread, -⟩ := readPages_mapped (Nat.le_refl 512) harea
  exact ⟨c1, t, Exec.bind_ok hread⟩

theorem fxrstor_run (h : RestoresFrom place header j c) (hj : restoresLegacy j) :
    ∃ c1 t, extraOp j c = ⟨.ok (), restoreFpu (region place c) c1, t⟩ := by
  obtain ⟨c1, t, hrun⟩ := legacy_restored h.legacy
  rw [extraOp_fxrstor hj]
  exact ⟨c1, t, (get_bind _ c).trans hrun⟩

theorem xrstor_run (h : RestoresFrom place header j c) (hj : restoresExtended j) :
    (xstateBv header c &&& 3 ≠ 0 ∧ ∃ c1 t, extraOp j c = ⟨.ok (), restoreFpu (region place c) c1, t⟩) ∨
      (xstateBv header c &&& 3 = 0 ∧ ∃ c1 t, extraOp j c = ⟨.ok (), initFpu c1, t⟩ ∧ SameX87 c c1) := by
  obtain ⟨htranslation, hram⟩ := h.header hj
  obtain ⟨c1, t1, htranslate, hrefills⟩ := translate_run htranslation
  have hread : memoryReadLe header 8 c1 = ⟨.ok (xstateBv header c), c1, 1⟩ := by
    rw [memoryReadLe, Exec.query_apply, hrefills.memory, Memory.readU64At_ram hram]
    rfl
  have hrun : extraOp j c = ((finishXrstor (effectiveAddress j c) (xstateBv header c) c1).after 1).after t1 := by
    rw [extraOp_xrstor hj]
    exact (get_bind _ c).trans ((Exec.bind_ok htranslate).trans (congrArg (Run.after t1) (Exec.bind_ok hread)))
  rw [hrun, finishXrstor]
  by_cases hbv : xstateBv header c &&& 3 = 0
  · refine .inr ⟨hbv, c1, t1 + (1 + 0), ?_, Keeps.run htranslate⟩
    rw [if_neg fun hne => bne_iff_ne.mp hne hbv]
    rfl
  · refine .inl ⟨hbv, ?_⟩
    obtain ⟨c2, t2, hlegacy⟩ := legacy_restored (h.legacy.touches (.refill .refl hrefills))
    have hregion : region place c1 = region place c := region_congr fun k _ => by rw [hrefills.memory]
    rw [if_pos (bne_iff_ne.mpr hbv), hlegacy, hregion]
    exact ⟨c2, _, rfl⟩

end

/-! ## The context switch -/

/-- The FPU state of `c` is back: the stack top is a register of its own, so its bits of the status word do not count. -/
structure SameFpu (c c' : Cpu) : Prop where
  control : c'.fpuControlWord = c.fpuControlWord
  condition : c'.fpuStatusWord &&& ~~~0x3800#16 = c.fpuStatusWord &&& ~~~0x3800#16
  top : c'.fpuTop = c.fpuTop
  mxcsr : c'.mxcsr = c.mxcsr
  xmm : c'.regs.xmm = c.regs.xmm
  stack : ∀ k, IsFinite (c.fpuStack k) → c'.fpuStack k = c.fpuStack k

theorem sameFpu_restored_iff (c c1) :
    SameFpu c (restoreFpu (legacyFpuArea c) c1) ↔ ∀ k, IsFinite (c.fpuStack k) → Survives (c.fpuStack k) := by
  rw [restoreFpu_legacyFpuArea]
  constructor
  · intro h k hk
    exact (extended80_roundTrip hk).mp (h.stack k hk)
  · intro h
    exact ⟨rfl, statusWithTop_rest c, rfl, rfl, rfl, fun k hk => (extended80_roundTrip hk).mpr (h k hk)⟩

/-- Each component comes from the area where its bit is set, and is initial where it is not. -/
def Components (bv : U64) (region : List U8) (c' : Cpu) : Prop :=
  x87Of c' = (if bv.getLsbD 0 then areaX87 region else initX87) ∧
    sseOf c' = if bv.getLsbD 1 then areaSse region else initSse

/-- Where treating both components alike makes no difference. -/
def Alike (bv : U64) (region : List U8) (c : Cpu) : Prop :=
  match bv.getLsbD 0, bv.getLsbD 1 with
  | true, true => True
  | true, false => areaSse region = initSse
  | false, true => areaX87 region = initX87
  | false, false => c.fpuTop = 0 ∧ c.fpuStack = fun _ => 0

variable {bv : U64} {area : List U8} {c c1 : Cpu}

theorem and_three_eq_zero : bv &&& 3 = 0 ↔ bv.getLsbD 0 = false ∧ bv.getLsbD 1 = false := by
  have hthree (k : Nat) (hk : k < 64) : (3 : U64).getLsbD k = decide (k < 2) := by
    revert k
    decide
  constructor
  · intro h
    have hbit (k : Nat) : (bv &&& 3).getLsbD k = false := by
      rw [h]
      exact getLsbD_zero
    have h0 := hbit 0
    have h1 := hbit 1
    rw [getLsbD_and, hthree _ (by decide)] at h0 h1
    exact ⟨by simpa using h0, by simpa using h1⟩
  · rintro ⟨h0, h1⟩
    apply eq_of_getLsbD_eq
    intro k hk
    rw [getLsbD_and, hthree k hk]
    by_cases hlow : k < 2
    · obtain rfl | rfl : k = 0 ∨ k = 1 := by omega
      · rw [h0]; rfl
      · rw [h1]; rfl
    · rw [decide_eq_false hlow, Bool.and_false]
      exact getLsbD_zero.symm

theorem components_restored_iff (h : bv &&& 3 ≠ 0) : Components bv area (restoreFpu area c1) ↔ Alike bv area c := by
  have hx87 : x87Of (restoreFpu area c1) = areaX87 area := rfl
  have hsse : sseOf (restoreFpu area c1) = areaSse area := rfl
  rw [ne_eq, and_three_eq_zero] at h
  unfold Components Alike
  rw [hx87, hsse]
  cases h0 : bv.getLsbD 0 <;> cases h1 : bv.getLsbD 1
  · exact absurd ⟨h0, h1⟩ h
  · simp
  · simp
  · simp

theorem components_init_iff (h : bv &&& 3 = 0) (hsame : SameX87 c c1) :
    Components bv area (initFpu c1) ↔ Alike bv area c := by
  obtain ⟨h0, h1⟩ := and_three_eq_zero.mp h
  have hx87 : x87Of (initFpu c1) = (0x037F, 0, c.fpuTop, c.fpuStack) := by
    rw [← hsame.1, ← hsame.2]
    rfl
  have hsse : sseOf (initFpu c1) = initSse := rfl
  unfold Components Alike
  rw [hx87, hsse, h0, h1]
  simp [initX87]

section

variable {place : Nat → U64} {header : U64} {i j : Instruction} {c c2 : Cpu}

theorem Saved.kept {c1} (h : Saved place header i c c1)
    (hkept : ∀ a ∈ savedBytes place header (savesExtended i), c2.memory.ram.bytes a = c1.memory.ram.bytes a) :
    Saved place header i c c2 := by
  refine ⟨?_, fun hi => ?_⟩
  · rw [← h.area]
    exact region_congr fun k hk => hkept _ (.inl ⟨k, hk, rfl⟩)
  · rw [← h.header hi, xstateBv, xstateBv]
    congr 2
    refine readBytes_congr fun a hlow hhigh => hkept a (.inr ⟨hi, a - header.toNat, by omega, by omega⟩)

end

/-- A context switch brings the FPU state back exactly when every finite x87 register survives the 80-bit format, and
    XRSTOR restores and initialises component by component exactly when treating both alike makes no difference. -/
theorem fpu_context_switch_iff (place : Nat → U64) (header : U64) (j : Instruction) (c2 : Cpu)
    (hrestore : RestoresFrom place header j c2) (hj : restoresLegacy j ∨ restoresExtended j) :
    (∀ i c, savesLegacy i ∨ savesExtended i → SavesTo place header i c →
      (restoresExtended j → savesExtended i ∨ xstateBv header c2 &&& 3 = 3) →
      (∀ a ∈ savedBytes place header (savesExtended i),
        c2.memory.ram.bytes a = (extraOp i c).state.memory.ram.bytes a) →
      (extraOp i c).outcome = .ok () ∧ (extraOp j c2).outcome = .ok () ∧
        (SameFpu c (extraOp j c2).state ↔ ∀ k, IsFinite (c.fpuStack k) → Survives (c.fpuStack k))) ∧
    (restoresExtended j → (extraOp j c2).outcome = .ok () ∧
      (Components (xstateBv header c2) (region place c2) (extraOp j c2).state ↔
        Alike (xstateBv header c2) (region place c2) c2)) := by
  constructor
  · intro i c hi hsave hpair hkept
    obtain ⟨hok, hsaved⟩ := save_run hsave hi
    have hthere := hsaved.kept hkept
    have hrun : ∃ c1 t, extraOp j c2 = ⟨.ok (), restoreFpu (legacyFpuArea c) c1, t⟩ := by
      rw [← hthere.area]
      rcases hj with hj | hj
      · exact fxrstor_run hrestore hj
      · have hbv : xstateBv header c2 &&& 3 ≠ 0 := by
          rcases hpair hj with hi | hbits
          · rw [hthere.header hi]
            decide
          · rw [hbits]
            decide
        rcases xrstor_run hrestore hj with ⟨-, hrun⟩ | ⟨hzero, -⟩
        · exact hrun
        · exact absurd hzero hbv
    obtain ⟨c1, t, hrun⟩ := hrun
    rw [hrun]
    exact ⟨hok, rfl, sameFpu_restored_iff c c1⟩
  · intro hj
    rcases xrstor_run hrestore hj with ⟨hbv, c1, t, hrun⟩ | ⟨hbv, c1, t, hrun, hsame⟩
    · rw [hrun]
      exact ⟨rfl, components_restored_iff hbv⟩
    · rw [hrun]
      exact ⟨rfl, components_init_iff hbv hsame⟩

def fpuAt (mnemonic : Mnemonic) (address : U64) : Instruction :=
  { Instruction.empty with
    len := 4, mnemonic, codeSize := .code32, memoryDisplacement64 := address
    operands := [⟨.memory, .none, 0⟩], isInvalid := false }

/-- A reset machine with one value in every x87 register, and another top. -/
def stackOf (value : U64) : Cpu :=
  { Cpu.new Memory.withLapic 0 0 false with fpuTop := 3, fpuStack := fun _ => value }

/-- The same machine after a save at 0x2000, with another state loaded. -/
def switchedFrom (save : Mnemonic) (value : U64) : Cpu :=
  { (extraOp (fpuAt save 0x2000) (stackOf value)).state with
    fpuTop := 5, fpuControlWord := 0, mxcsr := 0, fpuStack := fun _ => 0 }

theorem switchedFrom_memory (save value) :
    (switchedFrom save value).memory = (extraOp (fpuAt save 0x2000) (stackOf value)).state.memory := rfl

/-- A state whose x87 registers hold one comes back. -/
theorem ones_come_back :
    SameFpu (stackOf 0x3FF0000000000000) (extraOp (fpuAt .xrstor 0x2000)
      (switchedFrom .xsave 0x3FF0000000000000)).state := by
  have hrestore : RestoresFrom (fun k => 0x2000 + ofNat 64 k) 0x2200 (fpuAt .xrstor 0x2000)
      (switchedFrom .xsave 0x3FF0000000000000) := by
    refine ⟨?_, fun _ => ⟨by decide +kernel, by decide +kernel, by decide +kernel⟩⟩
    have haddress : effectiveAddress (fpuAt .xrstor 0x2000) (switchedFrom .xsave 0x3FF0000000000000) = 0x2000 := by
      decide +kernel
    rw [haddress]
    exact mapped_unpaged (by decide +kernel) (by unfold Memory.InRam; decide +kernel)
  have hsave : SavesTo (fun k => 0x2000 + ofNat 64 k) 0x2200 (fpuAt .xsave 0x2000) (stackOf 0x3FF0000000000000) := by
    have haddress : effectiveAddress (fpuAt .xsave 0x2000) (stackOf 0x3FF0000000000000) = 0x2000 := by decide +kernel
    refine ⟨?_, fun _ c' ht => ?_⟩
    · rw [haddress]
      exact mapped_unpaged (by decide +kernel) (by unfold Memory.InRam; decide +kernel)
    · rw [haddress, ht.inRam, ht.inRam, ht.inRam]
      exact ⟨ht.translation_unpaged (by decide +kernel), by unfold Memory.InRam; decide +kernel⟩
  refine (((fpu_context_switch_iff _ _ _ _ hrestore (.inr (by unfold restoresExtended; decide))).1 _ _
    (.inr (by unfold savesExtended; decide)) hsave (fun _ => .inl (by unfold savesExtended; decide))
    (fun _ _ => by rw [switchedFrom_memory])).2.2).mpr ?_
  intro k _
  show Survives 0x3FF0000000000000
  decide

/-- `2 ^ -1000` comes back as zero, and XRSTOR of an area with no component leaves the stack top. -/
theorem small_lost_and_top_left :
    (extraOp (fpuAt .fxsave 0x2000) (stackOf 0x0170000000000000)).outcome = .ok () ∧
      (extraOp (fpuAt .fxrstor 0x2000) (switchedFrom .fxsave 0x0170000000000000)).outcome = .ok () ∧
      (extraOp (fpuAt .fxrstor 0x2000) (switchedFrom .fxsave 0x0170000000000000)).state.fpuStack 0 = 0 ∧
      xstateBv 0x2200 (stackOf 0) = 0 ∧
      (extraOp (fpuAt .xrstor 0x2000) (stackOf 0)).outcome = .ok () ∧
      (extraOp (fpuAt .xrstor 0x2000) (stackOf 0)).state.fpuTop = 3 := by
  decide +kernel

end Rish.SoftVm.Ops
