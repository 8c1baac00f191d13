/-
  Rish.SoftVm.DecodeCoherence — what the cache of decoded instructions answers.

  A fetch is answered from the cache on two paths: before the address is translated, when nothing was
  invalidated since the entry was last confirmed, and after it, when the entry was decoded at the
  physical address the translation gives. Both compare the write counter of the page.
-/

import Rish.SoftVm.Linear
import Rish.SoftVm.TlbCoherence

namespace Rish.SoftVm

open Lib Cpu
open DecodeCache (lookup)
open Event (perform)
open BitVec (ofNat)

/-! ## The execution context -/

theorem cpl_lt (r : Registers) : r.cpl < 4 := by
  unfold Registers.cpl
  split
  · decide
  · rw [SegmentSelector.rpl, BitVec.toNat_and]
    exact Nat.lt_succ_of_le Nat.and_le_right

/-- The context as a function of what it records. -/
def contextWord (bits cpl : Nat) (paging smep nxe : Bool) : U32 :=
  ofNat 32 bits ||| (ofNat 32 cpl <<< 8) ||| (if paging then 1#32 <<< 10 else 0) |||
    (if smep then 1#32 <<< 11 else 0) ||| (if nxe then 1#32 <<< 12 else 0)

theorem contextWord_fields : ∀ bits ∈ [16, 32, 64], ∀ cpl < 4, ∀ paging smep nxe : Bool,
    let word := contextWord bits cpl paging smep nxe
    (word &&& 0xFF).toNat = bits ∧ ((word >>> 8) &&& 3).toNat = cpl ∧ word.getLsbD 10 = paging ∧
      word.getLsbD 11 = smep ∧ word.getLsbD 12 = nxe ∧ word ≠ 0 := by
  decide

theorem bitness_mem (mode) : bitness mode ∈ [16, 32, 64] := by
  cases mode <;> decide

theorem executionContext_ne_zero (r : Registers) : executionContext r ≠ 0 :=
  (contextWord_fields _ (bitness_mem r.mode) _ (cpl_lt r) _ _ _).2.2.2.2.2

/-- The context determines what decoding and the execute permission depend on. -/
structure SameContext (r r' : Registers) : Prop where
  bits : bitness r.mode = bitness r'.mode
  cpl : r.cpl = r'.cpl
  paging : contains r.cr0 Cr0.PG = contains r'.cr0 Cr0.PG
  smep : contains r.cr4 Cr4.SMEP = contains r'.cr4 Cr4.SMEP
  nxe : contains r.efer Efer.NXE = contains r'.efer Efer.NXE

theorem sameContext_of_eq {r r' : Registers} (h : executionContext r = executionContext r') : SameContext r r' := by
  obtain ⟨h1, h2, h3, h4, h5, -⟩ := contextWord_fields _ (bitness_mem r.mode) _ (cpl_lt r)
    (contains r.cr0 Cr0.PG) (contains r.cr4 Cr4.SMEP) (contains r.efer Efer.NXE)
  obtain ⟨g1, g2, g3, g4, g5, -⟩ := contextWord_fields _ (bitness_mem r'.mode) _ (cpl_lt r')
    (contains r'.cr0 Cr0.PG) (contains r'.cr4 Cr4.SMEP) (contains r'.efer Efer.NXE)
  have hword : contextWord (bitness r.mode) r.cpl (contains r.cr0 Cr0.PG) (contains r.cr4 Cr4.SMEP)
      (contains r.efer Efer.NXE) = contextWord (bitness r'.mode) r'.cpl (contains r'.cr0 Cr0.PG)
      (contains r'.cr4 Cr4.SMEP) (contains r'.efer Efer.NXE) := h
  rw [hword] at h1 h2 h3 h4 h5
  exact ⟨h1.symm.trans g1, h2.symm.trans g2, h3.symm.trans g3, h4.symm.trans g4, h5.symm.trans g5⟩

theorem freshTranslate_execute {c c' linear} (hwalk : c'.walkOf linear = c.walkOf linear)
    (hcontext : executionContext c'.regs = executionContext c.regs) :
    freshTranslate linear .execute c'.regs.cpl c' = freshTranslate linear .execute c.regs.cpl c := by
  obtain ⟨-, hcpl, hpg, hsmep, hnxe⟩ := sameContext_of_eq hcontext
  have hchecked : checked linear .execute c'.regs.cpl c' = checked linear .execute c.regs.cpl c := by
    funext walked
    -- an execute access is not subject to SMAP, so the alignment-check flag does not matter
    have hdenied : ∀ ac ac', denied walked .execute c.regs.cpl c'.regs.cr0 c'.regs.cr4 c'.regs.efer ac =
        denied walked .execute c.regs.cpl c.regs.cr0 c.regs.cr4 c.regs.efer ac' := by
      intro ac ac'
      simp only [denied, hsmep, hnxe, bne_self_eq_false, Bool.and_false, Bool.false_and]
    simp only [checked, checkAccess, hcpl, hdenied _ (contains c.regs.rflags RFlags.AC)]
  rw [freshTranslate, freshTranslate, hpg, hwalk, hchecked, hcpl]

namespace DecodeCoherence

/-! ## What a fetch does to the caches -/

/-- Neither the decodes nor the number of invalidations changed. -/
def Steady (c c' : Cpu) : Prop := c'.decoded = c.decoded ∧ c'.tlb.epoch = c.tlb.epoch

/-- The decodes did not change, and there was at most one invalidation. -/
def Bumped (c c' : Cpu) : Prop :=
  c'.decoded = c.decoded ∧ (c'.tlb.epoch = c.tlb.epoch ∨ c'.tlb.epoch = c.tlb.epoch + 1)

instance : IsPreorder Cpu Steady where
  refl _ := ⟨rfl, rfl⟩
  trans _ _ _ hab hbc := ⟨hbc.1.trans hab.1, hbc.2.trans hab.2⟩

instance : Admits Steady Bumped where
  weaken _ _ h := ⟨h.1, .inl h.2⟩
  extend a b c hab hbc := ⟨hbc.1.trans hab.1, by rw [← hab.2]; exact hbc.2⟩

section Translation

variable (linear : U64) (kind : AccessKind) (cpl : Nat) (walked : Translation)

instance {α : Type} (x : Exec Memory CpuError α) : Keeps Steady (onMemory x) := ⟨fun _ => ⟨rfl, rfl⟩⟩
instance : Keeps Steady (tlbInsert linear walked) := .update fun _ => ⟨rfl, rfl⟩
instance : Keeps Steady (walkAndInsert linear kind cpl) := by unfold walkAndInsert; infer_instance

instance (cached) : Keeps Steady (cachedWalk linear kind cpl cached) := by
  cases cached <;> (unfold cachedWalk; infer_instance)

theorem settleAccess_error (fault) (c : Cpu) : settleAccess linear walked (.error fault) c =
    ⟨.err (pageFault fault), { c with tlb := c.tlb.invalidate linear }, 0⟩ := rfl

/-- Only a refused access invalidates, and it does not return. -/
instance (checked) : Ends Steady Bumped (settleAccess linear walked checked) := by
  cases checked with
  | ok u => exact inferInstanceAs (Ends Steady Bumped (pure (walked.physical linear)))
  | error fault =>
    refine ⟨fun c a h => ?_, fun c => ?_⟩ <;> rw [settleAccess_error] at *
    · cases h
    · exact ⟨rfl, .inr rfl⟩

instance : Ends Steady Bumped (checkWalked linear kind cpl walked) := by unfold checkWalked; infer_instance
instance : Ends Steady Bumped (translateAs linear kind cpl) := by unfold translateAs; infer_instance
instance : Ends Steady Bumped (translate linear kind) := by unfold Cpu.translate; infer_instance

instance (physical n) : Keeps Steady (memoryRead physical n) := by unfold memoryRead; infer_instance

instance {toPhysical : U64 → CpuM U64} [h : ∀ linear, Ends Steady Bumped (toPhysical linear)] (rounds n) :
    Ends Steady Bumped (readPages toPhysical rounds linear n) := by
  induction rounds generalizing linear n <;> (unfold readPages; infer_instance)

instance (first) : Ends Steady Bumped (readWindow linear first) := by unfold readWindow; infer_instance

end Translation

/-- The answer of the cache to the fetch the machine is about to make. -/
def cachedFetch (c : Cpu) : Option Instruction :=
  match c.lookupFast with
  | some i => some i
  | none =>
    match (translate (fetchLinear c.regs) .execute c).outcome with
    | .ok first => if cacheable c.memory first then (c.decoded.lookup (fetchMapping c first)).1 else none
    | _ => none

/-- What a fetch leaves in the decode cache. -/
inductive Fetched (decoder : Decoder) (c c' : Cpu) : Prop
  | nothing (h : Bumped c c')
  | renewed (first : U64) (ht : (translate (fetchLinear c.regs) .execute c).outcome = .ok first)
      (hu : cacheable c.memory first)
      (hit : (c.decoded.entries (DecodeCache.slot (fetchPointer c.regs))).matches (fetchMapping c first))
      (hd : c'.decoded = (c.decoded.lookup (fetchMapping c first)).2) (he : c'.tlb.epoch = c.tlb.epoch)
  | inserted (first : U64) (ht : (translate (fetchLinear c.regs) .execute c).outcome = .ok first)
      (hu : cacheable c.memory first)
      (miss : ¬(c.decoded.entries (DecodeCache.slot (fetchPointer c.regs))).matches (fetchMapping c first))
      (window : List U8) (hw : c.memory.read first MAX_INSTRUCTION_BYTES = .ok window)
      (hd : c'.decoded =
        c.decoded.insert (fetchMapping c first) (decoder (bitness c.regs.mode) window (fetchPointer c.regs)))
      (he : c'.tlb.epoch = c.tlb.epoch)

variable {decoder : Decoder} {c : Cpu} {first : U64} {r : Ram}

theorem readWindow_cacheable {m} (hu : cacheable m first) (linear c1) :
    readWindow linear first c1 = ⟨c1.memory.read first MAX_INSTRUCTION_BYTES, c1, 1⟩ := by
  simp only [cacheable, decide_eq_true_eq] at hu
  rw [readWindow, if_pos hu.1]
  rfl

theorem decodeFresh_fetched {c1} (hr : Refills c c1) (hs : Steady c c1)
    (ht : (translate (fetchLinear c.regs) .execute c).outcome = .ok first) (hu : cacheable c.memory first)
    (miss : ¬(c.decoded.entries (DecodeCache.slot (fetchPointer c.regs))).matches (fetchMapping c first)) :
    Fetched decoder c (decodeFresh decoder (fetchMapping c first) true c1).state := by
  have hread : readWindow (fetchMapping c first).linear (fetchMapping c first).physical c1 =
      ⟨c1.memory.read first MAX_INSTRUCTION_BYTES, c1, 1⟩ := readWindow_cacheable hu _ c1
  rw [decodeFresh, get_bind]
  rcases hw : c1.memory.read first MAX_INSTRUCTION_BYTES with window | e | _ <;> rw [hw] at hread
  · rw [Exec.bind_ok hread, finishDecode, Run.after_state, get_bind]
    split
    · exact .nothing ⟨hs.1, .inl hs.2⟩
    · refine .inserted first ht hu miss window (by rw [← hr.memory]; exact hw) ?_ hs.2
      rw [hr.regs, ← hs.1]
      rfl
  · rw [Exec.bind_err hread]
    exact .nothing ⟨hs.1, .inl hs.2⟩
  · rw [Exec.bind_panic hread]
    exact .nothing ⟨hs.1, .inl hs.2⟩

variable (d : DecodeCache) (mapping : DecodeMapping)

theorem lookup_of_matches
    (h : (d.entries (DecodeCache.slot mapping.ip)).matches mapping) :
    (d.lookup mapping).1 = some (d.entries (DecodeCache.slot mapping.ip)).instruction := by
  rw [lookup, if_pos h]

theorem lookup_of_not_matches
    (h : ¬(d.entries (DecodeCache.slot mapping.ip)).matches mapping) : d.lookup mapping = (none, d) := by
  rw [lookup, if_neg h]

theorem lookup_entries_of_ne {slot}
    (h : slot ≠ DecodeCache.slot mapping.ip) : (d.lookup mapping).2.entries slot = d.entries slot := by
  simp only [lookup]
  split
  · exact Function.update_of_ne h ..
  · rfl

theorem decodeUnless_some (usable i) (c : Cpu) :
    decodeUnless decoder mapping usable (some i) c = ⟨.ok i, c, 0⟩ := rfl

theorem decodeUnless_none (usable) :
    decodeUnless decoder mapping usable none = decodeFresh decoder mapping usable := rfl

/-- A window that is not cacheable is decoded without a trace. -/
instance (mapping) : Ends Steady Bumped (decodeFresh decoder mapping false) := by
  have hkeep (i : Instruction) : Keeps Steady (Exec.when (false = true) (keepDecoded mapping i)) := by
    rw [Exec.when, if_neg Bool.false_ne_true]
    infer_instance
  unfold decodeFresh finishDecode
  infer_instance

variable {r' : Ram} {bytes : List U8} {physical : U64} {m m' : Memory} {address : U64} {c1 : Cpu}

theorem lookupDecoded_usable (hs : Steady c c1) :
    lookupDecoded (fetchMapping c first) true c1 = ⟨.ok (c.decoded.lookup (fetchMapping c first)).1,
      { c1 with decoded := (c.decoded.lookup (fetchMapping c first)).2 }, 0⟩ := by
  rw [lookupDecoded, if_pos rfl, get_bind, hs.1]
  simp only [Exec.update_bind, hs.1, Exec.pure_apply]

theorem afterTranslate_fetched (hr : Refills c c1) (hs : Steady c c1)
    (ht : (translate (fetchLinear c.regs) .execute c).outcome = .ok first) :
    Fetched decoder c ((lookupDecoded (fetchMapping c first) (cacheable c.memory first) >>=
      decodeUnless decoder (fetchMapping c first) (cacheable c.memory first)) c1).state := by
  by_cases hu : cacheable c.memory first = true
  · rw [hu, Exec.bind_ok (lookupDecoded_usable hs), Run.after_state]
    by_cases hit : (c.decoded.entries (DecodeCache.slot (fetchPointer c.regs))).matches (fetchMapping c first)
    · rw [lookup_of_matches c.decoded (fetchMapping c first) hit, decodeUnless_some]
      exact .renewed first ht hu hit rfl hs.2
    · rw [lookup_of_not_matches c.decoded (fetchMapping c first) hit, decodeUnless_none]
      have hr' : Refills c { c1 with decoded := c.decoded } := ⟨hr.regs, hr.memory, hr.tlbDisabled, hr.fills⟩
      exact decodeFresh_fetched hr' ⟨rfl, hs.2⟩ ht hu hit
  · rw [Bool.not_eq_true] at hu
    have hnone : lookupDecoded (fetchMapping c first) (cacheable c.memory first) c1 = ⟨.ok none, c1, 0⟩ := by
      rw [hu]
      rfl
    rw [Exec.bind_ok hnone, Run.after_state, hu, decodeUnless_none]
    exact .nothing (Admits.extend _ _ _ hs
      (Ends.always (R := Steady) (x := decodeFresh decoder (fetchMapping c first) false) c1))

theorem fetchUnless_none (decoder c) :
    fetchUnless decoder none c = (translate (fetchLinear c.regs) .execute >>= fun first =>
      lookupDecoded (fetchMapping c first) (cacheable c.memory first) >>=
        decodeUnless decoder (fetchMapping c first) (cacheable c.memory first)) c := by
  rw [fetchUnless, fetchTranslated, get_bind]

theorem fetch_fetched (decoder c) : Fetched decoder c (fetch decoder c).state := by
  rw [fetch, get_bind]
  cases c.lookupFast with
  | some i => exact .nothing ⟨rfl, .inl rfl⟩
  | none =>
    have hr : Refills c (translate (fetchLinear c.regs) .execute c).state := Keeps.keeps c
    have hb : Bumped c (translate (fetchLinear c.regs) .execute c).state := Ends.always (R := Steady) c
    have hs : ∀ first, (translate (fetchLinear c.regs) .execute c).outcome = .ok first →
        Steady c (translate (fetchLinear c.regs) .execute c).state := Ends.returned (S := Bumped) c
    rw [fetchUnless_none]
    rcases ht : translate (fetchLinear c.regs) .execute c with ⟨first | e | _, c1, n⟩ <;> rw [ht] at hr hb hs
    · rw [Exec.bind_ok ht]
      exact afterTranslate_fetched hr (hs first rfl) (by rw [ht])
    · rw [Exec.bind_err ht]
      exact .nothing hb
    · rw [Exec.bind_panic ht]
      exact .nothing hb

theorem fetch_of_cachedFetch {i} (h : cachedFetch c = some i) : (fetch decoder c).outcome = .ok i := by
  rw [fetch, get_bind]
  unfold cachedFetch at h
  cases hfast : c.lookupFast with
  | some i' =>
    rw [hfast] at h
    cases h
    rfl
  | none =>
    rw [hfast] at h
    have hs : ∀ first, (translate (fetchLinear c.regs) .execute c).outcome = .ok first →
        Steady c (translate (fetchLinear c.regs) .execute c).state := Ends.returned (S := Bumped) c
    rw [fetchUnless_none]
    rcases ht : translate (fetchLinear c.regs) .execute c with ⟨first | e | _, c1, n⟩ <;> rw [ht] at h hs
    · simp only at h
      split at h
      · rename_i hu
        have hlook : lookupDecoded (fetchMapping c first) true c1 = ⟨.ok (some i),
            { c1 with decoded := (c.decoded.lookup (fetchMapping c first)).2 }, 0⟩ := by
          rw [lookupDecoded_usable (hs first rfl), h]
        rw [Exec.bind_ok ht, hu, Exec.bind_ok hlook, decodeUnless_some]
        rfl
      · cases h
    · cases h
    · cases h

/-! ## What an event does to RAM and to the counters -/

/-- RAM is left alone or written once. -/
def RamStep (r r' : Ram) : Prop := r' = r ∨ ∃ start bytes, r' = r.store start bytes

theorem RamStep.len (h : RamStep r r') : r'.len = r.len := by
  rcases h with rfl | ⟨start, bytes, rfl⟩ <;> rfl

theorem store_pageGeneration (h : physical.toNat / PAGE_SIZE < r.pages) (start bytes) :
    (r.store start bytes).pageGeneration physical = (r.store start bytes).codeGen (physical.toNat / PAGE_SIZE) ∧
      r.pageGeneration physical = r.codeGen (physical.toNat / PAGE_SIZE) := ⟨if_pos h, if_pos h⟩

theorem RamStep.pageGeneration (h : RamStep r r') (physical) :
    r'.pageGeneration physical = r.pageGeneration physical ∨
      r'.pageGeneration physical = r.pageGeneration physical + 1 := by
  rcases h with rfl | ⟨start, bytes, rfl⟩
  · exact .inl rfl
  · by_cases hpage : physical.toNat / PAGE_SIZE < r.pages
    · obtain ⟨h1, h2⟩ := store_pageGeneration hpage start bytes
      rw [h1, h2]
      exact r.store_codeGen start bytes _
    · exact .inl ((if_neg hpage).trans (if_neg hpage).symm)

theorem RamStep.load (h : RamStep r r') {n} (hn : n ≤ inPage physical)
    (hlen : physical.toNat + n ≤ r.len.toNat) (hpos : 0 < n)
    (hg : r'.pageGeneration physical = r.pageGeneration physical) :
    r'.load physical.toNat n = r.load physical.toNat n := by
  rcases h with rfl | ⟨start, bytes, rfl⟩
  · rfl
  have hoffset : (physical &&& 0xFFF).toNat = physical.toNat % 4096 := by
    rw [BitVec.toNat_and]
    exact Nat.and_two_pow_sub_one_eq_mod physical.toNat 12
  have hpage : physical.toNat / PAGE_SIZE < r.pages := by
    simp only [Ram.pages, PAGE_SIZE]
    omega
  obtain ⟨h1, h2⟩ := store_pageGeneration hpage start bytes
  rcases r.store_page start bytes _ hpage with hb | hb
  · refine readBytes_congr fun k hk hk' => hb k ?_
    simp only [inPage, hoffset] at hn
    simp only [PAGE_SIZE]
    omega
  · rw [h1, h2, hb] at hg
    exact absurd hg (by simp)

theorem writeRam_ram (h : m.writeRam address bytes = .ok m') : RamStep m.ram m'.ram := by
  unfold Memory.writeRam at h
  split at h
  · cases h
  split at h
  · cases h
  · rw [Outcome.slice_ok (by omega)] at h
    cases h
    exact .inr ⟨_, _, rfl⟩

theorem write_ram (h : m.write address bytes = .ok m') : RamStep m.ram m'.ram := by
  simp only [Memory.write] at h
  split at h
  · split at h <;> cases h <;> exact .inl rfl
  split at h
  · split at h <;> cases h <;> exact .inl rfl
  split at h
  · split at h <;> cases h <;> exact .inl rfl
  split at h
  · obtain ⟨io, -, h⟩ := Outcome.bind_eq_ok.mp h
    cases h
    exact .inl rfl
  split at h
  · split at h
    · cases h
      exact .inl (m.writeLapic_ram _ _ _)
    · exact writeRam_ram h
  · exact writeRam_ram h

variable (decoder c) (e : Event)

theorem next_fetch : Event.next decoder .fetch c = (fetch decoder c).state := by
  simp only [Event.next, perform, Exec.bind_apply, Exec.bind]
  rcases fetch decoder c with ⟨i | e | _, c', n⟩ <;> rfl

instance (linear kind cpl) : Ends Steady Bumped (perform decoder (.access linear kind cpl)) := by
  unfold perform; infer_instance

theorem next_ram : RamStep c.memory.ram (Event.next decoder e c).memory.ram := by
  cases e with
  | access linear kind cpl =>
    have h : Refills c (Event.next decoder (.access linear kind cpl) c) :=
      Keeps.keeps (x := perform decoder (.access linear kind cpl)) c
    exact .inl (by rw [h.memory])
  | fetch =>
    have h : Refills c (Event.next decoder .fetch c) := Keeps.keeps (x := perform decoder .fetch) c
    exact .inl (by rw [h.memory])
  | store physical bytes =>
    simp only [Event.next, perform, memoryWrite]
    cases h : c.memory.write physical bytes with
    | ok m => exact write_ram h
    | err e => exact .inl rfl
    | panic => exact .inl rfl
  | dma address bytes =>
    simp only [Event.next, perform, Exec.update_apply, deviceWrite]
    cases Virtio.checkRange ⟨c.memory.ram, false⟩ address bytes.length with
    | ok u => exact .inr ⟨_, _, rfl⟩
    | err e => exact .inl rfl
    | panic => exact .inl rfl
  | invlpg linear => exact .inl rfl
  | control register value =>
    obtain ⟨r, h⟩ := TlbCoherence.next_control decoder c register value
    exact .inl (by rw [h])
  | efer value => exact .inl rfl
  | other f => exact .inl rfl

theorem next_bumped (h : e ≠ .fetch) : Bumped c (Event.next decoder e c) := by
  cases e with
  | access linear kind cpl => exact Ends.always (R := Steady) (x := perform decoder (.access linear kind cpl)) c
  | fetch => exact absurd rfl h
  | store physical bytes =>
    obtain ⟨m, hm⟩ := TlbCoherence.next_store decoder c physical bytes
    rw [hm]
    exact ⟨rfl, .inl rfl⟩
  | dma address bytes =>
    obtain ⟨m, hm⟩ := TlbCoherence.next_dma decoder c address bytes
    rw [hm]
    exact ⟨rfl, .inl rfl⟩
  | invlpg linear => exact ⟨rfl, .inr rfl⟩
  | control register value =>
    obtain ⟨r, hr⟩ := TlbCoherence.next_control decoder c register value
    rw [hr]
    exact ⟨rfl, .inr rfl⟩
  | efer value => exact ⟨rfl, .inr rfl⟩
  | other f => exact ⟨rfl, .inl rfl⟩

theorem epoch_of_drops {e linear} (h : e.Drops linear) :
    (Event.next decoder e c).tlb.epoch ≠ c.tlb.epoch := by
  have hsucc : c.tlb.epoch + 1 ≠ c.tlb.epoch := by simp
  cases e with
  | invlpg linear => exact hsucc
  | control register value =>
    obtain ⟨r, hr⟩ := TlbCoherence.next_control decoder c register value
    rw [hr]
    exact hsucc
  | efer value => exact hsucc
  | access | fetch | store | dma | other => cases h

/-! ## Ages -/

/-- Of an entry: the writes to its page since it was filled, and the invalidations since its mapping
    was last confirmed. -/
structure Age where
  writes : Nat
  invalidations : Nat

/-- Two entries are one decode of one place. -/
def sameDecode (a b : DecodeCache.Entry) : Bool :=
  a.tag = b.tag ∧ a.linear = b.linear ∧ a.physical = b.physical ∧ a.generation = b.generation ∧
    a.executionContext = b.executionContext

/-- The age of the entry in a slot, after the machine went from `c` to `c'`. -/
def older (c c' : Cpu) (slot : BitVec 15) (age : Age) : Age :=
  let old := c.decoded.entries slot
  let new := c'.decoded.entries slot
  if !sameDecode new old then ⟨0, 0⟩
  else
    { writes := if c'.memory.pageGeneration new.physical = c.memory.pageGeneration new.physical then age.writes
        else age.writes + 1
      invalidations := if new.translationEpoch ≠ old.translationEpoch then 0
        else if c'.tlb.epoch = c.tlb.epoch then age.invalidations else age.invalidations + 1 }

/-- A machine with the ages of its decodes. -/
structure Aged where
  cpu : Cpu
  age : BitVec 15 → Age

def Aged.start (c : Cpu) : Aged := ⟨c, fun _ => ⟨0, 0⟩⟩

def Aged.next (decoder : Decoder) (e : Event) (a : Aged) : Aged :=
  ⟨e.next decoder a.cpu, fun slot => older a.cpu (e.next decoder a.cpu) slot (a.age slot)⟩

theorem after_cpu (events) :
    (after (Aged.next decoder) (.start c) events).cpu = after (Event.next decoder) c events := by
  induction events using List.reverseRecOn with
  | nil => rfl
  | append_singleton events e ih =>
    simp only [after_append, after_cons, after_nil, Aged.next, ih]

/-! ## Entries that can be trusted -/

def contextBits (context : U32) : Nat := (context &&& 0xFF).toNat

/-- In the entry's context the tables lead a fetch to the entry's physical address. -/
def Mapped (c : Cpu) (e : DecodeCache.Entry) : Prop :=
  ∀ c' : Cpu, c'.walkOf e.linear = c.walkOf e.linear → executionContext c'.regs = e.executionContext →
    freshTranslate e.linear .execute c'.regs.cpl c' = .ok e.physical

/-- What the counters vouch for. The mapping is vouched for only where the guest settled it. -/
structure Sound (decoder : Decoder) (c : Cpu) (settled : Prop) (e : DecodeCache.Entry) (age : Age) : Prop where
  onePage : MAX_INSTRUCTION_BYTES ≤ inPage e.physical
  inRam : e.physical.toNat + MAX_INSTRUCTION_BYTES ≤ c.memory.len.toNat
  counted : e.generation + ofNat 32 age.writes = c.memory.pageGeneration e.physical
  dated : e.translationEpoch + ofNat 64 age.invalidations = c.tlb.epoch
  decodes : age.writes = 0 → e.instruction =
    decoder (contextBits e.executionContext) (c.memory.ram.load e.physical.toNat MAX_INSTRUCTION_BYTES) e.tag
  mapped : age.invalidations = 0 → settled → Mapped c e

theorem ofNat_succ {w} (x : BitVec w) (n) : x + ofNat w (n + 1) = x + ofNat w n + 1 := by
  rw [BitVec.ofNat_add, ← BitVec.add_assoc]
  rfl

def entryOf (mapping : DecodeMapping) (i : Instruction) : DecodeCache.Entry :=
  ⟨mapping.ip, mapping.linear, mapping.physical, mapping.pageGeneration, mapping.translationEpoch,
    mapping.executionContext, i⟩

theorem Sound.older {decoder c c'} {settled settled' : Prop} {e} {age : Age}
    (h : Sound decoder c settled e age) (hram : RamStep c.memory.ram c'.memory.ram)
    (hepoch : c'.tlb.epoch = c.tlb.epoch ∨ c'.tlb.epoch = c.tlb.epoch + 1)
    (hmap : c'.tlb.epoch = c.tlb.epoch → settled' → settled ∧ c'.walkOf e.linear = c.walkOf e.linear) :
    Sound decoder c' settled' e
      ⟨if c'.memory.pageGeneration e.physical = c.memory.pageGeneration e.physical then age.writes else age.writes + 1,
        if c'.tlb.epoch = c.tlb.epoch then age.invalidations else age.invalidations + 1⟩ where
  onePage := h.onePage
  inRam := by rw [Memory.len, hram.len]; exact h.inRam
  counted := by
    have hgen : c'.memory.pageGeneration e.physical = c.memory.pageGeneration e.physical ∨
        c'.memory.pageGeneration e.physical = c.memory.pageGeneration e.physical + 1 := hram.pageGeneration e.physical
    by_cases hsame : c'.memory.pageGeneration e.physical = c.memory.pageGeneration e.physical
    · rw [if_pos hsame, hsame]
      exact h.counted
    · rw [if_neg hsame, hgen.resolve_left hsame, ofNat_succ, h.counted]
  dated := by
    by_cases hsame : c'.tlb.epoch = c.tlb.epoch
    · rw [if_pos hsame, hsame]
      exact h.dated
    · rw [if_neg hsame, hepoch.resolve_left hsame, ofNat_succ, h.dated]
  decodes hw := by
    by_cases hsame : c'.memory.pageGeneration e.physical = c.memory.pageGeneration e.physical
    · rw [if_pos hsame] at hw
      rw [hram.load h.onePage h.inRam (by decide) hsame]
      exact h.decodes hw
    · rw [if_neg hsame] at hw
      cases hw
  mapped hi hs := by
    by_cases hsame : c'.tlb.epoch = c.tlb.epoch
    · rw [if_pos hsame] at hi
      obtain ⟨hs, hwalk⟩ := hmap hsame hs
      intro c'' hc''
      exact h.mapped hi hs c'' (hc''.trans hwalk)
    · rw [if_neg hsame] at hi
      cases hi

section Entry

variable {decoder : Decoder} {c c' : Cpu} {e : DecodeCache.Entry}

theorem read_below {m : Memory} {address : U64} {n : Nat} {bytes : List U8}
    (h : address.toNat < VIRTIO_MMIO_BASE.toNat) (hread : m.read address n = .ok bytes) :
    address.toNat + n ≤ m.len.toNat ∧ bytes = m.ram.load address.toNat n := by
  have hordinary : m.ordinary address = true := by
    refine eq_true_of_ne_false fun hdevice => ?_
    have hbase : VIRTIO_MMIO_BASE.toNat = 0xFEBF0000 := rfl
    have hwindow := Memory.device_window hdevice
    omega
  rw [Memory.read_ordinary hordinary, Memory.readRam] at hread
  split at hread
  · cases hread
  split at hread
  · cases hread
  · rename_i hlen
    rw [Outcome.slice_ok (by omega)] at hread
    cases hread
    exact ⟨by rw [Memory.len]; omega, rfl⟩

theorem contextBits_eq (r : Registers) : contextBits (executionContext r) = bitness r.mode :=
  (contextWord_fields _ (bitness_mem r.mode) _ (cpl_lt r) _ _ _).1

theorem mapped_of_translate (hc : TlbCoherence.Coherent (fetchLinear c.regs) c)
    (ht : (translate (fetchLinear c.regs) .execute c).outcome = .ok e.physical) (hl : e.linear = fetchLinear c.regs)
    (hcontext : e.executionContext = executionContext c.regs) (hwalk : c'.walkOf e.linear = c.walkOf e.linear) :
    Mapped c' e := by
  have hfresh : freshTranslate (fetchLinear c.regs) .execute c.regs.cpl c = .ok e.physical := by
    rw [Cpu.translate, get_bind, (answers_translateAs _ _ _ c).outcome, TlbCoherence.usedWalk_eq hc] at ht
    exact ht
  intro c'' hw hctx
  rw [freshTranslate_execute (hw.trans hwalk) (hctx.trans hcontext), hl]
  exact hfresh

theorem Sound.renewed {settled settled' : Prop} {age n} (h : Sound decoder c settled e age)
    (hmem : c'.memory = c.memory) (he : c'.tlb.epoch = c.tlb.epoch) (hm : settled' → Mapped c' e)
    (hn : n = 0 ∨ (n = age.invalidations ∧ e.translationEpoch = c.tlb.epoch)) :
    Sound decoder c' settled' { e with translationEpoch := c.tlb.epoch } ⟨age.writes, n⟩ where
  onePage := h.onePage
  inRam := by rw [hmem]; exact h.inRam
  counted := by rw [hmem]; exact h.counted
  dated := by
    rw [he]
    rcases hn with rfl | ⟨rfl, hn⟩
    · exact BitVec.add_zero _
    · rw [← hn]
      exact h.dated.trans hn.symm
  decodes hw := by rw [hmem]; exact h.decodes hw
  mapped _ hs := hm hs

theorem Sound.inserted {settled : Prop} {mapping} (hmem : c'.memory = c.memory)
    (he : c'.tlb.epoch = c.tlb.epoch) (onePage : MAX_INSTRUCTION_BYTES ≤ inPage mapping.physical)
    (inRam : mapping.physical.toNat + MAX_INSTRUCTION_BYTES ≤ c.memory.len.toNat)
    (hgen : mapping.pageGeneration = c.memory.pageGeneration mapping.physical)
    (hepoch : mapping.translationEpoch = c.tlb.epoch)
    (hm : settled → Mapped c' (entryOf mapping (decoder (contextBits mapping.executionContext)
      (c.memory.ram.load mapping.physical.toNat MAX_INSTRUCTION_BYTES) mapping.ip))) :
    Sound decoder c' settled (entryOf mapping (decoder (contextBits mapping.executionContext)
      (c.memory.ram.load mapping.physical.toNat MAX_INSTRUCTION_BYTES) mapping.ip)) ⟨0, 0⟩ where
  onePage := onePage
  inRam := by rw [hmem]; exact inRam
  counted := by rw [hmem]; exact (BitVec.add_zero _).trans hgen
  dated := by rw [he]; exact (BitVec.add_zero _).trans hepoch
  decodes _ := by rw [hmem]; rfl
  mapped _ hs := hm hs

end Entry

/-! ## Runs -/

section Run

variable {decoder : Decoder} {c c' : Cpu} {events : List Event} {a : Aged} {e : Event} {slot : BitVec 15} {age : Age}

theorem sameDecode_refl (entry) : sameDecode entry entry = true := by simp [sameDecode]

theorem older_same (h : c'.decoded.entries slot = c.decoded.entries slot) : older c c' slot age =
      ⟨if c'.memory.pageGeneration (c.decoded.entries slot).physical =
          c.memory.pageGeneration (c.decoded.entries slot).physical then age.writes else age.writes + 1,
        if c'.tlb.epoch = c.tlb.epoch then age.invalidations else age.invalidations + 1⟩ := by
  simp only [older, h, sameDecode_refl, Bool.not_true, Bool.false_eq_true, if_false, ne_eq, not_true_eq_false]

/-- An entry is empty or sound. An empty one has a context no machine is in. -/
def SlotSound (decoder : Decoder) (c : Cpu) (events : List Event) (a : Aged) (slot : BitVec 15) : Prop :=
  (a.cpu.decoded.entries slot).executionContext = 0 ∨
    Sound decoder a.cpu (TranslationSettled decoder (a.cpu.decoded.entries slot).linear c events)
      (a.cpu.decoded.entries slot) (a.age slot)

theorem slotSound_kept (ha : a.cpu = after (Event.next decoder) c events) (h : SlotSound decoder c events a slot)
    (hentry : (e.next decoder a.cpu).decoded.entries slot = a.cpu.decoded.entries slot)
    (hepoch : (e.next decoder a.cpu).tlb.epoch = a.cpu.tlb.epoch ∨
      (e.next decoder a.cpu).tlb.epoch = a.cpu.tlb.epoch + 1) :
    SlotSound decoder c (events ++ [e]) (Aged.next decoder e a) slot := by
  have hage : (Aged.next decoder e a).age slot = older a.cpu (e.next decoder a.cpu) slot (a.age slot) := rfl
  have hcpu : (Aged.next decoder e a).cpu = e.next decoder a.cpu := rfl
  rw [SlotSound, hcpu, hentry, hage, older_same hentry]
  refine h.imp id fun h => h.older (next_ram decoder a.cpu e) hepoch fun hsame hs => ?_
  rcases settled_snoc.mp hs with hd | ⟨hs, hwalk⟩
  · exact absurd hsame (epoch_of_drops decoder a.cpu hd)
  · rw [← ha] at hwalk
    exact ⟨hs, hwalk⟩

section

variable (hnew : c.tlb = .new)
include hnew

section

variable (ha : a.cpu = after (Event.next decoder) c events)
include ha

theorem coherent_of_fetch {linear} (hs : TranslationSettled decoder linear c (events ++ [.fetch])) :
    TlbCoherence.Coherent linear a.cpu ∧ (Event.next decoder .fetch a.cpu).walkOf linear = a.cpu.walkOf linear := by
  rcases settled_snoc.mp hs with hd | ⟨hs, hwalk⟩
  · cases hd
  · rw [ha]
    exact ⟨TlbCoherence.coherent_of_settled (TlbCoherence.coherent_of_new hnew) hs, hwalk⟩

theorem slotSound_renewed
    (hslot : slot = DecodeCache.slot (fetchPointer a.cpu.regs)) (h : SlotSound decoder c events a slot) {first}
    (ht : (translate (fetchLinear a.cpu.regs) .execute a.cpu).outcome = .ok first)
    (hit : (a.cpu.decoded.entries slot).matches (fetchMapping a.cpu first))
    (hd : (Event.next decoder .fetch a.cpu).decoded = (a.cpu.decoded.lookup (fetchMapping a.cpu first)).2)
    (he : (Event.next decoder .fetch a.cpu).tlb.epoch = a.cpu.tlb.epoch) :
    SlotSound decoder c (events ++ [.fetch]) (Aged.next decoder .fetch a) slot := by
  have hmem : (Event.next decoder .fetch a.cpu).memory = a.cpu.memory :=
    (Keeps.keeps (R := Refills) (x := perform decoder .fetch) a.cpu).memory
  have hentry : (Event.next decoder .fetch a.cpu).decoded.entries slot =
      { a.cpu.decoded.entries slot with translationEpoch := a.cpu.tlb.epoch } := by
    have hmatch : (a.cpu.decoded.entries (DecodeCache.slot (fetchMapping a.cpu first).ip)).matches
        (fetchMapping a.cpu first) := hslot ▸ hit
    rw [hd, lookup, if_pos hmatch, hslot, ← hmatch.2.2.2.2]
    exact Function.update_self ..
  obtain ⟨htag, hlinear, hphysical, hgen, hcontext⟩ := hit
  have hold := h.resolve_left (by rw [hcontext]; exact executionContext_ne_zero _)
  refine .inr ?_
  have hage : (Aged.next decoder .fetch a).age slot = ⟨(a.age slot).writes,
      if a.cpu.tlb.epoch ≠ (a.cpu.decoded.entries slot).translationEpoch then 0 else (a.age slot).invalidations⟩ := by
    simp only [Aged.next, older, hentry, hmem, he, sameDecode, decide_true, Bool.not_true, if_true, Bool.false_eq_true,
      if_false, and_self]
  rw [hage, show (Aged.next decoder .fetch a).cpu = Event.next decoder .fetch a.cpu from rfl, hentry]
  refine hold.renewed hmem he (fun hs => ?_) ?_
  · rw [hlinear] at hs
    obtain ⟨hc, hwalk⟩ := coherent_of_fetch hnew ha hs
    exact mapped_of_translate hc (by rw [ht, hphysical]; rfl) hlinear hcontext (by rw [hlinear]; exact hwalk)
  · split
    · exact .inl rfl
    · rename_i hsame
      exact .inr ⟨rfl, (not_not.mp hsame).symm⟩

theorem slotSound_inserted
    (hlen : a.cpu.memory.len.toNat ≤ VIRTIO_MMIO_BASE.toNat)
    {first : U64} (ht : (translate (fetchLinear a.cpu.regs) .execute a.cpu).outcome = .ok first)
    (hu : cacheable a.cpu.memory first) (miss : ¬(a.cpu.decoded.entries slot).matches (fetchMapping a.cpu first))
    {window : List U8} (hw : a.cpu.memory.read first MAX_INSTRUCTION_BYTES = .ok window)
    (hd : (Event.next decoder .fetch a.cpu).decoded.entries slot =
      entryOf (fetchMapping a.cpu first) (decoder (bitness a.cpu.regs.mode) window (fetchPointer a.cpu.regs)))
    (he : (Event.next decoder .fetch a.cpu).tlb.epoch = a.cpu.tlb.epoch) :
    SlotSound decoder c (events ++ [.fetch]) (Aged.next decoder .fetch a) slot := by
  have hmem : (Event.next decoder .fetch a.cpu).memory = a.cpu.memory :=
    (Keeps.keeps (R := Refills) (x := perform decoder .fetch) a.cpu).memory
  simp only [cacheable, decide_eq_true_eq] at hu
  have hbelow : first.toNat < VIRTIO_MMIO_BASE.toNat := by
    have hbase : 0 < VIRTIO_MMIO_BASE.toNat := by decide
    simp only [MAX_INSTRUCTION_BYTES] at hu
    omega
  obtain ⟨hin, rfl⟩ := read_below hbelow hw
  rw [← contextBits_eq] at hd
  -- an entry that equals the mapping would have been a hit
  have hage : (Aged.next decoder .fetch a).age slot = ⟨0, 0⟩ := by
    have hdiff : sameDecode ((Event.next decoder .fetch a.cpu).decoded.entries slot) (a.cpu.decoded.entries slot) =
        false := by
      rw [hd, Bool.eq_false_iff]
      intro hsame
      simp only [sameDecode, decide_eq_true_eq] at hsame
      exact miss ⟨hsame.1.symm, hsame.2.1.symm, hsame.2.2.1.symm, hsame.2.2.2.1.symm, hsame.2.2.2.2.symm⟩
    simp only [Aged.next, older, hdiff, Bool.not_false, if_true]
  refine .inr ?_
  rw [hage, show (Aged.next decoder .fetch a).cpu = Event.next decoder .fetch a.cpu from rfl, hd]
  refine Sound.inserted hmem he hu.1 hin rfl rfl fun hs => ?_
  obtain ⟨hc, hwalk⟩ := coherent_of_fetch hnew ha hs
  exact mapped_of_translate hc ht rfl rfl hwalk

theorem slotSound_next
    (hlen : a.cpu.memory.len.toNat ≤ VIRTIO_MMIO_BASE.toNat) (h : ∀ slot, SlotSound decoder c events a slot)
    (e) (slot) : SlotSound decoder c (events ++ [e]) (Aged.next decoder e a) slot := by
  have hkept (hb : Bumped a.cpu (e.next decoder a.cpu)) :
      SlotSound decoder c (events ++ [e]) (Aged.next decoder e a) slot :=
    slotSound_kept ha (h slot) (by rw [hb.1]) hb.2
  by_cases hf : e = .fetch
  swap
  · exact hkept (next_bumped decoder a.cpu e hf)
  subst hf
  have hfetched := fetch_fetched decoder a.cpu
  rw [← next_fetch] at hfetched
  cases hfetched with
  | nothing hb => exact hkept hb
  | renewed first ht hu hit hd he =>
    by_cases hslot : slot = DecodeCache.slot (fetchPointer a.cpu.regs)
    · exact slotSound_renewed hnew ha hslot (h slot) ht (hslot ▸ hit) hd he
    · refine slotSound_kept ha (h slot) ?_ (.inl he)
      rw [hd]
      exact lookup_entries_of_ne a.cpu.decoded (fetchMapping a.cpu first) hslot
  | inserted first ht hu miss window hw hd he =>
    by_cases htoo : MAX_INSTRUCTION_BYTES < (decoder (bitness a.cpu.regs.mode) window (fetchPointer a.cpu.regs)).len
    · rw [DecodeCache.insert, if_pos htoo] at hd
      exact hkept ⟨hd, .inl he⟩
    rw [DecodeCache.insert, if_neg htoo] at hd
    by_cases hslot : slot = DecodeCache.slot (fetchPointer a.cpu.regs)
    · refine slotSound_inserted hnew ha hlen ht hu (hslot ▸ miss) hw ?_ he
      rw [hd, hslot]
      exact Function.update_self ..
    · refine slotSound_kept ha (h slot) ?_ (.inl he)
      rw [hd]
      exact Function.update_of_ne hslot ..

end

end

theorem after_len (decoder c events) :
    (after (Event.next decoder) c events).memory.len = c.memory.len := by
  induction events using List.reverseRecOn with
  | nil => rfl
  | append_singleton events e ih =>
    rw [after_append, after_cons, after_nil, Memory.len, (next_ram decoder _ e).len]
    exact ih

theorem slotSound_after (decoder) (hnew : c.tlb = .new) (hempty : c.decoded = .new)
    (hlen : c.memory.len.toNat ≤ VIRTIO_MMIO_BASE.toNat) (events slot) :
    SlotSound decoder c events (after (Aged.next decoder) (.start c) events) slot := by
  induction events using List.reverseRecOn generalizing slot with
  | nil =>
    refine .inl ?_
    rw [after_nil, Aged.start, hempty]
    rfl
  | append_singleton events e ih =>
    rw [after_append, after_cons, after_nil]
    have hcpu := after_cpu decoder c events
    refine slotSound_next hnew hcpu ?_ ih e slot
    rw [hcpu, after_len]
    exact hlen

end Run

/-! ## Answers -/

/-- A decode that fits the machine: the tables lead the next fetch, which they permit, to bytes in RAM
    that decode to it. -/
def Genuine (decoder : Decoder) (c : Cpu) (i : Instruction) : Prop :=
  ∃ physical, freshTranslate (fetchLinear c.regs) .execute c.regs.cpl c = .ok physical ∧
    physical.toNat + MAX_INSTRUCTION_BYTES ≤ c.memory.len.toNat ∧
    i = decoder (bitness c.regs.mode) (c.memory.ram.load physical.toNat MAX_INSTRUCTION_BYTES) (fetchPointer c.regs)

/-- No counter came round since the entry the next fetch looks at was made. -/
def Age.Young (age : Age) : Prop := age.writes < 2 ^ 32 ∧ age.invalidations < 2 ^ 64

instance (age : Age) : Decidable age.Young := inferInstanceAs (Decidable (_ ∧ _))

theorem eq_zero_of_add_ofNat {w n x} (h : x + ofNat w n = x) (hn : n < 2 ^ w) : n = 0 := by
  have hz : ofNat w n = 0 := by simpa using h
  have ht := congrArg BitVec.toNat hz
  rwa [BitVec.toNat_ofNat, Nat.mod_eq_of_lt hn] at ht

theorem cachedFetch_entry {c i} (h : cachedFetch c = some i) :
    ∃ entry, entry = c.decoded.entries (DecodeCache.slot (fetchPointer c.regs)) ∧ entry.instruction = i ∧
      entry.tag = fetchPointer c.regs ∧ entry.linear = fetchLinear c.regs ∧
      entry.executionContext = executionContext c.regs ∧ c.memory.pageGeneration entry.physical = entry.generation ∧
      (entry.translationEpoch = c.tlb.epoch ∨
        (translate (fetchLinear c.regs) .execute c).outcome = .ok entry.physical) := by
  refine ⟨_, rfl, ?_⟩
  unfold cachedFetch at h
  split at h
  · rename_i i' hfast
    cases h
    unfold Cpu.lookupFast at hfast
    split at hfast
    · cases hfast
    unfold DecodeCache.lookupMapped at hfast
    simp only at hfast
    split at hfast
    · cases hfast
    · rename_i hsame
      simp only [not_or, not_not] at hsame
      cases hfast
      exact ⟨rfl, hsame.1, hsame.2.1, hsame.2.2.2.1, hsame.2.2.2.2, .inl hsame.2.2.1⟩
  · split at h
    · rename_i first ht
      split at h
      · by_cases hit : (c.decoded.entries (DecodeCache.slot (fetchPointer c.regs))).matches (fetchMapping c first)
        · rw [lookup_of_matches c.decoded (fetchMapping c first) hit] at h
          obtain ⟨htag, hlinear, hphysical, hgen, hcontext⟩ := hit
          cases h
          exact ⟨rfl, htag, hlinear, hcontext, by rw [hphysical, hgen]; rfl, .inr (by rw [ht, hphysical]; rfl)⟩
        · rw [lookup_of_not_matches c.decoded (fetchMapping c first) hit] at h
          cases h
      · cases h
    · cases h

end DecodeCoherence

open DecodeCoherence

/-- From empty caches on, with RAM below the device windows: what the cache answers to the next fetch is
    the decode of what is there now, if the guest settled the translation of the fetched address and
    the counters of its entry did not come round. -/
theorem cached_fetch_genuine (decoder : Decoder) (c : Cpu) (hnew : c.tlb = .new) (hempty : c.decoded = .new)
    (hlen : c.memory.len.toNat ≤ VIRTIO_MMIO_BASE.toNat) (events : List Event)
    (settled : TranslationSettled decoder (fetchLinear (after (Event.next decoder) c events).regs) c events)
    (young : ((after (Aged.next decoder) (.start c) events).age
      (DecodeCache.slot (fetchPointer (after (Event.next decoder) c events).regs))).Young)
    (i : Instruction) (hit : cachedFetch (after (Event.next decoder) c events) = some i) :
    (fetch decoder (after (Event.next decoder) c events)).outcome = .ok i ∧
      Genuine decoder (after (Event.next decoder) c events) i := by
  refine ⟨fetch_of_cachedFetch hit, ?_⟩
  have hcoherent := TlbCoherence.coherent_of_settled (TlbCoherence.coherent_of_new hnew) settled
  have hsound := slotSound_after decoder hnew hempty hlen events
    (DecodeCache.slot (fetchPointer (after (Event.next decoder) c events).regs))
  rw [SlotSound, after_cpu] at hsound
  generalize after (Event.next decoder) c events = c1 at *
  obtain ⟨entry, hentry, rfl, htag, hlinear, hcontext, hgen, hmapping⟩ := cachedFetch_entry hit
  rw [← hentry] at hsound
  have hsound := hsound.resolve_left (by rw [hcontext]; exact executionContext_ne_zero _)
  have hwrites := eq_zero_of_add_ofNat (hsound.counted.trans hgen) young.1
  have hmapped : Mapped c1 entry := by
    rcases hmapping with hepoch | ht
    · have hzero := eq_zero_of_add_ofNat (hsound.dated.trans hepoch.symm) young.2
      exact hsound.mapped hzero (hlinear ▸ settled)
    · exact mapped_of_translate hcoherent ht hlinear hcontext rfl
  refine ⟨entry.physical, ?_, hsound.inRam, ?_⟩
  · rw [← hlinear]
    exact hmapped c1 rfl hcontext.symm
  · rw [hsound.decodes hwrites, hcontext, contextBits_eq, htag]

/-! ## Code in a large page -/

/-- The machine of `largePage`, with 8 MiB of RAM, about to fetch a `nop` from the page's sixth piece. -/
def codePage : Cpu :=
  { largePage with
    memory := { largePage.memory with ram := { largePage.memory.ram with len := 0x800000 }.store 0x5000 [0x90] }
    regs := { largePage.regs with cs := .realMode ⟨0⟩, rip := 0x5000 } }

def nopDecoder : Decoder := fun _ window _ =>
  { Instruction.empty with len := if window.head? = some 0x90 then 1 else 2, isInvalid := false }

/-- The guest runs the code, maps the page 4 MiB higher, and invalidates an address of it. -/
def moveCode (named : U64) : List Event := [.fetch, .store 0x1000 [0x83, 0, 0x40, 0]] ++ [.invlpg named]

/-- When it names the piece it runs, the next fetch decodes what is there, and the cache has it right. -/
theorem moved_code_is_genuine : ∃ i, i.len = 2 ∧
    cachedFetch (after (Event.next nopDecoder) codePage (moveCode 0x5000 ++ [.fetch])) = some i ∧
    Genuine nopDecoder (after (Event.next nopDecoder) codePage (moveCode 0x5000 ++ [.fetch])) i := by
  have hhit : (cachedFetch (after (Event.next nopDecoder) codePage (moveCode 0x5000 ++ [.fetch]))).map (·.len) =
      some 2 := by decide +kernel
  have hlinear : fetchLinear (after (Event.next nopDecoder) codePage (moveCode 0x5000 ++ [.fetch])).regs = 0x5000 := by
    decide +kernel
  have hsame : (Event.next nopDecoder .fetch (after (Event.next nopDecoder) codePage (moveCode 0x5000))).walkOf 0x5000 =
      (after (Event.next nopDecoder) codePage (moveCode 0x5000)).walkOf 0x5000 := by decide +kernel
  have dropped : Event.Drops 0x5000 (.invlpg 0x5000) := by unfold Event.Drops; decide
  have settled : TranslationSettled nopDecoder 0x5000 codePage (moveCode 0x5000 ++ [.fetch]) :=
    settled_snoc.mpr (.inr ⟨settled_snoc.mpr (.inl dropped), hsame⟩)
  have young : ((after (Aged.next nopDecoder) (.start codePage) (moveCode 0x5000 ++ [.fetch])).age
      (DecodeCache.slot (fetchPointer (after (Event.next nopDecoder) codePage
        (moveCode 0x5000 ++ [.fetch])).regs))).Young := by
    decide +kernel
  obtain ⟨i, hit, hi⟩ := Option.map_eq_some_iff.mp hhit
  rw [← hlinear] at settled
  exact ⟨i, hi, hit, cached_fetch_genuine nopDecoder codePage rfl rfl (by decide) _ settled young i hit |>.2⟩

/-- When it names another piece, the translation cache still leads to the old place, and the cache of
    decodes answers with the `nop`. -/
theorem moved_code_runs_at_its_old_place :
    let c := after (Event.next nopDecoder) codePage (moveCode 0)
    freshTranslate (fetchLinear c.regs) .execute c.regs.cpl c = .ok 0x405000 ∧
      ∃ i, i.len = 1 ∧ cachedFetch c = some i ∧ ¬Genuine nopDecoder c i := by
  have hfresh : freshTranslate (fetchLinear (after (Event.next nopDecoder) codePage (moveCode 0)).regs) .execute
      (after (Event.next nopDecoder) codePage (moveCode 0)).regs.cpl
      (after (Event.next nopDecoder) codePage (moveCode 0)) = .ok 0x405000 := by decide +kernel
  have hhit : (cachedFetch (after (Event.next nopDecoder) codePage (moveCode 0))).map (·.len) = some 1 := by
    decide +kernel
  have hthere : (nopDecoder (bitness (after (Event.next nopDecoder) codePage (moveCode 0)).regs.mode)
      ((after (Event.next nopDecoder) codePage (moveCode 0)).memory.ram.load
        (0x405000 : U64).toNat MAX_INSTRUCTION_BYTES)
      (fetchPointer (after (Event.next nopDecoder) codePage (moveCode 0)).regs)).len = 2 := by decide +kernel
  generalize after (Event.next nopDecoder) codePage (moveCode 0) = c at *
  obtain ⟨i, hit, hi⟩ := Option.map_eq_some_iff.mp hhit
  refine ⟨hfresh, i, hi, hit, ?_⟩
  rintro ⟨physical, hphysical, -, rfl⟩
  rw [hfresh] at hphysical
  cases hphysical
  rw [hthere] at hi
  cases hi

end Rish.SoftVm
