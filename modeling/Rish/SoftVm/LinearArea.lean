/-
  Rish.SoftVm.LinearArea — buffers at linear addresses, written and read page by page.

  An area is mapped when each of its bytes keeps its place in RAM while the area is being accessed: whatever an access
  puts into the TLB, and whatever is stored in the area itself.

  Proved: a write of a mapped area puts every byte at its place and changes nothing else (`writePages_mapped`), and a read
  collects the bytes there (`readPages_mapped`).
-/

import Rish.SoftVm.Linear

namespace Rish.SoftVm.Cpu

open Lib List
open BitVec (ofNat)

def stored (start : Nat) (input : List U8) (c : Cpu) : Cpu :=
  { c with memory := { c.memory with ram := c.memory.ram.store start input, generation := c.memory.generation + 1 } }

/-- What accesses to an area do: they refill the TLB and store into it. -/
inductive Touches (area : Set Nat) (c : Cpu) : Cpu → Prop
  | refl : Touches area c c
  | refill {c1 c2 : Cpu} : Touches area c c1 → Refills c1 c2 → Touches area c c2
  | store {c1 : Cpu} (start : Nat) (input : List U8) : Touches area c c1 → (∀ j < input.length, start + j ∈ area) →
      Touches area c (stored start input c1)

theorem Touches.trans {area c c1 c2} (h : Touches area c c1) (h' : Touches area c1 c2) :
    Touches area c c2 := by
  induction h' with
  | refl => exact h
  | refill _ hr ih => exact .refill ih hr
  | store start input _ hin ih => exact .store start input ih hin

/-- Byte `k` of the `n` bytes from a linear address on is at `place k` in RAM, and stays there. -/
def Mapped (area : Set Nat) (linear : U64) (n : Nat) (kind : AccessKind) (place : Nat → U64) (c : Cpu) : Prop :=
  ∀ c', Touches area c c' → ∀ k < n,
    c'.translation (linear + ofNat 64 k) kind = .ok (place k) ∧ c'.memory.InRam (place k) 1

section

variable {area : Set Nat} {linear : U64} {n : Nat} {kind : AccessKind} {place : Nat → U64} {c c' : Cpu}

section

variable (h : Touches area c c')
include h

theorem Touches.regs : c'.regs = c.regs := by
  induction h with
  | refl => rfl
  | refill _ hr ih => exact hr.regs.trans ih
  | store _ _ _ _ ih => exact ih

theorem Touches.inRam (physical m) : c'.memory.InRam physical m ↔ c.memory.InRam physical m := by
  induction h with
  | refl => exact Iff.rfl
  | refill _ hr ih => rw [hr.memory]; exact ih
  | store _ _ _ _ ih => exact ih

theorem Touches.translation_unpaged (hpg : contains c.regs.cr0 Cr0.PG = false) :
    c'.translation linear kind = .ok linear := by
  rw [translation, h.regs, hpg]
  rfl

end

theorem mapped_unpaged (hpg : contains c.regs.cr0 Cr0.PG = false)
    (hram : ∀ k < n, c.memory.InRam (linear + ofNat 64 k) 1) :
    Mapped area linear n kind (fun k => linear + ofNat 64 k) c :=
  fun _ h k hk => ⟨h.translation_unpaged hpg, (h.inRam _ 1).mpr (hram k hk)⟩

theorem Mapped.touches (h : Mapped area linear n kind place c) (ht : Touches area c c') :
    Mapped area linear n kind place c' :=
  fun c2 ht' => h c2 (ht.trans ht')

theorem Mapped.drop (h : Mapped area linear n kind place c) (m) :
    Mapped area (linear + ofNat 64 m) (n - m) kind (fun k => place (m + k)) c := by
  intro c2 ht k hk
  have hat : linear + ofNat 64 m + ofNat 64 k = linear + ofNat 64 (m + k) := by
    rw [BitVec.add_assoc, BitVec.ofNat_add]
  rw [hat]
  exact h c2 ht (m + k) (by omega)

theorem translation_offset {physical} (h : c.translation linear kind = .ok physical) :
    physical.toNat % 4096 = linear.toNat % 4096 := by
  unfold translation at h
  by_cases hpg : !contains c.regs.cr0 Cr0.PG
  · rw [if_pos hpg] at h
    cases h
    rfl
  · rw [if_neg hpg] at h
    obtain ⟨walked, -, hc⟩ := Outcome.bind_eq_ok.mp h
    obtain ⟨-, rfl⟩ := checked_ok.mp hc
    rw [← pageOffset_toNat, ← pageOffset_toNat, walked.physical_offset]

theorem Mapped.offset (h : Mapped area linear n kind place c) {k} (hk : k < n) :
    (place k).toNat % 4096 = (linear.toNat + k) % 4096 := by
  rw [translation_offset (h c .refl k hk).1, BitVec.toNat_add, BitVec.toNat_ofNat]
  omega

theorem Mapped.place_ne (h : Mapped area linear n kind place c) (hn : n ≤ 4096) {j k} (hj : j < n) (hk : k < n)
    (hne : j ≠ k) : (place j).toNat ≠ (place k).toNat := by
  intro heq
  have hoj := h.offset hj
  have hok := h.offset hk
  omega

/-- How many bytes of the area are in the page of its first byte. -/
def firstPart (place : Nat → U64) (n : Nat) : Nat := min (4096 - (place 0 &&& 0xFFF).toNat) n

variable (place) in
theorem firstPart_pos (hn : n ≠ 0) : 0 < firstPart place n := by
  have hlt := pageOffset_toNat (place 0)
  unfold firstPart
  omega

section

variable (h : Mapped area linear n kind place c)
include h

theorem Mapped.place_add {k} (hk : k < firstPart place n) : (place k).toNat = (place 0).toNat + k := by
  have hoff := pageOffset_toNat (place 0)
  unfold firstPart at hk
  have hfirst := h c .refl 0 (by omega)
  have hzero : linear + ofNat 64 0 = linear := BitVec.add_zero linear
  rw [hzero] at hfirst
  have hlinear : (linear &&& 0xFFF).toNat + k < 4096 := by
    rw [pageOffset_toNat, ← translation_offset hfirst.1]
    omega
  have hnext := translation_add hfirst.1 hlinear
  rw [(h c .refl k (by omega)).1] at hnext
  injection hnext with hnext
  rw [hnext, BitVec.toNat_add, BitVec.toNat_ofNat]
  omega

theorem Mapped.inRam (hn : n ≠ 0) : c.memory.InRam (place 0) (firstPart place n) := by
  have hpos := firstPart_pos place hn
  have hle : firstPart place n ≤ n := Nat.min_le_right _ _
  have hlast := (h c .refl (firstPart place n - 1) (by omega)).2.2
  rw [h.place_add (by omega)] at hlast
  exact ⟨(h c .refl 0 (by omega)).2.1, by omega⟩

theorem Mapped.translate_first (hn : n ≠ 0) :
    ∃ c1 t, translate linear kind c = ⟨.ok (place 0), c1, t⟩ ∧ Refills c c1 := by
  have hfirst := (h c .refl 0 (by omega)).1
  rw [show linear + ofNat 64 0 = linear from BitVec.add_zero linear] at hfirst
  exact translate_run hfirst

end

end

/-! ## Writing -/

/-- What a write of an area leaves. -/
structure Wrote (area : Set Nat) (place : Nat → U64) (bytes : List U8) (c c' : Cpu) : Prop where
  touches : Touches area c c'
  here : ∀ k (hk : k < bytes.length), c'.memory.ram.bytes (place k).toNat = bytes[k]
  elsewhere : ∀ a, (∀ k < bytes.length, a ≠ (place k).toNat) → c'.memory.ram.bytes a = c.memory.ram.bytes a

variable {c : Cpu} {place : Nat → U64}

theorem Wrote.nil {area} : Wrote area place [] c c :=
  ⟨.refl, fun _ hk => absurd hk (Nat.not_lt_zero _), fun _ _ => rfl⟩

theorem memoryWrite_ram {physical bytes} (h : c.memory.InRam physical bytes.length) :
    memoryWrite physical bytes c = ⟨.ok (), stored physical.toNat bytes c, 1⟩ := by
  unfold memoryWrite
  rw [Memory.write_ram h]
  rfl

theorem writePages_mapped {area linear bytes rounds}
    (hrounds : bytes.length ≤ rounds) (hsmall : bytes.length ≤ 4096)
    (h : Mapped area linear bytes.length .write place c) (harea : ∀ k < bytes.length, (place k).toNat ∈ area) :
    ∃ c' t, writePages rounds linear bytes c = ⟨.ok (), c', t⟩ ∧ Wrote area place bytes c c' := by
  induction rounds generalizing linear place c bytes with
  | zero =>
    obtain rfl := length_eq_zero_iff.mp (Nat.le_zero.mp hrounds)
    exact ⟨c, 0, rfl, .nil⟩
  | succ rounds ih =>
    by_cases hempty : bytes.length = 0
    · obtain rfl := length_eq_zero_iff.mp hempty
      exact ⟨c, 0, rfl, .nil⟩
    · obtain ⟨c1, t1, htranslate, hrefills⟩ := h.translate_first hempty
      have htouch1 : Touches area c c1 := .refill .refl hrefills
      have hpos := firstPart_pos place hempty
      have hle : firstPart place bytes.length ≤ bytes.length := Nat.min_le_right _ _
      have hchunk : (bytes.take (firstPart place bytes.length)).length = firstPart place bytes.length :=
        length_take_of_le hle
      have hwrite : memoryWrite (place 0) (bytes.take (firstPart place bytes.length)) c1 =
          ⟨.ok (), stored (place 0).toNat (bytes.take (firstPart place bytes.length)) c1, 1⟩ :=
        memoryWrite_ram (by rw [hchunk]; exact (h.touches htouch1).inRam hempty)
      have htouch2 : Touches area c (stored (place 0).toNat (bytes.take (firstPart place bytes.length)) c1) := by
        refine .store _ _ htouch1 fun j hj => ?_
        rw [hchunk] at hj
        rw [← h.place_add hj]
        exact harea j (by omega)
      have hrest := (h.touches htouch2).drop (firstPart place bytes.length)
      rw [← length_drop] at hrest
      have hdrop : (bytes.drop (firstPart place bytes.length)).length = bytes.length - firstPart place bytes.length :=
        length_drop
      obtain ⟨c', t, hrun, hwrote⟩ := ih (by omega) (by omega) hrest fun k hk => harea _ (by omega)
      refine ⟨c', t1 + (1 + t), ?_, htouch2.trans hwrote.touches, ?_, ?_⟩
      · unfold writePages
        rw [if_neg hempty, Exec.bind_ok htranslate]
        show ((memoryWrite (place 0) (bytes.take (firstPart place bytes.length)) >>= fun _ =>
          writePages rounds (linear + ofNat 64 (firstPart place bytes.length))
            (bytes.drop (firstPart place bytes.length))) c1).after t1 = _
        rw [Exec.bind_ok hwrite, hrun]
        rfl
      · intro k hk
        by_cases hfirst : k < firstPart place bytes.length
        · -- the rest of the area is elsewhere
          rw [hwrote.elsewhere _ fun j hj => h.place_ne hsmall hk (by omega) (by omega),
            h.place_add hfirst]
          show writeBytes c1.memory.ram.bytes (place 0).toNat (bytes.take (firstPart place bytes.length)) _ = _
          rw [writeBytes_at (by rw [hchunk]; exact hfirst)]
          simp [hk, hfirst]
        · have hlast := hwrote.here (k - firstPart place bytes.length) (by omega)
          rw [getElem_drop] at hlast
          simpa only [Nat.add_sub_cancel' (Nat.le_of_not_lt hfirst)] using hlast
      · intro a ha
        rw [hwrote.elsewhere a fun j hj => ha _ (by omega)]
        show writeBytes c1.memory.ram.bytes (place 0).toNat (bytes.take (firstPart place bytes.length)) a = _
        rw [← hrefills.memory]
        by_cases hlow : a < (place 0).toNat
        · exact writeBytes_of_lt hlow
        · refine writeBytes_of_ge ?_
          rw [hchunk]
          by_contra hin
          have hk : a - (place 0).toNat < firstPart place bytes.length := by omega
          exact ha (a - (place 0).toNat) (by omega) (by rw [h.place_add hk]; omega)

/-! ## Reading -/

/-- The bytes at the places of an area. -/
def bytesAt (place : Nat → U64) (n : Nat) (c : Cpu) : List U8 :=
  (List.range n).map fun k => c.memory.ram.bytes (place k).toNat

theorem readPages_mapped {linear n rounds} (hrounds : n ≤ rounds)
    (h : Mapped ∅ linear n .read place c) :
    ∃ c' t, readPages (translate · .read) rounds linear n c = ⟨.ok (bytesAt place n c), c', t⟩ ∧ Refills c c' := by
  induction rounds generalizing linear place c n with
  | zero =>
    obtain rfl := Nat.le_zero.mp hrounds
    exact ⟨c, 0, rfl, refl c⟩
  | succ rounds ih =>
    by_cases hempty : n = 0
    · subst hempty
      exact ⟨c, 0, rfl, refl c⟩
    · obtain ⟨c1, t1, htranslate, hrefills⟩ := h.translate_first hempty
      have htouch1 : Touches ∅ c c1 := .refill .refl hrefills
      have hpos := firstPart_pos place hempty
      have hle : firstPart place n ≤ n := Nat.min_le_right _ _
      have hhead : memoryRead (place 0) (firstPart place n) c1 =
          ⟨.ok (readBytes c.memory.ram.bytes (place 0).toNat (firstPart place n)), c1, 1⟩ := by
        rw [memoryRead, Exec.query_apply, Memory.read_ram ((h.touches htouch1).inRam hempty), hrefills.memory]
        rfl
      obtain ⟨c', t, hrun, hrest⟩ := ih (by omega) ((h.touches htouch1).drop (firstPart place n))
      refine ⟨c', t1 + (1 + t), ?_, IsTrans.trans _ _ _ hrefills hrest⟩
      have hbytes : readBytes c.memory.ram.bytes (place 0).toNat (firstPart place n) ++
          bytesAt (fun k => place (firstPart place n + k)) (n - firstPart place n) c1 = bytesAt place n c := by
        have hsplit : n = firstPart place n + (n - firstPart place n) := by omega
        conv_rhs => rw [bytesAt, hsplit, range_add, map_append, map_map]
        congr 1
        · refine map_congr_left fun k hk => ?_
          rw [h.place_add (mem_range.mp hk)]
        · rw [bytesAt, hrefills.memory]
          rfl
      unfold readPages
      rw [if_neg hempty, Exec.bind_ok htranslate]
      show ((memoryRead (place 0) (firstPart place n) >>= fun head =>
        readPages (translate · .read) rounds (linear + ofNat 64 (firstPart place n))
          (n - firstPart place n) >>= fun tail =>
          pure (head ++ tail)) c1).after t1 = _
      rw [Exec.bind_ok hhead, Exec.bind_ok hrun, hbytes]
      rfl

end Rish.SoftVm.Cpu
