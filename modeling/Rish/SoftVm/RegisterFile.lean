/-
  Rish.SoftVm.RegisterFile — reads of the virtio register files, of every width and at every offset.

  The bus answers a read with the bytes of the 32-bit words the device gives it. The network device shifts a word down
  to the byte the offset names; the block device returns the word as it is.
-/

import Rish.SoftVm.Linear

namespace Rish.SoftVm

open Lib Virtio BitVec
open BitVec (ofNat)

/-! ## Bytes of a word -/

theorem leBytes_eq_iff {n a b} : leBytes n a = leBytes n b ↔ a % 256 ^ n = b % 256 ^ n := by
  rw [← leNat_leBytes, ← leNat_leBytes]
  constructor
  · exact congrArg leNat
  · intro h
    have hbytes (v : Nat) : leBytes n (leNat (leBytes n v)) = leBytes n v := by
      have hback := leBytes_leNat (leBytes n v)
      rwa [leBytes_length] at hback
    rw [← hbytes a, h, hbytes b]

theorem leBytes_part {k n size} (h : k + n ≤ size) (v) :
    ((leBytes size v).drop k).take n = leBytes n (v / 256 ^ k) := by
  obtain ⟨rest, rfl⟩ := Nat.exists_eq_add_of_le h
  rw [leBytes_add, leBytes_add, List.append_assoc, List.drop_left' (leBytes_length k v),
    List.take_left' (leBytes_length n _)]

namespace Memory

variable {m : Memory}

/-! ## Reads of a window -/

theorem readVirtio_word {word} {offset : U64} {n : Nat} (ho : offset < VIRTIO_MMIO_REGISTER_BYTES) (hn : n ≤ 4) :
    readVirtio (some word) offset n = .ok (leBytes n (word offset).toNat) := by
  rw [readVirtio, if_neg (BitVec.not_le.mpr ho)]
  simp only [readWords, Outcome.bind_ok, if_neg (Nat.not_lt.mpr hn), Nat.min_eq_left hn]
  rfl

theorem readVirtio_pair {word} {offset : U64} (ho : offset < VIRTIO_MMIO_REGISTER_BYTES) :
    readVirtio (some word) offset 8 = .ok (leBytes 4 (word offset).toNat ++ leBytes 4 (word (offset + 4)).toNat) := by
  rw [readVirtio, if_neg (BitVec.not_le.mpr ho)]
  rfl

section Windows

variable {x : Nat}

theorem offset_toNat (h : x < 0x200) : (ofNat 64 x).toNat = x := by
  rw [toNat_ofNat]
  omega

theorem offset_lt (h : x < 0x200) : ofNat 64 x < VIRTIO_MMIO_REGISTER_BYTES := by
  rw [lt_def, offset_toNat h]
  exact h

theorem inWindow_offset {base} (hbase : base.toNat < 2 ^ 63) (h : x < 0x200) :
    inWindow base VIRTIO_MMIO_WINDOW_BYTES (base + ofNat 64 x) = true := by
  have hwindow : VIRTIO_MMIO_WINDOW_BYTES.toNat = 0x400 := rfl
  rw [inWindow_iff (by omega), toNat_add, offset_toNat h]
  omega

theorem read_blk2 {d} (hd : m.virtioBlk2 = some d) (h : x < 0x200) (n : Nat) :
    m.read (VIRTIO_BLK2_MMIO_BASE + ofNat 64 x) n = readVirtio (some d.mmioRead) (ofNat 64 x) n := by
  have hin : inVirtioBlk2 (VIRTIO_BLK2_MMIO_BASE + ofNat 64 x) = true := inWindow_offset (by decide) h
  rw [read, if_pos hin, hd, BitVec.add_comm, BitVec.add_sub_cancel]
  rfl

theorem read_net {d} (hd : m.virtioNet = some d) (h : x < 0x200) (n : Nat) :
    m.read (VIRTIO_NET_MMIO_BASE + ofNat 64 x) n = readVirtio (some d.mmioRead) (ofNat 64 x) n := by
  have hin : inVirtioNet (VIRTIO_NET_MMIO_BASE + ofNat 64 x) = true := inWindow_offset (by decide) h
  have hout : inVirtioBlk2 (VIRTIO_NET_MMIO_BASE + ofNat 64 x) = false := inWindow_disjoint hin (by decide)
  rw [read, hout, hin, hd, BitVec.add_comm, BitVec.add_sub_cancel]
  rfl

theorem read_blk {d} (hd : m.virtioBlk = some d) (h : x < 0x200) (n : Nat) :
    m.read (VIRTIO_MMIO_BASE + ofNat 64 x) n = readVirtio (some d.mmioRead) (ofNat 64 x) n := by
  have hin : inVirtio (VIRTIO_MMIO_BASE + ofNat 64 x) = true := inWindow_offset (by decide) h
  have hout2 : inVirtioBlk2 (VIRTIO_MMIO_BASE + ofNat 64 x) = false := inWindow_disjoint hin (by decide)
  have hout : inVirtioNet (VIRTIO_MMIO_BASE + ofNat 64 x) = false := inWindow_disjoint hin (by decide)
  rw [read, hout2, hout, hin, hd, BitVec.add_comm, BitVec.add_sub_cancel]
  rfl

end Windows

/-! ## Words of the devices -/

structure InWord (w k : Nat) : Prop where
  aligned : w % 4 = 0
  inside : w < 0x200
  byte : k < 4

section Words

variable {w k : Nat}

theorem InWord.lt (h : InWord w k) : w + k < 0x200 := by
  have haligned := h.aligned
  have hinside := h.inside
  have hbyte := h.byte
  omega

theorem and_three_toNat (x : U64) : (x &&& 3).toNat = x.toNat % 4 := by
  rw [toNat_and]
  exact Nat.and_two_pow_sub_one_eq_mod _ 2

theorem InWord.shift (h : InWord w k) : (ofNat 64 (w + k) &&& 3).toNat = k := by
  have haligned := h.aligned
  have hbyte := h.byte
  rw [and_three_toNat, offset_toNat h.lt]
  omega

theorem InWord.word (h : InWord w k) : ofNat 64 (w + k) &&& ~~~3 = ofNat 64 w := by
  have hsum := congrArg BitVec.toNat (and_not_add_and (ofNat 64 (w + k)) 3)
  have hle : (ofNat 64 (w + k) &&& ~~~3).toNat ≤ w + k := by
    rw [toNat_and, offset_toNat h.lt]
    exact Nat.and_le_left
  have hlt := h.lt
  apply eq_of_toNat_eq
  rw [toNat_add, h.shift, offset_toNat hlt] at hsum
  rw [offset_toNat h.inside]
  omega

theorem InWord.blk (h : InWord w k) (d : VirtioMmioBlk) :
    d.mmioRead (ofNat 64 (w + k)) = d.mmioRead (ofNat 64 w) := by
  have hzero := InWord.word (w := w) (k := 0) ⟨h.aligned, h.inside, by decide⟩
  rw [Nat.add_zero] at hzero
  unfold VirtioMmioBlk.mmioRead
  rw [h.word, hzero]

theorem InWord.net (h : InWord w k) (d : VirtioMmioNet) :
    d.mmioRead (ofNat 64 (w + k)) = d.mmioRead (ofNat 64 w) >>> (k * 8) := by
  have hfirst : InWord w 0 := ⟨h.aligned, h.inside, by decide⟩
  have hzero := hfirst.word
  have hshift := hfirst.shift
  rw [Nat.add_zero] at hzero hshift
  unfold VirtioMmioNet.mmioRead
  simp only [h.word, hzero, h.shift, hshift, Nat.zero_mul, ushiftRight_zero]

end Words

/-! ## Reads of a register file -/

def ReadsPart (m : Memory) (base : U64) (w k n : Nat) : Prop :=
  ∃ word, m.read (base + ofNat 64 w) 4 = .ok word ∧
    m.read (base + ofNat 64 (w + k)) n = .ok ((word.drop k).take n)

/-- A read of eight bytes gives two words. -/
def ReadsPair (m : Memory) (base : U64) (w : Nat) : Prop :=
  ∃ low high, m.read (base + ofNat 64 w) 4 = .ok low ∧ m.read (base + ofNat 64 (w + 4)) 4 = .ok high ∧
    m.read (base + ofNat 64 w) 8 = .ok (low ++ high)

/-- The word has the same bytes at `k` as at its start. -/
def RepeatsAt (v : U32) (k n : Nat) : Prop := v.toNat / 256 ^ k % 256 ^ n = v.toNat % 256 ^ n

instance (v : U32) (k n : Nat) : Decidable (RepeatsAt v k n) := inferInstanceAs (Decidable (_ = _))

section File

variable {base : U64} {word : U64 → U32} {w k n : Nat}

def Answers (m : Memory) (base : U64) (word : U64 → U32) : Prop :=
  ∀ x n, x < 0x200 → m.read (base + ofNat 64 x) n = readVirtio (some word) (ofNat 64 x) n

theorem Answers.read (h : m.Answers base word) {x n} (hx : x < 0x200) (hn : n ≤ 4) :
    m.read (base + ofNat 64 x) n = .ok (leBytes n (word (ofNat 64 x)).toNat) := by
  rw [h x n hx, readVirtio_word (offset_lt hx) hn]

theorem Answers.readsPart_iff (h : m.Answers base word) (hw : InWord w k) (hn : k + n ≤ 4) : m.ReadsPart base w k n ↔
    (word (ofNat 64 (w + k))).toNat % 256 ^ n = (word (ofNat 64 w)).toNat / 256 ^ k % 256 ^ n := by
  have hfull := h.read hw.inside (Nat.le_refl 4)
  have hpart := h.read (n := n) hw.lt (by omega)
  rw [← leBytes_eq_iff, ← leBytes_part hn]
  constructor
  · rintro ⟨bytes, hword, hread⟩
    rw [hfull] at hword
    rw [hpart] at hread
    cases hword
    injection hread
  · intro hsame
    exact ⟨_, hfull, by rw [hpart, hsame]⟩

theorem Answers.readsPair (h : m.Answers base word) (haligned : w % 8 = 0) (hinside : w < 0x200) :
    m.ReadsPair base w := by
  have hnext : ofNat 64 w + 4 = ofNat 64 (w + 4) := (ofNat_add w 4).symm
  refine ⟨_, _, h.read hinside (Nat.le_refl 4), h.read (by omega) (Nat.le_refl 4), ?_⟩
  rw [h w 8 hinside, readVirtio_pair (offset_lt hinside), hnext]

theorem Answers.blk_iff {d : VirtioMmioBlk} (h : m.Answers base d.mmioRead) (hw : InWord w k) (hn : k + n ≤ 4) :
    m.ReadsPart base w k n ↔ RepeatsAt (d.mmioRead (ofNat 64 w)) k n := by
  rw [h.readsPart_iff hw hn, hw.blk, RepeatsAt, eq_comm]

theorem Answers.net {d : VirtioMmioNet} (h : m.Answers base d.mmioRead) (hw : InWord w k) (hn : k + n ≤ 4) :
    m.ReadsPart base w k n := by
  rw [h.readsPart_iff hw hn, hw.net, toNat_ushiftRight, Nat.shiftRight_eq_div_pow, Nat.mul_comm k 8, Nat.pow_mul]

end File

/-- Reads of the register files: of each part of a word, and of aligned pairs of words. -/
theorem register_reads_consistent_iff (m : Memory) :
    (∀ d, m.virtioNet = some d → ∀ w k n, InWord w k → k + n ≤ 4 → m.ReadsPart VIRTIO_NET_MMIO_BASE w k n) ∧
    (∀ d, m.virtioBlk = some d → ∀ w k n, InWord w k → k + n ≤ 4 →
      (m.ReadsPart VIRTIO_MMIO_BASE w k n ↔ RepeatsAt (d.mmioRead (ofNat 64 w)) k n)) ∧
    (∀ d, m.virtioBlk2 = some d → ∀ w k n, InWord w k → k + n ≤ 4 →
      (m.ReadsPart VIRTIO_BLK2_MMIO_BASE w k n ↔ RepeatsAt (d.mmioRead (ofNat 64 w)) k n)) ∧
    (∀ w, w % 8 = 0 → w < 0x200 → (m.virtioNet.isSome → m.ReadsPair VIRTIO_NET_MMIO_BASE w) ∧
      (m.virtioBlk.isSome → m.ReadsPair VIRTIO_MMIO_BASE w) ∧
        (m.virtioBlk2.isSome → m.ReadsPair VIRTIO_BLK2_MMIO_BASE w)) := by
  have hnet {d : VirtioMmioNet} (hd : m.virtioNet = some d) : m.Answers VIRTIO_NET_MMIO_BASE d.mmioRead :=
    fun x n hx => read_net hd hx n
  have hblk {d : VirtioMmioBlk} (hd : m.virtioBlk = some d) : m.Answers VIRTIO_MMIO_BASE d.mmioRead :=
    fun x n hx => read_blk hd hx n
  have hblk2 {d : VirtioMmioBlk} (hd : m.virtioBlk2 = some d) : m.Answers VIRTIO_BLK2_MMIO_BASE d.mmioRead :=
    fun x n hx => read_blk2 hd hx n
  refine ⟨fun d hd w k n hw hn => (hnet hd).net hw hn, fun d hd w k n hw hn => (hblk hd).blk_iff hw hn,
    fun d hd w k n hw hn => (hblk2 hd).blk_iff hw hn, fun w haligned hinside => ⟨fun h => ?_, fun h => ?_, fun h => ?_⟩⟩
  · obtain ⟨d, hd⟩ := Option.isSome_iff_exists.mp h
    exact (hnet hd).readsPair haligned hinside
  · obtain ⟨d, hd⟩ := Option.isSome_iff_exists.mp h
    exact (hblk hd).readsPair haligned hinside
  · obtain ⟨d, hd⟩ := Option.isSome_iff_exists.mp h
    exact (hblk2 hd).readsPair haligned hinside

def withBlock : Memory where
  ram := ⟨fun _ => 0, 0x100000, fun _ => 0⟩
  lapic := none
  ioapic := .new
  virtioBlk := some ⟨⟨512, fun _ _ _ => none, fun _ _ _ => false, []⟩, 1, 0, 0, 0, (0, 0), 0, 0, .empty, false, 0, 0,
    false, none⟩
  virtioBlk2 := none
  virtioNet := none
  generation := 0

/-- The upper half of a zero register, and the capacity as one read. -/
theorem withBlock_reads :
    withBlock.ReadsPart VIRTIO_MMIO_BASE 0x70 2 2 ∧ withBlock.ReadsPair VIRTIO_MMIO_BASE 0x100 :=
  ⟨((register_reads_consistent_iff withBlock).2.1 _ rfl 0x70 2 2 ⟨by decide, by decide, by decide⟩ (by decide)).mpr
    (by decide),
    ((register_reads_consistent_iff withBlock).2.2.2 0x100 (by decide) (by decide)).2.1 rfl⟩

/-- The magic value read byte by byte: each is its first. -/
theorem magic_repeats_its_first_byte :
    withBlock.read VIRTIO_MMIO_BASE 4 = .ok [0x76, 0x69, 0x72, 0x74] ∧
      withBlock.read (VIRTIO_MMIO_BASE + 1) 1 = .ok [0x76] ∧
        withBlock.read (VIRTIO_MMIO_BASE + 2) 2 = .ok [0x76, 0x69] := by
  decide +kernel

end Memory

end Rish.SoftVm
