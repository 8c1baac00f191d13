/-
  Rish.SoftVm.Boot.Gdt — the entries the boot loader writes into the boot GDT.

  A descriptor has its base in three pieces of the 64-bit entry and its limit in two, and every attribute has one bit,
  the four type bits also together. `encodeDescriptor` puts them there, `Descriptor.decode` takes them out.
-/

import Rish.Lib.Words
import Rish.SoftVm.Registers

namespace Rish.SoftVm.Boot

open Lib BitVec Nat
open BitVec (ofNat)
open Descriptor (decode)

def setIf (flag : Bool) (bit : Nat) (entry : U64) : U64 := if flag then entry ||| (1#64 <<< bit) else entry

variable (d : Descriptor)

/-- The limit as the encoder stores it: in pages for a granular segment. -/
def shiftedLimit : U32 := if d.granularity then d.limit >>> 12 else d.limit

def encodeDescriptor : U64 :=
  let entry : U64 := (d.base &&& 0xFF000000) <<< 32
  let entry := entry ||| ((d.base &&& 0x00FF0000) <<< 16)
  let entry := entry ||| ((d.base &&& 0xFFFF) <<< 16)
  let limit := shiftedLimit d
  let entry := entry ||| ((limit &&& 0xF).setWidth 64 <<< 48)
  let entry := entry ||| (limit &&& 0xFFFF).setWidth 64
  let entry := setIf d.granularity 55 entry
  let entry := setIf d.default32 54 entry
  let entry := setIf d.longMode 53 entry
  let entry := setIf d.present 47 entry
  let entry := entry ||| ((ofNat 64 d.dpl &&& 0b11) <<< 45)
  let entry := entry ||| ((ofNat 64 d.descriptorType &&& 0xF) <<< 40)
  let entry := setIf d.code 43 entry
  let entry := setIf d.conforming 42 entry
  let entry := setIf d.expandDown 42 entry
  let entry := setIf d.writableOrReadable 41 entry
  setIf d.accessed 40 entry

/-- `__BOOT_CS`: flat, execute and read. -/
def bootCs : Descriptor where
  base := 0
  limit := 0xFFFFF
  granularity := true
  default32 := false
  longMode := true
  present := true
  dpl := 0
  system := false
  descriptorType := 0b1010
  code := true
  conforming := false
  expandDown := false
  writableOrReadable := true
  accessed := false

/-- `__BOOT_DS`: flat, read and write. -/
def bootDs : Descriptor :=
  { bootCs with longMode := false, descriptorType := 0b0010, code := false }

/-! ## The bits of an encoded entry -/

theorem setIf_getLsbD (flag bit entry i) :
    (setIf flag bit entry).getLsbD i = (entry.getLsbD i || (flag && decide (i = bit ∧ i < 64))) := by
  cases flag with
  | false => simp [setIf]
  | true =>
    rw [setIf, if_pos rfl, ← twoPow_eq, getLsbD_or, getLsbD_twoPow]
    grind

theorem encodeDescriptor_getLsbD {i} (hi : i < 64) : (encodeDescriptor d).getLsbD i =
    ((decide (56 ≤ i ∧ i < 64) && d.base.getLsbD (i - 32)) ||
    (decide (32 ≤ i ∧ i < 40) && d.base.getLsbD (i - 16)) ||
    (decide (16 ≤ i ∧ i < 32) && d.base.getLsbD (i - 16)) ||
    (decide (48 ≤ i ∧ i < 52) && (shiftedLimit d).getLsbD (i - 48)) ||
    (decide (0 ≤ i ∧ i < 16) && (shiftedLimit d).getLsbD i) ||
    (d.granularity && decide (i = 55)) || (d.default32 && decide (i = 54)) || (d.longMode && decide (i = 53)) ||
    (d.present && decide (i = 47)) ||
    (decide (45 ≤ i ∧ i < 47) && d.dpl.testBit (i - 45)) ||
    (decide (40 ≤ i ∧ i < 44) && d.descriptorType.testBit (i - 40)) ||
    (d.code && decide (i = 43)) || (d.conforming && decide (i = 42)) || (d.expandDown && decide (i = 42)) ||
    (d.writableOrReadable && decide (i = 41)) || (d.accessed && decide (i = 40))) := by
  have hbase2 : ((d.base &&& 0xFF000000) <<< 32).getLsbD i = _ := getLsbD_field_shiftLeft d.base 8 24 32 hi
  have hbase1 : ((d.base &&& 0x00FF0000) <<< 16).getLsbD i = _ := getLsbD_field_shiftLeft d.base 8 16 16 hi
  have hbase0 : ((d.base &&& 0xFFFF) <<< 16).getLsbD i = _ := getLsbD_field_shiftLeft d.base 16 0 16 hi
  have hnibble : (shiftedLimit d &&& 0xF).setWidth 64 = (shiftedLimit d).setWidth 64 &&& 0xF := setWidth_and
  have hword : (shiftedLimit d &&& 0xFFFF).setWidth 64 = (shiftedLimit d).setWidth 64 &&& 0xFFFF := setWidth_and
  have hlimit1 : (((shiftedLimit d).setWidth 64 &&& 0xF) <<< 48).getLsbD i = _ :=
    getLsbD_field_shiftLeft ((shiftedLimit d).setWidth 64) 4 0 48 hi
  have hlimit0 : ((shiftedLimit d).setWidth 64 &&& 0xFFFF).getLsbD i = _ :=
    getLsbD_and_field ((shiftedLimit d).setWidth 64) 16 0 i
  have hdpl : ((ofNat 64 d.dpl &&& 0b11) <<< 45).getLsbD i = _ :=
    getLsbD_field_shiftLeft (ofNat 64 d.dpl) 2 0 45 hi
  have htype : ((ofNat 64 d.descriptorType &&& 0xF) <<< 40).getLsbD i = _ :=
    getLsbD_field_shiftLeft (ofNat 64 d.descriptorType) 4 0 40 hi
  have hlt : ∀ k, i - k < 64 := fun k => by omega
  unfold encodeDescriptor
  simp only [setIf_getLsbD, getLsbD_or, hnibble, hword, hbase2, hbase1, hbase0, hlimit1, hlimit0, hdpl, htype,
    getLsbD_setWidth, getLsbD_ofNat, hi, hlt]
  simp only [decide_true, Bool.true_and, Nat.reduceAdd, Nat.zero_le, true_and, and_true, Bool.and_comm, Nat.zero_add]

section Pieces

variable (d : Descriptor) {i : Nat}

theorem encodeDescriptor_base_low (hi : i < 24) : (encodeDescriptor d).getLsbD (i + 16) = d.base.getLsbD i := by
  rw [encodeDescriptor_getLsbD d (by omega), Nat.add_sub_cancel]
  grind

theorem encodeDescriptor_base_high (hlo : 24 ≤ i) (hi : i < 32) :
    (encodeDescriptor d).getLsbD (i + 32) = d.base.getLsbD i := by
  rw [encodeDescriptor_getLsbD d (by omega), Nat.add_sub_cancel]
  grind

theorem encodeDescriptor_limit_low (hi : i < 16) : (encodeDescriptor d).getLsbD i = (shiftedLimit d).getLsbD i := by
  rw [encodeDescriptor_getLsbD d (by omega)]
  grind

theorem encodeDescriptor_limit_high (hlo : 16 ≤ i) (hi : i < 20) :
    (encodeDescriptor d).getLsbD (i + 32) = (shiftedLimit d).getLsbD (i - 16) := by
  rw [encodeDescriptor_getLsbD d (by omega), show i + 32 - 48 = i - 16 by omega]
  grind

theorem encodeDescriptor_system : (encodeDescriptor d).getLsbD 44 = false := by
  rw [encodeDescriptor_getLsbD d (by decide)]
  simp

end Pieces

/-! ## The fields of a decoded entry -/

section Decode

variable (entry : U64) {i : Nat}

theorem decode_base_getLsbD (hi : i < 64) : (decode entry).base.getLsbD i =
    (decide (i < 32) && if i < 24 then entry.getLsbD (i + 16) else entry.getLsbD (i + 32)) := by
  have h2 : ∀ j, (entry &&& 0xFF00000000000000).getLsbD j = _ := getLsbD_and_field entry 8 56
  have h1 : ∀ j, (entry &&& 0x000000FF00000000).getLsbD j = _ := getLsbD_and_field entry 8 32
  have h0 : ((entry >>> 16) &&& 0xFFFF).getLsbD i = _ := getLsbD_and_field (entry >>> 16) 16 0 i
  unfold decode
  simp only [getLsbD_or, getLsbD_ushiftRight, h2, h1, h0]
  grind

theorem decode_limit_getLsbD (i) : (decode entry).limit.getLsbD i =
    if i < 16 then entry.getLsbD i else decide (i < 20) && entry.getLsbD (i + 32) := by
  have h1 : ∀ j, ((entry >>> 48) &&& 0xF).getLsbD j = _ := getLsbD_and_field (entry >>> 48) 4 0
  have h0 : ∀ j, (entry &&& 0xFFFF).getLsbD j = _ := getLsbD_and_field entry 16 0
  have hlimit : (decode entry).limit =
      (((entry >>> 48) &&& 0xF).setWidth 32 <<< 16) ||| (entry &&& 0xFFFF).setWidth 32 :=
    congrArg (· ||| _) (mul_twoPow_eq_shiftLeft _ 16)
  rw [hlimit]
  simp only [getLsbD_or, getLsbD_shiftLeft, getLsbD_setWidth, h1, h0, getLsbD_ushiftRight]
  grind

theorem decode_dpl_testBit (k) :
    (decode entry).dpl.testBit k = (entry.getLsbD (45 + k) && decide (k < 2)) := by
  have h : ((entry >>> 45) &&& 0b11).getLsbD k = _ := getLsbD_and_field (entry >>> 45) 2 0 k
  refine Eq.trans h ?_
  simp [getLsbD_ushiftRight]

theorem decode_type_testBit (k) :
    (decode entry).descriptorType.testBit k = (entry.getLsbD (40 + k) && decide (k < 4)) := by
  have h : ((entry >>> 40) &&& 0xF).getLsbD k = _ := getLsbD_and_field (entry >>> 40) 4 0 k
  refine Eq.trans h ?_
  simp [getLsbD_ushiftRight]

end Decode

/-! ## The round trip -/

/-- The attribute bits of an entry that its encoding keeps. -/
def attributeBits : List Nat := [40, 41, 42, 43, 45, 46, 47, 53, 54, 55]

theorem encodeDescriptor_attribute (entry) {i} (h : i ∈ attributeBits) :
    (encodeDescriptor (decode entry)).getLsbD i = entry.getLsbD i := by
  simp only [attributeBits, List.mem_cons, List.not_mem_nil, or_false] at h
  rw [encodeDescriptor_getLsbD _ (by omega), decode_dpl_testBit, decode_type_testBit]
  obtain h | h | h | h | h | h | h | h | h | h := h
  all_goals subst h; simp [decode]

theorem decode_base_encodeDescriptor (entry) :
    (decode (encodeDescriptor (decode entry))).base = (decode entry).base := by
  refine eq_of_getLsbD_eq fun i hi => ?_
  rw [decode_base_getLsbD _ hi, decode_base_getLsbD entry hi]
  by_cases hlow : i < 24
  · rw [if_pos hlow, if_pos hlow, encodeDescriptor_base_low _ hlow, decode_base_getLsbD entry hi, if_pos hlow]
    simp
  · rw [if_neg hlow, if_neg hlow]
    by_cases hhigh : i < 32
    · rw [encodeDescriptor_base_high _ (by omega) hhigh, decode_base_getLsbD entry hi, if_neg hlow]
      simp
    · simp [hhigh]

variable (d : Descriptor)

/-- The limit that is read back: its high four bits are copies of its low four. -/
def storedLimit : U32 := ((shiftedLimit d &&& 0xF) <<< 16) ||| (shiftedLimit d &&& 0xFFFF)

theorem storedLimit_getLsbD {i} (hi : i < 32) : (storedLimit d).getLsbD i =
    if i < 16 then (shiftedLimit d).getLsbD i else decide (i < 20) && (shiftedLimit d).getLsbD (i - 16) := by
  have h1 : ((shiftedLimit d &&& 0xF) <<< 16).getLsbD i = _ := getLsbD_field_shiftLeft (shiftedLimit d) 4 0 16 hi
  have h0 : (shiftedLimit d &&& 0xFFFF).getLsbD i = _ := getLsbD_and_field (shiftedLimit d) 16 0 i
  rw [storedLimit, getLsbD_or, h1, h0]
  grind

theorem decode_limit_encodeDescriptor : (decode (encodeDescriptor d)).limit = storedLimit d := by
  refine eq_of_getLsbD_eq fun i hi => ?_
  rw [decode_limit_getLsbD, storedLimit_getLsbD _ hi]
  by_cases hlow : i < 16
  · rw [if_pos hlow, if_pos hlow, encodeDescriptor_limit_low _ hlow]
  · rw [if_neg hlow, if_neg hlow]
    by_cases hhigh : i < 20
    · rw [encodeDescriptor_limit_high _ (by omega) hhigh]
    · simp [hhigh]

theorem decode_encodeDescriptor (entry) : decode (encodeDescriptor (decode entry)) =
      { decode entry with system := true, limit := storedLimit (decode entry) } := by
  have hdpl : (decode (encodeDescriptor (decode entry))).dpl = (decode entry).dpl := by
    refine eq_of_testBit_eq fun k => ?_
    rw [decode_dpl_testBit, decode_dpl_testBit]
    by_cases hk : k < 2
    · have hmem : 45 + k ∈ attributeBits := by
        obtain rfl | rfl : k = 0 ∨ k = 1 := by omega
        all_goals decide
      rw [encodeDescriptor_attribute entry hmem]
    · simp [hk]
  have htype : (decode (encodeDescriptor (decode entry))).descriptorType =
      (decode entry).descriptorType := by
    refine eq_of_testBit_eq fun k => ?_
    rw [decode_type_testBit, decode_type_testBit]
    by_cases hk : k < 4
    · have hmem : 40 + k ∈ attributeBits := by
        obtain rfl | rfl | rfl | rfl : k = 0 ∨ k = 1 ∨ k = 2 ∨ k = 3 := by omega
        all_goals decide
      rw [encodeDescriptor_attribute entry hmem]
    · simp [hk]
  have hbit : ∀ i ∈ attributeBits, (encodeDescriptor (decode entry)).getLsbD i = entry.getLsbD i :=
    fun i hi => encodeDescriptor_attribute entry hi
  rw [Descriptor.mk.injEq]
  exact ⟨decode_base_encodeDescriptor entry, decode_limit_encodeDescriptor _, hbit 55 (by decide), hbit 54 (by decide),
    hbit 53 (by decide), hbit 47 (by decide), hdpl, congrArg not (encodeDescriptor_system _), htype,
      hbit 43 (by decide),
    hbit 42 (by decide), hbit 42 (by decide), hbit 41 (by decide), hbit 40 (by decide)⟩

/-- A limit that the encoder stores as it is. -/
def LimitSurvives : Prop := if d.granularity then d.limit = 0 else d.limit >>> 16 = d.limit &&& 0xF

instance : Decidable (LimitSurvives d) :=
  inferInstanceAs (Decidable (if d.granularity then d.limit = 0 else d.limit >>> 16 = d.limit &&& 0xF))

theorem decode_limit_lt (entry) : (decode entry).limit.toNat < 2 ^ 20 := by
  refine lt_pow_two_of_testBit _ fun i hi => ?_
  have h := decode_limit_getLsbD entry i
  rw [if_neg (by omega), decide_eq_false (by omega), Bool.false_and] at h
  exact h

theorem storedLimit_toNat :
    (storedLimit d).toNat = (shiftedLimit d).toNat % 2 ^ 4 * 2 ^ 16 + (shiftedLimit d).toNat % 2 ^ 16 := by
  have hlow : (shiftedLimit d &&& 0xFFFF).toNat = (shiftedLimit d).toNat % 2 ^ 16 := by
    rw [toNat_and]
    exact and_two_pow_sub_one_eq_mod _ 16
  have hhigh : ((shiftedLimit d &&& 0xF) <<< 16).toNat = (shiftedLimit d).toNat % 2 ^ 4 * 2 ^ 16 := by
    have hnibble : (shiftedLimit d &&& 0xF).toNat = (shiftedLimit d).toNat % 2 ^ 4 := by
      rw [toNat_and]
      exact and_two_pow_sub_one_eq_mod _ 4
    rw [toNat_shiftLeft, hnibble, Nat.shiftLeft_eq]
    omega
  rw [storedLimit, toNat_or, hlow, hhigh, ← Nat.shiftLeft_eq,
    ← shiftLeft_add_eq_or_of_lt (mod_lt _ (by decide))]

theorem storedLimit_eq_iff {d} (h : d.limit.toNat < 2 ^ 20) : storedLimit d = d.limit ↔ LimitSurvives d := by
  have hshift : ∀ k, (d.limit >>> k).toNat = d.limit.toNat / 2 ^ k := fun k => by
    rw [toNat_ushiftRight, shiftRight_eq_div_pow]
  have hnibble : (d.limit &&& 0xF).toNat = d.limit.toNat % 2 ^ 4 := by
    rw [toNat_and]
    exact and_two_pow_sub_one_eq_mod _ 4
  have hzero : d.limit = 0 ↔ d.limit.toNat = 0 := toNat_eq
  unfold LimitSurvives
  rw [toNat_eq, storedLimit_toNat, shiftedLimit]
  by_cases hg : d.granularity = true
  · rw [if_pos hg, if_pos hg, hshift, hzero]
    constructor
    · intro hsame
      have hpages : d.limit.toNat / 2 ^ 12 < 2 ^ 8 := by omega
      rw [mod_eq_of_lt (b := 2 ^ 16) (by omega)] at hsame
      generalize hlow : d.limit.toNat / 2 ^ 12 % 2 ^ 4 = low at hsame
      -- the page count is sixteen times its last four bits
      have hsixteen : d.limit.toNat / 2 ^ 12 = 16 * low := by omega
      omega
    · intro hnone
      rw [hnone]
      rfl
  · rw [if_neg hg, if_neg hg, toNat_eq, hshift, hnibble]
    omega

/-- A decoded descriptor comes back from its encoding only if it is a system one, so a code or data descriptor never. -/
theorem encodeDescriptor_roundTrip_iff (entry : U64) :
    decode (encodeDescriptor (decode entry)) = decode entry ↔
      (decode entry).system = true ∧ LimitSurvives (decode entry) := by
  rw [decode_encodeDescriptor, ← storedLimit_eq_iff (decode_limit_lt entry)]
  constructor
  · intro h
    exact ⟨(congrArg Descriptor.system h).symm, congrArg Descriptor.limit h⟩
  · rintro ⟨hsystem, hlimit⟩
    rw [Descriptor.mk.injEq]
    exact ⟨rfl, hlimit, rfl, rfl, rfl, rfl, rfl, hsystem.symm, rfl, rfl, rfl, rfl, rfl, rfl⟩

/-- The boot code segment is a descriptor that can be decoded, and reloads as a system segment with another limit. -/
theorem bootCs_not_reloaded :
    decode 0x00AF9A000000FFFF = bootCs ∧
      (decode (encodeDescriptor bootCs)).system = true ∧
      (decode (encodeDescriptor bootCs)).limit = 0xF00FF := by
  decide

end Rish.SoftVm.Boot
