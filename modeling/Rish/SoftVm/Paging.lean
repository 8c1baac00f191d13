/-
  Rish.SoftVm.Paging — linear-to-physical translation: 32-bit non-PAE, PAE, 4-level and 5-level.

  `walk` reads the tables without any privilege check and `checkAccess` applies the access rules to
  its result, so that a cached walk can be checked again. A walk is a program over the memory that
  changes nothing; its table reads are counted.

  Proved: a translation keeps the offset in the page (`physical_offset`). A walk leaves the memory
  (`walk_state`), reads at most five entries and depends on the 4 KiB page of the address only, up to
  the address its fault reports (`walk_page`).
-/

import Rish.Lib.Rules
import Rish.SoftVm.Memory
import Rish.SoftVm.Registers

namespace Rish.SoftVm

open Lib
open Exec (mapErr_bind mapErr_pure mapErr_ite mapErr_fail)

def PAGE_PRESENT : U64 := 1#64 <<< 0
def PAGE_WRITABLE : U64 := 1#64 <<< 1
def PAGE_USER : U64 := 1#64 <<< 2
def PAGE_LARGE : U64 := 1#64 <<< 7
def PAGE_NX : U64 := 1#64 <<< 63
def TABLE_MASK : U64 := 0x000FFFFFFFFFF000

inductive AccessKind where
  | read | write | execute
  deriving DecidableEq, Repr

structure PageFault where
  linear : U64
  /-- bit0 P, bit1 W, bit2 U/S, bit3 RSVD, bit4 I/D -/
  errorCode : U16
  deriving DecidableEq, Repr

def FAULT_PRESENT : U16 := 1#16 <<< 0
def FAULT_WRITE : U16 := 1#16 <<< 1
def FAULT_USER : U16 := 1#16 <<< 2
def FAULT_RESERVED : U16 := 1#16 <<< 3
def FAULT_FETCH : U16 := 1#16 <<< 4

/-- One completed walk: the frame and the permissions accumulated over the levels. A page is at least
    4 KiB, so the low twelve bits of an address go through. -/
structure Translation where
  frame : U64
  pageSize : U64
  writable : Bool
  user : Bool
  noExecute : Bool
  frameAligned : frame &&& 0xFFF = 0
  sizeCovers : (pageSize - 1) &&& 0xFFF = 0xFFF
  deriving DecidableEq

namespace Translation

variable (t : Translation)

def physical (linear : U64) : U64 := t.frame ||| (linear &&& (t.pageSize - 1))

/-- The permission bits of one level added to a running translation. -/
def accumulate (entry : U64) : Translation :=
  { t with
    writable := t.writable && entry &&& PAGE_WRITABLE != 0
    user := t.user && entry &&& PAGE_USER != 0
    noExecute := t.noExecute || entry &&& PAGE_NX != 0 }

theorem zero_aligned : (0 : U64) &&& 0xFFF = 0 := by decide

theorem small_page_covers : ((0x1000 : U64) - 1) &&& 0xFFF = 0xFFF := by decide

/-- A 4 KiB page with every right. -/
def permissive : Translation := ⟨0, 0x1000, true, true, false, zero_aligned, small_page_covers⟩

theorem aligned_of_mask (x : U64) {mask : U64} (h : mask &&& 0xFFF = 0) : x &&& mask &&& 0xFFF = 0 := by
  rw [BitVec.and_assoc, h]
  exact BitVec.and_zero

/-- The entry of a page of `2 ^ shift` bytes, which is 21 or 30. -/
def largePage (entry : U64) (shift : Nat) (covers : ((1#64 <<< shift) - 1 + 1 - 1) &&& 0xFFF = 0xFFF) : Translation :=
  let mask := (1#64 <<< shift) - 1
  { t with
    pageSize := mask + 1, frame := entry &&& ~~~mask &&& TABLE_MASK, frameAligned := aligned_of_mask _ (by decide)
    sizeCovers := covers }

theorem physical_offset (linear : U64) : t.physical linear &&& 0xFFF = linear &&& 0xFFF := by
  have hframe : (0xFFF : U64) &&& t.frame = 0 := by rw [BitVec.and_comm, t.frameAligned]
  have hoffset : (0xFFF : U64) &&& (linear &&& (t.pageSize - 1)) = linear &&& 0xFFF := by
    rw [BitVec.and_comm, BitVec.and_assoc, t.sizeCovers]
  rw [physical, BitVec.and_comm, BitVec.and_or_distrib_left, hframe, hoffset]
  exact BitVec.zero_or

end Translation

/-! ## The walk -/

abbrev Walk := Exec Memory PageFault

def reservedFault (linear : U64) : PageFault := ⟨linear, FAULT_PRESENT ||| FAULT_RESERVED⟩

/-- Present is all an entry has to be: no physical-address bit is treated as reserved. -/
def validateEntry (entry linear : U64) : Outcome PageFault U64 :=
  if entry &&& PAGE_PRESENT = 0 then .err ⟨linear, 0⟩ else .ok entry

def readEntry (address linear : U64) : Walk U64 :=
  Exec.query 1 fun m => do
    let entry ← (m.readU64 address).mapErr fun _ => ⟨linear, 0⟩
    validateEntry entry linear

/-- A 32-bit (non-PAE) entry, which has no bit 63. -/
def readEntry32 (address linear : U64) : Walk U64 :=
  Exec.query 1 fun m => do
    let entry ← (m.readU32 address).mapErr fun _ => ⟨linear, 0⟩
    validateEntry (entry.setWidth 64) linear

def tableIndex (linear : U64) (shift : Nat) : U64 := (linear >>> shift) &&& 0x1FF

variable (t : Translation)

/-- A level that may not map a large page. -/
def tableLevel (table linear : U64) (shift : Nat) : Walk (Translation × U64) := do
  let entry ← readEntry ((table &&& TABLE_MASK) + tableIndex linear shift * 8) linear
  if entry &&& PAGE_LARGE != 0 then Exec.fail (reservedFault linear)
  else return (t.accumulate entry, entry)

/-- The last level: a 4 KiB page. -/
def pageLevel (table linear : U64) : Walk Translation := do
  let entry ← readEntry ((table &&& TABLE_MASK) + tableIndex linear 12 * 8) linear
  return { t.accumulate entry with
    frame := entry &&& TABLE_MASK &&& ~~~0xFFF, frameAligned := Translation.aligned_of_mask _ (by decide) }

/-- The level above the last: a 2 MiB page, or a table of 4 KiB pages. -/
def directoryLevel (table linear : U64) : Walk Translation := do
  let entry ← readEntry ((table &&& TABLE_MASK) + tableIndex linear 21 * 8) linear
  if entry &&& PAGE_LARGE != 0 then return (t.accumulate entry).largePage entry 21 (by decide)
  else pageLevel (t.accumulate entry) entry linear

def pointerLevel (table linear : U64) : Walk Translation := do
  let entry ← readEntry ((table &&& TABLE_MASK) + tableIndex linear 30 * 8) linear
  if entry &&& PAGE_LARGE != 0 then return (t.accumulate entry).largePage entry 30 (by decide)
  else directoryLevel (t.accumulate entry) entry linear

def walkGeneric (cr3 linear : U64) (fiveLevel : Bool) : Walk Translation :=
  if fiveLevel then do
    let top ← tableLevel .permissive cr3 linear 48
    let pml4 ← tableLevel top.1 top.2 linear 39
    pointerLevel pml4.1 pml4.2 linear
  else do
    let pml4 ← tableLevel .permissive cr3 linear 39
    pointerLevel pml4.1 pml4.2 linear

/-- PAE: the four top entries carry no permission bits. -/
def walkPae32 (cr3 linear : U64) : Walk Translation := do
  let entry ← readEntry ((cr3 &&& 0xFFFFFFE0) + ((linear >>> 30) &&& 0b11) * 8) linear
  if entry &&& PAGE_LARGE != 0 then Exec.fail (reservedFault linear)
  else directoryLevel .permissive entry linear

def walk2Level (cr3 cr4 linear : U64) : Walk Translation := do
  let entry ← readEntry32 ((cr3 &&& 0xFFFFF000) + ((linear >>> 22) &&& 0x3FF) * 4) linear
  let t := Translation.permissive.accumulate entry
  if entry &&& PAGE_LARGE != 0 then
    if !contains cr4 Cr4.PSE then Exec.fail (reservedFault linear)
    else return { t with
      pageSize := 0x400000, frame := entry &&& 0xFFC00000, frameAligned := Translation.aligned_of_mask _ (by decide)
      sizeCovers := by decide }
  else
    let entry ← readEntry32 ((entry &&& 0xFFFFF000) + ((linear >>> 12) &&& 0x3FF) * 4) linear
    return { t.accumulate entry with
      frame := entry &&& 0xFFFFF000, frameAligned := Translation.aligned_of_mask _ (by decide) }

def walk (cr3 cr4 efer linear : U64) : Walk Translation :=
  if contains efer Efer.LMA then walkGeneric cr3 linear (contains cr4 Cr4.LA57)
  else if contains cr4 Cr4.PAE then walkPae32 cr3 linear
  else walk2Level cr3 cr4 linear

/-! ## Access rules -/

def accessBits (kind : AccessKind) (cpl : Nat) : U16 :=
  (if kind = .write then FAULT_WRITE else 0) ||| (if kind = .execute then FAULT_FETCH else 0) |||
    (if cpl = 3 then FAULT_USER else 0)

def withAccessBits (fault : PageFault) (kind : AccessKind) (cpl : Nat) : PageFault :=
  { fault with errorCode := fault.errorCode ||| accessBits kind cpl }

/-- Whether the rules refuse an access to a page with these permissions. -/
def denied (kind : AccessKind) (cpl : Nat) (cr0 cr4 efer : U64) (alignmentCheck : Bool) : Bool :=
  let user := cpl = 3
  (user && !t.user) ||
  (match kind with
    -- supervisor writes ignore the read-only bit unless CR0.WP is set
    | .write => (user || contains cr0 Cr0.WP) && !t.writable
    | .execute => (contains efer Efer.NXE && t.noExecute) || (!user && contains cr4 Cr4.SMEP && t.user)
    | .read => false) ||
  -- SMAP blocks supervisor data access to user pages while AC is clear
  (!user && kind != .execute && contains cr4 Cr4.SMAP && t.user && !alignmentCheck)

def checkAccess (linear : U64) (kind : AccessKind) (cpl : Nat) (cr0 cr4 efer : U64)
    (alignmentCheck : Bool) : Except PageFault Unit :=
  if denied t kind cpl cr0 cr4 efer alignmentCheck then
    .error ⟨linear, FAULT_PRESENT ||| accessBits kind cpl⟩
  else .ok ()

/-! ## What a walk depends on -/

section Frame

variable (t : Translation) (address table cr3 cr4 efer linear : U64) (shift : Nat)

instance : Keeps Eq (readEntry address linear) := by unfold readEntry; infer_instance
instance : Keeps Eq (readEntry32 address linear) := by unfold readEntry32; infer_instance
instance : Keeps Eq (tableLevel t table linear shift) := by unfold tableLevel; infer_instance
instance : Keeps Eq (pageLevel t table linear) := by unfold pageLevel; infer_instance
instance : Keeps Eq (directoryLevel t table linear) := by unfold directoryLevel; infer_instance
instance : Keeps Eq (pointerLevel t table linear) := by unfold pointerLevel; infer_instance
instance (fiveLevel) : Keeps Eq (walkGeneric cr3 linear fiveLevel) := by unfold walkGeneric; infer_instance
instance : Keeps Eq (walkPae32 cr3 linear) := by unfold walkPae32; infer_instance
instance : Keeps Eq (walk2Level cr3 cr4 linear) := by unfold walk2Level; infer_instance
instance : Keeps Eq (walk cr3 cr4 efer linear) := by unfold walk; infer_instance

end Frame

theorem walk_state (cr3 cr4 efer linear m) : (walk cr3 cr4 efer linear m).state = m :=
  (Keeps.keeps (R := Eq) m).symm

def PageFault.at (linear : U64) (fault : PageFault) : PageFault := { fault with linear }

/-! A fault carries the address of the access; nothing else of a walk sees below bit 12. -/
section Page

variable {linear linear' : U64}

theorem shiftRight_page (h : linear >>> 12 = linear' >>> 12) {shift} (hs : 12 ≤ shift) :
    linear >>> shift = linear' >>> shift := by
  rw [← Nat.add_sub_of_le hs, BitVec.shiftRight_add, BitVec.shiftRight_add, h]

theorem tableIndex_page (h : linear >>> 12 = linear' >>> 12) {shift} (hs : 12 ≤ shift) :
    tableIndex linear shift = tableIndex linear' shift := by
  rw [tableIndex, tableIndex, shiftRight_page h hs]

theorem readEntry_page (linear linear' address) :
    readEntry address linear' = (readEntry address linear).mapErr (.at linear') := by
  funext m
  simp only [readEntry, Exec.query_apply, Exec.mapErr_apply]
  congr 1
  rcases m.readU64 address with entry | e | _
  · simp only [Outcome.mapErr, Outcome.bind_ok, validateEntry]
    split <;> rfl
  · rfl
  · rfl

theorem readEntry32_page (linear linear' address) :
    readEntry32 address linear' = (readEntry32 address linear).mapErr (.at linear') := by
  funext m
  simp only [readEntry32, Exec.query_apply, Exec.mapErr_apply]
  congr 1
  rcases m.readU32 address with entry | e | _
  · simp only [Outcome.mapErr, Outcome.bind_ok, validateEntry]
    split <;> rfl
  · rfl
  · rfl

section

variable (h : linear >>> 12 = linear' >>> 12)
include h

theorem pageLevel_page (t : Translation) (table : U64) :
    pageLevel t table linear' = (pageLevel t table linear).mapErr (.at linear') := by
  simp only [pageLevel, mapErr_bind, mapErr_pure, readEntry_page linear linear',
    tableIndex_page h (Nat.le_refl 12)]

theorem directoryLevel_page (t : Translation) (table : U64) :
    directoryLevel t table linear' = (directoryLevel t table linear).mapErr (.at linear') := by
  simp only [directoryLevel, mapErr_bind, mapErr_pure, mapErr_ite, ← pageLevel_page h,
    readEntry_page linear linear', tableIndex_page h (show 12 ≤ 21 by decide)]

theorem pointerLevel_page (t : Translation) (table : U64) :
    pointerLevel t table linear' = (pointerLevel t table linear).mapErr (.at linear') := by
  simp only [pointerLevel, mapErr_bind, mapErr_pure, mapErr_ite, ← directoryLevel_page h,
    readEntry_page linear linear', tableIndex_page h (show 12 ≤ 30 by decide)]

theorem tableLevel_page {shift} (hs : 12 ≤ shift) (t)
    (table) : tableLevel t table linear' shift = (tableLevel t table linear shift).mapErr (.at linear') := by
  simp only [tableLevel, mapErr_bind, mapErr_pure, mapErr_fail, mapErr_ite,
    readEntry_page linear linear', tableIndex_page h hs]
  rfl

theorem walkGeneric_page (cr3 : U64) (fiveLevel : Bool) :
    walkGeneric cr3 linear' fiveLevel = (walkGeneric cr3 linear fiveLevel).mapErr (.at linear') := by
  simp only [walkGeneric, mapErr_ite, mapErr_bind, tableLevel_page h (show 12 ≤ 39 by decide),
    tableLevel_page h (show 12 ≤ 48 by decide), pointerLevel_page h]

theorem walkPae32_page (cr3) : walkPae32 cr3 linear' = (walkPae32 cr3 linear).mapErr (.at linear') := by
  simp only [walkPae32, mapErr_bind, mapErr_fail, mapErr_ite, ← directoryLevel_page h,
    readEntry_page linear linear', shiftRight_page h (show 12 ≤ 30 by decide)]
  rfl

theorem walk2Level_page (cr3 cr4) :
    walk2Level cr3 cr4 linear' = (walk2Level cr3 cr4 linear).mapErr (.at linear') := by
  simp only [walk2Level, mapErr_bind, mapErr_fail, mapErr_ite, mapErr_pure,
    readEntry32_page linear linear', shiftRight_page h (show 12 ≤ 22 by decide), h]
  rfl

theorem walk_page (cr3 cr4 efer) :
    walk cr3 cr4 efer linear' = (walk cr3 cr4 efer linear).mapErr (.at linear') := by
  simp only [walk, mapErr_ite, walkGeneric_page h, walkPae32_page h, walk2Level_page h]

end

end Page

end Rish.SoftVm
