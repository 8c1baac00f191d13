/-
  Rish.SoftVm.Boot.Layout — where the boot loader puts things, and what is left of them.

  The writes of a load are fixed by the image, the initramfs and the parameters (`Layout.plan`). The initramfs is placed
  below the firmware window and the kernel's own limit, and rounded down to a page after its floor was checked. Nothing
  compares the other regions with each other: the kernel goes to the address its header names, and the command line is
  as long as it is.
-/

import Rish.Lib.Overlay
import Rish.SoftVm.Boot.BzImage
import Rish.SoftVm.LinearArea

namespace Rish.SoftVm.Boot

open Lib Cpu Memory List BitVec
open BitVec (ofNat)
open Exec (bind_eq_ok)

/-! ## Writes to RAM -/

def RegionWrite.patch (w : RegionWrite) : Patch Region := ⟨w.region, w.address.toNat, w.bytes⟩

theorem writeLapic_isSome (m : Memory) (a) (offset : U64) (bytes : List U8) :
    (m.writeLapic a offset bytes).lapic.isSome = true := by
  simp only [writeLapic]
  split
  · rfl
  · simp [forwardToLapic]

theorem ordinary_congr {m m' : Memory} (h : m'.lapic.isSome = m.lapic.isSome) (address : U64) :
    m'.ordinary address = m.ordinary address := by
  rw [ordinary, ordinary, h]

variable {address : U64} {bytes : List U8}

theorem write_device {m m' : Memory} (h : m.ordinary address = false)
    (hok : m.write address bytes = .ok m') : m'.ram = m.ram ∧ m'.lapic.isSome = m.lapic.isSome := by
  simp only [Memory.write] at hok
  split at hok
  · split at hok <;> cases hok <;> exact ⟨rfl, rfl⟩
  split at hok
  · split at hok <;> cases hok <;> exact ⟨rfl, rfl⟩
  split at hok
  · split at hok <;> cases hok <;> exact ⟨rfl, rfl⟩
  split at hok
  · obtain ⟨io, -, hok⟩ := Outcome.bind_eq_ok.mp hok
    cases hok
    exact ⟨rfl, rfl⟩
  next h2 hn hv hio =>
    have hlapic : inLapic address = true ∧ m.lapic.isSome = true := by simpa [ordinary, h2, hn, hv, hio] using h
    split at hok
    next a ha =>
      rw [if_pos hlapic.1] at hok
      cases hok
      exact ⟨m.writeLapic_ram _ _ _, (writeLapic_isSome m _ _ _).trans hlapic.2.symm⟩
    next ha =>
      rw [ha] at hlapic
      cases hlapic.2

theorem write_ordinary_ok {m m' : Memory} (h : m.ordinary address = true) (hok : m.write address bytes = .ok m') :
    m' = { m with ram := m.ram.store address.toNat bytes, generation := m.generation + 1 } := by
  rw [write_ordinary h, writeRam] at hok
  split at hok
  · cases hok
  split at hok
  · cases hok
  next hfit =>
    rw [Outcome.slice_ok (Nat.le_of_not_lt hfit)] at hok
    cases hok
    rfl

theorem memoryWrite_ok {c c' n}
    (h : memoryWrite address bytes c = ⟨.ok (), c', n⟩) : c.memory.write address bytes = .ok c'.memory := by
  unfold memoryWrite at h
  split at h
  next m hm =>
    cases h
    exact hm
  · cases h
  · cases h

theorem writeAll_append (ws ws') : writeAll (ws ++ ws') = (do writeAll ws; writeAll ws') := by
  induction ws with
  | nil => exact (pure_bind _ _).symm
  | cons w ws ih =>
    rw [List.cons_append, writeAll, writeAll, ih, bind_assoc]

variable {ws : List RegionWrite} {c c' : Cpu} {n : Nat} {m : Memory} {keep : Region → Bool}

theorem writeAll_overlay (hkeep : ∀ w ∈ ws, keep w.region = m.ordinary w.address)
    (hlapic : c.memory.lapic.isSome = m.lapic.isSome) (h : writeAll ws c = ⟨.ok (), c', n⟩) :
    c'.memory.ram.bytes = overlay c.memory.ram.bytes (kept keep (ws.map RegionWrite.patch)) := by
  induction ws generalizing c n with
  | nil =>
    cases h
    rfl
  | cons w ws ih =>
    obtain ⟨⟨⟩, c1, n1, k1, hwrite, hrest, -⟩ := bind_eq_ok h
    have hmemory := memoryWrite_ok hwrite
    have hw := hkeep w (mem_cons_self ..)
    have hrest := fun hlapic => ih (fun v hv => hkeep v (mem_cons_of_mem _ hv)) hlapic hrest
    rw [← ordinary_congr hlapic] at hw
    rw [map_cons, kept]
    cases hordinary : c.memory.ordinary w.address with
    | false =>
      rw [hordinary] at hw
      obtain ⟨hram, hsome⟩ := write_device hordinary hmemory
      rw [filter_cons_of_neg (by simp [RegionWrite.patch, hw]), hrest (hsome.trans hlapic), hram]
      rfl
    | true =>
      rw [hordinary] at hw
      have hstored := write_ordinary_ok hordinary hmemory
      rw [filter_cons_of_pos (by simp [RegionWrite.patch, hw]), hrest (hstored ▸ hlapic), hstored]
      rfl

theorem writeAll_succeeds (hram : ∀ w ∈ ws, c.memory.InRam w.address w.bytes.length) :
    ∃ c' n, writeAll ws c = ⟨.ok (), c', n⟩ := by
  induction ws generalizing c with
  | nil => exact ⟨c, 0, rfl⟩
  | cons w ws ih =>
    have hwrite := memoryWrite_ram (hram w (mem_cons_self ..))
    obtain ⟨c', n, hrest⟩ := ih (c := stored w.address.toNat w.bytes c) fun v hv => hram v (mem_cons_of_mem _ hv)
    refine ⟨c', 1 + n, ?_⟩
    rw [writeAll, Exec.bind_ok hwrite, hrest]
    rfl

/-! ## The plan of a load -/

/-- What the inputs of a load fix: the parsed header, the end of RAM and the place of the initramfs. -/
structure Layout (image : List U8) (initramfs : Option (List U8)) (params : BootParams) where
  header : Header
  ramEnd : U64
  initrd : U64 × List U8
  parsed : Header.parse image = .ok header
  complete : header.setupBytes ≤ image.length
  ram : ramBytes params.memoryMib = .ok ramEnd
  placed : placeInitramfs header ramEnd initramfs = .ok initrd
  above : 0x00100000 ≤ tableBase ramEnd

variable {image : List U8} {initramfs : Option (List U8)} {params : BootParams}

namespace Layout

variable (L : Layout image initramfs params)

/-- The writes in the loader's order. -/
def plan : List RegionWrite :=
  imageWrites L.header image ++ ([commandLineWrite params] ++ (initramfsWrites L.initrd ++
    (bootParamWrites L.initrd params.memoryMib ++ (e820Writes (tableBase L.ramEnd) ++ (acpiWrites L.ramEnd ++
      (pageTableWrites ++ gdtWrites))))))

theorem load_eq : load image initramfs params = (do
    writeAll L.plan
    let rip ← Exec.lift (Outcome.add L.header.kernelBase KERNEL_ENTRY_OFFSET)
    Exec.update fun c => { c with regs := entryRegisters params.memoryMib rip c.regs }) := by
  have hblob : ¬(Acpi.build (ofNat 64 (tableBase L.ramEnd))).blob.length > ACPI_RESERVED_BYTES := by
    rw [Acpi.build_blob_length]
    decide
  have habove := L.above
  simp only [load, L.parsed, Exec.lift_ok_bind]
  rw [if_neg (Nat.not_lt.mpr L.complete)]
  simp only [L.ram, L.placed, Exec.lift_ok_bind, writeE820Map, if_neg (Nat.not_lt.mpr habove), installAcpiTables,
    if_neg hblob, enterLongMode, plan, writeAll_append, bind_assoc]

end Layout

theorem load_layout (h : (load image initramfs params c).outcome = .ok ()) :
    Nonempty (Layout image initramfs params) := by
  obtain ⟨header, c1, n1, k1, hparse, h, -⟩ := bind_eq_ok (Run.eq_of_outcome h)
  split at h
  · cases h
  next hcomplete =>
    obtain ⟨⟨⟩, c2, n2, k2, -, h, -⟩ := bind_eq_ok h
    obtain ⟨⟨⟩, c3, n3, k3, -, h, -⟩ := bind_eq_ok h
    obtain ⟨ramEnd, c4, n4, k4, hram, h, -⟩ := bind_eq_ok h
    obtain ⟨initrd, c5, n5, k5, hplaced, h, -⟩ := bind_eq_ok h
    obtain ⟨⟨⟩, c6, n6, k6, -, h, -⟩ := bind_eq_ok h
    obtain ⟨⟨⟩, c7, n7, k7, -, h, -⟩ := bind_eq_ok h
    obtain ⟨⟨⟩, c8, n8, k8, he820, -, -⟩ := bind_eq_ok h
    have habove : 0x00100000 ≤ tableBase ramEnd := by
      unfold writeE820Map at he820
      split at he820
      · cases he820
      next h => exact Nat.le_of_not_lt h
    exact ⟨header, ramEnd, initrd, congrArg Run.outcome hparse, Nat.le_of_not_lt hcomplete, congrArg Run.outcome hram,
      congrArg Run.outcome hplaced, habove⟩

/-! ## The place of the initramfs -/

theorem alignDown_toNat (v) (h : v < 2 ^ 64) : (ofNat 64 v &&& ~~~0xFFF).toNat = v / 4096 * 4096 := by
  have hv : (ofNat 64 v).toNat = v := Nat.mod_eq_of_lt h
  have hsum := congrArg BitVec.toNat (page_add_offset (ofNat 64 v))
  have hle : (ofNat 64 v &&& ~~~0xFFF).toNat ≤ v := by
    rw [toNat_and, hv]
    exact Nat.and_le_left
  rw [toNat_add, pageOffset_toNat, hv] at hsum
  omega

namespace Layout

variable (L : Layout image initramfs params)

/-- The initramfs ends below the firmware window and the kernel's own limit. -/
def ceiling : Nat := min (tableBase L.ramEnd) (L.header.initrdAddrMax.toNat + 1)

/-- The end of the memory the kernel unpacks itself into. -/
def kernelEnd : Nat := L.header.kernelBase.toNat + L.header.initSize.toNat

theorem ceiling_lt : L.ceiling < 2 ^ 64 := by
  simp only [ceiling, tableBase]
  omega

theorem initrd_placed (h : L.initrd.2 ≠ []) :
    L.initrd.2.length ≤ L.ceiling ∧ INITRD_FLOOR ≤ L.ceiling - L.initrd.2.length ∧
      L.kernelEnd ≤ L.ceiling - L.initrd.2.length ∧
      L.initrd.1.toNat = (L.ceiling - L.initrd.2.length) / 4096 * 4096 := by
  have hplaced := L.placed
  unfold placeInitramfs at hplaced
  split at hplaced
  next b bytes =>
    obtain ⟨base, hbase, hinitrd⟩ := Outcome.bind_eq_ok.mp hplaced
    rw [← Outcome.ok.inj hinitrd]
    dsimp only
    simp only [initrdPlacement] at hbase
    split at hbase
    · cases hbase
    split at hbase
    · cases hbase
    next hfits =>
      have hlt := L.ceiling_lt
      have hrounded : base = ofNat 64 (L.ceiling - (b :: bytes).length) &&& ~~~0xFFF := (Outcome.ok.inj hbase).symm
      have hfit : ¬(L.ceiling < (b :: bytes).length ∨
          L.ceiling - (b :: bytes).length < max INITRD_FLOOR L.kernelEnd) := hfits
      have hplace := alignDown_toNat (L.ceiling - (b :: bytes).length) (by omega)
      rw [← hrounded] at hplace
      exact ⟨by omega, by omega, by omega, hplace⟩
  · exact absurd (congrArg Prod.snd (Outcome.ok.inj hplaced)).symm h

/-- Where the initramfs has to be. -/
structure WellPlaced : Prop where
  aligned : L.initrd.1.toNat % 4096 = 0
  aboveFloor : INITRD_FLOOR ≤ L.initrd.1.toNat
  aboveKernel : L.kernelEnd ≤ L.initrd.1.toNat
  belowTables : L.initrd.1.toNat + L.initrd.2.length ≤ tableBase L.ramEnd
  belowLimit : L.initrd.1.toNat + L.initrd.2.length ≤ L.header.initrdAddrMax.toNat + 1

def FitsRounded : Prop := (L.kernelEnd + 4095) / 4096 * 4096 + L.initrd.2.length ≤ L.ceiling

instance : Decidable L.FitsRounded := inferInstanceAs (Decidable (_ ≤ _))

theorem wellPlaced_iff (h : L.initrd.2 ≠ []) : L.WellPlaced ↔ L.FitsRounded := by
  obtain ⟨hsize, hfloor, hkernel, hbase⟩ := L.initrd_placed h
  have htables : L.ceiling ≤ tableBase L.ramEnd := Nat.min_le_left _ _
  have hlimit : L.ceiling ≤ L.header.initrdAddrMax.toNat + 1 := Nat.min_le_right _ _
  have hpage : INITRD_FLOOR = 65536 * 4096 := rfl
  unfold FitsRounded
  constructor
  · intro hplaced
    have habove := hplaced.aboveKernel
    omega
  · intro hfits
    exact ⟨by omega, by omega, by omega, by omega, by omega⟩

/-! ## The spans of the regions -/

def low : Region → Nat
  | .payload => L.header.kernelBase.toNat
  | .zeroPage => 0x10000
  | .commandLine => 0x20000
  | .initramfs => L.initrd.1.toNat
  | .acpi => tableBase L.ramEnd
  | .biosRsdp => 0xF0000
  | .pageTables => 0x50000
  | .gdt => 0x40000

/-- The header is copied into the zero page; the kernel, the command line and the initramfs are as long as they are. -/
def high : Region → Nat
  | .payload => L.header.kernelBase.toNat + (image.length - L.header.setupBytes)
  | .zeroPage => 0x11000
  | .commandLine => 0x20000 + (params.commandLine.length + 1)
  | .initramfs => L.initrd.1.toNat + L.initrd.2.length
  | .acpi => tableBase L.ramEnd + 564
  | .biosRsdp => 0xF0024
  | .pageTables => 0x74000
  | .gdt => 0x40020

/-- A write in its region. The widest region with more than one write is that of the page tables. -/
structure InSpan (w : RegionWrite) : Prop where
  above : L.low w.region ≤ w.address.toNat
  near : w.address.toNat ≤ L.low w.region + 0x24000
  below : w.address.toNat + w.bytes.length ≤ L.high w.region
  single : w.region = .payload ∨ w.region = .initramfs → w.address.toNat = L.low w.region

theorem zeroPage_inSpan {offset bytes} (h : offset.toNat + bytes.length ≤ 0x1000) :
    L.InSpan (zeroPage offset bytes) := by
  have haddress : (zeroPage offset bytes).address.toNat = 0x10000 + offset.toNat := by
    rw [zeroPage, toNat_add, show ZERO_PAGE_BASE.toNat = 0x10000 from rfl]
    omega
  constructor
  · rw [haddress]
    exact Nat.le_add_right _ _
  · rw [haddress]
    show 0x10000 + offset.toNat ≤ 0x10000 + 0x24000
    omega
  · rw [haddress]
    show 0x10000 + offset.toNat + bytes.length ≤ 0x11000
    omega
  · nofun

theorem imageWrites_inSpan : ∀ w ∈ imageWrites L.header image, L.InSpan w := by
  have hheader : L.InSpan (zeroPage 0x1F1 ((image.drop 0x1F1).take (min (L.header.setupBytes - 0x1F1) 0x100))) := by
    refine L.zeroPage_inSpan ?_
    rw [length_take]
    show 0x1F1 + _ ≤ _
    omega
  simp only [imageWrites, forall_mem_cons, not_mem_nil, false_imp_iff, implies_true, and_true]
  refine ⟨⟨Nat.le_refl _, Nat.le_add_right _ _, ?_, fun _ => rfl⟩, hheader⟩
  show _ + (image.drop L.header.setupBytes).length ≤ _
  rw [length_drop]
  exact Nat.le_refl _

theorem commandLine_inSpan : L.InSpan (commandLineWrite params) := by
  refine ⟨Nat.le_refl _, Nat.le_add_right _ _, ?_, nofun⟩
  show 0x20000 + (params.commandLine ++ [0]).length ≤ _
  rw [length_append]
  exact Nat.le_refl _

theorem initramfs_inSpan : ∀ w ∈ initramfsWrites L.initrd, L.InSpan w := by
  unfold initramfsWrites
  split
  · simp
  · simp only [mem_singleton, forall_eq]
    exact ⟨Nat.le_refl _, Nat.le_add_right _ _, Nat.le_refl _, fun _ => rfl⟩

theorem bootParams_inSpan : ∀ w ∈ bootParamWrites L.initrd params.memoryMib, L.InSpan w := by
  simp only [bootParamWrites, forall_mem_cons, not_mem_nil, false_imp_iff, implies_true, and_true]
  refine ⟨?_, ?_, ?_, ?_, ?_, ?_, ?_, ?_, ?_⟩ <;> exact L.zeroPage_inSpan (by simp [leBytes_length])

theorem e820_inSpan : ∀ w ∈ e820Writes (tableBase L.ramEnd), L.InSpan w := by
  simp only [e820Writes, e820Entries, e820Entry, mapIdx_cons, mapIdx_nil, flatten_cons, flatten_nil,
    append_nil, List.cons_append, nil_append, forall_mem_cons, not_mem_nil, false_imp_iff, implies_true,
    and_true]
  refine ⟨?_, ?_, ?_, ?_, ?_, ?_, ?_, ?_, ?_, ?_, ?_, ?_, ?_, ?_, ?_, ?_⟩ <;>
    exact L.zeroPage_inSpan (by simp [leBytes_length, E820_TABLE_OFFSET])

theorem tableBase_toNat : (ofNat 64 (tableBase L.ramEnd)).toNat = tableBase L.ramEnd := by
  have := L.ramEnd.isLt
  rw [toNat_ofNat, Nat.mod_eq_of_lt]
  unfold tableBase
  omega

theorem acpi_inSpan : ∀ w ∈ acpiWrites L.ramEnd, L.InSpan w := by
  simp only [acpiWrites, forall_mem_cons, not_mem_nil, false_imp_iff, implies_true, and_true]
  refine ⟨⟨?_, ?_, ?_, nofun⟩, ⟨?_, ?_, ?_, nofun⟩, L.zeroPage_inSpan (by simp [leBytes_length])⟩
  · exact Nat.le_of_eq L.tableBase_toNat.symm
  · exact (Nat.le_of_eq L.tableBase_toNat).trans (Nat.le_add_right _ _)
  · rw [Acpi.build_blob_length]
    exact Nat.le_of_eq (congrArg (· + 564) L.tableBase_toNat)
  · exact Nat.le_refl _
  · exact Nat.le_add_right _ _
  · rw [Acpi.build_rsdpCopy_length]
    exact Nat.le_refl _

theorem pageTable_inSpan {address entry} (hlow : 0x50000 ≤ address.toNat) (hhigh : address.toNat + 8 ≤ 0x74000) :
    L.InSpan (pageTable address entry) := by
  refine ⟨hlow, ?_, ?_, nofun⟩
  · show address.toNat ≤ 0x50000 + 0x24000
    omega
  · show address.toNat + (leBytes 8 entry.toNat).length ≤ 0x74000
    rw [leBytes_length]
    exact hhigh

theorem pageTables_inSpan : ∀ w ∈ pageTableWrites, L.InSpan w := by
  intro w hw
  rcases mem_cons.mp hw with rfl | hw
  · exact L.pageTable_inSpan (by decide) (by decide)
  obtain ⟨k, hk, hw⟩ := mem_flatMap.mp hw
  have hk := mem_range.mp hk
  rcases mem_cons.mp hw with rfl | hw
  · have haddress : (PDPT_BASE + ofNat 64 (k * 8)).toNat = 0x60000 + k * 8 := by
      rw [toNat_add, toNat_ofNat, show PDPT_BASE.toNat = 0x60000 from rfl]
      omega
    exact L.pageTable_inSpan (by omega) (by omega)
  · obtain ⟨slot, hslot, rfl⟩ := mem_map.mp hw
    have hslot := mem_range.mp hslot
    have haddress : (PD_BASE + ofNat 64 (k * 4096) + ofNat 64 (slot * 8)).toNat =
        0x70000 + k * 4096 + slot * 8 := by
      rw [toNat_add, toNat_add, toNat_ofNat, toNat_ofNat,
        show PD_BASE.toNat = 0x70000 from rfl]
      omega
    exact L.pageTable_inSpan (by omega) (by omega)

theorem descriptor_inSpan {address} (d) (hlow : 0x40000 ≤ address.toNat) (hhigh : address.toNat + 8 ≤ 0x40020) :
    L.InSpan ⟨.gdt, address, leBytes 8 d⟩ := by
  refine ⟨hlow, ?_, ?_, nofun⟩
  · show address.toNat ≤ 0x40000 + 0x24000
    omega
  · show address.toNat + (leBytes 8 d).length ≤ 0x40020
    rw [leBytes_length]
    exact hhigh

theorem gdt_inSpan : ∀ w ∈ gdtWrites, L.InSpan w := by
  simp only [gdtWrites, forall_mem_cons, not_mem_nil, false_imp_iff, implies_true, and_true]
  refine ⟨?_, ?_, ?_⟩ <;> exact L.descriptor_inSpan _ (by decide) (by decide)

theorem plan_inSpan : ∀ w ∈ L.plan, L.InSpan w := by
  simp only [plan, forall_mem_append, forall_mem_singleton]
  exact ⟨L.imageWrites_inSpan, L.commandLine_inSpan, L.initramfs_inSpan, L.bootParams_inSpan, L.e820_inSpan,
    L.acpi_inSpan, L.pageTables_inSpan, L.gdt_inSpan⟩

/-- The writes as pieces of memory. -/
def patches : List (Patch Region) := L.plan.map RegionWrite.patch

theorem agree_of_disjoint (h : ∀ r r', r ≠ r' → L.high r ≤ L.low r' ∨ L.high r' ≤ L.low r) : Agree L.patches := by
  refine agree_of_spans L.low L.high ?_ h
  intro p hp
  obtain ⟨w, hw, rfl⟩ := mem_map.mp hp
  have hspan := L.plan_inSpan w hw
  exact ⟨hspan.above, hspan.below⟩

/-! ## What reaches RAM -/

/-- The kernel and the initramfs go where the header and the size say, and that may be a device. -/
def inRam (m : Memory) : Region → Bool
  | .payload => m.ordinary L.header.kernelBase
  | .initramfs => m.ordinary L.initrd.1
  | _ => true

theorem ramEnd_toNat : L.ramEnd.toNat = params.memoryMib.toNat * 1048576 := by
  have hram := L.ram
  unfold ramBytes at hram
  split at hram
  next hfits =>
    rw [← Outcome.ok.inj hram, toNat_mul, toNat_mul]
    show params.memoryMib.toNat * 1024 % 2 ^ 64 * 1024 % 2 ^ 64 = _
    omega
  · cases hram

theorem InSpan.outside {w} (h : L.InSpan w) (hpayload : w.region ≠ .payload)
    (hinitramfs : w.region ≠ .initramfs) : m.ordinary w.address = true := by
  refine eq_true_of_ne_false fun hdevice => ?_
  have hwindow := device_window hdevice
  obtain ⟨hlow, hnear, hhigh, -⟩ := h
  cases hregion : w.region with
  | payload => exact hpayload hregion
  | initramfs => exact hinitramfs hregion
  | acpi =>
    rw [hregion] at hlow hhigh
    have hlow : tableBase L.ramEnd ≤ w.address.toNat := hlow
    have hhigh : w.address.toNat + w.bytes.length ≤ tableBase L.ramEnd + 564 := hhigh
    have habove := L.above
    have hend := L.ramEnd_toNat
    simp only [tableBase, ACPI_RESERVED_BYTES] at hlow hhigh habove
    omega
  | zeroPage | commandLine | biosRsdp | pageTables | gdt =>
    rw [hregion] at hnear
    simp only [low] at hnear
    omega

theorem plan_inRam : ∀ w ∈ L.plan, L.inRam m w.region = m.ordinary w.address := by
  intro w hw
  have hspan := L.plan_inSpan w hw
  by_cases hpayload : w.region = .payload
  · have hstart := hspan.single (.inl hpayload)
    rw [hpayload] at hstart ⊢
    rw [inRam, eq_of_toNat_eq hstart]
  by_cases hinitramfs : w.region = .initramfs
  · have hstart := hspan.single (.inr hinitramfs)
    rw [hinitramfs] at hstart ⊢
    rw [inRam, eq_of_toNat_eq hstart]
  rw [hspan.outside L hpayload hinitramfs]
  cases hregion : w.region <;> first | rfl | contradiction

/-- What a load should leave: the initramfs in its bounds, and every region in RAM as its own writes left it. -/
structure Correct (ram : Bytes) : Prop where
  initramfs : L.initrd.2 ≠ [] → L.WellPlaced
  regions : ∀ region, ReadsBack ram L.patches region

/-- A region whose writes go to a device is in RAM before, but for what other regions write. -/
def AlreadyThere (m : Memory) : Prop :=
  ∀ region a v, L.inRam m region = false → lastAt (part region L.patches) a = some v →
    lastAt (kept (L.inRam m) L.patches) a = none → m.ram.bytes a = v

theorem load_ram (h : (load image initramfs params c).outcome = .ok ()) :
    (load image initramfs params c).state.memory.ram.bytes =
      overlay c.memory.ram.bytes (kept (L.inRam c.memory) L.patches) := by
  rw [L.load_eq] at h ⊢
  have hrun := Run.eq_of_outcome h
  obtain ⟨⟨⟩, c1, n1, k1, hwrites, hrest, -⟩ := bind_eq_ok hrun
  obtain ⟨rip, c2, n2, k2, hrip, hregs, -⟩ := bind_eq_ok hrest
  have hsame : c2 = c1 := (congrArg Run.state hrip).symm
  have hmemory := congrArg (fun r => r.state.memory.ram.bytes) hregs
  rw [patches, ← writeAll_overlay L.plan_inRam rfl hwrites, ← hsame]
  exact hmemory.symm

theorem load_ok (hkernel : c.memory.ordinary L.header.kernelBase = true) (hinitrd : c.memory.ordinary L.initrd.1 = true)
    (hfit : ∀ region, L.high region ≤ c.memory.ram.len.toNat)
    (hentry : L.header.kernelBase.toNat + KERNEL_ENTRY_OFFSET.toNat < 2 ^ 64) :
    (load image initramfs params c).outcome = .ok () := by
  have hregion (region : Region) : L.inRam c.memory region = true := by
    cases region <;> first | exact hkernel | exact hinitrd | rfl
  have hram : ∀ w ∈ L.plan, c.memory.InRam w.address w.bytes.length := by
    intro w hw
    refine ⟨(L.plan_inRam w hw).symm.trans (hregion w.region), ?_⟩
    exact (L.plan_inSpan w hw).below.trans (hfit w.region)
  obtain ⟨c', n, hwrites⟩ := writeAll_succeeds hram
  rw [L.load_eq, Exec.bind_ok hwrites, Outcome.add, if_pos hentry]
  rfl

theorem unique (M : Layout image initramfs params) : L = M := by
  obtain ⟨header, ramEnd, initrd, hparsed, -, hram, hplaced, -⟩ := L
  obtain ⟨header', ramEnd', initrd', hparsed', -, hram', hplaced', -⟩ := M
  cases hparsed.symm.trans hparsed'
  cases hram.symm.trans hram'
  cases hplaced.symm.trans hplaced'
  rfl

end Layout

/-- A load that returns leaves the layout it should exactly when the initramfs still fits over the kernel's end rounded
    up to a page, regions that share an address agree, and what went to a device was in RAM already. -/
theorem boot_layout_iff (h : (load image initramfs params c).outcome = .ok ()) :
    ∃ L : Layout image initramfs params, L.Correct (load image initramfs params c).state.memory.ram.bytes ↔
      (L.initrd.2 ≠ [] → L.FitsRounded) ∧ Agree L.patches ∧ L.AlreadyThere c.memory := by
  obtain ⟨L⟩ := load_layout h
  refine ⟨L, ?_⟩
  have hregions := readsBack_iff (L.inRam c.memory) c.memory.ram.bytes L.patches
  rw [L.load_ram h]
  constructor
  · intro hcorrect
    exact ⟨fun hsome => (L.wellPlaced_iff hsome).mp (hcorrect.initramfs hsome), hregions.mp hcorrect.regions⟩
  · rintro ⟨hfits, hagree⟩
    exact ⟨fun hsome => (L.wellPlaced_iff hsome).mpr (hfits hsome), hregions.mpr hagree⟩

/-! ## A kernel of two bytes -/

variable (prefAddress : U64) (initSize : U32)

/-- A bzImage of boot protocol 2.15 with one setup sector and an initramfs limit of 2 GiB. -/
def smallImage : List U8 :=
  List.replicate 0x1F1 0 ++ [1] ++ List.replicate 12 0 ++
    [0x55, 0xAA, 0xEB, 0x6A, 0x48, 0x64, 0x72, 0x53, 0x0F, 0x02] ++
    List.replicate 36 0 ++ [0xFF, 0xFF, 0xFF, 0x7F] ++ List.replicate 40 0 ++ leBytes 8 prefAddress.toNat ++
    leBytes 4 initSize.toNat ++ List.replicate 412 0 ++ [0x90, 0x90]

theorem smallImage_length : (smallImage prefAddress initSize).length = 1026 := by
  simp only [smallImage, length_append, length_replicate, leBytes_length, length_cons, length_nil]

def smallHeader : Header :=
  ⟨1, 0x020F, 0, 0, 0, initSize, 0, 0, prefAddress, 0x7FFFFFFF⟩

section

variable
  (hparsed : Header.parse (smallImage prefAddress initSize) = .ok (smallHeader prefAddress initSize))
  (hplaced : placeInitramfs (smallHeader prefAddress initSize) 0x20000000 (some (List.replicate 16 7)) =
    .ok (0x1FFDF000, List.replicate 16 7))

/-- 512 MiB, no command line and an initramfs of 16 bytes. -/
def smallLayout : Layout (smallImage prefAddress initSize) (some (List.replicate 16 7)) ⟨[], 512⟩ where
  header := smallHeader prefAddress initSize
  ramEnd := 0x20000000
  initrd := (0x1FFDF000, List.replicate 16 7)
  parsed := hparsed
  complete := by
    simp only [smallImage_length, smallHeader, Header.setupBytes]
    decide
  ram := by decide
  placed := hplaced
  above := by decide

def roomyCpu : Cpu := Cpu.new { Memory.withLapic with ram := ⟨fun _ => 0, 0x20000000, fun _ => 0⟩ } 0 0 false

variable {prefAddress initSize}

theorem smallLayout_high_payload : (smallLayout prefAddress initSize hparsed hplaced).high .payload =
    (smallHeader prefAddress initSize).kernelBase.toNat + 2 := by
  simp only [Layout.high, smallLayout, smallImage_length, Header.setupBytes, smallHeader]
  rfl

include hparsed hplaced in
theorem smallImage_loads (hlow : (smallHeader prefAddress initSize).kernelBase.toNat ≤ 0x1000000) :
    (load (smallImage prefAddress initSize) (some (List.replicate 16 7)) ⟨[], 512⟩ roomyCpu).outcome = .ok () := by
  have hlen : roomyCpu.memory.ram.len.toNat = 0x20000000 := rfl
  have hinitrd : roomyCpu.memory.ordinary 0x1FFDF000 = true := by decide
  refine (smallLayout prefAddress initSize hparsed hplaced).load_ok ?_ hinitrd ?_ ?_
  · refine eq_true_of_ne_false fun hdevice => ?_
    have hwindow := device_window hdevice
    simp only [smallLayout] at hwindow
    omega
  · intro region
    rw [hlen]
    cases region with
    | payload =>
      rw [smallLayout_high_payload]
      omega
    | _ =>
      simp only [Layout.high, smallLayout]
      decide
  · have hoffset : KERNEL_ENTRY_OFFSET.toNat = 0x200 := rfl
    simp only [smallLayout]
    omega

end

def fittingLayout : Layout (smallImage 0x1000000 0x1000000) (some (List.replicate 16 7)) ⟨[], 512⟩ :=
  smallLayout 0x1000000 0x1000000 (by decide +kernel) (by decide)

theorem fittingLayout_agrees : Agree fittingLayout.patches := by
  have hpayload : fittingLayout.high .payload = 0x1000002 := smallLayout_high_payload _ _
  refine fittingLayout.agree_of_disjoint ?_
  intro r r' hne
  cases r <;> cases r' <;> first | exact absurd rfl hne | (rw [hpayload]; decide) | decide

theorem small_kernel_layout :
    (load (smallImage 0x1000000 0x1000000) (some (List.replicate 16 7)) ⟨[], 512⟩ roomyCpu).outcome = .ok () ∧
      ∃ L : Layout (smallImage 0x1000000 0x1000000) (some (List.replicate 16 7)) ⟨[], 512⟩,
        L.Correct (load (smallImage 0x1000000 0x1000000) (some (List.replicate 16 7)) ⟨[], 512⟩
          roomyCpu).state.memory.ram.bytes := by
  have hload := smallImage_loads fittingLayout.parsed fittingLayout.placed (by decide)
  obtain ⟨L, hcorrect⟩ := boot_layout_iff hload
  refine ⟨hload, L, hcorrect.mpr ?_⟩
  rw [L.unique fittingLayout]
  refine ⟨fun _ => by decide, fittingLayout_agrees, ?_⟩
  intro region a v hdevice
  cases region <;> cases hdevice

def roundedLayout : Layout (smallImage 0x1000000 0x1EFDF800) (some (List.replicate 16 7)) ⟨[], 512⟩ :=
  smallLayout 0x1000000 0x1EFDF800 (by decide +kernel) (by decide)

def lowLayout : Layout (smallImage 0x40000 0x1000000) (some (List.replicate 16 7)) ⟨[], 512⟩ :=
  smallLayout 0x40000 0x1000000 (by decide +kernel) (by decide)

/-- The initramfs half a page inside the kernel's region, and a kernel under the GDT: both loads return. -/
theorem initramfs_in_kernel_region :
    ((load (smallImage 0x1000000 0x1EFDF800) (some (List.replicate 16 7)) ⟨[], 512⟩ roomyCpu).outcome = .ok () ∧
      roundedLayout.initrd.1 = 0x1FFDF000 ∧ roundedLayout.kernelEnd = 0x1FFDF800) ∧
    (load (smallImage 0x40000 0x1000000) (some (List.replicate 16 7)) ⟨[], 512⟩ roomyCpu).outcome = .ok () ∧
      ¬∀ region, ReadsBack (load (smallImage 0x40000 0x1000000) (some (List.replicate 16 7)) ⟨[], 512⟩
        roomyCpu).state.memory.ram.bytes lowLayout.patches region := by
  have hrounded := smallImage_loads roundedLayout.parsed roundedLayout.placed (by decide)
  have hlow := smallImage_loads lowLayout.parsed lowLayout.placed (by decide)
  refine ⟨⟨hrounded, rfl, rfl⟩, hlow, ?_⟩
  intro hregions
  rw [lowLayout.load_ram hlow] at hregions
  have hagree := ((readsBack_iff _ _ _).mp hregions).1
  have hsame := hagree .payload .gdt 0x40000 0x90 0 (by decide +kernel) (by decide +kernel)
  cases hsame

end Rish.SoftVm.Boot
