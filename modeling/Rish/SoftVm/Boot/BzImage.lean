/-
  Rish.SoftVm.Boot.BzImage — the bzImage boot loader with the 64-bit boot protocol.

  It parses the setup header, writes the kernel, the zero page, the command line, the initramfs, the firmware tables,
  the identity map and the boot GDT into guest memory, and leaves the CPU in long mode at the entry point. Every write
  is tagged with the region it belongs to. The header's fields are whatever the image holds.
-/

import Rish.SoftVm.Boot.Acpi
import Rish.SoftVm.Boot.Gdt
import Rish.SoftVm.Cpu

namespace Rish.SoftVm.Boot

open Lib Cpu
open BitVec (ofNat)

def ZERO_PAGE_BASE : U64 := 0x10000
def CMDLINE_BASE : U64 := 0x20000
def STACK_BASE : U64 := 0x90000
def KERNEL_BASE : U64 := 0x100000
def KERNEL_ENTRY_OFFSET : U64 := 0x200
def INITRD_FLOOR : Nat := 0x10000000
def GDT_BASE : U64 := 0x40000
def PML4_BASE : U64 := 0x50000
def PDPT_BASE : U64 := 0x60000
def PD_BASE : U64 := 0x70000
def HDRS_MAGIC : U32 := 0x53726448
def BOOT_FLAG : U16 := 0xAA55
def LOADFLAG_LOADED_HIGH : U8 := 0x01
def LOADFLAG_KEEP_SEGMENTS : U8 := 0x40
def LOADFLAG_CAN_USE_HEAP : U8 := 0x80
def CR0_LONG_MODE : U64 := 0x80000033
def E820_RAM : U32 := 1
def E820_RESERVED : U32 := 2
def E820_ACPI_TABLES : U32 := 3
def E820_TABLE_OFFSET : U64 := 0x2D0
def ACPI_RESERVED_BYTES : Nat := 128 * 1024

structure BootParams where
  commandLine : List U8
  memoryMib : U64

/-! ## The setup header -/

structure Header where
  setupSectors : U8
  version : U16
  code32Start : U32
  relocatableKernel : U8
  kernelAlignment : U32
  initSize : U32
  payloadOffset : U32
  payloadLength : U32
  prefAddress : U64
  /-- Highest address the initramfs may occupy. -/
  initrdAddrMax : U32
  deriving DecidableEq, Repr

/-- The little-endian field of `n` bytes at an offset from the start of the setup header. -/
def headerField (image : List U8) (offset n : Nat) : Nat := leNat ((image.drop (0x1F1 + offset)).take n)

def Header.parse (image : List U8) : Outcome CpuError Header :=
  if image.length < 512 + 0x80 then .err (.invalidConfig "kernel image is too small for a bzImage")
  else
    let bootFlag : U16 := ofNat 16 (headerField image 0x0D 2)
    let magic : U32 := ofNat 32 (headerField image 0x11 4)
    let version : U16 := ofNat 16 (headerField image 0x15 2)
    if bootFlag ≠ BOOT_FLAG then
      .err (.invalidConfig ("kernel boot flag is " ++ hex bootFlag ++ ", expected " ++ hex BOOT_FLAG))
    else if magic ≠ HDRS_MAGIC then
      .err (.invalidConfig ("kernel image has no HdrS magic (found " ++ hex magic ++ ")"))
    else if version < 0x0200 then
      .err (.invalidConfig ("boot protocol " ++ hex version ++ " is too old; 2.00+ is required"))
    else
      .ok
        { setupSectors := ofNat 8 (headerField image 0 1)
          version
          code32Start := ofNat 32 (headerField image 0x23 4)
          relocatableKernel := ofNat 8 (headerField image 0x43 1)
          kernelAlignment := ofNat 32 (headerField image 0x3F 4)
          initSize := ofNat 32 (headerField image 0x6F 4)
          payloadOffset := ofNat 32 (headerField image 0x57 4)
          payloadLength := ofNat 32 (headerField image 0x5B 4)
          prefAddress := ofNat 64 (headerField image 0x67 8)
          initrdAddrMax := if 0x0203 ≤ version then ofNat 32 (headerField image 0x3B 4) else 0x37FFFFFF }

namespace Header

variable (header : Header)

def setupBytes : Nat := header.setupSectors.toNat * 512 + 512

def kernelBase : U64 := if header.prefAddress ≠ 0 then header.prefAddress else KERNEL_BASE

end Header

/-! ## Writes -/

inductive Region where
  | payload | zeroPage | commandLine | initramfs | acpi | biosRsdp | pageTables | gdt
  deriving DecidableEq, Repr

structure RegionWrite where
  region : Region
  address : U64
  bytes : List U8

def writeAll : List RegionWrite → CpuM Unit
  | [] => return ()
  | w :: ws => do
    memoryWrite w.address w.bytes
    writeAll ws

def zeroPage (offset : U64) (bytes : List U8) : RegionWrite := ⟨.zeroPage, ZERO_PAGE_BASE + offset, bytes⟩

variable (header : Header)

/-- The payload to the end of the image, and the setup header alone into the zero page. -/
def imageWrites (image : List U8) : List RegionWrite :=
  [⟨.payload, header.kernelBase, image.drop header.setupBytes⟩,
   zeroPage 0x1F1 ((image.drop 0x1F1).take (min (header.setupBytes - 0x1F1) 0x100))]

def commandLineWrite (params : BootParams) : RegionWrite := ⟨.commandLine, CMDLINE_BASE, params.commandLine ++ [0]⟩

/-- Bytes of RAM the parameters promise. The product is not checked. -/
def ramBytes (memoryMib : U64) : Outcome CpuError U64 :=
  if memoryMib.toNat * 1024 * 1024 < 2 ^ 64 then .ok (memoryMib * 1024 * 1024) else .panic

/-- As high as the kernel and the installed RAM allow, rounded down to a page. -/
def initrdPlacement (kernelBase ramEnd : U64) (size : Nat) : Outcome CpuError U64 :=
  let ceiling := min (ramEnd.toNat - ACPI_RESERVED_BYTES) (header.initrdAddrMax.toNat + 1)
  if kernelBase.toNat + header.initSize.toNat ≥ 2 ^ 64 then .panic
  else
    let floor := max INITRD_FLOOR (kernelBase.toNat + header.initSize.toNat)
    if ceiling < size ∨ ceiling - size < floor then
      .err (.invalidConfig ("initramfs of " ++ toString size ++ " bytes does not fit between " ++
        hex (ofNat 64 floor) ++ " and " ++ hex (ofNat 64 ceiling) ++ "; give the guest more memory"))
    else .ok (ofNat 64 (ceiling - size) &&& ~~~0xFFF)

/-- The address and the size the zero page announces; an empty initramfs is none. -/
def placeInitramfs (ramEnd : U64) : Option (List U8) → Outcome CpuError (U64 × List U8)
  | some (b :: bytes) => do
    let base ← initrdPlacement header header.kernelBase ramEnd (b :: bytes).length
    return (base, b :: bytes)
  | _ => .ok (0, [])

def initramfsWrites (initrd : U64 × List U8) : List RegionWrite :=
  if initrd.2 = [] then [] else [⟨.initramfs, initrd.1, initrd.2⟩]

def bootParamWrites (initrd : U64 × List U8) (memoryMib : U64) : List RegionWrite :=
  [zeroPage 0x210 [0xFF],
   zeroPage 0x211 [LOADFLAG_LOADED_HIGH ||| LOADFLAG_KEEP_SEGMENTS ||| LOADFLAG_CAN_USE_HEAP],
   zeroPage 0x218 (leBytes 4 initrd.1.toNat),
   zeroPage 0x21C (leBytes 4 initrd.2.length),
   zeroPage 0x0C0 (leBytes 4 (initrd.1 >>> 32).toNat),
   zeroPage 0x0C4 (leBytes 4 0),
   zeroPage 0x224 (leBytes 2 0xFE00),
   zeroPage 0x228 (leBytes 4 CMDLINE_BASE.toNat),
   zeroPage 0x1E0 (leBytes 4 (min (memoryMib.toNat * 1024) (2 ^ 64 - 1) - 1024))]

/-- Low memory, the EBDA, the BIOS area, RAM above 1 MiB and the firmware window. -/
def e820Entries (tableBase : Nat) : List (Nat × Nat × U32) :=
  [(0x00000000, 0x0009FC00, E820_RAM), (0x0009FC00, 0x00000400, E820_RESERVED), (0x000F0000, 0x00010000, E820_RESERVED),
   (0x00100000, tableBase - 0x00100000, E820_RAM), (tableBase, ACPI_RESERVED_BYTES, E820_ACPI_TABLES)]

def e820Entry (index : Nat) (entry : Nat × Nat × U32) : List RegionWrite :=
  let offset := E820_TABLE_OFFSET + ofNat 64 (index * 20)
  [zeroPage offset (leBytes 8 entry.1), zeroPage (offset + 8) (leBytes 8 entry.2.1),
   zeroPage (offset + 16) (leBytes 4 entry.2.2.toNat)]

def e820Writes (tableBase : Nat) : List RegionWrite :=
  zeroPage 0x1E8 [ofNat 8 (e820Entries tableBase).length] ::
    ((e820Entries tableBase).mapIdx e820Entry).flatten

variable (ramEnd : U64)

/-- The top of RAM without the firmware window. -/
def tableBase : Nat := ramEnd.toNat - ACPI_RESERVED_BYTES

/-- The difference of the RAM above 1 MiB is not checked. -/
def writeE820Map : CpuM Unit :=
  if tableBase ramEnd < 0x00100000 then Exec.lift .panic else writeAll (e820Writes (tableBase ramEnd))

def acpiWrites : List RegionWrite :=
  let tables := Acpi.build (ofNat 64 (tableBase ramEnd))
  [⟨.acpi, tables.blobAddress, tables.blob⟩, ⟨.biosRsdp, Acpi.RSDP_BIOS_AREA, tables.rsdpCopy⟩,
   zeroPage 0x070 (leBytes 8 tables.rsdpAddress.toNat)]

def installAcpiTables : CpuM Unit :=
  if (Acpi.build (ofNat 64 (tableBase ramEnd))).blob.length > ACPI_RESERVED_BYTES then
    Exec.fail (.invalidConfig "ACPI tables exceed the reserved window")
  else writeAll (acpiWrites ramEnd)

/-! ## Long mode -/

def pageTable (address : U64) (entry : U64) : RegionWrite := ⟨.pageTables, address, leBytes 8 entry.toNat⟩

/-- One gigabyte: its directory's entry and 512 pages of 2 MiB. -/
def directoryWrites (k : Nat) : List RegionWrite :=
  let pd := PD_BASE + ofNat 64 (k * 4096)
  pageTable (PDPT_BASE + ofNat 64 (k * 8)) (pd ||| 0x3) ::
    (List.range 512).map fun slot =>
      pageTable (pd + ofNat 64 (slot * 8)) (ofNat 64 (k * (512 * 0x200000) + slot * 0x200000) ||| 0x83)

def pageTableWrites : List RegionWrite :=
  pageTable PML4_BASE (PDPT_BASE ||| 0x3) :: (List.range 4).flatMap directoryWrites

def gdtWrites : List RegionWrite :=
  [⟨.gdt, GDT_BASE, leBytes 8 0⟩, ⟨.gdt, GDT_BASE + 0x10, leBytes 8 (encodeDescriptor bootCs).toNat⟩,
   ⟨.gdt, GDT_BASE + 0x18, leBytes 8 (encodeDescriptor bootDs).toNat⟩]

/-- The registers at the 64-bit entry: paging on, boot segments, RSI at the zero page, interrupts off. -/
def entryRegisters (memoryMib rip : U64) (r : Registers) : Registers :=
  let flat : SegmentRegister := SegmentRegister.unloaded
  let r := { r with
    gdtBase := GDT_BASE
    gdtLimit := 0x27
    cr4 := Cr4.PAE
    efer := Efer.LME ||| Efer.SCE ||| Efer.NXE ||| Efer.LMA
    cr3 := PML4_BASE
    cr0 := Cr0.fromBitsTruncate CR0_LONG_MODE
    cs := bootCs.load ⟨0x10⟩
    ds := bootDs.load ⟨0x18⟩
    es := bootDs.load ⟨0x18⟩
    ss := bootDs.load ⟨0x18⟩
    fs := flat
    gs := flat
    rip
    rflags := 0 }
  ((r.setGpr index.RSP STACK_BASE).setGpr index.RSI ZERO_PAGE_BASE).setGpr index.RBX (memoryMib * 1024 * 1024)

def enterLongMode (memoryMib kernelBase : U64) : CpuM Unit := do
  writeAll pageTableWrites
  writeAll gdtWrites
  let rip ← Exec.lift (Outcome.add kernelBase KERNEL_ENTRY_OFFSET)
  Exec.update fun c => { c with regs := entryRegisters memoryMib rip c.regs }

/-! ## The loader -/

def load (image : List U8) (initramfs : Option (List U8)) (params : BootParams) : CpuM Unit := do
  let header ← Exec.lift (Header.parse image)
  if image.length < header.setupBytes then
    Exec.fail (.invalidConfig ("bzImage is " ++ toString image.length ++ " bytes, setup section needs " ++
      toString header.setupBytes))
  else
    writeAll (imageWrites header image)
    writeAll [commandLineWrite params]
    let ramEnd ← Exec.lift (ramBytes params.memoryMib)
    let initrd ← Exec.lift (placeInitramfs header ramEnd initramfs)
    writeAll (initramfsWrites initrd)
    writeAll (bootParamWrites initrd params.memoryMib)
    writeE820Map ramEnd
    installAcpiTables ramEnd
    enterLongMode params.memoryMib header.kernelBase

end Rish.SoftVm.Boot
