/-
  Rish.SoftVm.Boot.Acpi — the firmware tables the boot loader puts into guest memory.

  One blob of tables at a base address: DSDT, FACS, FADT, MADT, XSDT and the RSDP, each behind the last at its
  alignment, and a second copy of the RSDP for the legacy search area. The base is at least 128 KiB below the end of
  the address space, so no address inside the blob wraps.

  Proved: the blob has one length, whatever the base (`build_blob_length`).
-/

import Rish.SoftVm.Apic

namespace Rish.SoftVm.Boot.Acpi

open Lib List

/-- `RISHVM` -/
def OEM_ID : List U8 := [0x52, 0x49, 0x53, 0x48, 0x56, 0x4D]
/-- `RISHSOFT` -/
def OEM_TABLE_ID : List U8 := [0x52, 0x49, 0x53, 0x48, 0x53, 0x4F, 0x46, 0x54]
/-- `RISH` -/
def CREATOR_ID : List U8 := [0x52, 0x49, 0x53, 0x48]

def RSDP_BIOS_AREA : U64 := 0xF0000
def PM_BASE : U16 := 0x600

structure AcpiTables where
  rsdpAddress : U64
  blobAddress : U64
  blob : List U8
  rsdpCopy : List U8

def alignUp (offset : Nat) : Nat := (offset + 15) / 16 * 16

/-- Pads with zeros to an offset at or behind the end. -/
def resize (blob : List U8) (offset : Nat) : List U8 := blob ++ List.replicate (offset - blob.length) 0

def put (body : List U8) (start : Nat) (field : List U8) : List U8 :=
  body.take start ++ field ++ body.drop (start + field.length)

def sum (bytes : List U8) : U8 := bytes.foldl (· + ·) 0

def checksum (bytes : List U8) : U8 := -sum bytes

def sdt (signature : List U8) (revision : U8) (payload : List U8) : List U8 :=
  let table := signature ++ leBytes 4 (36 + payload.length) ++ [revision, 0] ++ OEM_ID ++ OEM_TABLE_ID ++ leBytes 4 1 ++
    CREATOR_ID ++ leBytes 4 1 ++ payload
  table.set 9 (checksum table)

/-- The first checksum is over the first twenty bytes, the second over all. -/
def rsdp (xsdtAddress : U64) : List U8 :=
  let table : List U8 := [0x52, 0x53, 0x44, 0x20, 0x50, 0x54, 0x52, 0x20, 0] ++ OEM_ID ++ [2] ++ leBytes 4 0 ++
    leBytes 4 36 ++
    leBytes 8 xsdtAddress.toNat ++ [0, 0, 0, 0]
  let table := table.set 8 (checksum (table.take 20))
  table.set 32 (checksum table)

/-- Offsets are absolute; the body starts behind the 36-byte header. -/
def fadt (facsAddress dsdtAddress : U64) : List U8 :=
  let field (abs : Nat) (bytes : List U8) (body : List U8) : List U8 := put body (abs - 36) bytes
  let body := List.replicate 232 0
  let body := field 36 (leBytes 4 facsAddress.toNat) body
  let body := field 40 (leBytes 4 dsdtAddress.toNat) body
  let body := field 45 [0] body
  let body := field 46 (leBytes 2 9) body
  let body := field 48 (leBytes 4 0) body
  let body := field 52 [0] body
  let body := field 53 [0] body
  let body := field 56 (leBytes 4 PM_BASE.toNat) body
  let body := field 64 (leBytes 4 (PM_BASE.toNat + 4)) body
  let body := field 76 (leBytes 4 (PM_BASE.toNat + 8)) body
  let body := field 88 [4] body
  let body := field 89 [2] body
  let body := field 91 [4] body
  let body := field 109 (leBytes 2 (2 ^ 0 + 2 ^ 2 + 2 ^ 5)) body
  let body := field 112 (leBytes 4 (2 ^ 0 + 2 ^ 4 + 2 ^ 5)) body
  let body := field 131 [1] body
  let body := field 140 (leBytes 8 dsdtAddress.toNat) body
  sdt [0x46, 0x41, 0x43, 0x50] 5 body

def facs : List U8 := put (put (put (List.replicate 64 0) 0 [0x46, 0x41, 0x43, 0x53]) 4 (leBytes 4 64)) 32 [2]

def madt : List U8 :=
  sdt [0x41, 0x50, 0x49, 0x43] 3
    (leBytes 4 Lapic.BASE.toNat ++ leBytes 4 1 ++ [0, 8, 0, 0] ++ leBytes 4 1 ++ [1, 12, 0, 0] ++
      leBytes 4 Ioapic.BASE.toNat ++ leBytes 4 0)

variable (base : U64)

def build : AcpiTables :=
  let addressOf (offset : Nat) : U64 := base + BitVec.ofNat 64 offset
  let blob := sdt [0x44, 0x53, 0x44, 0x54] 2 []
  let dsdtAddress := addressOf 0
  let facsOffset := (blob.length + 63) / 64 * 64
  let blob := resize blob facsOffset ++ facs
  let fadtOffset := alignUp blob.length
  let blob := resize blob fadtOffset ++ fadt (addressOf facsOffset) dsdtAddress
  let madtOffset := alignUp blob.length
  let blob := resize blob madtOffset ++ madt
  let xsdtOffset := alignUp blob.length
  let blob := resize blob xsdtOffset ++
    sdt [0x58, 0x53, 0x44, 0x54] 1 (leBytes 8 (addressOf fadtOffset).toNat ++ leBytes 8 (addressOf madtOffset).toNat)
  let rsdpOffset := alignUp blob.length
  let rsdp := rsdp (addressOf xsdtOffset)
  ⟨addressOf rsdpOffset, base, resize blob rsdpOffset ++ rsdp, rsdp⟩

/-! ## Lengths -/

theorem resize_length (blob offset) :
    (resize blob offset).length = blob.length + (offset - blob.length) := by
  rw [resize, length_append, length_replicate]

theorem put_length (body field start) :
    (put body start field).length = min start body.length + field.length + (body.length - (start + field.length)) := by
  simp only [put, length_append, length_take, length_drop]

theorem sdt_length {signature} (h : signature.length = 4) (revision : U8) (payload) :
    (sdt signature revision payload).length = 36 + payload.length := by
  simp only [sdt, length_set, length_append, leBytes_length, length_cons, length_nil, h, OEM_ID,
    OEM_TABLE_ID, CREATOR_ID]

theorem rsdp_length (xsdtAddress) : (rsdp xsdtAddress).length = 36 := by
  simp only [rsdp, length_set, length_append, leBytes_length, length_cons, length_nil, OEM_ID]

theorem fadt_length (facsAddress dsdtAddress) : (fadt facsAddress dsdtAddress).length = 268 := by
  rw [fadt, sdt_length rfl]
  simp only [put_length, leBytes_length, length_replicate, length_cons, length_nil]
  rfl

theorem madt_length : madt.length = 64 := by
  rw [madt, sdt_length rfl]
  simp only [length_append, leBytes_length, length_cons, length_nil]

theorem facs_length : facs.length = 64 := by
  simp only [facs, put_length, leBytes_length, length_replicate, length_cons, length_nil]
  rfl

theorem build_blob_length : (build base).blob.length = 564 := by
  simp only [build, length_append, resize_length, fadt_length, madt_length, facs_length, rsdp_length, sdt_length,
    leBytes_length, length_cons, length_nil, alignUp]

theorem build_rsdpCopy_length : (build base).rsdpCopy.length = 36 := rsdp_length _

end Rish.SoftVm.Boot.Acpi
