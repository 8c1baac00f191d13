/-
  Rish.SoftVm.Registers — the architectural register state.

  Real mode, protected mode and long mode. Segment registers keep their hidden descriptor caches.
  Flag words are the raw 64-bit patterns; `contains` and `setFlag` are the flag-set operations on
  them, and a word that comes from the guest drops the bits its register does not define.
-/

import Rish.SoftVm.Instruction

namespace Rish.SoftVm

open Lib

/-! ## Flag words -/

def contains (flags bit : U64) : Bool := flags &&& bit == bit

def setFlag (flags bit : U64) (value : Bool) : U64 := if value then flags ||| bit else flags &&& ~~~bit

namespace RFlags

def CF : U64 := 1#64 <<< 0
def PF : U64 := 1#64 <<< 2
def AF : U64 := 1#64 <<< 4
def ZF : U64 := 1#64 <<< 6
def SF : U64 := 1#64 <<< 7
def TF : U64 := 1#64 <<< 8
def IF : U64 := 1#64 <<< 9
def DF : U64 := 1#64 <<< 10
def OF : U64 := 1#64 <<< 11
def IOPL_HIGH : U64 := 1#64 <<< 12
def IOPL_LOW : U64 := 1#64 <<< 13
def NT : U64 := 1#64 <<< 14
def RF : U64 := 1#64 <<< 16
def VM : U64 := 1#64 <<< 17
def AC : U64 := 1#64 <<< 18
def VIF : U64 := 1#64 <<< 19
def VIP : U64 := 1#64 <<< 20

/-- Every defined flag. -/
def all : U64 := 0x3F7FD5

def fromBitsTruncate (bits : U64) : U64 := bits &&& all

end RFlags

namespace Cr0

def PE : U64 := 1#64 <<< 0
def EM : U64 := 1#64 <<< 2
def TS : U64 := 1#64 <<< 3
def ET : U64 := 1#64 <<< 4
def NE : U64 := 1#64 <<< 5
def WP : U64 := 1#64 <<< 16
def AM : U64 := 1#64 <<< 18
def PG : U64 := 1#64 <<< 31

def all : U64 := 0xE005003F

def fromBitsTruncate (bits : U64) : U64 := bits &&& all

end Cr0

namespace Cr4

def PSE : U64 := 1#64 <<< 4
def PAE : U64 := 1#64 <<< 5
def OSFXSR : U64 := 1#64 <<< 9
def OSXMMEXCPT : U64 := 1#64 <<< 10
def LA57 : U64 := 1#64 <<< 12
def SMEP : U64 := 1#64 <<< 20
def SMAP : U64 := 1#64 <<< 21

def all : U64 := 0x3117FF

def fromBitsTruncate (bits : U64) : U64 := bits &&& all

end Cr4

namespace Efer

def SCE : U64 := 1#64 <<< 0
def LME : U64 := 1#64 <<< 8
def LMA : U64 := 1#64 <<< 10
def NXE : U64 := 1#64 <<< 11

def all : U64 := 0x1D01

def fromBitsTruncate (bits : U64) : U64 := bits &&& all

end Efer

/-! ## Segments -/

structure SegmentSelector where
  raw : U16
  deriving DecidableEq, Repr

namespace SegmentSelector

variable (s : SegmentSelector)

def index : U16 := s.raw >>> 3

def table : Nat := if s.raw &&& 0b100 != 0 then 1 else 0

def rpl : Nat := (s.raw &&& 0b11).toNat

end SegmentSelector

structure SegmentAttributes where
  present : Bool
  dpl : Nat
  system : Bool
  descriptorType : Nat
  accessed : Bool
  deriving DecidableEq, Repr

/-- A loaded segment: the visible selector and the cached descriptor. -/
structure SegmentRegister where
  selector : SegmentSelector
  base : U64
  limit : U32
  attributes : SegmentAttributes
  granularity : Bool
  /-- D/B bit. -/
  default32 : Bool
  /-- L bit. -/
  longMode : Bool
  expandDown : Bool
  writableOrReadable : Bool
  code : Bool
  conforming : Bool
  deriving DecidableEq, Repr

namespace SegmentRegister

def unloaded : SegmentRegister :=
  { selector := ⟨0⟩, base := 0, limit := 0xFFFFFFFF, attributes := ⟨true, 0, false, 0, false⟩,
    granularity := true, default32 := false, longMode := false, expandDown := false,
    writableOrReadable := true, code := false, conforming := false }

def realMode (selector : SegmentSelector) : SegmentRegister :=
  { unloaded with selector, base := selector.raw.setWidth 64 <<< 4 }

def is32BitCode (s : SegmentRegister) : Bool := s.code && s.default32

/-- The last valid offset; with granularity set the limit counts pages. -/
def effectiveLimit (s : SegmentRegister) : U64 :=
  if s.granularity then (s.limit.setWidth 64 <<< 12) ||| 0xFFF else s.limit.setWidth 64

end SegmentRegister

/-- One 8-byte GDT/LDT entry, decoded. -/
structure Descriptor where
  base : U64
  limit : U32
  granularity : Bool
  default32 : Bool
  longMode : Bool
  present : Bool
  dpl : Nat
  system : Bool
  descriptorType : Nat
  code : Bool
  conforming : Bool
  expandDown : Bool
  writableOrReadable : Bool
  accessed : Bool
  deriving DecidableEq, Repr

namespace Descriptor

def decode (entry : U64) : Descriptor where
  base := ((entry &&& 0xFF00000000000000) >>> 32) ||| ((entry &&& 0x000000FF00000000) >>> 16) |||
    ((entry >>> 16) &&& 0xFFFF)
  limit := (((entry >>> 48) &&& 0xF).setWidth 32 * 0x10000) ||| (entry &&& 0xFFFF).setWidth 32
  granularity := entry.getLsbD 55
  default32 := entry.getLsbD 54
  longMode := entry.getLsbD 53
  present := entry.getLsbD 47
  dpl := ((entry >>> 45) &&& 0b11).toNat
  system := !entry.getLsbD 44
  descriptorType := ((entry >>> 40) &&& 0xF).toNat
  code := entry.getLsbD 43
  conforming := entry.getLsbD 42
  expandDown := entry.getLsbD 42
  writableOrReadable := entry.getLsbD 41
  accessed := entry.getLsbD 40

def load (d : Descriptor) (selector : SegmentSelector) : SegmentRegister where
  selector := selector
  base := d.base
  limit := d.limit
  attributes := ⟨d.present, d.dpl, d.system, d.descriptorType, d.accessed⟩
  granularity := d.granularity
  default32 := d.default32
  longMode := d.longMode
  expandDown := d.expandDown
  writableOrReadable := d.writableOrReadable
  code := d.code
  conforming := d.conforming

end Descriptor

/-! ## The register file -/

inductive CpuMode where
  | real | protected16 | protected32 | long
  deriving DecidableEq, Repr

/-- Numbers of the general-purpose file. -/
abbrev GprIndex := Fin 16

namespace index

def RAX : GprIndex := 0
def RCX : GprIndex := 1
def RDX : GprIndex := 2
def RBX : GprIndex := 3
def RSP : GprIndex := 4
def RBP : GprIndex := 5
def RSI : GprIndex := 6
def RDI : GprIndex := 7
def R11 : GprIndex := 11

end index

structure Registers where
  gpr : GprIndex → U64
  rip : U64
  rflags : U64
  xmm : Fin 16 → U128
  cr0 : U64
  cr2 : U64
  cr3 : U64
  cr4 : U64
  cr8 : U64
  efer : U64
  cs : SegmentRegister
  ds : SegmentRegister
  es : SegmentRegister
  fs : SegmentRegister
  gs : SegmentRegister
  ss : SegmentRegister
  gdtBase : U64
  gdtLimit : U32
  idtBase : U64
  idtLimit : U32
  ldtr : SegmentRegister
  tr : SegmentRegister
  trBase : U64
  instructionsRetired : U64

namespace Registers

def reset : Registers where
  gpr := fun _ => 0
  rip := 0
  rflags := 0
  xmm := fun _ => 0
  cr0 := Cr0.ET ||| Cr0.NE
  cr2 := 0
  cr3 := 0
  cr4 := 0
  cr8 := 0
  efer := 0
  cs := .realMode ⟨0xF000⟩
  ds := .realMode ⟨0⟩
  es := .realMode ⟨0⟩
  fs := .realMode ⟨0⟩
  gs := .realMode ⟨0⟩
  ss := .realMode ⟨0⟩
  gdtBase := 0
  gdtLimit := 0
  idtBase := 0
  idtLimit := 0
  ldtr := .unloaded
  tr := .unloaded
  trBase := 0
  instructionsRetired := 0

variable (r : Registers)

def setGpr (i : GprIndex) (v : U64) : Registers := { r with gpr := Function.update r.gpr i v }

def rsp : U64 := r.gpr index.RSP

def mode : CpuMode :=
  if contains r.efer Efer.LMA then .long
  else if contains r.cr0 Cr0.PE then
    if r.cs.is32BitCode then .protected32 else .protected16
  else .real

/-- Current privilege level: ring 0 outside protected mode, else the RPL of CS. -/
def cpl : Nat := if r.mode = .real then 0 else r.cs.selector.rpl

def codeBase : U64 := if r.mode = .long then 0 else r.cs.base

def stackBase : U64 := if r.mode = .long then 0 else r.ss.base

def segmentSelector : Register → U16
  | .segment .es => r.es.selector.raw
  | .segment .cs => r.cs.selector.raw
  | .segment .ss => r.ss.selector.raw
  | .segment .ds => r.ds.selector.raw
  | .segment .fs => r.fs.selector.raw
  | .segment .gs => r.gs.selector.raw
  | _ => 0

/-- Base of the segment a memory operand goes through: in long mode only FS and GS have one. -/
def dataBase (segment : Register) : U64 :=
  if r.mode = .long then
    match segment with
    | .segment .fs => r.fs.base
    | .segment .gs => r.gs.base
    | _ => 0
  else
    match segment with
    | .segment .es => r.es.base
    | .segment .fs => r.fs.base
    | .segment .gs => r.gs.base
    | _ => r.ds.base

end Registers

end Rish.SoftVm
