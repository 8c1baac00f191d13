/-
  Rish.SoftVm.Ops.LslMxcsr — the two families that check their operand before they touch anything:
  LSL, which inspects a descriptor, and the transfers of MXCSR.

  Both translate every page of their operand first, so that a fault finds nothing changed.
-/

import Rish.SoftVm.Ops.Branch

namespace Rish.SoftVm.Ops

open Lib Cpu

/-- Bits of a linear address, by paging depth. -/
def addressWidth (cr4 : U64) : Nat := if contains cr4 Cr4.LA57 then 57 else 48

def canonical (address : U64) (width : Nat) : Bool := (address <<< (64 - width)).sshiftRight (64 - width) = address

variable (r : Registers)

def checksAlignment : Bool := r.cpl = 3 ∧ contains r.cr0 Cr0.AM ∧ contains r.rflags RFlags.AC

/-! ## LSL -/

variable (selector : SegmentSelector)

/-- Base and limit of the table a selector names; none when that table is not there. -/
def tableOf : Option (U64 × U64) :=
  if selector.table = 0 then some (r.gdtBase, r.gdtLimit.setWidth 64)
  else if r.ldtr.selector.raw &&& ~~~3#16 = 0 ∨ !r.ldtr.attributes.present then none
  else some (r.ldtr.base, r.ldtr.effectiveLimit)

/-- Descriptor-table reads are supervisor accesses at every privilege level. -/
def readDescriptorQword (linear : U64) : CpuM U64 := do
  let bytes ← readPages (translatePrivileged · .read) 8 linear 8
  return BitVec.ofNat 64 (leNat bytes)

def systemTypeValid (ia32e : Bool) (descriptorType : Nat) : Bool :=
  if ia32e then descriptorType ∈ [2, 9, 11] else descriptorType ∈ [1, 2, 3, 9, 11]

/-- The limit, when the privilege levels admit the descriptor. -/
def admittedLimit (cpl : Nat) (selector : SegmentSelector) (d : Descriptor) : Option U64 :=
  if ¬(!d.system && d.code && d.conforming) ∧ (d.dpl < cpl ∨ d.dpl < selector.rpl) then none
  else some (d.load selector).effectiveLimit

/-- A 64-bit system descriptor is sixteen bytes; its upper half has reserved bits. -/
def checkUpperHalf (cpl : Nat) (selector : SegmentSelector) (address offset limit : U64) (d : Descriptor) :
    CpuM (Option U64) :=
  if limit < offset + 15 then return none
  else do
    let upper ← readDescriptorQword (address + 8)
    return if upper &&& (0x1F#64 <<< 40) != 0 then none else admittedLimit cpl selector d

def inspectDescriptor (address offset limit : U64) (d : Descriptor) : CpuM (Option U64) :=
  let ia32e := contains r.efer Efer.LMA
  if d.system ∧ !systemTypeValid ia32e d.descriptorType then return none
  else if d.system ∧ ia32e then checkUpperHalf r.cpl selector address offset limit d
  else return admittedLimit r.cpl selector d

def limitInTable (table : Option (U64 × U64)) : CpuM (Option U64) :=
  match table with
  | none => return none
  | some t =>
    let offset := selector.index.setWidth 64 * 8
    if t.2 < offset + 7 then return none
    else do
      let entry ← readDescriptorQword (t.1 + offset)
      inspectDescriptor r selector (t.1 + offset) offset t.2 (Descriptor.decode entry)

/-- GDT entry zero is null at every RPL; LDT entry zero is not. -/
def descriptorLimit : CpuM (Option U64) :=
  if selector.raw &&& ~~~3#16 = 0 then return none
  else do
    let c ← get
    limitInTable c.regs selector (tableOf c.regs selector)

def memorySegment (register : Register) : SegmentRegister :=
  match register with
  | .segment .es => r.es
  | .segment .cs => r.cs
  | .segment .ss => r.ss
  | .segment .fs => r.fs
  | .segment .gs => r.gs
  | _ => r.ds

def inSegment (segment : SegmentRegister) (offset : U64) : Bool :=
  if !segment.code ∧ segment.expandDown then
    segment.effectiveLimit < offset ∧ offset.toNat + 1 ≤ (if segment.default32 then 0xFFFFFFFF else 0xFFFF)
  else offset.toNat + 1 ≤ segment.effectiveLimit.toNat

variable (i : Instruction)

/-- The linear address of the two-byte operand; none when it is outside its segment. Legacy modes
    apply the implicit stack segment, which the shared address does not. -/
def selectorAddress (c : Cpu) : Option U64 :=
  let shared := effectiveAddress i c
  if c.regs.mode = .long then
    let width := addressWidth c.regs.cr4
    if !canonical shared width ∨ !canonical (shared + 1) width then none else some shared
  else
    let segment := memorySegment c.regs i.memorySegment
    let offset := shared - c.regs.dataBase i.segmentPrefix
    if segment.selector.raw &&& ~~~3#16 = 0 ∨ !inSegment segment offset then none else some (segment.base + offset)

def addressFault (segment : Register) : CpuM (Option U16) := do
  raise (if segment = .segment .ss then 12 else VECTOR_GENERAL_PROTECTION) 0 true
  return none

def alignmentFault : CpuM (Option U16) := do
  raise 17 0 true
  return none

variable (linear : U64)

def readAlignedSelector : CpuM (Option U16) := do
  let c ← get
  if linear &&& 1 != 0 ∧ checksAlignment c.regs then alignmentFault
  else
    let bytes ← readLinearBytes linear 2
    return some (BitVec.ofNat 16 (leNat bytes))

/-- Paging is checked before alignment. -/
def readSelectorAt (linear : Option U64) : CpuM (Option U16) :=
  match linear with
  | none => addressFault i.memorySegment
  | some linear => do
    let _ ← translate linear .read
    Exec.when (linear &&& 0xFFF = 0xFFF) (translate (linear + 1) .read >>= fun _ => pure ())
    readAlignedSelector linear

def readSelector : CpuM (Option U16) := do
  let c ← get
  readSelectorAt i (selectorAddress i c)

def lslSelector : CpuM (Option U16) :=
  if i.opKind 1 = .register then Exec.view fun c => some ((readRegister c.regs (i.opRegister 1) 2).setWidth 16)
  else if i.opKind 1 = .memory then readSelector i
  else do
    raise VECTOR_INVALID_OPCODE 0 false
    return none

/-- ZF says whether there is a limit; the destination is written only then. -/
def setLimit (limit : Option U64) (r : Registers) : Registers :=
  match limit with
  | some limit => withFlag (writeRegister r (i.opRegister 0) (operandSize i 0) limit) RFlags.ZF true
  | none => withFlag r RFlags.ZF false

/-- No selector means that a fault of the operand has been delivered. -/
def finishLsl (selector : Option U16) : CpuM Unit :=
  match selector with
  | none => return ()
  | some selector => do
    let limit ← descriptorLimit ⟨selector⟩
    updateRegs (setLimit i limit)

def lsl : CpuM Unit := do
  let c ← get
  if c.regs.mode = .real ∨ contains c.regs.rflags RFlags.VM ∨ i.hasLockPrefix then raise VECTOR_INVALID_OPCODE 0 false
  else
    let selector ← lslSelector i
    finishLsl i selector

/-! ## MXCSR -/

def MXCSR_MASK : U32 := 0x0000FFFF

def finishLdmxcsr (value : U32) : CpuM Unit :=
  if value &&& ~~~MXCSR_MASK != 0 then raise VECTOR_GENERAL_PROTECTION 0 true
  else Exec.update fun c => { c with mxcsr := value }

def ldmxcsr : CpuM Unit := do
  let value ← readOperand i 4
  finishLdmxcsr (value.setWidth 32)

def stmxcsr : CpuM Unit := do
  let c ← get
  writeOperand i 4 ((c.mxcsr &&& MXCSR_MASK).setWidth 64)

def transferMxcsr : CpuM Unit := do
  let c ← get
  if linear &&& 3 != 0 ∧ checksAlignment c.regs then raise 17 0 true
  else if i.mnemonic = .ldmxcsr then ldmxcsr i
  else stmxcsr i

/-- Both pages are resolved before any store. -/
def mxcsrAt (kind : AccessKind) : CpuM Unit := do
  let _ ← translate linear kind
  Exec.when (0xFFC < linear &&& 0xFFF) (translate ((linear + 3) &&& ~~~0xFFF#64) kind >>= fun _ => pure ())
  transferMxcsr i linear

def mxcsrChecked (c : Cpu) : CpuM Unit :=
  let linear := effectiveAddress i c
  let width := addressWidth c.regs.cr4
  if c.regs.mode = .long ∧ (!canonical linear width ∨ !canonical (linear + 3) width) then
    raise (if i.memorySegment = .segment .ss then 12 else VECTOR_GENERAL_PROTECTION) 0 true
  else if i.mnemonic = .ldmxcsr then mxcsrAt i linear .read
  else if i.mnemonic = .stmxcsr then mxcsrAt i linear .write
  else unimplemented i.mnemonicName

/-- #UD comes before #NM, and both before the operand's faults. -/
def mxcsrOp : CpuM Unit := do
  let c ← get
  if i.opKind 0 ≠ .memory ∨ i.hasLockPrefix ∨ contains c.regs.cr0 Cr0.EM ∨ !contains c.regs.cr4 Cr4.OSFXSR then
    raise VECTOR_INVALID_OPCODE 0 false
  else if contains c.regs.cr0 Cr0.TS then raise 7 0 false
  else mxcsrChecked i c

end Rish.SoftVm.Ops
