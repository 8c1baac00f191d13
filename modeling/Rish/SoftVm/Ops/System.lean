/-
  Rish.SoftVm.Ops.System — port I/O, identification, model-specific registers, descriptor tables,
  control registers, the returns from interrupts and system calls, and the saved FPU area.

  No instruction here looks at the current privilege level.
-/

import Rish.SoftVm.Devices
import Rish.SoftVm.Ops.X87

namespace Rish.SoftVm.Ops

open Lib Cpu
open BitVec (ofNat)
open Exec (update lift)

def EAX : Register := .dword index.RAX
def EBX : Register := .dword index.RBX
def ECX : Register := .dword index.RCX
def EDX : Register := .dword index.RDX

def setEdxEax (value : U64) (r : Registers) : Registers :=
  writeRegister (writeRegister r EAX 4 (value &&& 0xFFFFFFFF)) EDX 4 (value >>> 32)

def edxEax (r : Registers) : U64 := readRegister r EAX 4 ||| (readRegister r EDX 4 <<< 32)

def ecx (r : Registers) : U32 := (readRegister r ECX 4).setWidth 32

/-! ## Port I/O, halt, identification -/

variable (i : Instruction)

/-- The accumulator of a port access can stand in either operand slot. -/
def portAccumulator : Register :=
  ([i.opRegister 0, i.opRegister 1].find? fun r => r ∈ [.low8 index.RAX, .word index.RAX, .dword index.RAX]).getD
    (.low8 index.RAX)

variable (r : Registers)

/-- An immediate port number is sign extended. -/
def portNumber : U16 :=
  if i.opKind 0 = .immediate8 then ((i.immediate 0).setWidth 8).signExtend 16
  else if i.opKind 1 = .immediate8 then ((i.immediate 1).setWidth 8).signExtend 16
  else (readRegister r (.word index.RDX) 2).setWidth 16

def inOut : CpuM Unit := do
  let c ← get
  let size := registerSize (portAccumulator i)
  if i.mnemonic = .in_ then do
    let value ← ioRead (portNumber i c.regs)
    setRegister (portAccumulator i) size (value.setWidth 64)
  else ioWrite (portNumber i c.regs) ((readRegister c.regs (portAccumulator i) size).setWidth 32)

/-- With interrupts enabled this is the idle loop, without them a deliberate halt. -/
def hlt : CpuM Unit := update fun c =>
  if contains c.regs.rflags RFlags.IF then { c with waitingForInterrupt := true } else { c with halted := true }

structure CpuidLeaf where
  eax : U32
  ebx : U32
  ecx : U32
  edx : U32
  deriving DecidableEq, Repr

def featureBits (bits : List Nat) : U32 := bits.foldl (fun word bit => word ||| (1#32 <<< bit)) 0

def cpuidLeaf (leaf subleaf : U32) : CpuidLeaf :=
  ([(0x00000000, ⟨0x16, 0x756E6547, 0x6C65746E, 0x49656E69⟩),
    (0x00000001, ⟨0x00090600, (8#32 <<< 8) ||| (1#32 <<< 16), featureBits [13, 23],
      featureBits [0, 3, 4, 5, 6, 8, 9, 11, 13, 15, 16, 19, 23, 24, 25, 26]⟩),
    (0x00000007, ⟨0, 0, 0, if subleaf = 0 then featureBits [29] else 0⟩),
    (0x0000000D, ⟨if subleaf = 0 then 0x3 else 0, 0, 0, 0⟩),
    (0x80000000, ⟨0x80000008, 0, 0, 0⟩),
    (0x80000001, ⟨0, 0, featureBits [0], featureBits [11, 20, 26, 27, 29]⟩),
    (0x80000007, ⟨0, 0, 0, featureBits [8]⟩),
    (0x80000008, ⟨0x3028, 0, 0, 0⟩)].lookup leaf).getD ⟨0, 0, 0, 0⟩

def cpuid : CpuM Unit := updateRegs fun r =>
  let answer := cpuidLeaf ((readRegister r EAX 4).setWidth 32) (ecx r)
  let r := writeRegister r EAX 4 (answer.eax.setWidth 64)
  let r := writeRegister r EBX 4 (answer.ebx.setWidth 64)
  let r := writeRegister r ECX 4 (answer.ecx.setWidth 64)
  writeRegister r EDX 4 (answer.edx.setWidth 64)

def rdtsc : CpuM Unit := do
  let c ← get
  updateRegs (setEdxEax c.tsc)
  Exec.when (i.mnemonic = .rdtscp) (setRegister ECX 4 c.msrTscAux)

/-! ## Model-specific registers -/

def MSR_EFER : U32 := 0xC0000080

/-- Every speculative-execution "no" bit. -/
def ARCH_CAPABILITIES : U64 := (featureBits [0, 4, 5, 6, 8, 13, 14, 15, 20, 26, 27]).setWidth 64

/-- The registers with a value of their own. -/
def msrValues (c : Cpu) : List (U32 × U64) :=
  [(MSR_EFER, c.regs.efer), (0x1B, 0xFEE00000 ||| (1#64 <<< 11) ||| (1#64 <<< 8)), (0x10, c.tsc), (0x2FF, 0x6),
   (0xFE, 0x508), (0x179, 0x100), (0x1A0, 1), (0x277, 0x0007040600070406), (0xC0000100, c.regs.fs.base),
   (0xC0000101, c.regs.gs.base), (0xC0000102, c.kernelGsBase), (0xC0000081, c.msrStar), (0xC0000082, c.msrLstar),
   (0xC0000083, c.msrCstar), (0xC0000084, c.msrFmask), (0xC0000103, c.msrTscAux), (0x10A, ARCH_CAPABILITIES),
   (0xDA0, 0)]

/-- Registers that read as zero and ignore writes. -/
def msrInert (address : U32) : Bool :=
  address ∈ [0x3B, 0x8B, 0x17, 0x17A, 0x17B, 0x19B, 0x19C, 0x174, 0x175, 0x176] ∨
    (0x200 ≤ address ∧ address ≤ 0x20F) ∨ (0x250 ≤ address ∧ address ≤ 0x25F) ∨ (0x400 ≤ address ∧ address ≤ 0x403)

def msrRead (c : Cpu) (address : U32) : Option U64 :=
  match (msrValues c).lookup address with
  | some value => some value
  | none => if msrInert address then some 0 else none

def msrStores : List (U32 × (U64 → Cpu → Cpu)) :=
  [(MSR_EFER, fun v c => { c with regs := { c.regs with efer := Efer.fromBitsTruncate v }, tlb := c.tlb.flush }),
   (0xC0000100, fun v c => { c with regs := { c.regs with fs := { c.regs.fs with base := v } } }),
   (0xC0000101, fun v c => { c with regs := { c.regs with gs := { c.regs.gs with base := v } } }),
   (0xC0000102, fun v c => { c with kernelGsBase := v }),
   (0xC0000081, fun v c => { c with msrStar := v }),
   (0xC0000082, fun v c => { c with msrLstar := v }),
   (0xC0000083, fun v c => { c with msrCstar := v }),
   (0xC0000084, fun v c => { c with msrFmask := v }),
   (0xC0000103, fun v c => { c with msrTscAux := v &&& 0xFFFFFFFF })]

def msrWrite (address : U32) (value : U64) : Option (Cpu → Cpu) :=
  match msrStores.lookup address with
  | some store => some (store value)
  | none =>
    if msrInert address ∨ address ∈ [0xDA0, 0x1B, 0x2FF, 0xFE, 0x179, 0x277, 0x1A0] then some id else none

/-- An unimplemented register raises #GP. -/
def finishRdmsr (value : Option U64) : CpuM Unit :=
  match value with
  | some value => updateRegs (setEdxEax value)
  | none => raise VECTOR_GENERAL_PROTECTION 0 true

def rdmsr : CpuM Unit := do
  let c ← get
  finishRdmsr (msrRead c (ecx c.regs))

def finishWrmsr (store : Option (Cpu → Cpu)) : CpuM Unit :=
  match store with
  | some store => update store
  | none => raise VECTOR_GENERAL_PROTECTION 0 true

def wrmsr : CpuM Unit := do
  let c ← get
  finishWrmsr (msrWrite (ecx c.regs) (edxEax c.regs))

/-! ## Descriptor tables -/

/-- The base of a pseudo-descriptor, two bytes after its limit. -/
def readTableBase : CpuM U64 := do
  let c ← get
  let base ← lift (Outcome.add (effectiveAddress i c) 2)
  let physical ← translate base .read
  memoryReadLe physical (if i.memorySize = .fword10 then 8 else 4)

def lgdt : CpuM Unit := do
  let limit ← readOperand0 i
  let base ← readTableBase i
  updateRegs fun r => { r with gdtBase := base, gdtLimit := (limit.setWidth 16).setWidth 32 }

def lidt : CpuM Unit := do
  let limit ← readOperand0 i
  let base ← readTableBase i
  updateRegs fun r => { r with idtBase := base, idtLimit := (limit.setWidth 16).setWidth 32 }

/-- Limit and base through one translation. -/
def storeTable (limit : U32) (base : U64) : CpuM Unit := do
  let c ← get
  let physical ← translate (effectiveAddress i c) .write
  memoryWriteLe physical 2 (limit.setWidth 64)
  let next ← lift (Outcome.add physical 2)
  memoryWriteLe next 8 base

def sgdt : CpuM Unit := do
  let c ← get
  storeTable i c.regs.gdtLimit c.regs.gdtBase

def sidt : CpuM Unit := do
  let c ← get
  storeTable i c.regs.idtLimit c.regs.idtBase

def lldtSegment (selector : SegmentSelector) : CpuM SegmentRegister :=
  if selector.raw = 0 then return .unloaded else loadSystemDescriptor selector

def lldt : CpuM Unit := do
  let selector ← readOperand0 i
  let loaded ← lldtSegment ⟨selector.setWidth 16⟩
  updateRegs fun r => { r with ldtr := loaded }

def ltr : CpuM Unit := do
  let selector ← readOperand0 i
  let loaded ← loadSystemDescriptor ⟨selector.setWidth 16⟩
  updateRegs fun r => { r with tr := loaded, trBase := loaded.base }

/-- SLDT, STR and SMSW store sixteen bits. -/
def storeWord (value : U64) : CpuM Unit :=
  if i.opKind 0 = .memory then writeOperand i 2 value else setRegister (i.opRegister 0) 2 value

def storeWordOf (value : Registers → U64) : CpuM Unit := do
  let c ← get
  storeWord i (value c.regs)

/-! ## Control registers -/

variable (register : Register)

def isControlRegister : Bool := register ∈ [.cr 0, .cr 2, .cr 3, .cr 4, .cr 8]

def isDebugRegister : Bool := register ∈ [.dr 0, .dr 1, .dr 2, .dr 3, .dr 6, .dr 7]

def controlRegister : Nat :=
  match register with
  | .cr k => k.val
  | _ => 0

def readControl (cr : Nat) : Option U64 :=
  match cr with
  | 0 => some r.cr0
  | 2 => some r.cr2
  | 3 => some r.cr3
  | 4 => some r.cr4
  | 8 => some r.cr8
  | _ => none

def writeControl (cr : Nat) (value : U64) : Option Registers :=
  match cr with
  | 0 => some { r with cr0 := Cr0.fromBitsTruncate value }
  | 2 => some { r with cr2 := value }
  | 3 => some { r with cr3 := value }
  | 4 => some { r with cr4 := Cr4.fromBitsTruncate value }
  | 8 => some { r with cr8 := value }
  | _ => none

def finishFromControl (value : Option U64) : CpuM Unit :=
  match value with
  | some value => setRegister (i.opRegister 0) (operandSize i 0) value
  | none => raise 13 0 true

def movFromControl : CpuM Unit := do
  let c ← get
  finishFromControl i (readControl c.regs (controlRegister (i.opRegister 1)))

/-- Loading CR3, or changing how CR0 and CR4 drive paging, drops every cached translation. -/
def finishToControl (cr : Nat) (written : Option Registers) : CpuM Unit :=
  match written with
  | some r => do
    updateRegs fun _ => r
    Exec.when (cr = 0 ∨ cr = 3 ∨ cr = 4) flushTlb
  | none => raise 13 0 true

def movToControl : CpuM Unit := do
  let value ← readOperand1 i
  let c ← get
  finishToControl (controlRegister (i.opRegister 0)) (writeControl c.regs (controlRegister (i.opRegister 0)) value)

/-- Debug registers read as zero and ignore writes. -/
def movControl : CpuM Unit :=
  if isControlRegister (i.opRegister 1) then movFromControl i
  else if isControlRegister (i.opRegister 0) then movToControl i
  else if isDebugRegister (i.opRegister 1) then setRegister (i.opRegister 0) (operandSize i 0) 0
  else if isDebugRegister (i.opRegister 0) then return ()
  else unimplemented i.codeName

def lmsw : CpuM Unit := do
  let value ← readOperand0 i
  updateRegs fun r => { r with cr0 := Cr0.fromBitsTruncate ((r.cr0 &&& 0xFFFFFFF0) ||| (value &&& 0xF)) }

def invlpg : CpuM Unit := do
  let c ← get
  invalidatePage (effectiveAddress i c)

/-! ## Returns and system calls -/

variable (mode : CpuMode)

def returnCpl (selector : SegmentSelector) : Nat := if mode = .real then 0 else selector.rpl

/-- Popped before CS changes, so at the privilege level that owns the current stack. -/
def popOuterStack (present : Bool) : CpuM (Option (U64 × SegmentSelector)) :=
  if present then do
    let rsp ← popNative
    let ss ← popNative
    return some (rsp, ⟨ss.setWidth 16⟩)
  else return none

/-- Ring 3 cannot grant itself IOPL, VM or the virtual interrupt bits. -/
def restoredFlags (oldCpl : Nat) (current popped : U64) : U64 :=
  let kept := RFlags.IOPL_LOW ||| RFlags.IOPL_HIGH ||| RFlags.VM ||| RFlags.VIF ||| RFlags.VIP
  if 0 < oldCpl then (RFlags.fromBitsTruncate popped &&& ~~~kept) ||| (current &&& kept)
  else RFlags.fromBitsTruncate popped

def loadSegmentIn (selector : SegmentSelector) : CpuM SegmentRegister :=
  if mode = .real ∨ mode = .protected16 then return .realMode selector else loadSegmentFromTable selector

def restoreOuterStack (outer : Option (U64 × SegmentSelector)) : CpuM Unit :=
  match outer with
  | some stack => do
    setGpr index.RSP stack.1
    let ss ← loadSegmentIn mode stack.2
    updateRegs fun r => { r with ss := ss }
  | none => return ()

/-- In long mode the frame always carries SS and RSP; legacy modes pop them only on a return to a
    weaker ring. -/
def iret : CpuM Unit := do
  let c ← get
  let mode := c.regs.mode
  let target ← popNative
  let selector ← popNative
  let flags ← popNative
  let newCpl := returnCpl mode ⟨selector.setWidth 16⟩
  let outer ← popOuterStack (mode = .long ∨ c.regs.cpl < newCpl)
  let cs ← loadSegmentIn mode ⟨selector.setWidth 16⟩
  updateRegs fun r => { r with cs := cs }
  restoreOuterStack mode outer
  setRflags (restoredFlags c.regs.cpl c.regs.rflags flags)
  Exec.when (c.regs.cpl < newCpl) (dropInaccessibleDataSegments newCpl)
  updateRegs fun r => { r with rip := target }

def syscall : CpuM Unit := do
  let c ← get
  setGpr index.RCX c.regs.rip
  setGpr index.R11 c.regs.rflags
  let kernelCs : U16 := ((c.msrStar >>> 32) &&& 0xFFFC).setWidth 16
  let cs ← loadSegmentFromTable ⟨kernelCs⟩
  updateRegs fun r => { r with cs := cs }
  let kernelSs ← lift (Outcome.add kernelCs 8)
  let ss ← loadSegmentFromTable ⟨kernelSs⟩
  updateRegs fun r => { r with ss := ss, rflags := r.rflags &&& ~~~c.msrFmask, rip := c.msrLstar }

def sysret : CpuM Unit := do
  let c ← get
  updateRegs fun r => { r with rip := r.gpr index.RCX, rflags := (r.gpr index.R11 &&& 0x3C7FD7) ||| 2 }
  let userBase : U16 := (c.msrStar >>> 48).setWidth 16
  let cs ← loadSegmentFromTable ⟨(userBase + 16) ||| 3⟩
  updateRegs fun r => { r with cs := cs }
  let ss ← loadSegmentFromTable ⟨(userBase + 8) ||| 3⟩
  updateRegs fun r => { r with ss := ss }

def intVector : U8 := if i.mnemonic = .int3 then 3 else (i.immediate 0).setWidth 8

def into : CpuM Unit := do
  let c ← get
  Exec.when (contains c.regs.rflags RFlags.OF) (injectInterrupt 4 0 false)

def rdpmc : CpuM Unit := do
  let c ← get
  updateRegs (setEdxEax c.tsc)

def systemOp : CpuM Unit :=
  if i.mnemonic = .rdmsr then rdmsr
  else if i.mnemonic = .wrmsr then wrmsr
  else if i.mnemonic = .rdpmc then rdpmc
  else if i.mnemonic = .lgdt then lgdt i
  else if i.mnemonic = .lidt then lidt i
  else if i.mnemonic = .sgdt then sgdt i
  else if i.mnemonic = .sidt then sidt i
  else if i.mnemonic = .lldt then lldt i
  else if i.mnemonic = .sldt then storeWordOf i fun r => r.ldtr.selector.raw.setWidth 64
  else if i.mnemonic = .ltr then ltr i
  else if i.mnemonic = .str then storeWordOf i fun r => r.tr.selector.raw.setWidth 64
  else if i.mnemonic = .mov then movControl i
  else if i.mnemonic = .clts then updateRegs fun r => { r with cr0 := r.cr0 &&& ~~~Cr0.TS }
  else if i.mnemonic = .lmsw then lmsw i
  else if i.mnemonic = .smsw then storeWordOf i fun r => r.cr0 &&& 0xFFFF
  else if i.mnemonic = .stac then mapFlags (· ||| RFlags.AC)
  else if i.mnemonic = .clac then mapFlags (· &&& ~~~RFlags.AC)
  else if i.mnemonic = .invlpg then invlpg i
  else if i.mnemonic ∈ [.wbinvd, .invd, .lfence, .sfence, .mfence] then return ()
  else if i.mnemonic ∈ [.iret, .iretq, .iretd] then iret
  else if i.mnemonic ∈ [.int3, .int] then injectInterrupt (intVector i) 0 false
  else if i.mnemonic = .into then into
  else if i.mnemonic = .bound then raise 5 0 false
  else unimplemented i.codeName

/-! ## The saved FPU area -/

def zeros (n : Nat) : List U8 := List.replicate n 0

/-- The 512-byte legacy area. Every x87 register is tagged valid. -/
def legacyFpuArea (c : Cpu) : List U8 :=
  leBytes 2 c.fpuControlWord.toNat ++ leBytes 2 (statusWithTop c).toNat ++ [0xFF] ++ zeros 19 ++
    leBytes 4 c.mxcsr.toNat ++ leBytes 4 0xFFFF ++
    (List.finRange 8).flatMap (fun k => f64ToExtended80 (c.fpuStack k) ++ zeros 6) ++
    (List.finRange 16).flatMap (fun k => leBytes 16 (c.regs.xmm k).toNat) ++ zeros 96

def saveLegacyFpuArea (linear : U64) : CpuM Unit := do
  let c ← get
  writeLinearBytes linear (legacyFpuArea c)

def field (region : List U8) (offset n : Nat) : List U8 := (region.drop offset).take n

def restoreFpu (region : List U8) (c : Cpu) : Cpu :=
  let status : U16 := ofNat 16 (leNat (field region 2 2))
  { c with
    fpuControlWord := ofNat 16 (leNat (field region 0 2))
    fpuStatusWord := status
    fpuTop := Fin.ofNat 8 (status >>> 11).toNat
    mxcsr := ofNat 32 (leNat (field region 24 4))
    fpuStack := fun k => extended80ToF64 (field region (32 + k.val * 16) 10)
    regs := { c.regs with xmm := fun k => ofNat 128 (leNat (field region (160 + k.val * 16) 16)) } }

def restoreLegacyFpuArea (linear : U64) : CpuM Unit := do
  let region ← readLinearBytes linear 512
  update (restoreFpu region)

def fxsave : CpuM Unit := do
  let c ← get
  saveLegacyFpuArea (effectiveAddress i c)

def fxrstor : CpuM Unit := do
  let c ← get
  restoreLegacyFpuArea (effectiveAddress i c)

/-- Only x87 and SSE state exists, so every form is the legacy area and the 64-byte header. -/
def xsave : CpuM Unit := do
  let c ← get
  let linear := effectiveAddress i c
  saveLegacyFpuArea linear
  let compacted := i.mnemonic ∈ [.xsavec, .xsavec64, .xsaves, .xsaves64]
  let header ← translate (linear + 512) .write
  memoryWriteLe header 8 0x3
  let second ← lift (Outcome.add header 8)
  memoryWriteLe second 8 (if compacted then (1#64 <<< 63) ||| 0x3 else 0)
  let third ← lift (Outcome.add header 16)
  memoryWrite third (zeros 48)

/-- Components marked absent return to their initial state. -/
def initFpu (c : Cpu) : Cpu :=
  { c with fpuControlWord := 0x037F, fpuStatusWord := 0, mxcsr := 0x1F80, regs := { c.regs with xmm := fun _ => 0 } }

def finishXrstor (linear xstateBv : U64) : CpuM Unit :=
  if xstateBv &&& 0x3 != 0 then restoreLegacyFpuArea linear else update initFpu

def xrstor : CpuM Unit := do
  let c ← get
  let header ← translate (effectiveAddress i c + 512) .read
  let xstateBv ← memoryReadLe header 8
  finishXrstor (effectiveAddress i c) xstateBv

/-! ## The remaining instructions -/

def swapBytes (size : Nat) (value : U64) : U64 := ofNat 64 (leNat (leBytes size value.toNat).reverse)

def bswap : CpuM Unit := do
  let value ← readOperand0 i
  if operandSize i 0 = 4 ∨ operandSize i 0 = 8 then writeOperand0 i (swapBytes (operandSize i 0) value)
  else unimplemented i.mnemonicName

/-- Of the flags below ZF only the carry is cleared. -/
def popcnt : CpuM Unit := do
  let value ← cmovSource i
  updateRegs fun r =>
    writeRegister (withFlag (withFlag r RFlags.ZF (value == 0)) RFlags.CF false) (i.opRegister 0) (operandSize i 1)
      (ofNat 64 (countOnes value))

def rdrand : CpuM Unit := do
  let c ← get
  let value := (c.tsc * 0x9E3779B97F4A7C15) ||| 1
  mapFlags (· ||| RFlags.CF)
  if i.opKind 0 = .memory then writeOperand i (operandSize i 0) value
  else setRegister (i.opRegister 0) (operandSize i 0) value

def shldCount (bits : Nat) : Nat :=
  ((if i.opKind 2 = .immediate8 then i.immediate 2 else readRegister r (.low8 index.RCX) 1) &&&
    ofNat 64 (bits - 1)).toNat

def shldResult (left : Bool) (destination source : U64) (bits count : Nat) : U64 :=
  let mask := bitsMask bits
  (if left then ((destination &&& mask) <<< count) ||| ((source &&& mask) >>> (bits - count))
    else ((destination &&& mask) >>> count) ||| ((source &&& mask) <<< (bits - count))) &&& mask

/-- CF and OF are set for a count of one only, CF from the old sign bit in both directions. -/
def shldFlags (destination result : U64) (bits count : Nat) (r : Registers) : Registers :=
  let r := setSzp r result bits
  if count = 1 then
    let msb := destination &&& signBit bits != 0
    setOverflow (setCarry r msb) (msb != (result >>> (bits - 1) &&& 1 != 0))
  else r

def finishShld (destination result : U64) (bits count : Nat) : CpuM Unit := do
  updateRegs (shldFlags destination result bits count)
  writeOperand0 i result

def shldShrd : CpuM Unit := do
  let size := operandSize i 0
  let destination ← readOperand0 i
  let c ← get
  let source := readRegister c.regs (i.opRegister 1) size
  let count := shldCount i c.regs (size * 8)
  if count = 0 then return ()
  else finishShld i destination (shldResult (i.mnemonic = .shld) destination source (size * 8) count) (size * 8) count

def swapgs : CpuM Unit := update fun c =>
  { c with regs := { c.regs with gs := { c.regs.gs with base := c.kernelGsBase } }, kernelGsBase := c.regs.gs.base }

def xgetbv : CpuM Unit := do
  let c ← get
  updateRegs (setEdxEax (if ecx c.regs = 0 then c.xcr0 else 0))

def xsetbv : CpuM Unit := update fun c =>
  if ecx c.regs = 0 then { c with xcr0 := edxEax c.regs &&& 0x7 } else c

/-- A control or status word stored through one translation. -/
def storeFpuWord (value : Cpu → U16) : CpuM Unit := do
  let c ← get
  let physical ← translate (effectiveAddress i c) .write
  memoryWriteLe physical 2 ((value c).setWidth 64)

def loadControlWord : CpuM Unit := do
  let c ← get
  let physical ← translate (effectiveAddress i c) .read
  let value ← memoryReadLe physical 2
  update fun c => { c with fpuControlWord := value.setWidth 16 }

def storeStatusWord : CpuM Unit :=
  if i.opKind 0 = .memory then storeFpuWord i Cpu.fpuStatusWord
  else updateStatusRegister
where
  updateStatusRegister : CpuM Unit := update fun c =>
    { c with regs := writeRegister c.regs (.word index.RAX) 2 (c.fpuStatusWord.setWidth 64) }

/-- The x87 forms here are shadowed by the floating-point unit, to which the dispatcher sends them. -/
def extraOp : CpuM Unit :=
  if i.mnemonic = .bswap then bswap i
  else if i.mnemonic = .popcnt then popcnt i
  else if i.mnemonic = .ud2 then raise 6 0 false
  else if i.mnemonic ∈ [.rdrand, .rdseed] then rdrand i
  else if i.mnemonic ∈ [.prefetcht0, .prefetcht1, .prefetcht2, .prefetchnta, .prefetchw, .clflush, .clflushopt,
      .endbr64, .endbr32] then return ()
  else if i.mnemonic ∈ [.fxsave, .fxsave64] then fxsave i
  else if i.mnemonic ∈ [.fxrstor, .fxrstor64] then fxrstor i
  else if i.mnemonic ∈ [.xsave, .xsave64, .xsaveopt, .xsaveopt64, .xsavec, .xsavec64, .xsaves, .xsaves64] then xsave i
  else if i.mnemonic ∈ [.xrstor, .xrstor64, .xrstors, .xrstors64] then xrstor i
  else if i.mnemonic = .fninit then update fun c => { c with fpuControlWord := 0x037F, fpuStatusWord := 0 }
  else if i.mnemonic = .fnstcw then storeFpuWord i Cpu.fpuControlWord
  else if i.mnemonic = .fldcw then loadControlWord i
  else if i.mnemonic = .fnstsw then storeStatusWord i
  else if i.mnemonic = .fnclex then update (setStatus (· &&& ~~~0xFF#16))
  else if i.mnemonic = .wait then return ()
  else if i.mnemonic ∈ [.shld, .shrd] then shldShrd i
  else if i.mnemonic = .swapgs then swapgs
  else if i.mnemonic = .xgetbv then xgetbv
  else if i.mnemonic = .xsetbv then xsetbv
  else if i.mnemonic = .syscall then syscall
  else if i.mnemonic ∈ [.sysret, .sysretq] then sysret
  else unimplemented i.mnemonicName

end Rish.SoftVm.Ops
