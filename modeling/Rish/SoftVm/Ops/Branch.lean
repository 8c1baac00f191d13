/-
  Rish.SoftVm.Ops.Branch — control flow: jumps, calls, returns, the condition codes and the flag
  instructions.
-/

import Rish.SoftVm.Ops.Operand

namespace Rish.SoftVm.Ops

open Lib Cpu

/-! ## Conditions -/

inductive Condition where
  | o | no | b | ae | e | ne | be | a | s | ns | p | np | l | ge | le | g
  deriving DecidableEq, Repr

def conditionTable : List (Condition × List Mnemonic) :=
  [(.o, [.jo, .seto, .cmovo]), (.no, [.jno, .setno, .cmovno]), (.b, [.jb, .setb, .cmovb]),
   (.ae, [.jae, .setae, .cmovae]), (.e, [.je, .sete, .cmove]), (.ne, [.jne, .setne, .cmovne]),
   (.be, [.jbe, .setbe, .cmovbe]), (.a, [.ja, .seta, .cmova]), (.s, [.js, .sets, .cmovs]),
   (.ns, [.jns, .setns, .cmovns]), (.p, [.jp, .setp, .cmovp]), (.np, [.jnp, .setnp, .cmovnp]),
   (.l, [.jl, .setl, .cmovl]), (.ge, [.jge, .setge, .cmovge]), (.le, [.jle, .setle, .cmovle]),
   (.g, [.jg, .setg, .cmovg])]

def conditionOf (mnemonic : Mnemonic) : Option Condition :=
  (conditionTable.find? fun row => mnemonic ∈ row.2).map (·.1)

def conditionHolds (condition : Condition) (flags : U64) : Bool :=
  let cf := contains flags RFlags.CF
  let zf := contains flags RFlags.ZF
  let sf := contains flags RFlags.SF
  let of := contains flags RFlags.OF
  let pf := contains flags RFlags.PF
  match condition with
  | .o => of
  | .no => !of
  | .b => cf
  | .ae => !cf
  | .e => zf
  | .ne => !zf
  | .be => cf || zf
  | .a => !cf && !zf
  | .s => sf
  | .ns => !sf
  | .p => pf
  | .np => !pf
  | .l => sf != of
  | .ge => sf == of
  | .le => zf || sf != of
  | .g => !zf && sf == of

/-- The condition of a condition-code instruction, which is all the dispatcher routes here. -/
def expectCondition (mnemonic : Mnemonic) : Outcome CpuError Condition :=
  match conditionOf mnemonic with
  | some condition => .ok condition
  | none => .panic

/-! ## Jumps -/

def ripIn (mode : CpuMode) (target : U64) : U64 :=
  match mode with
  | .long => target
  | .protected32 => target &&& 0xFFFFFFFF
  | _ => target &&& 0xFFFF

def setRip (target : U64) : CpuM Unit := updateRegs fun r => { r with rip := ripIn r.mode target }

def isNear (kind : OpKind) : Bool := kind = .nearBranch16 ∨ kind = .nearBranch32 ∨ kind = .nearBranch64

def isFar (kind : OpKind) : Bool := kind = .farBranch16 ∨ kind = .farBranch32

def loadCs (selector : U16) : CpuM Unit := do
  let loaded ← loadCodeSegment ⟨selector⟩
  updateRegs fun r => { r with cs := loaded }

def unimplemented {α : Type} (code : String) : CpuM α := do
  let c ← get
  Exec.fail (.unimplementedInstruction code c.regs.rip [])

variable (i : Instruction)

def jumpFar : CpuM Unit := do
  loadCs i.farBranchSelector
  setRip (i.farBranch32.setWidth 64)

def nearTarget (name : String) (i : Instruction) : CpuM U64 :=
  if isNear (i.opKind 0) then return i.nearBranchTarget
  else if i.opKind 0 = .memory ∨ i.opKind 0 = .register then readOperand0 i
  else unimplemented name

def jumpNear : CpuM Unit := do
  let target ← nearTarget "jmp" i
  setRip target

/-- A jump of the loop family decrements the whole of RCX, whatever the mode names its counter. -/
def loopTaken (mnemonic : Mnemonic) (r : Registers) : Bool :=
  let nonzero := r.gpr index.RCX != 0
  if mnemonic = .loope then nonzero && contains r.rflags RFlags.ZF
  else if mnemonic = .loopne then nonzero && !contains r.rflags RFlags.ZF
  else nonzero

def loop : CpuM Unit := do
  updateRegs fun r => r.setGpr index.RCX (r.gpr index.RCX - 1)
  let c ← get
  Exec.when (loopTaken i.mnemonic c.regs) (setRip i.nearBranchTarget)

def jumpIfZero (size : Nat) : CpuM Unit := do
  let c ← get
  Exec.when (readRegister c.regs (registerOf size index.RCX) size = 0) (setRip i.nearBranchTarget)

def jump : CpuM Unit :=
  if i.mnemonic = .jmp then if isFar (i.opKind 0) then jumpFar i else jumpNear i
  else if i.mnemonic = .jcxz then jumpIfZero i 2
  else if i.mnemonic = .jecxz then jumpIfZero i 4
  else if i.mnemonic = .jrcxz then jumpIfZero i 8
  else if i.mnemonic ∈ [.loop, .loope, .loopne] then loop i
  else return ()

def jcc : CpuM Unit := do
  let condition ← Exec.lift (expectCondition i.mnemonic)
  let c ← get
  Exec.when (conditionHolds condition c.regs.rflags) (setRip i.nearBranchTarget)

/-! ## Calls and returns -/

def callFar : CpuM Unit := do
  let c ← get
  pushNative (c.regs.cs.selector.raw.setWidth 64)
  pushNative c.regs.rip
  loadCs i.farBranchSelector
  setRip (i.farBranch32.setWidth 64)

def callNear : CpuM Unit := do
  let target ← nearTarget "call" i
  let c ← get
  pushNative c.regs.rip
  setRip target

def call : CpuM Unit := if isFar (i.opKind 0) then callFar i else callNear i

/-- The bytes a return takes off the stack after its slots. -/
def retExtra : U64 :=
  if i.opKind 0 = .immediate16 ∨ i.opKind 0 = .immediate8to16 then (i.immediate 0).setWidth 16 |>.setWidth 64 else 0

def finishRet (target : U64) : CpuM Unit := do
  updateRegs fun r => r.setGpr index.RSP (r.rsp + retExtra i)
  setRip target

def retNear : CpuM Unit := do
  let target ← popNative
  finishRet i target

/-- Both slots have the natural width of the mode. -/
def retFar : CpuM Unit := do
  let target ← popNative
  let selector ← popNative
  loadCs (selector.setWidth 16)
  finishRet i target

def ret : CpuM Unit :=
  if isFar (i.opKind 0) ∨ i.mnemonic = .retf then retFar i else retNear i

/-! ## Conditional moves and sets -/

def cmovSource : CpuM U64 :=
  if i.opKind 1 = .memory then readOperand i (memorySize i) else viewRegister (i.opRegister 1) (operandSize i 1)

/-- A 32-bit move that is not taken still zeroes the upper half in long mode. -/
def cmovInto (taken : Bool) (value : U64) (r : Registers) : Registers :=
  let size := operandSize i 0
  if taken then writeRegister r (i.opRegister 0) size value
  else if size = 4 ∧ contains r.efer Efer.LMA then
    writeRegister r (i.opRegister 0) 4 (readRegister r (i.opRegister 0) 4)
  else r

/-- The source is read before the condition is tested. -/
def cmovcc : CpuM Unit := do
  let condition ← Exec.lift (expectCondition i.mnemonic)
  let value ← cmovSource i
  updateRegs fun r => cmovInto i (conditionHolds condition r.rflags) value r

def setcc : CpuM Unit := do
  let condition ← Exec.lift (expectCondition i.mnemonic)
  let c ← get
  let value : U64 := if conditionHolds condition c.regs.rflags then 1 else 0
  if i.opKind 0 = .memory then writeOperand i 1 value else setRegister (i.opRegister 0) 1 value

/-! ## Flags -/

/-- The flags SAHF and LAHF exchange with AH. -/
def statusFlags : U64 := RFlags.SF ||| RFlags.ZF ||| RFlags.AF ||| RFlags.PF ||| RFlags.CF

def mapFlags (f : U64 → U64) : CpuM Unit := updateRegs fun r => { r with rflags := f r.rflags }

/-- The instruction after STI executes before any delivery. -/
def sti : CpuM Unit := do
  Exec.update fun c => { c with interruptShadow := c.interruptShadow || !contains c.regs.rflags RFlags.IF }
  mapFlags (· ||| RFlags.IF)

def sahf : CpuM Unit := updateRegs fun r =>
  { r with rflags := (r.rflags &&& ~~~statusFlags) ||| RFlags.fromBitsTruncate (readRegister r (.high8 0) 1) }

def lahf : CpuM Unit := updateRegs fun r => writeRegister r (.high8 0) 1 (r.rflags &&& statusFlags)

def flagOps : CpuM Unit :=
  if i.mnemonic = .stc then mapFlags (· ||| RFlags.CF)
  else if i.mnemonic = .clc then mapFlags (· &&& ~~~RFlags.CF)
  else if i.mnemonic = .cmc then mapFlags (· ^^^ RFlags.CF)
  else if i.mnemonic = .cld then mapFlags (· &&& ~~~RFlags.DF)
  else if i.mnemonic = .std then mapFlags (· ||| RFlags.DF)
  else if i.mnemonic = .cli then mapFlags (· &&& ~~~RFlags.IF)
  else if i.mnemonic = .sti then sti
  else if i.mnemonic = .sahf then sahf
  else if i.mnemonic = .lahf then lahf
  else return ()

end Rish.SoftVm.Ops
