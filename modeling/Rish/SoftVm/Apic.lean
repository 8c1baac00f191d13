/-
  Rish.SoftVm.Apic — the interrupt controllers behind the memory-mapped windows: the local APIC at
  0xFEE00000 and the I/O APIC at 0xFEC00000.

  Arrays of the source keep their length in their type. A subscript or a subtraction the source
  writes without a check is a `panic` of the model, so that its absence is something to prove.
-/

import Rish.Lib.Exec
import Rish.Lib.Bytes

namespace Rish.SoftVm

open Lib
open BitVec (ofNat)
open Function (update)

/-! ## The local APIC -/

namespace Lapic

def BASE : U64 := 0xFEE00000
def SIZE : U64 := 0x1000
def LVT_MASKED : U32 := 1#32 <<< 16
def LVT_TIMER_MODE : U32 := 0b11#32 <<< 17
def LVT_TIMER_PERIODIC : U32 := 1#32 <<< 17
def SVR_ENABLED : U32 := 1#32 <<< 8
def ICR_SHORTHAND_SELF : U32 := 0b01#32 <<< 18
def ICR_DELIVERY_MODE : U32 := 0b111#32 <<< 8
def ICR_DELIVERY_PENDING : U32 := 1#32 <<< 12
def QUEUE_LIMIT : Nat := 64

end Lapic

structure LocalApic where
  id : U32
  svr : U32
  tpr : U32
  ldr : U32
  dfr : U32
  esr : U32
  icrLo : U32
  icrHi : U32
  lvtTimer : U32
  lvtThermal : U32
  lvtPerf : U32
  lvtLint0 : U32
  lvtLint1 : U32
  lvtError : U32
  timerInitial : U32
  timerCurrent : U32
  timerDivide : U32
  timerFractional : U64
  /-- Vectors accepted but not yet delivered. -/
  irr : Fin 8 → U32
  /-- Vectors delivered and awaiting EOI. -/
  isr : Fin 8 → U32
  interruptQueue : List U8

namespace LocalApic

open Lapic

def new : LocalApic where
  id := 0
  svr := 0xFF
  tpr := 0
  ldr := 0
  dfr := 0xFFFFFFFF
  esr := 0
  icrLo := 0
  icrHi := 0
  lvtTimer := LVT_MASKED
  lvtThermal := LVT_MASKED
  lvtPerf := LVT_MASKED
  lvtLint0 := LVT_MASKED
  lvtLint1 := LVT_MASKED
  lvtError := LVT_MASKED
  timerInitial := 0
  timerCurrent := 0
  timerDivide := 0
  timerFractional := 0
  irr := fun _ => 0
  isr := fun _ => 0
  interruptQueue := []

variable (a : LocalApic)

def softwareEnabled : Bool := a.svr &&& SVR_ENABLED != 0

variable (vector : U8)

def word : Fin 8 := ⟨vector.toNat / 32, by have := vector.isLt; omega⟩

def bit : U32 := 1#32 <<< (vector.toNat % 32)

def request : LocalApic :=
  { a with irr := update a.irr (word vector) (a.irr (word vector) ||| bit vector) }

/-- The highest vector of a bitmap, scanning from the last word down. -/
def highest (bitmap : Fin 8 → U32) : Option U8 :=
  ((List.finRange 8).reverse.find? fun i => bitmap i != 0).map fun i =>
    ofNat 8 (i.val * 32 + (bitmap i).toNat.log2)

/-- Moves the highest requested vector into service, when it outranks the task priority and
    everything in service. -/
def dispatchReady : LocalApic :=
  if !a.softwareEnabled then a else
  match highest a.irr with
  | none => a
  | some vector =>
    let priority := vector.toNat >>> 4
    if priority ≤ (a.tpr >>> 4).toNat then a else
    if (highest a.isr).any fun inService => inService.toNat >>> 4 ≥ priority then a else
    { a with
      irr := update a.irr (word vector) (a.irr (word vector) &&& ~~~bit vector)
      isr := update a.isr (word vector) (a.isr (word vector) ||| bit vector)
      interruptQueue :=
        if a.interruptQueue.length < QUEUE_LIMIT then a.interruptQueue ++ [vector] else a.interruptQueue }

def endOfInterrupt : Option U8 × LocalApic :=
  match highest a.isr with
  | none => (none, a.dispatchReady)
  | some vector =>
    (some vector, dispatchReady
      { a with isr := update a.isr (word vector) (a.isr (word vector) &&& ~~~bit vector) })

def popInterrupt : Option U8 × LocalApic :=
  match a.interruptQueue with
  | [] => (none, a)
  | v :: rest => (some v, { a with interruptQueue := rest })

def divisor (configuration : U32) : Nat :=
  match (configuration &&& 0b1011).toNat with
  | 0b0000 => 2
  | 0b0001 => 4
  | 0b0010 => 8
  | 0b0011 => 16
  | 0b1000 => 32
  | 0b1001 => 64
  | 0b1010 => 128
  | _ => 1

def raiseLvt (entry : U32) : LocalApic :=
  if entry &&& LVT_MASKED != 0 || !a.softwareEnabled then a else
  let vector : U8 := entry.setWidth 8
  if vector.toNat ≥ 16 then a.request vector else a

def advanceTimer (instructions : Nat) : LocalApic :=
  if a.timerInitial = 0 ∨ a.timerCurrent = 0 then a else
  let divide := divisor a.timerDivide
  let fractional := min (a.timerFractional.toNat + instructions) (2 ^ 64 - 1)
  let elapsed := fractional / divide
  let a := { a with timerFractional := ofNat 64 fractional }
  if elapsed = 0 then a else
  let a := { a with timerFractional := ofNat 64 (fractional - elapsed * divide) }
  let remaining := a.timerCurrent.toNat
  if elapsed < remaining then { a with timerCurrent := ofNat 32 (remaining - elapsed) } else
  let period := a.timerInitial.toNat
  let current :=
    if a.lvtTimer &&& LVT_TIMER_MODE = LVT_TIMER_PERIODIC then period - (elapsed - remaining) % period else 0
  let a := { a with timerCurrent := ofNat 32 current }
  a.raiseLvt a.lvtTimer

def tick (instructions : Nat) : LocalApic := (a.advanceTimer instructions).dispatchReady

def processorPriority : U32 :=
  let inService := ((highest a.isr).map fun v => (v.toNat >>> 4) <<< 4).getD 0
  ofNat 32 (max (a.tpr &&& 0xF0).toNat inService)

/-- The plain registers, by aligned offset. -/
def registers : List (U64 × U32) :=
  [(0x20, a.id <<< 24), (0x30, 0x00050014), (0x80, a.tpr), (0x90, 0), (0xA0, a.processorPriority), (0xB0, 0),
    (0xC0, 0), (0xD0, a.ldr), (0xE0, a.dfr), (0xF0, a.svr), (0x280, a.esr),
    (0x300, a.icrLo &&& ~~~ICR_DELIVERY_PENDING), (0x310, a.icrHi), (0x320, a.lvtTimer),
    (0x330, a.lvtThermal), (0x340, a.lvtPerf), (0x350, a.lvtLint0), (0x360, a.lvtLint1),
    (0x370, a.lvtError), (0x380, a.timerInitial), (0x390, a.timerCurrent), (0x3E0, a.timerDivide)]

/-- The register an aligned offset names. The bitmap subscripts are unchecked in the source; the
    trigger-mode bitmap is edge-only and reads as zero, as every offset without a register does. -/
def register {ε : Type} (aligned : U64) : Outcome ε U32 :=
  if 0x100 ≤ aligned ∧ aligned ≤ 0x17F then Outcome.index a.isr ((aligned - 0x100).toNat / 16)
  else if 0x200 ≤ aligned ∧ aligned ≤ 0x27F then Outcome.index a.irr ((aligned - 0x200).toNat / 16)
  else .ok ((a.registers.lookup aligned).getD 0)

def read {ε : Type} (offset : U64) (size : U8) : Outcome ε U32 := do
  let value ← a.register (offset &&& ~~~(0x3 : U64))
  if size = 1 then return (value >>> ((offset &&& 3).toNat * 8)) &&& 0xFF
  else if size = 2 then return (value >>> ((offset &&& 2).toNat * 8)) &&& 0xFFFF
  else return value

/-- A write to the interrupt command register: only an IPI to this APIC itself lands. -/
def sendIpi (value : U32) : LocalApic :=
  let a := { a with icrLo := value }
  if value &&& ICR_DELIVERY_MODE != 0 then a else
  let shorthand := value &&& (0b11#32 <<< 18)
  if shorthand = ICR_SHORTHAND_SELF ∨ (shorthand = 0 ∧ a.icrHi >>> 24 = a.id) then
    let vector : U8 := value.setWidth 8
    if vector.toNat ≥ 16 then (a.request vector).dispatchReady else a
  else a

/-- A register write, with the vector it retired if it was an EOI. -/
def write (offset : U64) (size : U8) (value : U32) : Option U8 × LocalApic :=
  if size ≠ 4 then (none, a)
  else if offset = 0x20 then (none, { a with id := value >>> 24 })
  else if offset = 0x80 then (none, dispatchReady { a with tpr := value &&& 0xFF })
  else if offset = 0xB0 then a.endOfInterrupt
  else if offset = 0xD0 then (none, { a with ldr := value &&& 0xFF000000 })
  else if offset = 0xE0 then (none, { a with dfr := value ||| 0x0FFFFFFF })
  else if offset = 0xF0 then
    let a := { a with svr := value }
    (none, if a.softwareEnabled then a.dispatchReady else a)
  else if offset = 0x280 then (none, { a with esr := 0 })
  else if offset = 0x310 then (none, { a with icrHi := value })
  else if offset = 0x300 then (none, a.sendIpi value)
  else if offset = 0x320 then (none, { a with lvtTimer := value })
  else if offset = 0x330 then (none, { a with lvtThermal := value })
  else if offset = 0x340 then (none, { a with lvtPerf := value })
  else if offset = 0x350 then (none, { a with lvtLint0 := value })
  else if offset = 0x360 then (none, { a with lvtLint1 := value })
  else if offset = 0x370 then (none, { a with lvtError := value })
  else if offset = 0x380 then
    (none, { a with timerInitial := value, timerCurrent := value, timerFractional := 0 })
  else if offset = 0x3E0 then (none, { a with timerDivide := value &&& 0b1011 })
  else (none, a)

theorem register_ok {ε : Type} (aligned) : ∃ v, a.register aligned = (.ok v : Outcome ε U32) := by
  unfold register
  by_cases hisr : 0x100 ≤ aligned ∧ aligned ≤ 0x17F
  · rw [if_pos hisr, Outcome.index_ok (show (aligned - 0x100).toNat / 16 < 8 by bv_omega)]
    exact ⟨_, rfl⟩
  by_cases hirr : 0x200 ≤ aligned ∧ aligned ≤ 0x27F
  · rw [if_neg hisr, if_pos hirr, Outcome.index_ok (show (aligned - 0x200).toNat / 16 < 8 by bv_omega)]
    exact ⟨_, rfl⟩
  · rw [if_neg hisr, if_neg hirr]
    exact ⟨_, rfl⟩

theorem read_ok {ε : Type} (offset) (size : U8) : ∃ v, a.read offset size = (.ok v : Outcome ε U32) := by
  obtain ⟨v, hv⟩ := a.register_ok (ε := ε) (offset &&& ~~~(0x3 : U64))
  simp only [read, hv, Outcome.bind_ok, Outcome.pure_eq]
  by_cases h1 : size = 1
  · exact ⟨_, if_pos h1⟩
  by_cases h2 : size = 2
  · exact ⟨_, by rw [if_neg h1, if_pos h2]⟩
  · exact ⟨_, by rw [if_neg h1, if_neg h2]⟩

end LocalApic

/-! ## The I/O APIC -/

namespace Ioapic

def BASE : U64 := 0xFEC00000
def SIZE : U64 := 0x1000
def PINS : Nat := 24
def IOREGSEL : U64 := 0x00
def IOWIN : U64 := 0x10
def IOEOI : U64 := 0x40
def REG_ID : U32 := 0x00
def REG_VERSION : U32 := 0x01
def REG_ARBITRATION : U32 := 0x02
def REG_REDIRECTION_BASE : U32 := 0x10
def ENTRY_MASKED : U64 := 1#64 <<< 16
def ENTRY_LEVEL_TRIGGERED : U64 := 1#64 <<< 15
def ENTRY_REMOTE_IRR : U64 := 1#64 <<< 14

end Ioapic

structure IoApic where
  id : U32
  registerSelect : U32
  redirection : Fin Ioapic.PINS → U64
  /-- Current level of each input line. -/
  lines : U32

namespace IoApic

open Ioapic

def new : IoApic where
  id := 0
  registerSelect := 0
  redirection := fun _ => ENTRY_MASKED
  lines := 0

variable (a : IoApic)

/-- One pin of a line change that rises: the vector fires unless the entry is masked, or level
    triggered with its remote IRR set. -/
def raisePin (pin : Fin PINS) : List U8 × IoApic :=
  let entry := a.redirection pin
  let vector : U8 := entry.setWidth 8
  let fired := if vector.toNat ≥ 16 then [vector] else []
  if entry &&& ENTRY_MASKED != 0 then ([], a)
  else if entry &&& ENTRY_LEVEL_TRIGGERED != 0 then
    if entry &&& ENTRY_REMOTE_IRR != 0 then ([], a)
    else (fired, { a with redirection := update a.redirection pin (entry ||| ENTRY_REMOTE_IRR) })
  else (fired, a)

def setLines (lines : U32) : List U8 × IoApic :=
  let rising := lines &&& ~~~a.lines
  (List.finRange PINS).foldl
    (fun (fired, a) (pin : Fin PINS) =>
      if rising.getLsbD pin then let (v, a) := a.raisePin pin; (fired ++ v, a) else (fired, a))
    ([], { a with lines })

/-- One pin of an EOI for a vector: the remote IRR drops, and is set again when the line is still
    asserted and the entry unmasked. -/
def retirePin (vector : U8) (pin : Fin PINS) : List U8 × IoApic :=
  let entry := a.redirection pin
  if entry &&& ENTRY_LEVEL_TRIGGERED = 0 ∨ entry &&& ENTRY_REMOTE_IRR = 0 ∨ entry.setWidth 8 ≠ vector then
    ([], a)
  else if a.lines.getLsbD pin ∧ entry &&& ENTRY_MASKED = 0 then ([vector], a)
  else
    ([], { a with redirection := update a.redirection pin (entry &&& ~~~ENTRY_REMOTE_IRR) })

def endOfInterrupt (vector : U8) : List U8 × IoApic :=
  (List.finRange PINS).foldl
    (fun (refired, a) pin => let (v, a) := a.retirePin vector pin; (refired ++ v, a))
    ([], a)

/-- The number of a redirection register past the first. The source subtracts without a check. -/
def redirectionIndex {ε : Type} (register : U32) : Outcome ε Nat :=
  if register < REG_REDIRECTION_BASE then .panic else .ok (register - REG_REDIRECTION_BASE).toNat

def readRegister {ε : Type} (register : U32) : Outcome ε U32 :=
  if register = REG_ID then .ok (a.id <<< 24)
  else if register = REG_VERSION then .ok (0x11#32 ||| (23#32 <<< 16))
  else if register = REG_ARBITRATION then .ok (a.id <<< 24)
  else do
    let index ← redirectionIndex register
    if h : index / 2 < PINS then
      let entry := a.redirection ⟨index / 2, h⟩
      return if index % 2 = 0 then entry.setWidth 32 else (entry >>> 32).setWidth 32
    else return 0

def writeRegister {ε : Type} (register value : U32) : Outcome ε IoApic :=
  if register = REG_ID then .ok { a with id := (value >>> 24) &&& 0xF }
  else if register = REG_VERSION ∨ register = REG_ARBITRATION then .ok a
  else do
    let index ← redirectionIndex register
    if h : index / 2 < PINS then
      let entry := a.redirection ⟨index / 2, h⟩
      let writable : U64 := 0xFFFFFFFF &&& ~~~(ENTRY_REMOTE_IRR ||| (1#64 <<< 12))
      let new :=
        if index % 2 = 0 then (entry &&& ~~~writable) ||| (value.setWidth 64 &&& writable)
        else (entry &&& 0xFFFFFFFF) ||| (value.setWidth 64 <<< 32)
      return { a with redirection := update a.redirection ⟨index / 2, h⟩ new }
    else return a

def read {ε : Type} (offset : U64) : Outcome ε U32 :=
  if offset = IOREGSEL then .ok a.registerSelect
  else if offset = IOWIN then a.readRegister a.registerSelect
  else .ok 0

def write {ε : Type} (offset : U64) (value : U32) : Outcome ε IoApic :=
  if offset = IOREGSEL then .ok { a with registerSelect := value &&& 0xFF }
  else if offset = IOWIN then a.writeRegister a.registerSelect value
  else if offset = IOEOI then .ok (a.endOfInterrupt (value.setWidth 8)).2
  else .ok a

variable {ε : Type}

theorem redirectionIndex_panic_iff (register) :
    redirectionIndex register = (.panic : Outcome ε Nat) ↔ register < REG_REDIRECTION_BASE := by
  unfold redirectionIndex
  split <;> simp [*]

theorem redirected_panic_iff {α : Type} {f : Nat → Outcome ε α} (hf : ∀ index, f index ≠ .panic) (register) :
    (redirectionIndex register >>= f) = .panic ↔ register < REG_REDIRECTION_BASE := by
  rw [← redirectionIndex_panic_iff (ε := ε)]
  cases redirectionIndex (ε := ε) register <;> simp [hf]

theorem readRegister_panic_iff (register) :
    a.readRegister register = (.panic : Outcome ε U32) ↔ 3 ≤ register ∧ register < REG_REDIRECTION_BASE := by
  unfold readRegister
  split
  · rename_i h; subst h; simp [REG_ID]
  split
  · rename_i h; subst h; simp [REG_VERSION]
  split
  · rename_i h; subst h; simp [REG_ARBITRATION]
  · rename_i h0 h1 h2
    have hge : 3 ≤ register := by
      simp only [REG_ID, REG_VERSION, REG_ARBITRATION] at h0 h1 h2
      bv_omega
    rw [and_iff_right hge, redirected_panic_iff fun index => ?_]
    split <;> simp

theorem writeRegister_panic_iff (register value) :
    a.writeRegister register value = (.panic : Outcome ε IoApic) ↔
      3 ≤ register ∧ register < REG_REDIRECTION_BASE := by
  unfold writeRegister
  split
  · rename_i h; subst h; simp [REG_ID]
  split
  · rename_i h
    rcases h with h | h <;> subst h <;> simp [REG_VERSION, REG_ARBITRATION]
  · rename_i h0 h1
    have hge : 3 ≤ register := by
      simp only [REG_ID, REG_VERSION, REG_ARBITRATION, not_or] at h0 h1
      bv_omega
    rw [and_iff_right hge, redirected_panic_iff fun index => ?_]
    split <;> simp

end IoApic

end Rish.SoftVm
