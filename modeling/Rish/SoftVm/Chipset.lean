/-
  Rish.SoftVm.Chipset — the devices behind the I/O ports: the 8259 pair, the 8254 timer, the CMOS
  clock, the ACPI power-management block and the two serial ports.

  No other device is ever attached to the port bus, so an unclaimed port reads all ones and drops
  writes.
-/

import Rish.Lib.Bytes

namespace Rish.SoftVm

open Lib
open BitVec (ofNat)

/-! ## The 8259 pair -/

structure Pic where
  vectorOffset : U8
  mask : U8
  initState : Nat
  expectIcw4 : Bool
  inService : U8
  /-- Set once the initialisation words are complete; before that the chip delivers nothing. -/
  initialized : Bool

namespace Pic

def new : Pic := ⟨0, 0, 0, false, 0, false⟩

variable (p : Pic)

def writeCommand (value : U8) : Pic :=
  if value &&& 0x10 != 0 then { p with initState := 1, expectIcw4 := value &&& 0x01 != 0, initialized := false }
  else if value &&& 0b11100000 = 0b01100000 then
    { p with inService := p.inService &&& ~~~(1#8 <<< (value &&& 0b111).toNat) }
  else if value &&& 0b11100000 = 0x20 then { p with inService := 0 }
  else p

def writeData (value : U8) : Pic :=
  match p.initState with
  | 1 => { p with vectorOffset := value &&& 0xF8, initState := 2 }
  | 2 => { p with initState := 3 }
  | 3 => { p with initialized := p.initialized || (p.expectIcw4 && value &&& 0x01 != 0), initState := 0 }
  | _ => { p with mask := value }

end Pic

structure Pic8259 where
  master : Pic
  slave : Pic
  inputs : U16
  /-- Edges seen and not yet acknowledged. -/
  latched : U16

namespace Pic8259

def new : Pic8259 := ⟨.new, .new, 0, 0⟩

variable (p : Pic8259)

/-- The lowest set bit of a byte. -/
def lowest (v : U8) : Option Nat := (List.range 8).find? fun i => v.getLsbD i

def pendingIrq : Option Nat :=
  if !p.master.initialized then none else
  let requests := p.inputs ||| p.latched
  let slaveBits : U8 :=
    if p.slave.initialized then (requests >>> 8).setWidth 8 &&& ~~~p.slave.mask &&& ~~~p.slave.inService else 0
  let direct : U8 := requests.setWidth 8 &&& ~~~p.master.mask &&& ~~~p.master.inService &&& ~~~(1#8 <<< 2)
  let cascade : U8 := if slaveBits != 0 then 1#8 <<< 2 else 0
  match lowest (direct ||| cascade) with
  | none => none
  | some 2 => (lowest slaveBits).map (8 + ·)
  | some line => some line

def acknowledge (irq : Nat) : U8 × Pic8259 :=
  if !p.master.initialized || (irq ≥ 8 && !p.slave.initialized) then (0, p) else
  let p := { p with latched := p.latched &&& ~~~(1#16 <<< irq) }
  if irq ≥ 8 then
    (p.slave.vectorOffset + ofNat 8 (irq - 8),
      { p with
        slave := { p.slave with inService := p.slave.inService ||| (1#8 <<< (irq - 8)) }
        master := { p.master with inService := p.master.inService ||| (1#8 <<< 2) } })
  else
    (p.master.vectorOffset + ofNat 8 irq,
      { p with master := { p.master with inService := p.master.inService ||| (1#8 <<< irq) } })

def pulse (line : Nat) : Pic8259 := if line < 16 then { p with latched := p.latched ||| (1#16 <<< line) } else p

def setInput (asserted : U16) : Pic8259 :=
  { p with latched := p.latched ||| (asserted &&& ~~~p.inputs), inputs := asserted }

def read (port : U16) : U32 :=
  if port = 0x21 then p.master.mask.setWidth 32 else if port = 0xA1 then p.slave.mask.setWidth 32 else 0

def write (port : U16) (value : U32) : Pic8259 :=
  let value : U8 := value.setWidth 8
  if port = 0x20 then { p with master := p.master.writeCommand value }
  else if port = 0x21 then { p with master := p.master.writeData value }
  else if port = 0xA0 then { p with slave := p.slave.writeCommand value }
  else if port = 0xA1 then { p with slave := p.slave.writeData value }
  else p

end Pic8259

/-! ## The 8254 timer -/

inductive PitAccess where
  | lowByte | highByte | lowHigh
  deriving DecidableEq

structure PitChannel where
  reload : U16
  counter : U16
  mode : U8
  access : PitAccess
  partialWrite : Option U8
  latched : Option U16
  readHighNext : Bool
  gate : Bool
  output : Bool

namespace PitChannel

def new (gate : Bool) : PitChannel := ⟨0xFFFF, 0xFFFF, 0, .lowHigh, none, none, false, gate, false⟩

variable (c : PitChannel)

/-- Counts down by `ticks`; the flag is a pulse of the output. -/
def advance (ticks : Nat) : Bool × PitChannel :=
  if !c.gate then (false, c) else
  let period := max c.reload.toNat 1
  let remaining := c.counter.toNat
  if c.mode &&& 0b111 = 0 ∨ c.mode &&& 0b111 = 4 then
    if ticks ≥ remaining then (!c.output, { c with counter := 0, output := true })
    else (false, { c with counter := c.counter - ofNat 16 ticks })
  else if ticks < remaining then (false, { c with counter := c.counter - ofNat 16 ticks, output := false })
  else (true, { c with counter := ofNat 16 (period - (ticks - remaining) % period), output := true })

def read : U8 × PitChannel :=
  let value := c.latched.getD c.counter
  match c.access with
  | .lowByte => (value.setWidth 8, { c with latched := none })
  | .highByte => ((value >>> 8).setWidth 8, { c with latched := none })
  | .lowHigh =>
    if c.readHighNext then ((value >>> 8).setWidth 8, { c with readHighNext := false, latched := none })
    else (value.setWidth 8, { c with readHighNext := true })

def reloadWith (reload : U16) : PitChannel := { c with reload, counter := reload, output := false }

def write (value : U8) : PitChannel :=
  match c.access with
  | .lowByte => c.reloadWith (value.setWidth 16)
  | .highByte => c.reloadWith (value.setWidth 16 <<< 8)
  | .lowHigh =>
    match c.partialWrite with
    | none => { c with partialWrite := some value }
    | some low => { c with partialWrite := none }.reloadWith (low.setWidth 16 ||| (value.setWidth 16 <<< 8))

end PitChannel

structure Pit8254 where
  channels : Fin 3 → PitChannel
  controlB : U8
  fractionalTicks : Nat
  refreshNanoseconds : Nat
  refreshState : Bool

namespace Pit8254

def PIT_BASE_FREQUENCY_HZ : Nat := 1193182
def REFRESH_TOGGLE_NANOSECONDS : Nat := 15085

def new : Pit8254 := ⟨fun i => .new (i != 2), 0, 0, 0, false⟩

variable (p : Pit8254)

def saturate (n : Nat) : Nat := min n (2 ^ 64 - 1)

/-- Advances guest time; the flag is a pulse of channel 0. The refresh bit toggles once per elapsed
    refresh interval. -/
def advance (nanoseconds : Nat) : Bool × Pit8254 :=
  let refresh := saturate (p.refreshNanoseconds + nanoseconds)
  let toggles := refresh / REFRESH_TOGGLE_NANOSECONDS
  let fractional := saturate (p.fractionalTicks + saturate (nanoseconds * PIT_BASE_FREQUENCY_HZ))
  let ticks := fractional / 1000000000
  let p := { p with
    refreshNanoseconds := refresh % REFRESH_TOGGLE_NANOSECONDS
    refreshState := if toggles % 2 = 0 then p.refreshState else !p.refreshState
    fractionalTicks := fractional }
  if ticks = 0 then (false, p)
  else
    (((p.channels 0).advance ticks).1,
      { p with
        fractionalTicks := fractional - ticks * 1000000000
        channels := fun i => ((p.channels i).advance ticks).2 })

def readControlB : U8 :=
  (p.controlB &&& 0b11) ||| (if p.refreshState then 1#8 <<< 4 else 0) |||
    (if (p.channels 2).output then 1#8 <<< 5 else 0)

def writeControlB (value : U8) : Pit8254 :=
  { p with
    controlB := value &&& 0b11
    channels := Function.update p.channels 2 { p.channels 2 with gate := value &&& 1 != 0 } }

variable (port : U16)

def channelOf : Option (Fin 3) :=
  if port = 0x40 then some 0 else if port = 0x41 then some 1 else if port = 0x42 then some 2 else none

def read : U32 × Pit8254 :=
  if port = 0x61 then (p.readControlB.setWidth 32, p)
  else
    match channelOf port with
    | none => (0xFFFFFFFF, p)
    | some i =>
      let (v, c) := (p.channels i).read
      (v.setWidth 32, { p with channels := Function.update p.channels i c })

/-- A mode/command write: a counter latch, or a new access and counting mode. -/
def command (c : PitChannel) (value : U32) : PitChannel :=
  let access := ((value >>> 4) &&& 0b11).toNat
  if access = 0 then { c with latched := some c.counter, readHighNext := false }
  else
    { c with
      access := if access = 1 then .lowByte else if access = 2 then .highByte else .lowHigh
      mode := ((value >>> 1) &&& 0b111).setWidth 8
      partialWrite := none
      readHighNext := false
      latched := none
      output := false }

def write (value : U32) : Pit8254 :=
  if port = 0x61 then p.writeControlB (value.setWidth 8)
  else if port = 0x43 then
    if h : ((value >>> 6) &&& 0b11).toNat < 3 then
      { p with channels := Function.update p.channels ⟨_, h⟩ (command (p.channels ⟨_, h⟩) value) }
    else p
  else
    match channelOf port with
    | none => p
    | some i => { p with channels := Function.update p.channels i ((p.channels i).write (value.setWidth 8)) }

end Pit8254

/-! ## The CMOS clock -/

structure Cmos where
  index : U8
  bootEpochSeconds : U64

namespace Cmos

def bcd (value : Nat) : U8 := (ofNat 8 (value / 10) <<< 4) ||| ofNat 8 (value % 10)

/-- Days since 1970-01-01 to year, month and day. -/
def civilFromDays (days : Int) : Int × Nat × Nat :=
  let z := days + 719468
  let era := (if z ≥ 0 then z else z - 146096).tdiv 146097
  let doe := z - era * 146097
  let yoe := (doe - doe.tdiv 1460 + doe.tdiv 36524 - doe.tdiv 146096).tdiv 365
  let y := yoe + era * 400
  let doy := doe - (365 * yoe + yoe.tdiv 4 - yoe.tdiv 100)
  let mp := (5 * doy + 2).tdiv 153
  let d := doy - (153 * mp + 2).tdiv 5 + 1
  let m := if mp < 10 then mp + 3 else mp - 9
  (if m ≤ 2 then y + 1 else y, m.toNat, d.toNat)

variable (c : Cmos)

def readRegister (register : U8) : U8 :=
  let epoch := c.bootEpochSeconds.toNat
  let days : Int := epoch / 86400
  let (year, month, day) := civilFromDays days
  match register.toNat with
  | 0x00 => bcd (epoch % 60)
  | 0x02 => bcd (epoch / 60 % 60)
  | 0x04 => bcd (epoch / 3600 % 24)
  | 0x06 => bcd (((days + 4) % 7).toNat + 1)
  | 0x07 => bcd day
  | 0x08 => bcd month
  | 0x09 => bcd (year % 100).toNat
  | 0x0A => 0x20
  | 0x0B => 0x02
  | 0x32 => bcd (year.tdiv 100).toNat
  | _ => 0

def read (port : U16) : U32 := if port = 0x71 then (c.readRegister c.index).setWidth 32 else 0xFFFFFFFF

def write (port : U16) (value : U32) : Cmos := if port = 0x70 then { c with index := value.setWidth 8 } else c

end Cmos

/-! ## ACPI power management -/

structure AcpiPm where
  status : U16
  enable : U16
  control : U16

namespace AcpiPm

def new : AcpiPm := ⟨0, 0, 1⟩

def handles (port : U16) : Bool := 0x600 ≤ port ∧ port ≤ 0x60B

variable (p : AcpiPm)

def read (port : U16) (tsc : U64) : U32 :=
  if port = 0x600 then p.status.setWidth 32
  else if port = 0x602 then p.enable.setWidth 32
  else if port = 0x604 then p.control.setWidth 32
  else if port = 0x608 then ((tsc >>> 2) &&& 0x00FFFFFF).setWidth 32
  else 0

def write (port : U16) (value : U32) : AcpiPm :=
  if port = 0x600 then { p with status := p.status &&& ~~~(value.setWidth 16) }
  else if port = 0x602 then { p with enable := value.setWidth 16 }
  else if port = 0x604 then { p with control := value.setWidth 16 ||| 1 }
  else p

end AcpiPm

/-! ## Serial ports -/

structure Uart16550 where
  base : U16
  input : List U8
  output : List U8
  inputCapacity : Nat
  outputCapacity : Nat
  droppedOutput : U64
  divisor : U16
  ier : U8
  fifoEnabled : Bool
  lcr : U8
  mcr : U8
  scr : U8

namespace Uart16550

def new (base : U16) (inputCapacity outputCapacity : Nat) : Uart16550 :=
  ⟨base, [], [], inputCapacity, outputCapacity, 0, 1, 0, false, 0b11, 0, 0⟩

variable (u : Uart16550)

/-- Receive data or an empty transmitter, with its interrupt enabled. -/
def pollInterruptEdge : Bool := (u.ier &&& 1 != 0 && !u.input.isEmpty) || u.ier &&& 2 != 0

def irqLine : Nat := if u.base = 0x3F8 then 4 else if u.base = 0x2F8 then 3 else 0

def read (port : U16) : U32 × Uart16550 :=
  let dlab := u.lcr &&& 0x80 != 0
  match (port - u.base).toNat with
  | 0 =>
    if dlab then ((u.divisor.setWidth 8).setWidth 32, u)
    else ((u.input.headD 0).setWidth 32, { u with input := u.input.tail })
  | 1 => if dlab then ((u.divisor >>> 8).setWidth 32, u) else (u.ier.setWidth 32, u)
  | 2 =>
    let source : U8 :=
      if u.ier &&& 1 != 0 && !u.input.isEmpty then 0b100 else if u.ier &&& 2 != 0 then 0b010 else 1
    ((source ||| (if u.fifoEnabled then 0b11000000 else 0)).setWidth 32, u)
  | 3 => (u.lcr.setWidth 32, u)
  | 4 => (u.mcr.setWidth 32, u)
  | 5 => (if u.input.isEmpty then 0x60 else 0x61, u)
  | 6 => (0xB0, u)
  | 7 => (u.scr.setWidth 32, u)
  | _ => (0, u)

def write (port : U16) (value : U32) : Uart16550 :=
  let value : U8 := value.setWidth 8
  let dlab := u.lcr &&& 0x80 != 0
  match (port - u.base).toNat with
  | 0 =>
    if dlab then { u with divisor := (u.divisor &&& 0xFF00) ||| value.setWidth 16 }
    else if u.output.length < u.outputCapacity then { u with output := u.output ++ [value] }
    else { u with droppedOutput := if u.droppedOutput = BitVec.allOnes 64 then u.droppedOutput
      else u.droppedOutput + 1 }
  | 1 =>
    if dlab then { u with divisor := (u.divisor &&& 0x00FF) ||| (value.setWidth 16 <<< 8) }
    else { u with ier := value &&& 0xF }
  | 2 => { u with fifoEnabled := value &&& 1 != 0, input := if value &&& 2 != 0 then [] else u.input }
  | 3 => { u with lcr := value }
  | 4 => { u with mcr := value }
  | 7 => { u with scr := value }
  | _ => u

end Uart16550

end Rish.SoftVm
