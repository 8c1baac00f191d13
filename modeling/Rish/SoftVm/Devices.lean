/-
  Rish.SoftVm.Devices — guest time and port I/O: the batched device tick, the edges of the serial
  ports and the routing of port numbers.
-/

import Rish.SoftVm.Cpu

namespace Rish.SoftVm.Cpu

open Lib

/-- One edge on an interrupt line of both controllers. -/
def pulseLine (line : Nat) (c : Cpu) : Cpu :=
  { c with pic := c.pic.pulse line, memory := c.memory.ioapicPulse line (c.lines.setWidth 32) }

def pulseIf (edge : Bool) (line : Nat) (c : Cpu) : Cpu := if edge then c.pulseLine line else c

def consoleEdge (c : Cpu) : Cpu := c.pulseIf c.uartConsole.pollInterruptEdge c.uartConsole.irqLine

def controlEdge (c : Cpu) : Cpu := c.pulseIf c.uartControl.pollInterruptEdge c.uartControl.irqLine

/-- The serial interrupts are edges: a fresh one for each receive or transmit event. -/
def serviceSerialEdges : CpuM Unit := Exec.update fun c => c.consoleEdge.controlEdge

/-- Advances the timers; the PIT fires an edge. -/
def advanceTimers (instructions : Nat) (c : Cpu) : Cpu :=
  let fired := c.pit.advance (NANOSECONDS_PER_INSTRUCTION * instructions)
  pulseIf fired.1 0 { c with memory := c.memory.lapicTick instructions, pit := fired.2 }

/-- Serves one virtio device and raises its edge. -/
def pollVirtio (poll : Exec Memory CpuError Bool) (line : Nat) : CpuM Unit := do
  let completed ← onMemory poll
  Exec.update fun c => c.pulseIf completed line

def setLines (c : Cpu) : Cpu :=
  { c with pic := c.pic.setInput c.lines, memory := c.memory.ioapicSetLines (c.lines.setWidth 32) }

/-- A batch of instructions' worth of guest time. -/
def serviceDevices (instructions : Nat) : CpuM Unit := do
  Exec.update (advanceTimers instructions)
  serviceSerialEdges
  pollVirtio Memory.pollVirtioIrq VIRTIO_IRQ
  pollVirtio Memory.pollVirtioBlk2Irq VIRTIO_BLK2_IRQ
  pollVirtio Memory.pollVirtioNet VIRTIO_NET_IRQ
  Exec.update setLines

/-! ## Ports -/

inductive Port where
  | console | control | pic | pit | cmos | acpiPm | unclaimed
  deriving DecidableEq, Repr

variable (port : U16)

/-- The device that answers a port. -/
def portOf : Port :=
  if 0x3F8 ≤ port ∧ port ≤ 0x3FF then .console
  else if 0x2F8 ≤ port ∧ port ≤ 0x2FF then .control
  else if port = 0x20 ∨ port = 0x21 ∨ port = 0xA0 ∨ port = 0xA1 then .pic
  else if (0x40 ≤ port ∧ port ≤ 0x43) ∨ port = 0x61 then .pit
  else if port = 0x70 ∨ port = 0x71 then .cmos
  else if AcpiPm.handles port then .acpiPm
  else .unclaimed

/-- The value a port reads as, and the machine after the device gave it out. -/
def portRead (c : Cpu) : U32 × Cpu :=
  match portOf port with
  | .console =>
    let r := c.uartConsole.read port
    ((r.1.setWidth 8).setWidth 32, { c with uartConsole := r.2 }.consoleEdge.controlEdge)
  | .control =>
    let r := c.uartControl.read port
    ((r.1.setWidth 8).setWidth 32, { c with uartControl := r.2 }.consoleEdge.controlEdge)
  | .pic => (c.pic.read port, c)
  | .pit => let r := c.pit.read port; (r.1, { c with pit := r.2 })
  | .cmos => (c.cmos.read port, c)
  | .acpiPm => (c.acpiPm.read port c.tsc, c)
  | .unclaimed => (0xFFFFFFFF, c)

def portWrite (value : U32) (c : Cpu) : Cpu :=
  match portOf port with
  | .console => { c with uartConsole := c.uartConsole.write port (value &&& 0xFF) }.consoleEdge.controlEdge
  | .control => { c with uartControl := c.uartControl.write port (value &&& 0xFF) }.consoleEdge.controlEdge
  | .pic => { c with pic := c.pic.write port value }
  | .pit => { c with pit := c.pit.write port value }
  | .cmos => { c with cmos := c.cmos.write port value }
  | .acpiPm => { c with acpiPm := c.acpiPm.write port value }
  | .unclaimed => c

/-- No device tells apart the width of a port access. -/
def ioRead : CpuM U32 := do
  let c ← get
  Exec.update fun c => (portRead port c).2
  return (portRead port c).1

def ioWrite (value : U32) : CpuM Unit := Exec.update (portWrite port value)

end Rish.SoftVm.Cpu
