/-
  Rish.SoftVm.Memory — the physical address space: RAM and the device windows in front of it.

  An access is routed by the address of its first byte: the three virtio register windows, the I/O
  APIC, the local APIC, then RAM with a bound check. Reads do not change any device.
-/

import Rish.SoftVm.Apic
import Rish.SoftVm.Virtio.Net

namespace Rish.SoftVm

open Lib Virtio
open BitVec (ofNat)
open Outcome (slice slice_ok bind_ok pure_eq)

def VIRTIO_MMIO_BASE : U64 := 0xFEBF0000
def VIRTIO_NET_MMIO_BASE : U64 := 0xFEBF1000
def VIRTIO_BLK2_MMIO_BASE : U64 := 0xFEBF2000
def VIRTIO_MMIO_REGISTER_BYTES : U64 := 0x200
def VIRTIO_MMIO_WINDOW_BYTES : U64 := 0x400
def VIRTIO_IRQ : Nat := 10
def VIRTIO_NET_IRQ : Nat := 11
def VIRTIO_BLK2_IRQ : Nat := 12

structure Memory where
  ram : Ram
  lapic : Option LocalApic
  ioapic : IoApic
  virtioBlk : Option VirtioMmioBlk
  virtioBlk2 : Option VirtioMmioBlk
  virtioNet : Option VirtioMmioNet
  /-- Moves on every RAM write. -/
  generation : U64

namespace Memory

variable (m : Memory)

def len : U64 := m.ram.len

def pageGeneration (physical : U64) : U32 := m.ram.pageGeneration physical

def inWindow (base size address : U64) : Bool := base ≤ address ∧ address < base + size

variable (address : U64)

def inLapic : Bool := inWindow Lapic.BASE Lapic.SIZE address
def inIoapic : Bool := inWindow Ioapic.BASE Ioapic.SIZE address
def inVirtio : Bool := inWindow VIRTIO_MMIO_BASE VIRTIO_MMIO_WINDOW_BYTES address
def inVirtioBlk2 : Bool := inWindow VIRTIO_BLK2_MMIO_BASE VIRTIO_MMIO_WINDOW_BYTES address
def inVirtioNet : Bool := inWindow VIRTIO_NET_MMIO_BASE VIRTIO_MMIO_WINDOW_BYTES address

/-! ## Reads -/

/-- A read of `n` bytes answered by 32-bit words: the word of the offset, and the next word for what
    does not fit in it. `word` also gets the number of bytes wanted of it, truncated to a byte. The
    source slices the second word to the rest of the buffer. -/
def readWords (word : U64 → U8 → Outcome CpuError U32) (offset : U64) (n : Nat) : Outcome CpuError (List U8) := do
  let value ← word offset (ofNat 8 n)
  let first := leBytes (min n 4) value.toNat
  if n > 4 then
    let value2 ← word (offset + 4) (ofNat 8 (n - 4))
    slice (n - 4) 4
    return first ++ leBytes (n - 4) value2.toNat
  else return first

/-- A read in a virtio window: zero past the register file or without a device. -/
def readVirtio (word : Option (U64 → U32)) (offset : U64) (n : Nat) : Outcome CpuError (List U8) :=
  if VIRTIO_MMIO_REGISTER_BYTES ≤ offset then .ok (List.replicate n 0)
  else
    match word with
    | some word => readWords (fun o _ => .ok (word o)) offset n
    | none => .ok (List.replicate n 0)

def readRam (n : Nat) : Outcome CpuError (List U8) :=
  if address.toNat + n ≥ 2 ^ 64 then .err (.guestFault ("memory read address overflow at " ++ hex address))
  else if address.toNat + n > m.ram.len.toNat then
    .err (.guestFault ("memory read " ++ hex address ++ ".." ++ hex (address + ofNat 64 n) ++ " exceeds " ++
      toString m.ram.len.toNat ++ " bytes"))
  else do
    slice (address.toNat + n) m.ram.len.toNat
    return m.ram.load address.toNat n

def readIoapic (a : IoApic) (offset : U64) (n : Nat) : Outcome CpuError (List U8) := do
  let value ← a.read offset
  return leBytes (min n 4) value.toNat ++ List.replicate (n - 4) 0

def read (n : Nat) : Outcome CpuError (List U8) :=
  if inVirtioBlk2 address then
    readVirtio (m.virtioBlk2.map (·.mmioRead)) (address - VIRTIO_BLK2_MMIO_BASE) n
  else if inVirtioNet address then
    readVirtio (m.virtioNet.map (·.mmioRead)) (address - VIRTIO_NET_MMIO_BASE) n
  else if inVirtio address then readVirtio (m.virtioBlk.map (·.mmioRead)) (address - VIRTIO_MMIO_BASE) n
  else if inIoapic address then readIoapic m.ioapic (address - Ioapic.BASE) n
  else
    match m.lapic with
    | some a => if inLapic address then readWords a.read (address - Lapic.BASE) n else m.readRam address n
    | none => m.readRam address n

variable {address : U64} {bytes : List U8} {n : Nat} {word : U64 → U8 → Outcome CpuError U32} {offset : U64}

theorem readWords_length
    (h : readWords word offset n = .ok bytes) : bytes.length = n := by
  obtain ⟨v, -, h⟩ := Outcome.bind_eq_ok.mp h
  split at h
  · obtain ⟨v2, -, h⟩ := Outcome.bind_eq_ok.mp h
    by_cases hn : n - 4 ≤ 4
    · rw [slice_ok hn] at h
      cases h
      simp only [List.length_append, leBytes_length]
      omega
    · rw [Outcome.slice_panic (by omega)] at h
      cases h
  · cases h
    simp only [leBytes_length]
    omega

theorem readVirtio_length {word}
    (h : readVirtio word offset n = .ok bytes) : bytes.length = n := by
  unfold readVirtio at h
  split at h
  · cases h; simp
  · cases word with
    | some word => exact readWords_length h
    | none => cases h; simp

theorem readRam_length (h : m.readRam address n = .ok bytes) : bytes.length = n := by
  unfold readRam at h
  split at h
  · cases h
  split at h
  · cases h
  · rw [slice_ok (by omega)] at h
    cases h
    exact readBytes_length _ _ _

theorem read_length (h : m.read address n = .ok bytes) : bytes.length = n := by
  unfold read at h
  split at h
  · exact readVirtio_length h
  split at h
  · exact readVirtio_length h
  split at h
  · exact readVirtio_length h
  split at h
  · obtain ⟨v, -, h⟩ := Outcome.bind_eq_ok.mp h
    cases h
    simp only [List.length_append, leBytes_length, List.length_replicate]
    omega
  split at h
  · split at h
    · exact readWords_length h
    · exact m.readRam_length h
  · exact m.readRam_length h

/-- A little-endian read of at most eight bytes. -/
def readU64At (address : U64) (size : Nat) : Outcome CpuError U64 := do
  return ofNat 64 (leNat (← m.read address size))

theorem readU64At_lt {size v} (h : m.readU64At address size = .ok v) : v.toNat < 256 ^ size := by
  obtain ⟨bytes, hr, h⟩ := Outcome.bind_eq_ok.mp h
  cases h
  have hlt := leNat_lt bytes
  rw [m.read_length hr] at hlt
  exact Nat.lt_of_le_of_lt (Nat.mod_le _ _) hlt

def readU32 (address : U64) : Outcome CpuError U32 := do return (← m.readU64At address 4).setWidth 32
def readU64 (address : U64) : Outcome CpuError U64 := m.readU64At address 8

/-! ## Writes -/

/-- The first four bytes of a device write; missing ones are zero. -/
def registerValue (input : List U8) : U32 := ofNat 32 (leNat (input.take 4))

def forwardToLapic (vectors : List U8) : Memory :=
  { m with lapic := m.lapic.map fun a => vectors.foldl LocalApic.request a }

/-- A local APIC write. A retired level-triggered vector may fire again at the I/O APIC. -/
def writeLapic (a : LocalApic) (offset : U64) (input : List U8) : Memory :=
  let (retired, a) := a.write offset (ofNat 8 input.length) (registerValue input)
  let m := { m with lapic := some a }
  match retired with
  | none => m
  | some vector =>
    let (refired, io) := m.ioapic.endOfInterrupt vector
    { m with ioapic := io }.forwardToLapic refired

def writeRam (address : U64) (input : List U8) : Outcome CpuError Memory :=
  if address.toNat + input.length ≥ 2 ^ 64 then
    .err (.guestFault ("memory write address overflow at " ++ hex address))
  else if address.toNat + input.length > m.ram.len.toNat then
    .err (.guestFault ("memory write " ++ hex address ++ ".." ++
      hex (address + ofNat 64 input.length) ++ " exceeds " ++ toString m.ram.len.toNat ++ " bytes"))
  else do
    slice (address.toNat + input.length) m.ram.len.toNat
    return { m with ram := m.ram.store address.toNat input, generation := m.generation + 1 }

def write (address : U64) (input : List U8) : Outcome CpuError Memory :=
  if inVirtioBlk2 address then
    let offset := address - VIRTIO_BLK2_MMIO_BASE
    if offset < VIRTIO_MMIO_REGISTER_BYTES then
      .ok { m with virtioBlk2 := m.virtioBlk2.map (·.mmioWrite offset (registerValue input)) }
    else .ok m
  else if inVirtioNet address then
    let offset := address - VIRTIO_NET_MMIO_BASE
    if offset < VIRTIO_MMIO_REGISTER_BYTES then
      .ok { m with virtioNet := m.virtioNet.map (·.mmioWrite offset (registerValue input)) }
    else .ok m
  else if inVirtio address then
    let offset := address - VIRTIO_MMIO_BASE
    if offset < VIRTIO_MMIO_REGISTER_BYTES then
      .ok { m with virtioBlk := m.virtioBlk.map (·.mmioWrite offset (registerValue input)) }
    else .ok m
  else if inIoapic address then do
    let io ← m.ioapic.write (address - Ioapic.BASE) (registerValue input)
    return { m with ioapic := io }
  else
    match m.lapic with
    | some a =>
      if inLapic address then .ok (m.writeLapic a (address - Lapic.BASE) input) else m.writeRam address input
    | none => m.writeRam address input

/-! ## Devices on the tick -/

def lapicPopInterrupt : Option U8 × Memory :=
  match m.lapic with
  | none => (none, m)
  | some a => let (v, a) := a.popInterrupt; (v, { m with lapic := some a })

def lapicTick (instructions : Nat) : Memory := { m with lapic := m.lapic.map (·.tick instructions) }

def ioapicSetLines (lines : U32) : Memory :=
  let (fired, io) := m.ioapic.setLines lines
  { m with ioapic := io }.forwardToLapic fired

/-- A one-shot edge on a pin: up, then down. -/
def ioapicPulse (pin : Nat) (levels : U32) : Memory :=
  let bit : U32 := 1#32 <<< pin
  let (fired, io) := m.ioapic.setLines (levels ||| bit)
  let (_, io) := io.setLines (levels &&& ~~~bit)
  { m with ioapic := io }.forwardToLapic fired

/-- Serves one device over RAM, and puts the device back. A failed poll raises no edge. -/
def pollDevice {σ : Type} (x : Device σ Bool) (d : σ) (put : σ → Memory → Memory) :
    Exec Memory CpuError Bool := fun m =>
  let r := x (d, ⟨m.ram, false⟩)
  let m := put r.state.1 { m with ram := r.state.2.ram }
  match r.outcome with
  | .ok completed =>
    ⟨.ok completed, if r.state.2.wrote then { m with generation := m.generation + 1 } else m, r.accesses⟩
  | .err _ => ⟨.ok false, m, r.accesses⟩
  | .panic => ⟨.panic, m, r.accesses⟩

def pollVirtioIrq : Exec Memory CpuError Bool := do
  match ← Exec.view Memory.virtioBlk with
  | some d => pollDevice VirtioMmioBlk.pollKick d fun d m => { m with virtioBlk := some d }
  | none => return false

def pollVirtioBlk2Irq : Exec Memory CpuError Bool := do
  match ← Exec.view Memory.virtioBlk2 with
  | some d => pollDevice VirtioMmioBlk.pollKick d fun d m => { m with virtioBlk2 := some d }
  | none => return false

def pollVirtioNet : Exec Memory CpuError Bool := do
  match ← Exec.view Memory.virtioNet with
  | some d => pollDevice VirtioMmioNet.poll d fun d m => { m with virtioNet := some d }
  | none => return false

/-! ## Where an access aborts the host -/

/-- The address is answered by an attached register file of 32-bit words. -/
def registerFile (address : U64) : Bool :=
  (inVirtioBlk2 address && address - VIRTIO_BLK2_MMIO_BASE < VIRTIO_MMIO_REGISTER_BYTES && m.virtioBlk2.isSome) ||
  (inVirtioNet address && address - VIRTIO_NET_MMIO_BASE < VIRTIO_MMIO_REGISTER_BYTES && m.virtioNet.isSome) ||
  (inVirtio address && address - VIRTIO_MMIO_BASE < VIRTIO_MMIO_REGISTER_BYTES && m.virtioBlk.isSome) ||
  (inLapic address && m.lapic.isSome)

/-- The I/O APIC data window, with a register number selected that no register has. -/
def unnamedRegister (address : U64) : Bool :=
  address = Ioapic.BASE + Ioapic.IOWIN ∧ 3 ≤ m.ioapic.registerSelect ∧
    m.ioapic.registerSelect < Ioapic.REG_REDIRECTION_BASE

theorem readWords_panic_iff (hw : ∀ o k, ∃ v, word o k = .ok v)
    (offset n) : readWords word offset n = .panic ↔ 8 < n := by
  obtain ⟨v, hv⟩ := hw offset (ofNat 8 n)
  obtain ⟨v2, hv2⟩ := hw (offset + 4) (ofNat 8 (n - 4))
  simp only [readWords, hv, hv2, bind_ok]
  split
  · by_cases h : n - 4 ≤ 4
    · rw [slice_ok h]
      simp only [bind_ok, pure_eq, reduceCtorEq, false_iff]
      omega
    · rw [Outcome.slice_panic (by omega)]
      simp only [Outcome.bind_panic, true_iff]
      omega
  · simp only [pure_eq, reduceCtorEq, false_iff]
    omega

theorem readVirtio_panic_iff (word) (offset : U64) (n : Nat) :
    readVirtio word offset n = .panic ↔ offset < VIRTIO_MMIO_REGISTER_BYTES ∧ word.isSome ∧ 8 < n := by
  unfold readVirtio
  split
  · rename_i h
    simp only [reduceCtorEq, false_iff]
    bv_omega
  · rename_i h
    have hlt : offset < VIRTIO_MMIO_REGISTER_BYTES := by bv_omega
    cases word with
    | none => simp
    | some word => simp [readWords_panic_iff fun o _ => ⟨word o, rfl⟩, hlt]

theorem readIoapic_panic_iff (a offset n) :
    readIoapic a offset n = .panic ↔
      offset = Ioapic.IOWIN ∧ 3 ≤ a.registerSelect ∧ a.registerSelect < Ioapic.REG_REDIRECTION_BASE := by
  have hne : Ioapic.IOWIN ≠ Ioapic.IOREGSEL := by decide
  unfold readIoapic IoApic.read
  split
  · rename_i h
    subst h
    simp [hne.symm]
  split
  · rename_i h
    rw [and_iff_right h, ← a.readRegister_panic_iff (ε := CpuError)]
    cases a.readRegister (ε := CpuError) a.registerSelect <;> simp
  · rename_i h
    simp [h]

theorem readRam_ne_panic (address n) : m.readRam address n ≠ .panic := by
  unfold readRam
  split
  · nofun
  split
  · nofun
  · rw [slice_ok (by omega)]
    nofun

theorem inWindow_iff {base size address} (h : base.toNat + size.toNat < 2 ^ 64) :
    inWindow base size address = true ↔ base.toNat ≤ address.toNat ∧ address.toNat < base.toNat + size.toNat := by
  rw [inWindow, decide_eq_true_eq, BitVec.le_def, BitVec.lt_def, BitVec.toNat_add, Nat.mod_eq_of_lt h]

theorem writeLapic_ram (a offset input) : (m.writeLapic a offset input).ram = m.ram := by
  simp only [writeLapic]
  split <;> rfl

theorem inWindow_disjoint {base size base' size' address} (h : inWindow base size address)
    (hd : base + size ≤ base' ∨ base' + size' ≤ base) : inWindow base' size' address = false := by
  simp only [inWindow, decide_eq_true_eq, decide_eq_false_iff_not] at *
  bv_omega

theorem unnamedRegister_inIoapic (h : m.unnamedRegister address) : inIoapic address := by
  simp only [unnamedRegister, decide_eq_true_eq] at h
  rw [h.1]
  decide

theorem iowin_offset (address) :
    address - Ioapic.BASE = Ioapic.IOWIN ↔ address = Ioapic.BASE + Ioapic.IOWIN := by
  constructor <;> intro h <;> bv_omega

theorem read_panic_iff (address n) :
    m.read address n = .panic ↔ (m.registerFile address ∧ 8 < n) ∨ m.unnamedRegister address := by
  by_cases hio : inIoapic address
  · -- the windows are disjoint, so no register file answers here
    have h2 : inVirtioBlk2 address = false := inWindow_disjoint hio (by decide)
    have hn : inVirtioNet address = false := inWindow_disjoint hio (by decide)
    have hv : inVirtio address = false := inWindow_disjoint hio (by decide)
    have hl : inLapic address = false := inWindow_disjoint hio (by decide)
    simp [read, registerFile, unnamedRegister, hio, h2, hn, hv, hl, readIoapic_panic_iff, iowin_offset]
  · have hu : m.unnamedRegister address = false :=
      eq_false_of_ne_true fun h => hio (m.unnamedRegister_inIoapic h)
    by_cases h2 : inVirtioBlk2 address
    · have hn : inVirtioNet address = false := inWindow_disjoint h2 (by decide)
      have hv : inVirtio address = false := inWindow_disjoint h2 (by decide)
      have hl : inLapic address = false := inWindow_disjoint h2 (by decide)
      simp [read, registerFile, hu, h2, hn, hv, hl, readVirtio_panic_iff, and_assoc]
    by_cases hn : inVirtioNet address
    · have hv : inVirtio address = false := inWindow_disjoint hn (by decide)
      have hl : inLapic address = false := inWindow_disjoint hn (by decide)
      simp [read, registerFile, hu, h2, hn, hv, hl, readVirtio_panic_iff, and_assoc]
    by_cases hv : inVirtio address
    · have hl : inLapic address = false := inWindow_disjoint hv (by decide)
      simp [read, registerFile, hu, h2, hn, hv, hl, readVirtio_panic_iff, and_assoc]
    cases ha : m.lapic with
    | none => simp [read, registerFile, hu, h2, hn, hv, hio, ha, m.readRam_ne_panic]
    | some a =>
      by_cases hl : inLapic address
      · simp [read, registerFile, hu, h2, hn, hv, hio, ha, hl, readWords_panic_iff fun o k => a.read_ok o k]
      · simp [read, registerFile, hu, h2, hn, hv, hio, ha, hl, m.readRam_ne_panic]

theorem writeRam_ne_panic (address input) : m.writeRam address input ≠ .panic := by
  unfold writeRam
  split
  · nofun
  split
  · nofun
  · rw [slice_ok (by omega)]
    nofun

theorem ioapic_write_panic_iff (a : IoApic) (offset : U64) (value : U32) :
    a.write offset value = (.panic : Outcome CpuError IoApic) ↔
      offset = Ioapic.IOWIN ∧ 3 ≤ a.registerSelect ∧ a.registerSelect < Ioapic.REG_REDIRECTION_BASE := by
  have hne : Ioapic.IOWIN ≠ Ioapic.IOREGSEL := by decide
  unfold IoApic.write
  split
  · rename_i h
    subst h
    simp [hne.symm]
  split
  · rename_i h
    rw [and_iff_right h, a.writeRegister_panic_iff]
  · rename_i h
    split <;> simp [h]

theorem write_panic_iff (address : U64) (input : List U8) :
    m.write address input = .panic ↔ m.unnamedRegister address := by
  by_cases hio : inIoapic address
  · have h2 : inVirtioBlk2 address = false := inWindow_disjoint hio (by decide)
    have hn : inVirtioNet address = false := inWindow_disjoint hio (by decide)
    have hv : inVirtio address = false := inWindow_disjoint hio (by decide)
    have hw := ioapic_write_panic_iff m.ioapic (address - Ioapic.BASE) (registerValue input)
    rw [iowin_offset] at hw
    simp only [write, unnamedRegister, hio, h2, hn, hv, Bool.false_eq_true, if_false, if_true, decide_eq_true_eq]
    rw [← hw]
    cases m.ioapic.write (ε := CpuError) (address - Ioapic.BASE) (registerValue input) <;> simp
  · have hu : m.unnamedRegister address = false :=
      eq_false_of_ne_true fun h => hio (m.unnamedRegister_inIoapic h)
    simp only [hu, write, hio, Bool.false_eq_true, if_false, iff_false]
    split
    · split <;> nofun
    split
    · split <;> nofun
    split
    · split <;> nofun
    split
    · split
      · nofun
      · exact m.writeRam_ne_panic address input
    · exact m.writeRam_ne_panic address input

/-- An access of `n` bytes returns, with data or an error, exactly when it does not read past the two
    words of a register file and does not name an I/O APIC register that does not exist. -/
theorem access_returns_iff (address : U64) (n : Nat) :
    (m.read address n ≠ .panic ∧ ∀ input : List U8, input.length = n → m.write address input ≠ .panic) ↔
      ¬(m.registerFile address ∧ 8 < n) ∧ ¬m.unnamedRegister address := by
  constructor
  · rintro ⟨hr, -⟩
    rw [ne_eq, m.read_panic_iff, not_or] at hr
    exact hr
  · rintro ⟨hf, hu⟩
    refine ⟨?_, fun input _ => ?_⟩
    · rw [ne_eq, m.read_panic_iff, not_or]
      exact ⟨hf, hu⟩
    · rw [ne_eq, m.write_panic_iff]
      exact hu

/-- One MiB of RAM and the local APIC the machine always has. -/
def withLapic : Memory :=
  { ram := ⟨fun _ => 0, 0x100000, fun _ => 0⟩, lapic := some .new, ioapic := .new, virtioBlk := none,
    virtioBlk2 := none, virtioNet := none, generation := 0 }

/-- A 16-byte load from the local APIC page aborts the host. -/
theorem lapic_sixteen_byte_read_panics : withLapic.read 0xFEE00000 16 = .panic := by rfl

end Memory

end Rish.SoftVm
