/-
  Rish.SoftVm.Serial — the guest control channel between the host and the control UART.

  Each direction crosses two bounded queues. The host's bytes wait in the channel and a pump moves
  them to the UART's receive queue in chunks; the guest's bytes wait in the UART's transmit queue and a
  pump moves them to the channel. The channel counts what it drops. The UART's receive queue takes what
  it has room for and the pump does not look at how much that was; the UART counts its own dropped
  output, which the host transport does not read.
  The host and the worker thread share the channel: one iteration of a pump is one event.
-/

import Rish.Lib.Bounded
import Rish.Lib.Record
import Rish.SoftVm.Chipset

namespace Rish.SoftVm

open Lib List

/-! ## The channel -/

def HOST_IO_CHUNK_BYTES : Nat := 4096

structure ControlBuffer where
  queue : List U8
  capacity : Nat
  dropped : U64
  deriving DecidableEq, Repr

namespace ControlBuffer

def new (capacity : Nat) : ControlBuffer := ⟨[], capacity, 0⟩

/-- The buffer after a push, and how many bytes it took. The counter is an atomic word: it wraps. -/
def push (b : ControlBuffer) (bytes : List U8) : ControlBuffer × Nat :=
  let (queue, written) := pushAll b.capacity b.queue bytes
  ({ b with queue := queue, dropped := b.dropped + BitVec.ofNat 64 (bytes.length - written) }, written)

def drain (b : ControlBuffer) (limit : Nat) : ControlBuffer × List U8 :=
  let count := min limit b.queue.length
  ({ b with queue := b.queue.drop count }, b.queue.take count)

end ControlBuffer

structure ControlChannel where
  input : ControlBuffer
  output : ControlBuffer
  deriving DecidableEq, Repr

def ControlChannel.new (capacity : Nat) : ControlChannel := ⟨.new capacity, .new capacity⟩

namespace Uart16550

def pushInput (u : Uart16550) (bytes : List U8) : Uart16550 × Nat :=
  let (queue, accepted) := pushAll u.inputCapacity u.input bytes
  ({ u with input := queue }, accepted)

/-- Bit 0 of the line status: a byte can be read. -/
def ready (u : Uart16550) : Bool := (u.read (u.base + 5)).1 &&& 1 != 0

def drainOutput (u : Uart16550) : Uart16550 × List U8 :=
  let count := min u.output.length 4096
  ({ u with output := u.output.drop count }, u.output.take count)

end Uart16550

/-! ## Both ends -/

/-- The channel, the UART, and what has passed either end. -/
structure Control where
  channel : ControlChannel
  uart : Uart16550
  /-- bytes of the host that `write_control` accepted -/
  accepted : List U8
  /-- what the receive register gave the guest while it had a byte -/
  received : List U8
  /-- bytes the guest wrote to the transmit register -/
  transmitted : List U8
  /-- bytes the host took -/
  taken : List U8

inductive ControlEvent where
  | hostWrite (bytes : List U8)
  | hostRead (limit : Nat)
  | pumpInput
  | pumpOutput
  | guestRead (port : U16)
  | guestWrite (port : U16) (value : U32)
  deriving DecidableEq, Repr

namespace Control

def new (capacity : Nat) : Control := ⟨.new capacity, .new 0x2F8 65536 65536, [], [], [], []⟩

/-- The access is to the data register: the divisor latch is not selected. -/
def atData (u : Uart16550) (port : U16) : Bool := (port - u.base).toNat = 0 && u.lcr &&& 0x80 == 0

variable (s : Control)

/-- One iteration of `pump_input`'s loop. -/
def pumpInput : Control :=
  let (input, bytes) := s.channel.input.drain HOST_IO_CHUNK_BYTES
  { s with channel := { s.channel with input := input }, uart := (s.uart.pushInput bytes).1 }

/-- One iteration of `pump_output`'s loop. -/
def pumpOutput : Control :=
  let (uart, bytes) := s.uart.drainOutput
  { s with channel := { s.channel with output := (s.channel.output.push bytes).1 }, uart := uart }

variable (event : ControlEvent)

def step (s : Control) : Control :=
  match event with
  | .hostWrite bytes =>
    let (input, written) := s.channel.input.push bytes
    { s with channel := { s.channel with input := input }, accepted := s.accepted ++ bytes.take written }
  | .hostRead limit =>
    let (output, bytes) := s.channel.output.drain limit
    { s with channel := { s.channel with output := output }, taken := s.taken ++ bytes }
  | .pumpInput => s.pumpInput
  | .pumpOutput => s.pumpOutput
  | .guestRead port =>
    let (value, uart) := s.uart.read port
    { s with
      uart := uart
      received := if atData s.uart port && s.uart.ready then s.received ++ [value.setWidth 8] else s.received }
  | .guestWrite port value =>
    { s with
      uart := s.uart.write port value
      transmitted := if atData s.uart port then s.transmitted ++ [value.setWidth 8] else s.transmitted }

theorem after_replicate (n s) : after step s (List.replicate n event) = (step event)^[n] s := by
  induction n generalizing s with
  | zero => rfl
  | succ n ih => exact ih (step event s)

/-! ## What is kept -/

/-- The host's bytes that are past the channel's gate: read by the guest, or still queued. -/
def inputHeld : List U8 := s.received ++ s.uart.input ++ s.channel.input.queue

/-- The guest's bytes on the host's side: taken, or still queued. -/
def outputHeld : List U8 := s.taken ++ s.channel.output.queue ++ s.uart.output

/-- Nothing is lost on the way in, and the channel's counter tells what is lost on the way out. -/
structure Conserved (s : Control) : Prop where
  input : s.inputHeld = s.accepted
  output : s.outputHeld.Sublist s.transmitted
  counted : s.transmitted.length = s.outputHeld.length + s.channel.output.dropped.toNat

/-- Order is kept; `a` bytes are missing on the way in and `b` uncounted ones on the way out. -/
structure Tally (a b : Nat) (s : Control) : Prop where
  input : s.inputHeld.Sublist s.accepted
  missing : s.accepted.length = s.inputHeld.length + a
  output : s.outputHeld.Sublist s.transmitted
  uncounted : s.transmitted.length = s.outputHeld.length + s.channel.output.dropped.toNat + b

/-- The event keeps its bytes: a chunk fits the receive queue, a transmitted byte finds room, and the
    channel's counter does not wrap. -/
def Fits : ControlEvent → Control → Prop
  | .pumpInput, s => min HOST_IO_CHUNK_BYTES s.channel.input.queue.length ≤ s.uart.inputCapacity - s.uart.input.length
  | .pumpOutput, s =>
    s.channel.output.dropped.toNat +
      (min s.uart.output.length 4096 - (s.channel.output.capacity - s.channel.output.queue.length)) < 2 ^ 64
  | .guestWrite port _, s => atData s.uart port = true → s.uart.output.length < s.uart.outputCapacity
  | _, _ => True

/-- The guest does not clear its receive queue. -/
def KeepsFifo : ControlEvent → Control → Prop
  | .guestWrite port value, s => (port - s.uart.base).toNat = 2 → (value.setWidth 8 : U8) &&& 2 = 0
  | _, _ => True

instance (s : Control) : Decidable (Fits event s) :=
  match event with
  | .pumpInput => inferInstanceAs (Decidable ((_ : Nat) ≤ _))
  | .pumpOutput => inferInstanceAs (Decidable ((_ : Nat) < _))
  | .guestWrite _ _ => inferInstanceAs (Decidable (_ → _))
  | .hostWrite _ | .hostRead _ | .guestRead _ => .isTrue trivial

instance (s : Control) : Decidable (KeepsFifo event s) :=
  match event with
  | .guestWrite _ _ => inferInstanceAs (Decidable (_ → _))
  | .hostWrite _ | .hostRead _ | .guestRead _ | .pumpInput | .pumpOutput => .isTrue trivial

variable {a b : Nat} {s : Control} {event : ControlEvent}

/-! ### One event -/

theorem Tally.pumpInput (h : Tally a b s) : ∃ a', Tally a' b s.pumpInput ∧ a ≤ a' ∧ (Fits .pumpInput s ↔ a' = a) := by
  let count := min HOST_IO_CHUNK_BYTES s.channel.input.queue.length
  have hlength : (s.channel.input.queue.take count).length = count := by
    rw [length_take]
    exact Nat.min_eq_left (Nat.min_le_right _ _)
  obtain ⟨hsub, hsize⟩ := pushAll_moves s.uart.inputCapacity s.received s.uart.input (s.channel.input.queue.take count)
    (s.channel.input.queue.drop count)
  rw [take_append_drop] at hsub hsize
  rw [hlength] at hsize
  have hmissing := h.missing
  refine ⟨a + (count - (s.uart.inputCapacity - s.uart.input.length)), ⟨hsub.trans h.input, ?_, h.output, h.uncounted⟩,
    by omega, ?_⟩
  · rw [inputHeld, hsize] at hmissing
    rw [← Nat.add_assoc, Nat.add_right_comm]
    exact hmissing
  · show count ≤ _ ↔ _
    omega

theorem Tally.pumpOutput (h : Tally a b s) : ∃ b', Tally a b' s.pumpOutput ∧ b ≤ b' ∧
    (Fits .pumpOutput s ↔ b' = b) := by
  let count := min s.uart.output.length 4096
  have hlength : (s.uart.output.take count).length = count := by
    rw [length_take]
    exact Nat.min_eq_left (Nat.min_le_left _ _)
  obtain ⟨hsub, hsize⟩ := pushAll_moves s.channel.output.capacity s.taken s.channel.output.queue
    (s.uart.output.take count) (s.uart.output.drop count)
  rw [take_append_drop] at hsub hsize
  rw [hlength] at hsize
  let lost := count - (s.channel.output.capacity - s.channel.output.queue.length)
  have hdropped : s.pumpOutput.channel.output.dropped.toNat = (s.channel.output.dropped.toNat + lost) % 2 ^ 64 := by
    have hlost : count - min count (s.channel.output.capacity - s.channel.output.queue.length) = lost := by omega
    simp only [Control.pumpOutput, ControlBuffer.push, Uart16550.drainOutput, pushAll_written, BitVec.toNat_add,
      BitVec.toNat_ofNat, Nat.add_mod_mod]
    rw [hlength, hlost]
  have huncounted := h.uncounted
  rw [outputHeld, hsize] at huncounted
  have hle := Nat.mod_le (s.channel.output.dropped.toNat + lost) (2 ^ 64)
  -- the counter tells the drops unless it wraps
  refine ⟨b + (s.channel.output.dropped.toNat + lost - s.pumpOutput.channel.output.dropped.toNat),
    ⟨h.input, h.missing, hsub.trans h.output, ?_⟩, by omega, ?_⟩
  · have hheld : s.pumpOutput.outputHeld = s.taken ++
        (pushAll s.channel.output.capacity s.channel.output.queue (s.uart.output.take count)).1 ++
          s.uart.output.drop count := rfl
    show s.transmitted.length = _
    rw [hheld, hdropped]
    omega
  · show s.channel.output.dropped.toNat + lost < 2 ^ 64 ↔ _
    rw [hdropped]
    constructor
    · intro hsmall
      rw [Nat.mod_eq_of_lt hsmall]
      omega
    · intro hsame
      omega

theorem read_value {u} {port : U16} (hdata : atData u port = true) :
    (u.read port).1 = (u.input.headD 0).setWidth 32 := by
  obtain ⟨hport, hlatch⟩ : (port - u.base).toNat = 0 ∧ u.lcr &&& 128#8 = 0#8 := by simpa [atData] using hdata
  simp only [Uart16550.read, hport]
  simp [hlatch]

theorem ready_eq (u : Uart16550) : u.ready = !u.input.isEmpty := by
  have hport : (u.base + 5 - u.base).toNat = 5 := by rw [BitVec.add_comm, BitVec.add_sub_cancel]; rfl
  simp only [Uart16550.ready, Uart16550.read, hport]
  cases u.input <;> simp

theorem read_input (u) (port : U16) :
    (u.read port).2.input = (if atData u port then u.input.tail else u.input) ∧ (u.read port).2.output = u.output := by
  by_cases hport : (port - u.base).toNat = 0
  · simp only [Uart16550.read, atData, hport]
    by_cases hlatch : u.lcr &&& 128#8 = 0#8 <;> simp [hlatch]
  · simp only [atData, hport, decide_false, Bool.false_and]
    unfold Uart16550.read
    dsimp only
    split
    · contradiction
    · split <;> exact ⟨rfl, rfl⟩
    all_goals exact ⟨rfl, rfl⟩

theorem Tally.guestRead (h : Tally a b s) (port) : Tally a b (step (.guestRead port) s) := by
  obtain ⟨hinput, houtput⟩ := read_input s.uart port
  have hheld : (step (.guestRead port) s).inputHeld = s.inputHeld := by
    simp only [step, inputHeld, hinput]
    by_cases hdata : atData s.uart port = true
    · rw [read_value hdata, ready_eq]
      cases hqueue : s.uart.input <;> simp [hdata]
    · simp [hdata]
  have hsent : (step (.guestRead port) s).outputHeld = s.outputHeld := by simp only [step, outputHeld, houtput]
  exact ⟨hheld ▸ h.input, hheld ▸ h.missing, hsent ▸ h.output, hsent ▸ h.uncounted⟩

theorem write_queues (u) (port : U16) (value : U32)
    (hkeeps : (port - u.base).toNat = 2 → (value.setWidth 8 : U8) &&& 2 = 0) :
    (u.write port value).input = u.input ∧
      (u.write port value).output = u.output ++
        (if atData u port ∧ u.output.length < u.outputCapacity then [value.setWidth 8] else []) := by
  by_cases hport : (port - u.base).toNat = 0
  · simp only [Uart16550.write, atData, hport]
    by_cases hlatch : u.lcr &&& 128#8 = 0#8
    · by_cases hroom : u.output.length < u.outputCapacity <;> simp [hlatch, hroom]
    · simp [hlatch]
  · simp only [atData, hport, decide_false, Bool.false_and, Bool.false_eq_true, false_and, if_false, append_nil]
    unfold Uart16550.write
    dsimp only
    split
    · contradiction
    · split <;> exact ⟨rfl, rfl⟩
    · rename_i hfcr
      exact ⟨if_neg (by simpa using hkeeps hfcr), rfl⟩
    all_goals exact ⟨rfl, rfl⟩

section

variable (h : Tally a b s)
include h

theorem Tally.guestWrite {port value} (hkeeps : KeepsFifo (.guestWrite port value) s) :
    ∃ b', Tally a b' (step (.guestWrite port value) s) ∧ b ≤ b' ∧ (Fits (.guestWrite port value) s ↔ b' = b) := by
  obtain ⟨hinput, houtput⟩ := write_queues s.uart port value hkeeps
  have hheld : (step (.guestWrite port value) s).inputHeld = s.inputHeld := by simp only [step, inputHeld, hinput]
  have hsent : (step (.guestWrite port value) s).outputHeld = s.outputHeld ++
      (if atData s.uart port ∧ s.uart.output.length < s.uart.outputCapacity then [value.setWidth 8] else []) := by
    simp only [step, outputHeld, houtput, append_assoc]
  have huncounted := h.uncounted
  by_cases hdata : atData s.uart port = true
  · have htransmitted : (step (.guestWrite port value) s).transmitted = s.transmitted ++ [value.setWidth 8] := by
      simp only [step, hdata, if_true]
    by_cases hroom : s.uart.output.length < s.uart.outputCapacity
    · rw [if_pos ⟨hdata, hroom⟩] at hsent
      refine ⟨b, ⟨hheld ▸ h.input, hheld ▸ h.missing, ?_, ?_⟩, Nat.le_refl b, iff_of_true (fun _ => hroom) rfl⟩
      · rw [hsent, htransmitted]
        exact h.output.append_right _
      · rw [hsent, htransmitted, length_append, length_append, huncounted]
        show _ = _ + _ + s.channel.output.dropped.toNat + b
        omega
    · rw [if_neg fun hboth => hroom hboth.2, append_nil] at hsent
      refine ⟨b + 1, ⟨hheld ▸ h.input, hheld ▸ h.missing, ?_, ?_⟩, Nat.le_succ b,
        iff_of_false (fun hfits => hroom (hfits hdata)) (by omega)⟩
      · rw [hsent, htransmitted]
        exact h.output.trans (sublist_append_left _ _)
      · rw [hsent, htransmitted, length_append, huncounted]
        rfl
  · have htransmitted : (step (.guestWrite port value) s).transmitted = s.transmitted := by
      simp only [step, if_neg hdata]
    rw [if_neg fun hboth => hdata hboth.1, append_nil] at hsent
    refine ⟨b, ⟨hheld ▸ h.input, hheld ▸ h.missing, ?_, ?_⟩, Nat.le_refl b,
      iff_of_true (fun hyes => absurd hyes hdata) rfl⟩
    · rw [hsent, htransmitted]
      exact h.output
    · rw [hsent, htransmitted]
      exact huncounted

theorem Tally.hostWrite (bytes) : Tally a b (step (.hostWrite bytes) s) := by
  have hheld : (step (.hostWrite bytes) s).inputHeld =
      s.inputHeld ++ bytes.take (s.channel.input.push bytes).2 := by
    simp only [step, ControlBuffer.push, inputHeld, pushAll_queue, append_assoc]
  refine ⟨?_, ?_, h.output, h.uncounted⟩
  · rw [hheld]
    exact h.input.append_right _
  · have hmissing := h.missing
    show (s.accepted ++ bytes.take (s.channel.input.push bytes).2).length = _
    rw [hheld, length_append, length_append]
    omega

theorem Tally.hostRead (limit) : Tally a b (step (.hostRead limit) s) := by
  have hheld : (step (.hostRead limit) s).outputHeld = s.outputHeld := by
    simp only [step, ControlBuffer.drain, outputHeld]
    rw [append_assoc s.taken, take_append_drop]
  exact ⟨h.input, h.missing, hheld ▸ h.output, hheld ▸ h.uncounted⟩

theorem Tally.step (hkeeps : KeepsFifo event s) :
    ∃ a' b', Tally a' b' (step event s) ∧ a ≤ a' ∧ b ≤ b' ∧ (Fits event s ↔ a' = a ∧ b' = b) := by
  cases event with
  | hostWrite bytes => exact ⟨a, b, h.hostWrite bytes, le_refl a, le_refl b, iff_of_true trivial ⟨rfl, rfl⟩⟩
  | hostRead limit => exact ⟨a, b, h.hostRead limit, le_refl a, le_refl b, iff_of_true trivial ⟨rfl, rfl⟩⟩
  | pumpInput =>
    obtain ⟨a', htally, hle, hfits⟩ := h.pumpInput
    exact ⟨a', b, htally, hle, le_refl b, hfits.trans (by simp)⟩
  | pumpOutput =>
    obtain ⟨b', htally, hle, hfits⟩ := h.pumpOutput
    exact ⟨a, b', htally, le_refl a, hle, hfits.trans (by simp)⟩
  | guestRead port => exact ⟨a, b, h.guestRead port, le_refl a, le_refl b, iff_of_true trivial ⟨rfl, rfl⟩⟩
  | guestWrite port value =>
    obtain ⟨b', htally, hle, hfits⟩ := h.guestWrite hkeeps
    exact ⟨a, b', htally, le_refl a, hle, hfits.trans (by simp)⟩

end

/-! ### Runs -/

theorem Tally.run {events} (h : Tally a b s) (hkeeps : Allowed Control.step KeepsFifo s events) :
    ∃ a' b', Tally a' b' (after Control.step s events) ∧ a ≤ a' ∧ b ≤ b' ∧
      (Allowed Control.step Fits s events ↔ a' = a ∧ b' = b) := by
  induction events generalizing a b s with
  | nil => exact ⟨a, b, h, le_refl a, le_refl b, iff_of_true trivial ⟨rfl, rfl⟩⟩
  | cons event events ih =>
    obtain ⟨a₁, b₁, htally, ha, hb, hfits⟩ := h.step hkeeps.1
    obtain ⟨a', b', hafter, ha', hb', hrest⟩ := ih htally hkeeps.2
    refine ⟨a', b', hafter, by omega, by omega, ?_⟩
    show Fits event s ∧ Allowed Control.step Fits (Control.step event s) events ↔ _
    rw [hfits, hrest]
    omega

theorem Tally.conserved_iff (h : Tally a b s) : Conserved s ↔ a = 0 ∧ b = 0 := by
  constructor
  · intro hc
    have hmissing := h.missing
    have huncounted := h.uncounted
    rw [hc.input] at hmissing
    have hcounted := hc.counted
    omega
  · rintro ⟨rfl, rfl⟩
    exact ⟨h.input.eq_of_length h.missing.symm, h.output, h.uncounted⟩

theorem new_tally (capacity) : Tally 0 0 (new capacity) :=
  ⟨List.Sublist.refl _, rfl, List.Sublist.refl _, rfl⟩

/-- The control channel loses nothing silently exactly when everything fits where it is moved. -/
theorem control_conserved_iff (capacity : Nat) (events : List ControlEvent)
    (hkeeps : Allowed Control.step KeepsFifo (.new capacity) events) :
    Conserved (after Control.step (.new capacity) events) ↔ Allowed Control.step Fits (.new capacity) events := by
  obtain ⟨a', b', htally, -, -, hfits⟩ := (new_tally capacity).run hkeeps
  rw [htally.conserved_iff, hfits]

/-- A message both ways, moved before the queues fill: nothing is missing. -/
theorem short_exchange_conserved : Conserved (after Control.step (.new 4)
      [.hostWrite [1, 2, 3], .pumpInput, .guestRead 0x2F8, .guestWrite 0x2F8 7, .pumpOutput, .hostRead 1]) :=
  (control_conserved_iff 4 _ (by decide +kernel)).mpr (by decide +kernel)

theorem pumpInput_iterate (n s) (hroom : s.uart.input.length ≤ s.uart.inputCapacity) :
    (Control.pumpInput^[n] s).channel.input.queue.length = s.channel.input.queue.length - n * HOST_IO_CHUNK_BYTES ∧
      (Control.pumpInput^[n] s).uart.input.length ≤ s.uart.inputCapacity ∧
      (Control.pumpInput^[n] s).accepted = s.accepted ∧ (Control.pumpInput^[n] s).received = s.received ∧
      (Control.pumpInput^[n] s).channel.input.dropped = s.channel.input.dropped ∧
      (Control.pumpInput^[n] s).channel.output = s.channel.output := by
  induction n generalizing s with
  | zero => exact ⟨by simp, hroom, rfl, rfl, rfl, rfl⟩
  | succ n ih =>
    have hlength : s.pumpInput.channel.input.queue.length = s.channel.input.queue.length - HOST_IO_CHUNK_BYTES := by
      simp only [Control.pumpInput, ControlBuffer.drain, length_drop]
      omega
    have hqueue : s.pumpInput.uart.input.length ≤ s.uart.inputCapacity := by
      simp only [Control.pumpInput, Uart16550.pushInput]
      rw [pushAll_queue, length_append, length_take, pushAll_written]
      omega
    obtain ⟨hq, hu, hrest⟩ := ih s.pumpInput hqueue
    refine ⟨?_, hu, hrest⟩
    rw [Function.iterate_succ_apply, hq, hlength, Nat.sub_sub, Nat.succ_mul, Nat.add_comm]

theorem overrun_lost {capacity n bytes} (hall : bytes.length ≤ capacity)
    (hmore : 65536 < bytes.length) (hpumped : bytes.length ≤ n * HOST_IO_CHUNK_BYTES) :
    let s := after Control.step (.new capacity) (.hostWrite bytes :: List.replicate n .pumpInput)
    s.accepted = bytes ∧ s.inputHeld.length ≤ 65536 ∧ s.channel.input.dropped = 0 ∧
      s.channel.output.dropped = 0 ∧ ¬ Conserved s := by
  have hwritten : ((ControlBuffer.new capacity).push bytes).2 = bytes.length := by
    simp only [ControlBuffer.push, ControlBuffer.new, pushAll_written, length_nil]
    omega
  have hpush : (ControlBuffer.new capacity).push bytes = (⟨bytes, capacity, 0⟩, bytes.length) := by
    refine Prod.ext ?_ hwritten
    simp only [ControlBuffer.push, ControlBuffer.new] at hwritten ⊢
    rw [pushAll_queue, hwritten]
    simp
  obtain ⟨filled, hfilled⟩ : ∃ filled, filled = Control.step (.hostWrite bytes) (.new capacity) := ⟨_, rfl⟩
  have hqueued : filled.channel.input = ⟨bytes, capacity, 0⟩ := hfilled ▸ congrArg Prod.fst hpush
  have haccepted : filled.accepted = bytes := by
    rw [hfilled]
    show [] ++ bytes.take ((ControlBuffer.new capacity).push bytes).2 = bytes
    rw [hwritten, take_length, nil_append]
  have hreceived : filled.received = [] := hfilled ▸ rfl
  have huart : filled.uart = .new 0x2F8 65536 65536 := hfilled ▸ rfl
  have houtput : filled.channel.output = .new capacity := hfilled ▸ rfl
  have hrun : after Control.step (.new capacity) (.hostWrite bytes :: List.replicate n .pumpInput) =
      Control.pumpInput^[n] filled := by
    rw [hfilled]
    exact after_replicate .pumpInput n _
  rw [hrun]
  obtain ⟨hqueue, hinput, hsame, hread, hdropped, hout⟩ :=
    pumpInput_iterate n filled (by rw [huart]; exact Nat.zero_le _)
  rw [hqueued] at hqueue hdropped
  rw [huart] at hinput
  have hheld : (Control.pumpInput^[n] filled).inputHeld.length ≤ 65536 := by
    rw [inputHeld, length_append, length_append, hread, hreceived, hqueue, Nat.sub_eq_zero_of_le hpumped,
      length_nil, Nat.zero_add, Nat.add_zero]
    exact hinput
  refine ⟨hsame.trans haccepted, hheld, hdropped, congrArg ControlBuffer.dropped (hout.trans houtput), fun h => ?_⟩
  rw [h.input, hsame, haccepted] at hheld
  omega

theorem input_dropped_silently :
    let s := after Control.step (.new 65537) (.hostWrite (List.replicate 65537 0) :: List.replicate 17 .pumpInput)
    s.accepted = List.replicate 65537 0 ∧ s.inputHeld.length ≤ 65536 ∧ s.channel.input.dropped = 0 ∧
      s.channel.output.dropped = 0 ∧ ¬ Conserved s :=
  overrun_lost (by rw [length_replicate]) (by rw [length_replicate]; decide)
    (by rw [length_replicate]; decide)

end Control

end Rish.SoftVm
