/-
  Rish.SoftVm.Virtio.Fault — a device that latched its fault.

  A fault survives the reset. From then on guest RAM changes by the guest's own stores only, the disk is called no more,
  and the host network is told of nothing but resets, whatever the driver writes, kicks or polls.
-/

import Rish.SoftVm.Virtio.Reset

namespace Rish.SoftVm.Virtio

open Lib

def guestStore (m : DeviceMemory) : Access → DeviceMemory
  | .guest start input => { m with ram := m.ram.store start input }
  | _ => m

section

variable {σ γ : Type} (D : RegisterDevice σ) (seen : σ → Option String × γ)

/-- The fault and what the host has seen are the same, and no interrupt was raised in between. -/
structure Quiet (d d' : σ) : Prop where
  seen : seen d' = seen d
  irq : D.irqStatus d' &&& D.irqStatus d = D.irqStatus d'

variable {D seen} {d : σ}

theorem Quiet.refl : Quiet D seen d d := ⟨rfl, BitVec.and_self⟩

theorem Quiet.dite {c : Prop} [Decidable c] {f : c → σ} {g : ¬c → σ} (hf : ∀ h, Quiet D seen d (f h))
    (hg : ∀ h, Quiet D seen d (g h)) : Quiet D seen d (if h : c then f h else g h) := by
  split
  · exact hf _
  · exact hg _

/-- A faulted device stays quiet when every write is, and a poll of a faulted one does no more. -/
theorem RegisterDevice.run_quiet (hwrite : ∀ d offset value, Quiet D seen d (D.mmioWrite d offset value))
    (hpoll : ∀ d m, (seen d).1.isSome → ∃ d', D.poll (d, m) = ⟨.ok false, (d', m), 0⟩ ∧ Quiet D seen d d') {s}
    (hs : (seen s.1).1.isSome) (later : List Access) : (D.run s later).2 = later.foldl guestStore s.2 ∧
      Quiet D seen s.1 (D.run s later).1 ∧ (D.poll (D.run s later)).outcome = .ok false := by
  induction later generalizing s with
  | nil =>
    obtain ⟨d, hd, -⟩ := hpoll s.1 s.2 hs
    exact ⟨rfl, .refl, congrArg Run.outcome hd⟩
  | cons access later ih =>
    have hstep : ∃ d, (D.step s access).2 = (d, guestStore s.2 access) ∧ Quiet D seen s.1 d := by
      cases access with
      | read offset => exact ⟨s.1, rfl, .refl⟩
      | write offset value => exact ⟨_, rfl, hwrite s.1 offset value⟩
      | poll =>
        obtain ⟨d, hd, hquiet⟩ := hpoll s.1 s.2 hs
        exact ⟨d, congrArg Run.state hd, hquiet⟩
      | guest start input => exact ⟨s.1, rfl, .refl⟩
    obtain ⟨d, hd, h⟩ := hstep
    obtain ⟨hmemory, h', hfalse⟩ := ih (s := (d, guestStore s.2 access)) (h.seen ▸ hs)
    rw [RegisterDevice.run, stateAfter, hd]
    refine ⟨hmemory, ⟨h'.seen.trans h.seen, ?_⟩, hfalse⟩
    exact h'.irq ▸ by rw [BitVec.and_assoc, h.irq]

end

theorem Mmio.acked (irq value : U32) : irq &&& ~~~value &&& irq = irq &&& ~~~value := by
  rw [BitVec.and_comm, ← BitVec.and_assoc, BitVec.and_self]

namespace VirtioMmioBlk

def seen (d : VirtioMmioBlk) : Option String × BlockBackend := (d.fault, d.backend)

theorem mmioWrite_quiet (d : VirtioMmioBlk) (offset value) : Quiet device seen d (d.mmioWrite offset value) := by
  unfold mmioWrite
  repeat' first
    | refine .dite (fun _ => ?_) fun _ => ?_
    | exact ⟨rfl, BitVec.and_self⟩
    | exact ⟨rfl, Mmio.acked _ _⟩
    | exact ⟨rfl, BitVec.zero_and⟩

theorem pollKick_latched (d : VirtioMmioBlk) (m) (h : d.fault.isSome) :
    ∃ d', pollKick (d, m) = ⟨.ok false, (d', m), 0⟩ ∧ Quiet device seen d d' := by
  simp only [pollKick, Exec.view_bind]
  split
  · exact ⟨d, rfl, .refl⟩
  · rw [Exec.update_bind, if_pos (.inl h)]
    exact ⟨_, rfl, rfl, BitVec.and_self⟩

end VirtioMmioBlk

namespace VirtioMmioNet

/-- Resets apart. -/
def seen (d : VirtioMmioNet) : Option String × List NetCall := (d.fault, d.backend.history.filter (· ≠ .reset))

theorem mmioWrite_quiet (d : VirtioMmioNet) (offset value) : Quiet device seen d (d.mmioWrite offset value) := by
  have hreset : Quiet device seen d d.reset := ⟨by simp [seen, reset, NetBackend.call], BitVec.zero_and⟩
  unfold mmioWrite
  repeat' first
    | refine .dite (fun _ => ?_) fun _ => ?_
    | exact ⟨rfl, BitVec.and_self⟩
    | exact ⟨rfl, Mmio.acked _ _⟩
    | exact hreset

end VirtioMmioNet

/-- Once a device has latched its fault, no later access of the driver moves a byte, tells the host of more than resets or
    raises an interrupt: memory is what the guest's own stores make of it, and every poll reports nothing. -/
theorem latched_fault_is_sticky (b : BlkState) (n : NetState)
    (before later : List Access) :
    (∀ s, VirtioMmioBlk.device.run b before = s → s.1.fault.isSome → let t := VirtioMmioBlk.device.run s later
      t.2 = later.foldl guestStore s.2 ∧ Quiet VirtioMmioBlk.device VirtioMmioBlk.seen s.1 t.1 ∧
        (VirtioMmioBlk.pollKick t).outcome = .ok false) ∧
    ∀ s, VirtioMmioNet.device.run n before = s → s.1.fault.isSome → let t := VirtioMmioNet.device.run s later
      t.2 = later.foldl guestStore s.2 ∧ Quiet VirtioMmioNet.device VirtioMmioNet.seen s.1 t.1 ∧
        (VirtioMmioNet.poll t).outcome = .ok false := by
  constructor
  · intro s _ hs
    exact RegisterDevice.run_quiet VirtioMmioBlk.mmioWrite_quiet VirtioMmioBlk.pollKick_latched hs later
  · intro s _ hs
    refine RegisterDevice.run_quiet VirtioMmioNet.mmioWrite_quiet (fun d m h => ⟨d, ?_, .refl⟩) hs later
    exact VirtioMmioNet.poll_fault h

/-- A driver that starts a queue outside its RAM. -/
def strayQueue : List Access :=
  [.write Mmio.QUEUE_NUM 4, .write Mmio.QUEUE_DESC_HIGH 1, .write Mmio.QUEUE_READY 1, .write Mmio.STATUS 4,
    .write Mmio.QUEUE_NOTIFY 0, .poll]

theorem strayQueue_latches : ∃ s, VirtioMmioBlk.device.run (newBlk, blankMemory) strayQueue = s ∧ s.1.fault.isSome ∧
    (VirtioMmioBlk.device.run s strayQueue).2 = s.2 := by
  have h := latched_fault_is_sticky (newBlk, blankMemory) (newNet, blankMemory) strayQueue strayQueue
  exact ⟨_, rfl, rfl, (h.1 _ rfl rfl).1⟩

end Rish.SoftVm.Virtio
