/-
  Rish.SoftVm.Virtio.Driver — what a driver may rely on when it kicks a device.

  A kick of the block device is a write of the queue index to the notify register; it is honoured when the next poll
  serves every published request. The device compares the written index with its queue selector, so a kick of queue 0
  is lost while another queue is selected; and a request that is malformed, or a read that the host fails, stops it.

  Proved: which kicks are honoured (`kick_honoured_iff`).
-/

import Rish.SoftVm.Virtio.HostErrors

namespace Rish.SoftVm.Virtio

open Lib

namespace VirtioMmioBlk

open Mmio

/-! ## Kicks -/

/-- How many requests are published and not served. -/
def published (s : BlkState) : Nat := (s.1.queue.driverIndex s.2.ram - s.1.lastSeenAvail).toNat

def PollDrains (s : BlkState) : Prop :=
  ∃ turns t, Drains s.1.queue processRequest s.1.lastSeenAvail turns (takeKick s) t ∧ turns.length = published s ∧
    (pollKick s).state.2 = t.2 ∧ (pollKick s).state.1.lastSeenAvail = s.1.queue.driverIndex s.2.ram

/-- The batch can be drained, and none of its requests is refused or failed by the host when it is reached. -/
structure AllAccepted (s : BlkState) : Prop where
  admitted : Admitted s.1.queue s.1.lastSeenAvail (takeKick s)
  accepted : ∀ turns u, Drains s.1.queue processRequest s.1.lastSeenAvail turns (takeKick s) u →
    turns.length < published s → ∃ length, (processRequest (nextHead s turns u) u).outcome = .ok length

/-- The driver has enabled its queue and started the device, and the device runs. -/
structure Started (d : VirtioMmioBlk) : Prop where
  ready : d.queueReady = true
  size : d.queue.size ≠ 0
  driverOk : d.status &&& STATUS_DRIVER_OK ≠ 0
  fault : d.fault = none

variable {s : BlkState} {d : VirtioMmioBlk}

theorem Started.kickServed_iff (h : Started d) : KickServed d ↔ d.kickPending = true := by
  refine ⟨fun hserved => hserved.1, fun hkick => ⟨hkick, ?_⟩⟩
  rintro (hfault | hready | hsize | hstatus)
  · rw [h.fault] at hfault
    cases hfault
  · rw [h.ready] at hready
    cases hready
  · exact h.size hsize
  · exact h.driverOk hstatus

theorem lastSeen_add_published (s) :
    s.1.lastSeenAvail + BitVec.ofNat 16 (published s) = s.1.queue.driverIndex s.2.ram := by
  unfold published
  rw [BitVec.ofNat_toNat, BitVec.setWidth_eq, BitVec.add_comm, BitVec.sub_add_cancel]

theorem drainAvailable_admits {q : QueueLayout} {lastSeen : U16} {process : U16 → BlkM U32} {a : U16 × Nat}
    (h : (drainAvailable q lastSeen process s).outcome = .ok a) : Admitted q lastSeen s := by
  have hvalid : q.validate s.2.ram.len = .ok () := by
    by_contra hinvalid
    exact (drainAvailable_invalid hinvalid).1 a h
  refine ⟨hvalid, ?_⟩
  by_contra hmore
  rw [drainAvailable_far process hvalid (Nat.lt_of_not_ge hmore)] at h
  cases h

theorem drainAvailable_ok_iff (hsize : s.1.queue.size ≠ 0) : KickDrained s ↔ AllAccepted s := by
  constructor
  · rintro ⟨a, hok⟩
    have hadmitted := drainAvailable_admits hok
    refine ⟨hadmitted, fun turns u hdrains hmore => ?_⟩
    by_contra hrefused
    have hfails (length : U32) : (requestHandler.process (nextHead s turns u) u).outcome ≠ .ok length :=
      fun h => hrefused ⟨length, h⟩
    exact drainAvailable_refused hadmitted.1 hsize hadmitted.2 hdrains hmore hfails a hok
  · intro h
    obtain ⟨turns, t, -, hdrains, hended⟩ := drainAvailable_drains requestHandler h.admitted.1 h.admitted.2
    cases hended with
    | served _ hout _ => exact ⟨_, hout⟩
    | refused hcount hfail _ =>
      obtain ⟨length, hok⟩ := h.accepted turns t hdrains hcount
      have hsame : (processRequest (nextHead s turns t) t).outcome.SameFailure _ := hfail
      rw [hok] at hsame
      cases hsame

theorem drainAvailable_all {last completed}
    (h : (drainAvailable s.1.queue s.1.lastSeenAvail processRequest (takeKick s)).outcome = .ok (last, completed)) :
    last = s.1.queue.driverIndex s.2.ram ∧ ∃ turns t,
      Drains s.1.queue processRequest s.1.lastSeenAvail turns (takeKick s) t ∧ turns.length = published s ∧
        (drainAvailable s.1.queue s.1.lastSeenAvail processRequest (takeKick s)).state = t := by
  have hadmitted := drainAvailable_admits h
  obtain ⟨turns, t, -, hdrains, hended⟩ := drainAvailable_drains requestHandler hadmitted.1 hadmitted.2
  cases hended with
  | served hcount hout hstate =>
    have hlast := h.symm.trans hout
    injection hlast with hlast
    injection hlast with hlast
    exact ⟨hlast.trans (lastSeen_add_published s), turns, t, hdrains, hcount, hstate⟩
  | refused _ hfail _ => exact absurd h (hfail.ne_ok _)

theorem pollKick_drains (h : KickServed s.1) (hok : KickDrained s) : PollDrains s := by
  obtain ⟨⟨last, completed⟩, hok⟩ := hok
  obtain ⟨rfl, turns, t, hdrains, hcount, hstate⟩ := drainAvailable_all hok
  refine ⟨turns, t, hdrains, hcount, ?_⟩
  rw [pollKick_served h, Exec.bind_ok (show Exec.attempt _ _ = ⟨.ok (.ok _), t, _⟩ by rw [Exec.attempt, hok, hstate])]
  exact ⟨rfl, rfl⟩

/-- A drain that fails has seen nothing new. -/
theorem pollKick_stopped (h : KickServed s.1) (hfails : ¬KickDrained s) :
    (pollKick s).state.1.lastSeenAvail = s.1.lastSeenAvail ∧
      (pollKick s).state.2 = (drainAvailable s.1.queue s.1.lastSeenAvail processRequest (takeKick s)).state.2 := by
  obtain ⟨t, text, hdrain, hstate⟩ := pollKick_failed h hfails
  have hframe := drain_onlyData s
  rw [hdrain] at hframe ⊢
  rw [hstate]
  refine ⟨?_, rfl⟩
  show t.1.lastSeenAvail = _
  rw [hframe.device]
  rfl

/-- With nothing published a drain fails for its rings alone, before it reads any. -/
theorem pollDrains_of_none (hnone : s.1.queue.driverIndex s.2.ram = s.1.lastSeenAvail) : PollDrains s := by
  have hempty : published s = 0 := by
    rw [published, hnone, BitVec.sub_self]
    rfl
  by_cases hserved : KickServed s.1
  · by_cases hok : KickDrained s
    · exact pollKick_drains hserved hok
    · have hsize : s.1.queue.size ≠ 0 := fun hzero => hserved.2 (.inr (.inr (.inl hzero)))
      have hinvalid : s.1.queue.validate (takeKick s).2.ram.len ≠ .ok () := by
        intro hvalid
        have hnear : published s ≤ s.1.queue.size.toNat := by omega
        exact hok ((drainAvailable_ok_iff hsize).mpr ⟨⟨hvalid, hnear⟩, fun turns _ _ hmore => absurd hmore (by omega)⟩)
      obtain ⟨hseen, hmemory⟩ := pollKick_stopped hserved hok
      exact ⟨[], takeKick s, .nil _ _, hempty.symm,
        hmemory.trans (congrArg Prod.snd (drainAvailable_invalid hinvalid).2), hseen.trans hnone.symm⟩
  · obtain ⟨hdevice, hmemory⟩ := pollKick_skipped hserved
    refine ⟨[], takeKick s, .nil _ _, hempty.symm, hmemory, ?_⟩
    rw [hdevice]
    exact hnone.symm

def notify (d : VirtioMmioBlk) : VirtioMmioBlk := d.mmioWrite QUEUE_NOTIFY 0

theorem notify_eq (h : d.queueReady = true) :
    notify d = { d with kickPending := d.kickPending || decide (d.queueSel = 0) } := by
  have hword : QUEUE_NOTIFY &&& ~~~3 = QUEUE_NOTIFY := by decide
  unfold notify mmioWrite
  simp only [hword]
  rw [if_neg (by decide), if_neg (by decide), if_neg (by decide), if_neg (by decide), if_neg (by decide),
    if_neg (by decide), if_pos trivial]
  by_cases hsel : d.queueSel = 0
  · rw [if_pos ⟨hsel.symm, h⟩, decide_eq_true hsel, Bool.or_true]
  · rw [if_neg fun hboth => hsel hboth.1.symm, decide_eq_false hsel, Bool.or_false]

/-- A kick of queue 0 is honoured when nothing is published, or else when queue 0 is selected or a kick is waiting and
    no published request is refused or failed by the host; and only then. -/
theorem kick_honoured_iff (d : VirtioMmioBlk) (m : DeviceMemory) (h : Started d) :
    PollDrains (notify d, m) ↔ d.queue.driverIndex m.ram = d.lastSeenAvail ∨
      ((d.queueSel = 0 ∨ d.kickPending = true) ∧ AllAccepted (notify d, m)) := by
  have hnotify := notify_eq h.ready
  have hstarted : Started (notify d) := by
    rw [hnotify]
    exact ⟨h.ready, h.size, h.driverOk, h.fault⟩
  have hserved : KickServed (notify d) ↔ d.queueSel = 0 ∨ d.kickPending = true := by
    rw [hstarted.kickServed_iff, hnotify, Bool.or_eq_true, decide_eq_true_eq, or_comm]
  have hsame : (notify d).queue = d.queue ∧ (notify d).lastSeenAvail = d.lastSeenAvail := by
    rw [hnotify]
    exact ⟨rfl, rfl⟩
  have haccepted := drainAvailable_ok_iff (s := (notify d, m)) hstarted.size
  rw [← hserved, ← haccepted]
  constructor
  · rintro ⟨turns, t, -, -, -, hseen⟩
    rw [hsame.1] at hseen
    by_cases hkick : KickServed (notify d)
    · by_cases hok : KickDrained (notify d, m)
      · exact .inr ⟨hkick, hok⟩
      · rw [(pollKick_stopped (s := (notify d, m)) hkick hok).1, hsame.2] at hseen
        exact .inl hseen.symm
    · rw [(pollKick_skipped (s := (notify d, m)) hkick).1] at hseen
      exact .inl (hseen.symm.trans hsame.2)
  · rintro (hnone | ⟨hkick, hok⟩)
    · exact pollDrains_of_none (s := (notify d, m)) (by rw [hsame.1, hsame.2]; exact hnone)
    · exact pollKick_drains (s := (notify d, m)) hkick hok

/-- What a driver writes to start a device with a queue of four entries, and then to look at queue 1. -/
def startWrites : List (U64 × U32) :=
  [(QUEUE_SEL, 0), (QUEUE_NUM, 4), (QUEUE_AVAIL_LOW, 0x100), (QUEUE_USED_LOW, 0x200), (QUEUE_READY, 1),
    (STATUS, STATUS_DRIVER_OK), (QUEUE_SEL, 1)]

def writeAll (d : VirtioMmioBlk) (writes : List (U64 × U32)) : VirtioMmioBlk :=
  writes.foldl (fun d w => d.mmioWrite w.1 w.2) d

/-- RAM with one request in the available ring. -/
def onePublished : DeviceMemory := { writing.2 with ram := writing.2.ram.store 0x102 [1, 0] }

theorem selected_kick_honoured :
    PollDrains (notify diskDevice, onePublished) ∧ published (notify diskDevice, onePublished) = 1 :=
  have hok : (drainAvailable (notify diskDevice).queue (notify diskDevice).lastSeenAvail processRequest
      (takeKick (notify diskDevice, onePublished))).outcome = .ok (1, 1) := by decide +kernel
  ⟨(kick_honoured_iff diskDevice onePublished ⟨rfl, by decide, by decide, rfl⟩).mpr
    (.inr ⟨.inl rfl, (drainAvailable_ok_iff (by decide)).mp ⟨_, hok⟩⟩), by decide +kernel⟩

/-- The kick of the started device is lost: its request stays where it is. -/
theorem deselected_kick_lost : ∃ d, new memoryDisk = .ok d ∧ Started (writeAll d startWrites) ∧
    published (notify (writeAll d startWrites), onePublished) = 1 ∧
    (pollKick (notify (writeAll d startWrites), onePublished)).outcome = .ok false ∧
    (pollKick (notify (writeAll d startWrites), onePublished)).state.1.lastSeenAvail = 0 ∧
    (pollKick (notify (writeAll d startWrites), onePublished)).state.1.fault = none := by
  refine ⟨_, rfl, ⟨by decide +kernel, by decide +kernel, by decide +kernel, by decide +kernel⟩, by decide +kernel,
    by decide +kernel, by decide +kernel, by decide +kernel⟩

end VirtioMmioBlk

end Rish.SoftVm.Virtio
