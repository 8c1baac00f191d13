/-
  Rish.SoftVm.Virtio.Reset — a device after a reset, beside one that was just built.

  A driver resets a device by writing zero to its status register. From outside, a device is what its register
  reads, its polls, guest RAM and its interrupt status show (`step`), after any history of register accesses,
  kicks, polls and stores of the guest.

  The reset of the block device leaves two selectors alone, of the feature words and of the queues; that of the
  network device leaves the first. The network device also keeps the instant of its last call of the backend,
  which decides when the next poll may call it again, and two host-side counters no access reads.
-/

import Rish.Lib.Observe
import Rish.SoftVm.Virtio.Completion

namespace Rish.SoftVm.Virtio

open Lib

/-! ## Devices from outside -/

inductive Access where
  | read (offset : U64)
  | write (offset : U64) (value : U32)
  | poll
  /-- A store of the guest to its RAM. -/
  | guest (start : Nat) (input : List U8)

inductive Answer where
  | word (value : U32)
  | polled (outcome : Outcome VirtioError Bool) (memory : DeviceMemory) (irqStatus : U32)
  | done

structure RegisterDevice (σ : Type) where
  mmioRead : σ → U64 → U32
  mmioWrite : σ → U64 → U32 → σ
  poll : Device σ Bool
  irqStatus : σ → U32

section

variable {σ : Type}

def RegisterDevice.step (D : RegisterDevice σ) (s : σ × DeviceMemory) : Access → Answer × (σ × DeviceMemory)
  | .read offset => (.word (D.mmioRead s.1 offset), s)
  | .write offset value => (.done, (D.mmioWrite s.1 offset value, s.2))
  | .poll => (.polled (D.poll s).outcome (D.poll s).state.2 (D.irqStatus (D.poll s).state.1), (D.poll s).state)
  | .guest start input => (.done, (s.1, { s.2 with ram := s.2.ram.store start input }))

def RegisterDevice.run (D : RegisterDevice σ) (s : σ × DeviceMemory) (history : List Access) : σ × DeviceMemory :=
  stateAfter D.step s history

theorem RegisterDevice.run_invariant {D : RegisterDevice σ} {P : σ → Prop}
    (hwrite : ∀ d offset value, P d → P (D.mmioWrite d offset value))
    (hpoll : ∀ d m, P d → P (D.poll (d, m)).state.1) {s : σ × DeviceMemory} (hs : P s.1) (history : List Access) :
    P (D.run s history).1 := by
  refine stateAfter_invariant (P := fun s : σ × DeviceMemory => P s.1) (fun s access h => ?_) hs history
  cases access with
  | read offset => exact h
  | write offset value => exact hwrite s.1 offset value h
  | poll => exact hpoll s.1 s.2 h
  | guest start input => exact h

end

theorem Mmio.featureWord_low {offered : U64} {sel : U32} (hhigh : (offered >>> 32).setWidth 32 ≠ offered.setWidth 32)
    (hsome : (0 : U32) ≠ offered.setWidth 32) (h : featureWord offered sel = featureWord offered 0) : sel = 0 := by
  by_contra hsel
  rw [featureWord, if_neg hsel] at h
  split at h
  · exact hhigh h
  · exact hsome h

/-! ## The block device -/

namespace VirtioMmioBlk

open Mmio

def device : RegisterDevice VirtioMmioBlk := ⟨mmioRead, mmioWrite, pollKick, irqStatus⟩

/-- A new device over the same backend would report the same capacity. -/
def Built (d : VirtioMmioBlk) : Prop :=
  d.backend.length ≠ 0 ∧ d.backend.length.toNat % SECTOR_SIZE = 0 ∧
    d.capacitySectors = BitVec.ofNat 64 (d.backend.length.toNat / SECTOR_SIZE)

variable {d : VirtioMmioBlk}

theorem new_built {backend} (h : new backend = .ok d) : Built d := by
  unfold new at h
  split at h
  · cases h
  next hlength =>
    split at h
    · cases h
    next hwhole =>
      cases h
      exact ⟨hlength, not_not.mp hwhole, rfl⟩

theorem Built.congr {d d'} (h : Built d) (hcapacity : d'.capacitySectors = d.capacitySectors)
    (hlength : d'.backend.length = d.backend.length) : Built d' := by
  rw [Built, hcapacity, hlength]
  exact h

/-- The new device over the backend of a device. -/
def fresh (d : VirtioMmioBlk) : VirtioMmioBlk :=
  ⟨d.backend, d.capacitySectors, 0, 0, 0, (0, 0), 0, 0, .empty, false, 0, 0, false, none⟩

theorem Built.new_eq (h : Built d) : new d.backend = .ok d.fresh := by
  obtain ⟨hlength, hwhole, hcapacity⟩ := h
  rw [new, if_neg hlength, if_neg (not_not.mpr hwhole), fresh, hcapacity]

theorem mmioWrite_built (d) (offset : U64) (value : U32) (h : Built d) : Built (d.mmioWrite offset value) := by
  refine h.congr (d.mmioWrite_capacitySectors offset value) ?_
  rw [mmioWrite_backend]

/-- The disk is as long as it was, and reported so. -/
def SameDisk (s t : BlkState) : Prop :=
  t.1.capacitySectors = s.1.capacitySectors ∧ t.1.backend.length = s.1.backend.length

instance : IsPreorder BlkState SameDisk where
  refl _ := ⟨rfl, rfl⟩
  trans _ _ _ h h' := ⟨h'.1.trans h.1, h'.2.trans h.2⟩

theorem pollKick_sameDisk : Keeps SameDisk pollKick := by
  have hdrain (q : QueueLayout) (lastSeen : U16) : Keeps SameDisk (drainAvailable q lastSeen processRequest) := by
    have hprocess := processRequest_onlyData
    refine Keeps.mono (R := OnlyData) inferInstance fun s t h => ?_
    rw [SameDisk, h.device]
    exact ⟨rfl, rfl⟩
  have hkick : Keeps SameDisk (Exec.update fun s => ({ s.1 with kickPending := false }, s.2) : BlkM Unit) :=
    .update fun _ => ⟨rfl, rfl⟩
  unfold pollKick
  refine .bind fun d => ?_
  split
  · infer_instance
  · refine .bind fun _ => ?_
    split
    · infer_instance
    · refine .bind fun o => ?_
      rcases o with ⟨lastSeen, completed⟩ | e | _
      · exact ⟨fun s => ⟨rfl, rfl⟩⟩
      · exact ⟨fun s => ⟨rfl, rfl⟩⟩
      · exact ⟨fun s => ⟨rfl, rfl⟩⟩

theorem pollKick_built (d) (m : DeviceMemory) (h : Built d) : Built (pollKick (d, m)).state.1 := by
  obtain ⟨hcapacity, hlength⟩ := pollKick_sameDisk.keeps (d, m)
  exact h.congr hcapacity hlength

theorem mmioWrite_status_zero (d : VirtioMmioBlk) : d.mmioWrite STATUS 0 = d.reset := rfl

theorem reset_eq (hfault : d.fault = none) :
    d.reset = { d.fresh with deviceFeatureSel := d.deviceFeatureSel, queueSel := d.queueSel } := by
  rw [fresh, reset, ← hfault]

theorem mmioRead_features (d : VirtioMmioBlk) :
    d.mmioRead DEVICE_FEATURES = featureWord OFFERED_FEATURES d.deviceFeatureSel := rfl

theorem mmioRead_queueNum (d : VirtioMmioBlk) : d.mmioRead QUEUE_NUM = d.queue.size.setWidth 32 := rfl

theorem mmioWrite_queueNum (d : VirtioMmioBlk) (value : U32) : d.mmioWrite QUEUE_NUM value =
    if d.queueSel = 0 ∧ !d.queueReady then { d with queue := { d.queue with size := queueSize value } } else d := rfl

theorem reset_fresh_iff (hfault : d.fault = none) (m : DeviceMemory) :
    ObsEq device.step (d.mmioWrite STATUS 0, m) (d.fresh, m) ↔ d.deviceFeatureSel = 0 ∧ d.queueSel = 0 := by
  rw [mmioWrite_status_zero, reset_eq hfault]
  constructor
  · intro h
    -- the feature word shows one selector, and a queue size that takes shows the other
    have hfeatures := h [.read DEVICE_FEATURES]
    have hsize := h [.write QUEUE_NUM 3, .read QUEUE_NUM]
    simp only [outputs, RegisterDevice.step, device, mmioRead_features, List.cons.injEq, Answer.word.injEq,
      and_true] at hfeatures
    simp only [outputs, RegisterDevice.step, device, mmioRead_queueNum, mmioWrite_queueNum, List.cons.injEq,
      Answer.word.injEq,
      and_true, true_and] at hsize
    refine ⟨featureWord_low (by decide) (by decide) hfeatures, ?_⟩
    by_contra hsel
    rw [if_neg fun hboth => hsel hboth.1, if_pos ⟨rfl, rfl⟩] at hsize
    have hlost : (0 : U16).setWidth 32 = (queueSize 3).setWidth 32 := hsize
    exact absurd hlost (by decide)
  · rintro ⟨hfeature, hqueue⟩ inputs
    rw [hfeature, hqueue]
    rfl

end VirtioMmioBlk

/-! ## Queue programs beside each other -/

section Matches

variable {σ : Type} {R : σ × DeviceMemory → σ × DeviceMemory → Prop}

/-- Related states have the same memory, and equal stores keep them related. -/
class SharesMemory (R : σ × DeviceMemory → σ × DeviceMemory → Prop) : Prop where
  memory : ∀ s t, R s t → s.2 = t.2
  stores : ∀ s t, R s t → ∀ m, R (s.1, m) (t.1, m)

variable [SharesMemory R]

theorem query_memory_matches {α : Type} (n : Nat) (f : DeviceMemory → Outcome VirtioError α) :
    Matches R (Exec.query n fun s => f s.2 : Device σ α) :=
  .query (fun s t h => by rw [SharesMemory.memory s t h]) n

instance (address n) : Matches R (readMemory address n) :=
  query_memory_matches 1 fun m => do
    checkRange m address n
    return m.ram.load address.toNat n

instance (address input) : Matches R (writeMemory address input) := by
  have hcheck : Matches R (Exec.query 1 fun (_, m) => checkRange m address input.length : Device σ Unit) :=
    query_memory_matches 1 fun m => checkRange m address input.length
  have hstore : Matches R (Exec.update fun (d, m) =>
      (d, { m with ram := m.ram.store address.toNat input, wrote := true }) :
      Device σ Unit) := by
    refine .update fun s t h => ?_
    have hmemory : s.2 = t.2 := SharesMemory.memory s t h
    show R (s.1, { s.2 with ram := s.2.ram.store address.toNat input, wrote := true })
      (t.1, { t.2 with ram := t.2.ram.store address.toNat input, wrote := true })
    rw [hmemory]
    exact SharesMemory.stores s t h _
  unfold writeMemory
  infer_instance

instance (address) : Matches R (readU16 address) := by unfold readU16; infer_instance

instance (address) : Matches R (readU32 address) := by unfold readU32; infer_instance

instance (address) : Matches R (readU64 address) := by unfold readU64; infer_instance

instance (a b) : Matches R (offset a b) := by unfold offset; infer_instance

variable (q : QueueLayout)

instance : Matches R (availIndex q) := by unfold availIndex; infer_instance

instance (slot) : Matches R (availHead q slot) := by unfold availHead; infer_instance

instance : Matches R (usedIndex q) := by unfold usedIndex; infer_instance

set_option synthInstance.maxSize 512 in
instance (q index) : Matches R (readDescriptor q index) := by
  unfold readDescriptor; infer_instance

instance (room index chain) : Matches R (chainFrom q room index chain) := by
  induction room generalizing index chain with
  | zero =>
    unfold chainFrom
    infer_instance
  | succ room ih =>
    unfold chainFrom
    split
    · infer_instance
    · exact Matches.bind fun p => by cases p; infer_instance

instance (chain) : Matches R (checkChainRanges chain) := by
  induction chain with
  | nil =>
    unfold checkChainRanges
    infer_instance
  | cons d rest ih =>
    have hcheck : Matches R (Exec.query 0 fun (_, m) => checkRange m d.address d.length.toNat : Device σ Unit) :=
      query_memory_matches 0 fun m => checkRange m d.address d.length.toNat
    unfold checkChainRanges
    infer_instance

instance (head) : Matches R (validatedChain q head) := by
  unfold validatedChain readChain; infer_instance

set_option synthInstance.maxSize 512 in
instance (q used id length) : Matches R (writeUsed q used id length) := by
  unfold writeUsed; infer_instance

instance : Matches R (Exec.query 0 fun (_, m) => q.validate m.ram.len : Device σ Unit) :=
  query_memory_matches 0 fun m => q.validate m.ram.len

variable (process : U16 → Device σ U32) [∀ head, Matches R (process head)]

instance (q avail fuel index completed) : Matches R (drainFrom q avail process fuel index completed) := by
  induction fuel generalizing index completed <;> (unfold drainFrom; infer_instance)

instance (q lastSeen) : Matches R (drainAvailable q lastSeen process) := by
  unfold drainAvailable; infer_instance

end Matches

/-! ## The network device -/

namespace VirtioMmioNet

open Mmio

def device : RegisterDevice VirtioMmioNet := ⟨mmioRead, mmioWrite, poll, irqStatus⟩

/-- Every later reading of the clock is past both instants or past neither. -/
def InPhase (clock : Nat → Nat) (reads a b : Nat) : Prop := ∀ k, reads ≤ k → (a < clock k ↔ b < clock k)

/-- Devices of one address that differ in the counters and in the instant of the last call of the backend, and call it
    again at the same reading of the clock. -/
structure Alike (mac : Fin 6 → U8) (d e : VirtioMmioNet) : Prop where
  same : ∃ rx tx last, e = { d with rxDropped := rx, txDropped := tx, lastBackendPoll := last }
  phase : InPhase d.clock d.clockReads d.lastBackendPoll e.lastBackendPoll
  address : d.mac = mac
  backendAddress : d.backend.mac = mac

structure Beside (mac : Fin 6 → U8) (s t : NetState) : Prop where
  device : Alike mac s.1 t.1
  memory : s.2 = t.2

variable {mac : Fin 6 → U8}

instance : SharesMemory (Beside mac) where
  memory _ _ h := h.memory
  stores _ _ h _ := ⟨h.device, rfl⟩

theorem Alike.refl {d} (h : d.mac = mac) (hb : d.backend.mac = mac) : Alike mac d d :=
  ⟨⟨_, _, _, rfl⟩, fun _ _ => Iff.rfl, h, hb⟩

def Treats (mac : Fin 6 → U8) (f : VirtioMmioNet → VirtioMmioNet) : Prop := ∀ d e, Alike mac d e → Alike mac (f d) (f e)

instance {f : VirtioMmioNet → VirtioMmioNet} [h : Fact (Treats mac f)] : Matches (Beside mac) (modifyDevice f) :=
  .update fun _ _ hst => ⟨h.out _ _ hst.device, hst.memory⟩

theorem view_device_matches {α : Type} {f : VirtioMmioNet → NetM α} (h : ∀ d e, Alike mac d e → f d = f e)
    (hf : ∀ d, Matches (Beside mac) (f d)) : Matches (Beside mac) (Exec.view Prod.fst >>= f) :=
  .view_bind (fun _ _ hst => h _ _ hst.device) fun s => hf s.1

instance (index) : Matches (Beside mac) (Exec.view fun s => s.1.queues index : NetM QueueLayout) := by
  refine .view fun s t hst => ?_
  obtain ⟨rx, tx, last, hsame⟩ := hst.device.same
  show s.1.queues index = t.1.queues index
  rw [hsame]

/-! ### Changes of the device -/

theorem mmioRead_alike {d e} (h : Alike mac d e) (offset : U64) : d.mmioRead offset = e.mmioRead offset := by
  obtain ⟨rx, tx, last, rfl⟩ := h.same
  rfl

section

variable (mac)

/-- The device with other counters and another last call of the backend. -/
def marked (rx tx : U64) (last : Nat) (d : VirtioMmioNet) : VirtioMmioNet :=
  { d with rxDropped := rx, txDropped := tx, lastBackendPoll := last }

theorem mmioWrite_marked (rx tx last d) (offset : U64) (value : U32) :
    (marked rx tx last d).mmioWrite offset value = marked rx tx last (d.mmioWrite offset value) := by
  simp only [mmioWrite, apply_ite (marked rx tx last), apply_dite (marked rx tx last)]
  rfl

/-- What no register write touches. -/
def setting (d : VirtioMmioNet) : (Nat → Nat) × Nat × Nat × (Fin 6 → U8) × (Fin 6 → U8) :=
  (d.clock, d.clockReads, d.lastBackendPoll, d.mac, d.backend.mac)

theorem mmioWrite_setting (d) (offset : U64) (value : U32) :
    setting (d.mmioWrite offset value) = setting d := by
  have hreset : setting d.reset = setting d := rfl
  have hlayout (f : QueueLayout → QueueLayout) : setting (d.setLayout f) = setting d := rfl
  simp only [mmioWrite, apply_ite setting, apply_dite setting, hreset, hlayout]
  simp only [setting, ite_self, dite_eq_ite]

theorem treats_of_setting {f} (hset : ∀ d, setting (f d) = setting d)
    (hmarked : ∀ rx tx last d, ∃ rx' tx', f (marked rx tx last d) = marked rx' tx' last (f d)) : Treats mac f := by
  rintro d e ⟨⟨rx, tx, last, rfl⟩, phase, hm, hb⟩
  obtain ⟨rx', tx', hother⟩ := hmarked rx tx last d
  have hset := hset d
  simp only [setting, Prod.mk.injEq] at hset
  obtain ⟨hclock, hreads, hlast, hmac, hbackend⟩ := hset
  refine ⟨⟨rx', tx', last, hother⟩, ?_, hmac.trans hm, hbackend.trans hb⟩
  show InPhase (f d).clock _ _ (f (marked rx tx last d)).lastBackendPoll
  rw [hclock, hreads, hlast, hother]
  exact phase

theorem mmioWrite_treats (offset value) : Treats mac (mmioWrite · offset value) :=
  treats_of_setting mac (mmioWrite_setting · offset value) fun rx tx last d =>
    ⟨rx, tx, mmioWrite_marked rx tx last d offset value⟩

instance : Fact (Treats mac fun d => { d with txDropped := saturatingSucc d.txDropped }) :=
  ⟨treats_of_setting mac (fun _ => rfl) fun _ _ _ _ => ⟨_, _, rfl⟩⟩

instance : Fact (Treats mac fun d => { d with rxDropped := saturatingSucc d.rxDropped }) :=
  ⟨treats_of_setting mac (fun _ => rfl) fun _ _ _ _ => ⟨_, _, rfl⟩⟩

instance (frame : List U8) : Fact (Treats mac fun d => { d with backend := d.backend.call (.enqueue frame) }) :=
  ⟨treats_of_setting mac (fun _ => rfl) fun _ _ _ _ => ⟨_, _, rfl⟩⟩

instance (backlog : List (List U8)) : Fact (Treats mac fun d => { d with rxBacklog := backlog }) :=
  ⟨treats_of_setting mac (fun _ => rfl) fun _ _ _ _ => ⟨_, _, rfl⟩⟩

instance (last : U16) :
    Fact (Treats mac fun d => { d with lastSeenAvail := Function.update d.lastSeenAvail QUEUE_TX last }) :=
  ⟨treats_of_setting mac (fun _ => rfl) fun _ _ _ _ => ⟨_, _, rfl⟩⟩

instance : Fact (Treats mac fun d =>
    { d with lastSeenAvail := Function.update d.lastSeenAvail QUEUE_RX (d.lastSeenAvail QUEUE_RX + 1) }) :=
  ⟨treats_of_setting mac (fun _ => rfl) fun _ _ _ _ => ⟨_, _, rfl⟩⟩

instance : Fact (Treats mac fun d => { d with kickPending := Function.update d.kickPending QUEUE_TX false }) :=
  ⟨treats_of_setting mac (fun _ => rfl) fun _ _ _ _ => ⟨_, _, rfl⟩⟩

instance (completed : Bool) : Fact (Treats mac fun d =>
    { d with irqStatus := if completed then d.irqStatus ||| INTERRUPT_USED_RING else d.irqStatus }) :=
  ⟨treats_of_setting mac (fun _ => rfl) fun _ _ _ _ => ⟨_, _, rfl⟩⟩

instance (fault : Option String) : Fact (Treats mac fun d => { d with fault := fault }) :=
  ⟨treats_of_setting mac (fun _ => rfl) fun _ _ _ _ => ⟨_, _, rfl⟩⟩

theorem pushFrame_treats (frame : List U8) : Treats mac (pushFrame · frame) := by
  rintro d e ⟨⟨rx, tx, last, rfl⟩, phase, hm, hb⟩
  simp only [pushFrame]
  split_ifs
  · exact ⟨⟨saturatingSucc rx, tx, last, rfl⟩, phase, hm, hb⟩
  · exact ⟨⟨rx, tx, last, rfl⟩, phase, hm, hb⟩

instance : Fact (Treats mac pollBackend) := by
  constructor
  rintro d e ⟨⟨rx, tx, last, rfl⟩, phase, hm, hb⟩
  have hdue : d.lastBackendPoll < d.clock d.clockReads ↔ last < d.clock d.clockReads :=
    phase d.clockReads (Nat.le_refl _)
  have hinterval (l : Nat) : d.clock d.clockReads - l ≥ 1 ↔ l < d.clock d.clockReads := by omega
  have hfold (frames : List (List U8)) : Treats mac (frames.foldl pushFrame) := by
    induction frames with
    | nil => exact fun _ _ h => h
    | cons frame frames ih => exact fun _ _ h => ih _ _ (pushFrame_treats mac frame _ _ h)
  simp only [pollBackend, BACKEND_POLL_INTERVAL, hinterval, ← hdue]
  split
  · exact hfold _ _ _ ⟨⟨rx, tx, _, rfl⟩, fun _ _ => Iff.rfl, hm, hb⟩
  · exact ⟨⟨rx, tx, last, rfl⟩, fun k hk => phase k (Nat.le_of_succ_le hk), hm, hb⟩

end

/-! ### Transmit -/

instance (segments room) : Matches (Beside mac) (gather segments room) := by
  induction segments generalizing room <;> (unfold gather; infer_instance)

instance (head) : Matches (Beside mac) (processTx head) := by
  unfold processTx
  refine .bind fun queue => .bind fun chain => ?_
  rcases chain with _ | ⟨first, rest⟩
  · infer_instance
  · simp only
    infer_instance

instance : Matches (Beside mac) drainTx := by
  unfold drainTx
  refine view_device_matches ?_ fun d => .bind fun p => ?_
  · rintro d e ⟨⟨rx, tx, last, rfl⟩, -, -, -⟩
    rfl
  · infer_instance

/-! ### Receive -/

instance (chain bytes) : Matches (Beside mac) (scatter chain bytes) := by
  induction chain generalizing bytes <;> (unfold scatter; infer_instance)

instance (head frame) : Matches (Beside mac) (processRx head frame) := by unfold processRx; infer_instance

instance (queue batch completed) : Matches (Beside mac) (fillFrom queue batch completed) := by
  induction batch generalizing completed with
  | zero =>
    unfold fillFrom
    infer_instance
  | succ batch ih =>
    unfold fillFrom
    refine view_device_matches ?_ fun d => ?_
    · rintro d e ⟨⟨rx, tx, last, rfl⟩, -, -, -⟩
      rfl
    · rcases d.rxBacklog with _ | ⟨frame, backlog⟩
      · infer_instance
      · simp only
        infer_instance

instance : Matches (Beside mac) drainRx := by unfold drainRx; infer_instance

/-! ### The poll -/

theorem poll_matches : Matches (Beside mac) poll := by
  have hsend : Matches (Beside mac) sendPhase := by
    unfold sendPhase
    refine view_device_matches ?_ fun d => ?_
    · rintro d e ⟨⟨rx, tx, last, rfl⟩, -, -, -⟩
      rfl
    · infer_instance
  have hreceive : Matches (Beside mac) receivePhase := by
    unfold receivePhase
    refine view_device_matches ?_ fun d => ?_
    · rintro d e ⟨⟨rx, tx, last, rfl⟩, -, -, -⟩
      rfl
    · infer_instance
  have hinner : Matches (Beside mac) pollInner := by
    rw [pollInner_eq]
    infer_instance
  unfold poll
  refine view_device_matches ?_ fun d => ?_
  · rintro d e ⟨⟨rx, tx, last, rfl⟩, -, -, -⟩
    rfl
  · split
    · infer_instance
    · refine .bind fun o => ?_
      rcases o with completed | e | _
      · infer_instance
      · infer_instance
      · infer_instance

theorem step_beside (s t) (access : Access) (h : Beside mac s t) :
    (device.step s access).1 = (device.step t access).1 ∧
    Beside mac (device.step s access).2 (device.step t access).2 := by
  cases access with
  | read offset => exact ⟨congrArg Answer.word (mmioRead_alike h.device offset), h⟩
  | write offset value => exact ⟨rfl, mmioWrite_treats mac offset value _ _ h.device, h.memory⟩
  | poll =>
    have hstate := poll_matches.state s t h
    obtain ⟨rx, tx, last, hsame⟩ := hstate.device.same
    have hirq : (poll s).state.1.irqStatus = (poll t).state.1.irqStatus := by rw [hsame]
    refine ⟨?_, hstate⟩
    show Answer.polled (poll s).outcome (poll s).state.2 (poll s).state.1.irqStatus =
      Answer.polled (poll t).outcome (poll t).state.2 (poll t).state.1.irqStatus
    rw [poll_matches.outcome s t h, hstate.memory, hirq]
  | guest start input =>
    have hstored := congrArg (fun m : DeviceMemory => { m with ram := m.ram.store start input }) h.memory
    exact ⟨rfl, h.device, hstored⟩

/-! ### Resets -/

variable (d : VirtioMmioNet)

def OwnAddress : Prop := d.mac = d.backend.mac

theorem mmioWrite_ownAddress (offset value) (h : OwnAddress d) :
    OwnAddress (d.mmioWrite offset value) := by
  have hset := mmioWrite_setting d offset value
  simp only [setting, Prod.mk.injEq] at hset
  rw [OwnAddress, hset.2.2.2.1, hset.2.2.2.2]
  exact h

theorem poll_ownAddress (m) (h : OwnAddress d) : OwnAddress (poll (d, m)).state.1 := by
  have hself : Beside d.mac (d, m) (d, m) := ⟨Alike.refl rfl h.symm, rfl⟩
  have hnext := poll_matches.state _ _ hself
  exact hnext.device.address.trans hnext.device.backendAddress.symm

theorem mmioWrite_status_zero : d.mmioWrite STATUS 0 = d.reset := rfl

def fresh (now : Nat) : VirtioMmioNet := new (d.backend.call .reset) d.clock d.clockReads now

theorem mmioRead_features : d.mmioRead DEVICE_FEATURES = featureWord OFFERED_FEATURES d.deviceFeatureSel >>> 0 := rfl

theorem reset_alike {d} (hfault : d.fault = none) (haddress : OwnAddress d) {now : Nat}
    (hphase : InPhase d.clock d.clockReads d.lastBackendPoll now) (hsel : d.deviceFeatureSel = 0) :
    Alike d.mac d.reset (d.fresh now) := by
  refine ⟨⟨0, 0, now, ?_⟩, hphase, rfl, haddress.symm⟩
  have hmac : (d.backend.call .reset).mac = d.mac := haddress.symm
  rw [fresh, new, reset, hmac, ← hfault, ← hsel]

theorem fresh_selector {d : VirtioMmioNet} {now : Nat} {m : DeviceMemory}
    (h : ObsEq device.step (d.mmioWrite STATUS 0, m) (d.fresh now, m)) : d.deviceFeatureSel = 0 := by
  have hfeatures := h [.read DEVICE_FEATURES]
  rw [mmioWrite_status_zero] at hfeatures
  simp only [outputs, RegisterDevice.step, device, mmioRead_features, BitVec.ushiftRight_zero, List.cons.injEq,
    Answer.word.injEq, and_true] at hfeatures
  exact featureWord_low (by decide) (by decide) hfeatures

end VirtioMmioNet

/-! ## Both devices -/

/-- After any history without a fault, the status write of zero leaves a device like a new one when the selectors it
    keeps are zero, and otherwise one a driver can tell apart. -/
theorem reset_is_fresh_iff {disk : BlockBackend} {blk : VirtioMmioBlk} (hnew : VirtioMmioBlk.new disk = .ok blk)
    (host : NetBackend) (clock : Nat → Nat) (reads start : Nat) (mb mn : DeviceMemory)
    (blkHistory netHistory : List Access)
    {b : BlkState} (hb : VirtioMmioBlk.device.run (blk, mb) blkHistory = b) (hbf : b.1.fault = none)
    {n : NetState}
    (hn : VirtioMmioNet.device.run (VirtioMmioNet.new host clock reads start, mn) netHistory = n)
    (hnf : n.1.fault = none) :
    (∃ fresh, VirtioMmioBlk.new b.1.backend = .ok fresh ∧
      (ObsEq VirtioMmioBlk.device.step (b.1.mmioWrite Mmio.STATUS 0, b.2) (fresh, b.2) ↔
        b.1.deviceFeatureSel = 0 ∧ b.1.queueSel = 0)) ∧
    ∀ now, let fresh := VirtioMmioNet.new (n.1.backend.call .reset) n.1.clock n.1.clockReads now
      (ObsEq VirtioMmioNet.device.step (n.1.mmioWrite Mmio.STATUS 0, n.2) (fresh, n.2) → n.1.deviceFeatureSel = 0) ∧
      (VirtioMmioNet.InPhase n.1.clock n.1.clockReads n.1.lastBackendPoll now → n.1.deviceFeatureSel = 0 →
        ObsEq VirtioMmioNet.device.step (n.1.mmioWrite Mmio.STATUS 0, n.2) (fresh, n.2)) := by
  constructor
  · have hbuilt : VirtioMmioBlk.Built b.1 := by
      rw [← hb]
      exact RegisterDevice.run_invariant VirtioMmioBlk.mmioWrite_built VirtioMmioBlk.pollKick_built
        (VirtioMmioBlk.new_built hnew) blkHistory
    exact ⟨b.1.fresh, hbuilt.new_eq, VirtioMmioBlk.reset_fresh_iff hbf b.2⟩
  · intro now
    have haddress : VirtioMmioNet.OwnAddress n.1 := by
      rw [← hn]
      have hstart : VirtioMmioNet.OwnAddress (VirtioMmioNet.new host clock reads start) := rfl
      exact RegisterDevice.run_invariant VirtioMmioNet.mmioWrite_ownAddress VirtioMmioNet.poll_ownAddress hstart
        netHistory
    refine ⟨VirtioMmioNet.fresh_selector, fun hphase hsel => ?_⟩
    exact ObsEq.of_bisimulation VirtioMmioNet.step_beside ⟨VirtioMmioNet.reset_alike hnf haddress hphase hsel, rfl⟩

/-! ## A session of each kind -/

def blankMemory : DeviceMemory := ⟨⟨fun _ => 0, 4096, fun _ => 0⟩, false⟩

def oneSector : BlockBackend := ⟨512, fun _ _ _ => none, fun _ _ _ => true, []⟩

def newBlk : VirtioMmioBlk := ⟨oneSector, 1, 0, 0, 0, (0, 0), 0, 0, .empty, false, 0, 0, false, none⟩

def quietHost : NetBackend := ⟨fun _ => 0, fun _ => [], []⟩

def newNet : VirtioMmioNet := .new quietHost id 0 0

/-- A driver that acknowledged the device and polled it. -/
def acknowledged : List Access := [.write Mmio.DRIVER_FEATURES_SEL 1, .write Mmio.STATUS 3, .poll]

theorem acknowledged_reset_fresh : ObsEq VirtioMmioBlk.device.step
        ((VirtioMmioBlk.device.run (newBlk, blankMemory) acknowledged).1.mmioWrite Mmio.STATUS 0, blankMemory)
        (newBlk, blankMemory) ∧
      ObsEq VirtioMmioNet.device.step
        ((VirtioMmioNet.device.run (newNet, blankMemory) acknowledged).1.mmioWrite Mmio.STATUS 0, blankMemory)
        (.new (quietHost.call .reset) id 1 0, blankMemory) := by
  have hbuilt : VirtioMmioBlk.new oneSector = .ok newBlk := rfl
  obtain ⟨⟨fresh, hnew, hblk⟩, hnet⟩ := reset_is_fresh_iff hbuilt quietHost id 0 0 blankMemory blankMemory acknowledged
    acknowledged rfl rfl rfl rfl
  have hsame : newBlk = fresh := Outcome.ok.inj hnew
  have hreset := hblk.mpr ⟨rfl, rfl⟩
  rw [← hsame] at hreset
  exact ⟨hreset, (hnet 0).2 (fun _ _ => Iff.rfl) rfl⟩

/-- A driver selects queue 1 and resets the device: the size it then writes for queue 0 is lost, and a new device would
    have taken it. -/
theorem selected_queue_survives_reset : ¬ObsEq VirtioMmioBlk.device.step
      ((VirtioMmioBlk.device.run (newBlk, blankMemory) [.write Mmio.QUEUE_SEL 1]).1.mmioWrite Mmio.STATUS 0,
        blankMemory)
      (newBlk, blankMemory) := by
  intro h
  have hanswers : [Answer.done, .word 0] = [Answer.done, .word 3] := h [.write Mmio.QUEUE_NUM 3, .read Mmio.QUEUE_NUM]
  simp at hanswers

end Rish.SoftVm.Virtio
