/-
  Rish.SoftVm.Virtio.Net — the virtio-mmio network device: register file, transmit and receive.

  The host backend and the host clock are modelled by their answers, like the block backend. The
  queue selector is below the number of queues in every state (`queueSel`), because the register
  write that sets it checks it; the arrays it indexes are functions of that subtype.
-/

import Rish.SoftVm.Virtio.Block

namespace Rish.SoftVm.Virtio

open Lib
open Function (update)
open Exec (view fail)

inductive NetCall where
  | enqueue (frame : List U8)
  | poll
  | reset
  deriving DecidableEq

/-- A host network backend, by its answers. -/
structure NetBackend where
  mac : Fin 6 → U8
  pollReply : List NetCall → List (List U8)
  history : List NetCall

def NetBackend.call (b : NetBackend) (c : NetCall) : NetBackend := { b with history := b.history ++ [c] }

structure VirtioMmioNet where
  backend : NetBackend
  mac : Fin 6 → U8
  status : U32
  deviceFeatureSel : U32
  driverFeatureSel : U32
  driverFeatures : U32 × U32
  negotiatedFeatures : U64
  queueSel : Fin 2
  queues : Fin 2 → QueueLayout
  queueReady : Fin 2 → Bool
  kickPending : Fin 2 → Bool
  lastSeenAvail : Fin 2 → U16
  irqStatus : U32
  rxBacklog : List (List U8)
  rxDropped : U64
  txDropped : U64
  /-- Host milliseconds at each reading of the clock, and how many readings were made. -/
  clock : Nat → Nat
  clockReads : Nat
  lastBackendPoll : Nat
  fault : Option String

/-- The device and the memory it works on. -/
abbrev NetState := VirtioMmioNet × DeviceMemory

namespace VirtioMmioNet

open Mmio

def OFFERED_FEATURES : U64 := (1#64 <<< 32) ||| (1#64 <<< 5) ||| (1#64 <<< 16)
def QUEUE_RX : Fin 2 := 0
def QUEUE_TX : Fin 2 := 1
def VIRTIO_NET_S_LINK_UP : U32 := 1
def VIRTIO_NET_HDR_BYTES : Nat := 12
def MAX_FRAME_BYTES : Nat := 1514
def RX_BACKLOG_CAP : Nat := 128
def RX_BATCH_PER_POLL : Nat := 32
def BACKEND_POLL_INTERVAL : Nat := 1

/-- A device over a backend, built at the host instant `now` after `clockReads` readings of the clock. -/
def new (backend : NetBackend) (clock : Nat → Nat) (clockReads now : Nat) : VirtioMmioNet :=
  ⟨backend, backend.mac, 0, 0, 0, (0, 0), 0, 0, fun _ => .empty, fun _ => false, fun _ => false, fun _ => 0, 0,
    [], 0, 0,
    clock, clockReads, now, none⟩

def saturatingSucc (n : U64) : U64 := if n = BitVec.allOnes 64 then n else n + 1

variable (d : VirtioMmioNet)

def configWord (offset : U64) : U32 :=
  if offset = 0x100 then BitVec.ofNat 32 (leNat [d.mac 0, d.mac 1, d.mac 2, d.mac 3])
  else if offset = 0x104 then
    (d.mac 4).setWidth 32 ||| ((d.mac 5).setWidth 32 <<< 8) ||| (VIRTIO_NET_S_LINK_UP <<< 16)
  else 0

/-- The register word, shifted down to the byte the offset names. -/
def mmioRead (offset : U64) : U32 :=
  let word := offset &&& ~~~3
  let value : U32 :=
    if word = MAGIC_VALUE then MAGIC
    else if word = VERSION then 2
    else if word = DEVICE_ID then 1
    else if word = VENDOR_ID then VENDOR_ID_RISH
    else if word = DEVICE_FEATURES then featureWord OFFERED_FEATURES d.deviceFeatureSel
    else if word = QUEUE_NUM_MAX then QUEUE_NUM_MAX_VALUE
    else if word = QUEUE_NUM then (d.queues d.queueSel).size.setWidth 32
    else if word = QUEUE_READY then if d.queueReady d.queueSel then 1 else 0
    else if word = INTERRUPT_STATUS then d.irqStatus
    else if word = STATUS then d.status
    else if word = CONFIG_GENERATION then 0
    else if CONFIG_SPACE ≤ word then d.configWord word
    else 0
  value >>> ((offset &&& 3).toNat * 8)

/-- A device reset tears the backend down too; the fault and the feature selector survive it. -/
def reset : VirtioMmioNet :=
  { d with
    status := 0
    driverFeatures := (0, 0)
    driverFeatureSel := 0
    negotiatedFeatures := 0
    queueSel := 0
    queues := fun _ => .empty
    queueReady := fun _ => false
    kickPending := fun _ => false
    lastSeenAvail := fun _ => 0
    irqStatus := 0
    rxBacklog := []
    backend := d.backend.call .reset }

def setLayout (f : QueueLayout → QueueLayout) : VirtioMmioNet :=
  { d with queues := update d.queues d.queueSel (f (d.queues d.queueSel)) }

def mmioWrite (offset : U64) (value : U32) : VirtioMmioNet :=
  let word := offset &&& ~~~3
  if word = DEVICE_FEATURES_SEL then { d with deviceFeatureSel := value }
  else if word = DRIVER_FEATURES_SEL then { d with driverFeatureSel := value }
  else if word = DRIVER_FEATURES then
    if d.driverFeatureSel = 0 then { d with driverFeatures := (value, d.driverFeatures.2) }
    else if d.driverFeatureSel = 1 then { d with driverFeatures := (d.driverFeatures.1, value) }
    else d
  else if word = QUEUE_SEL then
    if h : value.toNat < 2 then { d with queueSel := ⟨value.toNat, h⟩ } else d
  else if word = QUEUE_NUM then
    if !d.queueReady d.queueSel then d.setLayout fun q => { q with size := queueSize value } else d
  else if word = QUEUE_READY then
    if value = 0 then
      { d with
        queueReady := update d.queueReady d.queueSel false
        lastSeenAvail := update d.lastSeenAvail d.queueSel 0 }
    else if value = 1 ∧ 0 < (d.queues d.queueSel).size then
      { d with queueReady := update d.queueReady d.queueSel true }
    else d
  else if word = QUEUE_NOTIFY then
    if h : value.toNat < 2 then
      if d.queueReady ⟨value.toNat, h⟩ then
        { d with kickPending := update d.kickPending ⟨value.toNat, h⟩ true }
      else d
    else d
  else if word = INTERRUPT_ACK then { d with irqStatus := d.irqStatus &&& ~~~value }
  else if word = STATUS then
    if value = 0 then d.reset
    else if value &&& STATUS_FEATURES_OK != 0 then
      { d with status := value, negotiatedFeatures := OFFERED_FEATURES &&& Mmio.driverFeatures d.driverFeatures }
    else { d with status := value }
  else if word = QUEUE_DESC_LOW then d.setLayout fun q => { q with desc := mergeLow q.desc value }
  else if word = QUEUE_DESC_HIGH then d.setLayout fun q => { q with desc := mergeHigh q.desc value }
  else if word = QUEUE_AVAIL_LOW then d.setLayout fun q => { q with avail := mergeLow q.avail value }
  else if word = QUEUE_AVAIL_HIGH then d.setLayout fun q => { q with avail := mergeHigh q.avail value }
  else if word = QUEUE_USED_LOW then d.setLayout fun q => { q with used := mergeLow q.used value }
  else if word = QUEUE_USED_HIGH then d.setLayout fun q => { q with used := mergeHigh q.used value }
  else d

/-! ## Transmit and receive -/

abbrev NetM := Device VirtioMmioNet

def modifyDevice (f : VirtioMmioNet → VirtioMmioNet) : NetM Unit := Exec.update fun (d, m) => (f d, m)

/-- Gathers `room` bytes of the chain behind the header bytes of its first descriptor. -/
def gather : List (QueueDescriptor × Nat) → Nat → NetM (List U8)
  | [], _ => return []
  | (s, start) :: rest, room => do
    let step := min (s.length.toNat - start) room
    if step > 0 then
      let bytes ← readMemory (← offset s.address (BitVec.ofNat 64 start)) step
      return bytes ++ (← gather rest (room - step))
    else gather rest room

def processTx (head : U16) : NetM U32 := do
  let queue ← view fun (d, _) => d.queues QUEUE_TX
  match ← validatedChain queue head with
  | [] => fail (.badQueue "transmit chain is empty")
  | first :: rest =>
    if (first :: rest).any (·.deviceWritable) then
      fail (.badQueue "descriptor is device-writable where the device reads")
    else
      let total := totalBytes (first :: rest)
      let splitHeader := rest ≠ [] ∧ first.length.toNat = VIRTIO_NET_HDR_BYTES
      if ¬(splitHeader ∨ first.length.toNat > VIRTIO_NET_HDR_BYTES) then
        fail (.badQueue "transmit buffer is smaller than the virtio_net_hdr")
      else
        let frameLen := total - VIRTIO_NET_HDR_BYTES
        if frameLen > MAX_FRAME_BYTES then
          modifyDevice fun d => { d with txDropped := saturatingSucc d.txDropped }
          return VirtioMmioBlk.usedLength total
        else
          let _ ← readMemory first.address VIRTIO_NET_HDR_BYTES
          let frame ← gather ((first, min VIRTIO_NET_HDR_BYTES first.length.toNat) :: rest.map (·, 0)) frameLen
          if frame.length ≠ frameLen then
            fail (.badQueue "transmit chain does not cover the advertised frame length")
          else
            if frameLen > 0 then modifyDevice fun d => { d with backend := d.backend.call (.enqueue frame) }
            else modifyDevice fun d => { d with txDropped := saturatingSucc d.txDropped }
            return BitVec.ofNat 32 total

def drainTx : NetM Bool := do
  let d ← view Prod.fst
  let (lastSeen, completed) ← drainAvailable (d.queues QUEUE_TX) (d.lastSeenAvail QUEUE_TX) processTx
  modifyDevice fun d => { d with lastSeenAvail := update d.lastSeenAvail QUEUE_TX lastSeen }
  return completed > 0

/-- Lays a byte string out over the descriptors of a chain. -/
def scatter : List QueueDescriptor → List U8 → NetM Unit
  | [], _ => return ()
  | s :: rest, bytes =>
    if bytes = [] then return ()
    else do
      writeMemory s.address (bytes.take s.length.toNat)
      scatter rest (bytes.drop s.length.toNat)

def processRx (head : U16) (frame : List U8) : NetM U32 := do
  let queue ← view fun (d, _) => d.queues QUEUE_RX
  let chain ← validatedChain queue head
  if chain = [] then fail (.badQueue "receive chain is empty")
  else if chain.any (!·.deviceWritable) then
    fail (.badQueue "descriptor is not device-writable where the device writes")
  else
    let capacity := totalBytes chain
    if capacity < VIRTIO_NET_HDR_BYTES then
      fail (.badQueue "receive buffer is smaller than the virtio_net_hdr")
    else if frame.length > capacity - VIRTIO_NET_HDR_BYTES ∨ frame.length > MAX_FRAME_BYTES then
      modifyDevice fun d => { d with rxDropped := saturatingSucc d.rxDropped }
      return 0
    else
      scatter chain (List.replicate VIRTIO_NET_HDR_BYTES 0 ++ frame)
      return BitVec.ofNat 32 (VIRTIO_NET_HDR_BYTES + frame.length)

/-- Fills at most `batch` posted buffers from the backlog. -/
def fillFrom (queue : QueueLayout) : Nat → Nat → NetM Nat
  | 0, completed => return completed
  | batch + 1, completed => do
    let d ← view Prod.fst
    match d.rxBacklog with
    | [] => return completed
    | frame :: backlog =>
      let avail ← availIndex queue
      if d.lastSeenAvail QUEUE_RX = avail then return completed
      else
        Exec.lift (availDelta (d.lastSeenAvail QUEUE_RX) avail queue.size)
        let head ← availHead queue (d.lastSeenAvail QUEUE_RX)
        modifyDevice fun d => { d with rxBacklog := backlog }
        let length ← processRx head frame
        let used ← usedIndex queue
        let _ ← writeUsed queue used (head.setWidth 32) length
        modifyDevice fun d =>
          { d with lastSeenAvail := update d.lastSeenAvail QUEUE_RX (d.lastSeenAvail QUEUE_RX + 1) }
        fillFrom queue batch (completed + 1)

def drainRx : NetM Bool := do
  let queue ← view fun (d, _) => d.queues QUEUE_RX
  Exec.query 0 fun (_, m) => queue.validate m.ram.len
  let completed ← fillFrom queue RX_BATCH_PER_POLL 0
  return completed > 0

/-- A full backlog drops its oldest frame. -/
def pushFrame (d : VirtioMmioNet) (frame : List U8) : VirtioMmioNet :=
  if d.rxBacklog.length ≥ RX_BACKLOG_CAP then
    { d with rxBacklog := d.rxBacklog.drop 1 ++ [frame], rxDropped := saturatingSucc d.rxDropped }
  else { d with rxBacklog := d.rxBacklog ++ [frame] }

/-- Asks the backend for frames, at most once a host millisecond. -/
def pollBackend : VirtioMmioNet :=
  let now := d.clock d.clockReads
  let d := { d with clockReads := d.clockReads + 1 }
  if now - d.lastBackendPoll ≥ BACKEND_POLL_INTERVAL then
    let frames := d.backend.pollReply d.backend.history
    frames.foldl pushFrame { d with lastBackendPoll := now, backend := d.backend.call .poll }
  else d

def pollInner : NetM Bool := do
  let d ← view Prod.fst
  let sent ←
    if d.kickPending QUEUE_TX then do
      modifyDevice fun d => { d with kickPending := update d.kickPending QUEUE_TX false }
      if d.queueReady QUEUE_TX ∧ 0 < (d.queues QUEUE_TX).size then drainTx else pure false
    else pure false
  modifyDevice pollBackend
  let d ← view Prod.fst
  let received ← if d.queueReady QUEUE_RX ∧ 0 < (d.queues QUEUE_RX).size then drainRx else pure false
  return sent || received

/-- Serves the device. A queue-level failure latches the fault. -/
def poll : NetM Bool := do
  let d ← view Prod.fst
  if d.fault.isSome then return false
  else
    match ← Exec.attempt pollInner with
    | .ok completed =>
      modifyDevice fun d =>
        { d with irqStatus := if completed then d.irqStatus ||| INTERRUPT_USED_RING else d.irqStatus }
      return completed
    | .err e =>
      modifyDevice fun d => { d with fault := some ("virtio-net stopped servicing: " ++ e.text) }
      return false
    | .panic => Exec.lift .panic

end VirtioMmioNet

end Rish.SoftVm.Virtio
