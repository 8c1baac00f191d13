/-
  Rish.SoftVm.Virtio.Block — the virtio-mmio block device: register file, feature negotiation and
  request processing.

  The host backend is a trait object of the source. It is modelled by what it answers to each call
  after the calls made before it, so every behaviour of a host disk, failures included, is one
  value of `BlockBackend`.
-/

import Rish.SoftVm.Virtio.Queue

namespace Rish.SoftVm.Virtio

open Lib
open BitVec (ofNat)
open Exec (view update fail)

/-! ## Registers shared by the devices -/

namespace Mmio

def MAGIC_VALUE : U64 := 0x000
def VERSION : U64 := 0x004
def DEVICE_ID : U64 := 0x008
def VENDOR_ID : U64 := 0x00C
def DEVICE_FEATURES : U64 := 0x010
def DEVICE_FEATURES_SEL : U64 := 0x014
def DRIVER_FEATURES : U64 := 0x020
def DRIVER_FEATURES_SEL : U64 := 0x024
def QUEUE_SEL : U64 := 0x030
def QUEUE_NUM_MAX : U64 := 0x034
def QUEUE_NUM : U64 := 0x038
def QUEUE_READY : U64 := 0x044
def QUEUE_NOTIFY : U64 := 0x050
def INTERRUPT_STATUS : U64 := 0x060
def INTERRUPT_ACK : U64 := 0x064
def STATUS : U64 := 0x070
def QUEUE_DESC_LOW : U64 := 0x080
def QUEUE_DESC_HIGH : U64 := 0x084
def QUEUE_AVAIL_LOW : U64 := 0x090
def QUEUE_AVAIL_HIGH : U64 := 0x094
def QUEUE_USED_LOW : U64 := 0x0A0
def QUEUE_USED_HIGH : U64 := 0x0A4
def CONFIG_GENERATION : U64 := 0x0FC
def CONFIG_SPACE : U64 := 0x100
def MAGIC : U32 := 0x74726976
def VENDOR_ID_RISH : U32 := 0x52495348
def STATUS_FEATURES_OK : U32 := 8
def STATUS_DRIVER_OK : U32 := 4
def QUEUE_NUM_MAX_VALUE : U32 := 128
def INTERRUPT_USED_RING : U32 := 1

def mergeLow (current : U64) (value : U32) : U64 := (current &&& ~~~0xFFFFFFFF) ||| value.setWidth 64

def mergeHigh (current : U64) (value : U32) : U64 := (current &&& 0xFFFFFFFF) ||| (value.setWidth 64 <<< 32)

/-- The 32-bit half of the offered features the driver selected. -/
def featureWord (offered : U64) (sel : U32) : U32 :=
  if sel = 0 then offered.setWidth 32 else if sel = 1 then (offered >>> 32).setWidth 32 else 0

/-- A queue size the driver writes: out of range means unconfigured. -/
def queueSize (value : U32) : U16 := if 0 < value ∧ value ≤ QUEUE_NUM_MAX_VALUE then value.setWidth 16 else 0

def driverFeatures (words : U32 × U32) : U64 := (words.2.setWidth 64 <<< 32) ||| words.1.setWidth 64

end Mmio

/-! ## The device -/

inductive BlockCall where
  | readAt (offset : U64) (n : Nat)
  | writeAt (offset : U64) (input : List U8)
  deriving DecidableEq

/-- A host disk, by its answers: `none` is a host I/O error. -/
structure BlockBackend where
  length : U64
  readReply : List BlockCall → U64 → Nat → Option (Nat → U8)
  writeReply : List BlockCall → U64 → List U8 → Bool
  history : List BlockCall

structure VirtioMmioBlk where
  backend : BlockBackend
  capacitySectors : U64
  status : U32
  deviceFeatureSel : U32
  driverFeatureSel : U32
  driverFeatures : U32 × U32
  negotiatedFeatures : U64
  queueSel : U32
  queue : QueueLayout
  queueReady : Bool
  irqStatus : U32
  lastSeenAvail : U16
  kickPending : Bool
  /-- Sticky: once set, kicks are ignored. -/
  fault : Option String

/-- The device and the memory it works on. -/
abbrev BlkState := VirtioMmioBlk × DeviceMemory

namespace VirtioMmioBlk

open Mmio

def SECTOR_SIZE : Nat := 512
def OFFERED_FEATURES : U64 := (1#64 <<< 32) ||| (1#64 <<< 1) ||| (1#64 <<< 4)
def MIN_SERVICEABLE_QUEUE_SIZE : Nat := 3
def SEG_MAX : U32 := 62
def BLK_SIZE : U32 := 512
def TRANSFER_CHUNK_BYTES : Nat := 64 * 1024
def HEADER_BYTES : Nat := 16
def REQ_IN : U32 := 0
def REQ_OUT : U32 := 1
def REQ_GET_ID : U32 := 8
def STATUS_BYTE_OK : U8 := 0
def STATUS_BYTE_IOERR : U8 := 1
def STATUS_BYTE_UNSUPP : U8 := 2

/-- `RISH-VIRTIO-BLK-01` -/
def SERIAL : List U8 :=
  [0x52, 0x49, 0x53, 0x48, 0x2D, 0x56, 0x49, 0x52, 0x54, 0x49, 0x4F, 0x2D, 0x42, 0x4C, 0x4B, 0x2D, 0x30, 0x31]

/-- A device over a backend that is a whole number of sectors long. -/
def new (backend : BlockBackend) : Outcome VirtioError VirtioMmioBlk :=
  if backend.length = 0 then .err (.backend "block backend is empty")
  else if backend.length.toNat % SECTOR_SIZE ≠ 0 then
    .err (.backend ("block backend size " ++ toString backend.length.toNat ++ " is not a multiple of 512 bytes"))
  else
    .ok ⟨backend, ofNat 64 (backend.length.toNat / SECTOR_SIZE), 0, 0, 0, (0, 0), 0, 0, .empty, false, 0, 0,
      false, none⟩

variable (d : VirtioMmioBlk)

def configWord (offset : U64) : U32 :=
  if offset = 0x100 then d.capacitySectors.setWidth 32
  else if offset = 0x104 then (d.capacitySectors >>> 32).setWidth 32
  else if offset = 0x10C then SEG_MAX
  else if offset = 0x114 then BLK_SIZE
  else 0

/-- The word of the register file that holds a byte offset. -/
def mmioRead (offset : U64) : U32 :=
  let word := offset &&& ~~~3
  if word = MAGIC_VALUE then MAGIC
  else if word = VERSION then 2
  else if word = DEVICE_ID then 2
  else if word = VENDOR_ID then VENDOR_ID_RISH
  else if word = DEVICE_FEATURES then featureWord OFFERED_FEATURES d.deviceFeatureSel
  else if word = QUEUE_NUM_MAX then QUEUE_NUM_MAX_VALUE
  else if word = QUEUE_NUM then d.queue.size.setWidth 32
  else if word = QUEUE_READY then if d.queueReady then 1 else 0
  else if word = INTERRUPT_STATUS then d.irqStatus
  else if word = STATUS then d.status
  else if word = CONFIG_GENERATION then 0
  else if CONFIG_SPACE ≤ word then d.configWord word
  else 0

/-- A device reset. The fault and the feature selector survive it. -/
def reset : VirtioMmioBlk :=
  { d with
    status := 0
    driverFeatures := (0, 0)
    driverFeatureSel := 0
    negotiatedFeatures := 0
    queue := .empty
    queueReady := false
    irqStatus := 0
    lastSeenAvail := 0
    kickPending := false }

def mmioWrite (offset : U64) (value : U32) : VirtioMmioBlk :=
  let word := offset &&& ~~~3
  if word = DEVICE_FEATURES_SEL then { d with deviceFeatureSel := value }
  else if word = DRIVER_FEATURES_SEL then { d with driverFeatureSel := value }
  else if word = DRIVER_FEATURES then
    if d.driverFeatureSel = 0 then { d with driverFeatures := (value, d.driverFeatures.2) }
    else if d.driverFeatureSel = 1 then { d with driverFeatures := (d.driverFeatures.1, value) }
    else d
  else if word = QUEUE_SEL then { d with queueSel := value }
  else if word = QUEUE_NUM then
    if d.queueSel = 0 ∧ !d.queueReady then { d with queue := { d.queue with size := queueSize value } } else d
  else if word = QUEUE_READY then
    if d.queueSel ≠ 0 then d
    else if value = 0 then { d with queueReady := false, lastSeenAvail := 0 }
    else if value = 1 ∧ d.queue.size.toNat ≥ MIN_SERVICEABLE_QUEUE_SIZE then { d with queueReady := true }
    else d
  else if word = QUEUE_NOTIFY then
    if value = d.queueSel ∧ d.queueReady then { d with kickPending := true } else d
  else if word = INTERRUPT_ACK then { d with irqStatus := d.irqStatus &&& ~~~value }
  else if word = STATUS then
    if value = 0 then d.reset
    else if value &&& STATUS_FEATURES_OK != 0 then
      { d with status := value, negotiatedFeatures := OFFERED_FEATURES &&& Mmio.driverFeatures d.driverFeatures }
    else { d with status := value }
  else if d.queueSel ≠ 0 then d
  else if word = QUEUE_DESC_LOW then { d with queue := { d.queue with desc := mergeLow d.queue.desc value } }
  else if word = QUEUE_DESC_HIGH then { d with queue := { d.queue with desc := mergeHigh d.queue.desc value } }
  else if word = QUEUE_AVAIL_LOW then { d with queue := { d.queue with avail := mergeLow d.queue.avail value } }
  else if word = QUEUE_AVAIL_HIGH then
    { d with queue := { d.queue with avail := mergeHigh d.queue.avail value } }
  else if word = QUEUE_USED_LOW then { d with queue := { d.queue with used := mergeLow d.queue.used value } }
  else if word = QUEUE_USED_HIGH then { d with queue := { d.queue with used := mergeHigh d.queue.used value } }
  else d

theorem mmioWrite_capacitySectors (offset value) :
    (d.mmioWrite offset value).capacitySectors = d.capacitySectors := by
  simp only [mmioWrite, reset, apply_ite VirtioMmioBlk.capacitySectors, ite_self]

theorem mmioWrite_backend (offset value) : (d.mmioWrite offset value).backend = d.backend := by
  simp only [mmioWrite, reset, apply_ite VirtioMmioBlk.backend, ite_self]

/-! ## Requests -/

abbrev BlkM := Device VirtioMmioBlk

def backendRead (offset : U64) (n : Nat) : BlkM (List U8) := do
  let b ← view fun (d, _) => d.backend
  let answer := b.readReply b.history offset n
  update fun (d, m) =>
    ({ d with backend := { d.backend with history := d.backend.history ++ [.readAt offset n] } }, m)
  match answer with
  | some f => return (List.range n).map f
  | none => fail (.backend "host disk read failed")

def backendWrite (offset : U64) (input : List U8) : BlkM Unit := do
  let b ← view fun (d, _) => d.backend
  let answer := b.writeReply b.history offset input
  update fun (d, m) =>
    ({ d with backend := { d.backend with history := d.backend.history ++ [.writeAt offset input] } }, m)
  if answer then return () else fail (.backend "host disk write failed")

/-- The pieces of at most 64 KiB a segment moves in: where each starts and how long it is. -/
def chunks (length : Nat) : List (Nat × Nat) :=
  (List.range ((length + (TRANSFER_CHUNK_BYTES - 1)) / TRANSFER_CHUNK_BYTES)).map fun k =>
    (k * TRANSFER_CHUNK_BYTES, min TRANSFER_CHUNK_BYTES (length - k * TRANSFER_CHUNK_BYTES))

def forEach {α σ : Type} (f : α → Device σ Unit) : List α → Device σ Unit
  | [] => return ()
  | a :: rest => do f a; forEach f rest

def segmentOffsets (start : Nat) : List QueueDescriptor → List (QueueDescriptor × Nat)
  | [] => []
  | s :: rest => (s, start) :: segmentOffsets (start + s.length.toNat) rest

variable (data : List QueueDescriptor)

def copyFromBackend (start : Nat) : BlkM Unit :=
  forEach (fun (s, base) => forEach (fun (done, step) => do
      let buffer ← backendRead (ofNat 64 (base + done)) step
      writeMemory (← offset s.address (ofNat 64 done)) buffer) (chunks s.length.toNat))
    (segmentOffsets start data)

def copyToBackend (start : Nat) : BlkM Unit :=
  forEach (fun (s, base) => forEach (fun (done, step) => do
      let buffer ← readMemory (← offset s.address (ofNat 64 done)) step
      backendWrite (ofNat 64 (base + done)) buffer) (chunks s.length.toNat))
    (segmentOffsets start data)

/-- One piece of the serial: the source adds the bytes already written, which count the pieces of
    this segment too, to the offset inside the segment. -/
def serialPiece (position step : Nat) : List U8 :=
  (List.range step).map fun k => SERIAL.getD (position + k) 0x20

def writeSerial : BlkM Unit :=
  forEach (fun (s, base) => forEach (fun (done, step) => do
      let written := base + done
      writeMemory (← offset s.address (ofNat 64 done)) (serialPiece (written + done) step))
      (chunks s.length.toNat))
    (segmentOffsets 0 data)

/-- `none` when the range leaves the disk. -/
def checkedRange (sector : U64) (total : Nat) : Option Nat :=
  let finish := sector.toNat * SECTOR_SIZE + total
  if finish > d.capacitySectors.toNat * SECTOR_SIZE then none else some finish

def writeStatus (status : QueueDescriptor) (byte : U8) : BlkM Unit := writeMemory status.address [byte]

def checkDirections (requestType : U32) (data : List QueueDescriptor) : BlkM Unit :=
  if (requestType = REQ_IN ∨ requestType = REQ_GET_ID) ∧ data.any (!·.deviceWritable) then
    fail (.badQueue "read request data descriptor is not device-writable")
  else if requestType = REQ_OUT ∧ data.any (·.deviceWritable) then
    fail (.badQueue "write request data descriptor is device-writable")
  else return ()

def completeWith (status : QueueDescriptor) (byte : U8) (length : U32) : BlkM U32 := do
  writeStatus status byte
  return length

/-- The length published for `n` written bytes, saturating. -/
def usedLength (n : Nat) : U32 := ofNat 32 (min n (2 ^ 32 - 1))

def serveRequest (requestType : U32) (sector : U64) (data : List QueueDescriptor) (status : QueueDescriptor) :
    BlkM U32 := do
  let total := totalBytes data
  let range ← view fun (d, _) => d.checkedRange sector total
  if requestType = REQ_IN then
    match range with
    | none => completeWith status STATUS_BYTE_IOERR 1
    | some _ =>
      copyFromBackend data (sector.toNat * SECTOR_SIZE)
      completeWith status STATUS_BYTE_OK (usedLength (total + 1))
  else if requestType = REQ_OUT then
    match range with
    | none => completeWith status STATUS_BYTE_IOERR 1
    | some _ =>
      match ← Exec.attempt (copyToBackend data (sector.toNat * SECTOR_SIZE)) with
      | .ok () => completeWith status STATUS_BYTE_OK 1
      | .err (.backend _) => completeWith status STATUS_BYTE_IOERR 1
      | .err fatal => fail fatal
      | .panic => Exec.lift .panic
  else if requestType = REQ_GET_ID then
    writeSerial data
    completeWith status STATUS_BYTE_OK (usedLength (total + 1))
  else completeWith status STATUS_BYTE_UNSUPP 1

/-- Serves one request: the whole chain is validated before a byte moves. -/
def processRequest (head : U16) : BlkM U32 := do
  let queue ← view fun (d, _) => d.queue
  match ← validatedChain queue head with
  | header :: rest =>
    match rest.getLast? with
    | some status =>
      let data := rest.dropLast
      if data = [] then fail (.badQueue "request chain has fewer than three descriptors")
      else if header.length.toNat < HEADER_BYTES ∨ header.deviceWritable then
        fail (.badQueue "request header is missing or device-writable")
      else if status.length.toNat < 1 ∨ !status.deviceWritable then
        fail (.badQueue "request status descriptor is missing or not device-writable")
      else
        let bytes ← readMemory header.address HEADER_BYTES
        let requestType : U32 := ofNat 32 (leNat (bytes.take 4))
        let sector : U64 := ofNat 64 (leNat (bytes.drop 8))
        checkDirections requestType data
        if (requestType = REQ_IN ∨ requestType = REQ_OUT) ∧ totalBytes data % SECTOR_SIZE ≠ 0 then
          fail (.badQueue "request length is not a multiple of the block size")
        else serveRequest requestType sector data status
    | none => fail (.badQueue "request chain has fewer than three descriptors")
  | [] => fail (.badQueue "request chain has fewer than three descriptors")

/-- Drains the queue after a kick. A queue-level failure latches the fault. -/
def pollKick : BlkM Bool := do
  let d ← view Prod.fst
  if !d.kickPending then return false
  else
    update fun (d, m) => ({ d with kickPending := false }, m)
    if d.fault.isSome ∨ !d.queueReady ∨ d.queue.size = 0 ∨ d.status &&& STATUS_DRIVER_OK = 0 then return false
    else
      match ← Exec.attempt (drainAvailable d.queue d.lastSeenAvail processRequest) with
      | .ok (lastSeen, completed) =>
        update fun (d, m) =>
          ({ d with
              lastSeenAvail := lastSeen
              irqStatus := if completed > 0 then d.irqStatus ||| INTERRUPT_USED_RING else d.irqStatus }, m)
        return completed > 0
      | .err e =>
        update fun (d, m) => ({ d with fault := some ("virtio-blk stopped servicing: " ++ e.text) }, m)
        return false
      | .panic => Exec.lift .panic

end VirtioMmioBlk

end Rish.SoftVm.Virtio
