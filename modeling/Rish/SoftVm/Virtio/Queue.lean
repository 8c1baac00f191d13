/-
  Rish.SoftVm.Virtio.Queue — split virtqueues in guest RAM.

  A device walks the descriptor, available and used rings through `DeviceMemory`, which refuses
  every access that leaves guest RAM. The programs run over the device's own state and that view;
  `Device σ` is such a program for a device with state `σ`. Additions the source leaves unchecked
  are a `panic` when they overflow.
-/

import Rish.SoftVm.Ram

namespace Rish.SoftVm.Virtio

open Lib
open Exec (query fail)
open BitVec (ofNat)

inductive VirtioError where
  | outOfBounds (address bytes : U64)
  | badQueue (message : String)
  | backend (message : String)
  deriving DecidableEq, Repr

def VirtioError.text : VirtioError → String
  | .outOfBounds address bytes =>
    "access of " ++ toString bytes.toNat ++ " bytes at " ++ hex address ++ " is outside guest RAM"
  | .badQueue message => message
  | .backend message => message

/-- The view of RAM a device has while it serves its queues. -/
structure DeviceMemory where
  ram : Ram
  wrote : Bool

abbrev Device (σ : Type) := Exec (σ × DeviceMemory) VirtioError

def MAX_CHAIN_DESCRIPTORS : Nat := 64
def DESC_FLAG_NEXT : U16 := 1
def DESC_FLAG_WRITE : U16 := 2

structure QueueLayout where
  /-- Number of descriptors the driver configured; zero means unconfigured. -/
  size : U16
  desc : U64
  avail : U64
  used : U64
  deriving DecidableEq, Repr

def QueueLayout.empty : QueueLayout := ⟨0, 0, 0, 0⟩

structure QueueDescriptor where
  address : U64
  length : U32
  flags : U16
  deriving DecidableEq, Repr

namespace QueueDescriptor

def hasNext (d : QueueDescriptor) : Bool := d.flags &&& DESC_FLAG_NEXT != 0

def deviceWritable (d : QueueDescriptor) : Bool := d.flags &&& DESC_FLAG_WRITE != 0

end QueueDescriptor

section

variable {σ : Type}

def checkRange (m : DeviceMemory) (address : U64) (n : Nat) : Outcome VirtioError Unit :=
  if address.toNat + n < 2 ^ 64 ∧ address.toNat + n ≤ m.ram.len.toNat then .ok ()
  else .err (.outOfBounds address (ofNat 64 n))

variable (address : U64)

def readMemory (n : Nat) : Device σ (List U8) :=
  query 1 fun (_, m) => do
    checkRange m address n
    return m.ram.load address.toNat n

def writeMemory (input : List U8) : Device σ Unit := do
  query 1 fun (_, m) => checkRange m address input.length
  Exec.update fun (d, m) => (d, { m with ram := m.ram.store address.toNat input, wrote := true })

def readU16 : Device σ U16 := do return ofNat 16 (leNat (← readMemory address 2))

def readU32 : Device σ U32 := do return ofNat 32 (leNat (← readMemory address 4))

def readU64 : Device σ U64 := do return ofNat 64 (leNat (← readMemory address 8))

def offset (a b : U64) : Device σ U64 := Exec.lift (Outcome.add a b)

/-! ## The rings -/

variable (q : QueueLayout)

/-- Byte lengths of the descriptor, available and used rings. -/
def QueueLayout.ringBytes : Nat × Nat × Nat :=
  (q.size.toNat * 16, 6 + q.size.toNat * 2, 6 + q.size.toNat * 8)

def validateRing (ramBytes base : U64) (bytes : Nat) : Outcome VirtioError Unit :=
  if base.toNat + bytes ≥ 2 ^ 64 then .err (.badQueue "queue ring address arithmetic overflowed")
  else if base.toNat + bytes > ramBytes.toNat then .err (.outOfBounds base (ofNat 64 bytes))
  else .ok ()

def QueueLayout.validate (ramBytes : U64) : Outcome VirtioError Unit := do
  let (desc, avail, used) := q.ringBytes
  validateRing ramBytes q.desc desc
  validateRing ramBytes q.avail avail
  validateRing ramBytes q.used used

def availIndex : Device σ U16 := do readU16 (← offset q.avail 2)

def availHead (slot : U16) : Device σ U16 := do
  if q.size = 0 then fail (.badQueue "available ring has zero size")
  else
    let entry ← offset (← offset q.avail 4) (ofNat 64 (slot.toNat % q.size.toNat * 2))
    readU16 entry

def readDescriptor (index : Nat) : Device σ (QueueDescriptor × U16) := do
  let at_ ← offset q.desc (ofNat 64 (index * 16))
  let address ← readU64 at_
  let length ← readU32 (← offset at_ 8)
  let flags ← readU16 (← offset at_ 12)
  let next ← readU16 (← offset at_ 14)
  return (⟨address, length, flags⟩, next)

/-- Follows next links for at most `room` more descriptors. -/
def chainFrom (q : QueueLayout) : Nat → Nat → List QueueDescriptor → Device σ (List QueueDescriptor)
  | 0, _, _ => fail (.badQueue "descriptor chain exceeds the device limit")
  | room + 1, index, chain =>
    if index ≥ q.size.toNat then fail (.badQueue "descriptor chain index left the ring")
    else do
      let (entry, next) ← readDescriptor q index
      if entry.hasNext then chainFrom q room next.toNat (chain ++ [entry])
      else return chain ++ [entry]

def readChain (head : U16) : Device σ (List QueueDescriptor) :=
  if q.size = 0 then fail (.badQueue "descriptor ring has zero size")
  else chainFrom q MAX_CHAIN_DESCRIPTORS head.toNat []

def checkChainRanges : List QueueDescriptor → Device σ Unit
  | [] => return ()
  | d :: rest => do
    query 0 fun (_, m) => checkRange m d.address d.length.toNat
    checkChainRanges rest

/-- A chain that was walked and found inside guest RAM, before any byte of it moves. -/
def validatedChain (head : U16) : Device σ (List QueueDescriptor) := do
  let chain ← readChain q head
  checkChainRanges chain
  return chain

def totalBytes (chain : List QueueDescriptor) : Nat := (chain.map (·.length.toNat)).sum

def availDelta (lastSeen avail size : U16) : Outcome VirtioError Unit :=
  if (avail - lastSeen).toNat > size.toNat then
    .err (.badQueue "available ring grew by more than the queue size")
  else .ok ()

def usedIndex : Device σ U16 := do readU16 (← offset q.used 2)

def writeUsed (used : U16) (id length : U32) : Device σ U16 := do
  if q.size = 0 then fail (.badQueue "used ring has zero size")
  else
    let at_ ← offset (← offset q.used 4) (ofNat 64 (used.toNat % q.size.toNat * 8))
    writeMemory at_ (leBytes 4 id.toNat)
    writeMemory (← offset at_ 4) (leBytes 4 length.toNat)
    writeMemory (← offset q.used 2) (leBytes 2 (used + 1).toNat)
    return used + 1

/-- Serves the published heads one by one. `fuel` bounds the 16-bit distance to the driver's index. -/
def drainFrom (q : QueueLayout) (avail : U16) (process : U16 → Device σ U32) : Nat → U16 → Nat → Device σ (U16 × Nat)
  | 0, lastSeen, completed => return (lastSeen, completed)
  | fuel + 1, lastSeen, completed =>
    if lastSeen = avail then return (lastSeen, completed)
    else do
      let head ← availHead q lastSeen
      let length ← process head
      let used ← usedIndex q
      let _ ← writeUsed q used (head.setWidth 32) length
      drainFrom q avail process fuel (lastSeen + 1) (completed + 1)

def drainAvailable (lastSeen : U16) (process : U16 → Device σ U32) : Device σ (U16 × Nat) := do
  query 0 fun (_, m) => q.validate m.ram.len
  let avail ← availIndex q
  Exec.lift (availDelta lastSeen avail q.size)
  drainFrom q avail process (2 ^ 16) lastSeen 0

end

end Rish.SoftVm.Virtio
