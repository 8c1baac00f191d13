/-
  Rish.Content.Store — the content store: blobs named by their digest, leases and pins that protect
  them, and the accounting of committed bytes.

  What the mutex protects and the blob and pin directories are one record, `Store`; each call under
  the lock is a function of it. The digest is a parameter: any function of the bytes. Directories
  that are not the store's own, permissions and flushes are left out, but an operation of the
  filesystem that may fail in the middle of a call does so at the caller's choice.

  Proved: the accounting stays what the blob directory holds (`Books`) through every call, a commit
  writes a blob under its own digest or nothing (`commitTemporary_cases`), and a sweep removes the
  unmarked blobs it came to (`sweep_store`) and reports them (`sweep_report`).
-/

import Mathlib.Data.Finset.Card
import Rish.Lib.Ledger

namespace Rish.Content

open Lib List

abbrev U8 := BitVec 8
abbrev U64 := BitVec 64

def U64_MAX : Nat := 2 ^ 64 - 1

def BUFFER_SIZE : Nat := 64 * 1024

def MAX_PIN_NAME_LEN : Nat := 128

/-- Limits of a store: 64-bit words. -/
structure StoreConfig where
  maxBlobSize : Nat
  maxCommittedBytes : Nat
  blobWord : maxBlobSize ≤ U64_MAX
  committedWord : maxCommittedBytes ≤ U64_MAX

def DEFAULT_MAX_BLOB_SIZE : Nat := 4 * 1024 * 1024 * 1024

def DEFAULT_MAX_COMMITTED_BYTES : Nat := 4 * 1024 * 1024 * 1024

theorem default_max_word : 4 * 1024 * 1024 * 1024 ≤ U64_MAX := by decide

def StoreConfig.new : StoreConfig :=
  ⟨DEFAULT_MAX_BLOB_SIZE, DEFAULT_MAX_COMMITTED_BYTES, default_max_word, default_max_word⟩

structure BlobDescriptor (D : Type) where
  digest : D
  size : Nat
  deriving DecidableEq, Repr

inductive Corruption (D : Type) where
  | length (expected found : Nat)
  | content (actual : D)
  deriving DecidableEq, Repr

/-- Whose I/O error it is. -/
inductive IoSource where
  | reader
  | filesystem
  deriving DecidableEq, Repr

inductive StoreError (D : Type) where
  | io (source : IoSource)
  | blobTooLarge (maximum observedAtLeast : Nat)
  | committedBytesQuotaExceeded (maximum committed attempted : Nat)
  | digestMismatch (expected actual : D)
  | sizeMismatch (expected actual : Nat)
  | blobNotFound (digest : D)
  | corruptBlob (digest : D) (reason : Corruption D)
  | invalidPinName (name : String)
  | leaseReleased
  deriving DecidableEq, Repr

structure GcReport where
  markedDigests : Nat
  keptBlobs : Nat
  removedBlobs : Nat
  reclaimedBytes : Nat
  deriving DecidableEq, Repr

/-- The blob and pin directories and the state behind the lock. -/
structure Store (D : Type) where
  blobs : Table D (List U8)
  pins : List (String × D)
  nextLeaseId : U64
  leases : Table U64 (Finset D)
  committedBlobs : Table D Nat
  committedBytes : Nat

namespace Store

variable {D : Type} [DecidableEq D] (sha : List U8 → D) (cfg : StoreConfig) (s : Store D)

def saturatingAdd (a b : Nat) : Nat := min (a + b) U64_MAX

/-! ## Accounting -/

/-- The sizes of the blob directory; `none` when they exceed a word. -/
def scanCommittedBlobs : List (Sigma fun _ : D => List U8) → Table D Nat × Nat → Option (Table D Nat × Nat)
  | [], scanned => some scanned
  | ⟨digest, bytes⟩ :: entries, (sizes, committed) =>
    if committed + bytes.length ≤ U64_MAX then
      scanCommittedBlobs entries (sizes.insert digest bytes.length, committed + bytes.length)
    else none

/-- `ContentStore::open` over existing directories. -/
def «open» (blobs : Table D (List U8)) (pins : List (String × D)) : Option (Store D) := do
  let (committedBlobs, committedBytes) ← scanCommittedBlobs blobs.entries (∅, 0)
  return ⟨blobs, pins, 0, ∅, committedBlobs, committedBytes⟩

def ensureCommittedCapacity (maximum attempted : Nat) : Except (StoreError D) Unit :=
  if s.committedBytes + attempted ≤ U64_MAX ∧ s.committedBytes + attempted ≤ maximum then .ok ()
  else .error (.committedBytesQuotaExceeded maximum s.committedBytes attempted)

variable (descriptor : BlobDescriptor D)

def observeCommittedBlob : Store D :=
  { s with
    committedBlobs := s.committedBlobs.insert descriptor.digest descriptor.size
    committedBytes :=
      if (s.committedBlobs.lookup descriptor.digest).isNone then saturatingAdd s.committedBytes descriptor.size
      else s.committedBytes }

def removeCommittedBlob (digest : D) : Store D :=
  match s.committedBlobs.lookup digest with
  | some size =>
    { s with committedBlobs := s.committedBlobs.erase digest, committedBytes := s.committedBytes - size }
  | none => s

/-! ## Leases -/

/-- The new lease's number. -/
def createLease : U64 × Store D :=
  let next := if s.nextLeaseId + 1 = 0 then 1 else s.nextLeaseId + 1
  (next, { s with nextLeaseId := next, leases := s.leases.insert next ∅ })

def addToLease (id : U64) (digest : D) : Except (StoreError D) Unit × Store D :=
  match s.blobs.lookup digest with
  | none => (.error (.blobNotFound digest), s)
  | some _ =>
    match s.leases.lookup id with
    | none => (.error .leaseReleased, s)
    | some held => (.ok (), { s with leases := s.leases.insert id (insert digest held) })

def removeFromLease (id : U64) (digest : D) : Except (StoreError D) Bool × Store D :=
  match s.leases.lookup id with
  | none => (.error .leaseReleased, s)
  | some held => (.ok (decide (digest ∈ held)), { s with leases := s.leases.insert id (held.erase digest) })

def releaseLease (id : U64) : Store D := { s with leases := s.leases.erase id }

/-! ## Pins -/

variable (name : String)

def validPinName : Bool :=
  let bytes := name.toUTF8.toList
  !bytes.isEmpty && bytes.length ≤ MAX_PIN_NAME_LEN &&
    bytes.all (fun byte => (48 ≤ byte && byte ≤ 57) || (65 ≤ byte && byte ≤ 90) || (97 ≤ byte && byte ≤ 122) ||
      byte == 46 || byte == 95 || byte == 45) &&
    name != "." && name != ".."

def pin (digest : D) : Except (StoreError D) Unit × Store D :=
  if !validPinName name then (.error (.invalidPinName name), s)
  else if (s.blobs.lookup digest).isNone then (.error (.blobNotFound digest), s)
  else (.ok (), if (name, digest) ∈ s.pins then s else { s with pins := (name, digest) :: s.pins })

def unpin (digest : D) : Except (StoreError D) Bool × Store D :=
  if !validPinName name then (.error (.invalidPinName name), s)
  else (.ok (decide ((name, digest) ∈ s.pins)), { s with pins := s.pins.filter (· ≠ (name, digest)) })

/-! ## Commits -/

def preflightCommittedQuota : Except (StoreError D) Unit :=
  if (s.committedBlobs.lookup descriptor.digest).isSome then .ok ()
  else s.ensureCommittedCapacity cfg.maxCommittedBytes descriptor.size

def verifyBlobFile : Except (StoreError D) Unit :=
  match s.blobs.lookup descriptor.digest with
  | none => .error (.blobNotFound descriptor.digest)
  | some bytes =>
    if bytes.length ≠ descriptor.size then
      .error (.corruptBlob descriptor.digest (.length descriptor.size bytes.length))
    else if sha bytes ≠ descriptor.digest then .error (.corruptBlob descriptor.digest (.content (sha bytes)))
    else .ok ()

/-- The end of a commit: the digest goes to the lease. -/
def leaseCommitted (lease : Option U64) (digest : D) : Except (StoreError D) Unit × Store D :=
  match lease with
  | none => (.ok (), s)
  | some id =>
    match s.leases.lookup id with
    | none => (.error .leaseReleased, s)
    | some held => (.ok (), { s with leases := s.leases.insert id (insert digest held) })

structure CommitFaults where
  rename : Bool
  sync : Bool
  deriving DecidableEq, Repr

/-- How a commit ended; `renamed` when the temporary file became the blob. -/
structure Committed (D : Type) where
  result : Except (StoreError D) Unit
  store : Store D
  renamed : Bool

/-- `temporary` is what the temporary file holds, if it is there. -/
def commitTemporary (faults : CommitFaults) (temporary : Option (List U8)) (descriptor : BlobDescriptor D)
    (lease : Option U64) : Committed D :=
  if lease.any fun id => (s.leases.lookup id).isNone then ⟨.error .leaseReleased, s, false⟩
  else
    match s.blobs.lookup descriptor.digest with
    | some _ =>
      match s.verifyBlobFile sha descriptor with
      | .error e => ⟨.error e, s, false⟩
      | .ok _ =>
        let (result, s) := (s.observeCommittedBlob descriptor).leaseCommitted lease descriptor.digest
        ⟨result, s, false⟩
    | none =>
      let capacity : Except (StoreError D) Unit :=
        if (s.committedBlobs.lookup descriptor.digest).isNone then
          s.ensureCommittedCapacity cfg.maxCommittedBytes descriptor.size
        else .ok ()
      match capacity with
      | .error e => ⟨.error e, s, false⟩
      | .ok _ =>
        match temporary with
        -- the rename fails, and no other process has put a blob there meanwhile
        | none => ⟨.error (.io .filesystem), s, false⟩
        | some bytes =>
          if faults.rename then ⟨.error (.io .filesystem), s, false⟩
          else
            let s := { s with blobs := s.blobs.insert descriptor.digest bytes }.observeCommittedBlob descriptor
            if faults.sync then ⟨.error (.io .filesystem), s, true⟩
            else
              let (result, s) := s.leaseCommitted lease descriptor.digest
              ⟨result, s, true⟩

/-! ## Collection -/

variable (roots : List D)

def marked (digest : D) : Bool :=
  digest ∈ roots || s.pins.any (·.2 = digest) || s.leases.entries.any (digest ∈ ·.2)

def markedDigests : Finset D :=
  roots.toFinset ∪ (s.pins.map (·.2)).toFinset ∪ s.leases.entries.foldr (·.2 ∪ ·) ∅

/-- The loop over the blob directory. -/
def sweep (keep : D → Bool) (dryRun : Bool) : List (Sigma fun _ : D => List U8) → GcReport → Store D →
    GcReport × Store D
  | [], report, s => (report, s)
  | ⟨digest, bytes⟩ :: entries, report, s =>
    if keep digest then sweep keep dryRun entries { report with keptBlobs := saturatingAdd report.keptBlobs 1 } s
    else
      sweep keep dryRun entries
        { report with
          removedBlobs := saturatingAdd report.removedBlobs 1
          reclaimedBytes := saturatingAdd report.reclaimedBytes bytes.length }
        (if dryRun then s else { s with blobs := s.blobs.erase digest }.removeCommittedBlob digest)

/-- A collection. With `stop` the filesystem fails after that many files. -/
def garbageCollectWithRoots (dryRun : Bool) (stop : Option Nat) : Except (StoreError D) GcReport × Store D :=
  let report : GcReport := ⟨min (s.markedDigests roots).card U64_MAX, 0, 0, 0⟩
  match stop with
  | none =>
    let (report, swept) := sweep (s.marked roots) dryRun s.blobs.entries report s
    (.ok report, swept)
  | some n => (.error (.io .filesystem), (sweep (s.marked roots) dryRun (s.blobs.entries.take n) report s).2)

/-! ## The books -/

/-- The accounting is what the blob directory holds. -/
structure Books (s : Store D) : Prop where
  sizes : ∀ digest, s.committedBlobs.lookup digest = (s.blobs.lookup digest).map List.length
  bytes : s.committedBytes = Table.total List.length s.blobs
  word : s.committedBytes ≤ U64_MAX

variable {sha cfg s}

theorem scanCommittedBlobs_eq {es : List (Sigma fun _ : D => List U8)} (hnodup : es.NodupKeys)
    {sizes sizes' committed committed'} (hword : committed ≤ U64_MAX)
    (h : scanCommittedBlobs es (sizes, committed) = some (sizes', committed')) :
    committed' = committed + (es.map fun e => e.2.length).sum ∧ committed' ≤ U64_MAX ∧
      ∀ digest, sizes'.lookup digest =
        ((es.dlookup digest).map List.length).or (sizes.lookup digest) := by
  induction es generalizing sizes committed with
  | nil =>
    cases h
    exact ⟨rfl, hword, fun _ => rfl⟩
  | cons e es ih =>
    obtain ⟨digest, bytes⟩ := e
    rw [nodupKeys_cons] at hnodup
    rw [scanCommittedBlobs] at h
    split at h
    · rename_i hfits
      obtain ⟨hsum, hle, hlookup⟩ := ih hnodup.2 hfits h
      refine ⟨by rw [hsum, map_cons, sum_cons, Nat.add_assoc], hle, fun d => ?_⟩
      rw [hlookup, Table.lookup_insert_eq]
      by_cases hd : d = digest
      · subst hd
        rw [dlookup_eq_none.mpr hnodup.1, dlookup_cons_eq]
        simp
      · rw [if_neg hd, dlookup_cons_ne _ _ hd]
    · cases h

theorem open_books {blobs pins} (h : Store.open blobs pins = some s) :
    Books s ∧ s.blobs = blobs ∧ s.pins = pins ∧ s.leases = ∅ := by
  unfold Store.open at h
  rcases hscan : scanCommittedBlobs blobs.entries (∅, 0) with - | ⟨sizes, committed⟩
  · rw [hscan] at h
    cases h
  · rw [hscan] at h
    cases h
    obtain ⟨hsum, hle, hlookup⟩ := scanCommittedBlobs_eq blobs.nodupKeys (Nat.zero_le _) hscan
    refine ⟨⟨fun d => ?_, by rw [hsum, Nat.zero_add]; rfl, hle⟩, rfl, rfl, rfl⟩
    rw [hlookup, AList.lookup_empty, Option.or_none]
    rfl

/-! ### Calls on leases and pins -/

section Frame

variable {digest : D} {id : U64} {name : String} {lease : Option U64} {descriptor : BlobDescriptor D}

@[simp] theorem addToLease_blobs : (s.addToLease id digest).2.blobs = s.blobs := by
  unfold addToLease
  split
  · rfl
  · split <;> rfl

@[simp] theorem removeFromLease_blobs : (s.removeFromLease id digest).2.blobs = s.blobs := by
  unfold removeFromLease
  split <;> rfl

@[simp] theorem pin_blobs : (s.pin name digest).2.blobs = s.blobs := by
  unfold pin
  split
  · rfl
  · split
    · rfl
    · dsimp only
      split <;> rfl

@[simp] theorem unpin_blobs : (s.unpin name digest).2.blobs = s.blobs := by
  unfold unpin
  split <;> rfl

@[simp] theorem leaseCommitted_blobs : (s.leaseCommitted lease digest).2.blobs = s.blobs := by
  unfold leaseCommitted
  split
  · rfl
  · split <;> rfl

@[simp] theorem observeCommittedBlob_blobs : (s.observeCommittedBlob descriptor).blobs = s.blobs := rfl

theorem Books.of_eq {s'} (h : Books s) (hblobs : s'.blobs = s.blobs)
    (hsizes : s'.committedBlobs = s.committedBlobs) (hbytes : s'.committedBytes = s.committedBytes) : Books s' :=
  ⟨by rw [hsizes, hblobs]; exact h.sizes, by rw [hbytes, hblobs]; exact h.bytes, by rw [hbytes]; exact h.word⟩

theorem leaseCommitted_accounts : (s.leaseCommitted lease digest).2.committedBlobs = s.committedBlobs ∧
    (s.leaseCommitted lease digest).2.committedBytes = s.committedBytes := by
  unfold leaseCommitted
  split
  · exact ⟨rfl, rfl⟩
  · split <;> exact ⟨rfl, rfl⟩

section

variable (h : Books s)
include h

theorem Books.createLease : Books s.createLease.2 := h.of_eq rfl rfl rfl

theorem Books.releaseLease : Books (s.releaseLease id) := h.of_eq rfl rfl rfl

theorem Books.addToLease : Books (s.addToLease id digest).2 := by
  refine h.of_eq addToLease_blobs ?_ ?_ <;>
  · unfold Store.addToLease
    split
    · rfl
    · split <;> rfl

theorem Books.removeFromLease : Books (s.removeFromLease id digest).2 := by
  refine h.of_eq removeFromLease_blobs ?_ ?_ <;>
  · unfold Store.removeFromLease
    split <;> rfl

theorem Books.pin : Books (s.pin name digest).2 := by
  refine h.of_eq pin_blobs ?_ ?_ <;>
  · unfold Store.pin
    split
    · rfl
    · split
      · rfl
      · dsimp only
        split <;> rfl

theorem Books.unpin : Books (s.unpin name digest).2 := by
  refine h.of_eq unpin_blobs ?_ ?_ <;>
  · unfold Store.unpin
    split <;> rfl

theorem Books.leaseCommitted : Books (s.leaseCommitted lease digest).2 :=
  h.of_eq leaseCommitted_blobs leaseCommitted_accounts.1 leaseCommitted_accounts.2

theorem Books.observe_present {bytes} (hblob : s.blobs.lookup descriptor.digest = some bytes)
    (hsize : bytes.length = descriptor.size) :
    (s.observeCommittedBlob descriptor).committedBytes = s.committedBytes ∧
    Books (s.observeCommittedBlob descriptor) := by
  have hsized : s.committedBlobs.lookup descriptor.digest = some descriptor.size := by
    rw [h.sizes, hblob, ← hsize]
    rfl
  have hbytes : (s.observeCommittedBlob descriptor).committedBytes = s.committedBytes := by
    simp [observeCommittedBlob, hsized]
  refine ⟨hbytes, ⟨fun d => ?_, by rw [hbytes]; exact h.bytes, by rw [hbytes]; exact h.word⟩⟩
  show (s.committedBlobs.insert descriptor.digest descriptor.size).lookup d = (s.blobs.lookup d).map List.length
  rw [Table.lookup_insert_eq, ← h.sizes]
  split
  · rename_i hd
    rw [hd, hsized]
  · rfl

end

/-- The blob's file, put in its place and counted. -/
def file (s : Store D) (descriptor : BlobDescriptor D) (bytes : List U8) : Store D :=
  { s with blobs := s.blobs.insert descriptor.digest bytes }.observeCommittedBlob descriptor

theorem Books.file (h : Books s) {bytes} (hblob : s.blobs.lookup descriptor.digest = none)
    (hsize : bytes.length = descriptor.size) (hroom : s.committedBytes + descriptor.size ≤ U64_MAX) :
    Books (s.file descriptor bytes) := by
  have hsized : s.committedBlobs.lookup descriptor.digest = none := by
    rw [h.sizes, hblob]
    rfl
  have hbytes : (s.file descriptor bytes).committedBytes = s.committedBytes + descriptor.size := by
    simp only [Store.file, observeCommittedBlob, hsized, Option.isNone_none, if_true, saturatingAdd]
    omega
  refine ⟨fun d => ?_, ?_, by omega⟩
  · show (s.committedBlobs.insert descriptor.digest descriptor.size).lookup d =
      ((s.blobs.insert descriptor.digest bytes).lookup d).map List.length
    rw [Table.lookup_insert_eq, Table.lookup_insert_eq, h.sizes]
    split
    · rw [← hsize]
      rfl
    · rfl
  · rw [hbytes, h.bytes]
    show _ = Table.total List.length (s.blobs.insert descriptor.digest bytes)
    rw [Table.total_insert hblob, hsize, Nat.add_comm]

end Frame

/-! ### Commits -/

section Commit

variable {faults : CommitFaults} {temporary : Option (List U8)} {descriptor : BlobDescriptor D} {lease : Option U64}

/-- What a commit can do: refuse and change nothing, find the blob in its place, or move the temporary
    file there. -/
inductive CommitCase (sha : List U8 → D) (s : Store D) (temporary : Option (List U8)) (descriptor : BlobDescriptor D)
    (lease : Option U64) : Committed D → Prop
  | refused (e : StoreError D) : CommitCase sha s temporary descriptor lease ⟨.error e, s, false⟩
  | found (bytes : List U8) (blob : s.blobs.lookup descriptor.digest = some bytes)
      (size : bytes.length = descriptor.size) (digest : sha bytes = descriptor.digest)
      (leased : lease.any (fun id => (s.leases.lookup id).isNone) = false) :
      CommitCase sha s temporary descriptor lease
        ⟨.ok (), ((s.observeCommittedBlob descriptor).leaseCommitted lease descriptor.digest).2, false⟩
  | unsynced (bytes : List U8) (blob : s.blobs.lookup descriptor.digest = none) (content : temporary = some bytes)
      (room : (s.committedBlobs.lookup descriptor.digest).isNone → s.committedBytes + descriptor.size ≤ U64_MAX) :
      CommitCase sha s temporary descriptor lease ⟨.error (.io .filesystem), s.file descriptor bytes, true⟩
  | filed (bytes : List U8) (blob : s.blobs.lookup descriptor.digest = none) (content : temporary = some bytes)
      (room : (s.committedBlobs.lookup descriptor.digest).isNone → s.committedBytes + descriptor.size ≤ U64_MAX)
      (leased : lease.any (fun id => (s.leases.lookup id).isNone) = false) :
      CommitCase sha s temporary descriptor lease
        ⟨.ok (), ((s.file descriptor bytes).leaseCommitted lease descriptor.digest).2, true⟩

variable (s) in
theorem leaseCommitted_ok (digest : D) (h : lease.any (fun id => (s.leases.lookup id).isNone) = false) :
    (s.leaseCommitted lease digest).1 = .ok () := by
  unfold leaseCommitted
  cases lease with
  | none => rfl
  | some id =>
    cases hid : s.leases.lookup id with
    | none => simp [hid] at h
    | some held => simp only [hid]

variable (sha cfg s faults temporary descriptor lease) in
theorem commitTemporary_cases :
    CommitCase sha s temporary descriptor lease (s.commitTemporary sha cfg faults temporary descriptor lease) := by
  unfold commitTemporary
  by_cases hreleased : lease.any fun id => (s.leases.lookup id).isNone
  · rw [if_pos hreleased]
    exact .refused _
  have hleased : lease.any (fun id => (s.leases.lookup id).isNone) = false := by simpa using hreleased
  rw [if_neg hreleased]
  cases hblob : s.blobs.lookup descriptor.digest with
  | some bytes =>
    dsimp only
    unfold verifyBlobFile
    rw [hblob]
    dsimp only
    split
    · exact .refused _
    · rename_i hverified
      split at hverified
      · cases hverified
      · split at hverified
        · cases hverified
        · rename_i hsize hdigest
          have hok := leaseCommitted_ok (s.observeCommittedBlob descriptor) descriptor.digest hleased
          rw [hok]
          exact .found bytes hblob (not_not.mp hsize) (not_not.mp hdigest) hleased
  | none =>
    dsimp only
    generalize hcapacity : (if (s.committedBlobs.lookup descriptor.digest).isNone then
      s.ensureCommittedCapacity cfg.maxCommittedBytes descriptor.size else .ok ()) = capacity
    cases capacity with
    | error e => exact .refused e
    | ok _ =>
      have hroom : (s.committedBlobs.lookup descriptor.digest).isNone →
          s.committedBytes + descriptor.size ≤ U64_MAX := by
        intro hnew
        rw [if_pos hnew, ensureCommittedCapacity] at hcapacity
        split at hcapacity
        · rename_i hfits
          exact hfits.1
        · cases hcapacity
      cases temporary with
      | none => exact .refused _
      | some bytes =>
        dsimp only
        split
        · exact .refused _
        · split
          · exact .unsynced bytes hblob rfl hroom
          · have hok := leaseCommitted_ok (s.file descriptor bytes) descriptor.digest hleased
            show CommitCase sha s _ descriptor lease ⟨((s.file descriptor bytes).leaseCommitted lease _).1, _, true⟩
            rw [hok]
            exact .filed bytes hblob rfl hroom hleased

theorem Books.commit (h : Books s) (hcontent : ∀ bytes, temporary = some bytes → bytes.length = descriptor.size) :
    Books (s.commitTemporary sha cfg faults temporary descriptor lease).store := by
  have hcases := commitTemporary_cases sha cfg s faults temporary descriptor lease
  generalize s.commitTemporary sha cfg faults temporary descriptor lease = c at hcases
  have hfiled : ∀ bytes, s.blobs.lookup descriptor.digest = none → temporary = some bytes →
      ((s.committedBlobs.lookup descriptor.digest).isNone → s.committedBytes + descriptor.size ≤ U64_MAX) →
      Books (s.file descriptor bytes) := by
    intro bytes hblob htemporary hroom
    exact h.file hblob (hcontent bytes htemporary) (hroom (by rw [h.sizes, hblob]; rfl))
  cases hcases with
  | refused e => exact h
  | found bytes blob size digest leased => exact (h.observe_present blob size).2.leaseCommitted
  | unsynced bytes blob content room => exact hfiled bytes blob content room
  | filed bytes blob content room leased => exact (hfiled bytes blob content room).leaseCommitted

end Commit

/-! ### Sweeps -/

section Sweep

variable {keep : D → Bool} {dryRun : Bool} {es : List (Sigma fun _ : D => List U8)} {report : GcReport}

/-- A blob's file removed and no longer counted. -/
def removeBlob (s : Store D) (digest : D) : Store D :=
  { s with blobs := s.blobs.erase digest }.removeCommittedBlob digest

def removeBlobs (s : Store D) (digests : List D) : Store D := digests.foldl removeBlob s

/-- The digests a sweep over the entries removes. -/
def unkept (keep : D → Bool) (es : List (Sigma fun _ : D => List U8)) : List D :=
  (es.filter fun e => !keep e.1).map (·.1)

theorem removeBlob_fields (digest : D) : (s.removeBlob digest).blobs = s.blobs.erase digest ∧
    (s.removeBlob digest).pins = s.pins ∧ (s.removeBlob digest).leases = s.leases ∧
    (s.removeBlob digest).nextLeaseId = s.nextLeaseId := by
  unfold removeBlob removeCommittedBlob
  split <;> exact ⟨rfl, rfl, rfl, rfl⟩

theorem removeBlobs_fields (digests) : (s.removeBlobs digests).blobs = Table.eraseAll digests s.blobs ∧
    (s.removeBlobs digests).pins = s.pins ∧ (s.removeBlobs digests).leases = s.leases ∧
    (s.removeBlobs digests).nextLeaseId = s.nextLeaseId := by
  induction digests generalizing s with
  | nil => exact ⟨rfl, rfl, rfl, rfl⟩
  | cons digest digests ih =>
    obtain ⟨hblobs, hpins, hleases, hnext⟩ := removeBlob_fields (s := s) digest
    obtain ⟨hblobs', hpins', hleases', hnext'⟩ := ih (s := s.removeBlob digest)
    exact ⟨hblobs'.trans (by rw [hblobs, Table.eraseAll_cons]), hpins'.trans hpins, hleases'.trans hleases,
      hnext'.trans hnext⟩

theorem Books.removeBlob (h : Books s) (digest : D) : Books (s.removeBlob digest) := by
  cases hblob : s.blobs.lookup digest with
  | none =>
    have hsized : s.committedBlobs.lookup digest = none := by
      rw [h.sizes, hblob]
      rfl
    have hsame : s.removeBlob digest = s := by
      simp only [Store.removeBlob, removeCommittedBlob, hsized, Table.erase_of_lookup_none hblob]
    rw [hsame]
    exact h
  | some bytes =>
    have hsized : s.committedBlobs.lookup digest = some bytes.length := by
      rw [h.sizes, hblob]
      rfl
    have htotal := Table.total_erase List.length hblob
    have hbytes : (s.removeBlob digest).committedBytes = s.committedBytes - bytes.length := by
      simp only [Store.removeBlob, removeCommittedBlob, hsized]
    have hword := h.word
    refine ⟨fun d => ?_, ?_, by omega⟩
    · have hcommitted : (s.removeBlob digest).committedBlobs = s.committedBlobs.erase digest := by
        simp only [Store.removeBlob, removeCommittedBlob, hsized]
      rw [hcommitted, (removeBlob_fields digest).1, Table.lookup_erase_eq, Table.lookup_erase_eq, h.sizes]
      split <;> rfl
    · rw [hbytes, (removeBlob_fields digest).1, h.bytes]
      omega

theorem Books.removeBlobs (h : Books s) (digests) : Books (s.removeBlobs digests) := by
  induction digests generalizing s with
  | nil => exact h
  | cons digest digests ih => exact ih (h.removeBlob digest)

theorem sweep_store (keep dryRun) (es : List (Sigma fun _ : D => List U8)) (report)
    (s) : (sweep keep dryRun es report s).2 = if dryRun then s else s.removeBlobs (unkept keep es) := by
  induction es generalizing report s with
  | nil => simp [sweep, unkept, removeBlobs]
  | cons e es ih =>
    obtain ⟨digest, bytes⟩ := e
    rw [sweep]
    cases hkeep : keep digest with
    | true =>
      rw [if_pos rfl, ih]
      simp [unkept, hkeep]
    | false =>
      rw [if_neg Bool.false_ne_true, ih]
      cases dryRun with
      | true => rfl
      | false => simp [unkept, hkeep, removeBlobs, removeBlob]

theorem sweep_report (keep dryRun) (es : List (Sigma fun _ : D => List U8)) (report)
    (s) (hkept : report.keptBlobs ≤ U64_MAX) (hremoved : report.removedBlobs ≤ U64_MAX)
    (hreclaimed : report.reclaimedBytes ≤ U64_MAX) :
    (sweep keep dryRun es report s).1 =
      ⟨report.markedDigests, saturatingAdd report.keptBlobs (es.filter (keep ·.1)).length,
        saturatingAdd report.removedBlobs (es.filter (!keep ·.1)).length,
        saturatingAdd report.reclaimedBytes ((es.filter (!keep ·.1)).map (·.2.length)).sum⟩ := by
  induction es generalizing report s with
  | nil =>
    obtain ⟨marked, kept, removed, reclaimed⟩ := report
    simp only [sweep, filter_nil, length_nil, map_nil, sum_nil, saturatingAdd, Nat.add_zero,
      Nat.min_eq_left hkept, Nat.min_eq_left hremoved, Nat.min_eq_left hreclaimed]
  | cons e es ih =>
    obtain ⟨digest, bytes⟩ := e
    rw [sweep]
    cases hkeep : keep digest with
    | true =>
      rw [if_pos rfl]
      refine (ih { report with keptBlobs := _ } _ (Nat.min_le_right _ _) hremoved hreclaimed).trans ?_
      simp only [filter_cons, hkeep, if_true, Bool.not_true, Bool.false_eq_true, if_false, length_cons,
        saturatingAdd, GcReport.mk.injEq, true_and, and_true]
      omega
    | false =>
      rw [if_neg Bool.false_ne_true]
      refine (ih { report with
        removedBlobs := saturatingAdd report.removedBlobs 1
        reclaimedBytes := saturatingAdd report.reclaimedBytes bytes.length } _ hkept (Nat.min_le_right _ _)
        (Nat.min_le_right _ _)).trans ?_
      simp only [filter_cons, hkeep, if_true, Bool.not_false, Bool.false_eq_true, if_false, length_cons,
        map_cons, sum_cons, saturatingAdd, GcReport.mk.injEq, true_and]
      omega

theorem Books.collect (h : Books s) (roots dryRun stop) :
    Books (s.garbageCollectWithRoots roots dryRun stop).2 := by
  unfold garbageCollectWithRoots
  cases stop with
  | none =>
    dsimp only
    rw [sweep_store]
    split
    · exact h
    · exact h.removeBlobs _
  | some n =>
    dsimp only
    rw [sweep_store]
    split
    · exact h
    · exact h.removeBlobs _

end Sweep

end Store

end Rish.Content
