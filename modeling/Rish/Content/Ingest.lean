/-
  Rish.Content.Ingest — ingests, leases, pins and collections of one store, interleaved.

  An ingest runs on its own thread: it is admitted under the lock, creates a temporary file, copies
  its reader there chunk by chunk, checks what it read, commits under the lock and drops the guard
  that removes the temporary file. Each of these is one event, so that everything else can happen in
  between; the calls that hold the lock from start to end are one event each. Sequence numbers of
  temporary files do not repeat. What the reader of an ingest answered is taken from the events, not
  from what the ingest remembers.
-/

import Rish.Content.Store
import Rish.Lib.Record

namespace Rish.Content

open Lib

/-! ## The system -/

/-- A lease as its holder has it. `held` is what was put into it and not taken out. -/
structure Handle (D : Type) where
  id : U64
  released : Bool
  held : Finset D

/-- Name of a temporary file: process and time, and a sequence number. -/
abbrev Temporary := Nat × Nat

inductive Stage (D : Type) where
  | admitted
  | reading (file : Temporary)
  /-- everything is read and matches what was expected -/
  | checked (file : Temporary) (descriptor : BlobDescriptor D)
  /-- the result is known, the temporary file not yet removed -/
  | leaving (file : Temporary) (result : Except (StoreError D) (BlobDescriptor D))
  | finished (file : Option Temporary) (result : Except (StoreError D) (BlobDescriptor D))

structure Ingest (D : Type) where
  expected : Option (BlobDescriptor D)
  handle : Option Nat
  lease : Option U64
  /-- the bytes read so far -/
  read : List U8
  stage : Stage D

structure System (D : Type) where
  store : Store D
  temporary : Table Temporary (List U8)
  nextTempId : Nat
  handles : List (Handle D)
  ingests : List (Ingest D)

inductive Chunk where
  | bytes (bytes : List U8)
  | error
  deriving DecidableEq, Repr

/-- What one ingest does next, and what its reader and the filesystem answer. -/
inductive IngestEvent where
  | create (stamps : List Nat) (permissionsFail : Bool)
  | read (chunk : Chunk)
  /-- a write or a flush of the temporary file fails -/
  | fail
  | commit (faults : Store.CommitFaults)
  | finish
  deriving DecidableEq, Repr

inductive Event (D : Type) where
  | ingest (expected : Option (BlobDescriptor D)) (handle : Option Nat)
  | step (k : Nat) (event : IngestEvent)
  | createLease
  | add (handle : Nat) (digest : D)
  | remove (handle : Nat) (digest : D)
  | release (handle : Nat)
  | pin (name : String) (digest : D)
  | unpin (name : String) (digest : D)
  | collect (roots : List D) (dryRun : Bool) (stop : Option Nat)
  deriving DecidableEq, Repr

section Model

variable {D : Type} [DecidableEq D] (sha : List U8 → D) (cfg : StoreConfig)

def describe (bytes : List U8) : BlobDescriptor D := ⟨sha bytes, bytes.length⟩

/-! ### One ingest -/

/-- What is checked before anything is created. -/
def accepts (s : Store D) (expected : Option (BlobDescriptor D)) : Except (StoreError D) Unit :=
  match expected with
  | none => .ok ()
  | some expected =>
    if expected.size > cfg.maxBlobSize then .error (.blobTooLarge cfg.maxBlobSize expected.size)
    else s.preflightCommittedQuota cfg expected

/-- A new file under the first of the names that is not taken. -/
def createTemporaryFile : List Nat → Table Temporary (List U8) → Nat →
    Option Temporary × Table Temporary (List U8) × Nat
  | [], files, next => (none, files, next)
  | stamp :: stamps, files, next =>
    if (files.lookup (stamp, next)).isSome then createTemporaryFile stamps files (next + 1)
    else (some (stamp, next), files.insert (stamp, next) [], next + 1)

/-- How much of the reader is looked at. -/
def readLimit (expected : Option (BlobDescriptor D)) : Nat :=
  Store.saturatingAdd ((expected.map (·.size)).getD cfg.maxBlobSize) 1

/-- The checks once the reader is at its end. -/
def checkRead (expected : Option (BlobDescriptor D)) (read : List U8) : Except (StoreError D) (BlobDescriptor D) :=
  let descriptor := describe sha read
  match expected with
  | none => .ok descriptor
  | some expected =>
    if expected.size ≠ descriptor.size then .error (.sizeMismatch expected.size descriptor.size)
    else if expected.digest ≠ descriptor.digest then .error (.digestMismatch expected.digest descriptor.digest)
    else .ok descriptor

/-- The checks after a chunk. -/
def checkTotal (expected : Option (BlobDescriptor D)) (total : Nat) : Except (StoreError D) Unit :=
  if total > U64_MAX then .error (.blobTooLarge cfg.maxBlobSize U64_MAX)
  else if total > cfg.maxBlobSize then .error (.blobTooLarge cfg.maxBlobSize total)
  else
    match expected with
    | none => .ok ()
    | some expected => if total > expected.size then .error (.sizeMismatch expected.size total) else .ok ()

/-- Writing goes to the file's end; a file that is gone stays gone. -/
def appendTo (files : Table Temporary (List U8)) (file : Temporary) (bytes : List U8) : Table Temporary (List U8) :=
  match files.lookup file with
  | none => files
  | some content => files.insert file (content ++ bytes)

/-- One round of the copy loop. -/
def readChunk (file : Temporary) (chunk : Chunk) (i : Ingest D) (s : System D) : System D × Ingest D :=
  let remaining := readLimit cfg i.expected - i.read.length
  let finish : System D × Ingest D :=
    match checkRead sha i.expected i.read with
    | .error e => (s, { i with stage := .leaving file (.error e) })
    | .ok descriptor => (s, { i with stage := .checked file descriptor })
  if remaining = 0 then finish
  else
    match chunk with
    | .error => (s, { i with stage := .leaving file (.error (.io .reader)) })
    | .bytes bytes =>
      let got := bytes.take (min BUFFER_SIZE remaining)
      if got = [] then finish
      else
        match checkTotal cfg i.expected (i.read.length + got.length) with
        | .error e => (s, { i with stage := .leaving file (.error e) })
        | .ok _ =>
          ({ s with temporary := appendTo s.temporary file got }, { i with read := i.read ++ got })

/-- What was put into a lease goes to its holder's record. -/
def hold (handles : List (Handle D)) (handle : Option Nat) (digest : D) : List (Handle D) :=
  match handle with
  | none => handles
  | some h => handles.modify h fun handle => { handle with held := insert digest handle.held }

def commitChecked (file : Temporary) (descriptor : BlobDescriptor D) (faults : Store.CommitFaults) (i : Ingest D)
    (s : System D) : System D × Ingest D :=
  let c := s.store.commitTemporary sha cfg faults (s.temporary.lookup file) descriptor i.lease
  let temporary := if c.renamed then s.temporary.erase file else s.temporary
  match c.result with
  | .error e => ({ s with store := c.store, temporary := temporary }, { i with stage := .leaving file (.error e) })
  | .ok _ =>
    ({ s with store := c.store, temporary := temporary, handles := hold s.handles i.handle descriptor.digest },
      { i with stage := .leaving file (.ok descriptor) })

def advance (event : IngestEvent) (i : Ingest D) (s : System D) : System D × Ingest D :=
  match i.stage, event with
  | .admitted, .create stamps permissionsFail =>
    let (file, temporary, next) := createTemporaryFile (stamps.take 128) s.temporary s.nextTempId
    ({ s with temporary := temporary, nextTempId := next },
      match file with
      | none => { i with stage := .finished none (.error (.io .filesystem)) }
      | some file =>
        if permissionsFail then { i with stage := .finished (some file) (.error (.io .filesystem)) }
        else { i with stage := .reading file })
  | .reading file, .read chunk => readChunk sha cfg file chunk i s
  | .reading file, .fail | .checked file _, .fail =>
    (s, { i with stage := .leaving file (.error (.io .filesystem)) })
  | .checked file descriptor, .commit faults => commitChecked sha cfg file descriptor faults i s
  | .leaving file result, .finish =>
    ({ s with temporary := s.temporary.erase file }, { i with stage := .finished (some file) result })
  | _, _ => (s, i)

/-! ### All of them -/

/-- A lease that its holder still has. -/
def liveHandle (s : System D) (h : Nat) : Option (Handle D) := s.handles[h]?.filter fun handle => !handle.released

def startIngest (expected : Option (BlobDescriptor D)) (handle : Option Nat) (s : System D) : System D :=
  let ingest (lease : Option U64) : Ingest D :=
    match accepts cfg s.store expected with
    | .error e => ⟨expected, handle, lease, [], .finished none (.error e)⟩
    | .ok _ => ⟨expected, handle, lease, [], .admitted⟩
  match handle with
  | none => { s with ingests := s.ingests ++ [ingest none] }
  | some h =>
    match liveHandle s h with
    | none =>
      { s with ingests := s.ingests ++ [⟨expected, handle, none, [], .finished none (.error .leaseReleased)⟩] }
    | some live => { s with ingests := s.ingests ++ [ingest (some live.id)] }

def next (event : Event D) (s : System D) : System D :=
  match event with
  | .ingest expected handle => startIngest cfg expected handle s
  | .step k event =>
    match s.ingests[k]? with
    | none => s
    | some i =>
      let (s, i) := advance sha cfg event i s
      { s with ingests := s.ingests.set k i }
  | .createLease =>
    let (id, store) := s.store.createLease
    { s with store := store, handles := s.handles ++ [⟨id, false, ∅⟩] }
  | .add h digest =>
    match liveHandle s h with
    | none => s
    | some live =>
      match s.store.addToLease live.id digest with
      | (.error _, store) => { s with store := store }
      | (.ok _, store) => { s with store := store, handles := hold s.handles (some h) digest }
  | .remove h digest =>
    match liveHandle s h with
    | none => s
    | some live =>
      match s.store.removeFromLease live.id digest with
      | (.error _, store) => { s with store := store }
      | (.ok _, store) =>
        { s with
          store := store
          handles := s.handles.modify h fun handle => { handle with held := handle.held.erase digest } }
  | .release h =>
    match liveHandle s h with
    | none => s
    | some live =>
      { s with
        store := s.store.releaseLease live.id
        handles := s.handles.modify h fun handle => { handle with released := true } }
  | .pin name digest => { s with store := (s.store.pin name digest).2 }
  | .unpin name digest => { s with store := (s.store.unpin name digest).2 }
  | .collect roots dryRun stop => { s with store := (s.store.garbageCollectWithRoots roots dryRun stop).2 }

/-- A store just opened, with whatever files an earlier process left behind. -/
def System.start (store : Store D) (temporary : Table Temporary (List U8)) : System D := ⟨store, temporary, 1, [], []⟩

end Model

/-! ## What always holds -/

section Invariant

variable {D : Type} [DecidableEq D] {sha : List U8 → D} {cfg : StoreConfig}

def Stage.file : Stage D → Option Temporary
  | .admitted => none
  | .reading file | .checked file _ | .leaving file _ => some file
  | .finished file _ => file

/-- The temporary file holds what was read; a result is that of the bytes read; an ingest that is over
    has no file, unless the filesystem failed. -/
def Valid (sha : List U8 → D) (files : Table Temporary (List U8)) (i : Ingest D) : Prop :=
  match i.stage with
  | .admitted => i.read = []
  | .reading file => files.lookup file = some i.read
  | .checked file descriptor => files.lookup file = some i.read ∧ descriptor = describe sha i.read
  | .leaving _ result => ∀ descriptor, result = .ok descriptor → descriptor = describe sha i.read
  | .finished file result =>
    (∀ descriptor, result = .ok descriptor → descriptor = describe sha i.read) ∧
      (result ≠ .error (.io .filesystem) → ∀ name, file = some name → files.lookup name = none)

/-- A blob is named by its digest, or was there from the beginning. -/
def Named (sha : List U8 → D) (initial : Table D (List U8)) (s : Store D) : Prop :=
  ∀ digest bytes, s.blobs.lookup digest = some bytes → sha bytes = digest ∨ initial.lookup digest = some bytes

structure Sound (sha : List U8 → D) (initial : Table D (List U8)) (s : System D) : Prop where
  named : Named sha initial s.store
  books : s.store.Books
  valid : ∀ (k : Nat) (i : Ingest D), s.ingests[k]? = some i → Valid sha s.temporary i
  taken : ∀ (k : Nat) (i : Ingest D) (file : Temporary), s.ingests[k]? = some i → i.stage.file = some file →
    file.2 < s.nextTempId
  apart : ∀ (k k' : Nat) (i i' : Ingest D) (file : Temporary), s.ingests[k]? = some i → s.ingests[k']? = some i' →
    i.stage.file = some file → i'.stage.file = some file → k = k'

/-- What a step of one ingest may do: change its own file, and the store in a sound way. -/
structure Moves (sha : List U8 → D) (initial : Table D (List U8)) (s : System D) (i : Ingest D)
    (moved : System D × Ingest D) : Prop where
  ingests : moved.1.ingests = s.ingests
  next : s.nextTempId ≤ moved.1.nextTempId
  files : ∀ file, moved.2.stage.file ≠ some file → moved.1.temporary.lookup file = s.temporary.lookup file
  file : ∀ file, moved.2.stage.file = some file →
    i.stage.file = some file ∨ (s.nextTempId ≤ file.2 ∧ file.2 < moved.1.nextTempId)
  valid : Valid sha moved.1.temporary moved.2
  named : Named sha initial moved.1.store
  books : moved.1.store.Books

variable {s : System D} {i : Ingest D} {file : Temporary} {k : Nat} {initial : Table D (List U8)}

theorem Moves.record (hs : Sound sha initial s) {i'} (hfile : i'.stage.file = i.stage.file)
    (hvalid : Valid sha s.temporary i') : Moves sha initial s i (s, i') :=
  ⟨rfl, Nat.le_refl _, fun _ _ => rfl, fun _ h => .inl (hfile ▸ h), hvalid, hs.named, hs.books⟩

/-- A new file has a number nobody had. -/
def Created (files : Table Temporary (List U8)) (next : Nat) (r : Option Temporary × Table Temporary (List U8) × Nat) :
    Prop :=
  match r.1 with
  | none => r.2.1 = files ∧ next ≤ r.2.2
  | some file => r.2.1 = files.insert file [] ∧ next ≤ file.2 ∧ file.2 < r.2.2

theorem createTemporaryFile_spec (stamps files) (next : Nat) :
    Created files next (createTemporaryFile stamps files next) := by
  induction stamps generalizing next with
  | nil => exact ⟨rfl, Nat.le_refl _⟩
  | cons stamp stamps ih =>
    rw [createTemporaryFile]
    split
    · have h := ih (next + 1)
      revert h
      rcases createTemporaryFile stamps files (next + 1) with ⟨_ | file, files', next'⟩
      · rintro ⟨hfiles, hle⟩
        exact ⟨hfiles, Nat.le_of_succ_le hle⟩
      · rintro ⟨hfiles, hle, hlt⟩
        exact ⟨hfiles, Nat.le_of_succ_le hle, hlt⟩
    · exact ⟨rfl, Nat.le_refl _, Nat.lt_succ_self _⟩

theorem moves_create (hs : Sound sha initial s) (hstage : i.stage = .admitted) (hvalid : Valid sha s.temporary i)
    (stamps permissionsFail) : Moves sha initial s i (advance sha cfg (.create stamps permissionsFail) i s) := by
  have hread : i.read = [] := by simpa only [Valid, hstage] using hvalid
  have hspec := createTemporaryFile_spec (stamps.take 128) s.temporary s.nextTempId
  simp only [advance, hstage]
  revert hspec
  rcases createTemporaryFile (stamps.take 128) s.temporary s.nextTempId with ⟨_ | file, files', next'⟩
  · rintro ⟨rfl, hle⟩
    exact ⟨rfl, hle, fun _ _ => rfl, fun _ h => (by cases h), ⟨fun _ h => (by cases h), fun h => absurd rfl h⟩,
      hs.named,
      hs.books⟩
  · rintro ⟨rfl, hle, hlt⟩
    have hnext := Nat.le_of_lt (Nat.lt_of_le_of_lt hle hlt)
    have hfiles : ∀ name, some file ≠ some name →
        (s.temporary.insert file []).lookup name = s.temporary.lookup name := by
      intro name hne
      exact AList.lookup_insert_ne fun h => hne (by rw [h])
    cases permissionsFail with
    | true =>
      exact ⟨rfl, hnext, hfiles, fun _ h => .inr (by cases h; exact ⟨hle, hlt⟩),
        ⟨fun _ h => (by cases h), fun h => absurd rfl h⟩, hs.named, hs.books⟩
    | false =>
      refine ⟨rfl, hnext, hfiles, fun _ h => .inr (by cases h; exact ⟨hle, hlt⟩), ?_, hs.named, hs.books⟩
      show (s.temporary.insert file []).lookup file = some i.read
      rw [AList.lookup_insert, hread]

variable {descriptor : BlobDescriptor D} {store : Store D}

theorem checkRead_ok {expected} {read : List U8}
    (h : checkRead sha expected read = .ok descriptor) : descriptor = describe sha read := by
  unfold checkRead at h
  dsimp only at h
  split at h
  · cases h
    rfl
  · split at h
    · cases h
    · split at h
      · cases h
      · cases h
        rfl

omit [DecidableEq D] in
theorem appendTo_some {files content bytes} (h : files.lookup file = some content) :
    appendTo files file bytes = files.insert file (content ++ bytes) := by
  rw [appendTo, h]

theorem moves_read (hs : Sound sha initial s) (hstage : i.stage = .reading file) (hvalid : Valid sha s.temporary i)
    (chunk) : Moves sha initial s i (advance sha cfg (.read chunk) i s) := by
  have hcontent : s.temporary.lookup file = some i.read := by simpa only [Valid, hstage] using hvalid
  have hfile : i.stage.file = some file := by rw [hstage]; rfl
  have hfinish : Moves sha initial s i (match checkRead sha i.expected i.read with
      | .error e => (s, { i with stage := .leaving file (.error e) })
      | .ok descriptor => (s, { i with stage := .checked file descriptor })) := by
    cases hcheck : checkRead sha i.expected i.read with
    | error e => exact .record hs hfile.symm fun _ h => by cases h
    | ok descriptor => exact .record hs hfile.symm ⟨hcontent, checkRead_ok hcheck⟩
  simp only [advance, hstage, readChunk]
  split
  · exact hfinish
  cases chunk with
  | error => exact .record hs hfile.symm fun _ h => by cases h
  | bytes bytes =>
    dsimp only
    split
    · exact hfinish
    · split
      · exact .record hs hfile.symm fun _ h => by cases h
      · rw [appendTo_some hcontent]
        refine ⟨rfl, Nat.le_refl _, fun name hne => ?_, fun _ h => .inl (hfile.trans h), ?_, hs.named, hs.books⟩
        · exact AList.lookup_insert_ne fun h => hne (by rw [h]; rfl)
        · exact AList.lookup_insert _

theorem Named.filed {bytes} (h : Named sha initial store)
    (hdigest : sha bytes = descriptor.digest) : Named sha initial (store.file descriptor bytes) := by
  intro digest content hlookup
  have hlookup' : (store.blobs.insert descriptor.digest bytes).lookup digest = some content := hlookup
  rw [Table.lookup_insert_eq] at hlookup'
  split at hlookup'
  · rename_i hd
    cases hlookup'
    exact .inl (by rw [hd, hdigest])
  · exact h digest content hlookup'

theorem Named.commit {faults temporary}
    {lease : Option U64} (h : Named sha initial store)
    (hcontent : ∀ bytes, temporary = some bytes → sha bytes = descriptor.digest) :
    Named sha initial (store.commitTemporary sha cfg faults temporary descriptor lease).store := by
  have hcases := Store.commitTemporary_cases sha cfg store faults temporary descriptor lease
  generalize store.commitTemporary sha cfg faults temporary descriptor lease = c at hcases
  have hleased : ∀ s' : Store D, Named sha initial s' →
      Named sha initial (s'.leaseCommitted lease descriptor.digest).2 := by
    intro s' hs' digest bytes hlookup
    rw [Store.leaseCommitted_blobs] at hlookup
    exact hs' digest bytes hlookup
  cases hcases with
  | refused e => exact h
  | found bytes blob size digest leased => exact hleased _ h
  | unsynced bytes blob content room => exact h.filed (hcontent bytes content)
  | filed bytes blob content room leased => exact hleased _ (h.filed (hcontent bytes content))

section

variable (hs : Sound sha initial s)
include hs

theorem moves_commit (hstage : i.stage = .checked file descriptor)
    (hvalid : Valid sha s.temporary i) (faults) :
    Moves sha initial s i (advance sha cfg (.commit faults) i s) := by
  obtain ⟨hcontent, hdescriptor⟩ : s.temporary.lookup file = some i.read ∧ descriptor = describe sha i.read := by
    simpa only [Valid, hstage] using hvalid
  have hfile : i.stage.file = some file := by rw [hstage]; rfl
  have hnamed : Named sha initial
      (s.store.commitTemporary sha cfg faults (s.temporary.lookup file) descriptor i.lease).store :=
    hs.named.commit fun bytes h => by
      rw [hcontent] at h
      cases h
      rw [hdescriptor]
      rfl
  have hbooks : (s.store.commitTemporary sha cfg faults (s.temporary.lookup file) descriptor i.lease).store.Books :=
    hs.books.commit fun bytes h => by
      rw [hcontent] at h
      cases h
      rw [hdescriptor]
      rfl
  simp only [advance, hstage, commitChecked]
  generalize s.store.commitTemporary sha cfg faults (s.temporary.lookup file) descriptor i.lease = c at hnamed hbooks
  have hfiles : ∀ name, some file ≠ some name →
      (if c.renamed then s.temporary.erase file else s.temporary).lookup name = s.temporary.lookup name := by
    intro name hne
    split
    · exact AList.lookup_erase_ne fun h => hne (by rw [h])
    · rfl
  cases c.result with
  | error e =>
    exact ⟨rfl, Nat.le_refl _, hfiles, fun _ h => .inl (hfile.trans h), fun _ h => (by cases h), hnamed, hbooks⟩
  | ok _ =>
    exact ⟨rfl, Nat.le_refl _, hfiles, fun _ h => .inl (hfile.trans h), fun _ h => (by cases h; exact hdescriptor),
      hnamed, hbooks⟩

theorem moves_advance (hvalid : Valid sha s.temporary i) (event) :
    Moves sha initial s i (advance sha cfg event i s) := by
  have hidle : Moves sha initial s i (s, i) := .record hs rfl hvalid
  cases hstage : i.stage with
  | admitted =>
    cases event with
    | create stamps permissionsFail => exact moves_create hs hstage hvalid stamps permissionsFail
    | _ => simpa only [advance, hstage] using hidle
  | reading file =>
    cases event with
    | read chunk => exact moves_read hs hstage hvalid chunk
    | fail =>
      simp only [advance, hstage]
      exact .record hs (by rw [hstage]; rfl) fun _ h => by cases h
    | _ => simpa only [advance, hstage] using hidle
  | checked file descriptor =>
    cases event with
    | commit faults => exact moves_commit hs hstage hvalid faults
    | fail =>
      simp only [advance, hstage]
      exact .record hs (by rw [hstage]; rfl) fun _ h => by cases h
    | _ => simpa only [advance, hstage] using hidle
  | leaving file result =>
    cases event with
    | finish =>
      have hresult : ∀ descriptor, result = .ok descriptor → descriptor = describe sha i.read := by
        simpa only [Valid, hstage] using hvalid
      simp only [advance, hstage]
      refine ⟨rfl, Nat.le_refl _, fun name hne => ?_, fun _ h => .inl (by rw [hstage]; exact h), ⟨hresult, ?_⟩,
        hs.named,
        hs.books⟩
      · exact AList.lookup_erase_ne fun h => hne (by rw [h]; rfl)
      · intro _ name hname
        cases hname
        exact AList.lookup_erase _ _
    | _ => simpa only [advance, hstage] using hidle
  | finished file result => cases event <;> simpa only [advance, hstage] using hidle

theorem Sound.move (hi : s.ingests[k]? = some i) {moved}
    (hmove : Moves sha initial s i moved) : Sound sha initial
    { moved.1 with ingests := moved.1.ingests.set k moved.2 } := by
  obtain ⟨s', i'⟩ := moved
  have hk : k < s.ingests.length := (List.getElem?_eq_some_iff.mp hi).1
  -- the ingests afterwards: the one that moved, and the others as they were
  have hcases : ∀ k' j, (s'.ingests.set k i')[k']? = some j → (k' = k ∧ j = i') ∨
      (k' ≠ k ∧ s.ingests[k']? = some j) := by
    intro k' j hj
    rw [hmove.ingests, List.getElem?_set] at hj
    by_cases heq : k = k'
    · rw [if_pos heq, if_pos hk] at hj
      exact .inl ⟨heq.symm, (Option.some_inj.mp hj).symm⟩
    · rw [if_neg heq] at hj
      exact .inr ⟨fun h => heq h.symm, hj⟩
  have hothers : ∀ k' j name, k' ≠ k → s.ingests[k']? = some j → j.stage.file = some name →
      i'.stage.file ≠ some name := by
    intro k' j name hne hj hname hown
    rcases hmove.file name hown with h | ⟨hle, -⟩
    · exact hne (hs.apart k' k j i name hj hi hname h)
    · exact absurd (hs.taken k' j name hj hname) (by omega)
  refine ⟨hmove.named, hmove.books, ?_, ?_, ?_⟩
  · intro k' j hj
    rcases hcases k' j hj with ⟨rfl, rfl⟩ | ⟨hne, hj⟩
    · exact hmove.valid
    · have hvalid := hs.valid k' j hj
      have hsame : ∀ name, j.stage.file = some name → s'.temporary.lookup name = s.temporary.lookup name :=
        fun name hname => hmove.files name (hothers k' j name hne hj hname)
      revert hvalid hsame
      unfold Valid
      cases hstage : j.stage with
      | admitted => exact fun h _ => h
      | reading file => exact fun h hsame => (hsame file rfl).trans h
      | checked file descriptor => exact fun h hsame => ⟨(hsame file rfl).trans h.1, h.2⟩
      | leaving file result => exact fun h _ => h
      | finished file result =>
        exact fun h hsame => ⟨h.1, fun hr name hname => (hsame name hname).trans (h.2 hr name hname)⟩
  · intro k' j name hj hname
    rcases hcases k' j hj with ⟨rfl, rfl⟩ | ⟨hne, hj⟩
    · rcases hmove.file name hname with h | ⟨-, hlt⟩
      · exact Nat.lt_of_lt_of_le (hs.taken _ i name hi h) hmove.next
      · exact hlt
    · exact Nat.lt_of_lt_of_le (hs.taken k' j name hj hname) hmove.next
  · intro k₁ k₂ j₁ j₂ name hj₁ hj₂ hname₁ hname₂
    rcases hcases k₁ j₁ hj₁ with ⟨rfl, rfl⟩ | ⟨hne₁, hwas₁⟩ <;> rcases hcases k₂ j₂ hj₂ with ⟨rfl, rfl⟩ | ⟨hne₂, hwas₂⟩
    · rfl
    · exact absurd hname₁ (hothers k₂ j₂ name hne₂ hwas₂ hname₂)
    · exact absurd hname₂ (hothers k₁ j₁ name hne₁ hwas₁ hname₁)
    · exact hs.apart k₁ k₂ j₁ j₂ name hwas₁ hwas₂ hname₁ hname₂

theorem Sound.call (hnamed : Named sha initial store) (hbooks : store.Books)
    (handles) : Sound sha initial { s with store := store, handles := handles } :=
  ⟨hnamed, hbooks, hs.valid, hs.taken, hs.apart⟩

end

theorem Named.of_blobs {store store'} (h : Named sha initial store) (hblobs : store'.blobs = store.blobs) :
    Named sha initial store' := by
  intro digest bytes hlookup
  rw [hblobs] at hlookup
  exact h digest bytes hlookup

theorem Named.collect (h : Named sha initial store) (roots dryRun stop) :
    Named sha initial (store.garbageCollectWithRoots roots dryRun stop).2 := by
  have hremoved : ∀ digests, Named sha initial (store.removeBlobs digests) := by
    intro digests digest bytes hlookup
    rw [(Store.removeBlobs_fields digests).1, Table.lookup_eraseAll] at hlookup
    split at hlookup
    · cases hlookup
    · exact h digest bytes hlookup
  unfold Store.garbageCollectWithRoots
  cases stop <;>
  · dsimp only
    rw [Store.sweep_store]
    split
    · exact h
    · exact hremoved _

variable (cfg s) in
theorem startIngest_eq (expected) (handle : Option Nat) :
    ∃ i, startIngest cfg expected handle s = { s with ingests := s.ingests ++ [i] } ∧ i.read = [] ∧
      (i.stage = .admitted ∨ ∃ e, i.stage = .finished none (.error e)) := by
  unfold startIngest
  cases accepts cfg s.store expected with
  | error e =>
    cases handle with
    | none => exact ⟨_, rfl, rfl, .inr ⟨e, rfl⟩⟩
    | some h =>
      dsimp only
      cases liveHandle s h with
      | none => exact ⟨_, rfl, rfl, .inr ⟨_, rfl⟩⟩
      | some live => exact ⟨_, rfl, rfl, .inr ⟨e, rfl⟩⟩
  | ok _ =>
    cases handle with
    | none => exact ⟨_, rfl, rfl, .inl rfl⟩
    | some h =>
      dsimp only
      cases liveHandle s h with
      | none => exact ⟨_, rfl, rfl, .inr ⟨_, rfl⟩⟩
      | some live => exact ⟨_, rfl, rfl, .inl rfl⟩

section

variable (hs : Sound sha initial s)
include hs

theorem Sound.started {i} (hread : i.read = [])
    (hstage : i.stage = .admitted ∨ ∃ e, i.stage = .finished none (.error e)) :
    Sound sha initial { s with ingests := s.ingests ++ [i] } := by
  have hfile : i.stage.file = none := by
    rcases hstage with h | ⟨e, h⟩ <;> rw [h] <;> rfl
  have hcases : ∀ (k : Nat) (j : Ingest D), (s.ingests ++ [i])[k]? = some j → s.ingests[k]? = some j ∨ j = i := by
    intro k j hj
    rcases Nat.lt_or_ge k s.ingests.length with hk | hk
    · rw [List.getElem?_append_left hk] at hj
      exact .inl hj
    · rw [List.getElem?_append_right hk] at hj
      exact .inr (by simpa using List.mem_of_getElem? hj)
  refine ⟨hs.named, hs.books, ?_, ?_, ?_⟩
  · intro k j hj
    rcases hcases k j hj with hj | rfl
    · exact hs.valid k j hj
    · rcases hstage with h | ⟨e, h⟩ <;> simp only [Valid, h]
      · exact hread
      · exact ⟨fun _ hok => (by cases hok), fun _ _ hname => (by cases hname)⟩
  · intro k j name hj hname
    rcases hcases k j hj with hj | rfl
    · exact hs.taken k j name hj hname
    · rw [hfile] at hname
      cases hname
  · intro k₁ k₂ j₁ j₂ name hj₁ hj₂ hname₁ hname₂
    rcases hcases k₁ j₁ hj₁ with hj₁ | rfl
    · rcases hcases k₂ j₂ hj₂ with hj₂ | rfl
      · exact hs.apart k₁ k₂ j₁ j₂ name hj₁ hj₂ hname₁ hname₂
      · rw [hfile] at hname₂
        cases hname₂
    · rw [hfile] at hname₁
      cases hname₁

theorem Sound.startIngest (expected) (handle : Option Nat) :
    Sound sha initial (startIngest cfg expected handle s) := by
  obtain ⟨i, heq, hread, hstage⟩ := startIngest_eq cfg s expected handle
  rw [heq]
  exact hs.started hread hstage

theorem Sound.next (event) : Sound sha initial (next sha cfg event s) := by
  cases event with
  | ingest expected handle => exact hs.startIngest expected handle
  | step k event =>
    unfold Content.next
    dsimp only
    cases hi : s.ingests[k]? with
    | none => exact hs
    | some i => exact hs.move hi (moves_advance hs (hs.valid k i hi) event)
  | createLease =>
    have hnamed : Named sha initial s.store.createLease.2 := hs.named.of_blobs rfl
    exact hs.call hnamed hs.books.createLease _
  | add h digest =>
    unfold Content.next
    dsimp only
    split
    · exact hs
    · rename_i live _
      have hnamed : Named sha initial (s.store.addToLease live.id digest).2 := hs.named.of_blobs Store.addToLease_blobs
      have hbooks : (s.store.addToLease live.id digest).2.Books := hs.books.addToLease
      revert hnamed hbooks
      rcases s.store.addToLease live.id digest with ⟨_ | _, store⟩ <;> exact fun hnamed hbooks =>
        hs.call hnamed hbooks _
  | remove h digest =>
    unfold Content.next
    dsimp only
    split
    · exact hs
    · rename_i live _
      have hnamed : Named sha initial (s.store.removeFromLease live.id digest).2 :=
        hs.named.of_blobs Store.removeFromLease_blobs
      have hbooks : (s.store.removeFromLease live.id digest).2.Books := hs.books.removeFromLease
      revert hnamed hbooks
      rcases s.store.removeFromLease live.id digest with ⟨_ | _, store⟩ <;> exact fun hnamed hbooks =>
        hs.call hnamed hbooks _
  | release h =>
    unfold Content.next
    dsimp only
    split
    · exact hs
    · rename_i live _
      have hnamed : Named sha initial (s.store.releaseLease live.id) := hs.named.of_blobs rfl
      exact hs.call hnamed hs.books.releaseLease _
  | pin name digest => exact hs.call (hs.named.of_blobs Store.pin_blobs) hs.books.pin _
  | unpin name digest => exact hs.call (hs.named.of_blobs Store.unpin_blobs) hs.books.unpin _
  | collect roots dryRun stop =>
    exact hs.call (hs.named.collect roots dryRun stop) (hs.books.collect roots dryRun stop) _

theorem Sound.run (events) : Sound sha initial (after (Content.next sha cfg) s events) := by
  induction events generalizing s with
  | nil => exact hs
  | cons event events ih => exact ih (hs.next event)

end

theorem start_sound (hnamed : Named sha initial store) (hbooks : store.Books)
    (temporary) : Sound sha initial (System.start store temporary) :=
  ⟨hnamed, hbooks, fun _ _ h => by simp [System.start] at h, fun _ _ _ h => by simp [System.start] at h,
    fun _ _ _ _ _ h => by simp [System.start] at h⟩

end Invariant

/-! ## What a failed ingest leaves -/

section Residue

/-- The result of an ingest, once it is known. -/
def Stage.result {D : Type} : Stage D → Option (Except (StoreError D) (BlobDescriptor D))
  | .leaving _ result | .finished _ result => some result
  | _ => none

variable {D : Type} [DecidableEq D] {sha : List U8 → D} {cfg : StoreConfig} {s : System D} {i : Ingest D} {k : Nat}
  {r : Except (StoreError D) (BlobDescriptor D)}

theorem readChunk_frame (file chunk) :
    (readChunk sha cfg file chunk i s).1.store = s.store ∧
    (readChunk sha cfg file chunk i s).1.ingests = s.ingests := by
  unfold readChunk
  dsimp only
  split
  · split <;> exact ⟨rfl, rfl⟩
  · split
    · exact ⟨rfl, rfl⟩
    · split
      · split <;> exact ⟨rfl, rfl⟩
      · split <;> exact ⟨rfl, rfl⟩

theorem commitChecked_ingests (file descriptor faults) :
    (commitChecked sha cfg file descriptor faults i s).1.ingests = s.ingests := by
  unfold commitChecked
  dsimp only
  split <;> rfl

theorem advance_ingests (event) : (advance sha cfg event i s).1.ingests = s.ingests := by
  unfold advance
  split
  · rfl
  · exact (readChunk_frame _ _).2
  · rfl
  · rfl
  · exact commitChecked_ingests _ _ _
  · rfl
  · rfl

theorem advance_result (h : i.stage.result = some r) (event) :
    (advance sha cfg event i s).2.stage.result = some r := by
  unfold advance
  split <;> rename_i hstage
  case h_6 =>
    rw [hstage] at h
    exact h
  case h_7 => exact h
  all_goals
    rw [hstage] at h
    cases h

variable (sha cfg s i) in
theorem advance_store (event) : (advance sha cfg event i s).1.store = s.store ∨
    ∃ result, (advance sha cfg event i s).2.stage.result = some result ∧
      ∀ e, result = .error e → e = .io .filesystem := by
  unfold advance
  split
  · exact .inl rfl
  · exact .inl (readChunk_frame _ _).1
  · exact .inl rfl
  · exact .inl rfl
  · rename_i file descriptor faults _
    unfold commitChecked
    have hcases := Store.commitTemporary_cases sha cfg s.store faults (s.temporary.lookup file) descriptor i.lease
    generalize s.store.commitTemporary sha cfg faults (s.temporary.lookup file) descriptor i.lease = c at hcases
    cases hcases with
    | refused e => exact .inl rfl
    | found bytes blob size digest leased => exact .inr ⟨_, rfl, fun _ h => by cases h⟩
    | unsynced bytes blob content room => exact .inr ⟨_, rfl, fun _ h => by cases h; rfl⟩
    | filed bytes blob content room leased => exact .inr ⟨_, rfl, fun _ h => by cases h⟩
  · exact .inl rfl
  · exact .inl rfl

variable (sha cfg) in
theorem next_step (hi : s.ingests[k]? = some i) (event) :
    (next sha cfg (.step k event) s).store = (advance sha cfg event i s).1.store ∧
      (next sha cfg (.step k event) s).ingests = s.ingests.set k (advance sha cfg event i s).2 ∧
      (next sha cfg (.step k event) s).handles = (advance sha cfg event i s).1.handles := by
  unfold next
  dsimp only
  rw [hi]
  dsimp only
  exact ⟨rfl, by rw [advance_ingests], rfl⟩

/-- What an event does to the ingests: it starts one, moves one, or leaves them. -/
inductive NextIngests (sha : List U8 → D) (cfg : StoreConfig) (s : System D) : Event D → List (Ingest D) → Prop where
  | starts (expected handle i) : i.read = [] → (i.stage = .admitted ∨ ∃ e, i.stage = .finished none (.error e)) →
    NextIngests sha cfg s (.ingest expected handle) (s.ingests ++ [i])
  | moves (k event i) : s.ingests[k]? = some i →
    NextIngests sha cfg s (.step k event) (s.ingests.set k (advance sha cfg event i s).2)
  | leaves (event) : (∀ k e, event = .step k e → s.ingests[k]? = none) → NextIngests sha cfg s event s.ingests

variable (sha cfg s) in
theorem next_ingests (event) : NextIngests sha cfg s event (next sha cfg event s).ingests := by
  cases event with
  | ingest expected handle =>
    obtain ⟨i, heq, hread, hstage⟩ := startIngest_eq cfg s expected handle
    unfold next
    dsimp only
    rw [heq]
    exact .starts expected handle i hread hstage
  | step k event =>
    cases hi : s.ingests[k]? with
    | none =>
      unfold next
      dsimp only
      rw [hi]
      exact .leaves _ fun k' e h => by cases h; exact hi
    | some i =>
      rw [(next_step sha cfg hi event).2.1]
      exact .moves k event i hi
  | createLease => exact .leaves _ fun _ _ h => by cases h
  | add h' digest =>
    unfold next
    dsimp only
    split
    · exact .leaves _ fun _ _ h => by cases h
    · split <;> exact .leaves _ fun _ _ h => by cases h
  | remove h' digest =>
    unfold next
    dsimp only
    split
    · exact .leaves _ fun _ _ h => by cases h
    · split <;> exact .leaves _ fun _ _ h => by cases h
  | release h' =>
    unfold next
    dsimp only
    split <;> exact .leaves _ fun _ _ h => by cases h
  | pin name digest => exact .leaves _ fun _ _ h => by cases h
  | unpin name digest => exact .leaves _ fun _ _ h => by cases h
  | collect roots dryRun stop => exact .leaves _ fun _ _ h => by cases h

variable (sha cfg) in
theorem next_result (hi : s.ingests[k]? = some i) (h : i.stage.result = some r) (event) :
    ∃ i', (next sha cfg event s).ingests[k]? = some i' ∧ i'.stage.result = some r := by
  have hk : k < s.ingests.length := (List.getElem?_eq_some_iff.mp hi).1
  have hnext := next_ingests sha cfg s event
  generalize (next sha cfg event s).ingests = ingests at hnext
  cases hnext with
  | starts expected handle j _ _ => exact ⟨i, by rw [List.getElem?_append_left hk, hi], h⟩
  | leaves _ _ => exact ⟨i, hi, h⟩
  | moves k' event j hj =>
    rw [List.getElem?_set]
    by_cases heq : k' = k
    · subst heq
      rw [if_pos rfl, if_pos hk]
      obtain rfl : i = j := Option.some_inj.mp (hi.symm.trans hj)
      exact ⟨_, rfl, advance_result h event⟩
    · rw [if_neg heq]
      exact ⟨i, hi, h⟩

variable (sha cfg) in
theorem after_result (hi : s.ingests[k]? = some i) (h : i.stage.result = some r) (events) :
    ∃ i', (after (next sha cfg) s events).ingests[k]? = some i' ∧ i'.stage.result = some r := by
  induction events generalizing s i with
  | nil => exact ⟨i, hi, h⟩
  | cons event events ih =>
    obtain ⟨i', hi', h'⟩ := next_result sha cfg hi h event
    exact ih hi' h'

theorem step_store_of_error {event later file} {e : StoreError D}
    (hi : (after (next sha cfg) (next sha cfg (.step k event) s) later).ingests[k]? = some i)
    (hstage : i.stage = .finished file (.error e)) (he : e ≠ .io .filesystem) :
    (next sha cfg (.step k event) s).store = s.store := by
  cases hj : s.ingests[k]? with
  | none =>
    unfold next
    dsimp only
    rw [hj]
  | some j =>
    have hk : k < s.ingests.length := (List.getElem?_eq_some_iff.mp hj).1
    obtain ⟨hstore, hingests, -⟩ := next_step sha cfg hj event
    rw [hstore]
    rcases advance_store sha cfg s j event with h | ⟨result, hresult, hfs⟩
    · exact h
    · -- the result it got then is the one it has now
      have hmoved : (next sha cfg (.step k event) s).ingests[k]? = some (advance sha cfg event j s).2 := by
        rw [hingests, List.getElem?_set, if_pos rfl, if_pos hk]
      obtain ⟨i', hi', h'⟩ := after_result sha cfg hmoved hresult later
      obtain rfl : i' = i := Option.some_inj.mp (hi'.symm.trans hi)
      rw [hstage] at h'
      exact absurd (hfs e (Option.some_inj.mp h').symm) he

theorem startIngest_store (expected) (handle : Option Nat) (s : System D) :
    (startIngest cfg expected handle s).store = s.store := by
  obtain ⟨i, heq, -, -⟩ := startIngest_eq cfg s expected handle
  rw [heq]

end Residue

/-! ## What the reader of an ingest answered -/

section Reader

variable {D : Type} [DecidableEq D] (sha : List U8 → D) (cfg : StoreConfig)

/-- The answer that an event gives to the copy loop of an ingest. -/
def heard (k : Nat) (event : Event D) (s : System D) : List Chunk :=
  match event, s.ingests[k]?.map Ingest.stage with
  | .step k' (.read chunk), some (.reading _) => if k' = k then [chunk] else []
  | _, _ => []

/-- All the answers of a run, in order. -/
def answers (k : Nat) : System D → List (Event D) → List Chunk
  | _, [] => []
  | s, event :: events => heard k event s ++ answers k (next sha cfg event s) events

/-- The bytes of some answers, each cut to the buffer and all of them to a limit. -/
def bytesOf (limit : Nat) (chunks : List Chunk) : List U8 :=
  chunks.foldl (fun got chunk =>
    match chunk with
    | .bytes bytes => got ++ bytes.take (min BUFFER_SIZE (limit - got.length))
    | .error => got) []

/-- All that the reader gave was read: its last answer was its end, unless the limit was reached before. -/
structure ReadWhole (cfg : StoreConfig) (i : Ingest D) (chunks : List Chunk) : Prop where
  read : i.read = bytesOf (readLimit cfg i.expected) chunks
  ended : chunks.getLast? = some (.bytes []) ∨ i.read.length = readLimit cfg i.expected

/-- What an ingest has read at its stage. -/
def Heard (i : Ingest D) (chunks : List Chunk) : Prop :=
  match i.stage with
  | .admitted => i.read = [] ∧ chunks = []
  | .reading _ => i.read = bytesOf (readLimit cfg i.expected) chunks
  | .checked _ _ | .leaving _ (.ok _) | .finished _ (.ok _) => ReadWhole cfg i chunks
  | .leaving _ (.error _) | .finished _ (.error _) => True

def HeardAt (s : System D) (k : Nat) (chunks : List Chunk) : Prop :=
  match s.ingests[k]? with
  | none => chunks = []
  | some i => Heard cfg i chunks

variable {sha cfg} {s : System D} {i : Ingest D} {k : Nat} {chunks : List Chunk}

theorem bytesOf_concat (limit chunks bytes) : bytesOf limit (chunks ++ [.bytes bytes]) =
    bytesOf limit chunks ++ bytes.take (min BUFFER_SIZE (limit - (bytesOf limit chunks).length)) := by
  simp [bytesOf]

theorem bytesOf_error (limit chunks) : bytesOf limit (chunks ++ [.error]) = bytesOf limit chunks := by
  simp [bytesOf]

theorem bytesOf_length (limit chunks) : (bytesOf limit chunks).length ≤ limit := by
  induction chunks using List.reverseRecOn with
  | nil => exact Nat.zero_le _
  | append_singleton chunks chunk ih =>
    cases chunk with
    | error => rwa [bytesOf_error]
    | bytes bytes =>
      rw [bytesOf_concat, List.length_append, List.length_take]
      omega

/-- At the limit nothing more is taken. -/
theorem bytesOf_full {limit} (h : limit - (bytesOf limit chunks).length = 0) (chunk) :
    bytesOf limit (chunks ++ [chunk]) = bytesOf limit chunks := by
  cases chunk with
  | error => exact bytesOf_error limit chunks
  | bytes bytes => rw [bytesOf_concat, h, Nat.min_zero, List.take_zero, List.append_nil]

omit [DecidableEq D] in
theorem Heard.start (hread : i.read = []) (hstage : i.stage = .admitted ∨ ∃ e, i.stage = .finished none (.error e)) :
    Heard cfg i [] := by
  rcases hstage with h | ⟨e, h⟩
  · simp only [Heard, h]
    exact ⟨hread, trivial⟩
  · simp only [Heard, h]

/-- A round of the copy loop takes the reader's answer into account as a whole, or ends at it. -/
theorem Heard.readChunk {file} (hstage : i.stage = .reading file) (h : Heard cfg i chunks) (chunk) :
    Heard cfg (readChunk sha cfg file chunk i s).2 (chunks ++ [chunk]) := by
  have hread : i.read = bytesOf (readLimit cfg i.expected) chunks := by simpa only [Heard, hstage] using h
  have hfinish (hwhole : ReadWhole cfg i (chunks ++ [chunk])) : Heard cfg (match checkRead sha i.expected i.read with
      | .error e => (s, { i with stage := .leaving file (.error e) })
      | .ok descriptor => (s, { i with stage := .checked file descriptor })).2 (chunks ++ [chunk]) := by
    cases checkRead sha i.expected i.read with
    | error e => trivial
    | ok descriptor => exact ⟨hwhole.read, hwhole.ended⟩
  unfold Content.readChunk
  dsimp only
  split
  next hfull =>
    have hle := bytesOf_length (readLimit cfg i.expected) chunks
    rw [hread] at hfull
    refine hfinish ⟨?_, .inr ?_⟩
    · rw [bytesOf_full hfull, hread]
    · rw [hread]
      omega
  next hroom =>
    cases chunk with
    | error => trivial
    | bytes bytes =>
      have hmore : bytesOf (readLimit cfg i.expected) (chunks ++ [.bytes bytes]) =
          i.read ++ bytes.take (min BUFFER_SIZE (readLimit cfg i.expected - i.read.length)) := by
        rw [bytesOf_concat, ← hread]
      dsimp only
      split
      next hend =>
        refine hfinish ⟨by rw [hmore, hend, List.append_nil], .inl ?_⟩
        have hbuffer : 0 < BUFFER_SIZE := by decide
        rcases List.take_eq_nil_iff.mp hend with hzero | rfl
        · omega
        · exact List.getLast?_concat
      · split
        · trivial
        · simp only [Heard, hstage]
          exact hmore.symm

theorem Heard.advance (h : Heard cfg i chunks) (hi : s.ingests[k]? = some i) (event) :
    Heard cfg (advance sha cfg event i s).2 (chunks ++ heard k (.step k event) s) := by
  have hidle (hother : heard k (.step k event) s = []) : Heard cfg i (chunks ++ heard k (.step k event) s) := by
    rwa [hother, List.append_nil]
  cases hstage : i.stage with
  | admitted =>
    have hnone : heard k (.step k event) s = [] := by cases event <;> simp [heard, hi, hstage]
    obtain ⟨hread, rfl⟩ : i.read = [] ∧ chunks = [] := by simpa only [Heard, hstage] using h
    cases event with
    | create stamps permissionsFail =>
      simp only [Content.advance, hstage, hnone]
      rcases createTemporaryFile (stamps.take 128) s.temporary s.nextTempId with ⟨_ | file, files, next⟩
      · trivial
      · cases permissionsFail with
        | true => trivial
        | false => exact hread
    | _ => simpa only [Content.advance, hstage] using hidle hnone
  | reading file =>
    cases event with
    | read chunk =>
      simp only [Content.advance, hstage, heard, hi, Option.map_some, if_pos]
      exact h.readChunk hstage chunk
    | fail =>
      simp only [Content.advance, hstage]
      trivial
    | _ =>
      simp only [Content.advance, hstage]
      exact hidle rfl
  | checked file descriptor =>
    have hnone : heard k (.step k event) s = [] := by cases event <;> simp [heard, hi, hstage]
    have hwhole : ReadWhole cfg i chunks := by simpa only [Heard, hstage] using h
    cases event with
    | commit faults =>
      simp only [Content.advance, hstage, hnone, List.append_nil, commitChecked]
      split
      · trivial
      · exact ⟨hwhole.read, hwhole.ended⟩
    | fail =>
      simp only [Content.advance, hstage]
      trivial
    | _ => simpa only [Content.advance, hstage] using hidle hnone
  | leaving file result =>
    have hnone : heard k (.step k event) s = [] := by cases event <;> simp [heard, hi, hstage]
    cases event with
    | finish =>
      simp only [Content.advance, hstage, hnone, List.append_nil]
      cases result with
      | error e => trivial
      | ok descriptor =>
        have hwhole : ReadWhole cfg i chunks := by simpa only [Heard, hstage] using h
        exact ⟨hwhole.read, hwhole.ended⟩
    | _ => simpa only [Content.advance, hstage] using hidle hnone
  | finished file result =>
    have hnone : heard k (.step k event) s = [] := by cases event <;> simp [heard, hi, hstage]
    cases event <;> simpa only [Content.advance, hstage] using hidle hnone

omit [DecidableEq D] in
theorem heard_other {event} (h : ∀ e, event = .step k e → s.ingests[k]? = none) : heard k event s = [] := by
  unfold heard
  split
  next k' chunk file _ hstage =>
    split
    next heq =>
      subst heq
      rw [h _ rfl] at hstage
      cases hstage
    · rfl
  · rfl

theorem HeardAt.next (h : HeardAt cfg s k chunks) (event) :
    HeardAt cfg (next sha cfg event s) k (chunks ++ heard k event s) := by
  have hnext := next_ingests sha cfg s event
  unfold HeardAt at h ⊢
  generalize (Content.next sha cfg event s).ingests = ingests at hnext
  cases hnext with
  | starts expected handle j hread hstage =>
    rw [heard_other (by rintro e ⟨⟩), List.append_nil]
    rcases Nat.lt_trichotomy k s.ingests.length with hk | rfl | hk
    · rwa [List.getElem?_append_left hk]
    · rw [List.getElem?_eq_none (Nat.le_refl _)] at h
      rw [List.getElem?_concat_length, h]
      exact .start hread hstage
    · rw [List.getElem?_eq_none (Nat.le_of_lt hk)] at h
      rw [List.getElem?_eq_none (by rw [List.length_append]; exact hk)]
      exact h
  | leaves _ hother => rwa [heard_other (hother k), List.append_nil]
  | moves k' event j hj =>
    by_cases heq : k' = k
    · subst heq
      rw [hj] at h
      rw [List.getElem?_set_self (List.getElem?_eq_some_iff.mp hj).1]
      exact h.advance hj event
    · rw [List.getElem?_set_ne heq, heard_other (by rintro e ⟨⟩; exact absurd rfl heq), List.append_nil]
      exact h

theorem HeardAt.run (h : HeardAt cfg s k chunks) (events) :
    HeardAt cfg (after (Content.next sha cfg) s events) k (chunks ++ answers sha cfg k s events) := by
  induction events generalizing s chunks with
  | nil => rwa [answers, List.append_nil]
  | cons event events ih =>
    rw [answers, ← List.append_assoc]
    exact ih (h.next event)

end Reader

/-- The events of one ingest: its start and its steps. -/
def Event.Of {D : Type} (event : Event D) (k : Nat) (s : System D) : Prop :=
  match event with
  | .ingest _ _ => s.ingests.length = k
  | .step k' _ => k' = k
  | _ => False

/-- In every state of every run the sizes and the total the quota is charged with are those of the blobs there. -/
theorem committed_bytes_exact {D : Type} [DecidableEq D] (sha : List U8 → D) (cfg : StoreConfig)
    (blobs : Table D (List U8)) (pins : List (String × D)) (store : Store D)
    (hopen : Store.open blobs pins = some store)
    (temporary : Table Temporary (List U8)) (events : List (Event D)) :
    (after (next sha cfg) (System.start store temporary) events).store.Books := by
  obtain ⟨hbooks, hblobs, -, -⟩ := Store.open_books hopen
  have hstart : Sound sha blobs (System.start store temporary) :=
    start_sound (fun digest bytes h => .inr (hblobs ▸ h)) hbooks temporary
  exact (hstart.run events).books

def emptyStore : Store (List U8) := ⟨∅, [], 0, ∅, ∅, 0⟩

/-- Two ingests at once: two bytes in two chunks, and one byte that is not the expected one. -/
def twoIngests : List (Event (List U8)) :=
  [.ingest none none, .ingest (some ⟨[9], 1⟩) none, .step 0 (.create [0] false), .step 1 (.create [0] false),
    .step 0 (.read (.bytes [1])), .step 1 (.read (.bytes [7])), .step 1 (.read (.bytes [])),
      .step 0 (.read (.bytes [2])),
    .step 0 (.read (.bytes [])), .step 1 .finish, .step 0 (.commit ⟨false, false⟩), .step 0 .finish]

theorem two_ingests_counted : (after (next id .new) (System.start emptyStore ∅) twoIngests).store.Books :=
  committed_bytes_exact id .new ∅ [] emptyStore rfl ∅ twoIngests

end Rish.Content
