/-
  Rish.SoftVm.Virtio.Transfer — the data of block requests.

  A request moves the bytes of its data descriptors, one after the other, to or from consecutive bytes
  of the disk, each descriptor in pieces of at most 64 KiB. A disk is any backend whose answers are
  those of one byte store.
-/

import Rish.SoftVm.Virtio.Completion

namespace Rish.SoftVm.Virtio

open Lib List
open Keeps (run)
open BitVec (ofNat)
open Exec (bind_eq_ok view_bind bind_ok)

namespace VirtioMmioBlk

/-! ## Pieces -/

/-- Consecutive pieces from one place to another. -/
inductive Tiles : Nat → Nat → List (Nat × Nat) → Prop where
  | nil (n : Nat) : Tiles n n []
  | cons {done step n : Nat} {rest : List (Nat × Nat)} : Tiles (done + step) n rest →
    Tiles done n ((done, step) :: rest)

variable {pieces : List (Nat × Nat)}

theorem Tiles.le {done n} (h : Tiles done n pieces) : done ≤ n := by
  induction h with
  | nil => exact Nat.le_refl _
  | cons _ ih => omega

theorem chunks_tile_from (length k count)
    (hcount : k + count = (length + (TRANSFER_CHUNK_BYTES - 1)) / TRANSFER_CHUNK_BYTES) :
    Tiles (min (k * TRANSFER_CHUNK_BYTES) length) length ((List.range' k count).map fun k =>
      (k * TRANSFER_CHUNK_BYTES, min TRANSFER_CHUNK_BYTES (length - k * TRANSFER_CHUNK_BYTES))) := by
  unfold TRANSFER_CHUNK_BYTES at *
  induction count generalizing k with
  | zero =>
    rw [Nat.min_eq_right (by omega)]
    exact .nil _
  | succ count ih =>
    have hrest := ih (k + 1) (by omega)
    have hplace : min (k * (64 * 1024)) length = k * (64 * 1024) := by omega
    rw [List.range'_succ, map_cons, hplace]
    refine .cons ?_
    rwa [show k * (64 * 1024) + min (64 * 1024) (length - k * (64 * 1024)) =
      min ((k + 1) * (64 * 1024)) length by omega]

theorem chunks_tile (length) : Tiles 0 length (chunks length) := by
  have h := chunks_tile_from length 0 _ (Nat.zero_add _)
  rwa [Nat.zero_mul, Nat.zero_min, ← range_eq_range'] at h

theorem forEach_tiles {σ : Type} {body} {I : Nat → σ × DeviceMemory → Prop} {done total : Nat}
    (hbody : ∀ done step s t n, done + step ≤ total → I done s → body (done, step) s = ⟨.ok (), t, n⟩ →
      I (done + step) t) (htile : Tiles done total pieces) {s s'} {n : Nat}
    (hs : I done s) (h : forEach body pieces s = ⟨.ok (), s', n⟩) : I total s' := by
  induction htile generalizing s n with
  | nil => cases h; exact hs
  | cons hrest ih =>
    rw [forEach] at h
    obtain ⟨⟨⟩, t, m, k, hrun, hloop, -⟩ := bind_eq_ok h
    exact ih hbody (hbody _ _ _ _ _ hrest.le hs hrun) hloop

/-! ## Disks -/

/-- A backend that answers as one byte store does: a read that succeeds gives what is there, a write that
    succeeds changes the bytes written and no others. What a failed write leaves is open. -/
structure IsDisk (b : BlockBackend) (contents : List BlockCall → Bytes) : Prop where
  read : ∀ history offset n f, b.readReply history offset n = some f → ∀ i, f i = contents history (offset.toNat + i)
  readKeeps : ∀ history offset n, contents (history ++ [.readAt offset n]) = contents history
  write : ∀ history offset input, b.writeReply history offset input = true →
    contents (history ++ [.writeAt offset input]) = writeBytes (contents history) offset.toNat input

variable {contents : List BlockCall → Bytes} {s s' : BlkState} {n : Nat}

def onDisk (contents : List BlockCall → Bytes) (s : BlkState) : Bytes :=
  contents s.1.backend.history

theorem IsDisk.of_onlyData (h : IsDisk s.1.backend contents) (hdata : OnlyData s s') :
    IsDisk s'.1.backend contents := by
  rw [hdata.device]
  exact ⟨h.read, h.readKeeps, h.write⟩

theorem backendRead_ok (hdisk : IsDisk s.1.backend contents) {place length bytes}
    (hplace : place + length < 2 ^ 64) (h : backendRead (ofNat 64 place) length s = ⟨.ok bytes, s', n⟩) :
    bytes = readBytes (onDisk contents s) place length ∧ onDisk contents s' = onDisk contents s ∧ s'.2 = s.2 := by
  simp only [backendRead, view_bind, Exec.update_bind] at h
  rcases hreply : s.1.backend.readReply s.1.backend.history (ofNat 64 place) length with _ | f
  · rw [hreply] at h
    cases h
  · rw [hreply] at h
    cases h
    refine ⟨?_, hdisk.readKeeps _ _ _, rfl⟩
    have hread := hdisk.read _ _ _ _ hreply
    rw [ofNat_toNat_of_lt (by omega)] at hread
    exact map_congr_left fun i _ => hread i

theorem backendWrite_ok (hdisk : IsDisk s.1.backend contents) {place input}
    (hplace : place < 2 ^ 64) (h : backendWrite (ofNat 64 place) input s = ⟨.ok (), s', n⟩) :
    onDisk contents s' = writeBytes (onDisk contents s) place input ∧ s'.2 = s.2 := by
  simp only [backendWrite, view_bind, Exec.update_bind] at h
  cases hreply : s.1.backend.writeReply s.1.backend.history (ofNat 64 place) input with
  | false =>
    rw [hreply] at h
    cases h
  | true =>
    rw [hreply] at h
    cases h
    refine ⟨?_, rfl⟩
    have hwrite := hdisk.write _ _ _ hreply
    rwa [ofNat_toNat_of_lt hplace] at hwrite

/-! ## To the disk -/

theorem writePieces_ok {d : QueueDescriptor} {base : Nat} (hdisk : IsDisk s.1.backend contents)
    (hram : d.address.toNat + d.length.toNat ≤ s.2.ram.len.toNat) (hbase : base + d.length.toNat < 2 ^ 64)
    (h : forEach (fun (done, step) => do
      let buffer ← readMemory (← offset d.address (ofNat 64 done)) step
      backendWrite (ofNat 64 (base + done)) buffer) (chunks d.length.toNat) s = ⟨.ok (), s', n⟩) :
    onDisk contents s' = writeBytes (onDisk contents s) base (readBytes s.2.ram.bytes d.address.toNat d.length.toNat) ∧
      s'.2 = s.2 := by
  refine (forEach_tiles (I := fun done t => IsDisk t.1.backend contents ∧ onDisk contents t =
    writeBytes (onDisk contents s) base (readBytes s.2.ram.bytes d.address.toNat done) ∧ t.2 = s.2) ?_ (chunks_tile _)
    ⟨hdisk, (writeBytes_nil _ _).symm, rfl⟩ h).2
  rintro done step t u m hle ⟨hdisk, hcontents, hmem⟩ hbody
  have hdata : OnlyData t u := run (R := OnlyData) hbody
  simp only at hbody
  rw [offset_ok (by omega), pure_bind, bind_ok (readMemory_ok (by rw [ofNat_toNat_of_lt (by omega), hmem]; omega)),
    ofNat_toNat_of_lt (by omega)] at hbody
  obtain ⟨hcontents', hmem'⟩ := backendWrite_ok hdisk (by omega) (Run.of_after hbody)
  refine ⟨hdisk.of_onlyData hdata, ?_, hmem'.trans hmem⟩
  rw [hcontents', hcontents, hmem, readBytes_add, writeBytes_append, Ram.load, readBytes_length]

/-- The bytes of the buffers of a chain, in chain order. -/
def dataBytes (r : Ram) (data : List QueueDescriptor) : List U8 :=
  data.flatMap fun d => readBytes r.bytes d.address.toNat d.length.toNat

theorem dataBytes_length (r data) : (dataBytes r data).length = totalBytes data := by
  simp [dataBytes, totalBytes, length_flatMap]

theorem dataBytes_cons (r d data) :
    dataBytes r (d :: data) = readBytes r.bytes d.address.toNat d.length.toNat ++ dataBytes r data := rfl

theorem totalBytes_cons (d data) :
    totalBytes (d :: data) = d.length.toNat + totalBytes data := by
  simp [totalBytes]

variable {data : List QueueDescriptor} {start : Nat} {from_ ram : Bytes}

theorem copyToBackend_ok (hdisk : IsDisk s.1.backend contents)
    (hram : InRam s.2.ram.len data) (hstart : start + totalBytes data < 2 ^ 64)
    (h : copyToBackend data start s = ⟨.ok (), s', n⟩) :
    onDisk contents s' = writeBytes (onDisk contents s) start (dataBytes s.2.ram data) ∧ s'.2 = s.2 := by
  unfold copyToBackend at h
  induction data generalizing start s n with
  | nil =>
    cases h
    exact ⟨(writeBytes_nil _ _).symm, rfl⟩
  | cons d data ih =>
    rw [totalBytes_cons] at hstart
    rw [segmentOffsets, forEach] at h
    obtain ⟨⟨⟩, t, m, k, hsegment, hloop, -⟩ := bind_eq_ok h
    simp only at hsegment
    have hdata : OnlyData s t := run (R := OnlyData) hsegment
    obtain ⟨hcontents, hmem⟩ := writePieces_ok hdisk (hram d (mem_cons_self ..)) (by omega) hsegment
    obtain ⟨hcontents', hmem'⟩ := ih (hdisk.of_onlyData hdata)
      (fun e he => hmem ▸ hram e (mem_cons_of_mem _ he)) (by omega) hloop
    refine ⟨?_, hmem'.trans hmem⟩
    rw [hcontents', hcontents, hmem, dataBytes_cons, writeBytes_append, readBytes_length]

/-! ## From the disk -/

theorem readPieces_ok {d : QueueDescriptor} {base : Nat} (hdisk : IsDisk s.1.backend contents)
    (hram : d.address.toNat + d.length.toNat ≤ s.2.ram.len.toNat) (hbase : base + d.length.toNat < 2 ^ 64)
    (h : forEach (fun (done, step) => do
      let buffer ← backendRead (ofNat 64 (base + done)) step
      writeMemory (← offset d.address (ofNat 64 done)) buffer) (chunks d.length.toNat) s = ⟨.ok (), s', n⟩) :
    s'.2.ram.bytes = writeBytes s.2.ram.bytes d.address.toNat (readBytes (onDisk contents s) base d.length.toNat) ∧
      onDisk contents s' = onDisk contents s := by
  refine (forEach_tiles (I := fun done t => (IsDisk t.1.backend contents ∧ t.2.ram.len = s.2.ram.len) ∧
    t.2.ram.bytes = writeBytes s.2.ram.bytes d.address.toNat (readBytes (onDisk contents s) base done) ∧
    onDisk contents t = onDisk contents s) ?_ (chunks_tile _) ⟨⟨hdisk, rfl⟩, (writeBytes_nil _ _).symm, rfl⟩ h).2
  rintro done step t u m hle ⟨⟨hdisk, hram'⟩, hbytes, hsame⟩ hbody
  have hdata : OnlyData t u := run (R := OnlyData) hbody
  obtain ⟨buffer, v, m', k', hread, hwrite, -⟩ := bind_eq_ok hbody
  obtain ⟨hbuffer, hsame', hmem⟩ := backendRead_ok hdisk (by omega) hread
  have hlength : buffer.length = step := by rw [hbuffer, readBytes_length]
  rw [offset_ok (by omega), pure_bind,
    writeMemory_ok (by rw [ofNat_toNat_of_lt (by omega), hlength, hmem, hram']; omega),
      ofNat_toNat_of_lt (by omega)] at hwrite
  cases hwrite
  refine ⟨⟨hdisk.of_onlyData hdata, hdata.len.trans hram'⟩, ?_, hsame'.trans hsame⟩
  rw [Ram.store_bytes, hmem, hbytes, hbuffer, hsame, readBytes_add, writeBytes_append, readBytes_length]

/-- RAM with the buffers of a chain filled, in chain order, from consecutive bytes of a store. -/
def fill (from_ : Bytes) : Nat → List QueueDescriptor → Bytes → Bytes
  | _, [], ram => ram
  | start, d :: data, ram =>
    fill from_ (start + d.length.toNat) data (writeBytes ram d.address.toNat (readBytes from_ start d.length.toNat))

theorem copyFromBackend_ok (hdisk : IsDisk s.1.backend contents)
    (hram : InRam s.2.ram.len data) (hstart : start + totalBytes data < 2 ^ 64)
    (h : copyFromBackend data start s = ⟨.ok (), s', n⟩) :
    s'.2.ram.bytes = fill (onDisk contents s) start data s.2.ram.bytes ∧ onDisk contents s' = onDisk contents s := by
  unfold copyFromBackend at h
  induction data generalizing start s n with
  | nil =>
    cases h
    exact ⟨rfl, rfl⟩
  | cons d data ih =>
    rw [totalBytes_cons] at hstart
    rw [segmentOffsets, forEach] at h
    obtain ⟨⟨⟩, t, m, k, hsegment, hloop, -⟩ := bind_eq_ok h
    simp only at hsegment
    have hdata : OnlyData s t := run (R := OnlyData) hsegment
    obtain ⟨hbytes, hsame⟩ := readPieces_ok hdisk (hram d (mem_cons_self ..)) (by omega) hsegment
    obtain ⟨hbytes', hsame'⟩ := ih (hdisk.of_onlyData hdata)
      (fun e he => hdata.len ▸ hram e (mem_cons_of_mem _ he)) (by omega) hloop
    exact ⟨by rw [hbytes', hbytes, hsame]; rfl, hsame'.trans hsame⟩

/-! ## Buffers that do not overlap -/

/-- The address lies in the buffer. -/
def Covers (d : QueueDescriptor) (a : Nat) : Prop := d.address.toNat ≤ a ∧ a < d.address.toNat + d.length.toNat

def Apart (d e : QueueDescriptor) : Prop := ∀ a, ¬(Covers d a ∧ Covers e a)

theorem fill_outside {start a} (h : ∀ d ∈ data, ¬Covers d a) : fill from_ start data ram a = ram a := by
  induction data generalizing start ram with
  | nil => rfl
  | cons d data ih =>
    rw [fill, ih fun e he => h e (mem_cons_of_mem _ he)]
    have hd := h d (mem_cons_self ..)
    unfold Covers at hd
    rcases Nat.lt_or_ge a d.address.toNat with hlt | hge
    · exact writeBytes_of_lt hlt
    · exact writeBytes_of_ge (by rw [readBytes_length]; omega)

theorem readBytes_fill (h : data.Pairwise Apart) :
    (data.flatMap fun d => readBytes (fill from_ start data ram) d.address.toNat d.length.toNat) =
      readBytes from_ start (totalBytes data) := by
  induction data generalizing start ram with
  | nil => rfl
  | cons d data ih =>
    obtain ⟨hd, hrest⟩ := pairwise_cons.mp h
    have hfirst (m : Bytes) : readBytes (fill from_ (start + d.length.toNat) data m) d.address.toNat d.length.toNat =
        readBytes m d.address.toNat d.length.toNat :=
      readBytes_congr fun a ha ha' => fill_outside fun e he hcovers => hd e he a ⟨⟨ha, ha'⟩, hcovers⟩
    have hself := readBytes_writeBytes_self ram d.address.toNat (readBytes from_ start d.length.toNat)
    rw [readBytes_length] at hself
    rw [flatMap_cons, totalBytes_cons, readBytes_add, fill, hfirst, hself, ih hrest]

/-! ## Requests -/

structure Requests (s : BlkState) (head : U16) (requestType : U32) (sector : U64)
    (data : List QueueDescriptor) (status : QueueDescriptor) : Prop where
  chain : ∃ header n, validatedChain s.1.queue head s = ⟨.ok (header :: (data ++ [status])), s, n⟩ ∧
    requestType = ofNat 32 (leNat ((s.2.ram.load header.address.toNat HEADER_BYTES).take 4)) ∧
    sector = ofNat 64 (leNat ((s.2.ram.load header.address.toNat HEADER_BYTES).drop 8))

def Succeeds (s s' : BlkState) (head : U16) (status : QueueDescriptor) : Prop :=
  (∃ length n, processRequest head s = ⟨.ok length, s', n⟩) ∧ s'.2.ram.bytes status.address.toNat = STATUS_BYTE_OK

variable {head : U16} {requestType : U32} {sector : U64} {data : List QueueDescriptor} {status : QueueDescriptor}

theorem Requests.inRam (h : Requests s head requestType sector data status) :
    InRam s.2.ram.len data ∧ status.address.toNat + status.length.toNat ≤ s.2.ram.len.toNat := by
  obtain ⟨header, n, hchain, -, -⟩ := h.chain
  have hram := validatedChain_returned (q := s.1.queue) head (congrArg Run.outcome hchain)
  exact ⟨fun d hd => hram d (mem_cons_of_mem _ (mem_append_left _ hd)),
    hram status (mem_cons_of_mem _ (mem_append_right _ (mem_singleton_self _)))⟩

variable {d : VirtioMmioBlk} {length : U32}

theorem processRequest_ok (hreq : Requests s head requestType sector data status)
    (h : processRequest head s = ⟨.ok length, s', n⟩) :
    (∃ k, serveRequest requestType sector data status s = ⟨.ok length, s', k⟩) ∧ 0 < status.length.toNat ∧
      (requestType = REQ_IN ∨ requestType = REQ_OUT → totalBytes data % SECTOR_SIZE = 0) := by
  obtain ⟨header, k, hchain, htype, hsector⟩ := hreq.chain
  have hram := validatedChain_returned (q := s.1.queue) head (congrArg Run.outcome hchain)
  rw [processRequest, view_bind, bind_ok hchain] at h
  simp only [getLast?_append, getLast?_singleton, Option.some_or, dropLast_concat] at h
  split at h
  · cases h
  split at h
  · cases h
  next hheader =>
  split at h
  · cases h
  next hstatus =>
  have hlen : header.address.toNat + HEADER_BYTES ≤ s.2.ram.len.toNat := by
    have hfits := hram header (mem_cons_self ..)
    omega
  rw [bind_ok (readMemory_ok hlen)] at h
  simp only [← htype, ← hsector] at h
  obtain ⟨⟨⟩, t, m, j, hdirections, hserve, -⟩ := bind_eq_ok (Run.of_after (Run.of_after h))
  obtain rfl : t = s := by
    have hkeeps : Keeps Unchanged (checkDirections requestType data) := by
      unfold checkDirections
      infer_instance
    exact hkeeps.run hdirections
  split at hserve
  · cases hserve
  next hwhole =>
  refine ⟨⟨j, hserve⟩, ?_, fun hkind => ?_⟩
  · omega
  · by_contra hodd
    exact hwhole ⟨hkind, hodd⟩

theorem completeWith_ok {byte : U8} {length'} (hstatus : status.address.toNat + 1 ≤ s.2.ram.len.toNat)
    (h : completeWith status byte length s = ⟨.ok length', s', n⟩) :
    s'.1 = s.1 ∧ s'.2.ram.bytes = writeBytes s.2.ram.bytes status.address.toNat [byte] := by
  rw [completeWith, writeStatus, bind_ok (writeMemory_ok hstatus)] at h
  cases h
  exact ⟨rfl, rfl⟩

theorem completeWith_byte {byte : U8} {length'} (hstatus : status.address.toNat + 1 ≤ s.2.ram.len.toNat)
    (h : completeWith status byte length s = ⟨.ok length', s', n⟩) : s'.2.ram.bytes status.address.toNat = byte := by
  rw [(completeWith_ok hstatus h).2]
  have hat : writeBytes s.2.ram.bytes status.address.toNat [byte] (status.address.toNat + 0) = [byte].getD 0 0 :=
    writeBytes_at (by simp)
  exact hat

def Sized (d : VirtioMmioBlk) : Prop := d.capacitySectors.toNat * SECTOR_SIZE = d.backend.length.toNat

theorem new_sized {backend} (h : new backend = .ok d) : Sized d := by
  unfold new at h
  split at h
  · cases h
  split at h
  · cases h
  next hwhole =>
    cases h
    have hlt : backend.length.toNat < 2 ^ 64 := backend.length.isLt
    have hdiv : backend.length.toNat / SECTOR_SIZE < 2 ^ 64 := Nat.lt_of_le_of_lt (Nat.div_le_self _ _) hlt
    have hmod : backend.length.toNat % SECTOR_SIZE = 0 := not_not.mp hwhole
    change (ofNat 64 (backend.length.toNat / SECTOR_SIZE)).toNat * SECTOR_SIZE = backend.length.toNat
    rw [ofNat_toNat_of_lt hdiv]
    exact Nat.div_mul_cancel (Nat.dvd_of_mod_eq_zero hmod)

theorem Sized.congr {d'} (h : Sized d) (hcapacity : d'.capacitySectors = d.capacitySectors)
    (hlength : d'.backend.length = d.backend.length) : Sized d' := by
  rw [Sized, hcapacity, hlength]
  exact h

theorem OnlyData.sized (h : OnlyData s s') (hs : Sized s.1) : Sized s'.1 := by
  rw [h.device]
  exact hs.congr rfl rfl

theorem inRange (hsized : Sized s.1) {total finish} (h : s.1.checkedRange sector total = some finish) :
    sector.toNat * SECTOR_SIZE + total < 2 ^ 64 := by
  unfold Sized at hsized
  simp only [checkedRange] at h
  split at h
  · cases h
  · omega

theorem write_succeeds (hsized : Sized s.1) (hdisk : IsDisk s.1.backend contents)
    (hreq : Requests s head REQ_OUT sector data status) (h : Succeeds s s' head status) :
    onDisk contents s' = writeBytes (onDisk contents s) (sector.toNat * SECTOR_SIZE) (dataBytes s.2.ram data) := by
  obtain ⟨⟨length, n, hrun⟩, hgood⟩ := h
  obtain ⟨⟨k, hserve⟩, hone, -⟩ := processRequest_ok hreq hrun
  obtain ⟨hram, hstatus⟩ := hreq.inRam
  have hbyte (t : BlkState) (hlen : t.2.ram.len = s.2.ram.len) {b : U8} {l l' : U32} {m : Nat}
      (hdone : completeWith status b l t = ⟨.ok l', s', m⟩) : b = STATUS_BYTE_OK :=
    (completeWith_byte (by rw [hlen]; omega) hdone).symm.trans hgood
  rw [serveRequest, view_bind, if_neg (by decide), if_pos rfl] at hserve
  rcases hrange : s.1.checkedRange sector (totalBytes data) with _ | finish
  · simp only [hrange] at hserve
    cases hbyte s rfl hserve
  · simp only [hrange] at hserve
    obtain ⟨o, t, m, j, hcopy, hrest, -⟩ := bind_eq_ok hserve
    rcases hrun' : copyToBackend data (sector.toNat * SECTOR_SIZE) s with ⟨o', u, m'⟩
    rw [Exec.attempt, hrun'] at hcopy
    cases hcopy
    have hdata : OnlyData s u := run (R := OnlyData) hrun'
    rcases o' with ⟨⟩ | ⟨_ | _ | _⟩ | _
    · obtain ⟨hcontents, -⟩ := copyToBackend_ok hdisk hram (inRange hsized hrange) hrun'
      rw [← hcontents, onDisk, (completeWith_ok (by rw [hdata.len]; omega) hrest).1]
      rfl
    · cases hrest
    · cases hrest
    · cases hbyte u hdata.len hrest
    · cases hrest

theorem read_succeeds (hsized : Sized s.1) (hdisk : IsDisk s.1.backend contents)
    (hreq : Requests s head REQ_IN sector data status) (hapart : (data ++ [status]).Pairwise Apart)
    (h : Succeeds s s' head status) :
    dataBytes s'.2.ram data = readBytes (onDisk contents s) (sector.toNat * SECTOR_SIZE) (totalBytes data) := by
  obtain ⟨⟨length, n, hrun⟩, hgood⟩ := h
  obtain ⟨⟨k, hserve⟩, hone, -⟩ := processRequest_ok hreq hrun
  obtain ⟨hram, hstatus⟩ := hreq.inRam
  obtain ⟨hdataApart, -, hstatusApart⟩ := pairwise_append.mp hapart
  rw [serveRequest, view_bind, if_pos rfl] at hserve
  rcases hrange : s.1.checkedRange sector (totalBytes data) with _ | finish
  · simp only [hrange] at hserve
    have hbyte := (completeWith_byte (by omega) hserve).symm.trans hgood
    cases hbyte
  · simp only [hrange] at hserve
    obtain ⟨⟨⟩, t, m, j, hcopy, hrest, -⟩ := bind_eq_ok hserve
    have hdata : OnlyData s t := run (R := OnlyData) hcopy
    obtain ⟨hbytes, -⟩ := copyFromBackend_ok hdisk hram (inRange hsized hrange) hcopy
    have hfinal := (completeWith_ok (by rw [hdata.len]; omega) hrest).2
    rw [← readBytes_fill hdataApart, ← hbytes, dataBytes, flatMap_def, flatMap_def]
    refine congrArg List.flatten (map_congr_left fun d hd => ?_)
    -- the status byte is in no data buffer
    apply readBytes_congr
    intro a ha ha'
    have hout := hstatusApart d hd status (mem_singleton_self _) a
    rw [hfinal]
    simp only [writeBytes, length_singleton, ite_eq_right_iff]
    intro hin
    exact absurd ⟨⟨ha, ha'⟩, by unfold Covers; omega⟩ hout

/-- For any disk, any chains and any splits: a write request, and a later read request of the same sectors
    with no write to them in between. -/
theorem written_data_read_back (contents : List BlockCall → Bytes) :
    (∀ {s s' : BlkState} {head sector data status}, Sized s.1 → IsDisk s.1.backend contents →
      Requests s head REQ_OUT sector data status → Succeeds s s' head status →
      onDisk contents s' = writeBytes (onDisk contents s) (sector.toNat * SECTOR_SIZE) (dataBytes s.2.ram data) ∧
        (dataBytes s.2.ram data).length = totalBytes data ∧ totalBytes data % SECTOR_SIZE = 0) ∧
    ∀ {write write' read read' : BlkState}
      {writeHead readHead sector writeData readData writeStatus readStatus},
      Sized write.1 ∧ Sized read.1 → IsDisk write.1.backend contents ∧ IsDisk read.1.backend contents →
      Requests write writeHead REQ_OUT sector writeData writeStatus → Succeeds write write' writeHead writeStatus →
      Requests read readHead REQ_IN sector readData readStatus → totalBytes readData = totalBytes writeData →
      (readData ++ [readStatus]).Pairwise Apart →
      (∀ i < totalBytes writeData,
        onDisk contents read (sector.toNat * SECTOR_SIZE + i) =
          onDisk contents write' (sector.toNat * SECTOR_SIZE + i)) →
      Succeeds read read' readHead readStatus →
      dataBytes read'.2.ram readData = dataBytes write.2.ram writeData := by
  constructor
  · intro s s' head sector data status hsized hdisk hreq hdone
    obtain ⟨length, n, hrun⟩ := hdone.1
    exact ⟨write_succeeds hsized hdisk hreq hdone, dataBytes_length _ _, (processRequest_ok hreq hrun).2.2 (.inr rfl)⟩
  · intro write write' read read' writeHead readHead sector writeData readData writeStatus readStatus hsized
      hdisk hwrite
      hwritten hread htotal hapart hbetween hdone
    have hlength := dataBytes_length write.2.ram writeData
    rw [read_succeeds hsized.2 hdisk.2 hread hapart hdone, htotal]
    calc readBytes (onDisk contents read) (sector.toNat * SECTOR_SIZE) (totalBytes writeData)
        = readBytes (onDisk contents write') (sector.toNat * SECTOR_SIZE) (totalBytes writeData) := by
          refine readBytes_congr fun a ha ha' => ?_
          have h := hbetween (a - sector.toNat * SECTOR_SIZE) (by omega)
          rwa [Nat.add_sub_cancel' ha] at h
      _ = dataBytes write.2.ram writeData := by
          rw [write_succeeds hsized.1 hdisk.1 hwrite hwritten, ← hlength]
          exact readBytes_writeBytes_self _ _ _

/-! ## A sector written and read -/

theorem validatedChain_eq {chain} (h : (validatedChain s.1.queue head s).outcome = .ok chain) :
    validatedChain s.1.queue head s = ⟨.ok chain, s, (validatedChain s.1.queue head s).accesses⟩ := by
  have hstate : (validatedChain s.1.queue head s).state = s := Keeps.keeps (R := Unchanged) s
  have hrun := Run.eq_of_outcome h
  rw [hstate] at hrun
  exact hrun

/-- A disk of zeros and the writes made to it. -/
def replay : List BlockCall → Bytes :=
  List.foldl (fun disk call => match call with
    | .readAt _ _ => disk
    | .writeAt offset input => writeBytes disk offset.toNat input) fun _ => 0

def memoryDisk : BlockBackend := ⟨1024, fun history offset _ => some fun i => replay history (offset.toNat + i),
    fun _ _ _ => true, []⟩

theorem memoryDisk_isDisk (history) : IsDisk { memoryDisk with history := history } replay where
  read _ _ _ _ h _ := by cases h; rfl
  readKeeps _ _ _ := by simp [replay]
  write _ _ _ _ := by simp [replay]

/-- RAM with a request of one type on sector 1: header, two data buffers of 512 bytes in all, status. -/
def requestMemory (requestType : U8) (first second firstLength : Nat) (flags : Nat) (filling : List U8) :
    DeviceMemory :=
  let descriptor (address length flags next : Nat) : List U8 :=
    leBytes 8 address ++ leBytes 4 length ++ leBytes 2 flags ++ leBytes 2 next
  let ring := descriptor 0x300 16 1 1 ++ descriptor first firstLength (flags + 1) 2 ++
    descriptor second (512 - firstLength) (flags + 1) 3 ++ descriptor 0x320 1 2 0
  ⟨⟨writeBytes (writeBytes (writeBytes (fun _ => 0) 0 ring) 0x300 [requestType, 0, 0, 0, 0, 0, 0, 0, 1]) first
    filling, 8192,
    fun _ => 0⟩, false⟩

def diskDevice : VirtioMmioBlk :=
  ⟨memoryDisk, 2, Mmio.STATUS_DRIVER_OK, 0, 0, (0, 0), 0, 0, ⟨4, 0, 0x100, 0x200⟩, true, 0, 0, true, none⟩

def writing : BlkState := (diskDevice, requestMemory 1 0x400 0x800 200 0 [1, 2, 3])

def reading : BlkState :=
  ((processRequest 0 writing).state.1, requestMemory 0 0x1000 0x400 500 2 [])

theorem two_splits_read_back : dataBytes (processRequest 0 reading).state.2.ram [⟨0x1000, 500, 3⟩, ⟨0x400, 12, 3⟩] =
      dataBytes writing.2.ram [⟨0x400, 200, 1⟩, ⟨0x800, 312, 1⟩] := by
  have hwrite : Requests writing 0 REQ_OUT 1 [⟨0x400, 200, 1⟩, ⟨0x800, 312, 1⟩] ⟨0x320, 1, 2⟩ :=
    ⟨⟨0x300, 16, 1⟩, _, validatedChain_eq (by decide +kernel), by decide +kernel, by decide +kernel⟩
  have hread : Requests reading 0 REQ_IN 1 [⟨0x1000, 500, 3⟩, ⟨0x400, 12, 3⟩] ⟨0x320, 1, 2⟩ :=
    ⟨⟨0x300, 16, 1⟩, _, validatedChain_eq (by decide +kernel), by decide +kernel, by decide +kernel⟩
  have hwritten : Succeeds writing (processRequest 0 writing).state 0 ⟨0x320, 1, 2⟩ :=
    ⟨⟨1, _, Run.eq_of_outcome (by decide +kernel)⟩, by decide +kernel⟩
  have hdone : Succeeds reading (processRequest 0 reading).state 0 ⟨0x320, 1, 2⟩ :=
    ⟨⟨513, _, Run.eq_of_outcome (by decide +kernel)⟩, by decide +kernel⟩
  have hsized : Sized writing.1 := by
    unfold Sized
    decide
  have hdata : OnlyData writing (processRequest 0 writing).state := (processRequest_onlyData 0).keeps _
  have hdisk : IsDisk writing.1.backend replay := memoryDisk_isDisk []
  have hsized' := hdata.sized hsized
  have hdisk' := hdisk.of_onlyData hdata
  rw [← show reading.1 = (processRequest 0 writing).state.1 from rfl] at hsized' hdisk'
  refine (written_data_read_back replay).2 ⟨hsized, hsized'⟩ ⟨hdisk, hdisk'⟩ hwrite hwritten hread rfl ?_
    (fun _ _ => rfl)
    hdone
  simp only [cons_append, nil_append, pairwise_cons, mem_cons, not_mem_nil, or_false,
    forall_eq_or_imp, forall_eq, false_implies, implies_true, List.Pairwise.nil, and_true, Apart, Covers]
  refine ⟨⟨?_, ?_⟩, ?_⟩ <;> intro a h <;> simp at h <;> omega

end VirtioMmioBlk

end Rish.SoftVm.Virtio
