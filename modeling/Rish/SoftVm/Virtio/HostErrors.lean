/-
  Rish.SoftVm.Virtio.HostErrors — block requests that fail.

  A request is refused when its chain is malformed or leaves RAM, and it meets a host error when the backend fails one
  of the calls that move its data. The calls of a request are known before it is served: one for each piece of each
  buffer, in order.
-/

import Rish.SoftVm.Virtio.Transfer
import Rish.SoftVm.Virtio.Unnoticed

namespace Rish.SoftVm.Virtio

open Lib List
open BitVec (ofNat)
open Exec (view_bind update_bind bind_err bind_ok attempt)

/-! ## Calls of the host -/

namespace BlockBackend

/-- Whether the host serves a call after these. -/
def serves (b : BlockBackend) (history : List BlockCall) : BlockCall → Bool
  | .readAt offset n => (b.readReply history offset n).isSome
  | .writeAt offset input => b.writeReply history offset input

/-- The host fails one of these calls, made one after the other. -/
def failsOne (b : BlockBackend) : List BlockCall → List BlockCall → Bool
  | _, [] => false
  | history, call :: rest => !b.serves history call || b.failsOne (history ++ [call]) rest

/-- The calls that are made of these, up to the first that fails. -/
def made (b : BlockBackend) : List BlockCall → List BlockCall → List BlockCall
  | _, [] => []
  | history, call :: rest => call :: if b.serves history call then b.made (history ++ [call]) rest else []

theorem calls_congr (b : BlockBackend) (past history calls) :
    { b with history := past }.failsOne history calls = b.failsOne history calls ∧
      { b with history := past }.made history calls = b.made history calls := by
  induction calls generalizing history with
  | nil => exact ⟨rfl, rfl⟩
  | cons call rest ih =>
    have hserves : { b with history := past }.serves history call = b.serves history call := by cases call <;> rfl
    rw [failsOne, failsOne, made, made, hserves, (ih _).1, (ih _).2]
    exact ⟨rfl, rfl⟩

/-- A failed call leaves the host as it was. -/
def Forgets (b : BlockBackend) : Prop :=
  ∀ history call, b.serves history call = false → b.Alike history (history ++ [call])

/-- The first of the calls fails, if there is one. -/
def failsFirst (b : BlockBackend) (history calls : List BlockCall) : Bool := calls.head?.all (!b.serves history ·)

theorem alike_of_failsFirst {b : BlockBackend} (hforgets : b.Forgets) {history calls}
    (h : b.failsFirst history calls = true) : b.Alike history (history ++ b.made history calls) := by
  cases calls with
  | nil =>
    rw [made, append_nil]
    exact fun _ => ⟨rfl, rfl⟩
  | cons call rest =>
    have hfails : b.serves history call = false := by simpa [failsFirst] using h
    rw [made, hfails]
    exact hforgets history call hfails

end BlockBackend

namespace VirtioMmioBlk

variable {s t : BlkState} {data : List QueueDescriptor} {status : QueueDescriptor}

theorem backendRead_run (place n s) : ∃ bytes : List U8, bytes.length = n ∧
    backendRead place n s = ⟨if s.1.backend.serves s.1.backend.history (.readAt place n) then .ok bytes
      else .err (.backend "host disk read failed"), (s.1.advance (.readAt place n), s.2), 0⟩ := by
  rcases hreply : s.1.backend.readReply s.1.backend.history place n with _ | f
  · refine ⟨List.replicate n 0, length_replicate, ?_⟩
    simp only [backendRead, view_bind, update_bind, BlockBackend.serves, hreply]
    rfl
  · refine ⟨(List.range n).map f, by simp, ?_⟩
    simp only [backendRead, view_bind, update_bind, BlockBackend.serves, hreply]
    rfl

theorem backendWrite_run (place input s) :
    backendWrite place input s = ⟨if s.1.backend.serves s.1.backend.history (.writeAt place input) then .ok ()
      else .err (.backend "host disk write failed"), (s.1.advance (.writeAt place input), s.2), 0⟩ := by
  cases hreply : s.1.backend.writeReply s.1.backend.history place input with
  | false =>
    simp only [backendWrite, view_bind, update_bind, BlockBackend.serves, hreply]
    rfl
  | true =>
    simp only [backendWrite, view_bind, update_bind, BlockBackend.serves, hreply]
    rfl

/-! ## Loops -/

theorem forEach_append {α σ : Type} (f : α → Device σ Unit) (l l' : List α) :
    forEach f (l ++ l') = forEach f l >>= fun _ => forEach f l' := by
  induction l with
  | nil => simp only [nil_append, forEach, pure_bind]
  | cons a l ih => simp only [cons_append, forEach, ih, bind_assoc]

theorem forEach_flatMap {α β σ : Type} (f : β → Device σ Unit) (g : α → List β) (l : List α) :
    forEach f (l.flatMap g) = forEach (fun a => forEach f (g a)) l := by
  induction l with
  | nil => rfl
  | cons a l ih => rw [flatMap_cons, forEach_append, forEach, ih]

theorem forEach_map {α β σ : Type} (f : β → Device σ Unit) (g : α → β) (l : List α) :
    forEach f (l.map g) = forEach (fun a => f (g a)) l := by
  induction l with
  | nil => rfl
  | cons a l ih => rw [map_cons, forEach, forEach, ih]

theorem forEach_calls {α : Type} {M : DeviceMemory → Prop} {f : α → BlkM Unit} {call : α → BlockCall} {message : String}
    {l : List α} (hstep : ∀ a ∈ l, ∀ s : BlkState, M s.2 → ∃ m n, M m ∧
      f a s = ⟨if s.1.backend.serves s.1.backend.history (call a) then .ok () else .err (.backend message),
        (s.1.advance (call a), m), n⟩) (s : BlkState) (hs : M s.2) :
    ∃ m n, M m ∧ forEach f l s =
      ⟨if s.1.backend.failsOne s.1.backend.history (l.map call) then .err (.backend message) else .ok (),
        (s.1.withHistory (s.1.backend.history ++ s.1.backend.made s.1.backend.history (l.map call)), m), n⟩ := by
  induction l generalizing s with
  | nil =>
    refine ⟨s.2, 0, hs, ?_⟩
    rw [map_nil, BlockBackend.made, append_nil]
    rfl
  | cons a l ih =>
    obtain ⟨m, n, hm, hfirst⟩ := hstep a (mem_cons_self ..) s hs
    rw [forEach, map_cons, BlockBackend.failsOne, BlockBackend.made]
    cases hserved : s.1.backend.serves s.1.backend.history (call a) with
    | false =>
      rw [hserved] at hfirst
      exact ⟨m, n, hm, bind_err hfirst⟩
    | true =>
      rw [hserved] at hfirst
      obtain ⟨m', n', hm', hrest⟩ := ih (fun b hb => hstep b (mem_cons_of_mem _ hb)) (s.1.advance (call a), m) hm
      obtain ⟨hfails, hmade⟩ := s.1.backend.calls_congr (s.1.backend.history ++ [call a])
        (s.1.backend.history ++ [call a]) (l.map call)
      refine ⟨m', n + n', hm', ?_⟩
      rw [bind_ok hfirst, hrest, Bool.not_true, Bool.false_or, ← hfails, if_pos rfl,
        append_cons s.1.backend.history (call a) (s.1.backend.made _ (l.map call)), ← hmade]
      rfl

/-! ## The pieces of a request -/

/-- One piece of a buffer: how much of the buffer is done before it and how long it is. The buffer's bytes have their
    place on the disk from `base` on. -/
structure Piece where
  buffer : QueueDescriptor
  base : Nat
  done : Nat
  step : Nat

namespace Piece

def readFrom (p : Piece) : BlkM Unit := do
  let buffer ← backendRead (ofNat 64 (p.base + p.done)) p.step
  writeMemory (← offset p.buffer.address (ofNat 64 p.done)) buffer

def writeTo (p : Piece) : BlkM Unit := do
  let buffer ← readMemory (← offset p.buffer.address (ofNat 64 p.done)) p.step
  backendWrite (ofNat 64 (p.base + p.done)) buffer

def writeSerial (p : Piece) : BlkM Unit := do
  writeMemory (← offset p.buffer.address (ofNat 64 p.done)) (serialPiece (p.base + p.done + p.done) p.step)

def readCall (p : Piece) : BlockCall := .readAt (ofNat 64 (p.base + p.done)) p.step

def writeCall (r : Ram) (p : Piece) : BlockCall :=
  .writeAt (ofNat 64 (p.base + p.done)) (r.load (p.buffer.address.toNat + p.done) p.step)

/-- The piece lies in a RAM of this length. -/
def Inside (L : U64) (p : Piece) : Prop := p.buffer.address.toNat + p.done + p.step ≤ L.toNat

end Piece

def pieces (start : Nat) (data : List QueueDescriptor) : List Piece :=
  (segmentOffsets start data).flatMap fun (d, base) => (chunks d.length.toNat).map fun (done, step) =>
    ⟨d, base, done, step⟩

theorem forEach_pieces (f : Piece → BlkM Unit) (start : Nat) (data : List QueueDescriptor) :
    forEach f (pieces start data) = forEach (fun (d, base) =>
      forEach (fun (done, step) => f ⟨d, base, done, step⟩) (chunks d.length.toNat)) (segmentOffsets start data) := by
  rw [pieces, forEach_flatMap]
  refine congrArg (fun g => forEach g (segmentOffsets start data)) (funext fun x => ?_)
  exact forEach_map _ _ _

theorem pieces_inside {L} (hdata : InRam L data) (start) : ∀ p ∈ pieces start data, p.Inside L := by
  intro p hp
  obtain ⟨⟨d, base⟩, hd, hp⟩ := mem_flatMap.mp hp
  obtain ⟨⟨done, step⟩, hpiece, rfl⟩ := mem_map.mp hp
  have hfits := hdata d (mem_segmentOffsets hd)
  have hstep := mem_chunks hpiece
  unfold Piece.Inside
  simp only
  omega

/-! ## One piece -/

section OnePiece

variable {p : Piece}

theorem Piece.offset_inside {L} (h : p.Inside L) : ∃ a : U64, a.toNat = p.buffer.address.toNat + p.done ∧
    (offset p.buffer.address (ofNat 64 p.done) : BlkM U64) = pure a := by
  unfold Piece.Inside at h
  exact ⟨_, ofNat_toNat_of_lt (by omega), offset_ok (by omega)⟩

section

variable (h : p.Inside s.2.ram.len)
include h

theorem Piece.readFrom_run : ∃ m n, m.ram.len = s.2.ram.len ∧
    p.readFrom s = ⟨if s.1.backend.serves s.1.backend.history p.readCall then .ok ()
      else .err (.backend "host disk read failed"), (s.1.advance p.readCall, m), n⟩ := by
  obtain ⟨a, ha, hoffset⟩ := Piece.offset_inside h
  obtain ⟨bytes, hlen, hread⟩ := backendRead_run (ofNat 64 (p.base + p.done)) p.step s
  unfold Piece.readFrom Piece.readCall
  cases hserved : s.1.backend.serves s.1.backend.history (.readAt (ofNat 64 (p.base + p.done)) p.step) with
  | false =>
    rw [hserved] at hread
    exact ⟨s.2, 0, rfl, bind_err hread⟩
  | true =>
    rw [hserved] at hread
    have hroom : a.toNat + bytes.length ≤ s.2.ram.len.toNat := by
      rw [ha, hlen]
      exact h
    rw [bind_ok hread, hoffset, pure_bind, writeMemory_ok (s := (s.1.advance _, s.2)) hroom]
    exact ⟨{ s.2 with ram := s.2.ram.store a.toNat bytes, wrote := true }, _, rfl, rfl⟩

theorem Piece.writeTo_run : ∃ n,
    p.writeTo s = ⟨if s.1.backend.serves s.1.backend.history (p.writeCall s.2.ram) then .ok ()
      else .err (.backend "host disk write failed"), (s.1.advance (p.writeCall s.2.ram), s.2), n⟩ := by
  obtain ⟨a, ha, hoffset⟩ := Piece.offset_inside h
  have hroom : a.toNat + p.step ≤ s.2.ram.len.toNat := by
    rw [ha]
    exact h
  unfold Piece.writeTo Piece.writeCall
  rw [hoffset, pure_bind, bind_ok (readMemory_ok hroom), backendWrite_run, ha]
  exact ⟨_, rfl⟩

theorem Piece.writeSerial_run : ∃ m n, m.ram.len = s.2.ram.len ∧
    p.writeSerial s = ⟨.ok (), (s.1, m), n⟩ := by
  obtain ⟨a, ha, hoffset⟩ := Piece.offset_inside h
  have hroom : a.toNat + (serialPiece (p.base + p.done + p.done) p.step).length ≤ s.2.ram.len.toNat := by
    rw [ha, serialPiece, length_map, length_range]
    exact h
  unfold Piece.writeSerial
  rw [hoffset, pure_bind, writeMemory_ok hroom]
  exact ⟨{ s.2 with ram := s.2.ram.store a.toNat _, wrote := true }, _, rfl, rfl⟩

end

end OnePiece

/-! ## Whole transfers -/

/-- The calls that fill the buffers, and those that empty them. -/
def readCalls (start : Nat) (data : List QueueDescriptor) : List BlockCall := (pieces start data).map Piece.readCall

def writeCalls (r : Ram) (start : Nat) (data : List QueueDescriptor) : List BlockCall :=
  (pieces start data).map (Piece.writeCall r)

section

variable (hdata : InRam s.2.ram.len data)
include hdata

theorem copyFromBackend_run (start : Nat) : ∃ history m n, m.ram.len = s.2.ram.len ∧
    copyFromBackend data start s = ⟨if s.1.backend.failsOne s.1.backend.history (readCalls start data) then
      .err (.backend "host disk read failed") else .ok (), (s.1.withHistory history, m), n⟩ := by
  have hcopy : copyFromBackend data start = forEach Piece.readFrom (pieces start data) := by
    rw [forEach_pieces]
    rfl
  rw [hcopy]
  refine ⟨_, forEach_calls (M := fun m => m.ram.len = s.2.ram.len) (fun p hp u hu => ?_) s rfl⟩
  obtain ⟨m, n, hlen, hrun⟩ := Piece.readFrom_run (s := u) (hu ▸ pieces_inside hdata start p hp)
  exact ⟨m, n, hlen.trans hu, hrun⟩

theorem copyToBackend_run (start : Nat) : ∃ n,
    copyToBackend data start s = ⟨if s.1.backend.failsOne s.1.backend.history (writeCalls s.2.ram start data) then
      .err (.backend "host disk write failed") else .ok (), (s.1.withHistory (s.1.backend.history ++
        s.1.backend.made s.1.backend.history (writeCalls s.2.ram start data)), s.2), n⟩ := by
  have hcopy : copyToBackend data start = forEach Piece.writeTo (pieces start data) := by
    rw [forEach_pieces]
    rfl
  rw [hcopy]
  have hstep : ∀ p ∈ pieces start data, ∀ u : BlkState, u.2 = s.2 → ∃ m n, m = s.2 ∧
      p.writeTo u = ⟨if u.1.backend.serves u.1.backend.history (p.writeCall s.2.ram) then .ok ()
        else .err (.backend "host disk write failed"), (u.1.advance (p.writeCall s.2.ram), m), n⟩ := by
    intro p hp u hu
    obtain ⟨n, hrun⟩ := Piece.writeTo_run (s := u) (hu ▸ pieces_inside hdata start p hp)
    rw [hu] at hrun
    exact ⟨s.2, n, rfl, hrun⟩
  obtain ⟨m, n, rfl, hrun⟩ := forEach_calls (M := fun m => m = s.2) hstep s rfl
  exact ⟨n, hrun⟩

theorem writeSerial_run : ∃ m n, m.ram.len = s.2.ram.len ∧
    writeSerial data s = ⟨.ok (), (s.1, m), n⟩ := by
  have hcopy : writeSerial data = forEach Piece.writeSerial (pieces 0 data) := by
    rw [forEach_pieces]
    rfl
  have hpieces := pieces_inside hdata 0
  rw [hcopy]
  generalize pieces 0 data = l at hpieces
  induction l generalizing s with
  | nil => exact ⟨s.2, 0, rfl, rfl⟩
  | cons p l ih =>
    obtain ⟨m, n, hlen, hfirst⟩ := Piece.writeSerial_run (hpieces p (mem_cons_self ..))
    obtain ⟨m', n', hlen', hrest⟩ := ih (s := (s.1, m)) (fun d hd => hlen.symm ▸ hdata d hd)
      fun q hq => hlen.symm ▸ hpieces q (mem_cons_of_mem _ hq)
    refine ⟨m', n + n', hlen'.trans hlen, ?_⟩
    rw [forEach, bind_ok hfirst, hrest]
    rfl

end

/-! ## Serving a request -/

theorem completeWith_run {byte : U8} {length} (h : status.address.toNat + 1 ≤ s.2.ram.len.toNat) :
    completeWith status byte length s =
      ⟨.ok length, (s.1, { s.2 with ram := s.2.ram.store status.address.toNat [byte], wrote := true }), 1⟩ := by
  rw [completeWith, writeStatus, bind_ok (writeMemory_ok h)]
  rfl

theorem serveRequest_fails (hdata : InRam s.2.ram.len data) (hstatus : status.address.toNat + 1 ≤ s.2.ram.len.toNat)
    (requestType sector) :
    (∃ length, (serveRequest requestType sector data status s).outcome = .ok length) ∨
      ∃ message, (serveRequest requestType sector data status s).outcome = .err (.backend message) := by
  have hdone (u : VirtioMmioBlk) (m : DeviceMemory) (hlen : m.ram.len = s.2.ram.len) (byte : U8) (length : U32) :
      (completeWith status byte length (u, m)).outcome = .ok length := by
    rw [completeWith_run (by rw [hlen]; exact hstatus)]
  rw [serveRequest, view_bind]
  simp only
  split
  · rcases s.1.checkedRange sector (totalBytes data) with _ | finish
    · exact .inl ⟨_, hdone s.1 s.2 rfl _ _⟩
    · obtain ⟨history, m, n, hlen, hrun⟩ := copyFromBackend_run hdata (sector.toNat * SECTOR_SIZE)
      split at hrun
      · exact .inr ⟨_, congrArg Run.outcome (bind_err hrun)⟩
      · refine .inl ⟨_, (congrArg Run.outcome (bind_ok hrun)).trans (hdone _ m hlen _ _)⟩
  split
  · rcases s.1.checkedRange sector (totalBytes data) with _ | finish
    · exact .inl ⟨_, hdone s.1 s.2 rfl _ _⟩
    · obtain ⟨n, hrun⟩ := copyToBackend_run hdata (sector.toNat * SECTOR_SIZE)
      generalize s.1.backend.history ++ _ = history at hrun
      left
      split at hrun
      · have hattempt : attempt (copyToBackend data (sector.toNat * SECTOR_SIZE)) s =
            ⟨.ok (.err (.backend "host disk write failed")), (s.1.withHistory history, s.2), n⟩ := by
          rw [attempt, hrun]
        exact ⟨_, (congrArg Run.outcome (bind_ok hattempt)).trans (hdone _ s.2 rfl _ _)⟩
      · have hattempt : attempt (copyToBackend data (sector.toNat * SECTOR_SIZE)) s =
            ⟨.ok (.ok ()), (s.1.withHistory history, s.2), n⟩ := by
          rw [attempt, hrun]
        exact ⟨_, (congrArg Run.outcome (bind_ok hattempt)).trans (hdone _ s.2 rfl _ _)⟩
  split
  · obtain ⟨m, n, hlen, hrun⟩ := writeSerial_run hdata
    exact .inl ⟨_, (congrArg Run.outcome (bind_ok hrun)).trans (hdone _ m hlen _ _)⟩
  · exact .inl ⟨_, hdone s.1 s.2 rfl _ _⟩

/-! ## Malformed requests -/

/-- The run returned, met a host error, or changed nothing. -/
def AllOrNothing {α : Type} (s : BlkState) (r : Run BlkState VirtioError α) :
    Prop :=
  (∃ a, r.outcome = .ok a) ∨ (∃ message, r.outcome = .err (.backend message)) ∨ r.state = s

theorem AllOrNothing.of_unchanged {α : Type} (x : BlkM α) [h : Keeps Unchanged x] : AllOrNothing s (x s) :=
  .inr (.inr (h.keeps s))

theorem AllOrNothing.bind {α β : Type} {x : BlkM α} {f : α → BlkM β} [hx : Keeps Unchanged x]
    (h : ∀ a, (x s).outcome = .ok a → AllOrNothing s (f a s)) : AllOrNothing s ((x >>= f) s) := by
  have hstate : (x s).state = s := hx.keeps s
  rcases hrun : x s with ⟨a | e | _, t, n⟩ <;> rw [hrun] at hstate <;> subst hstate
  · rw [bind_ok hrun]
    exact h a (by rw [hrun])
  · rw [bind_err hrun]
    exact .inr (.inr rfl)
  · rw [Exec.bind_panic hrun]
    exact .inr (.inr rfl)

instance (requestType data) : Keeps Unchanged (checkDirections requestType data) := by
  unfold checkDirections; infer_instance

theorem processRequest_allOrNothing (head : U16) (s : BlkState) :
    AllOrNothing s (processRequest head s) := by
  unfold processRequest
  refine .bind fun queue hqueue => .bind fun chain hchain => ?_
  cases hqueue
  have hram := validatedChain_returned head hchain
  rcases chain with _ | ⟨header, rest⟩
  · exact .of_unchanged _
  rcases hlast : rest.getLast? with _ | status
  · simp only [hlast]
    exact .of_unchanged _
  simp only [hlast]
  split
  · exact .of_unchanged _
  split
  · exact .of_unchanged _
  split
  · exact .of_unchanged _
  next hstatus =>
    have hmem : status ∈ rest := mem_of_getLast? hlast
    have hroom : status.address.toNat + 1 ≤ s.2.ram.len.toNat := by
      have hfits := hram status (mem_cons_of_mem _ hmem)
      omega
    have hdata : InRam s.2.ram.len rest.dropLast := fun d hd =>
      hram d (mem_cons_of_mem _ (dropLast_subset _ hd))
    refine .bind fun bytes _ => .bind fun _ _ => ?_
    split
    · exact .of_unchanged _
    · rcases serveRequest_fails hdata hroom _ _ with hok | hhost
      · exact .inl hok
      · exact .inr (.inl hhost)

/-- A request that fails for another reason than a host error: RAM, the backend and the device are as they were. -/
theorem malformed_request_changes_nothing (head : U16) (s : BlkState)
    (hfails : ∀ length, (processRequest head s).outcome ≠ .ok length)
    (hhost : ∀ message, (processRequest head s).outcome ≠ .err (.backend message)) :
    (processRequest head s).state = s := by
  rcases processRequest_allOrNothing head s with ⟨length, hok⟩ | ⟨message, herr⟩ | hsame
  · exact absurd hok (hfails length)
  · exact absurd herr (hhost message)
  · exact hsame

/-- A write request whose second buffer reaches one byte past RAM. -/
def pastRam : BlkState := (diskDevice, requestMemory 1 0x400 0x1EC9 200 0 [1, 2, 3])

theorem pastRam_changes_nothing :
    (processRequest 0 pastRam).outcome = .err (.outOfBounds 0x1EC9 312) ∧
    (processRequest 0 pastRam).state = pastRam := by
  have houtcome : (processRequest 0 pastRam).outcome = .err (.outOfBounds 0x1EC9 312) := by decide +kernel
  refine ⟨houtcome, malformed_request_changes_nothing 0 pastRam (fun length h => ?_) fun message h => ?_⟩
  · rw [houtcome] at h
    cases h
  · rw [houtcome] at h
    cases h

/-! ## Host errors -/

/-- A read or write request that passes every check. -/
structure TransferRequest (s : BlkState) (head : U16) (requestType : U32) (sector : U64)
    (data : List QueueDescriptor) (status : QueueDescriptor) : Prop where
  kind : requestType = REQ_IN ∨ requestType = REQ_OUT
  chain : ∃ header n, validatedChain s.1.queue head s = ⟨.ok (header :: (data ++ [status])), s, n⟩ ∧
    requestType = ofNat 32 (leNat ((s.2.ram.load header.address.toNat HEADER_BYTES).take 4)) ∧
    sector = ofNat 64 (leNat ((s.2.ram.load header.address.toNat HEADER_BYTES).drop 8)) ∧
    HEADER_BYTES ≤ header.length.toNat ∧ header.deviceWritable = false
  hasData : data ≠ []
  answerable : 1 ≤ status.length.toNat ∧ status.deviceWritable = true
  direction : ∀ d ∈ data, d.deviceWritable = decide (requestType = REQ_IN)
  whole : totalBytes data % SECTOR_SIZE = 0

variable {head : U16} {requestType : U32} {sector : U64}

section

variable (h : TransferRequest s head requestType sector data status)
include h

theorem TransferRequest.requests : Requests s head requestType sector data status := by
  obtain ⟨header, n, hchain, htype, hsector, -⟩ := h.chain
  exact ⟨header, n, hchain, htype, hsector⟩

theorem TransferRequest.checkDirections_ok : checkDirections requestType data = pure () := by
  unfold checkDirections
  rcases h.kind with rfl | rfl
  · have hall : data.any (!·.deviceWritable) = false := by
      rw [any_eq_false]
      intro d hd
      simp [h.direction d hd]
    rw [if_neg (by simp [hall]), if_neg (fun hout => by cases hout.1)]
  · have hnone : data.any (·.deviceWritable) = false := by
      rw [any_eq_false]
      intro d hd
      simp [h.direction d hd, REQ_OUT, REQ_IN]
    rw [if_neg (by simp [REQ_OUT, REQ_IN, REQ_GET_ID]), if_neg (by simp [hnone])]

theorem processRequest_transfer :
    ∃ k, processRequest head s = (serveRequest requestType sector data status s).after k := by
  obtain ⟨header, n, hchain, htype, hsector, hheader, hreadable⟩ := h.chain
  have hram := validatedChain_returned (q := s.1.queue) head (congrArg Run.outcome hchain)
  have hlen : header.address.toNat + HEADER_BYTES ≤ s.2.ram.len.toNat := by
    have hfits := hram header (mem_cons_self ..)
    omega
  rw [processRequest, view_bind, bind_ok hchain]
  simp only [getLast?_append, getLast?_singleton, Option.some_or, dropLast_concat]
  rw [if_neg h.hasData, if_neg (by rw [hreadable]; simpa using hheader),
    if_neg (by rw [h.answerable.2]; simpa using Nat.ne_of_gt h.answerable.1), bind_ok (readMemory_ok hlen)]
  simp only [← htype, ← hsector]
  rw [h.checkDirections_ok, pure_bind, if_neg fun hodd => hodd.2 h.whole]
  exact ⟨n + 1, by simp only [Run.after, Nat.add_assoc]⟩

end

section

variable (s : BlkState) (requestType : U32) (sector : U64) (data : List QueueDescriptor)

/-- The calls of the host that move the data of a request; none when its sectors are not on the disk. -/
def requestCalls : List BlockCall :=
  match s.1.checkedRange sector (totalBytes data) with
  | none => []
  | some _ =>
    if requestType = REQ_IN then readCalls (sector.toNat * SECTOR_SIZE) data
    else writeCalls s.2.ram (sector.toNat * SECTOR_SIZE) data

def MeetsHostError : Prop :=
  s.1.backend.failsOne s.1.backend.history (requestCalls s requestType sector data) = true

instance : Decidable (MeetsHostError s requestType sector data) := inferInstanceAs (Decidable (_ = true))

/-- The calls of the host behind the device once the request has been served. -/
def callsAfter : List BlockCall :=
  s.1.backend.history ++ s.1.backend.made s.1.backend.history (requestCalls s requestType sector data)

/-- The host answers from then on as if those of the request had not been made. -/
def LeavesHostAlike : Prop := s.1.backend.Alike s.1.backend.history (callsAfter s requestType sector data)

/-- No piece of the request reached the disk before the failure. -/
def NothingCommitted : Prop :=
  s.1.backend.failsFirst s.1.backend.history (requestCalls s requestType sector data) = true

instance : Decidable (NothingCommitted s requestType sector data) := inferInstanceAs (Decidable (_ = true))

end

theorem MeetsHostError.inRange (h : MeetsHostError s requestType sector data) :
    ∃ finish, s.1.checkedRange sector (totalBytes data) = some finish := by
  rcases hrange : s.1.checkedRange sector (totalBytes data) with _ | finish
  · unfold MeetsHostError requestCalls at h
    rw [hrange] at h
    cases h
  · exact ⟨finish, rfl⟩

theorem TransferRequest.room (h : TransferRequest s head requestType sector data status) :
    status.address.toNat + 1 ≤ s.2.ram.len.toNat := by
  have hone := h.answerable.1
  have hfits := h.requests.inRam.2
  omega

theorem processRequest_in_fails (h : TransferRequest s head REQ_IN sector data status)
    (hhost : MeetsHostError s REQ_IN sector data) :
    (processRequest head s).outcome = .err (.backend "host disk read failed") := by
  obtain ⟨finish, hrange⟩ := hhost.inRange
  obtain ⟨k, hserve⟩ := processRequest_transfer h
  obtain ⟨history, m, n, -, hrun⟩ := copyFromBackend_run h.requests.inRam.1 (sector.toNat * SECTOR_SIZE)
  have hfails : s.1.backend.failsOne s.1.backend.history (readCalls (sector.toNat * SECTOR_SIZE) data) = true := by
    unfold MeetsHostError requestCalls at hhost
    rwa [hrange] at hhost
  rw [if_pos hfails] at hrun
  rw [hserve, Run.after_outcome, serveRequest, view_bind, if_pos rfl]
  simp only [hrange]
  rw [bind_err hrun]

theorem processRequest_out_fails (h : TransferRequest s head REQ_OUT sector data status)
    (hhost : MeetsHostError s REQ_OUT sector data) : ∃ n, processRequest head s =
      ⟨.ok 1, (s.1.withHistory (callsAfter s REQ_OUT sector data),
        { s.2 with ram := s.2.ram.store status.address.toNat [STATUS_BYTE_IOERR], wrote := true }), n⟩ := by
  obtain ⟨finish, hrange⟩ := hhost.inRange
  obtain ⟨k, hserve⟩ := processRequest_transfer h
  obtain ⟨n, hrun⟩ := copyToBackend_run h.requests.inRam.1 (sector.toNat * SECTOR_SIZE)
  have hcalls : requestCalls s REQ_OUT sector data = writeCalls s.2.ram (sector.toNat * SECTOR_SIZE) data := by
    rw [requestCalls, hrange]
    exact if_neg (by decide)
  have hfails : s.1.backend.failsOne s.1.backend.history (requestCalls s REQ_OUT sector data) = true := hhost
  rw [← hcalls, if_pos hfails] at hrun
  have hattempt : attempt (copyToBackend data (sector.toNat * SECTOR_SIZE)) s =
      ⟨.ok (.err (.backend "host disk write failed")),
        (s.1.withHistory (callsAfter s REQ_OUT sector data), s.2), n⟩ := by
    rw [attempt, hrun]
    rfl
  rw [hserve, serveRequest, view_bind, if_neg (by decide), if_pos rfl]
  simp only [hrange]
  rw [bind_ok hattempt]
  simp only
  rw [completeWith_run (s := (s.1.withHistory (callsAfter s REQ_OUT sector data), s.2)) h.room]
  exact ⟨_, rfl⟩

/-! ## The batch around a request -/

/-- A poll of the device comes to this state after these turns, and another head is published. -/
structure Reaches (s : BlkState) (turns : List Turn) (u : BlkState) : Prop where
  served : KickServed s.1
  admitted : Admitted s.1.queue s.1.lastSeenAvail (takeKick s)
  drained : Drains s.1.queue processRequest s.1.lastSeenAvail turns (takeKick s) u
  more : turns.length < (s.1.queue.driverIndex s.2.ram - s.1.lastSeenAvail).toNat

def nextIndex (s : BlkState) (turns : List Turn) : U16 := s.1.lastSeenAvail + ofNat 16 turns.length

def nextHead (s : BlkState) (turns : List Turn) (u : BlkState) : U16 :=
  s.1.queue.publishedHead u.2.ram (nextIndex s turns)

/-- What is left of the batch after one more turn that ended in this state. -/
def restOfBatch (s : BlkState) (turns : List Turn) (v : BlkState) :
    Run BlkState VirtioError (U16 × Nat) :=
  drainFrom s.1.queue (s.1.queue.driverIndex s.2.ram) processRequest (2 ^ 16 - (turns.length + 1))
    (nextIndex s turns + 1) (turns.length + 1) v

/-- The next request of a batch completes with an I/O error and has no other effect: RAM has its status byte and its
    used element more, and the device differs in calls that its host answers later ones alike after. The poll goes on
    with the rest of the batch, and has no fault unless the rest fails. The rest of the batch, and a later kick with
    whatever memory, are served as on the device that made no call for the request. -/
structure CompletesWithIoError (s : BlkState) (turns : List Turn) (u : BlkState)
    (status : QueueDescriptor) (v : BlkState) : Prop where
  served : ∃ used, Serves s.1.queue processRequest (nextIndex s turns) ⟨nextHead s turns u, 1, used⟩ u v ∧
    v.2.ram = s.1.queue.publish (u.2.ram.store status.address.toNat [STATUS_BYTE_IOERR]) used
      ((nextHead s turns u).setWidth 32) 1
  unnoticed : Unnoticed (u.1, v.2) v
  rest : SameRun Unnoticed (restOfBatch s turns (u.1, v.2)) (restOfBatch s turns v)
  later : ∀ m, SameRun Unnoticed (pollKick ({ (restOfBatch s turns (u.1, v.2)).state.1 with kickPending := true }, m))
    (pollKick ({ (restOfBatch s turns v).state.1 with kickPending := true }, m))
  batch : (drainAvailable s.1.queue s.1.lastSeenAvail processRequest (takeKick s)).outcome =
    (restOfBatch s turns v).outcome ∧
    (drainAvailable s.1.queue s.1.lastSeenAvail processRequest (takeKick s)).state = (restOfBatch s turns v).state
  fault : (pollKick s).state.1.fault = none ↔ ∃ a, (restOfBatch s turns v).outcome = .ok a

def requestHandler : Handler VirtioMmioBlk :=
  ⟨processRequest, fun head s => ((processRequest_onlyData head).keeps s).len⟩

section Batch

variable {turns : List Turn} {u v : BlkState}

theorem Reaches.size_ne_zero (h : Reaches s turns u) : s.1.queue.size ≠ 0 :=
  fun hzero => h.served.2 (.inr (.inr (.inl hzero)))

theorem Reaches.goesOn (h : Reaches s turns u) {turn}
    (hserves : Serves s.1.queue processRequest (nextIndex s turns) turn u v) :
    (drainAvailable s.1.queue s.1.lastSeenAvail processRequest (takeKick s)).outcome = (restOfBatch s turns v).outcome ∧
      (drainAvailable s.1.queue s.1.lastSeenAvail processRequest (takeKick s)).state =
        (restOfBatch s turns v).state := by
  have hfits := QueueLayout.validate_ok.mp h.admitted.1
  have hmore := h.more
  have hlen : (turns ++ [turn]).length = turns.length + 1 := by simp
  have hfuel : 2 ^ 16 = (turns ++ [turn]).length + (2 ^ 16 - (turns.length + 1)) := by omega
  have hdrained : Drains s.1.queue requestHandler.process s.1.lastSeenAvail (turns ++ [turn]) (takeKick s) v :=
    h.drained.concat hserves
  have hwithin : (turns ++ [turn]).length ≤ (s.1.queue.driverIndex s.2.ram - s.1.lastSeenAvail).toNat := by omega
  have hrest := drainFrom_drains hfits h.size_ne_zero hdrained hwithin (2 ^ 16 - (turns.length + 1)) 0
  rw [← hfuel, hlen, ← succ_index, Nat.zero_add] at hrest
  rw [show s.1.lastSeenAvail + 1 + ofNat 16 turns.length = nextIndex s turns + 1 by
    rw [nextIndex, BitVec.add_assoc, BitVec.add_comm 1, ← BitVec.add_assoc]] at hrest
  rw [drainAvailable_near processRequest h.admitted.1 h.admitted.2]
  exact hrest

/-- The drain of a poll returns. -/
abbrev KickDrained (s : BlkState) : Prop :=
  ∃ a, (drainAvailable s.1.queue s.1.lastSeenAvail processRequest (takeKick s)).outcome = .ok a

/-- A poll whose drain fails latches a fault over what the drain left. -/
theorem pollKick_failed (h : KickServed s.1) (hfails : ¬KickDrained s) :
    ∃ t text, (drainAvailable s.1.queue s.1.lastSeenAvail processRequest (takeKick s)).state = t ∧
      (pollKick s).state = ({ t.1 with fault := some text }, t.2) := by
  rw [pollKick_served h]
  rcases hrun : drainAvailable s.1.queue s.1.lastSeenAvail processRequest (takeKick s) with ⟨a | e | _, t, n⟩
  · exact absurd ⟨a, by rw [hrun]⟩ hfails
  · rw [bind_ok (show attempt _ _ = _ by rw [attempt, hrun])]
    exact ⟨t, _, rfl, rfl⟩
  · exact absurd (by rw [hrun]) (drain_ne_panic s)

theorem pollKick_fault (h : KickServed s.1) : (pollKick s).state.1.fault = none ↔ KickDrained s := by
  constructor
  · intro hnone
    by_contra hfails
    obtain ⟨t, text, -, hstate⟩ := pollKick_failed h hfails
    rw [hstate] at hnone
    cases hnone
  · rintro ⟨a, hok⟩
    have hframe := drain_onlyData s
    rw [pollKick_served h, bind_ok (show attempt _ _ = ⟨.ok (.ok a), _, _⟩ by rw [attempt, hok])]
    simp only [update_bind, Run.after_state, Exec.pure_apply]
    rw [hframe.device]
    show s.1.fault = none
    by_contra hsome
    exact h.2 (.inl (by simpa [Option.isSome_iff_ne_none] using hsome))

theorem asIfNotIssued (s) (turns) (h : Unnoticed (u.1, v.2) v) :
    SameRun Unnoticed (restOfBatch s turns (u.1, v.2)) (restOfBatch s turns v) ∧
      ∀ m, SameRun Unnoticed (pollKick ({ (restOfBatch s turns (u.1, v.2)).state.1 with kickPending := true }, m))
        (pollKick ({ (restOfBatch s turns v).state.1 with kickPending := true }, m)) := by
  have hrest : SameRun Unnoticed (restOfBatch s turns (u.1, v.2)) (restOfBatch s turns v) :=
    Matches.runs (drainFrom s.1.queue (s.1.queue.driverIndex s.2.ram) processRequest
      (2 ^ 16 - (turns.length + 1)) (nextIndex s turns + 1) (turns.length + 1)) h
  refine ⟨hrest, fun m => pollKick_unnoticed ?_⟩
  obtain ⟨hdevice, halike, -⟩ := hrest.2
  have hkicked : Unnoticed ((restOfBatch s turns (u.1, v.2)).state.1, m) ((restOfBatch s turns v).state.1, m) :=
    ⟨hdevice, halike, rfl⟩
  exact hkicked.map (f := fun d => { d with kickPending := true }) (fun _ => rfl) fun _ _ => rfl

end Batch

/-! ## A host that fails -/

def brokenDevice : VirtioMmioBlk :=
  { diskDevice with backend := ⟨1024, fun _ _ _ => none, fun _ _ _ => false, []⟩ }

/-- A device whose host fails every call, with one request of this type published twice. -/
def failing (requestType : U8) (flags : Nat) : BlkState :=
  let memory := requestMemory requestType 0x400 0x800 200 flags []
  (brokenDevice, { memory with ram := memory.ram.store 0x102 [2, 0] })

theorem failing_reaches (requestType : U8) (flags)
    (h : Admitted (failing requestType flags).1.queue 0 (takeKick (failing requestType flags)))
    (hmore : 0 < ((failing requestType flags).1.queue.driverIndex (failing requestType flags).2.ram - 0).toNat) :
    Reaches (failing requestType flags) [] (takeKick (failing requestType flags)) :=
  ⟨show KickServed brokenDevice by decide, h, .nil _ _, hmore⟩

end VirtioMmioBlk

end Rish.SoftVm.Virtio
