/-
  Rish.SoftVm.Virtio.Disk — the host's disk is never read or written outside its length, whatever the guest does.
-/

import Rish.SoftVm.Virtio.HostErrors
import Rish.SoftVm.Virtio.Reset

namespace Rish.SoftVm.Virtio

open Lib List
open BitVec (ofNat)

def BlockCall.Inside (length : U64) : BlockCall → Prop
  | .readAt offset n => offset.toNat + n ≤ length.toNat
  | .writeAt offset input => offset.toNat + input.length ≤ length.toNat

namespace VirtioMmioBlk

/-- A device of this size that has called its disk inside it only. -/
structure Within (length : U64) (d : VirtioMmioBlk) : Prop where
  sized : Sized d
  size : d.backend.length = length
  inside : ∀ call ∈ d.backend.history, call.Inside length

def Stays (length : U64) (s t : BlkState) : Prop := Within length s.1 → Within length t.1

variable {l : U64}

instance : IsPreorder BlkState (Stays l) where
  refl _ h := h
  trans _ _ _ h h' hs := h' (h hs)

instance : KeptByStores (Stays l) := ⟨fun _ _ _ h => h⟩

theorem Within.congr {d d'} (h : Within l d) (hsectors : d'.capacitySectors = d.capacitySectors)
    (hbackend : d'.backend = d.backend) : Within l d' :=
  ⟨h.sized.congr hsectors (by rw [hbackend]), by rw [hbackend]; exact h.size, by rw [hbackend]; exact h.inside⟩

/-! ## One request -/

instance (data) : Keeps (Stays l) (writeSerial data) := by unfold writeSerial; infer_instance

instance (requestType data) : Keeps (Stays l) (checkDirections requestType data) := by
  unfold checkDirections; infer_instance

instance (status byte n) : Keeps (Stays l) (completeWith status byte n) := by
  unfold completeWith writeStatus; infer_instance

theorem Within.advance {d call} (h : Within l d) (hcall : call.Inside l) :
    Within l (d.advance call) := by
  refine ⟨h.sized, h.size, fun c hc => ?_⟩
  rcases mem_append.mp hc with hc | hc
  · exact h.inside c hc
  · rwa [mem_singleton.mp hc]

theorem backendRead_stays {place n} (h : place.toNat + n ≤ l.toNat) :
    Keeps (Stays l) (backendRead place n) where
  keeps s hs := by
    obtain ⟨bytes, -, hrun⟩ := backendRead_run place n s
    rw [hrun]
    exact hs.advance h

theorem backendWrite_stays {place input} (h : place.toNat + input.length ≤ l.toNat) :
    Keeps (Stays l) (backendWrite place input) where
  keeps s hs := by
    rw [backendWrite_run]
    exact hs.advance h

theorem forEach_stays {α : Type} {f : α → BlkM Unit} {as} (h : ∀ a ∈ as, Keeps (Stays l) (f a)) :
    Keeps (Stays l) (forEach f as) := by
  induction as with
  | nil => exact inferInstanceAs (Keeps _ (pure ()))
  | cons a as ih =>
    have hfirst := h a mem_cons_self
    have hrest := ih fun b hb => h b (mem_cons_of_mem a hb)
    exact inferInstanceAs (Keeps _ (f a >>= fun _ => forEach f as))

theorem segmentOffsets_le {start base : Nat} {d data} (h : (d, base) ∈ segmentOffsets start data) :
    base + d.length.toNat ≤ start + totalBytes data := by
  induction data generalizing start with
  | nil => cases h
  | cons e data ih =>
    rw [totalBytes_cons]
    rcases mem_cons.mp h with h | h
    · cases h
      omega
    · have := ih h
      omega

theorem pieces_le {start : Nat} {p data} (h : p ∈ pieces start data) :
    (ofNat 64 (p.base + p.done)).toNat + p.step ≤ start + totalBytes data := by
  obtain ⟨⟨d, base⟩, hd, hp⟩ := mem_flatMap.mp h
  obtain ⟨⟨done, step⟩, hpiece, rfl⟩ := mem_map.mp hp
  have hmod := Nat.mod_le (base + done) (2 ^ 64)
  have hstep := mem_chunks hpiece
  have hbase := segmentOffsets_le hd
  rw [BitVec.toNat_ofNat]
  dsimp only
  omega

section

variable {start : Nat} {data : List QueueDescriptor} (h : start + totalBytes data ≤ l.toNat)
include h

theorem copyFromBackend_stays : Keeps (Stays l) (copyFromBackend data start) := by
  have hcopy : copyFromBackend data start = forEach Piece.readFrom (pieces start data) := by
    rw [forEach_pieces]
    rfl
  rw [hcopy]
  refine forEach_stays fun p hp => ?_
  have := backendRead_stays ((pieces_le hp).trans h)
  unfold Piece.readFrom
  infer_instance

theorem copyToBackend_stays : Keeps (Stays l) (copyToBackend data start) := by
  have hcopy : copyToBackend data start = forEach Piece.writeTo (pieces start data) := by
    rw [forEach_pieces]
    rfl
  rw [hcopy]
  refine forEach_stays fun p hp => .bind fun a => ⟨fun s hs => ?_⟩
  have hread : readMemory a p.step s =
      ⟨checkRange s.2 a p.step >>= fun _ => .ok (s.2.ram.load a.toNat p.step), s, 1⟩ := rfl
  rcases hcheck : checkRange s.2 a p.step with ⟨⟩ | e | _ <;> rw [hcheck] at hread
  · have hlength : (s.2.ram.load a.toNat p.step).length = p.step := by simp [Ram.load]
    rw [Exec.bind_ok hread]
    exact (backendWrite_stays (by rw [hlength]; exact (pieces_le hp).trans h)).keeps s hs
  · rwa [Exec.bind_err hread]
  · rwa [Exec.bind_panic hread]

end

instance (requestType sector data status) : Keeps (Stays l) (serveRequest requestType sector data status) where
  keeps s hs := by
    unfold serveRequest
    rw [Exec.view_bind]
    dsimp only
    -- the one check that bounds a transfer; the pieces stay in the range it admits
    have hfits : ∀ finish, s.1.checkedRange sector (totalBytes data) = some finish →
        sector.toNat * SECTOR_SIZE + totalBytes data ≤ l.toNat := by
      intro finish hrange
      rw [checkedRange, hs.sized, hs.size] at hrange
      split at hrange
      · cases hrange
      · omega
    generalize s.1.checkedRange sector (totalBytes data) = range at *
    refine (?_ : Keeps (Stays l) _).keeps s hs
    cases range with
    | none => infer_instance
    | some finish =>
      have := copyFromBackend_stays (hfits finish rfl)
      have := copyToBackend_stays (hfits finish rfl)
      split_ifs
      · infer_instance
      · exact .bind fun o => by rcases o with _ | ⟨_ | _ | _⟩ | _ <;> infer_instance
      · infer_instance
      · infer_instance

instance (head) : Keeps (Stays l) (processRequest head) := by
  unfold processRequest
  refine .bind fun queue => .bind fun chain => ?_
  rcases chain with _ | ⟨header, rest⟩
  · infer_instance
  · dsimp only
    cases rest.getLast? <;> infer_instance

instance : Keeps (Stays l) pollKick := by
  unfold pollKick
  refine .bind fun d => ?_
  split
  · infer_instance
  · have : Keeps (Stays l) (Exec.update fun (d, m) => ({ d with kickPending := false }, m) : BlkM Unit) :=
      .update fun s hs => hs.congr rfl rfl
    refine .bind fun _ => ?_
    split
    · infer_instance
    · refine .bind fun o => ?_
      rcases o with _ | e | _
      · exact ⟨fun s hs => hs.congr rfl rfl⟩
      · exact ⟨fun s hs => hs.congr rfl rfl⟩
      · infer_instance

end VirtioMmioBlk

/-- Whatever the driver writes to the registers and the guest to its RAM, in any order, every call of a new device on
    its disk lies inside the disk. -/
theorem disk_never_left (backend : BlockBackend) (d : VirtioMmioBlk) (h : VirtioMmioBlk.new backend = .ok d)
    (hnew : backend.history = []) (m : DeviceMemory) (accesses : List Access) :
    ∀ call ∈ (VirtioMmioBlk.device.run (d, m) accesses).1.backend.history, call.Inside backend.length := by
  have hbackend : d.backend = backend := by
    unfold VirtioMmioBlk.new at h
    split_ifs at h
    cases h
    rfl
  have hwithin : VirtioMmioBlk.Within backend.length d := by
    refine ⟨VirtioMmioBlk.new_sized h, by rw [hbackend], ?_⟩
    rw [hbackend, hnew]
    exact fun call hcall => by cases hcall
  refine (RegisterDevice.run_invariant (D := VirtioMmioBlk.device) (P := VirtioMmioBlk.Within backend.length)
    (fun d offset value hd => ?_) (fun d m hd => ?_) (s := (d, m)) hwithin accesses).inside
  · exact hd.congr (d.mmioWrite_capacitySectors offset value) (d.mmioWrite_backend offset value)
  · exact Keeps.keeps (R := VirtioMmioBlk.Stays backend.length) (x := VirtioMmioBlk.pollKick) (d, m) hd

open Mmio in
/-- A driver sets up the queue and publishes the request in RAM. -/
def oneRequest : List Access :=
  [.write STATUS 4, .write QUEUE_NUM 4, .write QUEUE_AVAIL_LOW 0x100, .write QUEUE_USED_LOW 0x200, .write QUEUE_READY 1,
    .guest 0x102 [1], .write QUEUE_NOTIFY 0, .poll]

theorem one_request_inside :
    let s := VirtioMmioBlk.device.run
      (⟨VirtioMmioBlk.memoryDisk, 2, 0, 0, 0, (0, 0), 0, 0, .empty, false, 0, 0, false, none⟩, VirtioMmioBlk.writing.2)
        oneRequest
    s.1.backend.history.length = 2 ∧ ∀ call ∈ s.1.backend.history, call.Inside 1024 :=
  ⟨by decide +kernel, disk_never_left VirtioMmioBlk.memoryDisk _ rfl rfl _ _⟩

end Rish.SoftVm.Virtio
