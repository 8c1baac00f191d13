/-
  Rish.SoftVm.Virtio.Completion — when a poll of a device reports what it completed.

  The block and the network device publish used elements as they go and report at the end. A failure
  on the way latches the fault and reports nothing, whatever was published before it.
-/

import Rish.Lib.Rules
import Rish.Lib.Loop
import Rish.SoftVm.Virtio.Net
import Rish.SoftVm.Virtio.Drain

namespace Rish.SoftVm.Virtio

open Lib List
open Run (eq_of_outcome after_outcome)
open BitVec (ofNat)
open Exec (bind_eq_ok bind_ok bind_err view_bind update_bind pure_apply bind_failure update query attempt view)

/-! ## What the queue programs keep -/

section Keeps

variable {σ : Type} {R : σ × DeviceMemory → σ × DeviceMemory → Prop}

class KeptByStores (R : σ × DeviceMemory → σ × DeviceMemory → Prop) : Prop where
  store : ∀ s start input, R s (s.1, { s.2 with ram := s.2.ram.store start input, wrote := true })

variable [IsPreorder (σ × DeviceMemory) R]

instance (address n) : Keeps R (readMemory address n) := by
  unfold readMemory; infer_instance

instance (address) : Keeps R (readU16 address) := by unfold readU16; infer_instance

instance (address) : Keeps R (readU32 address) := by unfold readU32; infer_instance

instance (address) : Keeps R (readU64 address) := by unfold readU64; infer_instance

instance (a b) : Keeps R (offset a b) := by unfold offset; infer_instance

variable (q : QueueLayout)

instance : Keeps R (availIndex q) := by unfold availIndex; infer_instance

instance (slot) : Keeps R (availHead q slot) := by unfold availHead; infer_instance

instance : Keeps R (usedIndex q) := by unfold usedIndex; infer_instance

set_option synthInstance.maxSize 512 in
instance (q index) : Keeps R (readDescriptor q index) := by
  unfold readDescriptor; infer_instance

instance (room index chain) : Keeps R (chainFrom q room index chain) := by
  induction room generalizing index chain with
  | zero =>
    unfold chainFrom
    infer_instance
  | succ room ih =>
    unfold chainFrom
    split
    · infer_instance
    · exact Keeps.bind fun p => by cases p; infer_instance

instance (chain) : Keeps R (checkChainRanges chain) := by
  induction chain <;> (unfold checkChainRanges; infer_instance)

instance (head) : Keeps R (readChain q head) := by
  unfold readChain; infer_instance

instance (head) : Keeps R (validatedChain q head) := by
  unfold validatedChain; infer_instance

instance {α : Type} (f : α → Device σ Unit) [∀ a, Keeps R (f a)] (l : List α) :
    Keeps R (VirtioMmioBlk.forEach f l) := by
  induction l <;> (unfold VirtioMmioBlk.forEach; infer_instance)

variable [KeptByStores R]

instance (address input) : Keeps R (writeMemory address input) := by
  have h : Keeps R (update fun (d, m) => (d, { m with ram := m.ram.store address.toNat input, wrote := true }) :
      Device σ Unit) := .update fun s => KeptByStores.store s _ _
  unfold writeMemory
  infer_instance

set_option synthInstance.maxSize 512 in
instance (q used id length) : Keeps R (writeUsed q used id length) := by
  unfold writeUsed; infer_instance

variable (process : U16 → Device σ U32) [∀ head, Keeps R (process head)]

instance (q index) : Keeps R (serve q process index) := by unfold serve; infer_instance

instance (q avail fuel index completed) : Keeps R (drainFrom q avail process fuel index completed) := by
  induction fuel generalizing index completed <;> (unfold drainFrom; infer_instance)

instance (q lastSeen) : Keeps R (drainAvailable q lastSeen process) := by
  unfold drainAvailable; infer_instance

end Keeps

/-- The state is left as it is. -/
def Unchanged {σ : Type} (s t : σ) : Prop := t = s

instance {σ : Type} : IsPreorder σ Unchanged where
  refl _ := rfl
  trans _ _ _ h h' := h'.trans h

/-! ## Why they do not panic -/

section Safe

variable {σ : Type} {Q : σ → Prop} {L : U64} {q : QueueLayout}

/-- The device is in a state of one kind and RAM is this long. -/
def At (Q : σ → Prop) (L : U64) (s : σ × DeviceMemory) : Prop := Q s.1 ∧ s.2.ram.len = L

theorem checkRange_ne_panic (m address n) : checkRange m address n ≠ .panic := by
  unfold checkRange
  split <;> nofun

instance (address n) : Safe (At Q L) (readMemory address n) := by
  refine .query fun s _ => ?_
  simp only [checkRange]
  split <;> nofun

instance (address input) : Safe (At Q L) (writeMemory address input) := by
  have h : Safe (At Q L) (query 1 fun (_, m) => checkRange m address input.length : Device σ Unit) :=
    .query fun s _ => checkRange_ne_panic _ _ _
  have h' : Safe (At Q L) (update fun (d, m) =>
      (d, { m with ram := m.ram.store address.toNat input, wrote := true }) : Device σ Unit) :=
    .update fun s hs => ⟨hs.1, hs.2⟩
  unfold writeMemory
  infer_instance

theorem offset_safe {a b} (h : a.toNat + b.toNat < 2 ^ 64) : Safe (At Q L) (offset a b : Device σ U64) := by
  refine .lift ?_
  rw [Outcome.add, if_pos h]
  nofun

theorem safe_of_ok {α : Type} {x : Device σ α} (h : ∀ s, At Q L s → ∃ a n, x s = ⟨.ok a, s, n⟩) : Safe (At Q L) x where
  safe s hs := by
    obtain ⟨a, n, hx⟩ := h s hs
    rw [hx]
    exact ⟨nofun, hs⟩

section

variable [hfits : Fact (q.Fits L)]

instance : Safe (At Q L) (availIndex q) := safe_of_ok fun _ hs => ⟨_, _, availIndex_ok (hs.2 ▸ hfits.out)⟩

instance : Safe (At Q L) (usedIndex q) := safe_of_ok fun _ hs => ⟨_, _, usedIndex_ok (hs.2 ▸ hfits.out)⟩

instance (index) : Safe (At Q L) (availHead q index) := by
  by_cases hsize : q.size = 0
  · rw [availHead, if_pos hsize]
    infer_instance
  · exact safe_of_ok fun _ hs => ⟨_, _, availHead_ok (hs.2 ▸ hfits.out) hsize index⟩

instance (index id length) : Safe (At Q L) (writeUsed q index id length) := by
  by_cases hsize : q.size = 0
  · rw [writeUsed, if_pos hsize]
    infer_instance
  · refine ⟨fun s hs => ?_⟩
    rw [writeUsed_ok (hs.2 ▸ hfits.out) hsize]
    refine ⟨fun hpanic => ?_, hs.1, hs.2⟩
    cases hpanic

instance (process) [∀ head, Safe (At Q L) (process head)] (avail fuel index completed) :
    Safe (At Q L) (drainFrom q avail process fuel index completed) := by
  induction fuel generalizing index completed <;> (unfold drainFrom; infer_instance)

end

theorem validate_ne_panic (q : QueueLayout) (len : U64) : q.validate len ≠ .panic := by
  have hring (base : U64) (bytes : Nat) : validateRing len base bytes ≠ .panic := by
    unfold validateRing
    split
    · nofun
    · split <;> nofun
  have hbind {x y : Outcome VirtioError Unit} (hx : x ≠ .panic) (hy : y ≠ .panic) : (x >>= fun _ => y) ≠ .panic := by
    cases x
    · exact hy
    · nofun
    · exact hx
  exact hbind (hring _ _) (hbind (hring _ _) (hring _ _))

instance (lastSeen avail size) : Safe (At Q L) (Exec.lift (availDelta lastSeen avail size) : Device σ Unit) := by
  refine .lift ?_
  unfold availDelta
  split <;> nofun

instance : Safe (At Q L) (query 0 fun (_, m) => q.validate m.ram.len : Device σ Unit) :=
  .query fun _ _ => validate_ne_panic q _

theorem drainAvailable_safe {process} (hprocess : q.Fits L → ∀ head, Safe (At Q L) (process head))
    (lastSeen : U16) : Safe (At Q L) (drainAvailable q lastSeen process) := by
  unfold drainAvailable
  refine .bind_returned (fun _ => q.Fits L) (fun s a hs h => ?_) fun _ hfits => ?_
  · exact QueueLayout.validate_ok.mp (hs.2 ▸ h)
  · have hhead := hprocess hfits
    have := Fact.mk hfits
    infer_instance

/-! ### Chains -/

def InRam (L : U64) (chain : List QueueDescriptor) : Prop := ∀ d ∈ chain, d.address.toNat + d.length.toNat ≤ L.toNat

variable {chain : List QueueDescriptor} {s : σ × DeviceMemory}

theorem checkChainRanges_ok
    (h : (checkChainRanges chain s).outcome = .ok ()) : InRam s.2.ram.len chain := by
  induction chain with
  | nil => nofun
  | cons d rest ih =>
    rw [checkChainRanges] at h
    obtain ⟨⟨⟩, t, n, m, hcheck, hrest, -⟩ := bind_eq_ok (eq_of_outcome h)
    injection hcheck with hcheck hstate
    subst hstate
    have hrange : d.address.toNat + d.length.toNat ≤ s.2.ram.len.toNat := by
      by_contra hout
      change checkRange s.2 d.address d.length.toNat = .ok () at hcheck
      rw [checkRange, if_neg (fun h => hout h.2)] at hcheck
      cases hcheck
    intro e he
    rcases mem_cons.mp he with rfl | he
    · exact hrange
    · exact ih (by rw [hrest]) e he

theorem validatedChain_returned (head)
    (h : (validatedChain q head s).outcome = .ok chain) : InRam s.2.ram.len chain := by
  obtain ⟨chain', t, n, m, hread, hrest, -⟩ := bind_eq_ok (eq_of_outcome h)
  obtain rfl : t = s := Keeps.run (R := Unchanged) hread
  obtain ⟨⟨⟩, u, n, m, hcheck, hdone, -⟩ := bind_eq_ok hrest
  cases hdone
  exact checkChainRanges_ok (by rw [hcheck])

instance [hfits : Fact (q.Fits L)] (head) : Safe (At Q L) (validatedChain q head) := by
  have hread : Safe (At Q L) (readChain q head : Device σ (List QueueDescriptor)) := by
    refine ⟨fun s hs => ⟨?_, ?_⟩⟩
    · have hinside := readChain_inside (s := s) (hs.2 ▸ hfits.out) head
      intro h
      rw [h] at hinside
      exact hinside
    · have hsame : (readChain q head s).state = s := Keeps.keeps (R := Unchanged) s
      rwa [hsame]
  have hcheck (chain : List QueueDescriptor) : Safe (At Q L) (checkChainRanges chain : Device σ Unit) := by
    induction chain with
    | nil =>
      unfold checkChainRanges
      infer_instance
    | cons d rest ih =>
      have h : Safe (At Q L) (query 0 fun (_, m) => checkRange m d.address d.length.toNat : Device σ Unit) :=
        .query fun s _ => checkRange_ne_panic _ _ _
      unfold checkChainRanges
      infer_instance
  unfold validatedChain
  infer_instance

end Safe

/-! ## The turns of a drain -/

section Turns

variable {σ : Type} (q : QueueLayout)

/-- What the loop does at an index: it is at the driver's, the handler refuses the head, or a turn. -/
def drainNext (avail : U16) (process : U16 → Device σ U32) (place : U16 × (σ × DeviceMemory)) :
    Next Turn (U16 × (σ × DeviceMemory)) :=
  if place.1 = avail then .done
  else
    match serve q process place.1 place.2 with
    | ⟨.ok turn, t, _⟩ => .turn turn (place.1 + 1, t)
    | _ => .refused

variable (lastSeen : U16)

/-- The rings pass the checks made before the first turn. -/
def Admitted (s : σ × DeviceMemory) : Prop :=
  q.validate s.2.ram.len = .ok () ∧ (q.driverIndex s.2.ram - lastSeen).toNat ≤ q.size.toNat

instance (s : σ × DeviceMemory) : Decidable (Admitted q lastSeen s) :=
  inferInstanceAs (Decidable (_ ∧ _))

/-- The used elements a drain writes. A 16-bit index bounds the rounds. -/
def drainTurns (process : U16 → Device σ U32) (s : σ × DeviceMemory) : List Turn :=
  if Admitted q lastSeen s then (turns (drainNext q (q.driverIndex s.2.ram) process) (2 ^ 16) (lastSeen, s)).1 else []

/-- A published head is refused. -/
def DrainRefused (process : U16 → Device σ U32) (s : σ × DeviceMemory) : Prop :=
  Admitted q lastSeen s ∧ StopsRefused (drainNext q (q.driverIndex s.2.ram) process) (2 ^ 16) (lastSeen, s)

variable {q}

theorem drainNext_ne_refused {avail : U16} {process : U16 → Device σ U32} {place : U16 × (σ × DeviceMemory)}
    (h : place.1 = avail) : drainNext q avail process place ≠ .refused := by
  rw [drainNext, if_pos h]
  nofun

theorem drainFrom_turns (avail : U16) (process : U16 → Device σ U32) (fuel : Nat) (index : U16) (completed : Nat)
    (s : σ × DeviceMemory) :
    (StopsRefused (drainNext q avail process) fuel (index, s) →
      ∀ a, (drainFrom q avail process fuel index completed s).outcome ≠ .ok a) ∧
    (¬StopsRefused (drainNext q avail process) fuel (index, s) →
      ∃ last, (drainFrom q avail process fuel index completed s).outcome =
      .ok (last, completed + (turns (drainNext q avail process) fuel (index, s)).1.length)) := by
  induction fuel generalizing index completed s with
  | zero => exact ⟨fun h => absurd h stopsRefused_zero, fun _ => ⟨index, rfl⟩⟩
  | succ fuel ih =>
    rw [drainFrom_succ]
    by_cases hlast : index = avail
    · have hnext : drainNext q avail process (index, s) = .done := if_pos hlast
      rw [if_pos hlast, turns_done hnext]
      exact ⟨fun h => absurd h (stopsRefused_done hnext), fun _ => ⟨index, rfl⟩⟩
    · rw [if_neg hlast]
      rcases hserve : serve q process index s with ⟨turn | e | _, t, n⟩
      · have hnext : drainNext q avail process (index, s) = .turn turn (index + 1, t) := by
          rw [drainNext, if_neg hlast, hserve]
        rw [bind_ok hserve, stopsRefused_turn hnext, turns_turn hnext, length_cons, after_outcome,
          ← Nat.add_assoc, Nat.add_right_comm]
        exact ih (index + 1) (completed + 1) t
      all_goals
        have hnext : drainNext q avail process (index, s) = .refused := by rw [drainNext, if_neg hlast, hserve]
        refine ⟨fun _ => ?_, fun h => absurd (stopsRefused_refused hnext) h⟩
      · rw [bind_err hserve]
        nofun
      · rw [Exec.bind_panic hserve]
        nofun

/-- A layout that does not fit is refused before anything is served. -/
theorem drainAvailable_invalid {lastSeen} {process : U16 → Device σ U32} {s : σ × DeviceMemory}
    (h : q.validate s.2.ram.len ≠ .ok ()) :
    (∀ a, (drainAvailable q lastSeen process s).outcome ≠ .ok a) ∧ (drainAvailable q lastSeen process s).state = s := by
  obtain ⟨hfails, hstate⟩ := bind_failure (show ∀ a, (query 0 (fun p => q.validate p.2.ram.len) s).outcome ≠ .ok a from
    fun _ hok => h hok)
  exact ⟨hfails.ne_ok, hstate⟩

theorem drainAvailable_turns (lastSeen : U16) (process : U16 → Device σ U32) (s : σ × DeviceMemory) :
    ((∃ last, (drainAvailable q lastSeen process s).outcome = .ok (last, (drainTurns q lastSeen process s).length)) ∧
        ¬DrainRefused q lastSeen process s) ∨
      ((∀ a, (drainAvailable q lastSeen process s).outcome ≠ .ok a) ∧
        (DrainRefused q lastSeen process s ∨ drainTurns q lastSeen process s = [])) := by
  by_cases hvalid : q.validate s.2.ram.len = .ok ()
  · by_cases hnear : (q.driverIndex s.2.ram - lastSeen).toNat ≤ q.size.toNat
    · have hadmitted : Admitted q lastSeen s := ⟨hvalid, hnear⟩
      rw [drainAvailable_near process hvalid hnear, drainTurns, if_pos hadmitted, after_outcome]
      obtain ⟨hrefused, hserved⟩ := drainFrom_turns (q := q) (q.driverIndex s.2.ram) process (2 ^ 16) lastSeen 0 s
      by_cases hstop : StopsRefused (drainNext q (q.driverIndex s.2.ram) process) (2 ^ 16) (lastSeen, s)
      · exact .inr ⟨hrefused hstop, .inl ⟨hadmitted, hstop⟩⟩
      · obtain ⟨last, hlast⟩ := hserved hstop
        exact .inl ⟨⟨last, by rw [hlast, Nat.zero_add]⟩, fun h => hstop h.2⟩
    · refine .inr ⟨?_, .inr (if_neg fun h => hnear h.2)⟩
      rw [drainAvailable_far process hvalid (Nat.lt_of_not_ge hnear)]
      nofun
  · exact .inr ⟨(drainAvailable_invalid hvalid).1, .inr (if_neg fun h => hvalid h.1)⟩

end Turns

/-- A poll that reports what it wrote: an element, then a completion and the used-buffer bit; none, then
    neither. -/
structure Reports (written : List Turn) (before after : U32) (outcome : Outcome VirtioError Bool) : Prop where
  some : written ≠ [] → outcome = .ok true ∧ after &&& Mmio.INTERRUPT_USED_RING ≠ 0
  none : written = [] → outcome = .ok false ∧
    after &&& Mmio.INTERRUPT_USED_RING = before &&& Mmio.INTERRUPT_USED_RING

variable {written : List Turn} {before : U32}

theorem Reports.counted :
    Reports written before (if written.length > 0 then before ||| Mmio.INTERRUPT_USED_RING else before)
      (.ok (written.length > 0)) := by
  cases written with
  | nil => exact ⟨fun h => absurd rfl h, fun _ => ⟨rfl, rfl⟩⟩
  | cons turn written =>
    refine ⟨fun _ => ⟨by simp, ?_⟩, nofun⟩
    rw [if_pos (by simp), Mmio.INTERRUPT_USED_RING]
    intro h
    have hbit := congrArg (fun v : U32 => v.getLsbD 0) h
    simp at hbit

theorem reports_failed_iff : Reports written before before (.ok false) ↔ written = [] := by
  constructor
  · intro h
    by_contra hsome
    cases (h.some hsome).1
  · rintro rfl
    exact ⟨fun h => absurd rfl h, fun _ => ⟨rfl, rfl⟩⟩

/-! ## The block device -/

namespace VirtioMmioBlk

open Mmio

/-- Nothing of the device changed but the calls its backend has had, and RAM is as long as it was. -/
structure OnlyData (s t : BlkState) : Prop where
  device : t.1 = { s.1 with backend := { s.1.backend with history := t.1.backend.history } }
  len : t.2.ram.len = s.2.ram.len

instance : IsPreorder BlkState OnlyData where
  refl _ := ⟨rfl, rfl⟩
  trans _ _ _ h h' := ⟨by rw [h'.device, h.device], h'.len.trans h.len⟩

instance : KeptByStores OnlyData := ⟨fun _ _ _ => ⟨rfl, rfl⟩⟩

instance (offset n) : Keeps OnlyData (backendRead offset n) where
  keeps s := by
    simp only [backendRead, view_bind, update_bind]
    cases s.1.backend.readReply s.1.backend.history offset n <;> exact ⟨rfl, rfl⟩

instance (offset input) : Keeps OnlyData (backendWrite offset input) where
  keeps s := by
    simp only [backendWrite, view_bind, update_bind]
    cases s.1.backend.writeReply s.1.backend.history offset input <;> exact ⟨rfl, rfl⟩

instance (data start) : Keeps OnlyData (copyFromBackend data start) := by
  unfold copyFromBackend; infer_instance

instance (data start) : Keeps OnlyData (copyToBackend data start) := by unfold copyToBackend; infer_instance

instance (data) : Keeps OnlyData (writeSerial data) := by unfold writeSerial; infer_instance

instance (requestType data) : Keeps OnlyData (checkDirections requestType data) := by
  unfold checkDirections; infer_instance

instance (status byte length) : Keeps OnlyData (completeWith status byte length) := by
  unfold completeWith writeStatus; infer_instance

instance (requestType sector data status) : Keeps OnlyData (serveRequest requestType sector data status) := by
  unfold serveRequest
  refine Keeps.bind fun range => ?_
  split_ifs
  · cases range <;> infer_instance
  · cases range with
    | none => infer_instance
    | some _ => exact Keeps.bind fun o => by rcases o with _ | ⟨_ | _ | _⟩ | _ <;> infer_instance
  · infer_instance
  · infer_instance

theorem processRequest_onlyData (head) : Keeps OnlyData (processRequest head) := by
  unfold processRequest
  refine .bind fun queue => .bind fun chain => ?_
  rcases chain with _ | ⟨header, rest⟩
  · infer_instance
  · simp only
    cases rest.getLast? <;> infer_instance

theorem forEach_safe {α σ : Type} {P : σ × DeviceMemory → Prop} {f} {l : List α}
    (h : ∀ a ∈ l, Safe P (f a)) : Safe P (forEach f l) := by
  induction l with
  | nil =>
    unfold forEach
    infer_instance
  | cons a l ih =>
    have hfirst := h a (mem_cons_self ..)
    have hrest := ih fun b hb => h b (mem_cons_of_mem _ hb)
    unfold forEach
    infer_instance

theorem mem_segmentOffsets {data} {start base : Nat} {d}
    (h : (d, base) ∈ segmentOffsets start data) : d ∈ data := by
  induction data generalizing start with
  | nil => cases h
  | cons e data ih =>
    rw [segmentOffsets] at h
    rcases mem_cons.mp h with h | h
    · cases h
      exact mem_cons_self ..
    · exact mem_cons_of_mem _ (ih h)

theorem mem_chunks {length done step} (h : (done, step) ∈ chunks length) : done + step ≤ length := by
  obtain ⟨k, hk, heq⟩ := mem_map.mp h
  cases heq
  have hlt := mem_range.mp hk
  unfold TRANSFER_CHUNK_BYTES at *
  omega

variable {q : QueueLayout} {L : U64} {data : List QueueDescriptor}

def OnQueue (q : QueueLayout) (d : VirtioMmioBlk) : Prop := d.queue = q

instance (offset n) : Safe (At (OnQueue q) L) (backendRead offset n) where
  safe s hs := by
    simp only [backendRead, view_bind, update_bind]
    cases s.1.backend.readReply s.1.backend.history offset n <;> exact ⟨nofun, hs.1, hs.2⟩

instance (offset input) : Safe (At (OnQueue q) L) (backendWrite offset input) where
  safe s hs := by
    simp only [backendWrite, view_bind, update_bind]
    cases s.1.backend.writeReply s.1.backend.history offset input <;> exact ⟨nofun, hs.1, hs.2⟩

section

variable (hdata : InRam L data)
include hdata

theorem pieces_safe (start : Nat) (body : QueueDescriptor → Nat → Nat → Nat → BlkM Unit)
    (hbody : ∀ d base done step, Safe (At (OnQueue q) L) (offset d.address (ofNat 64 done) : BlkM U64) →
      Safe (At (OnQueue q) L) (body d base done step)) :
    Safe (At (OnQueue q) L) (forEach (fun (d, base) =>
      forEach (fun (done, step) => body d base done step) (chunks d.length.toNat)) (segmentOffsets start data)) := by
  refine forEach_safe fun (d, base) hd => forEach_safe fun (done, step) hpiece => ?_
  have hmem := mem_segmentOffsets hd
  have hfits := hdata d hmem
  have hstep := mem_chunks hpiece
  refine hbody d base done step (offset_safe ?_)
  rw [ofNat_toNat_of_lt (by omega)]
  by_cases hzero : step = 0
  · -- an empty piece has no place in the list
    obtain ⟨k, hk, heq⟩ := mem_map.mp hpiece
    cases heq
    unfold TRANSFER_CHUNK_BYTES at *
    omega
  · omega

theorem copyFromBackend_safe (start : Nat) : Safe (At (OnQueue q) L) (copyFromBackend data start) := by
  refine pieces_safe hdata start (fun d base done step => do
    let buffer ← backendRead (ofNat 64 (base + done)) step
    writeMemory (← offset d.address (ofNat 64 done)) buffer) fun d base done step hoffset => ?_
  infer_instance

theorem copyToBackend_safe (start : Nat) : Safe (At (OnQueue q) L) (copyToBackend data start) := by
  refine pieces_safe hdata start (fun d base done step => do
    let buffer ← readMemory (← offset d.address (ofNat 64 done)) step
    backendWrite (ofNat 64 (base + done)) buffer) fun d base done step hoffset => ?_
  infer_instance

theorem writeSerial_safe : Safe (At (OnQueue q) L) (writeSerial data) := by
  refine pieces_safe hdata 0 (fun d base done step => do
    let written := base + done
    writeMemory (← offset d.address (ofNat 64 done)) (serialPiece (written + done) step))
    fun d base done step hoffset => ?_
  simp only
  infer_instance

end

instance (status byte length) : Safe (At (OnQueue q) L) (completeWith status byte length) := by
  unfold completeWith writeStatus; infer_instance

theorem serveRequest_safe (hdata : InRam L data) (requestType sector status) :
    Safe (At (OnQueue q) L) (serveRequest requestType sector data status) := by
  have hread := copyFromBackend_safe (q := q) hdata (sector.toNat * SECTOR_SIZE)
  have hwrite := copyToBackend_safe (q := q) hdata (sector.toNat * SECTOR_SIZE)
  have hserial := writeSerial_safe (q := q) hdata
  unfold serveRequest
  refine .bind_returned (fun _ => True) (fun _ _ _ _ => trivial) fun range _ => ?_
  split_ifs
  · cases range <;> infer_instance
  · cases range with
    | none => infer_instance
    | some _ =>
      refine .attempt_bind fun o ho => ?_
      rcases o with _ | ⟨_ | _ | _⟩ | _
      all_goals first | infer_instance | exact absurd rfl ho
  · infer_instance
  · infer_instance

theorem processRequest_safe [Fact (q.Fits L)] (head) : Safe (At (OnQueue q) L) (processRequest head) := by
  unfold processRequest
  refine .bind_returned (· = q) (fun s a hs h => ?_) fun q' hq => ?_
  · cases h
    exact hs.1
  · subst hq
    refine .bind_returned (InRam L) (fun s chain hs h => hs.2 ▸ validatedChain_returned head h) fun chain hram => ?_
    rcases chain with _ | ⟨header, rest⟩
    · infer_instance
    · simp only
      have hdata : InRam L rest.dropLast := fun d hd =>
        hram d (mem_cons_of_mem _ (dropLast_subset _ hd))
      have hserve (requestType : U32) (sector : U64) (status : QueueDescriptor) :=
        serveRequest_safe (q := q') hdata requestType sector status
      have hdirections (requestType : U32) :
          Safe (At (OnQueue q') L) (checkDirections requestType rest.dropLast) := by
        unfold checkDirections
        infer_instance
      cases rest.getLast? <;> infer_instance

/-! ### Polls -/

def KickServed (d : VirtioMmioBlk) : Prop :=
  d.kickPending = true ∧ ¬(d.fault.isSome ∨ !d.queueReady ∨ d.queue.size = 0 ∨ d.status &&& STATUS_DRIVER_OK = 0)

instance (d : VirtioMmioBlk) : Decidable (KickServed d) := inferInstanceAs (Decidable (_ ∧ _))

variable (s : BlkState)

def takeKick : BlkState :=
  ({ s.1 with kickPending := false }, s.2)

/-- The used elements a poll writes. -/
def kickTurns : List Turn :=
  if KickServed s.1 then drainTurns s.1.queue s.1.lastSeenAvail processRequest (takeKick s) else []

/-- A request is refused in a batch that completed another one before it. -/
def RefusedLate : Prop :=
  KickServed s.1 ∧ kickTurns s ≠ [] ∧ DrainRefused s.1.queue s.1.lastSeenAvail processRequest (takeKick s)

theorem pollKick_idle {s} (h : ¬KickServed s.1) :
    (pollKick s).outcome = .ok false ∧ (pollKick s).state.1.irqStatus = s.1.irqStatus := by
  simp only [pollKick, view_bind]
  split
  · exact ⟨rfl, rfl⟩
  next hkick =>
    simp only [update_bind]
    rw [if_pos (by by_contra hgate; exact h ⟨by simpa using hkick, hgate⟩)]
    exact ⟨rfl, rfl⟩

theorem pollKick_served {s} (h : KickServed s.1) : pollKick s = (do
      match ← attempt (drainAvailable s.1.queue s.1.lastSeenAvail processRequest) with
      | .ok (lastSeen, completed) =>
        update fun (d, m) =>
          ({ d with
              lastSeenAvail := lastSeen
              irqStatus := if completed > 0 then d.irqStatus ||| INTERRUPT_USED_RING else d.irqStatus }, m)
        return completed > 0
      | .err e =>
        update fun (d, m) => ({ d with fault := some ("virtio-blk stopped servicing: " ++ e.text) }, m)
        return false
      | .panic => Exec.lift .panic : BlkM Bool) (takeKick s) := by
  rw [pollKick, view_bind, if_neg (by simp [h.1]), update_bind, if_neg h.2]
  rfl

theorem drain_ne_panic : (drainAvailable s.1.queue s.1.lastSeenAvail processRequest (takeKick s)).outcome ≠ .panic :=
  ((drainAvailable_safe (Q := OnQueue s.1.queue)
    (fun h => have := Fact.mk h; processRequest_safe) s.1.lastSeenAvail).safe
    (takeKick s) ⟨rfl, rfl⟩).1

theorem drain_onlyData :
    OnlyData (takeKick s) (drainAvailable s.1.queue s.1.lastSeenAvail processRequest (takeKick s)).state :=
  have := processRequest_onlyData
  Keeps.keeps _

theorem pollKick_reports_iff :
    Reports (kickTurns s) s.1.irqStatus (pollKick s).state.1.irqStatus (pollKick s).outcome ↔ ¬RefusedLate s := by
  by_cases hserved : KickServed s.1
  · have hframe := drain_onlyData s
    have hturns : kickTurns s = drainTurns s.1.queue s.1.lastSeenAvail processRequest (takeKick s) := if_pos hserved
    rw [pollKick_served hserved]
    have hirq : ∀ t, OnlyData (takeKick s) t → t.1.irqStatus = s.1.irqStatus := fun t h => by rw [h.device]; rfl
    rcases drainAvailable_turns (q := s.1.queue) s.1.lastSeenAvail processRequest (takeKick s) with
      ⟨⟨last, hok⟩, hnot⟩ | ⟨hfail, hwhy⟩
    · rcases hrun : drainAvailable s.1.queue s.1.lastSeenAvail processRequest (takeKick s) with ⟨o, t, n⟩
      rw [hrun] at hok hframe
      cases hok
      rw [bind_ok (show attempt _ _ = _ by rw [attempt, hrun])]
      simp only [update_bind, after_outcome, Run.after_state, pure_apply, hirq t hframe, ← hturns]
      refine iff_of_true .counted fun h => hnot h.2.2
    · rcases hrun : drainAvailable s.1.queue s.1.lastSeenAvail processRequest (takeKick s) with ⟨a | e | _, t, n⟩
      · exact absurd (by rw [hrun]) (hfail a)
      · rw [hrun] at hframe
        rw [bind_ok (show attempt _ _ = _ by rw [attempt, hrun])]
        simp only [update_bind, after_outcome, Run.after_state, pure_apply, hirq t hframe]
        rw [reports_failed_iff]
        constructor
        · exact fun hnone h => h.2.1 hnone
        · intro hlate
          by_contra hsome
          rcases hwhy with hrefused | hnone
          · exact hlate ⟨hserved, hsome, hrefused⟩
          · exact hsome (hturns.trans hnone)
      · exact absurd (by rw [hrun]) (drain_ne_panic s)
  · obtain ⟨hout, hirq⟩ := pollKick_idle hserved
    have hturns : kickTurns s = [] := if_neg hserved
    rw [hout, hirq, hturns]
    exact iff_of_true (reports_failed_iff.mpr rfl) fun h => hserved h.1

end VirtioMmioBlk

/-! ## The network device -/

namespace VirtioMmioNet

open Mmio

structure OnlyTraffic (s t : NetState) : Prop where
  irqStatus : t.1.irqStatus = s.1.irqStatus
  queues : t.1.queues = s.1.queues
  len : t.2.ram.len = s.2.ram.len

instance : IsPreorder NetState OnlyTraffic where
  refl _ := ⟨rfl, rfl, rfl⟩
  trans _ _ _ h h' := ⟨h'.irqStatus.trans h.irqStatus, h'.queues.trans h.queues, h'.len.trans h.len⟩

instance : KeptByStores OnlyTraffic := ⟨fun _ _ _ => ⟨rfl, rfl, rfl⟩⟩

/-- The device has these queues. -/
def OnQueues (queues : Fin 2 → QueueLayout) (d : VirtioMmioNet) : Prop := d.queues = queues

/-- A change of the device that leaves its interrupt status and its queues alone. -/
def Traffic (f : VirtioMmioNet → VirtioMmioNet) : Prop :=
  ∀ d, (f d).irqStatus = d.irqStatus ∧ (f d).queues = d.queues

variable {queues : Fin 2 → QueueLayout} {L : U64} {f : VirtioMmioNet → VirtioMmioNet}

instance [h : Fact (Traffic f)] : Keeps OnlyTraffic (modifyDevice f) :=
  .update fun s => ⟨(h.out s.1).1, (h.out s.1).2, rfl⟩

instance [h : Fact (Traffic f)] : Safe (At (OnQueues queues) L) (modifyDevice f) :=
  .update fun s hs => ⟨(h.out s.1).2.trans hs.1, hs.2⟩

theorem pushFrame_traffic (frame) : Traffic (pushFrame · frame) := by
  intro d
  simp only [pushFrame]
  split <;> exact ⟨rfl, rfl⟩

instance : Fact (Traffic pollBackend) := by
  refine ⟨fun d => ?_⟩
  have hfold (frames : List (List U8)) (d : VirtioMmioNet) :
      (frames.foldl pushFrame d).irqStatus = d.irqStatus ∧ (frames.foldl pushFrame d).queues = d.queues := by
    induction frames generalizing d with
    | nil => exact ⟨rfl, rfl⟩
    | cons frame frames ih =>
      obtain ⟨hirq, hqueues⟩ := pushFrame_traffic frame d
      exact ⟨(ih _).1.trans hirq, (ih _).2.trans hqueues⟩
  unfold pollBackend
  simp only
  split
  · exact hfold _ _
  · exact ⟨rfl, rfl⟩

/-! ### Transmit -/

instance (segments room) : Keeps OnlyTraffic (gather segments room) := by
  induction segments generalizing room <;> (unfold gather; infer_instance)

theorem gather_safe {segments}
    (h : ∀ p ∈ segments, p.1.address.toNat + p.1.length.toNat ≤ L.toNat) (room : Nat) :
    Safe (At (OnQueues queues) L) (gather segments room) := by
  induction segments generalizing room with
  | nil =>
    unfold gather
    infer_instance
  | cons segment rest ih =>
    rcases segment with ⟨d, start⟩
    have hrest (room : Nat) := ih (fun p hp => h p (mem_cons_of_mem _ hp)) room
    have hfits : d.address.toNat + d.length.toNat ≤ L.toNat := h (d, start) (mem_cons_self ..)
    unfold gather
    simp only
    split
    next hstep =>
      have hoffset : Safe (At (OnQueues queues) L) (offset d.address (ofNat 64 start) : NetM U64) := by
        refine offset_safe ?_
        rw [ofNat_toNat_of_lt (by omega)]
        omega
      infer_instance
    · exact hrest room

instance : Fact (Traffic fun d => { d with txDropped := saturatingSucc d.txDropped }) := ⟨fun _ => ⟨rfl, rfl⟩⟩

instance (frame : List U8) : Fact (Traffic fun d => { d with backend := d.backend.call (.enqueue frame) }) :=
  ⟨fun _ => ⟨rfl, rfl⟩⟩

theorem processTx_keeps (head) : Keeps OnlyTraffic (processTx head) := by
  unfold processTx
  refine .bind fun queue => .bind fun chain => ?_
  rcases chain with _ | ⟨first, rest⟩
  · infer_instance
  · simp only
    infer_instance

theorem processTx_safe [Fact ((queues QUEUE_TX).Fits L)] (head) :
    Safe (At (OnQueues queues) L) (processTx head) := by
  unfold processTx
  refine .bind_returned (· = queues QUEUE_TX) (fun s a hs h => ?_) fun queue hqueue => ?_
  · cases h
    exact congrFun hs.1 QUEUE_TX
  · subst hqueue
    refine .bind_returned (InRam L) (fun s chain hs h => hs.2 ▸ validatedChain_returned head h) fun chain hram => ?_
    rcases chain with _ | ⟨first, rest⟩
    · infer_instance
    · simp only
      have hgather (room : Nat) : Safe (At (OnQueues queues) L)
          (gather ((first, min VIRTIO_NET_HDR_BYTES first.length.toNat) :: rest.map (·, 0)) room) := by
        refine gather_safe (fun p hp => ?_) room
        rcases mem_cons.mp hp with rfl | hp
        · exact hram first (mem_cons_self ..)
        · obtain ⟨d, hd, rfl⟩ := mem_map.mp hp
          exact hram d (mem_cons_of_mem _ hd)
      infer_instance

/-! ### Receive -/

instance (chain bytes) : Keeps OnlyTraffic (scatter chain bytes) := by
  induction chain generalizing bytes <;> (unfold scatter; infer_instance)

instance (chain bytes) : Safe (At (OnQueues queues) L) (scatter chain bytes) := by
  induction chain generalizing bytes <;> (unfold scatter; infer_instance)

instance : Fact (Traffic fun d => { d with rxDropped := saturatingSucc d.rxDropped }) := ⟨fun _ => ⟨rfl, rfl⟩⟩

/-- The handler of a receive turn: the frame is off the backlog once the head is known. -/
def takeFrame (frame : List U8) (backlog : List (List U8)) (head : U16) : NetM U32 := do
  modifyDevice fun d => { d with rxBacklog := backlog }
  processRx head frame

def advanceRx (d : VirtioMmioNet) : VirtioMmioNet :=
  { d with lastSeenAvail := Function.update d.lastSeenAvail QUEUE_RX (d.lastSeenAvail QUEUE_RX + 1) }

instance (backlog : List (List U8)) : Fact (Traffic fun d => { d with rxBacklog := backlog }) := ⟨fun _ => ⟨rfl, rfl⟩⟩

instance : Fact (Traffic advanceRx) := ⟨fun _ => ⟨rfl, rfl⟩⟩

instance (head frame) : Keeps OnlyTraffic (processRx head frame) := by unfold processRx; infer_instance

instance (frame backlog head) : Keeps OnlyTraffic (takeFrame frame backlog head) := by
  unfold takeFrame; infer_instance

instance [Fact ((queues QUEUE_RX).Fits L)] (frame backlog head) :
    Safe (At (OnQueues queues) L) (takeFrame frame backlog head) := by
  have hprocess : Safe (At (OnQueues queues) L) (processRx head frame) := by
    unfold processRx
    refine .bind_returned (· = queues QUEUE_RX) (fun s a hs h => ?_) fun queue hqueue => ?_
    · cases h
      exact congrFun hs.1 QUEUE_RX
    · subst hqueue
      infer_instance
  unfold takeFrame
  infer_instance

theorem fillFrom_succ (queue batch completed) : fillFrom queue (batch + 1) completed = (do
      let d ← view Prod.fst
      match d.rxBacklog with
      | [] => return completed
      | frame :: backlog => do
        let avail ← availIndex queue
        if d.lastSeenAvail QUEUE_RX = avail then return completed
        else do
          Exec.lift (availDelta (d.lastSeenAvail QUEUE_RX) avail queue.size)
          let _ ← serve queue (takeFrame frame backlog) (d.lastSeenAvail QUEUE_RX)
          modifyDevice advanceRx
          fillFrom queue batch (completed + 1)) := by
  simp only [fillFrom, serve, takeFrame, bind_assoc, pure_bind]
  rfl

instance (queue batch completed) : Keeps OnlyTraffic (fillFrom queue batch completed) := by
  induction batch generalizing completed with
  | zero =>
    unfold fillFrom
    infer_instance
  | succ batch ih =>
    rw [fillFrom_succ]
    refine .bind fun d => ?_
    cases d.rxBacklog <;> infer_instance

instance [Fact ((queues QUEUE_RX).Fits L)] (batch completed) :
    Safe (At (OnQueues queues) L) (fillFrom (queues QUEUE_RX) batch completed) := by
  have hserve (frame : List U8) (backlog : List (List U8)) (index : U16) :
      Safe (At (OnQueues queues) L) (serve (queues QUEUE_RX) (takeFrame frame backlog) index) := by
    unfold serve
    infer_instance
  induction batch generalizing completed with
  | zero =>
    unfold fillFrom
    infer_instance
  | succ batch ih =>
    rw [fillFrom_succ]
    refine .bind_returned (fun _ => True) (fun _ _ _ _ => trivial) fun d _ => ?_
    cases d.rxBacklog <;> infer_instance

/-- What the receive loop does: no frame or no buffer is left, the driver's index is too far ahead or
    the buffer is refused, or a turn. -/
def fillNext (queue : QueueLayout) (s : NetState) : Next Turn NetState :=
  match s.1.rxBacklog with
  | [] => .done
  | frame :: backlog =>
    if s.1.lastSeenAvail QUEUE_RX = queue.driverIndex s.2.ram then .done
    else if (queue.driverIndex s.2.ram - s.1.lastSeenAvail QUEUE_RX).toNat > queue.size.toNat then .refused
    else
      match serve queue (takeFrame frame backlog) (s.1.lastSeenAvail QUEUE_RX) s with
      | ⟨.ok turn, t, _⟩ => .turn turn (advanceRx t.1, t.2)
      | _ => .refused

variable {s : NetState}

theorem fillFrom_turns {queue} (batch completed) (hfits : queue.Fits s.2.ram.len) :
    (StopsRefused (fillNext queue) batch s → ∀ a, (fillFrom queue batch completed s).outcome ≠ .ok a) ∧
    (¬StopsRefused (fillNext queue) batch s →
      (fillFrom queue batch completed s).outcome = .ok (completed + (turns (fillNext queue) batch s).1.length)) := by
  induction batch generalizing completed s with
  | zero => exact ⟨fun h => absurd h stopsRefused_zero, fun _ => rfl⟩
  | succ batch ih =>
    rw [fillFrom_succ, view_bind]
    rcases hbacklog : s.1.rxBacklog with _ | ⟨frame, backlog⟩
    · have hnext : fillNext queue s = .done := by rw [fillNext, hbacklog]
      rw [turns_done hnext]
      exact ⟨fun h => absurd h (stopsRefused_done hnext), fun _ => rfl⟩
    · simp only
      rw [bind_ok (availIndex_ok hfits), after_outcome]
      by_cases hlast : s.1.lastSeenAvail QUEUE_RX = queue.driverIndex s.2.ram
      · have hnext : fillNext queue s = .done := by simp only [fillNext, hbacklog, if_pos hlast]
        rw [if_pos hlast, turns_done hnext]
        exact ⟨fun h => absurd h (stopsRefused_done hnext), fun _ => rfl⟩
      · rw [if_neg hlast]
        by_cases hfar : (queue.driverIndex s.2.ram - s.1.lastSeenAvail QUEUE_RX).toNat > queue.size.toNat
        · have hnext : fillNext queue s = .refused := by
            simp only [fillNext, hbacklog, if_neg hlast, if_pos hfar]
          rw [availDelta, if_pos hfar]
          refine ⟨fun _ a hok => ?_, fun h => absurd (stopsRefused_refused hnext) h⟩
          cases hok
        · rw [availDelta, if_neg hfar, Exec.lift_ok_bind]
          rcases hserve : serve queue (takeFrame frame backlog) (s.1.lastSeenAvail QUEUE_RX) s with ⟨turn | e | _, t, n⟩
          · have hnext : fillNext queue s = .turn turn (advanceRx t.1, t.2) := by
              simp only [fillNext, hbacklog, if_neg hlast, if_neg hfar, hserve]
            have hlen : t.2.ram.len = s.2.ram.len := (Keeps.run (R := OnlyTraffic) hserve).len
            rw [bind_ok hserve, stopsRefused_turn hnext, turns_turn hnext, length_cons, after_outcome,
              modifyDevice, update_bind, ← Nat.add_assoc, Nat.add_right_comm]
            exact ih (completed + 1) (s := (advanceRx t.1, t.2)) (hlen ▸ hfits)
          all_goals
            have hnext : fillNext queue s = .refused := by
              simp only [fillNext, hbacklog, if_neg hlast, if_neg hfar, hserve]
            refine ⟨fun _ a hok => ?_, fun h => absurd (stopsRefused_refused hnext) h⟩
          · rw [bind_err hserve] at hok
            cases hok
          · rw [Exec.bind_panic hserve] at hok
            cases hok

/-! ### Polls -/

/-- The part of the poll that sends. -/
def sendPhase : NetM Bool := do
  let d ← view Prod.fst
  if d.kickPending QUEUE_TX then do
    modifyDevice fun d => { d with kickPending := Function.update d.kickPending QUEUE_TX false }
    if d.queueReady QUEUE_TX ∧ 0 < (d.queues QUEUE_TX).size then drainTx else pure false
  else pure false

/-- The part of the poll that receives. -/
def receivePhase : NetM Bool := do
  let d ← view Prod.fst
  if d.queueReady QUEUE_RX ∧ 0 < (d.queues QUEUE_RX).size then drainRx else pure false

theorem pollInner_eq : pollInner = (do
    let sent ← sendPhase
    modifyDevice pollBackend
    let received ← receivePhase
    return sent || received) := by
  have hite {α β : Type} (c : Prop) [Decidable c] (x y : NetM α) (f : α → NetM β) :
      (if c then x else y) >>= f = if c then x >>= f else y >>= f := by split <;> rfl
  simp only [pollInner, sendPhase, receivePhase, bind_assoc, hite]

variable (d : VirtioMmioNet)

def SendServed : Prop :=
  d.kickPending QUEUE_TX = true ∧ d.queueReady QUEUE_TX = true ∧ 0 < (d.queues QUEUE_TX).size

instance : Decidable (SendServed d) := inferInstanceAs (Decidable (_ ∧ _))

def ReceiveServed : Prop := d.queueReady QUEUE_RX = true ∧ 0 < (d.queues QUEUE_RX).size

instance : Decidable (ReceiveServed d) := inferInstanceAs (Decidable (_ ∧ _))

def takeKick (s : NetState) : NetState :=
  ({ s.1 with kickPending := Function.update s.1.kickPending QUEUE_TX false }, s.2)

/-- The used elements the sending part writes. -/
def sendTurns (s : NetState) : List Turn :=
  if SendServed s.1 then drainTurns (s.1.queues QUEUE_TX) (s.1.lastSeenAvail QUEUE_TX) processTx (takeKick s) else []

/-- A published transmit chain is refused. -/
def SendRefused (s : NetState) : Prop :=
  SendServed s.1 ∧ DrainRefused (s.1.queues QUEUE_TX) (s.1.lastSeenAvail QUEUE_TX) processTx (takeKick s)

/-- The used elements the receiving part writes. -/
def receiveTurns (s : NetState) : List Turn :=
  if ReceiveServed s.1 ∧ (s.1.queues QUEUE_RX).validate s.2.ram.len = .ok () then
    (turns (fillNext (s.1.queues QUEUE_RX)) RX_BATCH_PER_POLL s).1
  else []

/-- The receive queue does not lie in RAM, the driver's index is too far ahead, or a buffer is refused. -/
def ReceiveRefused (s : NetState) : Prop :=
  ReceiveServed s.1 ∧ ((s.1.queues QUEUE_RX).validate s.2.ram.len ≠ .ok () ∨
    StopsRefused (fillNext (s.1.queues QUEUE_RX)) RX_BATCH_PER_POLL s)

/-- The device once it has sent and the backend was asked for frames. -/
def afterSend (s : NetState) : NetState :=
  (pollBackend (sendPhase s).state.1, (sendPhase s).state.2)

/-- The used elements a poll writes. -/
def pollTurns (s : NetState) : List Turn :=
  if s.1.fault.isSome then []
  else
    match (sendPhase s).outcome with
    | .ok _ => sendTurns s ++ receiveTurns (afterSend s)
    | _ => sendTurns s

/-- A queue, an index or a chain is refused in a poll that completed a request before it. -/
def RefusedLate (s : NetState) : Prop :=
  pollTurns s ≠ [] ∧ (SendRefused s ∨ ReceiveRefused (afterSend s))

theorem sendPhase_served (h : SendServed s.1) : sendPhase s = (do
    let (lastSeen, completed) ← drainAvailable (s.1.queues QUEUE_TX) (s.1.lastSeenAvail QUEUE_TX) processTx
    modifyDevice fun d => { d with lastSeenAvail := Function.update d.lastSeenAvail QUEUE_TX lastSeen }
    return completed > 0 : NetM Bool) (takeKick s) := by
  rw [sendPhase, view_bind, if_pos h.1, modifyDevice, update_bind, if_pos h.2, drainTx, view_bind]
  rfl

theorem sendPhase_turns (s : NetState) :
    ((sendPhase s).outcome = .ok ((sendTurns s).length > 0 : Bool) ∧ ¬SendRefused s) ∨
      ((∀ a, (sendPhase s).outcome ≠ .ok a) ∧ (SendRefused s ∨ sendTurns s = [])) := by
  by_cases hserved : SendServed s.1
  · rw [sendPhase_served hserved, sendTurns, if_pos hserved]
    rcases drainAvailable_turns (q := s.1.queues QUEUE_TX) (s.1.lastSeenAvail QUEUE_TX) processTx (takeKick s) with
      ⟨⟨last, hok⟩, hnot⟩ | ⟨hfail, hwhy⟩
    · rw [bind_ok (eq_of_outcome hok)]
      exact .inl ⟨rfl, fun h => hnot h.2⟩
    · refine .inr ⟨(bind_failure hfail).1.ne_ok, ?_⟩
      rcases hwhy with hrefused | hnone
      · exact .inl ⟨hserved, hrefused⟩
      · exact .inr hnone
  · refine .inl ⟨?_, fun h => hserved h.1⟩
    rw [sendTurns, if_neg hserved, sendPhase, view_bind]
    split
    next hkick =>
      rw [modifyDevice, update_bind, if_neg fun h => hserved ⟨hkick, h⟩]
      rfl
    · rfl

theorem receivePhase_turns (s) :
    ((receivePhase s).outcome = .ok ((receiveTurns s).length > 0 : Bool) ∧ ¬ReceiveRefused s) ∨
      ((∀ a, (receivePhase s).outcome ≠ .ok a) ∧ ReceiveRefused s) := by
  rw [receivePhase, view_bind]
  by_cases hserved : ReceiveServed s.1
  · rw [if_pos (show s.1.queueReady QUEUE_RX = true ∧ 0 < (s.1.queues QUEUE_RX).size from hserved), drainRx,
      view_bind]
    by_cases hvalid : (s.1.queues QUEUE_RX).validate s.2.ram.len = .ok ()
    · rw [bind_ok (query_validate_ok hvalid), Run.after_zero, receiveTurns, if_pos ⟨hserved, hvalid⟩]
      obtain ⟨hrefused, hdone⟩ := fillFrom_turns RX_BATCH_PER_POLL 0 (QueueLayout.validate_ok.mp hvalid)
      by_cases hstop : StopsRefused (fillNext (s.1.queues QUEUE_RX)) RX_BATCH_PER_POLL s
      · exact .inr ⟨(bind_failure (hrefused hstop)).1.ne_ok, hserved, .inr hstop⟩
      · refine .inl ⟨?_, fun h => h.2.elim (fun hbad => hbad hvalid) hstop⟩
        rw [bind_ok (eq_of_outcome (hdone hstop)), Nat.zero_add]
        rfl
    · refine .inr ⟨?_, hserved, .inl hvalid⟩
      intro a h
      obtain ⟨⟨⟩, t, n, m, hquery, -, -⟩ := bind_eq_ok (eq_of_outcome h)
      injection hquery with hquery
      exact hvalid hquery
  · rw [if_neg (show ¬(s.1.queueReady QUEUE_RX = true ∧ 0 < (s.1.queues QUEUE_RX).size) from hserved), receiveTurns,
      if_neg fun h => hserved h.1]
    exact .inl ⟨rfl, fun h => hserved h.1⟩

instance : Fact (Traffic fun d => { d with kickPending := Function.update d.kickPending QUEUE_TX false }) :=
  ⟨fun _ => ⟨rfl, rfl⟩⟩

instance (last : U16) : Fact (Traffic fun d =>
    { d with lastSeenAvail := Function.update d.lastSeenAvail QUEUE_TX last }) := ⟨fun _ => ⟨rfl, rfl⟩⟩

theorem sendPhase_keeps : Keeps OnlyTraffic sendPhase := by
  have hprocess := processTx_keeps
  have hdrain : Keeps OnlyTraffic drainTx := by
    unfold drainTx
    refine .bind fun d => .bind fun p => ?_
    cases p
    infer_instance
  unfold sendPhase
  infer_instance

theorem pollInner_keeps : Keeps OnlyTraffic pollInner := by
  have hsend := sendPhase_keeps
  have hreceive : Keeps OnlyTraffic receivePhase := by
    unfold receivePhase drainRx
    infer_instance
  rw [pollInner_eq]
  infer_instance

theorem pollInner_safe (queues) (L : U64) : Safe (At (OnQueues queues) L) pollInner := by
  have hdrainTx : Safe (At (OnQueues queues) L) drainTx := by
    unfold drainTx
    refine .bind_returned (·.queues = queues) (fun s a hs h => by cases h; exact hs.1) fun d hd => ?_
    have hdrain := drainAvailable_safe (Q := OnQueues queues) (L := L) (q := d.queues QUEUE_TX)
      (fun hfits => have := Fact.mk (hd ▸ hfits); processTx_safe) (d.lastSeenAvail QUEUE_TX)
    refine .bind_returned (fun _ => True) (fun _ _ _ _ => trivial) fun p _ => ?_
    cases p
    infer_instance
  have hdrainRx : Safe (At (OnQueues queues) L) drainRx := by
    unfold drainRx
    refine .bind_returned (· = queues QUEUE_RX) (fun s a hs h => by cases h; exact congrFun hs.1 QUEUE_RX)
      fun queue hqueue => ?_
    subst hqueue
    refine .bind_returned (fun _ => (queues QUEUE_RX).Fits L) (fun s a hs h => ?_) fun _ hfits => ?_
    · exact QueueLayout.validate_ok.mp (hs.2 ▸ h)
    · have := Fact.mk hfits
      infer_instance
  rw [pollInner_eq]
  unfold sendPhase receivePhase
  infer_instance

theorem poll_fault (h : s.1.fault.isSome) : poll s = ⟨.ok false, s, 0⟩ := by
  rw [poll, view_bind, if_pos h]
  rfl

theorem poll_ok {s t} {completed : Bool} {n : Nat} (h : ¬s.1.fault.isSome)
    (hinner : pollInner s = ⟨.ok completed, t, n⟩) :
    (poll s).outcome = .ok completed ∧ (poll s).state.1.irqStatus =
      if completed then t.1.irqStatus ||| INTERRUPT_USED_RING else t.1.irqStatus := by
  rw [poll, view_bind, if_neg h, bind_ok (show attempt _ _ = _ by rw [attempt, hinner])]
  exact ⟨rfl, rfl⟩

theorem poll_err {s t} {e : VirtioError} {n : Nat} (h : ¬s.1.fault.isSome)
    (hinner : pollInner s = ⟨.err e, t, n⟩) :
    (poll s).outcome = .ok false ∧ (poll s).state.1.irqStatus = t.1.irqStatus := by
  rw [poll, view_bind, if_neg h, bind_ok (show attempt _ _ = _ by rw [attempt, hinner])]
  exact ⟨rfl, rfl⟩

theorem pollInner_turns (h : ¬s.1.fault.isSome) :
    ((pollInner s).outcome = .ok ((pollTurns s).length > 0 : Bool) ∧ ¬RefusedLate s) ∨
      ((∀ a, (pollInner s).outcome ≠ .ok a) ∧ (RefusedLate s ∨ pollTurns s = [])) := by
  rw [pollInner_eq]
  rcases sendPhase_turns s with ⟨hsent, hnot⟩ | ⟨hfail, hwhy⟩
  · have hturns : pollTurns s = sendTurns s ++ receiveTurns (afterSend s) := by
      rw [pollTurns, if_neg h, hsent]
    rw [bind_ok (eq_of_outcome hsent), after_outcome, modifyDevice, update_bind]
    change (((receivePhase >>= _) (afterSend s)).outcome = _ ∧ _) ∨
      (∀ a, ((receivePhase >>= _) (afterSend s)).outcome ≠ _) ∧ _
    rcases receivePhase_turns (afterSend s) with ⟨hreceived, hnot'⟩ | ⟨hfail, hrefused⟩
    · refine .inl ⟨?_, fun hlate => hlate.2.elim hnot hnot'⟩
      rw [bind_ok (eq_of_outcome hreceived), hturns, length_append]
      simp only [after_outcome, pure_apply]
      congr 1
      cases sendTurns s <;> cases receiveTurns (afterSend s) <;> simp
    · refine .inr ⟨(bind_failure hfail).1.ne_ok, ?_⟩
      by_cases hnone : pollTurns s = []
      · exact .inr hnone
      · exact .inl ⟨hnone, .inr hrefused⟩
  · refine .inr ⟨(bind_failure hfail).1.ne_ok, ?_⟩
    have hturns : pollTurns s = sendTurns s := by
      rw [pollTurns, if_neg h]
      rcases ho : (sendPhase s).outcome with a | e | _
      · exact absurd ho (hfail a)
      · rfl
      · rfl
    rcases hwhy with hrefused | hnone
    · by_cases hnone : pollTurns s = []
      · exact .inr hnone
      · exact .inl ⟨hnone, .inl hrefused⟩
    · exact .inr (hturns.trans hnone)

theorem poll_reports_iff (s) :
    Reports (pollTurns s) s.1.irqStatus (poll s).state.1.irqStatus (poll s).outcome ↔ ¬RefusedLate s := by
  by_cases hfault : s.1.fault.isSome
  · have hturns : pollTurns s = [] := if_pos hfault
    rw [poll_fault hfault, hturns]
    exact iff_of_true (reports_failed_iff.mpr rfl) fun h => h.1 hturns
  · have hframe : OnlyTraffic s (pollInner s).state := pollInner_keeps.keeps s
    have hsafe := (pollInner_safe s.1.queues s.2.ram.len).safe s ⟨rfl, rfl⟩
    rcases pollInner_turns hfault with ⟨hok, hnot⟩ | ⟨hfail, hwhy⟩
    · obtain ⟨hout, hirq⟩ := poll_ok hfault (eq_of_outcome hok)
      rw [hout, hirq, hframe.irqStatus]
      simp only [decide_eq_true_eq]
      exact iff_of_true .counted hnot
    · rcases hrun : pollInner s with ⟨a | e | _, t, n⟩
      · exact absurd (by rw [hrun]) (hfail a)
      · obtain ⟨hout, hirq⟩ := poll_err hfault hrun
        rw [hrun] at hframe
        rw [hout, hirq, hframe.irqStatus, reports_failed_iff]
        constructor
        · exact fun hnone h => h.1 hnone
        · intro hlate
          exact hwhy.resolve_left hlate
      · exact absurd (by rw [hrun]) hsafe.1

end VirtioMmioNet

/-! ## The elements themselves -/

section Written

variable {σ : Type} {q : QueueLayout} {handler : Handler σ} {s t : σ × DeviceMemory} {index : U16} {turn : Turn}

/-- The element of the turn is in its slot of the used ring, and the used index stands behind it. -/
def QueueLayout.Holds (q : QueueLayout) (r : Ram) (turn : Turn) : Prop :=
  r.load (q.usedSlot turn.used) 4 = leBytes 4 (turn.head.setWidth 32).toNat ∧
    r.load (q.usedSlot turn.used + 4) 4 = leBytes 4 turn.length.toNat ∧ q.deviceIndex r = turn.used + 1

theorem holds_publish (r : Ram) : q.Holds (q.publish r turn.used (turn.head.setWidth 32) turn.length) turn := by
  have hbehind : q.used.toNat + 4 ≤ q.usedSlot turn.used := by
    unfold QueueLayout.usedSlot
    omega
  refine ⟨?_, ?_, deviceIndex_publish _ _ _ _⟩
  · have hself := readBytes_writeBytes_self r.bytes (q.usedSlot turn.used) (leBytes 4 (turn.head.setWidth 32).toNat)
    rw [leBytes_length] at hself
    refine Eq.trans ?_ hself
    refine (readBytes_writeBytes_disjoint ?_).trans (readBytes_writeBytes_disjoint ?_) <;> rw [leBytes_length] <;> omega
  · have hself := readBytes_writeBytes_self
      (r.store (q.usedSlot turn.used) (leBytes 4 (turn.head.setWidth 32).toNat)).bytes
      (q.usedSlot turn.used + 4) (leBytes 4 turn.length.toNat)
    rw [leBytes_length] at hself
    refine Eq.trans ?_ hself
    refine readBytes_writeBytes_disjoint ?_
    rw [leBytes_length]
    omega

/-- Every turn, of a drain as of the receiving loop, is a `serve`: right after it its element and index are in RAM. -/
theorem serve_holds (hfits : q.Fits s.2.ram.len) (hsize : q.size ≠ 0) {n}
    (h : serve q handler.process index s = ⟨.ok turn, t, n⟩) :
    q.Holds t.2.ram turn ∧ t.2.ram.len = s.2.ram.len := by
  by_cases hok : ∃ length, (handler.process (q.publishedHead s.2.ram index) s).outcome = .ok length
  · obtain ⟨length, hok⟩ := hok
    obtain ⟨turn', t', k, hserve, hserves⟩ := serve_of_ok hfits hsize (eq_of_outcome hok)
    rw [h] at hserve
    cases hserve
    have hlen := hserves.len
    obtain ⟨u, m, -, -, rfl⟩ := hserves.handled
    exact ⟨holds_publish _, hlen⟩
  · have hfail := (serve_of_failure hfits hsize fun length hlength => hok ⟨length, hlength⟩).1.ne_ok turn
    rw [h] at hfail
    exact absurd rfl hfail

end Written

/-- Both devices, for every state of them, every RAM and every backend. -/
theorem completions_reported_iff (blk : BlkState) (net : NetState) :
    (Reports (VirtioMmioBlk.kickTurns blk) blk.1.irqStatus (VirtioMmioBlk.pollKick blk).state.1.irqStatus
        (VirtioMmioBlk.pollKick blk).outcome ↔ ¬VirtioMmioBlk.RefusedLate blk) ∧
      (Reports (VirtioMmioNet.pollTurns net) net.1.irqStatus (VirtioMmioNet.poll net).state.1.irqStatus
        (VirtioMmioNet.poll net).outcome ↔ ¬VirtioMmioNet.RefusedLate net) :=
  ⟨VirtioMmioBlk.pollKick_reports_iff blk, VirtioMmioNet.poll_reports_iff net⟩

/-! ## Two batches -/

/-- A device with two published requests. The first has the unsupported type 4 and completes; the
    second is given by its head. -/
def batch (second : U8) : BlkState :=
  let descriptors : List U8 :=
    leBytes 8 0x300 ++ leBytes 4 16 ++ leBytes 2 1 ++ leBytes 2 1 ++
      (leBytes 8 0x400 ++ leBytes 4 1 ++ leBytes 2 1 ++ leBytes 2 2) ++
      (leBytes 8 0x500 ++ leBytes 4 1 ++ leBytes 2 2 ++ leBytes 2 0)
  let ram := writeBytes (writeBytes (writeBytes (fun _ => 0) 0 descriptors) 0x102 [2, 0, 0, 0, second, 0]) 0x300 [4]
  (⟨⟨512, fun _ _ _ => none, fun _ _ _ => true, []⟩, 1, Mmio.STATUS_DRIVER_OK, 0, 0, (0, 0), 0, 0,
    ⟨4, 0, 0x100, 0x200⟩, true, 0, 0, true, none⟩, ⟨⟨ram, 4096, fun _ => 0⟩, false⟩)

/-- A network device whose driver has set up nothing. -/
def idleNet : NetState :=
  (⟨⟨fun _ => 0, fun _ => [], []⟩, fun _ => 0, 0, 0, 0, (0, 0), 0, 0, fun _ => ⟨0, 0, 0, 0⟩, fun _ => false,
    fun _ => false,
    fun _ => 0, 0, [], 0, 0, fun _ => 0, 0, 0, none⟩, ⟨⟨fun _ => 0, 4096, fun _ => 0⟩, false⟩)

theorem wellFormed_batch_reported :
    (VirtioMmioBlk.kickTurns (batch 0)).length = 2 ∧
      Reports (VirtioMmioBlk.kickTurns (batch 0)) 0 (VirtioMmioBlk.pollKick (batch 0)).state.1.irqStatus
        (VirtioMmioBlk.pollKick (batch 0)).outcome := by
  refine ⟨by decide +kernel, (completions_reported_iff (batch 0) idleNet).1.mpr ?_⟩
  rintro ⟨-, -, -, hstop⟩
  refine drainNext_ne_refused ?_ hstop.2
  decide +kernel

/-- The second head is outside the ring. The first request is complete in the used ring, yet the poll
    reports none and leaves the used-buffer bit clear. -/
theorem malformed_chain_loses_a_completion :
    ¬Reports (VirtioMmioBlk.kickTurns (batch 9)) (batch 9).1.irqStatus
      (VirtioMmioBlk.pollKick (batch 9)).state.1.irqStatus
      (VirtioMmioBlk.pollKick (batch 9)).outcome := by
  have hwrote : VirtioMmioBlk.kickTurns (batch 9) = [⟨0, 1, 0⟩] := by decide +kernel
  have hout : (VirtioMmioBlk.pollKick (batch 9)).outcome = .ok false := by decide +kernel
  intro h
  have hreported := (h.some (by rw [hwrote]; nofun)).1
  rw [hout] at hreported
  cases hreported

end Rish.SoftVm.Virtio
