/-
  Rish.SoftVm.Virtio.Frames — the frames the network device gathers from transmit chains.

  Proved: an accepted transmit chain hands its bytes behind the header to the backend, and the chains of a poll do so in
  the order of the ring (`transmit_gathers`).
-/

import Rish.SoftVm.Virtio.Transfer

namespace Rish.SoftVm.Virtio

open Lib List
open Exec (bind_ok view_bind bind_failure)
open VirtioMmioBlk (dataBytes dataBytes_length dataBytes_cons)

namespace VirtioMmioNet

variable {s : NetState}

/-! ## Gathering -/

theorem readBytes_piece (m a) {k n l} (h : k + n ≤ l) :
    readBytes m (a + k) n = ((readBytes m a l).drop k).take n := by
  obtain ⟨rest, rfl⟩ := Nat.exists_eq_add_of_le h
  rw [Nat.add_assoc, readBytes_add, readBytes_add, drop_left' (readBytes_length ..),
    take_left' (readBytes_length ..)]

variable (r : Ram)

def behind (segments : List (QueueDescriptor × Nat)) : List U8 :=
  segments.flatMap fun p => (readBytes r.bytes p.1.address.toNat p.1.length.toNat).drop p.2

theorem gather_ok {segments}
    (h : ∀ p ∈ segments, p.1.address.toNat + p.1.length.toNat ≤ s.2.ram.len.toNat ∧ p.2 ≤ p.1.length.toNat)
    (room : Nat) : ∃ n, gather segments room s = ⟨.ok ((behind s.2.ram segments).take room), s, n⟩ := by
  induction segments generalizing room with
  | nil => exact ⟨0, by simp [gather, behind]⟩
  | cons segment rest ih =>
    rcases segment with ⟨d, start⟩
    have hram : d.address.toNat + d.length.toNat ≤ s.2.ram.len.toNat := (h (d, start) (mem_cons_self ..)).1
    have hstart : start ≤ d.length.toNat := (h (d, start) (mem_cons_self ..)).2
    have hrest (room : Nat) := ih (fun p hp => h p (mem_cons_of_mem _ hp)) room
    have hfirst : ((readBytes s.2.ram.bytes d.address.toNat d.length.toNat).drop start).length =
        d.length.toNat - start := by rw [length_drop, readBytes_length]
    have hbehind : behind s.2.ram ((d, start) :: rest) =
        (readBytes s.2.ram.bytes d.address.toNat d.length.toNat).drop start ++ behind s.2.ram rest := rfl
    rw [hbehind, take_append, hfirst]
    unfold gather
    simp only
    by_cases hstep : min (d.length.toNat - start) room > 0
    · rw [if_pos hstep, offset_ok (by omega), pure_bind]
      have hplace : (BitVec.ofNat 64 (d.address.toNat + start)).toNat = d.address.toNat + start :=
        ofNat_toNat_of_lt (by omega)
      have hinside : (BitVec.ofNat 64 (d.address.toNat + start)).toNat + min (d.length.toNat - start) room ≤
          s.2.ram.len.toNat := by
        rw [hplace]
        omega
      have hread := readMemory_ok hinside
      rw [hplace, Ram.load, readBytes_piece _ _ (l := d.length.toNat) (by omega)] at hread
      obtain ⟨n, hgather⟩ := hrest (room - min (d.length.toNat - start) room)
      rw [bind_ok hread, bind_ok hgather]
      have htake : ((readBytes s.2.ram.bytes d.address.toNat d.length.toNat).drop start).take
          (min (d.length.toNat - start) room) =
          ((readBytes s.2.ram.bytes d.address.toNat d.length.toNat).drop start).take room := by
        rw [take_eq_take_iff, hfirst]
        omega
      have hroom : room - min (d.length.toNat - start) room = room - (d.length.toNat - start) := by omega
      rw [htake, hroom]
      exact ⟨_, rfl⟩
    · rw [if_neg hstep]
      obtain ⟨n, hgather⟩ := hrest room
      have hnone : ((readBytes s.2.ram.bytes d.address.toNat d.length.toNat).drop start).take room = [] := by
        rw [← length_eq_zero_iff, length_take, hfirst]
        omega
      refine ⟨n, ?_⟩
      rw [hgather, hnone, nil_append]
      by_cases hempty : d.length.toNat - start = 0
      · rw [hempty, Nat.sub_zero]
      · obtain rfl : room = 0 := by omega
        simp

/-! ## One transmit chain -/

variable (chain : List QueueDescriptor)

/-- The chains the device takes: readable throughout, with the header in a descriptor of its own or with data behind it
    in the first. -/
def Accepted : Prop :=
  ∃ first rest, chain = first :: rest ∧ (∀ d ∈ chain, d.deviceWritable = false) ∧
    (rest ≠ [] ∧ first.length.toNat = VIRTIO_NET_HDR_BYTES ∨ first.length.toNat > VIRTIO_NET_HDR_BYTES)

def frameOf : List U8 := (dataBytes r chain).drop VIRTIO_NET_HDR_BYTES

/-- The frame that goes to the backend, if it is neither empty nor too long. -/
def handed : List (List U8) :=
  if 0 < (frameOf r chain).length ∧ (frameOf r chain).length ≤ MAX_FRAME_BYTES then [frameOf r chain] else []

def handOver (frames : List (List U8)) (d : VirtioMmioNet) : VirtioMmioNet :=
  if frames = [] then { d with txDropped := saturatingSucc d.txDropped }
  else { d with backend := { d.backend with history := d.backend.history ++ frames.map .enqueue } }

theorem handOver_history (frames d) :
    (handOver frames d).backend.history = d.backend.history ++ frames.map .enqueue := by
  unfold handOver
  split
  next hnone => simp [hnone]
  · rfl

theorem handOver_queues (frames d) : (handOver frames d).queues = d.queues := by
  unfold handOver
  split <;> rfl

theorem frameOf_length : (frameOf r chain).length = totalBytes chain - VIRTIO_NET_HDR_BYTES := by
  rw [frameOf, length_drop, dataBytes_length]

theorem behind_header {first rest}
    (h : VIRTIO_NET_HDR_BYTES ≤ first.length.toNat) :
    behind r ((first, min VIRTIO_NET_HDR_BYTES first.length.toNat) :: rest.map (·, 0)) = frameOf r (first :: rest) := by
  have hrest : behind r (rest.map (·, 0)) = dataBytes r rest := by
    simp [behind, dataBytes, flatMap_map]
  rw [Nat.min_eq_left h, frameOf, dataBytes_cons, drop_append_of_le_length (by rwa [readBytes_length]), ← hrest]
  rfl

variable {head : U16} {t : NetState}

theorem processTx_accepted {chain} {n : Nat}
    (hchain : validatedChain (s.1.queues QUEUE_TX) head s = ⟨.ok chain, s, n⟩) (haccepted : Accepted chain) :
    ∃ length k, processTx head s = ⟨.ok length, (handOver (handed s.2.ram chain) s.1, s.2), k⟩ := by
  obtain ⟨first, rest, rfl, hreadable, hshape⟩ := haccepted
  have hram : InRam s.2.ram.len (first :: rest) := validatedChain_returned head (by rw [hchain])
  have hheader : VIRTIO_NET_HDR_BYTES ≤ first.length.toNat := by
    rcases hshape with ⟨-, h⟩ | h <;> omega
  have hnone : (first :: rest).any (·.deviceWritable) = false := by
    rw [any_eq_false]
    intro d hd
    simp [hreadable d hd]
  have hlength := frameOf_length s.2.ram (first :: rest)
  rw [processTx, view_bind, bind_ok hchain]
  simp only [hnone, Bool.false_eq_true, if_false, not_true, hshape]
  by_cases hlong : totalBytes (first :: rest) - VIRTIO_NET_HDR_BYTES > MAX_FRAME_BYTES
  · have hdropped : handed s.2.ram (first :: rest) = [] := if_neg (by omega)
    rw [if_pos hlong, hdropped]
    exact ⟨_, _, rfl⟩
  rw [if_neg hlong]
  have hinside : first.address.toNat + VIRTIO_NET_HDR_BYTES ≤ s.2.ram.len.toNat :=
    (Nat.add_le_add_left hheader _).trans (hram first (mem_cons_self ..))
  have hread := readMemory_ok hinside
  have hsegments : ∀ p ∈ (first, min VIRTIO_NET_HDR_BYTES first.length.toNat) :: rest.map (·, 0),
      p.1.address.toNat + p.1.length.toNat ≤ s.2.ram.len.toNat ∧ p.2 ≤ p.1.length.toNat := by
    intro p hp
    rcases mem_cons.mp hp with rfl | hp
    · exact ⟨hram first (mem_cons_self ..), Nat.min_le_right ..⟩
    · obtain ⟨d, hd, rfl⟩ := mem_map.mp hp
      exact ⟨hram d (mem_cons_of_mem _ hd), Nat.zero_le _⟩
  obtain ⟨k, hgather⟩ := gather_ok hsegments (totalBytes (first :: rest) - VIRTIO_NET_HDR_BYTES)
  rw [behind_header _ hheader, take_of_length_le (Nat.le_of_eq hlength)] at hgather
  rw [bind_ok hread, bind_ok hgather]
  simp only [hlength, ne_eq, not_true, if_false]
  by_cases hsome : totalBytes (first :: rest) - VIRTIO_NET_HDR_BYTES > 0
  · have hhanded : handed s.2.ram (first :: rest) = [frameOf s.2.ram (first :: rest)] := if_pos (by omega)
    rw [if_pos hsome, hhanded]
    exact ⟨_, _, rfl⟩
  · have hdropped : handed s.2.ram (first :: rest) = [] := if_neg (by omega)
    rw [if_neg hsome, hdropped]
    exact ⟨_, _, rfl⟩

/-- A chain that is not valid or not accepted is refused before anything changes. -/
theorem processTx_refused
    (h : ∀ chain n, validatedChain (s.1.queues QUEUE_TX) head s = ⟨.ok chain, s, n⟩ → ¬Accepted chain) :
    (∀ length, (processTx head s).outcome ≠ .ok length) ∧ (processTx head s).state = s := by
  rw [processTx, view_bind]
  by_cases hchain : ∃ chain, (validatedChain (s.1.queues QUEUE_TX) head s).outcome = .ok chain
  · obtain ⟨chain, hchain⟩ := hchain
    have hrun := Run.eq_of_outcome hchain
    have hsame : (validatedChain (s.1.queues QUEUE_TX) head s).state = s := Keeps.keeps (R := Unchanged) s
    rw [hsame] at hrun
    have hnot := h chain _ hrun
    rw [bind_ok hrun]
    rcases chain with - | ⟨first, rest⟩
    · exact ⟨nofun, rfl⟩
    simp only
    by_cases hwritable : (first :: rest).any (·.deviceWritable) = true
    · rw [if_pos hwritable]
      exact ⟨nofun, rfl⟩
    · rw [if_neg hwritable]
      have hshape : ¬((rest ≠ [] ∧ first.length.toNat = VIRTIO_NET_HDR_BYTES) ∨
          first.length.toNat > VIRTIO_NET_HDR_BYTES) := by
        intro hshape
        refine hnot ⟨first, rest, rfl, ?_, hshape⟩
        intro d hd
        by_contra hd'
        exact hwritable (any_eq_true.mpr ⟨d, hd, by simpa using hd'⟩)
      rw [if_pos hshape]
      exact ⟨nofun, rfl⟩
  · have hfailure : ∀ chain, (validatedChain (s.1.queues QUEUE_TX) head s).outcome ≠ .ok chain :=
      fun chain hok => hchain ⟨chain, hok⟩
    refine ⟨(bind_failure hfailure).1.ne_ok, (bind_failure hfailure).2.trans ?_⟩
    exact Keeps.keeps (R := Unchanged) s

theorem processTx_returned {length n} (h : processTx head s = ⟨.ok length, t, n⟩) :
    ∃ chain k, validatedChain (s.1.queues QUEUE_TX) head s = ⟨.ok chain, s, k⟩ ∧ Accepted chain ∧
      t = (handOver (handed s.2.ram chain) s.1, s.2) := by
  by_contra hnot
  have hnone : ∀ chain k, validatedChain (s.1.queues QUEUE_TX) head s = ⟨.ok chain, s, k⟩ → ¬Accepted chain := by
    intro chain k hchain haccepted
    obtain ⟨length', k', hrun⟩ := processTx_accepted hchain haccepted
    rw [h] at hrun
    injection hrun with _ hstate
    exact hnot ⟨chain, k, hchain, haccepted, hstate⟩
  exact (processTx_refused hnone).1 length (by rw [h])

theorem processTx_failed (h : ∀ length, (processTx head s).outcome ≠ .ok length) : (processTx head s).state = s := by
  refine (processTx_refused fun chain k hchain haccepted => ?_).2
  obtain ⟨length, k', hrun⟩ := processTx_accepted hchain haccepted
  exact h length (by rw [hrun])

/-! ## The chains of a drain -/

def txHandler : Handler VirtioMmioNet := ⟨processTx, fun head s => ((processTx_keeps head).keeps s).len⟩

/-- Slots from an index on, one after the other: the chain whose head the driver published there is accepted, and what it
    hands over is the next entry. -/
inductive Sends (q : QueueLayout) : U16 → List (List (List U8)) → NetState →
    NetState → Prop where
  | nil (index : U16) (s : NetState) : Sends q index [] s s
  | cons {index : U16} {turn : Turn} {chain : List QueueDescriptor} {n : Nat} {frames : List (List (List U8))}
    {s t u : NetState} : Serves q processTx index turn s t →
    validatedChain q turn.head s = ⟨.ok chain, s, n⟩ → Accepted chain → Sends q (index + 1) frames t u →
    Sends q index (handed s.2.ram chain :: frames) s u

theorem sends_of_drains {q} {index : U16} {turns}
    (h : Drains q processTx index turns s t) (hq : s.1.queues QUEUE_TX = q) :
    ∃ frames, Sends q index frames s t ∧ frames.length = turns.length ∧
      t.1.backend.history = s.1.backend.history ++ frames.flatten.map .enqueue := by
  induction h with
  | nil index s => exact ⟨[], .nil _ _, rfl, by simp⟩
  | @cons index turn turns s t u hserves _ ih =>
    obtain ⟨v, n, hprocess, -, rfl⟩ := hserves.handled
    obtain ⟨chain, k, hchain, haccepted, rfl⟩ := processTx_returned hprocess
    rw [hq] at hchain
    obtain ⟨frames, hsends, hlength, hhistory⟩ := ih ((congrFun (handOver_queues _ s.1) QUEUE_TX).trans hq)
    refine ⟨handed s.2.ram chain :: frames, .cons hserves hchain haccepted hsends, by simp [hlength], ?_⟩
    rw [hhistory]
    simp only [handOver_history, flatten_cons, map_append, append_assoc]

/-- A drain hands over the frames of the slots it serves, also when it is stopped by a later one. -/
theorem drainAvailable_sends (q) (lastSeen : U16) (hq : s.1.queues QUEUE_TX = q) :
    ∃ frames t, Sends q lastSeen frames s t ∧
      (drainAvailable q lastSeen processTx s).state = t ∧
      t.1.backend.history = s.1.backend.history ++ frames.flatten.map .enqueue ∧
      ∀ a, (drainAvailable q lastSeen processTx s).outcome = .ok a →
        frames.length = (q.driverIndex s.2.ram - lastSeen).toNat := by
  by_cases hvalid : q.validate s.2.ram.len = .ok ()
  · by_cases hnear : (q.driverIndex s.2.ram - lastSeen).toNat ≤ q.size.toNat
    · obtain ⟨turns, t, -, hdrains, hended⟩ := drainAvailable_drains txHandler hvalid hnear
      obtain ⟨frames, hsends, hlength, hhistory⟩ := sends_of_drains hdrains hq
      refine ⟨frames, t, hsends, ?_, hhistory, fun a hok => ?_⟩
      · cases hended with
        | served _ _ hstate => exact hstate
        | refused _ hfail hstate =>
          refine hstate.trans (processTx_failed fun length hok => ?_)
          generalize drainAvailable q lastSeen txHandler.process s = run at hfail
          rw [show (txHandler.process (q.publishedHead t.2.ram (lastSeen + BitVec.ofNat 16 turns.length)) t).outcome =
            .ok length from hok] at hfail
          cases hfail
      · cases hended with
        | served hcount => rw [hlength, hcount]
        | refused _ hfail => exact absurd hok (hfail.ne_ok a)
    · rw [drainAvailable_far processTx hvalid (Nat.lt_of_not_ge hnear)]
      exact ⟨[], s, .nil _ _, rfl, by simp, nofun⟩
  · obtain ⟨hfails, hstate⟩ := drainAvailable_invalid hvalid
    exact ⟨[], s, .nil _ _, hstate, by simp, fun a hok => absurd hok (hfails a)⟩

/-- Every accepted chain hands over its bytes behind the header, and a poll's chains do so in the order of the ring. -/
theorem transmit_gathers (head : U16) (s : NetState) :
    (∀ chain n, validatedChain (s.1.queues QUEUE_TX) head s = ⟨.ok chain, s, n⟩ → Accepted chain →
      ∃ length k, processTx head s = ⟨.ok length, (handOver (handed s.2.ram chain) s.1, s.2), k⟩) ∧
    (∀ length t n, processTx head s = ⟨.ok length, t, n⟩ →
      ∃ chain k, validatedChain (s.1.queues QUEUE_TX) head s = ⟨.ok chain, s, k⟩ ∧ Accepted chain ∧
        t = (handOver (handed s.2.ram chain) s.1, s.2)) ∧
    ∃ frames t, Sends (s.1.queues QUEUE_TX) (s.1.lastSeenAvail QUEUE_TX) frames (takeKick s) t ∧
      (sendPhase s).state.1.backend.history = s.1.backend.history ++ frames.flatten.map .enqueue ∧
      (SendServed s.1 → ∀ a, (sendPhase s).outcome = .ok a →
        frames.length = ((s.1.queues QUEUE_TX).driverIndex s.2.ram - s.1.lastSeenAvail QUEUE_TX).toNat) := by
  refine ⟨fun chain n => processTx_accepted, fun length t n => processTx_returned, ?_⟩
  by_cases hserved : SendServed s.1
  · obtain ⟨frames, t, hsends, hstate, hhistory, hcount⟩ :=
      drainAvailable_sends (s := takeKick s) (s.1.queues QUEUE_TX) (s.1.lastSeenAvail QUEUE_TX) rfl
    refine ⟨frames, t, hsends, ?_, ?_⟩
    · rw [sendPhase_served hserved]
      by_cases hok : ∃ a, (drainAvailable (s.1.queues QUEUE_TX) (s.1.lastSeenAvail QUEUE_TX) processTx
        (takeKick s)).outcome = .ok a
      · obtain ⟨a, hok⟩ := hok
        rw [bind_ok (Run.eq_of_outcome hok), Run.after_state, hstate]
        exact hhistory
      · rw [(bind_failure fun a h => hok ⟨a, h⟩).2, hstate]
        exact hhistory
    · intro _ a hok
      rw [sendPhase_served hserved] at hok
      obtain ⟨b, u, n, m, hdrain, -, -⟩ := Exec.bind_eq_ok (Run.eq_of_outcome hok)
      exact hcount b (by rw [hdrain])
  · refine ⟨[], takeKick s, .nil _ _, ?_, fun h => absurd h hserved⟩
    rw [sendPhase, view_bind]
    split
    next hkick =>
      rw [modifyDevice, Exec.update_bind, if_neg fun h => hserved ⟨hkick, h⟩]
      simp
    · simp

/-- A network device with one published transmit chain: twelve bytes of header, and three behind them. -/
def sendingNet : NetState :=
  let descriptors : List U8 :=
    leBytes 8 0x300 ++ leBytes 4 12 ++ leBytes 2 1 ++ leBytes 2 1 ++
      (leBytes 8 0x400 ++ leBytes 4 3 ++ leBytes 2 0 ++ leBytes 2 0)
  let ram := writeBytes (writeBytes (writeBytes (fun _ => 0) 0 descriptors) 0x102 [1, 0, 0, 0]) 0x400 [1, 2, 3]
  ({ idleNet.1 with
      queues := fun _ => ⟨4, 0, 0x100, 0x200⟩, queueReady := fun _ => true, kickPending := fun _ => true },
    ⟨⟨ram, 4096, fun _ => 0⟩, false⟩)

theorem one_frame_gathered :
    ∃ frames t, Sends (sendingNet.1.queues QUEUE_TX) 0 frames (takeKick sendingNet) t ∧ frames.length = 1 ∧
      frames.flatten.map NetCall.enqueue = [.enqueue [1, 2, 3]] := by
  obtain ⟨-, -, frames, t, hsends, hhistory, hcount⟩ := transmit_gathers 0 sendingNet
  refine ⟨frames, t, hsends, ?_, ?_⟩
  · exact (hcount (by decide) true (by decide +kernel)).trans (by decide +kernel)
  · have hsent : (sendPhase sendingNet).state.1.backend.history = [.enqueue [1, 2, 3]] := by decide +kernel
    exact hhistory.symm.trans hsent

end VirtioMmioNet

end Rish.SoftVm.Virtio
