/-
  Rish.SoftVm.Net.Sender — the host's bytes on their way to the guest, as an abstract sender.

  A sender has the bytes it received and not yet sent, the queue of segments sent and not yet
  acknowledged, and the record of what was done. Its moves are what the connection may do with them:
  it receives, sends, acknowledges, resends, and closes once the host has closed and everything it
  received was sent and acknowledged.

  Proved: what every move keeps (`Inv.move`): first sends follow each other without a gap, every
  segment carries the bytes of its sequence number, and nothing with payload follows the FIN.
-/

import Mathlib.Data.List.TakeWhile
import Mathlib.Logic.Relation
import Rish.SoftVm.Net.GuestStream

namespace Rish.SoftVm.Net

open Lib List
open BitVec (ofNat)

/-! ## The record -/

def receivedBytes (record : List Effect) : List U8 :=
  record.flatMap fun
    | .received bytes => bytes
    | _ => []

/-- The payloads of first transmissions, in the order sent. -/
def sentBytes (record : List Effect) : List U8 :=
  record.flatMap fun
    | .emitted _ segment => segment.payload
    | _ => []

/-- The newest acknowledgement that moved the first unacknowledged sequence number. -/
def ackedUpTo (isn : U32) (record : List Effect) : U32 :=
  record.foldl (fun acked e => match e with | .acknowledged ack => ack | _ => acked) isn

def Effect.isFin (e : Effect) : Bool := e.segment?.any (·.has FLAG_FIN)

@[simp] theorem receivedBytes_append (record more) :
    receivedBytes (record ++ more) = receivedBytes record ++ receivedBytes more := by
  simp [receivedBytes]

@[simp] theorem sentBytes_append (record more) :
    sentBytes (record ++ more) = sentBytes record ++ sentBytes more := by
  simp [sentBytes]

@[simp] theorem ackedUpTo_snoc (isn record e) :
    ackedUpTo isn (record ++ [e]) = match e with | .acknowledged ack => ack | _ => ackedUpTo isn record := by
  simp [ackedUpTo]

/-- The bytes stand in the stream at the offset of their sequence number. -/
def InStream (isn : U32) (stream : List U8) (seq : U32) (bytes : List U8) : Prop :=
  ∃ offset, seq = isn + 1 + ofNat 32 offset ∧ offset + bytes.length ≤ stream.length ∧
    bytes <+: stream.drop offset

theorem InStream.mono {isn seq stream more bytes} (h : InStream isn stream seq bytes) :
    InStream isn (stream ++ more) seq bytes := by
  obtain ⟨offset, hseq, hle, hbytes⟩ := h
  refine ⟨offset, hseq, by rw [length_append]; omega, ?_⟩
  rw [drop_append_of_le_length (by omega)]
  exact hbytes.trans (prefix_append _ _)

theorem InStream.last (isn stream bytes) :
    InStream isn (stream ++ bytes) (isn + 1 + ofNat 32 stream.length) bytes :=
  ⟨stream.length, rfl, by simp, by simp⟩

/-! ## Moves -/

structure Sender where
  isn : U32
  next : U32
  una : U32
  pending : List U8
  queue : List OutSeg
  finSent : Bool
  finSeq : U32
  hostEof : Bool
  record : List Effect

/-- What the sender's side has no part in: bare acknowledgements, resets, and the guest's stream. -/
def Effect.Plain : Effect → Prop
  | .emitted _ segment | .resent _ segment => segment.payload = [] ∧ segment.has FLAG_FIN = false
  | .handed _ | .tookFin => True
  | _ => False

namespace Sender

def add (s : Sender) (e : Effect) : Sender := { s with record := s.record ++ [e] }

inductive Move : Sender → Sender → Prop
  | plain (s : Sender) (e : Effect) : e.Plain → Move s (s.add e)
  | acknowledge (s : Sender) (ack : U32) : seqGt ack s.una → seqLe ack s.next →
      Move s { s.add (.acknowledged ack) with una := ack, queue := popAcked ack s.queue }
  /-- the SYN-ACK enters the queue -/
  | announce (s : Sender) (o : OutSeg) : s.queue = [] → o.bytes = [] → Move s { s with queue := [o] }
  | receive (s : Sender) (bytes : List U8) : s.hostEof = false →
      Move s { s.add (.received bytes) with pending := s.pending ++ bytes }
  | hostClosed (s : Sender) : Move s { s.add .hostClosed with hostEof := true }
  | send (s : Sender) (id : U16) (segment : Segment) (o : OutSeg) (take : Nat) : 0 < take → take ≤ s.pending.length →
      segment.seq = s.next → segment.payload = s.pending.take take → segment.has FLAG_FIN = false →
      o.seq = s.next → o.bytes = s.pending.take take →
      Move s { s.add (.emitted id segment) with
        pending := s.pending.drop take, queue := s.queue ++ [o], next := s.next + ofNat 32 take }
  | resend (s : Sender) (id : U16) (segment : Segment) (o : OutSeg) : o ∈ s.queue → segment.seq = o.seq →
      segment.payload = o.bytes → segment.has FLAG_FIN = false → Move s (s.add (.resent id segment))
  | resendFin (s : Sender) (id : U16) (segment : Segment) : s.finSent = true → segment.seq = s.finSeq →
      segment.payload = [] → Move s (s.add (.resent id segment))
  | touch (s : Sender) (now : Nat) : Move s { s with queue := s.queue.map fun o => { o with lastSent := now } }
  | close (s : Sender) (id : U16) (segment : Segment) : s.finSent = false → s.pending = [] → s.queue = [] →
      s.hostEof = true → segment.seq = s.next → segment.payload = [] →
      Move s { s.add (.emitted id segment) with finSeq := s.next, next := s.next + 1, finSent := true }

abbrev Moves : Sender → Sender → Prop := Relation.ReflTransGen Move

/-! ## What moves keep -/

/-- First sends follow each other in the sequence space. -/
def FirstSend (isn : U32) (before : List Effect) (e : Effect) : Prop :=
  ∀ id segment, e = .emitted id segment → segment.payload ≠ [] →
    segment.seq = isn + 1 + ofNat 32 (sentBytes before).length

/-- No payload follows a FIN, and the FIN follows the host's close and the acknowledgement of
    everything received. -/
def FinLast (isn : U32) (before : List Effect) (e : Effect) : Prop :=
  (∀ segment, e.segment? = some segment → segment.payload ≠ [] → ∀ e' ∈ before, e'.isFin = false) ∧
  (∀ id segment, e = .emitted id segment → segment.has FLAG_FIN →
    .hostClosed ∈ before ∧ sentBytes before = receivedBytes before ∧
      (sentBytes before = [] ∨ ackedUpTo isn before = segment.seq))

/-- Payload and sequence numbers. -/
structure Streaming (s : Sender) : Prop where
  stream : receivedBytes s.record = sentBytes s.record ++ s.pending
  next : s.next = s.isn + 1 + ofNat 32 (sentBytes s.record).length + if s.finSent then 1 else 0
  queue : ∀ o ∈ s.queue, o.bytes ≠ [] → InStream s.isn (sentBytes s.record) o.seq o.bytes
  segments : ∀ e ∈ s.record, ∀ segment, e.segment? = some segment → segment.payload ≠ [] →
    InStream s.isn (sentBytes s.record) segment.seq segment.payload
  order : Always (FirstSend s.isn) s.record

/-- The newest queued payload ends where the next one starts; without one everything is acknowledged. -/
structure Acked (s : Sender) : Prop where
  una : s.una = ackedUpTo s.isn s.record
  behind : s.finSent = false → ∀ o, s.queue.getLast? = some o → o.bytes ≠ [] → o.finish = s.next
  caughtUp : s.finSent = false → (∀ o, s.queue.getLast? = some o → o.bytes = []) →
    sentBytes s.record = [] ∨ s.una = s.next

structure Ending (s : Sender) : Prop where
  closed : s.hostEof = true ↔ .hostClosed ∈ s.record
  ended : s.finSent = true → s.hostEof = true ∧ s.pending = [] ∧ (∀ o ∈ s.queue, o.bytes = []) ∧
    s.finSeq = s.isn + 1 + ofNat 32 (sentBytes s.record).length
  fins : ∀ e ∈ s.record, ∀ segment, e.segment? = some segment → segment.has FLAG_FIN →
    s.finSent = true ∧ segment.seq = s.finSeq
  last : Always (FinLast s.isn) s.record

structure Inv (s : Sender) : Prop where
  streaming : Streaming s
  acked : Acked s
  ending : Ending s

variable {s s' : Sender} {e : Effect}

/-! ### Payload and sequence numbers -/

theorem Streaming.extend (h : Streaming s) (hisn : s'.isn = s.isn) (hrecord : s'.record = s.record ++ [e])
    (hsent : sentBytes [e] = []) (hpending : s'.pending = s.pending ++ receivedBytes [e])
    (hnext : s'.next = s.isn + 1 + ofNat 32 (sentBytes s.record).length + if s'.finSent then 1 else 0)
    (hqueue : ∀ o ∈ s'.queue, o.bytes ≠ [] → InStream s.isn (sentBytes s.record) o.seq o.bytes)
    (hsegment : ∀ segment, e.segment? = some segment → segment.payload ≠ [] →
      InStream s.isn (sentBytes s.record) segment.seq segment.payload) : Streaming s' := by
  have hsame : sentBytes s'.record = sentBytes s.record := by rw [hrecord, sentBytes_append, hsent, append_nil]
  refine ⟨?_, by rw [hnext, hsame, hisn], by rw [hsame, hisn]; exact hqueue, ?_, ?_⟩
  · rw [hsame, hrecord, receivedBytes_append, h.stream, hpending, append_assoc]
  · rw [hsame, hisn, hrecord]
    intro e' he'
    rcases mem_append.mp he' with he' | he'
    · exact h.segments e' he'
    · cases mem_singleton.mp he'
      exact hsegment
  · rw [hrecord, hisn, always_snoc]
    refine ⟨h.order, fun id segment heq hne => ?_⟩
    subst heq
    exact absurd (by simpa [sentBytes] using hsent) hne

theorem Effect.Plain.sentBytes_eq (h : e.Plain) : sentBytes [e] = [] := by
  cases e <;> simp_all [sentBytes, Effect.Plain]

theorem Effect.Plain.receivedBytes_eq (h : e.Plain) : receivedBytes [e] = [] := by
  cases e <;> simp_all [receivedBytes, Effect.Plain]

variable {ack : U32} {queue : List OutSeg} {segment : Segment}

theorem Effect.Plain.payload (h : e.Plain) (he : e.segment? = some segment) :
    segment.payload = [] ∧ segment.has FLAG_FIN = false := by
  cases e <;> simp_all [Effect.segment?, Effect.Plain]

theorem popAcked_mem {o} (h : o ∈ popAcked ack queue) : o ∈ queue :=
  (dropWhile_suffix _).subset h

theorem Streaming.send {id o take} (h : Streaming s)
    (hfin : s.finSent = false) (hle : take ≤ s.pending.length) (hseq : segment.seq = s.next)
    (hpayload : segment.payload = s.pending.take take) (hoseq : o.seq = s.next)
    (hbytes : o.bytes = s.pending.take take) :
    Streaming { s.add (.emitted id segment) with
      pending := s.pending.drop take, queue := s.queue ++ [o], next := s.next + ofNat 32 take } := by
  have hnext : s.next = s.isn + 1 + ofNat 32 (sentBytes s.record).length := by simpa [hfin] using h.next
  have hsent : sentBytes (s.record ++ [.emitted id segment]) = sentBytes s.record ++ s.pending.take take := by
    simp [sentBytes, hpayload]
  have hlast := InStream.last s.isn (sentBytes s.record) (s.pending.take take)
  refine ⟨?_, ?_, ?_, ?_, ?_⟩
  · simp only [add, hsent]
    simp [receivedBytes, append_assoc]
    exact h.stream
  · simp only [add, hsent, hfin, hnext, length_append, length_take, Nat.min_eq_left hle, BitVec.ofNat_add]
    simp [BitVec.add_assoc]
  · simp only [add, hsent]
    intro o' ho' hne
    rcases mem_append.mp ho' with ho' | ho'
    · exact (h.queue o' ho' hne).mono
    · cases mem_singleton.mp ho'
      rw [hoseq, hbytes, hnext]
      exact hlast
  · simp only [add, hsent]
    intro e' he' g hg hne
    rcases mem_append.mp he' with he' | he'
    · exact (h.segments e' he' g hg hne).mono
    · cases mem_singleton.mp he'
      cases hg
      rw [hseq, hpayload, hnext]
      exact hlast
  · simp only [add]
    rw [always_snoc]
    refine ⟨h.order, fun id' g heq _ => ?_⟩
    cases heq
    rw [hseq, hnext]

theorem Streaming.move (h : Streaming s) (hend : Ending s) (hm : Move s s') : Streaming s' := by
  cases hm with
  | plain e he =>
    refine h.extend rfl rfl (Effect.Plain.sentBytes_eq he) ?_ h.next h.queue ?_
    · simp [add, Effect.Plain.receivedBytes_eq he]
    · intro segment hsegment hne
      exact absurd (Effect.Plain.payload he hsegment).1 hne
  | acknowledge ack hgt hle =>
    exact h.extend rfl rfl rfl (by simp [add, receivedBytes]) h.next (fun o ho => h.queue o (popAcked_mem ho))
      (by simp [Effect.segment?])
  | announce o hqueue hbytes =>
    refine ⟨h.stream, h.next, fun o' ho' hne => ?_, h.segments, h.order⟩
    cases mem_singleton.mp ho'
    exact absurd hbytes hne
  | receive bytes heof =>
    exact h.extend rfl rfl rfl (by simp [receivedBytes]) h.next h.queue (by simp [Effect.segment?])
  | hostClosed => exact h.extend rfl rfl rfl (by simp [add, receivedBytes]) h.next h.queue (by simp [Effect.segment?])
  | send id segment o take hpos hle hseq hpayload hnofin hoseq hbytes =>
    have hfin : s.finSent = false := by
      by_contra hfin
      have := (hend.ended (by simpa using hfin)).2.1
      rw [this, length_nil] at hle
      omega
    exact h.send hfin hle hseq hpayload hoseq hbytes
  | resend id segment o ho hseq hpayload hnofin =>
    refine h.extend rfl rfl rfl (by simp [add, receivedBytes]) h.next h.queue fun g hg hne => ?_
    cases hg
    rw [hpayload] at hne ⊢
    exact hseq ▸ h.queue o ho hne
  | resendFin id segment hfin hseq hpayload =>
    refine h.extend rfl rfl rfl (by simp [add, receivedBytes]) h.next h.queue fun g hg hne => ?_
    cases hg
    exact absurd hpayload hne
  | touch now =>
    refine ⟨h.stream, h.next, fun o ho hne => ?_, h.segments, h.order⟩
    obtain ⟨o', ho', rfl⟩ := mem_map.mp ho
    exact h.queue o' ho' hne
  | close id segment hfin hpending hqueue heof hseq hpayload =>
    refine h.extend rfl rfl (by simp [sentBytes, hpayload]) (by simp [add, receivedBytes]) ?_ h.queue fun g hg hne => ?_
    · simpa [hfin] using h.next
    · cases hg
      exact absurd hpayload hne

/-! ### Acknowledgements -/

theorem not_past {a b} (hgt : seqGt a b = true) (hle : seqLe a b = true) : False := by
  simp only [seqGt, seqLe, decide_eq_true_eq] at hgt hle
  omega

theorem eq_of_between {a b} (hge : seqGe a b = true) (hle : seqLe a b = true) : a = b := by
  simp only [seqGe, seqLe, decide_eq_true_eq] at hge hle
  have hzero : (a - b).toInt = (0 : U32).toInt := by simpa using Int.le_antisymm hle hge
  have := BitVec.eq_of_toInt_eq hzero
  exact (BitVec.sub_eq_iff_eq_add.mp this).trans (BitVec.zero_add b)

theorem ackedUpTo_plain (isn record) (he : e.Plain) :
    ackedUpTo isn (record ++ [e]) = ackedUpTo isn record := by
  cases e <;> simp_all [Effect.Plain]

theorem popAcked_getLast? (h : popAcked ack queue ≠ []) : (popAcked ack queue).getLast? = queue.getLast? := by
  obtain ⟨popped, hpopped⟩ := dropWhile_suffix (p := fun front : OutSeg => seqGe ack front.finish) (l := queue)
  have heq : queue = popped ++ popAcked ack queue := hpopped.symm
  obtain ⟨o, ho⟩ := Option.ne_none_iff_exists'.mp (mt getLast?_eq_none_iff.mp h)
  rw [ho]
  conv_rhs => rw [heq]
  simp [getLast?_append, ho]

theorem Acked.acknowledge (h : Acked s) (hgt : seqGt ack s.una = true) (hle : seqLe ack s.next = true) :
    Acked { s.add (.acknowledged ack) with una := ack, queue := popAcked ack s.queue } := by
  refine ⟨by simp [add], fun hfin o ho hne => ?_, fun hfin hlast => ?_⟩
  · have hsome : popAcked ack s.queue ≠ [] := by
      rintro hnil
      simp [hnil] at ho
    exact h.behind hfin o (popAcked_getLast? hsome ▸ ho) hne
  -- either the queue held payload to its end, and all of it was acknowledged, or none was outstanding
  · simp only [add, sentBytes_append, show sentBytes [.acknowledged ack] = [] from rfl, append_nil]
    rcases hq : s.queue.getLast? with _ | o
    · rcases h.caughtUp hfin (by simp [hq]) with hsent | hcaught
      · exact .inl hsent
      · exact (not_past (hcaught ▸ hgt) hle).elim
    · by_cases hbytes : o.bytes = []
      · rcases h.caughtUp hfin (by simp [hq, hbytes]) with hsent | hcaught
        · exact .inl hsent
        · exact (not_past (hcaught ▸ hgt) hle).elim
      · have hnil : popAcked ack s.queue = [] := by
          by_contra hsome
          exact hbytes (hlast o (by rw [popAcked_getLast? hsome, hq]))
        have hpopped : seqGe ack o.finish = true :=
          dropWhile_eq_nil_iff.mp hnil o (mem_of_getLast? hq)
        exact .inr (eq_of_between (h.behind hfin o hq hbytes ▸ hpopped) hle)

theorem Acked.extend (h : Acked s) (hisn : s'.isn = s.isn) (hrecord : s'.record = s.record ++ [e])
    (hsent : sentBytes [e] = []) (hack : ackedUpTo s.isn (s.record ++ [e]) = ackedUpTo s.isn s.record)
    (huna : s'.una = s.una) (hfin : s'.finSent = false → s.finSent = false)
    (hnext : s'.finSent = false → s'.next = s.next) (hqueue : s'.queue = s.queue) : Acked s' := by
  refine ⟨by rw [huna, hisn, hrecord, hack, h.una], fun hf => ?_, fun hf => ?_⟩
  · rw [hqueue, hnext hf]
    exact h.behind (hfin hf)
  · rw [hqueue, hnext hf, huna, hrecord, sentBytes_append, hsent, append_nil]
    exact h.caughtUp (hfin hf)

theorem Acked.move (h : Acked s) (hm : Move s s') : Acked s' := by
  cases hm with
  | plain e he =>
    exact h.extend rfl rfl (Effect.Plain.sentBytes_eq he) (ackedUpTo_plain _ _ he) rfl id (fun _ => rfl) rfl
  | acknowledge ack hgt hle => exact h.acknowledge hgt hle
  | announce o hqueue hbytes =>
    refine ⟨h.una, fun _ o' ho' hne => ?_, fun hfin _ => h.caughtUp hfin (by simp [hqueue])⟩
    cases ho'
    exact absurd hbytes hne
  | receive bytes heof => exact h.extend rfl rfl rfl (by simp) rfl id (fun _ => rfl) rfl
  | hostClosed => exact h.extend rfl rfl rfl (by simp) rfl id (fun _ => rfl) rfl
  | send id segment o take hpos hle hseq hpayload hnofin hoseq hbytes =>
    refine ⟨by simpa [add] using h.una, fun _ o' ho' _ => ?_, fun _ hlast => ?_⟩
    · obtain rfl : o = o' := by simpa using ho'
      rw [OutSeg.finish, hoseq, hbytes, length_take, Nat.min_eq_left hle]
    · have hnil := hlast o (by simp)
      rw [hbytes, take_eq_nil_iff] at hnil
      rcases hnil with hzero | hnil
      · omega
      · simp [hnil] at hle
        omega
  | resend _ segment o ho hseq hpayload hnofin => exact h.extend rfl rfl rfl (by simp) rfl id (fun _ => rfl) rfl
  | resendFin _ segment hfin hseq hpayload => exact h.extend rfl rfl rfl (by simp) rfl id (fun _ => rfl) rfl
  | touch now =>
    refine ⟨h.una, fun hfin o ho hne => ?_, fun hfin hlast => h.caughtUp hfin fun o ho => ?_⟩
    · simp only [getLast?_map, Option.map_eq_some_iff] at ho
      obtain ⟨o', ho', rfl⟩ := ho
      exact h.behind hfin o' ho' hne
    · exact hlast { o with lastSent := now } (by simp [getLast?_map, ho])
  | close id segment hfin hpending hqueue heof hseq hpayload =>
    exact ⟨by simpa [add] using h.una, by simp, by simp⟩

/-! ### The end of the stream -/

theorem Ending.extend (h : Ending s) (hisn : s'.isn = s.isn) (hrecord : s'.record = s.record ++ [e])
    (hfin : s'.finSent = s.finSent) (hseq : s'.finSeq = s.finSeq)
    (hclosed : s'.hostEof = true ↔ s.hostEof = true ∨ e = .hostClosed)
    (hended : s.finSent = true → s'.hostEof = true ∧ s'.pending = [] ∧ (∀ o ∈ s'.queue, o.bytes = []) ∧
      sentBytes [e] = [])
    (hnofin : ∀ segment, e.segment? = some segment → segment.has FLAG_FIN → s.finSent = true ∧ segment.seq = s.finSeq)
    (hlast : FinLast s.isn s.record e) : Ending s' := by
  refine ⟨?_, fun hf => ?_, ?_, ?_⟩
  · rw [hclosed, hrecord, mem_append, mem_singleton, h.closed, eq_comm (a := e)]
  · obtain ⟨heof, hpending, hqueue, hsent⟩ := hended (hfin ▸ hf)
    refine ⟨heof, hpending, hqueue, ?_⟩
    rw [hseq, hisn, hrecord, sentBytes_append, hsent, append_nil]
    exact (h.ended (hfin ▸ hf)).2.2.2
  · rw [hrecord, hfin, hseq]
    intro e' he'
    rcases mem_append.mp he' with he' | he'
    · exact h.fins e' he'
    · cases mem_singleton.mp he'
      exact hnofin
  · rw [hrecord, hisn, always_snoc]
    exact ⟨h.last, hlast⟩

theorem Ending.no_fin (h : Ending s) (hfin : s.finSent = false) : ∀ e ∈ s.record, e.isFin = false := by
  intro e he
  rcases hg : e.segment? with _ | segment
  · simp [Effect.isFin, hg]
  · by_contra hflag
    have := (h.fins e he segment hg (by simpa [Effect.isFin, hg] using hflag)).1
    simp [hfin] at this

theorem finLast_of_bare {isn before}
    (hpayload : ∀ segment, e.segment? = some segment → segment.payload = [])
    (hnofin : ∀ id segment, e = .emitted id segment → segment.has FLAG_FIN = false) : FinLast isn before e := by
  refine ⟨fun segment hsegment hne => absurd (hpayload segment hsegment) hne, fun id segment heq hflag => ?_⟩
  simp [hnofin id segment heq] at hflag

theorem Ending.move (h : Ending s) (hstream : Streaming s) (hacked : Acked s) (hm : Move s s') : Ending s' := by
  cases hm with
  | plain e he =>
    refine h.extend rfl rfl rfl rfl ⟨.inl, fun hor => hor.elim (fun heof => heof) fun heq =>
      (heq ▸ he : Effect.hostClosed.Plain).elim⟩ (fun hf => ?_) (fun g hg hflag => ?_) (finLast_of_bare ?_ ?_)
    · exact ⟨(h.ended hf).1, (h.ended hf).2.1, (h.ended hf).2.2.1, Effect.Plain.sentBytes_eq he⟩
    · simp [(Effect.Plain.payload he hg).2] at hflag
    · exact fun g hg => (Effect.Plain.payload he hg).1
    · rintro id g rfl
      exact he.2
  | acknowledge ack hgt hle =>
    refine h.extend rfl rfl rfl rfl (by simp [add]) (fun hf => ?_) (by simp [Effect.segment?])
      (finLast_of_bare (by simp [Effect.segment?]) (by simp))
    exact ⟨(h.ended hf).1, (h.ended hf).2.1, fun o ho => (h.ended hf).2.2.1 o (popAcked_mem ho), rfl⟩
  | announce o hqueue hbytes =>
    refine ⟨h.closed, fun hf => ⟨(h.ended hf).1, (h.ended hf).2.1, ?_, (h.ended hf).2.2.2⟩, h.fins, h.last⟩
    simpa using hbytes
  | receive bytes heof =>
    refine h.extend rfl rfl rfl rfl (by simp [add]) (fun hf => ?_) (by simp [Effect.segment?])
      (finLast_of_bare (by simp [Effect.segment?]) (by simp))
    simp [(h.ended hf).1] at heof
  | hostClosed =>
    refine h.extend rfl rfl rfl rfl (by simp) (fun hf => ?_) (by simp [Effect.segment?])
      (finLast_of_bare (by simp [Effect.segment?]) (by simp))
    exact ⟨rfl, (h.ended hf).2.1, (h.ended hf).2.2.1, rfl⟩
  | send id segment o take hpos hle hseq hpayload hnofin hoseq hbytes =>
    have hopen : s.finSent = false := by
      by_contra hf
      have := (h.ended (by simpa using hf)).2.1
      rw [this, length_nil] at hle
      omega
    refine h.extend rfl rfl rfl rfl (by simp [add]) (by simp [hopen]) (fun g hg hflag => ?_)
      ⟨fun _ _ _ => h.no_fin hopen, ?_⟩
    · cases hg
      simp [hnofin] at hflag
    · intro id' g heq hflag
      cases heq
      simp [hnofin] at hflag
  | resend id segment o ho hseq hpayload hnofin =>
    refine h.extend rfl rfl rfl rfl (by simp [add]) (fun hf => ?_) (fun g hg hflag => ?_) ⟨fun g hg hne => ?_, by simp⟩
    · exact ⟨(h.ended hf).1, (h.ended hf).2.1, (h.ended hf).2.2.1, rfl⟩
    · cases hg
      simp [hnofin] at hflag
    · cases hg
      refine h.no_fin ?_
      by_contra hf
      exact hne (hpayload.trans ((h.ended (by simpa using hf)).2.2.1 o ho))
  | resendFin id segment hfin hseq hpayload =>
    refine h.extend rfl rfl rfl rfl (by simp [add]) (fun hf => ?_) (fun g hg hflag => ?_)
      (finLast_of_bare (fun g hg => ?_) (by simp))
    · exact ⟨(h.ended hf).1, (h.ended hf).2.1, (h.ended hf).2.2.1, rfl⟩
    · cases hg
      exact ⟨hfin, hseq⟩
    · cases hg
      exact hpayload
  | touch now =>
    refine ⟨h.closed, fun hf => ⟨(h.ended hf).1, (h.ended hf).2.1, ?_, (h.ended hf).2.2.2⟩, h.fins, h.last⟩
    intro o ho
    obtain ⟨o', ho', rfl⟩ := mem_map.mp ho
    exact (h.ended hf).2.2.1 o' ho'
  | close id segment hfin hpending hqueue heof hseq hpayload =>
    have hnext : s.next = s.isn + 1 + ofNat 32 (sentBytes s.record).length := by simpa [hfin] using hstream.next
    have hsent : sentBytes (s.record ++ [.emitted id segment]) = sentBytes s.record := by simp [sentBytes, hpayload]
    refine ⟨?_, fun _ => ⟨heof, hpending, by simp [add, hqueue], ?_⟩, fun e he g hg hflag => ⟨rfl, ?_⟩, ?_⟩
    · simp [add, heof, h.closed.mp heof]
    · simp only [add, hsent]
      exact hnext
    · rcases mem_append.mp he with he | he
      · have := (h.fins e he g hg hflag).1
        simp [hfin] at this
      · cases mem_singleton.mp he
        cases hg
        exact hseq
    · simp only [add]
      rw [always_snoc]
      refine ⟨h.last, fun g hg hne => ?_, fun id' g heq _ => ⟨h.closed.mp heof, ?_, ?_⟩⟩
      · cases hg
        exact absurd hpayload hne
      · rw [hstream.stream, hpending, append_nil]
      · cases heq
        rcases hacked.caughtUp hfin (by simp [hqueue]) with hnone | hcaught
        · exact .inl hnone
        · exact .inr (by rw [← hacked.una, hcaught, hseq])

/-! ### Every move -/

theorem Inv.move (h : Inv s) (hm : Move s s') : Inv s' :=
  ⟨h.streaming.move h.ending hm, h.acked.move hm, h.ending.move h.streaming h.acked hm⟩

theorem Move.isn (hm : Move s s') : s'.isn = s.isn := by
  cases hm <;> rfl

theorem Moves.isn (hm : Moves s s') : s'.isn = s.isn := by
  induction hm with
  | refl => rfl
  | tail _ hm ih => exact hm.isn.trans ih

theorem Inv.moves (h : Inv s) (hm : Moves s s') : Inv s' := by
  induction hm with
  | refl => exact h
  | tail _ hm ih => exact ih.move hm

end Sender

end Rish.SoftVm.Net
