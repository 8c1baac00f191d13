/-
  Rish.SoftVm.Net.GuestStream — the guest's bytes on their way to the host.

  A guest sends one byte stream: a segment carries a slice of it under the sequence number of its
  offset, and a FIN stands at the end. Segments may be repeated, overlap and come in any order, as long
  as their offsets are told apart from the accepted ones by 32 bits.
-/

import Rish.SoftVm.Net.Connection

namespace Rish.SoftVm.Net

open Lib List
open Session (step opened)
open BitVec (ofNat ofNat_add)

/-! ## The record -/

def handedBytes (record : List Effect) : List U8 :=
  record.flatMap fun
    | .handed bytes => bytes
    | _ => []

/-- How many sequence numbers of the guest were taken: its bytes, and its FIN. -/
def taken (record : List Effect) : Nat := (handedBytes record).length + if .tookFin ∈ record then 1 else 0

def Effect.segment? : Effect → Option Segment
  | .emitted _ segment => some segment
  | .resent _ segment => some segment
  | _ => none

/-- Every segment sent acknowledges what was taken before it. -/
def Acknowledges (start : U32) (before : List Effect) (e : Effect) : Prop :=
  ∀ segment, e.segment? = some segment → segment.ack = start + ofNat 32 (taken before)

@[simp] theorem handedBytes_append (record more) :
    handedBytes (record ++ more) = handedBytes record ++ handedBytes more := by
  simp [handedBytes]

@[simp] theorem handedBytes_handed (bytes) : handedBytes [.handed bytes] = bytes := by simp [handedBytes]

/-! ## Steps that leave the guest's stream alone -/

/-- Neither takes anything from the guest nor acknowledges anything else than `next`. -/
def Effect.QuietAt (next : U32) : Effect → Prop
  | .emitted _ segment | .resent _ segment => segment.ack = next
  | .handed _ | .tookFin => False
  | _ => True

structure Quiet (f f' : Flow) : Prop where
  guestNext : f'.conn.guestNext = f.conn.guestNext
  heldGuest : f'.conn.heldGuest = f.conn.heldGuest
  guestFin : f'.conn.guestFin = f.conn.guestFin
  record : ∃ more, f'.effects = f.effects ++ more ∧ ∀ e ∈ more, e.QuietAt f.conn.guestNext

namespace Quiet

variable {f f' f'' : Flow}

theorem refl (f) : Quiet f f := ⟨rfl, rfl, rfl, [], by simp, by simp⟩

theorem trans (h : Quiet f f') (h' : Quiet f' f'') : Quiet f f'' := by
  obtain ⟨more, hmore, hquiet⟩ := h.record
  obtain ⟨more', hmore', hquiet'⟩ := h'.record
  refine ⟨h'.guestNext.trans h.guestNext, h'.heldGuest.trans h.heldGuest, h'.guestFin.trans h.guestFin,
    more ++ more', by rw [hmore', hmore, append_assoc], fun e he => ?_⟩
  rcases mem_append.mp he with he | he
  · exact hquiet e he
  · exact h.guestNext ▸ hquiet' e he

theorem silent (hn : f'.conn.guestNext = f.conn.guestNext) (hh : f'.conn.heldGuest = f.conn.heldGuest)
    (hf : f'.conn.guestFin = f.conn.guestFin) (he : f'.effects = f.effects) : Quiet f f' :=
  ⟨hn, hh, hf, [], by simp [he], by simp⟩

section

variable (h : Quiet f f')
include h

theorem update {g} (hn : (g f'.conn).guestNext = f'.conn.guestNext)
    (hh : (g f'.conn).heldGuest = f'.conn.heldGuest) (hf : (g f'.conn).guestFin = f'.conn.guestFin) :
    Quiet f (f'.update g) :=
  h.trans (.silent hn hh hf rfl)

theorem note {e} (he : ∀ next, e.QuietAt next) : Quiet f (f'.note e) :=
  h.trans ⟨rfl, rfl, rfl, [e], rfl, by simpa using he _⟩

variable {segment : Segment}

theorem emit (hack : segment.ack = f'.conn.guestNext) : Quiet f (f'.emit segment) :=
  h.trans ⟨rfl, rfl, rfl, [.emitted f'.ipId segment], rfl, by simpa [Effect.QuietAt] using hack⟩

theorem resend (hack : segment.ack = f'.conn.guestNext) : Quiet f (f'.resend segment) :=
  h.trans ⟨rfl, rfl, rfl, [.resent f'.ipId segment], rfl, by simpa [Effect.QuietAt] using hack⟩

end

instance : FollowsHost Quiet where
  refl := refl
  trans _ _ _ := trans
  aside h :=
    .silent (congrArg (·.1.guestNext) h) (congrArg (·.1.heldGuest) h) (congrArg (·.1.guestFin) h) (congrArg Prod.snd h)
  emit hack _ _ := (refl _).emit hack
  send _ _ f _ _ := by
    unfold sendChunk
    exact ((refl f).emit rfl).update rfl rfl rfl
  resend _ := (refl _).resend rfl
  resendFin _ := (refl _).resend rfl
  touch _ _ := (refl _).update rfl rfl rfl
  host h :=
    .silent (congrArg (·.1.guestNext) h) (congrArg (·.1.heldGuest) h) (congrArg (·.1.guestFin) h) (congrArg Prod.snd h)
  announce := (refl _).emit
  received _ _ := (refl _).note fun _ => trivial
  hostClosed _ := (refl _).note fun _ => trivial

end Quiet

theorem advanceUna_quiet (ack f) : Quiet f (advanceUna ack f) :=
  ((Quiet.refl f).note fun _ => by exact trivial).update rfl rfl rfl

theorem acceptAck_quiet (ack f) : Quiet f (acceptAck ack f) := by
  unfold acceptAck
  split
  · refine Quiet.update ?_ rfl rfl rfl
    split
    · exact advanceUna_quiet ack f
    · exact .refl f
  · exact .refl f

theorem acknowledge_quiet (segment f) : Quiet f (acknowledge segment f) := by
  unfold acknowledge
  split
  · exact ((Quiet.refl f).update rfl rfl rfl).trans (acceptAck_quiet _ (setGuestWindow segment f))
  · exact .refl f

theorem acknowledge_guestTx (segment f) : (acknowledge segment f).conn.guestTx = f.conn.guestTx := by
  unfold acknowledge acceptAck
  split
  · split
    · split <;> rfl
    · rfl
  · rfl

/-! ## What was taken -/

/-- The host channel got a prefix of the stream, the next expected sequence number stands behind it,
    and a held payload continues it. -/
structure Taken (stream : List U8) (start : U32) (f : Flow) : Prop where
  handed : handedBytes f.effects <+: stream
  next : f.conn.guestNext = start + ofNat 32 (taken f.effects)
  fin : f.conn.guestFin = true ↔ Effect.tookFin ∈ f.effects
  whole : f.conn.guestFin = true → handedBytes f.effects = stream
  held : ∀ bytes, f.conn.heldGuest = some bytes → bytes ≠ [] ∧ handedBytes f.effects ++ bytes <+: stream
  acks : Always (Acknowledges start) f.effects

variable {more : List Effect} {next : U32}

section

variable (h : ∀ e ∈ more, e.QuietAt next)
include h

theorem Effect.QuietAt.handedBytes_eq : handedBytes more = [] := by
  simp only [handedBytes, flatMap_eq_nil_iff]
  intro e he
  have := h e he
  cases e <;> first | rfl | exact this.elim

theorem Effect.QuietAt.not_tookFin : Effect.tookFin ∉ more := fun hmem => h _ hmem

variable {record : List Effect}

theorem taken_quiet : taken (record ++ more) = taken record := by
  simp [taken, Effect.QuietAt.handedBytes_eq h, Effect.QuietAt.not_tookFin h]

theorem acknowledges_quiet {start}
    (hnext : next = start + ofNat 32 (taken record)) (hrecord : Always (Acknowledges start) record) :
    Always (Acknowledges start) (record ++ more) := by
  induction more using List.reverseRecOn with
  | nil => simpa using hrecord
  | append_singleton more e ih =>
    have hmore : ∀ e ∈ more, e.QuietAt next := fun e' he' => h e' (by simp [he'])
    rw [← append_assoc, always_snoc]
    refine ⟨ih hmore, fun segment hsegment => ?_⟩
    rw [taken_quiet hmore, ← hnext]
    have he := h e (by simp)
    cases e <;> simp_all [Effect.segment?, Effect.QuietAt]

end

variable {stream : List U8} {start : U32} {f f' : Flow}

theorem Taken.quiet (h : Taken stream start f) (hq : Quiet f f') : Taken stream start f' := by
  obtain ⟨more, hmore, hquiet⟩ := hq.record
  have hbytes : handedBytes f'.effects = handedBytes f.effects := by
    simp [hmore, Effect.QuietAt.handedBytes_eq hquiet]
  refine ⟨hbytes ▸ h.handed, ?_, ?_, ?_, ?_, ?_⟩
  · rw [hq.guestNext, hmore, taken_quiet hquiet, h.next]
  · rw [hq.guestFin, h.fin, hmore]
    simp [Effect.QuietAt.not_tookFin hquiet]
  · rw [hq.guestFin, hbytes]
    exact h.whole
  · rw [hq.heldGuest, hbytes]
    exact h.held
  · rw [hmore]
    exact acknowledges_quiet hquiet h.next h.acks

theorem Taken.hand {bytes} (h : Taken stream start f) (hfin : f.conn.guestFin = false)
    (hbytes : handedBytes f.effects ++ bytes <+: stream) (he : f'.effects = f.effects ++ [.handed bytes])
    (hnext : f'.conn.guestNext = f.conn.guestNext + ofNat 32 bytes.length)
    (hfin' : f'.conn.guestFin = f.conn.guestFin) (hheld : f'.conn.heldGuest = none) : Taken stream start f' := by
  have hno : Effect.tookFin ∉ f.effects := fun hmem => by simp [h.fin.mpr hmem] at hfin
  have hhanded : handedBytes f'.effects = handedBytes f.effects ++ bytes := by simp [he]
  refine ⟨hhanded ▸ hbytes, ?_, ?_, ?_, by simp [hheld], ?_⟩
  · rw [hnext, h.next, BitVec.add_assoc, ← ofNat_add]
    simp [taken, he, hno]
  · simp [hfin', hfin, he, hno]
  · simp [hfin', hfin]
  · rw [he, always_snoc]
    exact ⟨h.acks, fun segment hsegment => by simp [Effect.segment?] at hsegment⟩

/-! ## Segments of one stream -/

/-- The segment carries the stream's bytes at this offset, and a FIN only at the stream's end. -/
structure Segment.Carries (stream : List U8) (start : U32) (offset : Nat) (segment : Segment) : Prop where
  seq : segment.seq = start + ofNat 32 offset
  payload : segment.payload <+: stream.drop offset
  inside : offset + segment.payload.length ≤ stream.length
  fin : segment.has FLAG_FIN → offset + segment.payload.length = stream.length

/-- 32 bits tell the segment's offsets from the number of bytes accepted. -/
def Segment.Near (accepted offset : Nat) (segment : Segment) : Prop :=
  offset + segment.payload.length < accepted + 2 ^ 32 ∧ accepted < offset + 2 ^ 32

instance (stream : List U8) (start : U32) (offset : Nat) (segment : Segment) :
    Decidable (segment.Carries stream start offset) :=
  decidable_of_iff
    (segment.seq = start + ofNat 32 offset ∧ segment.payload <+: stream.drop offset ∧
      offset + segment.payload.length ≤ stream.length ∧
      (segment.has FLAG_FIN → offset + segment.payload.length = stream.length))
    ⟨fun ⟨hs, hp, hi, hf⟩ => ⟨hs, hp, hi, hf⟩, fun ⟨hs, hp, hi, hf⟩ => ⟨hs, hp, hi, hf⟩⟩

instance (accepted offset : Nat) (segment : Segment) : Decidable (segment.Near accepted offset) :=
  inferInstanceAs (Decidable (_ ∧ _))

def OfStream (stream : List U8) (start : U32) : ConnEvent → Session → Prop
  | .segment segment, s =>
    segment.payload ≠ [] ∨ segment.has FLAG_FIN → ∃ offset ≤ stream.length,
      segment.Carries stream start offset ∧ segment.Near (handedBytes s.flow.effects).length offset
  | _, _ => True

/-- An in-order payload that finds another one held finds the host channel without room. -/
def HeldWaits : ConnEvent → Session → Prop
  | .segment segment, s =>
    s.gone = false → s.flow.conn.heldGuest ≠ none → segment.payload ≠ [] → segment.seq = s.flow.conn.guestNext →
      s.flow.conn.guestTx.trySend ≠ .ok
  | _, _ => True

def FromGuest (stream : List U8) (start : U32) (event : ConnEvent) (s : Session) : Prop :=
  OfStream stream start event s ∧ HeldWaits event s

instance (stream : List U8) (start : U32) (event : ConnEvent) (s : Session) :
    Decidable (OfStream stream start event s) :=
  match event with
  | .segment _ => inferInstanceAs (Decidable (_ → _))
  | .poll _ | .hostTakes | .hostSends _ | .hostDropsReceiver | .hostDropsSender | .others _ _ => .isTrue trivial

instance (event : ConnEvent) (s : Session) : Decidable (HeldWaits event s) :=
  match event with
  | .segment _ => inferInstanceAs (Decidable (_ → _))
  | .poll _ | .hostTakes | .hostSends _ | .hostDropsReceiver | .hostDropsSender | .others _ _ => .isTrue trivial

instance (stream : List U8) (start : U32) (event : ConnEvent) (s : Session) :
    Decidable (FromGuest stream start event s) := inferInstanceAs (Decidable (_ ∧ _))

theorem eq_of_ofNat_eq {a b} (h : start + ofNat 32 a = start + ofNat 32 b)
    (hab : a < b + 2 ^ 32) (hba : b < a + 2 ^ 32) : a = b := by
  have h := congrArg BitVec.toNat (BitVec.add_right_inj start |>.mp h)
  simp only [BitVec.toNat_ofNat] at h
  omega

variable {segment : Segment}

theorem Taken.continues {offset} (h : Taken stream start f)
    (hfin : f.conn.guestFin = false) (hc : segment.Carries stream start offset)
    (hnear : segment.Near (handedBytes f.effects).length offset) (hseq : segment.seq = f.conn.guestNext) :
    handedBytes f.effects ++ segment.payload <+: stream := by
  have hno : Effect.tookFin ∉ f.effects := fun hmem => by simp [h.fin.mpr hmem] at hfin
  have hnext := h.next
  rw [← hseq, hc.seq] at hnext
  simp only [taken, hno, if_false, Nat.add_zero] at hnext
  have hoffset : offset = (handedBytes f.effects).length :=
    eq_of_ofNat_eq hnext (by have := hnear.1; omega) hnear.2
  obtain ⟨rest, hrest⟩ := h.handed
  have hpayload := hc.payload
  rw [hoffset, ← hrest, drop_left] at hpayload
  rw [← hrest]
  exact (prefix_append_right_inj _).mpr hpayload

/-! ## Guest segments -/

section

variable (h : Taken stream start f)
include h

theorem acceptPayload_taken {out}
    (hcarries : segment.payload ≠ [] → ∃ offset ≤ stream.length, segment.Carries stream start offset ∧
      segment.Near (handedBytes f.effects).length offset)
    (hheld : f.conn.heldGuest ≠ none → segment.payload ≠ [] → segment.seq = f.conn.guestNext →
      f.conn.guestTx.trySend ≠ .ok)
    (hout : acceptPayload segment f = .ok out) :
    Taken stream start out.1 ∧ (handedBytes out.1.effects = handedBytes f.effects ∨
      handedBytes out.1.effects = handedBytes f.effects ++ segment.payload) ∧
        out.1.conn.guestFin = f.conn.guestFin := by
  unfold acceptPayload at hout
  split at hout
  · cases hout
    exact ⟨h, .inl rfl, rfl⟩
  rename_i hne
  split at hout
  · rename_i hin
    obtain ⟨offset, -, hc, hnear⟩ := hcarries hne
    have hfin : f.conn.guestFin = false := by simpa using hin.2.2
    have hbytes := h.continues hfin hc hnear hin.1
    split at hout
    · rename_i hsend
      cases hout
      have hnone : f.conn.heldGuest = none := by
        by_contra hsome
        exact hheld hsome hne hin.1 hsend
      exact ⟨h.hand hfin hbytes rfl rfl rfl hnone, .inr (by simp [Flow.update, Flow.note]), rfl⟩
    · cases hout
      refine ⟨⟨h.handed, h.next, h.fin, h.whole, fun bytes heq => ?_, h.acks⟩, .inl rfl, rfl⟩
      cases heq
      exact ⟨hne, hbytes⟩
    · cases hout
  · cases hout
    exact ⟨h, .inl rfl, rfl⟩

theorem Taken.fin_at_end {offset} (hc : segment.Carries stream start offset) (hflag : segment.has FLAG_FIN)
    (hnear : offset + segment.payload.length < (handedBytes f.effects).length + 2 ^ 32)
    (hseq : segment.seq + ofNat 32 segment.payload.length = f.conn.guestNext) :
    f.conn.guestFin = false ∧ handedBytes f.effects = stream := by
  have hend := hc.fin hflag
  have hle := h.handed.length_le
  rw [hc.seq, BitVec.add_assoc, ← ofNat_add, h.next] at hseq
  by_cases hmem : Effect.tookFin ∈ f.effects
  · -- the FIN already taken stands one before the next expected sequence number
    have hwhole := congrArg List.length (h.whole (h.fin.mpr hmem))
    simp only [taken, hmem, if_true] at hseq
    have := eq_of_ofNat_eq hseq (by omega) (by omega)
    omega
  · simp only [taken, hmem, if_false, Nat.add_zero] at hseq
    have hlength := eq_of_ofNat_eq hseq hnear (by omega)
    refine ⟨?_, h.handed.eq_of_length (by omega)⟩
    by_contra hfin
    exact hmem (h.fin.mp (by simpa using hfin))

theorem Taken.takeFin (hfin : f.conn.guestFin = false)
    (hwhole : handedBytes f.effects = stream) (he : f'.effects = f.effects ++ [.tookFin])
    (hnext : f'.conn.guestNext = f.conn.guestNext + 1) (hfin' : f'.conn.guestFin = true)
    (hheld : f'.conn.heldGuest = f.conn.heldGuest) : Taken stream start f' := by
  have hno : Effect.tookFin ∉ f.effects := fun hmem => by simp [h.fin.mpr hmem] at hfin
  have hsame : handedBytes f'.effects = handedBytes f.effects := by simp [he, handedBytes]
  refine ⟨hsame ▸ h.handed, ?_, by simp [hfin', he], fun _ => hsame.trans hwhole, ?_, ?_⟩
  · have htaken : taken f'.effects = taken f.effects + 1 := by simp [taken, he, hno, handedBytes]
    rw [hnext, h.next, htaken, ofNat_add, BitVec.add_assoc]
    rfl
  · rw [hheld, hsame]
    exact h.held
  · rw [he, always_snoc]
    exact ⟨h.acks, fun segment hsegment => by simp [Effect.segment?] at hsegment⟩

end

theorem acceptFin_taken (ackNeeded) (h : Taken stream start f)
    (hfin : segment.has FLAG_FIN → ∃ offset, segment.Carries stream start offset ∧
      offset + segment.payload.length < (handedBytes f.effects).length + 2 ^ 32) :
    Taken stream start (acceptFin segment f ackNeeded).1 := by
  unfold acceptFin
  split
  · rename_i hflag
    dsimp only
    split
    · rename_i hseq
      obtain ⟨offset, hc, hnear⟩ := hfin hflag
      obtain ⟨hfresh, hwhole⟩ := h.fin_at_end hc hflag hnear hseq
      exact h.takeFin hfresh hwhole rfl rfl rfl rfl
    · exact h
  · exact h

theorem processSegment_taken (h : Taken stream start f)
    (hcarries : segment.payload ≠ [] ∨ segment.has FLAG_FIN →
      ∃ offset ≤ stream.length, segment.Carries stream start offset ∧
      segment.Near (handedBytes f.effects).length offset)
    (hheld : f.conn.heldGuest ≠ none → segment.payload ≠ [] → segment.seq = f.conn.guestNext →
      f.conn.guestTx.trySend ≠ .ok) : Taken stream start (processSegment segment f) := by
  unfold processSegment
  split
  · split
    · exact h.quiet (Follows.aside rfl)
    · exact h
  have hq := acknowledge_quiet segment f
  have hsame : handedBytes (acknowledge segment f).effects = handedBytes f.effects := by
    obtain ⟨more, hmore, hquiet⟩ := hq.record
    simp [hmore, Effect.QuietAt.handedBytes_eq hquiet]
  have hack := h.quiet hq
  split
  · rename_i out hout
    exact hack.quiet (refused_follows hout)
  · rename_i out ackNeeded hout
    obtain ⟨htaken, hbytes, -⟩ := acceptPayload_taken hack (fun hne => hsame ▸ hcarries (.inl hne))
      (by rw [hq.heldGuest, hq.guestNext, acknowledge_guestTx]; exact hheld) hout
    refine (acceptFin_taken ackNeeded htaken fun hflag => ?_).quiet (finishSegment_follows _ _)
    obtain ⟨offset, -, hc, hnear⟩ := hcarries (.inr hflag)
    refine ⟨offset, hc, ?_⟩
    have := hnear.1
    rcases hbytes with hbytes | hbytes <;> rw [hbytes, hsame]
    · exact this
    · rw [length_append]
      omega

/-! ## Polls -/

theorem retryHeld_taken (h : Taken stream start f) : Taken stream start (retryHeld f) := by
  unfold retryHeld
  split
  · exact h
  rename_i held hheld
  obtain ⟨hne, hbytes⟩ := h.held held hheld
  -- a held payload is not empty, so the stream has not ended
  have hfin : f.conn.guestFin = false := by
    by_contra hfin
    have hwhole := congrArg List.length (h.whole (by simpa using hfin))
    have hle := hbytes.length_le
    have := length_pos_iff.mpr hne
    rw [length_append] at hle
    omega
  split
  · have htake : Taken stream start (takeHeld held f) := h.hand hfin hbytes rfl rfl rfl rfl
    exact htake.quiet (sendAck_follows _)
  · exact h
  · exact ⟨h.handed, h.next, h.fin, h.whole, by simp [Flow.close, Flow.update], h.acks⟩

theorem Taken.unlessClosed {g} (h : Taken stream start f) (hg : Taken stream start (g f)) :
    Taken stream start (unlessClosed g f) := by
  unfold Net.unlessClosed
  split
  · exact h
  · exact hg

theorem pollConn_taken (now) (h : Taken stream start f) : Taken stream start (pollConn now f) := by
  have hdrain := h.quiet (drainEvents_follows now f.conn.hostRx.events f)
  have hheld := hdrain.unlessClosed (retryHeld_taken hdrain)
  have hsend := hheld.quiet (unlessClosed_follows fun _ => sendRounds_follows now MAX_UNACKED_SEGMENTS _)
  have hagain := hsend.quiet (unlessClosed_follows fun _ => retransmit_follows now _)
  have hfin := hagain.quiet (unlessClosed_follows fun _ => maybeSendFin_follows now _)
  exact hfin.quiet (unlessClosed_follows fun _ => teardown_follows now _)

/-! ## Runs -/

theorem Session.step_taken {event s} (hevent : FromGuest stream start event s)
    (h : Taken stream start s.flow) : Taken stream start (s.step event).flow := by
  unfold step
  split
  · exact h
  rename_i hthere
  cases event with
  | segment segment =>
    dsimp only
    split
    · exact h
    · exact processSegment_taken h hevent.1 (hevent.2 (by simpa using hthere))
  | poll now =>
    have hpoll := pollConn_taken now h
    dsimp only [Session.poll]
    split
    · exact hpoll.quiet (.silent rfl rfl rfl rfl)
    · exact hpoll
  | hostTakes => exact h.quiet (.silent rfl rfl rfl rfl)
  | hostSends event =>
    dsimp only [Session.hostSends]
    split
    · exact h
    · split
      · exact h
      · exact h.quiet (.silent rfl rfl rfl rfl)
  | hostDropsReceiver => exact h.quiet (.silent rfl rfl rfl rfl)
  | hostDropsSender => exact h.quiet (.silent rfl rfl rfl rfl)
  | others ipId counters => exact h.quiet (.silent rfl rfl rfl rfl)

theorem opened_taken (key syn isn ipId counters) :
    Taken stream (syn.seq + 1) (opened key syn isn ipId counters).flow where
  handed := nil_prefix
  next := by simp [opened, TcpConn.open, taken, handedBytes]
  fin := by simp [opened, TcpConn.open]
  whole := by simp [opened, TcpConn.open]
  held := by simp [opened, TcpConn.open]
  acks := always_nil

/-- The host channel got the first bytes of the guest's stream, all of them once the FIN is taken, and
    every segment sent to the guest acknowledges exactly what was taken before it. -/
theorem guest_stream_delivered (key : ConnKey) (syn : Segment) (isn : U32) (ipId : U16) (counters : Counters)
    (stream : List U8) (events : List ConnEvent)
    (hrun : Allowed step (FromGuest stream (syn.seq + 1)) (.opened key syn isn ipId counters) events) :
    let f := (after step (.opened key syn isn ipId counters) events).flow
    handedBytes f.effects <+: stream ∧ (.tookFin ∈ f.effects → handedBytes f.effects = stream) ∧
      f.conn.guestNext = syn.seq + 1 + ofNat 32 (taken f.effects) ∧
      Always (Acknowledges (syn.seq + 1)) f.effects := by
  have h : Taken stream (syn.seq + 1) (after step (.opened key syn isn ipId counters) events).flow :=
    after_keeps (P := fun s => Taken stream (syn.seq + 1) s.flow) (fun _ _ => Session.step_taken) hrun
      (opened_taken key syn isn ipId counters)
  exact ⟨h.handed, fun hmem => h.whole (h.fin.mpr hmem), h.next, h.acks⟩

/-! ## A full host channel -/

section FullChannel

def guestSyn : Segment := ⟨40000, 80, 0xFFFFFFF0, 0, FLAG_SYN, 0xFFFF, [], []⟩

/-- The guest's segment of one byte of the stream, which starts at `guestSyn`'s sequence number + 1. -/
def byteSegment (offset : Nat) (byte : U8) : ConnEvent :=
  .segment ⟨40000, 80, 0xFFFFFFF1 + ofNat 32 offset, 1001, FLAG_ACK, 0xFFFF, [], [byte]⟩

def guestFinSegment (offset : Nat) : ConnEvent :=
  .segment ⟨40000, 80, 0xFFFFFFF1 + ofNat 32 offset, 1001, FLAG_FIN ||| FLAG_ACK, 0xFFFF, [], []⟩

def byteStream (n : Nat) : List U8 := (List.range n).map (ofNat 8)

def freshSession : Session := .opened ⟨40000, 0x0A000002, 80⟩ guestSyn 1000 0 ⟨0, 0, 0, 0⟩

/-- The handshake, a host that takes nothing, and one byte more than its channel has room for. -/
def fillChannel : List ConnEvent :=
  [.hostSends .connected, .poll 0] ++ (List.range 33).map fun i => byteSegment i (ofNat 8 i)

/-- A poll retries the held byte; the guest then repeats it and closes. -/
def retriedRun : List ConnEvent := fillChannel ++ [.hostTakes, .poll 1, byteSegment 32 32, guestFinSegment 33]

theorem held_payload_retried :
    handedBytes (after step freshSession retriedRun).flow.effects <+: byteStream 33 ∧
      .tookFin ∈ (after step freshSession retriedRun).flow.effects := by
  unfold freshSession
  refine ⟨(guest_stream_delivered ⟨40000, 0x0A000002, 80⟩ guestSyn 1000 0 ⟨0, 0, 0, 0⟩ (byteStream 33) retriedRun
    ?_).1, ?_⟩ <;> decide +kernel

/-- The guest repeats the held byte before the poll retries it: the host channel gets it twice. -/
theorem held_payload_delivered_twice : Allowed step (OfStream (byteStream 33) (guestSyn.seq + 1)) freshSession
      (fillChannel ++ [.hostTakes, byteSegment 32 32, .hostTakes, .poll 1]) ∧
    handedBytes (after step freshSession
      (fillChannel ++ [.hostTakes, byteSegment 32 32, .hostTakes, .poll 1])).flow.effects =
      byteStream 33 ++ [32] := by
  constructor <;> decide +kernel

end FullChannel

end Rish.SoftVm.Net
