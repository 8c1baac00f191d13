/-
  Rish.SoftVm.Net.HostStream — the connection refines the abstract sender.

  The guest's FIN schedules ours. A poll that then finds nothing to send, and no event of the host that
  would change that, sends it though the host has not closed (`earlyFin`).
-/

import Rish.SoftVm.Net.Sender

namespace Rish.SoftVm.Net

open Lib Relation List

def Flow.sender (f : Flow) : Sender where
  isn := f.conn.ourIsn
  next := f.conn.ourNext
  una := f.conn.ourUna
  pending := f.conn.pending
  queue := f.conn.unacked
  finSent := f.conn.finSent
  finSeq := f.conn.finSeq
  hostEof := f.conn.hostEof
  record := f.effects

/-- The connection moves as the sender may, and takes nothing from the host. -/
structure Sends (f f' : Flow) : Prop where
  moves : Sender.Moves f.sender f'.sender
  hostRx : f'.conn.hostRx = f.conn.hostRx
  hostEof : f'.conn.hostEof = f.conn.hostEof

namespace Sends

variable {f f' f'' : Flow}

theorem refl (f) : Sends f f := ⟨.refl, rfl, rfl⟩

theorem trans (h : Sends f f') (h' : Sends f' f'') : Sends f f'' :=
  ⟨h.moves.trans h'.moves, h'.hostRx.trans h.hostRx, h'.hostEof.trans h.hostEof⟩

theorem move (h : Sender.Move f.sender f'.sender) (hrx : f'.conn.hostRx = f.conn.hostRx)
    (heof : f'.conn.hostEof = f.conn.hostEof) : Sends f f' := ⟨.single h, hrx, heof⟩

theorem outside (h : f'.sender = f.sender) (hrx : f'.conn.hostRx = f.conn.hostRx) : Sends f f' :=
  ⟨by rw [h], hrx, congrArg Sender.hostEof h⟩

theorem plain {e} (he : e.Plain) : Sends f (f.note e) := .move (.plain f.sender e he) rfl rfl

theorem emit {segment} (hpayload : segment.payload = []) (hfin : segment.has FLAG_FIN = false) :
    Sends f (f.emit segment) :=
  .move (.plain f.sender (.emitted f.ipId segment) ⟨hpayload, hfin⟩) rfl rfl

instance : FollowsGuest Sends where
  refl := refl
  trans _ _ _ := trans
  aside h := by
    simp only [Flow.core, Prod.mk.injEq, TcpConn.mk.injEq] at h
    exact .outside (by simp only [Flow.sender, h]) (by simp only [h])
  emit _ hpayload hfin := .emit hpayload hfin
  send now take f hpos hle := by
    refine .move ?_ rfl rfl
    have hsend := Sender.Move.send f.sender f.ipId
      (f.conn.reply f.conn.ourNext FLAG_ACK OUR_WINDOW [] (f.conn.pending.take take))
      ⟨f.conn.ourNext, f.conn.pending.take take, false, now⟩ take hpos hle rfl rfl (reply_no_fin (by decide)) rfl rfl
    have hlength : (f.conn.pending.take take).length = take := by rw [length_take, Nat.min_eq_left hle]
    simpa [sendChunk, Flow.sender, Flow.emit, Flow.update, Sender.add, hlength] using hsend
  resend ho := .move (.resend _ _ _ _ ho rfl rfl (reply_no_fin (by split <;> decide))) rfl rfl
  resendFin hfin := .move (.resendFin _ _ _ hfin rfl rfl) rfl rfl
  touch now _ := .move (.touch _ now) rfl rfl
  guest h := by
    simp only [Flow.ours, Flow.core, Prod.mk.injEq, TcpConn.mk.injEq] at h
    exact .outside (by simp only [Flow.sender, h]) (by simp only [h])
  handed _ _ := .plain trivial
  tookFin _ := .plain trivial

end Sends

variable {f : Flow}

/-! ## Guest segments -/

theorem acceptAck_sends (ack f) : Sends f (acceptAck ack f) := by
  unfold acceptAck
  split
  · rename_i hwindow
    split
    · rename_i hgt
      have hmove : Sends f (advanceUna ack f) := .move (.acknowledge f.sender ack hgt hwindow.2) rfl rfl
      exact hmove.trans (.outside rfl rfl)
    · exact .outside rfl rfl
  · exact .refl f

theorem acknowledge_sends (segment f) : Sends f (acknowledge segment f) := by
  unfold acknowledge
  split
  · have hwindow : Sends f (setGuestWindow segment f) := .outside rfl rfl
    exact hwindow.trans (acceptAck_sends _ _)
  · exact .refl f

theorem processSegment_sends (segment f) : Sends f (processSegment segment f) := by
  unfold processSegment
  split
  · split
    · exact .outside rfl rfl
    · exact .refl f
  have hack := acknowledge_sends segment f
  split
  · rename_i out hout
    exact hack.trans (refused_follows hout)
  · rename_i out ackNeeded hout
    exact (hack.trans (acceptPayload_follows hout)).trans
      (trans_of Sends (acceptFin_follows segment out ackNeeded) (finishSegment_follows _ _))

/-! ## Host events -/

def HostEvent.isData : HostEvent → Bool
  | .data _ => true
  | _ => false

def Closing : Bool → List HostEvent → Prop
  | _, [] => True
  | ended, event :: rest => (ended = true → event.isData = false) ∧ Closing (ended || event == .eof) rest

variable {event : HostEvent} {events : List HostEvent} {now : Nat}

theorem handleHostEvent_moves (now) (h : f.conn.hostEof = true → event.isData = false) :
    Sender.Moves f.sender (handleHostEvent now event f).sender ∧
      (handleHostEvent now event f).conn.hostEof = (f.conn.hostEof || event == .eof) := by
  cases event with
  | connected =>
    unfold handleHostEvent
    dsimp only
    split
    · rename_i hfresh
      refine ⟨?_, by simp [sendSynAck, Flow.update, Flow.emit]⟩
      have hemit : Sends f (f.emit (f.conn.reply f.conn.ourIsn (FLAG_SYN ||| FLAG_ACK) OUR_WINDOW MSS_OPTION [])) :=
        .emit rfl (reply_no_fin (by decide))
      have hannounce := Sender.Move.announce
        (f.emit (f.conn.reply f.conn.ourIsn (FLAG_SYN ||| FLAG_ACK) OUR_WINDOW MSS_OPTION [])).sender
        ⟨f.conn.ourIsn, [], true, now⟩ hfresh.2 rfl
      have hqueue : f.conn.unacked ++ [⟨f.conn.ourIsn, [], true, now⟩] = [⟨f.conn.ourIsn, [], true, now⟩] := by
        rw [hfresh.2, nil_append]
      refine hemit.moves.tail ?_
      simpa [sendSynAck, Flow.sender, Flow.update, Flow.emit, hqueue] using hannounce
    · exact ⟨.refl, by simp⟩
  | connectFailed message =>
    refine ⟨?_, by simp [handleHostEvent, Flow.emit, Flow.close, Flow.update, Flow.countReset]⟩
    have hemit : ∀ seq, Sends f (f.emit (f.conn.reply seq (FLAG_RST ||| FLAG_ACK) 0 [] [])) :=
      fun _ => .emit rfl (reply_no_fin (by decide))
    exact ((hemit _).trans (.outside rfl rfl)).moves
  | data bytes =>
    have hopen : f.conn.hostEof = false := by
      by_contra hover
      simpa [HostEvent.isData] using h (by simpa using hover)
    exact ⟨.single (.receive f.sender bytes hopen), by simp [handleHostEvent, Flow.note, Flow.update]⟩
  | eof => exact ⟨.single (.hostClosed f.sender), by simp [handleHostEvent, hostGone, Flow.note, Flow.update]⟩

theorem drainEvents_moves (now events) (f : Flow) (h : Closing f.conn.hostEof events) :
    Sender.Moves f.sender (drainEvents now events f).sender ∧
      Closing (drainEvents now events f).conn.hostEof (drainEvents now events f).conn.hostRx.events := by
  induction events generalizing f with
  | nil =>
    unfold drainEvents
    split
    · exact ⟨.refl, trivial⟩
    · dsimp only
      split
      · exact ⟨.single (.hostClosed f.sender), trivial⟩
      · exact ⟨.refl, trivial⟩
  | cons event rest ih =>
    unfold drainEvents
    split
    · exact ⟨.refl, h⟩
    · obtain ⟨hmoves, heof⟩ := handleHostEvent_moves now h.1
      obtain ⟨hrest, hclosing⟩ := ih (handleHostEvent now event f) (heof ▸ h.2)
      exact ⟨hmoves.trans hrest, hclosing⟩

/-! ## Polls -/

theorem resendAll_conn (queue f) : (resendAll f queue).conn = f.conn := by
  induction queue generalizing f with
  | nil => rfl
  | cons o rest ih => exact ih _

theorem maybeSendFin_sends (now) (h : finDue f.conn = true → f.conn.hostEof = true) :
    Sends f (maybeSendFin now f) := by
  unfold maybeSendFin
  split
  · rename_i hdue
    have heof := h hdue
    simp only [finDue, Bool.and_eq_true, Bool.not_eq_true', beq_iff_eq] at hdue
    exact .move (.close f.sender f.ipId _ hdue.1.1.1 hdue.1.2 hdue.2 heof rfl rfl) rfl rfl
  · exact .refl f

/-! ## A FIN before the host closes -/

/-- An event that gives the connection nothing to send, does not close it and does not end the stream. -/
def HostEvent.inert (established : Bool) : HostEvent → Bool
  | .connected => established
  | .data bytes => bytes == []
  | _ => false

def waits (c : TcpConn) : Bool := finDue c && !c.hostEof && !c.closed

/-- A poll at this time sends our FIN though the host has not closed: nothing is left to send, no
    waiting event changes that, and the poll does not close the connection before. -/
def earlyFin (now : Nat) (c : TcpConn) : Bool :=
  waits c && c.hostRx.events.all (·.inert c.established) && !c.hostRx.disconnected &&
    !(c.heldGuest.isSome && c.guestTx.disconnected) &&
    !(c.retransmitDeadline.any (· ≤ now) && decide (MAX_RETRANSMITS ≤ c.retransmits))

variable {g : Flow → Flow} {c : TcpConn}

theorem waits_iff : waits c = true ↔
    c.finSent = false ∧ c.finPending = true ∧ c.pending = [] ∧ c.unacked = [] ∧ c.hostEof = false ∧
      c.closed = false := by
  simp [waits, finDue, and_assoc]

theorem handleHostEvent_waits (h : waits (handleHostEvent now event f).conn = true) :
    waits f.conn = true ∧ event.inert f.conn.established = true := by
  cases event with
  | connected =>
    unfold handleHostEvent at h
    dsimp only at h
    split at h
    · simp [waits_iff, sendSynAck, Flow.update] at h
    · rename_i hold
      refine ⟨h, ?_⟩
      have hempty := (waits_iff.mp h).2.2.2.1
      simpa [hempty, HostEvent.inert] using hold
  | connectFailed message => simp [waits_iff, handleHostEvent, Flow.close, Flow.countReset, Flow.update] at h
  | data bytes =>
    simp only [waits_iff, handleHostEvent, Flow.note, Flow.update, append_eq_nil_iff] at h
    obtain ⟨hfin, hpending, ⟨hnil, hbytes⟩, hrest⟩ := h
    exact ⟨waits_iff.mpr ⟨hfin, hpending, hnil, hrest⟩, by simp [HostEvent.inert, hbytes]⟩
  | eof => simp [waits_iff, handleHostEvent, hostGone, Flow.note, Flow.update] at h

theorem handleHostEvent_inert (now) (h : event.inert f.conn.established = true) :
    (handleHostEvent now event f).conn = f.conn := by
  cases event with
  | connected =>
    have hest : f.conn.established = true := h
    simp [handleHostEvent, hest]
  | connectFailed message => cases h
  | data bytes =>
    obtain rfl : bytes = [] := by simpa [HostEvent.inert] using h
    simp [handleHostEvent, Flow.note, Flow.update]
  | eof => cases h

theorem handleHostEvent_disconnected (now event f) :
    (handleHostEvent now event f).conn.hostRx = f.conn.hostRx := by
  cases event with
  | connected =>
    unfold handleHostEvent
    dsimp only
    split <;> rfl
  | connectFailed message => rfl
  | data bytes => rfl
  | eof => rfl

theorem drainEvents_waits {f} (h : waits (drainEvents now events f).conn = true) :
    waits f.conn = true ∧ events.all (·.inert f.conn.established) = true ∧ f.conn.hostRx.disconnected = false := by
  have hcap : ∀ f : Flow, f.conn.pending.length ≥ TCP_PENDING_CAP → f.conn.pending ≠ [] := by
    rintro f hlength hnil
    simp [hnil, TCP_PENDING_CAP] at hlength
  induction events generalizing f with
  | nil =>
    unfold drainEvents at h
    split at h
    · rename_i hfull
      exact absurd (waits_iff.mp h).2.2.1 (hcap f hfull)
    · dsimp only at h
      split at h
      · simp [waits_iff, hostGone, Flow.note, Flow.update] at h
      · rename_i hthere
        exact ⟨h, rfl, by simpa [Flow.update] using hthere⟩
  | cons event rest ih =>
    unfold drainEvents at h
    split at h
    · rename_i hfull
      exact absurd (waits_iff.mp h).2.2.1 (hcap f hfull)
    · obtain ⟨hwaits, hrest, hthere⟩ := ih h
      obtain ⟨hwaits, hinert⟩ := handleHostEvent_waits hwaits
      rw [handleHostEvent_inert now hinert] at hrest hthere
      exact ⟨hwaits, by simp [hinert, hrest], hthere⟩

theorem drainEvents_inert (now) {f} (hpending : f.conn.pending = [])
    (hinert : events.all (·.inert f.conn.established) = true) (hthere : f.conn.hostRx.disconnected = false) :
    (drainEvents now events f).conn = { f.conn with hostRx := ⟨[], false⟩ } := by
  have hroom : ¬ f.conn.pending.length ≥ TCP_PENDING_CAP := by simp [hpending, TCP_PENDING_CAP]
  induction events generalizing f with
  | nil =>
    unfold drainEvents
    rw [if_neg hroom]
    simp [Flow.update, hthere]
  | cons event rest ih =>
    simp only [all_cons, Bool.and_eq_true] at hinert
    have hsame := handleHostEvent_inert now hinert.1
    unfold drainEvents
    rw [if_neg hroom]
    simp only
    rw [ih (hsame ▸ hpending) (hsame ▸ hinert.2) (hsame ▸ hthere) (hsame ▸ hroom), hsame]

theorem unlessClosed_of_open (h : f.conn.closed = false) : unlessClosed g f = g f := by
  simp [unlessClosed, h]

theorem unlessClosed_waits (h : waits (unlessClosed g f).conn = true)
    (hg : waits (g f).conn = true → waits f.conn = true) : waits f.conn = true ∧ unlessClosed g f = g f := by
  unfold unlessClosed at h ⊢
  split
  · rename_i hclosed
    rw [if_pos hclosed] at h
    simp [waits_iff, hclosed] at h
  · rename_i hopen
    rw [if_neg hopen] at h
    exact ⟨hg h, rfl⟩

theorem trySend_disconnected_iff {c : GuestChannel} : c.trySend = .disconnected ↔ c.disconnected = true := by
  unfold GuestChannel.trySend
  split
  · simp_all
  · split <;> simp_all

theorem retryHeld_waits : waits (retryHeld f).conn = true ↔
    waits f.conn = true ∧ (f.conn.heldGuest.isSome && f.conn.guestTx.disconnected) = false := by
  have hgone := trySend_disconnected_iff (c := f.conn.guestTx)
  unfold retryHeld
  split
  · rename_i hnone
    simp [hnone]
  · rename_i held hheld
    cases hsend : f.conn.guestTx.trySend with
    | ok =>
      simp only [hsend, reduceCtorEq, false_iff, Bool.not_eq_true] at hgone
      simp [hgone, waits_iff, sendAck, takeHeld, Flow.emit, Flow.update, Flow.note]
    | full =>
      simp only [hsend, reduceCtorEq, false_iff, Bool.not_eq_true] at hgone
      simp [hgone]
    | disconnected => simp [hheld, hgone.mp hsend, waits_iff, Flow.close, Flow.update]

theorem retryHeld_timer (f) : (retryHeld f).conn.retransmitDeadline = f.conn.retransmitDeadline ∧
    (retryHeld f).conn.retransmits = f.conn.retransmits := by
  unfold retryHeld
  split
  · exact ⟨rfl, rfl⟩
  · split <;> exact ⟨rfl, rfl⟩

theorem sendRounds_queue (now rounds f) (h : f.conn.unacked ≠ []) :
    (sendRounds now rounds f).conn.unacked ≠ [] := by
  induction rounds generalizing f with
  | zero => exact h
  | succ rounds ih =>
    unfold sendRounds
    dsimp only
    split
    · exact h
    · exact ih _ (by simp [sendChunk, Flow.update])

theorem sendRounds_waits {now rounds} (h : waits (sendRounds now rounds f).conn = true) :
    sendRounds now rounds f = f := by
  cases rounds with
  | zero => rfl
  | succ rounds =>
    unfold sendRounds at h ⊢
    dsimp only at h ⊢
    split
    · rfl
    · rename_i htake
      rw [if_neg htake] at h
      exact absurd (waits_iff.mp h).2.2.2.1 (sendRounds_queue _ _ _ (by simp [sendChunk, Flow.update]))

theorem sendRounds_idle (now rounds) (h : f.conn.pending = []) : sendRounds now rounds f = f := by
  cases rounds with
  | zero => rfl
  | succ rounds =>
    have htake : nextTake f.conn = 0 := by simpa [h] using nextTake_le f.conn
    simp [sendRounds, htake]

theorem bump_past : MAX_RETRANSMITS < (bumpRetransmits c).retransmits ↔ MAX_RETRANSMITS ≤ c.retransmits := by
  unfold bumpRetransmits MAX_RETRANSMITS
  dsimp only
  split <;> rename_i hmax
  · simp [hmax]
  · have hmax : c.retransmits ≠ 4294967295#32 := hmax
    bv_omega

theorem retransmitDue_waits : waits (retransmitDue now f).conn = true ↔
    waits f.conn = true ∧ ¬ MAX_RETRANSMITS ≤ f.conn.retransmits := by
  have hbump : (f.update bumpRetransmits).conn = bumpRetransmits f.conn := rfl
  unfold retransmitDue
  dsimp only
  rw [hbump]
  split
  · rename_i hpast
    simp [bump_past.mp hpast, waits_iff, Flow.close, Flow.countReset, Flow.update]
  · rename_i hleft
    have hleft := mt bump_past.mpr hleft
    split
    · rename_i hqueue
      have hqueue : f.conn.unacked ≠ [] := hqueue
      simp [waits_iff, rearm, Flow.update, Flow.countRetransmit, resendAll_conn, hqueue, bumpRetransmits]
    · split
      · rename_i hfin
        have hfin : f.conn.finSent = true := hfin.1
        simp [waits_iff, rearm, Flow.update, Flow.countRetransmit, Flow.resend, hfin, bumpRetransmits]
      · simp [waits_iff, Flow.update, bumpRetransmits, hleft]

theorem retransmit_waits : waits (retransmit now f).conn = true ↔ waits f.conn = true ∧
    (f.conn.retransmitDeadline.any (· ≤ now) && decide (MAX_RETRANSMITS ≤ f.conn.retransmits)) = false := by
  unfold retransmit
  split
  · rename_i hnone
    simp [hnone]
  · rename_i deadline hsome
    split
    · rename_i hearly
      simp [hsome, Nat.not_le.mpr hearly]
    · rename_i hdue
      rw [retransmitDue_waits]
      simp [hsome, Nat.not_lt.mp hdue]

theorem pollData_waits (now f) : waits (pollData now f).conn = true ↔ earlyFin now f.conn = true := by
  constructor
  · intro h
    unfold pollData at h
    obtain ⟨hsent, heq⟩ := unlessClosed_waits h fun h => (retransmit_waits.mp h).1
    rw [heq, retransmit_waits] at h
    have htimer := h.2
    obtain ⟨hheld, heq⟩ := unlessClosed_waits hsent fun h => sendRounds_waits h ▸ h
    rw [heq] at hsent htimer
    rw [sendPending, sendRounds_waits hsent] at htimer
    obtain ⟨hdrained, heq⟩ := unlessClosed_waits hheld fun h => (retryHeld_waits.mp h).1
    rw [heq] at hheld htimer
    rw [(retryHeld_timer _).1, (retryHeld_timer _).2] at htimer
    obtain ⟨-, hguest⟩ := retryHeld_waits.mp hheld
    obtain ⟨hwaits, hinert, hthere⟩ := drainEvents_waits hdrained
    have hsame := drainEvents_inert now (waits_iff.mp hwaits).2.2.1 hinert hthere
    rw [drainHostEvents, hsame] at hguest htimer
    simp only [earlyFin, hwaits, hinert, hthere, hguest, htimer, Bool.not_false, Bool.and_self]
  · intro h
    simp only [earlyFin, Bool.and_eq_true, Bool.not_eq_true'] at h
    obtain ⟨⟨⟨⟨hwaits, hinert⟩, hthere⟩, hguest⟩, htimer⟩ := h
    have hsame := drainEvents_inert now (waits_iff.mp hwaits).2.2.1 hinert hthere
    have hdrained : waits (drainHostEvents now f).conn = true := by
      rw [drainHostEvents, hsame]
      exact hwaits
    have hheld : waits (retryHeld (drainHostEvents now f)).conn = true :=
      retryHeld_waits.mpr ⟨hdrained, by rw [drainHostEvents, hsame]; exact hguest⟩
    unfold pollData
    rw [unlessClosed_of_open (waits_iff.mp hdrained).2.2.2.2.2, unlessClosed_of_open (waits_iff.mp hheld).2.2.2.2.2,
      sendPending, sendRounds_idle _ _ (waits_iff.mp hheld).2.2.1, unlessClosed_of_open (waits_iff.mp hheld).2.2.2.2.2,
      retransmit_waits]
    refine ⟨hheld, ?_⟩
    rw [(retryHeld_timer _).1, (retryHeld_timer _).2, drainHostEvents, hsame]
    exact htimer

/-! ## Runs -/

/-- The sender's invariant, and a host thread that sends nothing behind the end of its stream. -/
structure Session.Inv (isn : U32) (s : Session) : Prop where
  isn : s.flow.conn.ourIsn = isn
  sender : s.flow.sender.Inv
  closing : Closing s.flow.conn.hostEof s.flow.conn.hostRx.events
  finished : s.flow.conn.hostEof = true ∨ .eof ∈ s.flow.conn.hostRx.events →
    s.host = .returned ∨ s.flow.conn.hostRx.disconnected = true

/-- No poll finds our FIN due before the host has closed. -/
def NoEarlyFin : ConnEvent → Session → Prop
  | .poll now, s => s.gone = true ∨ earlyFin now s.flow.conn = false
  | _, _ => True

instance (event : ConnEvent) (s : Session) : Decidable (NoEarlyFin event s) :=
  match event with
  | .poll _ => inferInstanceAs (Decidable (_ ∨ _))
  | .segment _ | .hostTakes | .hostSends _ | .hostDropsReceiver | .hostDropsSender | .others _ _ => .isTrue trivial

theorem closing_snoc {ended} (h : Closing ended events)
    (hover : ended = false) (heof : .eof ∉ events) : Closing ended (events ++ [event]) := by
  induction events generalizing ended with
  | nil => simp [Closing, hover]
  | cons first rest ih =>
    simp only [mem_cons, not_or] at heof
    have hfirst : (first == .eof) = false := by simpa using Ne.symm heof.1
    exact ⟨h.1, ih h.2 (by simp [hover, hfirst]) heof.2⟩

theorem handleHostEvent_hostEof (h : (handleHostEvent now event f).conn.hostEof = true) :
    f.conn.hostEof = true ∨ event = .eof := by
  cases event with
  | connected =>
    unfold handleHostEvent at h
    dsimp only at h
    split at h <;> exact .inl h
  | connectFailed message => exact .inl h
  | data bytes => exact .inl h
  | eof => exact .inr rfl

theorem drainEvents_over (now events) (f : Flow) :
    (drainEvents now events f).conn.hostRx.disconnected = f.conn.hostRx.disconnected ∧
      ((drainEvents now events f).conn.hostEof = true ∨ .eof ∈ (drainEvents now events f).conn.hostRx.events →
        f.conn.hostEof = true ∨ .eof ∈ events ∨ f.conn.hostRx.disconnected = true) := by
  induction events generalizing f with
  | nil =>
    unfold drainEvents
    split
    · exact ⟨rfl, fun h => .inl (by simpa [Flow.update] using h)⟩
    · dsimp only
      split
      · rename_i hgone
        exact ⟨rfl, fun _ => .inr (.inr hgone)⟩
      · exact ⟨rfl, fun h => .inl (by simpa [Flow.update] using h)⟩
  | cons event rest ih =>
    unfold drainEvents
    split
    · refine ⟨rfl, fun h => ?_⟩
      rcases h with h | h
      · exact .inl h
      · exact .inr (.inl h)
    · obtain ⟨hgone, hover⟩ := ih (handleHostEvent now event f)
      rw [handleHostEvent_disconnected] at hgone hover
      refine ⟨hgone, fun h => ?_⟩
      rcases hover h with heof | hmem | hdisc
      · rcases handleHostEvent_hostEof heof with heof | rfl
        · exact .inl heof
        · simp
      · exact .inr (.inl (mem_cons_of_mem _ hmem))
      · exact .inr (.inr hdisc)

theorem pollData_sends (now f) : Sends (drainHostEvents now f) (pollData now f) :=
  (unlessClosed_follows (R := Sends) fun _ => retryHeld_follows _).trans
    ((unlessClosed_follows (R := Sends) fun _ => sendRounds_follows now MAX_UNACKED_SEGMENTS _).trans
      (unlessClosed_follows fun _ => retransmit_follows now _))

theorem pollConn_sends (now f) (h : earlyFin now f.conn = false) :
    Sends (pollData now f) (pollConn now f) := by
  have hdue : (pollData now f).conn.closed = false → finDue (pollData now f).conn = true →
      (pollData now f).conn.hostEof = true := by
    intro hopen hdue
    by_contra heof
    have hwaits := (pollData_waits now f).mp (by simp [waits, hdue, heof, hopen])
    simp [h] at hwaits
  exact (unlessClosed_follows (R := Sends) fun hopen => maybeSendFin_sends now (hdue hopen)).trans
    (unlessClosed_follows fun _ => teardown_follows now _)

variable {isn : U32} {s : Session} {event : ConnEvent}

section

variable (h : s.Inv isn)
include h

theorem Session.Inv.sends {s' : Session} (hsends : Sends s.flow s'.flow) (hhost : s'.host = s.host) : s'.Inv isn := by
  refine ⟨(Sender.Moves.isn hsends.moves).trans h.isn, h.sender.moves hsends.moves, ?_, ?_⟩
  · rw [hsends.hostRx, hsends.hostEof]
    exact h.closing
  · rw [hsends.hostRx, hsends.hostEof, hhost]
    exact h.finished

theorem Session.Inv.drain (now) : Session.Inv isn { s with flow := drainHostEvents now s.flow } := by
  obtain ⟨hmoves, hclosing⟩ := drainEvents_moves now _ s.flow h.closing
  obtain ⟨hdisc, hover⟩ := drainEvents_over now s.flow.conn.hostRx.events s.flow
  refine ⟨(Sender.Moves.isn hmoves).trans h.isn, h.sender.moves hmoves, hclosing, fun hended => ?_⟩
  show s.host = .returned ∨ (drainHostEvents now s.flow).conn.hostRx.disconnected = true
  rw [drainHostEvents, hdisc]
  rcases hover hended with heof | hmem | hgone
  · exact h.finished (.inl heof)
  · exact h.finished (.inr hmem)
  · exact .inr hgone

theorem Session.Inv.pollData (now : Nat) : Session.Inv isn { s with flow := pollData now s.flow } :=
  (h.drain now).sends (pollData_sends now s.flow) rfl

theorem Session.Inv.poll {now : Nat} (hlate : earlyFin now s.flow.conn = false) : Session.Inv isn (s.poll now) := by
  have hpoll : Session.Inv isn { s with flow := pollConn now s.flow } :=
    (h.pollData now).sends (pollConn_sends now s.flow hlate) rfl
  unfold Session.poll
  dsimp only
  split
  · exact hpoll.sends (.outside rfl rfl) rfl
  · exact hpoll

theorem Session.Inv.hostSends (event) : Session.Inv isn (s.hostSends event) := by
  unfold Session.hostSends
  split
  · exact h
  · rename_i host hsend
    split
    · exact h
    · rename_i hroom
      simp only [not_or, Bool.not_eq_true] at hroom
      -- a thread that still sends has not ended its stream
      have hrunning : s.host ≠ .returned := by
        intro hreturned
        cases event <;> simp [hreturned, HostThread.send] at hsend
      have hopen : ¬ (s.flow.conn.hostEof = true ∨ .eof ∈ s.flow.conn.hostRx.events) := by
        intro hended
        rcases h.finished hended with hreturned | hgone
        · exact hrunning hreturned
        · simp [hroom.1] at hgone
      simp only [not_or, Bool.not_eq_true] at hopen
      refine ⟨h.isn, h.sender, closing_snoc h.closing hopen.1 hopen.2, fun hended => ?_⟩
      simp only [Flow.update, mem_append, mem_singleton, hopen.1, hopen.2, false_or, Bool.false_eq_true] at hended
      subst hended
      cases hhost : s.host <;> simp_all [HostThread.send]

theorem Session.Inv.step (hevent : NoEarlyFin event s) : Session.Inv isn (s.step event) := by
  unfold Session.step
  split
  · exact h
  rename_i hthere
  cases event with
  | segment segment =>
    dsimp only
    split
    · exact h
    · exact h.sends (processSegment_sends segment s.flow) rfl
  | poll now =>
    rcases hevent with hgone | hlate
    · exact absurd hgone hthere
    · exact h.poll hlate
  | hostTakes => exact h.sends (.outside rfl rfl) rfl
  | hostSends event => exact h.hostSends event
  | hostDropsReceiver => exact ⟨h.isn, h.sender, h.closing, fun _ => .inl rfl⟩
  | hostDropsSender => exact ⟨h.isn, h.sender, h.closing, fun _ => .inl rfl⟩
  | others ipId counters => exact h.sends (.outside rfl rfl) rfl

end

theorem opened_inv (key syn isn ipId counters) :
    Session.Inv isn (.opened key syn isn ipId counters) where
  isn := rfl
  sender :=
    { streaming := ⟨rfl, by simp [Session.opened, Flow.sender, TcpConn.open, sentBytes], by simp [Session.opened,
      Flow.sender, TcpConn.open],
        by simp [Session.opened, Flow.sender], always_nil⟩
      acked := ⟨rfl, by simp [Session.opened, Flow.sender, TcpConn.open], fun _ _ => .inl rfl⟩
      ending := ⟨by simp [Session.opened, Flow.sender, TcpConn.open], by simp [Session.opened, Flow.sender,
        TcpConn.open],
        by simp [Session.opened, Flow.sender], always_nil⟩ }
  closing := trivial
  finished := by simp [Session.opened, TcpConn.open]

/-! ## What the host sent -/

def HostEvent.bytes : HostEvent → List U8
  | .data bytes => bytes
  | _ => []

/-- The host's data that waits in the channel. -/
def hostBytes (events : List HostEvent) : List U8 := events.flatMap HostEvent.bytes

/-- The data that an event puts in the channel: the thread sends it, and the channel takes it. -/
def Session.hostPuts (s : Session) : ConnEvent → List U8
  | .hostSends (.data bytes) =>
    if s.gone = false ∧ s.host = .connected ∧ s.flow.conn.hostRx.disconnected = false ∧
      s.flow.conn.hostRx.events.length < CHANNEL_BOUND then bytes else []
  | _ => []

/-- The data the host has sent in a run. -/
def Session.hostSent (s : Session) : List ConnEvent → List U8
  | [] => []
  | event :: rest => s.hostPuts event ++ (s.step event).hostSent rest

/-- Neither what was taken from the host nor what waits in its channel changes. -/
structure LeavesHost (f f' : Flow) : Prop where
  received : receivedBytes f'.effects = receivedBytes f.effects
  hostRx : f'.conn.hostRx = f.conn.hostRx

namespace LeavesHost

theorem note {e} (f : Flow) (he : receivedBytes [e] = []) : LeavesHost f (f.note e) :=
  ⟨by rw [Flow.note, receivedBytes_append, he, append_nil], rfl⟩

instance : FollowsGuest LeavesHost where
  refl _ := ⟨rfl, rfl⟩
  trans _ _ _ h h' := ⟨h'.received.trans h.received, h'.hostRx.trans h.hostRx⟩
  aside h := ⟨congrArg (fun core => receivedBytes core.2) h, congrArg (·.1.hostRx) h⟩
  emit _ _ _ := ⟨by rw [Flow.emit, receivedBytes_append]; exact append_nil _, rfl⟩
  send _ _ _ _ _ := ⟨by rw [sendChunk, Flow.update, Flow.emit, receivedBytes_append]; exact append_nil _, rfl⟩
  resend _ := ⟨by rw [Flow.resend, receivedBytes_append]; exact append_nil _, rfl⟩
  resendFin _ := ⟨by rw [Flow.resend, receivedBytes_append]; exact append_nil _, rfl⟩
  touch _ _ := ⟨rfl, rfl⟩
  guest h := ⟨congrArg (fun ours => receivedBytes ours.2) h, congrArg (·.1.hostRx) h⟩
  handed _ f := note f rfl
  tookFin f := note f rfl

end LeavesHost

theorem acknowledge_leavesHost (segment f) : LeavesHost f (acknowledge segment f) := by
  unfold acknowledge
  split
  · unfold acceptAck
    split
    · split
      · exact ⟨(receivedBytes_append _ _).trans (append_nil _), rfl⟩
      · exact ⟨rfl, rfl⟩
    · exact ⟨rfl, rfl⟩
  · exact refl f

theorem processSegment_leavesHost (segment f) : LeavesHost f (processSegment segment f) := by
  unfold processSegment
  split
  · split <;> exact ⟨rfl, rfl⟩
  have hack := acknowledge_leavesHost segment f
  split
  · rename_i out hout
    exact trans_of LeavesHost hack (refused_follows hout)
  · rename_i out ackNeeded hout
    exact trans_of LeavesHost (trans_of LeavesHost hack (acceptPayload_follows hout))
      (trans_of LeavesHost (acceptFin_follows segment out ackNeeded) (finishSegment_follows _ _))

theorem handleHostEvent_received (now event f) :
    receivedBytes (handleHostEvent now event f).effects = receivedBytes f.effects ++ HostEvent.bytes event := by
  cases event with
  | connected =>
    unfold handleHostEvent
    dsimp only
    split
    · exact receivedBytes_append _ _
    · exact (append_nil _).symm
  | connectFailed message => exact receivedBytes_append _ _
  | data bytes => exact (receivedBytes_append _ _).trans (congrArg _ (append_nil bytes))
  | eof => exact receivedBytes_append _ _

theorem drainEvents_host (now events) (f : Flow) :
    receivedBytes (drainEvents now events f).effects ++ hostBytes (drainEvents now events f).conn.hostRx.events =
      receivedBytes f.effects ++ hostBytes events := by
  induction events generalizing f with
  | nil =>
    unfold drainEvents
    split
    · rfl
    · dsimp only
      split
      · exact congrArg (· ++ _) ((receivedBytes_append _ _).trans (append_nil _))
      · rfl
  | cons event rest ih =>
    unfold drainEvents
    split
    · rfl
    · dsimp only
      rw [ih, handleHostEvent_received, append_assoc]
      rfl

theorem maybeSendFin_leavesHost (now f) : LeavesHost f (maybeSendFin now f) := by
  unfold maybeSendFin
  split
  · exact ⟨(receivedBytes_append _ _).trans (append_nil _), rfl⟩
  · exact refl f

theorem pollConn_leavesHost (now f) : LeavesHost (drainHostEvents now f) (pollConn now f) := by
  have hheld := unlessClosed_follows (R := LeavesHost) (f := drainHostEvents now f) fun _ => retryHeld_follows _
  have hsent := trans_of LeavesHost hheld (unlessClosed_follows fun _ => sendRounds_follows now MAX_UNACKED_SEGMENTS _)
  have hdata := trans_of LeavesHost hsent (unlessClosed_follows fun _ => retransmit_follows now _)
  have hfin : LeavesHost (pollData now f) (unlessClosed (maybeSendFin now) (pollData now f)) := by
    unfold unlessClosed
    split
    · exact refl _
    · exact maybeSendFin_leavesHost now _
  exact trans_of LeavesHost (trans_of LeavesHost hdata hfin) (unlessClosed_follows fun _ => teardown_follows now _)

/-- What was taken from the host, then what waits. -/
def Session.hostStream (s : Session) : List U8 := receivedBytes s.flow.effects ++ hostBytes s.flow.conn.hostRx.events

theorem LeavesHost.hostStream {s s' : Session} (h : LeavesHost s.flow s'.flow) : s'.hostStream = s.hostStream := by
  rw [Session.hostStream, h.received, h.hostRx]
  rfl

theorem Session.hostSends_stream (event : HostEvent) (s : Session) (hthere : s.gone = false) :
    (s.hostSends event).hostStream = s.hostStream ++ s.hostPuts (.hostSends event) := by
  have hsplit (host : HostThread) (hsend : s.host.send event = some host) : event.bytes = [] ∨ s.host = .connected := by
    cases event <;> cases hhost : s.host <;> simp_all [HostThread.send, HostEvent.bytes]
  unfold Session.hostSends
  split
  · rename_i hnone
    have hputs : s.hostPuts (.hostSends event) = [] := by
      cases event <;> cases hhost : s.host <;> simp_all [HostThread.send, Session.hostPuts]
    rw [hputs, append_nil]
  · rename_i host hsend
    split
    · rename_i hfull
      have hputs : s.hostPuts (.hostSends event) = [] := by
        cases event with
        | data bytes =>
          refine if_neg fun hroom => ?_
          rcases hfull with hgone | hlength
          · rw [hroom.2.2.1] at hgone
            cases hgone
          · omega
        | connected | connectFailed | eof => rfl
      rw [hputs, append_nil]
    · rename_i hroom
      simp only [not_or, Bool.not_eq_true, Nat.not_le] at hroom
      have hputs : s.hostPuts (.hostSends event) = event.bytes := by
        cases event with
        | data bytes =>
          rcases hsplit host hsend with hnil | hhost
          · obtain rfl : bytes = [] := hnil
            exact ite_self _
          · exact if_pos ⟨hthere, hhost, hroom⟩
        | connected | connectFailed | eof => rfl
      rw [hputs]
      simp [Session.hostStream, hostBytes, Flow.update]

theorem Session.step_hostStream (event : ConnEvent) (s : Session) :
    (s.step event).hostStream = s.hostStream ++ s.hostPuts event := by
  unfold Session.step
  split
  · rename_i hgone
    have hputs : s.hostPuts event = [] := by
      unfold Session.hostPuts
      split
      · exact if_neg fun h => absurd (hgone.symm.trans h.1) (by decide)
      · rfl
    rw [hputs, append_nil]
  rename_i hthere
  cases event with
  | segment segment =>
    refine Eq.trans ?_ (append_nil _).symm
    dsimp only
    split
    · rfl
    · exact (processSegment_leavesHost segment s.flow).hostStream
  | poll now =>
    have hdrained := drainEvents_host now s.flow.conn.hostRx.events s.flow
    have hpolled := pollConn_leavesHost now s.flow
    refine Eq.trans ?_ ((append_nil _).symm : s.hostStream = _)
    dsimp only [Session.poll]
    split
    · show receivedBytes (pollConn now s.flow).effects ++ hostBytes (pollConn now s.flow).conn.hostRx.events = _
      rw [hpolled.received, hpolled.hostRx]
      exact hdrained
    · show receivedBytes (pollConn now s.flow).effects ++ hostBytes (pollConn now s.flow).conn.hostRx.events = _
      rw [hpolled.received, hpolled.hostRx]
      exact hdrained
  | hostSends event => exact s.hostSends_stream event (by simpa using hthere)
  | hostTakes | hostDropsReceiver | hostDropsSender | others => exact (append_nil _).symm

theorem Session.after_hostStream (s : Session) (events) :
    (after Session.step s events).hostStream = s.hostStream ++ s.hostSent events := by
  induction events generalizing s with
  | nil => exact (append_nil _).symm
  | cons event events ih =>
    show (after Session.step (s.step event) events).hostStream = _
    rw [ih, s.step_hostStream event, append_assoc]
    rfl

/-- What was received from the host and what still waits in its channel are the bytes the host sent. Each data
    segment carries them at the offset of its sequence number, first sends are in stream order without gaps, and
    the FIN follows the last byte. -/
theorem host_stream_delivered (key : ConnKey) (syn : Segment) (isn : U32) (ipId : U16) (counters : Counters)
    (events : List ConnEvent) (hrun : Allowed Session.step NoEarlyFin (.opened key syn isn ipId counters) events) :
    let s := after Session.step (.opened key syn isn ipId counters) events
    let record := s.flow.effects
    receivedBytes record ++ hostBytes s.flow.conn.hostRx.events =
      (Session.opened key syn isn ipId counters).hostSent events ∧
    (∀ e ∈ record, ∀ segment, e.segment? = some segment → segment.payload ≠ [] →
      InStream isn (receivedBytes record) segment.seq segment.payload) ∧
    sentBytes record <+: receivedBytes record ∧ Always (Sender.FirstSend isn) record ∧
    (∀ e ∈ record, ∀ segment, e.segment? = some segment → segment.has FLAG_FIN →
      segment.seq = isn + 1 + BitVec.ofNat 32 (receivedBytes record).length) := by
  have h : Session.Inv isn (after Session.step (.opened key syn isn ipId counters) events) :=
    after_keeps (fun _ _ hevent hs => hs.step hevent) hrun (opened_inv key syn isn ipId counters)
  have hstream := h.sender.streaming
  have hisn : (after Session.step (.opened key syn isn ipId counters) events).flow.sender.isn = isn := h.isn
  have horder := hstream.order
  rw [hisn] at horder
  refine ⟨Session.after_hostStream _ events, fun e he segment hsegment hne => ?_, ⟨_, hstream.stream.symm⟩, horder,
    fun e he segment hsegment hflag => ?_⟩
  · have hsent := hstream.segments e he segment hsegment hne
    rw [hisn] at hsent
    exact hstream.stream ▸ hsent.mono
  · obtain ⟨hfin, hseq⟩ := h.sender.ending.fins e he segment hsegment hflag
    obtain ⟨-, hpending, -, hfinSeq⟩ := h.sender.ending.ended hfin
    have hreceived := hstream.stream
    rw [hpending, append_nil] at hreceived
    rw [hseq, hfinSeq, hisn]
    exact congrArg (fun bytes : List U8 => isn + 1 + BitVec.ofNat 32 bytes.length) hreceived.symm

/-! ## The converse -/

theorem Sender.Moves.record {a b} (h : Sender.Moves a b) : a.record <+: b.record := by
  induction h with
  | refl => exact prefix_rfl
  | tail _ hm ih =>
    refine ih.trans ?_
    cases hm <;> first | exact prefix_append _ _ | exact prefix_rfl

theorem Quiet.grows {f f'} (h : Quiet f f') : f.effects <+: f'.effects := by
  obtain ⟨more, hmore, -⟩ := h.record
  exact ⟨more, hmore.symm⟩

theorem pollConn_record (now f) : f.effects <+: (pollConn now f).effects := by
  have hdrain := (drainEvents_follows (R := Quiet) now f.conn.hostRx.events f).grows
  have hdata := (pollData_sends now f).moves.record
  have hfin := (unlessClosed_follows (R := Quiet) fun _ => maybeSendFin_follows now (pollData now f)).grows
  exact ((hdrain.trans hdata).trans hfin).trans
    (unlessClosed_follows (R := Quiet) fun _ => teardown_follows now _).grows

theorem Session.step_record (event : ConnEvent) (s : Session) : s.flow.effects <+: (s.step event).flow.effects := by
  unfold Session.step
  split
  · exact prefix_rfl
  cases event with
  | segment segment =>
    dsimp only
    split
    · exact prefix_rfl
    · exact (processSegment_sends segment s.flow).moves.record
  | poll now =>
    dsimp only [Session.poll]
    split <;> exact pollConn_record now s.flow
  | hostSends event =>
    dsimp only [Session.hostSends]
    split
    · exact prefix_rfl
    · split <;> exact prefix_rfl
  | hostTakes | hostDropsReceiver | hostDropsSender | others => exact prefix_rfl

theorem Session.after_record (s : Session) (events) :
    s.flow.effects <+: (after Session.step s events).flow.effects := by
  induction events generalizing s with
  | nil => exact prefix_rfl
  | cons event events ih => exact (s.step_record event).trans (ih _)

theorem maybeSendFin_due (now) (h : finDue f.conn = true) :
    ∃ fin : Segment, fin.has FLAG_FIN = true ∧ (maybeSendFin now f).effects = f.effects ++ [.emitted f.ipId fin] := by
  refine ⟨f.conn.reply f.conn.ourNext (FLAG_FIN ||| FLAG_ACK) OUR_WINDOW [] [], ?_, ?_⟩
  · show ((FLAG_FIN ||| FLAG_ACK) &&& FLAG_FIN != 0) = true
    decide
  · rw [maybeSendFin, if_pos h]
    rfl

theorem Session.Inv.early (h : s.Inv isn) {now} (hthere : s.gone = false)
    (hearly : earlyFin now s.flow.conn = true) : ¬ Always (Sender.FinLast isn) (s.step (.poll now)).flow.effects := by
  have hwaits := (pollData_waits now s.flow).mpr hearly
  obtain ⟨hfin, hpending, hnil, hqueue, heof, hopen⟩ := waits_iff.mp hwaits
  obtain ⟨fin, hflag, heffects⟩ := maybeSendFin_due now (f := Net.pollData now s.flow)
    (by simp [finDue, hfin, hpending, hnil, hqueue])
  have hsame : (s.step (.poll now)).flow.effects = (pollConn now s.flow).effects := by
    simp only [Session.step, hthere, Bool.false_eq_true, if_false, Session.poll]
    split <;> rfl
  obtain ⟨later, hlater⟩ := (unlessClosed_follows (R := Quiet) fun _ => teardown_follows now
    (maybeSendFin now (Net.pollData now s.flow))).grows
  intro halways
  rw [hsame, pollConn, unlessClosed_of_open hopen, ← hlater, heffects, append_assoc] at halways
  have hclosed := ((halways _ _ later rfl).2 _ fin rfl hflag).1
  have heof' : (Net.pollData now s.flow).conn.hostEof = true := (h.pollData now).sender.ending.closed.mpr hclosed
  rw [heof] at heof'
  cases heof'

theorem Session.Inv.allowed_iff (h : s.Inv isn) (events) :
    Allowed Session.step NoEarlyFin s events ↔
      Always (Sender.FinLast isn) (after Session.step s events).flow.effects := by
  constructor
  · intro hrun
    have hafter : Session.Inv isn (after Session.step s events) :=
      after_keeps (fun _ _ hevent hs => hs.step hevent) hrun h
    have hlast := hafter.sender.ending.last
    rwa [show (after Session.step s events).flow.sender.isn = isn from hafter.isn] at hlast
  · intro hlast
    induction events generalizing s with
    | nil => trivial
    | cons event events ih =>
      have hevent : NoEarlyFin event s := by
        cases event with
        | poll now =>
          rcases hgone : s.gone with _ | _
          · rcases hearly : earlyFin now s.flow.conn with _ | _
            · exact .inr hearly
            · exact absurd (always_earlier ((s.step (.poll now)).after_record events) hlast) (h.early hgone hearly)
          · exact .inl hgone
        | segment | hostTakes | hostSends | hostDropsReceiver | hostDropsSender | others => trivial
      exact ⟨hevent, ih (h.step hevent) hlast⟩

/-- Every FIN follows the host's close and the acknowledgement of everything received, and no data segment is sent
    after it. It stands behind the last byte of the stream that was sent, and every data segment, before it or
    again, is a part of that stream. -/
def HalfClosed (isn : U32) (record : List Effect) : Prop :=
  Always (Sender.FinLast isn) record ∧
    ∀ e ∈ record, ∀ fin, e.segment? = some fin → fin.has FLAG_FIN →
      fin.seq = isn + 1 + BitVec.ofNat 32 (sentBytes record).length ∧
      ∀ e' ∈ record, ∀ data, e'.segment? = some data → data.payload ≠ [] →
        InStream isn (sentBytes record) data.seq data.payload

theorem Session.Inv.halfClosed (h : s.Inv isn) : HalfClosed isn s.flow.effects := by
  have hisn : s.flow.sender.isn = isn := h.isn
  refine ⟨hisn ▸ h.sender.ending.last, fun e he fin hfin hflag => ⟨?_, fun e' he' data hdata hne => ?_⟩⟩
  · obtain ⟨hsent, hseq⟩ := h.sender.ending.fins e he fin hfin hflag
    rw [hseq, (h.sender.ending.ended hsent).2.2.2, hisn]
    rfl
  · exact hisn ▸ h.sender.streaming.segments e' he' data hdata hne

section GuestCloses

/-- The guest acknowledges the SYN-ACK and closes; the host has sent nothing yet and is still there. -/
def guestCloses : List ConnEvent := [.hostSends .connected, .poll 0, guestFinSegment 0, .poll 1]

def guestAck (ack : U32) : ConnEvent := .segment ⟨40000, 80, 0xFFFFFFF2, ack, FLAG_ACK, 0xFFFF, [], []⟩

/-- The FIN takes the sequence number of the host's first byte, which is then sent one further. -/
theorem early_fin_shifts_host_bytes :
    let record := (after Session.step freshSession (guestCloses ++ [.hostSends (.data [65]), .poll 2])).flow.effects
    freshSession.hostSent (guestCloses ++ [.hostSends (.data [65]), .poll 2]) = [65] ∧ receivedBytes record = [65] ∧
      (record.any fun e => e.segment?.any fun segment => segment.seq == 1002 && segment.payload == [65]) = true ∧
      ¬ InStream 1000 (receivedBytes record) 1002 [65] := by
  have hreceived : receivedBytes
      (after Session.step freshSession (guestCloses ++ [.hostSends (.data [65]), .poll 2])).flow.effects = [65] := by
    decide +kernel
  refine ⟨by decide +kernel, hreceived, by decide +kernel, ?_⟩
  rw [hreceived]
  rintro ⟨offset, hseq, hle, -⟩
  obtain rfl : offset = 0 := by simpa using hle
  exact absurd hseq (by decide)

/-- Host bytes are outstanding when the guest closes; a lost segment is sent again, the host closes, and
    the acknowledgement lets our FIN go. -/
def hostCloses : List ConnEvent :=
  [.hostSends .connected, .poll 0, .segment ⟨40000, 80, 0xFFFFFFF1, 1001, FLAG_ACK, 0xFFFF, [], []⟩,
    .hostSends (.data [72, 105]), .poll 1, guestFinSegment 0, .poll 2, .poll 1000, .hostSends .eof, .poll 1001,
    guestAck 1003, .poll 1002]

theorem outstanding_bytes_delivered : sentBytes (after Session.step freshSession hostCloses).flow.effects <+:
        receivedBytes (after Session.step freshSession hostCloses).flow.effects ∧
      sentBytes (after Session.step freshSession hostCloses).flow.effects = [72, 105] := by
  unfold freshSession
  refine ⟨(host_stream_delivered ⟨40000, 0x0A000002, 80⟩ guestSyn 1000 0 ⟨0, 0, 0, 0⟩ hostCloses ?_).2.2.1, ?_⟩ <;>
    decide +kernel

end GuestCloses

end Rish.SoftVm.Net
