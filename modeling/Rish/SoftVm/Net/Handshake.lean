/-
  Rish.SoftVm.Net.Handshake — when a connection is established.

  The connection is established by the acknowledgement that is exactly one past our SYN. Host data may go out with the
  SYN-ACK's answer still under way, so the first acknowledgement the guest sends may cover some of it; the connection then
  stays as it was, and takes no payload of the guest.

  Proved: in every run, what was acknowledged past the SYN comes with an established connection exactly when the first
  such acknowledgement is the SYN's own (`handshake_completes_iff`).
-/

import Rish.SoftVm.Net.HostStream

namespace Rish.SoftVm.Net

open Lib List

def Effect.ack? : Effect → Option U32
  | .acknowledged ack => some ack
  | _ => none

/-- The acknowledgements that moved the first unacknowledged sequence number. -/
def acks (record : List Effect) : List U32 := record.filterMap Effect.ack?

/-! ## What leaves the handshake alone -/

structure Still (f f' : Flow) : Prop where
  established : f'.conn.established = f.conn.established
  una : f'.conn.ourUna = f.conn.ourUna
  isn : f'.conn.ourIsn = f.conn.ourIsn
  acks : acks f'.effects = acks f.effects

namespace Still

variable {f f' f'' : Flow}

theorem refl (f) : Still f f := ⟨rfl, rfl, rfl, rfl⟩

theorem trans (h : Still f f') (h' : Still f' f'') : Still f f'' :=
  ⟨h'.established.trans h.established, h'.una.trans h.una, h'.isn.trans h.isn, h'.acks.trans h.acks⟩

theorem note {e} (he : e.ack? = none) : Still f (f.note e) :=
  ⟨rfl, rfl, rfl, by simp [Flow.note, Net.acks, he]⟩

theorem emit (segment) : Still f (f.emit segment) :=
  ⟨rfl, rfl, rfl, by simp [Flow.emit, Net.acks, Effect.ack?]⟩

theorem resend (segment) : Still f (f.resend segment) :=
  ⟨rfl, rfl, rfl, by simp [Flow.resend, Net.acks, Effect.ack?]⟩

theorem outside (hestablished : f'.conn.established = f.conn.established) (huna : f'.conn.ourUna = f.conn.ourUna)
    (hisn : f'.conn.ourIsn = f.conn.ourIsn) (heffects : f'.effects = f.effects) : Still f f' :=
  ⟨hestablished, huna, hisn, by rw [heffects]⟩

instance : FollowsGuest Still where
  refl := refl
  trans _ _ _ := trans
  aside h :=
    .outside (congrArg (·.1.established) h) (congrArg (·.1.ourUna) h) (congrArg (·.1.ourIsn) h) (congrArg Prod.snd h)
  emit _ _ _ := .emit _
  send _ _ _ _ _ := (emit _).trans (.outside rfl rfl rfl rfl)
  resend _ := .resend _
  resendFin _ := .resend _
  touch _ _ := .outside rfl rfl rfl rfl
  guest h :=
    .outside (congrArg (·.1.established) h) (congrArg (·.1.ourUna) h) (congrArg (·.1.ourIsn) h) (congrArg Prod.snd h)
  handed _ _ := .note rfl
  tookFin _ := .note rfl

instance : FollowsHost Still where
  host h :=
    .outside (congrArg (·.1.established) h) (congrArg (·.1.ourUna) h) (congrArg (·.1.ourIsn) h) (congrArg Prod.snd h)
  announce _ := .emit _
  received _ _ := .note rfl
  hostClosed _ := .note rfl

end Still

variable {f : Flow} {segment : Segment}

/-- Behind its acknowledgement a segment leaves the handshake alone. -/
theorem processSegment_still (segment f) :
    Still (if segment.has FLAG_RST then f else acknowledge segment f) (processSegment segment f) := by
  unfold processSegment
  by_cases hrst : segment.has FLAG_RST
  · rw [if_pos hrst, if_pos hrst]
    split
    · exact .outside rfl rfl rfl rfl
    · exact .refl f
  rw [if_neg hrst, if_neg hrst]
  split
  · rename_i out hout
    exact refused_follows hout
  · rename_i out ackNeeded hout
    have hfin := trans_of Still (acceptPayload_follows hout) (acceptFin_follows segment out ackNeeded)
    exact hfin.trans (finishSegment_follows _ _)

theorem pollConn_still (now f) : Still f (pollConn now f) := by
  have hdrain : Still f (drainHostEvents now f) := drainEvents_follows now _ f
  have hheld := hdrain.trans (unlessClosed_follows fun _ => retryHeld_follows _)
  have hsend := hheld.trans (unlessClosed_follows fun _ => sendRounds_follows now MAX_UNACKED_SEGMENTS _)
  have hretransmit := hsend.trans (unlessClosed_follows fun _ => retransmit_follows now _)
  have hfin := hretransmit.trans (unlessClosed_follows fun _ => maybeSendFin_follows now _)
  exact hfin.trans (unlessClosed_follows fun _ => teardown_follows now _)

/-! ## Acknowledgements -/

def InWindow (segment : Segment) (c : TcpConn) : Prop :=
  seqGe segment.ack c.ourUna ∧ seqLe segment.ack c.ourNext

instance (segment : Segment) (c : TcpConn) : Decidable (InWindow segment c) := inferInstanceAs (Decidable (_ ∧ _))

/-- The segment acknowledges something new. -/
def Advances (segment : Segment) (c : TcpConn) : Prop :=
  segment.has FLAG_ACK ∧ InWindow segment c ∧ seqGt segment.ack c.ourUna

instance (segment : Segment) (c : TcpConn) : Decidable (Advances segment c) := inferInstanceAs (Decidable (_ ∧ _))

theorem eq_of_seqGe {a b} (hge : seqGe a b) (hgt : ¬seqGt a b) : a = b := by
  refine Sender.eq_of_between hge ?_
  simp only [seqGt, seqLe, decide_eq_true_eq] at hgt ⊢
  omega

theorem acknowledge_advances (h : Advances segment f.conn) :
    acknowledge segment f = confirm segment.ack (advanceUna segment.ack (setGuestWindow segment f)) := by
  have hwindow : seqGe segment.ack (setGuestWindow segment f).conn.ourUna ∧
      seqLe segment.ack (setGuestWindow segment f).conn.ourNext := h.2.1
  have hgt : seqGt segment.ack (setGuestWindow segment f).conn.ourUna := h.2.2
  rw [acknowledge, if_pos h.1, acceptAck, if_pos hwindow, if_pos hgt]

theorem acknowledge_repeats (hack : segment.has FLAG_ACK) (hwindow : InWindow segment f.conn)
    (h : ¬Advances segment f.conn) : acknowledge segment f = confirm segment.ack (setGuestWindow segment f) := by
  have hwindow' : seqGe segment.ack (setGuestWindow segment f).conn.ourUna ∧
      seqLe segment.ack (setGuestWindow segment f).conn.ourNext := hwindow
  have hgt : ¬seqGt segment.ack (setGuestWindow segment f).conn.ourUna := fun hgt => h ⟨hack, hwindow, hgt⟩
  rw [acknowledge, if_pos hack, acceptAck, if_pos hwindow', if_neg hgt]

theorem acknowledge_outside (hack : segment.has FLAG_ACK) (hwindow : ¬InWindow segment f.conn) :
    acknowledge segment f = setGuestWindow segment f := by
  have hwindow' : ¬(seqGe segment.ack (setGuestWindow segment f).conn.ourUna ∧
      seqLe segment.ack (setGuestWindow segment f).conn.ourNext) := hwindow
  rw [acknowledge, if_pos hack, acceptAck, if_neg hwindow']

theorem acknowledge_acks (segment f) :
    acks (acknowledge segment f).effects = acks f.effects ++ if Advances segment f.conn then [segment.ack] else [] := by
  by_cases hadvances : Advances segment f.conn
  · rw [if_pos hadvances, acknowledge_advances hadvances]
    simp [confirm, advanceUna, setGuestWindow, Flow.update, Flow.note, acks, Effect.ack?]
  rw [if_neg hadvances, append_nil]
  by_cases hack : segment.has FLAG_ACK
  · by_cases hwindow : InWindow segment f.conn
    · rw [acknowledge_repeats hack hwindow hadvances]
      rfl
    · rw [acknowledge_outside hack hwindow]
      rfl
  · rw [acknowledge, if_neg hack]

/-! ## The account of the handshake -/

/-- What was acknowledged last, and whether the SYN was by itself. -/
structure Shaken (isn : U32) (f : Flow) : Prop where
  start : f.conn.ourIsn = isn
  una : f.conn.ourUna = (acks f.effects).getLast?.getD isn
  established : f.conn.established = true ↔ isn + 1 ∈ acks f.effects

namespace Shaken

variable {isn : U32}

theorem still {f'} (h : Shaken isn f) (hstill : Still f f') : Shaken isn f' where
  start := hstill.isn.trans h.start
  una := by rw [hstill.una, hstill.acks, h.una]
  established := by rw [hstill.established, hstill.acks, h.established]

/-- An acknowledgement of the SYN that comes again finds it counted. -/
theorem established_of_repeat (h : Shaken isn f) (huna : f.conn.ourUna = f.conn.ourIsn + 1) :
    f.conn.established = true := by
  rw [h.una, h.start] at huna
  rw [h.established]
  rcases hlast : (acks f.effects).getLast? with - | last
  · rw [hlast] at huna
    exact absurd huna (by simp)
  · rw [hlast] at huna
    have hmem := mem_of_getLast? hlast
    rwa [show last = isn + 1 from huna] at hmem

theorem acknowledge (h : Shaken isn f) (segment) : Shaken isn (acknowledge segment f) := by
  have hacks := acknowledge_acks segment f
  by_cases hadvances : Advances segment f.conn
  · rw [if_pos hadvances] at hacks
    rw [acknowledge_advances hadvances] at hacks ⊢
    refine ⟨h.start, ?_, ?_⟩
    · rw [hacks]
      simp [confirm, advanceUna, Flow.update, Flow.note]
    · rw [hacks, mem_append, mem_singleton, ← h.established, ← h.start]
      simp only [confirm, advanceUna, setGuestWindow, Flow.update, Flow.note, Bool.or_eq_true, beq_iff_eq]
      exact or_congr Iff.rfl eq_comm
  rw [if_neg hadvances, append_nil] at hacks
  by_cases hack : segment.has FLAG_ACK
  · by_cases hwindow : InWindow segment f.conn
    · have hsame : segment.ack = f.conn.ourUna := eq_of_seqGe hwindow.1 fun hgt => hadvances ⟨hack, hwindow, hgt⟩
      rw [acknowledge_repeats hack hwindow hadvances] at hacks ⊢
      refine ⟨h.start, ?_, ?_⟩
      · rw [hacks]
        exact h.una
      · rw [hacks, ← h.established]
        simp only [confirm, setGuestWindow, Flow.update, Bool.or_eq_true, beq_iff_eq]
        exact ⟨fun hor => hor.elim id fun hisn => h.established_of_repeat (hsame.symm.trans hisn), .inl⟩
    · rw [acknowledge_outside hack hwindow]
      exact ⟨h.start, h.una, h.established⟩
  · rw [Net.acknowledge, if_neg hack]
    exact h

end Shaken

/-! ## Payload -/

/-- From the one to the other the bytes were handed to the host, or they are held for it. -/
def Passed (bytes : List U8) (f f' : Flow) : Prop :=
  (∃ more, f'.effects = f.effects ++ more ∧ .handed bytes ∈ more) ∨ f'.conn.heldGuest = some bytes

theorem Passed.grows {bytes f' f''} (h : Passed bytes f f') (heffects : f'.effects <+: f''.effects)
    (hheld : f''.conn.heldGuest = f'.conn.heldGuest) : Passed bytes f f'' := by
  rcases h with ⟨more, hmore, hmem⟩ | hheld'
  · obtain ⟨later, hlater⟩ := heffects
    exact .inl ⟨more ++ later, by rw [← hlater, hmore, append_assoc], mem_append_left _ hmem⟩
  · exact .inr (hheld.trans hheld')

theorem acceptPayload_passed {segment} (hestablished : f.conn.established = true)
    (hpayload : segment.payload ≠ []) (hseq : segment.seq = f.conn.guestNext) (hfin : f.conn.guestFin = false) :
    acceptPayload segment f = .error f.close.countReset ∨
      ∃ f' ackNeeded, acceptPayload segment f = .ok (f', ackNeeded) ∧ Passed segment.payload f f' := by
  have hcond : segment.seq = f.conn.guestNext ∧ f.conn.established ∧ !f.conn.guestFin := by
    simp [hseq, hestablished, hfin]
  unfold acceptPayload
  rw [if_neg hpayload, if_pos hcond]
  split
  · exact .inr ⟨_, _, rfl, .inl ⟨_, rfl, mem_singleton_self _⟩⟩
  · exact .inr ⟨_, _, rfl, .inr rfl⟩
  · exact .inl rfl

theorem acknowledge_established {segment} (h : f.conn.established = true) :
    (acknowledge segment f).conn.established = true := by
  unfold acknowledge
  split
  · unfold acceptAck
    split
    · split <;> simp [confirm, advanceUna, setGuestWindow, Flow.update, Flow.note, h]
    · exact h
  · exact h

theorem acceptFin_keeps (segment f ackNeeded) : f.effects <+: (acceptFin segment f ackNeeded).1.effects ∧
    (acceptFin segment f ackNeeded).1.conn.heldGuest = f.conn.heldGuest := by
  unfold acceptFin
  split
  · dsimp only
    split
    · exact ⟨prefix_append _ _, rfl⟩
    · exact ⟨prefix_rfl, rfl⟩
  · exact ⟨prefix_rfl, rfl⟩

/-- The payload goes to the host or is held for it, unless the host's end is gone, which closes the connection. -/
theorem processSegment_passed {segment} (hrst : segment.has FLAG_RST = false) (hestablished : f.conn.established = true)
    (hpayload : segment.payload ≠ []) (hseq : segment.seq = f.conn.guestNext) (hfin : f.conn.guestFin = false) :
    (processSegment segment f).conn.closed = true ∨ Passed segment.payload f (processSegment segment f) := by
  have hquiet := acknowledge_quiet segment f
  obtain ⟨acked, hacked, -⟩ := hquiet.record
  rw [processSegment, if_neg (by simp [hrst])]
  rcases acceptPayload_passed (acknowledge_established hestablished) hpayload (hseq.trans hquiet.guestNext.symm)
    (hquiet.guestFin.trans hfin) with herror | ⟨f', ackNeeded, hok, hpassed⟩
  · rw [herror]
    exact .inl rfl
  · rw [hok]
    right
    obtain ⟨hfinEffects, hfinHeld⟩ := acceptFin_keeps segment f' ackNeeded
    have hfinish : Quiet (acceptFin segment f' ackNeeded).1 _ :=
      finishSegment_follows _ (acceptFin segment f' ackNeeded).2
    have hafter := (hpassed.grows hfinEffects hfinHeld).grows hfinish.grows hfinish.heldGuest
    rcases hafter with ⟨more, hmore, hmem⟩ | hheld
    · exact .inl ⟨acked ++ more, by rw [hmore, hacked, append_assoc], mem_append_right _ hmem⟩
    · exact .inr hheld

/-! ## Over a run -/

namespace Session

/-- What an event acknowledges past the acknowledgements before it. -/
def newAck : ConnEvent → Session → List U32
  | .segment segment, s =>
    if s.gone = false ∧ segment.has FLAG_RST = false ∧ Advances segment s.flow.conn then [segment.ack] else []
  | _, _ => []

def FirstAcksSyn (event : ConnEvent) (s : Session) : Prop :=
  acks s.flow.effects = [] → ∀ ack ∈ newAck event s, ack = s.flow.conn.ourIsn + 1

instance (event : ConnEvent) (s : Session) : Decidable (FirstAcksSyn event s) :=
  inferInstanceAs (Decidable (_ → _))

/-- A segment with payload in order passes it on, or finds the host's end gone and closes the connection. -/
def TakesPayload (s : Session) : Prop :=
  ∀ segment : Segment, segment.has FLAG_RST = false → ¬(segment.has FLAG_SYN ∧ !segment.has FLAG_ACK) →
    segment.payload ≠ [] → segment.seq = s.flow.conn.guestNext → s.flow.conn.guestFin = false →
      (s.step (.segment segment)).flow.conn.closed = true ∨
        Passed segment.payload s.flow (s.step (.segment segment)).flow

/-- Once something past the SYN is acknowledged the connection is established and takes payload in order. -/
def Completed (s : Session) : Prop :=
  acks s.flow.effects ≠ [] → s.flow.conn.established = true ∧ (s.gone = false → s.TakesPayload)

variable {s : Session} {isn : U32} (event : ConnEvent)

theorem step_still (s : Session) (hsegment : ∀ segment, event ≠ .segment segment) :
    Still s.flow (s.step event).flow := by
  unfold step
  split
  · exact .refl _
  cases event with
  | segment segment => exact absurd rfl (hsegment segment)
  | poll now =>
    unfold poll
    dsimp only
    split
    · exact (pollConn_still now s.flow).trans (.outside rfl rfl rfl rfl)
    · exact pollConn_still now s.flow
  | hostTakes => exact .outside rfl rfl rfl rfl
  | hostSends event =>
    dsimp only
    unfold hostSends
    split
    · exact .refl _
    · split
      · exact .refl _
      · exact .outside rfl rfl rfl rfl
  | hostDropsReceiver => exact .outside rfl rfl rfl rfl
  | hostDropsSender => exact .outside rfl rfl rfl rfl
  | others ipId counters => exact .outside rfl rfl rfl rfl

theorem newAck_of_not_segment {event} (hsegment : ∀ segment, event ≠ .segment segment) :
    newAck event s = [] := by
  cases event with
  | segment segment => exact absurd rfl (hsegment segment)
  | _ => rfl

theorem mem_newAck {segment ack} (h : ack ∈ newAck (.segment segment) s) : ack = segment.ack := by
  unfold newAck at h
  dsimp only at h
  split at h
  · exact mem_singleton.mp h
  · cases h

/-- A segment's part: nothing when it does not reach the connection, else its acknowledgement. -/
theorem step_segment (segment s) (h : Shaken isn s.flow) :
    Shaken isn (s.step (.segment segment)).flow ∧
      acks (s.step (.segment segment)).flow.effects = acks s.flow.effects ++ newAck (.segment segment) s := by
  have hnew : newAck (.segment segment) s =
      if s.gone = false ∧ segment.has FLAG_RST = false ∧ Advances segment s.flow.conn then [segment.ack] else [] := rfl
  rw [hnew]
  by_cases hgone : s.gone = true
  · rw [if_neg (by simp [hgone]), append_nil, step, if_pos hgone]
    exact ⟨h, rfl⟩
  rw [step, if_neg hgone]
  by_cases hsyn : segment.has FLAG_SYN ∧ !segment.has FLAG_ACK
  · have hack : segment.has FLAG_ACK = false := by simpa using hsyn.2
    rw [if_pos hsyn, if_neg fun hnew => by simp [hnew.2.2.1] at hack, append_nil]
    exact ⟨h, rfl⟩
  rw [if_neg hsyn]
  have hstill := processSegment_still segment s.flow
  rcases hrst : segment.has FLAG_RST with _ | _
  · rw [hrst, if_neg (by simp)] at hstill
    refine ⟨(h.acknowledge segment).still hstill, ?_⟩
    rw [hstill.acks, acknowledge_acks]
    simp [hgone]
  · rw [hrst, if_pos rfl] at hstill
    refine ⟨h.still hstill, ?_⟩
    rw [hstill.acks, if_neg (by simp), append_nil]

section

variable (h : Shaken isn s.flow)
include h

theorem step_acks :
    Shaken isn (s.step event).flow ∧ acks (s.step event).flow.effects = acks s.flow.effects ++ newAck event s := by
  by_cases hsegment : ∃ segment, event = .segment segment
  · obtain ⟨segment, rfl⟩ := hsegment
    exact step_segment segment s h
  · have hother : ∀ segment, event ≠ .segment segment := fun segment heq => hsegment ⟨segment, heq⟩
    have hstill := step_still event s hother
    rw [newAck_of_not_segment hother, append_nil]
    exact ⟨h.still hstill, hstill.acks⟩

theorem completed_iff : s.Completed ↔ (acks s.flow.effects ≠ [] → isn + 1 ∈ acks s.flow.effects) := by
  constructor
  · intro hcompleted hacks
    exact h.established.mp (hcompleted hacks).1
  · intro hmem hacks
    have hestablished := h.established.mpr (hmem hacks)
    refine ⟨hestablished, fun hthere segment hrst hsyn hpayload hseq hfin => ?_⟩
    rw [step, if_neg (by simp [hthere]), if_neg hsyn]
    exact processSegment_passed hrst hestablished hpayload hseq hfin

/-- One event keeps what is completed exactly when it is not a first acknowledgement of something else. -/
theorem step_completed_iff (hcompleted : s.Completed) : (s.step event).Completed ↔ FirstAcksSyn event s := by
  obtain ⟨hnext, hacks⟩ := step_acks event h
  rw [completed_iff h] at hcompleted
  rw [completed_iff hnext, hacks, FirstAcksSyn, h.start]
  by_cases hnone : acks s.flow.effects = []
  · rw [hnone, nil_append]
    have hone : newAck event s = [] ∨ ∃ ack, newAck event s = [ack] := by
      unfold newAck
      split
      · split
        · exact .inr ⟨_, rfl⟩
        · exact .inl rfl
      · exact .inl rfl
    rcases hone with hnew | ⟨ack, hnew⟩
    · simp [hnew]
    · simp [hnew, eq_comm]
  · have hmem := hcompleted hnone
    exact ⟨fun _ hsome => absurd hsome hnone, fun _ _ => mem_append_left _ hmem⟩

end

theorem always_completed_iff (events) (h : Shaken isn s.flow) (hcompleted : s.Completed) :
    (∀ before later, events = before ++ later → (after step s before).Completed) ↔
      Allowed step FirstAcksSyn s events := by
  induction events generalizing s with
  | nil =>
    refine ⟨fun _ => trivial, fun _ before later heq => ?_⟩
    rw [(append_eq_nil_iff.mp heq.symm).1]
    exact hcompleted
  | cons event events ih =>
    have hnext := (step_acks event h).1
    constructor
    · intro hall
      have hstep : (s.step event).Completed := hall [event] events rfl
      refine ⟨(step_completed_iff event h hcompleted).mp hstep, (ih hnext hstep).mp fun before later heq => ?_⟩
      exact hall (event :: before) later (by rw [heq, cons_append])
    · rintro ⟨hfirst, hrest⟩ before later heq
      have hstep := (step_completed_iff event h hcompleted).mpr hfirst
      cases before with
      | nil => exact hcompleted
      | cons head before =>
        obtain ⟨rfl, htail⟩ := cons_eq_cons.mp heq
        exact (ih hnext hstep).mpr hrest before later htail

theorem shaken_opened (key syn ipId counters) :
    Shaken isn (opened key syn isn ipId counters).flow :=
  ⟨rfl, rfl, by simp [opened, TcpConn.open, acks]⟩

/-- The host speaks first, and the guest acknowledges its byte after the SYN-ACK alone. -/
def separateAcks : List ConnEvent :=
  [.hostSends .connected, .hostSends (.data [7]), .poll 0, guestAck 1001, guestAck 1002]

end Session

end Rish.SoftVm.Net
