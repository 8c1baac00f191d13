/-
  Rish.SoftVm.Net.Connection — one connection over its whole life.

  Events. A guest segment reaches the connection unless it is a SYN without ACK: for a live connection
  that is a retransmitted SYN. A poll runs the connection once and removes it when it is closed. The
  host thread takes a payload off its channel, sends an event when there is room, and drops its ends
  when it returns. Other connections move the shared packet identification and counters.
  The thread announces its connection once and before any data; nothing follows an end of stream or a
  failed connect. Redials send no event.
-/

import Rish.Lib.Record
import Rish.SoftVm.Net.Tcp

namespace Rish.SoftVm.Net

open Lib

inductive HostThread where
  | dialing
  | connected
  | returned
  deriving DecidableEq, Repr

/-- The thread after it sends an event; none when it does not send this event in this state. -/
def HostThread.send : HostThread → HostEvent → Option HostThread
  | .dialing, .connected => some .connected
  | .dialing, .connectFailed _ => some .returned
  | .connected, .connectFailed _ => some .returned
  | .connected, .data _ => some .connected
  | .connected, .eof => some .returned
  | _, _ => none

structure Session where
  flow : Flow
  host : HostThread
  /-- the connection was removed from the table -/
  gone : Bool
  deriving DecidableEq, Repr

inductive ConnEvent where
  | segment (segment : Segment)
  | poll (now : Nat)
  | hostTakes
  | hostSends (event : HostEvent)
  | hostDropsReceiver
  | hostDropsSender
  | others (ipId : U16) (counters : Counters)
  deriving DecidableEq, Repr

namespace Session

def opened (key : ConnKey) (syn : Segment) (isn : U32) (ipId : U16) (counters : Counters) : Session :=
  ⟨⟨.open key syn isn, ipId, { counters with tcpOpened := saturatingSucc counters.tcpOpened }, []⟩, .dialing, false⟩

def countClosed (f : Flow) : Flow :=
  { f with counters := { f.counters with tcpClosed := saturatingSucc f.counters.tcpClosed } }

def poll (now : Nat) (s : Session) : Session :=
  let f := pollConn now s.flow
  if f.conn.closed then { s with flow := countClosed f, gone := true } else { s with flow := f }

def hostSends (event : HostEvent) (s : Session) : Session :=
  match s.host.send event with
  | none => s
  | some host =>
    if s.flow.conn.hostRx.disconnected ∨ s.flow.conn.hostRx.events.length ≥ CHANNEL_BOUND then s
    else
      { s with
        host := host
        flow := s.flow.update fun c => { c with hostRx := { c.hostRx with events := c.hostRx.events ++ [event] } } }

/-- The thread has returned once it drops an end of a channel. -/
def hostDropsReceiver (s : Session) : Session :=
  { s with
    host := .returned
    flow := s.flow.update fun c => { c with guestTx := { c.guestTx with disconnected := true } } }

def hostDropsSender (s : Session) : Session :=
  { s with
    host := .returned
    flow := s.flow.update fun c => { c with hostRx := { c.hostRx with disconnected := true } } }

def step (event : ConnEvent) (s : Session) : Session :=
  if s.gone then s
  else
    match event with
    | .segment segment =>
      if segment.has FLAG_SYN ∧ !segment.has FLAG_ACK then s else { s with flow := processSegment segment s.flow }
    | .poll now => s.poll now
    | .hostTakes =>
      { s with flow := s.flow.update fun c => { c with guestTx := { c.guestTx with queued := c.guestTx.queued - 1 } } }
    | .hostSends event => s.hostSends event
    | .hostDropsReceiver => s.hostDropsReceiver
    | .hostDropsSender => s.hostDropsSender
    | .others ipId counters => { s with flow := { s.flow with ipId := ipId, counters := counters } }

end Session

/-! ## Relations of what a connection was and what it has become -/

/-- The connection without its timers, the flags of its teardown and the counters. -/
def Flow.core (f : Flow) : TcpConn × List Effect :=
  ({ f.conn with
      retransmitDeadline := none, retransmits := 0, finPending := false, guestFinAcked := false
      lingerDeadline := none, closed := false }, f.effects)

/-- A preorder that allows what a connection does by itself: bookkeeping, segments without payload, pending
    bytes, and the retransmission queue. -/
class Follows (R : Flow → Flow → Prop) : Prop extends IsPreorder Flow R where
  aside {f f' : Flow} : f'.core = f.core → R f f'
  emit {f : Flow} {segment : Segment} : segment.ack = f.conn.guestNext → segment.payload = [] →
    segment.has FLAG_FIN = false → R f (f.emit segment)
  send (now : Nat) {take : Nat} {f : Flow} : 0 < take → take ≤ f.conn.pending.length → R f (sendChunk now take f)
  resend {f : Flow} {o : OutSeg} : o ∈ f.conn.unacked →
    R f (f.resend (f.conn.reply o.seq (if o.syn then FLAG_SYN ||| FLAG_ACK else FLAG_ACK) OUR_WINDOW
      (if o.syn then MSS_OPTION else []) o.bytes))
  resendFin {f : Flow} : f.conn.finSent = true →
    R f (f.resend (f.conn.reply f.conn.finSeq (FLAG_FIN ||| FLAG_ACK) OUR_WINDOW [] []))
  touch (now : Nat) (f : Flow) :
    R f (f.update fun c => { c with unacked := c.unacked.map fun o => { o with lastSent := now } })

theorem reply_no_fin {c : TcpConn} {seq : U32} {flags : U8} {window : U16} {options payload : List U8}
    (h : (flags &&& FLAG_FIN != 0) = false) : (c.reply seq flags window options payload).has FLAG_FIN = false := h

theorem nextTake_le (c) : nextTake c ≤ c.pending.length := by
  unfold nextTake
  dsimp only
  split
  · exact Nat.min_le_left _ _
  · exact Nat.zero_le _

section

variable {R : Flow → Flow → Prop} [Follows R] {f : Flow}

theorem Follows.also {g k} (h : R f g) (hcore : k.core = g.core) : R f k := trans_of R h (aside hcore)

theorem sendAck_follows (f : Flow) : R f (sendAck f) := Follows.emit rfl rfl (reply_no_fin (by decide))

theorem reset_follows (seq : U32) (f : Flow) : R f (f.emit (f.conn.reply seq (FLAG_RST ||| FLAG_ACK) 0 [] [])) :=
  Follows.emit rfl rfl (reply_no_fin (by decide))

theorem refused_follows {segment out} (hout : acceptPayload segment f = .error out) : R f out := by
  unfold acceptPayload at hout
  split at hout
  · cases hout
  split at hout
  · split at hout
    · cases hout
    · cases hout
    · cases hout
      exact Follows.aside rfl
  · cases hout

theorem finishSegment_follows (f ackNeeded) : R f (finishSegment f ackNeeded) := by
  have hack : R f (if ackNeeded then ackGuest f else f) := by
    split
    · have hmark : R f (f.update fun c => { c with guestFinAcked := c.guestFinAcked || c.guestFin }) :=
        Follows.aside rfl
      exact trans_of R hmark (sendAck_follows _)
    · exact refl f
  exact Follows.also hack rfl

theorem sendRounds_follows (now rounds f) : R f (sendRounds now rounds f) := by
  induction rounds generalizing f with
  | zero => exact refl f
  | succ rounds ih =>
    unfold sendRounds
    dsimp only
    split
    · exact refl f
    · rename_i htake
      exact trans_of R (Follows.send now (Nat.pos_of_ne_zero htake) (nextTake_le f.conn)) (ih _)

theorem resendAll_follows (queue f) (h : queue ⊆ f.conn.unacked) : R f (resendAll f queue) := by
  induction queue generalizing f with
  | nil => exact refl f
  | cons o rest ih =>
    obtain ⟨ho, hrest⟩ := List.cons_subset.mp h
    exact trans_of R (Follows.resend ho) (ih _ hrest)

variable (now : Nat)

theorem retransmitDue_follows (f) : R f (retransmitDue now f) := by
  have hbump : R f (f.update bumpRetransmits) := Follows.aside rfl
  unfold retransmitDue
  dsimp only
  split
  · exact Follows.also (trans_of R hbump (reset_follows _ _)) rfl
  split
  · have hall := trans_of R hbump (resendAll_follows _ _ (List.Subset.refl _))
    exact Follows.also (trans_of R hall (Follows.touch now _)) rfl
  split
  · rename_i hfin
    exact Follows.also (trans_of R hbump (Follows.resendFin hfin.1)) rfl
  · exact Follows.also hbump rfl

theorem retransmit_follows (f) : R f (retransmit now f) := by
  unfold retransmit
  split
  · exact refl f
  split
  · exact refl f
  · exact retransmitDue_follows now f

theorem teardown_follows (f) : R f (teardown now f) := by
  unfold teardown
  split
  · exact Follows.aside rfl
  split
  · dsimp only
    split <;> exact Follows.aside rfl
  · exact refl f

theorem unlessClosed_follows {g} (hg : f.conn.closed = false → R f (g f)) : R f (unlessClosed g f) := by
  unfold unlessClosed
  split
  · exact refl f
  · rename_i hopen
    exact hg (by simpa using hopen)

end

/-- The core without the guest's side. -/
def Flow.ours (f : Flow) : TcpConn × List Effect :=
  ({ f.core.1 with guestNext := 0, heldGuest := none, guestTx := ⟨0, false⟩, guestFin := false }, f.effects)

/-- A relation that does not look at what is taken from the guest. -/
class FollowsGuest (R : Flow → Flow → Prop) : Prop extends Follows R where
  guest {f f' : Flow} : f'.ours = f.ours → R f f'
  handed (bytes : List U8) (f : Flow) : R f (f.note (.handed bytes))
  tookFin (f : Flow) : R f (f.note .tookFin)

section

variable {R : Flow → Flow → Prop} [FollowsGuest R] {f : Flow}

theorem FollowsGuest.also {g k} (h : R f g) (hours : k.ours = g.ours) : R f k := trans_of R h (guest hours)

theorem acceptPayload_follows {segment out} (hout : acceptPayload segment f = .ok out) :
    R f out.1 := by
  unfold acceptPayload at hout
  split at hout
  · cases hout
    exact refl f
  split at hout
  · split at hout
    · cases hout
      exact FollowsGuest.also (FollowsGuest.handed segment.payload f) rfl
    · cases hout
      exact FollowsGuest.guest rfl
    · cases hout
  · cases hout
    exact refl f

theorem acceptFin_follows (segment f ackNeeded) : R f (acceptFin segment f ackNeeded).1 := by
  unfold acceptFin
  split
  · dsimp only
    split
    · exact FollowsGuest.also (FollowsGuest.tookFin f) rfl
    · exact refl f
  · exact refl f

theorem retryHeld_follows (f) : R f (retryHeld f) := by
  unfold retryHeld
  split
  · exact refl f
  rename_i held _
  split
  · have htake : R f (takeHeld held f) := FollowsGuest.also (FollowsGuest.handed held f) rfl
    exact trans_of R htake (sendAck_follows _)
  · exact refl f
  · exact FollowsGuest.guest rfl

end

/-- The core without the host's side and what is sent of it. -/
def Flow.theirs (f : Flow) : TcpConn × List Effect :=
  ({ f.core.1 with
      ourNext := 0, pending := [], unacked := [], hostRx := ⟨[], false⟩, finSent := false, finSeq := 0
      hostEof := false }, f.effects)

/-- A relation that does not look at what comes from the host. -/
class FollowsHost (R : Flow → Flow → Prop) : Prop extends Follows R where
  host {f f' : Flow} : f'.theirs = f.theirs → R f f'
  announce {f : Flow} {segment : Segment} : segment.ack = f.conn.guestNext → R f (f.emit segment)
  received (bytes : List U8) (f : Flow) : R f (f.note (.received bytes))
  hostClosed (f : Flow) : R f (f.note .hostClosed)

section

variable {R : Flow → Flow → Prop} [FollowsHost R] {f : Flow}

theorem FollowsHost.also {g k} (h : R f g) (htheirs : k.theirs = g.theirs) : R f k :=
  trans_of R h (host htheirs)

variable (now : Nat)

theorem handleHostEvent_follows (event f) : R f (handleHostEvent now event f) := by
  cases event with
  | connected =>
    unfold handleHostEvent
    dsimp only
    split
    · exact FollowsHost.also (FollowsHost.announce rfl) rfl
    · exact refl f
  | connectFailed message => exact Follows.also (reset_follows _ f) rfl
  | data bytes => exact FollowsHost.also (FollowsHost.received bytes f) rfl
  | eof => exact FollowsHost.also (FollowsHost.hostClosed f) rfl

theorem drainEvents_follows (events) (f : Flow) : R f (drainEvents now events f) := by
  induction events generalizing f with
  | nil =>
    unfold drainEvents
    split
    · exact FollowsHost.host rfl
    · dsimp only
      split
      · exact FollowsHost.also (FollowsHost.hostClosed f) rfl
      · exact FollowsHost.host rfl
  | cons event rest ih =>
    unfold drainEvents
    split
    · exact FollowsHost.host rfl
    · exact trans_of R (handleHostEvent_follows now event f) (ih _)

theorem maybeSendFin_follows (f) : R f (maybeSendFin now f) := by
  unfold maybeSendFin
  split
  · exact FollowsHost.also (FollowsHost.announce rfl) rfl
  · exact refl f

end

end Rish.SoftVm.Net
