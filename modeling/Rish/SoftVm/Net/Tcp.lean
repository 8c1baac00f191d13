/-
  Rish.SoftVm.Net.Tcp — TCP termination: the connections the guest opens, bridged to host sockets.

  Sequence numbers are 32-bit words. A connection's host thread is at the other end of two bounded
  channels: one takes guest payloads, the other holds the thread's events. Every function runs over a
  `Flow`: the connection, the shared packet identification and counters, and a record of what was done,
  in order. The record is read by no modelled function.
-/

import Rish.Lib.Bytes

namespace Rish.SoftVm.Net

open Lib
open BitVec (ofNat)

/-! ## Segments -/

def FLAG_FIN : U8 := 0x01
def FLAG_SYN : U8 := 0x02
def FLAG_RST : U8 := 0x04
def FLAG_ACK : U8 := 0x10
def OUR_MSS : U16 := 1460

structure Segment where
  sport : U16
  dport : U16
  seq : U32
  ack : U32
  flags : U8
  window : U16
  options : List U8
  payload : List U8
  deriving DecidableEq, Repr

def Segment.has (s : Segment) (flag : U8) : Bool := s.flags &&& flag != 0

def parseMss : Nat → List U8 → Option U16
  | 0, _ => none
  | _, [] => none
  | room + 1, kind :: rest =>
    if kind = 0 then none
    else if kind = 1 then parseMss room rest
    else if kind = 2 then
      match rest with
      | length :: high :: low :: _ => if length = 4 then some (high ++ low) else none
      | _ => none
    else
      let length := (rest.headD 0).toNat
      if length < 2 ∨ rest.length + 1 < length then none else parseMss room (rest.drop (length - 1))

/-- RFC 793 comparisons over the wrapping sequence space. -/
def seqGt (a b : U32) : Bool := 0 < (a - b).toInt
def seqGe (a b : U32) : Bool := 0 ≤ (a - b).toInt
def seqLt (a b : U32) : Bool := (a - b).toInt < 0
def seqLe (a b : U32) : Bool := (a - b).toInt ≤ 0

/-! ## Channels -/

inductive HostEvent where
  | connected
  | connectFailed (message : String)
  | data (bytes : List U8)
  | eof
  deriving DecidableEq, Repr

def CHANNEL_BOUND : Nat := 32

/-- The sending end of the channel to the host thread: how many payloads wait in it. -/
structure GuestChannel where
  queued : Nat
  disconnected : Bool
  deriving DecidableEq, Repr

inductive SendResult where
  | ok
  | full
  | disconnected
  deriving DecidableEq, Repr

def GuestChannel.trySend (c : GuestChannel) : SendResult :=
  if c.disconnected then .disconnected else if c.queued ≥ CHANNEL_BOUND then .full else .ok

structure HostChannel where
  events : List HostEvent
  disconnected : Bool
  deriving DecidableEq, Repr

/-! ## Connections -/

def OUR_WINDOW : U16 := 0xFFFF
/-- Times are milliseconds of the host clock. -/
def RETRANSMIT_TIMEOUT : Nat := 750
def MAX_RETRANSMITS : U32 := 8
def LINGER_TIMEOUT : Nat := 30000
def MAX_UNACKED_SEGMENTS : Nat := 64
def TCP_PENDING_CAP : Nat := 256 * 1024

structure ConnKey where
  localPort : U16
  remoteAddr : U32
  remotePort : U16
  deriving DecidableEq, Repr

/-- One transmitted, not yet acknowledged segment. -/
structure OutSeg where
  seq : U32
  bytes : List U8
  syn : Bool
  lastSent : Nat
  deriving DecidableEq, Repr

/-- The first sequence number behind the segment's payload. -/
def OutSeg.finish (o : OutSeg) : U32 := o.seq + ofNat 32 o.bytes.length

structure TcpConn where
  key : ConnKey
  established : Bool
  guestNext : U32
  guestWindow : U32
  guestMss : U16
  ourIsn : U32
  ourNext : U32
  ourUna : U32
  pending : List U8
  unacked : List OutSeg
  retransmitDeadline : Option Nat
  retransmits : U32
  heldGuest : Option (List U8)
  guestTx : GuestChannel
  hostRx : HostChannel
  finSent : Bool
  finAcked : Bool
  finSeq : U32
  finPending : Bool
  guestFin : Bool
  guestFinAcked : Bool
  hostEof : Bool
  lingerDeadline : Option Nat
  closed : Bool
  deriving DecidableEq, Repr

def TcpConn.open (key : ConnKey) (syn : Segment) (isn : U32) : TcpConn where
  key := key
  established := false
  guestNext := syn.seq + 1
  guestWindow := syn.window.setWidth 32
  guestMss := ofNat 16 (max 1 (min OUR_MSS.toNat ((parseMss (syn.options.length + 1) syn.options).getD 536).toNat))
  ourIsn := isn
  ourNext := isn + 1
  ourUna := isn
  pending := []
  unacked := []
  retransmitDeadline := none
  retransmits := 0
  heldGuest := none
  guestTx := ⟨0, false⟩
  hostRx := ⟨[], false⟩
  finSent := false
  finAcked := false
  finSeq := 0
  finPending := false
  guestFin := false
  guestFinAcked := false
  hostEof := false
  lingerDeadline := none
  closed := false

/-! ## What is done -/

inductive Effect where
  | emitted (identification : U16) (segment : Segment)
  | resent (identification : U16) (segment : Segment)
  /-- the host channel took these guest bytes -/
  | handed (bytes : List U8)
  | tookFin
  /-- an acknowledgement moved the first unacknowledged sequence number -/
  | acknowledged (ack : U32)
  /-- host bytes were queued for the guest -/
  | received (bytes : List U8)
  | hostClosed
  deriving DecidableEq, Repr

structure Counters where
  tcpOpened : U64
  tcpClosed : U64
  tcpResets : U64
  tcpRetransmits : U64
  deriving DecidableEq, Repr

def saturatingSucc (n : U64) : U64 := if n = BitVec.allOnes 64 then n else n + 1

structure Flow where
  conn : TcpConn
  ipId : U16
  counters : Counters
  effects : List Effect
  deriving DecidableEq, Repr

namespace Flow

def update (g : TcpConn → TcpConn) (f : Flow) : Flow := { f with conn := g f.conn }

def note (effect : Effect) (f : Flow) : Flow := { f with effects := f.effects ++ [effect] }

def emit (segment : Segment) (f : Flow) : Flow :=
  { f with ipId := f.ipId + 1, effects := f.effects ++ [.emitted f.ipId segment] }

def resend (segment : Segment) (f : Flow) : Flow :=
  { f with ipId := f.ipId + 1, effects := f.effects ++ [.resent f.ipId segment] }

def countReset (f : Flow) : Flow :=
  { f with counters := { f.counters with tcpResets := saturatingSucc f.counters.tcpResets } }

def countRetransmit (f : Flow) : Flow :=
  { f with counters := { f.counters with tcpRetransmits := saturatingSucc f.counters.tcpRetransmits } }

def close (f : Flow) : Flow := f.update fun c => { c with closed := true }

end Flow

/-- A segment to the guest: it acknowledges what the guest has sent so far. -/
def TcpConn.reply (c : TcpConn) (seq : U32) (flags : U8) (window : U16) (options payload : List U8) : Segment :=
  ⟨c.key.remotePort, c.key.localPort, seq, c.guestNext, flags, window, options, payload⟩

def MSS_OPTION : List U8 := [2, 4, 0x05, 0xB4]

def sendAck (f : Flow) : Flow := f.emit (f.conn.reply f.conn.ourNext FLAG_ACK OUR_WINDOW [] [])

/-! ## Segments of the guest -/

/-- Unacknowledged segments behind an acknowledgement. -/
def popAcked (ack : U32) (unacked : List OutSeg) : List OutSeg := unacked.dropWhile fun front => seqGe ack front.finish

def advanceUna (ack : U32) (f : Flow) : Flow :=
  (f.note (.acknowledged ack)).update fun c =>
    let unacked := popAcked ack c.unacked
    { c with
      unacked := unacked
      ourUna := ack
      retransmits := 0
      retransmitDeadline := if unacked = [] then none else c.retransmitDeadline }

variable (segment : Segment) (f : Flow)

def setGuestWindow : Flow :=
  f.update fun c => { c with guestWindow := segment.window.setWidth 32 }

/-- What an acceptable acknowledgement says about the handshake and about our FIN. -/
def confirm (ack : U32) (f : Flow) : Flow :=
  f.update fun c =>
    { c with
      established := c.established || (ack == c.ourIsn + 1)
      finAcked := c.finAcked || (c.finSent && seqGe ack c.ourNext) }

/-- Only acknowledgements inside `[our_una, our_next]` are acceptable. -/
def acceptAck (ack : U32) (f : Flow) : Flow :=
  if seqGe ack f.conn.ourUna ∧ seqLe ack f.conn.ourNext then
    confirm ack (if seqGt ack f.conn.ourUna then advanceUna ack f else f)
  else f

def acknowledge : Flow :=
  if segment.has FLAG_ACK then acceptAck segment.ack (setGuestWindow segment f) else f

/-- In-order payload goes to the host channel; a full channel holds it, unacknowledged. The flow of a
    disconnected channel is an error: nothing else of the segment is looked at. -/
def acceptPayload : Except Flow (Flow × Bool) :=
  if segment.payload = [] then .ok (f, false)
  else if segment.seq = f.conn.guestNext ∧ f.conn.established ∧ !f.conn.guestFin then
    match f.conn.guestTx.trySend with
    | .ok =>
      .ok ((f.note (.handed segment.payload)).update fun c =>
        { c with
          guestTx := { c.guestTx with queued := c.guestTx.queued + 1 }
          guestNext := c.guestNext + ofNat 32 segment.payload.length }, true)
    | .full => .ok (f.update fun c => { c with heldGuest := some segment.payload }, false)
    | .disconnected => .error f.close.countReset
  else .ok (f, seqLt segment.seq f.conn.guestNext)

/-- The FIN lands behind the payload of its segment. -/
def acceptFin (ackNeeded : Bool) : Flow × Bool :=
  if segment.has FLAG_FIN then
    let finSeq := segment.seq + ofNat 32 segment.payload.length
    if finSeq = f.conn.guestNext then
      ((f.note .tookFin).update fun c => { c with guestNext := c.guestNext + 1, guestFin := true }, true)
    else (f, ackNeeded || seqLt finSeq f.conn.guestNext)
  else (f, ackNeeded)

def ackGuest : Flow :=
  sendAck (f.update fun c => { c with guestFinAcked := c.guestFinAcked || c.guestFin })

/-- An acknowledged FIN of the guest schedules ours. -/
def scheduleFin : Flow :=
  f.update fun c => { c with finPending := c.finPending || (c.guestFin && c.guestFinAcked && !c.finSent) }

def finishSegment (ackNeeded : Bool) : Flow := scheduleFin (if ackNeeded then ackGuest f else f)

def processSegment : Flow :=
  if segment.has FLAG_RST then
    if segment.seq = f.conn.guestNext ∨ segment.seq = f.conn.guestNext - 1 then f.close.countReset else f
  else
    match acceptPayload segment (acknowledge segment f) with
    | .error f => f
    | .ok (f, ackNeeded) =>
      let (f, ackNeeded) := acceptFin segment f ackNeeded
      finishSegment f ackNeeded

/-! ## Polls -/

variable (now : Nat) (f : Flow)

def sendSynAck : Flow :=
  (f.emit (f.conn.reply f.conn.ourIsn (FLAG_SYN ||| FLAG_ACK) OUR_WINDOW MSS_OPTION [])).update fun c =>
    { c with
      unacked := c.unacked ++ [⟨c.ourIsn, [], true, now⟩]
      retransmitDeadline := some (now + RETRANSMIT_TIMEOUT) }

def hostGone : Flow :=
  (f.note .hostClosed).update fun c => { c with hostEof := true, finPending := true }

def handleHostEvent (event : HostEvent) (f : Flow) : Flow :=
  match event with
  | .connected => if !f.conn.established ∧ f.conn.unacked = [] then sendSynAck now f else f
  | .connectFailed _ =>
    let seq := if f.conn.established then f.conn.ourNext else f.conn.ourIsn
    (f.emit (f.conn.reply seq (FLAG_RST ||| FLAG_ACK) 0 [] [])).close.countReset
  | .data bytes => (f.note (.received bytes)).update fun c => { c with pending := c.pending ++ bytes }
  | .eof => hostGone f

/-- Takes events until the pending buffer is at its cap or the channel is empty. -/
def drainEvents (now : Nat) (events : List HostEvent) (f : Flow) : Flow :=
  if f.conn.pending.length ≥ TCP_PENDING_CAP then
    f.update fun c => { c with hostRx := { c.hostRx with events := events } }
  else
    match events with
    | [] =>
      let f := f.update fun c => { c with hostRx := { c.hostRx with events := [] } }
      if f.conn.hostRx.disconnected then hostGone f else f
    | event :: rest => drainEvents now rest (handleHostEvent now event f)

def drainHostEvents : Flow := drainEvents now f.conn.hostRx.events f

/-- The host channel takes the held payload. -/
def takeHeld (held : List U8) (f : Flow) : Flow :=
  (f.note (.handed held)).update fun c =>
    { c with
      heldGuest := none
      guestTx := { c.guestTx with queued := c.guestTx.queued + 1 }
      guestNext := c.guestNext + ofNat 32 held.length }

def retryHeld : Flow :=
  match f.conn.heldGuest with
  | none => f
  | some held =>
    match f.conn.guestTx.trySend with
    | .ok => sendAck (takeHeld held f)
    | .full => f
    | .disconnected => (f.update fun c => { c with heldGuest := none }).close

variable (c : TcpConn)

/-- How many pending bytes the next segment takes; zero stops the loop. -/
def nextTake : Nat :=
  let inFlight := (c.ourNext - c.ourUna).toNat
  if c.unacked.length < MAX_UNACKED_SEGMENTS then
    min c.pending.length (min c.guestMss.toNat (c.guestWindow.toNat - inFlight))
  else 0

def sendChunk (now take : Nat) (f : Flow) : Flow :=
  let bytes := f.conn.pending.take take
  (f.emit (f.conn.reply f.conn.ourNext FLAG_ACK OUR_WINDOW [] bytes)).update fun c =>
    { c with
      pending := c.pending.drop take
      unacked := c.unacked ++ [⟨c.ourNext, bytes, false, now⟩]
      ourNext := c.ourNext + ofNat 32 bytes.length
      retransmitDeadline := some (now + RETRANSMIT_TIMEOUT) }

/-- Each round sends a segment, so the free slots of the retransmission queue bound the rounds. -/
def sendRounds (now : Nat) : Nat → Flow → Flow
  | 0, f => f
  | rounds + 1, f =>
    let take := nextTake f.conn
    if take = 0 then f else sendRounds now rounds (sendChunk now take f)

def sendPending : Flow := sendRounds now MAX_UNACKED_SEGMENTS f

/-- The segments of the retransmission queue once more. -/
def resendAll (f : Flow) : List OutSeg → Flow
  | [] => f
  | o :: rest =>
    resendAll (f.resend (f.conn.reply o.seq (if o.syn then FLAG_SYN ||| FLAG_ACK else FLAG_ACK) OUR_WINDOW
      (if o.syn then MSS_OPTION else []) o.bytes)) rest

def rearm : Flow :=
  (f.update fun c => { c with retransmitDeadline := some (now + RETRANSMIT_TIMEOUT) }).countRetransmit

/-- The retry counter saturates, as a 32-bit word. -/
def bumpRetransmits : TcpConn :=
  { c with retransmits := if c.retransmits = BitVec.allOnes 32 then c.retransmits else c.retransmits + 1 }

def retransmitDue : Flow :=
  let f := f.update bumpRetransmits
  if MAX_RETRANSMITS < f.conn.retransmits then
    (f.emit (f.conn.reply f.conn.ourNext (FLAG_RST ||| FLAG_ACK) 0 [] [])).close.countReset
  else if f.conn.unacked ≠ [] then
    rearm now ((resendAll f f.conn.unacked).update fun c =>
      { c with unacked := c.unacked.map fun o => { o with lastSent := now } })
  else if f.conn.finSent ∧ !f.conn.finAcked then
    rearm now (f.resend (f.conn.reply f.conn.finSeq (FLAG_FIN ||| FLAG_ACK) OUR_WINDOW [] []))
  else f.update fun c => { c with retransmitDeadline := none }

def retransmit : Flow :=
  match f.conn.retransmitDeadline with
  | none => f
  | some deadline => if now < deadline then f else retransmitDue now f

/-- Our FIN waits until everything pending was sent and acknowledged. -/
def finDue : Bool := !c.finSent && c.finPending && c.pending == [] && c.unacked == []

def maybeSendFin : Flow :=
  if finDue f.conn then
    (f.emit (f.conn.reply f.conn.ourNext (FLAG_FIN ||| FLAG_ACK) OUR_WINDOW [] [])).update fun c =>
      { c with
        finSeq := c.ourNext
        ourNext := c.ourNext + 1
        finSent := true
        retransmitDeadline := some (now + RETRANSMIT_TIMEOUT) }
  else f

def unlessClosed (g : Flow → Flow) (f : Flow) : Flow := if f.conn.closed then f else g f

/-- Teardown once both FINs are acknowledged, or after lingering. -/
def teardown : Flow :=
  if f.conn.finSent ∧ f.conn.finAcked ∧ f.conn.guestFin ∧ f.conn.guestFinAcked then f.close
  else if f.conn.finAcked ∧ !f.conn.guestFin then
    let deadline := f.conn.lingerDeadline.getD (now + LINGER_TIMEOUT)
    let f := f.update fun c => { c with lingerDeadline := some deadline }
    if deadline ≤ now then f.close else f
  else f

/-- The poll of one connection up to the decision about our FIN. -/
def pollData : Flow :=
  unlessClosed (retransmit now) (unlessClosed (sendPending now) (unlessClosed retryHeld (drainHostEvents now f)))

def pollConn : Flow :=
  unlessClosed (teardown now) (unlessClosed (maybeSendFin now) (pollData now f))

end Rish.SoftVm.Net
