/-
  Rish.Protocol.Session — the host's session state machine.

  The transport, the sources of interactive input and the output observer are outside this code.
  `Host` gives what the first two answer in each state of the world outside; the calls of the
  observer are kept in the order made. The session's state also keeps what passed between the
  transport, the decoder and the host (`Traffic`), which no function reads.
-/

import Rish.Protocol.Framing

namespace Rish.Protocol

open Lib
open Exec (update fail view lift)

def MAX_EXEC_STREAM_BYTES : Nat := 64 * 1024 * 1024
/-- Absolute frame count cap for one exchange. -/
def MAX_FRAMES_PER_EXCHANGE : Nat := 100000

/-- The transport (`write`, `advance`, `droppedOutput`) and the sources of interactive input, which
    `κ` names. -/
structure Host (τ κ : Type) where
  /-- how many bytes were accepted -/
  write : List U8 → τ → Nat × τ
  /-- runs the guest for one bounded step and gives the bytes it sent -/
  advance : τ → Except String (List U8) × τ
  droppedOutput : τ → U64 × τ
  takePending : κ → τ → Option (List U8) × τ
  closeRequested : κ → τ → Bool × τ

/-- The serialisers, by what they answer. -/
structure Codecs where
  json : Json
  encodeBase64 : List U8 → String
  decodeBase64 : String → Except String (List U8)

structure NegotiatedSession where
  sessionId : String
  version : ProtocolVersion
  maxFrameSize : U32
  deriving DecidableEq, Repr

inductive SessionError where
  | frame (error : FrameError)
  | advance (message : String)
  | deadline (advances : Nat)
  | droppedBytes
  | tooManyFrames
  | missingResponse
  | unexpectedResponse
  | guestRejected (message : String)
  | stream (message : String)
  | streamCap
  | notNegotiated
  | invalidBudget
  deriving DecidableEq, Repr

structure ExecOutcome where
  exitCode : Option (BitVec 32)
  signal : Option (BitVec 32)
  stdout : List U8
  stderr : List U8
  deriving DecidableEq, Repr

/-- One request with the response to it and the events observed while waiting. -/
structure Exchange where
  response : Response
  events : List Event
  deriving DecidableEq, Repr

structure InteractiveStdin (κ : Type) where
  executionId : String
  source : κ
  closed : Bool

structure SessionClient (κ : Type) where
  encoder : FrameEncoder
  decoder : FrameDecoder
  negotiated : Option NegotiatedSession
  nextRequestId : U64
  maxAdvancesPerRequest : U64
  interactive : Option (InteractiveStdin κ)

/-- What an execution has gathered so far, and the calls of the output observer. -/
structure Capture where
  stdout : List U8
  stderr : List U8
  exited : Option (Option (BitVec 32) × Option (BitVec 32))
  observed : List (StreamChannel × List U8)
  deriving DecidableEq, Repr

/-- What an `advance` is made for: the rest of a frame is waiting to be written, or frames are awaited. -/
inductive Purpose where
  | writing
  | reading
  deriving DecidableEq, Repr

inductive Traffic where
  | returned (purpose : Purpose) (bytes : List U8)
  /-- a drop was reported right after the step that returned these bytes -/
  | discarded (bytes : List U8)
  /-- bytes that the decoder took -/
  | pushed (bytes : List U8)
  /-- bytes that the decoder refused: it is poisoned, or they do not fit its buffer -/
  | refused (bytes : List U8)
  | decoded (envelope : Envelope)
  /-- a message of the host, written as a whole -/
  | sent (envelope : Envelope)
  deriving DecidableEq, Repr

/-- What became of bytes offered to the decoder. -/
def Traffic.offered (bytes : List U8) : Outcome SessionError Unit → Traffic
  | .ok _ => .pushed bytes
  | _ => .refused bytes

structure Session (τ κ : Type) where
  client : SessionClient κ
  world : τ
  capture : Capture
  traffic : List Traffic

abbrev SessionM (τ κ : Type) := Exec (Session τ κ) SessionError

def SessionClient.new {κ : Type} (maxAdvancesPerRequest : U64) : Outcome SessionError (SessionClient κ) := do
  if maxAdvancesPerRequest = 0 then .err .invalidBudget
  else
    let encoder ← (FrameEncoder.new DEFAULT_MAX_FRAME_SIZE).mapErr .frame
    let decoder ← (FrameDecoder.new DEFAULT_MAX_FRAME_SIZE).mapErr .frame
    return ⟨encoder, decoder, none, 1, maxAdvancesPerRequest, none⟩

/-! ## What the session reads off a message -/

def Envelope.isHelloAck (envelope : Envelope) : Bool :=
  match envelope.message with
  | .helloAck _ => true
  | _ => false

def Envelope.responseTo (id : RequestId) (envelope : Envelope) : Option Response :=
  match envelope.message with
  | .response response => if response.id = id then some response else none
  | _ => none

def Envelope.event? (envelope : Envelope) : Option Event :=
  match envelope.message with
  | .event event => some event
  | _ => none

variable (executionId : String)

def EventKind.exitOf (kind : EventKind) : Bool :=
  match kind with
  | .processExited candidate _ _ => candidate = executionId
  | _ => false

def EventKind.concerns (kind : EventKind) : Bool :=
  match kind with
  | .stream candidate _ _ _ _ => candidate = executionId
  | .processExited candidate _ _ => candidate = executionId
  | .other _ => false

def Envelope.isExitOf (envelope : Envelope) : Bool :=
  match envelope.message with
  | .event event => event.event.exitOf executionId
  | _ => false

/-! ## Gathering output -/

def Capture.empty : Capture := ⟨[], [], none, []⟩

/-- The stream a channel is gathered into: the console is part of the standard output. -/
def Capture.target (capture : Capture) (channel : StreamChannel) : List U8 :=
  match channel with
  | .stdout | .console => capture.stdout
  | .stderr => capture.stderr

/-- The bytes go to the stream of their channel, and to the output observer. -/
def Capture.append (capture : Capture) (channel : StreamChannel) (bytes : List U8) : Capture :=
  match channel with
  | .stdout | .console =>
    { capture with stdout := capture.stdout ++ bytes, observed := capture.observed ++ [(channel, bytes)] }
  | .stderr => { capture with stderr := capture.stderr ++ bytes, observed := capture.observed ++ [(channel, bytes)] }

namespace Session

variable {τ κ : Type}

/-! ## Calls on the parts -/

def note (entry : Traffic) : SessionM τ κ Unit := update fun s => { s with traffic := s.traffic ++ [entry] }

def updateClient (f : SessionClient κ → SessionClient κ) : SessionM τ κ Unit :=
  update fun s => { s with client := f s.client }

def updateCapture (f : Capture → Capture) : SessionM τ κ Unit :=
  update fun s => { s with capture := f s.capture }

/-- A question to the world outside, which may change it. -/
def ask {α : Type} (question : τ → α × τ) : SessionM τ κ α := fun s =>
  ⟨.ok (question s.world).1, { s with world := (question s.world).2 }, 0⟩

def onDecoder {α : Type} (x : DecoderM α) : SessionM τ κ α :=
  (x.mapErr .frame).zoom (·.client.decoder) fun s d => { s with client := { s.client with decoder := d } }

def liftExcept {ε α : Type} (f : ε → SessionError) : Except ε α → SessionM τ κ α
  | .ok a => return a
  | .error e => fail (f e)

variable (host : Host τ κ) (codecs : Codecs)

def advance (purpose : Purpose) : SessionM τ κ (List U8) := do
  let bytes ← liftExcept .advance (← ask host.advance)
  note (.returned purpose bytes)
  return bytes

def push (bytes : List U8) : SessionM τ κ Unit := do
  let taken ← Exec.attempt (onDecoder (FrameDecoder.push bytes))
  note (.offered bytes taken)
  lift taken

/-- Fails when the guest lost output since the exchange began; `bytes` are in hand. -/
def checkDropped (initialDropped : U64) (bytes : List U8) : SessionM τ κ Unit := do
  let dropped ← ask host.droppedOutput
  if dropped ≠ initialDropped then
    note (.discarded bytes)
    fail .droppedBytes
  else return ()

/-! ## Writing -/

/-- Writes what is left of a frame behind `offset`, with at most `budget` more advances. -/
def writeFrom (frame : List U8) (maxAdvances : Nat) : Nat → Nat → SessionM τ κ Unit
  | budget, offset =>
    if offset < frame.length then do
      let accepted ← ask (host.write (frame.drop offset))
      if offset + accepted < frame.length then
        match budget with
        | 0 => fail (.deadline maxAdvances)
        | budget + 1 => do
          -- the bytes the guest sent during this step go nowhere
          let _ ← advance host .writing
          writeFrom frame maxAdvances budget (offset + accepted)
      else return ()
    else return ()

def writeFrame (envelope : Envelope) (maxAdvances : Nat) : SessionM τ κ Unit := do
  let encoder ← view (·.client.encoder)
  let frame ← lift ((encoder.encode codecs.json envelope).mapErr .frame)
  writeFrom host frame maxAdvances maxAdvances 0
  note (.sent envelope)

/-- The next request id; ids count up and saturate. -/
def takeRequestId : SessionM τ κ RequestId := do
  let n ← view (·.client.nextRequestId)
  let id ← liftExcept (fun error => .stream error.text) (RequestId.new ("vm-req-" ++ toString n.toNat))
  updateClient fun c => { c with nextRequestId := if n = BitVec.allOnes 64 then n else n + 1 }
  return id

variable (executionId : String)

def writeStreamAction (action : StreamAction) (version : ProtocolVersion) : SessionM τ κ Unit := do
  let id ← takeRequestId
  let budget ← view (·.client.maxAdvancesPerRequest)
  writeFrame host codecs (.withVersion version (.request ⟨id, .stream ⟨executionId, action⟩⟩)) budget.toNat

def requireNegotiated : SessionM τ κ NegotiatedSession := do
  match ← view (·.client.negotiated) with
  | none => fail .notNegotiated
  | some session => return session

def writePending (version : ProtocolVersion) (pending : Option (List U8)) : SessionM τ κ Unit :=
  match pending with
  | none => return ()
  | some bytes => writeStreamAction host codecs executionId (.writeStdin (codecs.encodeBase64 bytes)) version

def closeInteractive (version : ProtocolVersion) : SessionM τ κ Unit := do
  writeStreamAction host codecs executionId .closeStdin version
  updateClient fun c => { c with interactive := c.interactive.map fun i => { i with closed := true } }

def writeInteractive (stdin : InteractiveStdin κ) : SessionM τ κ Unit := do
  let pending ← ask (host.takePending stdin.source)
  let close ← ask (host.closeRequested stdin.source)
  if pending.isNone ∧ !close then return ()
  else
    let session ← requireNegotiated
    writePending host codecs stdin.executionId session.version pending
    Exec.when close (closeInteractive host codecs stdin.executionId session.version)

/-- Writes whatever the host has queued for the running command. The reply is left to the pump. -/
def writePendingStdin : SessionM τ κ Unit := do
  match ← view (·.client.interactive) with
  | none => return ()
  | some stdin => if stdin.closed then return () else writeInteractive host codecs stdin

/-! ## Reading -/

def nextFrame : SessionM τ κ (Option Envelope) := do
  match ← onDecoder (FrameDecoder.nextFrame codecs.json) with
  | none => return none
  | some frame =>
    note (.decoded frame)
    return some frame

/-- Every complete frame, shown to the observer and collected. A frame has at least four bytes, so
    the buffered length bounds the rounds. -/
def drainFrames (observer : Envelope → SessionM τ κ Unit) : Nat → List Envelope → SessionM τ κ (List Envelope)
  | 0, collected => return collected
  | rounds + 1, collected => do
    match ← nextFrame codecs with
    | none => return collected
    | some frame =>
      if MAX_FRAMES_PER_EXCHANGE ≤ collected.length then fail .tooManyFrames
      else
        observer frame
        drainFrames observer rounds (collected ++ [frame])

def takeIn (observer : Envelope → SessionM τ κ Unit) (bytes : List U8) (collected : List Envelope) :
    SessionM τ κ (List Envelope) := do
  if bytes = [] then return collected
  else
    push bytes
    let buffered ← view (·.client.decoder.bufferedLen)
    drainFrames codecs observer (buffered + 1) collected

/-- One step of the guest, and what it sent taken in. -/
def receive (observer : Envelope → SessionM τ κ Unit) (initialDropped : U64) (collected : List Envelope) :
    SessionM τ κ (List Envelope) := do
  let bytes ← advance host .reading
  checkDropped host initialDropped bytes
  takeIn codecs observer bytes collected

/-- Advances the guest until a frame that ends the exchange has arrived, at most `budget` times. -/
def pumpFrom (maxAdvances : Nat) (done : Envelope → Bool) (observer : Envelope → SessionM τ κ Unit)
    (initialDropped : U64) : Nat → List Envelope → SessionM τ κ (List Envelope)
  | budget, collected => do
    checkDropped host initialDropped []
    match budget with
    | 0 => fail (.deadline maxAdvances)
    | budget + 1 =>
      writePendingStdin host codecs
      let collected ← receive host codecs observer initialDropped collected
      if MAX_FRAMES_PER_EXCHANGE < collected.length then fail .tooManyFrames
      else if collected.any done then return collected
      else pumpFrom maxAdvances done observer initialDropped budget collected

def pumpObserved (maxAdvances : Nat) (done : Envelope → Bool) (observer : Envelope → SessionM τ κ Unit) :
    SessionM τ κ (List Envelope) := do
  let initialDropped ← ask host.droppedOutput
  pumpFrom host codecs maxAdvances done observer initialDropped maxAdvances []

def pump (maxAdvances : Nat) (done : Envelope → Bool) : SessionM τ κ (List Envelope) :=
  pumpObserved host codecs maxAdvances done fun _ => return ()

/-! ## Exchanges -/

def applyHandshake (ack : Envelope) : SessionM τ κ Unit :=
  match ack.message with
  | .helloAck ⟨_, .accepted selectedVersion sessionId limits⟩ => do
    updateClient fun c => { c with decoder := c.decoder.setExpectedVersion (some selectedVersion) }
    onDecoder (FrameDecoder.setMaxFrameSize limits.maxFrameSize.toNat)
    lift ((validateMaximum limits.maxFrameSize.toNat).mapErr .frame)
    updateClient fun c =>
      { c with
        encoder := ⟨limits.maxFrameSize.toNat⟩
        negotiated := some ⟨sessionId, selectedVersion, limits.maxFrameSize⟩ }
  | _ => return ()

def bootstrap (hello : Envelope) : SessionM τ κ Envelope := do
  let budget ← view (·.client.maxAdvancesPerRequest)
  writeFrame host codecs hello budget.toNat
  let frames ← pump host codecs budget.toNat Envelope.isHelloAck
  match frames.find? Envelope.isHelloAck with
  | none => fail .missingResponse
  | some ack =>
    applyHandshake ack
    return ack

/-- Sends one request and pumps until its response has arrived. -/
def request (operation : Operation) : SessionM τ κ Exchange := do
  let session ← requireNegotiated
  let id ← takeRequestId
  let budget ← view (·.client.maxAdvancesPerRequest)
  writeFrame host codecs (.withVersion session.version (.request ⟨id, operation⟩)) budget.toNat
  let frames ← pump host codecs budget.toNat fun envelope => (envelope.responseTo id).isSome
  match frames.reverse.findSome? (Envelope.responseTo id) with
  | none => fail .missingResponse
  | some response => return ⟨response, frames.filterMap Envelope.event?⟩

/-! ## Executions -/

def observeOnly (observer : Event → SessionM τ κ Unit) (envelope : Envelope) : SessionM τ κ Unit :=
  match envelope.message with
  | .event event => if event.event.concerns executionId then observer event else return ()
  | _ => return ()

variable (events : List Event)

def collectUntilExitObserved (observer : Event → SessionM τ κ Unit) : SessionM τ κ (List Event) := do
  let budget ← view (·.client.maxAdvancesPerRequest)
  let frames ← pumpObserved host codecs budget.toNat (Envelope.isExitOf executionId) (observeOnly executionId observer)
  return events ++ frames.filterMap Envelope.event?

def collectUntilExit : SessionM τ κ (List Event) :=
  collectUntilExitObserved host codecs executionId events fun _ => return ()

def captureStream (channel : StreamChannel) (dataBase64 : String) : SessionM τ κ Unit := do
  let capture ← view (·.capture)
  if capture.exited.isSome then fail (.stream "stream after ProcessExited")
  else
    let bytes ← liftExcept (fun error => .stream ("invalid base64 payload: " ++ error)) (codecs.decodeBase64 dataBase64)
    if MAX_EXEC_STREAM_BYTES < (capture.target channel).length + bytes.length then fail .streamCap
    else updateCapture fun capture => capture.append channel bytes

def captureExit (exitCode signal : Option (BitVec 32)) : SessionM τ κ Unit := do
  let capture ← view (·.capture)
  if capture.exited.isSome then fail (.stream "guest reported ProcessExited twice")
  else updateCapture fun capture => { capture with exited := some (exitCode, signal) }

/-- One event of an execution; those of others are passed over. -/
def captureEvent (event : Event) : SessionM τ κ Unit :=
  match event.event with
  | .stream candidate channel _ dataBase64 _ =>
    if candidate = executionId then captureStream codecs channel dataBase64 else return ()
  | .processExited candidate exitCode signal =>
    if candidate = executionId then captureExit exitCode signal else return ()
  | .other _ => return ()

def acceptStream (response : Response) (executionId : String) : Outcome SessionError Unit :=
  match response.outcome with
  | .success (.streamAccepted candidate) => if candidate = executionId then .ok () else .err .unexpectedResponse
  | .success _ => .err .unexpectedResponse
  | .error error => .err (.stream error.text)

def streamStdin (stdin : List U8) (events : List Event) : SessionM τ κ (List Event) := do
  let write ← request host codecs (.stream ⟨executionId, .writeStdin (codecs.encodeBase64 stdin)⟩)
  lift (acceptStream write.response executionId)
  let close ← request host codecs (.stream ⟨executionId, .closeStdin⟩)
  lift (acceptStream close.response executionId)
  return events ++ write.events ++ close.events

def startedId (response : Response) : Outcome SessionError String :=
  match response.outcome with
  | .success (.execStarted executionId _) => .ok executionId
  | .success _ => .err .unexpectedResponse
  | .error error => .err (.guestRejected error.text)

def setInteractive (interactive : Option (InteractiveStdin κ)) : SessionM τ κ Unit :=
  updateClient fun c => { c with interactive := interactive }

/-- The input handed over in one buffer, unless the execution is interactive. -/
def feedStdin (attachStdin : Bool) (interactive : Option κ) (executionId : String) (stdin : List U8)
    (events : List Event) : SessionM τ κ (List Event) :=
  if attachStdin ∧ interactive.isNone then streamStdin host codecs executionId stdin events else return events

def finishCapture : SessionM τ κ ExecOutcome := do
  let capture ← view (·.capture)
  match capture.exited with
  | none => fail (.stream "no ProcessExited")
  | some (exitCode, signal) => return ⟨exitCode, signal, capture.stdout, capture.stderr⟩

/-- The output in the events seen so far and, unless the exit is among them, in those up to it. -/
def gather : SessionM τ κ Unit := do
  updateCapture fun _ => .empty
  events.forM (captureEvent codecs executionId)
  Exec.when (¬events.any fun event => event.event.exitOf executionId) (do
    let _ ← collectUntilExitObserved host codecs executionId [] (captureEvent codecs executionId)
    return ())

variable (execRequest : ExecRequest) (stdin : List U8)

/-- The execution from its start on: its input, its output and its exit. -/
def followExecution (interactive : Option κ) (executionId : String)
    (events : List Event) : SessionM τ κ ExecOutcome := do
  -- registered only once the id exists, so the pump addresses the execution it is collecting
  Exec.when interactive.isSome (setInteractive (interactive.map fun source => ⟨executionId, source, false⟩))
  let events ← feedStdin host codecs execRequest.attachStdin interactive executionId stdin events
  gather host codecs executionId events
  setInteractive none
  finishCapture

def executeWithStdin (interactive : Option κ) : SessionM τ κ ExecOutcome := do
  setInteractive none
  let exchange ← request host codecs (.exec execRequest)
  let executionId ← lift (startedId exchange.response)
  followExecution host codecs execRequest stdin interactive executionId exchange.events

def executeObserved : SessionM τ κ ExecOutcome :=
  executeWithStdin host codecs execRequest stdin none

def executeInteractive (source : κ) : SessionM τ κ ExecOutcome :=
  executeWithStdin host codecs execRequest [] (some source)

def execute (argv : List String) (env : List (String × String)) (cwd : Option String) (stdin : List U8) :
    SessionM τ κ ExecOutcome :=
  executeObserved host codecs ⟨argv, env, cwd, false, !stdin.isEmpty, true, true, none⟩ stdin

end Session

end Rish.Protocol
