/-
  Rish.Protocol.Model — the messages host and guest exchange.

  The parts the host session reads are written out. The operations, results and events it only
  passes on are one constructor each that keeps the kind's wire name.
-/

import Rish.Lib.Bytes

namespace Rish.Protocol

open Lib

/-- Stable protocol discriminator carried in every envelope. -/
def PROTOCOL_ID : String := "dev.rish.guest"

/-- Default upper bound for one payload, excluding its four-byte prefix. -/
def DEFAULT_MAX_FRAME_SIZE : Nat := 8 * 1024 * 1024

structure ProtocolVersion where
  major : U16
  minor : U16
  deriving DecidableEq, Repr

def CURRENT_PROTOCOL_VERSION : ProtocolVersion := ⟨1, 0⟩

inductive IdentifierError where
  | empty
  | tooLong (length max : Nat)
  | invalidCharacter
  deriving DecidableEq, Repr

def IdentifierError.text : IdentifierError → String
  | .empty => "request ID cannot be empty"
  | .tooLong length max => "request ID length " ++ toString length ++ " exceeds limit " ++ toString max
  | .invalidCharacter => "request ID contains an invalid character"

structure RequestId where
  raw : String
  deriving DecidableEq, Repr

def RequestId.MAX_LEN : Nat := 128

def RequestId.new (value : String) : Except IdentifierError RequestId :=
  if value.isEmpty then .error .empty
  else if value.utf8ByteSize > MAX_LEN then .error (.tooLong value.utf8ByteSize MAX_LEN)
  else if value.toList.all fun c => c.isAlphanum || c ∈ ['-', '_', '.', ':'] then .ok ⟨value⟩
  else .error .invalidCharacter

inductive ErrorCode where
  | versionMismatch | invalidRequest | unsupportedOperation | capabilityUnavailable | notFound | alreadyExists
  | permissionDenied | resourceExhausted | deadlineExceeded | cancelled | io | oci | runtime | internal
  deriving DecidableEq, Repr

/-- The `Debug` name, which the session puts into its own errors. -/
def ErrorCode.debug : ErrorCode → String
  | .versionMismatch => "VersionMismatch"
  | .invalidRequest => "InvalidRequest"
  | .unsupportedOperation => "UnsupportedOperation"
  | .capabilityUnavailable => "CapabilityUnavailable"
  | .notFound => "NotFound"
  | .alreadyExists => "AlreadyExists"
  | .permissionDenied => "PermissionDenied"
  | .resourceExhausted => "ResourceExhausted"
  | .deadlineExceeded => "DeadlineExceeded"
  | .cancelled => "Cancelled"
  | .io => "Io"
  | .oci => "Oci"
  | .runtime => "Runtime"
  | .internal => "Internal"

structure RemoteError where
  code : ErrorCode
  message : String
  deriving DecidableEq, Repr

/-- `{} ({:?})` of the message and the code. -/
def RemoteError.text (e : RemoteError) : String := e.message ++ " (" ++ e.code.debug ++ ")"

/-! ## Handshake -/

structure GuestLimits where
  maxFrameSize : U32
  deriving DecidableEq, Repr

inductive HandshakeOutcome where
  | accepted (selectedVersion : ProtocolVersion) (sessionId : String) (limits : GuestLimits)
  | rejected (error : RemoteError)
  deriving DecidableEq, Repr

structure HelloAck where
  requestId : RequestId
  outcome : HandshakeOutcome
  deriving DecidableEq, Repr

structure Hello where
  requestId : RequestId
  supportedVersions : List ProtocolVersion
  maxFrameSize : U32
  deriving DecidableEq, Repr

/-! ## Requests and responses -/

structure ExecRequest where
  argv : List String
  env : List (String × String)
  cwd : Option String
  tty : Bool
  attachStdin : Bool
  attachStdout : Bool
  attachStderr : Bool
  timeoutMs : Option U64
  deriving DecidableEq, Repr

inductive StreamAction where
  | writeStdin (dataBase64 : String)
  | closeStdin
  | resizeTty (rows columns : U16)
  deriving DecidableEq, Repr

structure StreamRequest where
  executionId : String
  action : StreamAction
  deriving DecidableEq, Repr

inductive Operation where
  | exec (request : ExecRequest)
  | stream (request : StreamRequest)
  | other (operation : String)
  deriving DecidableEq, Repr

structure Request where
  id : RequestId
  operation : Operation
  deriving DecidableEq, Repr

inductive ResponsePayload where
  | execStarted (executionId : String) (pid : U32)
  | streamAccepted (executionId : String)
  | other (resultType : String)
  deriving DecidableEq, Repr

inductive ResponseOutcome where
  | success (result : ResponsePayload)
  | error (error : RemoteError)
  deriving DecidableEq, Repr

structure Response where
  id : RequestId
  outcome : ResponseOutcome
  deriving DecidableEq, Repr

/-! ## Events -/

inductive StreamChannel where
  | stdout | stderr | console
  deriving DecidableEq, Repr

inductive EventKind where
  | stream (executionId : String) (channel : StreamChannel) (streamSequence : U64) (dataBase64 : String) (eof : Bool)
  | processExited (executionId : String) (exitCode signal : Option (BitVec 32))
  | other (eventType : String)
  deriving DecidableEq, Repr

structure Event where
  /-- monotonically increasing within a negotiated session -/
  sequence : U64
  timestampMs : U64
  requestId : Option RequestId
  event : EventKind
  deriving DecidableEq, Repr

inductive Message where
  | hello (hello : Hello)
  | helloAck (ack : HelloAck)
  | request (request : Request)
  | response (response : Response)
  | event (event : Event)
  deriving DecidableEq, Repr

structure Envelope where
  protocol : String
  version : ProtocolVersion
  message : Message
  deriving DecidableEq, Repr

def Envelope.withVersion (version : ProtocolVersion) (message : Message) : Envelope :=
  ⟨PROTOCOL_ID, version, message⟩

end Rish.Protocol
