/-
  Rish.Agent.Streams — the output channels of a supervised process.

  A channel reads its pipe in bounded pieces and sends each as a numbered event, up to a limit. It ends with an event
  that is marked, at the end of the pipe, past the limit, on a read error or when it is closed. The operating system
  decides how much a read call returns and whether it fails; the bytes are those in the pipe, in order.
-/

import Rish.Lib.Pieces
import Rish.Protocol.Model

namespace Rish.Agent

open Lib Protocol

/-! ## Pipes -/

/-- The read end of a pipe. -/
structure Pipe where
  buffered : List U8
  /-- no writer is left -/
  closed : Bool

/-- What becomes of a read call. -/
inductive ReadAnswer where
  /-- it succeeds, with so many bytes at most of those that are there -/
  | upTo (n : Nat)
  | interrupted
  /-- `EIO`, which a PTY gives at its end -/
  | eio
  | failed
  deriving DecidableEq, Repr

inductive ReadResult where
  | ok (data : List U8)
  | wouldBlock
  | interrupted
  | eio
  | failed
  deriving DecidableEq, Repr

namespace Pipe

def read (p : Pipe) (answer : ReadAnswer) (limit : Nat) : ReadResult × Pipe :=
  match answer with
  | .interrupted => (.interrupted, p)
  | .eio => (.eio, p)
  | .failed => (.failed, p)
  | .upTo n =>
    if p.buffered = [] then (if p.closed then .ok [] else .wouldBlock, p)
    else
      let count := min (max n 1) limit
      (.ok (p.buffered.take count), { p with buffered := p.buffered.drop count })

/-- Bytes of a writer; without a reader or after the last writer there are none. -/
def write (p : Pipe) (bytes : List U8) : Pipe := if p.closed then p else { p with buffered := p.buffered ++ bytes }

end Pipe

/-! ## Channels -/

def MAX_U64 : Nat := 2 ^ 64 - 1

def saturatingAdd (a b : Nat) : Nat := min (a + b) MAX_U64

structure OutputPipe where
  reader : Pipe
  sequence : Nat
  sent : Nat
  limit : Nat
  ptyEioIsEof : Bool

namespace OutputPipe

def new (reader : Pipe) (limit : Nat) : OutputPipe := ⟨reader, 0, 0, limit, false⟩

def pty (reader : Pipe) (limit : Nat) : OutputPipe := ⟨reader, 0, 0, limit, true⟩

end OutputPipe

structure OutputPoll where
  event : Option EventKind
  fault : Bool

section

variable (encodeBase64 : List U8 → String) (executionId : String) (channel : StreamChannel)

def streamEvent (sequence : Nat) (bytes : List U8) (eof : Bool) : EventKind :=
  .stream executionId channel (BitVec.ofNat 64 sequence) (encodeBase64 bytes) eof

variable (pipe : OutputPipe)

/-- The channel is taken away, with its last event. -/
def finishOutput (fault : Bool) : Option OutputPipe × OutputPoll :=
  (none, ⟨some (streamEvent encodeBase64 executionId channel pipe.sequence [] true), fault⟩)

/-- A read of at most a chunk, and of one byte more than the limit has left. -/
def readLimit (chunkSize : Nat) : Nat := max (min chunkSize (pipe.limit - pipe.sent + 1)) 1

/-- What is sent of the bytes of a read; a byte past the limit ends the channel. -/
def sendOutput (reader : Pipe) (data : List U8) : Option OutputPipe × OutputPoll :=
  let retained := min data.length (pipe.limit - pipe.sent)
  let exceeded : Bool := retained < data.length
  let event := streamEvent encodeBase64 executionId channel pipe.sequence (data.take retained) exceeded
  let sent : OutputPipe :=
    { pipe with
      reader := reader, sent := saturatingAdd pipe.sent retained, sequence := saturatingAdd pipe.sequence 1 }
  (if exceeded then none else some sent, ⟨some event, exceeded⟩)

def pollPipe (chunkSize : Nat) (answer : ReadAnswer) : Option OutputPipe × OutputPoll :=
  match pipe.reader.read answer (readLimit pipe chunkSize) with
  | (.ok [], _) => finishOutput encodeBase64 executionId channel pipe false
  | (.ok (b :: data), reader) => sendOutput encodeBase64 executionId channel pipe reader (b :: data)
  | (.wouldBlock, _) => (some pipe, ⟨none, false⟩)
  | (.interrupted, _) => (some pipe, ⟨none, false⟩)
  | (.eio, _) => finishOutput encodeBase64 executionId channel pipe (!pipe.ptyEioIsEof)
  | (.failed, _) => finishOutput encodeBase64 executionId channel pipe true

def pollOutput (output : Option OutputPipe) (chunkSize : Nat) (answer : ReadAnswer) : Option OutputPipe × OutputPoll :=
  match output with
  | none => (none, ⟨none, false⟩)
  | some pipe => pollPipe encodeBase64 executionId channel pipe chunkSize answer

def closeOutput (output : Option OutputPipe) : Option OutputPipe × Option EventKind :=
  (none, output.map fun pipe => streamEvent encodeBase64 executionId channel pipe.sequence [] true)

end

end Rish.Agent
