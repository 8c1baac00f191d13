/-
  Rish.Agent.Execution — one supervised process and what a poll of it does.

  A poll looks at the timers, flushes stdin, asks for the exit, reads each channel once or closes it after the drain
  period, asks for the exit again and reports it once every channel is gone. The three optional outputs of the source
  are one function of the channel; stdin is whether it is attached, since only a failed flush matters here; signals
  to the process are the environment's.
-/

import Rish.Agent.Streams

namespace Rish.Agent

open Lib Protocol

/-! Instants and durations are in nanoseconds. -/

def CANCEL_GRACE_PERIOD : Nat := 250 * 1000000
def POST_EXIT_DRAIN_GRACE_PERIOD : Nat := 250 * 1000000
def SIGKILL_NUMBER : Int := 9

structure ExitStatus where
  code : Option (BitVec 32)
  signal : Option (BitVec 32)
  deriving DecidableEq, Repr

structure Execution where
  requestId : RequestId
  executionId : String
  pid : U32
  stdin : Bool
  output : StreamChannel → Option OutputPipe
  deadline : Option Nat
  forceKillAt : Option Nat
  terminationRequested : Bool
  status : Option ExitStatus
  groupCleanupSent : Bool
  drainDeadline : Option Nat

inductive WaitAnswer where
  | running
  | exited (status : ExitStatus)
  | failed
  deriving DecidableEq, Repr

/-- What the operating system answers during one poll. The exit is asked for twice, each time with the clock. -/
structure Poll where
  now : Nat
  flushFails : Bool
  wait : WaitAnswer × Nat
  read : StreamChannel → ReadAnswer
  waitAgain : WaitAnswer × Nat

def due (time : Option Nat) (now : Nat) : Bool := time.any (· ≤ now)

namespace Execution

variable (e : Execution)

def setOutput (channel : StreamChannel) (output : Option OutputPipe) : Execution :=
  { e with output := fun c => if c = channel then output else e.output c }

def forceKill : Execution :=
  { e with stdin := false, terminationRequested := true, deadline := none, forceKillAt := none }

def requestCancel (signal : Int) (now : Nat) : Execution :=
  if e.status.isSome then e
  else
    { e with
      stdin := false, terminationRequested := true, deadline := none
      forceKillAt := if signal ≠ SIGKILL_NUMBER then some (now + CANCEL_GRACE_PERIOD) else none }

def observeChildExit (answer : WaitAnswer × Nat) : Execution :=
  if e.status.isSome then e
  else
    match answer.1 with
    | .running => e
    | .failed => e.forceKill
    | .exited status =>
      { e with
        status := some status, stdin := false, groupCleanupSent := true
        drainDeadline := some (answer.2 + POST_EXIT_DRAIN_GRACE_PERIOD) }

/-- The timers, stdin and the exit, before any output. -/
def prepare (poll : Poll) : Execution :=
  let e := if !e.terminationRequested && due e.deadline poll.now then e.forceKill else e
  let e := if due e.forceKillAt poll.now then e.forceKill else e
  let e := if e.stdin && poll.flushFails then e.forceKill else e
  e.observeChildExit poll.wait

def CHANNELS : List StreamChannel := [.stdout, .stderr, .console]

variable (encodeBase64 : List U8 → String)

def closeOutputs (e : Execution) : List StreamChannel → List EventKind × Execution
  | [] => ([], e)
  | channel :: rest =>
    let closed := closeOutput encodeBase64 e.executionId channel (e.output channel)
    let after := closeOutputs (e.setOutput channel closed.1) rest
    (closed.2.toList ++ after.1, after.2)

/-- Each channel read once; whether one of them faulted. -/
def pollOutputs (e : Execution) (chunkSize : Nat) (read : StreamChannel → ReadAnswer) :
    List StreamChannel → List EventKind × Bool × Execution
  | [] => ([], false, e)
  | channel :: rest =>
    let polled := pollOutput encodeBase64 e.executionId channel (e.output channel) chunkSize (read channel)
    let after := pollOutputs (e.setOutput channel polled.1) chunkSize read rest
    (polled.2.event.toList ++ after.1, polled.2.fault || after.2.1, after.2.2)

def outputs (e : Execution) (chunkSize : Nat) (poll : Poll) : List EventKind × Execution :=
  if due e.drainDeadline poll.now then e.closeOutputs encodeBase64 CHANNELS
  else
    let polled := e.pollOutputs encodeBase64 chunkSize poll.read CHANNELS
    (polled.1, if polled.2.1 then polled.2.2.forceKill else polled.2.2)

def outputClosed (e : Execution) : Bool := CHANNELS.all fun channel => (e.output channel).isNone

def exitEvent (e : Execution) : Option EventKind :=
  match e.status with
  | some status => if e.outputClosed then some (.processExited e.executionId status.code status.signal) else none
  | none => none

/-- The events of a poll, whether the execution is finished, and what it is then. -/
def tick (e : Execution) (chunkSize : Nat) (poll : Poll) : List EventKind × Bool × Execution :=
  let sent := (e.prepare poll).outputs encodeBase64 chunkSize poll
  let after := sent.2.observeChildExit poll.waitAgain
  (sent.1 ++ after.exitEvent.toList, after.exitEvent.isSome, after)

end Execution

end Rish.Agent
