/-
  Rish.Agent.Supervisor — the table of supervised processes and the requests and polls that change it.

  An entry of the table also has what the statements speak about and the code does not keep: the number of its start,
  the limits it started with, what the process wrote to each channel, and the events sent for it. The same holds for
  the finished executions and for all events ever queued. The operating system's part of a start and of a poll is an
  argument. OCI operations and stdin requests change none of this.
-/

import Mathlib.Data.List.Sort
import Rish.Agent.Execution

namespace Rish.Agent

open Lib Protocol

def ABSOLUTE_MAX_CONCURRENT_EXEC : Nat := 16
def ABSOLUTE_MAX_STREAM_CHUNK_SIZE : Nat := 32 * 1024
def ABSOLUTE_MAX_STREAM_OUTPUT : Nat := 64 * 1024 * 1024

structure NativeExecutionConfig where
  maxConcurrentExec : Nat
  maxStreamChunkSize : Nat
  maxStdoutBytes : Nat
  maxStderrBytes : Nat
  deriving DecidableEq, Repr

namespace NativeExecutionConfig

def invalidConfig (message : String) : Except RemoteError Unit := .error ⟨.invalidRequest, message⟩

def validate (config : NativeExecutionConfig) : Except RemoteError Unit :=
  if ¬(1 ≤ config.maxConcurrentExec ∧ config.maxConcurrentExec ≤ ABSOLUTE_MAX_CONCURRENT_EXEC) then
    invalidConfig ("max_concurrent_exec must be between 1 and " ++ toString ABSOLUTE_MAX_CONCURRENT_EXEC)
  else if ¬(1 ≤ config.maxStreamChunkSize ∧ config.maxStreamChunkSize ≤ ABSOLUTE_MAX_STREAM_CHUNK_SIZE) then
    invalidConfig ("max_stream_chunk_size must be between 1 and " ++ toString ABSOLUTE_MAX_STREAM_CHUNK_SIZE)
  else if config.maxStdoutBytes > ABSOLUTE_MAX_STREAM_OUTPUT ∨ config.maxStderrBytes > ABSOLUTE_MAX_STREAM_OUTPUT then
    invalidConfig ("stream output limits must not exceed " ++ toString ABSOLUTE_MAX_STREAM_OUTPUT ++ " bytes")
  else .ok ()

end NativeExecutionConfig

structure Instance extends Execution where
  number : Nat
  limits : StreamChannel → Option Nat
  written : StreamChannel → List U8
  log : List EventKind

/-! ## The processes -/

namespace Instance

/-- A process writes to a channel; without a reader nothing is written. -/
def write (i : Instance) (channel : StreamChannel) (bytes : List U8) : Instance :=
  match i.output channel with
  | none => i
  | some pipe =>
    if pipe.reader.closed then i
    else
      { i with
        toExecution := i.setOutput channel (some { pipe with reader := pipe.reader.write bytes })
        written := fun c => if c = channel then i.written c ++ bytes else i.written c }

def closeWriters (i : Instance) (channel : StreamChannel) : Instance :=
  match i.output channel with
  | none => i
  | some pipe =>
    { i with toExecution := i.setOutput channel (some { pipe with reader := { pipe.reader with closed := true } }) }

/-- An entry after its poll, and whether it is finished. -/
def poll (encodeBase64 : List U8 → String) (chunkSize : Nat) (polls : String → Poll) (i : Instance) :
    Instance × List EventKind × Bool :=
  let ticked := i.tick encodeBase64 chunkSize (polls i.executionId)
  ({ i with toExecution := ticked.2.2, log := i.log ++ ticked.1 }, ticked.1, ticked.2.1)

end Instance

structure HandlerEvent where
  requestId : Option RequestId
  event : EventKind
  deriving DecidableEq, Repr

structure Supervisor where
  config : NativeExecutionConfig
  nextExecutionId : Nat
  executions : List Instance
  pendingEvents : List HandlerEvent
  started : Nat
  ended : List Instance
  /-- every event ever queued, with the number of its execution -/
  emitted : List (Nat × HandlerEvent)
  delivered : List HandlerEvent

/-! ## Requests -/

/-- What the operating system makes of a start. -/
structure Launch where
  /-- an error of the PTY before the process exists -/
  prepare : Option RemoteError
  spawn : Except String U32
  /-- an error while the streams are taken -/
  streams : Option RemoteError
  /-- the sum of the clock and the timeout, unless it cannot be represented -/
  deadline : Option Nat

structure StartCall where
  requestId : RequestId
  request : ExecRequest
  overridesUser : Bool
  launch : Launch

def validateExecRequest (call : StartCall) : Except RemoteError Unit :=
  if call.request.argv = [] then .error ⟨.invalidRequest, "exec argv must not be empty"⟩
  else if call.overridesUser then .error ⟨.unsupportedOperation, "bootstrap exec does not support user overrides"⟩
  else if call.request.tty ∧ ¬(call.request.attachStdout ∧ call.request.attachStderr) then
    .error ⟨.invalidRequest, "TTY exec requires both stdout and stderr attachment because the PTY exposes one merged " ++
      "console stream"⟩
  else .ok ()

/-- The output channels of a new process. A PTY has one that merges both. -/
def takeStreams (config : NativeExecutionConfig) (request : ExecRequest) (channel : StreamChannel) :
    Option OutputPipe :=
  match channel with
  | .stdout => if !request.tty && request.attachStdout then some (.new ⟨[], false⟩ config.maxStdoutBytes) else none
  | .stderr => if !request.tty && request.attachStderr then some (.new ⟨[], false⟩ config.maxStderrBytes) else none
  | .console =>
    if request.tty then
      some (.pty ⟨[], false⟩ (min (saturatingAdd config.maxStdoutBytes config.maxStderrBytes)
        ABSOLUTE_MAX_STREAM_OUTPUT))
    else none

structure HandlerReply where
  response : ResponsePayload
  events : List EventKind
  deriving DecidableEq, Repr

namespace Supervisor

def new (config : NativeExecutionConfig) : Except RemoteError Supervisor := do
  config.validate
  return ⟨config, 1, [], [], 0, [], [], []⟩

/-- The numbers go round after the largest one. -/
def nextId (n : Nat) : Nat := if n < MAX_U64 then n + 1 else 1

def executionName (n : Nat) : String := "exec-" ++ toString n

/-- The first number on whose name is not taken; with one round more than there are names it is found. -/
def allocateExecutionId (taken : List String) : Nat → Nat → Option (String × Nat)
  | 0, _ => none
  | rounds + 1, n =>
    if executionName n ∈ taken then allocateExecutionId taken rounds (nextId n) else some (executionName n, nextId n)

variable (s : Supervisor) (call : StartCall)

/-- The checks before the process exists. -/
def mayStart : Except RemoteError Unit := do
  validateExecRequest call
  if s.executions.any fun i => i.requestId = call.requestId then
    .error ⟨.alreadyExists, "request " ++ call.requestId.raw ++ " already owns an active execution"⟩
  else if s.config.maxConcurrentExec ≤ s.executions.length then
    .error ⟨.resourceExhausted, "maximum concurrent exec limit " ++ toString s.config.maxConcurrentExec ++
      " is reached"⟩
  else .ok ()

/-- The process and its deadline; an error after the spawn ends the process. -/
def launchProcess : Except RemoteError (U32 × Option Nat) :=
  match call.launch.prepare with
  | some error => .error error
  | none =>
    match call.launch.spawn with
    | .error text => .error ⟨.io, "failed to spawn " ++ call.request.argv.headD "" ++ ": " ++ text⟩
    | .ok pid =>
      match call.launch.streams with
      | some error => .error error
      | none =>
        if call.request.timeoutMs.isSome ∧ call.launch.deadline.isNone then
          .error ⟨.invalidRequest, "exec timeout is too large"⟩
        else .ok (pid, if call.request.timeoutMs.isSome then call.launch.deadline else none)

def newInstance (executionId : String) (pid : U32) (deadline : Option Nat) : Instance :=
  { requestId := call.requestId, executionId := executionId, pid := pid, stdin := call.request.attachStdin
    output := takeStreams s.config call.request, deadline := deadline, forceKillAt := none
    terminationRequested := false, status := none, groupCleanupSent := false, drainDeadline := none
    number := s.started, limits := fun channel => (takeStreams s.config call.request channel).map (·.limit)
    written := fun _ => [], log := [] }

/-- The table is ordered by name. -/
def insert (i : Instance) (next : Nat) : Supervisor :=
  { s with
    nextExecutionId := next, started := s.started + 1
    executions := s.executions.orderedInsert (fun a b => a.executionId ≤ b.executionId) i }

def names : List String := s.executions.map fun i => i.executionId

def startProcess (pid : U32) (deadline : Option Nat) : Except RemoteError HandlerReply × Supervisor :=
  match allocateExecutionId s.names (s.executions.length + 1) s.nextExecutionId with
  | none => (.error ⟨.internal, ""⟩, s)
  | some (executionId, next) =>
    (.ok ⟨.execStarted executionId pid, [.other "execution_started"]⟩,
      s.insert (s.newInstance call executionId pid deadline) next)

def start : Except RemoteError HandlerReply × Supervisor :=
  match s.mayStart call with
  | .error error => (.error error, s)
  | .ok _ =>
    match launchProcess call with
    | .error error => (.error error, s)
    | .ok (pid, deadline) => s.startProcess call pid deadline

/-- One entry of the table changed. -/
def onInstance (executionId : String) (f : Instance → Instance) : Supervisor :=
  { s with executions := s.executions.map fun i => if i.executionId = executionId then f i else i }

/-- A cancel of the execution of a request, whose signal could be sent. -/
def cancel (target : RequestId) (executionId : Option String) (signal : Int) (now : Nat) : Supervisor :=
  match s.executions.find? fun i => i.requestId = target ∧ (executionId.all (· = i.executionId)) with
  | none => s
  | some found =>
    s.onInstance found.executionId fun i => { i with toExecution := i.toExecution.requestCancel signal now }

/-! ## Polls -/

variable (encodeBase64 : List U8 → String)

def queued (polled : List (Instance × List EventKind × Bool)) : List (Nat × HandlerEvent) :=
  tagged (fun p => p.1.number) (fun p => p.2.1.map fun event => ⟨some p.1.requestId, event⟩) polled

def tick (s : Supervisor) (polls : String → Poll) : Supervisor :=
  let polled := s.executions.map (Instance.poll encodeBase64 s.config.maxStreamChunkSize polls)
  { s with
    executions := (polled.filter fun p => !p.2.2).map (·.1)
    ended := s.ended ++ (polled.filter fun p => p.2.2).map (·.1)
    pendingEvents := s.pendingEvents ++ (queued polled).map (·.2)
    emitted := s.emitted ++ queued polled }

/-- The next event; the processes are only polled when none waits. -/
def pollEvent (s : Supervisor) (polls : String → Poll) : Option HandlerEvent × Supervisor :=
  let s := if s.pendingEvents.isEmpty then s.tick encodeBase64 polls else s
  (s.pendingEvents.head?,
    { s with pendingEvents := s.pendingEvents.tail, delivered := s.delivered ++ s.pendingEvents.head?.toList })

end Supervisor

/-! ## Runs -/

/-- What can happen to the supervisor and its processes. -/
inductive Command where
  | start (call : StartCall)
  | cancel (target : RequestId) (executionId : Option String) (signal : Int) (now : Nat)
  | write (executionId : String) (channel : StreamChannel) (bytes : List U8)
  | closeWriters (executionId : String) (channel : StreamChannel)
  | pollEvent (polls : String → Poll)

namespace Supervisor

variable (encodeBase64 : List U8 → String)

def perform (s : Supervisor) : Command → Supervisor
  | .start call => (s.start call).2
  | .cancel target executionId signal now => s.cancel target executionId signal now
  | .write executionId channel bytes => s.onInstance executionId (Instance.write · channel bytes)
  | .closeWriters executionId channel => s.onInstance executionId (Instance.closeWriters · channel)
  | .pollEvent polls => (s.pollEvent encodeBase64 polls).2

def run (s : Supervisor) (commands : List Command) : Supervisor := commands.foldl (perform encodeBase64) s

end Supervisor

end Rish.Agent
