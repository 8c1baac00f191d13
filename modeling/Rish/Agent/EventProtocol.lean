/-
  Rish.Agent.EventProtocol — the events of an execution, for every process, timing and interleaving.

  `ChannelState` ties what was sent for a channel to the channel: while it is open, what was sent and what is still in
  the pipe are what the process wrote. Reading and closing keep it, whatever the operating system answers, and so do
  the process's own steps.
-/

import Rish.Agent.Supervisor

namespace Rish.Agent

open Lib Protocol List Option
open Piece (content content_snoc)

/-! ## Events -/

def onChannel (channel : StreamChannel) : EventKind → Bool
  | .stream _ c _ _ _ => c = channel
  | _ => false

def isExit : EventKind → Bool
  | .processExited _ _ _ => true
  | _ => false

section

variable (encodeBase64 : List U8 → String) (executionId : String) (channel : StreamChannel)

def Sends (pieces : List (Piece U8)) (log : List EventKind) : Prop :=
  log.filter (onChannel channel) =
    pieces.map fun p => streamEvent encodeBase64 executionId channel p.number p.data p.last

variable {encodeBase64 executionId channel} {pieces : List (Piece U8)} {log : List EventKind}

theorem Sends.snoc (h : Sends encodeBase64 executionId channel pieces log) (number data last) :
    Sends encodeBase64 executionId channel (pieces ++ [⟨number, data, last⟩])
      (log ++ [streamEvent encodeBase64 executionId channel number data last]) := by
  rw [Sends, filter_append, h, map_append]
  simp [streamEvent, onChannel]

end

/-! ## The state of a channel -/

/-- What was sent for a channel that was never attached, is open, or has ended. -/
inductive ChannelState (encodeBase64 : List U8 → String) (executionId : String) (channel : StreamChannel)
    (written : List U8) (log : List EventKind) : Option Nat → Option OutputPipe → Prop
  | absent (quiet : log.filter (onChannel channel) = []) :
    ChannelState encodeBase64 executionId channel written log none none
  | active {limit : Nat} {p : OutputPipe} (pieces : List (Piece U8))
    (sends : Sends encodeBase64 executionId channel pieces log) (opened : Piece.Open pieces)
    (sequence : p.sequence = pieces.length) (own : p.limit = limit) (small : limit ≤ MAX_U64)
    (sent : p.sent = (content pieces).length) (within : p.sent ≤ limit) (progress : p.sequence ≤ p.sent)
    (split : content pieces ++ p.reader.buffered = written) :
    ChannelState encodeBase64 executionId channel written log (some limit) (some p)
  | gone {limit : Nat} (pieces : List (Piece U8)) (sends : Sends encodeBase64 executionId channel pieces log)
    (ended : Piece.Ended pieces) (small : limit ≤ MAX_U64) (count : pieces.length ≤ limit + 1)
    (start : content pieces <+: written) (within : (content pieces).length ≤ limit) :
    ChannelState encodeBase64 executionId channel written log (some limit) none

section

variable {encodeBase64 : List U8 → String} {executionId : String} {channel : StreamChannel} {written : List U8}
  {log : List EventKind} {limit : Option Nat} {output : Option OutputPipe}

theorem ChannelState.quiet (h : ChannelState encodeBase64 executionId channel written log limit output)
    {events} (hquiet : events.filter (onChannel channel) = []) :
    ChannelState encodeBase64 executionId channel written (log ++ events) limit output := by
  have hfilter : (log ++ events).filter (onChannel channel) = log.filter (onChannel channel) := by
    rw [filter_append, hquiet, append_nil]
  cases h with
  | absent quiet => exact .absent (hfilter.trans quiet)
  | active pieces sends opened sequence own small sent within progress split =>
    exact .active pieces (hfilter.trans sends) opened sequence own small sent within progress split
  | gone pieces sends ended small count start within =>
    exact .gone pieces (hfilter.trans sends) ended small count start within

theorem ChannelState.finish {l p}
    (h : ChannelState encodeBase64 executionId channel written log (some l) (some p)) :
    ChannelState encodeBase64 executionId channel written
      (log ++ [streamEvent encodeBase64 executionId channel p.sequence [] true]) (some l) none := by
  cases h with
  | active pieces sends opened sequence own small sent within progress split =>
    rw [sequence]
    refine .gone (pieces ++ [⟨pieces.length, [], true⟩]) (sends.snoc _ _ _) (opened.finish []) small ?_ ?_ ?_
    · rw [length_append, length_singleton]
      omega
    · rw [content_snoc, append_nil]
      exact ⟨_, split⟩
    · rw [content_snoc, append_nil]
      omega

theorem Pipe.read_ok {p reader : Pipe} {answer : ReadAnswer} {n : Nat} {data : List U8}
    (h : p.read answer n = (.ok data, reader)) : data ++ reader.buffered = p.buffered := by
  cases answer with
  | upTo k =>
    simp only [Pipe.read] at h
    split at h
    · rename_i hempty
      split at h
      · cases h
        rw [hempty]
        rfl
      · cases h
    · cases h
      exact take_append_drop _ _
  | interrupted => cases h
  | eio => cases h
  | failed => cases h

theorem ChannelState.send {l p reader data}
    (h : ChannelState encodeBase64 executionId channel written log (some l) (some p))
    (hread : data ++ reader.buffered = p.reader.buffered) (hdata : data ≠ []) :
    ChannelState encodeBase64 executionId channel written
      (log ++ (sendOutput encodeBase64 executionId channel p reader data).2.event.toList) (some l)
      (sendOutput encodeBase64 executionId channel p reader data).1 := by
  cases h with
  | active pieces sends opened sequence own small sent within progress split =>
    have hlength : 0 < data.length := length_pos_iff.mpr hdata
    have hwritten : content pieces ++ data ++ reader.buffered = written := by
      rw [append_assoc, hread, split]
    subst own
    unfold sendOutput
    dsimp only
    by_cases hexceeds : min data.length (p.limit - p.sent) < data.length
    · -- a byte past the limit: what fits is the last piece
      rw [decide_eq_true hexceeds, if_pos rfl, sequence]
      refine .gone _ (sends.snoc _ _ _) (opened.finish _) small ?_ ?_ ?_
      · rw [length_append, length_singleton]
        omega
      · rw [content_snoc]
        refine List.IsPrefix.trans ?_ ⟨_, hwritten⟩
        rw [prefix_append_right_inj]
        exact take_prefix _ _
      · rw [content_snoc, length_append, length_take]
        omega
    · have hretained : min data.length (p.limit - p.sent) = data.length := by omega
      have hsent : saturatingAdd p.sent data.length = p.sent + data.length := Nat.min_eq_left (by omega)
      have hsequence : saturatingAdd p.sequence 1 = p.sequence + 1 := Nat.min_eq_left (by omega)
      rw [decide_eq_false hexceeds, if_neg Bool.false_ne_true, hretained, take_length, hsent, hsequence, sequence]
      refine .active _ (sends.snoc _ _ _) (opened.snoc _) ?_ rfl small ?_ ?_ ?_ ?_
      · rw [length_append, length_singleton]
      · rw [content_snoc, length_append, ← sent]
      · dsimp only
        omega
      · dsimp only
        omega
      · rw [content_snoc]
        exact hwritten

theorem ChannelState.poll (h : ChannelState encodeBase64 executionId channel written log limit output) (chunkSize : Nat)
    (answer : ReadAnswer) :
    ChannelState encodeBase64 executionId channel written
      (log ++ (pollOutput encodeBase64 executionId channel output chunkSize answer).2.event.toList) limit
      (pollOutput encodeBase64 executionId channel output chunkSize answer).1 := by
  cases output with
  | none =>
    rw [pollOutput, toList_none, append_nil]
    exact h
  | some p =>
    obtain ⟨l, rfl⟩ : ∃ l, limit = some l := by cases h; exact ⟨_, rfl⟩
    unfold pollOutput pollPipe
    dsimp only
    split
    · exact h.finish
    · rename_i hread
      exact h.send (Pipe.read_ok hread) (cons_ne_nil _ _)
    · rw [toList_none, append_nil]
      exact h
    · rw [toList_none, append_nil]
      exact h
    · exact h.finish
    · exact h.finish

theorem ChannelState.close (h : ChannelState encodeBase64 executionId channel written log limit output) :
    ChannelState encodeBase64 executionId channel written
      (log ++ (closeOutput encodeBase64 executionId channel output).2.toList) limit
      (closeOutput encodeBase64 executionId channel output).1 := by
  cases output with
  | none =>
    rw [closeOutput, map_none, toList_none, append_nil]
    exact h
  | some p =>
    obtain ⟨l, rfl⟩ : ∃ l, limit = some l := by cases h; exact ⟨_, rfl⟩
    exact h.finish

end

/-! ## One poll -/

def Channels (encodeBase64 : List U8 → String) (limits : StreamChannel → Option Nat)
    (written : StreamChannel → List U8) (log : List EventKind) (e : Execution) : Prop :=
  ∀ channel, ChannelState encodeBase64 e.executionId channel (written channel) log (limits channel) (e.output channel)

section

variable {encodeBase64 : List U8 → String} {limits : StreamChannel → Option Nat} {written : StreamChannel → List U8}
  {log : List EventKind} {e : Execution}

theorem filter_stream_ne {channel other} (h : other ≠ channel) (id : String) (n : Nat) (bytes : List U8)
    (eof : Bool) : [streamEvent encodeBase64 id channel n bytes eof].filter (onChannel other) = [] := by
  simp [streamEvent, onChannel, Ne.symm h]

theorem Channels.setOutput (h : Channels encodeBase64 limits written log e) {channel}
    {output events}
    (hown : ChannelState encodeBase64 e.executionId channel (written channel) (log ++ events) (limits channel) output)
    (hothers : ∀ other, other ≠ channel → events.filter (onChannel other) = []) :
    Channels encodeBase64 limits written (log ++ events) (e.setOutput channel output) := by
  intro other
  by_cases hc : other = channel
  · subst hc
    simpa [Execution.setOutput] using hown
  · simpa [Execution.setOutput, hc] using (h other).quiet (hothers other hc)

variable (encodeBase64) in
theorem pollOutput_own (id channel output) (chunkSize : Nat)
    (answer : ReadAnswer) :
    (pollOutput encodeBase64 id channel output chunkSize answer).2.event = none ∨
      ∃ n bytes eof, (pollOutput encodeBase64 id channel output chunkSize answer).2.event =
        some (streamEvent encodeBase64 id channel n bytes eof) := by
  cases output with
  | none => exact .inl rfl
  | some p =>
    unfold pollOutput pollPipe
    dsimp only
    split
    · exact .inr ⟨_, _, _, rfl⟩
    · exact .inr ⟨_, _, _, rfl⟩
    · exact .inl rfl
    · exact .inl rfl
    · exact .inr ⟨_, _, _, rfl⟩
    · exact .inr ⟨_, _, _, rfl⟩

variable (encodeBase64) in
theorem pollOutput_others (id channel output) (chunkSize : Nat)
    (answer : ReadAnswer) {other} (hne : other ≠ channel) :
    (pollOutput encodeBase64 id channel output chunkSize answer).2.event.toList.filter (onChannel other) = [] := by
  rcases pollOutput_own encodeBase64 id channel output chunkSize answer with hnone | ⟨n, bytes, eof, hsome⟩
  · rw [hnone]
    rfl
  · rw [hsome]
    exact filter_stream_ne hne _ n bytes eof

def OnlyStreams (events : List EventKind) : Prop := ∀ event ∈ events, isExit event = false

theorem OnlyStreams.append {a b} (ha : OnlyStreams a) (hb : OnlyStreams b) : OnlyStreams (a ++ b) := by
  intro event h
  rcases mem_append.mp h with h | h
  · exact ha event h
  · exact hb event h

theorem onlyStreams_nil : OnlyStreams [] := by
  intro event h
  cases h

theorem onlyStreams_stream (id channel) (n : Nat) (bytes : List U8) (eof : Bool) :
    OnlyStreams [streamEvent encodeBase64 id channel n bytes eof] := by
  intro event h
  rw [mem_singleton.mp h]
  rfl

theorem Channels.pollOutputs (channels) (chunkSize : Nat) (read)
    (h : Channels encodeBase64 limits written log e) :
    Channels encodeBase64 limits written (log ++ (e.pollOutputs encodeBase64 chunkSize read channels).1)
        (e.pollOutputs encodeBase64 chunkSize read channels).2.2 ∧
      OnlyStreams (e.pollOutputs encodeBase64 chunkSize read channels).1 := by
  -- along the list of channels, each with the log the one before has left
  induction channels generalizing e log with
  | nil => exact ⟨by rw [Execution.pollOutputs, append_nil]; exact h, onlyStreams_nil⟩
  | cons channel rest ih =>
    have hown := (h channel).poll chunkSize (read channel)
    have hnone_or := pollOutput_own encodeBase64 e.executionId channel (e.output channel) chunkSize
      (read channel)
    have hnext := h.setOutput hown fun other hne =>
      pollOutput_others encodeBase64 e.executionId channel (e.output channel) chunkSize (read channel) hne
    rw [Execution.pollOutputs]
    generalize pollOutput encodeBase64 e.executionId channel (e.output channel) chunkSize (read channel) = polled at *
    obtain ⟨hafter, hstreams⟩ := ih hnext
    refine ⟨by rw [← append_assoc]; exact hafter, OnlyStreams.append ?_ hstreams⟩
    rcases hnone_or with hnone | ⟨n, bytes, eof, hsome⟩
    · rw [hnone]
      exact onlyStreams_nil
    · rw [hsome]
      exact onlyStreams_stream _ _ n bytes eof

theorem Channels.closeOutputs (channels) (h : Channels encodeBase64 limits written log e) :
    Channels encodeBase64 limits written (log ++ (e.closeOutputs encodeBase64 channels).1)
        (e.closeOutputs encodeBase64 channels).2 ∧
      OnlyStreams (e.closeOutputs encodeBase64 channels).1 := by
  induction channels generalizing e log with
  | nil => exact ⟨by rw [Execution.closeOutputs, append_nil]; exact h, onlyStreams_nil⟩
  | cons channel rest ih =>
    have hown := (h channel).close
    have hnext := h.setOutput hown fun other hne => by
      rw [closeOutput]
      cases e.output channel with
      | none => rfl
      | some p => exact filter_stream_ne hne _ _ _ _
    obtain ⟨hafter, hstreams⟩ := ih hnext
    rw [Execution.closeOutputs]
    refine ⟨by rw [← append_assoc]; exact hafter, OnlyStreams.append ?_ hstreams⟩
    rw [closeOutput]
    cases e.output channel with
    | none => exact onlyStreams_nil
    | some p => exact onlyStreams_stream _ _ _ _ _

theorem observeChildExit_output (e : Execution) (answer) :
    (e.observeChildExit answer).output = e.output ∧ (e.observeChildExit answer).executionId = e.executionId := by
  unfold Execution.observeChildExit
  split
  · exact ⟨rfl, rfl⟩
  · split <;> exact ⟨rfl, rfl⟩

theorem prepare_output (e : Execution) (poll : Poll) :
    (e.prepare poll).output = e.output ∧ (e.prepare poll).executionId = e.executionId := by
  have hkill (e : Execution) (c : Bool) :
      (if c then e.forceKill else e).output = e.output ∧
        (if c then e.forceKill else e).executionId = e.executionId := by
    cases c <;> exact ⟨rfl, rfl⟩
  unfold Execution.prepare
  obtain ⟨ho, hi⟩ := observeChildExit_output
    (let e := if !e.terminationRequested && due e.deadline poll.now then e.forceKill else e
     let e := if due e.forceKillAt poll.now then e.forceKill else e
     if e.stdin && poll.flushFails then e.forceKill else e) poll.wait
  refine ⟨ho.trans ?_, hi.trans ?_⟩ <;> dsimp only
  · rw [(hkill _ _).1, (hkill _ _).1, (hkill _ _).1]
  · rw [(hkill _ _).2, (hkill _ _).2, (hkill _ _).2]

theorem Channels.congr {e'} (h : Channels encodeBase64 limits written log e)
    (hsame : e'.output = e.output ∧ e'.executionId = e.executionId) : Channels encodeBase64 limits written log e' := by
  intro channel
  rw [hsame.1, hsame.2]
  exact h channel

theorem Channels.outputs (h : Channels encodeBase64 limits written log e) (chunkSize poll) :
    Channels encodeBase64 limits written (log ++ (e.outputs encodeBase64 chunkSize poll).1)
        (e.outputs encodeBase64 chunkSize poll).2 ∧
      OnlyStreams (e.outputs encodeBase64 chunkSize poll).1 := by
  unfold Execution.outputs
  split
  · exact h.closeOutputs _
  · obtain ⟨hchannels, hstreams⟩ := h.pollOutputs Execution.CHANNELS chunkSize poll.read
    refine ⟨hchannels.congr ?_, hstreams⟩
    dsimp only
    split <;> exact ⟨rfl, rfl⟩

theorem outputs_executionId (e : Execution) (chunkSize : Nat) (poll : Poll) :
    (e.outputs encodeBase64 chunkSize poll).2.executionId = e.executionId := by
  have hclose (channels : List StreamChannel) (e : Execution) :
      (e.closeOutputs encodeBase64 channels).2.executionId = e.executionId := by
    induction channels generalizing e with
    | nil => rfl
    | cons channel rest ih => exact ih _
  have hpoll (channels : List StreamChannel) (e : Execution) :
      (e.pollOutputs encodeBase64 chunkSize poll.read channels).2.2.executionId = e.executionId := by
    induction channels generalizing e with
    | nil => rfl
    | cons channel rest ih => exact ih _
  unfold Execution.outputs
  split
  · exact hclose _ e
  · dsimp only
    split <;> exact hpoll _ e

theorem tick_executionId (e : Execution) (chunkSize : Nat) (poll : Poll) :
    (e.tick encodeBase64 chunkSize poll).2.2.executionId = e.executionId := by
  unfold Execution.tick
  dsimp only
  rw [(observeChildExit_output _ _).2, outputs_executionId, (prepare_output e poll).2]

theorem exitEvent_eq_some {event} (h : e.exitEvent = some event) :
    (∀ channel, e.output channel = none) ∧
      ∃ status : ExitStatus, event = .processExited e.executionId status.code status.signal := by
  unfold Execution.exitEvent at h
  cases hstatus : e.status with
  | none =>
    rw [hstatus] at h
    cases h
  | some status =>
    rw [hstatus] at h
    dsimp only at h
    split at h
    · rename_i hclosed
      cases h
      refine ⟨fun channel => ?_, status, rfl⟩
      simp only [Execution.outputClosed, Execution.CHANNELS, all_cons, all_nil, Bool.and_true,
        Bool.and_eq_true, isNone_iff_eq_none] at hclosed
      obtain ⟨hstdout, hstderr, hconsole⟩ := hclosed
      cases channel with
      | stdout => exact hstdout
      | stderr => exact hstderr
      | console => exact hconsole
    · cases h

theorem Channels.tick (h : Channels encodeBase64 limits written log e) (chunkSize : Nat) (poll : Poll) :
    Channels encodeBase64 limits written (log ++ (e.tick encodeBase64 chunkSize poll).1)
        (e.tick encodeBase64 chunkSize poll).2.2 ∧
      ((e.tick encodeBase64 chunkSize poll).2.1 = false → OnlyStreams (e.tick encodeBase64 chunkSize poll).1) ∧
      ((e.tick encodeBase64 chunkSize poll).2.1 = true →
        (∀ channel, (e.tick encodeBase64 chunkSize poll).2.2.output channel = none) ∧
          ∃ (before : List EventKind) (status : ExitStatus), OnlyStreams before ∧
            (e.tick encodeBase64 chunkSize poll).1 =
            before ++ [.processExited (e.tick encodeBase64 chunkSize poll).2.2.executionId status.code
              status.signal]) := by
  obtain ⟨hchannels, hstreams⟩ := (h.congr (prepare_output e poll)).outputs chunkSize poll
  have hafter := hchannels.congr
    (observeChildExit_output ((e.prepare poll).outputs encodeBase64 chunkSize poll).2 poll.waitAgain)
  unfold Execution.tick
  dsimp only
  generalize ((e.prepare poll).outputs encodeBase64 chunkSize poll).1 = sent at *
  generalize ((e.prepare poll).outputs encodeBase64 chunkSize poll).2.observeChildExit poll.waitAgain = after at *
  cases hexit : after.exitEvent with
  | none =>
    rw [toList_none, append_nil]
    exact ⟨hafter, fun _ => hstreams, fun hfinished => (by cases hfinished)⟩
  | some event =>
    obtain ⟨hclosed, status, rfl⟩ := exitEvent_eq_some hexit
    refine ⟨?_, fun hfinished => (by cases hfinished), fun _ => ⟨hclosed, sent, status, hstreams, rfl⟩⟩
    rw [← append_assoc]
    exact fun channel => (hafter channel).quiet rfl

end

/-! ## One execution -/

/-- The exit was not seen yet, or a channel has not ended. -/
def Execution.Waits (e : Execution) : Prop := e.status = none ∨ ∃ channel, (e.output channel).isSome

theorem tick_waits {encodeBase64 chunkSize poll} {e : Execution}
    (h : (e.tick encodeBase64 chunkSize poll).2.1 = false) :
    (e.tick encodeBase64 chunkSize poll).2.2.Waits := by
  unfold Execution.tick at h ⊢
  dsimp only at h ⊢
  generalize ((e.prepare poll).outputs encodeBase64 chunkSize poll).2.observeChildExit poll.waitAgain = after at *
  unfold Execution.exitEvent at h
  cases hstatus : after.status with
  | none => exact .inl hstatus
  | some status =>
    rw [hstatus] at h
    dsimp only at h
    split at h
    · cases h
    · rename_i hopen
      rw [Execution.outputClosed, List.all_eq_true] at hopen
      push Not at hopen
      obtain ⟨channel, -, hchannel⟩ := hopen
      exact .inr ⟨channel, Option.isSome_iff_ne_none.mpr fun hnone => hchannel (Option.isNone_iff_eq_none.mpr hnone)⟩

structure Running (encodeBase64 : List U8 → String) (i : Instance) : Prop where
  channels : Channels encodeBase64 i.limits i.written i.log i.toExecution
  streams : OnlyStreams i.log
  waits : i.toExecution.Waits

/-- A finished one: no channel is open, and the exit is the last event. -/
structure Finished (encodeBase64 : List U8 → String) (i : Instance) : Prop where
  channels : Channels encodeBase64 i.limits i.written i.log i.toExecution
  closed : ∀ channel, i.output channel = none
  exited : ∃ (before : List EventKind) (status : ExitStatus), OnlyStreams before ∧
    i.log = before ++ [.processExited i.executionId status.code status.signal]

theorem requestCancel_output (e : Execution) (signal : Int) (now : Nat) :
    (e.requestCancel signal now).output = e.output ∧ (e.requestCancel signal now).executionId = e.executionId := by
  unfold Execution.requestCancel
  split <;> exact ⟨rfl, rfl⟩

section

variable {encodeBase64 : List U8 → String} {i : Instance}

section

variable (h : Running encodeBase64 i)
include h

theorem Running.poll (chunkSize polls) :
    ((i.poll encodeBase64 chunkSize polls).2.2 = false → Running encodeBase64 (i.poll encodeBase64 chunkSize polls).1) ∧
      ((i.poll encodeBase64 chunkSize polls).2.2 = true →
        Finished encodeBase64 (i.poll encodeBase64 chunkSize polls).1) := by
  obtain ⟨hchannels, hrunning, hfinished⟩ := h.channels.tick chunkSize (polls i.executionId)
  refine ⟨fun hr => ⟨hchannels, h.streams.append (hrunning hr), tick_waits hr⟩, fun hf => ?_⟩
  obtain ⟨hclosed, before, status, hstreams, hlog⟩ := hfinished hf
  refine ⟨hchannels, hclosed, i.log ++ before, status, h.streams.append hstreams, ?_⟩
  show i.log ++ _ = _
  rw [hlog, append_assoc]
  rfl

theorem Running.cancel (signal now) :
    Running encodeBase64 { i with toExecution := i.toExecution.requestCancel signal now } := by
  refine ⟨h.channels.congr (requestCancel_output _ _ _), h.streams, ?_⟩
  rcases h.waits with hstatus | ⟨channel, hopen⟩
  · left
    unfold Execution.requestCancel
    split <;> exact hstatus
  · right
    refine ⟨channel, ?_⟩
    rw [(requestCancel_output _ _ _).1]
    exact hopen

theorem Running.write (channel) (bytes : List U8) : Running encodeBase64 (i.write channel bytes) := by
  unfold Instance.write
  cases hpipe : i.output channel with
  | none => exact h
  | some pipe =>
    dsimp only
    split
    · exact h
    rename_i hopen
    refine ⟨fun other => ?_, h.streams, .inr ⟨channel, by simp [Execution.setOutput]⟩⟩
    have hstate := h.channels other
    by_cases hc : other = channel
    · subst hc
      simp only [Execution.setOutput, if_true]
      rw [hpipe] at hstate
      generalize i.limits other = limit at hstate ⊢
      cases hstate with
      | active pieces sends opened sequence own small sent within progress split =>
        refine .active pieces sends opened sequence own small sent within progress ?_
        rw [Pipe.write, if_neg hopen, ← append_assoc, split]
    · simpa [Execution.setOutput, hc] using hstate

theorem Running.closeWriters (channel) : Running encodeBase64 (i.closeWriters channel) := by
  unfold Instance.closeWriters
  cases hpipe : i.output channel with
  | none => exact h
  | some pipe =>
    refine ⟨fun other => ?_, h.streams, .inr ⟨channel, by simp [Execution.setOutput]⟩⟩
    have hstate := h.channels other
    by_cases hc : other = channel
    · subst hc
      simp only [Execution.setOutput, if_true]
      rw [hpipe] at hstate
      generalize i.limits other = limit at hstate ⊢
      cases hstate with
      | active pieces sends opened sequence own small sent within progress split =>
        exact .active pieces sends opened sequence own small sent within progress split
    · simpa [Execution.setOutput, hc] using hstate

end

end

/-! ## The table -/

/-- What holds of the supervisor at every moment. -/
structure Sound (encodeBase64 : List U8 → String) (s : Supervisor) : Prop where
  valid : s.config.validate = .ok ()
  counter : 1 ≤ s.nextExecutionId ∧ s.nextExecutionId ≤ MAX_U64
  distinct : s.names.Nodup
  bounded : s.executions.length ≤ s.config.maxConcurrentExec
  running : ∀ i ∈ s.executions, Running encodeBase64 i
  finished : ∀ i ∈ s.ended, Finished encodeBase64 i
  numbered : ((s.executions ++ s.ended).map fun i => i.number).Nodup
  known : ∀ i ∈ s.executions ++ s.ended, i.number < s.started
  all : ∀ n < s.started, n ∈ (s.executions ++ s.ended).map fun i => i.number
  tags : ∀ e ∈ s.emitted, e.1 < s.started
  attributed : ∀ i ∈ s.executions ++ s.ended,
    ((s.emitted.filter fun e => e.1 = i.number).map fun e => e.2.event) = i.log
  queue : (s.emitted.map fun e => e.2) = s.delivered ++ s.pendingEvents

section

variable {encodeBase64 : List U8 → String} {s : Supervisor} {config : NativeExecutionConfig} {taken : List String}

theorem new_eq_ok (h : Supervisor.new config = .ok s) :
    config.validate = .ok () ∧ s = ⟨config, 1, [], [], 0, [], [], []⟩ := by
  unfold Supervisor.new at h
  cases hv : config.validate with
  | error error =>
    rw [hv] at h
    cases h
  | ok u =>
    rw [hv] at h
    cases h
    exact ⟨rfl, rfl⟩

theorem sound_new (h : Supervisor.new config = .ok s) : Sound encodeBase64 s := by
  obtain ⟨hvalid, rfl⟩ := new_eq_ok h
  refine ⟨hvalid, ⟨Nat.le_refl 1, (by decide : 1 ≤ MAX_U64)⟩, nodup_nil, Nat.zero_le _, ?_, ?_, nodup_nil, ?_, ?_,
    ?_, ?_, rfl⟩
  all_goals
    intro x hx
    cases hx

theorem Sound.onInstance (h : Sound encodeBase64 s) (executionId) {f}
    (hkeeps : ∀ i, (f i).executionId = i.executionId ∧ (f i).number = i.number ∧ (f i).log = i.log)
    (hrunning : ∀ i, Running encodeBase64 i → Running encodeBase64 (f i)) :
    Sound encodeBase64 (s.onInstance executionId f) := by
  have hstep (i : Instance) : (if i.executionId = executionId then f i else i).executionId = i.executionId ∧
      (if i.executionId = executionId then f i else i).number = i.number ∧
      (if i.executionId = executionId then f i else i).log = i.log := by
    split
    · exact hkeeps i
    · exact ⟨rfl, rfl, rfl⟩
  have hnames : (s.onInstance executionId f).names = s.names := by
    simp only [Supervisor.names, Supervisor.onInstance, List.map_map]
    exact map_congr_left fun i _ => (hstep i).1
  have hmem {i : Instance} (hi : i ∈ (s.onInstance executionId f).executions ++ (s.onInstance executionId f).ended) :
      ∃ i0 ∈ s.executions ++ s.ended, i.number = i0.number ∧ i.log = i0.log := by
    rcases mem_append.mp hi with hi | hi
    · obtain ⟨i0, hi0, rfl⟩ := List.mem_map.mp hi
      exact ⟨i0, mem_append_left _ hi0, (hstep i0).2⟩
    · exact ⟨i, mem_append_right _ hi, rfl, rfl⟩
  have hsame : (((s.onInstance executionId f).executions ++ (s.onInstance executionId f).ended).map fun i => i.number) =
      (s.executions ++ s.ended).map fun i => i.number := by
    simp only [Supervisor.onInstance, map_append, List.map_map]
    congr 1
    exact map_congr_left fun i _ => (hstep i).2.1
  refine ⟨h.valid, h.counter, hnames ▸ h.distinct, ?_, ?_, h.finished, ?_, ?_, ?_, h.tags, ?_, h.queue⟩
  · simp only [Supervisor.onInstance, length_map]
    exact h.bounded
  · intro i hi
    obtain ⟨i0, hi0, rfl⟩ := List.mem_map.mp hi
    split
    · exact hrunning i0 (h.running i0 hi0)
    · exact h.running i0 hi0
  · rw [hsame]
    exact h.numbered
  · intro i hi
    obtain ⟨i0, hi0, hnumber, -⟩ := hmem hi
    rw [hnumber]
    exact h.known i0 hi0
  · rw [hsame]
    exact h.all
  · intro i hi
    obtain ⟨i0, hi0, hnumber, hlog⟩ := hmem hi
    rw [hnumber, hlog]
    exact h.attributed i0 hi0

theorem allocateExecutionId_free {rounds n next name}
    (h : Supervisor.allocateExecutionId taken rounds n = some (name, next)) :
    name ∉ taken ∧ 1 ≤ next ∧ next ≤ MAX_U64 := by
  induction rounds generalizing n with
  | zero => cases h
  | succ rounds ih =>
    rw [Supervisor.allocateExecutionId] at h
    split at h
    · exact ih h
    · rename_i hfree
      cases h
      refine ⟨hfree, ?_⟩
      unfold Supervisor.nextId
      split
      · omega
      · decide

theorem nextId_iterate {n} (hn : 1 ≤ n ∧ n ≤ MAX_U64) {j} (hj : j < MAX_U64) :
    Supervisor.nextId^[j] n = if n + j ≤ MAX_U64 then n + j else n + j - MAX_U64 := by
  induction j with
  | zero => exact (if_pos hn.2).symm
  | succ j ih =>
    rw [Function.iterate_succ_apply', ih (by omega), Supervisor.nextId]
    split <;> split <;> split <;> omega

theorem executionName_injective {a b} (h : Supervisor.executionName a = Supervisor.executionName b) : a = b := by
  have htext := (String.append_right_inj _).mp h
  rw [Nat.toString_eq_ofList_toDigits, Nat.toString_eq_ofList_toDigits] at htext
  have hdigits := Nat.ofDigitChars_ten_toDigits (n := a)
  rw [String.ofList_inj.mp htext, Nat.ofDigitChars_ten_toDigits] at hdigits
  exact hdigits.symm

theorem allocateExecutionId_none {rounds n}
    (h : Supervisor.allocateExecutionId taken rounds n = none) {j} (hj : j < rounds) :
    Supervisor.executionName (Supervisor.nextId^[j] n) ∈ taken := by
  induction rounds generalizing n j with
  | zero => omega
  | succ rounds ih =>
    rw [Supervisor.allocateExecutionId] at h
    split at h
    · rename_i htaken
      cases j with
      | zero => exact htaken
      | succ j => exact ih h (by omega)
    · cases h

theorem allocateExecutionId_isSome {n} (hn : 1 ≤ n ∧ n ≤ MAX_U64)
    (hfew : taken.length < MAX_U64) : (Supervisor.allocateExecutionId taken (taken.length + 1) n).isSome := by
  rw [isSome_iff_ne_none]
  intro hnone
  have hsubset : (List.range (taken.length + 1)).map (fun j => Supervisor.executionName (Supervisor.nextId^[j] n)) ⊆
      taken := by
    intro name hname
    obtain ⟨j, hj, rfl⟩ := List.mem_map.mp hname
    exact allocateExecutionId_none hnone (mem_range.mp hj)
  have hnodup : ((List.range (taken.length + 1)).map
      fun j => Supervisor.executionName (Supervisor.nextId^[j] n)).Nodup := by
    refine List.Nodup.map_on ?_ nodup_range
    intro a ha b hb hab
    have ha := mem_range.mp ha
    have hb := mem_range.mp hb
    have heq := executionName_injective hab
    rw [nextId_iterate hn (by omega), nextId_iterate hn (by omega)] at heq
    split at heq <;> split at heq <;> omega
  have hle := (subperm_of_subset hnodup hsubset).length_le
  rw [length_map, length_range] at hle
  omega

theorem validate_limits (hvalid : config.validate = .ok ()) :
    config.maxConcurrentExec ≤ ABSOLUTE_MAX_CONCURRENT_EXEC ∧ config.maxStdoutBytes ≤ ABSOLUTE_MAX_STREAM_OUTPUT ∧
      config.maxStderrBytes ≤ ABSOLUTE_MAX_STREAM_OUTPUT := by
  unfold NativeExecutionConfig.validate at hvalid
  repeat' split at hvalid
  all_goals cases hvalid
  omega

theorem takeStreams_limit (hvalid : config.validate = .ok ()) {request}
    {channel} {p : OutputPipe} (h : takeStreams config request channel = some p) :
    p.sequence = 0 ∧ p.sent = 0 ∧ p.reader.buffered = [] ∧ p.limit ≤ MAX_U64 := by
  have hlimits := (validate_limits hvalid).2
  have hsmall : ABSOLUTE_MAX_STREAM_OUTPUT ≤ MAX_U64 := by decide
  cases channel with
  | stdout =>
    simp only [takeStreams] at h
    split at h
    · cases h
      exact ⟨rfl, rfl, rfl, Nat.le_trans hlimits.1 hsmall⟩
    · cases h
  | stderr =>
    simp only [takeStreams] at h
    split at h
    · cases h
      exact ⟨rfl, rfl, rfl, Nat.le_trans hlimits.2 hsmall⟩
    · cases h
  | console =>
    simp only [takeStreams] at h
    split at h
    · cases h
      exact ⟨rfl, rfl, rfl, Nat.le_trans (Nat.min_le_right _ _) hsmall⟩
    · cases h

theorem running_newInstance (hvalid : s.config.validate = .ok ()) (call executionId pid)
    (deadline) : Running encodeBase64 (s.newInstance call executionId pid deadline) := by
  refine ⟨fun channel => ?_, onlyStreams_nil, .inl rfl⟩
  simp only [Supervisor.newInstance]
  cases hp : takeStreams s.config call.request channel with
  | none => exact .absent rfl
  | some p =>
    obtain ⟨hsequence, hsent, hbuffered, hlimit⟩ := takeStreams_limit hvalid hp
    exact .active [] rfl Piece.open_nil hsequence rfl hlimit hsent (by omega) (by omega) hbuffered

theorem Sound.insert (h : Sound encodeBase64 s) {i next} (hname : i.executionId ∉ s.names)
    (hroom : s.executions.length < s.config.maxConcurrentExec) (hnumber : i.number = s.started) (hlog : i.log = [])
    (hrunning : Running encodeBase64 i) (hnext : 1 ≤ next ∧ next ≤ MAX_U64) : Sound encodeBase64 (s.insert i next) := by
  have hperm : (s.insert i next).executions.Perm (i :: s.executions) := perm_orderedInsert _ _ _
  have hall : ((s.insert i next).executions ++ (s.insert i next).ended).Perm (i :: (s.executions ++ s.ended)) :=
    hperm.append_right _
  have hfresh : i.number ∉ (s.executions ++ s.ended).map fun i => i.number := by
    intro hmem
    obtain ⟨j, hj, heq⟩ := List.mem_map.mp hmem
    have := h.known j hj
    omega
  refine ⟨h.valid, hnext, ?_, ?_, ?_, h.finished, ?_, ?_, ?_, ?_, ?_, h.queue⟩
  · rw [Supervisor.names, (hperm.map _).nodup_iff, map_cons, nodup_cons]
    exact ⟨hname, h.distinct⟩
  · rw [hperm.length_eq, length_cons]
    exact hroom
  · intro j hj
    rcases mem_cons.mp (hperm.mem_iff.mp hj) with rfl | hj
    · exact hrunning
    · exact h.running j hj
  · rw [(hall.map _).nodup_iff, map_cons, nodup_cons]
    exact ⟨hfresh, h.numbered⟩
  · intro j hj
    show j.number < s.started + 1
    rcases mem_cons.mp (hall.mem_iff.mp hj) with rfl | hj
    · omega
    · have := h.known j hj
      omega
  · intro n hn
    rw [(hall.map _).mem_iff, map_cons, mem_cons, hnumber]
    rcases Nat.lt_succ_iff_lt_or_eq.mp hn with hn | hn
    · exact .inr (h.all n hn)
    · exact .inl hn
  · intro e he
    have := h.tags e he
    show e.1 < s.started + 1
    omega
  · intro j hj
    rcases mem_cons.mp (hall.mem_iff.mp hj) with rfl | hj
    · have hnone : s.emitted.filter (fun e => e.1 = j.number) = [] := by
        rw [filter_eq_nil_iff]
        intro e he
        have := h.tags e he
        simp only [decide_eq_true_eq]
        omega
      show (s.emitted.filter fun e => e.1 = j.number).map _ = _
      rw [hnone, hlog]
      rfl
    · exact h.attributed j hj

theorem mayStart_room {call} (h : s.mayStart call = .ok ()) :
    s.executions.length < s.config.maxConcurrentExec := by
  unfold Supervisor.mayStart at h
  cases hv : validateExecRequest call with
  | error error =>
    rw [hv] at h
    cases h
  | ok u =>
    rw [hv] at h
    replace h : (if _ then _ else _ : Except RemoteError Unit) = .ok () := h
    split at h
    · cases h
    split at h
    · cases h
    · omega

section

variable (h : Sound encodeBase64 s)
include h

theorem Sound.start (call) : Sound encodeBase64 (s.start call).2 := by
  unfold Supervisor.start
  split
  · exact h
  rename_i hstart
  split
  · exact h
  rename_i pid deadline _
  unfold Supervisor.startProcess
  split
  · exact h
  · rename_i hname
    obtain ⟨hfree, hnext⟩ := allocateExecutionId_free hname
    exact h.insert hfree (mayStart_room hstart) rfl rfl (running_newInstance h.valid _ _ _ _) hnext

theorem Sound.tick (polls) : Sound encodeBase64 (s.tick encodeBase64 polls) := by
  obtain ⟨polled, hpolled⟩ :
      ∃ polled, polled = s.executions.map (Instance.poll encodeBase64 s.config.maxStreamChunkSize polls) := ⟨_, rfl⟩
  have hlist : (s.tick encodeBase64 polls).executions = (polled.filter fun p => !p.2.2).map fun p => p.1 := by
    rw [hpolled]; rfl
  have hended : (s.tick encodeBase64 polls).ended = s.ended ++ (polled.filter fun p => p.2.2).map fun p => p.1 := by
    rw [hpolled]; rfl
  have hpending : (s.tick encodeBase64 polls).pendingEvents =
      s.pendingEvents ++ (Supervisor.queued polled).map fun e => e.2 := by rw [hpolled]; rfl
  have hemitted : (s.tick encodeBase64 polls).emitted = s.emitted ++ Supervisor.queued polled := by rw [hpolled]; rfl
  have hnames : polled.map (fun p => p.1.executionId) = s.names := by
    rw [hpolled, List.map_map]
    exact map_congr_left fun i _ => tick_executionId i.toExecution _ _
  have hnumbers : polled.map (fun p => p.1.number) = s.executions.map fun i => i.number := by
    rw [hpolled, List.map_map]
    rfl
  -- every polled entry comes from one of the table
  have hfrom {p : Instance × List EventKind × Bool} (hp : p ∈ polled) :
      ∃ i ∈ s.executions, p.1.number = i.number ∧ p.1.log = i.log ++ p.2.1 ∧
        (p.2.2 = false → Running encodeBase64 p.1) ∧ (p.2.2 = true → Finished encodeBase64 p.1) := by
    rw [hpolled] at hp
    obtain ⟨i, hi, rfl⟩ := List.mem_map.mp hp
    exact ⟨i, hi, rfl, rfl, (h.running i hi).poll _ polls⟩
  clear hpolled
  have hsplit : ((s.tick encodeBase64 polls).executions ++ (s.tick encodeBase64 polls).ended).Perm
      ((polled.map fun p => p.1) ++ s.ended) := by
    rw [hlist, hended]
    have hperm : ((polled.filter fun p => !p.2.2) ++ polled.filter fun p => p.2.2).Perm polled := by
      have := filter_append_perm (fun p : Instance × List EventKind × Bool => !p.2.2) polled
      simpa using this
    refine ((perm_append_comm.append_left _).trans ?_).trans ((hperm.map fun p => p.1).append_right s.ended)
    rw [map_append, append_assoc]
  have hold : (polled.map fun p => p.1).map (fun i => i.number) = s.executions.map fun i => i.number := by
    rw [List.map_map]
    exact hnumbers
  have hnodup : (s.executions.map fun i => i.number).Nodup := by
    have := h.numbered
    rw [map_append] at this
    exact this.of_append_left
  refine ⟨h.valid, h.counter, ?_, ?_, ?_, ?_, ?_, ?_, ?_, ?_, ?_, ?_⟩
  · rw [Supervisor.names, hlist, List.map_map]
    refine List.Nodup.sublist ?_ h.distinct
    rw [← hnames]
    exact filter_sublist.map _
  · rw [hlist, length_map]
    refine Nat.le_trans (length_filter_le _ _) ?_
    have hlength : polled.length = s.executions.length := by
      have := congrArg List.length hnumbers
      simpa using this
    rw [hlength]
    exact h.bounded
  · rw [hlist]
    intro i hi
    obtain ⟨p, hp, rfl⟩ := List.mem_map.mp hi
    obtain ⟨hp, hrunning⟩ := mem_filter.mp hp
    obtain ⟨-, -, -, -, hrun, -⟩ := hfrom hp
    exact hrun (by simpa using hrunning)
  · rw [hended]
    intro i hi
    rcases mem_append.mp hi with hi | hi
    · exact h.finished i hi
    · obtain ⟨p, hp, rfl⟩ := List.mem_map.mp hi
      obtain ⟨hp, hfinished⟩ := mem_filter.mp hp
      obtain ⟨-, -, -, -, -, hfin⟩ := hfrom hp
      exact hfin hfinished
  · rw [(hsplit.map _).nodup_iff, map_append, hold, ← map_append]
    exact h.numbered
  · intro i hi
    show i.number < s.started
    rcases mem_append.mp (hsplit.mem_iff.mp hi) with hi | hi
    · obtain ⟨p, hp, rfl⟩ := List.mem_map.mp hi
      obtain ⟨i0, hi0, hnumber, -⟩ := hfrom hp
      rw [hnumber]
      exact h.known i0 (mem_append_left _ hi0)
    · exact h.known i (mem_append_right _ hi)
  · intro n hn
    rw [(hsplit.map _).mem_iff, map_append, hold, ← map_append]
    exact h.all n hn
  · rw [hemitted]
    intro e he
    show e.1 < s.started
    rcases mem_append.mp he with he | he
    · exact h.tags e he
    · obtain ⟨p, hp, he⟩ := mem_flatMap.mp he
      obtain ⟨event, -, rfl⟩ := List.mem_map.mp he
      obtain ⟨i0, hi0, hnumber, -⟩ := hfrom hp
      show p.1.number < s.started
      rw [hnumber]
      exact h.known i0 (mem_append_left _ hi0)
  · rw [hemitted]
    intro i hi
    rw [filter_append, map_append]
    rcases mem_append.mp (hsplit.mem_iff.mp hi) with hi | hi
    · obtain ⟨p, hp, rfl⟩ := List.mem_map.mp hi
      obtain ⟨i0, hi0, hnumber, hlog, -⟩ := hfrom hp
      have hnew := filter_tagged (fun p : Instance × List EventKind × Bool => p.1.number)
        (fun p => p.2.1.map fun event => (⟨some p.1.requestId, event⟩ : HandlerEvent)) (hnumbers ▸ hnodup) hp
      rw [Supervisor.queued, hnew, hlog, hnumber, h.attributed i0 (mem_append_left _ hi0), List.map_map, List.map_map]
      congr 1
      exact List.map_id' _
    · have hnone : i.number ∉ polled.map fun p => p.1.number := by
        rw [hnumbers]
        have := h.numbered
        rw [map_append] at this
        exact fun hmem => (disjoint_of_nodup_append this) hmem (List.mem_map_of_mem hi)
      rw [Supervisor.queued, filter_tagged_of_notMem _ _ hnone, map_nil, append_nil]
      exact h.attributed i (mem_append_right _ hi)
  · rw [hemitted, hpending, map_append, h.queue, append_assoc]
    rfl

theorem Sound.pollEvent (polls) : Sound encodeBase64 (s.pollEvent encodeBase64 polls).2 := by
  have hpop {s : Supervisor} (h : Sound encodeBase64 s) : Sound encodeBase64
      { s with pendingEvents := s.pendingEvents.tail, delivered := s.delivered ++ s.pendingEvents.head?.toList } := by
    refine ⟨h.valid, h.counter, h.distinct, h.bounded, h.running, h.finished, h.numbered, h.known, h.all, h.tags,
      h.attributed, ?_⟩
    show s.emitted.map _ = s.delivered ++ s.pendingEvents.head?.toList ++ s.pendingEvents.tail
    rw [h.queue]
    cases s.pendingEvents with
    | nil => simp
    | cons e rest => simp
  unfold Supervisor.pollEvent
  dsimp only
  split
  · exact hpop (h.tick polls)
  · exact hpop h

theorem Sound.perform (command : Command) : Sound encodeBase64 (s.perform encodeBase64 command) := by
  cases command with
  | start call => exact h.start call
  | cancel target executionId signal now =>
    simp only [Supervisor.perform, Supervisor.cancel]
    split
    · exact h
    · refine h.onInstance _ (fun i => ⟨(requestCancel_output _ _ _).2, rfl, rfl⟩) fun i hi => ?_
      exact hi.cancel signal now
  | write executionId channel bytes =>
    refine h.onInstance _ (fun i => ?_) fun i hi => hi.write channel bytes
    unfold Instance.write
    split
    · exact ⟨rfl, rfl, rfl⟩
    · split <;> exact ⟨rfl, rfl, rfl⟩
  | closeWriters executionId channel =>
    refine h.onInstance _ (fun i => ?_) fun i hi => hi.closeWriters channel
    unfold Instance.closeWriters
    split <;> exact ⟨rfl, rfl, rfl⟩
  | pollEvent polls => exact h.pollEvent polls

theorem Sound.run (commands) : Sound encodeBase64 (s.run encodeBase64 commands) := by
  induction commands generalizing s with
  | nil => exact h
  | cons command rest ih => exact ih (h.perform command)

end

theorem perform_config (s : Supervisor) (command : Command) : (s.perform encodeBase64 command).config = s.config := by
  cases command with
  | start call =>
    simp only [Supervisor.perform, Supervisor.start, Supervisor.startProcess]
    repeat' split
    all_goals rfl
  | cancel target executionId signal now =>
    simp only [Supervisor.perform, Supervisor.cancel]
    split <;> rfl
  | write executionId channel bytes => rfl
  | closeWriters executionId channel => rfl
  | pollEvent polls =>
    simp only [Supervisor.perform, Supervisor.pollEvent]
    split <;> rfl

theorem run_config (s : Supervisor) (commands : List Command) : (s.run encodeBase64 commands).config = s.config := by
  induction commands generalizing s with
  | nil => rfl
  | cons command rest ih => exact (ih _).trans (perform_config s command)

theorem Sound.start_named (h : Sound encodeBase64 s) :
    (Supervisor.allocateExecutionId s.names (s.executions.length + 1) s.nextExecutionId).isSome := by
  have hlength : s.names.length = s.executions.length := length_map _
  have hfew := (validate_limits h.valid).1
  have hsmall : ABSOLUTE_MAX_CONCURRENT_EXEC < MAX_U64 := by decide
  have hbounded := h.bounded
  rw [← hlength]
  exact allocateExecutionId_isSome h.counter (by omega)

end

/-! ## The protocol -/

/-- The events of an execution so far: each attached channel has sent numbered pieces of a beginning of what was
    written, within its limit, the last one marked exactly when the channel is gone; others have sent nothing. -/
structure FollowsProtocol (encodeBase64 : List U8 → String) (i : Instance) : Prop where
  attached : ∀ channel limit, i.limits channel = some limit → ∃ pieces : List (Piece U8),
    Sends encodeBase64 i.executionId channel pieces i.log ∧
      pieces.map Piece.number = List.range pieces.length ∧ pieces.length ≤ 2 ^ 64 ∧
      content pieces <+: i.written channel ∧ (content pieces).length ≤ limit ∧
      (if (i.output channel).isSome then ∀ p ∈ pieces, p.last = false else Piece.Ended pieces)
  unattached : ∀ channel, i.limits channel = none → i.log.filter (onChannel channel) = []

theorem Channels.followsProtocol {encodeBase64} {i : Instance}
    (h : Channels encodeBase64 i.limits i.written i.log i.toExecution) : FollowsProtocol encodeBase64 i := by
  refine ⟨fun channel limit hlimit => ?_, fun channel hlimit => ?_⟩
  · have hmax : MAX_U64 + 1 = 2 ^ 64 := by decide
    have hstate := h channel
    rw [hlimit] at hstate
    generalize i.toExecution.output channel = output at hstate ⊢
    cases hstate with
    | active pieces sends opened sequence own small sent within progress split =>
      refine ⟨pieces, sends, opened.numbered, by omega, ⟨_, split⟩, by omega, ?_⟩
      rw [isSome_some, if_pos rfl]
      exact opened.unmarked
    | gone pieces sends ended small count start within =>
      refine ⟨pieces, sends, ended.numbered, by omega, start, within, ?_⟩
      rw [isSome_none, if_neg Bool.false_ne_true]
      exact ended
  · have hstate := h channel
    rw [hlimit] at hstate
    generalize i.toExecution.output channel = output at hstate
    cases hstate with
    | absent quiet => exact quiet

/-- At every moment of every run of a new supervisor: the active executions have different names and are no more than
    configured; each follows the protocol, has sent no exit, and its exit was not seen or a channel is open; each
    finished one follows it with every channel gone, so ended, and has sent the exit once, last. Every execution that
    was started is one of these, and the events handed out and waiting are theirs, each execution's in the order it
    sent them. -/
theorem execution_event_protocol (encodeBase64 : List U8 → String) (config : NativeExecutionConfig) (fresh : Supervisor)
    (hnew : Supervisor.new config = .ok fresh) (commands : List Command) (s : Supervisor)
    (hrun : s = fresh.run encodeBase64 commands) :
    s.names.Nodup ∧ s.executions.length ≤ config.maxConcurrentExec ∧
      (∀ i ∈ s.executions, FollowsProtocol encodeBase64 i ∧ OnlyStreams i.log ∧ i.toExecution.Waits) ∧
      (∀ i ∈ s.ended, FollowsProtocol encodeBase64 i ∧ (∀ channel, i.output channel = none) ∧
        ∃ (before : List EventKind) (status : ExitStatus), OnlyStreams before ∧
          i.log = before ++ [.processExited i.executionId status.code status.signal]) ∧
      (∀ n < s.started, ∃ i ∈ s.executions ++ s.ended, i.number = n) ∧
      (∀ i ∈ s.executions ++ s.ended,
        ((s.emitted.filter fun e => e.1 = i.number).map fun e => e.2.event) = i.log) ∧
      (s.emitted.map fun e => e.2) = s.delivered ++ s.pendingEvents := by
  have hsound : Sound encodeBase64 s := by
    rw [hrun]
    exact (sound_new hnew).run commands
  have hconfig : s.config = config := by
    rw [hrun, run_config]
    obtain ⟨-, rfl⟩ := new_eq_ok hnew
    rfl
  refine ⟨hsound.distinct, hconfig ▸ hsound.bounded, fun i hi => ?_, fun i hi => ?_, fun n hn => ?_, hsound.attributed,
    hsound.queue⟩
  · obtain ⟨hchannels, hstreams, hwaits⟩ := hsound.running i hi
    exact ⟨hchannels.followsProtocol, hstreams, hwaits⟩
  · obtain ⟨hchannels, hclosed, hexited⟩ := hsound.finished i hi
    exact ⟨hchannels.followsProtocol, hclosed, hexited⟩
  · exact List.mem_map.mp (hsound.all n hn)

/-- In every state of every run the search for the name of a new execution ends within one round more than there are
    executions, at a name none of them has. -/
theorem execution_name_found (encodeBase64 : List U8 → String) (config : NativeExecutionConfig) (fresh : Supervisor)
    (hnew : Supervisor.new config = .ok fresh) (commands : List Command) :
    let s := fresh.run encodeBase64 commands
    ∃ name next, Supervisor.allocateExecutionId s.names (s.executions.length + 1) s.nextExecutionId =
      some (name, next) ∧
      name ∉ s.names ∧ 1 ≤ next ∧ next ≤ MAX_U64 := by
  intro s
  have hsound : Sound encodeBase64 s := (sound_new hnew).run commands
  obtain ⟨⟨name, next⟩, hfound⟩ := isSome_iff_exists.mp hsound.start_named
  exact ⟨name, next, hfound, allocateExecutionId_free hfound⟩

/-! ## One run -/

def defaultConfig : NativeExecutionConfig := ⟨4, 1024, 4 * 1024 * 1024, 4 * 1024 * 1024⟩

/-- A process with both channels attached. -/
def startTrue : StartCall :=
  ⟨⟨"r1"⟩, ⟨["true"], [], none, false, false, true, true, none⟩, false, ⟨none, .ok 7, none, none⟩⟩

/-- Both channels are read as far as they go, at a time. -/
def pollAt (now : Nat) (wait : WaitAnswer) : Command :=
  .pollEvent fun _ => ⟨now, false, (wait, now), fun _ => .upTo 1024, (.running, now)⟩

/-- The process writes two bytes to stdout and exits; one poll reads them, the next one the ends and the exit. -/
def oneProcess : List Command :=
  [.start startTrue, .write "exec-1" .stdout [104, 105], .closeWriters "exec-1" .stdout, .closeWriters "exec-1" .stderr,
    pollAt 0 (.exited ⟨some 0, none⟩), pollAt 0 .running, pollAt 0 .running]

def textOf (bytes : List U8) : String := String.ofList (bytes.map fun b => Char.ofNat b.toNat)

theorem oneProcess_follows :
    (((Supervisor.mk defaultConfig 1 [] [] 0 [] [] []).run textOf oneProcess).ended.map fun i => i.log) =
        [[.stream "exec-1" .stdout 0 "hi" false, .stream "exec-1" .stderr 0 "" true, .stream "exec-1" .stdout 1 "" true,
          .processExited "exec-1" (some 0) none]] ∧
      ∀ i ∈ ((Supervisor.mk defaultConfig 1 [] [] 0 [] [] []).run textOf oneProcess).ended, FollowsProtocol textOf i :=
  ⟨by decide +kernel, fun i hi =>
    ((execution_event_protocol textOf defaultConfig _ rfl oneProcess _ rfl).2.2.2.1 i hi).1⟩

/-- While the process runs its name is taken. -/
theorem oneProcess_name_found :
    let s := (Supervisor.mk defaultConfig 1 [] [] 0 [] [] []).run textOf (oneProcess.take 5)
    s.names = ["exec-1"] ∧ ∃ name next,
      Supervisor.allocateExecutionId s.names (s.executions.length + 1) s.nextExecutionId = some (name, next) ∧
        name ∉ s.names ∧ 1 ≤ next ∧ next ≤ MAX_U64 :=
  ⟨by decide +kernel, execution_name_found textOf defaultConfig _ rfl (oneProcess.take 5)⟩

end Rish.Agent
