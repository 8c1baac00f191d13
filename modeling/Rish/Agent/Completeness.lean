/-
  Rish.Agent.Completeness — when everything a process wrote is delivered.

  After the exit of a process was seen its channels have a period to drain; a poll past it closes those still open,
  with what is in their pipes. Before that, a channel ends at the end of its pipe, past its limit or on a read error.
-/

import Rish.Agent.EventProtocol

namespace Rish.Agent

open Lib Protocol List

/-- The channel has ended, and its pieces are all that was written. -/
def Delivered (encodeBase64 : List U8 → String) (executionId : String) (channel : StreamChannel) (written : List U8)
    (log : List EventKind) : Prop :=
  ∃ pieces, Sends encodeBase64 executionId channel pieces log ∧ Piece.Ended pieces ∧ Piece.content pieces = written

section

variable {encodeBase64 : List U8 → String} {executionId : String} {channel : StreamChannel} {written : List U8}
  {log : List EventKind}

theorem Delivered.quiet (h : Delivered encodeBase64 executionId channel written log) {events}
    (hquiet : events.filter (onChannel channel) = []) :
    Delivered encodeBase64 executionId channel written (log ++ events) := by
  obtain ⟨pieces, hsends, hended, hcontent⟩ := h
  refine ⟨pieces, ?_, hended, hcontent⟩
  rw [Sends, filter_append, hquiet, append_nil]
  exact hsends

variable {answer : ReadAnswer} {p reader : Pipe}

theorem Pipe.read_empty {n} (hn : 0 < n) (h : p.read answer n = (.ok [], reader)) : p.buffered = [] := by
  cases answer with
  | upTo k =>
    simp only [Pipe.read] at h
    split at h
    · assumption
    · rename_i hne
      have hlength := congrArg List.length (ReadResult.ok.inj (Prod.mk.inj h).1)
      rw [length_take, length_nil] at hlength
      have hpos := length_pos_iff.mpr hne
      omega
  | interrupted => cases h
  | eio => cases h
  | failed => cases h

theorem Pipe.read_error {n} :
    (p.read answer n = (.eio, reader) → answer = .eio) ∧ (p.read answer n = (.failed, reader) → answer = .failed) := by
  cases answer with
  | upTo k =>
    simp only [Pipe.read]
    split
    · split <;> exact ⟨fun h => (by cases h), fun h => (by cases h)⟩
    · exact ⟨fun h => (by cases h), fun h => (by cases h)⟩
  | interrupted => exact ⟨fun h => (by cases h), fun h => (by cases h)⟩
  | eio => exact ⟨fun _ => rfl, fun h => (by cases h)⟩
  | failed => exact ⟨fun h => (by cases h), fun _ => rfl⟩

theorem readLimit_pos (p) (chunkSize : Nat) : 0 < readLimit p chunkSize := Nat.le_max_right _ _

/-- The read call does not fail. A pseudoterminal whose other side is closed ends with EIO where a pipe ends with
    nothing read. -/
def ReadsWell (output : OutputPipe) (answer : ReadAnswer) : Prop :=
  answer ≠ .failed ∧ (answer = .eio → output.ptyEioIsEof = true ∧ output.reader.closed = true ∧
    output.reader.buffered = [])

instance (output : OutputPipe) (answer : ReadAnswer) : Decidable (ReadsWell output answer) :=
  inferInstanceAs (Decidable (_ ∧ (_ → _)))

theorem delivered_of_poll {l p} {chunkSize : Nat}
    (h : ChannelState encodeBase64 executionId channel written log (some l) (some p)) (hwithin : written.length ≤ l)
    (hanswer : ReadsWell p answer)
    (hgone : (pollOutput encodeBase64 executionId channel (some p) chunkSize answer).1 = none) :
    Delivered encodeBase64 executionId channel written
      (log ++ (pollOutput encodeBase64 executionId channel (some p) chunkSize answer).2.event.toList) := by
  cases h with
  | active pieces sends opened sequence own small sent within progress split =>
  have hfinish (failed : Bool) (hempty : p.reader.buffered = []) :
      Delivered encodeBase64 executionId channel written
        (log ++ (finishOutput encodeBase64 executionId channel p failed).2.event.toList) := by
    rw [hempty, append_nil] at split
    refine ⟨pieces ++ [⟨pieces.length, [], true⟩], ?_, opened.finish [], ?_⟩
    · rw [finishOutput, sequence]
      exact sends.snoc _ _ _
    · rw [Piece.content_snoc, append_nil, split]
  revert hgone
  unfold pollOutput pollPipe
  dsimp only
  split
  · rename_i hread
    intro _
    exact hfinish false (Pipe.read_empty (readLimit_pos p chunkSize) hread)
  · -- within the limit nothing is cut off, so the channel stays
    rename_i b data reader hread
    have hall := Pipe.read_ok hread
    have hlength : p.sent + (b :: data).length ≤ l := by
      have := congrArg List.length split
      rw [← hall, length_append, length_append] at this
      omega
    intro hgone
    rw [sendOutput] at hgone
    dsimp only at hgone
    rw [decide_eq_false (by omega), if_neg Bool.false_ne_true] at hgone
    cases hgone
  · intro hgone
    cases hgone
  · intro hgone
    cases hgone
  · rename_i hread
    intro _
    exact hfinish _ (hanswer.2 (Pipe.read_error.1 hread)).2.2
  · rename_i hread
    exact absurd (Pipe.read_error.2 hread) hanswer.1

/-- After a read that fails in neither way the channel is gone or another read may answer the same. -/
theorem readsWell_again {output chunkSize} (h : ∀ p ∈ output, ReadsWell p answer) :
    ∀ p ∈ (pollOutput encodeBase64 executionId channel output chunkSize answer).1, ReadsWell p answer := by
  intro p hp
  cases output with
  | none => cases hp
  | some before =>
    refine ⟨(h before rfl).1, fun heio => ?_⟩
    subst heio
    cases hp

end

/-! ## One poll -/

section

variable {encodeBase64 : List U8 → String} {limits : StreamChannel → Option Nat} {written : StreamChannel → List U8}
  {log : List EventKind} {e : Execution} {channel : StreamChannel} {l : Nat}

def DeliveredOrOpen (encodeBase64 : List U8 → String) (channel : StreamChannel) (written : List U8)
    (log : List EventKind)
    (e : Execution) : Prop :=
  e.output channel = none → Delivered encodeBase64 e.executionId channel written log

theorem setOutput_ne {other} (h : channel ≠ other) (output) :
    (e.setOutput other output).output channel = e.output channel := if_neg h

theorem setOutput_self (output) : (e.setOutput channel output).output channel = output := if_pos rfl

theorem DeliveredOrOpen.pollOutputs (channels) (chunkSize : Nat) {read}
    (hlimit : limits channel = some l) (hwithin : (written channel).length ≤ l)
    (hanswer : ∀ p ∈ e.output channel, ReadsWell p (read channel))
    (hchannels : Channels encodeBase64 limits written log e)
    (h : DeliveredOrOpen encodeBase64 channel (written channel) log e) :
    DeliveredOrOpen encodeBase64 channel (written channel)
      (log ++ (e.pollOutputs encodeBase64 chunkSize read channels).1)
      (e.pollOutputs encodeBase64 chunkSize read channels).2.2 := by
  induction channels generalizing e log with
  | nil =>
    rw [Execution.pollOutputs, append_nil]
    exact h
  | cons next rest ih =>
    have hstate := (hchannels next).poll chunkSize (read next)
    have hothers (other : StreamChannel) (hne : other ≠ next) :=
      pollOutput_others encodeBase64 e.executionId next (e.output next) chunkSize (read next) hne
    have hnext := hchannels.setOutput hstate hothers
    have hhere : DeliveredOrOpen encodeBase64 channel (written channel)
        (log ++ (pollOutput encodeBase64 e.executionId next (e.output next) chunkSize (read next)).2.event.toList)
        (e.setOutput next (pollOutput encodeBase64 e.executionId next (e.output next) chunkSize (read next)).1) := by
      intro hgone
      by_cases hc : channel = next
      · subst hc
        rw [setOutput_self] at hgone
        cases hp : e.output channel with
        | none =>
          rw [pollOutput, Option.toList_none, append_nil]
          exact h hp
        | some p =>
          have hstate := hchannels channel
          rw [hlimit, hp] at hstate
          rw [hp] at hgone
          exact delivered_of_poll hstate hwithin (hanswer p hp) hgone
      · rw [setOutput_ne hc] at hgone
        exact (h hgone).quiet (hothers channel hc)
    have hread : ∀ p ∈ (e.setOutput next
        (pollOutput encodeBase64 e.executionId next (e.output next) chunkSize (read next)).1).output channel,
        ReadsWell p (read channel) := by
      intro p hp
      by_cases hc : channel = next
      · subst hc
        rw [setOutput_self] at hp
        exact readsWell_again hanswer p hp
      · rw [setOutput_ne hc] at hp
        exact hanswer p hp
    rw [Execution.pollOutputs]
    dsimp only
    rw [← append_assoc]
    exact ih hread hnext hhere

variable (encodeBase64) in
theorem closeOutputs_quiet (channels) (hgone : e.output channel = none) :
    (e.closeOutputs encodeBase64 channels).1.filter (onChannel channel) = [] := by
  induction channels generalizing e with
  | nil => rfl
  | cons next rest ih =>
    rw [Execution.closeOutputs]
    dsimp only
    rw [filter_append]
    have hrest : (e.setOutput next (closeOutput encodeBase64 e.executionId next (e.output next)).1).output channel =
        none := by
      by_cases hc : channel = next
      · subst hc
        exact setOutput_self _
      · rw [setOutput_ne hc]
        exact hgone
    rw [ih hrest, append_nil, closeOutput]
    by_cases hc : channel = next
    · subst hc
      rw [hgone]
      rfl
    · cases e.output next with
      | none => rfl
      | some p => exact filter_stream_ne hc _ _ _ _

/-- The channel is not open, or this poll is in time for it and its read does not fail. -/
def InTime (channel : StreamChannel) (poll : Poll) (e : Execution) : Prop :=
  ∀ p ∈ e.output channel, due (e.prepare poll).drainDeadline poll.now = false ∧ ReadsWell p (poll.read channel)

instance (poll : Poll) (e : Execution) : Decidable (InTime channel poll e) :=
  inferInstanceAs (Decidable (∀ p ∈ e.output channel, _))

theorem DeliveredOrOpen.tick {chunkSize poll} (hlimit : limits channel = some l)
    (hwithin : (written channel).length ≤ l) (hintime : InTime channel poll e)
    (hchannels : Channels encodeBase64 limits written log e)
    (h : DeliveredOrOpen encodeBase64 channel (written channel) log e) :
    DeliveredOrOpen encodeBase64 channel (written channel) (log ++ (e.tick encodeBase64 chunkSize poll).1)
      (e.tick encodeBase64 chunkSize poll).2.2 := by
  obtain ⟨houtput, hid⟩ := prepare_output e poll
  have hprepared := hchannels.congr (prepare_output e poll)
  have hbefore : DeliveredOrOpen encodeBase64 channel (written channel) log (e.prepare poll) := by
    intro hgone
    rw [hid]
    exact h (houtput ▸ hgone)
  have hsent : DeliveredOrOpen encodeBase64 channel (written channel)
      (log ++ ((e.prepare poll).outputs encodeBase64 chunkSize poll).1)
      ((e.prepare poll).outputs encodeBase64 chunkSize poll).2 := by
    unfold Execution.outputs
    split
    · rename_i hdue
      -- past the drain period the channel is gone already
      have hgone : (e.prepare poll).output channel = none := by
        cases ho : e.output channel with
        | none => rw [houtput, ho]
        | some p =>
          have := (hintime p ho).1
          rw [this] at hdue
          cases hdue
      intro _
      have hclosed := (hbefore hgone).quiet (closeOutputs_quiet encodeBase64 Execution.CHANNELS hgone)
      have hname : ((e.prepare poll).closeOutputs encodeBase64 Execution.CHANNELS).2.executionId =
          (e.prepare poll).executionId := rfl
      rw [hname]
      exact hclosed
    · have hread : ∀ p ∈ (e.prepare poll).output channel, ReadsWell p (poll.read channel) := by
        intro p hp
        rw [houtput] at hp
        exact (hintime p hp).2
      have hpolled := hbefore.pollOutputs Execution.CHANNELS chunkSize hlimit hwithin hread hprepared
      intro hgone
      dsimp only at hgone ⊢
      split at hgone <;> split <;> exact hpolled hgone
  unfold Execution.tick
  dsimp only
  generalize hs : (e.prepare poll).outputs encodeBase64 chunkSize poll = sent at *
  obtain ⟨hafter, hname⟩ := observeChildExit_output sent.2 poll.waitAgain
  intro hgone
  rw [hafter] at hgone
  rw [hname, ← append_assoc]
  refine (hsent hgone).quiet ?_
  cases hexit : (sent.2.observeChildExit poll.waitAgain).exitEvent with
  | none => rfl
  | some event =>
    obtain ⟨-, status, rfl⟩ := exitEvent_eq_some hexit
    rfl

end

/-! ## Runs -/

/-- A poll of the table comes in time for the channel of an execution. Without a poll nothing is read. -/
def Punctual (channel : StreamChannel) (number : Nat) (s : Supervisor) : Command → Prop
  | .pollEvent polls => s.pendingEvents = [] → ∀ i ∈ s.executions, i.number = number →
    InTime channel (polls i.executionId) i.toExecution
  | _ => True

instance (channel : StreamChannel) (number : Nat) (s : Supervisor) (command : Command) :
    Decidable (Punctual channel number s command) :=
  match command with
  | .pollEvent polls => inferInstanceAs (Decidable (s.pendingEvents = [] → ∀ i ∈ s.executions, i.number = number →
    InTime channel (polls i.executionId) i.toExecution))
  | .start _ => inferInstanceAs (Decidable True)
  | .cancel _ _ _ _ => inferInstanceAs (Decidable True)
  | .write _ _ _ => inferInstanceAs (Decidable True)
  | .closeWriters _ _ => inferInstanceAs (Decidable True)

/-- Every poll of a run does. -/
def AllPunctual (encodeBase64 : List U8 → String) (channel : StreamChannel) (number : Nat) :
    Supervisor → List Command → Prop
  | _, [] => True
  | s, command :: rest =>
    Punctual channel number s command ∧ AllPunctual encodeBase64 channel number (s.perform encodeBase64 command) rest

instance decidableAllPunctual (encodeBase64 : List U8 → String) (channel : StreamChannel) (number : Nat) :
    (s : Supervisor) → (commands : List Command) → Decidable (AllPunctual encodeBase64 channel number s commands)
  | _, [] => inferInstanceAs (Decidable True)
  | s, command :: rest =>
    haveI := decidableAllPunctual encodeBase64 channel number (s.perform encodeBase64 command) rest
    inferInstanceAs (Decidable (_ ∧ _))

section

variable {encodeBase64 : List U8 → String} {channel : StreamChannel} {number : Nat} {s : Supervisor} {i : Instance}

/-- Nothing of an execution that stays within the limit is lost. -/
def KeptBy (encodeBase64 : List U8 → String) (channel : StreamChannel) (i : Instance) : Prop :=
  ∀ l, i.limits channel = some l → (i.written channel).length ≤ l →
    DeliveredOrOpen encodeBase64 channel (i.written channel) i.log i.toExecution

/-- Nothing of this execution is. -/
def Kept (encodeBase64 : List U8 → String) (channel : StreamChannel) (number : Nat) (s : Supervisor) : Prop :=
  ∀ i ∈ s.executions ++ s.ended, i.number = number → KeptBy encodeBase64 channel i

section

variable (h : KeptBy encodeBase64 channel i)
include h

theorem KeptBy.write (other) (bytes : List U8) :
    KeptBy encodeBase64 channel (i.write other bytes) := by
  unfold Instance.write
  cases hp : i.output other with
  | none => exact h
  | some pipe =>
    dsimp only
    split
    · exact h
    intro l hl hwithin hgone
    by_cases hc : channel = other
    · subst hc
      rw [setOutput_self] at hgone
      cases hgone
    · rw [setOutput_ne hc] at hgone
      simp only [hc, if_false] at hwithin ⊢
      exact h l hl hwithin hgone

theorem KeptBy.closeWriters (other) : KeptBy encodeBase64 channel (i.closeWriters other) := by
  unfold Instance.closeWriters
  cases hp : i.output other with
  | none => exact h
  | some pipe =>
    intro l hl hwithin hgone
    by_cases hc : channel = other
    · subst hc
      rw [setOutput_self] at hgone
      cases hgone
    · rw [setOutput_ne hc] at hgone
      exact h l hl hwithin hgone

theorem KeptBy.cancel (signal now) :
    KeptBy encodeBase64 channel { i with toExecution := i.toExecution.requestCancel signal now } := by
  obtain ⟨houtput, hid⟩ := requestCancel_output i.toExecution signal now
  intro l hl hwithin hgone
  rw [houtput] at hgone
  rw [hid]
  exact h l hl hwithin hgone

end

theorem keptBy_newInstance (call) (executionId : String) (pid : U32) (deadline) :
    KeptBy encodeBase64 channel (s.newInstance call executionId pid deadline) := by
  intro l hl _ hgone
  simp only [Supervisor.newInstance] at hl hgone
  rw [hgone] at hl
  cases hl

theorem Kept.onInstance (h : Kept encodeBase64 channel number s) (executionId) {f}
    (hnumber : ∀ i, (f i).number = i.number)
    (hkept : ∀ i, KeptBy encodeBase64 channel i → KeptBy encodeBase64 channel (f i)) :
    Kept encodeBase64 channel number (s.onInstance executionId f) := by
  intro i hi hn
  rcases mem_append.mp hi with hi | hi
  · obtain ⟨i0, hi0, rfl⟩ := mem_map.mp hi
    split at hn
    · rw [if_pos (by assumption)]
      exact hkept i0 (h i0 (mem_append_left _ hi0) ((hnumber i0).symm.trans hn))
    · rw [if_neg (by assumption)]
      exact h i0 (mem_append_left _ hi0) hn
  · exact h i (mem_append_right _ hi) hn

theorem Kept.start (h : Kept encodeBase64 channel number s) (call) :
    Kept encodeBase64 channel number (s.start call).2 := by
  unfold Supervisor.start
  split
  · exact h
  split
  · exact h
  unfold Supervisor.startProcess
  split
  · exact h
  intro i hi hn
  rcases mem_append.mp hi with hi | hi
  · have hperm := perm_orderedInsert (fun a b : Instance => a.executionId ≤ b.executionId)
    rcases mem_cons.mp ((hperm _ _).mem_iff.mp hi) with rfl | hi
    · exact keptBy_newInstance _ _ _ _
    · exact h i (mem_append_left _ hi) hn
  · exact h i (mem_append_right _ hi) hn

section

variable (hsound : Sound encodeBase64 s)
include hsound

section

variable (h : Kept encodeBase64 channel number s)
include h

theorem Kept.tick {polls}
    (hintime : ∀ i ∈ s.executions, i.number = number → InTime channel (polls i.executionId) i.toExecution) :
    Kept encodeBase64 channel number (s.tick encodeBase64 polls) := by
  have hpolled (i : Instance) (hi : i ∈ s.executions) (hn : i.number = number) :
      KeptBy encodeBase64 channel (i.poll encodeBase64 s.config.maxStreamChunkSize polls).1 := by
    intro l hl hwithin
    exact (h i (mem_append_left _ hi) hn l hl hwithin).tick hl hwithin (hintime i hi hn) (hsound.running i hi).channels
  intro i hi hn
  have hcases : i ∈ s.ended ∨ ∃ i0 ∈ s.executions, i = (i0.poll encodeBase64 s.config.maxStreamChunkSize polls).1 := by
    rcases mem_append.mp hi with hi | hi
    · obtain ⟨p, hp, rfl⟩ := mem_map.mp hi
      obtain ⟨i0, hi0, rfl⟩ := mem_map.mp (mem_filter.mp hp).1
      exact .inr ⟨i0, hi0, rfl⟩
    · rcases mem_append.mp hi with hi | hi
      · exact .inl hi
      · obtain ⟨p, hp, rfl⟩ := mem_map.mp hi
        obtain ⟨i0, hi0, rfl⟩ := mem_map.mp (mem_filter.mp hp).1
        exact .inr ⟨i0, hi0, rfl⟩
  rcases hcases with hended | ⟨i0, hi0, rfl⟩
  · exact h i (mem_append_right _ hended) hn
  · exact hpolled i0 hi0 hn

theorem Kept.perform {command}
    (hpunctual : Punctual channel number s command) :
    Kept encodeBase64 channel number (s.perform encodeBase64 command) := by
  cases command with
  | start call => exact h.start call
  | cancel target executionId signal now =>
    simp only [Supervisor.perform, Supervisor.cancel]
    split
    · exact h
    · exact h.onInstance _ (fun _ => rfl) fun i hi => hi.cancel signal now
  | write executionId other bytes =>
    refine h.onInstance _ (fun i => ?_) fun i hi => hi.write other bytes
    unfold Instance.write
    split
    · rfl
    · split <;> rfl
  | closeWriters executionId other =>
    refine h.onInstance _ (fun i => ?_) fun i hi => hi.closeWriters other
    unfold Instance.closeWriters
    split <;> rfl
  | pollEvent polls =>
    simp only [Supervisor.perform, Supervisor.pollEvent]
    split
    · rename_i hempty
      exact Kept.tick hsound h (hpunctual (List.isEmpty_iff.mp hempty))
    · exact h

theorem Kept.run {commands} (hpunctual : AllPunctual encodeBase64 channel number s commands) :
    Kept encodeBase64 channel number (s.run encodeBase64 commands) := by
  induction commands generalizing s with
  | nil => exact h
  | cons command rest ih => exact ih (hsound.perform command) (h.perform hsound hpunctual.1) hpunctual.2

end

end

end

/-- In every run of a new supervisor, for an attached channel of an execution whose process wrote no more than the
    limit, whose reads fail only at a terminal's end and which no poll finds open past the drain period: what was sent
    and what is in the pipe are what the process wrote, and once the channel has ended, everything was sent before its
    end. -/
theorem output_complete (encodeBase64 : List U8 → String) (config : NativeExecutionConfig) (fresh : Supervisor)
    (hnew : Supervisor.new config = .ok fresh) (commands : List Command) (i : Instance)
    (hi : i ∈ (fresh.run encodeBase64 commands).executions ++ (fresh.run encodeBase64 commands).ended)
    (channel : StreamChannel) (limit : Nat) (hlimit : i.limits channel = some limit)
    (hwithin : (i.written channel).length ≤ limit)
    (hpunctual : AllPunctual encodeBase64 channel i.number fresh commands) :
    ∃ pieces : List (Piece U8), Sends encodeBase64 i.executionId channel pieces i.log ∧
      match i.output channel with
      | some p => Piece.Open pieces ∧ Piece.content pieces ++ p.reader.buffered = i.written channel
      | none => Piece.Ended pieces ∧ Piece.content pieces = i.written channel := by
  have hfresh : Sound encodeBase64 fresh := sound_new hnew
  have hsound := hfresh.run commands
  have hkept : Kept encodeBase64 channel i.number (fresh.run encodeBase64 commands) := by
    refine Kept.run hfresh ?_ hpunctual
    obtain ⟨-, rfl⟩ := new_eq_ok hnew
    intro i hi
    cases hi
  have hchannels : Channels encodeBase64 i.limits i.written i.log i.toExecution := by
    rcases mem_append.mp hi with hi | hi
    · exact (hsound.running i hi).channels
    · exact (hsound.finished i hi).channels
  cases ho : i.output channel with
  | none => exact hkept i hi rfl limit hlimit hwithin ho
  | some p =>
    have hstate := hchannels channel
    rw [hlimit, ho] at hstate
    cases hstate with
    | active pieces sends opened sequence own small sent within progress split => exact ⟨pieces, sends, opened, split⟩

/-- A process on a terminal writes two bytes and exits. The terminal ends with EIO. -/
def terminalProcess : List Command :=
  [.start { startTrue with request.tty := true }, .write "exec-1" .console [104, 105],
    pollAt 0 (.exited ⟨some 0, none⟩), .closeWriters "exec-1" .console,
    .pollEvent fun _ => ⟨0, false, (.running, 0), fun _ => .eio, (.running, 0)⟩, pollAt 0 .running]

/-- The two bytes of a process are delivered before the end of its stdout, or of its terminal. -/
theorem oneProcess_complete :
    [(StreamChannel.stdout, oneProcess), (.console, terminalProcess)].Forall fun run =>
      ∃ i ∈ ((Supervisor.mk defaultConfig 1 [] [] 0 [] [] []).run textOf run.2).ended,
        i.written run.1 = [104, 105] ∧
          ∃ pieces, Sends textOf i.executionId run.1 pieces i.log ∧ Piece.Ended pieces ∧
            Piece.content pieces = [104, 105] := by
  have hfacts : ∀ run ∈ [(StreamChannel.stdout, oneProcess), (.console, terminalProcess)],
      AllPunctual textOf run.1 0 (Supervisor.mk defaultConfig 1 [] [] 0 [] [] []) run.2 ∧
      ∃ i ∈ ((Supervisor.mk defaultConfig 1 [] [] 0 [] [] []).run textOf run.2).ended,
        i.written run.1 = [104, 105] ∧ (∃ l ∈ i.limits run.1, 2 ≤ l) ∧ i.number = 0 ∧
          (i.output run.1).isNone := by decide +kernel
  refine forall_iff_forall_mem.mpr fun run hrun => ?_
  obtain ⟨hpunctual, i, hi, hwritten, ⟨l, hlimit, hl⟩, hnumber, hgone⟩ := hfacts run hrun
  obtain ⟨pieces, hsends, hrest⟩ := output_complete textOf defaultConfig _ rfl run.2 i
    (mem_append_right _ hi) run.1 l hlimit (by rw [hwritten]; exact hl) (hnumber ▸ hpunctual)
  rw [Option.isNone_iff_eq_none.mp hgone, hwritten] at hrest
  exact ⟨i, hi, hwritten, pieces, hsends, hrest⟩

/-- The process writes three bytes and exits. Chunks are of one byte, and the poll after the one that sees the exit
    comes when the drain period is over. -/
def lateProcess : List Command :=
  [.start startTrue, .write "exec-1" .stdout [97, 98, 99], .closeWriters "exec-1" .stdout,
    .closeWriters "exec-1" .stderr, pollAt 0 (.exited ⟨some 0, none⟩), pollAt 0 .running,
    pollAt POST_EXIT_DRAIN_GRACE_PERIOD .running]

/-- One byte of three is delivered before the end. -/
theorem late_poll_loses_output :
    (((Supervisor.mk { defaultConfig with maxStreamChunkSize := 1 } 1 [] [] 0 [] [] []).run textOf
      lateProcess).ended.map
        fun i => (i.written .stdout, i.terminationRequested, i.log)) =
      [([97, 98, 99], false,
        [.stream "exec-1" .stdout 0 "a" false, .stream "exec-1" .stderr 0 "" true, .stream "exec-1" .stdout 1 "" true,
          .processExited "exec-1" (some 0) none])] := by
  decide +kernel

end Rish.Agent
