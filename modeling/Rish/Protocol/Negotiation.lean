/-
  Rish.Protocol.Negotiation — what a handshake leaves of the session's terms.

  The terms are the version the decoder expects and the frame limits of both directions. Sending the
  Hello and waiting for its answer keeps them; only an accepted handshake changes them, the expected
  version first and before the limits are checked.

  Proved: a bootstrap takes the terms over as a whole or not at all exactly when the answer, if one comes,
  is one the host asked for (`bootstrap_atomic_iff`).
-/

import Rish.Protocol.Delivery

namespace Rish.Protocol

open Lib
open Keeps (bind)

namespace FrameDecoder

def terms (d : FrameDecoder) : Option ProtocolVersion × Nat := (d.expectedVersion, d.maxFrameSize)

instance {α : Type} (error) : Keeps (Same terms) (poison error : DecoderM α) := ⟨fun _ => rfl⟩

instance : Keeps (Same terms) (Exec.update compactIfUseful : DecoderM Unit) where
  keeps d := by
    have h := compactIfUseful_settings d
    exact Prod.ext h.expectedVersion h.maxFrameSize

instance (bytes) : Keeps (Same terms) (push bytes) := by
  have h : Keeps (Same terms) (Exec.update fun d => { d with buffer := d.buffer ++ bytes } : DecoderM Unit) :=
    ⟨fun _ => rfl⟩
  unfold push
  infer_instance

instance (envelope) : Keeps (Same terms) (acceptFrame envelope) := by
  unfold acceptFrame
  refine bind fun d => ?_
  split
  · infer_instance
  · cases d.expectedVersion <;> infer_instance

instance (json) : Keeps (Same terms) (nextFrame json) := by
  have hread (position : Nat) : Keeps (Same terms)
      (Exec.update fun d => { d with readPosition := position } : DecoderM Unit) := ⟨fun _ => rfl⟩
  unfold nextFrame
  refine bind fun d => ?_
  split_ifs
  · infer_instance
  · infer_instance
  refine bind fun _ => ?_
  dsimp only
  split_ifs
  · infer_instance
  · infer_instance
  refine bind fun _ => bind fun _ => ?_
  cases json.fromSlice _ <;> infer_instance

end FrameDecoder

namespace Session

variable {τ κ : Type} (host : Host τ κ) (codecs : Codecs) (s : Session τ κ)

/-- The expected version and the limits of what is read and of what is written. -/
def terms : (Option ProtocolVersion × Nat) × Nat := (s.client.decoder.terms, s.client.encoder.maxFrameSize)

instance : Writes (Same (terms : Session τ κ → _)) where
  apart s s' _ hdecoder hencoder _ := by simp only [Same, terms, hdecoder, hencoder]
  wrote _ _ := rfl

instance : Records (Same (terms : Session τ κ → _)) := ⟨fun _ _ => rfl⟩

instance (entry) : Keeps (Same terms) (note entry : SessionM τ κ Unit) := ⟨fun _ => rfl⟩

instance {α : Type} (x) [Keeps (Same FrameDecoder.terms) x] : Keeps (Same terms) (onDecoder x : SessionM τ κ α) where
  keeps s := Prod.ext (Keeps.keeps (R := Same FrameDecoder.terms) (x := x) s.client.decoder) rfl

instance (purpose) : Keeps (Same terms) (advance host purpose) := by unfold advance; infer_instance

instance (initialDropped bytes) : Keeps (Same terms) (checkDropped host initialDropped bytes) := by
  unfold checkDropped; infer_instance

instance : Keeps (Same terms) (nextFrame codecs : SessionM τ κ (Option Envelope)) := by
  unfold nextFrame
  exact bind fun frame => by cases frame <;> infer_instance

instance (initialDropped collected) :
    Keeps (Same terms) (receive host codecs (fun _ => return ()) initialDropped collected) := by
  unfold receive takeIn push; infer_instance

/-! ## The handshake -/

/-- The Hello is sent and its answer awaited. -/
def exchangeHello (hello : Envelope) : SessionM τ κ Envelope := do
  let budget ← Exec.view (·.client.maxAdvancesPerRequest)
  writeFrame host codecs hello budget.toNat
  let frames ← pump host codecs budget.toNat Envelope.isHelloAck
  match frames.find? Envelope.isHelloAck with
  | none => Exec.fail .missingResponse
  | some ack => return ack

theorem bootstrap_eq (hello) :
    bootstrap host codecs hello = exchangeHello host codecs hello >>= fun ack => do
      applyHandshake ack
      return ack := by
  unfold bootstrap exchangeHello
  simp only [bind_assoc]
  refine bind_congr fun budget => bind_congr fun _ => bind_congr fun frames => ?_
  cases frames.find? Envelope.isHelloAck with
  | none => exact (Exec.fail_bind _ _).symm
  | some ack => simp only [pure_bind]

instance (hello) : Keeps (Same terms) (exchangeHello host codecs hello) := by
  unfold exchangeHello
  refine bind fun budget => bind fun _ => bind fun frames => ?_
  cases frames.find? Envelope.isHelloAck <;> infer_instance

/-- The id an acceptance answers, and the session it offers. -/
def accepted? (ack : Envelope) : Option (RequestId × NegotiatedSession) :=
  match ack.message with
  | .helloAck ⟨id, .accepted version sessionId limits⟩ => some (id, ⟨sessionId, version, limits.maxFrameSize⟩)
  | _ => none

/-- The limit is one a frame codec takes, and what the decoder holds is within it. -/
def Usable (session : NegotiatedSession) (d : FrameDecoder) : Prop :=
  validateMaximum session.maxFrameSize.toNat = .ok () ∧ d.bufferedLen ≤ bufferLimit session.maxFrameSize.toNat

def InForce (session : NegotiatedSession) : Prop :=
  s.terms = ((some session.version, session.maxFrameSize.toNat), session.maxFrameSize.toNat) ∧
    s.client.negotiated = some session

section

variable {s} {ack : Envelope} {id : RequestId} {session : NegotiatedSession}

theorem applyHandshake_usable (h : accepted? ack = some (id, session)) (husable : Usable session s.client.decoder) :
    ∃ s', applyHandshake ack s = ⟨.ok (), s', 0⟩ ∧ InForce s' session := by
  obtain ⟨hvalid, hfit⟩ := husable
  unfold accepted? at h
  split at h
  next version sessionId limits hmessage =>
    cases h
    have hset (d : FrameDecoder) (hd : d.bufferedLen ≤ bufferLimit limits.maxFrameSize.toNat) :
        FrameDecoder.setMaxFrameSize limits.maxFrameSize.toNat d = ⟨.ok (), { d with
          maxFrameSize := limits.maxFrameSize.toNat
          maxBufferSize := bufferLimit limits.maxFrameSize.toNat }, 0⟩ := by
      simp only [FrameDecoder.setMaxFrameSize, hvalid, Exec.lift_ok_bind, Exec.view_bind, id_eq, Nat.not_lt.mpr hd,
        if_false, Exec.update_apply]
    have hcall := onDecoder_run (s := { s with client :=
      { s.client with decoder := s.client.decoder.setExpectedVersion (some version) } }) (hset _ hfit)
    simp only [applyHandshake, hmessage, updateClient, Exec.update_bind, hvalid, Outcome.mapErr, Exec.lift_ok_bind]
    exact ⟨_, (Exec.bind_ok hcall).trans rfl, rfl, rfl⟩
  · cases h

theorem applyHandshake_unusable (h : accepted? ack = some (id, session)) (husable : ¬Usable session s.client.decoder) :
    ∃ e s', applyHandshake ack s = ⟨.err e, s', 0⟩ ∧ s'.terms = ((some session.version, s.terms.1.2), s.terms.2) := by
  unfold accepted? at h
  split at h
  next version sessionId limits hmessage =>
    cases h
    have hset (d : FrameDecoder) (hd : d.bufferedLen = s.client.decoder.bufferedLen) :
        ∃ e d', FrameDecoder.setMaxFrameSize limits.maxFrameSize.toNat d = ⟨.err e, d', 0⟩ ∧ d'.terms = d.terms := by
      unfold FrameDecoder.setMaxFrameSize
      rcases hvalid : validateMaximum limits.maxFrameSize.toNat with ⟨⟩ | e | _
      · have hlarge : bufferLimit limits.maxFrameSize.toNat < d.bufferedLen := by
          rw [hd]; exact Nat.lt_of_not_le fun hfit => husable ⟨hvalid, hfit⟩
        simp only [Exec.lift_ok_bind, Exec.view_bind, id_eq, hlarge, if_true, FrameDecoder.poison_apply]
        exact ⟨_, _, rfl, rfl⟩
      · exact ⟨e, d, Exec.bind_err (Exec.lift_apply _ _), rfl⟩
      · simp only [validateMaximum] at hvalid; split at hvalid <;> cases hvalid
    obtain ⟨e, d', hrun, hterms⟩ := hset (s.client.decoder.setExpectedVersion (some version)) rfl
    have hcall := onDecoder_run (s := { s with client :=
      { s.client with decoder := s.client.decoder.setExpectedVersion (some version) } }) hrun
    simp only [applyHandshake, hmessage, updateClient, Exec.update_bind]
    exact ⟨_, _, Exec.bind_err hcall, Prod.ext hterms rfl⟩
  · cases h

theorem applyHandshake_rejected (h : accepted? ack = none) : (applyHandshake ack : SessionM τ κ Unit) = pure () := by
  unfold applyHandshake
  split
  next heq => simp [accepted?, heq] at h
  · rfl

end

/-- The host asked for this: the answer is to its Hello, and the version is one it offered. -/
def Requested (hello : Envelope) (id : RequestId) (session : NegotiatedSession) : Prop :=
  ∃ h, hello.message = .hello h ∧ h.requestId = id ∧ session.version ∈ h.supportedVersions

/-- An acceptance that is given back was asked for and is in force; anything else leaves the terms alone. -/
structure Atomic (hello : Envelope) (r : Run (Session τ κ) SessionError Envelope) : Prop where
  accepted : ∀ ack id session, r.outcome = .ok ack → accepted? ack = some (id, session) →
    Requested hello id session ∧ InForce r.state session
  otherwise : (∀ ack, r.outcome = .ok ack → accepted? ack = none) → r.state.terms = s.terms

/-- An acceptance that can be put in force was asked for, and one that cannot names the version the session
    expects already. -/
def Fair (hello ack : Envelope) (received : Session τ κ) : Prop :=
  ∀ id session, accepted? ack = some (id, session) →
    (Usable session received.client.decoder → Requested hello id session) ∧
    (¬Usable session received.client.decoder → s.client.decoder.expectedVersion = some session.version)

theorem bootstrap_atomic_iff (hello : Envelope) :
    Atomic s hello (bootstrap host codecs hello s) ↔
      ∀ ack received n, exchangeHello host codecs hello s = ⟨.ok ack, received, n⟩ → Fair s hello ack received := by
  have hkeep := Keeps.keeps (R := Same terms) (x := exchangeHello host codecs hello) s
  rw [bootstrap_eq]
  rcases hrun : exchangeHello host codecs hello s with ⟨ack | e | _, received, n⟩ <;> rw [hrun] at hkeep
  · rw [Exec.bind_ok hrun]
    rcases hack : accepted? ack with _ | ⟨id, session⟩
    · rw [applyHandshake_rejected hack, pure_bind]
      refine ⟨fun _ _ _ _ hr => ?_, fun _ => ⟨fun _ _ _ hok h => ?_, fun _ => hkeep⟩⟩
      · cases hr
        exact fun _ _ h => nomatch hack.symm.trans h
      · cases hok
        exact nomatch hack.symm.trans h
    by_cases husable : Usable session received.client.decoder
    · obtain ⟨s', happly, hforce⟩ := applyHandshake_usable hack husable
      rw [Exec.bind_ok happly, Run.after_zero]
      refine ⟨fun hatomic _ _ _ hr => ?_, fun hfair => ⟨fun _ _ _ hok h => ?_, fun hnone => ?_⟩⟩
      · cases hr
        intro _ _ h
        cases hack.symm.trans h
        exact ⟨fun _ => (hatomic.accepted ack id session rfl hack).1, fun hnot => absurd husable hnot⟩
      · cases hok
        cases hack.symm.trans h
        exact ⟨(hfair ack received n rfl id session hack).1 husable, hforce⟩
      · exact nomatch hack.symm.trans (hnone ack rfl)
    · obtain ⟨e, s', happly, hterms⟩ := applyHandshake_unusable hack husable
      rw [Exec.bind_err happly]
      have hiff : s'.terms = s.terms ↔ s.client.decoder.expectedVersion = some session.version := by
        rw [hterms, show received.terms = s.terms from hkeep]
        simp only [terms, FrameDecoder.terms, Prod.mk.injEq, and_true, eq_comm]
      refine ⟨fun hatomic _ _ _ hr => ?_, fun hfair => ⟨fun _ _ _ hok => (by cases hok), fun _ => ?_⟩⟩
      · cases hr
        intro _ _ h
        cases hack.symm.trans h
        exact ⟨fun hin => absurd hin husable, fun _ => hiff.mp (hatomic.otherwise fun _ hok => by cases hok)⟩
      · exact hiff.mpr ((hfair ack received n rfl id session hack).2 husable)
  · rw [Exec.bind_err hrun]
    exact ⟨fun _ _ _ _ h => (by cases h), fun _ => ⟨fun _ _ _ h => (by cases h), fun _ => hkeep⟩⟩
  · rw [Exec.bind_panic hrun]
    exact ⟨fun _ _ _ _ h => (by cases h), fun _ => ⟨fun _ _ _ h => (by cases h), fun _ => hkeep⟩⟩

/-! ## A frame limit of zero -/

def offer : Envelope := .withVersion CURRENT_PROTOCOL_VERSION (.hello ⟨⟨"hello"⟩, [CURRENT_PROTOCOL_VERSION], 64⟩)

def offerText : List U8 := FrameDecoder.messageText "hello" ("\"request_id\":\"hello\",\"role\":\"host\",\"peer\":" ++
  "\x7b\"name\":\"rish\",\"version\":\"1\",\"platform\":\"ios\",\"architecture\":\"aarch64\"\x7d," ++
  "\"supported_versions\":[\x7b\"major\":1,\"minor\":0\x7d],\"requested_capabilities\":[],\"max_frame_size\":64")

/-- The offer accepted with a frame limit of zero. -/
def zeroLimit : Envelope := .withVersion CURRENT_PROTOCOL_VERSION
  (.helloAck ⟨⟨"hello"⟩, .accepted CURRENT_PROTOCOL_VERSION "session" ⟨0⟩⟩)

def zeroLimitText : List U8 := FrameDecoder.messageText "hello_ack"
    ("\"request_id\":\"hello\",\"status\":\"accepted\"," ++
  "\"selected_version\":\x7b\"major\":1,\"minor\":0\x7d,\"session_id\":\"session\",\"peer\":" ++
  "\x7b\"name\":\"guest\",\"version\":\"1\",\"platform\":\"linux\",\"architecture\":\"x86_64\"\x7d," ++
  "\"capabilities\":\x7b\"kernel_release\":\"6\",\"architecture\":\"x86_64\",\"init_system\":\"none\"," ++
  "\"cgroup_version\":null,\"container_runtimes\":[],\"features\":[]\x7d,\"limits\":\x7b\"max_frame_size\":0," ++
  "\"max_concurrent_exec\":1,\"max_port_forwards\":0,\"max_stream_chunk_size\":0\x7d")

def zeroLimitCodecs : Codecs :=
  ⟨FrameDecoder.tableJson [(offerText, offer), (zeroLimitText, zeroLimit)], fun _ => "", fun _ => .error "not base64"⟩

def zeroLimitStart : Session (Nat × List (List U8)) Unit :=
  start (freshClient 2) (0, [beBytes PREFIX_SIZE zeroLimitText.length ++ zeroLimitText])

/-- The bootstrap fails, and the decoder expects the version of the handshake that failed. -/
theorem failed_handshake_sets_version :
    (bootstrap (scriptedHost 1000) zeroLimitCodecs offer zeroLimitStart).outcome = .err (.frame (.invalidMaximum 0)) ∧
      ¬Atomic zeroLimitStart offer (bootstrap (scriptedHost 1000) zeroLimitCodecs offer zeroLimitStart) := by
  have herr : (bootstrap (scriptedHost 1000) zeroLimitCodecs offer zeroLimitStart).outcome =
      .err (.frame (.invalidMaximum 0)) := by decide +kernel
  refine ⟨herr, fun h => absurd (h.otherwise fun ack hok => ?_) (by decide +kernel)⟩
  rw [herr] at hok
  cases hok

end Session

end Rish.Protocol
