/-
  Rish.Protocol.Delivery — what becomes of the bytes the transport returns.

  A step of the guest returns bytes to whoever made it. The pump pushes them into the decoder; the
  loop that writes a frame in several pieces does not, nor does a pump that sees a drop reported.
-/

import Mathlib.Data.List.Forall2
import Rish.Lib.Rules
import Rish.Lib.Triple
import Rish.Lib.Cache
import Rish.Protocol.Session

namespace Rish.Protocol

open Lib List
open Exec (bind_ok bind_err)

/-- A value that is the same before and after. -/
def Same {σ α : Type} (f : σ → α) (s s' : σ) : Prop := f s' = f s

instance {σ α : Type} (f : σ → α) : IsPreorder σ (Same f) where
  refl _ := rfl
  trans _ _ _ h h' := h'.trans h

/-! ## Accounts of the traffic -/

namespace Traffic

def returnedBytes : Traffic → List U8
  | .returned _ bytes => bytes
  | _ => []

def pushedBytes : Traffic → List U8
  | .pushed bytes => bytes
  | _ => []

def refusedBytes : Traffic → List U8
  | .refused bytes => bytes
  | _ => []

/-- Bytes handed to the decoder, whether it took them or not. -/
def offeredBytes : Traffic → List U8
  | .pushed bytes => bytes
  | .refused bytes => bytes
  | _ => []

/-- Bytes that were returned while a frame was being written, or just before a drop was seen. -/
def lostBytes : Traffic → List U8
  | .returned .writing bytes => bytes
  | .discarded bytes => bytes
  | _ => []

def frame? : Traffic → Option Envelope
  | .decoded envelope => some envelope
  | _ => none

def sent? : Traffic → Option Envelope
  | .sent envelope => some envelope
  | _ => none

end Traffic

variable (traffic : List Traffic)

def returnedBytes : List U8 := traffic.flatMap Traffic.returnedBytes
def pushedBytes : List U8 := traffic.flatMap Traffic.pushedBytes
def refusedBytes : List U8 := traffic.flatMap Traffic.refusedBytes
def offeredBytes : List U8 := traffic.flatMap Traffic.offeredBytes
def lostBytes : List U8 := traffic.flatMap Traffic.lostBytes
def decodedFrames : List Envelope := traffic.filterMap Traffic.frame?
def sentFrames : List Envelope := traffic.filterMap Traffic.sent?

@[simp] theorem returnedBytes_append (t u : List Traffic) :
    returnedBytes (t ++ u) = returnedBytes t ++ returnedBytes u :=
  flatMap_append

@[simp] theorem offeredBytes_append (t u : List Traffic) : offeredBytes (t ++ u) = offeredBytes t ++ offeredBytes u :=
  flatMap_append

@[simp] theorem lostBytes_append (t u : List Traffic) : lostBytes (t ++ u) = lostBytes t ++ lostBytes u :=
  flatMap_append

@[simp] theorem decodedFrames_append (t u : List Traffic) :
    decodedFrames (t ++ u) = decodedFrames t ++ decodedFrames u :=
  filterMap_append

@[simp] theorem sentFrames_append (t u : List Traffic) : sentFrames (t ++ u) = sentFrames t ++ sentFrames u :=
  filterMap_append

theorem offeredBytes_length : (offeredBytes traffic).length =
    (pushedBytes traffic).length + (refusedBytes traffic).length := by
  induction traffic with
  | nil => rfl
  | cons entry traffic ih =>
    simp only [offeredBytes, pushedBytes, refusedBytes, flatMap_cons, length_append] at ih ⊢
    cases entry <;>
      simp only [Traffic.offeredBytes, Traffic.pushedBytes, Traffic.refusedBytes, length_nil] <;> omega

theorem pushedBytes_eq_offered {traffic} (h : refusedBytes traffic = []) :
    pushedBytes traffic = offeredBytes traffic := by
  induction traffic with
  | nil => rfl
  | cons entry traffic ih =>
    rw [refusedBytes, flatMap_cons, append_eq_nil_iff] at h
    have hrest := ih h.2
    simp only [offeredBytes, pushedBytes, flatMap_cons] at hrest ⊢
    rw [hrest]
    cases entry with
    | refused bytes => rw [show bytes = [] from h.1]; rfl
    | _ => rfl

/-- What a session can add to the traffic: a step for writing, a step for reading with what followed
    it, a drop seen between two steps, a frame of the guest or of the host. -/
inductive Blocks : List Traffic → Prop where
  | nil : Blocks []
  | writing (bytes : List U8) : Blocks [.returned .writing bytes]
  | idle : Blocks [.returned .reading []]
  | received (bytes : List U8) : Blocks [.returned .reading bytes, .pushed bytes]
  | refused (bytes : List U8) : Blocks [.returned .reading bytes, .refused bytes]
  | discarded (bytes : List U8) : Blocks [.returned .reading bytes, .discarded bytes]
  | dropped : Blocks [.discarded []]
  | decoded (envelope : Envelope) : Blocks [.decoded envelope]
  | sent (envelope : Envelope) : Blocks [.sent envelope]
  | append {t u : List Traffic} : Blocks t → Blocks u → Blocks (t ++ u)

variable {frames : List Envelope} {rest : List U8} {stream : List U8} {t : List Traffic}

theorem Blocks.length_eq (h : Blocks t) :
    (returnedBytes t).length = (offeredBytes t).length + (lostBytes t).length := by
  induction h with
  | append _ _ ih ih' =>
    simp only [returnedBytes_append, offeredBytes_append, lostBytes_append, length_append, ih, ih']; omega
  | _ => simp [returnedBytes, offeredBytes, lostBytes, Traffic.returnedBytes, Traffic.offeredBytes, Traffic.lostBytes]

theorem Blocks.offered_eq (h : Blocks t) (hlost : lostBytes t = []) : offeredBytes t = returnedBytes t := by
  induction h with
  | append _ _ ih ih' =>
    rw [lostBytes_append, append_eq_nil_iff] at hlost
    rw [offeredBytes_append, returnedBytes_append, ih hlost.1, ih' hlost.2]
  | _ =>
    simp_all [returnedBytes, offeredBytes, lostBytes, Traffic.returnedBytes, Traffic.offeredBytes, Traffic.lostBytes]

theorem Blocks.offered_eq_iff (h : Blocks t) : offeredBytes t = returnedBytes t ↔ lostBytes t = [] := by
  refine ⟨fun heq => ?_, h.offered_eq⟩
  have hlen := h.length_eq
  rw [heq] at hlen
  exact eq_nil_of_length_eq_zero (by omega)

/-! ## Frames of a stream -/

/-- The frames are the payloads at the front of the stream, read one after the other. -/
def Decodes (json : Json) (stream : List U8) (frames : List Envelope) (rest : List U8) : Prop :=
  ∃ payloads : List (List U8), stream = (payloads.map fun p => beBytes PREFIX_SIZE p.length ++ p).flatten ++ rest ∧
    List.Forall₂ (fun p e => p.length < 2 ^ 32 ∧ json.fromSlice p = .ok e) payloads frames

theorem Decodes.nil (json : Json) (rest : List U8) : Decodes json rest [] rest := ⟨[], rfl, .nil⟩

variable {json : Json}

theorem Decodes.snoc {payload : List U8} {envelope : Envelope}
    (h : Decodes json stream frames (beBytes PREFIX_SIZE payload.length ++ payload ++ rest))
    (hlen : payload.length < 2 ^ 32)
    (hjson : json.fromSlice payload = .ok envelope) : Decodes json stream (frames ++ [envelope]) rest := by
  obtain ⟨payloads, rfl, hall⟩ := h
  refine ⟨payloads ++ [payload], by simp [append_assoc], ?_⟩
  exact rel_append hall (.cons ⟨hlen, hjson⟩ .nil)

theorem Decodes.more (h : Decodes json stream frames rest)
    (bytes : List U8) : Decodes json (stream ++ bytes) frames (rest ++ bytes) := by
  obtain ⟨payloads, rfl, hall⟩ := h
  exact ⟨payloads, by simp [append_assoc], hall⟩

theorem Decodes.comparable {rest' : List U8} {frames'}
    (h : Decodes json stream frames rest) (h' : Decodes json stream frames' rest') :
    frames <+: frames' ∨ frames' <+: frames := by
  obtain ⟨payloads, rfl, hall⟩ := h
  obtain ⟨payloads', heq, hall'⟩ := h'
  induction hall generalizing payloads' frames' with
  | nil =>
    left
    exact nil_prefix
  | cons hp hall ih =>
    rename_i p e payloads frames
    cases hall' with
    | nil =>
      right
      exact nil_prefix
    | cons hp' hall' =>
      rename_i p' e' payloads' frames'
      simp only [map_cons, flatten_cons, append_assoc] at heq
      obtain ⟨hheader, hrest⟩ := append_inj heq (by simp only [beBytes_length])
      have hlen : p.length = p'.length := by
        have hnat := congrArg beNat hheader
        rw [beNat_beBytes, beNat_beBytes] at hnat
        exact (Nat.mod_eq_of_lt hp.1).symm.trans (hnat.trans (Nat.mod_eq_of_lt hp'.1))
      obtain ⟨rfl, hlater⟩ := append_inj hrest hlen
      have he : e = e' := by
        have hjson := hp.2.symm.trans hp'.2
        cases hjson
        rfl
      rw [he, cons_prefix_cons, cons_prefix_cons]
      simpa using ih payloads' hlater hall'

/-- No frame at the front is complete. -/
def Unfinished (bs : List U8) : Prop := bs.length < PREFIX_SIZE + beNat (bs.take PREFIX_SIZE)

theorem unfinished_of_incomplete {maxFrameSize bs} (h : FrameDecoder.Incomplete maxFrameSize bs) : Unfinished bs := by
  unfold Unfinished
  rcases h with h | h
  · omega
  · exact h.2

namespace Session

variable {τ κ : Type}

/-! ## Programs that write, and programs that read -/

section Sends

variable {α ε : Type} (host : Host τ κ) (codecs : Codecs)

/-- Relations that hold over whatever leaves the traffic, the decoder and the gathered output alone,
    and over a step made while a frame is being written. -/
class Sends (R : Session τ κ → Session τ κ → Prop) : Prop where
  apart : ∀ s s' : Session τ κ, s'.traffic = s.traffic → s'.client.decoder = s.client.decoder →
    s'.capture = s.capture → R s s'
  wrote : ∀ (s : Session τ κ) (bytes : List U8), R s { s with traffic := s.traffic ++ [.returned .writing bytes] }

/-- The same for relations that also ask that the encoder is left alone. -/
class Writes (R : Session τ κ → Session τ κ → Prop) : Prop where
  apart : ∀ s s' : Session τ κ, s'.traffic = s.traffic → s'.client.decoder = s.client.decoder →
    s'.client.encoder = s.client.encoder → s'.capture = s.capture → R s s'
  wrote : ∀ (s : Session τ κ) (bytes : List U8), R s { s with traffic := s.traffic ++ [.returned .writing bytes] }

/-- Relations that hold over the note of a frame sent. -/
class Records (R : Session τ κ → Session τ κ → Prop) : Prop where
  sent : ∀ (s : Session τ κ) (envelope : Envelope), R s { s with traffic := s.traffic ++ [.sent envelope] }

variable {R : Session τ κ → Session τ κ → Prop}

instance [Sends R] : Writes R := ⟨fun _ _ htraffic hdecoder _ => Sends.apart _ _ htraffic hdecoder, Sends.wrote⟩

variable [IsPreorder (Session τ κ) R] [Writes R]

instance (question) : Keeps R (ask question : SessionM τ κ α) :=
  ⟨fun _ => Writes.apart _ _ rfl rfl rfl rfl⟩

omit [IsPreorder (Session τ κ) R] in
theorem keeps_updateClient {f} (hf : ∀ c, (f c).decoder = c.decoder)
    (hencoder : ∀ c, (f c).encoder = c.encoder) : Keeps R (updateClient f : SessionM τ κ Unit) :=
  ⟨fun _ => Writes.apart _ _ rfl (hf _) (hencoder _) rfl⟩

instance (f : ε → SessionError) (x : Except ε α) : Keeps R (liftExcept f x : SessionM τ κ α) := by
  cases x <;> (unfold liftExcept; infer_instance)

instance (bytes) : Keeps R (note (.returned .writing bytes) : SessionM τ κ Unit) :=
  ⟨fun _ => Writes.wrote _ bytes⟩

instance : Keeps R (advance host .writing) := by unfold advance; infer_instance

instance (frame maxAdvances budget offset) : Keeps R (writeFrom host frame maxAdvances budget offset) := by
  induction budget generalizing offset <;> (unfold writeFrom; infer_instance)

instance : Keeps R takeRequestId := by
  unfold takeRequestId
  have h (n : U64) : Keeps R (updateClient fun c => { c with nextRequestId := n } : SessionM τ κ Unit) :=
    keeps_updateClient (fun _ => rfl) fun _ => rfl
  infer_instance

omit [IsPreorder (Session τ κ) R] in
instance (interactive) : Keeps R (setInteractive interactive : SessionM τ κ Unit) :=
  keeps_updateClient (fun _ => rfl) fun _ => rfl

section Records

variable [Records R]

omit [IsPreorder (Session τ κ) R] [Writes R] in
instance (envelope) : Keeps R (note (.sent envelope) : SessionM τ κ Unit) := ⟨fun _ => Records.sent _ envelope⟩

instance (envelope maxAdvances) : Keeps R (writeFrame host codecs envelope maxAdvances) := by
  unfold writeFrame; infer_instance

instance (executionId action version) : Keeps R (writeStreamAction host codecs executionId action version) := by
  unfold writeStreamAction; infer_instance

omit [Records R] in
instance : Keeps R requireNegotiated := by
  unfold requireNegotiated
  exact Keeps.bind fun session => by cases session <;> infer_instance

instance (executionId version pending) : Keeps R (writePending host codecs executionId version pending) := by
  cases pending <;> (unfold writePending; infer_instance)

instance (executionId version) : Keeps R (closeInteractive host codecs executionId version) := by
  unfold closeInteractive
  have h : Keeps R (updateClient fun c =>
      { c with interactive := c.interactive.map fun i => { i with closed := true } } : SessionM τ κ Unit) :=
    keeps_updateClient (fun _ => rfl) fun _ => rfl
  infer_instance

instance (stdin) : Keeps R (writeInteractive host codecs stdin) := by unfold writeInteractive; infer_instance

instance : Keeps R (writePendingStdin host codecs) := by
  unfold writePendingStdin
  exact Keeps.bind fun interactive => by cases interactive <;> infer_instance

variable (observer : Envelope → SessionM τ κ Unit) (maxAdvances : Nat) (done : Envelope → Bool)

omit [Writes R] [Records R] in
instance [Keeps R (nextFrame codecs)] [∀ envelope, Keeps R (observer envelope)] (rounds collected) :
    Keeps R (drainFrames codecs observer rounds collected) := by
  induction rounds generalizing collected with
  | zero => unfold drainFrames; infer_instance
  | succ rounds ih =>
    unfold drainFrames
    exact Keeps.bind fun frame => by cases frame <;> infer_instance

variable [∀ initialDropped, Keeps R (checkDropped host initialDropped [])]
  [∀ initialDropped collected, Keeps R (receive host codecs observer initialDropped collected)]

instance (initialDropped budget collected) :
    Keeps R (pumpFrom host codecs maxAdvances done observer initialDropped budget collected) := by
  induction budget generalizing collected <;> (unfold pumpFrom; infer_instance)

instance : Keeps R (pumpObserved host codecs maxAdvances done observer) := by
  unfold pumpObserved; infer_instance

omit [∀ initialDropped collected, Keeps R (receive host codecs observer initialDropped collected)] in
instance [∀ initialDropped collected, Keeps R (receive host codecs (fun _ => return ()) initialDropped collected)] :
    Keeps R (pump host codecs maxAdvances done) := by unfold pump; infer_instance

end Records

/-! ### Gathering -/

/-- Relations that hold over whatever changes the gathered output alone. -/
class Captures (R : Session τ κ → Session τ κ → Prop) : Prop where
  captured : ∀ (s : Session τ κ) (f : Capture → Capture), R s { s with capture := f s.capture }

variable [Captures R]

omit [IsPreorder (Session τ κ) R] [Writes R] in
instance (f) : Keeps R (updateCapture f : SessionM τ κ Unit) := ⟨fun _ => Captures.captured _ f⟩

instance (channel dataBase64) : Keeps R (captureStream codecs channel dataBase64 : SessionM τ κ Unit) := by
  unfold captureStream; infer_instance

omit [Writes R] in
instance (exitCode signal) : Keeps R (captureExit exitCode signal : SessionM τ κ Unit) := by
  unfold captureExit; infer_instance

omit [Writes R] [Captures R] in
instance : Keeps R (finishCapture : SessionM τ κ ExecOutcome) := by
  unfold finishCapture
  exact Keeps.bind fun capture => by rcases capture.exited with _ | ⟨exitCode, signal⟩ <;> infer_instance

variable (executionId : String)

instance (event) : Keeps R (captureEvent codecs executionId event : SessionM τ κ Unit) := by
  unfold captureEvent; split <;> infer_instance

omit [Writes R] [Captures R] in
instance (observer : Event → SessionM τ κ Unit) [∀ event, Keeps R (observer event)] (envelope) :
    Keeps R (observeOnly executionId observer envelope) := by
  unfold observeOnly; split <;> infer_instance

end Sends

/-! ## Every program of a session -/

variable {json : Json} {s s' : Session τ κ}

/-- The frames decoded so far are those at the front of the bytes offered so far, and a decoder that
    still works has the rest of them unread. -/
structure Consistent (json : Json) (s : Session τ κ) : Prop where
  inBuffer : s.client.decoder.InBuffer
  decodes : ∃ rest, Decodes json (offeredBytes s.traffic) (decodedFrames s.traffic) rest ∧
    (s.client.decoder.poisoned = false → rest = s.client.decoder.unread)

structure Follows (json : Json) (s s' : Session τ κ) : Prop where
  blocks : ∃ t, s'.traffic = s.traffic ++ t ∧ Blocks t
  consistent : Consistent json s → Consistent json s'

instance : IsPreorder (Session τ κ) (Follows json) where
  refl s := ⟨⟨[], by simp, .nil⟩, id⟩
  trans s s' s'' h h' := by
    obtain ⟨t, ht, hb⟩ := h.blocks
    obtain ⟨t', ht', hb'⟩ := h'.blocks
    exact ⟨⟨t ++ t', by rw [ht', ht, append_assoc], hb.append hb'⟩, fun hc => h'.consistent (h.consistent hc)⟩

theorem Follows.noted {t : List Traffic} (hb : Blocks t) (hp : offeredBytes t = []) (hf : decodedFrames t = [])
    (ht : s'.traffic = s.traffic ++ t) (hd : s'.client.decoder = s.client.decoder) : Follows json s s' where
  blocks := ⟨t, ht, hb⟩
  consistent h := by
    refine ⟨hd ▸ h.inBuffer, ?_⟩
    rw [ht, hd, offeredBytes_append, decodedFrames_append, hp, hf, append_nil, append_nil]
    exact h.decodes

instance : Sends (Follows json : Session τ κ → Session τ κ → Prop) where
  apart s s' ht hd _ := .noted .nil rfl rfl (by rw [ht, append_nil]) hd
  wrote s bytes := .noted (.writing bytes) rfl rfl rfl rfl

instance : Records (Follows json : Session τ κ → Session τ κ → Prop) where
  sent _ envelope := .noted (.sent envelope) rfl rfl rfl rfl

instance : Captures (Follows json : Session τ κ → Session τ κ → Prop) where
  captured _ _ := .noted .nil rfl rfl (append_nil _).symm rfl

variable {host : Host τ κ} {w : τ} in
theorem advance_ok (purpose : Purpose) {bytes : List U8} (h : host.advance s.world = (.ok bytes, w)) :
    advance host purpose s =
      ⟨.ok bytes, { s with world := w, traffic := s.traffic ++ [.returned purpose bytes] }, 0⟩ := by
  have hask : ask host.advance s = ⟨.ok (.ok bytes), { s with world := w }, 0⟩ := by simp only [ask, h]
  rw [advance, bind_ok hask]
  rfl

variable {host : Host τ κ} {w : τ} in
theorem advance_error {purpose : Purpose} {message : String} (h : host.advance s.world = (.error message, w)) :
    advance host purpose s = ⟨.err (.advance message), { s with world := w }, 0⟩ := by
  have hask : ask host.advance s = ⟨.ok (.error message), { s with world := w }, 0⟩ := by simp only [ask, h]
  rw [advance, bind_ok hask]
  rfl

variable {host : Host τ κ} {w : τ} {initialDropped dropped : U64} in
theorem checkDropped_ok (bytes : List U8) (h : host.droppedOutput s.world = (dropped, w))
    (hd : dropped = initialDropped) :
    checkDropped host initialDropped bytes s = ⟨.ok (), { s with world := w }, 0⟩ := by
  have hask : ask host.droppedOutput s = ⟨.ok dropped, { s with world := w }, 0⟩ := by simp only [ask, h]
  rw [checkDropped, bind_ok hask, if_neg (not_not.mpr hd)]
  rfl

variable {host : Host τ κ} {w : τ} {initialDropped dropped : U64} in
theorem checkDropped_err (bytes : List U8) (h : host.droppedOutput s.world = (dropped, w))
    (hd : dropped ≠ initialDropped) :
    checkDropped host initialDropped bytes s =
      ⟨.err .droppedBytes, { s with world := w, traffic := s.traffic ++ [.discarded bytes] }, 0⟩ := by
  have hask : ask host.droppedOutput s = ⟨.ok dropped, { s with world := w }, 0⟩ := by simp only [ask, h]
  rw [checkDropped, bind_ok hask, if_pos hd]
  rfl

theorem onDecoder_apply {α : Type} (x : DecoderM α) (s : Session τ κ) :
    onDecoder x s = ⟨(x s.client.decoder).outcome.mapErr .frame,
      { s with client := { s.client with decoder := (x s.client.decoder).state } },
        (x s.client.decoder).accesses⟩ := rfl

variable {d : FrameDecoder}

theorem onDecoder_run {α : Type} {x : DecoderM α} {o : Outcome FrameError α} {n : Nat}
    (h : x s.client.decoder = ⟨o, d, n⟩) :
    onDecoder x s = ⟨o.mapErr .frame, { s with client := { s.client with decoder := d } }, n⟩ := by
  rw [onDecoder_apply, h]

theorem Consistent.withDecoder (h : Consistent json s) (hin : d.InBuffer)
    (hsame : d.poisoned = false → s.client.decoder.poisoned = false ∧ d.unread = s.client.decoder.unread) :
    Consistent json { s with client := { s.client with decoder := d } } := by
  obtain ⟨rest, hdec, hrest⟩ := h.decodes
  refine ⟨hin, rest, hdec, fun hp => ?_⟩
  obtain ⟨hp', hunread⟩ := hsame hp
  exact (hrest hp').trans hunread.symm

theorem Consistent.decoded {envelope : Envelope} {m : Nat} {v}
    (h : Consistent json s) (hin : d.InBuffer) (hp : s.client.decoder.poisoned = false)
    (htake : FrameDecoder.takeFrame json m v s.client.decoder.unread = some (envelope, d.unread)) :
    Consistent json { s with
      client := { s.client with decoder := d }, traffic := s.traffic ++ [.decoded envelope] } := by
  obtain ⟨rest, hdec, hrest⟩ := h.decodes
  obtain ⟨payload, hunread, hlen, -, hjson, -⟩ := FrameDecoder.takeFrame_eq_some.mp htake
  have hpushed : offeredBytes (s.traffic ++ [.decoded envelope]) = offeredBytes s.traffic := by
    simp [offeredBytes, Traffic.offeredBytes]
  have hframes : decodedFrames (s.traffic ++ [.decoded envelope]) = decodedFrames s.traffic ++ [envelope] := by
    simp [decodedFrames, Traffic.frame?]
  rw [hrest hp, hunread] at hdec
  exact ⟨hin, d.unread, by rw [hpushed, hframes]; exact hdec.snoc hlen hjson, fun _ => rfl⟩

instance (codecs) : Keeps (Follows codecs.json) (nextFrame codecs : SessionM τ κ (Option Envelope)) where
  keeps s := by
    have hsame (h : Consistent codecs.json s) :=
      FrameDecoder.nextFrame_cases (d := s.client.decoder) codecs.json h.inBuffer
    rcases hr : FrameDecoder.nextFrame codecs.json s.client.decoder with ⟨o, d, n⟩
    rw [hr] at hsame
    have hcall := onDecoder_run hr
    rcases o with (_ | envelope) | error | _
    · rw [nextFrame, bind_ok hcall]
      refine ⟨⟨[], (append_nil _).symm, .nil⟩, fun h => ?_⟩
      rcases hsame h with ⟨_, _, _, _, _, heq, _⟩ | ⟨heq, -⟩ | ⟨_, _, heq, _⟩ <;> cases heq
      exact h
    · rw [nextFrame, bind_ok hcall]
      refine ⟨⟨[.decoded envelope], rfl, .decoded envelope⟩, fun h => ?_⟩
      rcases hsame h with ⟨_, rest, d', htake, hp, heq, rfl, -, hin⟩ | ⟨heq, -⟩ | ⟨_, _, heq, _⟩ <;> cases heq
      exact h.decoded hin hp htake
    · rw [nextFrame, bind_err hcall]
      refine ⟨⟨[], (append_nil _).symm, .nil⟩, fun h => ?_⟩
      rcases hsame h with ⟨_, _, _, _, _, heq, _⟩ | ⟨heq, -⟩ | ⟨_, _, heq, hp, hin⟩ <;> cases heq
      exact h.withDecoder hin fun hp' => absurd (hp.symm.trans hp') (by decide)
    · rw [nextFrame, Exec.bind_panic hcall]
      refine ⟨⟨[], (append_nil _).symm, .nil⟩, fun h => ?_⟩
      rcases hsame h with ⟨_, _, _, _, _, heq, _⟩ | ⟨heq, -⟩ | ⟨_, _, heq, _⟩ <;> cases heq

section

variable (host : Host τ κ) (codecs : Codecs) (observer : Envelope → SessionM τ κ Unit)
  [∀ envelope, Keeps (Follows codecs.json) (observer envelope)]

omit [∀ envelope, Keeps (Follows codecs.json) (observer envelope)] in
theorem push_apply (bytes : List U8) (s : Session τ κ) :
    push bytes s = ⟨(FrameDecoder.push bytes s.client.decoder).outcome.mapErr .frame,
      { s with
        client := { s.client with decoder := (FrameDecoder.push bytes s.client.decoder).state }
        traffic := s.traffic ++
          [.offered bytes ((FrameDecoder.push bytes s.client.decoder).outcome.mapErr .frame)] },
      (FrameDecoder.push bytes s.client.decoder).accesses⟩ := by
  have hcall : Exec.attempt (onDecoder (FrameDecoder.push bytes)) s = ⟨.ok _, _, _⟩ := rfl
  rw [push, bind_ok hcall, note, Exec.update_bind]
  rfl

theorem offered_eq (bytes : List U8) (taken) :
    Traffic.offered bytes taken = .pushed bytes ∨ Traffic.offered bytes taken = .refused bytes := by
  cases taken with
  | ok _ => exact .inl rfl
  | _ => exact .inr rfl

theorem follows_offered (s : Session τ κ) (bytes : List U8) (taken) : Follows json s { s with
      client := { s.client with decoder := (FrameDecoder.push bytes s.client.decoder).state }
      traffic := s.traffic ++ [.returned .reading bytes, .offered bytes taken] } where
  blocks := by
    refine ⟨_, rfl, ?_⟩
    rcases offered_eq bytes taken with h | h
    · rw [h]
      exact .received bytes
    · rw [h]
      exact .refused bytes
  consistent h := by
    obtain ⟨rest, hdec, hrest⟩ := h.decodes
    obtain ⟨hin, hpush⟩ := FrameDecoder.push_state bytes h.inBuffer
    have hoffered : offeredBytes (s.traffic ++ [.returned .reading bytes, .offered bytes taken]) =
        offeredBytes s.traffic ++ bytes := by
      rcases offered_eq bytes taken with h | h <;> simp [h, offeredBytes, Traffic.offeredBytes]
    have hframes : decodedFrames (s.traffic ++ [.returned .reading bytes, .offered bytes taken]) =
        decodedFrames s.traffic := by
      rcases offered_eq bytes taken with h | h <;> simp [h, decodedFrames, Traffic.frame?]
    refine ⟨hin, rest ++ bytes, by rw [hoffered, hframes]; exact hdec.more bytes, fun hp => ?_⟩
    obtain ⟨hp', hunread⟩ := hpush hp
    rw [hrest hp', hunread]

/-- A step for reading and what follows it. -/
instance (initialDropped collected) :
    Keeps (Follows codecs.json) (receive host codecs observer initialDropped collected) where
  keeps s := by
    rw [receive]
    rcases hr : host.advance s.world with ⟨message | bytes, w⟩
    · rw [bind_err (advance_error hr)]
      exact Sends.apart _ _ rfl rfl rfl
    rw [bind_ok (advance_ok .reading hr), Run.after_zero]
    rcases hd : host.droppedOutput w with ⟨dropped, w'⟩
    by_cases hdrop : dropped = initialDropped
    · rw [bind_ok (checkDropped_ok bytes hd hdrop), Run.after_zero, takeIn]
      by_cases hbytes : bytes = []
      · rw [if_pos hbytes, hbytes]
        exact .noted .idle rfl rfl rfl rfl
      · rw [if_neg hbytes]
        -- the state before the bytes are handed over, and after
        refine IsTrans.trans _ { s with world := w' } _ (Sends.apart _ _ rfl rfl rfl) ?_
        refine IsTrans.trans _ _ _ (follows_offered { s with world := w' } bytes
          ((FrameDecoder.push bytes s.client.decoder).outcome.mapErr .frame)) ?_
        rcases hp : FrameDecoder.push bytes s.client.decoder with ⟨o, d, n⟩
        have hpush := push_apply bytes
          { s with world := w', traffic := s.traffic ++ [.returned .reading bytes] }
        simp only [hp, append_assoc] at hpush ⊢
        rcases o with _ | error | _
        · rw [bind_ok hpush]
          exact Keeps.keeps (x := Exec.view _ >>= fun buffered =>
            drainFrames codecs observer (buffered + 1) collected) _
        · rw [bind_err hpush]
          exact refl _
        · rw [Exec.bind_panic hpush]
          exact refl _
    · rw [bind_err (checkDropped_err bytes hd hdrop)]
      exact .noted (.discarded bytes) rfl rfl (append_assoc _ _ _) rfl

omit [∀ envelope, Keeps (Follows codecs.json) (observer envelope)] in
instance (initialDropped) : Keeps (Follows json) (checkDropped host initialDropped []) := by
  have h : Keeps (Follows json) (note (.discarded []) : SessionM τ κ Unit) :=
    ⟨fun _ => .noted .dropped rfl rfl rfl rfl⟩
  unfold checkDropped
  infer_instance

end

section

variable (host : Host τ κ) (codecs : Codecs)

/-- The negotiated limits keep the unread bytes or poison the decoder. -/
instance (maxFrameSize) :
    Keeps (Follows json) (onDecoder (FrameDecoder.setMaxFrameSize maxFrameSize) : SessionM τ κ Unit) where
  keeps s := by
    refine ⟨⟨[], (append_nil _).symm, .nil⟩, fun h => ?_⟩
    obtain ⟨hin, hsame⟩ := FrameDecoder.setMaxFrameSize_state maxFrameSize h.inBuffer
    exact h.withDecoder hin hsame

instance (ack) : Keeps (Follows json) (applyHandshake ack : SessionM τ κ Unit) := by
  have hversion (version : Option ProtocolVersion) : Keeps (Follows json)
      (updateClient fun c => { c with decoder := c.decoder.setExpectedVersion version } : SessionM τ κ Unit) :=
    ⟨fun s => ⟨⟨[], (append_nil _).symm, .nil⟩, fun h => h.withDecoder h.inBuffer fun hp => ⟨hp, rfl⟩⟩⟩
  have hlimits (encoder : FrameEncoder) (negotiated : NegotiatedSession) : Keeps (Follows json)
      (updateClient fun c => { c with encoder := encoder, negotiated := some negotiated } : SessionM τ κ Unit) :=
    ⟨fun _ => Sends.apart _ _ rfl rfl rfl⟩
  unfold applyHandshake
  split <;> infer_instance

instance (hello) : Keeps (Follows codecs.json) (bootstrap host codecs hello) := by
  unfold bootstrap
  refine Keeps.bind fun budget => Keeps.bind fun _ => Keeps.bind fun frames => ?_
  cases frames.find? Envelope.isHelloAck <;> infer_instance

instance (operation) : Keeps (Follows codecs.json) (request host codecs operation) := by
  unfold request
  refine Keeps.bind fun session => Keeps.bind fun id => Keeps.bind fun budget => Keeps.bind fun _ =>
    Keeps.bind fun frames => ?_
  cases frames.reverse.findSome? (Envelope.responseTo id) <;> infer_instance

/-! ## Executions -/

variable (executionId : String)

instance (events observer) [∀ event, Keeps (Follows codecs.json) (observer event)] :
    Keeps (Follows codecs.json) (collectUntilExitObserved host codecs executionId events observer) := by
  unfold collectUntilExitObserved; infer_instance

instance (stdin events) : Keeps (Follows codecs.json) (streamStdin host codecs executionId stdin events) := by
  unfold streamStdin; infer_instance

instance (attachStdin interactive executionId stdin events) :
    Keeps (Follows codecs.json) (feedStdin host codecs attachStdin interactive executionId stdin events) := by
  unfold feedStdin; infer_instance

instance (events) : Keeps (Follows codecs.json) (gather host codecs executionId events) := by
  unfold gather; infer_instance

instance (execRequest stdin interactive executionId events) :
    Keeps (Follows codecs.json) (followExecution host codecs execRequest stdin interactive executionId events) := by
  unfold followExecution; infer_instance

instance (execRequest stdin interactive) :
    Keeps (Follows codecs.json) (executeWithStdin host codecs execRequest stdin interactive) := by
  unfold executeWithStdin; infer_instance

/-! ## Calls that return -/

/-- The decoder works, and no frame of what it has unread is complete. -/
structure Idle (d : FrameDecoder) : Prop where
  inBuffer : d.InBuffer
  poisoned : d.poisoned = false
  unfinished : Unfinished d.unread

/-- The decoder is as it was. -/
abbrev SameDecoder : Session τ κ → Session τ κ → Prop := Same fun s => s.client.decoder

instance : Sends (SameDecoder : Session τ κ → Session τ κ → Prop) where
  apart _ _ _ hdecoder _ := hdecoder
  wrote _ _ := rfl

instance : Records (SameDecoder : Session τ κ → Session τ κ → Prop) := ⟨fun _ _ => rfl⟩

instance : Captures (SameDecoder : Session τ κ → Session τ κ → Prop) := ⟨fun _ _ => rfl⟩

instance (entry) : Keeps SameDecoder (note entry : SessionM τ κ Unit) := ⟨fun _ => rfl⟩

instance (purpose) : Keeps SameDecoder (advance host purpose) := by unfold advance; infer_instance

instance (initialDropped bytes) : Keeps SameDecoder (checkDropped host initialDropped bytes) := by
  unfold checkDropped; infer_instance

section Returning

variable {host codecs executionId} {observer : Envelope → SessionM τ κ Unit} {collected collected' : List Envelope}
  {n : Nat}

/-- A call for a frame gives none when the decoder is idle, and otherwise takes the frame's bytes. -/
theorem nextFrame_decoder {frame} (hin : s.client.decoder.InBuffer) (h : nextFrame codecs s = ⟨.ok frame, s', n⟩) :
    (frame = none ∧ Idle s'.client.decoder) ∨ ∃ envelope, frame = some envelope ∧ s'.client.decoder.InBuffer ∧
      s'.client.decoder.bufferedLen < s.client.decoder.bufferedLen := by
  rw [nextFrame] at h
  obtain ⟨frame', t, m, k, hcall, hrest, -⟩ := Exec.bind_eq_ok h
  rcases FrameDecoder.nextFrame_cases codecs.json hin with
    ⟨envelope, rest, d, htake, -, heq, hunread, -, hin'⟩ | ⟨heq, hp, hpart⟩ | ⟨error, d, heq, -⟩
  · rw [onDecoder_run heq] at hcall
    cases hcall
    cases hrest
    have hlt := (FrameDecoder.takeFrame_delimited _ _ _).shrinks htake
    rw [← hunread, FrameDecoder.unread_length, FrameDecoder.unread_length] at hlt
    exact .inr ⟨envelope, rfl, hin', hlt⟩
  · rw [onDecoder_run heq] at hcall
    cases hcall
    cases hrest
    exact .inl ⟨rfl, hin, hp, unfinished_of_incomplete hpart⟩
  · rw [onDecoder_run heq] at hcall
    cases hcall

section Settles

variable [∀ envelope, Keeps SameDecoder (observer envelope)]

/-- Draining ends at the first frame that is not complete. -/
theorem drainFrames_idle {rounds} (hin : s.client.decoder.InBuffer) (hrounds : s.client.decoder.bufferedLen < rounds)
    (h : drainFrames codecs observer rounds collected s = ⟨.ok collected', s', n⟩) : Idle s'.client.decoder := by
  induction rounds generalizing collected s n with
  | zero => exact absurd hrounds (Nat.not_lt_zero _)
  | succ rounds ih =>
    rw [drainFrames] at h
    obtain ⟨frame, t, m, k, hnext, hrest, -⟩ := Exec.bind_eq_ok h
    rcases nextFrame_decoder hin hnext with ⟨rfl, hidle⟩ | ⟨envelope, rfl, hin', hlt⟩
    · cases hrest
      exact hidle
    · simp only at hrest
      split at hrest
      · cases hrest
      · obtain ⟨⟨⟩, u, m', k', hsee, hlater, -⟩ := Exec.bind_eq_ok hrest
        have hsame : u.client.decoder = t.client.decoder := Keeps.run (R := SameDecoder) hsee
        refine ih ?_ ?_ hlater
        · rwa [hsame]
        · rw [hsame]
          omega

theorem receive_idle {initialDropped} (hin : s.client.decoder.InBuffer)
    (h : receive host codecs observer initialDropped collected s = ⟨.ok collected', s', n⟩) :
    (collected' = collected ∧ SameDecoder s s') ∨ Idle s'.client.decoder := by
  rw [receive] at h
  obtain ⟨bytes, t, m, k, hadvance, hrest, -⟩ := Exec.bind_eq_ok h
  obtain ⟨⟨⟩, u, m', k', hdrop, htake, -⟩ := Exec.bind_eq_ok hrest
  have hsame : SameDecoder s u :=
    IsTrans.trans _ _ _ (Keeps.run (R := SameDecoder) hadvance) (Keeps.run (R := SameDecoder) hdrop)
  rw [takeIn] at htake
  split at htake
  · cases htake
    exact .inl ⟨rfl, hsame⟩
  · obtain ⟨⟨⟩, v, m₁, k₁, hpush, hdrain, -⟩ := Exec.bind_eq_ok htake
    rw [Exec.view_bind] at hdrain
    rw [push_apply] at hpush
    injection hpush with _ hv
    have hin' : u.client.decoder.InBuffer := by
      rw [show u.client.decoder = s.client.decoder from hsame]
      exact hin
    refine .inr (drainFrames_idle ?_ (Nat.lt_succ_self _) hdrain)
    rw [← hv]
    exact (FrameDecoder.push_state bytes hin').1

/-- A pump returns at the first step that completes a frame it waits for, so right after a drain. -/
theorem pumpFrom_idle {maxAdvances done initialDropped budget} (hin : s.client.decoder.InBuffer)
    (hwaits : collected.any done = false)
    (h : pumpFrom host codecs maxAdvances done observer initialDropped budget collected s = ⟨.ok collected', s', n⟩) :
    Idle s'.client.decoder := by
  induction budget generalizing collected s n with
  | zero =>
    rw [pumpFrom] at h
    obtain ⟨⟨⟩, t, m, k, -, hrest, -⟩ := Exec.bind_eq_ok h
    cases hrest
  | succ budget ih =>
    rw [pumpFrom] at h
    obtain ⟨⟨⟩, t, m, k, hdrop, hrest, -⟩ := Exec.bind_eq_ok h
    obtain ⟨⟨⟩, u, m, k, hwrite, hrest, -⟩ := Exec.bind_eq_ok hrest
    obtain ⟨collected₁, v, m, k, hreceive, hdone, -⟩ := Exec.bind_eq_ok hrest
    have hsame : SameDecoder s u :=
      IsTrans.trans _ _ _ (Keeps.run (R := SameDecoder) hdrop) (Keeps.run (R := SameDecoder) hwrite)
    have hinu : u.client.decoder.InBuffer := by
      rw [show u.client.decoder = s.client.decoder from hsame]
      exact hin
    split at hdone
    · cases hdone
    rcases receive_idle hinu hreceive with ⟨rfl, hsame'⟩ | hidle
    · rw [if_neg (by rw [hwaits]; exact Bool.false_ne_true)] at hdone
      refine ih ?_ hwaits hdone
      rw [show v.client.decoder = u.client.decoder from hsame']
      exact hinu
    · split at hdone
      · cases hdone
        exact hidle
      next hwaits' => exact ih hidle.inBuffer (eq_false_of_ne_true hwaits') hdone

end Settles

/-- A call that returns leads from decoders with the first property to ones with the second. -/
abbrev Leads {α : Type} (P Q : FrameDecoder → Prop) (x : SessionM τ κ α) : Prop :=
  Meets (fun _ => True) (fun s => P s.client.decoder) x fun _ s => Q s.client.decoder

theorem Leads.same {α : Type} {P : FrameDecoder → Prop} {x : SessionM τ κ α} [hx : Keeps SameDecoder x] :
    Leads P P x := by
  intro s _ hP
  have hsame : (x s).state.client.decoder = s.client.decoder := hx.keeps s
  refine ⟨trivial, fun _ _ => ?_⟩
  show P (x s).state.client.decoder
  rwa [hsame]

theorem pumpObserved_leads {maxAdvances done} [∀ envelope, Keeps SameDecoder (observer envelope)] :
    Leads FrameDecoder.InBuffer Idle (pumpObserved host codecs maxAdvances done observer) :=
  Leads.same.bind fun _ _ _ hin => ⟨trivial, fun _ hok => pumpFrom_idle hin rfl (Run.eq_of_outcome hok)⟩

theorem setMaxFrameSize_ok {maxFrameSize} {d d' : FrameDecoder}
    (h : FrameDecoder.setMaxFrameSize maxFrameSize d = ⟨.ok (), d', n⟩) :
    d' = { d with maxFrameSize := maxFrameSize, maxBufferSize := bufferLimit maxFrameSize } := by
  obtain ⟨⟨⟩, t, m, k, hvalid, hrest, -⟩ := Exec.bind_eq_ok h
  injection hvalid with _ ht
  subst ht
  rw [Exec.view_bind] at hrest
  split at hrest
  · rw [FrameDecoder.poison_apply] at hrest
    cases hrest
  · cases hrest
    rfl

theorem request_leads {operation} : Leads FrameDecoder.InBuffer Idle (request host codecs operation) := by
  refine Leads.same.bind fun session => Leads.same.bind fun id => Leads.same.bind fun budget => Leads.same.bind fun _ =>
    pumpObserved_leads.bind fun frames => ?_
  cases frames.reverse.findSome? (Envelope.responseTo id) with
  | none => exact .fail
  | some response => exact .pure fun _ _ hidle => hidle

/-- An accepted handshake leaves what is unread. -/
theorem applyHandshake_leads {ack} : Leads Idle Idle (applyHandshake ack : SessionM τ κ Unit) := by
  unfold applyHandshake
  split
  · have hversion (version) : Leads Idle Idle
        (updateClient fun c => { c with decoder := c.decoder.setExpectedVersion version } : SessionM τ κ Unit) :=
      .update fun _ _ h => ⟨trivial, h.inBuffer, h.poisoned, h.unfinished⟩
    have hlimit (maxFrameSize) :
        Leads Idle Idle (onDecoder (FrameDecoder.setMaxFrameSize maxFrameSize) : SessionM τ κ Unit) := by
      intro s _ h
      refine ⟨trivial, fun _ hok => ?_⟩
      rcases hrun : FrameDecoder.setMaxFrameSize maxFrameSize s.client.decoder with ⟨_ | _ | _, d, n⟩ <;>
        rw [onDecoder_run hrun] at hok ⊢
      · rw [setMaxFrameSize_ok hrun]
        exact ⟨h.inBuffer, h.poisoned, h.unfinished⟩
      · cases hok
      · cases hok
    have hdone (f : SessionClient κ → SessionClient κ) (hf : ∀ c, (f c).decoder = c.decoder) :
        Leads Idle Idle (updateClient f : SessionM τ κ Unit) := by
      refine .update fun s _ h => ⟨trivial, ?_⟩
      show Idle (f s.client).decoder
      rwa [hf]
    exact (hversion _).bind fun _ => (hlimit _).bind fun _ => Leads.same.bind fun _ => hdone _ fun _ => rfl
  · exact .pure fun _ _ hidle => hidle

theorem bootstrap_leads {hello} : Leads FrameDecoder.InBuffer Idle (bootstrap host codecs hello) := by
  refine Leads.same.bind fun budget => Leads.same.bind fun _ => pumpObserved_leads.bind fun frames => ?_
  cases frames.find? Envelope.isHelloAck with
  | none => exact .fail
  | some ack => exact applyHandshake_leads.bind fun _ => .pure fun _ _ hidle => hidle

theorem collectUntilExitObserved_leads {events} {observer : Event → SessionM τ κ Unit}
    [∀ event, Keeps SameDecoder (observer event)] :
    Leads FrameDecoder.InBuffer Idle (collectUntilExitObserved host codecs executionId events observer) :=
  Leads.same.bind fun _ => pumpObserved_leads.bind fun _ => .pure fun _ _ hidle => hidle

/-- What is done between two pumps, and what is pumped again, leaves the decoder idle. -/
theorem executeWithStdin_leads {execRequest stdin interactive} :
    Leads FrameDecoder.InBuffer Idle (executeWithStdin host codecs execRequest stdin interactive) := by
  have hrequest (operation) : Leads Idle Idle (request host codecs operation) :=
    request_leads.pre fun _ _ hidle => hidle.inBuffer
  have hfeed (executionId events) :
      Leads Idle Idle (feedStdin host codecs execRequest.attachStdin interactive executionId stdin events) := by
    refine .guard (fun _ => ?_) fun _ => .pure fun _ _ hidle => hidle
    exact (hrequest _).bind fun _ => Leads.same.bind fun _ => (hrequest _).bind fun _ => Leads.same.bind fun _ =>
      .pure fun _ _ hidle => hidle
  have hgather (executionId events) : Leads Idle Idle (gather host codecs executionId events) := by
    refine Leads.same.bind fun _ => Leads.same.bind fun _ => .when (fun _ => ?_) fun _ _ _ hidle => hidle
    exact (collectUntilExitObserved_leads.pre fun _ _ hidle => hidle.inBuffer).bind fun _ =>
      .pure fun _ _ hidle => hidle
  exact Leads.same.bind fun _ => request_leads.bind fun _ => Leads.same.bind fun _ => Leads.same.bind fun _ =>
    (hfeed _ _).bind fun _ => (hgather _ _).bind fun _ => Leads.same.bind fun _ => Leads.same

end Returning

/-! ## Runs -/

/-- The calls a host makes on a session. -/
inductive Call (κ : Type) where
  | bootstrap (hello : Envelope)
  | request (operation : Operation)
  | collectUntilExit (executionId : String)
  | execute (execRequest : ExecRequest) (stdin : List U8)
  | executeInteractive (execRequest : ExecRequest) (source : κ)

/-- The session after a call, whether it returned or failed. -/
def Call.next (call : Call κ) (s : Session τ κ) : Session τ κ :=
  match call with
  | .bootstrap hello => (Session.bootstrap host codecs hello s).state
  | .request operation => (Session.request host codecs operation s).state
  | .collectUntilExit executionId => (Session.collectUntilExit host codecs executionId [] s).state
  | .execute execRequest stdin => (executeObserved host codecs execRequest stdin s).state
  | .executeInteractive execRequest source => (Session.executeInteractive host codecs execRequest source s).state

theorem follows_next (call : Call κ) (s) : Follows codecs.json s (call.next host codecs s) := by
  cases call with
  | bootstrap hello => exact Keeps.keeps (x := Session.bootstrap host codecs hello) s
  | request operation => exact Keeps.keeps (x := Session.request host codecs operation) s
  | collectUntilExit executionId =>
    exact Keeps.keeps (x := collectUntilExitObserved host codecs executionId [] fun _ => return ()) s
  | execute execRequest stdin => exact Keeps.keeps (x := executeWithStdin host codecs execRequest stdin none) s
  | executeInteractive execRequest source =>
    exact Keeps.keeps (x := executeWithStdin host codecs execRequest [] (some source)) s

theorem follows_after (calls s) :
    Follows codecs.json s (after (Call.next host codecs) s calls) := by
  induction calls generalizing s with
  | nil => exact refl s
  | cons call calls ih => exact IsTrans.trans _ _ _ (follows_next host codecs call s) (ih _)

/-- A session nothing has passed through yet. -/
def start (client : SessionClient κ) (world : τ) : Session τ κ := ⟨client, world, .empty, []⟩

theorem start_consistent {budget : U64} {client : SessionClient κ} (world : τ)
    (h : SessionClient.new budget = .ok client) :
    Consistent json (start client world) := by
  have hbuffer : client.decoder.buffer = [] ∧ client.decoder.readPosition = 0 := by
    unfold SessionClient.new at h
    split at h
    · cases h
    · cases h
      exact ⟨rfl, rfl⟩
  refine ⟨?_, [], .nil json [], fun _ => ?_⟩
  · show client.decoder.readPosition ≤ client.decoder.buffer.length
    rw [hbuffer.2]
    exact Nat.zero_le _
  · show [] = client.decoder.buffer.drop client.decoder.readPosition
    rw [hbuffer.1, drop_nil]

/-- The call returns. -/
def Call.Returns (call : Call κ) (s : Session τ κ) : Prop :=
  match call with
  | .bootstrap hello => ∃ ack, (Session.bootstrap host codecs hello s).outcome = .ok ack
  | .request operation => ∃ exchange, (Session.request host codecs operation s).outcome = .ok exchange
  | .collectUntilExit executionId =>
    ∃ events, (Session.collectUntilExit host codecs executionId [] s).outcome = .ok events
  | .execute execRequest stdin => ∃ outcome, (executeObserved host codecs execRequest stdin s).outcome = .ok outcome
  | .executeInteractive execRequest source =>
    ∃ outcome, (Session.executeInteractive host codecs execRequest source s).outcome = .ok outcome

theorem Call.Returns.idle {call : Call κ} (hin : s.client.decoder.InBuffer) (h : call.Returns host codecs s) :
    Idle (call.next host codecs s).client.decoder := by
  cases call with
  | bootstrap hello =>
    obtain ⟨ack, hok⟩ := h
    exact (bootstrap_leads s trivial hin).2 ack hok
  | request operation =>
    obtain ⟨exchange, hok⟩ := h
    exact (request_leads s trivial hin).2 exchange hok
  | collectUntilExit executionId =>
    obtain ⟨events, hok⟩ := h
    exact (collectUntilExitObserved_leads s trivial hin).2 events hok
  | execute execRequest stdin =>
    obtain ⟨outcome, hok⟩ := h
    exact (executeWithStdin_leads s trivial hin).2 outcome hok
  | executeInteractive execRequest source =>
    obtain ⟨outcome, hok⟩ := h
    exact (executeWithStdin_leads s trivial hin).2 outcome hok

/-- No byte is lost: none was returned while a frame was only partly written, and no drop was
    reported right after a step that returned some. -/
def Undisturbed (traffic : List Traffic) : Prop :=
  (∀ bytes, .returned .writing bytes ∈ traffic → bytes = []) ∧ ∀ bytes, .discarded bytes ∈ traffic → bytes = []

/-- The decoder refused nothing. -/
def Accepted (traffic : List Traffic) : Prop := ∀ bytes, .refused bytes ∈ traffic → bytes = []

theorem lostBytes_eq_nil {traffic : List Traffic} : lostBytes traffic = [] ↔ Undisturbed traffic := by
  simp only [lostBytes, flatMap_eq_nil_iff, Undisturbed]
  constructor
  · intro h
    exact ⟨fun bytes hmem => h _ hmem, fun bytes hmem => h _ hmem⟩
  · rintro ⟨hw, hd⟩ entry hmem
    cases entry with
    | returned purpose bytes =>
      cases purpose with
      | writing => exact hw bytes hmem
      | reading => rfl
    | discarded bytes => exact hd bytes hmem
    | _ => rfl

theorem refusedBytes_eq_nil {traffic : List Traffic} : refusedBytes traffic = [] ↔ Accepted traffic := by
  simp only [refusedBytes, flatMap_eq_nil_iff, Accepted]
  constructor
  · intro h bytes hmem
    exact h _ hmem
  · intro h entry hmem
    cases entry with
    | refused bytes => exact h bytes hmem
    | _ => rfl

variable {host host' : Host τ κ} {client client' : SessionClient κ} {budget budget' : U64} {world world' : τ}
  {calls calls' : List (Call κ)}

/-- Over a run, every byte that a step of the guest returned was taken by the decoder, once and in order. The frames
    decoded are those at the front of what was returned: a decoder that works has the rest unread, and when the last
    call returned, no frame of the rest is complete. -/
structure Delivered (host : Host τ κ) (codecs : Codecs) (start : Session τ κ) (calls : List (Call κ)) : Prop where
  pushed : pushedBytes (after (Call.next host codecs) start calls).traffic =
    returnedBytes (after (Call.next host codecs) start calls).traffic
  decoded : ∃ rest, Decodes codecs.json (returnedBytes (after (Call.next host codecs) start calls).traffic)
      (decodedFrames (after (Call.next host codecs) start calls).traffic) rest ∧
    ((after (Call.next host codecs) start calls).client.decoder.poisoned = false →
      rest = (after (Call.next host codecs) start calls).client.decoder.unread) ∧
    ∀ earlier call, calls = earlier ++ [call] → call.Returns host codecs (after (Call.next host codecs) start earlier) →
      Unfinished rest

theorem run_blocks (host : Host τ κ) (client) (world : τ) (calls) :
    Blocks (after (Call.next host codecs) (start client world) calls).traffic := by
  obtain ⟨t, ht, hb⟩ := (follows_after host codecs calls (start client world)).blocks
  rw [ht]
  exact hb

section

variable (h : SessionClient.new budget = .ok client)
include h

theorem run_consistent : Consistent codecs.json (after (Call.next host codecs) (start client world) calls) :=
  (follows_after host codecs calls (start client world)).consistent (start_consistent world h)

theorem returned_decodes (hu : Undisturbed (after (Call.next host codecs) (start client world) calls).traffic) :
    ∃ rest, Decodes codecs.json (returnedBytes (after (Call.next host codecs) (start client world) calls).traffic)
        (decodedFrames (after (Call.next host codecs) (start client world) calls).traffic) rest ∧
      ((after (Call.next host codecs) (start client world) calls).client.decoder.poisoned = false →
        rest = (after (Call.next host codecs) (start client world) calls).client.decoder.unread) := by
  have heq := (run_blocks codecs host client world calls).offered_eq_iff.mpr (lostBytes_eq_nil.mpr hu)
  rw [← heq]
  exact (run_consistent codecs h).decodes

/-- What is decoded does not depend on the calls, the host or the pieces in which the same bytes arrive: of two
    undisturbed runs one has decoded the first frames of the other. -/
theorem decoded_comparable (h' : SessionClient.new budget' = .ok client')
    (hu : Undisturbed (after (Call.next host codecs) (start client world) calls).traffic)
    (hu' : Undisturbed (after (Call.next host' codecs) (start client' world') calls').traffic)
    (heq : returnedBytes (after (Call.next host codecs) (start client world) calls).traffic =
      returnedBytes (after (Call.next host' codecs) (start client' world') calls').traffic) :
    decodedFrames (after (Call.next host codecs) (start client world) calls).traffic <+:
        decodedFrames (after (Call.next host' codecs) (start client' world') calls').traffic ∨
      decodedFrames (after (Call.next host' codecs) (start client' world') calls').traffic <+:
        decodedFrames (after (Call.next host codecs) (start client world) calls).traffic := by
  obtain ⟨rest, hdec, -⟩ := returned_decodes codecs h hu
  obtain ⟨rest', hdec', -⟩ := returned_decodes codecs h' hu'
  rw [heq] at hdec
  exact hdec.comparable hdec'

end

/-- In every run of a session no byte of the guest is dropped, exactly when the run is undisturbed and the decoder
    refuses nothing. -/
theorem delivered_iff (h : SessionClient.new budget = .ok client) (world : τ) (calls : List (Call κ)) :
    Delivered host codecs (start client world) calls ↔
      Undisturbed (after (Call.next host codecs) (start client world) calls).traffic ∧
        Accepted (after (Call.next host codecs) (start client world) calls).traffic := by
  have hblocks := run_blocks codecs host client world calls
  constructor
  · intro hd
    have hlength := hblocks.length_eq
    rw [← hd.pushed, offeredBytes_length] at hlength
    rw [← lostBytes_eq_nil, ← refusedBytes_eq_nil]
    exact ⟨eq_nil_of_length_eq_zero (by omega), eq_nil_of_length_eq_zero (by omega)⟩
  · rintro ⟨hu, haccepted⟩
    obtain ⟨rest, hdec, hrest⟩ := returned_decodes codecs h hu
    refine ⟨?_, rest, hdec, hrest, ?_⟩
    · rw [pushedBytes_eq_offered (refusedBytes_eq_nil.mpr haccepted)]
      exact hblocks.offered_eq_iff.mpr (lostBytes_eq_nil.mpr hu)
    · rintro earlier call rfl hreturns
      have hidle := Call.Returns.idle host codecs (run_consistent codecs h).inBuffer hreturns
      rw [after_append, after_cons, after_nil] at hrest
      rw [hrest hidle.poisoned]
      exact hidle.unfinished

end

/-! ## Two handshakes -/

def heartbeatCodecs : Codecs := ⟨FrameDecoder.heartbeatJson, fun _ => "", fun _ => .error "not base64"⟩

def freshClient (budget : U64) : SessionClient Unit :=
  ⟨⟨DEFAULT_MAX_FRAME_SIZE⟩, ⟨[], 0, DEFAULT_MAX_FRAME_SIZE, DEFAULT_MAX_FRAME_SIZE, bufferLimit DEFAULT_MAX_FRAME_SIZE,
    none, false⟩, none, 1, budget, none⟩

/-- A transport that takes `accepts` bytes of the first write and then everything, and returns the
    listed bytes, one item a step. -/
def scriptedHost (accepts : Nat) : Host (Nat × List (List U8)) Unit where
  write bytes w := (if w.1 = 0 then accepts else bytes.length, (w.1 + 1, w.2))
  advance w := (.ok (w.2.headD []), (w.1, w.2.tail))
  droppedOutput w := (0, w)
  takePending _ w := (none, w)
  closeRequested _ w := (false, w)

/-- The session that greets a guest whose frame comes back in these pieces. -/
def greeted (accepts : Nat) (pieces : List (List U8)) : Session (Nat × List (List U8)) Unit :=
  after (Call.next (scriptedHost accepts) heartbeatCodecs) (start (freshClient 2) (0, pieces))
    [.bootstrap (FrameDecoder.heartbeat 1)]

/-- A frame of the guest that arrives in two pieces once the host's frame is out. -/
theorem answered_handshake_delivered :
    Delivered (scriptedHost 157) heartbeatCodecs
      (start (freshClient 2) (0, [(FrameDecoder.heartbeatFrame 2).take 3, (FrameDecoder.heartbeatFrame 2).drop 3]))
      [.bootstrap (FrameDecoder.heartbeat 1)] :=
  (delivered_iff heartbeatCodecs (show SessionClient.new 2 = .ok (freshClient 2) from rfl) _ _).mpr
    ⟨lostBytes_eq_nil.mp (by decide +kernel), refusedBytes_eq_nil.mp (by decide +kernel)⟩

/-- The frame cut in two ways. -/
theorem cut_frames_comparable :
    let decoded (k : Nat) := decodedFrames
      (greeted 157 [(FrameDecoder.heartbeatFrame 2).take k, (FrameDecoder.heartbeatFrame 2).drop k]).traffic
    decoded 3 <+: decoded 50 ∨ decoded 50 <+: decoded 3 :=
  decoded_comparable heartbeatCodecs (show SessionClient.new 2 = .ok (freshClient 2) from rfl)
    (show SessionClient.new 2 = .ok (freshClient 2) from rfl) (lostBytes_eq_nil.mp (by decide +kernel))
    (lostBytes_eq_nil.mp (by decide +kernel)) (by decide +kernel)

/-- The transport takes one byte of the host's frame; the guest's whole frame comes back from the
    step made before the rest is written, and is gone. -/
theorem partial_write_loses_a_frame :
    ¬Delivered (scriptedHost 1) heartbeatCodecs (start (freshClient 2) (0, [FrameDecoder.heartbeatFrame 2]))
      [.bootstrap (FrameDecoder.heartbeat 1)] :=
  fun h => absurd h.pushed (by decide +kernel)

end Session

end Rish.Protocol
