/-
  Rish.Protocol.Attribution — whose output an execution returns.

  Events of an execution arrive while its start, its input and its exit are awaited. Every frame a
  call consumes goes through the decoder once, and the events of all of them reach one capture in the
  order decoded.
-/

import Rish.Protocol.Delivery

namespace Rish.Protocol

open Lib List
open Envelope (event?)
open Keeps (run)
open Exec (bind_eq_ok view_bind)

/-! ## Steps along a list -/

/-- A step taken for each item of a list, in order. -/
inductive Along {α σ : Type} (step : α → σ → σ → Prop) : List α → σ → σ → Prop where
  | nil (s : σ) : Along step [] s s
  | cons {a : α} {as : List α} {s t u : σ} : step a s t → Along step as t u → Along step (a :: as) s u

namespace Along

variable {α β σ : Type} {step : α → σ → σ → Prop} {as bs : List α} {a : α} {s t u : σ}

theorem append (h : Along step as s t) (h' : Along step bs t u) : Along step (as ++ bs) s u := by
  induction h with
  | nil => exact h'
  | cons ha _ ih => exact .cons ha (ih h')

theorem single (h : step a s t) : Along step [a] s t := .cons h (.nil t)

theorem filterMap {f} {step' : β → σ → σ → Prop} {bs : List β} (h : Along step' bs s t)
    (hsome : ∀ b a s t, step' b s t → f b = some a → step a s t) (hnone : ∀ b s t, step' b s t → f b = none → t = s) :
    Along step (bs.filterMap f) s t := by
  induction h with
  | nil => exact .nil _
  | cons hb htail ih =>
    rename_i b _ _ _ _
    rcases hf : f b with _ | a
    · rw [filterMap_cons_none hf, ← hnone _ _ _ hb hf]
      exact ih
    · rw [filterMap_cons_some hf]
      exact .cons (hsome _ _ _ _ hb hf) ih

end Along

namespace Session

variable {τ κ : Type} {s s' : Session τ κ} {n : Nat}

/-! ## What a call consumes -/

/-- The call decoded these frames and took a step of the capture for each. -/
structure Consumed (step : Envelope → Capture → Capture → Prop) (frames : List Envelope) (s s' : Session τ κ) :
    Prop where
  decoded : decodedFrames s'.traffic = decodedFrames s.traffic ++ frames
  captured : Along step frames s.capture s'.capture

/-- Nothing was decoded and nothing was gathered. -/
structure Silent (s s' : Session τ κ) : Prop where
  decoded : decodedFrames s'.traffic = decodedFrames s.traffic
  capture : s'.capture = s.capture

instance : IsPreorder (Session τ κ) Silent where
  refl _ := ⟨rfl, rfl⟩
  trans _ _ _ h h' := ⟨h'.1.trans h.1, h'.2.trans h.2⟩

instance : Sends (Silent : Session τ κ → Session τ κ → Prop) where
  apart _ _ ht _ hc := ⟨by rw [ht], hc⟩
  wrote _ _ := ⟨by simp [decodedFrames, Traffic.frame?], rfl⟩

instance : Records (Silent : Session τ κ → Session τ κ → Prop) where
  sent _ _ := ⟨by simp [decodedFrames, Traffic.frame?], rfl⟩

variable {step : Envelope → Capture → Capture → Prop} {frames frames' : List Envelope} {t : Session τ κ}

theorem Consumed.append (h : Consumed step frames s t) (h' : Consumed step frames' t s') :
    Consumed step (frames ++ frames') s s' :=
  ⟨by rw [h'.decoded, h.decoded, append_assoc], h.captured.append h'.captured⟩

theorem Silent.consumed (h : Silent s s') : Consumed step [] s s' :=
  ⟨by rw [h.decoded, append_nil], h.capture ▸ .nil _⟩

theorem Silent.before (h : Silent s t) (h' : Consumed step frames t s') : Consumed step frames s s' :=
  h.consumed.append h'

/-- An observer that takes a step of the capture for each frame it accepts. -/
def Observes (step : Envelope → Capture → Capture → Prop) (observer : Envelope → SessionM τ κ Unit) : Prop :=
  ∀ frame s s' n, observer frame s = ⟨.ok (), s', n⟩ →
    step frame s.capture s'.capture ∧ decodedFrames s'.traffic = decodedFrames s.traffic

variable (host : Host τ κ) (codecs : Codecs) {observer : Envelope → SessionM τ κ Unit}

theorem nextFrame_ok {frame} (h : nextFrame codecs s = ⟨.ok frame, s', n⟩) :
    decodedFrames s'.traffic = decodedFrames s.traffic ++ frame.toList ∧ s'.capture = s.capture := by
  obtain ⟨frame', t, m, k, hcall, hrest, -⟩ := bind_eq_ok h
  rw [onDecoder_apply] at hcall
  injection hcall with _ hstate
  subst hstate
  cases frame' with
  | none =>
    cases hrest
    simp
  | some frame' =>
    simp only [note, Exec.update_bind] at hrest
    cases hrest
    simp [decodedFrames, Traffic.frame?]

variable {collected : List Envelope} {collected' : List Envelope}

theorem drainFrames_ok (hobs : Observes step observer) {rounds}
    (h : drainFrames codecs observer rounds collected s = ⟨.ok collected', s', n⟩) :
    ∃ frames, collected' = collected ++ frames ∧ Consumed step frames s s' := by
  induction rounds generalizing collected s n with
  | zero =>
    cases h
    exact ⟨[], (append_nil _).symm, by simp, .nil _⟩
  | succ rounds ih =>
    rw [drainFrames] at h
    obtain ⟨frame, t, m, k, hnext, hrest, -⟩ := bind_eq_ok h
    obtain ⟨hdec, hcap⟩ := nextFrame_ok codecs hnext
    cases frame with
    | none =>
      cases hrest
      exact ⟨[], (append_nil _).symm, by simpa using hdec, hcap ▸ .nil _⟩
    | some frame =>
      simp only at hrest
      split at hrest
      · cases hrest
      · obtain ⟨⟨⟩, u, m', k', hsee, hlater, -⟩ := bind_eq_ok hrest
        obtain ⟨hstep, hquiet⟩ := hobs _ _ _ _ hsee
        obtain ⟨frames, rfl, hcons⟩ := ih hlater
        refine ⟨frame :: frames, by simp, ?_⟩
        have hone : Consumed step [frame] s u := ⟨by rw [hquiet, hdec]; rfl, .single (hcap ▸ hstep)⟩
        exact hone.append hcons

theorem note_silent {entry} (h : entry.frame? = none) : Keeps Silent (note entry : SessionM τ κ Unit) where
  keeps s := ⟨by simp [note, Exec.update, decodedFrames, h], rfl⟩

instance (purpose) : Keeps Silent (advance host purpose) := by
  have h (bytes : List U8) : Keeps Silent (note (.returned purpose bytes) : SessionM τ κ Unit) := note_silent rfl
  unfold advance
  infer_instance

instance (initialDropped bytes) : Keeps Silent (checkDropped host initialDropped bytes) := by
  have h : Keeps Silent (note (.discarded bytes) : SessionM τ κ Unit) := note_silent rfl
  unfold checkDropped
  infer_instance

instance (bytes) : Keeps Silent (push bytes : SessionM τ κ Unit) where
  keeps s := by
    rw [push_apply]
    refine ⟨?_, rfl⟩
    rcases offered_eq bytes ((FrameDecoder.push bytes s.client.decoder).outcome.mapErr .frame) with h | h <;>
      simp [h, decodedFrames, Traffic.frame?]

section

variable (hobs : Observes step observer)
include hobs

theorem takeIn_ok {bytes} (h : takeIn codecs observer bytes collected s = ⟨.ok collected', s', n⟩) :
    ∃ frames, collected' = collected ++ frames ∧ Consumed step frames s s' := by
  rw [takeIn] at h
  split at h
  · cases h
    exact ⟨[], (append_nil _).symm, by simp, .nil _⟩
  · obtain ⟨⟨⟩, t, m, k, hpush, hrest, -⟩ := bind_eq_ok h
    rw [view_bind] at hrest
    obtain ⟨frames, heq, hcons⟩ := drainFrames_ok codecs hobs hrest
    exact ⟨frames, heq, (run (R := Silent) hpush).before hcons⟩

variable {done : Envelope → Bool} {initialDropped : U64}

theorem receive_ok
    (h : receive host codecs observer initialDropped collected s = ⟨.ok collected', s', n⟩) :
    ∃ frames, collected' = collected ++ frames ∧ Consumed step frames s s' := by
  rw [receive] at h
  obtain ⟨bytes, t, m, k, hadv, hrest, -⟩ := bind_eq_ok h
  obtain ⟨⟨⟩, u, m', k', hdrop, htake, -⟩ := bind_eq_ok hrest
  obtain ⟨frames, heq, hcons⟩ := takeIn_ok codecs hobs htake
  exact ⟨frames, heq, (run (R := Silent) hadv).before ((run (R := Silent) hdrop).before hcons)⟩

theorem pumpFrom_ok {maxAdvances budget}
    (h : pumpFrom host codecs maxAdvances done observer initialDropped budget collected s = ⟨.ok collected', s', n⟩) :
    ∃ frames, collected' = collected ++ frames ∧ Consumed step frames s s' := by
  induction budget generalizing collected s n with
  | zero =>
    rw [pumpFrom] at h
    obtain ⟨⟨⟩, t, m, k, -, hrest, -⟩ := bind_eq_ok h
    cases hrest
  | succ budget ih =>
    rw [pumpFrom] at h
    obtain ⟨⟨⟩, t, m, k, hdrop, hrest, -⟩ := bind_eq_ok h
    obtain ⟨⟨⟩, u, m, k, hwrite, hrest, -⟩ := bind_eq_ok hrest
    obtain ⟨collected₁, v, m, k, hreceive, hrest, -⟩ := bind_eq_ok hrest
    obtain ⟨frames, rfl, hcons⟩ := receive_ok host codecs hobs hreceive
    have hfirst : Consumed step frames s v :=
      (run (R := Silent) hdrop).before ((run (R := Silent) hwrite).before hcons)
    split at hrest
    · cases hrest
    split at hrest
    · cases hrest
      exact ⟨frames, rfl, hfirst⟩
    · obtain ⟨later, rfl, hlater⟩ := ih hrest
      exact ⟨frames ++ later, by rw [append_assoc], hfirst.append hlater⟩

theorem pumpObserved_ok {maxAdvances}
    (h : pumpObserved host codecs maxAdvances done observer s = ⟨.ok frames, s', n⟩) : Consumed step frames s s' := by
  rw [pumpObserved] at h
  obtain ⟨dropped, t, m, k, hask, hrest, -⟩ := bind_eq_ok h
  obtain ⟨frames', heq, hcons⟩ := pumpFrom_ok host codecs hobs hrest
  rw [heq, nil_append]
  exact (run (R := Silent) hask).before hcons

end

/-! ## Requests -/

def Ignores (_ : Envelope) (c c' : Capture) : Prop := c' = c

theorem ignores_pure : Observes Ignores (fun _ => return () : Envelope → SessionM τ κ Unit) := by
  intro frame s s' n h
  cases h
  exact ⟨rfl, rfl⟩

/-- No frame of the host was sent. -/
abbrev SameSent : Session τ κ → Session τ κ → Prop := Same fun s => sentFrames s.traffic

instance : Sends (SameSent : Session τ κ → Session τ κ → Prop) where
  apart _ _ htraffic _ _ := congrArg sentFrames htraffic
  wrote _ _ := by simp [Same, sentFrames, Traffic.sent?]

theorem writeFrame_sent {envelope maxAdvances} (h : writeFrame host codecs envelope maxAdvances s = ⟨.ok (), s', n⟩) :
    sentFrames s'.traffic = sentFrames s.traffic ++ [envelope] := by
  rw [writeFrame, view_bind] at h
  obtain ⟨frame, t, m, k, hencode, hrest, -⟩ := bind_eq_ok h
  obtain ⟨⟨⟩, u, m, k, hwrite, hnote, -⟩ := bind_eq_ok hrest
  injection hencode with _ ht
  subst ht
  have hsame : sentFrames u.traffic = sentFrames s.traffic := run (R := SameSent) hwrite
  cases hnote
  rw [sentFrames_append, hsame]
  rfl

theorem follows_sent {json} (h : Follows json s s') :
    ∃ more, sentFrames s'.traffic = sentFrames s.traffic ++ more := by
  obtain ⟨t, ht, -⟩ := h.blocks
  exact ⟨sentFrames t, by rw [ht, sentFrames_append]⟩

/-- A request is sent first, and the response is the one to its id. -/
theorem request_ok {operation} {exchange : Exchange}
    (h : request host codecs operation s = ⟨.ok exchange, s', n⟩) :
    ∃ frames version id more, Consumed Ignores frames s s' ∧ exchange.events = frames.filterMap event? ∧
      sentFrames s'.traffic =
        sentFrames s.traffic ++ Envelope.withVersion version (.request ⟨id, operation⟩) :: more ∧
      exchange.response.id = id ∧ ∃ envelope ∈ frames, envelope.message = .response exchange.response := by
  rw [request] at h
  obtain ⟨session, t, m, k, hneg, hrest, -⟩ := bind_eq_ok h
  obtain ⟨id, u, m, k, hid, hrest, -⟩ := bind_eq_ok hrest
  rw [view_bind] at hrest
  obtain ⟨⟨⟩, v, m, k, hwrite, hrest, -⟩ := bind_eq_ok hrest
  obtain ⟨frames, w, m, k, hpump, hrest, -⟩ := bind_eq_ok hrest
  have hcons := pumpObserved_ok host codecs ignores_pure hpump
  rcases hfind : frames.reverse.findSome? (Envelope.responseTo id) with _ | response
  · rw [hfind] at hrest
    cases hrest
  · rw [hfind] at hrest
    cases hrest
    obtain ⟨more, hmore⟩ := follows_sent (Keeps.run (R := Follows codecs.json) hpump)
    have hsame : sentFrames u.traffic = sentFrames s.traffic :=
      IsTrans.trans (r := SameSent) _ _ _ (run (R := SameSent) hneg) (run (R := SameSent) hid)
    rw [writeFrame_sent host codecs hwrite, hsame, append_assoc] at hmore
    obtain ⟨envelope, hmem, hresp⟩ := exists_of_findSome?_eq_some hfind
    have hfound : envelope.message = .response response ∧ response.id = id := by
      unfold Envelope.responseTo at hresp
      split at hresp
      next heq =>
        split at hresp
        next hid =>
          cases hresp
          exact ⟨heq, hid⟩
        · cases hresp
      · cases hresp
    refine ⟨frames, session.version, id, more, ?_, rfl, hmore, hfound.2, envelope, mem_reverse.mp hmem, hfound.1⟩
    exact (run (R := Silent) hneg).before ((run (R := Silent) hid).before ((run (R := Silent) hwrite).before hcons))

/-! ## Capturing -/

/-- One event of the capture: output of the execution before its exit, its exit, or an event of no concern. -/
inductive Took (executionId : String) (event : Event) : Capture → Capture → Prop where
  | stream {channel : StreamChannel} {sequence : U64} {data : String} {eof : Bool} {bytes : List U8} {c : Capture} :
    event.event = .stream executionId channel sequence data eof → codecs.decodeBase64 data = .ok bytes →
      c.exited = none → Took executionId event c (c.append channel bytes)
  | exit {exitCode signal : Option (BitVec 32)} {c : Capture} :
    event.event = .processExited executionId exitCode signal → c.exited = none →
      Took executionId event c { c with exited := some (exitCode, signal) }
  | other {c : Capture} : event.event.concerns executionId = false → Took executionId event c c

theorem captureStream_ok {channel} {data : String}
    (h : captureStream codecs channel data s = ⟨.ok (), s', n⟩) :
    s.capture.exited = none ∧ (∃ bytes, codecs.decodeBase64 data = .ok bytes ∧
      s'.capture = s.capture.append channel bytes) ∧ s'.traffic = s.traffic := by
  rw [captureStream, view_bind] at h
  split at h
  · cases h
  next hexited =>
    obtain ⟨bytes, t, m, k, hdecode, hrest, -⟩ := bind_eq_ok h
    rcases hdata : codecs.decodeBase64 data with _ | bytes'
    · rw [hdata] at hdecode
      cases hdecode
    · rw [hdata] at hdecode
      cases hdecode
      split at hrest
      · cases hrest
      · cases hrest
        exact ⟨by simpa using hexited, ⟨_, rfl, rfl⟩, rfl⟩

theorem captureExit_ok {exitCode signal} (h : captureExit exitCode signal s = ⟨.ok (), s', n⟩) :
    s.capture.exited = none ∧ s'.capture = { s.capture with exited := some (exitCode, signal) } ∧
      s'.traffic = s.traffic := by
  rw [captureExit, view_bind] at h
  split at h
  · cases h
  next hexited =>
    cases h
    exact ⟨by simpa using hexited, rfl, rfl⟩

variable {executionId : String}

theorem captureEvent_ok {event} (h : captureEvent codecs executionId event s = ⟨.ok (), s', n⟩) :
    Took codecs executionId event s.capture s'.capture ∧ s'.traffic = s.traffic := by
  rw [captureEvent] at h
  rcases hevent : event.event with ⟨candidate, channel, sequence, data, eof⟩ | ⟨candidate, exitCode, signal⟩ | kind
  · simp only [hevent] at h
    split at h
    next hid =>
      subst hid
      obtain ⟨hexited, ⟨bytes, hdata, hcapture⟩, htraffic⟩ := captureStream_ok codecs h
      exact ⟨hcapture ▸ .stream hevent hdata hexited, htraffic⟩
    next hid =>
      cases h
      exact ⟨.other (by simp [EventKind.concerns, hevent, hid]), rfl⟩
  · simp only [hevent] at h
    split at h
    next hid =>
      subst hid
      obtain ⟨hexited, hcapture, htraffic⟩ := captureExit_ok h
      exact ⟨hcapture ▸ .exit hevent hexited, htraffic⟩
    next hid =>
      cases h
      exact ⟨.other (by simp [EventKind.concerns, hevent, hid]), rfl⟩
  · simp only [hevent] at h
    cases h
    exact ⟨.other (by simp [EventKind.concerns, hevent]), rfl⟩

variable {events : List Event} {c c' : Capture}

theorem captureEvents_ok
    (h : events.forM (captureEvent codecs executionId) s = ⟨.ok (), s', n⟩) :
    Along (Took codecs executionId) events s.capture s'.capture ∧ s'.traffic = s.traffic := by
  induction events generalizing s n with
  | nil =>
    cases h
    exact ⟨.nil _, rfl⟩
  | cons event events ih =>
    obtain ⟨⟨⟩, t, m, k, hevent, hrest, -⟩ := bind_eq_ok h
    obtain ⟨htook, htraffic⟩ := captureEvent_ok codecs hevent
    obtain ⟨hlater, htraffic'⟩ := ih hrest
    exact ⟨.cons htook hlater, htraffic'.trans htraffic⟩

def Takes (executionId : String) (frame : Envelope) (c c' : Capture) : Prop :=
  match frame.event? with
  | some event => Took codecs executionId event c c'
  | none => c' = c

theorem observeOnly_eq (executionId : String) (observer : Event → SessionM τ κ Unit) (frame : Envelope) :
    observeOnly executionId observer frame =
      match frame.event? with
      | some event => if event.event.concerns executionId then observer event else return ()
      | none => return () := by
  rcases frame with ⟨_, _, _ | _ | _ | _ | _⟩ <;> rfl

theorem observeOnly_observes (executionId : String) : Observes (Takes codecs executionId)
      (observeOnly executionId (captureEvent codecs executionId) : Envelope → SessionM τ κ Unit) := by
  intro frame s s' n h
  rw [observeOnly_eq] at h
  unfold Takes
  rcases hframe : frame.event? with _ | event
  · rw [hframe] at h
    cases h
    exact ⟨rfl, rfl⟩
  · simp only [hframe] at h
    split at h
    · obtain ⟨htook, htraffic⟩ := captureEvent_ok codecs h
      exact ⟨htook, by rw [htraffic]⟩
    next hconcern =>
      cases h
      exact ⟨.other (by simpa using hconcern), rfl⟩

theorem collectUntilExitObserved_ok {events events'}
    (h : collectUntilExitObserved host codecs executionId events (captureEvent codecs executionId) s =
      ⟨.ok events', s', n⟩) :
    ∃ frames, Consumed (Takes codecs executionId) frames s s' := by
  rw [collectUntilExitObserved, view_bind] at h
  obtain ⟨frames, t, m, k, hpump, hrest, -⟩ := bind_eq_ok h
  cases hrest
  exact ⟨frames, pumpObserved_ok host codecs (observeOnly_observes codecs executionId) hpump⟩

theorem Consumed.took (h : Consumed (Takes codecs executionId) frames s s') :
    Along (Took codecs executionId) (frames.filterMap event?) s.capture s'.capture := by
  refine h.captured.filterMap (fun frame event c c' htakes hevent => ?_) (fun frame c c' htakes hevent => ?_)
  · rwa [Takes, hevent] at htakes
  · rwa [Takes, hevent] at htakes

theorem gather_ok (h : gather host codecs executionId events s = ⟨.ok (), s', n⟩) :
    ∃ frames, decodedFrames s'.traffic = decodedFrames s.traffic ++ frames ∧
      Along (Took codecs executionId) (events ++ frames.filterMap event?) .empty s'.capture := by
  rw [gather, updateCapture, Exec.update_bind] at h
  obtain ⟨⟨⟩, t, m, k, hevents, hrest, -⟩ := bind_eq_ok h
  obtain ⟨htook, htraffic⟩ := captureEvents_ok codecs hevents
  unfold Exec.when at hrest
  split at hrest
  · obtain ⟨events', u, m, k, hcollect, hdone, -⟩ := bind_eq_ok hrest
    cases hdone
    obtain ⟨frames, hcons⟩ := collectUntilExitObserved_ok host codecs hcollect
    exact ⟨frames, by rw [hcons.decoded, htraffic], htook.append (hcons.took codecs)⟩
  · cases hrest
    exact ⟨[], by simp [htraffic], by simpa using htook⟩

/-! ## What the capture holds in the end -/

def Carries (executionId : String) (event : Event) (piece : StreamChannel × List U8) : Prop :=
  ∃ sequence data eof, event.event = .stream executionId piece.1 sequence data eof ∧
    codecs.decodeBase64 data = .ok piece.2

def bytesOn (wanted : StreamChannel → Bool) (pieces : List (StreamChannel × List U8)) : List U8 :=
  (pieces.filter fun piece => wanted piece.1).flatMap (·.2)

structure Gathered (pieces : List (StreamChannel × List U8)) (c c' : Capture) : Prop where
  stdout : c'.stdout = c.stdout ++ bytesOn (· ≠ .stderr) pieces
  stderr : c'.stderr = c.stderr ++ bytesOn (· = .stderr) pieces
  observed : c'.observed = c.observed ++ pieces

theorem Gathered.nil (hout : c'.stdout = c.stdout) (herr : c'.stderr = c.stderr)
    (hobs : c'.observed = c.observed) : Gathered [] c c' :=
  ⟨by simp [bytesOn, hout], by simp [bytesOn, herr], by simp [hobs]⟩

theorem Gathered.cons {channel} {bytes : List U8} {pieces} (h : Gathered pieces (c.append channel bytes) c') :
    Gathered ((channel, bytes) :: pieces) c c' := by
  obtain ⟨hout, herr, hobs⟩ := h
  cases channel <;>
    exact ⟨by simp [bytesOn, Capture.append, hout], by simp [bytesOn, Capture.append, herr],
      by simp [Capture.append, hobs]⟩

theorem append_exited (c : Capture) (channel) (bytes : List U8) :
    (c.append channel bytes).exited = c.exited := by
  cases channel <;> rfl

variable {codecs} {executionId : String} {events : List Event} {c c' : Capture}

theorem took_after_exit (h : Along (Took codecs executionId) events c c') (hexited : c.exited ≠ none) :
    c' = c ∧ events.filter (·.event.concerns executionId) = [] := by
  induction h with
  | nil => exact ⟨rfl, rfl⟩
  | cons htook htail ih =>
    cases htook with
    | stream _ _ hnone => exact absurd hnone hexited
    | exit _ hnone => exact absurd hnone hexited
    | other hconcern =>
      obtain ⟨heq, hnil⟩ := ih hexited
      exact ⟨heq, by rw [filter_cons_of_neg (by simp [hconcern]), hnil]⟩

theorem took_until_exit (h : Along (Took codecs executionId) events c c') (hnone : c.exited = none)
    {exitCode signal} (hexited : c'.exited = some (exitCode, signal)) :
    ∃ streams exit pieces, events.filter (·.event.concerns executionId) = streams ++ [exit] ∧
      exit.event = .processExited executionId exitCode signal ∧
        List.Forall₂ (Carries codecs executionId) streams pieces ∧
      Gathered pieces c c' := by
  induction h with
  | nil =>
    rw [hnone] at hexited
    cases hexited
  | cons htook htail ih =>
    rename_i event events c₀ c₁ c₂
    cases htook with
    | other hconcern =>
      obtain ⟨streams, exit, pieces, heq, hexit, hcarry, hgather⟩ := ih hnone hexited
      exact ⟨streams, exit, pieces, by rw [filter_cons_of_neg (by simp [hconcern]), heq], hexit, hcarry, hgather⟩
    | stream hevent hdata _ =>
      obtain ⟨streams, exit, pieces, heq, hexit, hcarry, hgather⟩ := ih ((append_exited _ _ _).trans hnone) hexited
      refine ⟨event :: streams, exit, _ :: pieces, ?_, hexit, .cons ⟨_, _, _, hevent, hdata⟩ hcarry, hgather.cons⟩
      rw [filter_cons_of_pos (by simp [hevent, EventKind.concerns]), heq, cons_append]
    | exit hevent _ =>
      obtain ⟨rfl, hnil⟩ := took_after_exit htail (by simp)
      cases hexited
      refine ⟨[], event, [], ?_, hevent, .nil, .nil rfl rfl rfl⟩
      rw [filter_cons_of_pos (by simp [hevent, EventKind.concerns]), hnil, nil_append]

/-! ## Whole executions -/

variable (codecs)

variable {stdin : List U8} {interactive : Option κ} {outcome : ExecOutcome} {events' : List Event}

theorem streamStdin_ok
    (h : streamStdin host codecs executionId stdin events s = ⟨.ok events', s', n⟩) :
    ∃ frames, decodedFrames s'.traffic = decodedFrames s.traffic ++ frames ∧
      events' = events ++ frames.filterMap event? := by
  rw [streamStdin] at h
  obtain ⟨write, t, m, k, hwrite, hrest, -⟩ := bind_eq_ok h
  obtain ⟨⟨⟩, u, m, k, haccept, hrest, -⟩ := bind_eq_ok hrest
  obtain ⟨close, v, m, k, hclose, hrest, -⟩ := bind_eq_ok hrest
  obtain ⟨⟨⟩, w, m, k, haccept', hrest, -⟩ := bind_eq_ok hrest
  obtain ⟨frames, -, -, -, hcons, hevents, -⟩ := request_ok host codecs hwrite
  obtain ⟨frames', -, -, -, hcons', hevents', -⟩ := request_ok host codecs hclose
  cases hrest
  injection haccept with _ hu
  injection haccept' with _ hw
  subst hu hw
  refine ⟨frames ++ frames', ?_, ?_⟩
  · rw [hcons'.decoded, hcons.decoded, append_assoc]
  · rw [hevents, hevents', filterMap_append, append_assoc]

theorem feedStdin_ok {attachStdin}
    (h : feedStdin host codecs attachStdin interactive executionId stdin events s = ⟨.ok events', s', n⟩) :
    ∃ frames, decodedFrames s'.traffic = decodedFrames s.traffic ++ frames ∧
      events' = events ++ frames.filterMap event? := by
  rw [feedStdin] at h
  split at h
  · exact streamStdin_ok host codecs h
  · cases h
    exact ⟨[], by simp, by simp⟩

theorem finishCapture_ok (h : finishCapture s = ⟨.ok outcome, s', n⟩) :
    s' = s ∧ s.capture.exited = some (outcome.exitCode, outcome.signal) ∧ outcome.stdout = s.capture.stdout ∧
      outcome.stderr = s.capture.stderr := by
  rw [finishCapture, view_bind] at h
  rcases hexited : s.capture.exited with _ | ⟨exitCode, signal⟩
  · rw [hexited] at h
    cases h
  · rw [hexited] at h
    cases h
    exact ⟨rfl, rfl, rfl, rfl⟩

theorem followExecution_ok {execRequest}
    (h : followExecution host codecs execRequest stdin interactive executionId events s = ⟨.ok outcome, s', n⟩) :
    ∃ frames, decodedFrames s'.traffic = decodedFrames s.traffic ++ frames ∧
      Along (Took codecs executionId) (events ++ frames.filterMap event?) .empty s'.capture ∧
      s'.capture.exited = some (outcome.exitCode, outcome.signal) ∧ outcome.stdout = s'.capture.stdout ∧
      outcome.stderr = s'.capture.stderr := by
  rw [followExecution] at h
  obtain ⟨⟨⟩, t, m, k, hset, hrest, -⟩ := bind_eq_ok h
  obtain ⟨events', u, m, k, hfeed, hrest, -⟩ := bind_eq_ok hrest
  obtain ⟨⟨⟩, v, m, k, hgather, hrest, -⟩ := bind_eq_ok hrest
  obtain ⟨⟨⟩, w, m, k, hunset, hfinish, -⟩ := bind_eq_ok hrest
  obtain ⟨frames, hdec, rfl⟩ := feedStdin_ok host codecs hfeed
  obtain ⟨frames', hdec', htook⟩ := gather_ok host codecs hgather
  obtain ⟨rfl, hexited, hout, herr⟩ := finishCapture_ok hfinish
  have hset := run (R := Silent) hset
  have hunset := run (R := Silent) hunset
  refine ⟨frames ++ frames', ?_, ?_, hexited, hout, herr⟩
  · rw [hunset.decoded, hdec', hdec, hset.decoded, append_assoc]
  · rw [hunset.capture, filterMap_append, ← append_assoc]
    exact htook

/-- The outcome is the output of this execution among the frames the call consumed: the response to the request of
    this id started it, and they hold its own id's stream events, in this order, and then its one exit event. Every
    channel but standard error counts as standard output, and the observer was shown the same pieces. -/
structure Attributed (id : RequestId) (executionId : String) (frames : List Envelope) (outcome : ExecOutcome)
    (observed : List (StreamChannel × List U8)) : Prop where
  started : ∃ envelope ∈ frames, ∃ response, envelope.message = .response response ∧ response.id = id ∧
    startedId response = .ok executionId
  gathered : ∃ streams exit, (frames.filterMap event?).filter (·.event.concerns executionId) =
      streams ++ [exit] ∧ exit.event = .processExited executionId outcome.exitCode outcome.signal ∧
    List.Forall₂ (Carries codecs executionId) streams observed
  stdout : outcome.stdout = bytesOn (· ≠ .stderr) observed
  stderr : outcome.stderr = bytesOn (· = .stderr) observed

/-- The first frame that the call sends is its Exec request, and the outcome is attributed to what that started. -/
theorem execution_attributed (execRequest : ExecRequest) (stdin : List U8) (interactive : Option κ)
    {outcome : ExecOutcome}
    (h : executeWithStdin host codecs execRequest stdin interactive s = ⟨.ok outcome, s', n⟩) :
    ∃ version id more executionId frames,
      sentFrames s'.traffic =
        sentFrames s.traffic ++ Envelope.withVersion version (.request ⟨id, .exec execRequest⟩) :: more ∧
      decodedFrames s'.traffic = decodedFrames s.traffic ++ frames ∧
      Attributed codecs id executionId frames outcome s'.capture.observed := by
  rw [executeWithStdin] at h
  obtain ⟨⟨⟩, t, m, k, hset, hrest, -⟩ := bind_eq_ok h
  obtain ⟨exchange, u, m, k, hrequest, hrest, -⟩ := bind_eq_ok hrest
  obtain ⟨executionId, v, m, k, hstarted, hfollow, -⟩ := bind_eq_ok hrest
  obtain ⟨frames, version, id, more, hcons, hevents, hsent, hid, envelope, hmem, hresponse⟩ :=
    request_ok host codecs hrequest
  injection hstarted with hstarted hv
  subst hv
  obtain ⟨later, hlater⟩ := follows_sent (Keeps.run (R := Follows codecs.json) hfollow)
  have hunsent : sentFrames t.traffic = sentFrames s.traffic := run (R := SameSent) hset
  obtain ⟨frames', hdec, htook, hexited, hout, herr⟩ := followExecution_ok host codecs hfollow
  rw [hevents, ← filterMap_append] at htook
  obtain ⟨streams, exit, pieces, hfilter, hexit, hcarry, hgather⟩ := took_until_exit htook rfl hexited
  have hobserved : s'.capture.observed = pieces := by simpa [Capture.empty] using hgather.observed
  refine ⟨version, id, more ++ later, executionId, frames ++ frames', ?_, ?_, ?_⟩
  · rw [hlater, hsent, hunsent, append_assoc, cons_append]
  · rw [hdec, hcons.decoded, (run (R := Silent) hset).decoded, append_assoc]
  · refine ⟨⟨envelope, mem_append_left _ hmem, exchange.response, hresponse, hid, hstarted⟩,
      ⟨streams, exit, hfilter, hexit, hobserved ▸ hcarry⟩, ?_, ?_⟩
    · rw [hout, hobserved]
      simpa [Capture.empty] using hgather.stdout
    · rw [herr, hobserved]
      simpa [Capture.empty] using hgather.stderr

/-! ## Two executions -/

def eventFrame (kind : EventKind) : Envelope := .withVersion CURRENT_PROTOCOL_VERSION (.event ⟨0, 0, none, kind⟩)

def eventText (eventType event : String) : List U8 :=
  FrameDecoder.messageText "event" ("\"sequence\":0,\"timestamp_ms\":0,\"event_type\":\"" ++ eventType ++
    "\",\"event\":\x7b" ++ event ++ "\x7d")

def streamText (executionId channel dataBase64 : String) : List U8 :=
  eventText "stream" ("\"execution_id\":\"" ++ executionId ++ "\",\"channel\":\"" ++ channel ++
    "\",\"stream_sequence\":0,\"data_base64\":\"" ++ dataBase64 ++ "\",\"eof\":false")

def trueRequest : ExecRequest := ⟨["/bin/true"], [], none, false, false, true, true, none⟩

def trueText : List U8 :=
  FrameDecoder.messageText "request" ("\"id\":\"vm-req-1\",\"operation\":\"exec\",\"parameters\":\x7b\"argv\":" ++
    "[\"/bin/true\"],\"tty\":false,\"attach_stdin\":false,\"attach_stdout\":true,\"attach_stderr\":true\x7d")

def startedText : List U8 :=
  FrameDecoder.messageText "response" ("\"id\":\"vm-req-1\",\"status\":\"success\",\"result\":\x7b" ++
    "\"result_type\":\"exec_started\",\"result\":\x7b\"execution_id\":\"a\",\"pid\":7\x7d\x7d")

def exitText : List U8 :=
  eventText "process_exited" "\"execution_id\":\"a\",\"exit_code\":0,\"signal\":null"

/-- The request for `/bin/true`, and what a guest answers that runs it as execution `a`. -/
def trueCodecs : Codecs where
  json := FrameDecoder.tableJson
    [(trueText, .withVersion CURRENT_PROTOCOL_VERSION (.request ⟨⟨"vm-req-1"⟩, .exec trueRequest⟩)),
      (startedText,
        .withVersion CURRENT_PROTOCOL_VERSION (.response ⟨⟨"vm-req-1"⟩, .success (.execStarted "a" 7)⟩)),
      (streamText "a" "stdout" "QQ==", eventFrame (.stream "a" .stdout 0 "QQ==" false)),
      (streamText "b" "stdout" "QQ==", eventFrame (.stream "b" .stdout 0 "QQ==" false)),
      (streamText "a" "stderr" "Qg==", eventFrame (.stream "a" .stderr 0 "Qg==" false)),
      (streamText "a" "console" "QQ==", eventFrame (.stream "a" .console 0 "QQ==" false)),
      (exitText, eventFrame (.processExited "a" (some 0) none))]
  encodeBase64 _ := ""
  decodeBase64 text :=
    if text = "QQ==" then .ok [65] else if text = "Qg==" then .ok [66] else .error "not base64"

def negotiatedClient : SessionClient Unit :=
  { freshClient 4 with negotiated := some ⟨"session", CURRENT_PROTOCOL_VERSION, 1024⟩ }

def framed (texts : List (List U8)) : List U8 := texts.flatMap fun text => beBytes PREFIX_SIZE text.length ++ text

def runCommand (steps : List (List (List U8))) : Run (Session (Nat × List (List U8)) Unit) SessionError ExecOutcome :=
  execute (scriptedHost 1000) trueCodecs ["/bin/true"] [] none [] (start negotiatedClient (0, steps.map framed))

/-- Output before the start is answered, output of another execution, then the exit. -/
def interleaved : List (List (List U8)) :=
  [[streamText "a" "stdout" "QQ==", startedText, streamText "b" "stdout" "QQ=="],
    [streamText "a" "stderr" "Qg==", exitText]]

theorem interleaved_output_attributed :
    (runCommand interleaved).outcome = .ok ⟨some 0, none, [65], [66]⟩ ∧
      ∃ id executionId frames, Attributed trueCodecs id executionId frames ⟨some 0, none, [65], [66]⟩
        [(.stdout, [65]), (.stderr, [66])] := by
  have hrun : (runCommand interleaved).outcome = .ok ⟨some 0, none, [65], [66]⟩ := by decide +kernel
  have hobserved : (runCommand interleaved).state.capture.observed = [(.stdout, [65]), (.stderr, [66])] := by
    decide +kernel
  have heq := Run.eq_of_outcome hrun
  obtain ⟨-, id, -, executionId, frames, -, -, h⟩ := execution_attributed (scriptedHost 1000) trueCodecs _ _ _ heq
  exact ⟨hrun, id, executionId, frames, hobserved ▸ h⟩

/-- The only output of the execution is on the console channel. -/
def consoleOnly : List (List (List U8)) := [[startedText], [streamText "a" "console" "QQ==", exitText]]

/-- It is returned as standard output. -/
theorem console_output_is_stdout :
    (runCommand consoleOnly).outcome = .ok ⟨some 0, none, [65], []⟩ ∧
      ∀ frame ∈ decodedFrames (runCommand consoleOnly).state.traffic, ∀ event, frame.event? = some event →
        ∀ executionId sequence data eof, event.event ≠ .stream executionId .stdout sequence data eof := by
  have hframes : decodedFrames (runCommand consoleOnly).state.traffic =
      [.withVersion CURRENT_PROTOCOL_VERSION (.response ⟨⟨"vm-req-1"⟩, .success (.execStarted "a" 7)⟩),
        eventFrame (.stream "a" .console 0 "QQ==" false), eventFrame (.processExited "a" (some 0) none)] := by
    decide +kernel
  refine ⟨by decide +kernel, ?_⟩
  rw [hframes]
  intro frame hframe event hevent executionId sequence data eof heq
  simp only [mem_cons, not_mem_nil, or_false] at hframe
  rcases hframe with rfl | rfl | rfl <;> cases hevent <;> cases heq

end Session

end Rish.Protocol
