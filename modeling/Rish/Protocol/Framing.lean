/-
  Rish.Protocol.Framing — frames of a four-byte big-endian length and a JSON payload.

  The decoder keeps a read position into a growing buffer and moves the unread bytes to the front
  only now and then. A malformed, oversized or version-incompatible frame poisons it. `Json` stands
  for the serialiser, which is not part of this code.

  Proved: what one call of `nextFrame` does, from the unread bytes alone (`nextFrame_some`,
  `nextFrame_none`), and that any envelopes whose encodings arrive in any pieces come out again,
  in order and nothing else (`frames_round_trip`).
-/

import Rish.Lib.Exec
import Rish.Lib.Stream
import Rish.Protocol.Model

namespace Rish.Protocol

open Lib List
open Outcome (slice slice_ok)
open Exec (view_bind update_bind update_apply pure_apply lift_ok_bind bind_ok update fail view)

def PREFIX_SIZE : Nat := 4
def BUFFERED_FRAME_BUDGET : Nat := 2
def USIZE_MAX : Nat := 2 ^ 64 - 1

inductive FrameError where
  | invalidMaximum (max : Nat)
  | frameTooLarge (size max : Nat)
  | bufferTooLarge (size max : Nat)
  | serialization (error : String)
  | deserialization (error : String)
  | protocolMismatch (expected received : String)
  | versionMismatch (expected received : ProtocolVersion)
  | decoderPoisoned
  deriving DecidableEq, Repr

/-- The serialiser, by what it answers. -/
structure Json where
  toVec : Envelope → Except String (List U8)
  fromSlice : List U8 → Except String Envelope

/-- What is written is read back. -/
def Json.RoundTrips (json : Json) : Prop :=
  ∀ envelope payload, json.toVec envelope = .ok payload → json.fromSlice payload = .ok envelope

def validateMaximum (maxFrameSize : Nat) : Outcome FrameError Unit :=
  if maxFrameSize = 0 ∨ 2 ^ 32 ≤ maxFrameSize ∨ USIZE_MAX < maxFrameSize + PREFIX_SIZE then
    .err (.invalidMaximum maxFrameSize)
  else .ok ()

/-- Room for two frames; for one when two do not fit the address space. -/
def bufferLimit (maxFrameSize : Nat) : Nat :=
  let oneFrame := maxFrameSize + PREFIX_SIZE
  if oneFrame * BUFFERED_FRAME_BUDGET ≤ USIZE_MAX then oneFrame * BUFFERED_FRAME_BUDGET else oneFrame

/-! ## The encoder -/

structure FrameEncoder where
  maxFrameSize : Nat
  deriving DecidableEq, Repr

namespace FrameEncoder

def new (maxFrameSize : Nat) : Outcome FrameError FrameEncoder := do
  validateMaximum maxFrameSize
  return ⟨maxFrameSize⟩

def encode (json : Json) (encoder : FrameEncoder) (envelope : Envelope) : Outcome FrameError (List U8) :=
  if envelope.protocol ≠ PROTOCOL_ID then .err (.protocolMismatch PROTOCOL_ID envelope.protocol)
  else
    match json.toVec envelope with
    | .error error => .err (.serialization error)
    | .ok payload =>
      if encoder.maxFrameSize < payload.length then .err (.frameTooLarge payload.length encoder.maxFrameSize)
      else if 2 ^ 32 ≤ payload.length then .err (.frameTooLarge payload.length encoder.maxFrameSize)
      else .ok (beBytes PREFIX_SIZE payload.length ++ payload)

end FrameEncoder

/-! ## The decoder -/

structure FrameDecoder where
  buffer : List U8
  readPosition : Nat
  initialMaxFrameSize : Nat
  maxFrameSize : Nat
  maxBufferSize : Nat
  expectedVersion : Option ProtocolVersion
  poisoned : Bool
  deriving DecidableEq, Repr

abbrev DecoderM := Exec FrameDecoder FrameError

namespace FrameDecoder

def new (maxFrameSize : Nat) : Outcome FrameError FrameDecoder := do
  validateMaximum maxFrameSize
  return ⟨[], 0, maxFrameSize, maxFrameSize, bufferLimit maxFrameSize, none, false⟩

def setExpectedVersion (expectedVersion : Option ProtocolVersion) (d : FrameDecoder) : FrameDecoder :=
  { d with expectedVersion := expectedVersion }

variable (d : FrameDecoder)

def bufferedLen : Nat := d.buffer.length - d.readPosition

def remainingBufferCapacity : Nat := d.maxBufferSize - d.bufferedLen

/-- A failure that drops what was buffered and refuses every later call. -/
def poison {α : Type} (error : FrameError) : DecoderM α := do
  update fun d => { d with buffer := [], readPosition := 0, poisoned := true }
  fail error

def compactIfUseful : FrameDecoder :=
  if d.readPosition = d.buffer.length then { d with buffer := [], readPosition := 0 }
  else if 4096 ≤ d.readPosition ∧ d.buffer.length ≤ d.readPosition * 2 then
    { d with buffer := d.buffer.drop d.readPosition, readPosition := 0 }
  else d

/-- A negotiated limit; bytes already buffered stay. -/
def setMaxFrameSize (maxFrameSize : Nat) : DecoderM Unit := do
  Exec.lift (validateMaximum maxFrameSize)
  let d ← view id
  if bufferLimit maxFrameSize < d.bufferedLen then poison (.bufferTooLarge d.bufferedLen (bufferLimit maxFrameSize))
  else
    update fun d => { d with maxFrameSize := maxFrameSize, maxBufferSize := bufferLimit maxFrameSize }

def push (bytes : List U8) : DecoderM Unit := do
  let d ← view id
  if d.poisoned then fail .decoderPoisoned
  else
    update compactIfUseful
    let d ← view id
    let bufferedSize := min (d.bufferedLen + bytes.length) USIZE_MAX
    if d.maxBufferSize < bufferedSize then poison (.bufferTooLarge bufferedSize d.maxBufferSize)
    else update fun d => { d with buffer := d.buffer ++ bytes }

/-- The checks a decoded envelope passes before it is given out. -/
def acceptFrame (envelope : Envelope) : DecoderM (Option Envelope) := do
  let d ← view id
  if envelope.protocol ≠ PROTOCOL_ID then poison (.protocolMismatch PROTOCOL_ID envelope.protocol)
  else
    match d.expectedVersion with
    | some expected =>
      if envelope.version ≠ expected then poison (.versionMismatch expected envelope.version)
      else
        update compactIfUseful
        return some envelope
    | none =>
      update compactIfUseful
      return some envelope

/-- One complete frame, or `none` when more bytes are needed. -/
def nextFrame (json : Json) : DecoderM (Option Envelope) := do
  let d ← view id
  if d.poisoned then fail .decoderPoisoned
  else if d.bufferedLen < PREFIX_SIZE then return none
  else
    Exec.lift (slice (d.readPosition + PREFIX_SIZE) d.buffer.length)
    let payloadSize := beNat ((d.buffer.drop d.readPosition).take PREFIX_SIZE)
    if d.maxFrameSize < payloadSize then poison (.frameTooLarge payloadSize d.maxFrameSize)
    else if d.bufferedLen < PREFIX_SIZE + payloadSize then return none
    else
      let payloadStart := d.readPosition + PREFIX_SIZE
      Exec.lift (slice (payloadStart + payloadSize) d.buffer.length)
      let decoded := json.fromSlice ((d.buffer.drop payloadStart).take payloadSize)
      update fun d => { d with readPosition := payloadStart + payloadSize }
      match decoded with
      | .error error => poison (.deserialization error)
      | .ok envelope => acceptFrame envelope

/-- Frames until more bytes are needed. A frame has at least four bytes, so the buffered length
    bounds the rounds. -/
def drainRounds (json : Json) : Nat → DecoderM (List Envelope)
  | 0 => return []
  | rounds + 1 => do
    match ← nextFrame json with
    | none => return []
    | some envelope =>
      let later ← drainRounds json rounds
      return envelope :: later

def drain (json : Json) : DecoderM (List Envelope) := do
  let d ← view id
  drainRounds json d.bufferedLen

/-- Chunks pushed one after the other, complete frames drained between them. -/
def receive (json : Json) : List (List U8) → DecoderM (List Envelope)
  | [] => return []
  | chunk :: chunks => do
    push chunk
    let frames ← drain json
    let later ← receive json chunks
    return frames ++ later

/-- Each chunk is within the capacity the decoder has left when it is pushed. -/
def Fits (json : Json) : List (List U8) → FrameDecoder → Prop
  | [], _ => True
  | chunk :: chunks, d =>
    chunk.length ≤ d.remainingBufferCapacity ∧ Fits json chunks ((push chunk >>= fun _ => drain json) d).state

/-! ## Unread bytes -/

def unread : List U8 := d.buffer.drop d.readPosition

@[simp] theorem unread_length : d.unread.length = d.bufferedLen := length_drop

/-- Nothing but the buffer differs. -/
structure SameSettings (d d' : FrameDecoder) : Prop where
  initialMaxFrameSize : d'.initialMaxFrameSize = d.initialMaxFrameSize
  maxFrameSize : d'.maxFrameSize = d.maxFrameSize
  maxBufferSize : d'.maxBufferSize = d.maxBufferSize
  expectedVersion : d'.expectedVersion = d.expectedVersion
  poisoned : d'.poisoned = d.poisoned

theorem SameSettings.refl : SameSettings d d := ⟨rfl, rfl, rfl, rfl, rfl⟩

variable {d : FrameDecoder}

theorem SameSettings.trans {d' d''} (h : SameSettings d d') (h' : SameSettings d' d'') :
    SameSettings d d'' :=
  ⟨h'.1.trans h.1, h'.2.trans h.2, h'.3.trans h.3, h'.4.trans h.4, h'.5.trans h.5⟩

def InBuffer (d : FrameDecoder) : Prop := d.readPosition ≤ d.buffer.length

@[simp] theorem compactIfUseful_unread (d) : (compactIfUseful d).unread = d.unread := by
  simp only [compactIfUseful, unread]
  split
  · next h => simp only [h, drop_length, drop_nil]
  · split
    · exact drop_zero
    · rfl

theorem compactIfUseful_settings (d) : SameSettings d (compactIfUseful d) := by
  unfold compactIfUseful
  split
  · exact ⟨rfl, rfl, rfl, rfl, rfl⟩
  · split
    · exact ⟨rfl, rfl, rfl, rfl, rfl⟩
    · exact .refl d

theorem compactIfUseful_inBuffer (h : d.InBuffer) : (compactIfUseful d).InBuffer := by
  simp only [compactIfUseful, InBuffer] at *
  split
  · simp
  · split
    · simp
    · exact h

theorem unread_append (h : d.InBuffer) (bytes) :
    unread { d with buffer := d.buffer ++ bytes } = d.unread ++ bytes :=
  drop_append_of_le_length h

theorem push_ok {bytes} (hp : d.poisoned = false) (hin : d.InBuffer)
    (hfit : bytes.length ≤ d.remainingBufferCapacity) (hd : d.bufferedLen ≤ d.maxBufferSize) :
    ∃ d', push bytes d = ⟨.ok (), d', 0⟩ ∧ d'.unread = d.unread ++ bytes ∧ SameSettings d d' ∧ d'.InBuffer := by
  have hs := compactIfUseful_settings d
  have hlen : (compactIfUseful d).bufferedLen = d.bufferedLen := by
    rw [← unread_length, ← unread_length, compactIfUseful_unread]
  have hroom : ¬(compactIfUseful d).maxBufferSize < min ((compactIfUseful d).bufferedLen + bytes.length) USIZE_MAX := by
    rw [hs.maxBufferSize, hlen]
    unfold remainingBufferCapacity at hfit
    omega
  refine ⟨{ compactIfUseful d with buffer := (compactIfUseful d).buffer ++ bytes }, ?_, ?_, ?_, ?_⟩
  · simp only [push, view_bind, id_eq, hp, Bool.false_eq_true, if_false, update_bind, hroom, update_apply]
  · rw [unread_append (compactIfUseful_inBuffer hin), compactIfUseful_unread]
  · exact hs.trans ⟨rfl, rfl, rfl, rfl, rfl⟩
  · have := compactIfUseful_inBuffer hin
    simp only [InBuffer, length_append] at *
    omega

/-! ## Taking a frame off -/

def Accepts (expected : Option ProtocolVersion) (envelope : Envelope) : Prop :=
  envelope.protocol = PROTOCOL_ID ∧ ∀ version, expected = some version → envelope.version = version

instance (expected : Option ProtocolVersion) (envelope : Envelope) : Decidable (Accepts expected envelope) :=
  match expected with
  | none => decidable_of_iff (envelope.protocol = PROTOCOL_ID) (by simp [Accepts])
  | some version => decidable_of_iff (envelope.protocol = PROTOCOL_ID ∧ envelope.version = version) (by simp [Accepts])

/-- More bytes are needed before the first frame can be judged. -/
def Incomplete (maxFrameSize : Nat) (bs : List U8) : Prop :=
  bs.length < PREFIX_SIZE ∨
    (beNat (bs.take PREFIX_SIZE) ≤ maxFrameSize ∧ bs.length < PREFIX_SIZE + beNat (bs.take PREFIX_SIZE))

/-- The first frame of a byte string, when it is complete and acceptable, and the bytes behind it. -/
def takeFrame (json : Json) (maxFrameSize : Nat) (expected : Option ProtocolVersion) (bs : List U8) :
    Option (Envelope × List U8) :=
  let size := beNat (bs.take PREFIX_SIZE)
  if bs.length < PREFIX_SIZE ∨ maxFrameSize < size ∨ bs.length < PREFIX_SIZE + size then none
  else
    match json.fromSlice ((bs.drop PREFIX_SIZE).take size) with
    | .error _ => none
    | .ok envelope => if Accepts expected envelope then some (envelope, bs.drop (PREFIX_SIZE + size)) else none

theorem beBytes_beNat (bs) : beBytes bs.length (beNat bs) = bs := by
  have h := leBytes_leNat bs.reverse
  rw [length_reverse] at h
  rw [beBytes, beNat, h, reverse_reverse]

theorem beNat_lt (bs) : beNat bs < 256 ^ bs.length := by
  have h := leNat_lt bs.reverse
  rwa [length_reverse] at h

theorem takeFrame_eq_some {json maxFrameSize expected} {bs rest : List U8}
    {envelope : Envelope} :
    takeFrame json maxFrameSize expected bs = some (envelope, rest) ↔
      ∃ payload, bs = beBytes PREFIX_SIZE payload.length ++ payload ++ rest ∧ payload.length < 2 ^ 32 ∧
        payload.length ≤ maxFrameSize ∧ json.fromSlice payload = .ok envelope ∧ Accepts expected envelope := by
  constructor
  · intro h
    simp only [takeFrame] at h
    split at h
    · cases h
    next hsize =>
      push Not at hsize
      obtain ⟨hheader, hmax, hlen⟩ := hsize
      have hpayload : ((bs.drop PREFIX_SIZE).take (beNat (bs.take PREFIX_SIZE))).length =
          beNat (bs.take PREFIX_SIZE) := by
        simp only [length_take, length_drop]
        omega
      split at h
      · cases h
      next hjson =>
        split at h
        next hacc =>
          cases h
          have htake : (bs.take PREFIX_SIZE).length = PREFIX_SIZE := by simp only [length_take]; omega
          have hlow := beBytes_beNat (bs.take PREFIX_SIZE)
          have hlt := beNat_lt (bs.take PREFIX_SIZE)
          rw [htake] at hlow hlt
          refine ⟨_, ?_, ?_, ?_, hjson, hacc⟩
          · rw [hpayload, hlow, append_assoc, ← drop_drop, take_append_drop, take_append_drop]
          · rw [hpayload]; exact hlt
          · rw [hpayload]; exact hmax
        · cases h
  · rintro ⟨payload, rfl, h32, hmax, hjson, hacc⟩
    have htake : (beBytes PREFIX_SIZE payload.length ++ payload ++ rest).take PREFIX_SIZE =
        beBytes PREFIX_SIZE payload.length := by
      rw [append_assoc, take_left' (beBytes_length _ _)]
    have hsize : beNat (beBytes PREFIX_SIZE payload.length) = payload.length := by
      rw [beNat_beBytes]
      exact Nat.mod_eq_of_lt h32
    have hdrop : (beBytes PREFIX_SIZE payload.length ++ payload ++ rest).drop PREFIX_SIZE = payload ++ rest := by
      rw [append_assoc, drop_left' (beBytes_length _ _)]
    have hlong : ¬((beBytes PREFIX_SIZE payload.length ++ payload ++ rest).length < PREFIX_SIZE ∨
        maxFrameSize < payload.length ∨
          (beBytes PREFIX_SIZE payload.length ++ payload ++ rest).length < PREFIX_SIZE + payload.length) := by
      simp only [length_append, beBytes_length]
      omega
    simp only [takeFrame, htake, hsize, hlong, if_false, hdrop, take_left, hjson, if_pos hacc, ← drop_drop,
      drop_left]

theorem takeFrame_delimited (json maxFrameSize expected) :
    Delimited (takeFrame json maxFrameSize expected) where
  shrinks h := by
    obtain ⟨payload, rfl, -⟩ := takeFrame_eq_some.mp h
    simp only [length_append, beBytes_length, PREFIX_SIZE]
    omega
  stable more h := by
    obtain ⟨payload, rfl, hpayload⟩ := takeFrame_eq_some.mp h
    exact takeFrame_eq_some.mpr ⟨payload, by simp only [append_assoc], hpayload⟩

/-! ## One call -/

variable {json : Json} {d : FrameDecoder} {envelope : Envelope}

theorem acceptFrame_accepts (h : Accepts d.expectedVersion envelope) :
    acceptFrame envelope d = ⟨.ok (some envelope), compactIfUseful d, 0⟩ := by
  obtain ⟨hid, hversion⟩ := h
  simp only [acceptFrame, view_bind, id_eq, hid, ne_eq, not_true_eq_false, if_false]
  rcases hv : d.expectedVersion with _ | version
  · simp only [update_bind, pure_apply]
  · simp only [hversion version hv, not_true_eq_false, if_false, update_bind, pure_apply]

theorem nextFrame_some {rest} (hp : d.poisoned = false)
    (h : takeFrame json d.maxFrameSize d.expectedVersion d.unread = some (envelope, rest)) :
    ∃ d', nextFrame json d = ⟨.ok (some envelope), d', 0⟩ ∧ d'.unread = rest ∧ SameSettings d d' ∧ d'.InBuffer := by
  obtain ⟨payload, hunread, h32, hmax, hjson, hacc⟩ := takeFrame_eq_some.mp h
  have hlen : d.bufferedLen = PREFIX_SIZE + payload.length + rest.length := by
    rw [← unread_length, hunread]
    simp only [length_append, beBytes_length]
  have hbuffer : d.readPosition + PREFIX_SIZE + payload.length ≤ d.buffer.length := by
    unfold bufferedLen at hlen
    simp only [PREFIX_SIZE] at *
    omega
  have hheader : beNat ((d.buffer.drop d.readPosition).take PREFIX_SIZE) = payload.length := by
    rw [show d.buffer.drop d.readPosition = d.unread from rfl, hunread, append_assoc,
      take_left' (beBytes_length _ _), beNat_beBytes]
    exact Nat.mod_eq_of_lt h32
  have hpayload : (d.buffer.drop (d.readPosition + PREFIX_SIZE)).take payload.length = payload := by
    rw [← drop_drop, show d.buffer.drop d.readPosition = d.unread from rfl, hunread, append_assoc,
      drop_left' (beBytes_length _ _), take_left]
  have hrest : d.buffer.drop (d.readPosition + PREFIX_SIZE + payload.length) = rest := by
    rw [← drop_drop, ← drop_drop, show d.buffer.drop d.readPosition = d.unread from rfl, hunread,
      append_assoc, drop_left' (beBytes_length _ _), drop_left]
  refine ⟨compactIfUseful { d with readPosition := d.readPosition + PREFIX_SIZE + payload.length }, ?_, ?_, ?_, ?_⟩
  · have hshort : ¬d.bufferedLen < PREFIX_SIZE := by omega
    have hwhole : ¬d.bufferedLen < PREFIX_SIZE + payload.length := by omega
    have hfits : ¬d.maxFrameSize < payload.length := by omega
    simp only [nextFrame, view_bind, id_eq, hp, Bool.false_eq_true, if_false, hshort, hheader, hfits, hwhole,
      slice_ok (show d.readPosition + PREFIX_SIZE ≤ d.buffer.length by omega), slice_ok hbuffer,
      lift_ok_bind, update_bind, hpayload, hjson]
    apply acceptFrame_accepts
    exact hacc
  · rw [compactIfUseful_unread]
    exact hrest
  · refine SameSettings.trans ?_ (compactIfUseful_settings _)
    exact ⟨rfl, rfl, rfl, rfl, rfl⟩
  · exact compactIfUseful_inBuffer hbuffer

theorem nextFrame_none (hp : d.poisoned = false) (h : Incomplete d.maxFrameSize d.unread) :
    nextFrame json d = ⟨.ok none, d, 0⟩ := by
  simp only [Incomplete, unread_length] at h
  simp only [nextFrame, view_bind, id_eq, hp, Bool.false_eq_true, if_false]
  by_cases hshort : d.bufferedLen < PREFIX_SIZE
  · simp only [hshort, if_true, pure_apply]
  · obtain ⟨hmax, hpart⟩ := h.resolve_left hshort
    have hbuffer : d.readPosition + PREFIX_SIZE ≤ d.buffer.length := by
      unfold bufferedLen at hshort
      simp only [PREFIX_SIZE] at *
      omega
    simp only [unread] at hmax hpart
    simp only [hshort, if_false, slice_ok hbuffer, lift_ok_bind, Nat.not_lt.mpr hmax, hpart, if_true,
      pure_apply]

/-! ## Draining -/

theorem drain_ok (json) {n} (hp : d.poisoned = false) (hin : d.InBuffer) (hn : d.bufferedLen ≤ n)
    (hlast : Incomplete d.maxFrameSize (split (takeFrame json d.maxFrameSize d.expectedVersion) d.unread).2) :
    ∃ d', drainRounds json n d =
        ⟨.ok (split (takeFrame json d.maxFrameSize d.expectedVersion) d.unread).1, d', 0⟩ ∧
      d'.unread = (split (takeFrame json d.maxFrameSize d.expectedVersion) d.unread).2 ∧ SameSettings d d' ∧
      d'.InBuffer := by
  induction n generalizing d with
  | zero =>
    have hnil : d.unread = [] := eq_nil_of_length_eq_zero (by rw [unread_length]; omega)
    rw [split_none (by rw [hnil]; exact (takeFrame_delimited _ _ _).next_nil)]
    exact ⟨d, rfl, rfl, .refl d, hin⟩
  | succ n ih =>
    rcases hx : takeFrame json d.maxFrameSize d.expectedVersion d.unread with _ | ⟨envelope, rest⟩
    · rw [split_none hx] at hlast ⊢
      refine ⟨d, ?_, rfl, .refl d, hin⟩
      rw [drainRounds, bind_ok (nextFrame_none hp hlast)]
      rfl
    · have hdel := takeFrame_delimited json d.maxFrameSize d.expectedVersion
      obtain ⟨d', hcall, hunread, hsame, hin'⟩ := nextFrame_some hp hx
      rw [split_some hdel hx] at hlast ⊢
      have hlt := hdel.shrinks hx
      rw [unread_length, ← hunread, unread_length] at hlt
      obtain ⟨d'', hrun, hunread', hsame', hin''⟩ := ih (d := d') (by rw [hsame.poisoned, hp]) hin' (by omega)
        (by rw [hunread, hsame.maxFrameSize, hsame.expectedVersion]; exact hlast)
      rw [hunread, hsame.maxFrameSize, hsame.expectedVersion] at hrun hunread'
      refine ⟨d'', ?_, hunread', hsame.trans hsame', hin''⟩
      rw [drainRounds, bind_ok hcall, Run.after_zero]
      exact bind_ok hrun

/-! ## Every call -/

theorem poison_apply {α : Type} (error d) :
    (poison error : DecoderM α) d = ⟨.err error, { d with buffer := [], readPosition := 0, poisoned := true }, 0⟩ := by
  simp only [poison, update_bind, Exec.fail_apply]

theorem push_state (bytes) (hin : d.InBuffer) :
    (push bytes d).state.InBuffer ∧
      ((push bytes d).state.poisoned = false → d.poisoned = false ∧
        (push bytes d).state.unread = d.unread ++ bytes) := by
  simp only [push, view_bind, id_eq]
  split
  next hp => exact ⟨hin, fun h => absurd (hp.symm.trans h) (by decide)⟩
  next hp =>
    simp only [update_bind, view_bind, id_eq]
    split
    · rw [poison_apply]
      exact ⟨Nat.le_refl _, fun h => Bool.noConfusion h⟩
    · have hin' := compactIfUseful_inBuffer hin
      refine ⟨?_, fun _ => ⟨Bool.eq_false_iff.mpr hp, ?_⟩⟩
      · simp only [update_apply, InBuffer, length_append] at *
        omega
      · rw [update_apply, unread_append hin', compactIfUseful_unread]

theorem acceptFrame_rejects (h : ¬Accepts d.expectedVersion envelope) :
    ∃ error d', acceptFrame envelope d = ⟨.err error, d', 0⟩ ∧ d'.poisoned = true ∧ d'.InBuffer := by
  simp only [acceptFrame, view_bind, id_eq]
  by_cases hid : envelope.protocol = PROTOCOL_ID
  · rcases hv : d.expectedVersion with _ | version
    · exact absurd ⟨hid, fun _ hv' => nomatch hv.symm.trans hv'⟩ h
    · have hversion : envelope.version ≠ version := by
        intro heq
        refine h ⟨hid, fun version' hv' => ?_⟩
        rw [hv] at hv'
        cases hv'
        exact heq
      simp only [hid, ne_eq, not_true_eq_false, if_false, hversion, not_false_eq_true, if_true, poison_apply]
      exact ⟨_, _, rfl, rfl, Nat.le_refl _⟩
  · simp only [ne_eq, hid, not_false_eq_true, if_true, poison_apply]
    exact ⟨_, _, rfl, rfl, Nat.le_refl _⟩

theorem nextFrame_rejects (hp : d.poisoned = false)
    (hx : takeFrame json d.maxFrameSize d.expectedVersion d.unread = none)
    (hwhole : ¬Incomplete d.maxFrameSize d.unread) :
    ∃ error d', nextFrame json d = ⟨.err error, d', 0⟩ ∧ d'.poisoned = true ∧ d'.InBuffer := by
  simp only [Incomplete, unread_length, not_or, not_and, Nat.not_lt] at hwhole
  obtain ⟨hheader, hsize⟩ := hwhole
  have hbuffer : d.readPosition + PREFIX_SIZE ≤ d.buffer.length := by
    unfold bufferedLen at hheader
    simp only [PREFIX_SIZE] at *
    omega
  simp only [nextFrame, view_bind, id_eq, hp, Bool.false_eq_true, if_false, Nat.not_lt.mpr hheader,
    slice_ok hbuffer, lift_ok_bind]
  split
  · rw [poison_apply]
    exact ⟨_, _, rfl, rfl, Nat.le_refl _⟩
  next hmax =>
    have hsize : PREFIX_SIZE + beNat ((d.buffer.drop d.readPosition).take PREFIX_SIZE) ≤ d.bufferedLen :=
      hsize (Nat.not_lt.mp hmax)
    have hend : d.readPosition + PREFIX_SIZE + beNat ((d.buffer.drop d.readPosition).take PREFIX_SIZE) ≤
        d.buffer.length := by
      simp only [unread, bufferedLen, PREFIX_SIZE] at *
      omega
    rw [if_neg (Nat.not_lt.mpr hsize), slice_ok hend, lift_ok_bind, update_bind]
    rcases hjson : json.fromSlice ((d.buffer.drop (d.readPosition + PREFIX_SIZE)).take
        (beNat ((d.buffer.drop d.readPosition).take PREFIX_SIZE))) with error | envelope
    · exact ⟨_, _, poison_apply _ _, rfl, Nat.le_refl _⟩
    · have hrej : ¬Accepts d.expectedVersion envelope := by
        intro hacc
        have hlong : ¬(d.bufferedLen < PREFIX_SIZE ∨ d.maxFrameSize < beNat (d.unread.take PREFIX_SIZE) ∨
            d.bufferedLen < PREFIX_SIZE + beNat (d.unread.take PREFIX_SIZE)) :=
          not_or.mpr ⟨Nat.not_lt.mpr hheader, not_or.mpr ⟨hmax, Nat.not_lt.mpr hsize⟩⟩
        rw [← drop_drop] at hjson
        simp only [takeFrame, unread_length, hlong, if_false] at hx
        simp only [unread] at hx
        rw [hjson] at hx
        simp only [hacc, if_true] at hx
        cases hx
      apply acceptFrame_rejects
      exact hrej

theorem nextFrame_cases (json) (hin : d.InBuffer) :
    (∃ envelope rest d', takeFrame json d.maxFrameSize d.expectedVersion d.unread = some (envelope, rest) ∧
        d.poisoned = false ∧ nextFrame json d = ⟨.ok (some envelope), d', 0⟩ ∧ d'.unread = rest ∧ SameSettings d d' ∧
        d'.InBuffer) ∨
      (nextFrame json d = ⟨.ok none, d, 0⟩ ∧ d.poisoned = false ∧ Incomplete d.maxFrameSize d.unread) ∨
      ∃ error d', nextFrame json d = ⟨.err error, d', 0⟩ ∧ d'.poisoned = true ∧ d'.InBuffer := by
  rcases hp : d.poisoned with _ | _
  · rcases hx : takeFrame json d.maxFrameSize d.expectedVersion d.unread with _ | ⟨envelope, rest⟩
    · by_cases hpart : Incomplete d.maxFrameSize d.unread
      · exact .inr (.inl ⟨nextFrame_none hp hpart, rfl, hpart⟩)
      · exact .inr (.inr (nextFrame_rejects hp hx hpart))
    · obtain ⟨d', hcall, hrest, hsame, hin'⟩ := nextFrame_some hp hx
      exact .inl ⟨envelope, rest, d', rfl, rfl, hcall, hrest, hsame, hin'⟩
  · refine .inr (.inr ⟨.decoderPoisoned, d, ?_, hp, hin⟩)
    simp only [nextFrame, view_bind, id_eq, hp, if_true, Exec.fail_apply]

theorem setMaxFrameSize_state (maxFrameSize) (hin : d.InBuffer) :
    (setMaxFrameSize maxFrameSize d).state.InBuffer ∧
      ((setMaxFrameSize maxFrameSize d).state.poisoned = false →
        d.poisoned = false ∧ (setMaxFrameSize maxFrameSize d).state.unread = d.unread) := by
  unfold setMaxFrameSize
  rcases validateMaximum maxFrameSize with ⟨⟩ | error | _
  · simp only [lift_ok_bind, view_bind, id_eq]
    split
    · rw [poison_apply]
      exact ⟨Nat.le_refl _, fun h => Bool.noConfusion h⟩
    · exact ⟨hin, fun h => ⟨h, rfl⟩⟩
  · rw [Exec.bind_err (Exec.lift_apply _ _)]
    exact ⟨hin, fun h => ⟨h, rfl⟩⟩
  · rw [Exec.bind_panic (Exec.lift_apply _ _)]
    exact ⟨hin, fun h => ⟨h, rfl⟩⟩

/-! ## Sound streams -/

variable {maxFrameSize : Nat} {expected : Option ProtocolVersion}

theorem takeFrame_incomplete {bs} (h : Incomplete maxFrameSize bs) :
    takeFrame json maxFrameSize expected bs = none := by
  have hcut : bs.length < PREFIX_SIZE ∨ maxFrameSize < beNat (bs.take PREFIX_SIZE) ∨
      bs.length < PREFIX_SIZE + beNat (bs.take PREFIX_SIZE) := by
    rcases h with h | h
    · exact .inl h
    · exact .inr (.inr h.2)
  simp only [takeFrame, hcut, if_true]

/-- A string is one frame, whole. -/
def IsFrame (json : Json) (maxFrameSize : Nat) (expected : Option ProtocolVersion) (envelope : Envelope)
    (frame : List U8) : Prop :=
  takeFrame json maxFrameSize expected frame = some (envelope, [])

theorem encode_isFrame {encoder : FrameEncoder} {envelope : Envelope} {frame : List U8} (hjson : json.RoundTrips)
    (hmax : encoder.maxFrameSize ≤ maxFrameSize)
    (hversion : ∀ version, expected = some version → envelope.version = version)
    (h : encoder.encode json envelope = .ok frame) : IsFrame json maxFrameSize expected envelope frame := by
  simp only [FrameEncoder.encode] at h
  split at h
  · cases h
  next hid =>
    split at h
    · cases h
    next payload hpayload =>
      split at h
      · cases h
      split at h
      · cases h
      · cases h
        refine takeFrame_eq_some.mpr ⟨payload, (append_nil _).symm, by omega, by omega, hjson _ _ hpayload, ?_⟩
        exact ⟨not_not.mp hid, hversion⟩

variable {envelopes : List Envelope} {frames : List (List U8)}

theorem encode_isFrames {encoder : FrameEncoder}
    (hjson : json.RoundTrips) (hmax : encoder.maxFrameSize ≤ maxFrameSize)
    (hversion : ∀ e ∈ envelopes, ∀ version, expected = some version → e.version = version)
    (h : List.Forall₂ (fun e frame => encoder.encode json e = .ok frame) envelopes frames) :
    List.Forall₂ (IsFrame json maxFrameSize expected) envelopes frames := by
  induction h with
  | nil => exact .nil
  | cons hframe _ ih =>
    exact .cons (encode_isFrame hjson hmax (hversion _ mem_cons_self) hframe)
      (ih fun e he => hversion e (mem_cons_of_mem _ he))

theorem IsFrame.incomplete {envelope frame bs future more}
    (h : IsFrame json maxFrameSize expected envelope frame) (hcut : bs ++ future = frame ++ more)
    (hshort : bs.length < frame.length) : Incomplete maxFrameSize bs := by
  obtain ⟨payload, rfl, h32, hmax, -, -⟩ := takeFrame_eq_some.mp h
  by_cases hheader : bs.length < PREFIX_SIZE
  · exact .inl hheader
  have htake : bs.take PREFIX_SIZE = beBytes PREFIX_SIZE payload.length := by
    have hfront := congrArg (List.take PREFIX_SIZE) hcut
    rwa [take_append_of_le_length (by omega), append_nil, append_assoc,
      take_left' (beBytes_length _ _)] at hfront
  have hsize : beNat (bs.take PREFIX_SIZE) = payload.length := by
    rw [htake, beNat_beBytes]
    exact Nat.mod_eq_of_lt h32
  right
  rw [hsize]
  simp only [length_append, beBytes_length, length_nil] at hshort
  omega

theorem split_incomplete {bs future}
    (h : List.Forall₂ (IsFrame json maxFrameSize expected) envelopes frames) (hcut : bs ++ future = frames.flatten) :
    Incomplete maxFrameSize (split (takeFrame json maxFrameSize expected) bs).2 := by
  induction h generalizing bs with
  | nil =>
    rw [flatten_nil, append_eq_nil_iff] at hcut
    rw [hcut.1]
    exact .inl (by simp [split, takeItems, PREFIX_SIZE])
  | cons hframe _ ih =>
    rename_i frame _ frames _
    rw [flatten_cons] at hcut
    by_cases hshort : bs.length < frame.length
    · have hpart := hframe.incomplete hcut hshort
      rw [split_none (takeFrame_incomplete hpart)]
      exact hpart
    · obtain ⟨later, rfl⟩ : frame <+: bs :=
        prefix_of_prefix_length_le ⟨frames.flatten, rfl⟩ ⟨future, hcut⟩ (by omega)
      rw [append_assoc] at hcut
      have hdel := takeFrame_delimited json maxFrameSize expected
      rw [split_some hdel (hdel.stable later hframe), nil_append]
      exact ih (append_cancel_left hcut)

theorem split_frames
    (h : List.Forall₂ (IsFrame json maxFrameSize expected) envelopes frames) :
    split (takeFrame json maxFrameSize expected) frames.flatten = (envelopes, []) := by
  induction h with
  | nil => rfl
  | cons hframe _ ih =>
    have hdel := takeFrame_delimited json maxFrameSize expected
    rw [flatten_cons, split_some hdel (hdel.stable _ hframe), nil_append, ih]

theorem receive_ok {chunks} (seen : List U8) (hp : d.poisoned = false) (hin : d.InBuffer)
    (hroom : d.bufferedLen ≤ d.maxBufferSize) (hfits : Fits json chunks d)
    (hseen : d.unread = (split (takeFrame json d.maxFrameSize d.expectedVersion) seen).2)
    (hsound : ∀ bs future, bs ++ future = seen ++ chunks.flatten →
      Incomplete d.maxFrameSize (split (takeFrame json d.maxFrameSize d.expectedVersion) bs).2) :
    ∃ d', receive json chunks d =
        ⟨.ok (feed (takeFrame json d.maxFrameSize d.expectedVersion) d.unread chunks).1, d', 0⟩ ∧
      d'.unread = (feed (takeFrame json d.maxFrameSize d.expectedVersion) d.unread chunks).2 ∧
      SameSettings d d' := by
  induction chunks generalizing d seen with
  | nil => exact ⟨d, rfl, rfl, .refl d⟩
  | cons chunk chunks ih =>
    obtain ⟨hfit, hlater⟩ := hfits
    have hdel := takeFrame_delimited json d.maxFrameSize d.expectedVersion
    have hsplit : (split (takeFrame json d.maxFrameSize d.expectedVersion) (d.unread ++ chunk)).2 =
        (split (takeFrame json d.maxFrameSize d.expectedVersion) (seen ++ chunk)).2 := by
      rw [split_append hdel seen, ← hseen]
    obtain ⟨d₁, hpush, hunread₁, hsame₁, hin₁⟩ := push_ok hp hin hfit hroom
    obtain ⟨d₂, hrounds, hunread₂, hsame₂, hin₂⟩ := drain_ok json (d := d₁) (n := d₁.bufferedLen)
      (hsame₁.poisoned.trans hp) hin₁ (Nat.le_refl _) (by
        rw [hsame₁.maxFrameSize, hsame₁.expectedVersion, hunread₁, hsplit]
        exact hsound _ chunks.flatten (by rw [flatten_cons, append_assoc]))
    rw [hsame₁.maxFrameSize, hsame₁.expectedVersion, hunread₁] at hrounds hunread₂
    have hsame := hsame₁.trans hsame₂
    have hdrain : drain json d₁ = drainRounds json d₁.bufferedLen d₁ := view_bind _ _ _
    rw [hrounds] at hdrain
    have hstep : ((push chunk >>= fun _ => drain json) d).state = d₂ := by rw [bind_ok hpush, hdrain]; rfl
    rw [hstep] at hlater
    have hroom₂ : d₂.bufferedLen ≤ d₂.maxBufferSize := by
      have hle := split_rest_le hdel (d.unread ++ chunk)
      rw [← hunread₂, unread_length, length_append, unread_length] at hle
      rw [hsame.maxBufferSize]
      unfold remainingBufferCapacity at hfit
      omega
    obtain ⟨d₃, hrest, hunread₃, hsame₃⟩ := ih (d := d₂) (seen ++ chunk) (hsame.poisoned.trans hp) hin₂ hroom₂
      hlater (by rw [hsame.maxFrameSize, hsame.expectedVersion, hunread₂, hsplit]) (by
        rw [hsame.maxFrameSize, hsame.expectedVersion, append_assoc]
        exact hsound)
    rw [hsame.maxFrameSize, hsame.expectedVersion, hunread₂] at hrest hunread₃
    refine ⟨d₃, ?_, hunread₃, hsame.trans hsame₃⟩
    rw [receive, bind_ok hpush, Run.after_zero, bind_ok hdrain, Run.after_zero, bind_ok hrest]
    rfl

/-- Envelopes whose encodings arrive in any pieces come out again, in order and nothing else. -/
theorem frames_round_trip (encoder : FrameEncoder) (envelopes : List Envelope) (frames chunks : List (List U8))
    (hjson : json.RoundTrips) (hp : d.poisoned = false) (hin : d.InBuffer) (hempty : d.unread = [])
    (hmax : encoder.maxFrameSize ≤ d.maxFrameSize)
    (hversion : ∀ e ∈ envelopes, ∀ version, d.expectedVersion = some version → e.version = version)
    (hencode : List.Forall₂ (fun e frame => encoder.encode json e = .ok frame) envelopes frames)
    (hcut : chunks.flatten = frames.flatten)
    (hfits : Fits json chunks d) :
    (receive json chunks d).outcome = .ok envelopes ∧ (receive json chunks d).state.unread = [] ∧
      (receive json chunks d).state.poisoned = false := by
  have hframes := encode_isFrames hjson hmax hversion hencode
  have hdel := takeFrame_delimited json d.maxFrameSize d.expectedVersion
  have hnone : takeFrame json d.maxFrameSize d.expectedVersion [] = none := hdel.next_nil
  obtain ⟨d', hrun, hunread, hsame⟩ := receive_ok [] hp hin (by rw [← unread_length, hempty]; exact Nat.zero_le _)
    hfits (by rw [hempty, split_none hnone]) (fun bs future h => split_incomplete hframes (by simpa [hcut] using h))
  rw [hempty, feed_eq hdel [] chunks hnone, nil_append, hcut, split_frames hframes] at hrun hunread
  rw [hrun]
  exact ⟨rfl, hunread, hsame.poisoned.trans hp⟩

/-! ## A stream of two frames -/

def textBytes (text : String) : List U8 := text.toUTF8.data.toList.map UInt8.toBitVec

/-- A serialiser that knows some messages, each by its JSON text. -/
def tableJson (table : List (List U8 × Envelope)) : Json where
  toVec envelope :=
    match table.find? fun entry => entry.2 = envelope with
    | some entry => .ok entry.1
    | none => .error "unknown message"
  fromSlice payload :=
    match table.find? fun entry => entry.1 = payload with
    | some entry => .ok entry.2
    | none => .error "unknown message"

theorem tableJson_roundTrips {table} (h : ∀ a ∈ table, ∀ b ∈ table, a.1 = b.1 → a.2 = b.2) :
    (tableJson table).RoundTrips := by
  intro envelope payload hvec
  simp only [tableJson] at hvec ⊢
  split at hvec
  next entry hfind =>
    cases hvec
    have hmem := mem_of_find?_eq_some hfind
    have henvelope : entry.2 = envelope := by simpa using find?_some hfind
    split
    next other hother =>
      have htext : other.1 = entry.1 := by simpa using find?_some hother
      rw [h other (mem_of_find?_eq_some hother) entry hmem htext, henvelope]
    next hnone =>
      have hnot := find?_eq_none.mp hnone entry hmem
      simp at hnot
  · cases hvec

def heartbeat (sequence : U64) : Envelope :=
  .withVersion CURRENT_PROTOCOL_VERSION (.event ⟨sequence, 123, none, .other "heartbeat"⟩)

/-- The text of a message, by its kind and its payload. -/
def messageText (messageType payload : String) : List U8 :=
  textBytes ("\x7b\"protocol\":\"dev.rish.guest\",\"version\":\x7b\"major\":1,\"minor\":0\x7d,\"message_type\":\"" ++
    messageType ++ "\",\"payload\":\x7b" ++ payload ++ "\x7d\x7d")

def heartbeatText (sequence : U64) : List U8 :=
  messageText "event" ("\"sequence\":" ++ toString sequence.toNat ++
    ",\"timestamp_ms\":123,\"event_type\":\"heartbeat\"")

def heartbeatJson : Json := tableJson [(heartbeatText 1, heartbeat 1), (heartbeatText 2, heartbeat 2)]

def heartbeatFrame (sequence : U64) : List U8 := [0, 0, 0, 153] ++ heartbeatText sequence

def smallDecoder : FrameDecoder := ⟨[], 0, 256, 256, bufferLimit 256, none, false⟩

/-- Two frames, cut inside the first header and inside the second payload. -/
theorem two_frames_round_trip :
    FrameDecoder.new 256 = .ok smallDecoder ∧
      (receive heartbeatJson [[0, 0], (heartbeatFrame 1).drop 2 ++ (heartbeatFrame 2).take 50,
        (heartbeatFrame 2).drop 50]
        smallDecoder).outcome = .ok [heartbeat 1, heartbeat 2] := by
  refine ⟨rfl, (frames_round_trip ⟨256⟩ _ [heartbeatFrame 1, heartbeatFrame 2] _
    (tableJson_roundTrips (by decide +kernel))
    rfl (Nat.zero_le _) rfl (by decide) ?_ (.cons (by decide +kernel) (.cons (by decide +kernel) .nil))
    (by decide +kernel) ?_).1⟩
  · intro e _ version h
    cases h
  · exact ⟨by decide +kernel, by decide +kernel, by decide +kernel, trivial⟩

end FrameDecoder

end Rish.Protocol
