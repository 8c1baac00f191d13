/-
  Rish.SoftVm.Net.Dns — the questions and answers of the system-resolver fallback.

  A question is kept as it came on the wire, up to the end of its only question section. The answer repeats it with the
  header's flags and counts set, and adds one record for each distinct address of the family that was asked for, as long
  as the next one fits in 512 bytes. The name of a question is the bytes of its labels; they are ASCII.

  Proved: every answer is well formed (`answer_wellFormed`).
-/

import Mathlib.Data.List.Basic
import Rish.Lib.Fields

namespace Rish.SoftVm.Net.Dns

open Lib List

/-! ## Questions -/

structure Question where
  wire : List U8
  name : List U8
  kind : U16
  deriving DecidableEq, Repr

/-- A letter, a digit, a hyphen or an underscore. -/
def labelByte (b : U8) : Bool :=
  (0x30 ≤ b && b ≤ 0x39) || (0x41 ≤ b && b ≤ 0x5A) || (0x61 ≤ b && b ≤ 0x7A) || b == 0x2D || b == 0x5F

/-- The labels from an offset on and the offset behind them. Every round moves the offset, which stays inside the
    packet, so the packet's length bounds the rounds. -/
def parseLabels (packet : List U8) : Nat → Nat → List (List U8) → Option (List (List U8) × Nat)
  | 0, _, _ => none
  | rounds + 1, offset, labels => do
    let length := (← packet[offset]?).toNat
    let offset := offset + 1
    if length = 0 then return (labels, offset)
    else if length > 63 then none
    else if packet.length < offset + length then none
    else
      let label := (packet.drop offset).take length
      if !label.all labelByte then none
      else if offset + length > 267 then none
      else parseLabels packet rounds (offset + length) (labels ++ [label])

def Question.parse (packet : List U8) : Option Question :=
  if packet.length < 12 ∨ packet.length > 4096 ∨ packet.getD 2 0 &&& 0xFE ≠ 0 ∨ (packet.drop 4).take 2 ≠ [0, 1] ∨
      (packet.drop 6).take 4 ≠ [0, 0, 0, 0] then none
  else do
    let (labels, offset) ← parseLabels packet packet.length 12 []
    if packet.length < offset + 4 then none
    else
      let trailer := (packet.drop offset).take 4
      if trailer.drop 2 ≠ [0, 1] then none
      else
        let name := [0x2E].intercalate labels
        if name = [] ∨ name.length > 253 then none
        else return ⟨packet.take (offset + 4), name, BitVec.ofNat 16 (beNat (trailer.take 2))⟩

/-! ## Answers -/

inductive IpAddr where
  | v4 (bits : U32)
  | v6 (bits : U128)
  deriving DecidableEq, Repr

/-- The octets of an address of the family a kind of question asks for: A is 1 and AAAA is 28. -/
def octets (kind : U16) : IpAddr → Option (List U8)
  | .v4 bits => if kind = 1 then some (beBytes 4 bits.toNat) else none
  | .v6 bits => if kind = 28 then some (beBytes 16 bits.toNat) else none

/-- A record: a pointer to the question's name, its kind, class IN, a time to live of zero, and the address. -/
def record (kind : U16) (bytes : List U8) : List U8 :=
  [0xC0, 0x0C] ++ beBytes 2 kind.toNat ++ [0, 1, 0, 0, 0, 0] ++ beBytes 2 bytes.length ++ bytes

/-- Adds a record for each address that was not seen yet; one that does not fit sets TC and ends the answer. -/
def addRecords (kind : U16) : List IpAddr → List U8 → Nat → List IpAddr → List U8 × Nat
  | [], answer, count, _ => (answer, count)
  | address :: rest, answer, count, seen =>
    if seen.contains address then addRecords kind rest answer count seen
    else
      match octets kind address with
      | none => addRecords kind rest answer count seen
      | some bytes =>
        if answer.length + 12 + bytes.length > 512 then (answer.set 2 (answer.getD 2 0 ||| 2), count)
        else addRecords kind rest (answer ++ record kind bytes) (count + 1) (seen ++ [address])

namespace Question

variable (q : Question)

def unsupported : Bool := !(q.kind == 1 || q.kind == 28)

/-- Not implemented, server failure or no error. -/
def rcode (addresses : Option (List IpAddr)) : U8 := if q.unsupported then 4 else if addresses.isNone then 2 else 0

/-- The question with the answer's flags and no counts. -/
def blank (addresses : Option (List IpAddr)) : List U8 :=
  putAt ((q.wire.set 2 (0x80 ||| (q.wire.getD 2 0 &&& 1))).set 3 (0x80 ||| q.rcode addresses)) 6 (List.replicate 6 0)

/-- The answer with its records, and how many they are. -/
def recorded (addresses : Option (List IpAddr)) : List U8 × Nat :=
  if q.unsupported then (q.blank addresses, 0) else addRecords q.kind (addresses.getD []) (q.blank addresses) 0 []

/-- An answer with the resolved addresses, or with none when the resolution failed. -/
def answer (addresses : Option (List IpAddr)) : List U8 :=
  putAt (q.recorded addresses).1 6 (beBytes 2 (q.recorded addresses).2)

end Question

/-! ## What a parsed question is -/

theorem parseLabels_offset {packet rounds offset finish labels result}
    (h : parseLabels packet rounds offset labels = some (result, finish)) (hoffset : offset ≤ 267) :
    offset < finish ∧ finish ≤ 268 := by
  induction rounds generalizing offset labels with
  | zero => cases h
  | succ rounds ih =>
    simp only [parseLabels, Option.bind_eq_bind, Option.bind_eq_some_iff] at h
    obtain ⟨b, -, h⟩ := h
    split at h
    · cases h
      omega
    split at h
    · cases h
    split at h
    · cases h
    split at h
    · cases h
    split at h
    · cases h
    · have hrest := ih h (by omega)
      omega

/-- A name on the wire: each label behind its length, and a zero byte. -/
def wireName (labels : List (List U8)) : List U8 := (labels.flatMap fun l => BitVec.ofNat 8 l.length :: l) ++ [0]

theorem wireName_cons (l labels) : wireName (l :: labels) = BitVec.ofNat 8 l.length :: (l ++ wireName labels) := by
  simp [wireName]

/-- A question section: the name, its type and class IN. -/
def question (labels : List (List U8)) (kind : U16) : List U8 := wireName labels ++ beBytes 2 kind.toNat ++ [0, 1]

/-- The packet's question, read off its bytes behind the header. -/
structure Asks (packet : List U8) (labels : List (List U8)) (kind : U16) : Prop where
  found : question labels kind <+: packet.drop 12
  sized : ∀ l ∈ labels, l ≠ [] ∧ l.length ≤ 63

theorem parseLabels_wire {packet rounds offset finish labels result}
    (h : parseLabels packet rounds offset labels = some (result, finish)) :
    ∃ more, result = labels ++ more ∧ (∀ l ∈ more, l ≠ [] ∧ l.length ≤ 63) ∧
      packet.drop offset = wireName more ++ packet.drop finish ∧ finish = offset + (wireName more).length := by
  induction rounds generalizing offset labels with
  | zero => cases h
  | succ rounds ih =>
    simp only [parseLabels, Option.bind_eq_bind, Option.bind_eq_some_iff] at h
    obtain ⟨b, hb, h⟩ := h
    obtain ⟨hlt, rfl⟩ := List.getElem?_eq_some_iff.mp hb
    have hhead := drop_eq_getElem_cons hlt
    split at h
    next hzero =>
      cases h
      refine ⟨[], (append_nil _).symm, by simp, ?_, rfl⟩
      rw [hhead, BitVec.eq_of_toNat_eq (y := 0) hzero]
      rfl
    split at h
    · cases h
    split at h
    · cases h
    split at h
    · cases h
    split at h
    · cases h
    next hnonzero hsmall hroom _ _ =>
      obtain ⟨more, hresult, hsized, hdrop, hfinish⟩ := ih h
      have hlength : ((packet.drop (offset + 1)).take packet[offset].toNat).length = packet[offset].toNat := by
        rw [length_take, length_drop]
        omega
      refine ⟨_ :: more, by rw [hresult, append_assoc]; rfl, ?_, ?_, ?_⟩
      · intro l hl
        rcases mem_cons.mp hl with rfl | hl
        · refine ⟨fun hnil => hnonzero ?_, by omega⟩
          rw [← hlength, hnil]
          rfl
        · exact hsized l hl
      · rw [← drop_drop] at hdrop
        rw [hhead, wireName_cons, hlength, BitVec.ofNat_toNat, BitVec.setWidth_eq, cons_append, append_assoc, ← hdrop,
          take_append_drop]
      · rw [hfinish, wireName_cons, length_cons, length_append, hlength]
        omega

/-- The type and the class behind a name. -/
theorem trailer_eq {packet : List U8} {offset} (hroom : offset + 4 ≤ packet.length)
    (hclass : ((packet.drop offset).take 4).drop 2 = [0, 1]) :
    packet.drop offset = beBytes 2 (BitVec.ofNat 16 (beNat (((packet.drop offset).take 4).take 2))).toNat ++ [0, 1] ++
      packet.drop (offset + 4) := by
  obtain ⟨k0, k1, hkind⟩ := length_eq_two.mp
    (show (((packet.drop offset).take 4).take 2).length = 2 by rw [length_take, length_take, length_drop]; omega)
  have hfour : (packet.drop offset).take 4 = [k0, k1, 0, 1] := by
    rw [← take_append_drop 2 ((packet.drop offset).take 4), hkind, hclass]
    rfl
  have hbytes : beBytes 2 (BitVec.ofNat 16 (beNat [k0, k1])).toNat = [k0, k1] := by
    have hlt := leNat_lt [k1, k0]
    rw [BitVec.toNat_ofNat, Nat.mod_eq_of_lt (show beNat [k0, k1] < 2 ^ 16 by simpa [beNat] using hlt)]
    exact congrArg reverse (leBytes_leNat [k1, k0])
  conv_lhs => rw [← take_append_drop 4 (packet.drop offset), drop_drop, hfour]
  rw [hkind, hbytes]
  rfl

/-- What the answer needs of an accepted packet. -/
structure Question.From (packet : List U8) (labels : List (List U8)) (q : Question) : Prop where
  asks : Asks packet labels q.kind
  wire : q.wire = packet.take 12 ++ question labels q.kind
  short : q.wire.length ≤ 272
  name : q.name = [0x2E].intercalate labels
  header : 12 ≤ packet.length
  flags : packet.getD 2 0 &&& 0xFE = 0
  questions : (packet.drop 4).take 2 = [0, 1]

theorem Question.parse_from {packet q} (h : Question.parse packet = some q) :
    ∃ labels, Question.From packet labels q := by
  unfold Question.parse at h
  split at h
  · cases h
  next hheader =>
    simp only [not_or, not_lt, ne_eq, not_not] at hheader
    obtain ⟨hlength, -, hflags, hquestions, -⟩ := hheader
    simp only [Option.bind_eq_bind, Option.bind_eq_some_iff] at h
    obtain ⟨⟨labels, offset⟩, hlabels, h⟩ := h
    have hoffset := parseLabels_offset hlabels (by omega)
    obtain ⟨_, rfl, hsized, hdrop, hfinish⟩ := parseLabels_wire hlabels
    dsimp only at h
    split at h
    · cases h
    next hroom =>
      split at h
      · cases h
      next hclass =>
        split at h
        · cases h
        · cases h
          have hsection := trailer_eq (Nat.le_of_not_lt hroom) (not_not.mp hclass)
          rw [hsection, ← append_assoc, ← append_assoc] at hdrop
          have hquestion (kind : U16) : (question labels kind).length = offset - 8 := by
            rw [question, length_append, length_append, beBytes_length]
            show _ + 2 + 2 = _
            omega
          refine ⟨_, ⟨⟨_, hdrop.symm⟩, hsized⟩, ?_, ?_, rfl, hlength, hflags, hquestions⟩
          · show packet.take (offset + 4) = _
            rw [show offset + 4 = 12 + (offset - 8) by omega, take_add, hdrop]
            exact congrArg _ (take_left' (hquestion _))
          · show (packet.take (offset + 4)).length ≤ 272
            rw [length_take]
            omega

/-! ## Records -/

variable (kind : U16)

theorem record_length (bytes) : (record kind bytes).length = 12 + bytes.length := by
  simp [record]
  omega

/-- The addresses of the family asked for, each at its first place. -/
def distinct (addresses : List IpAddr) : List IpAddr :=
  (addresses.filter fun a => (octets kind a).isSome).eraseDups

def records (addresses : List IpAddr) : List U8 :=
  addresses.flatMap fun a => ((octets kind a).map (record kind)).getD []

def unseen (seen addresses : List IpAddr) : List IpAddr :=
  (addresses.filter fun a => (octets kind a).isSome && !seen.contains a).eraseDups

section

variable {kind : U16} {seen rest : List IpAddr} {a : IpAddr}

theorem unseen_nil (addresses) : unseen kind [] addresses = distinct kind addresses := by
  simp [unseen, distinct]

theorem unseen_skip (h : ((octets kind a).isSome && !seen.contains a) = false) :
    unseen kind seen (a :: rest) = unseen kind seen rest := by
  rw [unseen, filter_cons_of_neg (by rw [h]; exact Bool.false_ne_true), unseen]

theorem unseen_take (hkind : (octets kind a).isSome = true) (hseen : seen.contains a = false) :
    unseen kind seen (a :: rest) = a :: unseen kind (seen ++ [a]) rest := by
  rw [unseen, filter_cons_of_pos (by rw [hkind, hseen]; rfl), eraseDups_cons, filter_filter, unseen]
  congr 2
  refine filter_congr fun b _ => ?_
  rw [contains_append, Bool.not_or]
  by_cases hb : b = a
  · simp [hb]
  · simp [hb]

end

/-- What the loop leaves: the records of a first part of the addresses, and TC when that is not all of them. -/
structure Added (kind : U16) (addresses : List IpAddr) (start : List U8) (count : Nat) (result : List U8 × Nat)
    (done : List IpAddr) : Prop where
  first : done <+: addresses
  bytes : result.1 = (if done = addresses then start else start.set 2 (start.getD 2 0 ||| 2)) ++ records kind done
  counted : result.2 = count + done.length
  fits : start.length + (records kind done).length ≤ 512
  sized : 12 * done.length ≤ (records kind done).length
  full : ∀ a later, addresses = done ++ a :: later →
    ∃ bytes, octets kind a = some bytes ∧ 512 < start.length + (records kind done).length + 12 + bytes.length

theorem addRecords_added {kind addresses} {start : List U8} {count : Nat} {seen}
    (hflags : 2 < start.length) (hroom : start.length ≤ 512) :
    ∃ done, Added kind (unseen kind seen addresses) start count (addRecords kind addresses start count seen) done := by
  induction addresses generalizing start count seen with
  | nil =>
    exact ⟨[], prefix_rfl, by simp [unseen, addRecords, records], rfl, hroom, by simp [records], by simp [unseen]⟩
  | cons a rest ih =>
    rw [addRecords]
    by_cases hseen : seen.contains a = true
    · rw [if_pos hseen, unseen_skip (by rw [hseen, Bool.not_true, Bool.and_false])]
      exact ih hflags hroom
    rw [if_neg hseen]
    have hnew : seen.contains a = false := eq_false_of_ne_true hseen
    cases hoctets : octets kind a with
    | none =>
      rw [unseen_skip (by rw [hoctets]; rfl)]
      exact ih hflags hroom
    | some bytes =>
      rw [unseen_take (by rw [hoctets]; rfl) hnew]
      dsimp only
      split
      · -- the first address that does not fit
        refine ⟨[], nil_prefix, by simp [records], rfl, by simpa [records] using hroom, by simp [records], ?_⟩
        intro b later hb
        cases hb
        exact ⟨bytes, hoctets, by simp only [records, flatMap_nil, length_nil]; omega⟩
      · next hfits =>
        have hlength : (start ++ record kind bytes).length = start.length + 12 + bytes.length := by
          rw [length_append, record_length]
          omega
        obtain ⟨done, hfirst, hbytes, hcount, hlen, hsized, hfull⟩ :=
          @ih (start ++ record kind bytes) (count + 1) (seen ++ [a]) (by rw [hlength]; omega) (by rw [hlength]; omega)
        have hone : records kind (a :: done) = record kind bytes ++ records kind done := by
          simp [records, hoctets]
        have hmore : start.length + (records kind (a :: done)).length =
            (start ++ record kind bytes).length + (records kind done).length := by
          rw [hone, length_append, length_append]
          omega
        refine ⟨a :: done, cons_prefix_cons.mpr ⟨rfl, hfirst⟩, ?_, by rw [hcount, length_cons]; omega,
          by rw [hmore]; exact hlen, ?_, ?_⟩
        · rw [hbytes, hone]
          by_cases hall : done = unseen kind (seen ++ [a]) rest
          · rw [if_pos hall, if_pos (congrArg (a :: ·) hall), append_assoc]
          · rw [if_neg hall, if_neg fun h => hall (List.cons.inj h).2, set_append_left _ _ hflags,
              getD_append _ _ _ _ hflags, append_assoc]
        · rw [hone, length_append, record_length, length_cons]
          omega
        · intro b later hb
          rw [cons_append, List.cons.injEq] at hb
          obtain ⟨bytes', hoctets', hover⟩ := hfull b later hb.2
          exact ⟨bytes', hoctets', by omega⟩

/-! ## Answers -/

/-- An answer to a packet's question, with records for the addresses `done`. -/
structure WellFormed (packet : List U8) (labels : List (List U8)) (kind : U16) (addresses : List IpAddr)
    (bytes : List U8) (done : List IpAddr) : Prop where
  short : bytes.length ≤ 512
  /-- the query's id, the flags, one question, the number of records, and nothing else; the question as it came; the
      records, each with a pointer to byte 12, where the question's name begins -/
  layout : ∃ flags rcode, bytes = packet.take 2 ++ ([flags, rcode, 0, 1] ++ beBytes 2 done.length ++ [0, 0, 0, 0]) ++
    question labels kind ++ records kind done
  counted : done.length < 2 ^ 16
  first : done <+: distinct kind addresses
  truncated : (bytes.getD 2 0).getLsbD 1 = true ↔ done ≠ distinct kind addresses
  /-- an address is left out only for lack of space -/
  full : ∀ a later, distinct kind addresses = done ++ a :: later →
    ∃ octs, octets kind a = some octs ∧ 512 < bytes.length + 12 + octs.length

variable {packet : List U8} {labels : List (List U8)} {q : Question}

theorem header_split (h : 12 ≤ packet.length) (hquestions : (packet.drop 4).take 2 = [0, 1]) :
    ∃ i0 i1 b2 b3 counts rest, packet = [i0, i1, b2, b3, 0, 1] ++ (counts ++ rest) ∧ counts.length = 6 := by
  obtain ⟨i0, i1, hid⟩ := length_eq_two.mp (show (packet.take 2).length = 2 by rw [length_take]; omega)
  obtain ⟨b2, b3, hflags⟩ := length_eq_two.mp
    (show ((packet.drop 2).take 2).length = 2 by rw [length_take, length_drop]; omega)
  refine ⟨i0, i1, b2, b3, (packet.drop 6).take 6, packet.drop 12, ?_, by rw [length_take, length_drop]; omega⟩
  have hsix : packet.drop 6 = (packet.drop 6).take 6 ++ packet.drop 12 := by
    conv_lhs => rw [← take_append_drop 6 (packet.drop 6), drop_drop]
  have hfour : packet.drop 4 = [0, 1] ++ packet.drop 6 := by
    conv_lhs => rw [← take_append_drop 2 (packet.drop 4), drop_drop, hquestions]
  have htwo : packet.drop 2 = [b2, b3] ++ packet.drop 4 := by
    conv_lhs => rw [← take_append_drop 2 (packet.drop 2), drop_drop, hflags]
  have hall : packet = [i0, i1] ++ packet.drop 2 := by
    conv_lhs => rw [← take_append_drop 2 packet, hid]
  rw [← hsix]
  rw [htwo, hfour] at hall
  exact hall

theorem Question.From.blank (h : Question.From packet labels q) (addresses) :
    q.blank addresses = packet.take 2 ++ [0x80 ||| (packet.getD 2 0 &&& 1), 0x80 ||| q.rcode addresses, 0, 1,
      0, 0, 0, 0, 0, 0] ++ question labels q.kind := by
  obtain ⟨i0, i1, b2, b3, counts, rest, hpacket, hcounts⟩ := header_split h.header h.questions
  have htake : packet.take 12 = [i0, i1, b2, b3, 0, 1] ++ counts := by
    rw [hpacket, ← append_assoc]
    exact take_left' (by rw [length_append, hcounts]; rfl)
  rw [Question.blank, h.wire, htake, append_assoc, hpacket]
  exact putAt_append (a := [i0, i1, _, _, 0, 1]) (by rw [hcounts]; rfl)

theorem flags_truncated (b : U8) (more) :
    ((0x80 ||| (b &&& 1)) ||| (if more then 2 else 0) : U8).getLsbD 1 = more := by
  cases more <;> simp

/-- The answer in its parts, once the flags and the records are known. -/
theorem answer_layout (hfrom : Question.From packet labels q) {flags rcode : U8} {start tail count}
    (hstart : start = packet.take 2 ++ [flags, rcode, 0, 1, 0, 0, 0, 0, 0, 0] ++ question labels q.kind) :
    putAt (start ++ tail) 6 (beBytes 2 count) = packet.take 2 ++
      ([flags, rcode, 0, 1] ++ beBytes 2 count ++ [0, 0, 0, 0]) ++ question labels q.kind ++ tail := by
  have hlow := hfrom.header
  have hsix : (packet.take 2 ++ [flags, rcode, 0, 1]).length = 6 := by
    rw [length_append, length_take, Nat.min_eq_left (by omega)]
    rfl
  have hsplit : start ++ tail = (packet.take 2 ++ [flags, rcode, 0, 1]) ++ ([0, 0] ++
      ([0, 0, 0, 0] ++ (question labels q.kind ++ tail))) := by
    rw [hstart]
    simp only [append_assoc, cons_append, nil_append]
  rw [hsplit, ← hsix, putAt_append (beBytes_length 2 count)]
  simp only [append_assoc, cons_append, nil_append]

/-- A question of another kind gets no records. -/
theorem distinct_unsupported (h : q.unsupported = true) (addresses) :
    distinct q.kind addresses = [] := by
  have hnone : ∀ a, octets q.kind a = none := by
    intro a
    simp only [Question.unsupported, Bool.not_eq_true', Bool.or_eq_false_iff, beq_eq_false_iff_ne] at h
    cases a with
    | v4 bits => exact if_neg h.1
    | v6 bits => exact if_neg h.2
  have hfilter : (addresses.filter fun a => (octets q.kind a).isSome) = [] := by
    rw [filter_eq_nil_iff]
    intro a _
    simp [hnone a]
  rw [distinct, hfilter]
  rfl

theorem answer_added (q : Question) (addresses) (hflags : 2 < (q.blank addresses).length)
    (hroom : (q.blank addresses).length ≤ 512) :
    ∃ done, Added q.kind (distinct q.kind (addresses.getD [])) (q.blank addresses) 0 (q.recorded addresses) done := by
  unfold Question.recorded
  split
  next hkind =>
    rw [distinct_unsupported hkind]
    exact ⟨[], prefix_rfl, by simp [records], rfl, by simpa [records] using hroom, by simp [records], by simp⟩
  · rw [← unseen_nil]
    exact addRecords_added hflags hroom

theorem Question.From.id_length (h : Question.From packet labels q) : (packet.take 2).length = 2 := by
  have hlow := h.header
  rw [length_take]
  omega

theorem Question.From.wire_length (h : Question.From packet labels q) :
    q.wire.length = 12 + (question labels q.kind).length := by
  rw [h.wire, length_append, length_take, Nat.min_eq_left h.header]

/-- An answer by its bytes: the flags say whether the loop left an address out. -/
theorem answer_bytes (hfrom : Question.From packet labels q) (addresses) :
    ∃ done, Added q.kind (distinct q.kind (addresses.getD [])) (q.blank addresses) 0 (q.recorded addresses) done ∧
      (q.blank addresses).length = q.wire.length ∧
      q.answer addresses = packet.take 2 ++
        ([(0x80 ||| (packet.getD 2 0 &&& 1)) ||| (if decide (done ≠ distinct q.kind (addresses.getD [])) then 2 else 0),
          0x80 ||| q.rcode addresses, 0, 1] ++ beBytes 2 done.length ++ [0, 0, 0, 0]) ++
        question labels q.kind ++ records q.kind done := by
  have hblank := hfrom.blank addresses
  have hhigh := hfrom.short
  have hwire := hfrom.wire_length
  have htwo := hfrom.id_length
  have hlength : (q.blank addresses).length = q.wire.length := by
    rw [hblank, length_append, length_append, htwo, hwire]
    rfl
  obtain ⟨done, hadded⟩ := answer_added q addresses (by omega) (by omega)
  have hstart : (if done = distinct q.kind (addresses.getD []) then q.blank addresses
      else (q.blank addresses).set 2 ((q.blank addresses).getD 2 0 ||| 2)) = packet.take 2 ++
        [(0x80 ||| (packet.getD 2 0 &&& 1)) ||| (if decide (done ≠ distinct q.kind (addresses.getD [])) then 2 else 0),
          0x80 ||| q.rcode addresses, 0, 1, 0, 0, 0, 0, 0, 0] ++ question labels q.kind := by
    obtain ⟨i0, i1, hid⟩ := length_eq_two.mp htwo
    rw [hblank, hid]
    by_cases hall : done = distinct q.kind (addresses.getD [])
    · simp [hall]
    · simp [hall]
  have hcounted : q.answer addresses = putAt ((if done = distinct q.kind (addresses.getD []) then q.blank addresses
      else (q.blank addresses).set 2 ((q.blank addresses).getD 2 0 ||| 2)) ++ records q.kind done) 6
        (beBytes 2 done.length) := by
    rw [Question.answer, hadded.bytes, hadded.counted, Nat.zero_add]
  exact ⟨done, hadded, hlength, hcounted.trans (answer_layout hfrom hstart)⟩

/-- Every answer to a packet that was accepted is well formed, and answers the packet's own question. -/
theorem answer_wellFormed (packet : List U8) (q : Question) (addresses : Option (List IpAddr))
    (h : Question.parse packet = some q) :
    ∃ labels, Asks packet labels q.kind ∧ q.name = [0x2E].intercalate labels ∧
      ∃ done, WellFormed packet labels q.kind (addresses.getD []) (q.answer addresses) done := by
  obtain ⟨labels, hfrom⟩ := Question.parse_from h
  have htwo := hfrom.id_length
  obtain ⟨done, hadded, hlength, hanswer⟩ := answer_bytes hfrom addresses
  have hsized := hadded.sized
  have hfits := hadded.fits
  have hbytes : (q.answer addresses).length = q.wire.length + (records q.kind done).length := by
    rw [hanswer, hfrom.wire_length]
    simp only [length_append, htwo, beBytes_length, length_cons, length_nil]
  refine ⟨labels, hfrom.asks, hfrom.name, ?_⟩
  refine ⟨done, by omega, ⟨_, _, hanswer⟩, by omega, hadded.first, ?_, ?_⟩
  · obtain ⟨i0, i1, hid⟩ := length_eq_two.mp htwo
    have htruncated : ((q.answer addresses).getD 2 0).getLsbD 1 =
        decide (done ≠ distinct q.kind (addresses.getD [])) := by
      rw [hanswer, hid]
      exact flags_truncated _ _
    rw [htruncated, decide_eq_true_iff]
  · intro a later ha
    obtain ⟨octs, hoctets, hover⟩ := hadded.full a later ha
    exact ⟨octs, hoctets, by omega⟩

/-- The query of localhost's addresses, with identification 0xBEEF. -/
def localhostQuery (kind : U8) : List U8 :=
  [0xBE, 0xEF, 1, 0, 0, 1, 0, 0, 0, 0, 0, 0, 9, 0x6C, 0x6F, 0x63, 0x61, 0x6C, 0x68, 0x6F, 0x73, 0x74, 0, 0, kind, 0, 1]

def localhostQuestion (kind : U8) : Question :=
  ⟨localhostQuery kind, [0x6C, 0x6F, 0x63, 0x61, 0x6C, 0x68, 0x6F, 0x73, 0x74], kind.setWidth 16⟩

theorem localhost_answered : Question.parse (localhostQuery 1) = some (localhostQuestion 1) ∧
    ∃ labels, Asks (localhostQuery 1) labels 1 ∧ (localhostQuestion 1).name = [0x2E].intercalate labels ∧
      ∃ done, WellFormed (localhostQuery 1) labels 1 [.v4 0x7F000001, .v4 0x7F000001]
      ((localhostQuestion 1).answer (some [.v4 0x7F000001, .v4 0x7F000001])) done := by
  have hparse : Question.parse (localhostQuery 1) = some (localhostQuestion 1) := by decide
  exact ⟨hparse, answer_wellFormed _ _ (some [.v4 0x7F000001, .v4 0x7F000001]) hparse⟩

end Rish.SoftVm.Net.Dns
