/-
  Rish.SoftVm.Virtio.Drain — what a drain of an available ring does, for any guest RAM and any handler.

  A turn reads the head of one slot, hands it to the handler and publishes one used element at the
  used index that RAM holds at that moment. A drain is a sequence of turns, one for each published
  slot, that ends early only when the handler refuses a head.
-/

import Rish.SoftVm.Virtio.Queue

namespace Rish.SoftVm.Virtio

open Lib BitVec
open BitVec (ofNat)
open Exec (query_apply bind_ok)

/-! ## The rings as RAM holds them -/

namespace QueueLayout

variable (q : QueueLayout) (r : Ram)

def word (address : Nat) : U16 := ofNat 16 (leNat (r.load address 2))

def driverIndex : U16 := word r (q.avail.toNat + 2)

variable (index : U16)

def publishedHead : U16 := word r (q.avail.toNat + 4 + index.toNat % q.size.toNat * 2)

def deviceIndex : U16 := word r (q.used.toNat + 2)

def usedSlot : Nat := q.used.toNat + 4 + index.toNat % q.size.toNat * 8

def publish (id length : U32) : Ram :=
  ((r.store (q.usedSlot index) (leBytes 4 id.toNat)).store (q.usedSlot index + 4) (leBytes 4 length.toNat)).store
    (q.used.toNat + 2) (leBytes 2 (index + 1).toNat)

def descriptorAt (index : Nat) : QueueDescriptor × U16 :=
  let base := q.desc.toNat + index * 16
  (⟨ofNat 64 (leNat (r.load base 8)), ofNat 32 (leNat (r.load (base + 8) 4)), word r (base + 12)⟩,
    word r (base + 14))

/-- The three rings lie in a RAM of this length. -/
structure Fits (len : U64) : Prop where
  desc : q.desc.toNat + q.size.toNat * 16 ≤ len.toNat
  avail : q.avail.toNat + (6 + q.size.toNat * 2) ≤ len.toNat
  used : q.used.toNat + (6 + q.size.toNat * 8) ≤ len.toNat

variable {q}

theorem validateRing_ok {ramBytes base bytes} :
    validateRing ramBytes base bytes = .ok () ↔ base.toNat + bytes ≤ ramBytes.toNat := by
  have hlen : ramBytes.toNat < 2 ^ 64 := ramBytes.isLt
  unfold validateRing
  split
  · simp only [reduceCtorEq, false_iff]
    omega
  · split
    · simp only [reduceCtorEq, false_iff]
      omega
    · simp only [true_iff]
      omega

theorem validate_ok {len} : q.validate len = .ok () ↔ q.Fits len := by
  simp only [validate, ringBytes, Outcome.bind_eq_ok, validateRing_ok]
  constructor
  · rintro ⟨_, hdesc, _, havail, hused⟩
    exact ⟨validateRing_ok.mp hdesc, validateRing_ok.mp havail, hused⟩
  · rintro ⟨hdesc, havail, hused⟩
    exact ⟨(), validateRing_ok.mpr hdesc, (), validateRing_ok.mpr havail, hused⟩

end QueueLayout

/-! ## Accesses that stay in RAM -/

variable {σ : Type} {q : QueueLayout} {s : σ × DeviceMemory} {address : U64} {a : Nat} {input : List U8}

theorem ofNat_toNat_of_lt (h : a < 2 ^ 64) : (ofNat 64 a).toNat = a := by
  rw [toNat_ofNat, Nat.mod_eq_of_lt h]

theorem readMemory_ok {n} (h : address.toNat + n ≤ s.2.ram.len.toNat) :
    readMemory address n s = ⟨.ok (s.2.ram.load address.toNat n), s, 1⟩ := by
  have hcheck : checkRange s.2 address n = .ok () := if_pos ⟨by omega, h⟩
  simp only [readMemory, query_apply, hcheck]
  rfl

theorem query_range_ok {n} (h : checkRange s.2 address n = .ok ()) :
    (Exec.query 1 fun (_, m) => checkRange m address n : Device σ Unit) s = ⟨.ok (), s, 1⟩ := by
  simp only [query_apply, h]

theorem query_validate_ok {q : QueueLayout} (h : q.validate s.2.ram.len = .ok ()) :
    (Exec.query 0 fun (_, m) => q.validate m.ram.len : Device σ Unit) s = ⟨.ok (), s, 0⟩ := by
  simp only [query_apply, h]

theorem writeMemory_ok (h : address.toNat + input.length ≤ s.2.ram.len.toNat) : writeMemory address input s =
      ⟨.ok (), (s.1, { s.2 with ram := s.2.ram.store address.toNat input, wrote := true }), 1⟩ := by
  have hcheck : checkRange s.2 address input.length = .ok () := if_pos ⟨by omega, h⟩
  rw [writeMemory, bind_ok (query_range_ok hcheck)]
  rfl

theorem offset_ok {a k} (h : a.toNat + k < 2 ^ 64) :
    (offset a (ofNat 64 k) : Device σ U64) = pure (ofNat 64 (a.toNat + k)) := by
  have hk : (ofNat 64 k).toNat = k := ofNat_toNat_of_lt (by omega)
  have hsum : a + ofNat 64 k = ofNat 64 (a.toNat + k) := by
    apply eq_of_toNat_eq
    rw [toNat_add, hk, ofNat_toNat_of_lt h, Nat.mod_eq_of_lt h]
  unfold offset Outcome.add
  rw [hk, if_pos h, hsum]
  rfl

theorem readU16_ok (h : a + 2 ≤ s.2.ram.len.toNat) :
    readU16 (ofNat 64 a) s = ⟨.ok (QueueLayout.word s.2.ram a), s, 1⟩ := by
  have ha : (ofNat 64 a).toNat = a := ofNat_toNat_of_lt (by omega)
  rw [readU16, bind_ok (readMemory_ok (by rw [ha]; exact h)), ha]
  rfl

theorem readU16_behind {base k} (h : base.toNat + k + 2 ≤ s.2.ram.len.toNat) :
    (offset base (ofNat 64 k) >>= readU16) s = ⟨.ok (QueueLayout.word s.2.ram (base.toNat + k)), s, 1⟩ := by
  rw [offset_ok (by omega), pure_bind]
  exact readU16_ok h

theorem availIndex_ok (hfits : q.Fits s.2.ram.len) : availIndex q s = ⟨.ok (q.driverIndex s.2.ram), s, 1⟩ :=
  readU16_behind (k := 2) (by have h := hfits.avail; omega)

theorem usedIndex_ok (hfits : q.Fits s.2.ram.len) : usedIndex q s = ⟨.ok (q.deviceIndex s.2.ram), s, 1⟩ :=
  readU16_behind (k := 2) (by have h := hfits.used; omega)

theorem slot_lt (hsize : q.size ≠ 0) (index : U16) : index.toNat % q.size.toNat < q.size.toNat := by
  apply Nat.mod_lt
  rw [Nat.pos_iff_ne_zero]
  intro h
  exact hsize (eq_of_toNat_eq h)

theorem availHead_ok (hfits : q.Fits s.2.ram.len) (hsize : q.size ≠ 0) (index : U16) :
    availHead q index s = ⟨.ok (q.publishedHead s.2.ram index), s, 1⟩ := by
  have hslot := slot_lt hsize index
  have havail := hfits.avail
  rw [availHead, if_neg hsize, show (4 : U64) = ofNat 64 4 from rfl, offset_ok (by omega), pure_bind]
  have hbase : (ofNat 64 (q.avail.toNat + 4)).toNat = q.avail.toNat + 4 := ofNat_toNat_of_lt (by omega)
  rw [readU16_behind (by omega), hbase]
  rfl

theorem writeMemory_at (h : a + input.length ≤ s.2.ram.len.toNat) : writeMemory (ofNat 64 a) input s =
      ⟨.ok (), (s.1, { s.2 with ram := s.2.ram.store a input, wrote := true }), 1⟩ := by
  have ha : (ofNat 64 a).toNat = a := ofNat_toNat_of_lt (by omega)
  rw [writeMemory_ok (by rw [ha]; exact h), ha]

theorem writeUsed_ok (hfits : q.Fits s.2.ram.len) (hsize : q.size ≠ 0) (index : U16) (id length : U32) :
    writeUsed q index id length s =
      ⟨.ok (index + 1), (s.1, { s.2 with ram := q.publish s.2.ram index id length, wrote := true }), 3⟩ := by
  have hslot := slot_lt hsize index
  have hused := hfits.used
  have hbase : (ofNat 64 (q.used.toNat + 4)).toNat = q.used.toNat + 4 := ofNat_toNat_of_lt (by omega)
  have helem : (ofNat 64 (q.usedSlot index)).toNat = q.usedSlot index :=
    ofNat_toNat_of_lt (by unfold QueueLayout.usedSlot; omega)
  have hspan : q.usedSlot index + 8 ≤ s.2.ram.len.toNat := by
    unfold QueueLayout.usedSlot
    omega
  rw [writeUsed, if_neg hsize, show (4 : U64) = ofNat 64 4 from rfl, show (2 : U64) = ofNat 64 2 from rfl,
    offset_ok (by omega), pure_bind, offset_ok (by omega), hbase, pure_bind,
    show q.used.toNat + 4 + index.toNat % q.size.toNat * 8 = q.usedSlot index from rfl,
    bind_ok (writeMemory_at (by rw [leBytes_length]; omega)), offset_ok (by omega), helem, pure_bind,
    bind_ok (writeMemory_at (by simp only [leBytes_length, Ram.store_len]; omega)), offset_ok (by omega), pure_bind,
    bind_ok (writeMemory_at (by simp only [leBytes_length, Ram.store_len]; omega))]
  rfl

/-! ## Descriptors -/

/-- Neither a refused access nor an overflowed address. -/
def InsideRam {α : Type} : Outcome VirtioError α → Prop
  | .err (.outOfBounds _ _) | .panic => False
  | _ => True

def QueueLayout.HoldsEntry (q : QueueLayout) (len : U64) (index : Nat) : Prop :=
  q.desc.toNat + index * 16 + 16 ≤ len.toNat

theorem QueueLayout.Fits.holdsEntry {len} (hfits : q.Fits len) {index} (hindex : index < q.size.toNat) :
    q.HoldsEntry len index := by
  have hdesc := hfits.desc
  unfold QueueLayout.HoldsEntry
  omega

theorem readDescriptor_ok {index} (hentry : q.HoldsEntry s.2.ram.len index) :
    readDescriptor q index s = ⟨.ok (q.descriptorAt s.2.ram index), s, 4⟩ := by
  unfold QueueLayout.HoldsEntry at hentry
  have hbase : (ofNat 64 (q.desc.toNat + index * 16)).toNat = q.desc.toNat + index * 16 :=
    ofNat_toNat_of_lt (by omega)
  have hread (k n : Nat) (h : k + n ≤ 16) :
      readMemory (ofNat 64 (q.desc.toNat + index * 16 + k)) n s =
        ⟨.ok (s.2.ram.load (q.desc.toNat + index * 16 + k) n), s, 1⟩ := by
    have ha : (ofNat 64 (q.desc.toNat + index * 16 + k)).toNat = q.desc.toNat + index * 16 + k :=
      ofNat_toNat_of_lt (by omega)
    rw [readMemory_ok (by rw [ha]; omega), ha]
  have hoff (k : Nat) (h : k ≤ 16) : (offset (ofNat 64 (q.desc.toNat + index * 16)) (ofNat 64 k) :
      Device σ U64) = pure (ofNat 64 (q.desc.toNat + index * 16 + k)) := by
    rw [offset_ok (by omega), hbase]
  rw [readDescriptor, offset_ok (by omega), pure_bind, readU64, bind_assoc,
    bind_ok (Nat.add_zero (_ + index * 16) ▸ hread 0 8 (by omega)), pure_bind,
    show (8 : U64) = ofNat 64 8 from rfl, hoff 8 (by omega), pure_bind, readU32, bind_assoc,
    bind_ok (hread 8 4 (by omega)), pure_bind, show (12 : U64) = ofNat 64 12 from rfl, hoff 12 (by omega),
    pure_bind, readU16, bind_assoc, bind_ok (hread 12 2 (by omega)), pure_bind,
    show (14 : U64) = ofNat 64 14 from rfl, hoff 14 (by omega), pure_bind, readU16, bind_assoc,
    bind_ok (hread 14 2 (by omega))]
  rfl

theorem chainFrom_inside (hfits : q.Fits s.2.ram.len) (room index chain) :
    InsideRam (chainFrom q room index chain s).outcome := by
  induction room generalizing index chain with
  | zero => trivial
  | succ room ih =>
    rw [chainFrom]
    split
    · trivial
    next hindex =>
      rw [bind_ok (readDescriptor_ok (hfits.holdsEntry (Nat.lt_of_not_ge hindex)))]
      rcases q.descriptorAt s.2.ram index with ⟨entry, next⟩
      simp only
      split
      · exact ih next.toNat _
      · trivial

theorem readChain_inside (hfits : q.Fits s.2.ram.len) (head) : InsideRam (readChain q head s).outcome := by
  unfold readChain
  split
  · trivial
  · exact chainFrom_inside hfits _ _ _

/-! ## Turns -/

/-- A request handler. The RAM it is given stays as long as it is. -/
structure Handler (σ : Type) where
  process : U16 → Device σ U32
  keepsLength : ∀ head s, (process head s).state.2.ram.len = s.2.ram.len

/-- A served head: the length its handler returned and the used index it was published at. -/
structure Turn where
  head : U16
  length : U32
  used : U16
  deriving DecidableEq, Repr

def serve (q : QueueLayout) (process : U16 → Device σ U32) (index : U16) : Device σ Turn := do
  let head ← availHead q index
  let length ← process head
  let used ← usedIndex q
  let _ ← writeUsed q used (head.setWidth 32) length
  return ⟨head, length, used⟩

theorem drainFrom_succ (q : QueueLayout) (avail : U16) (process : U16 → Device σ U32) (fuel : Nat) (index : U16)
    (completed : Nat) :
    drainFrom q avail process (fuel + 1) index completed =
      if index = avail then return (index, completed)
      else serve q process index >>= fun _ => drainFrom q avail process fuel (index + 1) (completed + 1) := by
  simp only [drainFrom, serve, bind_assoc, pure_bind]

/-- The head of the slot was processed, and one element published at the used index found then. -/
structure Serves (q : QueueLayout) (process : U16 → Device σ U32) (index : U16) (turn : Turn)
    (s t : σ × DeviceMemory) : Prop where
  head : turn.head = q.publishedHead s.2.ram index
  handled : ∃ u n, process turn.head s = ⟨.ok turn.length, u, n⟩ ∧ turn.used = q.deviceIndex u.2.ram ∧
    t = (u.1, { u.2 with ram := q.publish u.2.ram turn.used (turn.head.setWidth 32) turn.length, wrote := true })

variable {handler : Handler σ} {t : σ × DeviceMemory} {index : U16} {turn : Turn} {turns : List Turn}

theorem Serves.len (h : Serves q handler.process index turn s t) : t.2.ram.len = s.2.ram.len := by
  obtain ⟨u, n, hprocess, -, rfl⟩ := h.handled
  have hlen := handler.keepsLength turn.head s
  rwa [hprocess] at hlen

theorem serve_of_serves (hfits : q.Fits s.2.ram.len) (hsize : q.size ≠ 0)
    (h : Serves q handler.process index turn s t) : ∃ k, serve q handler.process index s = ⟨.ok turn, t, k⟩ := by
  obtain ⟨u, n, hprocess, hused, rfl⟩ := h.handled
  have hlen : u.2.ram.len = s.2.ram.len := by
    have hkeeps := handler.keepsLength turn.head s
    rwa [hprocess] at hkeeps
  have hfits' : q.Fits u.2.ram.len := hlen ▸ hfits
  have hhead := availHead_ok hfits hsize index
  rw [← h.head] at hhead
  have hindex := usedIndex_ok (s := u) hfits'
  rw [← hused] at hindex
  rw [serve, bind_ok hhead, bind_ok hprocess, bind_ok hindex, bind_ok (writeUsed_ok hfits' hsize _ _ _)]
  exact ⟨_, rfl⟩

variable {r r' : Ram} {u : σ × DeviceMemory} {pending : Nat}

theorem serve_of_ok (hfits : q.Fits s.2.ram.len) (hsize : q.size ≠ 0) {length n}
    (h : handler.process (q.publishedHead s.2.ram index) s = ⟨.ok length, u, n⟩) :
    ∃ turn t k, serve q handler.process index s = ⟨.ok turn, t, k⟩ ∧ Serves q handler.process index turn s t := by
  have hserves : Serves q handler.process index ⟨q.publishedHead s.2.ram index, length, q.deviceIndex u.2.ram⟩ s _ :=
    ⟨rfl, u, n, h, rfl, rfl⟩
  obtain ⟨k, hserve⟩ := serve_of_serves hfits hsize hserves
  exact ⟨_, _, k, hserve, hserves⟩

theorem serve_of_failure (hfits : q.Fits s.2.ram.len) (hsize : q.size ≠ 0)
    (h : ∀ length, (handler.process (q.publishedHead s.2.ram index) s).outcome ≠ .ok length) :
    (handler.process (q.publishedHead s.2.ram index) s).outcome.SameFailure (serve q handler.process index s).outcome ∧
      (serve q handler.process index s).state = (handler.process (q.publishedHead s.2.ram index) s).state := by
  rw [serve, bind_ok (availHead_ok hfits hsize index)]
  exact Exec.bind_failure h

/-- Turns at the slots from an index on. -/
inductive Drains (q : QueueLayout) (process : U16 → Device σ U32) :
    U16 → List Turn → σ × DeviceMemory → σ × DeviceMemory → Prop where
  | nil (index : U16) (s : σ × DeviceMemory) : Drains q process index [] s s
  | cons {index : U16} {turn : Turn} {turns : List Turn} {s t u : σ × DeviceMemory} :
    Serves q process index turn s t → Drains q process (index + 1) turns t u →
      Drains q process index (turn :: turns) s u

/-- How the turns that a drain makes end: all the published heads are served, or the handler refused the
    next one and the drain failed as the handler did. -/
inductive Ended (q : QueueLayout) (process : U16 → Device σ U32) (index : U16) (completed pending count : Nat)
    (t : σ × DeviceMemory) (run : Run (σ × DeviceMemory) VirtioError (U16 × Nat)) : Prop where
  | served : count = pending → run.outcome = .ok (index + ofNat 16 pending, completed + pending) → run.state = t →
    Ended q process index completed pending count t run
  | refused : count < pending →
    (process (q.publishedHead t.2.ram (index + ofNat 16 count)) t).outcome.SameFailure run.outcome →
    run.state = (process (q.publishedHead t.2.ram (index + ofNat 16 count)) t).state →
    Ended q process index completed pending count t run

theorem succ_index (index k) : index + 1 + ofNat 16 k = index + ofNat 16 (k + 1) := by
  rw [BitVec.add_assoc, BitVec.add_comm 1, ofNat_add]
  rfl

theorem pending_succ {index avail : U16} (h : (avail - index).toNat = pending + 1) :
    (avail - (index + 1)).toNat = pending := by
  bv_omega

theorem drainFrom_ends (hfits : q.Fits s.2.ram.len) (hsize : q.size ≠ 0) {avail : U16} (fuel : Nat)
    (hfuel : pending < fuel) (index : U16) (completed : Nat) (hpending : (avail - index).toNat = pending) :
    ∃ turns t, Drains q handler.process index turns s t ∧
      Ended q handler.process index completed pending turns.length t
        (drainFrom q avail handler.process fuel index completed s) := by
  induction pending generalizing fuel index completed s with
  | zero =>
    obtain ⟨fuel, rfl⟩ := Nat.exists_eq_succ_of_ne_zero (Nat.ne_of_gt hfuel)
    have hlast : index = avail := by bv_omega
    refine ⟨[], s, .nil _ _, .served rfl ?_ ?_⟩ <;> simp [drainFrom_succ, hlast]
  | succ pending ih =>
    obtain ⟨fuel, rfl⟩ := Nat.exists_eq_succ_of_ne_zero (Nat.ne_of_gt (Nat.lt_of_le_of_lt (Nat.zero_le _) hfuel))
    have hmore : index ≠ avail := by
      rintro rfl
      simp at hpending
    rw [Nat.succ_eq_add_one, drainFrom_succ, if_neg hmore]
    by_cases hok : ∃ length, (handler.process (q.publishedHead s.2.ram index) s).outcome = .ok length
    · obtain ⟨length, hok⟩ := hok
      obtain ⟨turn, t, k, hserve, hserves⟩ := serve_of_ok hfits hsize (Run.eq_of_outcome hok)
      obtain ⟨turns, u, hdrains, hended⟩ := ih (hserves.len ▸ hfits) fuel (by omega) (index + 1) (completed + 1)
        (pending_succ hpending)
      refine ⟨turn :: turns, u, .cons hserves hdrains, ?_⟩
      rw [bind_ok hserve]
      cases hended with
      | served hcount hout hstate =>
        refine .served (by simp [hcount]) ?_ hstate
        rw [Run.after_outcome, hout, succ_index, Nat.add_right_comm, Nat.add_assoc]
      | refused hcount hfail hstate =>
        rw [succ_index] at hfail hstate
        exact .refused (by simpa using hcount) hfail hstate
    · have hfails : ∀ length, (handler.process (q.publishedHead s.2.ram index) s).outcome ≠ .ok length :=
        fun length h => hok ⟨length, h⟩
      obtain ⟨hsame, hstate⟩ := serve_of_failure hfits hsize hfails
      obtain ⟨hsame', hstate'⟩ := Exec.bind_failure
        (f := fun _ => drainFrom q avail handler.process fuel (index + 1) (completed + 1)) hsame.ne_ok
      refine ⟨[], s, .nil _ _, .refused (Nat.succ_pos _) ?_ ?_⟩
      · simpa using hsame.trans hsame'
      · simpa using hstate'.trans hstate

theorem Drains.concat {process : U16 → Device σ U32} {s u v : σ × DeviceMemory} (h : Drains q process index turns s u)
    (hserves : Serves q process (index + ofNat 16 turns.length) turn u v) :
    Drains q process index (turns ++ [turn]) s v := by
  induction h with
  | nil index s =>
    rw [List.length_nil, BitVec.add_zero] at hserves
    exact .cons hserves (.nil _ _)
  | cons hfirst _ ih =>
    rw [List.length_cons, ← succ_index] at hserves
    exact .cons hfirst (ih hserves)

theorem Drains.len (h : Drains q handler.process index turns s u) : u.2.ram.len = s.2.ram.len := by
  induction h with
  | nil => rfl
  | cons hserves _ ih => exact ih.trans hserves.len

theorem drainFrom_drains (hfits : q.Fits s.2.ram.len) (hsize : q.size ≠ 0) {avail index : U16}
    (h : Drains q handler.process index turns s u) (hmore : turns.length ≤ (avail - index).toNat)
    (fuel completed : Nat) :
    (drainFrom q avail handler.process (turns.length + fuel) index completed s).outcome =
        (drainFrom q avail handler.process fuel (index + ofNat 16 turns.length) (completed + turns.length) u).outcome ∧
      (drainFrom q avail handler.process (turns.length + fuel) index completed s).state =
        (drainFrom q avail handler.process fuel (index + ofNat 16 turns.length)
          (completed + turns.length) u).state := by
  induction h generalizing completed with
  | nil index s => simp
  | @cons index turn turns s t u hserves _ ih =>
    have hnext : index ≠ avail := by
      rintro rfl
      simp at hmore
    obtain ⟨k, hserve⟩ := serve_of_serves hfits hsize hserves
    rw [List.length_cons] at hmore ⊢
    have hrest : turns.length ≤ (avail - (index + 1)).toNat := by bv_omega
    rw [Nat.add_right_comm, drainFrom_succ, if_neg hnext, bind_ok hserve, Run.after_outcome, Run.after_state,
      ← succ_index, ← Nat.add_assoc, Nat.add_right_comm completed]
    exact ih (hserves.len ▸ hfits) hrest (completed + 1)

/-! ## Rings nobody else writes -/

def QueueLayout.InRings (q : QueueLayout) (a : Nat) : Prop :=
  (q.avail.toNat ≤ a ∧ a < q.avail.toNat + (6 + q.size.toNat * 2)) ∨
    (q.used.toNat ≤ a ∧ a < q.used.toNat + (6 + q.size.toNat * 8))

def QueueLayout.RingsApart (q : QueueLayout) : Prop :=
  q.used.toNat + (6 + q.size.toNat * 8) ≤ q.avail.toNat ∨ q.avail.toNat + (6 + q.size.toNat * 2) ≤ q.used.toNat

/-- A drain's runs of the handler, those of its first turns, leave the bytes of the rings. -/
def LeavesRings (q : QueueLayout) (process : U16 → Device σ U32) (index : U16) (count : Nat) (s : σ × DeviceMemory) :
    Prop :=
  ∀ turns u, turns.length < count → Drains q process index turns s u → ∀ a, q.InRings a →
    (process (q.publishedHead u.2.ram (index + ofNat 16 turns.length)) u).state.2.ram.bytes a = u.2.ram.bytes a

theorem LeavesRings.tail {count} {process : U16 → Device σ U32} (h : LeavesRings q process index (count + 1) s)
    (hserves : Serves q process index turn s t) : LeavesRings q process (index + 1) count t := by
  intro turns u hcount hdrains a ha
  have hrun := h (turn :: turns) u (Nat.succ_lt_succ hcount) (.cons hserves hdrains) a ha
  rwa [List.length_cons, ← succ_index] at hrun

theorem word_congr {address} (h : r'.bytes address = r.bytes address)
    (h' : r'.bytes (address + 1) = r.bytes (address + 1)) :
    QueueLayout.word r' address = QueueLayout.word r address := by
  have hload : r'.load address 2 = r.load address 2 := by
    apply readBytes_congr
    intro a ha ha'
    rcases Nat.lt_or_ge address a with hlt | hge
    · rwa [show a = address + 1 by omega]
    · rwa [show a = address by omega]
  rw [QueueLayout.word, hload, QueueLayout.word]

theorem publishedHead_congr (hsize : q.size ≠ 0)
    (h : ∀ a, q.avail.toNat ≤ a → a < q.avail.toNat + (6 + q.size.toNat * 2) → r'.bytes a = r.bytes a) (index : U16) :
    q.publishedHead r' index = q.publishedHead r index := by
  have hslot := slot_lt hsize index
  exact word_congr (h _ (by omega) (by omega)) (h _ (by omega) (by omega))

theorem deviceIndex_congr
    (h : ∀ a, q.used.toNat ≤ a → a < q.used.toNat + (6 + q.size.toNat * 8) → r'.bytes a = r.bytes a) :
    q.deviceIndex r' = q.deviceIndex r :=
  word_congr (h _ (by omega) (by omega)) (h _ (by omega) (by omega))

theorem publish_outside (hsize : q.size ≠ 0) (r : Ram) (index : U16) (id length : U32) {a : Nat}
    (h : a < q.used.toNat ∨ q.used.toNat + (6 + q.size.toNat * 8) ≤ a) :
    (q.publish r index id length).bytes a = r.bytes a := by
  have hslot := slot_lt hsize index
  unfold QueueLayout.publish QueueLayout.usedSlot
  simp only [Ram.store_bytes]
  rcases h with h | h
  · rw [writeBytes_of_lt (by omega), writeBytes_of_lt (by omega), writeBytes_of_lt (by omega)]
  · rw [writeBytes_of_ge (by rw [leBytes_length]; omega), writeBytes_of_ge (by rw [leBytes_length]; omega),
      writeBytes_of_ge (by rw [leBytes_length]; omega)]

theorem deviceIndex_publish (r index id length) :
    q.deviceIndex (q.publish r index id length) = index + 1 := by
  have hload : (q.publish r index id length).load (q.used.toNat + 2) 2 = leBytes 2 (index + 1).toNat := by
    have h := readBytes_writeBytes_self
      (((r.store (q.usedSlot index) (leBytes 4 id.toNat)).store (q.usedSlot index + 4) (leBytes 4 length.toNat)).bytes)
      (q.used.toNat + 2) (leBytes 2 (index + 1).toNat)
    rwa [leBytes_length] at h
  apply eq_of_toNat_eq
  rw [QueueLayout.deviceIndex, QueueLayout.word, hload, leNat_leBytes, toNat_ofNat]
  have hlt := (index + 1).isLt
  omega

theorem Serves.apart {count} (hsize : q.size ≠ 0) (hapart : q.RingsApart)
    (hleaves : LeavesRings q handler.process index (count + 1) s) (h : Serves q handler.process index turn s t) :
    turn.used = q.deviceIndex s.2.ram ∧ q.deviceIndex t.2.ram = q.deviceIndex s.2.ram + 1 ∧
      ∀ slot, q.publishedHead t.2.ram slot = q.publishedHead s.2.ram slot := by
  obtain ⟨u, n, hprocess, hused, rfl⟩ := h.handled
  have hleaves := hleaves [] s (Nat.succ_pos _) (.nil _ _)
  rw [List.length_nil, BitVec.add_zero, ← h.head, hprocess] at hleaves
  have hindex : q.deviceIndex u.2.ram = q.deviceIndex s.2.ram :=
    deviceIndex_congr fun a ha ha' => hleaves a (.inr ⟨ha, ha'⟩)
  refine ⟨hused.trans hindex, ?_, fun slot => ?_⟩
  · rw [deviceIndex_publish, hused, hindex]
  · refine (publishedHead_congr hsize (fun a ha ha' => ?_) slot).trans
      (publishedHead_congr hsize (fun a ha ha' => hleaves a (.inl ⟨ha, ha'⟩)) slot)
    apply publish_outside hsize
    rcases hapart with hapart | hapart
    · exact .inr (by omega)
    · exact .inl (by omega)

/-- The turns serve what the slots from an index on held at the start, at consecutive used indices, and
    the used index has moved by their number. -/
structure InOrder (q : QueueLayout) (index : U16) (turns : List Turn) (s t : σ × DeviceMemory) : Prop where
  turn : ∀ k (h : k < turns.length), (turns.get ⟨k, h⟩).head = q.publishedHead s.2.ram (index + ofNat 16 k) ∧
    (turns.get ⟨k, h⟩).used = q.deviceIndex s.2.ram + ofNat 16 k
  advanced : q.deviceIndex t.2.ram = q.deviceIndex s.2.ram + ofNat 16 turns.length

theorem Drains.inOrder (hapart : q.RingsApart) (h : Drains q handler.process index turns s t)
    (hcount : turns.length ≤ q.size.toNat) (hleaves : LeavesRings q handler.process index turns.length s) :
    InOrder q index turns s t := by
  induction h with
  | nil index s => exact ⟨fun k h => absurd h (Nat.not_lt_zero k), by simp⟩
  | cons hserves _ ih =>
    have hsize : q.size ≠ 0 := by
      rintro hzero
      rw [hzero] at hcount
      exact Nat.not_succ_le_zero _ hcount
    obtain ⟨hused, hnext, hslots⟩ := hserves.apart hsize hapart hleaves
    have ih := ih (Nat.le_of_succ_le hcount) (hleaves.tail hserves)
    refine ⟨fun k hk => ?_, ?_⟩
    · cases k with
      | zero => simpa using ⟨hserves.head, hused⟩
      | succ k =>
        obtain ⟨hhead, hindex⟩ := ih.turn k (Nat.lt_of_succ_lt_succ hk)
        rw [hslots, succ_index] at hhead
        rw [hnext, succ_index] at hindex
        exact ⟨hhead, hindex⟩
    · rw [ih.advanced, hnext, succ_index, List.length_cons]

/-! ## Whole drains -/

theorem drainAvailable_eq (process : U16 → Device σ U32) (lastSeen : U16) (hvalid : q.validate s.2.ram.len = .ok ()) :
    drainAvailable q lastSeen process s =
      ((Exec.lift (availDelta lastSeen (q.driverIndex s.2.ram) q.size) >>= fun _ =>
        drainFrom q (q.driverIndex s.2.ram) process (2 ^ 16) lastSeen 0) s).after 1 := by
  have hfits := QueueLayout.validate_ok.mp hvalid
  rw [drainAvailable, bind_ok (query_validate_ok hvalid), Run.after_zero, bind_ok (availIndex_ok hfits)]

theorem drainAvailable_far {lastSeen} (process : U16 → Device σ U32) (hvalid : q.validate s.2.ram.len = .ok ())
    (hfar : q.size.toNat < (q.driverIndex s.2.ram - lastSeen).toNat) :
    drainAvailable q lastSeen process s =
      ⟨.err (.badQueue "available ring grew by more than the queue size"), s, 1⟩ := by
  rw [drainAvailable_eq process lastSeen hvalid, availDelta, if_pos hfar]
  rfl

theorem drainAvailable_near {lastSeen} (process : U16 → Device σ U32) (hvalid : q.validate s.2.ram.len = .ok ())
    (hnear : (q.driverIndex s.2.ram - lastSeen).toNat ≤ q.size.toNat) :
    drainAvailable q lastSeen process s =
      (drainFrom q (q.driverIndex s.2.ram) process (2 ^ 16) lastSeen 0 s).after 1 := by
  rw [drainAvailable_eq process lastSeen hvalid, availDelta, if_neg (Nat.not_lt.mpr hnear), Exec.lift_ok_bind]

theorem drainAvailable_drains {lastSeen} (handler : Handler σ) (hvalid : q.validate s.2.ram.len = .ok ())
    (hnear : (q.driverIndex s.2.ram - lastSeen).toNat ≤ q.size.toNat) :
    ∃ turns t, turns.length ≤ q.size.toNat ∧ Drains q handler.process lastSeen turns s t ∧
      Ended q handler.process lastSeen 0 (q.driverIndex s.2.ram - lastSeen).toNat turns.length t
        (drainAvailable q lastSeen handler.process s) := by
  have hfits := QueueLayout.validate_ok.mp hvalid
  rw [drainAvailable_near handler.process hvalid hnear]
  by_cases hsize : q.size = 0
  · -- an unconfigured queue has nothing pending
    have hlast : lastSeen = q.driverIndex s.2.ram := by
      rw [hsize] at hnear
      bv_omega
    refine ⟨[], s, Nat.zero_le _, .nil _ _, .served (by simp [← hlast]) ?_ ?_⟩ <;>
      rw [← hlast, show 2 ^ 16 = (2 ^ 16 - 1) + 1 from rfl, drainFrom_succ, if_pos rfl] <;> simp
  · obtain ⟨turns, t, hdrains, hended⟩ := drainFrom_ends hfits hsize (2 ^ 16) (BitVec.isLt _) lastSeen 0 rfl
    refine ⟨turns, t, ?_, hdrains, ?_⟩
    · cases hended with
      | served hcount _ _ => exact hcount ▸ hnear
      | refused hcount _ _ => exact Nat.le_trans (Nat.le_of_lt hcount) hnear
    · cases hended with
      | served hcount hout hstate => exact .served hcount hout hstate
      | refused hcount hfail hstate => exact .refused hcount hfail hstate

/-- A head that the handler refuses when it is reached fails the drain. -/
theorem drainAvailable_refused {lastSeen} (hvalid : q.validate s.2.ram.len = .ok ()) (hsize : q.size ≠ 0)
    (hnear : (q.driverIndex s.2.ram - lastSeen).toNat ≤ q.size.toNat)
    (hdrains : Drains q handler.process lastSeen turns s u)
    (hmore : turns.length < (q.driverIndex s.2.ram - lastSeen).toNat)
    (hfails : ∀ length, (handler.process (q.publishedHead u.2.ram (lastSeen + ofNat 16 turns.length)) u).outcome ≠
      .ok length) (a : U16 × Nat) : (drainAvailable q lastSeen handler.process s).outcome ≠ .ok a := by
  have hfits := QueueLayout.validate_ok.mp hvalid
  have hpending := (q.driverIndex s.2.ram - lastSeen).isLt
  obtain ⟨fuel, hfuel⟩ : ∃ fuel, 2 ^ 16 = turns.length + (fuel + 1) := ⟨2 ^ 16 - turns.length - 1, by omega⟩
  have hnext : lastSeen + ofNat 16 turns.length ≠ q.driverIndex s.2.ram := by bv_omega
  have hserve := (serve_of_failure (hdrains.len ▸ hfits) hsize hfails).1
  rw [drainAvailable_near handler.process hvalid hnear, Run.after_outcome, hfuel,
    (drainFrom_drains hfits hsize hdrains (Nat.le_of_lt hmore) (fuel + 1) 0).1, drainFrom_succ, if_neg hnext]
  exact (Exec.bind_failure hserve.ne_ok).1.ne_ok a

/-- For any RAM, any validated layout and any handler. -/
theorem drainAvailable_ends (q : QueueLayout) (lastSeen : U16) (handler : Handler σ) (s : σ × DeviceMemory)
    (hvalid : q.validate s.2.ram.len = .ok ()) :
    (∀ head t, t.2.ram.len = s.2.ram.len → InsideRam (readChain q head (t : σ × DeviceMemory)).outcome) ∧
    (q.size.toNat < (q.driverIndex s.2.ram - lastSeen).toNat →
      drainAvailable q lastSeen handler.process s =
        ⟨.err (.badQueue "available ring grew by more than the queue size"), s, 1⟩) ∧
    ((q.driverIndex s.2.ram - lastSeen).toNat ≤ q.size.toNat → ∃ turns t,
      turns.length ≤ q.size.toNat ∧ Drains q handler.process lastSeen turns s t ∧
      Ended q handler.process lastSeen 0 (q.driverIndex s.2.ram - lastSeen).toNat turns.length t
        (drainAvailable q lastSeen handler.process s) ∧
      (q.RingsApart → LeavesRings q handler.process lastSeen turns.length s → InOrder q lastSeen turns s t)) := by
  have hfits := QueueLayout.validate_ok.mp hvalid
  refine ⟨fun head t hlen => readChain_inside (hlen ▸ hfits) head, drainAvailable_far _ hvalid, fun hnear => ?_⟩
  obtain ⟨turns, t, hcount, hdrains, hended⟩ := drainAvailable_drains handler hvalid hnear
  refine ⟨turns, t, hcount, hdrains, hended, fun hapart hleaves => ?_⟩
  exact hdrains.inOrder hapart hcount hleaves

def recorder : Handler (List U16) where
  process head := do
    Exec.update fun (heads, m) => (heads ++ [head], m)
    return 0
  keepsLength _ _ := rfl

def fourHeads : List U16 × DeviceMemory :=
  ([], ⟨⟨writeBytes (fun _ => 0) 0x102 [4, 0, 3, 0, 2, 0, 1, 0, 0, 0], 4096, fun _ => 0⟩, false⟩)

/-- The rings apart: the four heads are served in the order published. -/
theorem drained_in_order :
    ∃ turns t, turns.length ≤ 4 ∧ Drains ⟨4, 0, 0x100, 0x200⟩ recorder.process 0 turns fourHeads t ∧
      InOrder ⟨4, 0, 0x100, 0x200⟩ 0 turns fourHeads t := by
  obtain ⟨turns, t, hcount, hdrains, -, horder⟩ :=
    (drainAvailable_ends ⟨4, 0, 0x100, 0x200⟩ 0 recorder fourHeads (by decide +kernel)).2.2 (by decide +kernel)
  exact ⟨turns, t, hcount, hdrains, horder (.inr (by decide)) fun _ _ _ _ _ _ => rfl⟩

/-- The used ring laid over the available ring passes validation. The first element overwrites the
    slots still to be served, so two of the published heads are never handled. -/
theorem overlapping_rings_lose_heads :
    (QueueLayout.mk 4 0 0x100 0x100).validate fourHeads.2.ram.len = .ok () ∧
      ((List.range 4).map fun k => (QueueLayout.mk 4 0 0x100 0x100).publishedHead fourHeads.2.ram (ofNat 16 k)) =
        [3, 2, 1, 0] ∧
      (drainAvailable ⟨4, 0, 0x100, 0x100⟩ 0 recorder.process fourHeads).outcome = .ok (4, 4) ∧
      (drainAvailable ⟨4, 0, 0x100, 0x100⟩ 0 recorder.process fourHeads).state.1 = [3, 0, 0, 0] := by
  decide +kernel

end Rish.SoftVm.Virtio
