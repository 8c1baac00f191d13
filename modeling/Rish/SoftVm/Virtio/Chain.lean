/-
  Rish.SoftVm.Virtio.Chain — which descriptor chain a device reads.

  The descriptor ring is a set of linked nodes: an entry below the queue size that lies in RAM holds a descriptor, and
  names the next entry when its NEXT flag is set. The guest writes the links, so they may form a cycle.
-/

import Rish.Lib.Links
import Rish.SoftVm.Virtio.Completion

namespace Rish.SoftVm.Virtio

open Lib
open Exec (bind_eq_ok)

variable {σ : Type}

/-- The descriptor ring of a RAM as linked nodes. -/
def QueueLayout.entry (q : QueueLayout) (r : Ram) (index : Nat) : Option (QueueDescriptor × Option Nat) :=
  if index < q.size.toNat ∧ q.desc.toNat + index * 16 + 16 ≤ r.len.toNat then
    some ((q.descriptorAt r index).1,
      if (q.descriptorAt r index).1.hasNext then some (q.descriptorAt r index).2.toNat else none)
  else none

section Entries

variable {q : QueueLayout} {r : Ram} {index : Nat} {x : QueueDescriptor × Option Nat}

theorem QueueLayout.entry_lt (h : q.entry r index = some x) : index < q.size.toNat := by
  unfold QueueLayout.entry at h
  split at h
  next hindex => exact hindex.1
  next => cases h

theorem QueueLayout.entry_holds (h : q.entry r index = some x) : q.HoldsEntry r.len index := by
  unfold QueueLayout.entry at h
  split at h
  next hindex => exact hindex.2
  next => cases h

theorem QueueLayout.entry_eq (hindex : index < q.size.toNat) (hentry : q.HoldsEntry r.len index) :
    q.entry r index = some ((q.descriptorAt r index).1,
      if (q.descriptorAt r index).1.hasNext then some (q.descriptorAt r index).2.toNat else none) :=
  if_pos ⟨hindex, hentry⟩

end Entries

/-! ## Reading one entry -/

section ReadDescriptor

variable {q : QueueLayout} {s : σ × DeviceMemory} {index : Nat} {t : σ × DeviceMemory}

theorem readMemory_returned {address n k bytes}
    (h : readMemory address n s = ⟨.ok bytes, t, k⟩) : address.toNat + n ≤ s.2.ram.len.toNat := by
  by_contra hout
  have hcheck : checkRange s.2 address n = .err (.outOfBounds address (BitVec.ofNat 64 n)) :=
    if_neg fun hin => hout hin.2
  simp only [readMemory, Exec.query_apply, hcheck] at h
  cases h

theorem offset_returned {a b c k} (h : offset a b s = ⟨.ok c, t, k⟩) :
    c.toNat = a.toNat + b.toNat ∧ t = s := by
  unfold offset Outcome.add at h
  split at h
  next hsum =>
    cases h
    exact ⟨by rw [BitVec.toNat_add, Nat.mod_eq_of_lt hsum], rfl⟩
  next => cases h

theorem readDescriptor_returned {x} (hindex : index < 2 ^ 60)
    (h : (readDescriptor q index s).outcome = .ok x) : q.HoldsEntry s.2.ram.len index := by
  have hindex' : (BitVec.ofNat 64 (index * 16)).toNat = index * 16 := ofNat_toNat_of_lt (by omega)
  obtain ⟨base, s1, _, _, hbase, h, -⟩ := bind_eq_ok (Run.eq_of_outcome h)
  obtain ⟨hbase, rfl⟩ := offset_returned hbase
  obtain ⟨_, s2, _, _, hread, h, -⟩ := bind_eq_ok h
  obtain rfl : s2 = s1 := Keeps.run (R := Unchanged) hread
  obtain ⟨_, s3, _, _, hread, h, -⟩ := bind_eq_ok h
  obtain rfl : s3 = s2 := Keeps.run (R := Unchanged) hread
  obtain ⟨_, s4, _, _, hread, h, -⟩ := bind_eq_ok h
  obtain rfl : s4 = s3 := Keeps.run (R := Unchanged) hread
  obtain ⟨_, s5, _, _, hread, h, -⟩ := bind_eq_ok h
  obtain rfl : s5 = s4 := Keeps.run (R := Unchanged) hread
  obtain ⟨_, s6, _, _, hread, h, -⟩ := bind_eq_ok h
  obtain rfl : s6 = s5 := Keeps.run (R := Unchanged) hread
  obtain ⟨last, s7, _, _, hlast, h, -⟩ := bind_eq_ok h
  obtain ⟨hlast, rfl⟩ := offset_returned hlast
  obtain ⟨_, s8, _, _, hread, -, -⟩ := bind_eq_ok h
  obtain ⟨_, s9, _, _, hread, -, -⟩ := bind_eq_ok hread
  have hin := readMemory_returned hread
  have h14 : BitVec.toNat (14 : U64) = 14 := rfl
  unfold QueueLayout.HoldsEntry
  omega

theorem readDescriptor_error (hout : ¬q.HoldsEntry s.2.ram.len index)
    (hsum : q.desc.toNat + index * 16 + 14 < 2 ^ 64) : ∃ e, (readDescriptor q index s).outcome = .err e := by
  have hindex : (BitVec.ofNat 64 (index * 16)).toNat = index * 16 := ofNat_toNat_of_lt (by omega)
  have hsafe : Safe (At (fun _ => True) s.2.ram.len) (readDescriptor q index : Device σ (QueueDescriptor × U16)) := by
    have hbase := offset_safe (σ := σ) (Q := fun _ => True) (L := s.2.ram.len) (a := q.desc)
      (b := BitVec.ofNat 64 (index * 16)) (by omega)
    unfold readDescriptor
    refine .bind_returned (fun base => base.toNat = q.desc.toNat + index * 16)
      (fun t base _ h => ?_) fun base hbase => ?_
    · rw [(offset_returned (Run.eq_of_outcome h)).1, hindex]
    · have hfield (k : U64) (hk : k.toNat ≤ 14) :=
        offset_safe (σ := σ) (Q := fun _ => True) (L := s.2.ram.len) (a := base) (b := k) (by omega)
      have h8 := hfield 8 (by decide)
      have h12 := hfield 12 (by decide)
      have h14 := hfield 14 (by decide)
      unfold readU64 readU32 readU16
      infer_instance
  rcases hrun : (readDescriptor q index s).outcome with x | e | _
  · exact absurd (readDescriptor_returned (by omega) hrun) hout
  · exact ⟨e, rfl⟩
  · exact absurd hrun (hsafe.safe s ⟨trivial, rfl⟩).1

end ReadDescriptor

/-! ## Following the links -/

section Follow

variable {q : QueueLayout} {s : σ × DeviceMemory} {index room : Nat} {before : List QueueDescriptor}

/-- What is done after an entry was read. -/
def chainNext (q : QueueLayout) (room : Nat) (chain : List QueueDescriptor) :
    Option Nat → Device σ (List QueueDescriptor)
  | none => return chain
  | some next => chainFrom q room next chain

variable {d : QueueDescriptor} {next : Nat}

theorem chainFrom_entry {next} (h : q.entry s.2.ram index = some (d, next)) :
    chainFrom q (room + 1) index before s = (chainNext q room (before ++ [d]) next s).after 4 := by
  have hindex := QueueLayout.entry_lt h
  have hentry := QueueLayout.entry_holds h
  rw [QueueLayout.entry_eq hindex hentry, Option.some.injEq, Prod.mk.injEq] at h
  obtain ⟨rfl, rfl⟩ := h
  rw [chainFrom, if_neg (Nat.not_le.mpr hindex), Exec.bind_ok (readDescriptor_ok hentry)]
  rcases q.descriptorAt s.2.ram index with ⟨entry, next⟩
  by_cases hnext : entry.hasNext = true
  · simp only [if_pos hnext]
    rfl
  · simp only [if_neg hnext]
    rfl

theorem chainFrom_none (hindex : index < 2 ^ 60) (h : q.entry s.2.ram index = none) (chain) :
    (chainFrom q (room + 1) index before s).outcome ≠ .ok chain := by
  intro hok
  rw [chainFrom] at hok
  split at hok
  next => cases hok
  next hsize =>
    obtain ⟨x, t, n, m, hread, -, -⟩ := bind_eq_ok (Run.eq_of_outcome hok)
    have hentry := readDescriptor_returned hindex (by rw [hread])
    rw [QueueLayout.entry_eq (Nat.lt_of_not_ge hsize) hentry] at h
    cases h

theorem entry_next_lt (h : q.entry s.2.ram index = some (d, some next)) : next < 2 ^ 16 := by
  rw [QueueLayout.entry_eq (QueueLayout.entry_lt h) (QueueLayout.entry_holds h), Option.some.injEq, Prod.mk.injEq] at h
  obtain ⟨-, h⟩ := h
  split at h
  · cases h
    exact BitVec.isLt _
  · cases h

theorem chainFrom_ok_iff (hindex : index < 2 ^ 16) (chain) :
    (chainFrom q room index before s).outcome = .ok chain ↔
      ∃ route, LinkRoute (q.entry s.2.ram) index route ∧ route.length ≤ room ∧
        chain = before ++ route.map Prod.snd := by
  induction room generalizing index before with
  | zero =>
    refine iff_of_false (fun h => by cases h) ?_
    rintro ⟨route, hroute, hlen, -⟩
    cases hroute <;> cases hlen
  | succ room ih =>
    rcases hentry : q.entry s.2.ram index with _ | ⟨d, _ | next⟩
    · refine iff_of_false (chainFrom_none (by omega) hentry chain) ?_
      rintro ⟨route, hroute, -, -⟩
      obtain ⟨next, hnode⟩ : ∃ x, q.entry s.2.ram index = some x := by
        cases hroute with
        | last h => exact ⟨_, h⟩
        | link h => exact ⟨_, h⟩
      rw [hentry] at hnode
      cases hnode
    · rw [chainFrom_entry hentry, Run.after_outcome]
      constructor
      · intro h
        cases h
        exact ⟨[(index, d)], .last hentry, by simp, rfl⟩
      · rintro ⟨route, hroute, -, rfl⟩
        rw [hroute.unique (.last hentry)]
        rfl
    · rw [chainFrom_entry hentry, Run.after_outcome, chainNext, ih (entry_next_lt hentry)]
      constructor
      · rintro ⟨route, hroute, hlen, rfl⟩
        refine ⟨(index, d) :: route, .link hentry hroute, Nat.succ_le_succ hlen, ?_⟩
        rw [List.map_cons, List.append_assoc]
        rfl
      · rintro ⟨route, hroute, hlen, rfl⟩
        cases hroute with
        | last hlast =>
          rw [hentry] at hlast
          cases hlast
        | link hlink hrest =>
          rw [hentry] at hlink
          cases hlink
          refine ⟨_, hrest, Nat.le_of_succ_le_succ hlen, ?_⟩
          rw [List.map_cons, List.append_assoc]
          rfl

theorem chainFrom_walk {visited} (h : LinkWalk (q.entry s.2.ram) index visited next) (room)
    (before) : ∃ before',
      (chainFrom q (visited.length + room) index before s).outcome = (chainFrom q room next before' s).outcome := by
  induction h generalizing before with
  | here index => exact ⟨before, by rw [List.length_nil, Nat.zero_add]⟩
  | on hlink _ ih =>
    obtain ⟨before', hrun⟩ := ih (before ++ [_])
    refine ⟨before', ?_⟩
    rw [List.length_cons, Nat.add_right_comm, chainFrom_entry hlink, Run.after_outcome, chainNext, hrun]

end Follow

/-! ## Chains -/

structure ChainRead (q : QueueLayout) (head : U16) (s : σ × DeviceMemory) : Prop where
  /-- It returns the chain of the links from the head, all of it, when they end within the limit. -/
  exact : ∀ chain, (readChain q head s).outcome = .ok chain ↔
    ∃ route, LinkRoute (q.entry s.2.ram) head.toNat route ∧ route.length ≤ MAX_CHAIN_DESCRIPTORS ∧
      chain = route.map Prod.snd
  /-- Those links stay below the queue size and visit no entry twice. -/
  inside : ∀ route, LinkRoute (q.entry s.2.ram) head.toNat route →
    (route.map Prod.fst).Nodup ∧ ∀ i ∈ route.map Prod.fst, i < q.size.toNat
  /-- Links that come back to an entry, or lead on after the limit, are an error. -/
  limit : ∀ visited next, LinkWalk (q.entry s.2.ram) head.toNat visited next →
    next ∈ visited ∨ MAX_CHAIN_DESCRIPTORS ≤ visited.length →
    (readChain q head s).outcome = .err (.badQueue "descriptor chain exceeds the device limit")
  /-- A link out of the ring is an error. -/
  outside : ∀ visited next, LinkWalk (q.entry s.2.ram) head.toNat visited next →
    visited.length < MAX_CHAIN_DESCRIPTORS →
    q.size.toNat ≤ next → ∃ message, (readChain q head s).outcome = .err (.badQueue message)
  /-- So is an entry outside RAM, where its address can be computed. -/
  unreadable : ∀ visited next, LinkWalk (q.entry s.2.ram) head.toNat visited next →
    visited.length < MAX_CHAIN_DESCRIPTORS → next < q.size.toNat → ¬q.HoldsEntry s.2.ram.len next →
    q.desc.toNat + next * 16 + 14 < 2 ^ 64 → ∃ e, (readChain q head s).outcome = .err e
  /-- It reads four fields of each entry at most, and changes nothing. -/
  cost : (readChain q head s).accesses ≤ 4 * MAX_CHAIN_DESCRIPTORS
  unchanged : (readChain q head s).state = s

section Read

variable {q : QueueLayout} {s : σ × DeviceMemory} {head : U16}

theorem readChain_eq (hsize : q.size ≠ 0) :
    readChain q head s = chainFrom q MAX_CHAIN_DESCRIPTORS head.toNat [] s := by
  rw [readChain, if_neg hsize]

theorem readChain_empty (hsize : q.size = 0) :
    (readChain q head s).outcome = .err (.badQueue "descriptor ring has zero size") := by
  rw [readChain, if_pos hsize]
  rfl

theorem entry_none (hsize : q.size = 0) (r index) : q.entry r index = none := by
  refine if_neg fun h => ?_
  rw [hsize] at h
  exact Nat.not_lt_zero _ h.1

variable {visited : List Nat}

theorem LinkWalk.size_ne_zero {r index next} (h : LinkWalk (q.entry r) index visited next)
    (hsome : visited ≠ []) : q.size ≠ 0 := by
  intro hsize
  cases h with
  | here => exact hsome rfl
  | on hlink =>
    rw [entry_none hsize] at hlink
    cases hlink

theorem readChain_ok_iff (chain) : (readChain q head s).outcome = .ok chain ↔
    ∃ route, LinkRoute (q.entry s.2.ram) head.toNat route ∧ route.length ≤ MAX_CHAIN_DESCRIPTORS ∧
      chain = route.map Prod.snd := by
  by_cases hsize : q.size = 0
  · refine iff_of_false (fun h => ?_) ?_
    · rw [readChain_empty hsize] at h
      cases h
    · rintro ⟨route, hroute, -, -⟩
      cases hroute with
      | last h => rw [entry_none hsize] at h; cases h
      | link h => rw [entry_none hsize] at h; cases h
  · rw [readChain_eq hsize, chainFrom_ok_iff head.isLt]
    rfl

variable {next : Nat}

section

variable (h : LinkWalk (q.entry s.2.ram) head.toNat visited next)
include h

theorem readChain_limit
    (hlen : visited.length = MAX_CHAIN_DESCRIPTORS) :
    (readChain q head s).outcome = .err (.badQueue "descriptor chain exceeds the device limit") := by
  have hsize : q.size ≠ 0 := LinkWalk.size_ne_zero h (by rintro rfl; cases hlen)
  obtain ⟨before, hrun⟩ := chainFrom_walk h 0 []
  rw [readChain_eq hsize, ← hlen]
  exact hrun

theorem readChain_outside
    (hlen : visited.length < MAX_CHAIN_DESCRIPTORS) (hnext : q.size.toNat ≤ next) :
    ∃ message, (readChain q head s).outcome = .err (.badQueue message) := by
  by_cases hsize : q.size = 0
  · exact ⟨_, readChain_empty hsize⟩
  · obtain ⟨room, hroom⟩ := Nat.exists_eq_add_of_lt hlen
    obtain ⟨before, hrun⟩ := chainFrom_walk h (room + 1) []
    rw [readChain_eq hsize, hroom, Nat.add_assoc, hrun, chainFrom, if_pos hnext]
    exact ⟨_, rfl⟩

theorem readChain_unreadable
    (hlen : visited.length < MAX_CHAIN_DESCRIPTORS) (hnext : next < q.size.toNat)
    (hout : ¬q.HoldsEntry s.2.ram.len next) (hsum : q.desc.toNat + next * 16 + 14 < 2 ^ 64) :
    ∃ e, (readChain q head s).outcome = .err e := by
  have hsize : q.size ≠ 0 := by
    intro hzero
    rw [hzero] at hnext
    cases hnext
  obtain ⟨room, hroom⟩ := Nat.exists_eq_add_of_lt hlen
  obtain ⟨before, hrun⟩ := chainFrom_walk h (room + 1) []
  obtain ⟨e, herror⟩ := readDescriptor_error (s := s) hout hsum
  refine ⟨e, ?_⟩
  rw [readChain_eq hsize, hroom, Nat.add_assoc, hrun, chainFrom, if_neg (Nat.not_le.mpr hnext),
    Exec.bind_err (Run.eq_of_outcome herror)]

end

end Read

instance (q index) : Cost 4 (readDescriptor q index : Device σ (QueueDescriptor × U16)) := by
  unfold readDescriptor readU64 readU32 readU16 readMemory offset; infer_instance

theorem chainFrom_cost (q) (room index : Nat) (before) :
    Cost (4 * room) (chainFrom q room index before : Device σ (List QueueDescriptor)) := by
  induction room generalizing index before with
  | zero =>
    unfold chainFrom
    infer_instance
  | succ room ih =>
    unfold chainFrom
    split
    · exact Cost.mono (m := 0) inferInstance (Nat.zero_le _)
    · refine Cost.mono (m := 4 + 4 * room) (Cost.bind inferInstance ?_) (by omega)
      rintro ⟨entry, next⟩
      have hcost := ih next.toNat (before ++ [entry])
      dsimp only
      exact Cost.mono (m := max (4 * room) 0) inferInstance (by omega)

/-- Reading a chain ends, and returns the chain of its head or an error. -/
theorem readChain_follows_links (q : QueueLayout) (head : U16) (s : σ × DeviceMemory) : ChainRead q head s where
  exact := readChain_ok_iff
  inside route hroute := by
    refine ⟨hroute.nodup, fun i hi => ?_⟩
    obtain ⟨x, hx, rfl⟩ := List.mem_map.mp hi
    obtain ⟨next, hnode⟩ := hroute.node_eq hx
    exact QueueLayout.entry_lt hnode
  limit visited next hwalk hlong := by
    obtain ⟨w, j, hw, hlen⟩ : ∃ w j, LinkWalk (q.entry s.2.ram) head.toNat w j ∧ w.length = MAX_CHAIN_DESCRIPTORS := by
      rcases hlong with hmem | hlong
      · exact hwalk.of_revisit hmem _
      · obtain ⟨j, htake⟩ := hwalk.take MAX_CHAIN_DESCRIPTORS
        exact ⟨_, j, htake, by rw [List.length_take, Nat.min_eq_left hlong]⟩
    exact readChain_limit hw hlen
  outside visited next hwalk hlen hnext := readChain_outside hwalk hlen hnext
  unreadable visited next hwalk hlen hnext hout hsum := readChain_unreadable hwalk hlen hnext hout hsum
  cost := by
    unfold readChain
    split
    · exact Nat.zero_le _
    · exact (chainFrom_cost q MAX_CHAIN_DESCRIPTORS head.toNat []).accesses_le s
  unchanged := Keeps.keeps (R := Unchanged) s

end Rish.SoftVm.Virtio
