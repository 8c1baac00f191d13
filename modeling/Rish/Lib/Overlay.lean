/-
  Rish.Lib.Overlay — a memory written in pieces that belong to regions.

  A patch is a byte string at a start address, with the region it belongs to. Patches are written in order, so at every
  address the last one that covers it stands.
-/

import Rish.Lib.Bytes

namespace Rish.Lib

structure Patch (ρ : Type) where
  region : ρ
  start : Nat
  bytes : List U8

section

variable {ρ : Type} [DecidableEq ρ]

def Patch.byteAt (p : Patch ρ) (a : Nat) : Option U8 :=
  if p.start ≤ a ∧ a < p.start + p.bytes.length then some (p.bytes.getD (a - p.start) 0) else none

def lastAt : List (Patch ρ) → Nat → Option U8
  | [], _ => none
  | p :: ps, a => (lastAt ps a).or (p.byteAt a)

/-- The memory after all patches. -/
def overlay : Bytes → List (Patch ρ) → Bytes
  | m, [] => m
  | m, p :: ps => overlay (writeBytes m p.start p.bytes) ps

def part (r : ρ) (ps : List (Patch ρ)) : List (Patch ρ) := ps.filter (·.region = r)

/-- A memory holds what the patches of a region left. -/
def ReadsBack (m : Bytes) (ps : List (Patch ρ)) (r : ρ) : Prop := ∀ a v, lastAt (part r ps) a = some v → m a = v

/-- Regions that share an address have the same byte there. -/
def Agree (ps : List (Patch ρ)) : Prop :=
  ∀ r r' a v v', lastAt (part r ps) a = some v → lastAt (part r' ps) a = some v' → v = v'

omit [DecidableEq ρ] in
theorem writeBytes_byteAt (m) (p : Patch ρ) (a) :
    writeBytes m p.start p.bytes a = (p.byteAt a).getD (m a) := by
  simp only [writeBytes, Patch.byteAt]
  split <;> rfl

omit [DecidableEq ρ] in
theorem overlay_apply (ps : List (Patch ρ)) (m a) : overlay m ps a = (lastAt ps a).getD (m a) := by
  induction ps generalizing m with
  | nil => rfl
  | cons p ps ih =>
    rw [overlay, ih, writeBytes_byteAt, lastAt]
    cases lastAt ps a <;> rfl

theorem part_cons_self (p : Patch ρ) (ps : List (Patch ρ)) : part p.region (p :: ps) = p :: part p.region ps :=
  List.filter_cons_of_pos (by simp)

theorem part_cons_of_ne {r : ρ} {p} (h : p.region ≠ r) (ps : List (Patch ρ)) : part r (p :: ps) = part r ps :=
  List.filter_cons_of_neg (by simpa using h)

variable {ps : List (Patch ρ)}

theorem lastAt_part_none {a} (r : ρ) (h : lastAt ps a = none) : lastAt (part r ps) a = none := by
  induction ps with
  | nil => rfl
  | cons p ps ih =>
    rw [lastAt, Option.or_eq_none_iff] at h
    by_cases hp : p.region = r
    · subst hp
      rw [part_cons_self, lastAt, ih h.1, h.2]
      rfl
    · rw [part_cons_of_ne hp, ih h.1]

theorem exists_part {a} {v : U8} (h : lastAt ps a = some v) : ∃ r, lastAt (part r ps) a = some v := by
  induction ps with
  | nil => cases h
  | cons p ps ih =>
    rw [lastAt] at h
    cases hrest : lastAt ps a with
    | some u =>
      rw [hrest] at h
      obtain ⟨r, hr⟩ := ih (hrest.trans h)
      refine ⟨r, ?_⟩
      by_cases hp : p.region = r
      · subst hp
        rw [part_cons_self, lastAt, hr]
        rfl
      · rw [part_cons_of_ne hp, hr]
    | none =>
      rw [hrest] at h
      refine ⟨p.region, ?_⟩
      rw [part_cons_self, lastAt, lastAt_part_none p.region hrest]
      exact h

section

variable (keep : ρ → Bool)

def kept (ps : List (Patch ρ)) : List (Patch ρ) := ps.filter fun p => keep p.region

variable {keep} {r : ρ}

theorem part_kept (h : keep r = true) (ps : List (Patch ρ)) : part r (kept keep ps) = part r ps := by
  rw [part, part, kept, List.filter_filter]
  refine List.filter_congr fun p _ => ?_
  by_cases hp : p.region = r
  · simp [hp, h]
  · simp [hp]

theorem part_dropped (h : keep r = false) (ps : List (Patch ρ)) : part r (kept keep ps) = [] := by
  rw [part, kept, List.filter_filter, List.filter_eq_nil_iff]
  intro p _ hp
  simp only [Bool.and_eq_true, decide_eq_true_eq] at hp
  rw [hp.1, h] at hp
  exact absurd hp.2 Bool.false_ne_true

variable (keep)

theorem readsBack_iff (m) (ps : List (Patch ρ)) : (∀ r, ReadsBack (overlay m (kept keep ps)) ps r) ↔
    Agree ps ∧ ∀ r a v, keep r = false → lastAt (part r ps) a = some v → lastAt (kept keep ps) a = none → m a = v := by
  constructor
  · intro h
    refine ⟨?_, ?_⟩
    · intro r r' a v v' hv hv'
      exact (h r a v hv).symm.trans (h r' a v' hv')
    · intro r a v _ hv hnone
      have hread := h r a v hv
      rw [overlay_apply, hnone] at hread
      exact hread
  · rintro ⟨hagree, hthere⟩ r a v hv
    rw [overlay_apply]
    cases hlast : lastAt (kept keep ps) a with
    | some u =>
      obtain ⟨r', hr'⟩ := exists_part hlast
      cases hkeep : keep r' with
      | true =>
        rw [part_kept hkeep] at hr'
        exact hagree r' r a u v hr' hv
      | false =>
        rw [part_dropped hkeep] at hr'
        cases hr'
    | none =>
      cases hkeep : keep r with
      | true =>
        have hnone := lastAt_part_none r hlast
        rw [part_kept hkeep, hv] at hnone
        cases hnone
      | false => exact hthere r a v hkeep hv hlast

end

variable {ps : List (Patch ρ)}

theorem lastAt_part_mem_span {low high} {r : ρ}
    (hin : ∀ p ∈ ps, p.region = r → low ≤ p.start ∧ p.start + p.bytes.length ≤ high) {a} {v : U8}
    (h : lastAt (part r ps) a = some v) : low ≤ a ∧ a < high := by
  induction ps with
  | nil => cases h
  | cons p ps ih =>
    have hrest := ih (fun q hq => hin q (List.mem_cons_of_mem _ hq))
    by_cases hp : p.region = r
    · subst hp
      obtain ⟨hlow, hhigh⟩ := hin p (List.mem_cons_self ..) rfl
      rw [part_cons_self, lastAt] at h
      cases hown : lastAt (part p.region ps) a with
      | some u =>
        rw [hown] at h
        exact hrest (hown.trans h)
      | none =>
        rw [hown, Option.none_or, Patch.byteAt] at h
        split at h
        next hat => exact ⟨by omega, by omega⟩
        · cases h
    · rw [part_cons_of_ne hp] at h
      exact hrest h

theorem agree_of_spans (low high : ρ → Nat)
    (hin : ∀ p ∈ ps, low p.region ≤ p.start ∧ p.start + p.bytes.length ≤ high p.region)
    (hdisjoint : ∀ r r', r ≠ r' → high r ≤ low r' ∨ high r' ≤ low r) : Agree ps := by
  intro r r' a v v' hv hv'
  by_cases hr : r = r'
  · subst hr
    exact Option.some.inj (hv.symm.trans hv')
  · have hspan := lastAt_part_mem_span (fun p hp hregion => hregion ▸ hin p hp) hv
    have hspan' := lastAt_part_mem_span (fun p hp hregion => hregion ▸ hin p hp) hv'
    rcases hdisjoint r r' hr with h | h <;> omega

end

end Rish.Lib
