/-
  Rish.Lib.Ledger — finite maps, and the total of a size over their values.

  Proved: how the total changes when a key is added (`total_insert`) or removed (`total_erase`), and that
  removing the keys of a list removes exactly their values (`lookup_eraseAll`, `total_eraseAll`).
-/

import Mathlib.Data.List.AList
import Mathlib.Algebra.BigOperators.Group.List.Basic
import Mathlib.Tactic.Ring

namespace Rish.Lib

open List

/-- A finite map. -/
abbrev Table (κ V : Type) : Type := AList fun _ : κ => V

namespace Table

variable {κ V : Type} [DecidableEq κ] {m : Table κ V} {k k' : κ} {v : V}

theorem mem_entries : (⟨k, v⟩ : Sigma fun _ : κ => V) ∈ m.entries ↔ m.lookup k = some v :=
  AList.mem_lookup_iff.symm

def total (size : V → Nat) (m : Table κ V) : Nat := (m.entries.map fun e => size e.2).sum

variable {size : V → Nat}

theorem total_insert (h : m.lookup k = none) : total size (m.insert k v) = size v + total size m := by
  rw [total, AList.entries_insert_of_notMem (AList.lookup_eq_none.mp h), map_cons, sum_cons]
  rfl

variable (size) in
theorem total_erase (h : m.lookup k = some v) : total size m = size v + total size (m.erase k) := by
  have hmem : k ∈ m.entries.keys := AList.lookup_isSome.mp (by rw [h]; rfl)
  obtain ⟨w, before, later, -, hentries, herase⟩ := exists_of_kerase hmem
  have hw : m.lookup k = some w := mem_entries.mp (by rw [hentries]; simp)
  obtain rfl : v = w := Option.some_inj.mp (h.symm.trans hw)
  have hrest : (m.erase k).entries = before ++ later := herase
  rw [total, total, hrest, hentries]
  simp only [map_append, map_cons, sum_append, sum_cons]
  omega

theorem erase_of_lookup_none (h : m.lookup k = none) : m.erase k = m :=
  AList.ext (kerase_of_notMem_keys (AList.lookup_eq_none.mp h))

theorem erase_insert (h : m.lookup k = none) : (m.insert k v).erase k = m := by
  have hkey := AList.lookup_eq_none.mp h
  refine AList.ext ?_
  show List.kerase k (m.insert k v).entries = m.entries
  rw [AList.entries_insert_of_notMem hkey]
  exact kerase_cons_eq rfl

variable (keys : List κ)

/-- The keys of the entries removed, one after the other. -/
def eraseAll (m : Table κ V) : Table κ V := keys.foldl (fun m k => m.erase k) m

@[simp] theorem eraseAll_nil : eraseAll [] m = m := rfl

@[simp] theorem eraseAll_cons : eraseAll (k :: keys) m = eraseAll keys (m.erase k) := rfl

theorem lookup_erase_eq (k k' : κ) : (m.erase k').lookup k = if k = k' then none else m.lookup k := by
  split
  · rename_i h
    rw [h, AList.lookup_erase]
  · rename_i h
    exact AList.lookup_erase_ne h

theorem lookup_insert_eq (k k' : κ) : (m.insert k' v).lookup k = if k = k' then some v else m.lookup k := by
  split
  · rename_i h
    rw [h, AList.lookup_insert]
  · rename_i h
    exact AList.lookup_insert_ne h

theorem lookup_eraseAll : (eraseAll keys m).lookup k = if k ∈ keys then none else m.lookup k := by
  induction keys generalizing m with
  | nil => simp
  | cons k' keys ih =>
    rw [eraseAll_cons, ih, lookup_erase_eq]
    by_cases hk : k = k' <;> simp [hk]

/-- The entries of a list put into the map, one after the other. -/
def insertAll (es : List (Sigma fun _ : κ => V)) (m : Table κ V) : Table κ V := es.foldl (fun m e => m.insert e.1 e.2) m

@[simp] theorem insertAll_nil : insertAll [] m = m := rfl

@[simp] theorem insertAll_cons (e : Sigma fun _ : κ => V) (es : List (Sigma fun _ : κ => V)) :
    insertAll (e :: es) m = insertAll es (m.insert e.1 e.2) := rfl

variable {es : List (Sigma fun _ : κ => V)}

theorem lookup_insertAll_cases (h : (insertAll es m).lookup k = some v) : ⟨k, v⟩ ∈ es ∨ m.lookup k = some v := by
  induction es generalizing m with
  | nil => exact .inr h
  | cons e es ih =>
    rcases ih h with hmem | hold
    · exact .inl (mem_cons_of_mem e hmem)
    · rw [lookup_insert_eq] at hold
      split at hold
      · rename_i hk
        obtain ⟨k', v'⟩ := e
        cases hk
        cases hold
        exact .inl mem_cons_self
      · exact .inr hold

theorem lookup_insertAll_of_notMem (h : k ∉ es.map (·.1)) : (insertAll es m).lookup k = m.lookup k := by
  induction es generalizing m with
  | nil => rfl
  | cons e es ih =>
    rw [map_cons, mem_cons, not_or] at h
    rw [insertAll_cons, ih h.2, lookup_insert_eq, if_neg h.1]

variable (size) in
theorem total_eraseAll {es : List (Sigma fun _ : κ => V)} (hentries : ∀ e ∈ es, m.lookup e.1 = some e.2)
    (hnodup : (es.map (·.1)).Nodup) :
    total size m = (es.map fun e => size e.2).sum + total size (eraseAll (es.map (·.1)) m) := by
  induction es generalizing m with
  | nil => simp
  | cons e es ih =>
    obtain ⟨hnot, hrest⟩ := nodup_cons.mp hnodup
    have hkept : ∀ e' ∈ es, (m.erase e.1).lookup e'.1 = some e'.2 := by
      intro e' he'
      have hne : e'.1 ≠ e.1 := fun h => hnot (mem_map.mpr ⟨e', he', h⟩)
      rw [lookup_erase_eq, if_neg hne]
      exact hentries e' (mem_cons_of_mem _ he')
    rw [total_erase size (hentries e mem_cons_self), ih hkept hrest, map_cons, map_cons, sum_cons,
      eraseAll_cons, Nat.add_assoc]

end Table

end Rish.Lib
