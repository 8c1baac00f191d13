/-
  Rish.Lib.Pieces — a stream cut into numbered pieces, the last one marked.

  Several streams in one queue are told apart by a tag on each item.

  Proved: what one more piece makes of an open stream (`Open.snoc`, `Open.finish`), and what a queue of tagged items
  holds of one source (`filter_tagged`, `filter_tagged_of_notMem`).
-/

import Mathlib.Data.List.Basic

namespace Rish.Lib

open List

structure Piece (α : Type) where
  number : Nat
  data : List α
  last : Bool

namespace Piece

variable {α : Type}

def content (pieces : List (Piece α)) : List α := pieces.flatMap Piece.data

/-- Numbered from zero, and none of them the last. -/
structure Open (pieces : List (Piece α)) : Prop where
  numbered : pieces.map Piece.number = List.range pieces.length
  unmarked : ∀ p ∈ pieces, p.last = false

/-- An open stream and its last piece. -/
def Ended (pieces : List (Piece α)) : Prop :=
  ∃ before piece, pieces = before ++ [piece] ∧ Open before ∧ piece.number = before.length ∧ piece.last = true

theorem open_nil : Open ([] : List (Piece α)) := ⟨rfl, by simp⟩

@[simp] theorem content_snoc (pieces) (piece : Piece α) :
    content (pieces ++ [piece]) = content pieces ++ piece.data := by
  simp [content]

variable {pieces : List (Piece α)}

theorem Open.snoc (h : Open pieces) (data) : Open (pieces ++ [⟨pieces.length, data, false⟩]) := by
  refine ⟨?_, ?_⟩
  · rw [map_append, h.numbered, length_append, length_singleton, range_succ]
    rfl
  · intro p hp
    rcases mem_append.mp hp with hp | hp
    · exact h.unmarked p hp
    · rw [mem_singleton.mp hp]

theorem Open.finish (h : Open pieces) (data) : Ended (pieces ++ [⟨pieces.length, data, true⟩]) :=
  ⟨pieces, _, rfl, h, rfl, rfl⟩

theorem Ended.numbered (h : Ended pieces) : pieces.map Piece.number = List.range pieces.length := by
  obtain ⟨before, piece, rfl, hopen, hnumber, -⟩ := h
  rw [map_append, hopen.numbered, length_append, length_singleton, range_succ, map_singleton,
    hnumber]

end Piece

/-! ## Tagged items -/

section

variable {α β : Type} (tag : α → Nat) (items : α → List β)

def tagged (sources : List α) : List (Nat × β) := sources.flatMap fun a => (items a).map fun b => (tag a, b)

variable {sources : List α}

theorem filter_tagged_of_notMem {t} (h : t ∉ sources.map tag) :
    (tagged tag items sources).filter (fun e => e.1 = t) = [] := by
  rw [filter_eq_nil_iff]
  intro e he
  obtain ⟨a, ha, he⟩ := mem_flatMap.mp he
  obtain ⟨b, -, rfl⟩ := mem_map.mp he
  simp only [decide_eq_true_eq]
  intro heq
  exact h (heq ▸ mem_map_of_mem ha)

theorem filter_tagged (hnodup : (sources.map tag).Nodup) {a : α} (ha : a ∈ sources) :
    (tagged tag items sources).filter (fun e => e.1 = tag a) = (items a).map fun b => (tag a, b) := by
  induction sources with
  | nil => cases ha
  | cons x rest ih =>
    rw [map_cons, nodup_cons] at hnodup
    have hsplit : tagged tag items (x :: rest) = ((items x).map fun b => (tag x, b)) ++ tagged tag items rest := rfl
    rw [hsplit, filter_append]
    rcases mem_cons.mp ha with rfl | ha
    · rw [filter_tagged_of_notMem tag items hnodup.1, append_nil, filter_eq_self]
      intro e he
      obtain ⟨b, -, rfl⟩ := mem_map.mp he
      exact decide_eq_true rfl
    · rw [ih hnodup.2 ha]
      have hne : tag x ≠ tag a := fun heq => hnodup.1 (heq ▸ mem_map_of_mem ha)
      have hnone : ((items x).map fun b => (tag x, b)).filter (fun e => e.1 = tag a) = [] := by
        rw [filter_eq_nil_iff]
        intro e he
        obtain ⟨b, -, rfl⟩ := mem_map.mp he
        simpa using hne
      rw [hnone, nil_append]

end

end Rish.Lib
