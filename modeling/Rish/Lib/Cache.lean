/-
  Rish.Lib.Cache — runs of a machine as lists of events, and a cached copy of something that changes
  along a run.

  The cache is told of a change only by the events that drop the copy. A run is settled when every
  change of the source is followed by such an event.

  Proved: after a settled run the copy, if there still is one, is what the source says
  (`held_of_settled`).
-/

import Mathlib.Data.List.Induction

namespace Rish.Lib

open List

variable {σ ι ω α : Type} (next : ι → σ → σ)

/-! ## Runs -/

variable (s : σ)

def after (events : List ι) : σ := events.foldl (fun s e => next e s) s

@[simp] theorem after_nil : after next s [] = s := rfl

@[simp] theorem after_cons (e : ι) (events : List ι) :
    after next s (e :: events) = after next (next e s) events := rfl

@[simp] theorem after_append (events later : List ι) :
    after next s (events ++ later) = after next (after next s events) later := foldl_append

/-! ## A cached copy -/

variable (source : σ → ω) (cached : σ → Option α) (agrees : ω → α → Prop) (drops : ι → Prop)

/-- A copy that is there is what the source says. -/
def Held (s : σ) : Prop := ∀ a, cached s = some a → agrees (source s) a

/-- Every change of the source has an event at or after it that drops the copy. -/
def Settled (s : σ) (events : List ι) : Prop :=
  ∀ before e later, events = before ++ e :: later →
    source (next e (after next s before)) ≠ source (after next s before) → ∃ d ∈ e :: later, drops d

variable {next source cached agrees drops} {s : σ} {events : List ι} {e : ι}

theorem settled_snoc : Settled next source drops s (events ++ [e]) ↔
    drops e ∨ (Settled next source drops s events ∧
      source (next e (after next s events)) = source (after next s events)) := by
  constructor
  · intro h
    by_cases hd : drops e
    · exact .inl hd
    refine .inr ⟨?_, ?_⟩
    · intro before d later hsplit hchange
      obtain ⟨d', hmem, hdrops⟩ := h before d (later ++ [e]) (by simp [hsplit]) hchange
      rw [← cons_append, mem_append, mem_singleton] at hmem
      rcases hmem with hmem | rfl
      · exact ⟨d', hmem, hdrops⟩
      · exact absurd hdrops hd
    · by_contra hchange
      obtain ⟨d, hmem, hdrops⟩ := h events e [] rfl hchange
      rw [mem_singleton] at hmem
      exact hd (hmem ▸ hdrops)
  · intro h before d later hsplit hchange
    rcases later.eq_nil_or_concat with rfl | ⟨later, x, rfl⟩
    · obtain ⟨rfl, hlast⟩ := append_inj' hsplit rfl
      cases hlast
      refine ⟨e, mem_singleton_self e, ?_⟩
      exact h.resolve_right fun h => hchange h.2
    · rw [concat_eq_append, ← cons_append, ← append_assoc] at hsplit
      obtain ⟨rfl, hlast⟩ := append_inj' hsplit rfl
      cases hlast
      rcases h with hdrops | ⟨hsettled, -⟩
      · exact ⟨e, by simp, hdrops⟩
      · obtain ⟨d', hmem, hdrops⟩ := hsettled before d later rfl hchange
        exact ⟨d', by rw [concat_eq_append, ← cons_append]; exact mem_append_left _ hmem, hdrops⟩

theorem held_of_settled (dropped : ∀ s e, drops e → cached (next e s) = none)
    (kept : ∀ s e, ¬drops e → source (next e s) = source s → Held source cached agrees s →
      Held source cached agrees (next e s))
    (h0 : Held source cached agrees s) (hs : Settled next source drops s events) :
    Held source cached agrees (after next s events) := by
  induction events using List.reverseRecOn with
  | nil => exact h0
  | append_singleton events e ih =>
    rw [after_append, after_cons, after_nil]
    by_cases hd : drops e
    · intro a ha
      rw [dropped _ _ hd] at ha
      cases ha
    · rcases settled_snoc.mp hs with h | ⟨hsettled, hsame⟩
      · exact absurd h hd
      · exact kept _ _ hd hsame (ih hsettled)

end Rish.Lib
