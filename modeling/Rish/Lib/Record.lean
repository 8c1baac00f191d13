/-
  Rish.Lib.Record — runs whose events are allowed where they happen, and records kept along a run.

  Proved: what every allowed event keeps holds after an allowed run (`after_keeps`); a condition of
  each entry on the entries before it is checked entry by entry (`always_snoc`), and holds of
  every earlier record (`always_earlier`).
-/

import Rish.Lib.Cache

namespace Rish.Lib

/-! ## Allowed runs -/

section Runs

variable {σ ι : Type} (next : ι → σ → σ) (allowed : ι → σ → Prop)

def Allowed (s : σ) : List ι → Prop
  | [] => True
  | e :: events => allowed e s ∧ Allowed (next e s) events

instance Allowed.decide [∀ e s, Decidable (allowed e s)] : ∀ s events, Decidable (Allowed next allowed s events)
  | _, [] => .isTrue trivial
  | s, e :: events =>
    have := Allowed.decide (next e s) events
    inferInstanceAs (Decidable (allowed e s ∧ Allowed next allowed (next e s) events))

variable {next allowed} {P : σ → Prop} {s : σ} {events : List ι}

theorem after_keeps (hstep : ∀ e s, allowed e s → P s → P (next e s)) (hrun : Allowed next allowed s events)
    (hs : P s) : P (after next s events) := by
  induction events generalizing s with
  | nil => exact hs
  | cons e events ih => exact ih hrun.2 (hstep e s hrun.1 hs)

end Runs

/-! ## Records -/

section Records

variable {α : Type} (good : List α → α → Prop)

/-- Every entry met the condition at the entries before it. -/
def Always (record : List α) : Prop := ∀ before e later, record = before ++ e :: later → good before e

variable {good} {record : List α} {e : α}

theorem always_nil : Always good [] := by
  intro before e later h
  simp at h

theorem always_snoc : Always good (record ++ [e]) ↔ Always good record ∧ good record e := by
  constructor
  · intro h
    refine ⟨fun before e' later heq => h before e' (later ++ [e]) (by simp [heq]), h record e [] rfl⟩
  · rintro ⟨hrecord, he⟩ before e' later heq
    -- the entry is the new one exactly when nothing follows it
    rcases List.eq_nil_or_concat later with rfl | ⟨later, last, rfl⟩
    · obtain ⟨rfl, h⟩ := List.append_inj' heq rfl
      cases h
      exact he
    · rw [List.concat_eq_append, ← List.cons_append, ← List.append_assoc] at heq
      exact hrecord before e' later (List.append_inj' heq rfl).1

theorem always_earlier {record'} (h : record <+: record') (hgood : Always good record') :
    Always good record := by
  obtain ⟨more, rfl⟩ := h
  intro before e later heq
  exact hgood before e (later ++ more) (by simp [heq])

end Records

end Rish.Lib
