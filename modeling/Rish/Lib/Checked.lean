/-
  Rish.Lib.Checked — checks that let pass or refuse.

  A check is an `Except` without a value, a checked computation a chain of them. What such a chain has let
  pass is read off its parts: `bind_eq_ok` takes the first step off, `some?_eq_ok` and `mapError_eq_ok` say what a
  value that may be missing and a converted error mean.
-/

import Mathlib.Data.List.Basic

namespace Rish.Lib.Checked

variable {ε ε' α β : Type}

/-- A missing value is the error. -/
def some? (x : Option α) (e : ε) : Except ε α :=
  match x with
  | none => .error e
  | some a => .ok a

variable {x : Except ε α} {f : α → Except ε β} {a : α}

theorem bind_eq_ok {b : β} : (x >>= f) = .ok b ↔ ∃ a, x = .ok a ∧ f a = .ok b := by
  cases x with
  | error e =>
    refine ⟨fun h => (by cases h), ?_⟩
    rintro ⟨a, ha, -⟩
    cases ha
  | ok a =>
    refine ⟨fun h => ⟨a, rfl, h⟩, ?_⟩
    rintro ⟨a', ha, h⟩
    cases ha
    exact h

theorem some?_eq_ok {x} {e : ε} : some? x e = .ok a ↔ x = some a := by
  cases x with
  | none => exact ⟨fun h => (by cases h), fun h => (by cases h)⟩
  | some b => exact ⟨fun h => (by cases h; rfl), fun h => (by cases h; rfl)⟩

theorem mapError_eq_ok {f : ε → ε'} : x.mapError f = .ok a ↔ x = .ok a := by
  cases x with
  | error e => exact ⟨fun h => (by cases h), fun h => (by cases h)⟩
  | ok b => exact ⟨fun h => (by cases h; rfl), fun h => (by cases h; rfl)⟩

end Rish.Lib.Checked
