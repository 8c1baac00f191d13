/-
  Rish.Lib.Observe — machines seen from outside, and programs run on two states at once.

  A machine takes an input and gives an output in each step. Two states are observationally equal when every
  sequence of inputs gets the same outputs from both. `Matches R x`: from states related by `R` a program ends
  alike, in related states; instance search follows the structure of the program, as in `Rish.Lib.Rules`.

  Proved: a relation that every step keeps, with equal outputs, is inside observational equality
  (`ObsEq.of_bisimulation`), and an invariant of the steps holds after every run (`stateAfter_invariant`).
-/

import Rish.Lib.Exec

namespace Rish.Lib

/-! ## Machines -/

section Machine

variable {σ ι ο : Type} (step : σ → ι → ο × σ)

def outputs : σ → List ι → List ο
  | _, [] => []
  | s, i :: inputs => (step s i).1 :: outputs (step s i).2 inputs

def stateAfter : σ → List ι → σ
  | s, [] => s
  | s, i :: inputs => stateAfter (step s i).2 inputs

def ObsEq (s t : σ) : Prop := ∀ inputs, outputs step s inputs = outputs step t inputs

variable {step}

theorem ObsEq.of_bisimulation {R : σ → σ → Prop}
    (h : ∀ s t i, R s t → (step s i).1 = (step t i).1 ∧ R (step s i).2 (step t i).2) {s t : σ} (hst : R s t) :
    ObsEq step s t := by
  intro inputs
  induction inputs generalizing s t with
  | nil => rfl
  | cons i inputs ih =>
    obtain ⟨hout, hnext⟩ := h s t i hst
    rw [outputs, outputs, hout, ih hnext]

theorem stateAfter_invariant {P : σ → Prop} (h : ∀ s i, P s → P (step s i).2) {s : σ} (hs : P s) (inputs : List ι) :
    P (stateAfter step s inputs) := by
  induction inputs generalizing s with
  | nil => exact hs
  | cons i inputs ih => exact ih (h s i hs)

end Machine

/-! ## Programs on related states -/

variable {σ ε α β : Type} {R : σ → σ → Prop}

class Matches (R : σ → σ → Prop) (x : Exec σ ε α) : Prop where
  outcome : ∀ s t, R s t → (x s).outcome = (x t).outcome
  state : ∀ s t, R s t → R (x s).state (x t).state

/-- The same outcome, in related states. -/
def SameRun (R : σ → σ → Prop) (r r' : Run σ ε α) : Prop := r.outcome = r'.outcome ∧ R r.state r'.state

theorem Matches.of_runs {x : Exec σ ε α} (h : ∀ s t, R s t → SameRun R (x s) (x t)) : Matches R x :=
  ⟨fun s t hst => (h s t hst).1, fun s t hst => (h s t hst).2⟩

theorem Matches.runs (x : Exec σ ε α) [hx : Matches R x] {s t} (h : R s t) : SameRun R (x s) (x t) :=
  ⟨hx.outcome s t h, hx.state s t h⟩

instance (a : α) : Matches R (pure a : Exec σ ε α) := ⟨fun _ _ _ => rfl, fun _ _ h => h⟩
instance (e : ε) : Matches R (Exec.fail e : Exec σ ε α) := ⟨fun _ _ _ => rfl, fun _ _ h => h⟩
instance (o : Outcome ε α) : Matches R (Exec.lift o : Exec σ ε α) := ⟨fun _ _ _ => rfl, fun _ _ h => h⟩

theorem Matches.view {f} (h : ∀ s t, R s t → f s = f t) : Matches R (Exec.view f : Exec σ ε α) :=
  ⟨fun s t hst => congrArg Outcome.ok (h s t hst), fun _ _ hst => hst⟩

theorem Matches.query {f : σ → Outcome ε α} (h : ∀ s t, R s t → f s = f t) (n : Nat) : Matches R (Exec.query n f) :=
  ⟨h, fun _ _ hst => hst⟩

theorem Matches.update {f} (h : ∀ s t, R s t → R (f s) (f t)) : Matches R (Exec.update f : Exec σ ε Unit) :=
  ⟨fun _ _ _ => rfl, h⟩

instance (x : Exec σ ε α) (f : α → Exec σ ε β) [hx : Matches R x] [hf : ∀ a, Matches R (f a)] :
    Matches R (x >>= f) := by
  have hboth (s t : σ) (hst : R s t) :
      ((x >>= f) s).outcome = ((x >>= f) t).outcome ∧ R ((x >>= f) s).state ((x >>= f) t).state := by
    have hout := hx.outcome s t hst
    have hstate := hx.state s t hst
    rcases hs : x s with ⟨a | e | _, s', n⟩ <;> rcases ht : x t with ⟨a' | e' | _, t', n'⟩ <;>
      rw [hs, ht] at hout hstate <;> cases hout
    · rw [Exec.bind_ok hs, Exec.bind_ok ht]
      exact ⟨(hf a).outcome s' t' hstate, (hf a).state s' t' hstate⟩
    · rw [Exec.bind_err hs, Exec.bind_err ht]
      exact ⟨rfl, hstate⟩
    · rw [Exec.bind_panic hs, Exec.bind_panic ht]
      exact ⟨rfl, hstate⟩
  exact ⟨fun s t h => (hboth s t h).1, fun s t h => (hboth s t h).2⟩

variable {f : α → Exec σ ε β}

theorem Matches.bind {x} [Matches R x] (hf : ∀ a, Matches R (f a)) : Matches R (x >>= f) :=
  inferInstance

theorem Matches.view_bind {g} (hg : ∀ s t, R s t → f (g s) = f (g t))
    (hf : ∀ s, Matches R (f (g s))) : Matches R (Exec.view g >>= f) where
  outcome s t h := by
    rw [Exec.view_bind, Exec.view_bind, ← hg s t h]
    exact (hf s).outcome s t h
  state s t h := by
    rw [Exec.view_bind, Exec.view_bind, ← hg s t h]
    exact (hf s).state s t h

instance (c : Prop) [Decidable c] (x y : Exec σ ε α) [Matches R x] [Matches R y] : Matches R (if c then x else y) := by
  split <;> infer_instance

instance (x : Exec σ ε α) [hx : Matches R x] : Matches R x.attempt :=
  ⟨fun s t h => congrArg Outcome.ok (hx.outcome s t h), hx.state⟩

end Rish.Lib
