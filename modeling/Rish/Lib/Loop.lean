/-
  Rish.Lib.Loop — loops that make turns until they are done or refused.

  A state either has nothing left to do, or the next turn is refused, or it makes a turn. `turns` runs
  such a loop for a number of rounds and keeps the record of what was done.
-/

namespace Rish.Lib

inductive Next (τ σ : Type) where
  | done
  | refused
  | turn (t : τ) (s : σ)

variable {τ σ : Type}

/-- The turns of at most this many rounds, and the state they lead to. -/
def turns (next : σ → Next τ σ) : Nat → σ → List τ × σ
  | 0, s => ([], s)
  | rounds + 1, s =>
    match next s with
    | .turn t s' => (t :: (turns next rounds s').1, (turns next rounds s').2)
    | _ => ([], s)

/-- The loop ended at a refusal with rounds left. -/
def StopsRefused (next : σ → Next τ σ) (rounds : Nat) (s : σ) : Prop :=
  (turns next rounds s).1.length < rounds ∧ next (turns next rounds s).2 = .refused

section

variable {next : σ → Next τ σ} {rounds : Nat} {s s' : σ} {t : τ}

theorem turns_done (h : next s = .done) : turns next (rounds + 1) s = ([], s) := by rw [turns, h]

theorem turns_refused (h : next s = .refused) : turns next (rounds + 1) s = ([], s) := by rw [turns, h]

theorem turns_turn (h : next s = .turn t s') :
    turns next (rounds + 1) s = (t :: (turns next rounds s').1, (turns next rounds s').2) := by rw [turns, h]

theorem stopsRefused_zero : ¬StopsRefused next 0 s := fun h => absurd h.1 (Nat.not_lt_zero _)

theorem stopsRefused_done (h : next s = .done) : ¬StopsRefused next (rounds + 1) s := by
  rw [StopsRefused, turns_done h, h]
  exact fun h => nomatch h.2

theorem stopsRefused_refused (h : next s = .refused) : StopsRefused next (rounds + 1) s := by
  rw [StopsRefused, turns_refused h]
  exact ⟨Nat.succ_pos _, h⟩

theorem stopsRefused_turn (h : next s = .turn t s') :
    StopsRefused next (rounds + 1) s ↔ StopsRefused next rounds s' := by
  rw [StopsRefused, turns_turn h, StopsRefused, List.length_cons, Nat.add_lt_add_iff_right]

end

end Rish.Lib
