/-
  Rish.Lib.Rules — what every run of a program keeps and how much it costs.

  `Keeps R x`: a run of `x` takes every state to one related by `R`, however it ends. `Ends R S x`: one
  that returns keeps `R`, one that fails keeps `S`. `Cost n x`: a run of `x` makes at most `n` memory
  accesses. `Safe P x`: from a state where `P` holds, `x` does not panic and leaves one where it holds.
  They are classes, so that instance search follows the structure of a program (its
  sequencing and its branches) and a proof names only the leaves.
-/

import Mathlib.Order.Defs.Unbundled
import Mathlib.Order.Lattice
import Rish.Lib.Exec

namespace Rish.Lib

open Exec (fail lift query)
variable {σ τ ε ε' α β : Type}

/-! ## Frames -/

class Keeps (R : σ → σ → Prop) (x : Exec σ ε α) : Prop where
  keeps : ∀ s, R s (x s).state

section Keeps

variable {R : σ → σ → Prop} [IsPreorder σ R]

instance (a : α) : Keeps R (pure a : Exec σ ε α) := ⟨fun s => refl s⟩
instance (f : σ → α) : Keeps R (Exec.view f : Exec σ ε α) := ⟨fun s => refl s⟩
instance (e : ε) : Keeps R (fail e : Exec σ ε α) := ⟨fun s => refl s⟩
instance (o : Outcome ε α) : Keeps R (lift o : Exec σ ε α) := ⟨fun s => refl s⟩
instance (n : Nat) (f : σ → Outcome ε α) : Keeps R (query n f) := ⟨fun s => refl s⟩

instance (x : Exec σ ε α) (f : α → Exec σ ε β) [Keeps R x] [∀ a, Keeps R (f a)] : Keeps R (x >>= f) where
  keeps s := by
    have hx : R s (x s).state := Keeps.keeps s
    simp only [Exec.bind_apply, Exec.bind]
    rcases hr : x s with ⟨a | e | _, t, n⟩ <;> rw [hr] at hx
    · exact IsTrans.trans _ _ _ hx (Keeps.keeps (x := f a) t)
    · exact hx
    · exact hx

theorem Keeps.bind {x : Exec σ ε α} {f : α → Exec σ ε β} [Keeps R x] (hf : ∀ a, Keeps R (f a)) : Keeps R (x >>= f) :=
  inferInstance

instance (c : Prop) [Decidable c] (x : Exec σ ε Unit) [Keeps R x] : Keeps R (Exec.when c x) where
  keeps s := by
    unfold Exec.when
    split
    · exact Keeps.keeps s
    · exact refl s

instance (l : List α) (f : α → Exec σ ε Unit) [∀ a, Keeps R (f a)] : Keeps R (l.forM f) := by
  induction l with
  | nil => exact inferInstanceAs (Keeps R (pure ()))
  | cons a l ih => exact inferInstanceAs (Keeps R (f a >>= fun _ => l.forM f))

omit [IsPreorder σ R]

instance (c : Prop) [Decidable c] (x y : Exec σ ε α) [Keeps R x] [Keeps R y] : Keeps R (if c then x else y) where
  keeps s := by split <;> exact Keeps.keeps s

instance (x : Exec σ ε α) [Keeps R x] : Keeps R x.attempt := ⟨Keeps.keeps (x := x)⟩

theorem Keeps.update {f} (h : ∀ s, R s (f s)) : Keeps R (Exec.update f : Exec σ ε Unit) := ⟨h⟩

theorem Keeps.run {x : Exec σ ε α} [Keeps R x] {s t : σ} {o : Outcome ε α} {n : Nat} (h : x s = ⟨o, t, n⟩) : R s t := by
  have hx := Keeps.keeps (R := R) (x := x) s
  rwa [h] at hx

theorem Keeps.mono {S : σ → σ → Prop} {x : Exec σ ε α} (h : Keeps R x) (hRS : ∀ s t, R s t → S s t) :
    Keeps S x := ⟨fun s => hRS _ _ (h.keeps s)⟩

end Keeps

/-! ## Frames of success and of failure -/

/-- Success before a failure does not spoil it. -/
class Admits (R S : σ → σ → Prop) : Prop where
  weaken : ∀ s t, R s t → S s t
  extend : ∀ s t u, R s t → S t u → S s u

class Ends (R S : σ → σ → Prop) (x : Exec σ ε α) : Prop where
  returned : ∀ s a, (x s).outcome = .ok a → R s (x s).state
  always : ∀ s, S s (x s).state

section Ends

variable {R S : σ → σ → Prop} [IsPreorder σ R] [Admits R S]

instance (priority := low) (x : Exec σ ε α) [Keeps R x] : Ends R S x where
  returned s _ _ := Keeps.keeps s
  always s := Admits.weaken _ _ (Keeps.keeps (R := R) s)

instance (x : Exec σ ε α) (f : α → Exec σ ε β) [Ends R S x] [∀ a, Ends R S (f a)] : Ends R S (x >>= f) where
  returned s b h := by
    rcases hr : x s with ⟨a | e | _, t, n⟩
    · rw [Exec.bind_ok hr] at h ⊢
      have hx : R s t := by simpa only [hr] using Ends.returned (R := R) (S := S) (x := x) s a (by rw [hr])
      exact IsTrans.trans _ _ _ hx (Ends.returned (S := S) (x := f a) t b h)
    · rw [Exec.bind_err hr] at h; cases h
    · rw [Exec.bind_panic hr] at h; cases h
  always s := by
    have hx : S s (x s).state := Ends.always (R := R) s
    rcases hr : x s with ⟨a | e | _, t, n⟩
    · rw [Exec.bind_ok hr]
      have hx : R s t := by simpa only [hr] using Ends.returned (R := R) (S := S) (x := x) s a (by rw [hr])
      exact Admits.extend _ _ _ hx (Ends.always (R := R) (x := f a) t)
    · rw [Exec.bind_err hr]; simpa only [hr] using hx
    · rw [Exec.bind_panic hr]; simpa only [hr] using hx

omit [IsPreorder σ R] [Admits R S] in
instance (c : Prop) [Decidable c] (x y : Exec σ ε α) [hx : Ends R S x] [hy : Ends R S y] :
    Ends R S (if c then x else y) := by
  split
  · exact hx
  · exact hy

end Ends

/-! ## Costs -/

class Cost (n : outParam Nat) (x : Exec σ ε α) : Prop where
  accesses_le : ∀ s, (x s).accesses ≤ n

section Cost

variable {m n : Nat}

instance (a : α) : Cost 0 (pure a : Exec σ ε α) := ⟨fun _ => Nat.le_refl 0⟩
instance (e : ε) : Cost 0 (fail e : Exec σ ε α) := ⟨fun _ => Nat.le_refl 0⟩
instance (o : Outcome ε α) : Cost 0 (lift o : Exec σ ε α) := ⟨fun _ => Nat.le_refl 0⟩
instance (f : σ → Outcome ε α) : Cost n (query n f) := ⟨fun _ => Nat.le_refl n⟩

instance (x : Exec σ ε α) (f : α → Exec σ ε β) [Cost m x] [∀ a, Cost n (f a)] : Cost (m + n) (x >>= f) where
  accesses_le s := by
    have hx : (x s).accesses ≤ m := Cost.accesses_le s
    simp only [Exec.bind_apply, Exec.bind]
    rcases hr : x s with ⟨a | e | _, t, k⟩ <;> rw [hr] at hx
    · exact Nat.add_le_add hx (Cost.accesses_le (x := f a) t)
    · exact Nat.le_add_right_of_le hx
    · exact Nat.le_add_right_of_le hx

instance (c : Prop) [Decidable c] (x y : Exec σ ε α) [Cost m x] [Cost n y] : Cost (max m n) (if c then x else y) where
  accesses_le s := by
    split
    · exact Nat.le_trans (Cost.accesses_le s) (Nat.le_max_left m n)
    · exact Nat.le_trans (Cost.accesses_le s) (Nat.le_max_right m n)

theorem Cost.bind {x : Exec σ ε α} {f : α → Exec σ ε β} (hx : Cost m x) (hf : ∀ a, Cost n (f a)) :
    Cost (m + n) (x >>= f) := inferInstance

theorem Cost.mono {x : Exec σ ε α} (h : Cost m x) (hmn : m ≤ n) : Cost n x :=
  ⟨fun s => Nat.le_trans (h.accesses_le s) hmn⟩

end Cost

/-! ## Safety -/

class Safe (P : σ → Prop) (x : Exec σ ε α) : Prop where
  safe : ∀ s, P s → (x s).outcome ≠ .panic ∧ P (x s).state

section Safe

variable {P : σ → Prop}

instance (a : α) : Safe P (pure a : Exec σ ε α) := ⟨fun _ h => ⟨nofun, h⟩⟩
instance (f : σ → α) : Safe P (Exec.view f : Exec σ ε α) := ⟨fun _ h => ⟨nofun, h⟩⟩
instance (e : ε) : Safe P (fail e : Exec σ ε α) := ⟨fun _ h => ⟨nofun, h⟩⟩

theorem Safe.query {n : Nat} {f : σ → Outcome ε α} (h : ∀ s, P s → f s ≠ .panic) : Safe P (query n f) :=
  ⟨fun s hs => ⟨h s hs, hs⟩⟩

theorem Safe.update {f} (h : ∀ s, P s → P (f s)) : Safe P (Exec.update f : Exec σ ε Unit) :=
  ⟨fun s hs => ⟨nofun, h s hs⟩⟩

theorem Safe.lift {o} (h : o ≠ .panic) : Safe P (lift o : Exec σ ε α) := ⟨fun _ hs => ⟨h, hs⟩⟩

theorem Safe.bind_returned {x : Exec σ ε α} {f : α → Exec σ ε β} (Q : α → Prop) [hx : Safe P x]
    (hreturned : ∀ s a, P s → (x s).outcome = .ok a → Q a) (hf : ∀ a, Q a → Safe P (f a)) : Safe P (x >>= f) where
  safe s hs := by
    obtain ⟨hpanic, ht⟩ := hx.safe s hs
    rcases hr : x s with ⟨a | e | _, t, n⟩ <;> rw [hr] at hpanic ht
    · rw [Exec.bind_ok hr]
      exact (hf a (hreturned s a hs (by rw [hr]))).safe t ht
    · rw [Exec.bind_err hr]
      exact ⟨nofun, ht⟩
    · exact absurd rfl hpanic

instance (x : Exec σ ε α) (f : α → Exec σ ε β) [Safe P x] [∀ a, Safe P (f a)] : Safe P (x >>= f) :=
  .bind_returned (fun _ => True) (fun _ _ _ _ => trivial) fun _ _ => inferInstance

instance (c : Prop) [Decidable c] (x y : Exec σ ε α) [Safe P x] [Safe P y] : Safe P (if c then x else y) where
  safe s hs := by split <;> exact Safe.safe s hs

theorem Safe.attempt_bind {x : Exec σ ε α} {f : Outcome ε α → Exec σ ε β} [hx : Safe P x]
    (hf : ∀ o, o ≠ .panic → Safe P (f o)) : Safe P (x.attempt >>= f) := by
  have : Safe P x.attempt := ⟨fun s hs => ⟨nofun, (hx.safe s hs).2⟩⟩
  refine .bind_returned (· ≠ .panic) (fun s o hs ho => ?_) hf
  cases ho
  exact (hx.safe s hs).1

end Safe

end Rish.Lib
