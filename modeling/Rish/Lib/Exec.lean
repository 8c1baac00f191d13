/-
  Rish.Lib.Exec — calls that return, report an error or abort the host, and programs made of
  such calls over a mutable state.

  `Outcome` is the result of one call. `Exec σ ε` is a program over a state `σ`: it ends in an
  outcome and in a state, also when it fails (an error does not undo what was done before it),
  and it counts the memory accesses it made on the way.

  Proved: the monad laws of programs (`LawfulMonad`), and how a sequence runs (`bind_ok`, `bind_err`,
  `bind_panic`, `bind_eq_ok`, `mapErr_bind`).
-/

import Mathlib.Tactic.Ring

namespace Rish.Lib

/-! ## Calls -/

/-- `panic` is an abort of the host: an index or a slice out of range, an arithmetic overflow. -/
inductive Outcome (ε α : Type) where
  | ok (value : α)
  | err (error : ε)
  | panic
  deriving DecidableEq, Repr

namespace Outcome

variable {ε ε' α β : Type}

def bind (x : Outcome ε α) (f : α → Outcome ε β) : Outcome ε β :=
  match x with
  | .ok a => f a
  | .err e => .err e
  | .panic => .panic

instance : Monad (Outcome ε) where
  pure := .ok
  bind := Outcome.bind

@[simp] theorem pure_eq (a : α) : (pure a : Outcome ε α) = .ok a := rfl
@[simp] theorem bind_ok (a : α) (f : α → Outcome ε β) : (Outcome.ok a >>= f) = f a := rfl
@[simp] theorem bind_err (e : ε) (f : α → Outcome ε β) : (Outcome.err e >>= f) = .err e := rfl
@[simp] theorem bind_panic (f : α → Outcome ε β) : ((Outcome.panic : Outcome ε α) >>= f) = .panic := rfl

theorem bind_eq_ok {x : Outcome ε α} {f : α → Outcome ε β} {b : β} :
    (x >>= f) = .ok b ↔ ∃ a, x = .ok a ∧ f a = .ok b := by
  cases x <;> simp

def mapErr (f : ε → ε') : Outcome ε α → Outcome ε' α
  | .ok a => .ok a
  | .err e => .err (f e)
  | .panic => .panic

/-- The value of a subscript `i` into something of length `n`, when it is in range. -/
def index {n : Nat} (f : Fin n → α) (i : Nat) : Outcome ε α :=
  if h : i < n then .ok (f ⟨i, h⟩) else .panic

def slice (n bound : Nat) : Outcome ε Unit := if n ≤ bound then .ok () else .panic

/-- Unsigned addition without an overflow check. -/
def add {w : Nat} (a b : BitVec w) : Outcome ε (BitVec w) :=
  if a.toNat + b.toNat < 2 ^ w then .ok (a + b) else .panic

/-- Two runs that failed alike. -/
inductive SameFailure : Outcome ε α → Outcome ε β → Prop where
  | err (e : ε) : SameFailure (.err e) (.err e)
  | panic : SameFailure .panic .panic

theorem SameFailure.ne_ok {x : Outcome ε α} {y : Outcome ε β} (h : x.SameFailure y) (b : β) : y ≠ .ok b := by
  cases h <;> simp

theorem SameFailure.trans {γ : Type} {x : Outcome ε α} {y : Outcome ε β} {z : Outcome ε γ} (h : x.SameFailure y)
    (h' : y.SameFailure z) : x.SameFailure z := by
  cases h <;> cases h'
  · exact .err _
  · exact .panic

theorem index_ok {n f i} (h : i < n) :
    (index f i : Outcome ε α) = .ok (f ⟨i, h⟩) := dif_pos h

theorem slice_ok {n bound} (h : n ≤ bound) : (slice n bound : Outcome ε Unit) = .ok () := if_pos h

theorem slice_panic {n bound} (h : bound < n) : (slice n bound : Outcome ε Unit) = .panic :=
  if_neg (by omega)

end Outcome

/-! ## Programs -/

/-- How a run ended. -/
structure Run (σ ε α : Type) where
  outcome : Outcome ε α
  state : σ
  accesses : Nat

def Run.after {σ ε α : Type} (n : Nat) (r : Run σ ε α) : Run σ ε α := { r with accesses := n + r.accesses }

section

variable {σ ε α : Type}

theorem Run.eq_of_outcome {r : Run σ ε α} {o} (h : r.outcome = o) : r = ⟨o, r.state, r.accesses⟩ := by
  rw [← h]

@[simp] theorem Run.after_zero (r : Run σ ε α) : r.after 0 = r := by
  simp only [Run.after, Nat.zero_add]

@[simp] theorem Run.after_mk (n : Nat) (o : Outcome ε α) (s : σ) (k : Nat) :
    Run.after n ⟨o, s, k⟩ = ⟨o, s, n + k⟩ := rfl

theorem Run.of_after {r : Run σ ε α} {k : Nat} {o} {s : σ} {n : Nat}
    (h : r.after k = ⟨o, s, n⟩) : r = ⟨o, s, r.accesses⟩ := by
  injection h with ho hs
  rw [← ho, ← hs]

@[simp] theorem Run.after_outcome (n : Nat) (r : Run σ ε α) : (r.after n).outcome = r.outcome := rfl
@[simp] theorem Run.after_state (n : Nat) (r : Run σ ε α) : (r.after n).state = r.state := rfl

end

def Exec (σ ε α : Type) : Type := σ → Run σ ε α

namespace Exec

variable {σ ε α β γ : Type} (x : Exec σ ε α)

def bind (f : α → Exec σ ε β) : Exec σ ε β := fun s =>
  let r := x s
  match r.outcome with
  | .ok a => (f a r.state).after r.accesses
  | .err e => ⟨.err e, r.state, r.accesses⟩
  | .panic => ⟨.panic, r.state, r.accesses⟩

instance : Monad (Exec σ ε) where
  pure a := fun s => ⟨.ok a, s, 0⟩
  bind := Exec.bind

/-- The value of a function of the state. -/
def view (f : σ → α) : Exec σ ε α := fun s => ⟨.ok (f s), s, 0⟩

def update (f : σ → σ) : Exec σ ε Unit := fun s => ⟨.ok (), f s, 0⟩

def fail (e : ε) : Exec σ ε α := fun s => ⟨.err e, s, 0⟩

def lift (o : Outcome ε α) : Exec σ ε α := fun s => ⟨o, s, 0⟩

/-- A call on the state that changes nothing and makes `n` memory accesses. -/
def query (n : Nat) (f : σ → Outcome ε α) : Exec σ ε α := fun s => ⟨f s, s, n⟩

/-- Run with a failure given back as a value: the state stays where the failure left it. -/
def attempt : Exec σ ε (Outcome ε α) := fun s =>
  let r := x s
  ⟨.ok r.outcome, r.state, r.accesses⟩

/-- The program with its errors renamed. -/
def mapErr {ε' : Type} (f : ε → ε') (x : Exec σ ε α) : Exec σ ε' α := fun s =>
  let r := x s
  ⟨r.outcome.mapErr f, r.state, r.accesses⟩

/-- A program over a part of the state. -/
def zoom {τ : Type} (get : τ → σ) (set : τ → σ → τ) (x : Exec σ ε α) : Exec τ ε α := fun t =>
  let r := x (get t)
  ⟨r.outcome, set t r.state, r.accesses⟩

def when (c : Prop) [Decidable c] (x : Exec σ ε Unit) : Exec σ ε Unit := if c then x else pure ()

@[simp] theorem pure_apply (a : α) (s : σ) : (pure a : Exec σ ε α) s = ⟨.ok a, s, 0⟩ := rfl
@[simp] theorem view_apply (f) (s : σ) : (view f : Exec σ ε α) s = ⟨.ok (f s), s, 0⟩ := rfl
@[simp] theorem update_apply (f) (s : σ) : (update f : Exec σ ε Unit) s = ⟨.ok (), f s, 0⟩ := rfl
@[simp] theorem fail_apply (e : ε) (s : σ) : (fail e : Exec σ ε α) s = ⟨.err e, s, 0⟩ := rfl
@[simp] theorem lift_apply (o : Outcome ε α) (s : σ) : lift o s = ⟨o, s, 0⟩ := rfl
@[simp] theorem query_apply (n : Nat) (f : σ → Outcome ε α) (s : σ) : query n f s = ⟨f s, s, n⟩ := rfl

@[simp] theorem mapErr_apply {ε' : Type} (f : ε → ε') (x : Exec σ ε α) (s : σ) :
    x.mapErr f s = ⟨(x s).outcome.mapErr f, (x s).state, (x s).accesses⟩ := rfl
@[simp] theorem zoom_apply {τ : Type} (get : τ → σ) (set : τ → σ → τ) (x : Exec σ ε α) (t : τ) :
    x.zoom get set t = ⟨(x (get t)).outcome, set t (x (get t)).state, (x (get t)).accesses⟩ := rfl

theorem bind_apply (f : α → Exec σ ε β) (s : σ) : (x >>= f) s = Exec.bind x f s := rfl

variable {x : Exec σ ε α} {f : α → Exec σ ε β} {s t : σ} {n : Nat}

theorem bind_ok {a : α} (h : x s = ⟨.ok a, t, n⟩) : (x >>= f) s = (f a t).after n := by
  simp only [bind_apply, bind, h]

theorem bind_err {e : ε} (h : x s = ⟨.err e, t, n⟩) : (x >>= f) s = ⟨.err e, t, n⟩ := by
  simp only [bind_apply, bind, h]

theorem bind_panic (h : x s = ⟨.panic, t, n⟩) : (x >>= f) s = ⟨.panic, t, n⟩ := by
  simp only [bind_apply, bind, h]

@[simp] theorem view_bind {α' : Type} (g : σ → α') (f : α' → Exec σ ε β) (s : σ) : (view g >>= f) s = f (g s) s :=
  (bind_ok (view_apply g s)).trans (Run.after_zero _)

@[simp] theorem update_bind (g : σ → σ) (f : Unit → Exec σ ε β) (s : σ) : (update g >>= f) s = f () (g s) :=
  (bind_ok (update_apply g s)).trans (Run.after_zero _)

@[simp] theorem lift_ok_bind {α' : Type} (a : α') (f : α' → Exec σ ε β) : (lift (.ok a) >>= f) = f a :=
  funext fun s => (bind_ok (lift_apply (.ok a) s)).trans (Run.after_zero _)

@[simp] theorem lift_panic_bind {α' : Type} (f : α' → Exec σ ε β) : (lift .panic >>= f) = lift .panic :=
  funext fun s => bind_panic (lift_apply .panic s)

@[simp] theorem fail_bind {α' : Type} (e : ε) (f : α' → Exec σ ε β) : (fail e >>= f) = fail e :=
  funext fun s => bind_err (fail_apply e s)

instance : LawfulMonad (Exec σ ε) := LawfulMonad.mk' (Exec σ ε)
  (fun x => by
    funext s
    simp only [Functor.map, bind, Function.comp]
    rcases x s with ⟨a | e | _, t, n⟩ <;> rfl)
  (fun a f => by
    funext s
    exact (bind_ok (pure_apply a s)).trans (Run.after_zero _))
  (fun x f g => by
    funext s
    simp only [bind_apply, bind]
    rcases x s with ⟨a | e | _, t, n⟩
    · rcases hy : f a t with ⟨b | e | _, u, m⟩ <;> simp only [hy, Run.after, Nat.add_assoc]
    · rfl
    · rfl)

theorem mapErr_bind {ε' : Type} (g : ε → ε') (x : Exec σ ε α) (f : α → Exec σ ε β) :
    (x >>= f).mapErr g = x.mapErr g >>= fun a => (f a).mapErr g := by
  funext s
  simp only [mapErr_apply, bind_apply, bind]
  rcases x s with ⟨a | e | _, t, n⟩ <;> rfl

@[simp] theorem mapErr_pure {ε' : Type} (g : ε → ε') (a : α) : (pure a : Exec σ ε α).mapErr g = pure a := rfl
@[simp] theorem mapErr_fail {ε' : Type} (g : ε → ε') (e : ε) : (fail e : Exec σ ε α).mapErr g = fail (g e) := rfl
@[simp] theorem mapErr_ite {ε' : Type} (g : ε → ε') (c : Prop) [Decidable c] (x y : Exec σ ε α) :
    (if c then x else y).mapErr g = if c then x.mapErr g else y.mapErr g := by split <;> rfl

theorem bind_failure (h : ∀ a, (x s).outcome ≠ .ok a) :
    (x s).outcome.SameFailure ((x >>= f) s).outcome ∧ ((x >>= f) s).state = (x s).state := by
  rcases hx : x s with ⟨a | e | _, t, n⟩
  · exact absurd (congrArg Run.outcome hx) (h a)
  · rw [bind_err hx]
    exact ⟨.err e, rfl⟩
  · rw [bind_panic hx]
    exact ⟨.panic, rfl⟩

theorem bind_eq_ok {b : β} {u : σ} {k : Nat} (h : (x >>= f) s = ⟨.ok b, u, k⟩) :
    ∃ a t n m, x s = ⟨.ok a, t, n⟩ ∧ f a t = ⟨.ok b, u, m⟩ ∧ k = n + m := by
  rcases hx : x s with ⟨a | e | _, t, n⟩
  · rw [bind_ok hx] at h
    injection h with ho hs hk
    exact ⟨a, t, n, (f a t).accesses, rfl, by rw [← ho, ← hs], hk.symm⟩
  · rw [bind_err hx] at h; cases h
  · rw [bind_panic hx] at h; cases h

theorem bind_congr_ok {g} (h : ∀ a t n, x s = ⟨.ok a, t, n⟩ → f a t = g a t) :
    (x >>= f) s = (x >>= g) s := by
  rcases hx : x s with ⟨a | e | _, t, n⟩
  · rw [bind_ok hx, bind_ok hx, h a t n hx]
  · rw [bind_err hx, bind_err hx]
  · rw [bind_panic hx, bind_panic hx]

end Exec

end Rish.Lib
