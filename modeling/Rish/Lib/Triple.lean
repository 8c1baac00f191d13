/-
  Rish.Lib.Triple — what a program keeps and what it returns.

  `Meets I P x Q`: from a state where `I` and `P` hold, a run of `x` leaves `I` true however it ends, and
  `Q` true of the value it returns. `I` is what may never be broken, also by a run that fails half way; `P`
  and `Q` are what a run builds on and what the next one may build on.

  Proved: the rules for the parts of a program (`Meets.bind`, `Meets.result`, `Meets.mapErr`, `Meets.guard`),
  for a loop over a list (`Meets.forM`) and for a loop that carries a value (`Meets.foldM`).
-/

import Rish.Lib.Exec

namespace Rish.Lib

variable {σ ε ε' α β : Type}

namespace Exec

/-- A failed call given back as a value. -/
def result (x : Exec σ ε α) : Exec σ ε' (Except ε α) := fun s =>
  let r := x s
  match r.outcome with
  | .ok a => ⟨.ok (.ok a), r.state, r.accesses⟩
  | .err e => ⟨.ok (.error e), r.state, r.accesses⟩
  | .panic => ⟨.panic, r.state, r.accesses⟩

/-- A computed value, or its error. -/
def ofExcept : Except ε α → Exec σ ε α
  | .ok a => pure a
  | .error e => fail e

/-- A loop over a list that carries a value. -/
def foldM (f : β → α → Exec σ ε β) : β → List α → Exec σ ε β
  | b, [] => pure b
  | b, a :: as => f b a >>= fun b => foldM f b as

/-- The second program is run when the first failed, and decides nothing. -/
def onFailure (x : Exec σ ε α) (cleanup : Exec σ ε' β) : Exec σ ε α := fun s =>
  let r := x s
  match r.outcome with
  | .ok _ => r
  | _ =>
    let c := cleanup r.state
    ⟨r.outcome, c.state, r.accesses + c.accesses⟩

end Exec

def Meets (I P : σ → Prop) (x : Exec σ ε α) (Q : α → σ → Prop) : Prop :=
  ∀ s, I s → P s → I (x s).state ∧ ∀ a, (x s).outcome = .ok a → Q a (x s).state

/-- What holds of a value given back, or of the error given back in its place. -/
def Either (Q : α → σ → Prop) (E : ε → σ → Prop) : Except ε α → σ → Prop
  | .ok a => Q a
  | .error e => E e

namespace Meets

variable {I P P' : σ → Prop} {Q Q' : α → σ → Prop} {R : β → σ → Prop} {x : Exec σ ε α} {f : α → Exec σ ε β}

theorem pure {a : α} (h : ∀ s, I s → P s → Q a s) : Meets I P (Pure.pure a : Exec σ ε α) Q := by
  intro s hI hP
  refine ⟨hI, ?_⟩
  intro b hb
  cases hb
  exact h s hI hP

theorem fail {e : ε} : Meets I P (Exec.fail e : Exec σ ε α) Q := by
  intro s hI _
  refine ⟨hI, ?_⟩
  intro a ha
  cases ha

theorem update {f} {Q : Unit → σ → Prop} (h : ∀ s, I s → P s → I (f s) ∧ Q () (f s)) :
    Meets I P (Exec.update f : Exec σ ε Unit) Q := by
  intro s hI hP
  obtain ⟨hkept, hQ⟩ := h s hI hP
  refine ⟨hkept, ?_⟩
  intro a _
  exact hQ

theorem view {f} (h : ∀ s, I s → P s → Q (f s) s) : Meets I P (Exec.view f : Exec σ ε α) Q := by
  intro s hI hP
  refine ⟨hI, ?_⟩
  intro a ha
  cases ha
  exact h s hI hP

theorem ofExcept {r : Except ε α} (h : ∀ a, r = .ok a → ∀ s, I s → P s → Q a s) : Meets I P (Exec.ofExcept r) Q := by
  cases r with
  | ok a => exact .pure (h a rfl)
  | error e => exact .fail

theorem bind (hx : Meets I P x Q) (hf : ∀ a, Meets I (Q a) (f a) R) : Meets I P (x >>= f) R := by
  intro s hI hP
  obtain ⟨hkept, hreturned⟩ := hx s hI hP
  rcases hr : x s with ⟨a | e | _, t, n⟩ <;> rw [hr] at hkept hreturned
  · rw [Exec.bind_ok hr]
    exact hf a t hkept (hreturned a rfl)
  · rw [Exec.bind_err hr]
    refine ⟨hkept, ?_⟩
    intro b hb
    cases hb
  · rw [Exec.bind_panic hr]
    refine ⟨hkept, ?_⟩
    intro b hb
    cases hb

theorem weaken (h : Meets I P x Q) (hP : ∀ s, I s → P' s → P s) (hQ : ∀ a s, I s → Q a s → Q' a s) :
    Meets I P' x Q' := by
  intro s hI hs
  obtain ⟨hkept, hreturned⟩ := h s hI (hP s hI hs)
  exact ⟨hkept, fun a ha => hQ a _ hkept (hreturned a ha)⟩

theorem pre (h : Meets I P x Q) (hP : ∀ s, I s → P' s → P s) : Meets I P' x Q := h.weaken hP fun _ _ _ hQ => hQ

theorem post (h : Meets I P x Q) (hQ : ∀ a s, I s → Q a s → Q' a s) : Meets I P x Q' := h.weaken (fun _ _ hP => hP) hQ

theorem strengthen {J : σ → Prop} (h : Meets J P x Q) (hJ : ∀ s, J s → I s) :
    Meets I (fun s => J s ∧ P s) x fun a s => J s ∧ Q a s := by
  intro s _ hP
  obtain ⟨hkept, hreturned⟩ := h s hP.1 hP.2
  exact ⟨hJ _ hkept, fun a ha => ⟨hkept, hreturned a ha⟩⟩

theorem of_fact {p : Prop} (hp : ∀ s, P s → p) (h : p → Meets I P x Q) : Meets I P x Q :=
  fun s hI hP => h (hp s hP) s hI hP

theorem mapErr {g : ε → ε'} (h : Meets I P x Q) : Meets I P (x.mapErr g) Q := by
  intro s hI hP
  obtain ⟨hkept, hreturned⟩ := h s hI hP
  refine ⟨hkept, ?_⟩
  intro a ha
  rw [Exec.mapErr_apply] at ha
  apply hreturned a
  rcases hr : (x s).outcome with b | e | _ <;> rw [hr] at ha
  · cases ha
    rfl
  · cases ha
  · cases ha

theorem result {E : ε → σ → Prop} (h : Meets I P x Q)
    (hE : ∀ s, I s → P s → ∀ e, (x s).outcome = .err e → E e (x s).state) :
    Meets I P (x.result : Exec σ ε' (Except ε α)) (Either Q E) := by
  intro s hI hP
  obtain ⟨hkept, hreturned⟩ := h s hI hP
  have hfailed := hE s hI hP
  unfold Exec.result
  rcases hr : x s with ⟨a | e | _, t, n⟩ <;> rw [hr] at hkept hreturned hfailed
  · refine ⟨hkept, ?_⟩
    intro r hr'
    cases hr'
    exact hreturned a rfl
  · refine ⟨hkept, ?_⟩
    intro r hr'
    cases hr'
    exact hfailed e rfl
  · refine ⟨hkept, ?_⟩
    intro r hr'
    cases hr'

theorem guard {c : Prop} [Decidable c] {x y : Exec σ ε α} (hx : c → Meets I P x Q) (hy : ¬c → Meets I P y Q) :
    Meets I P (if c then x else y) Q := by
  split
  · exact hx ‹_›
  · exact hy ‹_›

theorem when {c : Prop} [Decidable c] {x : Exec σ ε Unit} {Q : Unit → σ → Prop} (hx : c → Meets I P x Q)
    (hskip : ¬c → ∀ s, I s → P s → Q () s) : Meets I P (Exec.when c x) Q := by
  unfold Exec.when
  exact guard hx fun h => .pure (hskip h)

theorem forM {l : List α} {f : α → Exec σ ε Unit} (h : ∀ a ∈ l, Meets I P (f a) fun _ => P) :
    Meets I P (l.forM f) fun _ => P := by
  induction l with
  | nil => exact .pure fun _ _ hP => hP
  | cons a l ih =>
    show Meets I P (f a >>= fun _ => l.forM f) _
    exact (h a List.mem_cons_self).bind fun _ => ih fun b hb => h b (List.mem_cons_of_mem a hb)

theorem foldM {P : β → List α → σ → Prop} {f : β → α → Exec σ ε β}
    (h : ∀ b a as, Meets I (P b (a :: as)) (f b a) fun b => P b as) :
    ∀ (l : List α) (b : β), Meets I (P b l) (Exec.foldM f b l) fun b => P b [] := by
  intro l
  induction l with
  | nil => exact fun b => .pure fun _ _ hP => hP
  | cons a as ih => exact fun b => (h b a as).bind fun b => ih b

theorem onFailure {cleanup : Exec σ ε' β} {F : σ → Prop} (h : Meets I P x Q)
    (hF : ∀ s, I s → P s → (∀ a, (x s).outcome ≠ .ok a) → F (x s).state)
    (hcleanup : Meets I F cleanup fun _ _ => True) : Meets I P (x.onFailure cleanup) Q := by
  intro s hI hP
  obtain ⟨hkept, hreturned⟩ := h s hI hP
  have hfailed := hF s hI hP
  unfold Exec.onFailure
  rcases hr : x s with ⟨a | e | _, t, n⟩ <;> rw [hr] at hkept hreturned hfailed
  · exact ⟨hkept, hreturned⟩
  · have hclean := hcleanup t hkept (hfailed fun _ h => by cases h)
    refine ⟨hclean.1, ?_⟩
    intro a ha
    cases ha
  · have hclean := hcleanup t hkept (hfailed fun _ h => by cases h)
    refine ⟨hclean.1, ?_⟩
    intro a ha
    cases ha

end Meets

end Rish.Lib
