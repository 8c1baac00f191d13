/-
  Rish.Lib.Stream — byte streams cut into self-delimiting items, received in pieces.

  `next` takes the first complete item off a string, or says that there is none yet. It must
  consume something (`shrinks`) and must not look past the item it takes (`stable`). `split` takes
  items as long as there are any.

  Proved: splitting a string received in pieces, with the unread rest kept between them, is splitting
  the whole string (`split_append`, `feed_eq`), so two ways of cutting one stream give the same items.
-/

import Mathlib.Data.List.Basic

namespace Rish.Lib

variable {α β : Type}

structure Delimited (next : List β → Option (α × List β)) : Prop where
  shrinks : ∀ {bs a rest}, next bs = some (a, rest) → rest.length < bs.length
  stable : ∀ {bs a rest} more, next bs = some (a, rest) → next (bs ++ more) = some (a, rest ++ more)

variable (next : List β → Option (α × List β))

/-- At most `n` items off the front, and the string left. -/
def takeItems : Nat → List β → List α × List β
  | 0, bs => ([], bs)
  | n + 1, bs =>
    match next bs with
    | none => ([], bs)
    | some (a, rest) => (a :: (takeItems n rest).1, (takeItems n rest).2)

def split (bs : List β) : List α × List β := takeItems next bs.length bs

/-- Pieces received one after the other, the unread rest kept between them. -/
def feed : List β → List (List β) → List α × List β
  | rest, [] => ([], rest)
  | rest, piece :: pieces =>
    ((split next (rest ++ piece)).1 ++ (feed (split next (rest ++ piece)).2 pieces).1,
      (feed (split next (rest ++ piece)).2 pieces).2)

variable {next} (h : Delimited next)
include h

theorem Delimited.next_nil : next [] = none := by
  rcases hx : next [] with _ | ⟨a, rest⟩
  · rfl
  · exact absurd (h.shrinks hx) (Nat.not_lt_zero _)

@[simp] theorem takeItems_nil (n) : takeItems next n [] = ([], []) := by
  cases n with
  | zero => rfl
  | succ n => simp only [takeItems, h.next_nil]

theorem takeItems_enough {n m bs} (hn : bs.length ≤ n) (hm : bs.length ≤ m) :
    takeItems next n bs = takeItems next m bs := by
  induction n generalizing m bs with
  | zero =>
    rw [List.eq_nil_of_length_eq_zero (Nat.le_zero.mp hn), takeItems_nil h, takeItems_nil h]
  | succ n ih =>
    cases m with
    | zero => rw [List.eq_nil_of_length_eq_zero (Nat.le_zero.mp hm), takeItems_nil h, takeItems_nil h]
    | succ m =>
      rcases hx : next bs with _ | ⟨a, rest⟩
      · simp only [takeItems, hx]
      · have hrest := h.shrinks hx
        have hsame : takeItems next n rest = takeItems next m rest := ih (by omega) (by omega)
        simp only [takeItems, hx, hsame]

omit h in
theorem split_none {bs} (hx : next bs = none) : split next bs = ([], bs) := by
  unfold split
  cases bs.length with
  | zero => rfl
  | succ n => simp only [takeItems, hx]

theorem split_some {bs rest} {a : α} (hx : next bs = some (a, rest)) :
    split next bs = (a :: (split next rest).1, (split next rest).2) := by
  have hrest := h.shrinks hx
  obtain ⟨n, hn⟩ : ∃ n, bs.length = n + 1 := ⟨bs.length - 1, by omega⟩
  have henough : takeItems next n rest = takeItems next rest.length rest :=
    takeItems_enough h (by omega) (Nat.le_refl _)
  simp only [split, hn, takeItems, hx, henough]

theorem split_induction {P : List β → Prop} (stop : ∀ bs, next bs = none → P bs)
    (take : ∀ bs a rest, next bs = some (a, rest) → P rest → P bs) (bs) : P bs := by
  induction hn : bs.length using Nat.strongRecOn generalizing bs with
  | ind n ih =>
    rcases hx : next bs with _ | ⟨a, rest⟩
    · exact stop bs hx
    · exact take bs a rest hx (ih rest.length (by rw [← hn]; exact h.shrinks hx) rest rfl)

theorem next_split (bs) : next (split next bs).2 = none := by
  induction bs using split_induction h with
  | stop bs hx => rwa [split_none hx]
  | take bs a rest hx ih => rwa [split_some h hx]

theorem split_rest_le (bs) : (split next bs).2.length ≤ bs.length := by
  induction bs using split_induction h with
  | stop bs hx => exact Nat.le_of_eq (by rw [split_none hx])
  | take bs a rest hx ih =>
    rw [split_some h hx]
    exact Nat.le_trans ih (Nat.le_of_lt (h.shrinks hx))

theorem split_append (bs more) : split next (bs ++ more) =
      ((split next bs).1 ++ (split next ((split next bs).2 ++ more)).1,
        (split next ((split next bs).2 ++ more)).2) := by
  induction bs using split_induction h with
  | stop bs hx =>
    rw [split_none hx]
    rfl
  | take bs a rest hx ih =>
    rw [split_some h (h.stable more hx), split_some h hx, ih]
    rfl

theorem feed_eq (rest pieces) (hrest : next rest = none) :
    feed next rest pieces = split next (rest ++ pieces.flatten) := by
  induction pieces generalizing rest with
  | nil => simp only [feed, List.flatten_nil, List.append_nil, split_none hrest]
  | cons piece pieces ih =>
    rw [feed, ih _ (next_split h _), List.flatten_cons, ← List.append_assoc, split_append h (rest ++ piece)]

end Rish.Lib
