/-
  Rish.Lib.Bounded — queues with a hard capacity.
-/

import Mathlib.Data.List.Basic
import Mathlib.Logic.Function.Iterate

namespace Rish.Lib

open List

variable {α : Type}

/-- The queue after the items, and how many of them it took. -/
def pushAll (capacity : Nat) : List α → List α → List α × Nat
  | queue, [] => (queue, 0)
  | queue, item :: items =>
    if queue.length ≥ capacity then (queue, 0)
    else
      let (queue, written) := pushAll capacity (queue ++ [item]) items
      (queue, written + 1)

variable (capacity : Nat)

theorem pushAll_written (queue items : List α) :
    (pushAll capacity queue items).2 = min items.length (capacity - queue.length) := by
  induction items generalizing queue with
  | nil => simp [pushAll]
  | cons item items ih =>
    unfold pushAll
    split
    · simp only [length_cons]
      omega
    · simp only [ih, length_append, length_cons, length_nil]
      omega

theorem pushAll_queue (queue items : List α) :
    (pushAll capacity queue items).1 = queue ++ items.take (pushAll capacity queue items).2 := by
  induction items generalizing queue with
  | nil => simp [pushAll]
  | cons item items ih =>
    unfold pushAll
    split
    · simp
    · simp only [ih, append_assoc, singleton_append, take_succ_cons]

theorem pushAll_moves (before queue items behind : List α) :
    (before ++ (pushAll capacity queue items).1 ++ behind).Sublist (before ++ queue ++ (items ++ behind)) ∧
      (before ++ queue ++ (items ++ behind)).length =
        (before ++ (pushAll capacity queue items).1 ++ behind).length +
          (items.length - (capacity - queue.length)) := by
  rw [pushAll_queue]
  constructor
  · have htake := take_sublist (pushAll capacity queue items).2 items
    simp only [append_assoc]
    exact ((htake.append_right behind).append_left queue).append_left before
  · simp only [length_append, length_take, pushAll_written]
    omega

end Rish.Lib
