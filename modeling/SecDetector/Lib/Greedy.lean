import Mathlib.Algebra.BigOperators.Group.List.Basic
import Mathlib.Algebra.GroupWithZero.Nat
import Mathlib.Algebra.Order.Group.Nat
import Mathlib.Data.Nat.Notation

/-!
# Taking what still fits

`greedy size room xs` goes through `xs` once and takes every element that fits into the room
that those before have left.  It may skip an element and take later ones.
-/

namespace SecDetector.Lib

variable {α : Type*} {size : α → ℕ} {room : ℕ} {xs : List α}

/-- The elements that are taken. -/
def greedy (size : α → ℕ) : ℕ → List α → List α
  | _, [] => []
  | room, x :: xs =>
      if size x ≤ room then x :: greedy size (room - size x) xs else greedy size room xs

theorem greedy_cons_of_le {x : α} (h : size x ≤ room) :
    greedy size room (x :: xs) = x :: greedy size (room - size x) xs :=
  if_pos h

theorem greedy_cons_of_lt {x : α} (h : room < size x) :
    greedy size room (x :: xs) = greedy size room xs :=
  if_neg (Nat.not_le.mpr h)

/-- What is taken fits. -/
theorem sum_greedy_le (size : α → ℕ) (room : ℕ) (xs : List α) :
    ((greedy size room xs).map size).sum ≤ room := by
  induction xs generalizing room with
  | nil => exact Nat.zero_le room
  | cons x xs ih =>
      rcases Nat.lt_or_ge room (size x) with hlt | hge
      · rw [greedy_cons_of_lt hlt]
        exact ih room
      · have hrest := ih (room - size x)
        rw [greedy_cons_of_le hge, List.map_cons, List.sum_cons]
        omega

/-- If there is room for all, all are taken. -/
theorem greedy_eq_self (h : (xs.map size).sum ≤ room) : greedy size room xs = xs := by
  induction xs generalizing room with
  | nil => rfl
  | cons x xs ih =>
      rw [List.map_cons, List.sum_cons] at h
      rw [greedy_cons_of_le (by omega), ih (by omega)]

end SecDetector.Lib
