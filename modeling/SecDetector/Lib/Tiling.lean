import Mathlib.Data.Nat.Notation
import Mathlib.Algebra.BigOperators.Group.List.Basic
import Mathlib.Algebra.GroupWithZero.Nat
import Mathlib.Order.Basic
import Mathlib.Algebra.Order.Group.Nat
import Mathlib.Data.Nat.Init

/-!
# Tiles laid end to end

A list of lengths, read as tiles that follow each other from position 0 on.  The
tile `i` occupies the positions from `start lens i` to `start lens (i + 1)`.
Tiles are only ever added at the end, which leaves the earlier starts alone.
-/

namespace SecDetector.Lib.Tiling

variable {lens : List ℕ} {i j len : ℕ}

/-- Where tile `i` starts; for `i = lens.length`, where the next tile will. -/
def start (lens : List ℕ) (i : ℕ) : ℕ :=
  (lens.take i).sum

@[simp] theorem start_zero : start lens 0 = 0 := by
  simp [start]

theorem start_succ (hi : lens[i]? = some len) : start lens (i + 1) = start lens i + len := by
  calc start lens (i + 1) = (lens.take i ++ [len]).sum := by rw [start, List.take_add_one, hi]; rfl
    _ = start lens i + len := by rw [List.sum_append, List.sum_singleton, start]

theorem start_mono (hij : i ≤ j) : start lens i ≤ start lens j := by
  induction j, hij using Nat.le_induction with
  | base => exact le_rfl
  | succ j _ ih =>
      cases hj : lens[j]? with
      | none =>
          have hlen : lens.length ≤ j := List.getElem?_eq_none_iff.mp hj
          have hsame : start lens (j + 1) = start lens j := by
            rw [start, start, List.take_of_length_le hlen, List.take_of_length_le (by omega)]
          rwa [hsame]
      | some len =>
          rw [start_succ hj]
          omega

theorem start_append (hi : i ≤ lens.length) : start (lens ++ [len]) i = start lens i := by
  rw [start, start, List.take_append_of_le_length hi]

end SecDetector.Lib.Tiling
