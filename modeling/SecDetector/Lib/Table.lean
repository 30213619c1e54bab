import Mathlib.Data.List.Perm.Basic
import Mathlib.Data.List.Nodup
import Mathlib.Data.Nat.Notation

/-!
# Tables that are filled from the front

The entries of a table are the first `n` elements of a list.  An entry is removed by moving
the last one to its place (`take_moveLast_perm`).  If the entries have distinct keys, this
takes away the entries of one key (`eraseIdx_perm_filter`), and the pass over the table finds no
other (`key_ne_of_ne`).
-/

namespace SecDetector.Lib.Table

variable {α β : Type*} {l : List α} {n i j : ℕ} {key : α → β}

/-- The last of the first `n` elements in the place of element `i`, and one element less. -/
theorem take_moveLast_perm (hi : i < n) (hn : n ≤ l.length) {last : α}
    (hlast : i ≠ n - 1 → l[n - 1]? = some last) :
    ((l.set i last).take (n - 1)).Perm ((l.take n).eraseIdx i) := by
  have hsplit : l.take n = l.take (n - 1) ++ l[n - 1]?.toList := by
    rw [← List.take_add_one, Nat.sub_add_cancel (Nat.one_le_of_lt hi)]
  rw [List.take_set, hsplit]
  by_cases hmove : i = n - 1
  · -- the last entry itself
    have hlength : (l.take (n - 1)).length = i := by
      rw [List.length_take]
      omega
    rw [List.getElem?_eq_getElem (by omega), Option.toList_some,
      List.set_eq_of_length_le (Nat.le_of_eq hlength),
      List.eraseIdx_append_of_length_le (Nat.le_of_eq hlength), hlength, Nat.sub_self,
      List.eraseIdx_cons_zero, List.append_nil]
  · have hi' : i < (l.take (n - 1)).length := by
      rw [List.length_take]
      omega
    rw [List.eraseIdx_append_of_lt_length hi', hlast hmove, Option.toList_some]
    exact (List.set_perm_cons_eraseIdx hi' _).trans (List.perm_append_singleton _ _).symm

theorem key_ne_of_mem_eraseIdx (hkeys : (l.map key).Nodup) (hi : i < l.length) {a : α}
    (ha : a ∈ l.eraseIdx i) : key a ≠ key l[i] := by
  have hperm : (l[i] :: l.eraseIdx i).Perm l := List.getElem_cons_eraseIdx_perm hi
  have hnodup := ((hperm.map key).nodup_iff).mpr hkeys
  rw [List.map_cons, List.nodup_cons] at hnodup
  intro heq
  exact hnodup.1 (heq ▸ List.mem_map_of_mem ha)

theorem key_ne_of_ne (hkeys : (l.map key).Nodup) (hi : i < l.length) (hj : j < l.length)
    (hne : j ≠ i) : key l[j] ≠ key l[i] :=
  key_ne_of_mem_eraseIdx hkeys hi (List.mem_eraseIdx_iff_getElem.mpr ⟨j, hj, hne, rfl⟩)

variable [DecidableEq β]

/-- Removing an element leaves those with other keys. -/
theorem eraseIdx_perm_filter (hkeys : (l.map key).Nodup) (hi : i < l.length) :
    (l.eraseIdx i).Perm (l.filter fun a => key a ≠ key l[i]) := by
  have hperm : (l[i] :: l.eraseIdx i).Perm l := List.getElem_cons_eraseIdx_perm hi
  have hrest : (l.eraseIdx i).filter (fun a => key a ≠ key l[i]) = l.eraseIdx i := by
    rw [List.filter_eq_self]
    exact fun a ha => decide_eq_true (key_ne_of_mem_eraseIdx hkeys hi ha)
  have hfilter := hperm.filter fun a => key a ≠ key l[i]
  rwa [List.filter_cons_of_neg (by simp), hrest] at hfilter

/-- It is the only one with its key. -/
theorem filter_eq_singleton (hkeys : (l.map key).Nodup) (hi : i < l.length) :
    l.filter (fun a => key a = key l[i]) = [l[i]] := by
  have hperm : (l[i] :: l.eraseIdx i).Perm l := List.getElem_cons_eraseIdx_perm hi
  have hrest : (l.eraseIdx i).filter (fun a => key a = key l[i]) = [] := by
    rw [List.filter_eq_nil_iff]
    exact fun a ha => by simpa using key_ne_of_mem_eraseIdx hkeys hi ha
  have hfilter := hperm.filter fun a => key a = key l[i]
  rw [List.filter_cons_of_pos (by simp), hrest] at hfilter
  exact List.perm_singleton.mp hfilter.symm

end SecDetector.Lib.Table
