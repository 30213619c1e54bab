import Mathlib.Data.List.Basic
import Mathlib.Logic.Function.Basic

/-!
# Id tables

The part of Linux's `idr` that drivers rely on: `alloc` stores a pointer under
the lowest free id below a bound, `remove` deletes the entry of an id and
returns it.  A table is a list of slots, the id being the position; two tables
are compared by their entries (`entry`), since the number of trailing free slots
is not observable.
-/

namespace SecDetector.Lib

/-- An id table: slot `i` holds the pointer stored under the id `i`. -/
structure Idr (α : Type*) where
  slots : List (Option α)

namespace Idr

variable {α : Type*}

/-- The empty table. -/
def empty : Idr α := ⟨[]⟩

/-- The pointer stored under the id `i`. -/
def entry (table : Idr α) (i : ℕ) : Option α := (table.slots[i]?).join

/-- The lowest id without an entry. -/
def lowestFree (table : Idr α) : ℕ := table.slots.findIdx Option.isNone

/-- Store `a` under the lowest free id, if that id is below `bound`. -/
def alloc (table : Idr α) (a : α) (bound : ℕ) : Option (ℕ × Idr α) :=
  let i := table.lowestFree
  if i < bound then
    some (i, ⟨if i < table.slots.length then table.slots.set i (some a)
      else table.slots ++ [some a]⟩)
  else none

/-- Delete the entry of the id `i` and return it. -/
def remove (table : Idr α) (i : ℕ) : Option α × Idr α :=
  (table.entry i, ⟨table.slots.set i none⟩)

@[simp] theorem entry_empty (i : ℕ) : (empty : Idr α).entry i = none := by
  simp [empty, entry]

theorem lowestFree_le_length (table : Idr α) : table.lowestFree ≤ table.slots.length :=
  List.findIdx_le_length

theorem entry_lowestFree (table : Idr α) : table.entry table.lowestFree = none := by
  unfold entry
  rcases Nat.lt_or_eq_of_le table.lowestFree_le_length with hlt | heq
  · have hnone : table.slots[table.lowestFree].isNone := List.findIdx_getElem (w := hlt)
    rw [List.getElem?_eq_getElem hlt, Option.isNone_iff_eq_none.mp hnone]
    rfl
  · rw [heq, List.getElem?_eq_none (Nat.le_refl _)]
    rfl

/-- An allocation succeeds with the lowest free id and changes only its entry. -/
theorem alloc_spec {table table' : Idr α} {a : α} {bound i : ℕ}
    (halloc : table.alloc a bound = some (i, table')) :
    i = table.lowestFree ∧ table.entry i = none ∧
      table'.entry = Function.update table.entry i (some a) := by
  simp only [alloc] at halloc
  split at halloc
  · simp only [Option.some.injEq, Prod.mk.injEq] at halloc
    obtain ⟨rfl, rfl⟩ := halloc
    refine ⟨rfl, table.entry_lowestFree, ?_⟩
    funext j
    -- a hole in the table is filled, otherwise the table grows by one slot
    rcases Nat.lt_or_eq_of_le table.lowestFree_le_length with hlt | heq
    · rw [if_pos hlt]
      by_cases hj : j = table.lowestFree
      · subst hj; simp [entry, hlt]
      · rw [Function.update_of_ne hj]
        simp [entry, List.getElem?_set_ne (Ne.symm hj)]
    · rw [if_neg (by omega)]
      by_cases hj : j = table.lowestFree
      · subst hj; simp [entry, heq]
      · rw [Function.update_of_ne hj]
        rcases Nat.lt_or_ge j table.slots.length with hlt | hge
        · simp [entry, List.getElem?_append_left hlt]
        · have hlen : (table.slots ++ [some a]).length ≤ j := by
            rw [List.length_append, List.length_singleton]
            omega
          rw [entry, entry, List.getElem?_eq_none hlen, List.getElem?_eq_none hge]
  · simp at halloc

theorem alloc_eq_none {table : Idr α} {a : α} {bound : ℕ} (halloc : table.alloc a bound = none) :
    bound ≤ table.lowestFree := by
  simp only [alloc] at halloc
  split at halloc
  · simp at halloc
  · omega

theorem lt_of_alloc {table table' : Idr α} {a : α} {bound i : ℕ}
    (halloc : table.alloc a bound = some (i, table')) : table.lowestFree < bound := by
  simp only [alloc] at halloc
  split at halloc
  · assumption
  · simp at halloc

@[simp] theorem remove_fst (table : Idr α) (i : ℕ) : (table.remove i).1 = table.entry i := rfl

/-- Removing an id changes only its entry. -/
theorem entry_remove (table : Idr α) (i : ℕ) :
    (table.remove i).2.entry = Function.update table.entry i none := by
  funext j
  by_cases hj : j = i
  · subst hj
    simp only [remove, entry, Function.update_self, List.getElem?_set_self']
    cases table.slots[j]? <;> rfl
  · rw [Function.update_of_ne hj]
    simp [remove, entry, List.getElem?_set_ne (Ne.symm hj)]

end Idr

end SecDetector.Lib
