import Mathlib.Data.List.Basic

/-!
# A queue that drops its oldest element

What a bounded log is for, told as a history: everything that was written, in order, and how
many of it are gone.  An element is gone when it is read, when the log is cleared, or when
it is the oldest one and a write finds the log full.
-/

namespace SecDetector.Lib

/-- The history of a bounded log. -/
structure DropOldest (α : Type*) where
  written : List α
  gone : ℕ
  gone_le : gone ≤ written.length

namespace DropOldest

variable {α : Type*}

def empty : DropOldest α := ⟨[], 0, Nat.le_refl _⟩

variable (q : DropOldest α) (capacity : ℕ) (a : α)

/-- What is still there, oldest first. -/
def unread : List α := q.written.drop q.gone

/-- The oldest element that is neither read nor cleared nor dropped. -/
def oldest : Option α := q.written[q.gone]?

/-- A write into a full log drops the oldest element. -/
def write : DropOldest α where
  written := q.written ++ [a]
  gone := if q.unread.length < capacity then q.gone else q.gone + 1
  gone_le := by
    have hle := q.gone_le
    rw [List.length_append, List.length_singleton]
    split <;> omega

/-- A read takes the oldest element, if there is one. -/
def read : DropOldest α where
  written := q.written
  gone := min (q.gone + 1) q.written.length
  gone_le := Nat.min_le_right _ _

def clear : DropOldest α := ⟨q.written, q.written.length, Nat.le_refl _⟩

@[simp] theorem unread_empty : (empty : DropOldest α).unread = [] := rfl

theorem oldest_eq_head? : q.oldest = q.unread.head? := by
  rw [oldest, unread, List.head?_drop]

theorem unread_write_of_lt (hroom : q.unread.length < capacity) :
    (q.write capacity a).unread = q.unread ++ [a] := by
  have hgone : (q.write capacity a).gone = q.gone := if_pos hroom
  rw [unread, hgone]
  exact List.drop_append_of_le_length q.gone_le

theorem unread_write_of_le (hpos : 0 < q.unread.length) (hfull : capacity ≤ q.unread.length) :
    (q.write capacity a).unread = q.unread.tail ++ [a] := by
  have hlt : q.gone < q.written.length := by
    simp only [unread, List.length_drop] at hpos
    omega
  have hgone : (q.write capacity a).gone = q.gone + 1 := if_neg (Nat.not_lt.mpr hfull)
  rw [unread, hgone, unread, List.tail_drop]
  exact List.drop_append_of_le_length hlt

theorem unread_read : q.read.unread = q.unread.tail := by
  rw [unread, unread, List.tail_drop]
  show q.written.drop (min (q.gone + 1) q.written.length) = _
  rcases Nat.lt_or_ge q.gone q.written.length with hlt | hge
  · rw [Nat.min_eq_left hlt]
  · rw [List.drop_eq_nil_of_le (by omega), List.drop_eq_nil_of_le (by omega)]

theorem unread_clear : q.clear.unread = [] := by
  simp [unread, clear]

end DropOldest

end SecDetector.Lib
