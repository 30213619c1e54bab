import Mathlib.Data.List.Basic
import Mathlib.Logic.Function.Basic

/-!
# Which slot holds the last record of a key

A table whose slots are addressed by position, while what is put into them belongs to
keys.  A `Ledger` numbers the records: `slot` is the number of the record that a slot
holds, and `last` that of the last record of a key.  `Current i k` says that the two are
the same, so that whoever looks the key up in this slot finds its last record.

`current_recordList` is about a table that is filled in order: a slot is current for a key
if it was filled for this key, and no later one was.
-/

namespace SecDetector.Lib

variable {I K : Type*} [DecidableEq I] [DecidableEq K]

/-- The records of a table, numbered below `clock`. -/
structure Ledger (I K : Type*) where
  slot : I → Option ℕ
  last : K → Option ℕ
  clock : ℕ
  slot_lt : ∀ i n, slot i = some n → n < clock
  last_lt : ∀ k n, last k = some n → n < clock

namespace Ledger

variable (ledger : Ledger I K)

omit [DecidableEq I] [DecidableEq K] in
/-- The table before the first record. -/
def empty : Ledger I K := ⟨fun _ => none, fun _ => none, 0, by simp, by simp⟩

/-- Put a record of `k` into slot `i`. -/
def record (i : I) (k : K) : Ledger I K where
  slot := Function.update ledger.slot i (some ledger.clock)
  last := Function.update ledger.last k (some ledger.clock)
  clock := ledger.clock + 1
  slot_lt j n hslot := by
    by_cases hj : j = i
    · subst hj
      simp at hslot
      omega
    · rw [Function.update_of_ne hj] at hslot
      exact Nat.lt_succ_of_lt (ledger.slot_lt j n hslot)
  last_lt l n hlast := by
    by_cases hl : l = k
    · subst hl
      simp at hlast
      omega
    · rw [Function.update_of_ne hl] at hlast
      exact Nat.lt_succ_of_lt (ledger.last_lt l n hlast)

omit [DecidableEq I] [DecidableEq K] in
/-- Slot `i` holds the last record of `k`. -/
def Current (i : I) (k : K) : Prop := ledger.slot i = ledger.last k ∧ ledger.slot i ≠ none

/-- A record is current in its slot, and nothing else in this slot or of this key is. -/
theorem current_record {i j : I} {k l : K} :
    (ledger.record i k).Current j l ↔
      (j = i ∧ l = k) ∨ (j ≠ i ∧ l ≠ k ∧ ledger.Current j l) := by
  unfold Current record
  dsimp only
  by_cases hj : j = i
  · by_cases hl : l = k
    · simp [hj, hl]
    · -- the new number is the last of no other key
      have hne : ledger.last l ≠ some ledger.clock := fun hlast =>
        Nat.lt_irrefl _ (ledger.last_lt l _ hlast)
      simp [hj, hl, hne.symm]
  · by_cases hl : l = k
    · have hne : ledger.slot j ≠ some ledger.clock := fun hslot =>
        Nat.lt_irrefl _ (ledger.slot_lt j _ hslot)
      simp [hj, hl, hne]
    · simp [hj, hl]

/-- Put a record into slot `i`, if there is a key. -/
def fill (i : I) : Option K → Ledger I K
  | none => ledger
  | some k => ledger.record i k

theorem slot_fill_of_ne {i j : I} (hne : j ≠ i) (key : Option K) :
    (ledger.fill i key).slot j = ledger.slot j := by
  cases key with
  | none => rfl
  | some k => exact Function.update_of_ne hne _ _

theorem current_fill {i j : I} {k : K} {key : Option K} (hfree : ledger.slot i = none) :
    (ledger.fill i key).Current j k ↔
      (j = i ∧ key = some k) ∨ (j ≠ i ∧ key ≠ some k ∧ ledger.Current j k) := by
  cases key with
  | none =>
      have hne : ledger.Current j k → j ≠ i := by
        intro hcurrent heq
        exact hcurrent.2 (heq ▸ hfree)
      simpa [fill] using hne
  | some l =>
      rw [fill, current_record]
      simp only [ne_eq, Option.some.injEq, eq_comm (a := l)]

/-- Fill the slots from `i` on. -/
def recordList : List (Option K) → ℕ → Ledger ℕ K → Ledger ℕ K
  | [], _, ledger => ledger
  | key :: keys, i, ledger => recordList keys (i + 1) (ledger.fill i key)

end Ledger

/-! ## The last slot of a key -/

omit [DecidableEq K] in
/-- `k` is the key at position `i`, and at no later one. -/
def OwnsLast (keys : List (Option K)) (i : ℕ) (k : K) : Prop :=
  keys[i]? = some (some k) ∧ ∀ j, i < j → keys[j]? ≠ some (some k)

namespace OwnsLast

variable {keys : List (Option K)} {i j : ℕ} {k l : K}

omit [DecidableEq K]

theorem lt_length (h : OwnsLast keys i k) : i < keys.length :=
  (List.getElem?_eq_some_iff.mp h.1).1

theorem key_unique (hk : OwnsLast keys i k) (hl : OwnsLast keys i l) : k = l :=
  Option.some.inj (Option.some.inj (hk.1.symm.trans hl.1))

theorem index_unique (hi : OwnsLast keys i k) (hj : OwnsLast keys j k) : i = j := by
  rcases Nat.lt_trichotomy i j with hlt | heq | hlt
  · exact absurd hj.1 (hi.2 j hlt)
  · exact heq
  · exact absurd hi.1 (hj.2 i hlt)

theorem not_nil : ¬ OwnsLast [] i k := fun h => Nat.not_lt_zero i h.lt_length

theorem cons_zero {a : Option K} :
    OwnsLast (a :: keys) 0 k ↔ a = some k ∧ some k ∉ keys := by
  refine and_congr (by simp) ⟨fun hlater hmem => ?_, fun hnot j hj heq => ?_⟩
  · obtain ⟨j, hget⟩ := List.mem_iff_getElem?.mp hmem
    exact hlater (j + 1) (Nat.succ_pos j) (by simpa using hget)
  · cases j with
    | zero => exact absurd hj (Nat.lt_irrefl 0)
    | succ j => exact hnot (List.mem_iff_getElem?.mpr ⟨j, by simpa using heq⟩)

theorem cons_succ {a : Option K} : OwnsLast (a :: keys) (i + 1) k ↔ OwnsLast keys i k := by
  refine and_congr (by simp) ⟨fun hlater j hj => ?_, fun hlater j hj => ?_⟩
  · simpa using hlater (j + 1) (Nat.succ_lt_succ hj)
  · cases j with
    | zero => exact absurd hj (Nat.not_lt_zero _)
    | succ j => simpa using hlater j (Nat.lt_of_succ_lt_succ hj)

end OwnsLast

namespace Ledger

/-- What is current after filling slots that were empty. -/
theorem current_recordList {keys : List (Option K)} {i j : ℕ} {k : K} {ledger : Ledger ℕ K}
    (hfree : ∀ j, i ≤ j → ledger.slot j = none) :
    (recordList keys i ledger).Current j k ↔
      (∃ d, j = i + d ∧ OwnsLast keys d k) ∨ (j < i ∧ some k ∉ keys ∧ ledger.Current j k) := by
  induction keys generalizing i ledger with
  | nil =>
      have hlt : ledger.Current j k → j < i := by
        intro hcurrent
        by_contra hge
        exact hcurrent.2 (hfree j (Nat.not_lt.mp hge))
      simpa [recordList, OwnsLast.not_nil] using hlt
  | cons key keys ih =>
      have hfree' : ∀ j, i + 1 ≤ j → (ledger.fill i key).slot j = none := by
        intro j hj
        rw [slot_fill_of_ne _ (by omega)]
        exact hfree j (by omega)
      rw [recordList, ih hfree', current_fill _ (hfree i (Nat.le_refl i)), List.mem_cons, not_or]
      rcases Nat.lt_trichotomy j i with hlt | rfl | hgt
      · have hnot : ∀ d, ¬ j = i + d ∧ ¬ j = i + 1 + d := by omega
        have hlt' : j < i + 1 := by omega
        have hne : j ≠ i := Nat.ne_of_lt hlt
        simp only [hnot, hlt, hlt', hne, false_and, exists_false, false_or, true_and, ne_eq,
          not_false_eq_true, eq_comm (a := some k)]
        tauto
      · -- slot `i` is current for its own key, unless a later one is
        have hzero : ∀ d, j = j + d ↔ d = 0 := by omega
        have hnot : ∀ d, ¬ j = j + 1 + d := by omega
        simp only [hzero, hnot, exists_eq_left, OwnsLast.cons_zero, false_and, exists_false,
          false_or, Nat.lt_irrefl, Nat.lt_succ_self, ne_eq, not_true, or_false, true_and]
        exact and_comm
      · obtain ⟨d, rfl⟩ := Nat.exists_eq_add_of_le hgt
        have hnot : ¬ i + 1 + d < i ∧ ¬ i + 1 + d < i + 1 := by omega
        have hsame : ∀ d', i + 1 + d = i + d' ↔ d' = d + 1 := by omega
        have hsame' : ∀ d', i + 1 + d = i + 1 + d' ↔ d' = d := by omega
        simp only [Nat.succ_eq_add_one, hnot, hsame, hsame', exists_eq_left, OwnsLast.cons_succ,
          false_and, or_false]

end Ledger

end SecDetector.Lib
