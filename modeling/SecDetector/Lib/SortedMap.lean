import Mathlib.Data.List.Induction
import Mathlib.Order.Lattice

/-!
# Maps as sorted lists

A map with ordered keys is the list of its entries in the order of their keys.  `assign` puts an
entry in its place, and over the entry that has its key.

Two facts are behind a map that is written out entry by entry and read in again.  An entry whose
key is above all the others goes to the end (`assign_eq_append`), so entries that come in order
are left as they came (`ofList_eq_self`).  Of the entries of one key, the one that was assigned
last is found (`lookup_ofList`).
-/

namespace SecDetector.Lib.SortedMap

variable {κ α : Type*} [LinearOrder κ]

/-- `m[key] = value`. -/
def assign (key : κ) (value : α) : List (κ × α) → List (κ × α)
  | [] => [(key, value)]
  | (k, v) :: rest =>
      if key < k then (key, value) :: (k, v) :: rest
      else if key = k then (key, value) :: rest
      else (k, v) :: assign key value rest

/-- The entries, assigned from the first to the last. -/
def ofList (entries : List (κ × α)) : List (κ × α) :=
  entries.foldl (fun m e => assign e.1 e.2 m) []

/-- Every key is below the keys behind it. -/
def Sorted (m : List (κ × α)) : Prop := m.Pairwise fun e e' => e.1 < e'.1

instance (m : List (κ × α)) : Decidable (Sorted m) :=
  inferInstanceAs (Decidable (m.Pairwise fun e e' => e.1 < e'.1))

variable {m : List (κ × α)} {key key' : κ} {value : α}

theorem mem_assign {e : κ × α} (hmem : e ∈ assign key value m) : e = (key, value) ∨ e ∈ m := by
  induction m with
  | nil => exact Or.inl (List.mem_singleton.mp hmem)
  | cons e' rest ih =>
      obtain ⟨k, v⟩ := e'
      rw [assign] at hmem
      split at hmem
      · exact List.mem_cons.mp hmem
      split at hmem
      · exact (List.mem_cons.mp hmem).imp_right (List.mem_cons_of_mem _)
      rcases List.mem_cons.mp hmem with rfl | hrest
      · exact Or.inr List.mem_cons_self
      · exact (ih hrest).imp_right (List.mem_cons_of_mem _)

theorem mem_of_mem_ofList {entries : List (κ × α)} {e : κ × α} (hmem : e ∈ ofList entries) :
    e ∈ entries := by
  induction entries using List.reverseRecOn with
  | nil => cases hmem
  | append_singleton entries e' ih =>
      rw [ofList, List.foldl_append] at hmem
      rcases mem_assign hmem with rfl | hmem
      · exact List.mem_append_right entries List.mem_cons_self
      · exact List.mem_append_left _ (ih hmem)

/-! ## Order -/

theorem sorted_assign (hsorted : Sorted m) : Sorted (assign key value m) := by
  induction m with
  | nil => exact List.pairwise_singleton _ _
  | cons e rest ih =>
      obtain ⟨k, v⟩ := e
      obtain ⟨hbelow, hrest⟩ := List.pairwise_cons.mp hsorted
      rw [assign]
      split
      · rename_i hlt
        refine List.pairwise_cons.mpr ⟨?_, hsorted⟩
        intro e' hmem
        rcases List.mem_cons.mp hmem with rfl | htail
        · exact hlt
        · exact hlt.trans (hbelow e' htail)
      split
      · rename_i heq
        exact List.pairwise_cons.mpr ⟨fun e' hmem => heq ▸ hbelow e' hmem, hrest⟩
      · rename_i hnlt hne
        refine List.pairwise_cons.mpr ⟨?_, ih hrest⟩
        intro e' hmem
        rcases mem_assign hmem with rfl | htail
        · exact lt_of_le_of_ne (not_lt.mp hnlt) (Ne.symm hne)
        · exact hbelow e' htail

theorem sorted_ofList (entries : List (κ × α)) : Sorted (ofList entries) := by
  suffices h : ∀ m : List (κ × α), Sorted m →
      Sorted (entries.foldl (fun m e => assign e.1 e.2 m) m) from h [] List.Pairwise.nil
  induction entries with
  | nil => exact fun m hsorted => hsorted
  | cons e entries ih => exact fun m hsorted => ih _ (sorted_assign hsorted)

/-- The last key goes to the end. -/
theorem assign_eq_append (hlast : ∀ e ∈ m, e.1 < key) :
    assign key value m = m ++ [(key, value)] := by
  induction m with
  | nil => rfl
  | cons e rest ih =>
      obtain ⟨k, v⟩ := e
      rw [List.forall_mem_cons] at hlast
      rw [assign, if_neg hlast.1.not_gt, if_neg hlast.1.ne', ih hlast.2, List.cons_append]

/-- **Entries that come in order stay as they came.** -/
theorem ofList_eq_self (hsorted : Sorted m) : ofList m = m := by
  suffices h : ∀ front back : List (κ × α), Sorted (front ++ back) →
      back.foldl (fun m e => assign e.1 e.2 m) front = front ++ back from h [] m hsorted
  intro front back hsorted
  induction back generalizing front with
  | nil => exact (List.append_nil front).symm
  | cons e back ih =>
      have hlast : ∀ e' ∈ front, e'.1 < e.1 := fun e' hmem =>
        (List.pairwise_append.mp hsorted).2.2 e' hmem e List.mem_cons_self
      rw [List.foldl_cons, assign_eq_append hlast, ih, List.append_assoc]
      · rfl
      · rwa [List.append_assoc]

/-! ## Lookup -/

/-- The value of a key, if the map has it. -/
def lookup (key : κ) : List (κ × α) → Option α
  | [] => none
  | (k, v) :: rest => if key = k then some v else lookup key rest

theorem lookup_assign :
    lookup key' (assign key value m) = if key' = key then some value else lookup key' m := by
  induction m with
  | nil => rfl
  | cons e rest ih =>
      obtain ⟨k, v⟩ := e
      rw [assign]
      split
      · rfl
      split
      · rename_i heq
        rw [heq, lookup, lookup]
        split <;> rfl
      · rename_i hne
        rw [lookup, ih, lookup]
        split
        · rename_i hkey
          rw [if_neg (hkey ▸ Ne.symm hne)]
        · rfl

/-- The entry that was assigned last is found. -/
theorem lookup_ofList (entries : List (κ × α)) :
    lookup key (ofList entries) = lookup key entries.reverse := by
  induction entries using List.reverseRecOn with
  | nil => rfl
  | append_singleton entries e ih =>
      rw [ofList, List.foldl_append, List.foldl_cons, List.foldl_nil, lookup_assign,
        List.reverse_append]
      show _ = if key = e.1 then some e.2 else lookup key entries.reverse
      rw [← ih]
      rfl

end SecDetector.Lib.SortedMap
