import Mathlib.Data.List.GetD
import SecDetector.Lib.CString

/-!
# Byte memory

A memory is a function from addresses to bytes.  `load` and `store` move lists of
bytes, `loadNat` reads a little-endian integer, and `cstring` reads the C string at an
address, up to a limit.

A store is seen by a load of the same area and by no load of an area that is apart.
`Agree` compares two memories on an area; a program that makes the same stores in
both keeps it.
-/

namespace SecDetector.Lib.Memory

variable {mem mem' : ℕ → UInt8} {off off' n k limit : ℕ} {bytes rest : List UInt8}

/-! ## Loads and stores -/

def load (mem : ℕ → UInt8) (off n : ℕ) : List UInt8 :=
  (List.range n).map fun i => mem (off + i)

def store (mem : ℕ → UInt8) (off : ℕ) (bytes : List UInt8) : ℕ → UInt8 :=
  fun i => if off ≤ i ∧ i < off + bytes.length then bytes.getD (i - off) 0 else mem i

/-- The little-endian integer of `n` bytes. -/
def loadNat (mem : ℕ → UInt8) (off n : ℕ) : ℕ :=
  leNat (load mem off n)

/-- The C string at `off`, if it ends before `limit`. -/
def cstring (mem : ℕ → UInt8) (off limit : ℕ) : Option Text :=
  readString (load mem off (limit - off))

@[simp] theorem length_load : (load mem off n).length = n := by
  rw [load, List.length_map, List.length_range]

theorem load_add : load mem off (n + k) = load mem off n ++ load mem (off + n) k := by
  simp only [load, List.range_add, List.map_append, List.map_map, Function.comp_def,
    Nat.add_assoc]

theorem load_of_le (hk : k ≤ n) : load mem off k = (load mem off n).take k := by
  rw [← Nat.add_sub_cancel' hk, load_add, List.take_left' length_load]

theorem store_of_inside {i : ℕ} (hi : i < bytes.length) :
    store mem off bytes (off + i) = bytes[i] := by
  rw [store, if_pos (by omega), Nat.add_sub_cancel_left, List.getD_eq_getElem _ _ hi]

theorem store_of_outside {i : ℕ} (hi : i < off ∨ off + bytes.length ≤ i) :
    store mem off bytes i = mem i := by
  rw [store, if_neg (by omega)]

/-- A store is read back. -/
theorem load_store_self : load (store mem off bytes) off bytes.length = bytes := by
  apply List.ext_getElem (by simp)
  intro i hi hi'
  simp only [load, List.getElem_map, List.getElem_range, store_of_inside hi']

/-- An area that is apart is not changed. -/
theorem load_store_of_apart (hapart : off + n ≤ off' ∨ off' + bytes.length ≤ off) :
    load (store mem off' bytes) off n = load mem off n := by
  apply List.map_congr_left
  intro i hi
  have hlt := List.mem_range.mp hi
  exact store_of_outside (by omega)

/-- A store right behind an area, as far as the area is continued. -/
theorem load_store_append (mem : ℕ → UInt8) (off n : ℕ) (bytes rest : List UInt8) :
    load (store mem (off + n) (bytes ++ rest)) off (n + bytes.length) =
      load mem off n ++ bytes := by
  have hself : load (store mem (off + n) (bytes ++ rest)) (off + n) bytes.length = bytes := by
    rw [load_of_le (n := (bytes ++ rest).length) (by simp), load_store_self, List.take_left]
  rw [load_add, hself, load_store_of_apart (.inl le_rfl)]

theorem loadNat_store_self {value : ℕ} (hvalue : value < 256 ^ n) :
    loadNat (store mem off (leBytes n value)) off n = value := by
  have hload : load (store mem off (leBytes n value)) off n = leBytes n value := by
    have hself : load (store mem off (leBytes n value)) off (leBytes n value).length =
      leBytes n value := load_store_self
    rwa [length_leBytes] at hself
  rw [loadNat, hload, leNat_leBytes hvalue]

theorem loadNat_store_of_apart (hapart : off + n ≤ off' ∨ off' + bytes.length ≤ off) :
    loadNat (store mem off' bytes) off n = loadNat mem off n := by
  rw [loadNat, loadNat, load_store_of_apart hapart]

/-! ## Strings -/

/-- The string `t` stands at `off`, with its terminator. -/
def Holds (mem : ℕ → UInt8) (off : ℕ) (t : Text) : Prop :=
  load mem off (t.length + 1) = t.bytes ++ [0]

/-- A string that stands in the memory is read. -/
theorem Holds.cstring {t : Text} (h : Holds mem off t) (hlimit : off + (t.length + 1) ≤ limit) :
    cstring mem off limit = some t := by
  have hsplit : limit - off = t.length + 1 + (limit - off - (t.length + 1)) := by omega
  rw [Memory.cstring, hsplit, load_add, h, List.append_assoc, List.singleton_append,
    readString_append_nul]

/-- A string that ends in an area. -/
theorem holds_of_load {t : Text} (hload : load mem off n = t.bytes ++ 0 :: rest) :
    Holds mem off t := by
  have hlength : n = t.length + 1 + rest.length := by
    have hcount := congrArg List.length hload
    rw [length_load, List.length_append, List.length_cons] at hcount
    unfold Text.length
    omega
  rw [hlength, load_add] at hload
  exact (List.append_inj (hload.trans (List.append_cons _ _ _)) (by simp [Text.length])).1

/-- A string that is stored with its terminator. -/
theorem holds_store_self (mem : ℕ → UInt8) (off : ℕ) (t : Text) (rest : List UInt8) :
    Holds (store mem off (t.bytes ++ 0 :: rest)) off t :=
  holds_of_load load_store_self

/-- Stores elsewhere leave a string alone. -/
theorem Holds.store {t : Text} (h : Holds mem off t)
    (hapart : off + (t.length + 1) ≤ off' ∨ off' + bytes.length ≤ off) :
    Holds (store mem off' bytes) off t := by
  rw [Holds, load_store_of_apart hapart]
  exact h

/-! ## Agreement -/

/-- The memories agree on an area. -/
def Agree (mem mem' : ℕ → UInt8) (off n : ℕ) : Prop :=
  ∀ i < n, mem (off + i) = mem' (off + i)

/-- The same store in both memories. -/
theorem Agree.store (hagree : Agree mem mem' off n) (off' : ℕ) (bytes : List UInt8) :
    Agree (store mem off' bytes) (store mem' off' bytes) off n := by
  intro i hi
  rw [Memory.store, Memory.store, hagree i hi]

/-! ## Confined programs -/

/-- The program writes to an area only, and what it writes does not depend on the
memory. -/
structure Confined (program : (ℕ → UInt8) → ℕ → UInt8) (off n : ℕ) : Prop where
  agree : ∀ {mem mem' off' k}, Agree mem mem' off' k → Agree (program mem) (program mem') off' k
  frame : ∀ {mem off' k}, off' + k ≤ off ∨ off + n ≤ off' →
    load (program mem) off' k = load mem off' k

theorem confined_id (off n : ℕ) : Confined id off n :=
  ⟨id, fun _ => rfl⟩

theorem confined_store (hlow : off ≤ off') (hhigh : off' + bytes.length ≤ off + n) :
    Confined (fun mem => store mem off' bytes) off n where
  agree hagree := hagree.store off' bytes
  frame hapart := load_store_of_apart (by omega)

/-- One program after the other. -/
theorem Confined.comp {program program' : (ℕ → UInt8) → ℕ → UInt8}
    (hsnd : Confined program' off n) (hfst : Confined program off n) :
    Confined (fun mem => program' (program mem)) off n where
  agree hagree := hsnd.agree (hfst.agree hagree)
  frame hapart := (hsnd.frame hapart).trans (hfst.frame hapart)

theorem Confined.holds {program : (ℕ → UInt8) → ℕ → UInt8} (hconfined : Confined program off n)
    {t : Text} (h : Holds mem off' t) (hapart : off' + (t.length + 1) ≤ off ∨ off + n ≤ off') :
    Holds (program mem) off' t :=
  (hconfined.frame hapart).trans h

end SecDetector.Lib.Memory
