import Mathlib.Data.List.Lex
import SecDetector.Lib.SortedMap

/-!
# JSON values

A `Json` is what `json11` has behind its pointer: an array is a list, and an object is a map whose
keys are compared byte by byte.  A string holds any bytes, NUL among them.

`json11` keeps a number as an `int` or as a `double`, but compares the two by `number_value`, and
prints the same text for both where their values agree.  So a number is only its value here.  What
the doubles are is left open: `D` is a type with as much on it as the code in question needs.
-/

namespace SecDetector.Usage

open SecDetector.Lib

/-- The contents of a `std::string`. -/
abbrev Bytes := List UInt8

def str (s : String) : Bytes := s.toList.map fun c => UInt8.ofNat c.toNat

instance byteOrder : LinearOrder UInt8 where
  le_refl := UInt8.le_refl
  le_trans _ _ _ := UInt8.le_trans
  le_antisymm _ _ := UInt8.le_antisymm
  le_total := UInt8.le_total
  lt_iff_le_not_ge a b := by
    rw [UInt8.lt_iff_toNat_lt, UInt8.le_iff_toNat_le, UInt8.le_iff_toNat_le]
    omega
  toDecidableLE := inferInstance

inductive Json (D : Type) where
  | null
  | bool (value : Bool)
  | number (value : D)
  | string (value : Bytes)
  | array (values : List (Json D))
  | object (values : List (Bytes × Json D))

namespace Json

variable {D : Type}

/-- A value is built from the values in it. -/
theorem induct {P : Json D → Prop} (null : P null) (bool : ∀ b, P (bool b))
    (number : ∀ x, P (number x)) (string : ∀ s, P (string s))
    (array : ∀ values : List (Json D), (∀ v ∈ values, P v) → P (array values))
    (object : ∀ values : List (Bytes × Json D), (∀ kv ∈ values, P kv.2) → P (object values)) :
    ∀ v, P v
  | .null => null
  | .bool b => bool b
  | .number x => number x
  | .string s => string s
  | .array values => array values fun v _ => induct null bool number string array object v
  | .object values => object values fun kv _ => induct null bool number string array object kv.2
termination_by v => v
decreasing_by
  · rename_i hmem
    have hlt := List.sizeOf_lt_of_mem hmem
    simp only [Json.array.sizeOf_spec]
    omega
  · rename_i hmem
    have hlt := List.sizeOf_lt_of_mem hmem
    obtain ⟨k, v⟩ := kv
    simp only [Json.object.sizeOf_spec, Prod.mk.sizeOf_spec] at hlt ⊢
    omega

/-- An object from its members. -/
def ofMembers (members : List (Bytes × Json D)) : Json D := object (SortedMap.ofList members)

/-- `operator[]` with an index. -/
def item (i : ℕ) : Json D → Json D
  | array values => values.getD i null
  | _ => null

/-- `operator[]` with a key. -/
def member (key : Bytes) : Json D → Json D
  | object values => (SortedMap.lookup key values).getD null
  | _ => null

theorem member_ofMembers (key : Bytes) (members : List (Bytes × Json D)) :
    (ofMembers members).member key =
      (SortedMap.lookup key members.reverse).getD .null := by
  rw [ofMembers, member, SortedMap.lookup_ofList]

/-! ## Leaves -/

mutual

/-- The strings in a value, its keys apart. -/
def strings : Json D → List Bytes
  | string s => [s]
  | array values => stringsOfItems values
  | object values => stringsOfMembers values
  | _ => []

def stringsOfItems : List (Json D) → List Bytes
  | [] => []
  | v :: rest => v.strings ++ stringsOfItems rest

def stringsOfMembers : List (Bytes × Json D) → List Bytes
  | [] => []
  | (_, v) :: rest => v.strings ++ stringsOfMembers rest

end

mutual

def numbers : Json D → List D
  | number x => [x]
  | array values => numbersOfItems values
  | object values => numbersOfMembers values
  | _ => []

def numbersOfItems : List (Json D) → List D
  | [] => []
  | v :: rest => v.numbers ++ numbersOfItems rest

def numbersOfMembers : List (Bytes × Json D) → List D
  | [] => []
  | (_, v) :: rest => v.numbers ++ numbersOfMembers rest

end

theorem mem_strings_array {values : List (Json D)} {s : Bytes} :
    s ∈ (array values).strings ↔ ∃ v ∈ values, s ∈ v.strings := by
  rw [strings]
  induction values with
  | nil => simp [stringsOfItems]
  | cons v values ih => simp [stringsOfItems, ih]

theorem mem_strings_object {values : List (Bytes × Json D)} {s : Bytes} :
    s ∈ (object values).strings ↔ ∃ kv ∈ values, s ∈ kv.2.strings := by
  rw [strings]
  induction values with
  | nil => simp [stringsOfMembers]
  | cons kv values ih =>
      obtain ⟨k, v⟩ := kv
      rw [stringsOfMembers, List.mem_append, ih, List.exists_mem_cons_iff]

theorem mem_numbers_array {values : List (Json D)} {x : D} :
    x ∈ (array values).numbers ↔ ∃ v ∈ values, x ∈ v.numbers := by
  rw [numbers]
  induction values with
  | nil => simp [numbersOfItems]
  | cons v values ih => simp [numbersOfItems, ih]

theorem mem_numbers_object {values : List (Bytes × Json D)} {x : D} :
    x ∈ (object values).numbers ↔ ∃ kv ∈ values, x ∈ kv.2.numbers := by
  rw [numbers]
  induction values with
  | nil => simp [numbersOfMembers]
  | cons kv values ih =>
      obtain ⟨k, v⟩ := kv
      rw [numbersOfMembers, List.mem_append, ih, List.exists_mem_cons_iff]

end Json

end SecDetector.Usage
