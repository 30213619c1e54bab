import Mathlib.Data.Nat.ModEq
import Mathlib.Logic.Function.Basic
import Mathlib.Tactic.NormNum

/-!
# A queue with free-running counters

The kernel's `kfifo`, one element at a time.  The counters are 32-bit words that are never
reduced to the size of the buffer; they wrap around, and only their difference and their
low bits are used.  That works because the size is a power of two and at most `2 ^ 31`.

`toList` is what the queue holds, oldest element first.  The rest of the module says that
`put` appends to this list and `get` takes its head.
-/

namespace SecDetector.Lib

/-- A buffer of `2 ^ order` slots with its two counters. -/
structure Kfifo (α : Type*) where
  order : ℕ
  posIn : BitVec 32
  posOut : BitVec 32
  data : ℕ → α
  order_le : order ≤ 31
  len_le : (posIn - posOut).toNat ≤ 2 ^ order

namespace Kfifo

variable {α : Type*}

/-- An empty queue, with whatever is in its slots. -/
def empty (order : ℕ) (data : ℕ → α) (horder : order ≤ 31) : Kfifo α where
  order := order
  posIn := 0
  posOut := 0
  data := data
  order_le := horder
  len_le := by simp

variable (f : Kfifo α)

/-- The number of slots. -/
def size : ℕ := 2 ^ f.order

def mask : ℕ := f.size - 1

/-- The number of elements. -/
def len : ℕ := (f.posIn - f.posOut).toNat

/-- The number of free slots. -/
def avail : ℕ := f.size - f.len

def isEmpty : Bool := f.posIn == f.posOut

theorem size_pos : 0 < f.size := Nat.two_pow_pos f.order

theorem size_le : f.size ≤ 2 ^ 31 := Nat.pow_le_pow_right (by norm_num) f.order_le

theorem size_dvd : f.size ∣ 2 ^ 32 := Nat.pow_dvd_pow 2 (Nat.le_trans f.order_le (by norm_num))

theorem len_le_size : f.len ≤ f.size := f.len_le

theorem and_mask (pos : ℕ) : pos &&& f.mask = pos % f.size :=
  Nat.and_two_pow_sub_one_eq_mod pos f.order

theorem avail_eq_zero_iff : f.avail = 0 ↔ f.len = f.size := by
  have hle := f.len_le_size
  unfold avail
  omega

theorem isEmpty_iff : f.isEmpty = true ↔ f.len = 0 := by
  unfold isEmpty len
  rw [beq_iff_eq]
  bv_omega

/-! ## Operations -/

theorem len_succ {posIn posOut : BitVec 32} (hlt : (posIn - posOut).toNat < 2 ^ 31) :
    (posIn + 1 - posOut).toNat = (posIn - posOut).toNat + 1 := by
  bv_omega

theorem len_pred {posIn posOut : BitVec 32} (hpos : (posIn - posOut).toNat ≠ 0) :
    (posIn - (posOut + 1)).toNat = (posIn - posOut).toNat - 1 := by
  bv_omega

/-- Put one element in, if there is room; the result is how many went in. -/
def put (a : α) : ℕ × Kfifo α :=
  if hfull : f.avail = 0 then (0, f)
  else (1, { f with
    posIn := f.posIn + 1
    data := fun i => if i = f.posIn.toNat &&& f.mask then a else f.data i
    len_le := by
      have hlt : f.len < f.size := by
        have hle := f.len_le_size
        rw [avail_eq_zero_iff] at hfull
        omega
      calc (f.posIn + 1 - f.posOut).toNat
          = f.len + 1 := len_succ (Nat.lt_of_lt_of_le hlt f.size_le)
        _ ≤ f.size := hlt })

/-- Take one element out, if there is one. -/
def get : Option α × Kfifo α :=
  if hempty : f.len = 0 then (none, f)
  else (some (f.data (f.posOut.toNat &&& f.mask)), { f with
    posOut := f.posOut + 1
    len_le := by
      calc (f.posIn - (f.posOut + 1)).toNat
          = f.len - 1 := len_pred hempty
        _ ≤ f.len := Nat.sub_le _ _
        _ ≤ f.size := f.len_le_size })

/-! ## The list of the elements -/

/-- The element that is `k` behind the oldest one. -/
def slot (k : ℕ) : α := f.data ((f.posOut.toNat + k) % f.size)

/-- The elements, oldest first. -/
def toList : List α := (List.range f.len).map f.slot

@[simp] theorem length_toList : f.toList.length = f.len := by simp [toList]

@[simp] theorem toList_empty {order : ℕ} (data : ℕ → α) (horder : order ≤ 31) :
    (empty order data horder).toList = [] := by
  simp [toList, len, empty]

theorem toList_eq_nil_iff : f.toList = [] ↔ f.len = 0 := by
  rw [← List.length_eq_zero_iff, length_toList]

/-- The counters agree on the slot behind the last element. -/
theorem posIn_mod : f.posIn.toNat % f.size = (f.posOut.toNat + f.len) % f.size := by
  have hsum : f.posIn.toNat = (f.posOut.toNat + f.len) % 2 ^ 32 := by
    unfold len
    bv_omega
  rw [hsum, Nat.mod_mod_of_dvd _ f.size_dvd]

/-- Different elements are in different slots. -/
theorem slot_ne {k : ℕ} (hk : k < f.len) (hroom : f.len < f.size) :
    (f.posOut.toNat + k) % f.size ≠ (f.posOut.toNat + f.len) % f.size := by
  intro heq
  have hmod : k ≡ f.len [MOD f.size] := Nat.ModEq.add_left_cancel' _ heq
  have hsame : k = f.len := Nat.ModEq.eq_of_lt_of_lt hmod (Nat.lt_trans hk hroom) hroom
  omega

/-- **`put` appends.** -/
theorem put_spec (a : α) (hroom : f.len < f.size) :
    ∃ f', f.put a = (1, f') ∧ f'.order = f.order ∧ f'.toList = f.toList ++ [a] := by
  have hfull : f.avail ≠ 0 := by
    rw [Ne, avail_eq_zero_iff]
    omega
  rw [put, dif_neg hfull]
  refine ⟨_, rfl, rfl, ?_⟩
  have hlen : (f.posIn + 1 - f.posOut).toNat = f.len + 1 :=
    len_succ (Nat.lt_of_lt_of_le hroom f.size_le)
  show (List.range (f.posIn + 1 - f.posOut).toNat).map (fun k =>
      if (f.posOut.toNat + k) % f.size = f.posIn.toNat &&& f.mask then a else f.slot k) = _
  rw [hlen, List.range_succ, List.map_append]
  congr 1
  · apply List.map_congr_left
    intro k hk
    have hne := f.slot_ne (List.mem_range.mp hk) hroom
    rw [← posIn_mod, ← f.and_mask f.posIn.toNat] at hne
    exact if_neg hne
  · have heq := f.posIn_mod
    rw [← and_mask] at heq
    exact congrArg (fun x => [x]) (if_pos heq.symm)

theorem get_of_empty (hempty : f.len = 0) : f.get = (none, f) := by
  rw [get, dif_pos hempty]

/-- **`get` takes the head.** -/
theorem get_spec (hsome : f.len ≠ 0) :
    ∃ a f', f.get = (some a, f') ∧ f'.order = f.order ∧ f.toList = a :: f'.toList := by
  rw [get, dif_neg hsome]
  refine ⟨_, _, rfl, rfl, ?_⟩
  have hlen : (f.posIn - (f.posOut + 1)).toNat = f.len - 1 := len_pred hsome
  have hrange : f.len = f.len - 1 + 1 := by omega
  show _ = f.data (f.posOut.toNat &&& f.mask) :: (List.range (f.posIn - (f.posOut + 1)).toNat).map
    (fun k => f.data (((f.posOut + 1).toNat + k) % f.size))
  rw [hlen, toList, hrange, List.range_succ_eq_map, List.map_cons, List.map_map,
    Nat.add_sub_cancel]
  congr 1
  · rw [and_mask]
    rfl
  · apply List.map_congr_left
    intro k _
    -- the next slot, also where the counter wraps around
    have hmod : (f.posOut + 1).toNat % f.size = (f.posOut.toNat + 1) % f.size := by
      rw [BitVec.toNat_add, Nat.mod_mod_of_dvd _ f.size_dvd]
      rfl
    show f.data ((f.posOut.toNat + (k + 1)) % f.size) =
      f.data (((f.posOut + 1).toNat + k) % f.size)
    rw [Nat.add_mod (f.posOut + 1).toNat, hmod, ← Nat.add_mod, Nat.add_right_comm,
      Nat.add_assoc]

end Kfifo

end SecDetector.Lib
