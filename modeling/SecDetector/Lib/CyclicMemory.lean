import Mathlib.Data.Nat.Notation
import Mathlib.Data.Nat.ModEq

/-!
# Memory that wraps around

A memory of `n` bytes whose addresses are taken modulo `n`, so that an area may
run over the end and continue at the start.  Positions are natural numbers
that only grow: `pos` and `pos + n` are the same byte.

`Apart n p l q m` says that the areas of `l` bytes at `p` and of `m` bytes at `q`
share no byte.  It is proved by order (`apart_of_le`): two areas that follow each
other within one turn of the memory are apart.  Stores are framed by it
(`Same.store`), and areas are compared by `Same`.

Words of four bytes are little-endian.
-/

namespace SecDetector.Lib.Cyclic

variable {n p q l m : ℕ} {mem mem' : ℕ → UInt8} {src : ℕ → UInt8}

/-! ## Areas -/

/-- The areas share no byte. -/
def Apart (n p l q m : ℕ) : Prop :=
  ∀ i < l, ∀ j < m, (p + i) % n ≠ (q + j) % n

theorem Apart.symm (h : Apart n p l q m) : Apart n q m p l :=
  fun j hj i hi => (h i hi j hj).symm

/-- Parts of areas that are apart are apart. -/
theorem Apart.sub (h : Apart n p l q m) {a b l' m' : ℕ} (ha : a + l' ≤ l) (hb : b + m' ≤ m) :
    Apart n (p + a) l' (q + b) m' := by
  intro i hi j hj
  rw [Nat.add_assoc, Nat.add_assoc]
  exact h (a + i) (by omega) (b + j) (by omega)

/-- Two bytes less than one turn from each other are different. -/
theorem mod_ne_of_lt (hpq : p < q) (hturn : q < p + n) : p % n ≠ q % n := by
  intro hmod
  have hzero : (q - p) % n = 0 := Nat.sub_mod_eq_zero_of_mod_eq hmod.symm
  rw [Nat.mod_eq_of_lt (by omega)] at hzero
  omega

/-- Areas that follow each other within one turn are apart. -/
theorem apart_of_le (hpq : p + l ≤ q) (hturn : q + m ≤ p + n) : Apart n p l q m := by
  intro i hi j hj
  exact mod_ne_of_lt (by omega) (by omega)

/-- An area that begins within one turn of an area apart from it ends there too. -/
theorem Apart.le_turn (h : Apart n p l q m) (hl : 0 < l) (hturn : q ≤ p + n) : q + m ≤ p + n := by
  by_contra hover
  apply h 0 hl (p + n - q) (by omega)
  rw [Nat.add_sub_cancel' hturn, Nat.add_zero, Nat.add_mod_right]

/-- The two memories agree on an area. -/
def Same (n : ℕ) (mem mem' : ℕ → UInt8) (p l : ℕ) : Prop :=
  ∀ i < l, mem' ((p + i) % n) = mem ((p + i) % n)

theorem Same.trans {mem'' : ℕ → UInt8} (h : Same n mem mem' p l) (h' : Same n mem' mem'' p l) :
    Same n mem mem'' p l :=
  fun i hi => (h' i hi).trans (h i hi)

theorem Same.sub (h : Same n mem mem' p l) {a l' : ℕ} (ha : a + l' ≤ l) :
    Same n mem mem' (p + a) l' := by
  intro i hi
  rw [Nat.add_assoc]
  exact h (a + i) (by omega)

/-! ## Stores -/

/-- Copy `l` bytes of `src` to the area at `p`. -/
def store (n : ℕ) (mem : ℕ → UInt8) (p l : ℕ) (src : ℕ → UInt8) : ℕ → UInt8 :=
  fun x => if (x + (n - p % n)) % n < l then src ((x + (n - p % n)) % n) else mem x

/-- The distance of a byte from the start of its area. -/
theorem distance_eq (hn : 0 < n) {i : ℕ} (hi : i < n) :
    ((p + i) % n + (n - p % n)) % n = i := by
  have hlt := Nat.mod_lt p hn
  have hsplit : p + i + (n - p % n) = i + (p / n + 1) * n := by
    have hdiv := Nat.div_add_mod' p n
    rw [Nat.add_mul, Nat.one_mul]
    omega
  calc ((p + i) % n + (n - p % n)) % n = (p + i + (n - p % n)) % n := Nat.mod_add_mod _ _ _
    _ = (i + (p / n + 1) * n) % n := by rw [hsplit]
    _ = i % n := Nat.add_mul_mod_self_right _ _ _
    _ = i := Nat.mod_eq_of_lt hi

theorem store_self (hn : 0 < n) (hl : l ≤ n) {i : ℕ} (hi : i < l) :
    store n mem p l src ((p + i) % n) = src i := by
  rw [store, distance_eq hn (by omega), if_pos hi]

/-- A store changes no byte outside its area. -/
theorem store_other {x : ℕ} (hx : x < n) (hout : ∀ i < l, (p + i) % n ≠ x) :
    store n mem p l src x = mem x := by
  have hlt := Nat.mod_lt p (by omega : 0 < n)
  refine if_neg fun hin => hout _ hin ?_
  have hsplit : p % n + (x + (n - p % n)) = x + 1 * n := by omega
  -- going from `p` the distance of `x` leads back to `x`, after a full turn
  calc (p + (x + (n - p % n)) % n) % n = (p + (x + (n - p % n))) % n := Nat.add_mod_mod _ _ _
    _ = (p % n + (x + (n - p % n))) % n := (Nat.mod_add_mod _ _ _).symm
    _ = (x + 1 * n) % n := by rw [hsplit]
    _ = x % n := Nat.add_mul_mod_self_right _ _ _
    _ = x := Nat.mod_eq_of_lt hx

/-- A store keeps the areas apart from its own. -/
theorem Same.store (hn : 0 < n) (hapart : Apart n p l q m) :
    Same n mem (store n mem p l src) q m := by
  intro j hj
  exact store_other (Nat.mod_lt _ hn) fun i hi => hapart i hi j hj

theorem store_congr (hpq : p % n = q % n) : store n mem p l src = store n mem q l src := by
  funext x
  simp only [store, hpq]

/-! ## Words -/

/-- The bytes of a word. -/
def wordByte (w i : ℕ) : UInt8 :=
  UInt8.ofNat (w / 256 ^ i)

/-- Store a word of four bytes. -/
def storeWord (n : ℕ) (mem : ℕ → UInt8) (p w : ℕ) : ℕ → UInt8 :=
  store n mem p 4 (wordByte w)

/-- Load a word of four bytes. -/
def loadWord (n : ℕ) (mem : ℕ → UInt8) (p : ℕ) : ℕ :=
  (mem (p % n)).toNat + 256 * (mem ((p + 1) % n)).toNat + 256 ^ 2 * (mem ((p + 2) % n)).toNat +
    256 ^ 3 * (mem ((p + 3) % n)).toNat

theorem wordByte_toNat (w i : ℕ) : (wordByte w i).toNat = w / 256 ^ i % 256 := by
  simp [wordByte]

theorem loadWord_storeWord (hn : 4 ≤ n) {w : ℕ} (hw : w < 2 ^ 32) :
    loadWord n (storeWord n mem p w) p = w := by
  have hbyte : ∀ i < 4, (storeWord n mem p w ((p + i) % n)).toNat = w / 256 ^ i % 256 := by
    intro i hi
    rw [storeWord, store_self (by omega) hn hi, wordByte_toNat]
  have hfirst := hbyte 0 (by omega)
  rw [Nat.add_zero] at hfirst
  rw [loadWord, hfirst, hbyte 1 (by omega), hbyte 2 (by omega), hbyte 3 (by omega)]
  omega

theorem Same.loadWord (h : Same n mem mem' p 4) : loadWord n mem' p = loadWord n mem p := by
  have hfirst := h 0 (by omega)
  rw [Nat.add_zero] at hfirst
  rw [Cyclic.loadWord, Cyclic.loadWord, hfirst, h 1 (by omega), h 2 (by omega), h 3 (by omega)]

/-- The word before the stored one. -/
theorem loadWord_storeWord_next (hn : 8 ≤ n) (w : ℕ) :
    loadWord n (storeWord n mem (p + 4) w) p = loadWord n mem p := by
  have hapart : Apart n (p + 4) 4 p 4 := (apart_of_le (by omega) (by omega)).symm
  exact (Same.store (by omega) hapart).loadWord

theorem loadWord_congr (hpq : p % n = q % n) : loadWord n mem p = loadWord n mem q := by
  have hmod : ∀ i, (p + i) % n = (q + i) % n := fun i => Nat.ModEq.add_right i hpq
  rw [loadWord, loadWord, hpq, hmod, hmod, hmod]

/-! ## Loads -/

/-- The `l` bytes at `p`. -/
def load (n : ℕ) (mem : ℕ → UInt8) (p l : ℕ) : List UInt8 :=
  (List.range l).map fun i => mem ((p + i) % n)

theorem load_congr (hpq : p % n = q % n) : load n mem p l = load n mem q l := by
  apply List.map_congr_left
  intro i _
  rw [show (p + i) % n = (q + i) % n from Nat.ModEq.add_right i hpq]

end SecDetector.Lib.Cyclic
