import Mathlib.Data.List.Nodup
import Mathlib.Logic.Function.Basic
import SecDetector.Lib.CyclicMemory
import SecDetector.Lib.Memory

/-!
# Paged memory

A physical memory is a function from places, that is, from pages and offsets, to bytes.  A
mapping is a list of pages that are shown one after the other, each as `n` addresses.  A page
may be in several mappings, and more than once in one.

A store through one mapping is seen through another one exactly where the two have a place
in common.  `DoubleMap` is a mapping that shows its last pages twice, so that an area
that runs over the end of them continues at their start: it is a `Cyclic` memory
(`DoubleMap.data_store`).
-/

namespace SecDetector.Lib.Paging

variable {P : Type*} {n : ℕ} {mem : P × ℕ → UInt8} {a b addr off k : ℕ} {place : P × ℕ}
  {bytes : List UInt8}

section

variable {pages pages' : List P}

/-! ## Places -/

/-- The place that an address of a mapping denotes. -/
def translate (n : ℕ) (pages : List P) (addr : ℕ) : Option (P × ℕ) :=
  pages[addr / n]?.map fun page => (page, addr % n)

theorem translate_eq_some_iff :
    translate n pages addr = some place ↔
      pages[addr / n]? = some place.1 ∧ addr % n = place.2 := by
  rw [translate, Option.map_eq_some_iff]
  constructor
  · rintro ⟨page, hpage, rfl⟩
    exact ⟨hpage, rfl⟩
  · rintro ⟨hpage, hoff⟩
    exact ⟨place.1, hpage, Prod.ext rfl hoff⟩

theorem exists_translate (haddr : addr < n * pages.length) :
    ∃ place, translate n pages addr = some place := by
  have hindex : addr / n < pages.length := Nat.div_lt_of_lt_mul haddr
  exact ⟨(pages[addr / n], addr % n), by rw [translate, List.getElem?_eq_getElem hindex]; rfl⟩

/-- Where no page is shown twice, an address is determined by its place. -/
theorem translate_inj (hnodup : pages.Nodup) (ha : translate n pages a = some place)
    (hb : translate n pages b = some place) : a = b := by
  obtain ⟨hpage, hoff⟩ := translate_eq_some_iff.mp ha
  obtain ⟨hpage', hoff'⟩ := translate_eq_some_iff.mp hb
  have hindex : a / n = b / n :=
    (List.getElem?_inj (List.getElem?_eq_some_iff.mp hpage).1 hnodup).mp
      (hpage.trans hpage'.symm)
  calc a = n * (a / n) + a % n := (Nat.div_add_mod a n).symm
    _ = n * (b / n) + b % n := by rw [hindex, hoff, hoff']
    _ = b := Nat.div_add_mod b n

/-- A mapping of some consecutive pages of another one. -/
theorem translate_window {c : ℕ} (haddr : addr < n * c) :
    translate n ((pages.drop k).take c) addr = translate n pages (n * k + addr) := by
  have hn : 0 < n := Nat.pos_of_ne_zero fun hzero => by simp [hzero] at haddr
  have hindex : addr / n < c := Nat.div_lt_of_lt_mul haddr
  rw [translate, translate, List.getElem?_take_of_lt hindex, List.getElem?_drop,
    Nat.mul_add_div hn, Nat.mul_add_mod]

/-! ## Loads and stores -/

/-- The byte at an address; zero where nothing is mapped. -/
def view (n : ℕ) (pages : List P) (mem : P × ℕ → UInt8) (addr : ℕ) : UInt8 :=
  ((translate n pages addr).map mem).getD 0

theorem view_of_translate (h : translate n pages addr = some place) :
    view n pages mem addr = mem place := by
  rw [view, h]
  rfl

/-- The areas of `l` and of `k` bytes have no place in common. -/
def Apart (n : ℕ) (pages : List P) (addr l : ℕ) (pages' : List P) (off k : ℕ) : Prop :=
  ∀ i < l, ∀ j < k, ∀ place, translate n pages (addr + i) = some place →
    translate n pages' (off + j) ≠ some place

variable [DecidableEq P]

/-- Store a byte, if the address is mapped. -/
def storeByte (n : ℕ) (pages : List P) (mem : P × ℕ → UInt8) (addr : ℕ) (byte : UInt8) :
    P × ℕ → UInt8 :=
  match translate n pages addr with
  | some place => Function.update mem place byte
  | none => mem

/-- Store bytes one after the other. -/
def store (n : ℕ) (pages : List P) (mem : P × ℕ → UInt8) (addr : ℕ) :
    List UInt8 → P × ℕ → UInt8
  | [] => mem
  | byte :: bytes => store n pages (storeByte n pages mem addr byte) (addr + 1) bytes

theorem storeByte_of_ne {byte : UInt8} (hne : translate n pages addr ≠ some place) :
    storeByte n pages mem addr byte place = mem place := by
  rw [storeByte]
  cases hplace : translate n pages addr with
  | none => rfl
  | some place' =>
      refine Function.update_of_ne (fun heq => hne ?_) _ _
      rw [hplace, heq]

/-- A store changes no place outside its area. -/
theorem store_of_ne (hne : ∀ i < bytes.length, translate n pages (addr + i) ≠ some place) :
    store n pages mem addr bytes place = mem place := by
  induction bytes generalizing mem addr with
  | nil => rfl
  | cons byte bytes ih =>
      have hhead := hne 0 (by simp)
      rw [Nat.add_zero] at hhead
      rw [store, ih, storeByte_of_ne hhead]
      intro i hi
      rw [Nat.add_assoc, Nat.add_comm 1 i]
      exact hne (i + 1) (by simpa using hi)

/-- A store fills its area, if no two of its addresses denote the same place. -/
theorem store_at {i : ℕ} (hi : i < bytes.length)
    (hplace : translate n pages (addr + i) = some place)
    (hother : ∀ j < bytes.length, j ≠ i → translate n pages (addr + j) ≠ some place) :
    store n pages mem addr bytes place = bytes[i] := by
  induction bytes generalizing mem addr i with
  | nil => simp at hi
  | cons byte bytes ih =>
      cases i with
      | zero =>
          rw [store, store_of_ne]
          · rw [Nat.add_zero] at hplace
            rw [storeByte, hplace]
            exact Function.update_self _ _ _
          · intro j hj
            rw [Nat.add_assoc, Nat.add_comm 1 j]
            exact hother (j + 1) (by simpa using hj) (Nat.succ_ne_zero j)
      | succ i =>
          rw [store, List.getElem_cons_succ]
          refine ih _ ?_ fun j hj hne => ?_
          · rw [Nat.add_assoc, Nat.add_comm 1 i]
            exact hplace
          · rw [Nat.add_assoc, Nat.add_comm 1 j]
            exact hother (j + 1) (by simpa using hj) (by omega)

/-- A store is not seen where no place of it is shown. -/
theorem view_store_of_apart (hapart : Apart n pages addr bytes.length pages' off k) {j : ℕ}
    (hj : j < k) :
    view n pages' (store n pages mem addr bytes) (off + j) = view n pages' mem (off + j) := by
  cases hplace : translate n pages' (off + j) with
  | none => rw [view, view, hplace]; rfl
  | some place =>
      rw [view_of_translate hplace, view_of_translate hplace, store_of_ne]
      exact fun i hi hstored => hapart i hi j hj place hstored hplace

theorem load_store_of_apart (hapart : Apart n pages addr bytes.length pages' off k) :
    Memory.load (view n pages' (store n pages mem addr bytes)) off k =
      Memory.load (view n pages' mem) off k :=
  List.map_congr_left fun _ hj => view_store_of_apart hapart (List.mem_range.mp hj)

theorem loadNat_store_of_apart (hapart : Apart n pages addr bytes.length pages' off k) :
    Memory.loadNat (view n pages' (store n pages mem addr bytes)) off k =
      Memory.loadNat (view n pages' mem) off k := by
  rw [Memory.loadNat, Memory.loadNat, load_store_of_apart hapart]

/-- A store is read back. -/
theorem load_store_self (hmapped : ∀ i < bytes.length, translate n pages (addr + i) ≠ none)
    (hinj : ∀ i < bytes.length, ∀ j < bytes.length,
      translate n pages (addr + i) = translate n pages (addr + j) → i = j) :
    Memory.load (view n pages (store n pages mem addr bytes)) addr bytes.length = bytes := by
  apply List.ext_getElem (by simp)
  intro i hi hi'
  obtain ⟨place, hplace⟩ := Option.ne_none_iff_exists'.mp (hmapped i hi')
  simp only [Memory.load, List.getElem_map, List.getElem_range]
  rw [view_of_translate hplace]
  refine store_at hi' hplace fun j hj hne hsame => hne ?_
  exact hinj j hj i hi' (hsame.trans hplace.symm)

end

/-! ## Mappings that show pages twice -/

/-- The pages `head` once, and after them the pages `data` twice. -/
structure DoubleMap (P : Type*) where
  head : List P
  data : List P
  nodup : (head ++ data).Nodup

namespace DoubleMap

variable (d : DoubleMap P) (n : ℕ) {o p : ℕ}

def pages : List P := d.head ++ d.data ++ d.data

/-- Where the pages begin that are shown twice. -/
def base : ℕ := n * d.head.length

def size : ℕ := n * d.data.length

variable {n}

theorem exists_translate (haddr : addr < d.base n + 2 * d.size n) :
    ∃ place, translate n d.pages addr = some place := by
  apply Paging.exists_translate
  have hlen : n * d.pages.length = d.base n + 2 * d.size n := by
    simp only [pages, base, size, List.length_append]
    ring
  rwa [hlen]

/-- Before the second showing. -/
theorem translate_of_lt (haddr : addr < d.base n + d.size n) :
    translate n d.pages addr = translate n (d.head ++ d.data) addr := by
  have hindex : addr / n < (d.head ++ d.data).length := by
    apply Nat.div_lt_of_lt_mul
    rwa [List.length_append, Nat.mul_add]
  rw [translate, translate, pages, List.getElem?_append_left hindex]

/-- **The second showing**: `size` bytes further on is the same place. -/
theorem translate_add_size (ho : o < d.size n) :
    translate n d.pages (d.base n + o + d.size n) = translate n d.pages (d.base n + o) := by
  have hn : 0 < n := Nat.pos_of_ne_zero fun hzero => by simp [size, hzero] at ho
  have hindex : o / n < d.data.length := Nat.div_lt_of_lt_mul ho
  have hsecond : d.base n + o + d.size n = n * (d.head.length + d.data.length) + o := by
    simp only [base, size]
    ring
  rw [translate, translate, hsecond, base, Nat.mul_add_div hn, Nat.mul_add_div hn,
    Nat.mul_add_mod, Nat.mul_add_mod, pages]
  rw [List.getElem?_append_right (by simp), List.length_append, Nat.add_sub_cancel_left,
    List.getElem?_append_left (by simpa using hindex),
    List.getElem?_append_right (Nat.le_add_right _ _),
    Nat.add_sub_cancel_left]

theorem translate_mod (ho : o < 2 * d.size n) :
    translate n d.pages (d.base n + o % d.size n) = translate n d.pages (d.base n + o) := by
  rcases Nat.lt_or_ge o (d.size n) with hlt | hge
  · rw [Nat.mod_eq_of_lt hlt]
  · have hmod : o % d.size n = o - d.size n := by
      rw [Nat.mod_eq_sub_mod hge, Nat.mod_eq_of_lt (by omega)]
    have hsame := d.translate_add_size (n := n) (o := o - d.size n) (by omega)
    rw [hmod, ← hsame]
    congr 1
    omega

/-- Before the second showing, different addresses denote different places. -/
theorem translate_inj (ha : a < d.base n + d.size n) (hb : b < d.base n + d.size n)
    (hsame : translate n d.pages a = translate n d.pages b) : a = b := by
  have hmapped : a < d.base n + 2 * d.size n := by omega
  obtain ⟨place, hplace⟩ := d.exists_translate hmapped
  have hplace' := hsame.symm.trans hplace
  rw [d.translate_of_lt ha] at hplace
  rw [d.translate_of_lt hb] at hplace'
  exact Paging.translate_inj d.nodup hplace hplace'

/-- The first pages are not shown again. -/
theorem not_mem_drop (hk : k ≤ d.head.length) {page : P} (hpage : page ∈ d.pages.take k) :
    page ∉ d.pages.drop k := by
  have hnodup : (d.head.take k ++ (d.head.drop k ++ d.data)).Nodup := by
    rw [← List.append_assoc, List.take_append_drop]
    exact d.nodup
  have hdisjoint := List.disjoint_of_nodup_append hnodup
  rw [pages, List.append_assoc, List.take_append_of_le_length hk] at hpage
  intro hdrop
  rw [pages, List.append_assoc, List.drop_append_of_le_length hk] at hdrop
  apply hdisjoint hpage
  simpa using hdrop

/-- The area at `o` in the pages that are shown twice is apart from what is before them. -/
theorem apart_head {l : ℕ} (ho : o + l ≤ 2 * d.size n) (hoff : off + k ≤ d.base n) :
    Apart n d.pages (d.base n + o) l d.pages off k := by
  intro i hi j hj place hplace hplace'
  rw [Nat.add_assoc, ← d.translate_mod (by omega)] at hplace
  have hlt : (o + i) % d.size n < d.size n := Nat.mod_lt _ (by omega)
  have heq := d.translate_inj (by omega) (by omega) (hplace.trans hplace'.symm)
  omega

theorem apart_of_lt {l : ℕ} (haddr : addr + l ≤ d.base n + d.size n)
    (hoff : off + k ≤ d.base n + d.size n) (hapart : addr + l ≤ off ∨ off + k ≤ addr) :
    Apart n d.pages addr l d.pages off k := by
  intro i hi j hj place hplace hplace'
  have heq := d.translate_inj (by omega) (by omega) (hplace.trans hplace'.symm)
  omega

variable [DecidableEq P]

theorem load_store_self (haddr : addr + bytes.length ≤ d.base n + d.size n) :
    Memory.load (view n d.pages (store n d.pages mem addr bytes)) addr bytes.length = bytes := by
  apply Paging.load_store_self
  · intro i hi
    have hlt : addr + i < d.base n + 2 * d.size n := by omega
    obtain ⟨place, hplace⟩ := d.exists_translate hlt
    simp [hplace]
  · intro i hi j hj hsame
    have heq := d.translate_inj (by omega) (by omega) hsame
    omega

theorem loadNat_store_self {value : ℕ} (haddr : addr + k ≤ d.base n + d.size n)
    (hvalue : value < 256 ^ k) :
    Memory.loadNat (view n d.pages (store n d.pages mem addr (leBytes k value))) addr k =
      value := by
  have hbytes : addr + (leBytes k value).length ≤ d.base n + d.size n := by rwa [length_leBytes]
  have hload : Memory.load (view n d.pages (store n d.pages mem addr (leBytes k value))) addr
      (leBytes k value).length = leBytes k value := d.load_store_self hbytes
  rw [length_leBytes] at hload
  rw [Memory.loadNat, hload, leNat_leBytes hvalue]

/-- **The pages that are shown twice are a cyclic memory.** -/
theorem data_store (hbytes : bytes.length ≤ d.size n) (hp : p + bytes.length ≤ 2 * d.size n)
    (ho : o < d.size n) :
    view n d.pages (store n d.pages mem (d.base n + p) bytes) (d.base n + o) =
      Cyclic.store (d.size n) (fun o => view n d.pages mem (d.base n + o)) p bytes.length
        (fun i => bytes.getD i 0) o := by
  have hsize : 0 < d.size n := by omega
  -- the address `p + i` of the store and the byte `(p + i) % size` have the same place
  have hfold : ∀ i < bytes.length,
      translate n d.pages (d.base n + p + i) =
        translate n d.pages (d.base n + (p + i) % d.size n) := by
    intro i hi
    rw [Nat.add_assoc, d.translate_mod (by omega)]
  have hmapped : d.base n + o < d.base n + 2 * d.size n := by omega
  obtain ⟨place, hplace⟩ := d.exists_translate hmapped
  rw [view_of_translate hplace]
  by_cases hin : ∃ i < bytes.length, (p + i) % d.size n = o
  · obtain ⟨i, hi, rfl⟩ := hin
    rw [Cyclic.store_self hsize hbytes hi, List.getD_eq_getElem _ _ hi]
    apply store_at hi ((hfold i hi).trans hplace)
    intro j hj hne hsame
    rw [hfold j hj, ← hplace] at hsame
    have hmod := d.translate_inj (by have := Nat.mod_lt (p + j) hsize; omega) (by omega) hsame
    rcases Nat.lt_or_gt_of_ne hne with hlt | hlt
    · exact Cyclic.mod_ne_of_lt (n := d.size n) (p := p + j) (q := p + i) (by omega) (by omega)
        (by omega)
    · exact Cyclic.mod_ne_of_lt (n := d.size n) (p := p + i) (q := p + j) (by omega) (by omega)
        (by omega)
  · rw [not_exists] at hin
    have hout : ∀ i < bytes.length, (p + i) % d.size n ≠ o := fun i hi heq => hin i ⟨hi, heq⟩
    rw [Cyclic.store_other ho hout, view_of_translate hplace]
    refine store_of_ne fun i hi hsame => hout i hi ?_
    rw [hfold i hi, ← hplace] at hsame
    have hlt := Nat.mod_lt (p + i) hsize
    have heq := d.translate_inj (by omega) (by omega) hsame
    omega

end DoubleMap

end SecDetector.Lib.Paging
