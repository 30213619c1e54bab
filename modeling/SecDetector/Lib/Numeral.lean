import Mathlib.Algebra.Order.Field.Rat
import Mathlib.Data.List.TakeWhile
import Mathlib.Data.Nat.Notation
import SecDetector.Lib.CString

/-!
# Decimal numerals

`Digits` is a row of decimal digits.  What a scanner does with one is the same everywhere: it takes
the digits and stops at what follows (`Digits.takeWhile_append`, `Digits.dropWhile_append`).  What
is printed for a natural number is such a row, with that number as its value and without a zero in
front (`isDigit_decimal`, `digitsValue_decimal`, `decimal_no_leading_zero`).

`stod` is the conversion of the standard library, for the decimal forms of its argument: it takes
the longest numeral at the front, after white space, and throws if there is none.  Its values are
rational numbers here, so nothing is rounded and nothing is out of range; the hexadecimal forms and
the names of infinity and NaN are left out.
-/

namespace SecDetector.Lib

/-- Nothing, or a byte at the front that is not as `p` says. -/
def StopsAt (p : UInt8 → Bool) (s : List UInt8) : Prop := ∀ c ∈ s.head?, p c = false

theorem StopsAt.takeWhile {p : UInt8 → Bool} {s : List UInt8} (hstop : StopsAt p s) :
    s.takeWhile p = [] := by
  cases s with
  | nil => rfl
  | cons c s => exact List.takeWhile_cons_of_neg (by simp [hstop c rfl])

theorem StopsAt.dropWhile {p : UInt8 → Bool} {s : List UInt8} (hstop : StopsAt p s) :
    s.dropWhile p = s := by
  cases s with
  | nil => rfl
  | cons c s => exact List.dropWhile_cons_of_neg (by simp [hstop c rfl])

def isDigit (c : UInt8) : Bool := 0x30 ≤ c && c ≤ 0x39

/-- The white space of the C locale. -/
def isspace (c : UInt8) : Bool := c == 0x20 || (0x09 ≤ c && c ≤ 0x0d)

/-- The number that a row of digits writes. -/
def digitsValue (ds : List UInt8) : ℕ := ds.foldl (fun n c => 10 * n + (c - 0x30).toNat) 0

/-- A row of digits. -/
structure Digits where
  bytes : List UInt8
  digits : ∀ c ∈ bytes, isDigit c = true
  deriving DecidableEq

namespace Digits

variable {p : UInt8 → Bool} {rest : List UInt8} (ds : Digits)

def value : ℕ := digitsValue ds.bytes

theorem takeWhile_append (hstop : StopsAt isDigit rest) :
    (ds.bytes ++ rest).takeWhile isDigit = ds.bytes := by
  rw [List.takeWhile_append_of_pos ds.digits, hstop.takeWhile, List.append_nil]

theorem dropWhile_append (hstop : StopsAt isDigit rest) :
    (ds.bytes ++ rest).dropWhile isDigit = rest := by
  rw [List.dropWhile_append_of_pos ds.digits, hstop.dropWhile]

end Digits

/-! ## Printed integers -/

theorem digitChar_range {c : Char} (hdigit : c.isDigit = true) :
    48 ≤ c.toNat ∧ c.toNat ≤ 57 := by
  simpa [Char.isDigit, UInt32.le_iff_toNat_le] using hdigit

theorem toNat_ofNat_digit {c : Char} (hdigit : c.isDigit = true) :
    (UInt8.ofNat c.toNat).toNat = c.toNat := by
  have hrange := digitChar_range hdigit
  rw [UInt8.toNat_ofNat']
  omega

theorem isDigit_ofNat {c : Char} (hdigit : c.isDigit = true) :
    isDigit (UInt8.ofNat c.toNat) = true := by
  have hrange := digitChar_range hdigit
  have hnat := toNat_ofNat_digit hdigit
  simp only [isDigit, Bool.and_eq_true, decide_eq_true_eq, UInt8.le_iff_toNat_le, hnat]
  exact hrange

theorem isDigit_decimal (n : ℕ) : ∀ c ∈ (decimal n).bytes, isDigit c = true := by
  intro c hc
  obtain ⟨d, hd, rfl⟩ := List.mem_map.mp hc
  exact isDigit_ofNat (Nat.isDigit_of_mem_toDigits (by decide) (by decide) hd)

theorem toNat_sub_digit {c : Char} (hdigit : c.isDigit = true) :
    (UInt8.ofNat c.toNat - 0x30).toNat = c.toNat - 48 := by
  have hrange := digitChar_range hdigit
  have hle : (0x30 : UInt8) ≤ UInt8.ofNat c.toNat := by
    rw [UInt8.le_iff_toNat_le, toNat_ofNat_digit hdigit]
    exact hrange.1
  rw [UInt8.toNat_sub_of_le _ _ hle, toNat_ofNat_digit hdigit]
  rfl

theorem foldl_ofNat_digits {l : List Char} (hl : ∀ c ∈ l, c.isDigit = true) (n : ℕ) :
    (l.map fun c => UInt8.ofNat c.toNat).foldl (fun n c => 10 * n + (c - 0x30).toNat) n =
      Nat.ofDigitChars 10 l n := by
  induction l generalizing n with
  | nil => rfl
  | cons c l ih =>
      obtain ⟨hc, hl⟩ := List.forall_mem_cons.mp hl
      rw [List.map_cons, List.foldl_cons, toNat_sub_digit hc, ih hl, Nat.ofDigitChars_cons]
      rfl

theorem digitsValue_decimal (n : ℕ) : digitsValue (decimal n).bytes = n :=
  (foldl_ofNat_digits (fun _ hc => Nat.isDigit_of_mem_toDigits (by decide) (by decide) hc) 0).trans
    Nat.ofDigitChars_ten_toDigits

/-- The first digit of a positive number is not zero. -/
theorem toDigits_ne_zero_cons {n : ℕ} (hpos : 0 < n) (ds : List Char) :
    Nat.toDigits 10 n ≠ '0' :: ds := by
  induction n using Nat.strong_induction_on generalizing ds with
  | _ n ih =>
      rw [Nat.toDigits_eq_if (by decide)]
      split
      · intro h
        exact absurd (Nat.digitChar_eq_zero.mp (List.cons.inj h).1) hpos.ne'
      · rename_i hle
        intro h
        cases hd : Nat.toDigits 10 (n / 10) with
        | nil => exact Nat.toDigits_ne_nil hd
        | cons c cs =>
            rw [hd, List.cons_append] at h
            have hc : c = '0' := (List.cons.inj h).1
            exact ih (n / 10) (by omega) (by omega) cs (hd.trans (by rw [hc]))

theorem decimal_no_leading_zero (n : ℕ) : ∀ ds, (decimal n).bytes = 0x30 :: ds → ds = [] := by
  intro ds hds
  rcases Nat.eq_zero_or_pos n with rfl | hpos
  · exact (List.cons.inj hds).2.symm
  · obtain ⟨c, cs, hcs⟩ := List.exists_cons_of_ne_nil (Nat.toDigits_ne_nil (n := n) (b := 10))
    have hdigit : c.isDigit = true :=
      Nat.isDigit_of_mem_toDigits (b := 10) (by decide) (by decide) (by rw [hcs]; simp)
    have hbytes : (decimal n).bytes = (c :: cs).map fun d => UInt8.ofNat d.toNat :=
      congrArg (List.map fun d : Char => UInt8.ofNat d.toNat) hcs
    have hzero : UInt8.ofNat c.toNat = 0x30 := (List.cons.inj (hbytes.symm.trans hds)).1
    have hnat : c.toNat = 48 := by
      rw [← toNat_ofNat_digit hdigit, hzero]
      rfl
    have hc : c = '0' := Char.toNat_inj.mp hnat
    exact absurd (hc ▸ hcs) (toDigits_ne_zero_cons hpos cs)

/-! ## Conversion -/

/-- A sign at the front, and what is behind it. -/
def takeSign : List UInt8 → Bool × List UInt8
  | 0x2b :: s => (false, s)
  | 0x2d :: s => (true, s)
  | s => (false, s)

theorem isspace_of_isDigit {c : UInt8} (h : isDigit c = true) : isspace c = false := by
  simp only [isDigit, isspace, Bool.and_eq_true, decide_eq_true_eq, Bool.or_eq_false_iff,
    beq_eq_false_iff_ne, Bool.and_eq_false_iff, decide_eq_false_iff_not, UInt8.le_iff_toNat_le,
    ne_eq, ← UInt8.toNat_inj] at h ⊢
  simp only [UInt8.reduceToNat] at h ⊢
  omega

theorem takeSign_of_isDigit {c : UInt8} (h : isDigit c = true) (s : List UInt8) :
    takeSign (c :: s) = (false, c :: s) := by
  have hplus : c ≠ 0x2b := by rintro rfl; cases h
  have hminus : c ≠ 0x2d := by rintro rfl; cases h
  simp [takeSign, hplus, hminus]

/-- The digits behind a point, and what is behind them. -/
def takeFraction : List UInt8 → List UInt8 × List UInt8
  | 0x2e :: s => (s.takeWhile isDigit, s.dropWhile isDigit)
  | s => ([], s)

/-- The exponent, zero if none is written. -/
def takeExponent : List UInt8 → ℤ
  | [] => 0
  | c :: s =>
      if c = 0x45 ∨ c = 0x65 then
        let (negative, s) := takeSign s
        let e : ℤ := digitsValue (s.takeWhile isDigit)
        if negative then -e else e
      else 0

/-- `std::stod`; nothing is its exception. -/
def stod (s : List UInt8) : Option ℚ :=
  let (negative, s) := takeSign (s.dropWhile isspace)
  let whole := s.takeWhile isDigit
  let (fraction, s) := takeFraction (s.dropWhile isDigit)
  if whole ++ fraction = [] then none
  else
    let x := (digitsValue (whole ++ fraction) : ℚ) / 10 ^ fraction.length * 10 ^ takeExponent s
    some (if negative then -x else x)

/-- A number without sign and exponent: digits, at least one in front of the point, and the
fraction if there is a point. -/
structure Numeral where
  whole : Digits
  fraction : Option Digits
  nonempty : whole.bytes ≠ []
  deriving DecidableEq

namespace Numeral

variable (n : Numeral)

def bytes : List UInt8 :=
  match n.fraction with
  | none => n.whole.bytes
  | some f => n.whole.bytes ++ 0x2e :: f.bytes

def value : ℚ :=
  match n.fraction with
  | none => n.whole.value
  | some f => (digitsValue (n.whole.bytes ++ f.bytes) : ℚ) / 10 ^ f.bytes.length

theorem bytes_ne_nil : n.bytes ≠ [] := by
  rw [bytes]
  split
  · exact n.nonempty
  · exact List.append_ne_nil_of_left_ne_nil n.nonempty _

theorem mem_bytes {c : UInt8} (hc : c ∈ n.bytes) : isDigit c = true ∨ c = 0x2e := by
  rw [bytes] at hc
  split at hc
  · exact Or.inl (n.whole.digits c hc)
  · rename_i f _
    rcases List.mem_append.mp hc with hc | hc
    · exact Or.inl (n.whole.digits c hc)
    rcases List.mem_cons.mp hc with rfl | hc
    · exact Or.inr rfl
    · exact Or.inl (f.digits c hc)

theorem value_nonneg : 0 ≤ n.value := by
  rw [value]
  split
  · exact Nat.cast_nonneg _
  · exact div_nonneg (Nat.cast_nonneg _) (pow_nonneg (by decide) _)

/-- **A numeral is converted to its value.** -/
theorem stod_bytes : stod n.bytes = some n.value := by
  obtain ⟨c, ds, hwhole⟩ := List.exists_cons_of_ne_nil n.nonempty
  have hc : isDigit c = true := n.whole.digits c (by simp [hwhole])
  -- neither white space nor a sign stands in front of it
  have hfront : ∀ s, takeSign ((n.whole.bytes ++ s).dropWhile isspace) =
      (false, n.whole.bytes ++ s) := by
    intro s
    rw [hwhole, List.cons_append, List.dropWhile_cons_of_neg (by simp [isspace_of_isDigit hc]),
      takeSign_of_isDigit hc]
  rw [stod, bytes, value]
  cases n.fraction with
  | none =>
      have hstop : StopsAt isDigit [] := nofun
      have htake := n.whole.takeWhile_append hstop
      have hdrop := n.whole.dropWhile_append hstop
      have hnil := hfront []
      rw [List.append_nil] at htake hdrop hnil
      simp only [hnil, htake, hdrop, takeFraction, takeExponent]
      rw [if_neg (by simp [n.nonempty])]
      simp [Digits.value]
  | some f =>
      have hstop : StopsAt isDigit (0x2e :: f.bytes) := by
        intro c hc
        obtain rfl : c = 0x2e := (Option.some.inj hc).symm
        rfl
      have hend : StopsAt isDigit [] := nofun
      have htake := f.takeWhile_append hend
      have hdrop := f.dropWhile_append hend
      rw [List.append_nil] at htake hdrop
      simp only [hfront, n.whole.takeWhile_append hstop, n.whole.dropWhile_append hstop,
        takeFraction, htake, hdrop, takeExponent]
      rw [if_neg (by simp [n.nonempty])]
      simp

end Numeral

end SecDetector.Lib
