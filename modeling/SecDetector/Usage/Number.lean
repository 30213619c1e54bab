import SecDetector.Lib.CString
import SecDetector.Lib.Numeral
import SecDetector.Usage.Json

/-!
# Numbers in a JSON text

`NumberFormat` is what the code has from the standard library for its doubles: how they are printed
and read.  Its laws are what `printf` and `strtod` promise.  A finite number has the text of a
`Printed` number, 17 digits are enough for it to be read as what it was, and a short integer is
read as the same number whether as a double or as an `int`.

`parseNumber` is the scanner of `json11`.  A printed number is read to its end, if what follows it
does not look like more of it (`parseNumber_format`).
-/

namespace SecDetector.Usage

open SecDetector.Lib

/-- A number as `%.17g` prints it: the digits in front of the point do not begin with a zero unless
that is all of them, and the exponent has a sign. -/
structure Printed where
  negative : Bool
  whole : Digits
  fraction : Option Digits
  /-- Whether the exponent is negative, and its digits. -/
  exponent : Option (Bool × Digits)
  whole_ne_nil : whole.bytes ≠ []
  no_leading_zero : ∀ ds, whole.bytes = 0x30 :: ds → ds = []
  fraction_ne_nil : ∀ ds ∈ fraction, ds.bytes ≠ []
  exponent_ne_nil : ∀ e ∈ exponent, e.2.bytes ≠ []

namespace Printed

variable (n : Printed)

def signText : Bytes := if n.negative then [0x2d] else []

def fractionText : Bytes := n.fraction.elim [] fun ds => 0x2e :: ds.bytes

def exponentText : Bytes :=
  n.exponent.elim [] fun e => 0x65 :: (if e.1 then 0x2d else 0x2b) :: e.2.bytes

def text : Bytes := n.signText ++ (n.whole.bytes ++ (n.fractionText ++ n.exponentText))

theorem mem_text {c : UInt8} (hc : c ∈ n.text) :
    isDigit c = true ∨ c ∈ ([0x2b, 0x2d, 0x2e, 0x65] : Bytes) := by
  simp only [text, List.mem_append] at hc
  rcases hc with hc | hc | hc | hc
  · rw [signText] at hc
    split at hc
    · rw [List.mem_singleton.mp hc]
      exact Or.inr (by decide)
    · cases hc
  · exact Or.inl (n.whole.digits c hc)
  · rw [fractionText] at hc
    cases hf : n.fraction with
    | none =>
        rw [hf] at hc
        cases hc
    | some ds =>
        rw [hf] at hc
        rcases List.mem_cons.mp hc with rfl | hc
        · exact Or.inr (by decide)
        · exact Or.inl (ds.digits c hc)
  · rw [exponentText] at hc
    cases he : n.exponent with
    | none =>
        rw [he] at hc
        cases hc
    | some e =>
        obtain ⟨negative, ds⟩ := e
        rw [he] at hc
        rcases List.mem_cons.mp hc with rfl | hc
        · exact Or.inr (by decide)
        rcases List.mem_cons.mp hc with rfl | hc
        · cases negative <;> exact Or.inr (by simp)
        · exact Or.inl (ds.digits c hc)

theorem text_front : ∃ c t, n.text = c :: t ∧ (c = 0x2d ∨ isDigit c = true) := by
  rw [text, signText]
  cases n.negative with
  | true => exact ⟨0x2d, _, rfl, Or.inl rfl⟩
  | false =>
      obtain ⟨c, ds, hds⟩ := List.exists_cons_of_ne_nil n.whole_ne_nil
      refine ⟨c, ds ++ (n.fractionText ++ n.exponentText), ?_, ?_⟩
      · rw [hds]
        rfl
      · exact Or.inr (n.whole.digits c (by simp [hds]))

end Printed

/-- `std::atoi`, for a sign and digits. -/
def atoi : Bytes → ℤ
  | 0x2d :: s => -(digitsValue (s.takeWhile isDigit) : ℤ)
  | s => digitsValue (s.takeWhile isDigit)

/-- The doubles, as the code prints and reads them, but for `-0.0`.  Of it `printed` and `strtod_int`
do not hold together, since `-0` is a short integer and so read as the `int` `0`; `json11` compares
the two as equal, so here they are one number. -/
structure NumberFormat (D : Type) where
  isfinite : D → Bool
  /-- The double of an `int`. -/
  ofInt : ℤ → D
  /-- `snprintf` with `%.17g`. -/
  format : D → Bytes
  /-- `std::fixed`. -/
  fixed : D → Bytes
  strtod : Bytes → D
  stod : Bytes → Option D
  printed : ∀ x, isfinite x = true → ∃ n : Printed, format x = n.text ∧ strtod n.text = x
  strtod_int : ∀ n : Printed, n.fraction = none → n.exponent = none → n.text.length ≤ 9 →
    strtod n.text = ofInt (atoi n.text)

/-! ## Errors -/

/-- A character in an error message. -/
def esc (c : UInt8) : Bytes :=
  let code : ℤ := if c < 0x80 then c.toNat else c.toNat - 256
  let number := str "(" ++ (signed code).bytes ++ str ")"
  if 0x20 ≤ c ∧ c ≤ 0x7f then str "'" ++ [c] ++ str "' " ++ number else number

/-- `str[i]`, which is a NUL at the end. -/
def front (s : Bytes) : UInt8 := s.headD 0

/-! ## The scanner -/

/-- An optional sign. -/
def scanSign : Bytes → Bytes × Bytes
  | 0x2d :: s => ([0x2d], s)
  | s => ([], s)

/-- The integer part. -/
def scanWhole (s : Bytes) : Except Bytes (Bytes × Bytes) :=
  if front s = 0x30 then
    if isDigit (front s.tail) then .error (str "leading 0s not permitted in numbers")
    else .ok ([0x30], s.tail)
  else if isDigit (front s) then .ok (s.takeWhile isDigit, s.dropWhile isDigit)
  else .error (str "invalid " ++ esc (front s) ++ str " in number")

/-- The decimal part, with its point. -/
def scanFraction : Bytes → Except Bytes (Bytes × Bytes)
  | 0x2e :: s =>
      if isDigit (front s) then .ok (0x2e :: s.takeWhile isDigit, s.dropWhile isDigit)
      else .error (str "at least one digit required in fractional part")
  | s => .ok ([], s)

/-- An optional sign of an exponent. -/
def scanExponentSign : Bytes → Bytes × Bytes
  | 0x2b :: s => ([0x2b], s)
  | 0x2d :: s => ([0x2d], s)
  | s => ([], s)

/-- The exponent part, with its letter and sign. -/
def scanExponent : Bytes → Except Bytes (Bytes × Bytes)
  | [] => .ok ([], [])
  | c :: s =>
      if c = 0x65 ∨ c = 0x45 then
        let (sign, s) := scanExponentSign s
        if isDigit (front s) then .ok (c :: sign ++ s.takeWhile isDigit, s.dropWhile isDigit)
        else .error (str "at least one digit required in exponent")
      else .ok ([], c :: s)

variable {D : Type} (F : NumberFormat D)

/-- `parse_number`.  `digits10` of an `int` is 9. -/
def parseNumber (s : Bytes) : Except Bytes (D × Bytes) := do
  let (sign, s) := scanSign s
  let (whole, s) ← scanWhole s
  if front s ≠ 0x2e ∧ front s ≠ 0x65 ∧ front s ≠ 0x45 ∧ (sign ++ whole).length ≤ 9 then
    .ok (F.ofInt (atoi (sign ++ whole)), s)
  else
    let (fraction, s) ← scanFraction s
    let (exponent, s) ← scanExponent s
    .ok (F.strtod (sign ++ (whole ++ (fraction ++ exponent))), s)

/-- What would be read as more of a number. -/
def numberByte (c : UInt8) : Bool := isDigit c || c == 0x2e || c == 0x65 || c == 0x45

/-! ## A printed number is read -/

theorem stopsAt_front {p : UInt8 → Bool} {s : Bytes} (hnul : p 0 = false) (hstop : StopsAt p s) :
    p (front s) = false := by
  cases s with
  | nil => exact hnul
  | cons c s => exact hstop c rfl

section Scan

variable {rest : Bytes}

theorem stopsAt_cons {p : UInt8 → Bool} {c : UInt8} (hc : p c = false) :
    StopsAt p (c :: rest) := by
  rintro d hd
  obtain rfl : c = d := Option.some.inj hd
  exact hc

theorem stopsAt_isDigit (hstop : StopsAt numberByte rest) : StopsAt isDigit rest := by
  intro c hc
  have hbyte := hstop c hc
  simp only [numberByte, Bool.or_eq_false_iff] at hbyte
  exact hbyte.1.1.1

/-- A row of digits that is not empty. -/
theorem isDigit_front_append (rest : Bytes) {ds : Digits} (hne : ds.bytes ≠ []) :
    isDigit (front (ds.bytes ++ rest)) = true := by
  obtain ⟨c, cs, hcs⟩ := List.exists_cons_of_ne_nil hne
  rw [hcs]
  exact ds.digits c (by simp [hcs])

theorem scanSign_text (n : Printed) :
    scanSign (n.signText ++ (n.whole.bytes ++ rest)) = (n.signText, n.whole.bytes ++ rest) := by
  rw [Printed.signText]
  cases n.negative with
  | true => rfl
  | false =>
      obtain ⟨c, ds, hds⟩ := List.exists_cons_of_ne_nil n.whole_ne_nil
      have hdigit : isDigit c = true := n.whole.digits c (by simp [hds])
      have hc : c ≠ 0x2d := by
        rintro rfl
        cases hdigit
      rw [hds]
      simp [scanSign, hc]

theorem scanWhole_text (n : Printed) (hstop : StopsAt isDigit rest) :
    scanWhole (n.whole.bytes ++ rest) = .ok (n.whole.bytes, rest) := by
  have htake := n.whole.takeWhile_append hstop
  have hdrop := n.whole.dropWhile_append hstop
  have hdigit := isDigit_front_append rest n.whole_ne_nil
  rw [scanWhole]
  split
  · rename_i hzero
    obtain ⟨c, ds, hds⟩ := List.exists_cons_of_ne_nil n.whole_ne_nil
    rw [hds] at hzero
    obtain rfl : c = 0x30 := hzero
    obtain rfl := n.no_leading_zero ds hds
    rw [hds]
    exact if_neg (by simp [stopsAt_front rfl hstop])
  · rw [htake, hdrop]

theorem scanFraction_text (n : Printed) (hstop : StopsAt isDigit rest)
    (hpoint : StopsAt (· == 0x2e) rest) :
    scanFraction (n.fractionText ++ rest) = .ok (n.fractionText, rest) := by
  rw [Printed.fractionText]
  cases hf : n.fraction with
  | none =>
      cases rest with
      | nil => rfl
      | cons c rest =>
          have hc : c ≠ 0x2e := by simpa using hpoint c rfl
          simp [scanFraction, hc]
  | some ds =>
      have hdigit := isDigit_front_append rest (n.fraction_ne_nil ds hf)
      simp [scanFraction, hdigit, ds.takeWhile_append hstop, ds.dropWhile_append hstop]

theorem scanExponent_text (n : Printed) (hstop : StopsAt numberByte rest) :
    scanExponent (n.exponentText ++ rest) = .ok (n.exponentText, rest) := by
  rw [Printed.exponentText]
  cases he : n.exponent with
  | none =>
      cases rest with
      | nil => rfl
      | cons c rest =>
          have hc : c ≠ 0x65 ∧ c ≠ 0x45 := by
            have hbyte := hstop c rfl
            simp only [numberByte, Bool.or_eq_false_iff, beq_eq_false_iff_ne] at hbyte
            exact ⟨hbyte.1.2, hbyte.2⟩
          simp [scanExponent, hc]
  | some e =>
      obtain ⟨negative, ds⟩ := e
      have hdigits : StopsAt isDigit rest := stopsAt_isDigit hstop
      have hdigit := isDigit_front_append rest (n.exponent_ne_nil _ he)
      have htake := ds.takeWhile_append hdigits
      have hdrop := ds.dropWhile_append hdigits
      cases negative <;> simp [scanExponent, scanExponentSign, hdigit, htake, hdrop]

theorem stopsAt_fractionText {p : UInt8 → Bool} (n : Printed) (hp : p 0x2e = false)
    (hstop : StopsAt p rest) : StopsAt p (n.fractionText ++ rest) := by
  rw [Printed.fractionText]
  cases n.fraction with
  | none => exact hstop
  | some ds => exact stopsAt_cons hp

theorem stopsAt_exponentText {p : UInt8 → Bool} (n : Printed) (hp : p 0x65 = false)
    (hstop : StopsAt p rest) : StopsAt p (n.exponentText ++ rest) := by
  rw [Printed.exponentText]
  cases n.exponent with
  | none => exact hstop
  | some e => exact stopsAt_cons hp

/-- Behind the integer part, `atoi` is only used if nothing but that was printed. -/
theorem integer_of_front (n : Printed)
    (hpoint : front (n.fractionText ++ (n.exponentText ++ rest)) ≠ 0x2e)
    (hletter : front (n.fractionText ++ (n.exponentText ++ rest)) ≠ 0x65) :
    n.fraction = none ∧ n.exponent = none := by
  cases hf : n.fraction with
  | some ds =>
      rw [Printed.fractionText, hf] at hpoint
      exact absurd rfl hpoint
  | none =>
      rw [Printed.fractionText, hf] at hletter
      cases he : n.exponent with
      | some e =>
          rw [Printed.exponentText, he] at hletter
          exact absurd rfl hletter
      | none => exact ⟨rfl, rfl⟩

end Scan

/-- **What is printed for a finite number is read as that number.** -/
theorem parseNumber_format {x : D} (hfinite : F.isfinite x = true) {rest : Bytes}
    (hstop : StopsAt numberByte rest) : parseNumber F (F.format x ++ rest) = .ok (x, rest) := by
  obtain ⟨n, hformat, hread⟩ := F.printed x hfinite
  have hpoint : StopsAt (· == 0x2e) rest := by
    intro c hc
    have hbyte := hstop c hc
    simp only [numberByte, Bool.or_eq_false_iff] at hbyte
    exact hbyte.1.1.2
  have hexponent := stopsAt_exponentText n rfl (stopsAt_isDigit hstop)
  have hwhole := scanWhole_text n (stopsAt_fractionText n rfl hexponent)
  have hfraction := scanFraction_text n hexponent (stopsAt_exponentText n rfl hpoint)
  rw [hformat, Printed.text, List.append_assoc, List.append_assoc, List.append_assoc, parseNumber,
    scanSign_text]
  dsimp only
  rw [hwhole]
  show (if _ then _ else _) = _
  split
  · rename_i hshort
    obtain ⟨hf, he⟩ := integer_of_front n hshort.1 hshort.2.1
    have htext : n.text = n.signText ++ n.whole.bytes := by
      simp [Printed.text, Printed.fractionText, Printed.exponentText, hf, he]
    rw [← htext, ← F.strtod_int n hf he (htext ▸ hshort.2.2.2), hread, Printed.fractionText,
      Printed.exponentText, hf, he]
    rfl
  · rw [hfraction]
    show (do let (exponent, s) ← scanExponent (n.exponentText ++ rest); _) = _
    rw [scanExponent_text n hstop]
    show Except.ok (F.strtod n.text, rest) = _
    rw [hread]

/-! ## Integers -/

/-- An integer as it is printed. -/
def Printed.ofInt (i : ℤ) : Printed where
  negative := i < 0
  whole := ⟨(decimal i.natAbs).bytes, isDigit_decimal _⟩
  fraction := none
  exponent := none
  whole_ne_nil := by
    intro hnil
    exact Nat.toDigits_ne_nil (List.map_eq_nil_iff.mp hnil)
  no_leading_zero := decimal_no_leading_zero _
  fraction_ne_nil := nofun
  exponent_ne_nil := nofun

theorem Printed.ofInt_text (i : ℤ) : (Printed.ofInt i).text = (signed i).bytes := by
  rw [Printed.text, Printed.signText, signed, Text.bytes_append, sign]
  by_cases hneg : i < 0
  · simp [Printed.ofInt, Printed.fractionText, Printed.exponentText, hneg, Text.ascii]
  · simp [Printed.ofInt, Printed.fractionText, Printed.exponentText, hneg, Text.empty]

theorem atoi_signed (i : ℤ) : atoi (signed i).bytes = i := by
  have htake : (decimal i.natAbs).bytes.takeWhile isDigit = (decimal i.natAbs).bytes :=
    List.takeWhile_eq_self_iff.mpr (isDigit_decimal _)
  rw [signed, Text.bytes_append, sign]
  by_cases hneg : i < 0
  · rw [if_pos hneg]
    show -(digitsValue ((decimal i.natAbs).bytes.takeWhile isDigit) : ℤ) = i
    rw [htake, digitsValue_decimal]
    omega
  · rw [if_neg hneg]
    show atoi (decimal i.natAbs).bytes = i
    unfold atoi
    split
    · rename_i ds hds
      have hminus := isDigit_decimal i.natAbs 0x2d (by rw [hds]; simp)
      cases hminus
    · rw [htake, digitsValue_decimal]
      omega

/-- Numbers that happen to be integers. -/
def integers : NumberFormat ℤ where
  isfinite _ := true
  ofInt i := i
  format i := (signed i).bytes
  fixed i := (signed i).bytes ++ str ".000000"
  strtod := atoi
  stod s := if isDigit (front s) then some (atoi s) else none
  printed i _ := by
    refine ⟨.ofInt i, (Printed.ofInt_text i).symm, ?_⟩
    calc atoi (Printed.ofInt i).text
        = atoi (signed i).bytes := congrArg atoi (Printed.ofInt_text i)
      _ = i := atoi_signed i
  strtod_int _ _ _ _ := rfl

theorem Printed.front_text_ne (n : Printed) : front n.text ≠ 0x6e := by
  rw [front]
  cases htext : n.text with
  | nil => decide
  | cons c s =>
      rintro rfl
      rcases n.mem_text (htext ▸ List.mem_cons_self) with h | h
      · cases h
      · revert h
        decide

/-- The numbers of a format, and one more that is none. -/
def withNaN {D : Type} (F : NumberFormat D) : NumberFormat (Option D) where
  isfinite x := x.elim false F.isfinite
  ofInt i := some (F.ofInt i)
  format x := x.elim (str "nan") F.format
  fixed x := x.elim (str "nan") F.fixed
  strtod s := if front s = 0x6e then none else some (F.strtod s)
  stod s := if front s = 0x6e then some none else (F.stod s).map some
  printed x hx := by
    cases x with
    | none => cases hx
    | some x =>
        obtain ⟨n, hformat, hread⟩ := F.printed x hx
        exact ⟨n, hformat, by rw [if_neg n.front_text_ne, hread]⟩
  strtod_int n hfraction hexponent hlength := by
    rw [if_neg n.front_text_ne, F.strtod_int n hfraction hexponent hlength]

end SecDetector.Usage
