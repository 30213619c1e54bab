import Mathlib.Data.List.TakeWhile
import Mathlib.Data.Nat.Notation
import Mathlib.Data.Int.Notation
import Mathlib.Data.Nat.Digits.Defs

/-!
# C strings

A `Text` is a string of bytes without a NUL, so it can be terminated by one.
`readString` is what a C program gets that reads a string from a stretch of memory: the
bytes before the first NUL, or nothing if the stretch ends before one.

`Buffer` is an allocation with the string that was built in it.  It keeps the size of
the allocation and how far it was written, so that a write behind the end is
visible (`Buffer.InBounds`) and yet has its effect.

The last sections are the number formats of `printf` and little-endian integers.
-/

namespace SecDetector.Lib

/-! ## Texts -/

/-- A string without a terminator in it. -/
@[ext]
structure Text where
  bytes : List UInt8
  no_nul : 0 ∉ bytes
  deriving DecidableEq

namespace Text

/-- No NUL is in a literal for which `h` computes to `True`. -/
theorem ascii_check (text : String)
    (h : bif text.toList.all fun c => UInt8.ofNat c.toNat != 0 then True else False) :
    (text.toList.all fun c => UInt8.ofNat c.toNat != 0) = true := by
  cases hall : text.toList.all fun c => UInt8.ofNat c.toNat != 0 with
  | true => rfl
  | false =>
      rw [hall] at h
      exact h.elim

/-- The bytes of an ASCII text. -/
def ascii (text : String)
    (hascii : (text.toList.all fun c => UInt8.ofNat c.toNat != 0) = true := by decide) : Text where
  bytes := text.toList.map fun c => UInt8.ofNat c.toNat
  no_nul := by
    intro hmem
    obtain ⟨c, hc, hzero⟩ := List.mem_map.mp hmem
    exact bne_iff_ne.mp (List.all_eq_true.mp hascii c hc) hzero

def empty : Text := ⟨[], List.not_mem_nil⟩

def append (s t : Text) : Text where
  bytes := s.bytes ++ t.bytes
  no_nul := by
    rw [List.mem_append, not_or]
    exact ⟨s.no_nul, t.no_nul⟩

instance : Append Text := ⟨append⟩

def length (t : Text) : ℕ := t.bytes.length

def take (n : ℕ) (t : Text) : Text :=
  ⟨t.bytes.take n, fun hmem => t.no_nul (List.mem_of_mem_take hmem)⟩

@[simp] theorem bytes_append (s t : Text) : (s ++ t).bytes = s.bytes ++ t.bytes := rfl

@[simp] theorem length_append (s t : Text) : (s ++ t).length = s.length + t.length :=
  List.length_append

@[simp] theorem length_empty : empty.length = 0 := rfl

theorem length_ascii (text : String) (hascii) : (ascii text hascii).length = text.toList.length :=
  List.length_map _

theorem length_take (n : ℕ) (t : Text) : (t.take n).length = min n t.length :=
  List.length_take

theorem take_of_le {n : ℕ} {t : Text} (hle : t.length ≤ n) : t.take n = t :=
  Text.ext (List.take_of_length_le hle)

theorem append_assoc (s t u : Text) : s ++ t ++ u = s ++ (t ++ u) :=
  Text.ext (List.append_assoc _ _ _)

@[simp] theorem empty_append (t : Text) : empty ++ t = t := rfl

@[simp] theorem append_empty (t : Text) : t ++ empty = t :=
  Text.ext (List.append_nil _)

/-- Texts, one behind the other. -/
def concat (texts : List Text) : Text :=
  texts.foldr (· ++ ·) empty

@[simp] theorem concat_nil : concat [] = empty := rfl

@[simp] theorem concat_cons (t : Text) (texts : List Text) :
    concat (t :: texts) = t ++ concat texts := rfl

/-- Texts with a separator between them. -/
def join (sep : Text) : List Text → Text
  | [] => empty
  | [t] => t
  | t :: texts => t ++ sep ++ join sep texts

/-- A separator behind each text is one too many. -/
theorem concat_map_append_sep (sep : Text) {texts : List Text} (hne : texts ≠ []) :
    concat (texts.map (· ++ sep)) = join sep texts ++ sep := by
  induction texts with
  | nil => exact absurd rfl hne
  | cons t texts ih =>
      cases texts with
      | nil => exact append_empty (t ++ sep)
      | cons t' texts =>
          rw [List.map_cons, concat_cons, ih (List.cons_ne_nil _ _), ← append_assoc]
          rfl

end Text

/-- A C string in a `char` array of `n` bytes. -/
structure CString (n : ℕ) extends Text where
  length_lt : bytes.length < n

/-- A text that fits in the array. -/
def CString.ofText {n : ℕ} (t : Text) (hlt : t.length < n) : CString n :=
  { t with length_lt := hlt }

/-! ## Reading -/

theorem nul_notMem_takeWhile (mem : List UInt8) : 0 ∉ mem.takeWhile (· ≠ 0) :=
  fun hmem => by simpa using List.mem_takeWhile_imp hmem

/-- The string at the start of `mem`, if it ends there. -/
def readString (mem : List UInt8) : Option Text :=
  if 0 ∈ mem then some ⟨mem.takeWhile (· ≠ 0), nul_notMem_takeWhile mem⟩ else none

variable {s t : Text} {n k : ℕ}

theorem takeWhile_append_text (t : Text) (rest : List UInt8) :
    (t.bytes ++ rest).takeWhile (· ≠ 0) = t.bytes ++ rest.takeWhile (· ≠ 0) := by
  apply List.takeWhile_append_of_pos
  intro b hb
  have hne : b ≠ 0 := ne_of_mem_of_not_mem hb t.no_nul
  simpa using hne

/-- What follows the terminator does not matter. -/
theorem readString_append_nul (t : Text) (rest : List UInt8) :
    readString (t.bytes ++ 0 :: rest) = some t := by
  rw [readString, if_pos (by simp)]
  congr 1
  apply Text.ext
  show (t.bytes ++ 0 :: rest).takeWhile (· ≠ 0) = t.bytes
  rw [takeWhile_append_text]
  simp

/-! ## Buffers -/

/-- An allocation of `size` bytes with the string `text` in it; its first `written` bytes
have been written to. -/
structure Buffer where
  size : ℕ
  text : Text
  written : ℕ

namespace Buffer

/-- No write went behind the end of the allocation. -/
def InBounds (b : Buffer) : Prop := b.written ≤ b.size

/-- A fresh allocation. -/
def alloc (size : ℕ) : Buffer := ⟨size, .empty, 0⟩

/-- `strcpy`, and `sprintf` of the output `src`. -/
def strcpy (b : Buffer) (src : Text) : Buffer :=
  { b with text := src, written := max b.written (src.length + 1) }

/-- `strcat`, and `strncat` with a bound of at least the length of `src`. -/
def strcat (b : Buffer) (src : Text) : Buffer :=
  { b with text := b.text ++ src, written := max b.written (b.text.length + src.length + 1) }

/-- `snprintf` and `scnprintf` of the output `out`, with a bound `n`. -/
def snprintf (b : Buffer) (n : ℕ) (out : Text) : Buffer :=
  b.strcpy (out.take (n - 1))

/-- The first `n` bytes of a zeroed allocation after the writes. -/
def bytes (b : Buffer) (n : ℕ) : List UInt8 :=
  (b.text.bytes ++ List.replicate n 0).take n

variable (b : Buffer)

@[simp] theorem text_alloc (size : ℕ) : (alloc size).text = .empty := rfl
@[simp] theorem text_strcpy (src : Text) : (b.strcpy src).text = src := rfl
@[simp] theorem text_strcat (src : Text) : (b.strcat src).text = b.text ++ src := rfl
@[simp] theorem text_snprintf (n : ℕ) (out : Text) :
    (b.snprintf n out).text = out.take (n - 1) := rfl

@[simp] theorem size_alloc (size : ℕ) : (alloc size).size = size := rfl
@[simp] theorem size_strcpy (src : Text) : (b.strcpy src).size = b.size := rfl
@[simp] theorem size_strcat (src : Text) : (b.strcat src).size = b.size := rfl

instance : Decidable b.InBounds := inferInstanceAs (Decidable (_ ≤ _))

/-- Exactly the string and its terminator have been written. -/
def Tight : Prop := b.written = b.text.length + 1

theorem tight_strcpy (size : ℕ) (src : Text) : ((alloc size).strcpy src).Tight :=
  Nat.max_eq_right (Nat.zero_le _)

variable {b}

/-- A string that is appended to is written from its terminator on. -/
theorem Tight.strcat (htight : b.Tight) (src : Text) : (b.strcat src).Tight := by
  show max b.written (b.text.length + src.length + 1) = (b.text ++ src).length + 1
  rw [htight, Text.length_append]
  omega

theorem Tight.inBounds_iff (htight : b.Tight) : b.InBounds ↔ b.text.length < b.size := by
  rw [InBounds, htight]
  exact Nat.succ_le_iff

variable (b)

@[simp] theorem length_bytes (n : ℕ) : (b.bytes n).length = n := by
  simp [bytes]

/-- A buffer that is not full shows its string and its terminator. -/
theorem bytes_of_lt {n : ℕ} (hlt : b.text.length < n) :
    b.bytes n = b.text.bytes ++ 0 :: List.replicate (n - b.text.length - 1) 0 := by
  have hzeros : n - b.text.length = n - b.text.length - 1 + 1 := by omega
  rw [bytes, List.take_append, List.take_of_length_le (Nat.le_of_lt hlt), List.take_replicate,
    Nat.min_eq_left (Nat.sub_le _ _)]
  unfold Text.length at hzeros
  rw [hzeros, List.replicate_succ]
  rfl

/-- The part of the string that fits. -/
theorem bytes_of_le {n : ℕ} (hle : n ≤ b.text.length) : b.bytes n = (b.text.take n).bytes := by
  rw [bytes, List.take_append_of_le_length hle]
  rfl

end Buffer

/-- What `scnprintf` returns. -/
def scnprintfRet (n : ℕ) (out : Text) : ℕ :=
  min out.length (n - 1)

/-! ## Numbers -/

theorem digit_ne_zero {c : Char} (hdigit : c.isDigit = true) : UInt8.ofNat c.toNat ≠ 0 := by
  intro hzero
  have hrange : 48 ≤ c.toNat ∧ c.toNat ≤ 57 := by
    simpa [Char.isDigit, UInt32.le_iff_toNat_le] using hdigit
  have hmod := congrArg UInt8.toNat hzero
  rw [UInt8.toNat_ofNat'] at hmod
  have hzero' : (0 : UInt8).toNat = 0 := rfl
  omega

/-- The digits of a number in base `b`. -/
def digits (b n : ℕ) (hpos : 0 < b := by decide) (hle : b ≤ 10 := by decide) : Text where
  bytes := (Nat.toDigits b n).map fun c => UInt8.ofNat c.toNat
  no_nul := by
    intro hmem
    obtain ⟨c, hc, hzero⟩ := List.mem_map.mp hmem
    exact digit_ne_zero (Nat.isDigit_of_mem_toDigits hpos hle hc) hzero

/-- `%u`, `%lu` and `%llu`. -/
def decimal (n : ℕ) : Text := digits 10 n

/-- `%#o`: a zero in front of the octal digits, unless there is one. -/
def octal (n : ℕ) : Text :=
  if n = 0 then digits 8 n else .ascii "0" ++ digits 8 n

/-- The sign of `%d`. -/
def sign (i : ℤ) : Text :=
  if i < 0 then .ascii "-" else .empty

/-- `%d` and `%ld`. -/
def signed (i : ℤ) : Text :=
  sign i ++ decimal i.natAbs

def zeros (n : ℕ) : Text :=
  ⟨List.replicate n 48, fun hmem => absurd (List.eq_of_mem_replicate hmem) (by decide)⟩

/-- `%0wd`: zeros between the sign and the digits, up to the width `w`. -/
def zeroPadded (w : ℕ) (i : ℤ) : Text :=
  sign i ++ zeros (w - (sign i).length - (decimal i.natAbs).length) ++ decimal i.natAbs

theorem length_decimal_le_iff (hk : 0 < k) : (decimal n).length ≤ k ↔ n < 10 ^ k := by
  rw [Text.length, decimal, digits, List.length_map]
  exact Nat.length_toDigits_le_iff (by decide) hk

theorem length_decimal_le (hk : 0 < k) (hn : n < 10 ^ k) : (decimal n).length ≤ k :=
  (length_decimal_le_iff hk).mpr hn

theorem length_sign_le (i : ℤ) : (sign i).length ≤ 1 := by
  unfold sign
  split <;> decide

theorem length_signed_le {i : ℤ} (hk : 0 < k) (hi : i.natAbs < 10 ^ k) :
    (signed i).length ≤ k + 1 := by
  have hsign := length_sign_le i
  have hdigits := length_decimal_le hk hi
  rw [signed, Text.length_append]
  omega

/-! ## Little-endian integers -/

/-- The `k` bytes of an integer. -/
def leBytes : ℕ → ℕ → List UInt8
  | 0, _ => []
  | k + 1, n => UInt8.ofNat n :: leBytes k (n / 256)

/-- The integer in these bytes. -/
def leNat : List UInt8 → ℕ
  | [] => 0
  | b :: bytes => b.toNat + 256 * leNat bytes

@[simp] theorem length_leBytes (k n : ℕ) : (leBytes k n).length = k := by
  induction k generalizing n with
  | zero => rfl
  | succ k ih => rw [leBytes, List.length_cons, ih]

theorem leNat_leBytes (hn : n < 256 ^ k) : leNat (leBytes k n) = n := by
  induction k generalizing n with
  | zero => simp only [leBytes, leNat]; omega
  | succ k ih =>
      have hdiv : n / 256 < 256 ^ k := Nat.div_lt_of_lt_mul (by rw [← Nat.pow_succ']; exact hn)
      rw [leBytes, leNat, ih hdiv, UInt8.toNat_ofNat']
      omega

end SecDetector.Lib
