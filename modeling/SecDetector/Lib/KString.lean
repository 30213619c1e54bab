import Mathlib.Data.List.DropRight
import SecDetector.Lib.CString

/-!
# Strings that are cut in place

`strstrip` and `strsep` of the kernel do not copy: they write a NUL into the buffer of their
argument and return a pointer into it.  A buffer is a list of bytes here, and a pointer is an
offset in it.

On a buffer that begins with a text and its terminator, `strstrip` leaves the text without its
trailing space and returns where its leading space ends (`strstrip_spec`), and `strsep` leaves
the text up to the delimiter (`strsep_spec`).  What counts as space is a parameter.
-/

namespace SecDetector.Lib

variable (space : UInt8 → Bool) (delim : UInt8)

/-! ## Texts -/

namespace Text

/-- Without trailing space. -/
def rstrip (t : Text) : Text :=
  ⟨t.bytes.rdropWhile space, fun hmem => t.no_nul ((List.rdropWhile_prefix space _).subset hmem)⟩

/-- Without leading space. -/
def lstrip (t : Text) : Text :=
  ⟨t.bytes.dropWhile space, fun hmem => t.no_nul ((List.dropWhile_sublist space).subset hmem)⟩

/-- Without the space around it. -/
def strip (t : Text) : Text := (t.rstrip space).lstrip space

/-- The text before the first delimiter. -/
def upTo (t : Text) : Text :=
  ⟨t.bytes.takeWhile (· ≠ delim),
    fun hmem => t.no_nul ((List.takeWhile_sublist _).subset hmem)⟩

/-- There is nothing but space. -/
def Blank (t : Text) : Prop := ∀ c ∈ t.bytes, space c = true

instance (t : Text) : Decidable (t.Blank space) :=
  List.decidableBAll (fun c => space c = true) t.bytes

variable {space}

theorem rstrip_eq_empty_iff {t : Text} : t.rstrip space = empty ↔ t.Blank space := by
  rw [Text.ext_iff]
  exact List.rdropWhile_eq_nil_iff

/-- A text is blank if nothing is left of it. -/
theorem strip_eq_empty_iff {t : Text} : t.strip space = empty ↔ t.Blank space := by
  constructor
  · intro hempty
    have hall : ∀ c ∈ (t.rstrip space).bytes, space c = true :=
      List.dropWhile_eq_nil_iff.mp (congrArg bytes hempty)
    -- the last byte that is left would be no space
    by_contra hblank
    have hne : t.bytes.rdropWhile space ≠ [] := fun hnil =>
      hblank (rstrip_eq_empty_iff.mp (Text.ext hnil))
    exact List.rdropWhile_last_not space t.bytes hne (hall _ (List.getLast_mem hne))
  · intro hblank
    rw [strip, rstrip_eq_empty_iff.mpr hblank]
    rfl

end Text

/-! ## Buffers -/

/-- The length of the string at an offset. -/
def strlen (buf : List UInt8) (s : ℕ) : ℕ := ((buf.drop s).takeWhile (· ≠ 0)).length

/-- The first offset that shows no space. -/
def skipSpaces (buf : List UInt8) (s : ℕ) : ℕ := s + ((buf.drop s).takeWhile space).length

/-- `strstrip`: the buffer after it, and the pointer. -/
def strstrip (buf : List UInt8) (s : ℕ) : List UInt8 × ℕ :=
  let size := strlen buf s
  if size = 0 then (buf, s)
  else
    let kept := (((buf.drop s).take size).rdropWhile space).length
    let buf := buf.set (s + kept) 0
    (buf, skipSpaces space buf s)

/-- `strsep` with one delimiter: the buffer after it, the pointer it moves on, and the pointer it
returns. -/
def strsep (buf : List UInt8) (s : Option ℕ) : List UInt8 × Option ℕ × Option ℕ :=
  match s with
  | none => (buf, none, none)
  | some s =>
      let stop := s + ((buf.drop s).takeWhile fun c => c ≠ 0 ∧ c ≠ delim).length
      if buf[stop]? = some delim then (buf.set stop 0, some (stop + 1), some s)
      else (buf, none, some s)

/-- A scan that stops at a byte does not look behind it. -/
theorem takeWhile_append_cons {p : UInt8 → Bool} {c : UInt8} (hstop : p c = false)
    (l rest : List UInt8) : (l ++ c :: rest).takeWhile p = l.takeWhile p := by
  induction l with
  | nil => exact List.takeWhile_cons_of_neg (by simp [hstop])
  | cons a l ih =>
      rw [List.cons_append, List.takeWhile_cons, List.takeWhile_cons, ih]

theorem takeWhile_congr_of_mem {p q : UInt8 → Bool} {l : List UInt8} (h : ∀ c ∈ l, p c = q c) :
    l.takeWhile p = l.takeWhile q := by
  induction l with
  | nil => rfl
  | cons c l ih =>
      rw [List.forall_mem_cons] at h
      rw [List.takeWhile_cons, List.takeWhile_cons, h.1, ih h.2]

theorem drop_length_takeWhile (p : UInt8 → Bool) (l : List UInt8) :
    l.drop (l.takeWhile p).length = l.dropWhile p :=
  calc l.drop (l.takeWhile p).length
      = (l.takeWhile p ++ l.dropWhile p).drop (l.takeWhile p).length := by
        rw [List.takeWhile_append_dropWhile]
    _ = l.dropWhile p := List.drop_left

theorem strlen_zero (t : Text) (rest : List UInt8) :
    strlen (t.bytes ++ 0 :: rest) 0 = t.length := by
  rw [strlen, List.drop_zero, takeWhile_append_cons (by simp), Text.length,
    List.takeWhile_eq_self_iff.mpr]
  intro c hc
  have hne : c ≠ 0 := ne_of_mem_of_not_mem hc t.no_nul
  simpa using hne

theorem skipSpaces_zero (hnul : space 0 = false) (t : Text) (rest : List UInt8) :
    skipSpaces space (t.bytes ++ 0 :: rest) 0 = (t.bytes.takeWhile space).length := by
  rw [skipSpaces, List.drop_zero, Nat.zero_add, takeWhile_append_cons hnul]

/-- A NUL right behind a prefix of a text. -/
theorem set_prefix_nul {front t : Text} (h : front.bytes <+: t.bytes) (rest : List UInt8) :
    ∃ rest', (t.bytes ++ 0 :: rest).set front.length 0 = front.bytes ++ 0 :: rest' := by
  obtain ⟨back, hback⟩ := h
  have hsplit : t.bytes ++ 0 :: rest = front.bytes ++ (back ++ 0 :: rest) := by
    rw [← hback, List.append_assoc]
  refine ⟨(back ++ 0 :: rest).tail, ?_⟩
  rw [hsplit, Text.length, List.set_append_right _ _ le_rfl, Nat.sub_self]
  cases back with
  | nil => rfl
  | cons c back => rfl

/-- **What `strstrip` leaves, and where it points.** -/
theorem strstrip_spec (hnul : space 0 = false) (t : Text) (rest : List UInt8) :
    ∃ rest', strstrip space (t.bytes ++ 0 :: rest) 0 =
      ((t.rstrip space).bytes ++ 0 :: rest', ((t.rstrip space).bytes.takeWhile space).length) := by
  have hprefix : (t.rstrip space).bytes <+: t.bytes := List.rdropWhile_prefix space t.bytes
  obtain ⟨rest', hset⟩ := set_prefix_nul hprefix rest
  rw [strstrip, strlen_zero]
  dsimp only
  split
  · rename_i hempty
    obtain rfl : t = .empty := Text.ext (List.eq_nil_of_length_eq_zero hempty)
    exact ⟨rest, rfl⟩
  · have hkept : (((t.bytes ++ 0 :: rest).drop 0).take t.length).rdropWhile space =
        (t.rstrip space).bytes := by
      rw [List.drop_zero, Text.length, List.take_left]
      rfl
    refine ⟨rest', ?_⟩
    rw [hkept, Nat.zero_add, ← Text.length, hset, skipSpaces_zero space hnul]

/-- The string that `strstrip` returns. -/
theorem readString_strstrip (hnul : space 0 = false) (t : Text) (rest : List UInt8) :
    readString ((strstrip space (t.bytes ++ 0 :: rest) 0).1.drop
      (strstrip space (t.bytes ++ 0 :: rest) 0).2) = some (t.strip space) := by
  obtain ⟨rest', heq⟩ := strstrip_spec space hnul t rest
  have hle : ((t.rstrip space).bytes.takeWhile space).length ≤ (t.rstrip space).bytes.length :=
    (List.takeWhile_sublist space).length_le
  rw [heq]
  dsimp only
  rw [List.drop_append_of_le_length hle, drop_length_takeWhile]
  exact readString_append_nul (t.strip space) rest'

/-- **What `strsep` leaves**, if its pointer is at the beginning of the buffer: the text before
the delimiter, and a pointer that is never the one it was. -/
theorem strsep_spec (t : Text) (rest : List UInt8) :
    ∃ rest' next, strsep delim (t.bytes ++ 0 :: rest) (some 0) =
        ((t.upTo delim).bytes ++ 0 :: rest', next, some 0) ∧ next ≠ some 0 := by
  have hprefix : (t.upTo delim).bytes <+: t.bytes := List.takeWhile_prefix _
  obtain ⟨rest', hset⟩ := set_prefix_nul hprefix rest
  have hscan : ((t.bytes ++ 0 :: rest).takeWhile fun c => c ≠ 0 ∧ c ≠ delim) =
      (t.upTo delim).bytes := by
    rw [takeWhile_append_cons (by simp)]
    apply takeWhile_congr_of_mem
    intro c hc
    have hne : c ≠ 0 := ne_of_mem_of_not_mem hc t.no_nul
    simp [hne]
  simp only [strsep, List.drop_zero, hscan, Nat.zero_add]
  split
  · refine ⟨rest', some ((t.upTo delim).length + 1), ?_, by simp⟩
    rw [← Text.length, hset]
  · rename_i hnone
    -- the scan has reached the terminator
    have hwhole : (t.upTo delim).bytes = t.bytes := by
      obtain ⟨back, hback⟩ := hprefix
      cases back with
      | nil => rw [← hback, List.append_nil]
      | cons c back =>
          have hc : c = delim := by
            have hdrop : t.bytes.dropWhile (· ≠ delim) = c :: back := by
              rw [← drop_length_takeWhile]
              show t.bytes.drop (t.upTo delim).bytes.length = _
              rw [← hback, List.drop_left]
            have hhead := List.head_dropWhile_not (· ≠ delim) (l := t.bytes)
              (hdrop ▸ List.cons_ne_nil _ _)
            simp only [hdrop, List.head_cons] at hhead
            simpa using hhead
          refine absurd ?_ hnone
          rw [← hback, List.append_assoc, List.getElem?_append_right le_rfl, Nat.sub_self]
          simp [hc]
    exact ⟨rest, none, by rw [hwhole], by simp⟩

end SecDetector.Lib
