import SecDetector.Lib.Numeral
import SecDetector.Usage.Json

/-!
# Disk usage

`getDiskUsageList` reads what `df -h` prints: it passes over the header and makes a `DiskUsage` of
the first six words of every buffer that `fgets` fills.  A line that is longer than the buffer
therefore becomes two of them, and a blank in the name of a filesystem moves the columns behind it
(`getDiskUsageList_listing` is for the lines that fit and have no such name).  Other code of the
service reads the output of commands in the same way.

`getDiskUsageString` reports them, and keeps them in a static list for the next call, which reports
for each how much the used space has changed.  The entry before is taken from the same position of
that list, and the number from the text in front of a `G`, so that a text without one counts for
nothing.  The doubles are a parameter here, with the operations that the code uses on them and the
`stod` that reads them; nothing is returned if `stod` throws.
-/

namespace SecDetector.Usage

open SecDetector.Lib

structure DiskUsage where
  filesystem : Bytes
  size : Bytes
  used : Bytes
  available : Bytes
  usePercentage : Bytes
  mountPoint : Bytes
  deriving DecidableEq

/-! ## The listing -/

/-- The words that `>>` takes from a stream, one after another. -/
def words (s : Bytes) : List Bytes := (s.splitOnP isspace).filter (· ≠ [])

/-- What `fgets` puts into a buffer of `size` bytes, call after call; `room` bytes of the buffer
`buf` are left. -/
def fgetsAll (size : ℕ) : (room : ℕ) → (buf : Bytes) → Bytes → List Bytes
  | _, buf, [] => if buf = [] then [] else [buf]
  | room, buf, c :: s =>
      if c = 0x0a ∨ room ≤ 1 then (buf ++ [c]) :: fgetsAll size (size - 1) [] s
      else fgetsAll size (room - 1) (buf ++ [c]) s

/-- `iss >> diskUsage.filesystem >> …`, from a stream on the string in the buffer. -/
def DiskUsage.ofBuffer (buffer : Bytes) : DiskUsage :=
  let field (i : ℕ) : Bytes := (words (buffer.takeWhile (· ≠ 0))).getD i []
  ⟨field 0, field 1, field 2, field 3, field 4, field 5⟩

/-- The argument is what the pipe gives, nothing if there is no pipe. -/
def getDiskUsageList : Option Bytes → List DiskUsage
  | none => []
  | some out => (fgetsAll 256 255 [] out).tail.map DiskUsage.ofBuffer

/-! ### What a listing is read as -/

/-- What `>>` takes as a whole, from a C string. -/
def IsWord (w : Bytes) : Prop := w ≠ [] ∧ ∀ c ∈ w, isspace c = false ∧ c ≠ 0

instance : DecidablePred IsWord := fun w =>
  decidable_of_iff (w ≠ [] ∧ (w.all fun c => !isspace c && c != 0) = true)
    (and_congr_right fun _ => by simp)

theorem wordByte_of_isDigit {c : UInt8} (hc : isDigit c = true) : isspace c = false ∧ c ≠ 0 := by
  refine ⟨isspace_of_isDigit hc, ?_⟩
  rintro rfl
  cases hc

theorem words_space {c : UInt8} (hc : isspace c = true) (s : Bytes) : words (c :: s) = words s := by
  rw [words, List.splitOnP_cons_eq_if_modifyHead, if_pos hc]
  exact List.filter_cons_of_neg (by simp)

theorem words_gap (k : ℕ) (s : Bytes) : words (List.replicate k 0x20 ++ s) = words s := by
  induction k with
  | zero => rfl
  | succ k ih => rw [List.replicate_succ, List.cons_append, words_space rfl, ih]

theorem words_append {w : Bytes} (hw : IsWord w) {c : UInt8} (hc : isspace c = true) (s : Bytes) :
    words (w ++ c :: s) = w :: words s := by
  rw [words, List.splitOnP_append_cons_of_forall_mem (fun x hx => (hw.2 x hx).1) c hc]
  exact List.filter_cons_of_pos (by simp [hw.1])

/-- Words in a line, each with the space behind it. -/
def spaced (columns : List (Bytes × ℕ)) : Bytes :=
  columns.flatMap fun c => c.1 ++ 0x20 :: List.replicate c.2 0x20

theorem words_spaced {columns : List (Bytes × ℕ)} (hwords : ∀ c ∈ columns, IsWord c.1) (s : Bytes) :
    words (spaced columns ++ s) = columns.map Prod.fst ++ words s := by
  induction columns with
  | nil => rfl
  | cons c columns ih =>
      rw [List.forall_mem_cons] at hwords
      obtain ⟨hc, hwords⟩ := hwords
      rw [spaced, List.flatMap_cons, List.append_assoc, List.append_assoc, List.cons_append,
        words_append hc rfl, words_gap, List.map_cons, List.cons_append]
      exact congrArg (c.1 :: ·) (ih hwords)

/-- A line that `fgets` reads whole, and that is a C string up to its end. -/
structure Fits (line : Bytes) : Prop where
  nul : 0 ∉ line
  newline : 0x0a ∉ line
  length : line.length < 255

instance (line : Bytes) : Decidable (Fits line) :=
  decidable_of_iff (0 ∉ line ∧ 0x0a ∉ line ∧ line.length < 255)
    ⟨fun ⟨hnul, hnewline, hlength⟩ => ⟨hnul, hnewline, hlength⟩,
      fun ⟨hnul, hnewline, hlength⟩ => ⟨hnul, hnewline, hlength⟩⟩

theorem Fits.takeWhile {line : Bytes} (hline : Fits line) :
    (line ++ [0x0a]).takeWhile (· ≠ 0) = line ++ [0x0a] := by
  rw [List.takeWhile_eq_self_iff]
  intro c hc
  rcases List.mem_append.mp hc with hc | hc
  · rw [decide_eq_true_eq]
    rintro rfl
    exact hline.nul hc
  · rw [List.mem_singleton.mp hc]
    rfl

/-- Lines as they are printed. -/
def printLines (lines : List Bytes) : Bytes := lines.flatMap fun line => line ++ [0x0a]

/-- A line that fits is one buffer. -/
theorem fgetsAll_line {size room : ℕ} {buf line : Bytes} (hline : 0x0a ∉ line)
    (hfits : line.length < room) (rest : Bytes) :
    fgetsAll size room buf (line ++ 0x0a :: rest) =
      (buf ++ line ++ [0x0a]) :: fgetsAll size (size - 1) [] rest := by
  induction line generalizing room buf with
  | nil => rw [List.nil_append, fgetsAll, if_pos (Or.inl rfl), List.append_nil]
  | cons c line ih =>
      rw [List.mem_cons, not_or] at hline
      rw [List.length_cons] at hfits
      rw [List.cons_append, fgetsAll, if_neg (by simp [Ne.symm hline.1]; omega),
        ih hline.2 (by omega)]
      simp

/-- **Lines that fit are read one by one.** -/
theorem fgetsAll_printLines {lines : List Bytes} (hlines : ∀ line ∈ lines, Fits line) :
    fgetsAll 256 255 [] (printLines lines) = lines.map fun line => line ++ [0x0a] := by
  induction lines with
  | nil => rfl
  | cons line lines ih =>
      rw [List.forall_mem_cons] at hlines
      obtain ⟨hline, hlines⟩ := hlines
      rw [printLines, List.flatMap_cons, List.append_assoc, List.singleton_append,
        fgetsAll_line hline.newline hline.length, List.map_cons, List.nil_append]
      exact congrArg _ (ih hlines)

/-- A line of the listing: six columns, with space between them. -/
structure DfLine where
  usage : DiskUsage
  gap : Fin 5 → ℕ

namespace DfLine

variable (l : DfLine)

/-- All columns but the last. -/
def columns : List (Bytes × ℕ) :=
  [(l.usage.filesystem, l.gap 0), (l.usage.size, l.gap 1), (l.usage.used, l.gap 2),
    (l.usage.available, l.gap 3), (l.usage.usePercentage, l.gap 4)]

/-- The line without its end. -/
def text : Bytes := spaced l.columns ++ l.usage.mountPoint

/-- The line fits into the buffer, and all but its last column are words. -/
structure Plain : Prop where
  words : ∀ c ∈ l.columns, IsWord c.1
  fits : Fits l.text

/-- What a plain line is read as: of the last column only the first word is taken. -/
def read : DiskUsage :=
  { l.usage with mountPoint := (words (l.usage.mountPoint ++ [0x0a])).getD 0 [] }

variable {l}

theorem Plain.ofBuffer_text (h : l.Plain) : DiskUsage.ofBuffer (l.text ++ [0x0a]) = l.read := by
  rw [DiskUsage.ofBuffer, h.fits.takeWhile, text, List.append_assoc, words_spaced h.words]
  rfl

end DfLine

/-- **A listing of plain lines is read line by line.** -/
theorem getDiskUsageList_listing {header : Bytes} (hheader : Fits header) {lines : List DfLine}
    (hlines : ∀ l ∈ lines, l.Plain) :
    getDiskUsageList (some (printLines (header :: lines.map DfLine.text))) =
      lines.map DfLine.read := by
  have hfits : ∀ line ∈ header :: lines.map DfLine.text, Fits line := by
    rw [List.forall_mem_cons, List.forall_mem_map]
    exact ⟨hheader, fun l hl => (hlines l hl).fits⟩
  rw [getDiskUsageList, fgetsAll_printLines hfits, List.map_cons, List.tail_cons, List.map_map,
    List.map_map]
  exact List.map_congr_left fun l hl => (hlines l hl).ofBuffer_text

/-! ## The objects -/

section Objects

variable {D : Type}

/-- The object of an entry; without a difference it has no member for one. -/
def diskUsageObject (diskUsage : DiskUsage) (usedSpaceDiff : Option D) : Json D :=
  .ofMembers <|
    [(str "Filesystem", .string diskUsage.filesystem),
      (str "Size", .string diskUsage.size),
      (str "Used", .string diskUsage.used),
      (str "Available", .string diskUsage.available),
      (str "UsePercentage", .string diskUsage.usePercentage),
      (str "MountPoint", .string diskUsage.mountPoint)] ++
    usedSpaceDiff.toList.map fun d => (str "UsedSpaceDifference", .number d)

/-- The variables of the loop over the entries. -/
structure DiskLoop (D : Type) where
  diskUsageArray : List (Json D)
  totalUsedSpace : D
  totalAvailableSpace : D

def resultObject (st : DiskLoop D) : Json D :=
  .ofMembers
    [(str "DiskUsageList", .array st.diskUsageArray),
      (str "TotalUsedSpace", .number st.totalUsedSpace),
      (str "TotalAvailableSpace", .number st.totalAvailableSpace)]

theorem member_usedSpaceDifference (diskUsage : DiskUsage) (diff : Option D) :
    (diskUsageObject diskUsage diff).member (str "UsedSpaceDifference") =
      diff.elim .null .number := by
  rw [diskUsageObject, Json.member_ofMembers]
  cases diff <;> rfl

variable (st : DiskLoop D)

theorem member_diskUsageList :
    (resultObject st).member (str "DiskUsageList") = .array st.diskUsageArray := by
  rw [resultObject, Json.member_ofMembers]
  rfl

theorem member_totalUsedSpace :
    (resultObject st).member (str "TotalUsedSpace") = .number st.totalUsedSpace := by
  rw [resultObject, Json.member_ofMembers]
  rfl

theorem member_totalAvailableSpace :
    (resultObject st).member (str "TotalAvailableSpace") = .number st.totalAvailableSpace := by
  rw [resultObject, Json.member_ofMembers]
  rfl

end Objects

/-! ## The report -/

section Report

variable {D : Type} [Zero D] [Add D] [Sub D] (stod : Bytes → Option D)

/-- `s.substr(0, s.find('G'))`. -/
def beforeG (s : Bytes) : Bytes := s.takeWhile (· ≠ 0x47)

/-- The member `UsedSpaceDifference`, from the used space now and before. -/
def usedSpaceDiff (used previousUsed : Bytes) : Option D :=
  if 0x47 ∈ used ∧ 0x47 ∈ previousUsed then do
    let currentUsedSpace ← stod (beforeG used)
    let previousUsedSpace ← stod (beforeG previousUsed)
    some (currentUsedSpace - previousUsedSpace)
  else some (0 - 0)

/-- The difference of an entry, if there is an entry before it. -/
def entryDiff (diskUsage : DiskUsage) : Option DiskUsage → Option (Option D)
  | none => some none
  | some previousDiskUsage => (usedSpaceDiff stod diskUsage.used previousDiskUsage.used).map some

/-- A total, after the space of one more entry. -/
def addSpace (total : D) (space : Bytes) : Option D :=
  if 0x47 ∈ space then (stod (beforeG space)).map (total + ·) else some total

/-- The body of the loop, for the entry at position `i`. -/
def diskUsageStep (previousDiskUsageList : List DiskUsage) (st : DiskLoop D)
    (entry : DiskUsage × ℕ) : Option (DiskLoop D) := do
  let (diskUsage, i) := entry
  let diff ← entryDiff stod diskUsage previousDiskUsageList[i]?
  let totalUsedSpace ← addSpace stod st.totalUsedSpace diskUsage.used
  let totalAvailableSpace ← addSpace stod st.totalAvailableSpace diskUsage.available
  some ⟨st.diskUsageArray ++ [diskUsageObject diskUsage diff], totalUsedSpace, totalAvailableSpace⟩

/-- The report, and the static list behind the call. -/
def getDiskUsageString (previousDiskUsageList : List DiskUsage) (df : Option Bytes) :
    Option (Json D × List DiskUsage) := do
  let diskUsageList := getDiskUsageList df
  let st ← diskUsageList.zipIdx.foldlM (diskUsageStep stod previousDiskUsageList) ⟨[], 0, 0⟩
  some (resultObject st, diskUsageList)

variable {stod}

/-- Whatever the list was before, the call leaves its own listing. -/
theorem getDiskUsageString_static {previous next : List DiskUsage} {df : Option Bytes}
    {report : Json D} (h : getDiskUsageString stod previous df = some (report, next)) :
    next = getDiskUsageList df := by
  obtain ⟨st, -, hst⟩ := Option.bind_eq_some_iff.mp h
  exact (congrArg Prod.snd (Option.some.inj hst)).symm

end Report

end SecDetector.Usage
