import Mathlib.Algebra.BigOperators.Group.List.Basic
import Mathlib.Algebra.Order.BigOperators.Group.List
import Mathlib.Tactic.NormNum
import SecDetector.Usage.Disk

/-!
# What the disk report says

A `Row` is what `df -h` says of a filesystem: its sizes are a number with one of the suffixes, and
so many gigabytes.  The report is about two listings, the one of the call before and the one of this
call.

`Faithful` is what the report should be: the difference of a filesystem is its own used space now
minus before, and the totals are the sums over all rows, all in gigabytes.  A filesystem is known by
its name and its mount point, since `tmpfs` names many of them.

The code does two things instead.  It takes the space before from the row at the same position, and
it counts only what is in `G` (`Size.counted`).  So the report of listings that are read as they are
printed is faithful exactly if, for these two, neither makes a difference (`InStep`).  They are read
so if every line fits into the buffer of `fgets` and no filesystem has a blank in its name
(`Listing.Plain`); `/mnt/my share` may be where one is mounted, but not what it is called.
-/

namespace SecDetector.Usage

open SecDetector.Lib

/-! ## Sizes -/

/-- The unit of a size; a size without a suffix is in bytes. -/
inductive Suffix where
  | none | K | M | G | T
  deriving DecidableEq

namespace Suffix

def text : Suffix → Bytes
  | none => []
  | K => [0x4b]
  | M => [0x4d]
  | G => [0x47]
  | T => [0x54]

/-- One unit, in gigabytes. -/
def gigabytes : Suffix → ℚ
  | none => 1 / 1024 ^ 3
  | K => 1 / 1024 ^ 2
  | M => 1 / 1024
  | G => 1
  | T => 1024

theorem gigabytes_pos (u : Suffix) : 0 < u.gigabytes := by
  cases u <;> norm_num [gigabytes]

end Suffix

/-- A size as `df -h` prints it. -/
structure Size where
  number : Numeral
  suffix : Suffix
  deriving DecidableEq

namespace Size

variable (s s' : Size)

def text : Bytes := s.number.bytes ++ s.suffix.text

def gigabytes : ℚ := s.number.value * s.suffix.gigabytes

/-- What the code takes the size for. -/
def counted : ℚ := if s.suffix = .G then s.gigabytes else 0

/-- What the code takes the difference of two sizes for. -/
def countedDiff : ℚ :=
  if s.suffix = .G ∧ s'.suffix = .G then s.gigabytes - s'.gigabytes else 0

variable {s s'}

theorem gigabytes_nonneg : 0 ≤ s.gigabytes :=
  mul_nonneg s.number.value_nonneg s.suffix.gigabytes_pos.le

theorem gigabytes_eq_zero_iff : s.gigabytes = 0 ↔ s.number.value = 0 := by
  rw [gigabytes, mul_eq_zero]
  exact or_iff_left s.suffix.gigabytes_pos.ne'

theorem counted_le : s.counted ≤ s.gigabytes := by
  rw [counted]
  split
  · exact le_rfl
  · exact gigabytes_nonneg

/-- A size is counted as it is if it is in `G`, or nothing. -/
theorem counted_eq_iff : s.counted = s.gigabytes ↔ s.suffix = .G ∨ s.number.value = 0 := by
  rw [counted, ← gigabytes_eq_zero_iff]
  split
  · rename_i hG
    exact iff_of_true rfl (Or.inl hG)
  · rename_i hG
    rw [or_iff_right hG, eq_comm]

/-! ### The texts -/

theorem mem_text_iff : 0x47 ∈ s.text ↔ s.suffix = .G := by
  have hnumber : 0x47 ∉ s.number.bytes := fun hmem => by
    rcases s.number.mem_bytes hmem with h | h <;> cases h
  rw [text, List.mem_append, or_iff_right hnumber]
  cases s.suffix <;> simp [Suffix.text]

theorem stod_beforeG (hG : s.suffix = .G) : stod (beforeG s.text) = some s.gigabytes := by
  have hnumber : ∀ c ∈ s.number.bytes, decide (c ≠ 0x47) = true := by
    intro c hc
    rcases s.number.mem_bytes hc with h | rfl
    · rw [decide_eq_true_eq]
      rintro rfl
      cases h
    · rfl
  have hbefore : beforeG s.text = s.number.bytes := by
    rw [beforeG, text, hG, List.takeWhile_append_of_pos hnumber]
    exact List.append_nil _
  rw [hbefore, s.number.stod_bytes, gigabytes, hG]
  exact congrArg some (mul_one _).symm

theorem addSpace_text (total : ℚ) : addSpace stod total s.text = some (total + s.counted) := by
  rw [addSpace, counted]
  split
  · rename_i hmem
    have hG := mem_text_iff.mp hmem
    rw [stod_beforeG hG, if_pos hG]
    rfl
  · rename_i hmem
    rw [if_neg (mt mem_text_iff.mpr hmem), add_zero]

theorem usedSpaceDiff_text :
    usedSpaceDiff stod s.text s'.text = some (s.countedDiff s') := by
  simp only [usedSpaceDiff, countedDiff, mem_text_iff]
  split
  · rename_i hG
    rw [stod_beforeG hG.1, stod_beforeG hG.2]
    rfl
  · rw [sub_zero]

end Size

/-! ## Rows -/

/-- A filesystem of the listing; `df` cannot always tell how full it is. -/
structure Row where
  filesystem : Bytes
  size : Size
  used : Size
  available : Size
  usePercentage : Option ℕ
  mountPoint : Bytes
  deriving DecidableEq

namespace Row

def percentage : Option ℕ → Bytes
  | none => [0x2d]
  | some n => (decimal n).bytes ++ [0x25]

/-- The columns of a row. -/
def diskUsage (r : Row) : DiskUsage :=
  ⟨r.filesystem, r.size.text, r.used.text, r.available.text, percentage r.usePercentage,
    r.mountPoint⟩

def line (r : Row) (gap : Fin 5 → ℕ) : DfLine := ⟨r.diskUsage, gap⟩

/-- What its line is read as, if it is plain. -/
def read (r : Row) : DiskUsage :=
  { r.diskUsage with mountPoint := (words (r.mountPoint ++ [0x0a])).getD 0 [] }

/-- Two rows are about the same filesystem. -/
def Same (r r' : Row) : Prop := r.filesystem = r'.filesystem ∧ r.mountPoint = r'.mountPoint

instance (r r' : Row) : Decidable (r.Same r') := inferInstanceAs (Decidable (_ ∧ _))

end Row

/-- What `df -h` prints. -/
structure Listing where
  header : Bytes
  lines : List (Row × (Fin 5 → ℕ))

namespace Listing

variable (df : Listing)

def rows : List Row := df.lines.map Prod.fst

def text : Bytes := printLines (df.header :: df.lines.map fun l => (l.1.line l.2).text)

/-- Every line fits into the buffer of `fgets`, and the names of the filesystems are words. -/
structure Plain : Prop where
  header : Fits df.header
  filesystem : ∀ r ∈ df.rows, IsWord r.filesystem
  fits : ∀ l ∈ df.lines, Fits (l.1.line l.2).text

theorem isWord_size (s : Size) : IsWord s.text := by
  have hsuffix : ∀ c ∈ s.suffix.text, isspace c = false ∧ c ≠ 0 := by
    cases s.suffix <;> simp [Suffix.text, isspace]
  refine ⟨fun hnil => s.number.bytes_ne_nil (List.append_eq_nil_iff.mp hnil).1, fun c hc => ?_⟩
  rcases List.mem_append.mp hc with hc | hc
  · rcases s.number.mem_bytes hc with hdigit | rfl
    · exact wordByte_of_isDigit hdigit
    · exact ⟨rfl, by decide⟩
  · exact hsuffix c hc

theorem isWord_percentage (n : Option ℕ) : IsWord (Row.percentage n) := by
  cases n with
  | none => exact ⟨by decide, by simp [Row.percentage, isspace]⟩
  | some n =>
      refine ⟨by simp [Row.percentage], fun c hc => ?_⟩
      rcases List.mem_append.mp hc with hc | hc
      · exact wordByte_of_isDigit (isDigit_decimal n c hc)
      · rw [List.mem_singleton.mp hc]
        exact ⟨rfl, by decide⟩

variable {df}

theorem Plain.line (h : df.Plain) {l : Row × (Fin 5 → ℕ)} (hl : l ∈ df.lines) :
    (l.1.line l.2).Plain where
  words := by
    simp only [DfLine.columns, List.forall_mem_cons]
    exact ⟨h.filesystem _ (List.mem_map_of_mem hl), isWord_size _, isWord_size _, isWord_size _,
      isWord_percentage _, nofun⟩
  fits := h.fits l hl

/-- A plain listing is read row by row. -/
theorem Plain.getDiskUsageList (h : df.Plain) :
    getDiskUsageList (some df.text) = df.rows.map Row.read := by
  have hlines : ∀ l ∈ df.lines.map fun l => l.1.line l.2, l.Plain := by
    rw [List.forall_mem_map]
    exact fun l hl => h.line hl
  have hread := getDiskUsageList_listing h.header hlines
  rw [List.map_map, List.map_map] at hread
  rw [text, rows, List.map_map]
  exact hread

end Listing

/-- The member `UsedSpaceDifference` of the entry at position `i` of a report. -/
def usedSpaceDifference (report : Json ℚ) (i : ℕ) : Json ℚ :=
  ((report.member (str "DiskUsageList")).item i).member (str "UsedSpaceDifference")

variable (before now : List Row)

/-- The report of `now`, behind `before`. -/
structure Faithful (report : Json ℚ) : Prop where
  difference : ∀ {i j : ℕ} {r r' : Row}, now[i]? = some r → before[j]? = some r' → r.Same r' →
    usedSpaceDifference report i = .number (r.used.gigabytes - r'.used.gigabytes)
  totalUsedSpace : report.member (str "TotalUsedSpace") =
    .number (now.map fun r => r.used.gigabytes).sum
  totalAvailableSpace : report.member (str "TotalAvailableSpace") =
    .number (now.map fun r => r.available.gigabytes).sum

/-- The two listings do not show what the code does otherwise.

A filesystem that is in both, at `j` before and at `i` now, has a row at its position before.  If
the sizes at that position are in `G`, that row has the used space that the filesystem had; if not,
the used space of the filesystem has not changed.  And what is not in `G` is nothing. -/
structure InStep : Prop where
  position : ∀ {i j : ℕ} {r r' : Row}, now[i]? = some r → before[j]? = some r' → r.Same r' →
    ∃ p ∈ before[i]?,
      if r.used.suffix = .G ∧ p.used.suffix = .G then p.used.gigabytes = r'.used.gigabytes
      else r.used.gigabytes = r'.used.gigabytes
  used : ∀ r ∈ now, r.used.suffix = .G ∨ r.used.number.value = 0
  available : ∀ r ∈ now, r.available.suffix = .G ∨ r.available.number.value = 0

/-! ## What the code reports -/

/-- The objects of the rows from position `i` on. -/
def objects (i : ℕ) : List (Json ℚ) :=
  (now.zipIdx i).map fun (r, k) =>
    diskUsageObject r.read (before[k]?.map fun p => r.used.countedDiff p.used)

def diskReport : Json ℚ :=
  resultObject ⟨objects before now 0, (now.map fun r => r.used.counted).sum,
    (now.map fun r => r.available.counted).sum⟩

variable {before now}

/-- One round of the loop. -/
theorem diskUsageStep_row (r : Row) (i : ℕ) (st : DiskLoop ℚ) :
    diskUsageStep stod (before.map Row.read) st (r.read, i) =
      some ⟨st.diskUsageArray ++
          [diskUsageObject r.read (before[i]?.map fun p => r.used.countedDiff p.used)],
        st.totalUsedSpace + r.used.counted, st.totalAvailableSpace + r.available.counted⟩ := by
  simp only [diskUsageStep, List.getElem?_map]
  cases before[i]? with
  | none => simp [entryDiff, Row.read, Row.diskUsage, Size.addSpace_text]
  | some p => simp [entryDiff, Row.read, Row.diskUsage, Size.addSpace_text, Size.usedSpaceDiff_text]

theorem foldlM_diskUsageStep (i : ℕ) (st : DiskLoop ℚ) :
    ((now.map Row.read).zipIdx i).foldlM (diskUsageStep stod (before.map Row.read)) st =
      some ⟨st.diskUsageArray ++ objects before now i,
        st.totalUsedSpace + (now.map fun r => r.used.counted).sum,
        st.totalAvailableSpace + (now.map fun r => r.available.counted).sum⟩ := by
  induction now generalizing i st with
  | nil => simp [objects]
  | cons r now ih =>
      rw [List.map_cons, List.zipIdx_cons, List.foldlM_cons, diskUsageStep_row]
      refine (ih (i + 1) _).trans ?_
      simp [objects, List.zipIdx_cons, add_assoc]

/-- Sizes in this form are always read, so the call returns. -/
theorem getDiskUsageString_rows {df : Option Bytes}
    (hdf : getDiskUsageList df = now.map Row.read) :
    getDiskUsageString stod (before.map Row.read) df =
      some (diskReport before now, now.map Row.read) := by
  rw [getDiskUsageString, hdf, foldlM_diskUsageStep]
  simp [diskReport]

theorem usedSpaceDifference_diskReport {i : ℕ} {r : Row} (hr : now[i]? = some r) :
    usedSpaceDifference (diskReport before now) i =
      (before[i]?.map fun p => r.used.countedDiff p.used).elim .null .number := by
  have hobject : (objects before now 0)[i]? = some
      (diskUsageObject r.read (before[i]?.map fun p => r.used.countedDiff p.used)) := by
    simp [objects, hr]
  rw [usedSpaceDifference, diskReport, member_diskUsageList, Json.item, List.getD_eq_getElem?_getD,
    hobject]
  exact member_usedSpaceDifference _ _

/-! ## When the report is faithful -/

/-- The sizes that are counted add up to all of them only if no other is anything. -/
theorem sum_counted_eq_iff (size : Row → Size) :
    (now.map fun r => (size r).counted).sum = (now.map fun r => (size r).gigabytes).sum ↔
      ∀ r ∈ now, (size r).suffix = .G ∨ (size r).number.value = 0 := by
  induction now with
  | nil => simp
  | cons r now ih =>
      have hle : (now.map fun r => (size r).counted).sum ≤
          (now.map fun r => (size r).gigabytes).sum :=
        List.sum_le_sum fun _ _ => Size.counted_le
      rw [List.map_cons, List.sum_cons, List.map_cons, List.sum_cons,
        add_eq_add_iff_eq_and_eq Size.counted_le hle, ih, Size.counted_eq_iff, List.forall_mem_cons]

/-- The difference that is reported is right if the row at the position is as good as the row of
the filesystem. -/
theorem countedDiff_eq_iff {s p s' : Size} :
    s.countedDiff p = s.gigabytes - s'.gigabytes ↔
      if s.suffix = .G ∧ p.suffix = .G then p.gigabytes = s'.gigabytes
      else s.gigabytes = s'.gigabytes := by
  rw [Size.countedDiff]
  split
  · exact sub_right_inj
  · rw [eq_comm, sub_eq_zero]

theorem faithful_diskReport_iff :
    Faithful before now (diskReport before now) ↔ InStep before now := by
  have hused : (diskReport before now).member (str "TotalUsedSpace") = _ :=
    member_totalUsedSpace _
  have havailable : (diskReport before now).member (str "TotalAvailableSpace") = _ :=
    member_totalAvailableSpace _
  constructor
  · intro h
    have htotalUsed := hused.symm.trans h.totalUsedSpace
    have htotalAvailable := havailable.symm.trans h.totalAvailableSpace
    refine ⟨?_, (sum_counted_eq_iff _).mp (Json.number.inj htotalUsed),
      (sum_counted_eq_iff _).mp (Json.number.inj htotalAvailable)⟩
    intro i j r r' hr hr' hsame
    have hdiff := h.difference hr hr' hsame
    rw [usedSpaceDifference_diskReport hr] at hdiff
    cases hp : before[i]? with
    | none =>
        rw [hp] at hdiff
        cases hdiff
    | some p =>
        rw [hp] at hdiff
        exact ⟨p, rfl, countedDiff_eq_iff.mp (Json.number.inj hdiff)⟩
  · intro h
    refine ⟨?_, ?_, ?_⟩
    · intro i j r r' hr hr' hsame
      obtain ⟨p, hp, hposition⟩ := h.position hr hr' hsame
      rw [usedSpaceDifference_diskReport hr, Option.mem_def.mp hp]
      exact congrArg Json.number (countedDiff_eq_iff.mpr hposition)
    · exact hused.trans (congrArg Json.number ((sum_counted_eq_iff _).mpr h.used))
    · exact havailable.trans (congrArg Json.number ((sum_counted_eq_iff _).mpr h.available))

/-! ## The report of a call -/

variable {first : Json ℚ} {previous kept : List DiskUsage}

/-- **The report of a call is faithful exactly if its listing is in step with that of the call
before.** -/
theorem disk_report_faithful_iff {before now : Listing} (hbefore : before.Plain) (hnow : now.Plain)
    (hfirst : getDiskUsageString stod previous (some before.text) = some (first, kept)) :
    ∃ report, getDiskUsageString stod kept (some now.text) =
        some (report, now.rows.map Row.read) ∧
      (Faithful before.rows now.rows report ↔ InStep before.rows now.rows) := by
  refine ⟨diskReport before.rows now.rows, ?_, faithful_diskReport_iff⟩
  rw [getDiskUsageString_static hfirst, hbefore.getDiskUsageList]
  exact getDiskUsageString_rows hnow.getDiskUsageList

/-! ### A filesystem in front -/

/-- A number without a fraction. -/
def wholeNumber (text : String) (hdigits : (str text).all isDigit = true := by decide)
    (hne : str text ≠ [] := by decide) : Numeral :=
  ⟨⟨str text, List.all_eq_true.mp hdigits⟩, none, hne⟩

def homeRow : Row :=
  ⟨str "/dev/sda1", ⟨wholeNumber "100", .G⟩, ⟨wholeNumber "40", .G⟩, ⟨wholeNumber "60", .G⟩,
    some 40, str "/home"⟩

def dataRow : Row :=
  ⟨str "/dev/sdb1", ⟨wholeNumber "3", .T⟩, ⟨wholeNumber "1", .T⟩, ⟨wholeNumber "2", .T⟩,
    some 34, str "/data"⟩

def dfHeader : Bytes := str "Filesystem Size Used Avail Use% Mounted on"

/-- What `df -h` prints when `/home` is all there is, and after `/data` was mounted. -/
def dfHome : Listing := ⟨dfHeader, [(homeRow, fun _ => 0)]⟩

def dfData : Listing := ⟨dfHeader, [(dataRow, fun _ => 0), (homeRow, fun _ => 0)]⟩

theorem dfHome_plain : dfHome.Plain := ⟨by decide, by decide, by decide +kernel⟩

theorem dfData_plain : dfData.Plain := ⟨by decide, by decide, by decide +kernel⟩

theorem disk_report_faithful_iff_data :
    ∃ first kept report, getDiskUsageString stod [] (some dfHome.text) = some (first, kept) ∧
      getDiskUsageString stod kept (some dfData.text) = some (report, dfData.rows.map Row.read) ∧
      (Faithful dfHome.rows dfData.rows report ↔ InStep dfHome.rows dfData.rows) := by
  have hfirst := @getDiskUsageString_rows [] _ _ dfHome_plain.getDiskUsageList
  obtain ⟨report, hnext, hiff⟩ := disk_report_faithful_iff dfHome_plain dfData_plain hfirst
  exact ⟨_, _, report, hfirst, hnext, hiff⟩

/-- Behind the other filesystem, `/home` has no row before it, and the terabyte is not counted. -/
theorem not_disk_report_faithful :
    ∃ first kept report, getDiskUsageString stod [] (some dfHome.text) = some (first, kept) ∧
      getDiskUsageString stod kept (some dfData.text) = some (report, dfData.rows.map Row.read) ∧
      usedSpaceDifference report 1 = .null ∧
      report.member (str "TotalUsedSpace") = .number homeRow.used.gigabytes ∧
      ¬ Faithful dfHome.rows dfData.rows report := by
  have hdiff : usedSpaceDifference (diskReport dfHome.rows dfData.rows) 1 = .null :=
    usedSpaceDifference_diskReport (i := 1) rfl
  refine ⟨_, _, _, @getDiskUsageString_rows [] _ _ dfHome_plain.getDiskUsageList,
    getDiskUsageString_rows dfData_plain.getDiskUsageList, hdiff, ?_, ?_⟩
  · refine (member_totalUsedSpace _).trans (congrArg Json.number ?_)
    simp [Size.counted, dataRow, homeRow, dfData, Listing.rows]
  · intro h
    cases hdiff.symm.trans (h.difference (i := 1) (j := 0) rfl rfl ⟨rfl, rfl⟩)

/-! ### A name with a blank -/

def shareRow : Row :=
  ⟨str "//srv/my share", ⟨wholeNumber "100", .G⟩, ⟨wholeNumber "40", .G⟩, ⟨wholeNumber "60", .G⟩,
    some 40, str "/mnt/s"⟩

def dfShare : Listing := ⟨dfHeader, [(shareRow, fun _ => 0)]⟩

/-- It is read as if all of it were used. -/
def shareRead : DiskUsage :=
  ⟨str "//srv/my", str "share", shareRow.size.text, shareRow.used.text, shareRow.available.text,
    str "40%"⟩

theorem getDiskUsageList_dfShare : getDiskUsageList (some dfShare.text) = [shareRead] := by
  decide +kernel

theorem getDiskUsageString_dfShare {diff : Option ℚ}
    (hdiff : entryDiff stod shareRead previous[0]? = some diff) :
    getDiskUsageString stod previous (some dfShare.text) =
      some (resultObject ⟨[diskUsageObject shareRead diff], 0 + shareRow.size.counted,
        0 + shareRow.used.counted⟩, [shareRead]) := by
  have hused : addSpace stod 0 shareRead.used = some (0 + shareRow.size.counted) :=
    Size.addSpace_text _
  have havailable : addSpace stod 0 shareRead.available = some (0 + shareRow.used.counted) :=
    Size.addSpace_text _
  rw [getDiskUsageString, getDiskUsageList_dfShare]
  simp [diskUsageStep, hdiff, hused, havailable]

/-- Of a listing that is not plain the report may be wrong although the two are in step. -/
theorem not_faithful_of_blank :
    ∃ first kept report next, getDiskUsageString stod [] (some dfShare.text) = some (first, kept) ∧
      getDiskUsageString stod kept (some dfShare.text) = some (report, next) ∧
      InStep dfShare.rows dfShare.rows ∧ ¬ Faithful dfShare.rows dfShare.rows report := by
  have hdiff : usedSpaceDiff stod shareRead.used shareRead.used =
      some (shareRow.size.countedDiff shareRow.size) := Size.usedSpaceDiff_text
  have hagain : entryDiff stod shareRead [shareRead][0]? =
      some (some (shareRow.size.countedDiff shareRow.size)) := by
    rw [List.getElem?_cons_zero, entryDiff, hdiff]
    rfl
  refine ⟨_, _, _, _, getDiskUsageString_dfShare rfl, getDiskUsageString_dfShare hagain, ?_, ?_⟩
  · refine ⟨fun {i j r r'} hr hr' _ => ?_, ?_, ?_⟩
    · have hi : i = 0 := Nat.lt_one_iff.mp (List.getElem?_eq_some_iff.mp hr).1
      have hj : j = 0 := Nat.lt_one_iff.mp (List.getElem?_eq_some_iff.mp hr').1
      subst hi hj
      cases hr
      cases hr'
      exact ⟨shareRow, rfl, by rw [ite_self]⟩
    · simp [dfShare, Listing.rows, shareRow]
    · simp [dfShare, Listing.rows, shareRow]
  · intro h
    have htotal := (member_totalUsedSpace _).symm.trans h.totalUsedSpace
    have hused : (0 : ℚ) + 100 * 1 = ([40 * 1] : List ℚ).sum := Json.number.inj htotal
    norm_num at hused

end SecDetector.Usage
