import SecDetector.Report.SaveCheck

/-!
# The sizes of the report's buffers

Every string of a report is built by one `strcpy` and some `strcat`, so the bytes written
are the string and its terminator (`Buffer.Tight`), and a buffer is large enough exactly if
its string is shorter.

The string of an item has room for two numbers of 20 digits, which is what 64 bits need, but
`int_str` has no room for the terminator of such a number (`item_fits_iff`).  The report text
is one byte longer than the sum of its parts, since the newline is not counted, and never
fits (`report_never_fits`).
-/

namespace SecDetector.Report

open Lib Text Buffer

/-! ## Items -/

theorem tight_intStr (value : BitVec 64) : (intStr value).Tight :=
  tight_strcpy _ _

theorem tight_itemLine (name : Text) (oldValue newValue : BitVec 64) :
    (itemLine name oldValue newValue).Tight :=
  ((((((tight_strcpy _ _).strcat _).strcat _).strcat _).strcat _).strcat _).strcat _

/-- `int_str` takes 19 digits. -/
theorem intStr_inBounds_iff (value : BitVec 64) :
    (intStr value).InBounds ↔ value.toNat < 10 ^ 19 := by
  rw [(tight_intStr value).inBounds_iff]
  show (decimal value.toNat).length < 20 ↔ _
  rw [Nat.lt_succ_iff, length_decimal_le_iff (by decide)]

/-- A 64-bit number has 20 digits at most. -/
theorem length_decimal_toNat_le (value : BitVec 64) : (decimal value.toNat).length ≤ 20 :=
  length_decimal_le (by decide) (Nat.lt_of_lt_of_le value.isLt (by decide))

theorem length_itemLine (name : Text) (oldValue newValue : BitVec 64) :
    (itemLine name oldValue newValue).text.length =
      name.length + (decimal oldValue.toNat).length + (decimal newValue.toNat).length + 39 := by
  have hname : (ascii " secswitch_name=").length = 16 := rfl
  have hold : (ascii " old_value=").length = 11 := rfl
  have hnew : (ascii " new_value=").length = 11 := rfl
  have hdot : (ascii ".").length = 1 := rfl
  simp only [itemLine, intStr, text_strcat, text_strcpy, length_append, hname, hold, hnew, hdot]
  omega

/-- The string of an item fits, whatever its name and its values. -/
theorem itemLine_inBounds (name : Text) (oldValue newValue : BitVec 64) :
    (itemLine name oldValue newValue).InBounds := by
  have hold := length_decimal_toNat_le oldValue
  have hnew := length_decimal_toNat_le newValue
  rw [(tight_itemLine _ _ _).inBounds_iff, length_itemLine]
  show _ < name.length + 80
  omega

/-- Every write of the formatting of an item stays inside its buffer. -/
structure ItemFits (name : Text) (oldValue newValue : BitVec 64) : Prop where
  old : (intStr oldValue).InBounds
  new : (intStr newValue).InBounds
  line : (itemLine name oldValue newValue).InBounds

/-- **When the formatting of an item stays inside its buffers.** -/
theorem item_fits_iff (name : Text) (oldValue newValue : BitVec 64) :
    ItemFits name oldValue newValue ↔
      oldValue.toNat < 10 ^ 19 ∧ newValue.toNat < 10 ^ 19 := by
  constructor
  · intro hfits
    exact ⟨(intStr_inBounds_iff _).mp hfits.old, (intStr_inBounds_iff _).mp hfits.new⟩
  · intro hsmall
    exact ⟨(intStr_inBounds_iff _).mpr hsmall.1, (intStr_inBounds_iff _).mpr hsmall.2,
      itemLine_inBounds _ _ _⟩

/-- A measure of 20 digits does not fit. -/
theorem not_item_fits :
    ¬ ∀ (name : Text) (oldValue newValue : BitVec 64), ItemFits name oldValue newValue := by
  intro hclaim
  have hfits := (intStr_inBounds_iff _).mp (hclaim (ascii "WP") 0 (BitVec.allOnes 64)).new
  exact absurd hfits (by decide)

/-! ## The report -/

theorem size_foldl_strcat (lines : List Buffer) (b : Buffer) :
    (lines.foldl (fun text line => text.strcat line.text) b).size = b.size := by
  induction lines generalizing b with
  | nil => rfl
  | cons line lines ih => exact ih _

theorem size_reportText (len : ℕ) (lines : List Buffer)
    (timestamp : Option (CString timeStrMaxLen)) :
    (reportText len lines timestamp).size = len + 1 := by
  have hlines := size_foldl_strcat lines (Buffer.alloc (len + 1))
  cases timestamp with
  | none => exact hlines
  | some ts => exact hlines

/-- The last `strcat` writes the terminator of the whole text. -/
theorem length_lt_written_reportText (len : ℕ) (lines : List Buffer)
    (timestamp : Option (CString timeStrMaxLen)) :
    (reportText len lines timestamp).text.length < (reportText len lines timestamp).written := by
  have hstrcat : ∀ (b : Buffer) (src : Text), (b.strcat src).text.length < (b.strcat src).written :=
    fun b src => by
      rw [text_strcat, length_append]
      exact Nat.le_max_right _ _
  cases timestamp with
  | none => exact hstrcat _ _
  | some ts => exact hstrcat _ _

/-- The report is inside its allocation, and its length covers the text and the
terminator. -/
structure ReportFits (log : ReportData) : Prop where
  inBounds : log.text.InBounds
  covered : log.text.text.length < log.len

/-- **A report of save-check is written past its end, and its length does not cover it.** -/
theorem report_never_fits {sha256 : List UInt8 → Digest} {list : List CollectData}
    {status : SaveCheckData} {eventType : BitVec 32} {fresh : Option (ℕ → BitVec 64)}
    {allocs : NormalAllocs} {timestamp : Option (CString timeStrMaxLen)} {log : ReportData}
    (hreport : (analyzeSaveCheck sha256 list status eventType fresh allocs timestamp).2.2 =
      some log) :
    ¬ log.text.InBounds ∧ ¬ log.text.text.length < log.len := by
  obtain ⟨lines, _, htext, hlen⟩ := analyzeSaveCheck_report hreport
  have hshort : log.len < log.text.text.length := by
    rw [htext]
    exact len_lt_length_reportText hlen
  refine ⟨fun hbounds => ?_, Nat.lt_asymm hshort⟩
  -- even without a timestamp there is a newline
  have hwritten := length_lt_written_reportText log.len lines timestamp
  rw [← htext] at hwritten
  have hsize : log.text.size = log.len + 1 := by
    rw [htext]
    exact size_reportText _ _ _
  rw [InBounds, hsize] at hbounds
  omega

/-- A switch that is off now. -/
def oneSwitch : List CollectData := [⟨some (ascii "WP" (ascii_check "WP" trivial)), .int 0⟩]

/-- It was on when the baseline was made. -/
def oneOn : SaveCheckData := ⟨fun _ => 1, 1, true⟩

theorem report_never_fits_oneSwitch :
    ∃ log, (analyzeSaveCheck (fun _ _ => 0) oneSwitch oneOn 0 none ⟨true, fun _ => true, true⟩
        none).2.2 = some log ∧
      ¬ log.text.InBounds ∧ ¬ log.text.text.length < log.len := by
  have hreport : (analyzeSaveCheck (fun _ _ => 0) oneSwitch oneOn 0 none
      ⟨true, fun _ => true, true⟩ none).2.2 = some _ := rfl
  exact ⟨_, hreport, report_never_fits hreport⟩

/-- A report can be too long for its buffer. -/
theorem not_report_fits :
    ¬ ∀ (sha256 : List UInt8 → Digest) (list : List CollectData) (status : SaveCheckData)
      (eventType : BitVec 32) (fresh : Option (ℕ → BitVec 64)) (allocs : NormalAllocs)
      (timestamp : Option (CString timeStrMaxLen)) (log : ReportData),
      (analyzeSaveCheck sha256 list status eventType fresh allocs timestamp).2.2 = some log →
        ReportFits log := by
  intro hclaim
  have hfits := hclaim (fun _ _ => 0) oneSwitch oneOn 0 none ⟨true, fun _ => true, true⟩ none _ rfl
  exact absurd hfits.covered (by decide)

end SecDetector.Report
