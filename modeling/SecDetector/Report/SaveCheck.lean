import Mathlib.Logic.Function.Basic
import SecDetector.Lib.CString

/-!
# The analyze unit

`get_timestamp_str` of `secDetector_analyze.c` and the functions of
`secDetector_save_check.c`.

Allocations are answered by the environment.  `sc_data.data` is the memory behind the
pointer, whatever the index; `len` is what was allocated.  SHA-256 is a parameter, and
a digest is given by its four words.
-/

namespace SecDetector.Report

open Lib Text

/-! ## Response data -/

@[simp] def responseOk : ℤ := 0
@[simp] def responseReport : ℤ := 1
@[simp] def eNomem : ℤ := 12

/-- `struct response_report_data`; the text is not `NULL`. -/
structure ReportData where
  type : BitVec 32
  text : Buffer
  len : ℕ

/-! ## The timestamp -/

/-- The fields of `struct tm` that the timestamp shows. -/
structure Tm where
  year : ℤ
  mon : ℤ
  mday : ℤ
  hour : ℤ
  min : ℤ
  sec : ℤ

/-- `TIME_STR_MAX_LEN`. -/
def timeStrMaxLen : ℕ := 100

/-- The output of the format in `get_timestamp_str`. -/
def timestampFormat (stm : Tm) : Text :=
  ascii "timestamp=" ++ zeroPadded 4 (stm.year + 1900) ++ zeroPadded 2 (stm.mon + 1) ++
    zeroPadded 2 stm.mday ++ ascii "." ++ zeroPadded 2 stm.hour ++ ascii ":" ++
    zeroPadded 2 stm.min ++ ascii ":" ++ zeroPadded 2 stm.sec ++
    ascii " " (ascii_check " " trivial)

/-- `get_timestamp_str`: the string, or nothing when an allocation fails. -/
def getTimestampStr (stm : Tm) (kzalloc kstrdup : Bool) : Option (CString timeStrMaxLen) :=
  if kzalloc && kstrdup then
    some (.ofText ((timestampFormat stm).take (timeStrMaxLen - 1)) (by
      rw [length_take]
      exact Nat.lt_of_le_of_lt (Nat.min_le_left _ _) (by decide)))
  else none

/-- What `get_timestamp_str` returns. -/
def timestampLen (timestamp : Option (CString timeStrMaxLen)) : ℕ :=
  match timestamp with
  | some ts => ts.length
  | none => 0

/-! ## Collected data -/

/-- The value of a `collect_data`, by its `value_type`. -/
inductive CollectValue where
  | int (value : BitVec 64)
  | region (bytes : List UInt8)
  | other

structure CollectData where
  name : Option Text
  value : CollectValue

/-- The digest of `sha256`, as four words. -/
abbrev Digest := Fin 4 → BitVec 64

instance digest_neZero : NeZero 4 := ⟨by decide⟩

/-- `hash_to_long`. -/
def hashToLong (sha256 : List UInt8 → Digest) (data : List UInt8) : BitVec 64 :=
  (List.finRange 4).foldl (fun ret i => ret &&& sha256 data i) (sha256 data 0)

/-- The `measure_value` of an item. -/
def measureValue (sha256 : List UInt8 → Digest) : CollectValue → BitVec 64
  | .int value => value
  | .region bytes => hashToLong sha256 bytes
  | .other => 0

/-! ## The baseline -/

/-- `struct save_check_data`. -/
structure SaveCheckData where
  data : ℕ → BitVec 64
  len : ℕ
  initTag : Bool

/-- The items with a name. -/
def namedCount (list : List CollectData) : ℕ :=
  list.countP fun cd => cd.name.isSome

/-- The loop of `analyze_save_check_init`, from index `i` on. -/
def initLoop (sha256 : List UInt8 → Digest) :
    List CollectData → ℕ → (ℕ → BitVec 64) → (ℕ → BitVec 64)
  | [], _, data => data
  | ⟨none, _⟩ :: rest, i, data => initLoop sha256 rest i data
  | ⟨some _, .other⟩ :: rest, i, data => initLoop sha256 rest (i + 1) data
  | ⟨some _, value⟩ :: rest, i, data =>
      initLoop sha256 rest (i + 1) (Function.update data i (measureValue sha256 value))

/-- `analyze_save_check_init`; `fresh` is the memory that `kmalloc` returns. -/
def analyzeSaveCheckInit (sha256 : List UInt8 → Digest) (list : List CollectData)
    (fresh : Option (ℕ → BitVec 64)) (status : SaveCheckData) : ℤ × SaveCheckData :=
  match fresh with
  | none => (-eNomem, status)
  | some data => (responseOk,
      { data := initLoop sha256 list 0 data, len := namedCount list, initTag := true })

/-! ## A later round -/

/-- `REPORT_MORE_CHAR_LEN`. -/
def reportMoreCharLen : ℕ := 80

/-- `MAX_DIGITS`. -/
def maxDigits : ℕ := 20

/-- `int_str` after `sprintf`. -/
def intStr (value : BitVec 64) : Buffer :=
  (Buffer.alloc maxDigits).strcpy (decimal value.toNat)

/-- The string of one changed item. -/
def itemLine (name : Text) (oldValue newValue : BitVec 64) : Buffer :=
  (Buffer.alloc (name.length + reportMoreCharLen))
    |>.strcpy (ascii " secswitch_name=")
    |>.strcat name
    |>.strcat (ascii " old_value=")
    |>.strcat (intStr oldValue).text
    |>.strcat (ascii " new_value=")
    |>.strcat (intStr newValue).text
    |>.strcat (ascii ".")

/-- The local variables of the loop; `lines` is `response_arrays`. -/
structure Progress where
  dataIndex : ℕ
  data : ℕ → BitVec 64
  lines : List Buffer
  charLen : ℕ

/-- The loop of `analyze_save_check_normal`, and whether it came to its end.  `kzalloc i`
answers the allocation of `response_arrays[i]`. -/
def normalLoop (sha256 : List UInt8 → Digest) (kzalloc : ℕ → Bool) :
    List CollectData → Progress → Progress × Bool
  | [], p => (p, true)
  | ⟨none, _⟩ :: rest, p => normalLoop sha256 kzalloc rest p
  | ⟨some name, value⟩ :: rest, p =>
      let measure := measureValue sha256 value
      if measure ≠ p.data p.dataIndex then
        if kzalloc p.lines.length then
          let line := itemLine name (p.data p.dataIndex) measure
          normalLoop sha256 kzalloc rest
            { dataIndex := p.dataIndex + 1
              data := Function.update p.data p.dataIndex measure
              lines := p.lines ++ [line]
              charLen := (p.charLen + line.text.length) % 2 ^ 32 }
        else (p, false)
      else normalLoop sha256 kzalloc rest { p with dataIndex := p.dataIndex + 1 }

/-- The answers to the allocations of `analyze_save_check_normal`. -/
structure NormalAllocs where
  arrays : Bool
  line : ℕ → Bool
  text : Bool

/-- The report text: the lines, a newline, and the timestamp if there is one. -/
def reportText (len : ℕ) (lines : List Buffer) (timestamp : Option (CString timeStrMaxLen)) :
    Buffer :=
  let text := lines.foldl (fun text line => text.strcat line.text) (Buffer.alloc (len + 1))
  let text := text.strcat (ascii "\n")
  match timestamp with
  | some ts => text.strcat ts.toText
  | none => text

/-- `analyze_save_check_normal`: what it returns, the baseline, and the response data. -/
def analyzeSaveCheckNormal (sha256 : List UInt8 → Digest) (list : List CollectData)
    (status : SaveCheckData) (eventType : BitVec 32) (allocs : NormalAllocs)
    (timestamp : Option (CString timeStrMaxLen)) : ℤ × SaveCheckData × Option ReportData :=
  if allocs.arrays then
    let (p, done) := normalLoop sha256 allocs.line list
      { dataIndex := 0, data := status.data, lines := [], charLen := 0 }
    let status := { status with data := p.data }
    if done then
      if p.lines.isEmpty then (responseOk, status, none)
      else if allocs.text then
        -- the newline is not counted
        let len := (p.charLen + timestampLen timestamp) % 2 ^ 32
        (responseReport, status, some ⟨eventType, reportText len p.lines timestamp, len⟩)
      else (-eNomem, status, none)
    else (-eNomem, status, none)
  else (-eNomem, status, none)

/-- `analyze_save_check`; `fresh` is the answer to the allocation of the baseline. -/
def analyzeSaveCheck (sha256 : List UInt8 → Digest) (list : List CollectData)
    (status : SaveCheckData) (eventType : BitVec 32) (fresh : Option (ℕ → BitVec 64))
    (allocs : NormalAllocs) (timestamp : Option (CString timeStrMaxLen)) :
    ℤ × SaveCheckData × Option ReportData :=
  if status.initTag then
    analyzeSaveCheckNormal sha256 list status eventType allocs timestamp
  else
    let (ret, status) := analyzeSaveCheckInit sha256 list fresh status
    (ret, status, none)

/-! ## The text and its length -/

/-- The characters of a timestamp. -/
def timestampText (timestamp : Option (CString timeStrMaxLen)) : Text :=
  timestamp.elim .empty CString.toText

/-- The characters of the lines. -/
def totalLength (lines : List Buffer) : ℕ :=
  (lines.map fun line => line.text.length).sum

theorem length_foldl_strcat (lines : List Buffer) (b : Buffer) :
    (lines.foldl (fun text line => text.strcat line.text) b).text.length =
      b.text.length + totalLength lines := by
  induction lines generalizing b with
  | nil => rfl
  | cons line lines ih =>
      rw [List.foldl_cons, ih, Buffer.text_strcat, length_append, totalLength, totalLength,
        List.map_cons, List.sum_cons, Nat.add_assoc]

/-- The report text has one character more than the lines and the timestamp. -/
theorem length_reportText (len : ℕ) (lines : List Buffer)
    (timestamp : Option (CString timeStrMaxLen)) :
    (reportText len lines timestamp).text.length =
      totalLength lines + timestampLen timestamp + 1 := by
  have hnewline : (ascii "\n").length = 1 := rfl
  cases timestamp with
  | none =>
      simp only [reportText, Buffer.text_strcat, length_append, length_foldl_strcat,
        Buffer.text_alloc, length_empty, hnewline, timestampLen]
      omega
  | some ts =>
      simp only [reportText, Buffer.text_strcat, length_append, length_foldl_strcat,
        Buffer.text_alloc, length_empty, hnewline, timestampLen]
      omega

/-- `response_data_char_len` counts the characters of the lines. -/
theorem charLen_normalLoop (sha256 : List UInt8 → Digest) (kzalloc : ℕ → Bool)
    (list : List CollectData) {p : Progress} (hp : p.charLen = totalLength p.lines % 2 ^ 32) :
    (normalLoop sha256 kzalloc list p).1.charLen =
      totalLength (normalLoop sha256 kzalloc list p).1.lines % 2 ^ 32 := by
  induction list generalizing p with
  | nil => exact hp
  | cons item rest ih =>
      obtain ⟨name, value⟩ := item
      cases name with
      | none =>
          -- an item without a name is passed over
          unfold normalLoop
          exact ih hp
      | some name =>
          simp only [normalLoop]
          split
          · split
            · apply ih
              simp [hp, totalLength]
            · exact hp
          · exact ih hp

/-- **What a report of `analyze_save_check` is.** -/
theorem analyzeSaveCheck_report {sha256 : List UInt8 → Digest} {list : List CollectData}
    {status : SaveCheckData} {eventType : BitVec 32} {fresh : Option (ℕ → BitVec 64)}
    {allocs : NormalAllocs} {timestamp : Option (CString timeStrMaxLen)} {log : ReportData}
    (hreport : (analyzeSaveCheck sha256 list status eventType fresh allocs timestamp).2.2 =
      some log) :
    ∃ lines, log.type = eventType ∧ log.text = reportText log.len lines timestamp ∧
      log.len = (totalLength lines % 2 ^ 32 + timestampLen timestamp) % 2 ^ 32 := by
  have hcount := charLen_normalLoop sha256 allocs.line list (p := ⟨0, status.data, [], 0⟩) rfl
  simp only [analyzeSaveCheck, analyzeSaveCheckNormal, hcount] at hreport
  -- the only way to a report: every allocation succeeds, and some item has changed
  split at hreport
  · split at hreport
    · split at hreport
      · split at hreport
        · simp at hreport
        · split at hreport
          · obtain rfl := Option.some.inj hreport
            exact ⟨_, rfl, rfl, rfl⟩
          · simp at hreport
      · simp at hreport
    · simp at hreport
  · simp at hreport

/-- The length of a report leaves the last character of its text out. -/
theorem len_lt_length_reportText {len : ℕ} {lines : List Buffer}
    {timestamp : Option (CString timeStrMaxLen)}
    (hlen : len = (totalLength lines % 2 ^ 32 + timestampLen timestamp) % 2 ^ 32) :
    len < (reportText len lines timestamp).text.length := by
  rw [length_reportText]
  omega

end SecDetector.Report
