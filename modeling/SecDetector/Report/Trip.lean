import SecDetector.Report.Cases
import SecDetector.Ring.Model

/-!
# From a reporter to the dispatcher

`secDetector_report` of `secDetector_response.c` copies a counted block of bytes into the
ring; `ringbuf_cb` of `main.cpp` reads a string from it.  The text survives if the
block contains its terminator.  The two kprobe handlers hand over their whole zeroed
buffer, and `report_survives_iff` says that their reports survive and no others: the
length that `analyze_save_check_normal` declares does not count the newline, and
`report_kmodule_baseline` leaves no room for it.
-/

namespace SecDetector.Report

open Lib SecDetector.Ring

/-! ## The two ends -/

/-- `sizeof(struct response_rb_entry)`. -/
def entryHdrSz : ℕ := 4

/-- The record that `secDetector_report` hands to `secDetector_ringbuf_output`. -/
def secDetectorReport (log : ReportData) (kzalloc : Bool) : Option (List UInt8) :=
  if log.len = 0 then none
  else
    let entrySize := (entryHdrSz + log.len) % 2 ^ 64
    if entrySize < entryHdrSz ∨ entrySize < log.len then none
    else if kzalloc then some (leBytes entryHdrSz log.type.toNat ++ log.text.bytes log.len)
    else none

/-- The checks that a record passes when `secDetector_ringbuf_output` returns 0. -/
structure Accepted (g : Geometry) (rb : Ringbuf) (consPos : ℕ) (entry : List UInt8) : Prop where
  fits : reserveFits g entry.length
  space : hasSpace g rb consPos entry.length

/-- `ringbuf_cb` on the memory from the sample on: the arguments of `push_log`, where
a string that does not end in this memory is nothing. -/
def ringbufCb (mem : List UInt8) (entrySize : ℕ) : Except ℤ (BitVec 32 × Option Text) :=
  if entrySize ≤ entryHdrSz then .error (-eInval)
  else .ok (BitVec.ofNat 32 (leNat (mem.take entryHdrSz)), readString (mem.drop entryHdrSz))

/-- The text of the reporter survives in this record: whatever bytes follow in the ring,
the callback pushes it, and it ends inside the record. -/
structure Survives (type : BitVec 32) (composed : Text) (entry : List UInt8) : Prop where
  pushed : ∀ rest, ringbufCb (entry ++ rest) (commitWord (busyWord entry.length) false) =
    .ok (type, some composed)
  inside : ∃ pad, entry.drop entryHdrSz = composed.bytes ++ 0 :: pad

variable {log : ReportData} {kzalloc : Bool} {entry : List UInt8}

theorem entry_of_report (hentry : secDetectorReport log kzalloc = some entry) :
    entry = leBytes entryHdrSz log.type.toNat ++ log.text.bytes log.len ∧ log.len ≠ 0 := by
  unfold secDetectorReport at hentry
  split at hentry
  · simp at hentry
  · rename_i hlen
    dsimp only at hentry
    split at hentry
    · simp at hentry
    · split at hentry
      · exact ⟨(Option.some.inj hentry).symm, hlen⟩
      · simp at hentry

/-- What the callback makes of a record. -/
theorem ringbufCb_entry (hentry : secDetectorReport log kzalloc = some entry)
    (hsize : entry.length ≤ ringbufMaxRecordSz) (rest : List UInt8) :
    ringbufCb (entry ++ rest) (commitWord (busyWord entry.length) false) =
      .ok (log.type, readString (log.text.bytes log.len ++ rest)) := by
  obtain ⟨rfl, hlen⟩ := entry_of_report hentry
  have htype : log.type.toNat < 256 ^ entryHdrSz := log.type.isLt
  have hlength : (leBytes entryHdrSz log.type.toNat).length = entryHdrSz := length_leBytes _ _
  rw [commitWord_busyWord hsize, ringbufCb, if_neg]
  · rw [List.append_assoc, List.take_left' hlength, List.drop_left' hlength, leNat_leBytes htype,
      BitVec.ofNat_toNat, BitVec.setWidth_eq]
  · simp only [Bool.false_eq_true, if_false, List.length_append, hlength, Buffer.length_bytes]
    omega

/-- A text that ends before its declared length survives. -/
theorem survives_of_lt (hentry : secDetectorReport log kzalloc = some entry)
    (hsize : entry.length ≤ ringbufMaxRecordSz) (hlt : log.text.text.length < log.len) :
    Survives log.type log.text.text entry where
  pushed rest := by
    rw [ringbufCb_entry hentry hsize, Buffer.bytes_of_lt _ hlt, List.append_assoc,
      List.cons_append, readString_append_nul]
  inside := by
    obtain ⟨rfl, -⟩ := entry_of_report hentry
    refine ⟨List.replicate (log.len - log.text.text.length - 1) 0, ?_⟩
    rw [List.drop_left' (length_leBytes _ _), Buffer.bytes_of_lt _ hlt]

/-- The string that the callback finds when a NUL happens to follow the record. -/
theorem readString_bytes (b : Buffer) (n : ℕ) :
    readString (b.bytes n ++ [0]) = some (b.text.take n) := by
  rcases Nat.lt_or_ge b.text.length n with hlt | hle
  · rw [b.bytes_of_lt hlt, List.append_assoc, List.cons_append, readString_append_nul,
      Text.take_of_le (Nat.le_of_lt hlt)]
  · rw [b.bytes_of_le hle, readString_append_nul]

/-- A text that is longer than what the record holds of it does not survive. -/
theorem not_survives {composed : Text} (hentry : secDetectorReport log kzalloc = some entry)
    (hsize : entry.length ≤ ringbufMaxRecordSz)
    (hlong : (log.text.text.take log.len).length < composed.length) :
    ¬ Survives log.type composed entry := by
  intro hsurvives
  have hpushed := hsurvives.pushed [0]
  rw [ringbufCb_entry hentry hsize, readString_bytes, Except.ok.injEq, Prod.mk.injEq,
    Option.some.injEq] at hpushed
  rw [hpushed.2] at hlong
  exact Nat.lt_irrefl _ hlong

/-! ## The reporters -/

/-- A call of one of the reporters, with its inputs. -/
inductive Reporter where
  | analyzeSaveCheck (sha256 : List UInt8 → Digest) (list : List CollectData)
      (status : SaveCheckData) (eventType : BitVec 32) (fresh : Option (ℕ → BitVec 64))
      (allocs : NormalAllocs) (timestamp : Option (CString timeStrMaxLen))
  | reportKmoduleBaseline (names : List Text) (headerMsg : Option (CString timeStrMaxLen))
      (kzalloc kmalloc : Bool)
  | ptraceAttachPreHandler (pi : Option ProcessInfo) (args : Option PtraceArgs)
      (timestamp : Option (CString timeStrMaxLen)) (kzalloc : Bool)
  | doPipe2PreHandler (pi : Option ProcessInfo) (timestamp : Option (CString timeStrMaxLen))
      (kzalloc : Bool)

namespace Reporter

/-- What the call hands to `secDetector_report`. -/
def reportData : Reporter → Option ReportData
  | .analyzeSaveCheck sha256 list status eventType fresh allocs timestamp =>
      (Report.analyzeSaveCheck sha256 list status eventType fresh allocs timestamp).2.2
  | .reportKmoduleBaseline names headerMsg kzalloc kmalloc =>
      Report.reportKmoduleBaseline names headerMsg kzalloc kmalloc
  | .ptraceAttachPreHandler pi args timestamp kzalloc =>
      Report.ptraceAttachPreHandler pi args timestamp kzalloc
  | .doPipe2PreHandler pi timestamp kzalloc => Report.doPipe2PreHandler pi timestamp kzalloc

/-- The whole text that the call composes. -/
def composed : Reporter → Text
  | .analyzeSaveCheck sha256 list status eventType fresh allocs timestamp =>
      match (Report.analyzeSaveCheck sha256 list status eventType fresh allocs timestamp).2.2 with
      | some log => log.text.text
      | none => .empty
  | .reportKmoduleBaseline names (some headerMsg) _ _ => kmoduleFormat headerMsg names
  | .ptraceAttachPreHandler (some pi) (some args) timestamp _ =>
      ptraceAttachFormat timestamp pi args
  | .doPipe2PreHandler (some pi) timestamp _ => doPipe2Format timestamp pi
  | _ => .empty

/-- The call is one of a `program_action` handler. -/
def isProgramAction : Reporter → Bool
  | .ptraceAttachPreHandler .. | .doPipe2PreHandler .. => true
  | _ => false

end Reporter

variable {r : Reporter}

/-- What is printed into a buffer that it does not fill is not cut off. -/
theorem text_bufferReport {out : Text} (type : BitVec 32) (hlt : out.length < bufSize) :
    (bufferReport type out).text.text = out ∧
      (bufferReport type out).text.text.length < (bufferReport type out).len := by
  have hcut : (bufferReport type out).text.text = out := by
    show out.take (bufSize - 1) = out
    exact Text.take_of_le (Nat.le_pred_of_lt hlt)
  rw [hcut]
  exact ⟨rfl, hlt⟩

/-- The handlers print less than their buffer. -/
theorem text_of_programAction (hlog : r.reportData = some log) (hr : r.isProgramAction = true) :
    log.text.text = r.composed ∧ log.text.text.length < log.len := by
  cases r with
  | analyzeSaveCheck => simp [Reporter.isProgramAction] at hr
  | reportKmoduleBaseline => simp [Reporter.isProgramAction] at hr
  | ptraceAttachPreHandler pi args timestamp kzalloc =>
      simp only [Reporter.reportData, Report.ptraceAttachPreHandler] at hlog
      split at hlog
      · rename_i pi args
        split at hlog
        · obtain rfl := Option.some.inj hlog
          exact text_bufferReport _ (length_ptraceAttachFormat timestamp pi args)
        · simp at hlog
      · simp at hlog
  | doPipe2PreHandler pi timestamp kzalloc =>
      simp only [Reporter.reportData, Report.doPipe2PreHandler] at hlog
      split at hlog
      · rename_i pi
        split at hlog
        · obtain rfl := Option.some.inj hlog
          exact text_bufferReport _ (length_doPipe2Format timestamp pi)
        · simp at hlog
      · simp at hlog

/-- The other reporters hand over less than they compose. -/
theorem length_take_of_not_programAction (hlog : r.reportData = some log)
    (hr : r.isProgramAction = false) :
    (log.text.text.take log.len).length < r.composed.length := by
  cases r with
  | analyzeSaveCheck sha256 list status eventType fresh allocs timestamp =>
      obtain ⟨lines, -, htext, hlen⟩ := analyzeSaveCheck_report hlog
      have hshort := len_lt_length_reportText hlen
      rw [← htext] at hshort
      rw [Reporter.reportData] at hlog
      rw [Reporter.composed, hlog, Text.length_take]
      calc min log.len log.text.text.length ≤ log.len := Nat.min_le_left _ _
        _ < log.text.text.length := hshort
  | reportKmoduleBaseline names headerMsg kzalloc kmalloc =>
      obtain ⟨msg, rfl, -, hlen, htext⟩ := reportKmoduleBaseline_report hlog
      have hpos := length_kmoduleFormat_pos msg names
      rw [Reporter.composed, htext, Text.length_take, Text.length_take, hlen]
      omega
  | ptraceAttachPreHandler => simp [Reporter.isProgramAction] at hr
  | doPipe2PreHandler => simp [Reporter.isProgramAction] at hr

/-- **Which reports reach the dispatcher unchanged.**  A report that
`secDetector_ringbuf_output` accepts survives if and only if it comes from one of the two
kprobe handlers. -/
theorem report_survives_iff {g : Geometry} {rb : Ringbuf} {consPos : ℕ}
    (hlog : r.reportData = some log) (hentry : secDetectorReport log kzalloc = some entry)
    (haccept : Accepted g rb consPos entry) :
    Survives log.type r.composed entry ↔ r.isProgramAction = true := by
  have hsize := haccept.fits.1
  constructor
  · intro hsurvives
    by_contra hr
    rw [Bool.not_eq_true] at hr
    exact not_survives hentry hsize (length_take_of_not_programAction hlog hr) hsurvives
  · intro hr
    obtain ⟨htext, hlt⟩ := text_of_programAction hlog hr
    rw [← htext]
    exact survives_of_lt hentry hsize hlt

/-! ## Two reports

Both are made at the same second and are the first record of a fresh ring of the
default size. -/

/-- The ring of the default size. -/
def defaultRing : Geometry where
  order := 22
  base := 2 ^ 40
  daemonMask := 2 ^ 22 - 1
  page_le := by norm_num
  order_le := by norm_num
  base_aligned := pageSize_dvd_two_pow_40
  base_le := by norm_num

/-- The ring after `ringbuf_alloc`. -/
def freshRingbuf : Ringbuf := ⟨0, 0, fun _ => 0⟩

theorem accepted_fresh (hlength : entry.length ≤ 5000) :
    Accepted defaultRing freshRingbuf 0 entry := by
  have hmask : defaultRing.mask = 2 ^ 22 - 1 := rfl
  refine ⟨⟨?_, ?_⟩, ?_⟩
  · simp only [ringbufMaxRecordSz]
    omega
  · simp only [reserveLen, bpfRingbufHdrSz, hmask]
    omega
  · simp only [hasSpace, freshRingbuf, reserveLen, bpfRingbufHdrSz, hmask]
    omega

/-- What `secDetector_report` hands over when its allocation succeeds. -/
theorem secDetectorReport_eq (log : ReportData) (hpos : log.len ≠ 0) (hlen : log.len ≤ 4096) :
    secDetectorReport log true =
      some (leBytes entryHdrSz log.type.toNat ++ log.text.bytes log.len) := by
  have hsize : (entryHdrSz + log.len) % 2 ^ 64 = entryHdrSz + log.len := by
    unfold entryHdrSz
    omega
  rw [secDetectorReport, if_neg hpos]
  dsimp only
  rw [hsize, if_neg (by omega), if_pos rfl]

theorem length_entry (log : ReportData) (hlen : log.len ≤ 4096) :
    (leBytes entryHdrSz log.type.toNat ++ log.text.bytes log.len).length ≤ 5000 := by
  rw [List.length_append, length_leBytes, Buffer.length_bytes, entryHdrSz]
  omega

def newYear : Option (CString timeStrMaxLen) :=
  getTimestampStr ⟨124, 0, 1, 0, 0, 0⟩ true true

def shell : ProcessInfo where
  uid := 0
  exe := .ofText (.ascii "/bin/sh") (by decide)
  pid := 42
  comm := .ofText (.ascii "sh" (Text.ascii_check "sh" trivial)) (by decide)
  tgid := 42
  ppid := 1
  pcomm := .ofText (.ascii "init") (by decide)
  pgid := 42
  sid := 42
  nodename := .ofText (.ascii "host" (Text.ascii_check "host" trivial)) (by decide)
  pns := 1
  rootPns := 1

/-- A shell creates a pipe. -/
def pipeReport : Reporter := .doPipe2PreHandler (some shell) newYear true

theorem report_survives_pipe :
    ∃ log entry, pipeReport.reportData = some log ∧ secDetectorReport log true = some entry ∧
      Survives log.type pipeReport.composed entry := by
  have hlog : pipeReport.reportData =
    some (bufferReport 0x00000200 (doPipe2Format newYear shell)) := rfl
  have hentry := secDetectorReport_eq (bufferReport 0x00000200 (doPipe2Format newYear shell))
    (by decide) (by decide)
  refine ⟨_, _, hlog, hentry, ?_⟩
  exact (report_survives_iff hlog hentry (accepted_fresh (length_entry _ (by decide)))).mpr rfl

/-- The baseline has `SMEP` on, and now it is off. -/
def smepReport : Reporter :=
  .analyzeSaveCheck (fun _ _ => 0)
    [⟨some (.ascii "SMEP" (Text.ascii_check "SMEP" trivial)), .int 0⟩]
    ⟨fun _ => 1, 1, true⟩ 0x00008000 none ⟨true, fun _ => true, true⟩ newYear

/-- A report of `analyze_save_check` does not survive. -/
theorem not_report_survives :
    ¬ ∀ (r : Reporter) (log : ReportData) (kzalloc : Bool) (entry : List UInt8) (g : Geometry)
      (rb : Ringbuf) (consPos : ℕ), r.reportData = some log →
      secDetectorReport log kzalloc = some entry → Accepted g rb consPos entry →
      Survives log.type r.composed entry := by
  intro hclaim
  have hdata : smepReport.reportData.map ReportData.len = some 73 := by decide +kernel
  obtain ⟨log, hlog, hlen⟩ := Option.map_eq_some_iff.mp hdata
  have hentry := secDetectorReport_eq log (by omega) (by omega)
  have haccept := accepted_fresh (length_entry log (by omega))
  exact not_survives hentry haccept.fits.1 (length_take_of_not_programAction hlog rfl)
    (hclaim smepReport log true _ _ _ _ hlog hentry haccept)

end SecDetector.Report
