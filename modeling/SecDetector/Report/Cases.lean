import SecDetector.Report.SaveCheck

/-!
# The reporting cases

`report_kmodule_baseline` of `secDetector_mc_kmodule_baseline.c` and the two kprobe handlers
of `secDetector_program_action.c`: the `response_data_t` that each hands to
`secDetector_report`, or nothing when it returns before.
-/

namespace SecDetector.Report

open Lib Text

/-! ## The list of kernel modules -/

/-- `NAME_LEN`. -/
def nameLen : ℕ := 4096

/-- `KMODULE_BASELINE_TYPE`. -/
def kmoduleBaselineType : BitVec 32 := 0x00800000

/-- The `module_name` that `add_kmodule_baseline_name` stores. -/
def addKmoduleBaselineName (name : Text) : Text :=
  name.take (if name.length < nameLen then name.length else nameLen - 1)

/-- The loop over `chkrkatt_module_list`. -/
def appendNames (headerMsgLen : ℕ) : List Text → Buffer → Buffer
  | [], moduleNameAll => moduleNameAll
  | name :: names, moduleNameAll =>
      if moduleNameAll.text.length + name.length < nameLen - 2 - headerMsgLen then
        appendNames headerMsgLen names ((moduleNameAll.strcat name).strcat (ascii ", "))
      else appendNames headerMsgLen names moduleNameAll

/-- `module_name_all` after the loop. -/
def moduleNameAll (headerMsgLen : ℕ) (names : List Text) : Buffer :=
  appendNames headerMsgLen names
    ((Buffer.alloc nameLen).strcat (ascii "event_type=kmodulelist module_name="))

/-- The output of the format in `report_kmodule_baseline`. -/
def kmoduleFormat (headerMsg : CString timeStrMaxLen) (names : List Text) : Text :=
  headerMsg.toText ++ (moduleNameAll headerMsg.length names).text ++
    ascii "\n" (ascii_check "\n" trivial)

/-- `report_kmodule_baseline`, on the stored names; `kzalloc` and `kmalloc` answer the
allocations of `module_name_all` and of the text. -/
def reportKmoduleBaseline (names : List Text) (headerMsg : Option (CString timeStrMaxLen))
    (kzalloc kmalloc : Bool) : Option ReportData :=
  match kzalloc, headerMsg with
  | true, some headerMsg =>
      if headerMsg.length = 0 then none
      else
        let len := (moduleNameAll headerMsg.length names).text.length + headerMsg.length + 1
        if kmalloc = true ∧ 0 < scnprintfRet len (kmoduleFormat headerMsg names) then
          some ⟨kmoduleBaselineType,
            (Buffer.alloc len).snprintf len (kmoduleFormat headerMsg names), len⟩
        else none
  | _, _ => none

/-! ## Program actions -/

/-- `PATH_LEN`. -/
def pathLen : ℕ := 512

/-- `BUF_SIZE`. -/
def bufSize : ℕ := 4096

/-- `TASK_COMM_LEN`. -/
def taskCommLen : ℕ := 16

/-- The fields of `struct process_info` that the handlers print.  `exe` is what `%s` makes of
the pointer, which may be the one of an error. -/
structure ProcessInfo where
  uid : BitVec 32
  exe : CString pathLen
  pid : BitVec 32
  comm : CString taskCommLen
  tgid : BitVec 32
  ppid : BitVec 32
  pcomm : CString taskCommLen
  pgid : BitVec 32
  sid : BitVec 32
  nodename : CString 255
  pns : BitVec 32
  rootPns : BitVec 32

/-- What `%s` makes of a timestamp. -/
def formatTimestamp (timestamp : Option (CString timeStrMaxLen)) : Text :=
  timestamp.elim (ascii "(null)") CString.toText

/-- The part of the formats that shows the process. -/
def processFormat (pi : ProcessInfo) : Text :=
  ascii " uid=" ++ signed pi.uid.toInt ++ ascii " exe=" ++ pi.exe.toText ++
    ascii " pid=" ++ signed pi.pid.toInt ++ ascii " comm=" ++ pi.comm.toText ++
    ascii " tgid=" ++ signed pi.tgid.toInt ++ ascii " ppid=" ++ signed pi.ppid.toInt ++
    ascii " pcomm=" ++ pi.pcomm.toText ++ ascii " pgid=" ++ signed pi.pgid.toInt ++
    ascii " sid=" ++ signed pi.sid.toInt ++ ascii " nodename=" ++ pi.nodename.toText ++
    ascii " pns=" ++ decimal pi.pns.toNat ++ ascii " root_pns=" ++ decimal pi.rootPns.toNat

/-- The arguments that `ptrace_attach_pre_handler` takes from the registers, and the pids it
prints. -/
structure PtraceArgs where
  attachTaskPid : BitVec 32
  curTaskPid : BitVec 32
  request : BitVec 64
  addr : BitVec 64
  flags : BitVec 64

/-- The output of the format in `ptrace_attach_pre_handler`. -/
def ptraceAttachFormat (timestamp : Option (CString timeStrMaxLen)) (pi : ProcessInfo)
    (args : PtraceArgs) : Text :=
  formatTimestamp timestamp ++ ascii " event_type=call_api" ++ processFormat pi ++
    ascii " api_name=" ++ ascii "ptrace_attach" ++
    ascii " api_arg=[attach_task_pid=" ++ signed args.attachTaskPid.toInt ++
    ascii " cur_task_pid=" ++ signed args.curTaskPid.toInt ++
    ascii " request=" ++ signed args.request.toInt ++ ascii " addr=" ++ decimal args.addr.toNat ++
    ascii " flags=" ++ decimal args.flags.toNat ++ ascii "]\n"

/-- The output of the format in `do_pipe2_pre_handler`. -/
def doPipe2Format (timestamp : Option (CString timeStrMaxLen)) (pi : ProcessInfo) : Text :=
  formatTimestamp timestamp ++ ascii " event_type=createpipe" ++ processFormat pi ++
    ascii " dfd= pipe_name=" ++ ascii "" ++ ascii "\n" (ascii_check "\n" trivial)

/-- The report of a handler that prints `out` into a zeroed buffer of `BUF_SIZE` bytes. -/
def bufferReport (type : BitVec 32) (out : Text) : ReportData :=
  ⟨type, (Buffer.alloc bufSize).snprintf bufSize out, bufSize⟩

/-- `ptrace_attach_pre_handler`; `args` is nothing when there is no task to attach to. -/
def ptraceAttachPreHandler (pi : Option ProcessInfo) (args : Option PtraceArgs)
    (timestamp : Option (CString timeStrMaxLen)) (kzalloc : Bool) : Option ReportData :=
  match pi, args with
  | some pi, some args =>
      if kzalloc then some (bufferReport 0x00000800 (ptraceAttachFormat timestamp pi args))
      else none
  | _, _ => none

/-- `do_pipe2_pre_handler`. -/
def doPipe2PreHandler (pi : Option ProcessInfo) (timestamp : Option (CString timeStrMaxLen))
    (kzalloc : Bool) : Option ReportData :=
  match pi with
  | some pi =>
      if kzalloc then some (bufferReport 0x00000200 (doPipe2Format timestamp pi)) else none
  | none => none

/-! ## The formats fit -/

theorem length_signed_32 (v : BitVec 32) : (signed v.toInt).length ≤ 11 := by
  apply length_signed_le (k := 10) (by decide)
  have hlt := v.isLt
  rw [BitVec.toInt_eq_toNat_cond]
  split <;> omega

theorem length_signed_64 (v : BitVec 64) : (signed v.toInt).length ≤ 20 := by
  apply length_signed_le (k := 19) (by decide)
  have hlt := v.isLt
  rw [BitVec.toInt_eq_toNat_cond]
  split <;> omega

theorem length_decimal_32 (v : BitVec 32) : (decimal v.toNat).length ≤ 10 :=
  length_decimal_le (by decide) (Nat.lt_of_lt_of_le v.isLt (by decide))

theorem length_decimal_64 (v : BitVec 64) : (decimal v.toNat).length ≤ 20 :=
  length_decimal_le (by decide) (Nat.lt_of_lt_of_le v.isLt (by decide))

theorem length_formatTimestamp (timestamp : Option (CString timeStrMaxLen)) :
    (formatTimestamp timestamp).length < 100 := by
  cases timestamp with
  | none => decide
  | some ts => exact ts.length_lt

/-- The fields of a process take at most a quarter of the buffer. -/
theorem length_processFormat (pi : ProcessInfo) : (processFormat pi).length ≤ 1024 := by
  have hexe : pi.exe.length < 512 := pi.exe.length_lt
  have hcomm : pi.comm.length < 16 := pi.comm.length_lt
  have hpcomm : pi.pcomm.length < 16 := pi.pcomm.length_lt
  have hnodename : pi.nodename.length < 255 := pi.nodename.length_lt
  have huid := length_signed_32 pi.uid
  have hpid := length_signed_32 pi.pid
  have htgid := length_signed_32 pi.tgid
  have hppid := length_signed_32 pi.ppid
  have hpgid := length_signed_32 pi.pgid
  have hsid := length_signed_32 pi.sid
  have hpns := length_decimal_32 pi.pns
  have hroot := length_decimal_32 pi.rootPns
  simp only [processFormat, length_append, length_ascii, String.reduceToList, List.length_cons,
    List.length_nil]
  omega

theorem length_ptraceAttachFormat (timestamp : Option (CString timeStrMaxLen))
    (pi : ProcessInfo) (args : PtraceArgs) :
    (ptraceAttachFormat timestamp pi args).length < bufSize := by
  have htimestamp := length_formatTimestamp timestamp
  have hprocess := length_processFormat pi
  have hattach := length_signed_32 args.attachTaskPid
  have hcur := length_signed_32 args.curTaskPid
  have hrequest := length_signed_64 args.request
  have haddr := length_decimal_64 args.addr
  have hflags := length_decimal_64 args.flags
  simp only [ptraceAttachFormat, bufSize, length_append, length_ascii, String.reduceToList,
    List.length_cons, List.length_nil]
  omega

theorem length_doPipe2Format (timestamp : Option (CString timeStrMaxLen)) (pi : ProcessInfo) :
    (doPipe2Format timestamp pi).length < bufSize := by
  have htimestamp := length_formatTimestamp timestamp
  have hprocess := length_processFormat pi
  simp only [doPipe2Format, bufSize, length_append, length_ascii, String.reduceToList,
    List.length_cons, List.length_nil]
  omega

theorem length_kmoduleFormat_pos (headerMsg : CString timeStrMaxLen) (names : List Text) :
    0 < (kmoduleFormat headerMsg names).length := by
  have hnewline : (ascii "\n").length = 1 := rfl
  rw [kmoduleFormat, length_append, hnewline]
  omega

/-! ## What each case reports -/

/-- **What a report of `report_kmodule_baseline` is.**  The bound of `scnprintf` cuts the
newline off. -/
theorem reportKmoduleBaseline_report {names : List Text}
    {headerMsg : Option (CString timeStrMaxLen)} {kzalloc kmalloc : Bool} {log : ReportData}
    (hreport : reportKmoduleBaseline names headerMsg kzalloc kmalloc = some log) :
    ∃ msg, headerMsg = some msg ∧ log.type = kmoduleBaselineType ∧
      log.len = (kmoduleFormat msg names).length ∧
      log.text.text = (kmoduleFormat msg names).take (log.len - 1) := by
  simp only [reportKmoduleBaseline] at hreport
  split at hreport
  · rename_i msg
    split at hreport
    · simp at hreport
    · split at hreport
      · obtain rfl := Option.some.inj hreport
        refine ⟨msg, rfl, rfl, ?_, rfl⟩
        have hnewline : (ascii "\n").length = 1 := rfl
        simp only [kmoduleFormat, length_append, hnewline]
        omega
      · simp at hreport
  · simp at hreport

end SecDetector.Report
