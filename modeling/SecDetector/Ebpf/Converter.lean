import SecDetector.Ebpf.Event

/-!
# From a record to a text

`ebpf_converter.cpp`.  The answers of the environment are a parameter: the local time,
and the targets of the links in `/proc`.  A string of the record that does not end in
the array or in the union it begins in makes the text undefined, `none`.
-/

namespace SecDetector.Ebpf

open Lib Text Memory

/-- `get_local_time`, and `readlink`, which may fail. -/
structure Env where
  localTime : Text
  readlink : Text → Option Text

variable (env : Env) (e : EbpfEvent)

/-- `FindProcessPathFromPid`. -/
def findProcessPathFromPid : Option Text :=
  match env.readlink (ascii "/proc/" ++ decimal e.pid.toNat ++ ascii "/exe") with
  | some path => some path
  | none => readString e.comm

/-- `readlink_by_pid`. -/
def readlinkByPid (pid : ℤ) (type : Text) : Text :=
  (env.readlink (ascii "/proc/" ++ signed pid ++ ascii "/" ++ type)).getD .empty

/-- `extract_common_info`. -/
def extractCommonInfo : Option Text := do
  let eventName ← readString e.eventName
  let exe ← findProcessPathFromPid env e
  let comm ← readString e.comm
  let pcomm ← readString e.pcomm
  let nodename ← readString e.nodename
  return ascii "timestamp:" ++ env.localTime ++ ascii " event_name:" ++ eventName ++
    ascii " exe:" ++ exe ++ ascii " pid:" ++ decimal e.pid.toNat ++
    ascii " tgid:" ++ decimal e.tgid.toNat ++ ascii " pgid:" ++ decimal e.pgid.toNat ++
    ascii " uid:" ++ decimal e.uid.toNat ++ ascii " gid:" ++ decimal e.gid.toNat ++
    ascii " comm:" ++ comm ++ ascii " sid:" ++ decimal e.sid.toNat ++
    ascii " ppid:" ++ decimal e.ppid.toNat ++ ascii " pcomm:" ++ pcomm ++
    ascii " nodename:" ++ nodename ++ ascii " pns:" ++ decimal e.pns.toNat ++
    ascii " root_pns:" ++ decimal e.pns.toNat

/-- `%#04o`. -/
def umaskFormat (umask : ℕ) : Text :=
  zeros (4 - (octal umask).length) ++ octal umask

/-- `extract_common_process_info`. -/
def extractCommonProcessInfo : Text :=
  ascii " umask:" ++ umaskFormat (e.u32 ProcessInfo.umask) ++
    ascii " tracer_pid:" ++ decimal (e.u32 ProcessInfo.tracerPid) ++
    ascii " cgroup_ns:" ++ decimal (e.u64 ProcessInfo.cgroupNs) ++
    ascii " ipc_ns:" ++ decimal (e.u64 ProcessInfo.ipcNs) ++
    ascii " mnt_ns:" ++ decimal (e.u64 ProcessInfo.mntNs) ++
    ascii " user_ns:" ++ decimal (e.u64 ProcessInfo.userNs) ++
    ascii " uts_ns:" ++ decimal (e.u64 ProcessInfo.utsNs) ++
    ascii " time_ns:" ++ decimal (e.u64 ProcessInfo.timeNs) ++
    ascii " cwd:" ++ readlinkByPid env e.pid.toInt (ascii "cwd") ++
    ascii " root:" ++ readlinkByPid env e.pid.toInt (ascii "root")

/-- `convert_set_process_attr`. -/
def convertSetProcessAttr : Option Text := do
  let common ← extractCommonInfo env e
  return common ++ extractCommonProcessInfo env e ++
    ascii " new_uid:" ++ decimal (e.u32 ProcessInfo.newUid) ++
    ascii " new_gid:" ++ decimal (e.u32 ProcessInfo.newGid)

/-- `convert_creat_process`. -/
def convertCreatProcess : Option Text := do
  let common ← extractCommonInfo env e
  let text := common ++ extractCommonProcessInfo env e
  if e.u32 ProcessInfo.haveBprm ≠ 0 then
    let bprmFile ← e.cstr ProcessInfo.bprmFile
    return text ++ ascii " bprm_file:" ++ bprmFile
  else return text

/-- `convert_destroy_process`. -/
def convertDestroyProcess : Option Text := do
  let common ← extractCommonInfo env e
  return common ++ extractCommonProcessInfo env e ++
    ascii " exit_code:" ++ decimal (e.u32 ProcessInfo.exitCode)

/-- `convert_execve_cmd`. -/
def convertExecveCmd : Option Text := do
  let common ← extractCommonInfo env e
  let filename ← e.cstr ProcessInfo.filename
  let argv ← e.cstr ProcessInfo.argv
  let envp ← e.cstr ProcessInfo.envp
  return common ++ ascii " filename:" ++ filename ++ ascii " argv:" ++ argv ++
    ascii " envp:" ++ envp

/-- `convert_common_file`. -/
def convertCommonFile : Option Text := do
  let common ← extractCommonInfo env e
  let filename ← e.cstr FileInfo.filename
  return common ++ ascii " filename:" ++ filename

/-- `convert_set_file_attr`. -/
def convertSetFileAttr : Option Text := do
  let common ← extractCommonInfo env e
  let filename ← e.cstr FileInfo.filename
  let name ← e.cstr FileInfo.name
  let value ← e.cstr FileInfo.value
  let oldValue ← e.cstr FileInfo.oldValue
  return common ++ ascii " filename:" ++ filename ++ ascii " name:" ++ name ++
    ascii " value:" ++ value ++ ascii " old_value:" ++ oldValue

/-- `ebpf_event_to_text`, with the table `convert_funcs`. -/
def ebpfEventToText : Option Text :=
  if e.type = creatprocess then convertCreatProcess env e
  else if e.type = destroyprocess then convertDestroyProcess env e
  else if e.type = setprocessattr then convertSetProcessAttr env e
  else if e.type = createfile then convertCommonFile env e
  else if e.type = delfile then convertCommonFile env e
  else if e.type = setfileattr then convertSetFileAttr env e
  else if e.type = writefile then convertCommonFile env e
  else if e.type = readfile then convertCommonFile env e
  else if e.type = execcmd then convertExecveCmd env e
  else some (ascii "undefined type for ebpf_event")

end SecDetector.Ebpf
