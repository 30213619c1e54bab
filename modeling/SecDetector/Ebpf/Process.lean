import SecDetector.Ebpf.Event

/-!
# The process program

The handlers of `fentry.bpf.c`.
-/

namespace SecDetector.Ebpf.Process

open Lib Text Memory

variable {T : Type*} [DecidableEq T] (k : Kernel T)

/-! ## Common fields -/

/-- `get_namespace`. -/
def getNamespace (e : EbpfEvent) : EbpfEvent :=
  let task := k.currentTask
  e.storeU64 ProcessInfo.cgroupNs (task.cgroupNs.zeroExtend 64)
    |>.storeU64 ProcessInfo.ipcNs (task.ipcNs.zeroExtend 64)
    |>.storeU64 ProcessInfo.mntNs (task.mntNs.zeroExtend 64)
    |>.storeU64 ProcessInfo.userNs (task.userNs.zeroExtend 64)
    |>.storeU64 ProcessInfo.utsNs (task.utsNs.zeroExtend 64)
    |>.storeU64 ProcessInfo.timeNs (task.timeNs.zeroExtend 64)

/-- The value of `tracer_pid`. -/
def tracerPid : BitVec 32 :=
  if k.currentTask.ptrace ≠ 0 then k.read k.currentTask.parent TaskStruct.pid 0 else 0

/-- `get_common_info`. -/
def getCommonInfo (e : EbpfEvent) : EbpfEvent :=
  getNamespace k (((Ebpf.getCommonInfo k e).storeU32 ProcessInfo.umask k.currentTask.umask).storeU32
    ProcessInfo.tracerPid (tracerPid k))

/-! ## Reading strings -/

/-- What `bpf_probe_read_str` stores, with a bound of `size` bytes.  The source is nothing
when it cannot be read. -/
def probeBytes (size : ℕ) : Option Text → List UInt8
  | some text => (text.take (size - 1)).bytes ++ [0]
  | none => List.replicate size 0

/-- What `bpf_probe_read_str` returns. -/
def probeRet (size : ℕ) : Option Text → ℤ
  | some text => (text.take (size - 1)).length + 1
  | none => -14

/-- What `bpf_probe_read_user` finds at one place of an argument vector. -/
inductive ArgPointer where
  | unreadable
  | null
  | string (src : Option Text)

/-- `MAX_NUM_ARGS`. -/
def maxNumArgs : ℕ := 64

/-- The loops of `handle_execve_cmd`, from argument `i` on, for the field at `off`. -/
def readArgsLoop (off : ℕ) (args : ℕ → ArgPointer) :
    ℕ → ℕ → (ℕ → UInt8) → ℕ → (ℕ → UInt8) × ℕ
  | 0, _, info, pos => (info, pos)
  | n + 1, i, info, pos =>
      match args i with
      | .unreadable | .null => (info, pos)
      | .string src =>
          let info := store info (off + pos) (probeBytes (maxTextSize - pos) src)
          let len := probeRet (maxTextSize - pos) src
          if len < 0 then (info, pos)
          else
            let pos := pos + len.toNat
            if maxTextSize ≤ pos then (info, pos)
            else
              readArgsLoop off args n (i + 1) (store info (off + (pos - 1)) (ascii " ").bytes) pos

/-- One of the two loops, with the terminator that is written behind it. -/
def readArgs (off : ℕ) (args : ℕ → ArgPointer) (info : ℕ → UInt8) : ℕ → UInt8 :=
  let (info, pos) := readArgsLoop off args maxNumArgs 0 info 0
  -- with no argument read, the field keeps what the record held
  if 0 < pos then store info (off + (pos - 1)) [0] else info

/-! ## The handlers

What a handler writes to its record is a function of its own. -/

/-- The record of `handle_exec` and of `handle_fork`. -/
def creatEvent (eventName : Text) (e : EbpfEvent) : EbpfEvent :=
  { getCommonInfo k e with type := creatprocess }.setEventName eventName

def handleExec (e : EbpfEvent) : Option EbpfEvent :=
  reserveAndSubmit k (creatEvent k (ascii "sched_process_exec")) e

/-- `struct execve_arg`, with what its pointers lead to. -/
structure ExecveArg where
  filename : Option Text
  argv : ℕ → ArgPointer
  envp : ℕ → ArgPointer

/-- The record of `handle_execve_cmd`. -/
def execveCmdEvent (ctx : ExecveArg) (e : EbpfEvent) : EbpfEvent :=
  let e := { getCommonInfo k e with type := execcmd }.setEventName (ascii "execve_cmd")
  let e := e.storeInfo ProcessInfo.filename (probeBytes maxFilenameSize ctx.filename)
  let e := { e with info := readArgs ProcessInfo.argv ctx.argv e.info }
  { e with info := readArgs ProcessInfo.envp ctx.envp e.info }

def handleExecveCmd (ctx : ExecveArg) (e : EbpfEvent) : Option EbpfEvent :=
  reserveAndSubmit k (execveCmdEvent k ctx) e

/-- The record of `handle_exit`. -/
def exitEvent (exitCode : BitVec 64) (e : EbpfEvent) : EbpfEvent :=
  let e := { getCommonInfo k e with type := destroyprocess }.setEventName
    (ascii "sched_process_exit")
  e.storeU32 ProcessInfo.exitCode ((exitCode.sshiftRight 8 &&& 0xff).setWidth 32)

def handleExit (exitCode : BitVec 64) (e : EbpfEvent) : Option EbpfEvent :=
  reserveAndSubmit k (exitEvent k exitCode) e

def handleFork (e : EbpfEvent) : Option EbpfEvent :=
  reserveAndSubmit k (creatEvent k (ascii "sched_process_fork")) e

/-- The record of `handle_commit_creds`. -/
def commitCredsEvent (newUid newGid : BitVec 32) (e : EbpfEvent) : EbpfEvent :=
  let e := { e with type := setprocessattr }.storeU32 ProcessInfo.newUid newUid
  let e := e.storeU32 ProcessInfo.newGid newGid
  (getCommonInfo k e).setEventName (ascii "commit_creds")

def handleCommitCreds (newUid newGid : BitVec 32) (e : EbpfEvent) : Option EbpfEvent :=
  if k.currentTask.uid = newUid ∧ k.currentTask.gid = newGid then none
  else reserveAndSubmit k (commitCredsEvent k newUid newGid) e

/-- The record of `handle_bprm_check`; `file` is the name of the file of `bprm`. -/
def bprmCheckEvent (file : Option Text) (e : EbpfEvent) : EbpfEvent :=
  let e := { e with type := creatprocess }.storeInfo ProcessInfo.bprmFile
    (probeBytes maxFilenameSize file)
  let e := e.storeU32 ProcessInfo.haveBprm 1
  (getCommonInfo k e).setEventName (ascii "security_bprm_check")

def handleBprmCheck (file : Option Text) (e : EbpfEvent) : Option EbpfEvent :=
  reserveAndSubmit k (bprmCheckEvent k file) e

end SecDetector.Ebpf.Process
