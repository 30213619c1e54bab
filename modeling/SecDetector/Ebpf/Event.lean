import SecDetector.Lib.Memory

/-!
# The record of an eBPF event

`struct ebpf_event` of `ebpf_types.h`, the part of the kernel that the programs read, and
the helper functions that both programs share.

The common fields of the record are fields of `EbpfEvent`.  The anonymous union at its
end is memory: `process_info` and `file_info` are two sets of offsets into it, and a
string in it that has no terminator runs on into the field behind it.
`bpf_ringbuf_reserve` does not clear a record, so a handler is a function of the
record it is given.
-/

namespace SecDetector.Ebpf

open Lib Text Memory

/-! ## Constants -/

def taskCommSize : ℕ := 16
def maxFilenameSize : ℕ := 256
def maxTextSize : ℕ := 4096

theorem maxFilenameSize_pos : 0 < maxFilenameSize := by decide

def createfile : BitVec 32 := 0x00000001
def delfile : BitVec 32 := 0x00000002
def setfileattr : BitVec 32 := 0x00000004
def writefile : BitVec 32 := 0x00000008
def readfile : BitVec 32 := 0x00000010
def creatprocess : BitVec 32 := 0x00000020
def destroyprocess : BitVec 32 := 0x00000040
def setprocessattr : BitVec 32 := 0x00000100
def execcmd : BitVec 32 := 0x00000400

/-! ## The record -/

/-- `struct ebpf_event`; `info` is the memory of the union. -/
structure EbpfEvent where
  type : BitVec 32
  eventName : List UInt8
  timestamp : BitVec 64
  uid : BitVec 32
  gid : BitVec 32
  exe : List UInt8
  pid : BitVec 32
  comm : List UInt8
  tgid : BitVec 32
  pgid : BitVec 32
  ppid : BitVec 32
  pcomm : List UInt8
  sid : BitVec 32
  nodename : List UInt8
  pns : BitVec 32
  rootPns : BitVec 32
  info : ℕ → UInt8

/-- `sizeof` the union. -/
@[simp] def infoSize : ℕ := 16384

/-! The offsets of `struct process_info`. -/

namespace ProcessInfo

@[simp] def exitCode : ℕ := 0
@[simp] def newUid : ℕ := 8
@[simp] def newGid : ℕ := 12
@[simp] def umask : ℕ := 16
@[simp] def tracerPid : ℕ := 20
@[simp] def cgroupNs : ℕ := 24
@[simp] def ipcNs : ℕ := 32
@[simp] def mntNs : ℕ := 40
@[simp] def userNs : ℕ := 48
@[simp] def utsNs : ℕ := 56
@[simp] def timeNs : ℕ := 64
@[simp] def bprmFile : ℕ := 72
@[simp] def haveBprm : ℕ := 328
@[simp] def filename : ℕ := 332
@[simp] def argv : ℕ := 588
@[simp] def envp : ℕ := 4684

end ProcessInfo

/-! The offsets of `struct file_info`. -/

namespace FileInfo

@[simp] def filename : ℕ := 0
@[simp] def name : ℕ := 4096
@[simp] def value : ℕ := 8192
@[simp] def oldValue : ℕ := 12288

end FileInfo

namespace EbpfEvent

variable (e : EbpfEvent)

/-- Write to the union. -/
def storeInfo (off : ℕ) (bytes : List UInt8) : EbpfEvent :=
  { e with info := store e.info off bytes }

def storeU32 (off : ℕ) (value : BitVec 32) : EbpfEvent :=
  e.storeInfo off (leBytes 4 value.toNat)

def storeU64 (off : ℕ) (value : BitVec 64) : EbpfEvent :=
  e.storeInfo off (leBytes 8 value.toNat)

/-- Copy a string literal with its terminator to `event_name`. -/
def setEventName (name : Text) : EbpfEvent :=
  { e with eventName := name.bytes ++ 0 :: e.eventName.drop (name.length + 1) }

def u32 (off : ℕ) : ℕ := loadNat e.info off 4

def u64 (off : ℕ) : ℕ := loadNat e.info off 8

def cstr (off : ℕ) : Option Text := cstring e.info off infoSize

end EbpfEvent

/-! ## The kernel -/

/-- `n` bytes of kernel memory that begin with a string.  A read that fails gives
zeros, which are of this kind too. -/
structure KernelString (n : ℕ) where
  text : Text
  rest : List UInt8
  length_eq : text.length + 1 + rest.length = n

namespace KernelString

variable {n : ℕ} (s : KernelString n)

def bytes : List UInt8 := s.text.bytes ++ 0 :: s.rest

/-- The string, padded with zeros to `m` bytes. -/
def padded (m : ℕ) : List UInt8 :=
  s.text.bytes ++ 0 :: List.replicate (m - s.text.length - 1) 0

def zero (n : ℕ) (hn : 0 < n) : KernelString n where
  text := .empty
  rest := List.replicate (n - 1) 0
  length_eq := by
    rw [List.length_replicate, length_empty]
    omega

@[simp] theorem length_bytes : s.bytes.length = n := by
  have hlength := s.length_eq
  rw [bytes, List.length_append, List.length_cons]
  unfold Text.length at hlength
  omega

@[simp] theorem readString_bytes : readString s.bytes = some s.text :=
  readString_append_nul _ _

@[simp] theorem readString_padded (m : ℕ) : readString (s.padded m) = some s.text :=
  readString_append_nul _ _

end KernelString

/-- What the handlers read of a `task_struct`; a value behind a pointer that cannot be
followed is read as zeros.  `session` and `pidNs` are the session's `struct pid` and the
namespace of the thread's, which may be missing. -/
structure TaskStruct (T : Type*) where
  pid : BitVec 32
  tgid : BitVec 32
  realParent : Option T
  parent : Option T
  comm : KernelString taskCommSize
  uid : BitVec 32
  gid : BitVec 32
  session : Option (BitVec 32)
  pidNs : Option (BitVec 32)
  nodename : KernelString maxFilenameSize
  umask : BitVec 32
  ptrace : BitVec 32
  cgroupNs : BitVec 32
  ipcNs : BitVec 32
  mntNs : BitVec 32
  userNs : BitVec 32
  utsNs : BitVec 32
  timeNs : BitVec 32

/-- The kernel when a handler runs: the tasks, the clock, the pid that the programs
ignore, and whether the ring buffer has space. -/
structure Kernel (T : Type*) where
  task : T → TaskStruct T
  current : T
  ktime : BitVec 64
  secdetectorPid : BitVec 32
  reserved : Bool

variable {T : Type*}

namespace Kernel

variable (k : Kernel T)

def currentTask : TaskStruct T := k.task k.current

/-- `BPF_CORE_READ` through a task pointer. -/
def read {A : Type*} (task : Option T) (field : TaskStruct T → A) (zero : A) : A :=
  task.elim zero fun t => field (k.task t)

/-- The test in `RETURN_ZERO_IF_OURSELF`. -/
def ourself : Bool :=
  k.secdetectorPid.signExtend 64 == k.currentTask.tgid.zeroExtend 64

/-- `get_task_sid`. -/
def getTaskSid (task : TaskStruct T) : BitVec 32 :=
  task.session.getD 0

/-- `BPF_CORE_READ(pid_ns(task), ns.inum)`. -/
def pidNsInum (task : Option T) : BitVec 32 :=
  (k.read task TaskStruct.pidNs none).getD 0

/-- The loop of `find_init_task`. -/
def findInitLoop [DecidableEq T] : ℕ → Option T → Option T → Option T
  | 0, task, _ => task
  | n + 1, task, initTask =>
      let task := k.read task TaskStruct.realParent none
      if task = none ∨ initTask = task then task else findInitLoop n task task

/-- `find_init_task`. -/
def findInitTask [DecidableEq T] : Option T :=
  k.findInitLoop 64 (some k.current) none

end Kernel

/-! ## The common part of the handlers -/

variable [DecidableEq T] (k : Kernel T)

/-- `get_common_info`, as far as both programs have it. -/
def getCommonInfo (e : EbpfEvent) : EbpfEvent :=
  let task := k.currentTask
  let parent := task.realParent
  { e with
    timestamp := k.ktime
    pid := task.tgid
    tgid := task.tgid
    pgid := task.tgid
    uid := task.uid
    gid := task.gid
    comm := task.comm.padded taskCommSize
    exe := task.comm.padded maxFilenameSize
    ppid := k.read parent TaskStruct.pid 0
    sid := Kernel.getTaskSid task
    pns := k.pidNsInum (some k.current)
    rootPns := k.pidNsInum k.findInitTask
    pcomm := (k.read (k.read parent TaskStruct.realParent none) TaskStruct.comm
      (.zero _ (by decide))).bytes
    nodename := task.nodename.bytes }

/-- A handler from `RETURN_ZERO_IF_OURSELF` on: reserve a record, fill it, submit it. -/
def reserveAndSubmit (fill : EbpfEvent → EbpfEvent) (e : EbpfEvent) : Option EbpfEvent :=
  if k.ourself then none
  else if k.reserved then some (fill e)
  else none

omit [DecidableEq T] in
theorem eq_of_reserveAndSubmit {k : Kernel T} {fill : EbpfEvent → EbpfEvent} {e e' : EbpfEvent}
    (hsome : reserveAndSubmit k fill e = some e') : e' = fill e := by
  unfold reserveAndSubmit at hsome
  split at hsome
  · cases hsome
  · split at hsome
    · exact (Option.some.inj hsome).symm
    · cases hsome

end SecDetector.Ebpf
