import SecDetector.Ebpf.File
import SecDetector.Report.Cases

/-!
# Tasks

The tasks of a kernel as both probe families meet them: `struct pid` with its numbers, one
for each namespace level, the signal structure that the threads of a process share, and
`real_parent`.

`Tasks` is a system whose tasks all live in the initial pid namespace.  Its fields are
what the kernel keeps up: the cached `pid` and `tgid` of a task are the numbers of its
structures.  About `real_parent` nothing is assumed, so it may be a tree of any depth, and
it may lead to a thread that is no leader, which is where the kernel puts it when that
thread forks.
-/

namespace SecDetector.Task

open Lib Text Ebpf Report

/-! ## Pids -/

/-- `struct pid_namespace`, known by its inode number. -/
structure PidNamespace where
  level : ℕ
  inum : BitVec 32
  deriving DecidableEq

/-- `struct upid`. -/
structure Upid where
  nr : BitVec 32
  ns : PidNamespace

/-- `struct pid`. -/
structure Pid where
  level : ℕ
  numbers : ℕ → Upid

namespace Pid

variable (pid : Pid)

/-- `pid_nr`. -/
def nr : BitVec 32 := (pid.numbers 0).nr

/-- `ns_of_pid`. -/
def nsOf : PidNamespace := (pid.numbers pid.level).ns

/-- `pid_nr_ns`. -/
def nrNs (ns : PidNamespace) : BitVec 32 :=
  if ns.level ≤ pid.level ∧ (pid.numbers ns.level).ns = ns then (pid.numbers ns.level).nr else 0

end Pid

/-! ## Tasks -/

/-- The `pids` of `struct signal_struct`. -/
structure SignalStruct where
  tgid : Pid
  pgrp : Pid
  session : Pid

/-- `struct cred`. -/
structure Cred where
  uid : BitVec 32
  gid : BitVec 32
  userNs : BitVec 32

/-- `struct fs_struct`; `root` and `pwd` are what `d_path` makes of them, if it succeeds. -/
structure FsStruct where
  umask : BitVec 32
  root : Option (CString pathLen)
  pwd : Option (CString pathLen)

/-- `struct uts_namespace`, with the memory from its `nodename` on. -/
structure UtsNamespace where
  inum : BitVec 32
  nodename : KernelString maxFilenameSize

/-- `struct nsproxy`, with inode numbers for the namespaces. -/
structure Nsproxy where
  utsNs : Option UtsNamespace
  ipcNs : Option (BitVec 32)
  mntNs : Option (BitVec 32)
  netNs : Option (BitVec 32)
  timeNs : Option (BitVec 32)
  cgroupNs : Option (BitVec 32)

/-- `struct task_struct`.  `exiting` is the flag `PF_EXITING`, and `exeFile` is what `%s` makes of
the path of the exe file, if there is one. -/
structure TaskStruct (T : Type*) where
  pid : BitVec 32
  tgid : BitVec 32
  realParent : T
  parent : T
  ptrace : BitVec 32
  threadPid : Pid
  signal : SignalStruct
  cred : Cred
  realCred : Cred
  comm : KernelString taskCommSize
  exiting : Bool
  exeFile : Option (CString pathLen)
  fs : Option FsStruct
  nsproxy : Option Nsproxy

variable {T : Type*}

/-- The `struct pid`s that a task is attached to. -/
def TaskStruct.pids (task : TaskStruct T) : List Pid :=
  [task.threadPid, task.signal.tgid, task.signal.pgrp, task.signal.session]

/-- A system of tasks in the initial pid namespace. -/
structure Tasks (T : Type*) where
  task : T → TaskStruct T
  initTask : T
  initPidNs : PidNamespace
  level_init : initPidNs.level = 0
  pid_eq : ∀ t, (task t).pid = (task t).threadPid.nr
  tgid_eq : ∀ t, (task t).tgid = (task t).signal.tgid.nr
  in_init : ∀ t, ∀ pid ∈ (task t).pids, pid.level = 0 ∧ (pid.numbers 0).ns = initPidNs

namespace Tasks

variable (sys : Tasks T) (current : T)

/-- `task_active_pid_ns`. -/
def activePidNs (t : T) : PidNamespace := (sys.task t).threadPid.nsOf

/-- `pid_vnr`, called by `current`. -/
def pidVnr (pid : Pid) : BitVec 32 := pid.nrNs (sys.activePidNs current)

/-- `task_tgid_vnr`. -/
def taskTgidVnr (t : T) : BitVec 32 := sys.pidVnr current (sys.task t).signal.tgid

/-- `ptrace_parent`. -/
def ptraceParent (t : T) : Option T :=
  if (sys.task t).ptrace ≠ 0 then some (sys.task t).parent else none

theorem activePidNs_eq (t : T) : sys.activePidNs t = sys.initPidNs := by
  obtain ⟨hlevel, hns⟩ := sys.in_init t (sys.task t).threadPid List.mem_cons_self
  rw [activePidNs, Pid.nsOf, hlevel, hns]

/-- Seen from the initial namespace, a pid has its global number. -/
theorem pidVnr_eq {t : T} {pid : Pid} (hmem : pid ∈ (sys.task t).pids) :
    sys.pidVnr current pid = pid.nr := by
  obtain ⟨hlevel, hns⟩ := sys.in_init t pid hmem
  rw [pidVnr, activePidNs_eq, Pid.nrNs, sys.level_init, if_pos ⟨hlevel.ge, hns⟩, Pid.nr]

@[simp] theorem pidVnr_session (t : T) :
    sys.pidVnr current (sys.task t).signal.session = (sys.task t).signal.session.nr :=
  sys.pidVnr_eq current (t := t) (by simp [TaskStruct.pids])

@[simp] theorem pidVnr_pgrp (t : T) :
    sys.pidVnr current (sys.task t).signal.pgrp = (sys.task t).signal.pgrp.nr :=
  sys.pidVnr_eq current (t := t) (by simp [TaskStruct.pids])

@[simp] theorem taskTgidVnr_eq (t : T) :
    sys.taskTgidVnr current t = (sys.task t).signal.tgid.nr :=
  sys.pidVnr_eq current (t := t) (by simp [TaskStruct.pids])

end Tasks

/-! ## What the eBPF programs read

A value behind a null pointer is read as zeros. -/

/-- A task, as `BPF_CORE_READ` and the helper functions show it. -/
def TaskStruct.ebpfView (task : TaskStruct T) : Ebpf.TaskStruct T where
  pid := task.pid
  tgid := task.tgid
  realParent := some task.realParent
  parent := some task.parent
  comm := task.comm
  uid := task.cred.uid
  gid := task.cred.gid
  session := some (task.signal.session.numbers 0).nr
  pidNs := some (task.threadPid.numbers 0).ns.inum
  nodename := ((task.nsproxy.bind Nsproxy.utsNs).map UtsNamespace.nodename).getD
    (.zero _ (by decide))
  umask := (task.fs.map FsStruct.umask).getD 0
  ptrace := task.ptrace
  cgroupNs := (task.nsproxy.bind Nsproxy.cgroupNs).getD 0
  ipcNs := (task.nsproxy.bind Nsproxy.ipcNs).getD 0
  mntNs := (task.nsproxy.bind Nsproxy.mntNs).getD 0
  userNs := task.cred.userNs
  utsNs := ((task.nsproxy.bind Nsproxy.utsNs).map UtsNamespace.inum).getD 0
  timeNs := (task.nsproxy.bind Nsproxy.timeNs).getD 0

/-- The kernel in which a handler runs for `current`. -/
def Tasks.ebpfKernel (sys : Tasks T) (current : T) (ktime : BitVec 64)
    (secdetectorPid : BitVec 32) (reserved : Bool) : Ebpf.Kernel T where
  task t := (sys.task t).ebpfView
  current := current
  ktime := ktime
  secdetectorPid := secdetectorPid
  reserved := reserved

end SecDetector.Task
