import SecDetector.Task.Kernel

/-!
# Two descriptions of one task

The driver's `get_common_process_info` and the `get_common_info` of the two eBPF programs fill
in fields of the same names.  `Identity` is the part that says who the task is, and
`Tasks.identity` is what the kernel means by these names.

The programs take another way than the driver, and neither always takes the kernel's:
they record the thread-group id where the driver and the kernel have the thread's and the
process group's, they take the number of the thread that `real_parent` leads to for its
thread group, and their `pcomm` is the name of the parent's parent; the driver stores
the thread id as `tgid`.  `described_alike_iff` says which tasks do not tell the difference.
-/

namespace SecDetector.Task

open Lib Text Ebpf Report

variable {T : Type*}

/-! ## The driver -/

/-- `struct process_info`.  The namespaces are zero where the task has none. -/
structure CommonProcessInfo extends Report.ProcessInfo where
  root : Text
  cwd : Text
  tracerPid : BitVec 32
  netNs : BitVec 32
  ipcNs : BitVec 32
  mntNs : BitVec 32
  utsNs : BitVec 32
  userNs : BitVec 32
  cgroupNs : BitVec 32
  umask : BitVec 32

/-- Kernel memory, as a string that fits into `m` bytes. -/
def toCString {n m : ℕ} (s : KernelString n) (hle : n ≤ m := by decide) : CString m :=
  .ofText s.text (by
    have hlength := s.length_eq
    omega)

/-- `strncpy(pi->nodename, nodename, 254)` into zeroed memory. -/
def copyNodename (nodename : KernelString maxFilenameSize) : CString 255 :=
  .ofText (nodename.text.take 254) (by
    rw [length_take]
    exact Nat.lt_of_le_of_lt (Nat.min_le_left _ _) (by decide))

variable (sys : Tasks T) (current : T)

/-- `get_process_path`, called by `current`. -/
def getProcessPath (p : T) : Option (CString pathLen) :=
  if (sys.task current).exiting then none
  else
    match (sys.task p).exeFile with
    | some processPath => some processPath
    | none => some (toCString (sys.task p).comm)

/-- `get_common_process_info`, called by `current`.  It returns nothing when it follows a null
pointer, and otherwise what it returns. -/
def getCommonProcessInfo (kzalloc : Bool) (tsk parent : Option T) :
    Option (Option CommonProcessInfo) :=
  match tsk with
  | none => some none
  | some tsk =>
      if kzalloc then do
        let task := sys.task tsk
        let fs ← task.fs
        match getProcessPath sys current tsk with
        | none => some none
        | some exe =>
            -- the null pointer is tested for before, but not here
            let nsproxy ← task.nsproxy
            let utsNs ← nsproxy.utsNs
            let parent := parent.getD task.realParent
            some (some
              { tracerPid := (sys.ptraceParent tsk).elim 0 fun tracer => (sys.task tracer).pid
                umask := fs.umask
                uid := task.cred.uid
                pid := task.pid
                tgid := task.pid
                comm := toCString task.comm
                exe := exe
                sid := sys.pidVnr current task.signal.session
                pgid := sys.pidVnr current task.signal.pgrp
                pns := (sys.activePidNs tsk).inum
                rootPns := (sys.activePidNs sys.initTask).inum
                root := (fs.root.map CString.toText).getD (ascii "invalid")
                cwd := (fs.pwd.map CString.toText).getD (ascii "invalid")
                netNs := nsproxy.netNs.getD 0
                cgroupNs := nsproxy.cgroupNs.getD 0
                ipcNs := nsproxy.ipcNs.getD 0
                utsNs := utsNs.inum
                mntNs := nsproxy.mntNs.getD 0
                userNs := task.realCred.userNs
                nodename := copyNodename utsNs.nodename
                ppid := sys.taskTgidVnr current parent
                pcomm := toCString (sys.task parent).comm })
      else some none

/-! ## Who a task is -/

/-- The identity fields; a name without a terminator is nothing. -/
structure Identity where
  uid : BitVec 32
  pid : BitVec 32
  tgid : BitVec 32
  ppid : BitVec 32
  pcomm : Option Text
  pgid : BitVec 32
  sid : BitVec 32
  deriving DecidableEq

/-- The identity fields of a record. -/
def ebpfIdentity (e : EbpfEvent) : Identity :=
  ⟨e.uid, e.pid, e.tgid, e.ppid, readString e.pcomm, e.pgid, e.sid⟩

/-- The identity fields that the driver fills in. -/
def CommonProcessInfo.identity (pi : CommonProcessInfo) : Identity :=
  ⟨pi.uid, pi.pid, pi.tgid, pi.ppid, some pi.pcomm.toText, pi.pgid, pi.sid⟩

/-- The identity of a task: thread, thread group, the thread group and the name of its
parent, process group and session. -/
def Tasks.identity (t : T) : Identity :=
  let task := sys.task t
  let parent := sys.task task.realParent
  { uid := task.cred.uid
    pid := task.threadPid.nr
    tgid := task.signal.tgid.nr
    ppid := parent.signal.tgid.nr
    pcomm := some parent.comm.text
    pgid := task.signal.pgrp.nr
    sid := task.signal.session.nr }

/-- What the driver fills in. -/
theorem getCommonProcessInfo_identity {kzalloc : Bool} {pi : CommonProcessInfo}
    (hinfo : getCommonProcessInfo sys current kzalloc (some current) none = some (some pi)) :
    pi.identity = { sys.identity current with tgid := (sys.task current).threadPid.nr } := by
  unfold getCommonProcessInfo at hinfo
  cases kzalloc with
  | false => simp at hinfo
  | true =>
      simp only [if_true, Option.bind_eq_bind, Option.bind_eq_some_iff] at hinfo
      obtain ⟨fs, _, hinfo⟩ := hinfo
      cases hpath : getProcessPath sys current current with
      | none => simp [hpath] at hinfo
      | some exe =>
          simp only [hpath, Option.bind_eq_some_iff] at hinfo
          obtain ⟨nsproxy, _, utsNs, _, hinfo⟩ := hinfo
          obtain rfl := Option.some.inj (Option.some.inj hinfo)
          simp [CommonProcessInfo.identity, Tasks.identity, sys.pid_eq, toCString,
            CString.ofText]

/-- A live task with an exe file is described, if there is memory for it. -/
theorem exists_getCommonProcessInfo {fs : FsStruct} {nsproxy : Nsproxy} {utsNs : UtsNamespace}
    (hfs : (sys.task current).fs = some fs) (hproxy : (sys.task current).nsproxy = some nsproxy)
    (huts : nsproxy.utsNs = some utsNs) (halive : (sys.task current).exiting = false) :
    ∃ pi, getCommonProcessInfo sys current true (some current) none = some (some pi) := by
  obtain ⟨exe, hpath⟩ : ∃ exe, getProcessPath sys current current = some exe := by
    rw [getProcessPath, halive]
    cases (sys.task current).exeFile with
    | none => exact ⟨_, rfl⟩
    | some processPath => exact ⟨_, rfl⟩
  simp [getCommonProcessInfo, hfs, hproxy, huts, hpath]

section

variable (ktime : BitVec 64) (secdetectorPid : BitVec 32) (reserved : Bool)

/-- What the common part of the programs records. -/
theorem getCommonInfo_identity [DecidableEq T] (e : EbpfEvent) :
    ebpfIdentity (getCommonInfo (sys.ebpfKernel current ktime secdetectorPid reserved) e) =
      { uid := (sys.task current).cred.uid
        pid := (sys.task current).tgid
        tgid := (sys.task current).tgid
        ppid := (sys.task (sys.task current).realParent).pid
        pcomm := some (sys.task (sys.task (sys.task current).realParent).realParent).comm.text
        pgid := (sys.task current).tgid
        sid := (sys.task current).signal.session.nr } := by
  simp [ebpfIdentity, getCommonInfo, Tasks.ebpfKernel, TaskStruct.ebpfView, Kernel.currentTask,
    Kernel.read, Kernel.getTaskSid, Pid.nr]

/-- The process program adds nothing to the identity. -/
theorem process_getCommonInfo_identity [DecidableEq T] (k : Kernel T) (e : EbpfEvent) :
    ebpfIdentity (Process.getCommonInfo k e) = ebpfIdentity (getCommonInfo k e) := rfl

/-- The two families and the kernel say the same about `current`. -/
structure DescribedAlike [DecidableEq T] (e e' : EbpfEvent) (pi : CommonProcessInfo) : Prop where
  process : ebpfIdentity
    (Process.getCommonInfo (sys.ebpfKernel current ktime secdetectorPid reserved) e) = pi.identity
  file : ebpfIdentity
    (getCommonInfo (sys.ebpfKernel current ktime secdetectorPid reserved) e') = pi.identity
  kernel : pi.identity = sys.identity current

/-- The tasks for which the ways lead to the same place: the thread leads its thread group
and the process leads its process group, the parent leads its thread group, and the
parent's parent has the parent's name. -/
structure LeadsEverything : Prop where
  thread : (sys.task current).pid = (sys.task current).tgid
  process : (sys.task current).signal.pgrp.nr = (sys.task current).tgid
  parent : (sys.task (sys.task current).realParent).pid =
    (sys.task (sys.task current).realParent).tgid
  name : (sys.task (sys.task (sys.task current).realParent).realParent).comm.text =
    (sys.task (sys.task current).realParent).comm.text

/-- **When the families describe a task alike.**  In every system of tasks, and whatever the
records held before. -/
theorem described_alike_iff [DecidableEq T] (e e' : EbpfEvent) {kzalloc : Bool}
    {pi : CommonProcessInfo}
    (hinfo : getCommonProcessInfo sys current kzalloc (some current) none = some (some pi)) :
    DescribedAlike sys current ktime secdetectorPid reserved e e' pi ↔
      LeadsEverything sys current := by
  have hdriver := getCommonProcessInfo_identity sys current hinfo
  have hebpf := getCommonInfo_identity sys current ktime secdetectorPid reserved
  constructor
  · intro halike
    have hsame := (hebpf e').symm.trans halike.file
    have hkernel := hdriver.symm.trans halike.kernel
    rw [hdriver] at hsame
    simp only [Tasks.identity, Identity.mk.injEq] at hsame hkernel
    obtain ⟨_, hpid, _, hppid, hpcomm, hpgid, _⟩ := hsame
    exact ⟨by rw [sys.pid_eq]; exact hpid.symm, hpgid.symm, by rw [hppid, sys.tgid_eq],
      Option.some.inj hpcomm⟩
  · intro hleads
    have hthread : (sys.task current).threadPid.nr = (sys.task current).signal.tgid.nr := by
      rw [← sys.pid_eq, ← sys.tgid_eq, hleads.thread]
    have hkernel : pi.identity = sys.identity current := by
      rw [hdriver, hthread]
      rfl
    have hfile : ∀ e, ebpfIdentity
        (getCommonInfo (sys.ebpfKernel current ktime secdetectorPid reserved) e) =
          pi.identity := by
      intro e
      rw [hkernel, hebpf, Tasks.identity, hleads.parent, hleads.name, hleads.process, hthread,
        sys.tgid_eq, sys.tgid_eq]
    exact ⟨hfile e, hfile e', hkernel⟩

end

/-! ## A shell

The first tasks of a machine and a shell, each in a process and a session of its own.
The shell's parent is not its parent's parent, and that is enough. -/

def swapper : KernelString taskCommSize := ⟨ascii "swapper/0", List.replicate 6 0, by decide⟩
def systemd : KernelString taskCommSize := ⟨ascii "systemd", List.replicate 8 0, by decide⟩
def bash : KernelString taskCommSize := ⟨ascii "bash", List.replicate 11 0, by decide⟩

/-- The initial pid namespace. -/
def initPidNs : PidNamespace := ⟨0, 0xeffffffc⟩

/-- A pid of the initial namespace. -/
def initPid (nr : BitVec 32) : Pid := ⟨0, fun _ => ⟨nr, initPidNs⟩⟩

/-- A task that leads its thread group, its process group and its session. -/
def leaderTask {T : Type*} (nr : BitVec 32) (realParent : T)
    (comm : KernelString taskCommSize) : TaskStruct T where
  pid := nr
  tgid := nr
  realParent := realParent
  parent := realParent
  ptrace := 0
  threadPid := initPid nr
  signal := ⟨initPid nr, initPid nr, initPid nr⟩
  cred := ⟨0, 0, 0⟩
  realCred := ⟨0, 0, 0⟩
  comm := comm
  exiting := false
  exeFile := some (toCString comm)
  fs := some ⟨0o022, none, none⟩
  nsproxy := some ⟨some ⟨0, .zero _ maxFilenameSize_pos⟩, none, none, none, none, none⟩

def shellTasks : Tasks (Fin 3) where
  task
    | 0 => leaderTask 0 0 swapper
    | 1 => leaderTask 1 0 systemd
    | 2 => leaderTask 10 1 bash
  initTask := 0
  initPidNs := initPidNs
  level_init := rfl
  pid_eq
    | 0 | 1 | 2 => rfl
  tgid_eq
    | 0 | 1 | 2 => rfl
  in_init
    | 0, pid, hmem | 1, pid, hmem | 2, pid, hmem => by
        simp only [TaskStruct.pids, leaderTask, List.mem_cons, List.not_mem_nil, or_false,
          or_self] at hmem
        subst hmem
        exact ⟨rfl, rfl⟩

/-- The driver describes every one of these tasks. -/
theorem shellTasks_described : ∀ t : Fin 3,
    ∃ pi, getCommonProcessInfo shellTasks t true (some t) none = some (some pi)
  | 0 | 1 | 2 => exists_getCommonProcessInfo shellTasks _ rfl rfl rfl rfl

/-- A record that holds nothing. -/
def zeroEvent : EbpfEvent where
  type := 0
  eventName := []
  timestamp := 0
  uid := 0
  gid := 0
  exe := []
  pid := 0
  comm := []
  tgid := 0
  pgid := 0
  ppid := 0
  pcomm := []
  sid := 0
  nodename := []
  pns := 0
  rootPns := 0
  info _ := 0

/-- The first process: its parent is its own parent. -/
theorem first_process_described_alike : ∃ pi,
    getCommonProcessInfo shellTasks 1 true (some 1) none = some (some pi) ∧
      DescribedAlike shellTasks 1 0 0 true zeroEvent zeroEvent pi := by
  obtain ⟨pi, hinfo⟩ := shellTasks_described 1
  exact ⟨pi, hinfo,
    (described_alike_iff shellTasks 1 0 0 true _ _ hinfo).mpr ⟨rfl, rfl, rfl, rfl⟩⟩

/-- The shell has two parents' names. -/
theorem not_described_alike :
    ¬ ∀ (sys : Tasks (Fin 3)) (current : Fin 3) (e e' : EbpfEvent) (pi : CommonProcessInfo),
      (sys.task current).exeFile.isSome →
      getCommonProcessInfo sys current true (some current) none = some (some pi) →
        DescribedAlike sys current 0 0 true e e' pi := by
  intro hclaim
  obtain ⟨pi, hinfo⟩ := shellTasks_described 2
  have halike := hclaim shellTasks 2 zeroEvent zeroEvent pi rfl hinfo
  have hfile := (getCommonInfo_identity shellTasks 2 0 0 true zeroEvent).symm.trans
    (halike.file.trans halike.kernel)
  have hname := congrArg Identity.pcomm hfile
  revert hname
  decide

end SecDetector.Task
