import SecDetector.Handlers.Workflow
import SecDetector.Task.CommonInfo

/-!
# The handlers of two cases

The timer of `secDetector_mc_kmodule_baseline.c`, which keeps the names of the modules in a list
while it reports them, and the probes of `secDetector_program_action.c`, which describe the task
that runs into them.  Like the rounds of a preset workflow they are the functions of the value
model, with all that they take.
-/

namespace SecDetector.Handlers

open Lib Text
open Report (Tm timeStrMaxLen)

/-! ## The list of kernel modules -/

/-- `CHKRKATT_MODULE`. -/
structure ModuleEntry where
  node : Ptr
  moduleName : Ptr
  name : Text

/-- A `kobject` of the kset.  `watched` says that its module is there, at an address that is not too
low. -/
structure Kobject where
  name : Option Text
  watched : Bool

/-- `add_kmodule_baseline_name`: the list with the name, or nothing for `-1`. -/
def addKmoduleBaselineName (name : Text) (list : List ModuleEntry) :
    Kernel (Option (List ModuleEntry)) := do
  match ← kmalloc with
  | none => pure none
  | some node =>
      use node
      match ← kmalloc with
      | none =>
          give node
          pure none
      | some moduleName =>
          use moduleName
          relink node (list.map ModuleEntry.node)
          pure (some (⟨node, moduleName, Report.addKmoduleBaselineName name⟩ :: list))

/-- `free_kmodule_baseline`, with the list that is left. -/
def freeKmoduleBaseline : List ModuleEntry → Kernel (List ModuleEntry)
  | [] => pure []
  | module :: rest => do
      relink module.node (rest.map ModuleEntry.node)
      use module.node
      give module.moduleName
      give module.node
      freeKmoduleBaseline rest

/-- The loop that reads the names into `all`. -/
def readNames (all : Ptr) : List ModuleEntry → Kernel Unit
  | [] => pure ()
  | module :: rest => do
      use module.node
      use module.moduleName
      use all
      readNames all rest

/-- `report_kmodule_baseline`: the record that is put out, if there is one. -/
def reportKmoduleBaseline (list : List ModuleEntry) (stm : Tm) :
    Kernel (Option (List UInt8)) := do
  match ← kmalloc with
  | none => pure none
  | some all =>
      match ← getTimestampStr stm with
      | (none, _) =>
          give all
          pure none
      | (some (headerPtr, headerMsg), headerMsgLen) =>
          if headerMsgLen = 0 then
            give headerPtr
            give all
            pure none
          else
            use all
            readNames all list
            let names := list.map ModuleEntry.name
            let len := (Report.moduleNameAll headerMsgLen names).text.length + headerMsgLen + 1
            match ← kmalloc with
            | none =>
                give headerPtr
                give all
                pure none
            | some text =>
                use headerPtr
                use all
                use text
                let out := Report.kmoduleFormat headerMsg names
                if 0 < scnprintfRet len out then
                  let buffer := (Buffer.alloc len).snprintf len out
                  let record ← secDetectorReport
                    ⟨Report.kmoduleBaselineType, some (text, buffer), len⟩
                  give text
                  give headerPtr
                  give all
                  pure record
                else
                  give text
                  give headerPtr
                  give all
                  pure none

/-- The loop over the kset, until a name cannot be stored. -/
def addNames : List Kobject → List ModuleEntry → Kernel (List ModuleEntry)
  | [], list => pure list
  | ⟨none, _⟩ :: rest, list => addNames rest list
  | ⟨some _, false⟩ :: rest, list => addNames rest list
  | ⟨some name, true⟩ :: rest, list => do
      match ← addKmoduleBaselineName name list with
      | none => pure list
      | some list => addNames rest list

/-- `check_kmodule_baseline`: what is left of the list, and the record. -/
def checkKmoduleBaseline (moduleKset : Option (List Kobject)) (stm : Tm)
    (list : List ModuleEntry) : Kernel (List ModuleEntry × Option (List UInt8)) := do
  match moduleKset with
  | none => pure (list, none)
  | some kset =>
      let moduleMutex ← take .lock
      let listLock ← take .lock
      let list ← addNames kset list
      give listLock
      give moduleMutex
      let record ← reportKmoduleBaseline list stm
      let list ← freeKmoduleBaseline list
      pure (list, record)

/-- `check_watching_kmodule`; `trylock` is whether the mutex is free. -/
def checkWatchingKmodule (trylock : Bool) (moduleKset : Option (List Kobject)) (stm : Tm)
    (list : List ModuleEntry) : Kernel (List ModuleEntry × Option (List UInt8)) := do
  if trylock then
    let caseMutex ← take .lock
    let result ← checkKmoduleBaseline moduleKset stm list
    give caseMutex
    pure result
  else pure (list, none)

/-! ## Program actions -/

section ProgramActions

open SecDetector.Task

variable {T : Type} (sys : Tasks T) (current : T)

theorem taskCommSize_le : Ebpf.taskCommSize ≤ Report.pathLen := by decide

/-- `get_process_path`, into the memory of `pi`. -/
def getProcessPath (p : T) (pi : Ptr) : Kernel (Option (CString Report.pathLen)) := do
  if (sys.task current).exiting then pure none
  else
    match (sys.task p).exeFile with
    | some path =>
        let exeFile ← take .file
        use pi
        give exeFile
        pure (some path)
    | none =>
        use pi
        pure (some (toCString (sys.task p).comm taskCommSize_le))

/-- What `get_task_root` and `get_task_cwd` have in common: a path of the `fs_struct`, if there is
one. -/
def getTaskPath (fs : Option FsStruct) : Kernel (Option Ptr) := do
  let taskLock ← take .lock
  match fs with
  | none =>
      give taskLock
      pure none
  | some _ =>
      let path ← take .path
      give taskLock
      pure (some path)

def getTaskRoot (task : TaskStruct T) : Kernel (Option Ptr) := getTaskPath task.fs

def getTaskCwd (task : TaskStruct T) : Kernel (Option Ptr) := getTaskPath task.fs

/-- `path_put`.  A path that was not stored is whatever is on the stack. -/
def pathPut : Option Ptr → Kernel Unit
  | none => stuck
  | some path => give path

/-- What is done with either path: its name is written to `pi`, and it is put. -/
def printPath (getPath : Kernel (Option Ptr)) (pi : Ptr) : Kernel Unit := do
  let path ← getPath
  use pi
  pathPut path

/-- `get_common_process_info`, called by `current`. -/
def getCommonProcessInfo (tsk parent : Option T) :
    Kernel (Option (Ptr × CommonProcessInfo)) := do
  match tsk with
  | none => pure none
  | some tsk =>
      match ← kmalloc with
      | none => pure none
      | some pi =>
          use pi
          match (sys.task tsk).fs with
          | none => stuck
          | some _ =>
              match ← getProcessPath sys current tsk pi with
              | none =>
                  give pi
                  pure none
              | some _ =>
                  use pi
                  printPath (getTaskRoot (sys.task tsk)) pi
                  printPath (getTaskCwd (sys.task tsk)) pi
                  let rcu ← take .lock
                  use pi
                  give rcu
                  -- the fields, unless a null pointer is followed on the way
                  match Task.getCommonProcessInfo sys current true (some tsk) parent with
                  | some (some info) => pure (some (pi, info))
                  | some none | none => stuck

/-- What the two handlers do once they know the process: they print a text of `BUF_SIZE` bytes and
report it. -/
def reportProcess (pi : Ptr) (type : BitVec 32)
    (format : Option (CString timeStrMaxLen) → Text) (stm : Tm) :
    Kernel (Option (List UInt8)) := do
  let (timestamp, _) ← getTimestampStr stm
  match ← kmalloc with
  | none =>
      kfree (timestamp.map Prod.fst)
      give pi
      pure none
  | some text =>
      use pi
      useAny (timestamp.map Prod.fst)
      use text
      let log := Report.bufferReport type (format (timestamp.map Prod.snd))
      let record ← secDetectorReport ⟨log.type, some (text, log.text), log.len⟩
      give text
      kfree (timestamp.map Prod.fst)
      give pi
      pure record

/-- `ptrace_attach_pre_handler`; `args` is nothing if there is no task to attach to. -/
def ptraceAttachPreHandler (args : Option Report.PtraceArgs) (stm : Tm) :
    Kernel (Option (List UInt8)) := do
  match ← getCommonProcessInfo sys current (some current) none with
  | none => pure none
  | some (pi, info) =>
      match args with
      | none =>
          give pi
          pure none
      | some args =>
          reportProcess pi 0x00000800
            (fun timestamp => Report.ptraceAttachFormat timestamp info.toProcessInfo args) stm

/-- `do_pipe2_pre_handler`. -/
def doPipe2PreHandler (stm : Tm) : Kernel (Option (List UInt8)) := do
  match ← getCommonProcessInfo sys current (some current) none with
  | none => pure none
  | some (pi, info) =>
      reportProcess pi 0x00000200
        (fun timestamp => Report.doPipe2Format timestamp info.toProcessInfo) stm

end ProgramActions

end SecDetector.Handlers
