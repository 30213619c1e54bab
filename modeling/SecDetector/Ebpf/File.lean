import SecDetector.Ebpf.Process

/-!
# The file program

The handlers of `file_fentry.bpf.c`.
-/

namespace SecDetector.Ebpf.File

open Lib Text Memory

variable {T : Type*} [DecidableEq T] (k : Kernel T)

/-! ## What the handlers read -/

/-- `S_ISREG`. -/
def sIsreg (mode : BitVec 32) : Bool :=
  mode &&& 0o170000 == 0o100000

/-- A `struct file`: the mode of its inode, its own mode, and the name of its dentry. -/
structure FileStruct where
  iMode : BitVec 32
  fMode : BitVec 32
  name : KernelString maxTextSize

/-- `struct open_flags`. -/
structure OpenFlags where
  openFlag : BitVec 32
  intent : BitVec 32

/-- `O_CREAT`, as the program defines it. -/
def oCreat : BitVec 32 := 100

def lookupCreate : BitVec 32 := 0x0200
def fmodeCreated : BitVec 32 := 0x100000

/-! ## Events about a file -/

/-- The handlers that record the type, the common fields and the name of a file. -/
def fileEvent (type : BitVec 32) (eventName : Text) (filename : KernelString maxTextSize)
    (e : EbpfEvent) : EbpfEvent :=
  ((getCommonInfo k { e with type := type }).setEventName eventName).storeInfo
    FileInfo.filename filename.bytes

def doFilpOpenExit (pathname : KernelString maxTextSize) (op : Option OpenFlags)
    (retFile : FileStruct) (e : EbpfEvent) : Option EbpfEvent :=
  if op.any fun op => op.openFlag &&& oCreat == 0 || op.intent &&& lookupCreate == 0 then none
  else if sIsreg retFile.iMode = false then none
  else if retFile.fMode &&& fmodeCreated = 0 then none
  else reserveAndSubmit k (fileEvent k createfile (ascii "createfile") pathname) e

def fexitVfsWrite (file : FileStruct) (ret : ℤ) (e : EbpfEvent) : Option EbpfEvent :=
  if ret ≤ 0 then none
  else if sIsreg file.iMode = false then none
  else reserveAndSubmit k (fileEvent k writefile (ascii "writefile") file.name) e

def fexitVfsUnlink (dentry : KernelString maxTextSize) (ret : ℤ) (e : EbpfEvent) :
    Option EbpfEvent :=
  if ret ≠ 0 then none
  else reserveAndSubmit k (fileEvent k delfile (ascii "delfile") dentry) e

def fexitVfsRead (file : FileStruct) (ret : ℤ) (e : EbpfEvent) : Option EbpfEvent :=
  if ret ≠ 0 then none
  else if sIsreg file.iMode = false then none
  else reserveAndSubmit k (fileEvent k readfile (ascii "readfile") file.name) e

/-! ## Attributes -/

/-- The handlers that also record the name of an attribute. -/
def attrEvent (filename : KernelString maxTextSize) (name : Option Text) (e : EbpfEvent) :
    EbpfEvent :=
  (fileEvent k setfileattr (ascii "setfileattr") filename e).storeInfo FileInfo.name
    (Process.probeBytes maxTextSize name)

def fexitVfsUtimes (path : KernelString maxTextSize) (e : EbpfEvent) : Option EbpfEvent :=
  reserveAndSubmit k (attrEvent k path (some (ascii "time"))) e

def fexitChmodCommon (path : KernelString maxTextSize) (e : EbpfEvent) : Option EbpfEvent :=
  reserveAndSubmit k (attrEvent k path (some (ascii "chmod"))) e

def fexitChownCommon (path : KernelString maxTextSize) (e : EbpfEvent) : Option EbpfEvent :=
  reserveAndSubmit k (attrEvent k path (some (ascii "chown"))) e

def fentryVfsSetxattrNoperm (dentry : KernelString maxTextSize) (name : Option Text)
    (e : EbpfEvent) : Option EbpfEvent :=
  reserveAndSubmit k (attrEvent k dentry name) e

def fentryVfsRemovexattrLocked (dentry : KernelString maxTextSize) (name : Option Text)
    (e : EbpfEvent) : Option EbpfEvent :=
  reserveAndSubmit k (attrEvent k dentry name) e

/-- `struct renamedata`, with the names of its dentries. -/
structure Renamedata where
  oldDentry : KernelString maxTextSize
  newDentry : KernelString maxTextSize

/-- The record of `fentry_vfs_rename`. -/
def renameEvent (rd : Renamedata) (e : EbpfEvent) : EbpfEvent :=
  let e := attrEvent k rd.oldDentry (some (ascii "rename")) e
  let e := e.storeInfo FileInfo.value rd.newDentry.bytes
  e.storeInfo FileInfo.oldValue rd.oldDentry.bytes

def fentryVfsRename (rd : Option Renamedata) (e : EbpfEvent) : Option EbpfEvent :=
  match rd with
  | none => none
  | some rd => reserveAndSubmit k (renameEvent k rd) e

end SecDetector.Ebpf.File
