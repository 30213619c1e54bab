import SecDetector.Usage.Disk
import SecDetector.Usage.ReadBack

/-!
# What is collected

`getData` is the value that `get_data` builds: an object with seven members, one for each kind of
resource.  What the functions behind it get from `/proc` and from other programs are the `Readings`:
any numbers, and any strings.

The keys are the same in every value, and nothing is nested deeper than four levels.  So it only
depends on the strings and the numbers whether the value is read back from the file
(`getData_read_back_iff`).
-/

namespace SecDetector.Usage

open SecDetector.Lib

/-! ## The builders -/

section Build

variable {D : Type} (F : NumberFormat D)

def int (n : ℤ) : Json D := .number (F.ofInt n)

structure TcpStatCount where
  tcpConnectionCount : ℤ
  establishedCount : ℤ
  synSentCount : ℤ
  synRecvCount : ℤ
  finWait1Count : ℤ
  finWait2Count : ℤ
  timeWaitCount : ℤ
  closeCount : ℤ
  closeWaitCount : ℤ
  lastAckCount : ℤ
  closingCount : ℤ
  halfOpenQueueCapacity : ℤ
  fullOpenQueueCapacity : ℤ

/-- Without one of its files, `tcp4statcount` gives an object without members. -/
def tcp4statcount : Option TcpStatCount → Json D
  | none => .ofMembers []
  | some c => .ofMembers
      [(str "tcpConnectionCount", int F c.tcpConnectionCount),
        (str "establishedCount", int F c.establishedCount),
        (str "synSentCount", int F c.synSentCount),
        (str "synRecvCount", int F c.synRecvCount),
        (str "finWait1Count", int F c.finWait1Count),
        (str "finWait2Count", int F c.finWait2Count),
        (str "timeWaitCount", int F c.timeWaitCount),
        (str "closeCount", int F c.closeCount),
        (str "closeWaitCount", int F c.closeWaitCount),
        (str "lastAckCount", int F c.lastAckCount),
        (str "closingCount", int F c.closingCount),
        (str "halfOpenQueueOccupied", int F (c.synSentCount + c.synRecvCount)),
        (str "halfOpenQueueCapacity", int F c.halfOpenQueueCapacity),
        (str "fullOpenQueueOccupied", int F c.establishedCount),
        (str "fullOpenQueueCapacity", int F c.fullOpenQueueCapacity)]

structure TcpBuffer where
  tcpMemLow : ℤ
  tcpMemMed : ℤ
  tcpMemHig : ℤ
  tcpRmemMin : ℤ
  tcpRmemDefault : ℤ
  tcpRmemMax : ℤ
  tcpWmemMin : ℤ
  tcpWmemDefault : ℤ
  tcpWmemMax : ℤ
  totalTxQueue : ℤ
  totalRxQueue : ℤ
  tcp4stackAllmem : ℤ

def tcp4buffer (b : TcpBuffer) : Json D :=
  .ofMembers
    [(str "tcpMem_low", int F b.tcpMemLow),
      (str "tcpMem_med", int F b.tcpMemMed),
      (str "tcpMem_hig", int F b.tcpMemHig),
      (str "tcpRmem_min", int F b.tcpRmemMin),
      (str "tcpRmem_default", int F b.tcpRmemDefault),
      (str "tcpRmem_max", int F b.tcpRmemMax),
      (str "tcpWmem_min", int F b.tcpWmemMin),
      (str "tcpWmem_default", int F b.tcpWmemDefault),
      (str "tcpWmem_max", int F b.tcpWmemMax),
      (str "totalTxQueue", int F b.totalTxQueue),
      (str "totalRxQueue", int F b.totalRxQueue),
      (str "tcp4stack_allmem", int F b.tcp4stackAllmem)]

def tcp4data (statcount : Option TcpStatCount) (buffer : TcpBuffer) : Json D :=
  .ofMembers
    [(str "tcp4statcount", tcp4statcount F statcount), (str "tcp4buffercount", tcp4buffer F buffer)]

/-- The usage and its difference, if `/proc/stat` could be read. -/
def updateCpuUsage : Option (D × D) → Json D
  | none => .ofMembers []
  | some (cpuUsage, cpuUsageDiff) =>
      .ofMembers [(str "CPU_Usage", .number cpuUsage), (str "Diff", .number cpuUsageDiff)]

structure FileSystemInfo where
  mountPoint : Bytes
  totalInodes : Bytes
  usedInodes : Bytes
  inodeUsageRatio : Bytes

def getFileUsageJson (maxSystemFileDescriptors systemOpenFileDescriptors maxProcessFileDescriptors
    processOpenFileCount maxProcessFiles : ℤ) : Json D :=
  .ofMembers
    [(str "System_Max_File_Descriptors", int F maxSystemFileDescriptors),
      (str "Process_Max_File_Descriptors", int F maxProcessFileDescriptors),
      (str "Process_Open_File_Descriptors", int F processOpenFileCount),
      (str "Process_Max_Open_File_Descriptors", int F maxProcessFiles),
      (str "System_Open_File_Descriptors", int F systemOpenFileDescriptors)]

def fsObject (fs : FileSystemInfo) : Json D :=
  .ofMembers
    [(str "MountPoint", .string fs.mountPoint),
      (str "TotalInodes", .string fs.totalInodes),
      (str "UsedInodes", .string fs.usedInodes),
      (str "InodeUsageRatio", .string fs.inodeUsageRatio)]

def getInfofileJson (maxSystemFileDescriptors systemOpenFileDescriptors
    maxProcessFileDescriptors : ℤ) (filesystems : List FileSystemInfo) : Json D :=
  .ofMembers
    [(str "FileUsage", getFileUsageJson F maxSystemFileDescriptors systemOpenFileDescriptors
        maxProcessFileDescriptors 0 0),
      (str "FileSystems", .array (filesystems.map fsObject))]

/-- The memory, as `createJsonFromMemoryInfo` gets it. -/
structure MemoryReading (D : Type) where
  usedMemoryDifference : ℤ
  usagePercentageDifference : D
  totalMemory : D
  usedMemory : D
  freeMemory : D
  usagePercentage : D
  freePercentage : D

def getAllMemoryInfo (m : MemoryReading D) : Json D :=
  .ofMembers
    [(str "UsedMemoryDifference", int F m.usedMemoryDifference),
      (str "UsagePercentageDifference", .number m.usagePercentageDifference),
      (str "TotalMemory", .number m.totalMemory),
      (str "UsedMemory", .number m.usedMemory),
      (str "FreeMemory", .number m.freeMemory),
      (str "UsagePercentage", .number m.usagePercentage),
      (str "FreePercentage", .number m.freePercentage)]

def getProcessesInfoJson (totalProcessCount totalThreadCount totalChildProcesses : ℤ)
    (pidUsageRatio : D) (pid threadsSize childProcessesSize : ℤ) : Json D :=
  .ofMembers
    [(str "Total_Process", int F totalProcessCount),
      (str "Total_Threads", int F totalThreadCount),
      (str "Total_Child_Processes", int F totalChildProcesses),
      (str "PID_Usage_Ratio", .string (F.fixed pidUsageRatio)),
      (str "PID", int F pid),
      (str "Child_Processes", int F threadsSize),
      (str "Child_Threads", int F childProcessesSize)]

def getProcessesInfoAll (totalProcessCount totalThreadCount totalChildProcesses : ℤ)
    (pidUsageRatio : D) : Json D :=
  getProcessesInfoJson F totalProcessCount totalThreadCount totalChildProcesses pidUsageRatio 0 0 0

structure ConnectionInfo where
  sourceIpAddress : Bytes
  sourcePort : Bytes
  deriving DecidableEq

/-- The connections without a login: each login is taken for one connection of its address. -/
def unauthenticatedConnections : List ConnectionInfo → List ConnectionInfo → List ConnectionInfo
  | [], _ => []
  | ssh :: connections, loggedIn =>
      if loggedIn.any (·.sourceIpAddress = ssh.sourceIpAddress) then
        unauthenticatedConnections connections
          (loggedIn.eraseP (·.sourceIpAddress = ssh.sourceIpAddress))
      else ssh :: unauthenticatedConnections connections loggedIn

def connectionObject (c : ConnectionInfo) : Json D :=
  .ofMembers
    [(str "sourceIpAddress", .string c.sourceIpAddress), (str "sourcePort", .string c.sourcePort)]

def getSSHInfoAll (sshConnections loggedInUserConnections : List ConnectionInfo) : Json D :=
  let connections := unauthenticatedConnections sshConnections loggedInUserConnections
  .ofMembers
    [(str "UnauthenticatedSSHConnectionCount", int F connections.length),
      (str "UnauthenticatedSSHConnections", .array (connections.map connectionObject))]

end Build

/-! ## All of it -/

/-- What is read from the system for one value. -/
structure Readings (D : Type) where
  tcpStatCount : Option TcpStatCount
  tcpBuffer : TcpBuffer
  cpuUsage : Option (D × D)
  df : Option Bytes
  maxSystemFileDescriptors : ℤ
  systemOpenFileDescriptors : ℤ
  maxProcessFileDescriptors : ℤ
  filesystems : List FileSystemInfo
  memory : MemoryReading D
  totalProcessCount : ℤ
  totalThreadCount : ℤ
  totalChildProcesses : ℤ
  pidUsageRatio : D
  sshConnections : List ConnectionInfo
  loggedInUserConnections : List ConnectionInfo

variable {D : Type} [Zero D] [Add D] [Sub D] (F : NumberFormat D)

/-- `get_data`, with the listing that the last call has left; nothing if `stod` throws. -/
def getData (previousDiskUsageList : List DiskUsage) (r : Readings D) :
    Option (Json D × List DiskUsage) := do
  let (diskinfo, diskUsageList) ← getDiskUsageString F.stod previousDiskUsageList r.df
  let json := .ofMembers
    [(str "tcp", tcp4data F r.tcpStatCount r.tcpBuffer),
      (str "cpuinfo", updateCpuUsage r.cpuUsage),
      (str "diskinfo", diskinfo),
      (str "fileinfo", getInfofileJson F r.maxSystemFileDescriptors r.systemOpenFileDescriptors
        r.maxProcessFileDescriptors r.filesystems),
      (str "meminfo", getAllMemoryInfo F r.memory),
      (str "pidinfo", getProcessesInfoAll F r.totalProcessCount r.totalThreadCount
        r.totalChildProcesses r.pidUsageRatio),
      (str "sshinfo", getSSHInfoAll F r.sshConnections r.loggedInUserConnections)]
  some (json, diskUsageList)

/-! ## Its values are readable -/

/-- The keys are checked by evaluation, whatever the values are. -/
theorem readable_ofMembers {D : Type} {n : ℕ} {members : List (Bytes × Json D)}
    (hkeys : (members.all fun member => decide (Plain member.1)) = true)
    (hvalues : ∀ member ∈ members, Readable n member.2) :
    Readable (n + 1) (Json.ofMembers members) := by
  refine .object (SortedMap.sorted_ofList members) ?_ ?_
  · intro kv hkv
    exact of_decide_eq_true (List.all_eq_true.mp hkeys kv (SortedMap.mem_of_mem_ofList hkv))
  · intro kv hkv
    exact hvalues kv (SortedMap.mem_of_mem_ofList hkv)

section Readable

variable {D : Type} (F : NumberFormat D) (n : ℕ)

theorem readable_tcp4statcount (c : Option TcpStatCount) :
    Readable (n + 2) (tcp4statcount F c) := by
  cases c with
  | none => exact readable_ofMembers rfl nofun
  | some c =>
      apply readable_ofMembers rfl
      simp [int, Readable.number]

theorem readable_tcp4buffer (b : TcpBuffer) :
    Readable (n + 2) (tcp4buffer F b) := by
  apply readable_ofMembers rfl
  simp [int, Readable.number]

theorem readable_tcp4data (c : Option TcpStatCount) (b : TcpBuffer) :
    Readable (n + 3) (tcp4data F c b) := by
  apply readable_ofMembers rfl
  simp [readable_tcp4statcount, readable_tcp4buffer]

theorem readable_updateCpuUsage (usage : Option (D × D)) :
    Readable (n + 2) (updateCpuUsage usage) := by
  cases usage with
  | none => exact readable_ofMembers rfl nofun
  | some usage =>
      apply readable_ofMembers rfl
      simp [Readable.number]

theorem readable_getFileUsageJson (maxSystem openSystem maxProcess openProcess maxFiles : ℤ) :
    Readable (n + 2) (getFileUsageJson F maxSystem openSystem maxProcess openProcess maxFiles) := by
  apply readable_ofMembers rfl
  simp [int, Readable.number]

theorem readable_fsObject (fs : FileSystemInfo) :
    Readable (n + 2) (fsObject (D := D) fs) := by
  apply readable_ofMembers rfl
  simp [Readable.string]

/-- An array of objects that are alike. -/
theorem readable_map {α : Type} {f : α → Json D} (hf : ∀ a, Readable (n + 2) (f a)) (l : List α) :
    Readable (n + 3) (.array (l.map f)) := by
  refine .array ?_
  intro v hv
  obtain ⟨a, -, rfl⟩ := List.mem_map.mp hv
  exact hf a

theorem readable_getInfofileJson (maxSystem openSystem maxProcess : ℤ)
    (filesystems : List FileSystemInfo) :
    Readable (n + 4) (getInfofileJson F maxSystem openSystem maxProcess filesystems) := by
  apply readable_ofMembers rfl
  simp [readable_getFileUsageJson, readable_map, readable_fsObject]

theorem readable_getAllMemoryInfo (m : MemoryReading D) :
    Readable (n + 2) (getAllMemoryInfo F m) := by
  apply readable_ofMembers rfl
  simp [int, Readable.number]

theorem readable_getProcessesInfoAll (processes threads children : ℤ) (ratio : D) :
    Readable (n + 2) (getProcessesInfoAll F processes threads children ratio) := by
  apply readable_ofMembers rfl
  simp [int, Readable.number, Readable.string]

theorem readable_connectionObject (c : ConnectionInfo) :
    Readable (n + 2) (connectionObject (D := D) c) := by
  apply readable_ofMembers rfl
  simp [Readable.string]

theorem readable_getSSHInfoAll (ssh loggedIn : List ConnectionInfo) :
    Readable (n + 4) (getSSHInfoAll F ssh loggedIn) := by
  apply readable_ofMembers rfl
  simp [int, Readable.number, readable_map, readable_connectionObject]

theorem readable_diskUsageObject (d : DiskUsage) (diff : Option D) :
    Readable (n + 2) (diskUsageObject d diff) := by
  cases diff with
  | none =>
      apply readable_ofMembers rfl
      simp [Readable.string]
  | some diff =>
      apply readable_ofMembers rfl
      simp [Readable.string, Readable.number]

theorem readable_resultObject {st : DiskLoop D}
    (hitems : ∀ v ∈ st.diskUsageArray, Readable (n + 2) v) :
    Readable (n + 4) (resultObject st) := by
  apply readable_ofMembers rfl
  simp [Readable.number, Readable.array hitems]

end Readable

variable {F} {n : ℕ} {previous : List DiskUsage}

/-- Every round adds the object of an entry. -/
theorem readable_diskUsageStep {st st' : DiskLoop D} {entry : DiskUsage × ℕ}
    (hstep : diskUsageStep F.stod previous st entry = some st')
    (hitems : ∀ v ∈ st.diskUsageArray, Readable (n + 2) v) :
    ∀ v ∈ st'.diskUsageArray, Readable (n + 2) v := by
  obtain ⟨diskUsage, i⟩ := entry
  obtain ⟨diff, -, hstep⟩ := Option.bind_eq_some_iff.mp hstep
  obtain ⟨used, -, hstep⟩ := Option.bind_eq_some_iff.mp hstep
  obtain ⟨available, -, hstep⟩ := Option.bind_eq_some_iff.mp hstep
  cases hstep
  intro v hv
  rcases List.mem_append.mp hv with hv | hv
  · exact hitems v hv
  · rw [List.mem_singleton.mp hv]
    exact readable_diskUsageObject n _ _

theorem readable_foldlM_diskUsageStep {entries : List (DiskUsage × ℕ)} {st st' : DiskLoop D}
    (hloop : entries.foldlM (diskUsageStep F.stod previous) st = some st')
    (hitems : ∀ v ∈ st.diskUsageArray, Readable (n + 2) v) :
    ∀ v ∈ st'.diskUsageArray, Readable (n + 2) v := by
  induction entries generalizing st with
  | nil =>
      cases hloop
      exact hitems
  | cons entry entries ih =>
      rw [List.foldlM_cons] at hloop
      obtain ⟨mid, hstep, hrest⟩ := Option.bind_eq_some_iff.mp hloop
      exact ih hrest (readable_diskUsageStep hstep hitems)

theorem readable_getDiskUsageString {df : Option Bytes} {report : Json D} {next : List DiskUsage}
    (h : getDiskUsageString F.stod previous df = some (report, next)) :
    Readable (n + 4) report := by
  obtain ⟨st, hloop, hst⟩ := Option.bind_eq_some_iff.mp h
  cases hst
  exact readable_resultObject n (readable_foldlM_diskUsageStep hloop nofun)

variable {r : Readings D} {json : Json D} {next : List DiskUsage}

theorem getData_object (h : getData F previous r = some (json, next)) :
    ∃ values, json = .object values ∧ Readable (maxDepth + 1) (.object values) := by
  obtain ⟨⟨diskinfo, list⟩, hdisk, hjson⟩ := Option.bind_eq_some_iff.mp h
  cases hjson
  refine ⟨_, rfl, ?_⟩
  have hdiskinfo : Readable 200 diskinfo := readable_getDiskUsageString hdisk
  apply readable_ofMembers rfl
  simp only [List.forall_mem_cons]
  exact ⟨readable_tcp4data F 197 _ _, readable_updateCpuUsage 198 _, hdiskinfo,
    readable_getInfofileJson F 196 _ _ _ _, readable_getAllMemoryInfo F 198 _,
    readable_getProcessesInfoAll F 198 _ _ _ _, readable_getSSHInfoAll F 196 _ _, nofun⟩

/-! ## What is read back -/

/-- A quiet host with one filesystem. -/
def quietHost (mountPoint : Bytes) : Readings ℤ where
  tcpStatCount := none
  tcpBuffer := ⟨0, 0, 0, 0, 0, 0, 0, 0, 0, 0, 0, 0⟩
  cpuUsage := some (0, 0)
  df := some (str "Filesystem Size Used Avail Use% Mounted on\n/dev/sda1 100G 40G 60G 40% " ++
    mountPoint ++ str "\n")
  maxSystemFileDescriptors := 1024
  systemOpenFileDescriptors := 64
  maxProcessFileDescriptors := 256
  filesystems := [⟨mountPoint, str "1000", str "10", str "1%"⟩]
  memory := ⟨0, 0, 8, 4, 4, 50, 50⟩
  totalProcessCount := 1
  totalThreadCount := 1
  totalChildProcesses := 0
  pidUsageRatio := 0
  sshConnections := [⟨str "192.0.2.1", str "50000"⟩]
  loggedInUserConnections := []

/-- **The value is read back from the file exactly if there is nothing to escape in it.** -/
theorem getData_read_back_iff (h : getData F previous r = some (json, next)) :
    mainRead F (backendThread F json) = .ok json ↔ Unescaped F json := by
  obtain ⟨values, rfl, hreadable⟩ := getData_object h
  exact mainRead_backendThread_iff F hreadable

theorem getData_read_back_iff_quiet :
    ∃ json next, getData integers [] (quietHost (str "/home")) = some (json, next) ∧
      (mainRead integers (backendThread integers json) = .ok json ↔ Unescaped integers json) := by
  have hsome : (getData integers [] (quietHost (str "/home"))).isSome = true := by decide +kernel
  obtain ⟨⟨json, next⟩, h⟩ := Option.isSome_iff_exists.mp hsome
  exact ⟨json, next, h, getData_read_back_iff h⟩

/-- The backslash of a mount point is not read back. -/
theorem not_getData_read_back :
    ∃ json next other, getData integers [] (quietHost (str "/mnt/a\\b")) = some (json, next) ∧
      mainRead integers (backendThread integers json) = .ok other ∧ other ≠ json := by
  have hfacts : ((getData integers [] (quietHost (str "/mnt/a\\b"))).map fun j =>
      decide (str "/mnt/a\\b" ∈ j.1.strings ∧ ∀ s ∈ j.1.strings, 0x22 ∉ s)) = some true := by
    decide +kernel
  obtain ⟨⟨json, next⟩, h, hjson⟩ := Option.map_eq_some_iff.mp hfacts
  obtain ⟨hmem, hquote⟩ := of_decide_eq_true hjson
  obtain ⟨values, rfl, hreadable⟩ := getData_object h
  refine ⟨_, _, (Json.object values).heard integers, h, ?_, ?_⟩
  · rw [mainRead_eq_parse, backendThread_object]
    exact parse_written integers hreadable hquote
  · intro heq
    have hplain := ((unescaped_iff_heard integers hquote).mp heq).strings _ hmem
    exact absurd hplain (by decide)

end SecDetector.Usage
