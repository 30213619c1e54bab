import Mathlib.Algebra.Group.Nat.Defs
import Mathlib.Data.Int.Notation
import Mathlib.Data.List.Nodup
import SecDetector.Lib.Idr
import SecDetector.Lib.ListHead

/-!
# The data of the detection framework

The structures of `kerneldriver/include`, the hook tables and the module table,
as the manager and the hook units use them.

A workflow is addressed by its module and its index in `workflow_array`
(`WorkflowPtr`).  The fields of a workflow and of a module are split in two:
what their author writes and the framework only reads (`Workflow`, `Module`),
and what the framework writes (`WorkflowVars`, `ModuleVars`).  The hook type and
the interval of a workflow are in the first group, so no operation can change
them.

Fields that no modelled function reads are left out: names, modes, the
`enabled` switches and the RCU heads.
-/

namespace SecDetector.Framework

open Lib

/-! ## Constants -/

def ePerm : ℤ := 1
def eNoMem : ℤ := 12
def eFault : ℤ := 14
def eExist : ℤ := 17
def eInval : ℤ := 22
def eNoSpc : ℤ := 28

def intMax : ℕ := 2 ^ 31 - 1

/-! `enum HOOK_TYPE` -/

@[simp] def kprobeHookStart : ℕ := 0
@[simp] def kprobeVfsUnlink : ℕ := 0
@[simp] def kprobePtraceAttach : ℕ := 1
@[simp] def kprobeDoPipe2 : ℕ := 2
@[simp] def kprobeHookEnd : ℕ := 2
@[simp] def lsmHookStart : ℕ := 3
@[simp] def lsmInodeMkdir : ℕ := 3
@[simp] def tracepointHookStart : ℕ := 4
@[simp] def tracepointHookEnd : ℕ := 4
@[simp] def hookEnd : ℕ := 5
@[simp] def secDetectorTimer : ℕ := 6

/-! `enum COLLECT_TYPE`, `enum ANALYZE_TYPE`, `enum RESPONSE_TYPE` -/

def collectTimeType : ℕ := 0
def collectGlobalFunctionSwitch : ℕ := 5
def collectCustomization : ℕ := 7
def analyzePresetSaveCheck : ℕ := 1
def analyzeCustomization : ℕ := 3
def analyzeStatusSaveCheck : ℕ := 1
def responseOk : ℕ := 0
def responseReport : ℕ := 1
def responseKill : ℕ := 2
def responseCustomization : ℕ := 4
def nrResponse : ℕ := 5

/-! ## Units -/

/-- The functions a `collect_func_t` can point to. -/
inductive CollectFunc where
  | collectFunctionSwitch
  | collectTime
  | custom (id : ℕ)
  deriving DecidableEq

/-- The functions an `analyze_func_t` can point to. -/
inductive AnalyzeFunc where
  | analyzeSaveCheck
  | custom (id : ℕ)
  deriving DecidableEq

/-- The functions a `response_func_t` can point to. -/
inductive ResponseFunc where
  | secDetectorOk
  | secDetectorReport
  | secDetectorKill
  | custom (id : ℕ)
  deriving DecidableEq

/-- `collect_units`; an entry without an initialiser is a null pointer. -/
def collectUnits (type : ℕ) : Option CollectFunc :=
  if type = collectGlobalFunctionSwitch then some .collectFunctionSwitch
  else if type = collectTimeType then some .collectTime
  else none

/-- `analyze_units`. -/
def analyzeUnits (type : ℕ) : Option AnalyzeFunc :=
  if type = analyzePresetSaveCheck then some .analyzeSaveCheck else none

/-- `response_units`. -/
def responseUnits (type : ℕ) : Option ResponseFunc :=
  if type = responseOk then some .secDetectorOk
  else if type = responseReport then some .secDetectorReport
  else if type = responseKill then some .secDetectorKill
  else none

/-- `struct secDetector_collect`. -/
structure Collect where
  collectType : ℕ
  collectFunc : Option CollectFunc
  deriving DecidableEq

/-- `struct secDetector_response`. -/
structure Response where
  responseType : ℕ
  responseFunc : Option ResponseFunc
  deriving DecidableEq

/-- What `workflow->response_array` points to: nothing, the author's own array,
or an array of `NR_RESPONSE` entries allocated by the framework. -/
inductive ResponseArray where
  | null
  | static (array : List Response)
  | heap (ptr : ℕ) (array : List Response)
  deriving DecidableEq

/-- `union analyze_status`, whose two members share their first fields. -/
structure AnalyzeStatus where
  dataType : ℕ
  data : Option ℕ
  len : ℕ
  initTag : ℕ
  deriving DecidableEq

/-! ## Workflows and modules -/

inductive WorkflowType where
  | customization
  | preset
  deriving DecidableEq

/-- `struct secDetector_workflow`, the fields that the framework only reads. -/
structure Workflow where
  workflowType : WorkflowType
  hookType : ℕ
  interval : ℤ
  analyzeType : ℕ
  responseArrayLen : ℕ
  deriving DecidableEq

/-- `struct secDetector_module`, the fields that the framework only reads.
`workflowArray` is `none` for a null pointer. -/
structure Module where
  workflowArray : Option (List Workflow)
  workflowArrayLen : ℕ
  hasParameter : Bool
  length_eq : ∀ array, workflowArray = some array → array.length = workflowArrayLen

/-- The address of a workflow. -/
structure WorkflowPtr (M : Type*) where
  module : M
  index : ℕ
  deriving DecidableEq

/-- `struct secDetector_workflow`, the fields that the framework writes. -/
structure WorkflowVars (M : Type*) where
  id : ℕ
  module : Option M
  runsPreset : Bool
  collectArray : List Collect
  analyzeFunc : Option AnalyzeFunc
  responseArray : ResponseArray
  analyzeStatus : AnalyzeStatus

/-- `struct secDetector_module`, the fields that the framework writes; `entry` is
`parameter->entry`. -/
structure ModuleVars where
  id : ℕ
  entry : Option ℕ
  deriving DecidableEq

/-! ## Hook tables -/

/-- `struct secDetector_timer`; `armed` says that its `timer_list` is pending. -/
structure Timer (M : Type*) where
  interval : ℤ
  callbackList : List (WorkflowPtr M)
  armed : Bool
  deriving DecidableEq

/-- The state of the hook units: `secDetector_hook_array`, `secDetector_timer_list`,
and which kprobes and tracepoints are registered with the kernel. -/
@[ext] structure Hooks (M : Type*) where
  hookArray : ℕ → List (WorkflowPtr M)
  timerList : List (Timer M)
  kprobe : ℕ → Bool
  tracepoint : ℕ → Bool

/-! ## Owned resources -/

inductive Resource where
  | procEntry
  | responseArray
  | baseline
  deriving DecidableEq

inductive HeapEvent where
  | create (resource : Resource) (ptr : ℕ)
  | release (resource : Resource) (ptr : ℕ)
  deriving DecidableEq

/-- The resources handed out so far, as the log of what was created and released.
Pointers are drawn from a counter, so no two creations share one. -/
structure Heap where
  fresh : ℕ
  log : List HeapEvent
  deriving DecidableEq

/-- Create a resource. -/
def Heap.create (heap : Heap) (resource : Resource) : ℕ × Heap :=
  (heap.fresh, ⟨heap.fresh + 1, heap.log ++ [.create resource heap.fresh]⟩)

/-- Release a resource. -/
def Heap.release (heap : Heap) (resource : Resource) (ptr : ℕ) : Heap :=
  { heap with log := heap.log ++ [.release resource ptr] }

/-! ## The framework -/

/-- The global state of the framework, the modules' structures included. -/
structure State (M : Type*) where
  moduleIdr : Idr M
  hooks : Hooks M
  moduleList : ListMem M
  modules : M → ModuleVars
  workflows : WorkflowPtr M → WorkflowVars M
  heap : Heap

/-- The workflow at an address, if the address is inside its module's array. -/
def workflowAt {M : Type*} (desc : M → Module) (ptr : WorkflowPtr M) : Option Workflow :=
  (desc ptr.module).workflowArray.bind fun array => array[ptr.index]?

end SecDetector.Framework
