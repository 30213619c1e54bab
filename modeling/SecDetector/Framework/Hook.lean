import Mathlib.Tactic.IntervalCases
import SecDetector.Framework.Types

/-!
# The hook units

`secDetector_hook.c`, `secDetector_hook_kprobe.c` and
`secDetector_hook_tracepoint.c`: how a workflow is linked to a hook and unlinked
from it.  A list head with its nodes is a list of workflow addresses, newest
first, since `list_add_rcu` inserts behind the head.  What the kernel's own
registration functions and the allocator answer is given by a `HookEnv`.
-/

namespace SecDetector.Framework

/-- The answers of the environment during one `insert_callback` or
`delete_callback`. -/
structure HookEnv where
  registerKprobe : ℤ
  registerTrace : ℤ
  unregisterTrace : ℤ
  kzalloc : Bool

variable {M : Type*} [DecidableEq M]

/-! ## Kprobes -/

/-- `kprobe_exists`.  Outside the kprobe range it returns `-1`, which is `true`
as a `bool`. -/
def kprobeExists (ptr : WorkflowPtr M) (wf : Workflow) (hooks : Hooks M) : Bool :=
  if wf.hookType < kprobeHookStart ∨ kprobeHookEnd < wf.hookType then true
  else (hooks.hookArray wf.hookType).contains ptr

/-- `list_add_rcu(&workflow->list, &secDetector_hook_array[hook_type])`. -/
def Hooks.link (hooks : Hooks M) (hookType : ℕ) (ptr : WorkflowPtr M) : Hooks M :=
  { hooks with
    hookArray := Function.update hooks.hookArray hookType (ptr :: hooks.hookArray hookType) }

/-- `list_del_rcu(&workflow->list)` for a workflow of `secDetector_hook_array[hook_type]`. -/
def Hooks.unlink (hooks : Hooks M) (hookType : ℕ) (ptr : WorkflowPtr M) : Hooks M :=
  { hooks with
    hookArray := Function.update hooks.hookArray hookType
      ((hooks.hookArray hookType).erase ptr) }

/-- `insert_kprobe_hook`. -/
def insertKprobeHook (env : HookEnv) (ptr : WorkflowPtr M) (wf : Workflow) (hooks : Hooks M) :
    ℤ × Hooks M :=
  if wf.hookType < kprobeHookStart ∨ kprobeHookEnd < wf.hookType then (-1, hooks)
  else if (hooks.hookArray wf.hookType).isEmpty then
    if env.registerKprobe < 0 then (env.registerKprobe, hooks)
    else
      (env.registerKprobe,
        { hooks with kprobe := Function.update hooks.kprobe wf.hookType true }.link
          wf.hookType ptr)
  else (0, hooks.link wf.hookType ptr)

/-- `delete_kprobe_hook`. -/
def deleteKprobeHook (ptr : WorkflowPtr M) (wf : Workflow) (hooks : Hooks M) : ℤ × Hooks M :=
  if wf.hookType < kprobeHookStart ∨ kprobeHookEnd < wf.hookType then (-1, hooks)
  else
    let hooks := hooks.unlink wf.hookType ptr
    if (hooks.hookArray wf.hookType).isEmpty then
      (0, { hooks with kprobe := Function.update hooks.kprobe wf.hookType false })
    else (0, hooks)

/-! ## Tracepoints -/

/-- `struct secDetector_tracepoint`, as whether its pointers are non-null. -/
structure SecDetectorTracepoint where
  handler : Bool
  registerFunc : Bool
  unregisterFunc : Bool

/-- `secDetector_tracepoint_hook_functions`: no tracepoint is implemented, the only
initialiser of the table consists of null pointers. -/
def secDetectorTracepointHookFunctions : ℕ → SecDetectorTracepoint :=
  fun _ => ⟨false, false, false⟩

/-- `tracepoint_exists`. -/
def tracepointExists (ptr : WorkflowPtr M) (wf : Workflow) (hooks : Hooks M) : Bool :=
  if wf.hookType < tracepointHookStart ∨ tracepointHookEnd < wf.hookType then true
  else (hooks.hookArray wf.hookType).contains ptr

/-- `insert_tracepoint_hook`. -/
def insertTracepointHook (env : HookEnv) (ptr : WorkflowPtr M) (wf : Workflow)
    (hooks : Hooks M) : ℤ × Hooks M :=
  if wf.hookType < tracepointHookStart ∨ tracepointHookEnd < wf.hookType then (-1, hooks)
  else if (hooks.hookArray wf.hookType).isEmpty then
    let tp := secDetectorTracepointHookFunctions (wf.hookType - tracepointHookStart)
    if !tp.registerFunc || !tp.handler then (-1, hooks)
    else if env.registerTrace ≠ 0 then (env.registerTrace, hooks)
    else
      (env.registerTrace,
        { hooks with tracepoint := Function.update hooks.tracepoint wf.hookType true }.link
          wf.hookType ptr)
  else (0, hooks.link wf.hookType ptr)

/-- `delete_tracepoint_hook`. -/
def deleteTracepointHook (env : HookEnv) (ptr : WorkflowPtr M) (wf : Workflow)
    (hooks : Hooks M) : ℤ × Hooks M :=
  if wf.hookType < tracepointHookStart ∨ tracepointHookEnd < wf.hookType then (-1, hooks)
  else
    let hooks := hooks.unlink wf.hookType ptr
    if (hooks.hookArray wf.hookType).isEmpty then
      let tp := secDetectorTracepointHookFunctions (wf.hookType - tracepointHookStart)
      if !tp.registerFunc || !tp.handler then (-1, hooks)
      else
        (env.unregisterTrace,
          { hooks with tracepoint := Function.update hooks.tracepoint wf.hookType false })
    else (0, hooks)

/-! ## Timers

The loops of `secDetector_hook.c` act on the first timer whose interval is that
of the workflow. -/

/-- `timer_callback_exists`. -/
def timerCallbackExists (ptr : WorkflowPtr M) (wf : Workflow) (hooks : Hooks M) : Bool :=
  match hooks.timerList.find? (fun timer => wf.interval = timer.interval) with
  | some timer => timer.callbackList.contains ptr
  | none => false

/-- Add `ptr` to the first timer with the given interval, if there is one. -/
def addToTimer (interval : ℤ) (ptr : WorkflowPtr M) : List (Timer M) → Option (List (Timer M))
  | [] => none
  | timer :: timers =>
      if interval = timer.interval then
        some ({ timer with callbackList := ptr :: timer.callbackList } :: timers)
      else (addToTimer interval ptr timers).map (timer :: ·)

/-- `insert_timer_callback`. -/
def insertTimerCallback (env : HookEnv) (ptr : WorkflowPtr M) (wf : Workflow)
    (hooks : Hooks M) : ℤ × Hooks M :=
  match addToTimer wf.interval ptr hooks.timerList with
  | some timers => (0, { hooks with timerList := timers })
  | none =>
      if env.kzalloc then
        (0, { hooks with timerList := ⟨wf.interval, [ptr], true⟩ :: hooks.timerList })
      else (-eNoMem, hooks)

/-- Delete `ptr` from the first timer with the given interval, and that timer with
it if no callback is left. -/
def dropFromTimer (interval : ℤ) (ptr : WorkflowPtr M) : List (Timer M) → Option (List (Timer M))
  | [] => none
  | timer :: timers =>
      if interval = timer.interval then
        let callbacks := timer.callbackList.erase ptr
        if callbacks.isEmpty then some timers
        else some ({ timer with callbackList := callbacks } :: timers)
      else (dropFromTimer interval ptr timers).map (timer :: ·)

/-- `unlink_timer_callback`. -/
def unlinkTimerCallback (ptr : WorkflowPtr M) (wf : Workflow) (hooks : Hooks M) : ℤ × Hooks M :=
  match dropFromTimer wf.interval ptr hooks.timerList with
  | some timers => (1, { hooks with timerList := timers })
  | none => (0, hooks)

/-! ## Dispatch -/

/-- The three columns `insert`, `delete` and `exists` of `hook_list_funcs`. -/
inductive HookFamily where
  | kprobe
  | tracepoint
  | timer
  deriving DecidableEq

/-- `struct hook_list_func`. -/
structure HookListFunc where
  typeMin : ℕ
  typeMax : ℕ
  family : HookFamily

/-- `hook_list_funcs`. -/
def hookListFuncs : List HookListFunc :=
  [⟨kprobeHookStart, kprobeHookEnd, .kprobe⟩,
   ⟨tracepointHookStart, tracepointHookEnd, .tracepoint⟩,
   ⟨secDetectorTimer, secDetectorTimer, .timer⟩]

/-- `list_func->exists`. -/
def HookFamily.exists (family : HookFamily) (ptr : WorkflowPtr M) (wf : Workflow)
    (hooks : Hooks M) : Bool :=
  match family with
  | .kprobe => kprobeExists ptr wf hooks
  | .tracepoint => tracepointExists ptr wf hooks
  | .timer => timerCallbackExists ptr wf hooks

/-- `list_func->insert`. -/
def HookFamily.insert (family : HookFamily) (env : HookEnv) (ptr : WorkflowPtr M)
    (wf : Workflow) (hooks : Hooks M) : ℤ × Hooks M :=
  match family with
  | .kprobe => insertKprobeHook env ptr wf hooks
  | .tracepoint => insertTracepointHook env ptr wf hooks
  | .timer => insertTimerCallback env ptr wf hooks

/-- `list_func->delete`. -/
def HookFamily.delete (family : HookFamily) (env : HookEnv) (ptr : WorkflowPtr M)
    (wf : Workflow) (hooks : Hooks M) : ℤ × Hooks M :=
  match family with
  | .kprobe => deleteKprobeHook ptr wf hooks
  | .tracepoint => deleteTracepointHook env ptr wf hooks
  | .timer => unlinkTimerCallback ptr wf hooks

/-- The loop of `insert_callback`. -/
def insertCallbackLoop (env : HookEnv) (ptr : WorkflowPtr M) (wf : Workflow)
    (hooks : Hooks M) : List HookListFunc → ℤ × Hooks M
  | [] => (-eFault, hooks)
  | func :: funcs =>
      if func.typeMin ≤ wf.hookType ∧ wf.hookType ≤ func.typeMax then
        if func.family.exists ptr wf hooks then (-eExist, hooks)
        else func.family.insert env ptr wf hooks
      else insertCallbackLoop env ptr wf hooks funcs

/-- `insert_callback`. -/
def insertCallback (env : HookEnv) (ptr : WorkflowPtr M) (wf : Workflow) (hooks : Hooks M) :
    ℤ × Hooks M :=
  insertCallbackLoop env ptr wf hooks hookListFuncs

/-- The loop of `delete_callback`. -/
def deleteCallbackLoop (env : HookEnv) (ptr : WorkflowPtr M) (wf : Workflow)
    (hooks : Hooks M) : List HookListFunc → ℤ × Hooks M
  | [] => (0, hooks)
  | func :: funcs =>
      if func.typeMin ≤ wf.hookType ∧ wf.hookType ≤ func.typeMax then
        -- a workflow that is not linked is skipped with `continue`
        if func.family.exists ptr wf hooks then func.family.delete env ptr wf hooks
        else deleteCallbackLoop env ptr wf hooks funcs
      else deleteCallbackLoop env ptr wf hooks funcs

/-- `delete_callback`. -/
def deleteCallback (env : HookEnv) (ptr : WorkflowPtr M) (wf : Workflow) (hooks : Hooks M) :
    ℤ × Hooks M :=
  deleteCallbackLoop env ptr wf hooks hookListFuncs

/-- The family whose range holds a hook type, if any. -/
def familyOf (hookType : ℕ) : Option HookFamily :=
  if hookType ≤ kprobeHookEnd then some .kprobe
  else if hookType = tracepointHookStart then some .tracepoint
  else if hookType = secDetectorTimer then some .timer
  else none

/-- The ranges of `hook_list_funcs` are disjoint, so at most one row is tried. -/
theorem insertCallback_eq (env : HookEnv) (ptr : WorkflowPtr M) (wf : Workflow)
    (hooks : Hooks M) :
    insertCallback env ptr wf hooks =
      match familyOf wf.hookType with
      | none => (-eFault, hooks)
      | some family =>
          if family.exists ptr wf hooks then (-eExist, hooks)
          else family.insert env ptr wf hooks := by
  rcases Nat.lt_or_ge 6 wf.hookType with hlarge | hsmall
  · have h : ¬ wf.hookType ≤ 2 ∧ ¬ wf.hookType = 4 ∧ ¬ wf.hookType = 6 ∧
        ¬ wf.hookType ≤ 4 ∧ ¬ wf.hookType ≤ 6 := by omega
    simp [insertCallback, insertCallbackLoop, hookListFuncs, familyOf, h]
  · interval_cases h : wf.hookType <;>
      simp [insertCallback, insertCallbackLoop, hookListFuncs, familyOf, h]

theorem deleteCallback_eq (env : HookEnv) (ptr : WorkflowPtr M) (wf : Workflow)
    (hooks : Hooks M) :
    deleteCallback env ptr wf hooks =
      match familyOf wf.hookType with
      | none => (0, hooks)
      | some family =>
          if family.exists ptr wf hooks then family.delete env ptr wf hooks
          else (0, hooks) := by
  rcases Nat.lt_or_ge 6 wf.hookType with hlarge | hsmall
  · have h : ¬ wf.hookType ≤ 2 ∧ ¬ wf.hookType = 4 ∧ ¬ wf.hookType = 6 ∧
        ¬ wf.hookType ≤ 4 ∧ ¬ wf.hookType ≤ 6 := by omega
    simp [deleteCallback, deleteCallbackLoop, hookListFuncs, familyOf, h]
  · interval_cases h : wf.hookType <;>
      simp [deleteCallback, deleteCallbackLoop, hookListFuncs, familyOf, h]

end SecDetector.Framework
