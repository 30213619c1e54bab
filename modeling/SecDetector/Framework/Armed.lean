import SecDetector.Framework.Lifetime

/-!
# What is armed

A kprobe, a timer or a tracepoint costs something while it is armed, and nothing
useful happens if somebody waits for one that is not.  `ArmedExactly` says of a state
that a kprobe is registered while its list has a workflow, that there is one armed
timer for each interval somebody uses, and that a workflow is linked once, where its
own hook type and interval say.

Nothing of this depends on who registers what, or on which operation fails on the
way: it is a consequence of the invariant of the hook tables, which every call keeps,
rollbacks included.
-/

namespace SecDetector.Framework

open Lib

variable {M : Type*} {desc : M → Module} {hooks : Hooks M} {ptr : WorkflowPtr M}

/-- `ptr` is on the list of the hook type of `wf`, or on the timer of its interval. -/
def Hooks.LinkedWhereTyped (hooks : Hooks M) (ptr : WorkflowPtr M) (wf : Workflow) : Prop :=
  (wf.hookType ≤ kprobeHookEnd ∧ ptr ∈ hooks.hookArray wf.hookType) ∨
    (wf.hookType = secDetectorTimer ∧ ∃ timer ∈ hooks.timerList,
      timer.interval = wf.interval ∧ ptr ∈ timer.callbackList)

/-- A linked workflow is one of its module's, and is linked where its type says. -/
theorem HookInv.linkedWhereTyped (hinv : HookInv desc hooks) (hlinked : hooks.Linked ptr) :
    ∃ wf, workflowAt desc ptr = some wf ∧ hooks.LinkedWhereTyped ptr wf := by
  rcases hlinked with ⟨t, hmem⟩ | ⟨timer, htimer, hmem⟩
  · obtain ⟨wf, hwf, rfl, hle⟩ := hinv.hook_typed t ptr hmem
    exact ⟨wf, hwf, .inl ⟨hle, hmem⟩⟩
  · obtain ⟨wf, hwf, htype, hinterval⟩ := hinv.timer_typed timer htimer ptr hmem
    exact ⟨wf, hwf, .inr ⟨htype, timer, htimer, hinterval.symm, hmem⟩⟩

/-- A list of hooks is empty exactly while no linked workflow has its type. -/
theorem HookInv.hookArray_ne_nil_iff (hinv : HookInv desc hooks) {t : ℕ}
    (ht : t ≤ kprobeHookEnd) :
    hooks.hookArray t ≠ [] ↔
      ∃ ptr wf, hooks.Linked ptr ∧ workflowAt desc ptr = some wf ∧ wf.hookType = t := by
  constructor
  · intro hne
    obtain ⟨ptr, hmem⟩ := List.exists_mem_of_ne_nil _ hne
    obtain ⟨wf, hwf, htype, _⟩ := hinv.hook_typed t ptr hmem
    exact ⟨ptr, wf, .inl ⟨t, hmem⟩, hwf, htype⟩
  · intro hused
    obtain ⟨ptr, wf, hlinked, hwf, rfl⟩ := hused
    exact List.ne_nil_of_mem ((hinv.linked_iff_of_le hwf ht).mp hlinked)

/-- A timer exists exactly while a linked workflow uses its interval. -/
theorem HookInv.timer_exists_iff (hinv : HookInv desc hooks) (interval : ℤ) :
    (∃ timer ∈ hooks.timerList, timer.interval = interval) ↔
      ∃ ptr wf, hooks.Linked ptr ∧ workflowAt desc ptr = some wf ∧
        wf.hookType = secDetectorTimer ∧ wf.interval = interval := by
  constructor
  · intro hexists
    obtain ⟨timer, htimer, rfl⟩ := hexists
    obtain ⟨ptr, hmem⟩ := List.exists_mem_of_ne_nil _ (hinv.timer_nonempty timer htimer).1
    obtain ⟨wf, hwf, htype, hinterval⟩ := hinv.timer_typed timer htimer ptr hmem
    exact ⟨ptr, wf, .inr ⟨timer, htimer, hmem⟩, hwf, htype, hinterval⟩
  · intro hused
    obtain ⟨ptr, wf, hlinked, hwf, htype, rfl⟩ := hused
    obtain ⟨timer, htimer, hinterval, _⟩ := (hinv.linked_iff_of_timer hwf htype).mp hlinked
    exact ⟨timer, htimer, hinterval.symm⟩

variable [DecidableEq M]

/-- The kprobes, timers and tracepoints of a state are armed while they are used, and
not longer. -/
structure ArmedExactly (desc : M → Module) (hooks : Hooks M) : Prop where
  kprobe : ∀ t, kprobeHookStart ≤ t → t ≤ kprobeHookEnd →
    (hooks.kprobe t = true ↔ hooks.hookArray t ≠ [])
  kprobe_used : ∀ t, kprobeHookStart ≤ t → t ≤ kprobeHookEnd →
    (hooks.kprobe t = true ↔
      ∃ ptr wf, hooks.Linked ptr ∧ workflowAt desc ptr = some wf ∧ wf.hookType = t)
  timer_unique : (hooks.timerList.map Timer.interval).Nodup
  timer_armed : ∀ timer ∈ hooks.timerList, timer.callbackList ≠ [] ∧ timer.armed = true
  timer_used : ∀ interval, (∃ timer ∈ hooks.timerList, timer.interval = interval) ↔
    ∃ ptr wf, hooks.Linked ptr ∧ workflowAt desc ptr = some wf ∧
      wf.hookType = secDetectorTimer ∧ wf.interval = interval
  linked_once : ∀ ptr, hooks.Linked ptr → hooks.linkCount ptr = 1 ∧
    ∃ wf, workflowAt desc ptr = some wf ∧ hooks.LinkedWhereTyped ptr wf
  tracepoint : ∀ t, tracepointHookStart ≤ t → t ≤ tracepointHookEnd →
    hooks.hookArray t ≠ [] → hooks.tracepoint t = true

omit [DecidableEq M] in
theorem HookInv.kprobe_iff (hinv : HookInv desc hooks) (t : ℕ) :
    hooks.kprobe t = true ↔ hooks.hookArray t ≠ [] := by
  rw [hinv.kprobe_eq, Bool.not_eq_true', List.isEmpty_eq_false_iff]

theorem HookInv.armedExactly (hinv : HookInv desc hooks) : ArmedExactly desc hooks where
  kprobe t _ _ := hinv.kprobe_iff t
  kprobe_used t _ hle := (hinv.kprobe_iff t).trans (hinv.hookArray_ne_nil_iff hle)
  timer_unique := hinv.timer_intervals
  timer_armed := hinv.timer_nonempty
  timer_used := hinv.timer_exists_iff
  linked_once _ hlinked := ⟨hinv.linkCount_eq_one hlinked, hinv.linkedWhereTyped hlinked⟩
  tracepoint t hlow hhigh hne := by
    -- no tracepoint is implemented, so an insertion never gets that far
    obtain rfl : t = tracepointHookStart := le_antisymm hhigh hlow
    exact absurd hinv.tracepoint_empty hne

/-- **Armed exactly while used.**  After any sequence of calls, whatever failed on the
way. -/
theorem armed_exactly {s : State M} (hreach : Reachable (step desc) (Initial desc) s) :
    ArmedExactly desc s.hooks :=
  (frameworkInv_of_reachable hreach).hooks.armedExactly

/-- The state after a registration that was rolled back and two that succeeded. -/
def timerRegistered : State Bool :=
  (exec (step timerModules) freshState timerCalls).getD freshState

/-- Two kprobes and a timer are armed. -/
theorem timerRegistered_armed : ArmedExactly timerModules timerRegistered.hooks ∧
    timerRegistered.hooks.kprobe kprobePtraceAttach = true ∧
    timerRegistered.hooks.kprobe kprobeDoPipe2 = true ∧
    timerRegistered.hooks.timerList.map Timer.interval = [60] :=
  ⟨armed_exactly ⟨timerCalls, .of_exec freshTracked_timers.1 (fun _ _ _ => trivial) rfl⟩,
    rfl, rfl, rfl⟩

end SecDetector.Framework
