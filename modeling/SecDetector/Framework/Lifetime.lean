import Mathlib.Algebra.BigOperators.Group.List.Basic
import SecDetector.Framework.Rollback

/-!
# Lifetimes of modules

Calls from module code, with the discipline of `module_exit`: a module calls
`secDetector_module_unregister` on itself, after its own registration has
succeeded.  `Tracked` adds to the framework which modules are in that state.

The abstract picture is a set of registered modules, each owning the links of all
its workflows.  `LifeInv` says that the framework refines it: a registered
module is found under its `module->id`, its workflows are linked, and nobody
else's are.  Every call keeps this except a registration that fails although
`idr_alloc` has given it an id, and whose module holds another id
(`RollbackOwnsId`).
-/

namespace SecDetector.Framework

open Lib

variable {M : Type*} [DecidableEq M] {desc : M → Module}

/-- The framework, and which modules have registered successfully and not yet
unregistered. -/
structure Tracked (M : Type*) where
  state : State M
  registered : M → Bool

/-- The calls that module code makes. -/
def lifeStep (desc : M → Module) (t : Tracked M) : Call M → Option (Tracked M)
  | .register env module =>
      (secDetectorModuleRegister desc env module t.state).map fun (ret, s) =>
        ⟨s, match module with
          | some m => if 0 ≤ ret then Function.update t.registered m true else t.registered
          | none => t.registered⟩
  | .unregister env module =>
      match module with
      | some m =>
          if t.registered m then
            (secDetectorModuleUnregister desc env (some m) t.state).map fun s =>
              ⟨s, Function.update t.registered m false⟩
          else none
      | none => none

/-- No module has been registered yet. -/
def lifeInit (desc : M → Module) (t : Tracked M) : Prop :=
  Initial desc t.state ∧ ∀ m, t.registered m = false

/-- How often a workflow is linked, over all hook lists and all timers. -/
def Hooks.linkCount (hooks : Hooks M) (ptr : WorkflowPtr M) : ℕ :=
  ((List.range hookEnd).map fun t => (hooks.hookArray t).count ptr).sum +
    (hooks.timerList.map fun timer => timer.callbackList.count ptr).sum

/-- What is expected when `secDetector_module_unregister(m)` returns: no workflow of
`m` is linked any more, and those of the other registered modules are linked once. -/
structure UnregisterSafe (desc : M → Module) (m : M) (t : Tracked M) : Prop where
  unlinked : ∀ ptr, ptr.module = m → ¬ t.state.hooks.Linked ptr
  others : ∀ ptr wf, ptr.module ≠ m → t.registered ptr.module = true →
    workflowAt desc ptr = some wf → t.state.hooks.linkCount ptr = 1

/-- The registrations whose rollback finds the right entry: if the registration fails
after `idr_alloc`, then `module->id` is the id that `idr_alloc` has given. -/
def RollbackOwnsId (desc : M → Module) (t : Tracked M) : Call M → Prop
  | .register env (some m) => RegisterFails desc env (some m) t.state →
      IdAvailable env t.state → (t.state.modules m).id = t.state.moduleIdr.lowestFree
  | _ => True

/-! ## Linked exactly once -/

theorem count_timers {ptr : WorkflowPtr M} {interval : ℤ} {timers : List (Timer M)}
    (hnodup : (timers.map Timer.interval).Nodup)
    (htyped : ∀ timer ∈ timers, ptr ∈ timer.callbackList → interval = timer.interval)
    (hcallbacks : ∀ timer ∈ timers, timer.callbackList.Nodup)
    (hmem : ∃ timer ∈ timers, ptr ∈ timer.callbackList) :
    (timers.map fun timer => timer.callbackList.count ptr).sum = 1 := by
  induction timers with
  | nil => simp at hmem
  | cons timer timers ih =>
      rw [List.map_cons, List.nodup_cons] at hnodup
      rw [List.forall_mem_cons] at htyped hcallbacks
      rw [List.map_cons, List.sum_cons]
      by_cases hin : ptr ∈ timer.callbackList
      · -- no later timer has this interval
        have hrest : (timers.map fun timer => timer.callbackList.count ptr).sum = 0 := by
          apply List.sum_eq_zero
          intro n hn
          obtain ⟨other, hother, rfl⟩ := List.mem_map.mp hn
          rw [List.count_eq_zero]
          intro hcontra
          apply hnodup.1
          rw [← htyped.1 hin, htyped.2 other hother hcontra]
          exact List.mem_map_of_mem hother
        rw [hrest, List.count_eq_one_of_mem hcallbacks.1 hin]
      · obtain ⟨found, hfound, hptr⟩ := hmem
        have hrest : ∃ timer ∈ timers, ptr ∈ timer.callbackList := by
          rcases List.mem_cons.mp hfound with rfl | hfound
          · exact absurd hptr hin
          · exact ⟨found, hfound, hptr⟩
        rw [ih hnodup.2 htyped.2 hcallbacks.2 hrest, List.count_eq_zero.mpr hin]

/-- A linked workflow is linked once. -/
theorem HookInv.linkCount_eq_one {hooks : Hooks M} (hinv : HookInv desc hooks)
    {ptr : WorkflowPtr M} (hlinked : hooks.Linked ptr) : hooks.linkCount ptr = 1 := by
  obtain ⟨wf, hwf⟩ := hinv.workflowAt_of_linked hlinked
  have hzero : ∀ t ≠ wf.hookType, (hooks.hookArray t).count ptr = 0 := by
    intro t ht
    rw [List.count_eq_zero]
    intro hmem
    exact ht (hinv.hookType_of_mem hwf hmem).1.symm
  by_cases hle : wf.hookType ≤ kprobeHookEnd
  · -- a kprobe workflow: its own list has it once, the timers do not
    have hown : (hooks.hookArray wf.hookType).count ptr = 1 :=
      List.count_eq_one_of_mem (hinv.hook_nodup _) ((hinv.linked_iff_of_le hwf hle).mp hlinked)
    have htimers : (hooks.timerList.map fun timer => timer.callbackList.count ptr).sum = 0 := by
      apply List.sum_eq_zero
      intro n hn
      obtain ⟨timer, htimer, rfl⟩ := List.mem_map.mp hn
      rw [List.count_eq_zero]
      intro hmem
      have htype := (hinv.timerType_of_mem hwf htimer hmem).1
      simp [htype] at hle
    have hrange : ((List.range hookEnd).map fun t => (hooks.hookArray t).count ptr).sum = 1 := by
      rw [List.sum_map_eq_nsmul_single wf.hookType _ fun t ht _ => hzero t ht, hown,
        List.count_eq_one_of_mem List.nodup_range (by simp at hle ⊢; omega), one_nsmul]
    rw [Hooks.linkCount, htimers, hrange]
  · by_cases htype : wf.hookType = secDetectorTimer
    · have hrange : ((List.range hookEnd).map fun t => (hooks.hookArray t).count ptr).sum = 0 := by
        apply List.sum_eq_zero
        intro n hn
        obtain ⟨t, ht, rfl⟩ := List.mem_map.mp hn
        apply hzero t
        intro heq
        simp [heq, htype] at ht
      obtain ⟨timer, htimer, _, hmem⟩ := (hinv.linked_iff_of_timer hwf htype).mp hlinked
      have htyped : ∀ other ∈ hooks.timerList, ptr ∈ other.callbackList →
          wf.interval = other.interval := by
        intro other hother hin
        exact (hinv.timerType_of_mem hwf hother hin).2
      rw [Hooks.linkCount, hrange, zero_add]
      exact count_timers hinv.timer_intervals htyped hinv.timer_nodup ⟨timer, htimer, hmem⟩
    · exact absurd hlinked (hinv.not_linked_of_other hwf (not_le.mp hle) htype)

/-! ## The refinement -/

/-- The framework refines the set of registered modules. -/
structure LifeInv (desc : M → Module) (t : Tracked M) : Prop where
  frame : FrameworkInv desc t.state
  found : ∀ m, t.registered m = true →
    t.state.moduleIdr.entry (t.state.modules m).id = some m
  linked_iff : ∀ ptr, t.state.hooks.Linked ptr ↔
    t.registered ptr.module = true ∧ ∃ wf, workflowAt desc ptr = some wf

omit [DecidableEq M] in
theorem lifeInit.lifeInv {t : Tracked M} (hinit : lifeInit desc t) : LifeInv desc t where
  frame := hinit.1.frameworkInv
  found m hm := by simp [hinit.2 m] at hm
  linked_iff ptr := by
    apply iff_of_false (hinit.1.not_linked ptr)
    intro hreg
    simp [hinit.2] at hreg

/-- Unregistering a registered module. -/
theorem LifeInv.unregister {t : Tracked M} (hinv : LifeInv desc t) {m : M}
    (hreg : t.registered m = true) {env : ℕ → HookEnv} {s' : State M}
    (hstep : secDetectorModuleUnregister desc env (some m) t.state = some s') :
    LifeInv desc ⟨s', Function.update t.registered m false⟩ := by
  have hfound := hinv.found m hreg
  have hframe := hinv.frame.unregister hstep
  obtain ⟨s₁, heq, hhooks, hidr, _, hmodules⟩ :=
    unregister_eq_unlinkModule (m := m) hinv.frame.hooks env
  rw [heq] at hstep
  rw [hfound, if_neg (by simp)] at hhooks
  obtain ⟨hhooks', hidr', hmodules', _⟩ := unlinkModule_frame hstep
  refine ⟨hframe, fun m' hm' => ?_, fun ptr => ?_⟩
  · have hne : m' ≠ m := by
      intro heq
      simp [heq] at hm'
    dsimp only at hm'
    rw [Function.update_of_ne hne] at hm'
    have hfound' := hinv.found m' hm'
    -- two modules are found under different ids
    have hid : (t.state.modules m').id ≠ (t.state.modules m).id := by
      intro hid
      rw [hid, hfound] at hfound'
      exact hne (Option.some.inj hfound').symm
    dsimp only
    rw [hmodules', hmodules, hidr', hidr, Function.update_of_ne hid, hfound']
  · dsimp only
    rw [hhooks', hhooks, Hooks.linked_purge, hinv.linked_iff]
    by_cases hm : ptr.module = m
    · simp [hm]
    · simp [hm]

/-- A rollback that finds the entry of the failed module. -/
theorem LifeInv.rollback {t : Tracked M} (hinv : LifeInv desc t) {m : M} {env : ℕ → HookEnv}
    {s₁ s₂ : State M} (hidEq : (t.state.modules m).id = t.state.moduleIdr.lowestFree)
    (hidr : s₁.moduleIdr.entry =
      Function.update t.state.moduleIdr.entry t.state.moduleIdr.lowestFree (some m))
    (hinv₁ : HookInv desc s₁.hooks) (hpurge : s₁.hooks.purge m = t.state.hooks.purge m)
    (hlist : s₁.moduleList = t.state.moduleList)
    (hids : ∀ m', (s₁.modules m').id = (t.state.modules m').id)
    (hunreg : secDetectorModuleUnregister desc env (some m) s₁ = some s₂) :
    LifeInv desc ⟨s₂, t.registered⟩ := by
  have hframe : FrameworkInv desc s₂ :=
    FrameworkInv.unregister ⟨hinv₁, by rw [hlist]; exact hinv.frame.list⟩ hunreg
  have hfree := t.state.moduleIdr.entry_lowestFree
  -- a registered module is found under its id, which is therefore not free
  have hnot : t.registered m = false := by
    by_contra hcontra
    have hfound := hinv.found m (by simpa using hcontra)
    rw [hidEq, hfree] at hfound
    simp at hfound
  have hnone : ∀ ptr, t.state.hooks.Linked ptr → ptr.module ≠ m := by
    intro ptr hlinked heq
    rw [hinv.linked_iff, heq, hnot] at hlinked
    simp at hlinked
  obtain ⟨s₃, hunreg', hhooks, hidr', _, hmodules⟩ :=
    unregister_eq_unlinkModule (m := m) hinv₁ env
  rw [hunreg'] at hunreg
  obtain ⟨hhooks₂, hidr₂, hmodules₂, _⟩ := unlinkModule_frame hunreg
  rw [hids, hidEq, hidr, Function.update_self, if_neg (by simp), hpurge,
    hinv.frame.hooks.purge_eq_self_iff.mpr hnone] at hhooks
  rw [hids, hidEq, hidr, Function.update_idem, ← hfree, Function.update_eq_self] at hidr'
  refine ⟨hframe, fun m' hm' => ?_, fun ptr => ?_⟩
  · dsimp only
    rw [hmodules₂, hmodules, hids, hidr₂, hidr']
    exact hinv.found m' hm'
  · dsimp only
    rw [hhooks₂, hhooks]
    exact hinv.linked_iff ptr

/-- A module that is published with all its workflows linked. -/
theorem LifeInv.publish {t : Tracked M} (hinv : LifeInv desc t) {m : M} {s₁ s₂ : State M}
    (hframe : FrameworkInv desc s₂)
    (hidr : s₁.moduleIdr.entry =
      Function.update t.state.moduleIdr.entry t.state.moduleIdr.lowestFree (some m))
    (hlinked : ∀ ptr, s₁.hooks.Linked ptr ↔
      t.state.hooks.Linked ptr ∨ (ptr.module = m ∧ ∃ wf, workflowAt desc ptr = some wf))
    (hids : ∀ m', (s₁.modules m').id = (t.state.modules m').id)
    (hpub : publishModule m t.state.moduleIdr.lowestFree s₁ = some s₂) :
    LifeInv desc ⟨s₂, Function.update t.registered m true⟩ := by
  have hfree := t.state.moduleIdr.entry_lowestFree
  obtain ⟨list, _, rfl⟩ := Option.map_eq_some_iff.mp hpub
  refine ⟨hframe, fun m' hm' => ?_, fun ptr => ?_⟩
  · dsimp only
    rw [hidr]
    by_cases hm : m' = m
    · simp [hm]
    -- the id of another registered module is in use, so it is not the lowest free one
    · dsimp only at hm'
      rw [Function.update_of_ne hm] at hm' ⊢
      have hfound := hinv.found m' hm'
      have hne : (t.state.modules m').id ≠ t.state.moduleIdr.lowestFree := by
        intro hcontra
        rw [hcontra, hfree] at hfound
        simp at hfound
      rw [hids, Function.update_of_ne hne, hfound]
  · dsimp only
    rw [hlinked, hinv.linked_iff]
    by_cases hm : ptr.module = m
    · simp [hm]
    · simp [hm]

/-- A registration whose rollback, if it comes to it, finds the right entry. -/
theorem LifeInv.register {t : Tracked M} (hinv : LifeInv desc t) {m : M} {env : RegisterEnv}
    (hok : RollbackOwnsId desc t (.register env (some m))) {ret : ℤ} {s' : State M}
    (hstep : secDetectorModuleRegister desc env (some m) t.state = some (ret, s')) :
    LifeInv desc ⟨s', if 0 ≤ ret then Function.update t.registered m true else t.registered⟩ := by
  have hframe : FrameworkInv desc s' := by
    have hcall : step desc t.state (.register env (some m)) = some s' := by rw [step, hstep]; rfl
    exact hinv.frame.step hcall
  have houtcome := register_outcome (m := m) env hinv.frame.hooks
  rw [RollbackOwnsId, RegisterFails, hstep] at hok
  rw [hstep] at houtcome
  generalize hresult : some (ret, s') = result at houtcome
  cases houtcome with
  | noId ret' hret hid =>
      obtain ⟨rfl, rfl⟩ := Prod.mk.inj (Option.some.inj hresult)
      rw [if_neg (not_le.mpr hret)]
      exact hinv
  | failed ret' hret hid s₁ hidr hinv₁ hpurge hlist hids =>
      obtain ⟨s₂, hunreg, heq⟩ := Option.map_eq_some_iff.mp hresult.symm
      obtain ⟨rfl, rfl⟩ := Prod.mk.inj heq
      have hidEq := hok (fun _ _ h => (Prod.mk.inj (Option.some.inj h)).1 ▸ hret) hid
      rw [if_neg (not_le.mpr hret)]
      exact hinv.rollback hidEq hidr hinv₁ hpurge hlist hids hunreg
  | registered ret' hret hid s₁ hidr hinv₁ hlinked hlist hids =>
      obtain ⟨s₂, hpub, heq⟩ := Option.map_eq_some_iff.mp hresult.symm
      obtain ⟨rfl, rfl⟩ := Prod.mk.inj heq
      rw [if_pos hret]
      exact hinv.publish hframe hidr hlinked hids hpub

theorem LifeInv.step {t t' : Tracked M} {call : Call M} (hinv : LifeInv desc t)
    (hok : RollbackOwnsId desc t call) (hstep : lifeStep desc t call = some t') :
    LifeInv desc t' := by
  cases call with
  | register env module =>
      obtain ⟨⟨ret, s'⟩, hreg, rfl⟩ := Option.map_eq_some_iff.mp hstep
      cases module with
      | none =>
          obtain ⟨rfl, rfl⟩ := Prod.mk.inj (Option.some.inj hreg)
          exact hinv
      | some m => exact hinv.register hok hreg
  | unregister env module =>
      cases module with
      | none => simp [lifeStep] at hstep
      | some m =>
          rw [lifeStep] at hstep
          split at hstep
          · rename_i hreg
            obtain ⟨s', hunreg, rfl⟩ := Option.map_eq_some_iff.mp hstep
            exact hinv.unregister hreg hunreg
          · simp at hstep

/-- **No dangling hook after unregistration.**  In every run in which each failing
registration that got an id is made by a module holding that id, an
unregistration of `m` leaves no workflow of `m` linked, and every workflow of every
other registered module linked once. -/
theorem unregister_safe {acts : List (Call M)} {t t' : Tracked M}
    (hrun : Run (lifeStep desc) (RollbackOwnsId desc) (lifeInit desc) acts t)
    {env : ℕ → HookEnv} {m : M}
    (hstep : lifeStep desc t (.unregister env (some m)) = some t') :
    UnregisterSafe desc m t' := by
  have hinv : LifeInv desc t :=
    hrun.invariant (fun _ hinit => hinit.lifeInv) fun _ _ _ hinv hok hst => hinv.step hok hst
  have hok : RollbackOwnsId desc t (.unregister env (some m)) := trivial
  have hinv' := hinv.step hok hstep
  have hnot : t'.registered m = false := by
    rw [lifeStep] at hstep
    split at hstep
    · obtain ⟨s', _, rfl⟩ := Option.map_eq_some_iff.mp hstep
      simp
    · simp at hstep
  constructor
  · intro ptr hptr hlinked
    rw [hinv'.linked_iff, hptr, hnot] at hlinked
    simp at hlinked
  · intro ptr wf _ hreg hwf
    exact hinv'.frame.hooks.linkCount_eq_one ((hinv'.linked_iff ptr).mpr ⟨hreg, wf, hwf⟩)

/-! ## A dangling hook

The run of a stolen id, continued: the first module is still registered, but its
unregistration finds no entry under its id and leaves its workflow linked. -/

/-- The framework with zero-initialised modules, none of them registered. -/
def freshTracked : Tracked Bool :=
  ⟨freshState, fun _ => false⟩

theorem freshTracked_lifeInit : lifeInit twoModules freshTracked :=
  ⟨twoModules_initial, fun _ => rfl⟩

/-- One module with a kprobe and a timer, and one with a kprobe. -/
def timerModules : Bool → Module
  | false =>
      { workflowArray := some [kprobeWorkflow kprobePtraceAttach,
          ⟨.customization, secDetectorTimer, 60, analyzeCustomization, 0⟩]
        workflowArrayLen := 2
        hasParameter := false
        length_eq := by simp }
  | true => kprobeModule kprobeDoPipe2

/-- There is no memory for the timer. -/
def noTimerEnv : RegisterEnv :=
  { kprobeEnv 0 with hook := fun i => ⟨0, 0, 0, i == 0⟩ }

/-- A registration that fails at its second workflow, and two that succeed. -/
def timerCalls : List (Call Bool) :=
  [.register noTimerEnv (some false), .register (kprobeEnv 0) (some true),
    .register (kprobeEnv 0) (some false)]

def timerTracked : Tracked Bool :=
  (exec (lifeStep timerModules) freshTracked timerCalls).getD freshTracked

theorem freshTracked_timers : lifeInit timerModules freshTracked :=
  ⟨freshState_initial (by simp [timerModules, kprobeModule, kprobeWorkflow]), fun _ => rfl⟩

theorem timerTracked_run : Run (lifeStep timerModules) (RollbackOwnsId timerModules)
    (lifeInit timerModules) timerCalls timerTracked := by
  refine .next (.next (.next (.start freshTracked_timers) (fun _ _ => rfl) rfl)
    (fun hfails => ?_) rfl) (fun hfails => ?_) rfl
  · exact absurd (hfails _ _ rfl) (by decide)
  · exact absurd (hfails _ _ rfl) (by decide)

/-- The workflows of the module are unlinked from its kprobe and its timer, and the other module
keeps its own. -/
theorem timer_unregister_safe :
    ∃ t, lifeStep timerModules timerTracked (.unregister (kprobeEnv 0).rollback (some false)) =
      some t ∧ UnregisterSafe timerModules false t ∧ t.registered true = true :=
  ⟨_, rfl, unregister_safe timerTracked_run rfl, rfl⟩

/-- Unregistration is not safe in general. -/
theorem not_unregister_safe :
    ¬ ∀ (desc : Bool → Module) (acts : List (Call Bool)) (t t' : Tracked Bool)
        (env : ℕ → HookEnv) (m : Bool), Run (lifeStep desc) Unguarded (lifeInit desc) acts t →
      lifeStep desc t (.unregister env (some m)) = some t' → UnregisterSafe desc m t' := by
  intro hclaim
  have hrun : Run (lifeStep twoModules) Unguarded (lifeInit twoModules)
      [.register (kprobeEnv 0) (some false), .register (kprobeEnv (-22)) (some true)] _ :=
    .of_exec freshTracked_lifeInit (fun _ _ _ => trivial) rfl
  have hsafe := hclaim twoModules _ _ _ (kprobeEnv 0).rollback false hrun rfl
  refine hsafe.unlinked ⟨false, 0⟩ rfl (.inl ⟨kprobePtraceAttach, ?_⟩)
  exact List.mem_singleton.mpr rfl

end SecDetector.Framework
