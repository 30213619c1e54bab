import SecDetector.Lib.Run
import SecDetector.Framework.ManagerSpec

/-!
# The rollback of a failed registration

A registration that fails after `idr_alloc` calls `secDetector_module_unregister`
on its own module.  That function works from `module->id`, which the failing
path has not set: it still holds the value of an earlier registration, or zero.
So the rollback removes the id stored under that number, which can be another
module's, and leaves the id just allocated in the table.

`register_failure_atomic_iff` is the exact condition under which nothing of this
shows: the stale id happens to be the allocated one, no workflow of the module
was linked before the call, and the module was never on the module list (the
condition in front of `list_del_rcu` does not tell a deleted node from a linked
one).
-/

namespace SecDetector.Framework

open Lib

variable {M : Type*} [DecidableEq M] {desc : M → Module}

/-! ## The invariant along runs -/

/-- The invariant of the hook tables and of the module list. -/
structure FrameworkInv (desc : M → Module) (s : State M) : Prop where
  hooks : HookInv desc s.hooks
  list : s.moduleList.NextLive

omit [DecidableEq M] in
theorem Initial.frameworkInv {s : State M} (hinit : Initial desc s) : FrameworkInv desc s := by
  constructor
  · rw [hinit.hooks]
    exact ⟨fun _ => rfl, fun _ => rfl, by simp, by simp, by simp, by simp, by simp, by simp⟩
  · rw [hinit.list]
    exact ListMem.nextLive_init

omit [DecidableEq M] in
/-- In the beginning nothing is linked. -/
theorem Initial.not_linked {s : State M} (hinit : Initial desc s) (ptr : WorkflowPtr M) :
    ¬ s.hooks.Linked ptr := by
  rw [hinit.hooks]
  intro hlinked
  rcases hlinked with ⟨t, hmem⟩ | ⟨timer, htimer, _⟩
  · exact absurd hmem List.not_mem_nil
  · exact absurd htimer List.not_mem_nil

theorem unlinkModule_nextLive {m : M} {s s' : State M} (hlive : s.moduleList.NextLive)
    (h : unlinkModule m s = some s') : s'.moduleList.NextLive := by
  unfold unlinkModule at h
  split at h
  · rename_i hguard
    obtain ⟨list, hdel, rfl⟩ := Option.map_eq_some_iff.mp h
    exact hlive.delRcu hguard.1 hdel
  · obtain rfl := Option.some.inj h
    exact hlive

theorem FrameworkInv.unregister {env : ℕ → HookEnv} {module : Option M} {s s' : State M}
    (hinv : FrameworkInv desc s)
    (hstep : secDetectorModuleUnregister desc env module s = some s') : FrameworkInv desc s' := by
  cases module with
  | none =>
      obtain rfl := Option.some.inj hstep
      exact hinv
  | some m =>
      obtain ⟨s₁, heq, hhooks, _, hlist, _⟩ := unregister_eq_unlinkModule (m := m) hinv.hooks env
      rw [heq] at hstep
      refine ⟨?_, unlinkModule_nextLive (by rw [hlist]; exact hinv.list) hstep⟩
      rw [(unlinkModule_frame hstep).1, hhooks]
      split
      · exact hinv.hooks
      · exact hinv.hooks.restrict _

/-- No call breaks the invariant. -/
theorem FrameworkInv.step {call : Call M} {s s' : State M} (hinv : FrameworkInv desc s)
    (hstep : step desc s call = some s') : FrameworkInv desc s' := by
  cases call with
  | unregister env module => exact hinv.unregister hstep
  | register env module =>
      obtain ⟨⟨ret, s''⟩, hreg, rfl⟩ := Option.map_eq_some_iff.mp hstep
      cases module with
      | none =>
          obtain ⟨rfl, rfl⟩ := Prod.mk.inj (Option.some.inj hreg)
          exact hinv
      | some m =>
          have houtcome := register_outcome (m := m) env hinv.hooks
          rw [hreg] at houtcome
          generalize hresult : some (ret, s'') = result at houtcome
          cases houtcome with
          | noId ret' hret hid =>
              obtain ⟨rfl, rfl⟩ := Prod.mk.inj (Option.some.inj hresult)
              exact hinv
          | failed ret' hret hid s₁ hidr hinv₁ hpurge hlist hids =>
              -- the rollback is an unregistration that starts in the state left behind
              obtain ⟨s₂, hunreg, heq⟩ := Option.map_eq_some_iff.mp hresult.symm
              obtain ⟨rfl, rfl⟩ := Prod.mk.inj heq
              exact FrameworkInv.unregister ⟨hinv₁, by rw [hlist]; exact hinv.list⟩ hunreg
          | registered ret' hret hid s₁ hidr hinv₁ hlinked hlist hids =>
              obtain ⟨s₂, hpub, heq⟩ := Option.map_eq_some_iff.mp hresult.symm
              obtain ⟨rfl, rfl⟩ := Prod.mk.inj heq
              obtain ⟨list, hadd, rfl⟩ := Option.map_eq_some_iff.mp hpub
              obtain ⟨list', hadd', hlive⟩ := hinv.list.addRcu m
              rw [hlist, hadd', Option.some.injEq] at hadd
              exact ⟨hinv₁, hadd ▸ hlive⟩

/-- The invariant holds in every reachable state. -/
theorem frameworkInv_of_reachable {s : State M}
    (hreach : Reachable (step desc) (Initial desc) s) : FrameworkInv desc s :=
  hreach.invariant (fun _ hinit => hinit.frameworkInv) fun _ _ _ hinv hstep => hinv.step hstep

/-! ## Atomic failure -/

/-- The registration does not succeed. -/
def RegisterFails (desc : M → Module) (env : RegisterEnv) (module : Option M) (s : State M) :
    Prop :=
  ∀ ret s', secDetectorModuleRegister desc env module s = some (ret, s') → ret < 0

/-- The id table, the hook and timer lists and the module list are the same. -/
structure SameTables (s s' : State M) : Prop where
  idr : s'.moduleIdr.entry = s.moduleIdr.entry
  hookArray : s'.hooks.hookArray = s.hooks.hookArray
  timerList : s'.hooks.timerList = s.hooks.timerList
  moduleList : s'.moduleList = s.moduleList

/-- The registration returns an error and leaves the tables as they were. -/
def FailsAtomically (desc : M → Module) (env : RegisterEnv) (module : Option M) (s : State M) :
    Prop :=
  ∃ ret s', secDetectorModuleRegister desc env module s = some (ret, s') ∧ ret < 0 ∧
    SameTables s s'

/-- The circumstances in which the rollback of a failed registration is exact: it is
not needed, or `module->id` is the id that `idr_alloc` gives, no workflow of the
module is linked, and its list node does not look linked. -/
def RollbackExact (env : RegisterEnv) (module : Option M) (s : State M) : Prop :=
  ∀ m, module = some m → IdAvailable env s →
    (s.modules m).id = s.moduleIdr.lowestFree ∧
      (∀ ptr, s.hooks.Linked ptr → ptr.module ≠ m) ∧
      ¬ onModuleList m (s.moduleList.node m)

omit [DecidableEq M] in
/-- Tables with the same lists are the same under the hook invariant. -/
theorem HookInv.eq_of_lists {hooks hooks' : Hooks M} (hinv : HookInv desc hooks)
    (hinv' : HookInv desc hooks') (hhook : hooks'.hookArray = hooks.hookArray)
    (htimer : hooks'.timerList = hooks.timerList) : hooks' = hooks := by
  ext1
  · exact hhook
  · exact htimer
  · exact funext fun t => by rw [hinv.kprobe_eq, hinv'.kprobe_eq, hhook]
  · exact funext fun t => by rw [hinv.tracepoint_eq, hinv'.tracepoint_eq]

/-- The rollback after a failure in the state `s₁` restores the tables of `s` exactly
if `module->id` is the allocated id, no workflow of the module was linked, and the
module is not taken off the list. -/
theorem rollback_sameTables_iff {m : M} {s s₁ : State M} (env : ℕ → HookEnv)
    (hinv : HookInv desc s.hooks)
    (hidr : s₁.moduleIdr.entry =
      Function.update s.moduleIdr.entry s.moduleIdr.lowestFree (some m))
    (hinv₁ : HookInv desc s₁.hooks) (hpurge : s₁.hooks.purge m = s.hooks.purge m)
    (hlist : s₁.moduleList = s.moduleList) (hid : (s₁.modules m).id = (s.modules m).id) :
    (∃ s', secDetectorModuleUnregister desc env (some m) s₁ = some s' ∧ SameTables s s') ↔
      (s.modules m).id = s.moduleIdr.lowestFree ∧
        (∀ ptr, s.hooks.Linked ptr → ptr.module ≠ m) ∧
        ¬ onModuleList m (s.moduleList.node m) := by
  obtain ⟨s₂, heq, hhooks₂, hidr₂, hlist₂, _⟩ := unregister_eq_unlinkModule (m := m) hinv₁ env
  rw [hidr, hid] at hidr₂ hhooks₂
  have hfree := s.moduleIdr.entry_lowestFree
  constructor
  · intro hrestored
    obtain ⟨s', hunreg, hsame⟩ := hrestored
    rw [heq] at hunreg
    obtain ⟨hhooks, hidr', _, hguard⟩ := unlinkModule_frame hunreg
    -- the allocated id is free again only if it is the one removed
    have hidEq : (s.modules m).id = s.moduleIdr.lowestFree := by
      by_contra hne
      have hleak : s'.moduleIdr.entry s.moduleIdr.lowestFree = some m := by
        rw [hidr', hidr₂, Function.update_of_ne (Ne.symm hne), Function.update_self]
      rw [hsame.idr, hfree] at hleak
      simp at hleak
    rw [hidEq, Function.update_self, if_neg (by simp), hpurge] at hhooks₂
    refine ⟨hidEq, hinv.purge_eq_self_iff.mp ?_, ?_⟩
    · apply HookInv.eq_of_lists hinv (hinv.restrict _)
      · show (s.hooks.purge m).hookArray = s.hooks.hookArray
        rw [← hhooks₂, ← hhooks, hsame.hookArray]
      · show (s.hooks.purge m).timerList = s.hooks.timerList
        rw [← hhooks₂, ← hhooks, hsame.timerList]
    · rw [← hlist, ← hlist₂]
      exact hguard.mp (hsame.moduleList.trans (hlist₂.trans hlist).symm)
  · intro hexact
    obtain ⟨hidEq, hnone, hguard⟩ := hexact
    rw [hidEq, Function.update_self, if_neg (by simp), hpurge,
      hinv.purge_eq_self_iff.mpr hnone] at hhooks₂
    rw [hidEq, Function.update_idem, ← hfree, Function.update_eq_self] at hidr₂
    refine ⟨s₂, ?_, hidr₂, by rw [hhooks₂], by rw [hhooks₂], hlist₂.trans hlist⟩
    rw [heq, unlinkModule_of_not (by rw [hlist₂, hlist]; exact hguard)]

/-- **When a failed registration is atomic.**  In every reachable state, a
registration that fails leaves the id table, the hook and timer lists and the
module list as they were exactly if the rollback is not needed or `module->id`
is already the allocated id, no workflow of the module is linked, and its list
node does not look linked. -/
theorem register_failure_atomic_iff {s : State M} {env : RegisterEnv} {module : Option M}
    (hreach : Reachable (step desc) (Initial desc) s) (hfails : RegisterFails desc env module s) :
    FailsAtomically desc env module s ↔ RollbackExact env module s := by
  have hframe := frameworkInv_of_reachable hreach
  have hinv := hframe.hooks
  cases module with
  | none =>
      -- a null module is refused before anything is touched
      exact iff_of_true ⟨-eInval, s, rfl, by decide, rfl, rfl, rfl, rfl⟩ (by simp [RollbackExact])
  | some m =>
      have hexact : RollbackExact env (some m) s ↔ (IdAvailable env s →
          (s.modules m).id = s.moduleIdr.lowestFree ∧
            (∀ ptr, s.hooks.Linked ptr → ptr.module ≠ m) ∧
            ¬ onModuleList m (s.moduleList.node m)) := by simp [RollbackExact]
      have houtcome := register_outcome (m := m) env hinv
      rw [hexact]
      unfold RegisterFails at hfails
      unfold FailsAtomically
      generalize secDetectorModuleRegister desc env (some m) s = result at hfails houtcome ⊢
      cases houtcome with
      | noId ret hret hid =>
          exact iff_of_true ⟨ret, s, rfl, hret, rfl, rfl, rfl, rfl⟩ fun h => absurd h hid
      | failed ret hret hid s₁ hidr hinv₁ hpurge hlist hids =>
          rw [imp_iff_right hid,
            ← rollback_sameTables_iff env.rollback hinv hidr hinv₁ hpurge hlist (hids m)]
          constructor
          · intro hatomic
            obtain ⟨ret', s', heq, _, hsame⟩ := hatomic
            obtain ⟨s₂, hunreg, heq⟩ := Option.map_eq_some_iff.mp heq
            obtain ⟨_, rfl⟩ := Prod.mk.inj heq
            exact ⟨s₂, hunreg, hsame⟩
          · intro hrestored
            obtain ⟨s', hunreg, hsame⟩ := hrestored
            exact ⟨ret, s', by rw [hunreg]; rfl, hret, hsame⟩
      | registered ret hret hid s₁ hidr hinv₁ hlinked hlist hids =>
          obtain ⟨list, hadd, _⟩ := hframe.list.addRcu m
          rw [publishModule, hlist, hadd] at hfails
          exact absurd (hfails ret _ rfl) (not_lt.mpr hret)

/-! ## A stolen id

Two modules with one kprobe workflow each, on different hooks.  The first is
registered and gets the id 0.  The registration of the second fails in
`register_kprobe`; its `module->id` is still 0, so the rollback removes the id of
the first, and the id 1 stays allocated. -/

/-- The framework with zero-initialised modules. -/
def freshState : State M where
  moduleIdr := Idr.empty
  hooks := ⟨fun _ => [], [], fun _ => false, fun _ => false⟩
  moduleList := ListMem.init
  modules _ := ⟨0, none⟩
  workflows _ := ⟨0, none, false, [], none, .null, ⟨0, none, 0, 0⟩⟩
  heap := ⟨0, []⟩

/-- A kprobe workflow with its own handler. -/
def kprobeWorkflow (hookType : ℕ) : Workflow :=
  ⟨.customization, hookType, 0, analyzeCustomization, 0⟩

/-- A module with one kprobe workflow. -/
def kprobeModule (hookType : ℕ) : Module where
  workflowArray := some [kprobeWorkflow hookType]
  workflowArrayLen := 1
  hasParameter := false
  length_eq := by simp

/-- The two modules. -/
def twoModules : Bool → Module
  | false => kprobeModule kprobePtraceAttach
  | true => kprobeModule kprobeDoPipe2

/-- An environment in which `register_kprobe` returns `ret` and all else succeeds. -/
def kprobeEnv (ret : ℤ) : RegisterEnv where
  idrNoMem := false
  hook _ := ⟨ret, 0, 0, true⟩
  kmalloc _ := true
  procCreate := true
  rollback _ := ⟨0, 0, 0, true⟩

omit [DecidableEq M] in
theorem freshState_initial {desc : M → Module}
    (hdefault : ∀ m, ∀ array ∈ (desc m).workflowArray, ∀ wf ∈ array, wf.responseArrayLen = 0) :
    Initial desc freshState where
  idr := rfl
  hooks := rfl
  list := rfl
  entry _ := rfl
  response := by
    intro ptr wf hwf
    obtain ⟨array, harray, hget⟩ := Option.bind_eq_some_iff.mp hwf
    rw [if_pos (hdefault _ array harray wf (List.mem_of_getElem? hget))]
    rfl
  status _ := rfl
  heap := rfl

theorem twoModules_initial : Initial twoModules freshState :=
  freshState_initial (by simp [twoModules, kprobeModule, kprobeWorkflow])

/-- The state after the registration of the first module. -/
def firstRegistered : State Bool :=
  (step twoModules freshState (.register (kprobeEnv 0) (some false))).getD freshState

theorem firstRegistered_reachable :
    Reachable (step twoModules) (Initial twoModules) firstRegistered :=
  ⟨[.register (kprobeEnv 0) (some false)], .of_exec twoModules_initial (fun _ _ _ => trivial) rfl⟩

/-- The very first registration fails atomically: the id 0 is the right one. -/
theorem register_failure_atomic_fresh :
    FailsAtomically twoModules (kprobeEnv (-22)) (some false) freshState := by
  refine (register_failure_atomic_iff ⟨[], .start twoModules_initial⟩ ?_).mpr ?_
  · intro ret s' heq
    obtain ⟨rfl, _⟩ := Prod.mk.inj (Option.some.inj heq)
    decide
  · intro m _ _
    refine ⟨rfl, ?_, by simp [onModuleList, freshState, ListMem.init]⟩
    intro ptr hlinked
    exact absurd hlinked (twoModules_initial.not_linked ptr)

/-- A failed registration is not atomic in general: here the first module loses its
id to the rollback of the second. -/
theorem not_register_failure_atomic :
    ¬ ∀ (desc : Bool → Module) (s : State Bool) (env : RegisterEnv) (module : Option Bool),
      Reachable (step desc) (Initial desc) s → RegisterFails desc env module s →
        FailsAtomically desc env module s := by
  intro hclaim
  have hfails : RegisterFails twoModules (kprobeEnv (-22)) (some true) firstRegistered := by
    intro ret s' heq
    obtain ⟨rfl, _⟩ := Prod.mk.inj (Option.some.inj heq)
    decide
  obtain ⟨ret, s', heq, _, hsame⟩ :=
    hclaim twoModules firstRegistered _ _ firstRegistered_reachable hfails
  obtain ⟨_, rfl⟩ := Prod.mk.inj (Option.some.inj heq)
  have hid := congrFun hsame.idr 0
  revert hid
  decide

end SecDetector.Framework
