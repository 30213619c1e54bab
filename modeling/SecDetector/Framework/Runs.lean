import SecDetector.Framework.Attempt
import SecDetector.Framework.Moves

/-!
# Calls and runs

The framework with both kinds of users: modules that call it, and hooks that run preset
workflows.  A call or a run is one step; `synchronize_rcu` is what makes a run end before
the next call, so runs that overlap a call are not part of the model.

`ActInv` holds in every state that can be reached, whatever is called in whatever order:
the hook tables are consistent, pointers are never shared, and a `response_array` is
either the author's or an array of default responses.
-/

namespace SecDetector.Framework

open Lib

variable {M : Type*} [DecidableEq M] {desc : M → Module} {m : M} {s s' : State M}

/-! ## The system -/

/-- A call into the framework, or a run of a preset workflow. -/
inductive Act (M : Type*) where
  | call (call : Call M)
  | run (ptr : WorkflowPtr M) (env : RunEnv)

/-- A hook's list has the workflow. -/
def Hooks.reaches (hooks : Hooks M) (wf : Workflow) (ptr : WorkflowPtr M) : Bool :=
  (hooks.hookArray wf.hookType).contains ptr ||
    hooks.timerList.any fun timer => timer.callbackList.contains ptr

/-- A hook runs a preset workflow that is on its list. -/
def runStep (desc : M → Module) (s : State M) (ptr : WorkflowPtr M) (env : RunEnv) :
    Option (Dispatch × State M) :=
  match workflowAt desc ptr with
  | some wf =>
      if wf.workflowType = .preset ∧ s.hooks.reaches wf ptr = true then presetWorkflow ptr env s
      else none
  | none => none

/-- One step. -/
def actStep (desc : M → Module) (s : State M) : Act M → Option (State M)
  | .call call => step desc s call
  | .run ptr env => (runStep desc s ptr env).map Prod.snd

theorem Hooks.linked_of_reaches {hooks : Hooks M} {wf : Workflow} {ptr : WorkflowPtr M}
    (hreach : hooks.reaches wf ptr = true) : hooks.Linked ptr := by
  simp only [reaches, Bool.or_eq_true, List.contains_iff_mem, List.any_eq_true] at hreach
  exact hreach.imp (fun hmem => ⟨_, hmem⟩) id

/-- A run is a run of `preset_workflow`, for a linked workflow. -/
theorem runStep_spec {ptr : WorkflowPtr M} {env : RunEnv} {d : Dispatch}
    (hrun : runStep desc s ptr env = some (d, s')) :
    s.hooks.Linked ptr ∧ presetWorkflow ptr env s = some (d, s') := by
  unfold runStep at hrun
  split at hrun
  · split at hrun
    · rename_i hreach
      exact ⟨Hooks.linked_of_reaches hreach.2, hrun⟩
    · simp at hrun
  · simp at hrun

/-! ## What a call does -/

theorem publishModule_frame {id : ℕ} (hpub : publishModule m id s = some s') :
    s'.hooks = s.hooks ∧ s'.workflows = s.workflows ∧ s'.heap = s.heap ∧ s'.held = s.held := by
  obtain ⟨list, _, rfl⟩ := Option.map_eq_some_iff.mp hpub
  have hheld := held_of_update_entry s
    { s with
      modules := Function.update s.modules m { s.modules m with id := id }
      moduleList := list } m { s.modules m with id := id } rfl rfl
  exact ⟨rfl, rfl, rfl, hheld.trans (Function.update_eq_self (Holder.entry m) s.held)⟩

theorem publishModule_moves {live : Holder M → Prop} {id : ℕ}
    (hpub : publishModule m id s = some s') : Moves live s live s' := by
  obtain ⟨_, _, hheap, hheld⟩ := publishModule_frame hpub
  exact .frame hheap (fun h => .inl (congrFun hheld h)) fun _ hlive => hlive

omit [DecidableEq M] in
theorem Holder.module_of_workflow {h : Holder M} {ptr : WorkflowPtr M}
    (hptr : h.workflow = some ptr) : ptr.module = h.module := by
  cases h with
  | entry m => simp [workflow] at hptr
  | array q => exact congrArg WorkflowPtr.module (Option.some.inj hptr).symm
  | baseline q => exact congrArg WorkflowPtr.module (Option.some.inj hptr).symm

/-- What a call of `m` leaves alone: the workflows of other modules, and what these hold.  The
response arrays of `m` are padded at most. -/
structure CallEffect (desc : M → Module) (m : M) (s s' : State M) : Prop where
  moves : ∃ live, Moves (fun _ => True) s live s' ∧ ∀ h, h.module ≠ m → live h
  others : ∀ ptr, ptr.module ≠ m → s'.workflows ptr = s.workflows ptr
  arrays : ∀ ptr, (s'.workflows ptr).responseArray = (s.workflows ptr).responseArray ∨
    ∃ env, Pads desc env ptr (s.workflows ptr).responseArray (s'.workflows ptr).responseArray

/-- What an unregistration does, after moves that lead to its state. -/
theorem unregister_keeps {env : ℕ → HookEnv} {s₁ : State M} {live : Holder M → Prop}
    (hmoves : Moves (fun _ => True) s live s₁) (hlive : ∀ h, live h)
    (hunreg : secDetectorModuleUnregister desc env (some m) s₁ = some s') :
    ∃ live', Moves (fun _ => True) s live' s' ∧ ∀ h, h.module ≠ m → live' h := by
  have hreleases : Releases desc m s₁ live := ⟨fun _ => hlive _, fun _ k _ _ _ _ _ => hlive k⟩
  refine ⟨_, hmoves.trans (unregister_moves hreleases hunreg), fun h hm => ⟨hlive h, ?_, ?_⟩⟩
  · rintro rfl
    exact hm rfl
  · intro _ ptr wf hptr _ heq
    exact hm ((Holder.module_of_workflow hptr).symm.trans heq)

theorem unregister_effect {env : ℕ → HookEnv}
    (hunreg : secDetectorModuleUnregister desc env (some m) s = some s') :
    CallEffect desc m s s' where
  moves := unregister_keeps (Moves.refl _ s) (fun _ => trivial) hunreg
  others ptr _ := by rw [unregister_workflows hunreg]
  arrays ptr := .inl (by rw [unregister_workflows hunreg])

theorem register_effect {env : RegisterEnv} {ret : ℤ}
    (hreg : secDetectorModuleRegister desc env (some m) s = some (ret, s')) :
    CallEffect desc m s s' := by
  rcases register_cases hreg with ⟨_, _, rfl⟩ | ⟨_, idr, s₁, hattempt, hend⟩
  · exact ⟨⟨_, Moves.refl _ _, fun _ _ => trivial⟩, fun _ _ => rfl, fun _ => .inl rfl⟩
  · have harrays := registerAttempt_arrays hattempt
    have hmoves := (moves_moduleIdr (fun _ => True) s idr).trans
      (registerAttempt_moves (fun _ => True) hattempt)
    -- neither the rollback nor the publication writes to workflows
    have hafter : s'.workflows = s₁.workflows ∧ ∃ live, Moves (fun _ => True) s live s' ∧
        ∀ h : Holder M, h.module ≠ m → live h := by
      rcases hend with ⟨_, hunreg⟩ | ⟨_, hpub⟩
      · exact ⟨unregister_workflows hunreg, unregister_keeps hmoves (fun _ => .inl trivial) hunreg⟩
      · exact ⟨(publishModule_frame hpub).2.1, _, hmoves.trans (publishModule_moves hpub),
          fun _ _ => .inl trivial⟩
    obtain ⟨hworkflows, hafter⟩ := hafter
    refine ⟨hafter, fun ptr hm => ?_, fun ptr => ?_⟩
    · rw [hworkflows]
      exact harrays.others ptr (.inl hm)
    · rw [hworkflows]
      exact (harrays.padded ptr).imp_right fun hpads => ⟨env, hpads⟩

/-! ## The invariant -/

/-- The framework before any call: it has allocated no response array yet. -/
def actInit (desc : M → Module) (s : State M) : Prop :=
  Initial desc s ∧ ∀ ptr, (s.workflows ptr).responseArray.heapPtr = none

/-- What `response_array` of a workflow can be. -/
def ArrayOf (wf : Workflow) (array : ResponseArray) : Prop :=
  if wf.responseArrayLen = 0 then
    array = .null ∨ wf.workflowType = .preset ∧ ∃ ptr, array = .heap ptr defaultResponses
  else ∃ responses, array = .static responses ∧ responses.length = wf.responseArrayLen

/-- What holds in every reachable state. -/
structure ActInv (desc : M → Module) (s : State M) : Prop where
  frame : FrameworkInv desc s
  pointers : PointerInv s
  arrays : ∀ ptr wf, workflowAt desc ptr = some wf → ArrayOf wf (s.workflows ptr).responseArray

omit [DecidableEq M] in
theorem actInit.held_eq_none (hinit : actInit desc s) (h : Holder M) : s.held h = none := by
  cases h with
  | entry m => exact hinit.1.entry m
  | array ptr => exact hinit.2 ptr
  | baseline ptr => exact congrArg AnalyzeStatus.data (hinit.1.status ptr)

omit [DecidableEq M] in
theorem actInit.actInv (hinit : actInit desc s) : ActInv desc s := by
  refine ⟨hinit.1.frameworkInv, ⟨fun h ptr hptr => ?_, fun resource ptr _ => ?_,
    fun h h' ptr hptr => ?_⟩, fun ptr wf hwf => ?_⟩
  · simp [hinit.held_eq_none] at hptr
  · rw [hinit.1.heap]
    exact ⟨rfl, rfl⟩
  · simp [hinit.held_eq_none] at hptr
  · have hresponse := hinit.1.response ptr wf hwf
    unfold ArrayOf
    split at hresponse
    · rename_i hlen
      rw [if_pos hlen]
      exact .inl hresponse
    · rename_i hlen
      rw [if_neg hlen]
      exact hresponse

/-- Padding keeps the shape. -/
theorem ArrayOf.padded {wf : Workflow} {array : ResponseArray} (harray : ArrayOf wf array)
    (hpreset : wf.workflowType = .preset) (kmalloc : Bool) (fresh : ℕ) :
    ArrayOf wf (array.padded wf kmalloc fresh) := by
  unfold ArrayOf ResponseArray.padded at *
  split at harray
  · rename_i hlen
    rw [if_pos hlen, if_pos hlen]
    split
    · exact .inr ⟨hpreset, fresh, rfl⟩
    · exact harray
  · rename_i hlen
    obtain ⟨responses, rfl, hlength⟩ := harray
    rw [if_neg hlen, if_neg hlen]
    exact ⟨_, rfl, by rw [List.length_map, hlength]⟩

/-- A call keeps the pointers apart and the arrays in shape. -/
theorem ActInv.callEffect (hinv : ActInv desc s) (hframe : FrameworkInv desc s')
    (heffect : CallEffect desc m s s') : ActInv desc s' := by
  obtain ⟨live, hmoves, _⟩ := heffect.moves
  refine ⟨hframe, hmoves.pointerInv hinv.pointers, fun ptr wf hwf => ?_⟩
  have hold := hinv.arrays ptr wf hwf
  rcases heffect.arrays ptr with heq | ⟨env, wf', fresh, hwf', hpreset, heq⟩
  · rw [heq]
    exact hold
  · obtain rfl := Option.some.inj (hwf.symm.trans hwf')
    rw [heq]
    exact hold.padded hpreset _ _

/-- A run keeps the invariant. -/
theorem ActInv.run (hinv : ActInv desc s) {ptr : WorkflowPtr M} {env : RunEnv} {d : Dispatch}
    (hrun : presetWorkflow ptr env s = some (d, s')) : ActInv desc s' := by
  obtain ⟨_, hhooks, hlist, _, harrays⟩ := presetWorkflow_frame hrun
  have hmoves : Moves (fun _ => True) s (fun _ => True) s' := presetWorkflow_moves hrun
  refine ⟨⟨hhooks ▸ hinv.frame.hooks, hlist ▸ hinv.frame.list⟩,
    hmoves.pointerInv hinv.pointers, fun q wf hwf => ?_⟩
  rw [harrays]
  exact hinv.arrays q wf hwf

theorem ActInv.step {a : Act M} (hinv : ActInv desc s) (hstep : actStep desc s a = some s') :
    ActInv desc s' := by
  cases a with
  | run ptr env =>
      obtain ⟨⟨d, s'⟩, hrun, rfl⟩ := Option.map_eq_some_iff.mp hstep
      exact hinv.run (runStep_spec hrun).2
  | call call =>
      have hframe := hinv.frame.step hstep
      cases call with
      | register env module =>
          obtain ⟨⟨ret, s'⟩, hreg, rfl⟩ := Option.map_eq_some_iff.mp hstep
          cases module with
          | none =>
              obtain ⟨_, rfl⟩ := Prod.mk.inj (Option.some.inj hreg)
              exact hinv
          | some m => exact hinv.callEffect hframe (register_effect hreg)
      | unregister env module =>
          cases module with
          | none =>
              obtain rfl := Option.some.inj hstep
              exact hinv
          | some m => exact hinv.callEffect hframe (unregister_effect hstep)

theorem actInv_of_reachable (hreach : Reachable (actStep desc) (actInit desc) s) :
    ActInv desc s :=
  hreach.invariant (fun _ hinit => hinit.actInv) fun _ _ _ hinv hstep => hinv.step hstep

/-! ## The function switches

A module like that of the function switches, alone: save-check on a timer, with default
responses. -/

/-- The workflow of the function switches. -/
def switchWorkflow : Workflow := ⟨.preset, secDetectorTimer, 60, analyzePresetSaveCheck, 0⟩

def switchModule : Unit → Module := fun _ =>
  { workflowArray := some [switchWorkflow]
    workflowArrayLen := 1
    hasParameter := false
    length_eq := by simp }

theorem freshState_actInit : actInit switchModule freshState :=
  ⟨freshState_initial (by simp [switchModule, switchWorkflow]), fun _ => rfl⟩

/-- A round with one item; if it is the first, it needs memory for the baseline. -/
def switchRound (kmalloc : Bool) : RunEnv := ⟨1, kmalloc, 0, by simp⟩

/-- The state after its registration. -/
def switchRegistered : State Unit :=
  (step switchModule freshState (.register (kprobeEnv 0) (some ()))).getD freshState

end SecDetector.Framework
