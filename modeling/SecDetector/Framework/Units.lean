import SecDetector.Framework.Runs

/-!
# The units of a workflow

Padding copies the functions of a preset workflow out of `collect_units` and `analyze_units`, by
type.  Most entries of these tables are null, and nothing between the copy and the first
call looks at it; only the hook type of a workflow is checked (`insert_callback`).

`units_present_iff` says for which modules a registration leaves functions that can be
called.  What padding has written is never changed again: padding once more writes the same
(`Settled`), and nobody else writes there.
-/

namespace SecDetector.Framework

open Lib

variable {M : Type*} [DecidableEq M] {desc : M → Module} {m : M} {s s' : State M}
  {ptr : WorkflowPtr M} {wf : Workflow} {vars vars' : WorkflowVars M}

/-! ## Units -/

/-- The functions that a run calls are there. -/
structure UnitsPresent (vars : WorkflowVars M) : Prop where
  collects : ∀ collect ∈ vars.collectArray, collect.collectFunc ≠ none
  analyze : vars.analyzeFunc ≠ none

/-- The core has the unit, or its author brings one. -/
def Collect.Implemented (collect : Collect) : Prop :=
  if collect.collectType < collectCustomization then
    collect.collectType = collectTimeType ∨ collect.collectType = collectGlobalFunctionSwitch
  else collect.collectFunc ≠ none

/-- The units that a workflow names, before its registration. -/
structure Implemented (wf : Workflow) (vars : WorkflowVars M) : Prop where
  collects : ∀ collect ∈ vars.collectArray, collect.Implemented
  analyze : if wf.analyzeType < analyzeCustomization then wf.analyzeType = analyzePresetSaveCheck
    else vars.analyzeFunc ≠ none

/-- A run that comes to its end finds all functions. -/
theorem presetWorkflow_ne_none_iff {env : RunEnv} :
    presetWorkflow ptr env s ≠ none ↔ UnitsPresent (s.workflows ptr) := by
  unfold presetWorkflow
  dsimp only
  split
  · rename_i hcollects
    simp only [List.all_eq_true, Option.isSome_iff_ne_none] at hcollects
    rw [Ne, Option.map_eq_none_iff]
    exact ⟨fun hanalyze => ⟨hcollects, hanalyze⟩, UnitsPresent.analyze⟩
  · rename_i hcollects
    refine iff_of_false (fun h => h rfl) fun hpresent => hcollects ?_
    simp only [List.all_eq_true, Option.isSome_iff_ne_none]
    exact hpresent.collects

/-! ## Padding -/

theorem collectUnits_ne_none_iff {type : ℕ} :
    collectUnits type ≠ none ↔ type = collectTimeType ∨ type = collectGlobalFunctionSwitch := by
  unfold collectUnits
  split
  · rename_i hswitch
    simp [hswitch]
  · split
    · rename_i htime
      simp [htime]
    · rename_i hswitch htime
      simp [hswitch, htime]

theorem analyzeUnits_ne_none_iff {type : ℕ} :
    analyzeUnits type ≠ none ↔ type = analyzePresetSaveCheck := by
  unfold analyzeUnits
  split
  · rename_i htype
    simp [htype]
  · rename_i htype
    simp [htype]

theorem Collect.padded_ne_none_iff (collect : Collect) :
    collect.padded.collectFunc ≠ none ↔ collect.Implemented := by
  unfold padded Implemented
  split
  · exact collectUnits_ne_none_iff
  · rfl

@[simp] theorem Collect.padded_padded (collect : Collect) :
    collect.padded.padded = collect.padded := by
  unfold padded
  split
  · rfl
  · rfl

theorem Workflow.paddedAnalyze_ne_none_iff (wf : Workflow) (func : Option AnalyzeFunc) :
    wf.paddedAnalyze func ≠ none ↔
      if wf.analyzeType < analyzeCustomization then wf.analyzeType = analyzePresetSaveCheck
      else func ≠ none := by
  unfold paddedAnalyze
  split
  · exact analyzeUnits_ne_none_iff
  · rfl

/-- The same units. -/
structure SameUnits (vars vars' : WorkflowVars M) : Prop where
  collects : vars'.collectArray = vars.collectArray
  analyze : vars'.analyzeFunc = vars.analyzeFunc

omit [DecidableEq M] in
theorem SameUnits.trans {vars'' : WorkflowVars M} (hfst : SameUnits vars vars')
    (hsnd : SameUnits vars' vars'') : SameUnits vars vars'' :=
  ⟨hsnd.collects.trans hfst.collects, hsnd.analyze.trans hfst.analyze⟩

/-- Padding changes nothing any more. -/
structure Settled (wf : Workflow) (vars : WorkflowVars M) : Prop where
  collects : vars.collectArray.map Collect.padded = vars.collectArray
  analyze : wf.paddedAnalyze vars.analyzeFunc = vars.analyzeFunc

section Prepared

variable {env : RegisterEnv} {i fresh : ℕ}

omit [DecidableEq M] in
theorem Prepared.settled (hprep : Prepared env i wf fresh vars vars')
    (hpreset : wf.workflowType = .preset) : Settled wf vars' := by
  have hcollects := hprep.collects
  have hanalyze := hprep.analyze
  rw [if_pos hpreset] at hcollects hanalyze
  constructor
  · rw [hcollects, List.map_map]
    exact List.map_congr_left fun collect _ => collect.padded_padded
  · rw [hanalyze]
    unfold Workflow.paddedAnalyze
    split
    · rfl
    · rfl

omit [DecidableEq M] in
/-- Padding finds the units that are implemented, and no others. -/
theorem Prepared.unitsPresent_iff (hprep : Prepared env i wf fresh vars vars')
    (hpreset : wf.workflowType = .preset) : UnitsPresent vars' ↔ Implemented wf vars := by
  have hcollects := hprep.collects
  have hanalyze := hprep.analyze
  rw [if_pos hpreset] at hcollects hanalyze
  have hall : (∀ collect ∈ vars'.collectArray, collect.collectFunc ≠ none) ↔
      ∀ collect ∈ vars.collectArray, collect.Implemented := by
    rw [hcollects, List.forall_mem_map]
    exact forall₂_congr fun collect _ => collect.padded_ne_none_iff
  have hfunc := wf.paddedAnalyze_ne_none_iff vars.analyzeFunc
  rw [← hanalyze] at hfunc
  constructor
  · intro hpresent
    exact ⟨hall.mp hpresent.collects, hfunc.mp hpresent.analyze⟩
  · intro himpl
    exact ⟨hall.mpr himpl.collects, hfunc.mpr himpl.analyze⟩

omit [DecidableEq M] in
theorem Settled.sameUnits (hsettled : Settled wf vars)
    (hprep : Prepared env i wf fresh vars vars') : SameUnits vars vars' := by
  constructor
  · rw [hprep.collects, hsettled.collects, ite_self]
  · rw [hprep.analyze, hsettled.analyze, ite_self]

omit [DecidableEq M] in
theorem SameUnits.settled (hsame : SameUnits vars vars') (hsettled : Settled wf vars) :
    Settled wf vars' := by
  constructor
  · rw [hsame.collects]
    exact hsettled.collects
  · rw [hsame.analyze]
    exact hsettled.analyze

omit [DecidableEq M] in
theorem SameUnits.unitsPresent_iff (hsame : SameUnits vars vars') :
    UnitsPresent vars' ↔ UnitsPresent vars := by
  obtain ⟨hcollects, hanalyze⟩ := hsame
  constructor
  · intro hpresent
    exact ⟨hcollects ▸ hpresent.collects, hanalyze ▸ hpresent.analyze⟩
  · intro hpresent
    exact ⟨hcollects.symm ▸ hpresent.collects, hanalyze.symm ▸ hpresent.analyze⟩

end Prepared

/-! ## Steps -/

/-- What a registration makes of the workflows. -/
theorem register_workflows {env : RegisterEnv} {ret : ℤ}
    (hreg : secDetectorModuleRegister desc env (some m) s = some (ret, s')) :
    (∀ ptr, s'.workflows ptr = s.workflows ptr ∨
        Prepares desc env ptr (s.workflows ptr) (s'.workflows ptr)) ∧
      (0 ≤ ret → ∀ ptr wf, ptr.module = m → workflowAt desc ptr = some wf →
        Prepares desc env ptr (s.workflows ptr) (s'.workflows ptr)) := by
  rcases register_cases hreg with ⟨_, hneg, rfl⟩ | ⟨_, idr, s₁, hattempt, hend⟩
  · exact ⟨fun _ => .inl rfl, fun hret => absurd hneg (not_lt.mpr hret)⟩
  · obtain ⟨_, hprepared, hall⟩ := registerAttempt_workflows hattempt
    have hsame : s'.workflows = s₁.workflows := by
      rcases hend with ⟨_, hunreg⟩ | ⟨_, hpub⟩
      · exact unregister_workflows hunreg
      · exact (publishModule_frame hpub).2.1
    rw [hsame]
    exact ⟨hprepared, fun hret ptr wf hm hwf => hall hret ptr wf hm (Nat.zero_le _) hwf⟩

theorem presetWorkflow_sameUnits {env : RunEnv} {d : Dispatch}
    (hrun : presetWorkflow ptr env s = some (d, s')) (q : WorkflowPtr M) :
    SameUnits (s.workflows q) (s'.workflows q) := by
  unfold presetWorkflow at hrun
  dsimp only at hrun
  split at hrun
  · obtain ⟨func, _, heq⟩ := Option.map_eq_some_iff.mp hrun
    obtain ⟨_, rfl⟩ := Prod.mk.inj heq
    by_cases hq : q = ptr
    · subst hq
      exact ⟨by simp, by simp⟩
    · exact ⟨by simp [hq], by simp [hq]⟩
  · simp at hrun

/-- A step keeps the units of a workflow or pads them. -/
theorem units_of_step {a : Act M} (hstep : actStep desc s a = some s') (ptr : WorkflowPtr M) :
    SameUnits (s.workflows ptr) (s'.workflows ptr) ∨
      ∃ env, Prepares desc env ptr (s.workflows ptr) (s'.workflows ptr) := by
  have hrefl : ∀ t : State M, t.workflows = s.workflows →
      SameUnits (s.workflows ptr) (t.workflows ptr) := fun t ht => by rw [ht]; exact ⟨rfl, rfl⟩
  cases a with
  | run q env =>
      obtain ⟨⟨d, s'⟩, hrun, rfl⟩ := Option.map_eq_some_iff.mp hstep
      exact .inl (presetWorkflow_sameUnits (runStep_spec hrun).2 ptr)
  | call call =>
      cases call with
      | register env module =>
          obtain ⟨⟨ret, s'⟩, hreg, rfl⟩ := Option.map_eq_some_iff.mp hstep
          cases module with
          | none =>
              obtain ⟨_, rfl⟩ := Prod.mk.inj (Option.some.inj hreg)
              exact .inl (hrefl _ rfl)
          | some m =>
              rcases (register_workflows hreg).1 ptr with hsame | hprep
              · exact .inl (by rw [hsame]; exact ⟨rfl, rfl⟩)
              · exact .inr ⟨env, hprep⟩
      | unregister env module =>
          cases module with
          | none =>
              obtain rfl := Option.some.inj hstep
              exact .inl (hrefl _ rfl)
          | some m => exact .inl (hrefl _ (unregister_workflows hstep))

/-- Settled units stay as they are, whatever is called and run. -/
theorem Settled.run {acts : List (Act M)} {s₁ s₂ : State M}
    (hwf : workflowAt desc ptr = some wf) (hsettled : Settled wf (s₁.workflows ptr))
    (hrun : Run (actStep desc) Unguarded (· = s₁) acts s₂) :
    SameUnits (s₁.workflows ptr) (s₂.workflows ptr) := by
  have hstart : ∀ t, t = s₁ → SameUnits (s₁.workflows ptr) (t.workflows ptr) := by
    rintro t rfl
    exact ⟨rfl, rfl⟩
  apply hrun.invariant hstart
  intro t a t' hsame _ hstep
  rcases units_of_step hstep ptr with hnext | ⟨env, wf', fresh, hwf', hprep⟩
  · exact hsame.trans hnext
  · obtain rfl := Option.some.inj (hwf.symm.trans hwf')
    exact hsame.trans ((hsame.settled hsettled).sameUnits hprep)

/-! ## The result -/

/-- **When the units of a registered module exist.**  After a registration that succeeds, and
after any further calls and runs, the functions of its preset workflows are there if and
only if the units they named before were implemented. -/
theorem units_present_iff {env : RegisterEnv} {ret : ℤ} {acts : List (Act M)} {s₁ s₂ : State M}
    (hreg : secDetectorModuleRegister desc env (some m) s = some (ret, s₁)) (hret : 0 ≤ ret)
    (hrun : Run (actStep desc) Unguarded (· = s₁) acts s₂) :
    (∀ ptr wf, ptr.module = m → workflowAt desc ptr = some wf → wf.workflowType = .preset →
        UnitsPresent (s₂.workflows ptr)) ↔
      ∀ ptr wf, ptr.module = m → workflowAt desc ptr = some wf → wf.workflowType = .preset →
        Implemented wf (s.workflows ptr) := by
  refine forall₂_congr fun ptr wf => forall₃_congr fun hm hwf hpreset => ?_
  obtain ⟨wf', fresh, hwf', hprep⟩ := (register_workflows hreg).2 hret ptr wf hm hwf
  obtain rfl := Option.some.inj (hwf.symm.trans hwf')
  calc UnitsPresent (s₂.workflows ptr)
      ↔ UnitsPresent (s₁.workflows ptr) :=
        ((hprep.settled hpreset).run hwf hrun).unitsPresent_iff
    _ ↔ Implemented wf (s.workflows ptr) := hprep.unitsPresent_iff hpreset

/-! ## The function switches again -/

/-- The framework before the module of the function switches is known. -/
def collectState : State Unit :=
  { freshState with workflows := fun _ =>
      ⟨0, none, false, [⟨collectGlobalFunctionSwitch, none⟩], none, .null, ⟨0, none, 0, 0⟩⟩ }

/-- The state after its registration. -/
def collectRegistered : State Unit :=
  (step switchModule collectState (.register (kprobeEnv 0) (some ()))).getD collectState

/-- Its units exist. -/
theorem switch_units_present : UnitsPresent (collectRegistered.workflows ⟨(), 0⟩) := by
  have hreg : secDetectorModuleRegister switchModule (kprobeEnv 0) (some ()) collectState =
      some (0, collectRegistered) := rfl
  refine (units_present_iff hreg le_rfl (.start rfl)).mpr ?_ ⟨(), 0⟩ switchWorkflow rfl rfl rfl
  intro ptr wf _ hwf _
  have hanalyze : wf.analyzeType = analyzePresetSaveCheck := by
    obtain ⟨m, index⟩ := ptr
    cases index <;> simp_all [workflowAt, switchModule]
    simp [← hwf, switchWorkflow]
  constructor
  · intro collect hmem
    obtain rfl := List.mem_singleton.mp hmem
    exact .inr rfl
  · rw [if_pos (by rw [hanalyze]; decide)]
    exact hanalyze

/-- A workflow that names the analyze unit `ANALYZE_PRESET_FREQUENCY_RANGE`. -/
def frequencyModule : Unit → Module := fun _ =>
  { workflowArray := some [⟨.preset, secDetectorTimer, 60, 2, 0⟩]
    workflowArrayLen := 1
    hasParameter := false
    length_eq := by simp }

theorem freshState_initial_frequency : actInit frequencyModule freshState := by
  refine ⟨⟨rfl, rfl, rfl, fun _ => rfl, fun ptr wf hwf => ?_, fun _ => rfl, rfl⟩, fun _ => rfl⟩
  have hlen : wf.responseArrayLen = 0 := by
    obtain ⟨m, index⟩ := ptr
    cases index <;> simp_all [workflowAt, frequencyModule]
    simp [← hwf]
  rw [if_pos hlen]
  rfl

/-- A workflow is accepted although its unit does not exist. -/
theorem not_units_present :
    ¬ ∀ (desc : Unit → Module) (env : RegisterEnv) (s s₁ : State Unit) (ret : ℤ)
        (ptr : WorkflowPtr Unit) (wf : Workflow),
      Reachable (actStep desc) (actInit desc) s →
      secDetectorModuleRegister desc env (some ptr.module) s = some (ret, s₁) → 0 ≤ ret →
      workflowAt desc ptr = some wf → wf.workflowType = .preset →
      (∀ collect ∈ (s.workflows ptr).collectArray,
        collectCustomization ≤ collect.collectType → collect.collectFunc ≠ none) →
      (analyzeCustomization ≤ wf.analyzeType → (s.workflows ptr).analyzeFunc ≠ none) →
        UnitsPresent (s₁.workflows ptr) := by
  intro hclaim
  have hpresent := hclaim frequencyModule (kprobeEnv 0) freshState _ 0 ⟨(), 0⟩ _
    ⟨[], .start freshState_initial_frequency⟩ rfl le_rfl rfl rfl (by simp [freshState])
    (fun hcustom => absurd hcustom (by decide))
  exact hpresent.analyze rfl

end SecDetector.Framework
