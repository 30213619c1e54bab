import SecDetector.Framework.ManagerSpec
import SecDetector.Framework.Ownership

/-!
# What a registration does before it is decided

`registerAttempt` is the part of `secDetector_module_register` that can fail after the id is
taken: the workflow loop and the creation of the proc entry.  What follows is either the
rollback or the publication (`register_eq_attempt`).

An attempt is described three times: by what it links (`registerAttempt_links`), by the
resources it creates (`registerAttempt_moves`), and by what it makes of the workflows
(`registerAttempt_workflows`).
-/

namespace SecDetector.Framework

open Lib

variable {M : Type*} [DecidableEq M] {desc : M → Module} {m : M} {live : Holder M → Prop}

/-! ## The attempt -/

/-- The workflow loop and the proc entry. -/
def registerAttempt (desc : M → Module) (env : RegisterEnv) (m : M) (s : State M) :
    ℤ × State M :=
  let (ret, s) := registerWorkflows desc env m s
  if ret < 0 then (ret, s) else createProcEntry desc env m ret s

/-- An attempt stops in the loop, or it comes to the proc entry. -/
theorem registerAttempt_cases {env : RegisterEnv} {s s₁ : State M} {ret : ℤ}
    (hattempt : registerAttempt desc env m s = (ret, s₁)) :
    (ret < 0 ∧ registerWorkflows desc env m s = (ret, s₁)) ∨
      ∃ ret' s', 0 ≤ ret' ∧ registerWorkflows desc env m s = (ret', s') ∧
        createProcEntry desc env m ret' s' = (ret, s₁) := by
  unfold registerAttempt at hattempt
  cases hloop : registerWorkflows desc env m s with
  | mk ret' s' =>
      rw [hloop] at hattempt
      dsimp only at hattempt
      split at hattempt
      · rename_i hneg
        obtain ⟨rfl, rfl⟩ := Prod.mk.inj hattempt
        exact .inl ⟨hneg, rfl⟩
      · rename_i hpos
        exact .inr ⟨ret', s', not_lt.mp hpos, rfl, hattempt⟩

theorem register_of_no_id (desc : M → Module) (m : M) {env : RegisterEnv} {s : State M}
    (hid : ¬ IdAvailable env s) :
    ∃ ret < 0, secDetectorModuleRegister desc env (some m) s = some (ret, s) := by
  unfold secDetectorModuleRegister
  dsimp only
  split
  · exact ⟨_, by decide, rfl⟩
  · rename_i hmem
    cases halloc : s.moduleIdr.alloc m intMax with
    | none => exact ⟨_, by decide, rfl⟩
    | some result => exact absurd ⟨by simpa using hmem, Idr.lt_of_alloc halloc⟩ hid

/-- A registration with an id is an attempt, and then the rollback or the publication. -/
theorem register_eq_attempt (desc : M → Module) (m : M) {env : RegisterEnv} {s : State M}
    (hid : IdAvailable env s) :
    ∃ idr : Idr M, idr.entry =
        Function.update s.moduleIdr.entry s.moduleIdr.lowestFree (some m) ∧
      ∀ ret s₁, registerAttempt desc env m { s with moduleIdr := idr } = (ret, s₁) →
        secDetectorModuleRegister desc env (some m) s =
          if ret < 0 then (secDetectorModuleUnregister desc env.rollback (some m) s₁).map (ret, ·)
          else (publishModule m s.moduleIdr.lowestFree s₁).map (ret, ·) := by
  cases halloc : s.moduleIdr.alloc m intMax with
  | none => exact absurd hid.2 (not_lt.mpr (Idr.alloc_eq_none halloc))
  | some result =>
      obtain ⟨id, idr⟩ := result
      obtain ⟨rfl, _, hentry⟩ := Idr.alloc_spec halloc
      refine ⟨idr, hentry, fun ret s₁ hattempt => ?_⟩
      rw [secDetectorModuleRegister, if_neg (by simp [hid.1]), halloc]
      unfold registerAttempt at hattempt
      dsimp only at hattempt ⊢
      split at hattempt
      · rename_i hret
        obtain ⟨rfl, rfl⟩ := Prod.mk.inj hattempt
        rw [if_pos hret, if_pos hret]
      · rename_i hret
        rw [if_neg hret, hattempt]

/-- **The ways a registration ends**: without an id, with a rollback, or published. -/
theorem register_cases {env : RegisterEnv} {s s' : State M} {m : M} {ret : ℤ}
    (hreg : secDetectorModuleRegister desc env (some m) s = some (ret, s')) :
    (¬ IdAvailable env s ∧ ret < 0 ∧ s' = s) ∨
      IdAvailable env s ∧ ∃ idr s₁,
        registerAttempt desc env m { s with moduleIdr := idr } = (ret, s₁) ∧
          (ret < 0 ∧ secDetectorModuleUnregister desc env.rollback (some m) s₁ = some s' ∨
            0 ≤ ret ∧ publishModule m s.moduleIdr.lowestFree s₁ = some s') := by
  by_cases hid : IdAvailable env s
  · right
    obtain ⟨idr, _, hcases⟩ := register_eq_attempt desc m hid
    cases hattempt : registerAttempt desc env m { s with moduleIdr := idr } with
    | mk ret' s₁ =>
        rw [hcases ret' s₁ hattempt] at hreg
        refine ⟨hid, idr, s₁, ?_⟩
        by_cases hneg : ret' < 0
        · rw [if_pos hneg] at hreg
          obtain ⟨s₂, hunreg, hpair⟩ := Option.map_eq_some_iff.mp hreg
          obtain ⟨rfl, rfl⟩ := Prod.mk.inj hpair
          exact ⟨hattempt, .inl ⟨hneg, hunreg⟩⟩
        · rw [if_neg hneg] at hreg
          obtain ⟨s₂, hpub, hpair⟩ := Option.map_eq_some_iff.mp hreg
          obtain ⟨rfl, rfl⟩ := Prod.mk.inj hpair
          exact ⟨hattempt, .inr ⟨not_lt.mp hneg, hpub⟩⟩
  · left
    obtain ⟨ret', hneg, hnone⟩ := register_of_no_id desc m hid
    obtain ⟨rfl, rfl⟩ := Prod.mk.inj (Option.some.inj (hnone.symm.trans hreg))
    exact ⟨hid, hneg, rfl⟩

/-- The hook tables after an attempt. -/
theorem registerAttempt_links (env : RegisterEnv) {s s₁ : State M} {ret : ℤ}
    (hinv : HookInv desc s.hooks) (hattempt : registerAttempt desc env m s = (ret, s₁)) :
    HookInv desc s₁.hooks ∧ s₁.hooks.purge m = s.hooks.purge m ∧ s₁.moduleIdr = s.moduleIdr ∧
      s₁.moduleList = s.moduleList ∧ (∀ m', (s₁.modules m').id = (s.modules m').id) ∧
      (0 ≤ ret → ∀ ptr, s₁.hooks.Linked ptr ↔
        s.hooks.Linked ptr ∨ (ptr.module = m ∧ ∃ wf, workflowAt desc ptr = some wf)) := by
  obtain ⟨honly, hall⟩ := registerWorkflows_spec (m := m) env hinv
  rcases registerAttempt_cases hattempt with ⟨hneg, hstop⟩ | ⟨ret', s', hret', hdone, hcreate⟩
  · rw [hstop] at honly
    exact ⟨honly.inv, honly.purge_eq, honly.idr_eq, honly.list_eq,
      fun m' => by rw [honly.modules_eq], fun hret => absurd hneg (not_lt.mpr hret)⟩
  · rw [hdone] at honly hall
    obtain ⟨hhooks, hidr, hlist, hids⟩ := createProcEntry_frame (m := m) desc env ret' s'
    rw [hcreate] at hhooks hidr hlist hids
    refine ⟨by rw [hhooks]; exact honly.inv, by rw [hhooks]; exact honly.purge_eq,
      hidr.trans honly.idr_eq, hlist.trans honly.list_eq,
      fun m' => by rw [hids, honly.modules_eq], fun _ => ?_⟩
    rw [hhooks]
    exact hall hret'

/-! ## Response arrays -/

/-- The function of an entry after padding. -/
def Response.padded (response : Response) : Response :=
  if response.responseType < responseCustomization then
    { response with responseFunc := responseUnits response.responseType }
  else response

/-- What padding makes of `response_array`; `fresh` is the pointer that an allocation
would return. -/
def ResponseArray.padded (wf : Workflow) (kmalloc : Bool) (fresh : ℕ) (array : ResponseArray) :
    ResponseArray :=
  if wf.responseArrayLen = 0 then if kmalloc then .heap fresh defaultResponses else array
  else
    match array with
    | .static array => .static (array.map Response.padded)
    | .null => .null
    | .heap ptr array => .heap ptr array

/-- A collect unit after padding. -/
def Collect.padded (collect : Collect) : Collect :=
  if collect.collectType < collectCustomization then
    { collect with collectFunc := collectUnits collect.collectType }
  else collect

/-- `analyze_func` after padding. -/
def Workflow.paddedAnalyze (wf : Workflow) (func : Option AnalyzeFunc) : Option AnalyzeFunc :=
  if wf.analyzeType < analyzeCustomization then analyzeUnits wf.analyzeType else func

omit [DecidableEq M] in
/-- Padding in terms of the fields that matter here. -/
theorem padding_spec (wf : Workflow) (kmalloc : Bool) (vars : WorkflowVars M) (heap : Heap) :
    let (vars', heap') := secDetectorCollectAnalyzeResponseUnitPadding wf kmalloc vars heap
    vars'.responseArray = vars.responseArray.padded wf kmalloc heap.fresh ∧
      vars'.collectArray = vars.collectArray.map Collect.padded ∧
      vars'.analyzeFunc = wf.paddedAnalyze vars.analyzeFunc ∧
      vars'.analyzeStatus = vars.analyzeStatus ∧
      heap' = if wf.responseArrayLen = 0 ∧ kmalloc then (heap.create .responseArray).2
        else heap := by
  unfold secDetectorCollectAnalyzeResponseUnitPadding ResponseArray.padded
  dsimp only
  by_cases hlen : wf.responseArrayLen = 0
  · cases kmalloc <;> simp [hlen, Heap.create, Collect.padded, Workflow.paddedAnalyze]
  · cases vars.responseArray <;>
      simp [hlen, Response.padded, Collect.padded, Workflow.paddedAnalyze]

/-- The workflows whose padding allocates default responses. -/
def Workflow.UsesDefaults (wf : Workflow) : Prop :=
  wf.workflowType = .preset ∧ wf.responseArrayLen = 0

/-- The array at `ptr` is padded. -/
def Pads (desc : M → Module) (env : RegisterEnv) (ptr : WorkflowPtr M)
    (array array' : ResponseArray) : Prop :=
  ∃ wf fresh, workflowAt desc ptr = some wf ∧ wf.workflowType = .preset ∧
    array' = array.padded wf (env.kmalloc ptr.index) fresh

/-- What the stores before `insert_callback` make of a workflow. -/
structure Prepared (env : RegisterEnv) (i : ℕ) (wf : Workflow) (fresh : ℕ)
    (vars vars' : WorkflowVars M) : Prop where
  responses : vars'.responseArray = if wf.workflowType = .preset then
    vars.responseArray.padded wf (env.kmalloc i) fresh else vars.responseArray
  collects : vars'.collectArray = if wf.workflowType = .preset then
    vars.collectArray.map Collect.padded else vars.collectArray
  analyze : vars'.analyzeFunc = if wf.workflowType = .preset then
    wf.paddedAnalyze vars.analyzeFunc else vars.analyzeFunc
  status : vars'.analyzeStatus = vars.analyzeStatus

/-- The workflow at `ptr` is prepared. -/
def Prepares (desc : M → Module) (env : RegisterEnv) (ptr : WorkflowPtr M)
    (vars vars' : WorkflowVars M) : Prop :=
  ∃ wf fresh, workflowAt desc ptr = some wf ∧ Prepared env ptr.index wf fresh vars vars'

/-- The stores before `insert_callback`. -/
theorem prepareWorkflow_spec (env : RegisterEnv) (i : ℕ) (wf : Workflow) (s : State M) :
    ∃ vars heap, prepareWorkflow env m i wf s =
        { s with workflows := Function.update s.workflows ⟨m, i⟩ vars, heap := heap } ∧
      Prepared env i wf s.heap.fresh (s.workflows ⟨m, i⟩) vars ∧
      (wf.UsesDefaults ∧ env.kmalloc i = true ∧ heap = (s.heap.create .responseArray).2 ∨
        ¬ (wf.UsesDefaults ∧ env.kmalloc i = true) ∧ heap = s.heap) := by
  unfold prepareWorkflow
  dsimp only
  split
  · rename_i hpreset
    have hspec := padding_spec wf (env.kmalloc i)
      { s.workflows ⟨m, i⟩ with module := some m, runsPreset := true } s.heap
    cases hpad : secDetectorCollectAnalyzeResponseUnitPadding wf (env.kmalloc i)
      { s.workflows ⟨m, i⟩ with module := some m, runsPreset := true } s.heap with
    | mk vars heap =>
        rw [hpad] at hspec
        obtain ⟨harray, hcollects, hanalyze, hstatus, hheap⟩ := hspec
        refine ⟨vars, heap, rfl, ?_, ?_⟩
        · constructor
          · rwa [if_pos hpreset]
          · rwa [if_pos hpreset]
          · rwa [if_pos hpreset]
          · exact hstatus
        · rw [hheap, Workflow.UsesDefaults]
          by_cases hlen : wf.responseArrayLen = 0 <;> cases env.kmalloc i <;>
            simp [hpreset, hlen]
  · rename_i hpreset
    refine ⟨_, s.heap, rfl, ?_, .inr ⟨fun hdefaults => hpreset hdefaults.1.1, rfl⟩⟩
    constructor
    · rw [if_neg hpreset]
    · rw [if_neg hpreset]
    · rw [if_neg hpreset]
    · rfl

omit [DecidableEq M] in
/-- At the end of the array there are no more workflows. -/
theorem ArrayFrom.eq_none {i : ℕ} (harray : ArrayFrom desc m i []) {ptr : WorkflowPtr M}
    (hm : ptr.module = m) (hlow : i ≤ ptr.index) : workflowAt desc ptr = none := by
  have hend := harray (ptr.index - i)
  have hptr : (⟨m, i + (ptr.index - i)⟩ : WorkflowPtr M) = ptr := by
    rw [← hm, Nat.add_sub_cancel' hlow]
  rw [hptr] at hend
  exact hend.symm

/-- The workflows after the loop from index `i` on: it prepares only workflows of `m`, and all of
them if it runs to its end. -/
structure WorkflowsAfter (desc : M → Module) (env : RegisterEnv) (m : M) (i : ℕ) (s : State M)
    (ret : ℤ) (s' : State M) : Prop where
  others : ∀ ptr, ptr.module ≠ m ∨ ptr.index < i → s'.workflows ptr = s.workflows ptr
  prepared : ∀ ptr, s'.workflows ptr = s.workflows ptr ∨
    Prepares desc env ptr (s.workflows ptr) (s'.workflows ptr)
  all : 0 ≤ ret → ∀ ptr wf, ptr.module = m → i ≤ ptr.index → workflowAt desc ptr = some wf →
    Prepares desc env ptr (s.workflows ptr) (s'.workflows ptr)

omit [DecidableEq M] in
theorem ne_of_apart {i : ℕ} {ptr : WorkflowPtr M} (hptr : ptr.module ≠ m ∨ ptr.index < i) :
    ptr ≠ ⟨m, i⟩ := by
  rintro rfl
  simp at hptr

/-- One turn of the loop, and the turns after it. -/
theorem WorkflowsAfter.cons {env : RegisterEnv} {i : ℕ} {s s₁ s' : State M} {ret : ℤ}
    {vars : WorkflowVars M} (hworkflows : s₁.workflows = Function.update s.workflows ⟨m, i⟩ vars)
    (hfirst : Prepares desc env ⟨m, i⟩ (s.workflows ⟨m, i⟩) vars)
    (hrest : WorkflowsAfter desc env m (i + 1) s₁ ret s') :
    WorkflowsAfter desc env m i s ret s' := by
  obtain ⟨hothers, hprepared, hall⟩ := hrest
  -- later turns leave index `i` alone
  have hself := hothers ⟨m, i⟩ (.inr (Nat.lt_succ_self i))
  rw [hworkflows, Function.update_self] at hself
  rw [← hself] at hfirst
  refine ⟨fun ptr hptr => ?_, fun ptr => ?_, fun hret ptr wf hm hlow hwf => ?_⟩
  · rw [hothers ptr (hptr.imp_right Nat.lt_succ_of_lt), hworkflows,
      Function.update_of_ne (ne_of_apart hptr)]
  · by_cases hptr : ptr = ⟨m, i⟩
    · subst hptr
      exact .inr hfirst
    · have hafter := hprepared ptr
      rwa [hworkflows, Function.update_of_ne hptr] at hafter
  · by_cases hptr : ptr = ⟨m, i⟩
    · subst hptr
      exact hfirst
    · have hindex : i + 1 ≤ ptr.index := by
        refine Nat.lt_of_le_of_ne hlow fun heq => hptr ?_
        cases ptr
        simp_all
      have hafter := hall hret ptr wf hm hindex hwf
      rwa [hworkflows, Function.update_of_ne hptr] at hafter

theorem registerLoop_workflows (env : RegisterEnv) (wfs : List Workflow) :
    ∀ (i : ℕ) (ret : ℤ) (s : State M), ArrayFrom desc m i wfs →
      WorkflowsAfter desc env m i s (registerLoop env m i wfs ret s).1
        (registerLoop env m i wfs ret s).2 := by
  induction wfs with
  | nil =>
      intro i ret s harray
      refine ⟨fun _ _ => rfl, fun _ => .inl rfl, fun _ ptr wf hm hlow hwf => ?_⟩
      simp [harray.eq_none hm hlow] at hwf
  | cons wf wfs ih =>
      intro i ret s harray
      obtain ⟨vars, heap, hprep, hprepared, _⟩ := prepareWorkflow_spec (m := m) env i wf s
      rw [registerLoop, hprep]
      dsimp only
      split
      · -- the loop stops here
        rename_i hneg
        refine ⟨fun ptr hptr => Function.update_of_ne (ne_of_apart hptr) _ _, fun ptr => ?_,
          fun hret => absurd hneg (not_lt.mpr hret)⟩
        by_cases hptr : ptr = ⟨m, i⟩
        · subst hptr
          refine .inr ⟨wf, s.heap.fresh, harray.head, ?_⟩
          simpa using hprepared
        · exact .inl (Function.update_of_ne hptr _ _)
      · rw [Function.update_self, Function.update_idem]
        refine WorkflowsAfter.cons rfl ⟨wf, s.heap.fresh, harray.head, ?_⟩
          (ih (i + 1) _ _ harray.tail)
        exact ⟨hprepared.responses, hprepared.collects, hprepared.analyze, hprepared.status⟩

theorem createProcEntry_workflows (desc : M → Module) (m : M) (env : RegisterEnv) (ret : ℤ)
    (s : State M) :
    (createProcEntry desc env m ret s).2.workflows = s.workflows := by
  unfold createProcEntry
  split
  · split <;> rfl
  · rfl

/-- The workflows after an attempt. -/
theorem registerAttempt_workflows {env : RegisterEnv} {s s₁ : State M} {ret : ℤ}
    (hattempt : registerAttempt desc env m s = (ret, s₁)) :
    WorkflowsAfter desc env m 0 s ret s₁ := by
  obtain ⟨array, ret₀, harray, hloop⟩ := registerWorkflows_eq_loop desc env m s
  have hafter := registerLoop_workflows env array 0 ret₀ s harray
  rw [← hloop] at hafter
  rcases registerAttempt_cases hattempt with ⟨_, hstop⟩ | ⟨ret', s', hret, hdone, hentry⟩
  · rwa [hstop] at hafter
  · rw [hdone] at hafter
    have hsame := createProcEntry_workflows desc m env ret' s'
    rw [hentry] at hsame
    exact ⟨by rw [hsame]; exact hafter.others, by rw [hsame]; exact hafter.prepared,
      by rw [hsame]; exact fun _ => hafter.all hret⟩

/-- The response arrays after an attempt: it pads only arrays of `m`, and all of them if it
succeeds. -/
structure ArraysAfter (desc : M → Module) (env : RegisterEnv) (m : M) (i : ℕ) (s : State M)
    (ret : ℤ) (s' : State M) : Prop where
  others : ∀ ptr, ptr.module ≠ m ∨ ptr.index < i → s'.workflows ptr = s.workflows ptr
  padded : ∀ ptr, (s'.workflows ptr).responseArray = (s.workflows ptr).responseArray ∨
    Pads desc env ptr (s.workflows ptr).responseArray (s'.workflows ptr).responseArray
  all : 0 ≤ ret → ∀ ptr wf, ptr.module = m → i ≤ ptr.index → workflowAt desc ptr = some wf →
    wf.workflowType = .preset →
      Pads desc env ptr (s.workflows ptr).responseArray (s'.workflows ptr).responseArray

theorem registerAttempt_arrays {env : RegisterEnv} {s s₁ : State M} {ret : ℤ}
    (hattempt : registerAttempt desc env m s = (ret, s₁)) :
    ArraysAfter desc env m 0 s ret s₁ := by
  obtain ⟨hothers, hprepared, hall⟩ := registerAttempt_workflows hattempt
  refine ⟨hothers, fun ptr => ?_, fun hret ptr wf hm hlow hwf hpreset => ?_⟩
  · rcases hprepared ptr with hsame | ⟨wf, fresh, hwf, hprep⟩
    · exact .inl (congrArg WorkflowVars.responseArray hsame)
    · have hresponses := hprep.responses
      split at hresponses
      · rename_i hpreset
        exact .inr ⟨wf, fresh, hwf, hpreset, hresponses⟩
      · exact .inl hresponses
  · obtain ⟨wf', fresh, hwf', hprep⟩ := hall hret ptr wf hm hlow hwf
    obtain rfl := Option.some.inj (hwf.symm.trans hwf')
    have hresponses := hprep.responses
    rw [if_pos hpreset] at hresponses
    exact ⟨wf, fresh, hwf, hpreset, hresponses⟩

/-! ## Resources -/

theorem ResponseArray.heapPtr_padded_of_alloc {wf : Workflow} (hlen : wf.responseArrayLen = 0)
    (fresh : ℕ) (array : ResponseArray) :
    (array.padded wf true fresh).heapPtr = some fresh := by
  simp [padded, hlen, heapPtr]

theorem ResponseArray.heapPtr_padded_of_not {wf : Workflow} {kmalloc : Bool}
    (hnot : ¬ (wf.responseArrayLen = 0 ∧ kmalloc = true)) (fresh : ℕ) (array : ResponseArray) :
    (array.padded wf kmalloc fresh).heapPtr = array.heapPtr := by
  unfold padded
  split
  · rename_i hlen
    rw [if_neg fun halloc => hnot ⟨hlen, halloc⟩]
  · cases array <;> rfl

/-- The default responses that an attempt allocates from index `i` on. -/
def Allocates (desc : M → Module) (env : RegisterEnv) (m : M) (i : ℕ) (h : Holder M) : Prop :=
  ∃ ptr wf, h = .array ptr ∧ ptr.module = m ∧ i ≤ ptr.index ∧ workflowAt desc ptr = some wf ∧
    wf.UsesDefaults ∧ env.kmalloc ptr.index = true

theorem prepareWorkflow_moves (live : Holder M → Prop) (m : M) (env : RegisterEnv) (i : ℕ)
    (wf : Workflow) (s : State M) :
    Moves live s (fun k => live k ∨ k = .array ⟨m, i⟩ ∧ wf.UsesDefaults ∧ env.kmalloc i = true)
      (prepareWorkflow env m i wf s) := by
  obtain ⟨vars, heap, hprep, hprepared, hheap⟩ := prepareWorkflow_spec (m := m) env i wf s
  have hpadded := hprepared.responses
  rw [hprep]
  have hheld := held_of_update_array s
    { s with workflows := Function.update s.workflows ⟨m, i⟩ vars, heap := heap } ⟨m, i⟩ vars
    rfl rfl hprepared.status
  rcases hheap with ⟨hdefaults, halloc, rfl⟩ | ⟨hnot, rfl⟩
  · rw [if_pos hdefaults.1, halloc] at hpadded
    rw [hpadded, ResponseArray.heapPtr_padded_of_alloc hdefaults.2] at hheld
    refine (Moves.create (.array ⟨m, i⟩) rfl hheld).mono fun k hk => ?_
    exact hk.imp_right And.left
  · have hsame : vars.responseArray.heapPtr = s.held (.array ⟨m, i⟩) := by
      rw [hpadded]
      split
      · rename_i hpreset
        exact ResponseArray.heapPtr_padded_of_not (fun h => hnot ⟨⟨hpreset, h.1⟩, h.2⟩) _ _
      · rfl
    have hmoves : Moves live s live
        { s with workflows := Function.update s.workflows ⟨m, i⟩ vars, heap := s.heap } :=
      .update (.array ⟨m, i⟩) rfl hheld (.inl hsame)
    exact hmoves.mono fun k hk => hk.resolve_right fun h => hnot h.2

theorem registerLoop_moves (env : RegisterEnv) (wfs : List Workflow) :
    ∀ (i : ℕ) (ret : ℤ) (s : State M) (live : Holder M → Prop), ArrayFrom desc m i wfs →
      Moves live s
        (fun k => live k ∨ 0 ≤ (registerLoop env m i wfs ret s).1 ∧ Allocates desc env m i k)
        (registerLoop env m i wfs ret s).2 := by
  induction wfs with
  | nil =>
      intro i ret s live harray
      refine (Moves.refl live s).mono fun k hk => hk.resolve_right ?_
      rintro ⟨_, ptr, wf, rfl, hm, hlow, hwf, _⟩
      simp [harray.eq_none hm hlow] at hwf
  | cons wf wfs ih =>
      intro i ret s live harray
      have hprep := prepareWorkflow_moves live m env i wf s
      rw [registerLoop]
      dsimp only
      split
      · rename_i hneg
        refine hprep.trans (.frame rfl (fun _ => .inl rfl) fun k hk => .inl ?_)
        exact hk.resolve_right fun h => absurd hneg (not_lt.mpr h.1)
      · -- the id of the workflow is no resource
        have hid : ∀ (live' : Holder M → Prop) (s₁ : State M) (hooks : Hooks M),
            Moves live' s₁ live' { s₁ with
              hooks := hooks
              workflows := Function.update s₁.workflows ⟨m, i⟩
                { s₁.workflows ⟨m, i⟩ with id := i } } := by
          intro live' s₁ hooks
          exact .update (.array ⟨m, i⟩) rfl (held_of_update_array s₁ _ ⟨m, i⟩
            { s₁.workflows ⟨m, i⟩ with id := i } rfl rfl rfl) (.inl rfl)
        refine (hprep.trans ((hid _ _ _).trans (ih (i + 1) _ _ _ harray.tail))).mono fun k hk => ?_
        rcases hk with hk | ⟨hret, ptr, wf', rfl, hm, hlow, hwf', hdefaults, halloc⟩
        · exact .inl (.inl hk)
        · rcases hlow.eq_or_lt with rfl | hlt
          · -- the first workflow, whose array is there already
            have hptr : ptr = ⟨m, ptr.index⟩ := by rw [← hm]
            rw [hptr, harray.head, Option.some.injEq] at hwf'
            exact .inl (.inr ⟨congrArg _ hptr, hwf' ▸ hdefaults, halloc⟩)
          · exact .inr ⟨hret, ptr, wf', rfl, hm, hlt, hwf', hdefaults, halloc⟩

/-- The proc entry is created, or `parameter->entry` is cleared. -/
theorem createProcEntry_moves (desc : M → Module) (m : M) (live : Holder M → Prop)
    (env : RegisterEnv) (ret : ℤ) (s : State M) :
    Moves live s
      (fun k => live k ∨ 0 ≤ (createProcEntry desc env m ret s).1 ∧
        k = .entry m ∧ (desc m).hasParameter = true)
      (createProcEntry desc env m ret s).2 := by
  unfold createProcEntry
  split
  · split
    · have hheld := held_of_update_entry s
        { s with
          heap := (s.heap.create .procEntry).2
          modules := Function.update s.modules m
            { s.modules m with entry := some s.heap.fresh } }
        m { s.modules m with entry := some s.heap.fresh } rfl rfl
      exact (Moves.create (.entry m) rfl hheld).mono fun k hk => hk.imp_right fun h => h.2.1
    · have hheld := held_of_update_entry s
        { s with modules := Function.update s.modules m { s.modules m with entry := none } }
        m { s.modules m with entry := none } rfl rfl
      have hmoves : Moves live s live
          { s with modules := Function.update s.modules m { s.modules m with entry := none } } :=
        .update (.entry m) rfl hheld (.inr rfl)
      have hneg : ¬ (0 : ℤ) ≤ -eInval := by decide
      exact hmoves.mono fun k hk => hk.resolve_right fun h => hneg h.1
  · rename_i hparam
    exact (Moves.refl live s).mono fun k hk => hk.resolve_right fun h => hparam h.2.2

/-- What an attempt creates. -/
def Creates (desc : M → Module) (env : RegisterEnv) (m : M) (h : Holder M) : Prop :=
  Allocates desc env m 0 h ∨ h = .entry m ∧ (desc m).hasParameter = true

/-- An attempt releases nothing, and one that succeeds creates the proc entry and default
responses. -/
theorem registerAttempt_moves (live : Holder M → Prop) {env : RegisterEnv} {s s₁ : State M}
    {ret : ℤ} (hattempt : registerAttempt desc env m s = (ret, s₁)) :
    Moves live s (fun k => live k ∨ 0 ≤ ret ∧ Creates desc env m k) s₁ := by
  obtain ⟨array, ret₀, harray, heq⟩ := registerWorkflows_eq_loop desc env m s
  have hloop := registerLoop_moves env array 0 ret₀ s live harray
  rw [← heq] at hloop
  rcases registerAttempt_cases hattempt with ⟨hneg, hstop⟩ | ⟨ret', s', hret', hdone, hcreate⟩
  · rw [hstop] at hloop
    exact hloop.mono fun k hk => .inl (hk.resolve_right fun h => absurd hneg (not_lt.mpr h.1))
  · rw [hdone] at hloop
    have hentry := createProcEntry_moves desc m
      (fun k => live k ∨ 0 ≤ ret' ∧ Allocates desc env m 0 k) env ret' s'
    rw [hcreate] at hentry
    refine (hloop.trans hentry).mono fun k hk => ?_
    rcases hk with hk | ⟨hret, hallocates | hk⟩
    · exact .inl (.inl hk)
    · exact .inl (.inr ⟨hret', hallocates⟩)
    · exact .inr ⟨hret, hk⟩

end SecDetector.Framework
