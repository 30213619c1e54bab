import SecDetector.Framework.Runs

/-!
# Response dispatch

`preset_workflow` stores the `int` of the analysis in a `uint32_t` and uses it as an index.
Nothing between the two looks at its sign, at the length of the array, or at the entry.

`dispatch_safe_iff` says when the call is the right one.  For default responses the
result has to be one of the three units that exist, and the array has to be there; for an
author's array its entry at the result has to be of that type and have a function.
-/

namespace SecDetector.Framework

open Lib

variable {M : Type*} [DecidableEq M] {desc : M → Module} {m : M} {s s' : State M}
  {ptr : WorkflowPtr M}

/-! ## Safety -/

/-- No call for a negative result, and otherwise the call of the response of that type. -/
def DispatchSafe (r : ℤ) : Dispatch → Prop
  | .skipped => r < 0
  | .outside | .nullFunc => False
  | .calls response _ => 0 ≤ r ∧ (response.responseType : ℤ) = r

/-- What `wf->analyze_func` returns in a run. -/
def analysisResult (ptr : WorkflowPtr M) (env : RunEnv) (s : State M) : ℤ :=
  match (s.workflows ptr).analyzeFunc with
  | some func => (func.call env (s.workflows ptr).analyzeStatus s.heap).1
  | none => 0

/-- An array of default responses is there. -/
def HasDefaults (s : State M) (ptr : WorkflowPtr M) : Prop :=
  ∃ array, s.held (.array ptr) = some array ∧ s.heap.Live .responseArray array

/-- The results that are dispatched to their response, for a workflow that is registered in
the state `s`. -/
def Dispatchable (env : RegisterEnv) (s : State M) (ptr : WorkflowPtr M) (wf : Workflow)
    (r : ℤ) : Prop :=
  0 ≤ r ∧
    if wf.responseArrayLen = 0 then
      r ≤ responseKill ∧ (env.kmalloc ptr.index = true ∨ HasDefaults s ptr)
    else
      ∃ array response, (s.workflows ptr).responseArray = .static array ∧
        array[r.toNat]? = some response ∧ (response.responseType : ℤ) = r ∧
        if response.responseType < responseCustomization then response.responseType ≤ responseKill
        else response.responseFunc ≠ none

/-- The calls of other modules, and runs. -/
def Spares (m : M) (_ : State M) : Act M → Prop
  | .call (.register _ module) | .call (.unregister _ module) => module ≠ some m
  | .run _ _ => True

/-! ## The call -/

theorem responseId_of_nonneg {r : ℤ} (hnonneg : 0 ≤ r) (hint : r < 2 ^ 31) :
    responseId r = r.toNat := by
  rw [responseId, Int.emod_eq_of_lt hnonneg (by omega)]

/-- The call through an array whose entries are known. -/
theorem dispatch_safe_of_entries {heap : Heap} {array : ResponseArray} {entries : List Response}
    (hentries : array.entries heap = some entries) {r : ℤ} (hint : -2 ^ 31 ≤ r ∧ r < 2 ^ 31) :
    DispatchSafe r (dispatch heap array r) ↔
      0 ≤ r ∧ ∃ response, entries[r.toNat]? = some response ∧
        (response.responseType : ℤ) = r ∧ response.responseFunc ≠ none := by
  rw [dispatch, if_pos (Nat.zero_le _), hentries]
  by_cases hnonneg : 0 ≤ r
  · rw [Option.bind_some, responseId_of_nonneg hnonneg hint.2]
    cases hentry : entries[r.toNat]? with
    | none => simp [DispatchSafe]
    | some response =>
        cases hfunc : response.responseFunc with
        | none => simp [DispatchSafe, hfunc]
        | some func => simp [DispatchSafe, hfunc, hnonneg]
  · -- the test of the sign is lost, so the call is attempted
    refine iff_of_false (fun hsafe => ?_) fun h => hnonneg h.1
    split at hsafe
    · exact hsafe
    · split at hsafe
      · exact hsafe
      · exact hnonneg hsafe.1

theorem not_dispatch_safe_of_no_entries {heap : Heap} {array : ResponseArray}
    (hentries : array.entries heap = none) (r : ℤ) :
    ¬ DispatchSafe r (dispatch heap array r) := by
  rw [dispatch, if_pos (Nat.zero_le _), hentries]
  exact id

theorem responseUnits_ne_none_iff {type : ℕ} : responseUnits type ≠ none ↔ type ≤ responseKill := by
  unfold responseUnits responseOk responseReport responseKill
  split
  · simp_all
  · split
    · simp_all
    · split
      · simp_all
      · simp
        omega

/-- The entries of the default responses. -/
theorem defaultResponses_entry {k : ℕ} :
    (∃ response, defaultResponses[k]? = some response ∧ response.responseType = k ∧
      response.responseFunc ≠ none) ↔ k ≤ responseKill := by
  rw [← responseUnits_ne_none_iff]
  constructor
  · intro hentry
    obtain ⟨response, hget, htype, hfunc⟩ := hentry
    obtain ⟨hlt, rfl⟩ := List.getElem?_eq_some_iff.mp hget
    simpa [defaultResponses] using hfunc
  · intro hunit
    have hlt : k < nrResponse := by
      have hle := responseUnits_ne_none_iff.mp hunit
      unfold responseKill at hle
      unfold nrResponse
      omega
    exact ⟨⟨k, responseUnits k⟩, by simp [defaultResponses, hlt], rfl, hunit⟩

omit [DecidableEq M] in
theorem dispatch_defaults_safe_iff (hinv : ActInv desc s) {wf : Workflow}
    (hwf : workflowAt desc ptr = some wf) (hlen : wf.responseArrayLen = 0) {r : ℤ}
    (hint : -2 ^ 31 ≤ r ∧ r < 2 ^ 31) :
    DispatchSafe r (dispatch s.heap (s.workflows ptr).responseArray r) ↔
      0 ≤ r ∧ r ≤ responseKill ∧ HasDefaults s ptr := by
  have harray := hinv.arrays ptr wf hwf
  rw [ArrayOf, if_pos hlen] at harray
  rcases harray with hnull | ⟨_, array, hheap⟩
  · refine iff_of_false ?_ fun h => ?_
    · exact not_dispatch_safe_of_no_entries (by rw [hnull]; rfl) r
    · obtain ⟨_, hheld, _⟩ := h.2.2
      simp [State.held, hnull, ResponseArray.heapPtr] at hheld
  · have hheld : s.held (.array ptr) = some array := by rw [State.held, hheap]; rfl
    have hdefaults : HasDefaults s ptr ↔ s.heap.Live .responseArray array := by
      simp [HasDefaults, hheld]
    rw [hdefaults, hheap]
    by_cases hlive : s.heap.Live .responseArray array
    · have hentries : (ResponseArray.heap array defaultResponses).entries s.heap =
          some defaultResponses := if_pos hlive
      rw [dispatch_safe_of_entries hentries hint]
      apply and_congr_right
      intro hnonneg
      have hentry := defaultResponses_entry (k := r.toNat)
      have htype : ∀ type : ℕ, (type : ℤ) = r ↔ type = r.toNat := fun type => by omega
      simp only [htype, hentry, and_iff_left hlive]
      omega
    · have hentries : (ResponseArray.heap array defaultResponses).entries s.heap = none :=
        if_neg hlive
      exact iff_of_false (not_dispatch_safe_of_no_entries hentries r) fun h => hlive h.2.2

/-- An author's array after padding. -/
theorem padded_entry {array : List Response} {r : ℤ} :
    (∃ response, (array.map Response.padded)[r.toNat]? = some response ∧
        (response.responseType : ℤ) = r ∧ response.responseFunc ≠ none) ↔
      ∃ response, array[r.toNat]? = some response ∧ (response.responseType : ℤ) = r ∧
        if response.responseType < responseCustomization then response.responseType ≤ responseKill
        else response.responseFunc ≠ none := by
  have hpadded : ∀ response : Response, response.padded.responseType = response.responseType ∧
      (response.padded.responseFunc ≠ none ↔
        if response.responseType < responseCustomization then
          response.responseType ≤ responseKill
        else response.responseFunc ≠ none) := by
    intro response
    unfold Response.padded
    split
    · exact ⟨rfl, responseUnits_ne_none_iff⟩
    · exact ⟨rfl, Iff.rfl⟩
  rw [List.getElem?_map]
  constructor
  · intro hentry
    obtain ⟨_, hget, htype, hfunc⟩ := hentry
    obtain ⟨response, hresponse, rfl⟩ := Option.map_eq_some_iff.mp hget
    rw [(hpadded response).1] at htype
    exact ⟨response, hresponse, htype, (hpadded response).2.mp hfunc⟩
  · intro hentry
    obtain ⟨response, hresponse, htype, hfunc⟩ := hentry
    refine ⟨response.padded, by rw [hresponse]; rfl, ?_, (hpadded response).2.mpr hfunc⟩
    rw [(hpadded response).1]
    exact htype

/-! ## The array until the call -/

/-- Moves that do not release the array keep it, live or not. -/
theorem Moves.hasDefaults_iff {live : Holder M → Prop}
    (hmoves : Moves (fun _ => True) s live s') (hinv : PointerInv s) (hlive : live (.array ptr))
    (hheld : s'.held (.array ptr) = s.held (.array ptr)) :
    HasDefaults s' ptr ↔ HasDefaults s ptr := by
  unfold HasDefaults
  rw [hheld]
  refine exists_congr fun array => and_congr_right fun harray => ⟨fun h => ?_, fun h => ?_⟩
  · exact hmoves.live_of_live (hinv.held_lt _ _ harray) h
  · refine hmoves.liveAt (· = .array ptr) hinv ?_ _ rfl hlive array (hheld.trans harray)
    rintro _ rfl _ array' harray'
    obtain rfl := Option.some.inj (harray.symm.trans harray')
    exact h

/-- The array of a workflow is the same in both states. -/
structure SameArray (ptr : WorkflowPtr M) (s s' : State M) : Prop where
  array : (s'.workflows ptr).responseArray = (s.workflows ptr).responseArray
  defaults : HasDefaults s' ptr ↔ HasDefaults s ptr

theorem CallEffect.sameArray (heffect : CallEffect desc m s s') (hinv : ActInv desc s)
    (hm : ptr.module ≠ m) : SameArray ptr s s' := by
  have hsame := congrArg WorkflowVars.responseArray (heffect.others ptr hm)
  obtain ⟨live, hmoves, hlive⟩ := heffect.moves
  exact ⟨hsame, hmoves.hasDefaults_iff hinv.pointers (hlive _ hm)
    (congrArg ResponseArray.heapPtr hsame)⟩

theorem sameArray_of_run (ptr : WorkflowPtr M) (hinv : ActInv desc s) {q : WorkflowPtr M}
    {env : RunEnv} {d : Dispatch} (hrun : presetWorkflow q env s = some (d, s')) :
    SameArray ptr s s' := by
  obtain ⟨_, _, _, _, harrays⟩ := presetWorkflow_frame hrun
  have hmoves : Moves (fun _ => True) s (fun _ => True) s' := presetWorkflow_moves hrun
  exact ⟨harrays ptr, hmoves.hasDefaults_iff hinv.pointers trivial
    (congrArg ResponseArray.heapPtr (harrays ptr))⟩

theorem sameArray_of_step {a : Act M} (hinv : ActInv desc s) (hspares : Spares ptr.module s a)
    (hstep : actStep desc s a = some s') : SameArray ptr s s' := by
  have hrefl : SameArray ptr s s := ⟨rfl, Iff.rfl⟩
  cases a with
  | run q env =>
      obtain ⟨⟨d, s'⟩, hrun, rfl⟩ := Option.map_eq_some_iff.mp hstep
      exact sameArray_of_run ptr hinv (runStep_spec hrun).2
  | call call =>
      cases call with
      | register env module =>
          obtain ⟨⟨ret, s'⟩, hreg, rfl⟩ := Option.map_eq_some_iff.mp hstep
          cases module with
          | none =>
              obtain ⟨_, rfl⟩ := Prod.mk.inj (Option.some.inj hreg)
              exact hrefl
          | some m =>
              exact (register_effect hreg).sameArray hinv fun h => hspares (congrArg some h.symm)
      | unregister env module =>
          cases module with
          | none =>
              obtain rfl := Option.some.inj hstep
              exact hrefl
          | some m =>
              exact (unregister_effect hstep).sameArray hinv fun h => hspares (congrArg some h.symm)

/-- Other modules and runs leave the array alone. -/
theorem sameArray_of_spares {acts : List (Act M)} {s₂ : State M} (hinv : ActInv desc s)
    (hrun : Run (actStep desc) (Spares ptr.module) (· = s) acts s₂) :
    ActInv desc s₂ ∧ SameArray ptr s s₂ := by
  have hstart : ∀ t, t = s → ActInv desc t ∧ SameArray ptr s t := by
    rintro t rfl
    exact ⟨hinv, rfl, Iff.rfl⟩
  apply hrun.invariant hstart
  intro s₁ a s₂ h hspares hstep
  obtain ⟨hinv₁, hsame⟩ := h
  have hnext := sameArray_of_step hinv₁ hspares hstep
  exact ⟨hinv₁.step hstep, hnext.array.trans hsame.array, hnext.defaults.trans hsame.defaults⟩

/-- The array after a registration that succeeds. -/
theorem register_array {env : RegisterEnv} {ret : ℤ} (hinv : ActInv desc s)
    (hreg : secDetectorModuleRegister desc env (some ptr.module) s = some (ret, s'))
    (hret : 0 ≤ ret) {wf : Workflow} (hwf : workflowAt desc ptr = some wf)
    (hpreset : wf.workflowType = .preset) :
    ∃ fresh, (s'.workflows ptr).responseArray =
        (s.workflows ptr).responseArray.padded wf (env.kmalloc ptr.index) fresh ∧
      (wf.responseArrayLen = 0 →
        (HasDefaults s' ptr ↔ env.kmalloc ptr.index = true ∨ HasDefaults s ptr)) := by
  rcases register_cases hreg with ⟨_, hneg, _⟩ | ⟨_, idr, s₁, hattempt, ⟨hneg, _⟩ | ⟨_, hpub⟩⟩
  · exact absurd hret (not_le.mpr hneg)
  · exact absurd hret (not_le.mpr hneg)
  · obtain ⟨wf', fresh, hwf', _, hpads⟩ :=
      (registerAttempt_arrays hattempt).all hret ptr wf rfl (Nat.zero_le _) hwf hpreset
    obtain rfl := Option.some.inj (hwf.symm.trans hwf')
    have harray : (s'.workflows ptr).responseArray =
        (s.workflows ptr).responseArray.padded wf (env.kmalloc ptr.index) fresh := by
      rw [(publishModule_frame hpub).2.1]
      exact hpads
    refine ⟨fresh, harray, fun hlen => ?_⟩
    have hmoves : ∀ live : Holder M → Prop, Moves live s
        (fun k => live k ∨ 0 ≤ ret ∧ Creates desc env ptr.module k) s' := fun live =>
      (moves_moduleIdr live s idr).trans
        ((registerAttempt_moves live hattempt).trans (publishModule_moves hpub))
    unfold ResponseArray.padded at harray
    rw [if_pos hlen] at harray
    cases halloc : env.kmalloc ptr.index with
    | true =>
        -- the array is new
        rw [halloc, if_pos rfl] at harray
        have hheld : s'.held (.array ptr) = some fresh := by rw [State.held, harray]; rfl
        have hcreated : Creates desc env ptr.module (.array ptr) :=
          .inl ⟨ptr, wf, rfl, rfl, Nat.zero_le _, hwf, ⟨hpreset, hlen⟩, halloc⟩
        have hlive := (hmoves fun _ => False).liveAt (· = .array ptr) hinv.pointers
          (fun _ _ h => h.elim) _ rfl (.inr ⟨hret, hcreated⟩)
        exact iff_of_true ⟨fresh, hheld, hlive fresh hheld⟩ (.inl rfl)
    | false =>
        rw [halloc, if_neg Bool.false_ne_true] at harray
        rw [(hmoves fun _ => True).hasDefaults_iff hinv.pointers (.inl trivial)
          (congrArg ResponseArray.heapPtr harray)]
        simp

/-! ## The result -/

/-- A run dispatches the result of its analysis. -/
theorem presetWorkflow_dispatch {env : RunEnv} {d : Dispatch}
    (hrun : presetWorkflow ptr env s = some (d, s')) :
    d = dispatch s'.heap (s'.workflows ptr).responseArray (analysisResult ptr env s) := by
  unfold presetWorkflow at hrun
  dsimp only at hrun
  split at hrun
  · obtain ⟨func, hfunc, heq⟩ := Option.map_eq_some_iff.mp hrun
    obtain ⟨rfl, rfl⟩ := Prod.mk.inj heq
    simp [analysisResult, hfunc]
  · simp at hrun

omit [DecidableEq M] in
/-- The result is an `int`. -/
theorem analysisResult_int (ptr : WorkflowPtr M) (env : RunEnv) (s : State M) :
    -2 ^ 31 ≤ analysisResult ptr env s ∧ analysisResult ptr env s < 2 ^ 31 := by
  have hret := env.ret_int
  unfold analysisResult
  split
  · rename_i func _
    cases func with
    | custom id => exact hret
    | analyzeSaveCheck =>
        unfold AnalyzeFunc.call analyzeSaveCheck
        dsimp only
        split
        · exact hret
        · split
          · simp [responseOk]
          · split
            · simp [responseOk]
            · simp [eNoMem]
  · simp

/-- **When the response is dispatched as it should be.**  Register a preset workflow in any
reachable state, let other modules call and hooks run as they like, and run it: its result
is dispatched to the response of that type if and only if this is so for the state
before the registration. -/
theorem dispatch_safe_iff {env : RegisterEnv} {ret : ℤ} {acts : List (Act M)} {s₁ s₂ s₃ : State M}
    {wf : Workflow} {runEnv : RunEnv} {d : Dispatch}
    (hreach : Reachable (actStep desc) (actInit desc) s)
    (hreg : secDetectorModuleRegister desc env (some ptr.module) s = some (ret, s₁))
    (hret : 0 ≤ ret) (hrun : Run (actStep desc) (Spares ptr.module) (· = s₁) acts s₂)
    (hwf : workflowAt desc ptr = some wf) (hpreset : wf.workflowType = .preset)
    (hlast : presetWorkflow ptr runEnv s₂ = some (d, s₃)) :
    DispatchSafe (analysisResult ptr runEnv s₂) d ↔
      Dispatchable env s ptr wf (analysisResult ptr runEnv s₂) := by
  have hinv := actInv_of_reachable hreach
  have hinv₁ : ActInv desc s₁ := hinv.step (a := .call (.register env (some ptr.module)))
    (by rw [actStep, step, hreg]; rfl)
  obtain ⟨fresh, harray, hdefaults⟩ := register_array hinv hreg hret hwf hpreset
  obtain ⟨hinv₂, hsame⟩ := sameArray_of_spares hinv₁ hrun
  have hlastSame := sameArray_of_run ptr hinv₂ hlast
  have hint := analysisResult_int ptr runEnv s₂
  rw [presetWorkflow_dispatch hlast, Dispatchable]
  by_cases hlen : wf.responseArrayLen = 0
  · rw [dispatch_defaults_safe_iff (hinv₂.run hlast) hwf hlen hint, if_pos hlen,
      hlastSame.defaults, hsame.defaults, hdefaults hlen]
  · have hold := hinv.arrays ptr wf hwf
    rw [ArrayOf, if_neg hlen] at hold
    obtain ⟨array, hstatic, _⟩ := hold
    rw [hstatic, ResponseArray.padded, if_neg hlen] at harray
    rw [hlastSame.array, hsame.array, harray, dispatch_safe_of_entries rfl hint, if_neg hlen,
      padded_entry, hstatic]
    apply and_congr_right
    intro _
    simp only [ResponseArray.static.injEq]
    constructor
    · intro hentry
      obtain ⟨response, hresponse⟩ := hentry
      exact ⟨array, response, rfl, hresponse⟩
    · intro hentry
      obtain ⟨_, response, rfl, hresponse⟩ := hentry
      exact ⟨response, hresponse⟩

/-- The first round of the function switches answers `RESPONSE_OK`, and that is called. -/
theorem switch_dispatch_safe : ∃ d s,
    presetWorkflow ⟨(), 0⟩ (switchRound true) switchRegistered = some (d, s) ∧
      DispatchSafe (analysisResult ⟨(), 0⟩ (switchRound true) switchRegistered) d := by
  have hreg : secDetectorModuleRegister switchModule (kprobeEnv 0) (some ()) freshState =
      some (0, switchRegistered) := rfl
  refine ⟨_, _, rfl, (dispatch_safe_iff ⟨[], .start freshState_actInit⟩ hreg le_rfl (.start rfl)
    rfl rfl rfl).mpr ?_⟩
  exact ⟨by decide, by decide, .inl rfl⟩

/-! ## A negative result -/

theorem not_dispatch_safe_of_neg {heap : Heap} {array : ResponseArray} {r : ℤ} (hneg : r < 0)
    (hint : -2 ^ 31 ≤ r) : ¬ DispatchSafe r (dispatch heap array r) := by
  intro hsafe
  cases hentries : array.entries heap with
  | none => exact not_dispatch_safe_of_no_entries hentries r hsafe
  | some entries =>
      exact absurd ((dispatch_safe_of_entries hentries ⟨hint, by omega⟩).mp hsafe).1
        (not_le.mpr hneg)

/-- The response is not dispatched as it should be in general: here the first round cannot
allocate its baseline. -/
theorem not_dispatch_safe :
    ¬ ∀ (desc : Unit → Module) (env : RegisterEnv) (s s₁ s₂ : State Unit) (ret : ℤ)
        (ptr : WorkflowPtr Unit) (wf : Workflow) (runEnv : RunEnv) (d : Dispatch),
      Reachable (actStep desc) (actInit desc) s →
      secDetectorModuleRegister desc env (some ptr.module) s = some (ret, s₁) → 0 ≤ ret →
      workflowAt desc ptr = some wf → wf.workflowType = .preset →
      presetWorkflow ptr runEnv s₁ = some (d, s₂) →
        DispatchSafe (analysisResult ptr runEnv s₁) d := by
  intro hclaim
  have hsafe := hclaim switchModule (kprobeEnv 0) freshState switchRegistered _ 0 ⟨(), 0⟩
    switchWorkflow (switchRound false) _ ⟨[], .start freshState_actInit⟩ rfl le_rfl rfl rfl rfl
  exact not_dispatch_safe_of_neg (r := -eNoMem) (by decide) (by decide) hsafe

end SecDetector.Framework
