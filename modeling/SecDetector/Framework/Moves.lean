import SecDetector.Framework.Ownership
import SecDetector.Framework.Rollback

/-!
# What an unregistration and a run move

* `unregister_moves`: an unregistration releases the proc entry of its module, and, if it
  finds the module's id, the arrays and baselines of its workflows.
* `presetWorkflow_moves`: a run may create a baseline.

Which holders must be known to be live is a hypothesis of the first; it is empty if all of
them are, so every call keeps `PointerInv`.
-/

namespace SecDetector.Framework

open Lib

variable {M : Type*} [DecidableEq M] {desc : M → Module} {m : M} {live : Holder M → Prop}
  {s s' : State M}

/-! ## Unregistration -/

/-- Release what a holder points to, if anything. -/
theorem moves_release {h : Holder M} (hlive : live h) {heap : Heap}
    (hheap : heap = match s.held h with
      | some ptr => s.heap.release h.resource ptr
      | none => s.heap) :
    Moves live s (fun k => live k ∧ k ≠ h) { s with heap := heap } := by
  cases hheld : s.held h with
  | none =>
      rw [hheld] at hheap
      exact .frame hheap (fun _ => .inl rfl) fun _ hk => hk.1
  | some ptr =>
      rw [hheld] at hheap
      exact .release h hheld hlive hheap rfl

theorem removeProcEntry_moves (hentry : (desc m).hasParameter = true → live (.entry m)) :
    Moves live s (fun k => live k ∧ k ≠ .entry m) (removeProcEntry desc m s) := by
  unfold removeProcEntry
  split
  · rename_i ptr hparam hheld
    exact .release (.entry m) hheld (hentry hparam) rfl rfl
  · exact .frame rfl (fun _ => .inl rfl) fun _ hk => hk.1

/-- What is freed for one workflow. -/
theorem freePreset_moves {ptr : WorkflowPtr M} (wf : Workflow) (harray : live (.array ptr))
    (hbaseline : live (.baseline ptr)) :
    Moves live s (fun k => live k ∧ k.workflow ≠ some ptr)
      { s with heap := freePreset wf (s.workflows ptr) s.heap } := by
  have hsub : ∀ k : Holder M, live k ∧ k.workflow ≠ some ptr →
      (live k ∧ k ≠ .baseline ptr) ∧ k ≠ .array ptr := by
    intro k hk
    refine ⟨⟨hk.1, ?_⟩, ?_⟩
    · rintro rfl
      exact hk.2 rfl
    · rintro rfl
      exact hk.2 rfl
  unfold freePreset
  split
  · -- the baseline goes first
    have hfirst : Moves live s (fun k => live k ∧ k ≠ .baseline ptr)
        { s with heap := freeAnalyzeStatusData (s.workflows ptr).analyzeStatus s.heap } := by
      unfold freeAnalyzeStatusData
      split
      · exact moves_release hbaseline rfl
      · exact .frame rfl (fun _ => .inl rfl) fun _ hk => hk.1
    refine (hfirst.trans ?_).mono hsub
    split
    · refine moves_release (h := .array ptr) ⟨harray, by simp⟩ ?_
      unfold freeResponseArray
      show _ = match (s.workflows ptr).responseArray.heapPtr with
        | some ptr => _
        | none => _
      cases (s.workflows ptr).responseArray <;> rfl
    · exact .frame rfl (fun _ => .inl rfl) fun _ hk => hk.1
  · exact .frame rfl (fun _ => .inl rfl) fun _ hk => hk.1

/-- The workflow loop, from index `i` on. -/
theorem unregisterLoop_moves (env : ℕ → HookEnv) (wfs : List Workflow) :
    ∀ (i : ℕ) (live : Holder M → Prop) (s : State M),
      (∀ k ptr, k.workflow = some ptr → ptr.module = m → i ≤ ptr.index →
        ptr.index < i + wfs.length → live k) →
      Moves live s (fun k => live k ∧ ∀ ptr, k.workflow = some ptr → ptr.module = m →
          i ≤ ptr.index → ¬ ptr.index < i + wfs.length)
        (unregisterLoop env m i wfs s) := by
  induction wfs with
  | nil =>
      intro i live s _
      exact (Moves.refl live s).mono fun k hk => hk.1
  | cons wf wfs ih =>
      intro i live s hlive
      have hown : ∀ k : Holder M, k.workflow = some ⟨m, i⟩ → live k := fun k hk =>
        hlive k ⟨m, i⟩ hk rfl le_rfl (by simp)
      unfold unregisterLoop
      dsimp only
      split
      · exact .frame rfl (fun _ => .inl rfl) fun _ hk => hk.1
      · -- the hook tables hold no resources
        have hhooks : Moves live s live
            { s with hooks := (deleteCallback (env i) ⟨m, i⟩ wf s.hooks).2 } :=
          .frame rfl (fun _ => .inl rfl) fun _ => id
        have hfree := hhooks.trans
          (freePreset_moves wf (hown (.array ⟨m, i⟩) rfl) (hown (.baseline ⟨m, i⟩) rfl))
        refine (hfree.trans (ih (i + 1) _ _ fun k ptr hk hm hlow hhigh => ?_)).mono
          fun k hk => ⟨⟨hk.1, fun hhere => ?_⟩, fun ptr hptr hm hlow hhigh => ?_⟩
        · rw [List.length_cons] at hlive
          refine ⟨hlive k ptr hk hm (by omega) (by omega), fun hhere => ?_⟩
          rw [hk, Option.some.injEq] at hhere
          simp [hhere] at hlow
        · exact hk.2 _ hhere rfl le_rfl (by simp)
        · exact hk.2 ptr hptr hm (by omega) (by rw [List.length_cons]; omega)

omit [DecidableEq M] in
/-- An index inside the array has a workflow. -/
theorem exists_workflowAt (desc : M → Module) {ptr : WorkflowPtr M} (hm : ptr.module = m)
    (hlt : ptr.index < ((desc m).workflowArray.getD []).length) :
    ∃ wf, workflowAt desc ptr = some wf := by
  have hget := arrayFrom_zero desc m ptr.index
  rw [Nat.zero_add, ← hm] at hget
  rw [← hm] at hlt
  exact ⟨_, hget.symm.trans (List.getElem?_eq_getElem hlt)⟩

/-- Whether an unregistration finds its module's id. -/
def IdFound (m : M) (s : State M) : Prop := s.moduleIdr.entry (s.modules m).id ≠ none

/-- What an unregistration may release. -/
structure Releases (desc : M → Module) (m : M) (s : State M) (live : Holder M → Prop) : Prop where
  entry : (desc m).hasParameter = true → live (.entry m)
  workflows : IdFound m s → ∀ k ptr wf, k.workflow = some ptr → ptr.module = m →
    workflowAt desc ptr = some wf → live k

/-- What is known to be live afterwards. -/
def Releases.Kept (desc : M → Module) (m : M) (s : State M) (live : Holder M → Prop)
    (k : Holder M) : Prop :=
  live k ∧ k ≠ .entry m ∧ (IdFound m s → ∀ ptr wf, k.workflow = some ptr →
    workflowAt desc ptr = some wf → ptr.module ≠ m)

theorem unlinkModule_moves (hunlink : unlinkModule m s = some s') : Moves live s live s' := by
  unfold unlinkModule at hunlink
  split at hunlink
  · obtain ⟨list, _, rfl⟩ := Option.map_eq_some_iff.mp hunlink
    exact .frame rfl (fun _ => .inl rfl) fun _ => id
  · obtain rfl := Option.some.inj hunlink
    exact Moves.refl live s

/-- An unregistration releases what belongs to its module. -/
theorem unregister_moves {env : ℕ → HookEnv} (hlive : Releases desc m s live)
    (hunreg : secDetectorModuleUnregister desc env (some m) s = some s') :
    Moves live s (Releases.Kept desc m s live) s' := by
  have hproc := removeProcEntry_moves (s := s) hlive.entry
  -- the id is looked up in the tables that the proc entry is not in
  obtain ⟨heap, hremoved⟩ : ∃ heap, removeProcEntry desc m s = { s with heap := heap } := by
    unfold removeProcEntry
    split
    · exact ⟨_, rfl⟩
    · exact ⟨s.heap, rfl⟩
  rw [secDetectorModuleUnregister, hremoved] at hunreg
  rw [hremoved] at hproc
  dsimp only at hunreg
  rw [Idr.remove_fst] at hunreg
  have hidr : ∀ live' : Holder M → Prop, Moves live' { s with heap := heap } live'
      { s with heap := heap, moduleIdr := (s.moduleIdr.remove (s.modules m).id).2 } :=
    fun _ => .frame rfl (fun _ => .inl rfl) fun _ => id
  cases hentry : s.moduleIdr.entry (s.modules m).id with
  | none =>
      rw [hentry] at hunreg
      refine (hproc.trans ((hidr _).trans (unlinkModule_moves hunreg))).mono fun k hk => ?_
      exact ⟨hk.1, hk.2.1⟩
  | some owner =>
      rw [hentry] at hunreg
      have hfound : IdFound m s := by simp [IdFound, hentry]
      have hloop := unregisterLoop_moves (m := m) env ((desc m).workflowArray.getD []) 0
        (fun k => live k ∧ k ≠ .entry m)
        { s with heap := heap, moduleIdr := (s.moduleIdr.remove (s.modules m).id).2 }
        (fun k ptr hk hm _ hlt => by
          obtain ⟨wf, hwf⟩ := exists_workflowAt desc hm (by simpa using hlt)
          exact ⟨hlive.workflows hfound k ptr wf hk hm hwf,
            fun heq => by simp [heq, Holder.workflow] at hk⟩)
      refine ((hproc.trans (hidr _)).trans (hloop.trans (unlinkModule_moves hunreg))).mono
        fun k hk => ⟨⟨hk.1, hk.2.1⟩, fun ptr hptr hm _ hlt => ?_⟩
      obtain ⟨wf, hwf⟩ := exists_workflowAt desc hm (by simpa using hlt)
      exact hk.2.2 hfound ptr wf hptr hwf hm

/-- An unregistration leaves the workflows' own fields alone. -/
theorem unregister_workflows {env : ℕ → HookEnv}
    (hunreg : secDetectorModuleUnregister desc env (some m) s = some s') :
    s'.workflows = s.workflows := by
  have hunlink : ∀ s₁ s₂ : State M, unlinkModule m s₁ = some s₂ → s₂.workflows = s₁.workflows := by
    intro s₁ s₂ hs
    unfold unlinkModule at hs
    split at hs
    · obtain ⟨list, _, rfl⟩ := Option.map_eq_some_iff.mp hs
      rfl
    · obtain rfl := Option.some.inj hs
      rfl
  have hloop : ∀ (wfs : List Workflow) (i : ℕ) (s₁ : State M),
      (unregisterLoop env m i wfs s₁).workflows = s₁.workflows := by
    intro wfs
    induction wfs with
    | nil => exact fun _ _ => rfl
    | cons wf wfs ih =>
        intro i s₁
        unfold unregisterLoop
        dsimp only
        split
        · rfl
        · rw [ih]
  have hproc : (removeProcEntry desc m s).workflows = s.workflows := by
    unfold removeProcEntry
    split <;> rfl
  unfold secDetectorModuleUnregister at hunreg
  dsimp only at hunreg
  split at hunreg
  · rw [hunlink _ _ hunreg, hproc]
  · rw [hunlink _ _ hunreg, hloop, hproc]

/-! ## A run -/

/-- What an analysis does to the heap and the status. -/
theorem analyzeFunc_call_cases (func : AnalyzeFunc) (env : RunEnv) (status : AnalyzeStatus)
    (heap : Heap) :
    (func.call env status heap).2.2 = heap ∧
        ((func.call env status heap).2.1.data = status.data ∨
          (func.call env status heap).2.1.data = none) ∨
      (func.call env status heap).2.2 = (heap.create .baseline).2 ∧
        (func.call env status heap).2.1.data = some heap.fresh := by
  cases func with
  | custom id => exact .inl ⟨rfl, .inl rfl⟩
  | analyzeSaveCheck =>
      show (analyzeSaveCheck env status heap).2.2 = heap ∧ _ ∨ _
      unfold AnalyzeFunc.call analyzeSaveCheck
      dsimp only
      by_cases htag : status.initTag = 1
      · rw [if_pos htag]
        exact .inl ⟨rfl, .inl rfl⟩
      · rw [if_neg htag]
        by_cases hnamed : env.named = 0
        · rw [if_pos hnamed]
          exact .inl ⟨rfl, .inr rfl⟩
        · rw [if_neg hnamed]
          cases env.kmalloc with
          | true => exact .inr ⟨rfl, rfl⟩
          | false => exact .inl ⟨rfl, .inr rfl⟩

/-- A run writes to the status of its workflow and to the heap. -/
theorem presetWorkflow_frame {ptr : WorkflowPtr M} {env : RunEnv} {d : Dispatch}
    (hrun : presetWorkflow ptr env s = some (d, s')) :
    s'.moduleIdr = s.moduleIdr ∧ s'.hooks = s.hooks ∧ s'.moduleList = s.moduleList ∧
      s'.modules = s.modules ∧
      ∀ q, (s'.workflows q).responseArray = (s.workflows q).responseArray := by
  unfold presetWorkflow at hrun
  dsimp only at hrun
  split at hrun
  · obtain ⟨func, _, heq⟩ := Option.map_eq_some_iff.mp hrun
    obtain ⟨_, rfl⟩ := Prod.mk.inj heq
    refine ⟨rfl, rfl, rfl, rfl, fun q => ?_⟩
    by_cases hq : q = ptr
    · simp [hq]
    · simp [hq]
  · simp at hrun

theorem presetWorkflow_moves {ptr : WorkflowPtr M} {env : RunEnv} {d : Dispatch}
    (hrun : presetWorkflow ptr env s = some (d, s')) : Moves live s live s' := by
  unfold presetWorkflow at hrun
  dsimp only at hrun
  split at hrun
  · obtain ⟨func, _, heq⟩ := Option.map_eq_some_iff.mp hrun
    obtain ⟨_, rfl⟩ := Prod.mk.inj heq
    have hheld := held_of_update s
      { s with
        workflows := Function.update s.workflows ptr { s.workflows ptr with
          analyzeStatus := (func.call env (s.workflows ptr).analyzeStatus s.heap).2.1 }
        heap := (func.call env (s.workflows ptr).analyzeStatus s.heap).2.2 }
      ptr
      { s.workflows ptr with
        analyzeStatus := (func.call env (s.workflows ptr).analyzeStatus s.heap).2.1 } rfl rfl
    dsimp only at hheld
    rw [show (s.workflows ptr).responseArray.heapPtr = s.held (.array ptr) from rfl,
      Function.update_eq_self] at hheld
    rcases analyzeFunc_call_cases func env (s.workflows ptr).analyzeStatus s.heap with
      ⟨hheap, hdata⟩ | ⟨hheap, hdata⟩
    · exact .update (.baseline ptr) hheap hheld hdata
    · rw [hdata] at hheld
      exact (Moves.create (.baseline ptr) hheap hheld).mono fun _ => .inl
  · simp at hrun

end SecDetector.Framework
