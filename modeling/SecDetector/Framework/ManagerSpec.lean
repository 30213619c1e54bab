import SecDetector.Framework.Manager
import SecDetector.Framework.HookSpec

/-!
# What registration and unregistration do

The effect of the two manager functions on the id table, the hook tables and the
module list, in terms of two operations: `Idr.entry` and `Hooks.purge`, the hook
tables without the workflows of one module.

The rollback of a failed registration is `secDetector_module_unregister`, which
looks the module up under `module->id`.  Its effect depends on that field alone
(`unregister_eq_unlinkModule`): if no module is stored under it, no workflow is
unlinked; otherwise, all workflows of the module are, and the id is removed,
whichever module it belonged to.
-/

namespace SecDetector.Framework

open Lib

variable {M : Type*} [DecidableEq M] {desc : M → Module} {m : M}

/-- The hook tables without the workflows of a module. -/
def Hooks.purge (m : M) (hooks : Hooks M) : Hooks M :=
  hooks.restrict fun ptr => ptr.module != m

theorem Hooks.linked_purge {hooks : Hooks M} {ptr : WorkflowPtr M} :
    (hooks.purge m).Linked ptr ↔ hooks.Linked ptr ∧ ptr.module ≠ m := by
  rw [Hooks.purge, Hooks.linked_restrict, bne_iff_ne]

/-- Purging undoes the linking of a workflow of that module. -/
theorem Links.purge_eq {hooks hooks' : Hooks M} {ptr : WorkflowPtr M}
    (hlinks : Links desc hooks ptr hooks') : hooks'.purge ptr.module = hooks.purge ptr.module := by
  conv_rhs => rw [← hlinks.restrict_eq]
  rw [Hooks.purge, Hooks.purge, Hooks.restrict_restrict]
  apply Hooks.restrict_congr
  intro q _
  by_cases hmodule : q.module = ptr.module
  · simp [hmodule]
  · have hne : q ≠ ptr := fun heq => hmodule (congrArg WorkflowPtr.module heq)
    simp [hmodule, hne]

/-- Purging a module changes nothing exactly if it has no linked workflow. -/
theorem HookInv.purge_eq_self_iff {hooks : Hooks M} (hinv : HookInv desc hooks) :
    hooks.purge m = hooks ↔ ∀ ptr, hooks.Linked ptr → ptr.module ≠ m := by
  constructor
  · intro heq ptr hlinked
    rw [← heq] at hlinked
    exact (Hooks.linked_purge.mp hlinked).2
  · intro hnone
    apply hinv.restrict_eq_self
    intro ptr hlinked
    exact bne_iff_ne.mpr (hnone ptr hlinked)

/-- The workflows of a module, as the loops meet them from index `i` on. -/
def ArrayFrom (desc : M → Module) (m : M) (i : ℕ) (wfs : List Workflow) : Prop :=
  ∀ k, wfs[k]? = workflowAt desc ⟨m, i + k⟩

omit [DecidableEq M] in
theorem ArrayFrom.head {i : ℕ} {wf : Workflow} {wfs : List Workflow}
    (harray : ArrayFrom desc m i (wf :: wfs)) : workflowAt desc ⟨m, i⟩ = some wf :=
  (harray 0).symm

omit [DecidableEq M] in
theorem ArrayFrom.tail {i : ℕ} {wf : Workflow} {wfs : List Workflow}
    (harray : ArrayFrom desc m i (wf :: wfs)) : ArrayFrom desc m (i + 1) wfs := by
  intro k
  have hnext := harray (k + 1)
  have hindex : i + (k + 1) = i + 1 + k := by omega
  rwa [List.getElem?_cons_succ, hindex] at hnext

omit [DecidableEq M] in
theorem arrayFrom_zero (desc : M → Module) (m : M) :
    ArrayFrom desc m 0 ((desc m).workflowArray.getD []) := by
  intro k
  rw [workflowAt, Nat.zero_add]
  cases (desc m).workflowArray <;> simp

/-! ## Unregistration -/

/-- The workflow loop of the unregistration unlinks the workflows it passes and
touches neither the id table nor the module list. -/
theorem unregisterLoop_spec (env : ℕ → HookEnv) (wfs : List Workflow) :
    ∀ (i : ℕ) (s : State M), HookInv desc s.hooks → ArrayFrom desc m i wfs →
      (unregisterLoop env m i wfs s).hooks = s.hooks.restrict (fun ptr =>
          !decide (ptr.module = m ∧ i ≤ ptr.index ∧ ptr.index < i + wfs.length)) ∧
        (unregisterLoop env m i wfs s).moduleIdr = s.moduleIdr ∧
        (unregisterLoop env m i wfs s).moduleList = s.moduleList ∧
        (unregisterLoop env m i wfs s).modules = s.modules := by
  induction wfs with
  | nil =>
      intro i s hinv _
      refine ⟨(hinv.restrict_eq_self fun ptr _ => ?_).symm, rfl, rfl, rfl⟩
      simp only [List.length_nil, Bool.not_eq_true', decide_eq_false_iff_not]
      omega
  | cons wf wfs ih =>
      intro i s hinv harray
      obtain ⟨hret, hhooks⟩ := hinv.deleteCallback_spec harray.head (env i)
      unfold unregisterLoop
      dsimp only
      rw [if_neg (not_lt.mpr hret)]
      obtain ⟨hrest, hidr, hlist, hmodules⟩ := ih (i + 1)
        { s with
          hooks := (deleteCallback (env i) ⟨m, i⟩ wf s.hooks).2
          heap := freePreset wf (s.workflows ⟨m, i⟩) s.heap }
        (by rw [hhooks]; exact hinv.restrict _) harray.tail
      refine ⟨?_, hidr, hlist, hmodules⟩
      -- index `i` is gone after this turn, the later ones after the rest of the loop
      rw [hrest]
      dsimp only
      rw [hhooks, Hooks.restrict_restrict]
      apply Hooks.restrict_congr
      intro ptr _
      by_cases heq : ptr = ⟨m, i⟩
      · simp [heq]
      · have hindex : ptr.module = m → ptr.index ≠ i := by
          intro hm hi
          exact heq (by cases ptr; simp_all)
        simp only [bne_iff_ne.mpr heq, Bool.true_and, List.length_cons]
        refine congrArg _ (decide_eq_decide.mpr ⟨?_, ?_⟩)
        · intro hrange
          obtain ⟨hm, hlow, hhigh⟩ := hrange
          exact ⟨hm, by omega, by omega⟩
        · intro hrange
          obtain ⟨hm, hlow, hhigh⟩ := hrange
          have hne := hindex hm
          exact ⟨hm, by omega, by omega⟩

/-- **Unregistration up to the module list.**  Whether the workflows of `m` are
unlinked depends on whether `module->id` is in use; the entry of that id is
removed in any case. -/
theorem unregister_eq_unlinkModule {s : State M} (hinv : HookInv desc s.hooks)
    (env : ℕ → HookEnv) :
    ∃ s₁, secDetectorModuleUnregister desc env (some m) s = unlinkModule m s₁ ∧
      s₁.hooks = (if s.moduleIdr.entry (s.modules m).id = none then s.hooks
        else s.hooks.purge m) ∧
      s₁.moduleIdr.entry = Function.update s.moduleIdr.entry (s.modules m).id none ∧
      s₁.moduleList = s.moduleList ∧ s₁.modules = s.modules := by
  -- the proc entry only concerns the heap
  obtain ⟨heap, hproc⟩ : ∃ heap, removeProcEntry desc m s = { s with heap := heap } := by
    unfold removeProcEntry
    split
    · exact ⟨_, rfl⟩
    · exact ⟨s.heap, rfl⟩
  rw [secDetectorModuleUnregister, hproc]
  dsimp only
  rw [Idr.remove_fst]
  cases hentry : s.moduleIdr.entry (s.modules m).id with
  | none => exact ⟨_, rfl, (if_pos rfl).symm, Idr.entry_remove _ _, rfl, rfl⟩
  | some owner =>
      obtain ⟨hrest, hidr, hlist, hmodules⟩ := unregisterLoop_spec env
        ((desc m).workflowArray.getD []) 0
        { s with heap := heap, moduleIdr := (s.moduleIdr.remove (s.modules m).id).2 }
        hinv (arrayFrom_zero desc m)
      refine ⟨_, rfl, ?_, by rw [hidr]; exact Idr.entry_remove _ _, hlist, hmodules⟩
      rw [hrest, if_neg (by simp), Hooks.purge]
      apply Hooks.restrict_congr
      intro ptr hlinked
      -- a linked workflow of `m` has an index inside the array
      obtain ⟨wf, hwf⟩ := hinv.workflowAt_of_linked hlinked
      by_cases hm : ptr.module = m
      · have hlt : ptr.index < ((desc m).workflowArray.getD []).length := by
          have hget := arrayFrom_zero desc m ptr.index
          rw [Nat.zero_add, ← hm] at hget
          rw [← hm]
          exact (List.getElem?_eq_some_iff.mp (hget.trans hwf)).1
        simp [hm, hlt]
      · simp [hm]

/-- Taking the module off the module list changes nothing else. -/
theorem unlinkModule_frame {s s' : State M} (h : unlinkModule m s = some s') :
    s'.hooks = s.hooks ∧ s'.moduleIdr = s.moduleIdr ∧ s'.modules = s.modules ∧
      (s'.moduleList = s.moduleList ↔ ¬ onModuleList m (s.moduleList.node m)) := by
  unfold unlinkModule at h
  split at h
  · rename_i hguard
    obtain ⟨list, hdel, rfl⟩ := Option.map_eq_some_iff.mp h
    exact ⟨rfl, rfl, rfl, iff_of_false (ListMem.delRcu_ne hdel) (not_not.mpr hguard)⟩
  · rename_i hguard
    obtain rfl := Option.some.inj h
    exact ⟨rfl, rfl, rfl, iff_of_true rfl hguard⟩

theorem unlinkModule_of_not {s : State M} (h : ¬ onModuleList m (s.moduleList.node m)) :
    unlinkModule m s = some s := by
  rw [unlinkModule, if_neg h]

/-! ## Registration -/

/-- What the workflow loop of the registration keeps, whether it succeeds or fails:
it links workflows of `m` and changes nothing but the hook tables, the
workflows' own fields and the heap. -/
structure LinksOnly (desc : M → Module) (m : M) (s s' : State M) : Prop where
  inv : HookInv desc s'.hooks
  purge_eq : s'.hooks.purge m = s.hooks.purge m
  idr_eq : s'.moduleIdr = s.moduleIdr
  list_eq : s'.moduleList = s.moduleList
  modules_eq : s'.modules = s.modules

/-- The stores in front of `insert_callback` concern the workflow and the heap only. -/
theorem prepareWorkflow_eq (env : RegisterEnv) (m : M) (i : ℕ) (wf : Workflow) (s : State M) :
    ∃ workflows heap, prepareWorkflow env m i wf s =
      { s with workflows := workflows, heap := heap } := by
  unfold prepareWorkflow
  split
  · exact ⟨_, _, rfl⟩
  · exact ⟨_, s.heap, rfl⟩

/-- **The registration loop.**  It links workflows of `m` only, and a loop that runs
to its end has linked all of them. -/
theorem registerLoop_spec (env : RegisterEnv) (wfs : List Workflow) :
    ∀ (i : ℕ) (ret : ℤ) (s : State M), HookInv desc s.hooks → ArrayFrom desc m i wfs →
      LinksOnly desc m s (registerLoop env m i wfs ret s).2 ∧
        (0 ≤ (registerLoop env m i wfs ret s).1 → ∀ ptr,
          (registerLoop env m i wfs ret s).2.hooks.Linked ptr ↔
            s.hooks.Linked ptr ∨
              (ptr.module = m ∧ i ≤ ptr.index ∧ ptr.index < i + wfs.length)) := by
  induction wfs with
  | nil =>
      intro i ret s hinv _
      refine ⟨⟨hinv, rfl, rfl, rfl, rfl⟩, fun _ ptr => (or_iff_left ?_).symm⟩
      rw [List.length_nil]
      omega
  | cons wf wfs ih =>
      intro i ret s hinv harray
      obtain ⟨workflows, heap, hprep⟩ := prepareWorkflow_eq env m i wf s
      rw [registerLoop, hprep]
      dsimp only
      rcases hinv.insertCallback_spec harray.head (env.hook i) with ⟨hneg, hsame⟩ | ⟨hpos, hlinks⟩
      · -- the insertion failed
        rw [if_pos hneg]
        refine ⟨⟨by rw [hsame]; exact hinv, by rw [hsame], rfl, rfl, rfl⟩, fun hcontra => ?_⟩
        exact absurd hneg (not_lt.mpr hcontra)
      · rw [if_neg (not_lt.mpr hpos)]
        obtain ⟨honly, hall⟩ := ih (i + 1) (insertCallback (env.hook i) ⟨m, i⟩ wf s.hooks).1
          { s with
            hooks := (insertCallback (env.hook i) ⟨m, i⟩ wf s.hooks).2
            workflows := Function.update workflows ⟨m, i⟩ { workflows ⟨m, i⟩ with id := i }
            heap := heap } hlinks.inv harray.tail
        refine ⟨⟨honly.inv, honly.purge_eq.trans hlinks.purge_eq, honly.idr_eq, honly.list_eq,
          honly.modules_eq⟩, fun hsuccess ptr => (hall hsuccess ptr).trans ?_⟩
        rw [hlinks.linked_iff, List.length_cons]
        constructor
        · intro hafter
          rcases hafter with (rfl | hlinked) | ⟨hm, hlow, hhigh⟩
          · exact .inr ⟨rfl, le_rfl, by dsimp only; omega⟩
          · exact .inl hlinked
          · exact .inr ⟨hm, by omega, by omega⟩
        · intro hbefore
          rcases hbefore with hlinked | ⟨hm, hlow, hhigh⟩
          · exact .inl (.inr hlinked)
          · -- the first index is the workflow that was just linked
            rcases hlow.eq_or_lt with heq | hlt
            · exact .inl (.inl (by cases ptr; simp_all))
            · exact .inr ⟨hm, by omega, by omega⟩

/-- A null `workflow_array` is an empty one to the loop, but for the value it starts with. -/
theorem registerWorkflows_eq_loop (desc : M → Module) (env : RegisterEnv) (m : M) (s : State M) :
    ∃ array ret, ArrayFrom desc m 0 array ∧
      registerWorkflows desc env m s = registerLoop env m 0 array ret s := by
  have harray := arrayFrom_zero desc m
  unfold registerWorkflows
  cases harr : (desc m).workflowArray with
  | none =>
      rw [harr] at harray
      dsimp only
      split
      · exact ⟨[], 0, harray, rfl⟩
      · exact ⟨[], -eInval, harray, rfl⟩
  | some array =>
      rw [harr] at harray
      exact ⟨array, 0, harray, rfl⟩

/-- The registration loop as a whole. -/
theorem registerWorkflows_spec (env : RegisterEnv) {s : State M} (hinv : HookInv desc s.hooks) :
    LinksOnly desc m s (registerWorkflows desc env m s).2 ∧
      (0 ≤ (registerWorkflows desc env m s).1 → ∀ ptr,
        (registerWorkflows desc env m s).2.hooks.Linked ptr ↔
          s.hooks.Linked ptr ∨ (ptr.module = m ∧ ∃ wf, workflowAt desc ptr = some wf)) := by
  obtain ⟨array, ret, harray, heq⟩ := registerWorkflows_eq_loop desc env m s
  rw [heq]
  obtain ⟨honly, hall⟩ := registerLoop_spec env array 0 ret s hinv harray
  refine ⟨honly, fun hsuccess ptr => (hall hsuccess ptr).trans (or_congr_right ?_)⟩
  apply and_congr_right
  intro hm
  have hget := harray ptr.index
  rw [Nat.zero_add, ← hm] at hget
  rw [← hget, Nat.zero_add]
  constructor
  · intro hrange
    obtain ⟨_, hlt⟩ := hrange
    exact ⟨_, List.getElem?_eq_getElem hlt⟩
  · intro hwf
    obtain ⟨wf, hwf⟩ := hwf
    exact ⟨Nat.zero_le _, (List.getElem?_eq_some_iff.mp hwf).1⟩

/-- The creation of the proc entry writes `parameter->entry` and the heap. -/
theorem createProcEntry_frame (desc : M → Module) (env : RegisterEnv) (ret : ℤ) (s : State M) :
    (createProcEntry desc env m ret s).2.hooks = s.hooks ∧
      (createProcEntry desc env m ret s).2.moduleIdr = s.moduleIdr ∧
      (createProcEntry desc env m ret s).2.moduleList = s.moduleList ∧
      ∀ m', ((createProcEntry desc env m ret s).2.modules m').id = (s.modules m').id := by
  have hid : ∀ entry m', (Function.update s.modules m { s.modules m with entry := entry } m').id =
      (s.modules m').id := by
    intro entry m'
    by_cases h : m' = m
    · simp [h]
    · simp [Function.update_of_ne h]
  unfold createProcEntry
  split
  · split
    · exact ⟨rfl, rfl, rfl, hid _⟩
    · exact ⟨rfl, rfl, rfl, hid _⟩
  · exact ⟨rfl, rfl, rfl, fun _ => rfl⟩

/-- `idr_alloc` has an id to give. -/
def IdAvailable (env : RegisterEnv) (s : State M) : Prop :=
  env.idrNoMem = false ∧ s.moduleIdr.lowestFree < intMax

/-- How a registration ends. -/
inductive RegisterOutcome (desc : M → Module) (env : RegisterEnv) (m : M) (s : State M) :
    Option (ℤ × State M) → Prop
  /-- `idr_alloc` fails, and nothing has happened. -/
  | noId (ret : ℤ) (hret : ret < 0) (hid : ¬ IdAvailable env s) :
      RegisterOutcome desc env m s (some (ret, s))
  /-- A later operation fails in the state `s₁`, and the rollback runs. -/
  | failed (ret : ℤ) (hret : ret < 0) (hid : IdAvailable env s) (s₁ : State M)
      (hidr : s₁.moduleIdr.entry =
        Function.update s.moduleIdr.entry s.moduleIdr.lowestFree (some m))
      (hinv : HookInv desc s₁.hooks) (hpurge : s₁.hooks.purge m = s.hooks.purge m)
      (hlist : s₁.moduleList = s.moduleList)
      (hids : ∀ m', (s₁.modules m').id = (s.modules m').id) :
      RegisterOutcome desc env m s
        ((secDetectorModuleUnregister desc env.rollback (some m) s₁).map (ret, ·))
  /-- All workflows are linked, and the module is published. -/
  | registered (ret : ℤ) (hret : 0 ≤ ret) (hid : IdAvailable env s) (s₁ : State M)
      (hidr : s₁.moduleIdr.entry =
        Function.update s.moduleIdr.entry s.moduleIdr.lowestFree (some m))
      (hinv : HookInv desc s₁.hooks)
      (hlinked : ∀ ptr, s₁.hooks.Linked ptr ↔
        s.hooks.Linked ptr ∨ (ptr.module = m ∧ ∃ wf, workflowAt desc ptr = some wf))
      (hlist : s₁.moduleList = s.moduleList)
      (hids : ∀ m', (s₁.modules m').id = (s.modules m').id) :
      RegisterOutcome desc env m s
        ((publishModule m s.moduleIdr.lowestFree s₁).map (ret, ·))

/-- **The three ways a registration ends.** -/
theorem register_outcome (env : RegisterEnv) {s : State M} (hinv : HookInv desc s.hooks) :
    RegisterOutcome desc env m s (secDetectorModuleRegister desc env (some m) s) := by
  unfold secDetectorModuleRegister
  dsimp only
  split
  · rename_i hmem
    exact .noId _ (by decide) fun hid => by simp [hid.1] at hmem
  · rename_i hmem
    cases halloc : s.moduleIdr.alloc m intMax with
    | none =>
        exact .noId _ (by decide) fun hid => absurd hid.2 (not_lt.mpr (Idr.alloc_eq_none halloc))
    | some result =>
        obtain ⟨id, idr⟩ := result
        have hid : IdAvailable env s := ⟨by simpa using hmem, Idr.lt_of_alloc halloc⟩
        obtain ⟨rfl, _, hentry⟩ := Idr.alloc_spec halloc
        dsimp only
        obtain ⟨honly, hall⟩ := registerWorkflows_spec (m := m) env
          (s := { s with moduleIdr := idr }) hinv
        -- the loop or the proc entry fails after the id was taken: both roll back alike
        cases hloop : registerWorkflows desc env m { s with moduleIdr := idr } with
        | mk ret s₁ =>
            rw [hloop] at honly hall
            dsimp only at honly hall ⊢
            by_cases hret : ret < 0
            · rw [if_pos hret]
              exact .failed ret hret hid s₁ (by rw [honly.idr_eq]; exact hentry) honly.inv
                honly.purge_eq honly.list_eq fun m' => by rw [honly.modules_eq]
            · rw [if_neg hret]
              obtain ⟨hhooks, hidr, hlist, hids⟩ :=
                createProcEntry_frame (m := m) desc env ret s₁
              have hidr' := (congrArg Idr.entry (hidr.trans honly.idr_eq)).trans hentry
              have hids' : ∀ m', ((createProcEntry desc env m ret s₁).2.modules m').id =
                  (s.modules m').id := fun m' => by rw [hids, honly.modules_eq]
              split
              · rename_i hproc
                exact .failed _ hproc hid _ hidr' (by rw [hhooks]; exact honly.inv)
                  (by rw [hhooks]; exact honly.purge_eq) (hlist.trans honly.list_eq) hids'
              · rename_i hproc
                exact .registered _ (not_lt.mp hproc) hid _ hidr' (by rw [hhooks]; exact honly.inv)
                  (by rw [hhooks]; exact hall (not_lt.mp hret)) (hlist.trans honly.list_eq) hids'

end SecDetector.Framework
