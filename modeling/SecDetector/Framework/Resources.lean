import SecDetector.Framework.Lifetime
import SecDetector.Framework.Runs
import SecDetector.Lib.ListChain

/-!
# Resources

A proc entry, an array of default responses and a baseline are each created once, released
at most once, and not used afterwards; a list node is deleted while it is linked.  Nothing
in the framework records who is responsible for a release.  The fields that point to a
resource stay set when it is gone, so a later call can take them for live ones.

`Guarded` rules these calls out, and `resources_safe` says that nothing else is needed.
Its invariant is ownership: what a registered module or a linked workflow points to is
live (`Owned`), and the module list is the chain of the registered modules.
-/

namespace SecDetector.Framework

open Lib

variable {M : Type*} [DecidableEq M] {desc : M → Module} {m : M} {t t' : Tracked M}

/-! ## The system -/

/-- One step of the framework, with the calls kept book of. -/
def trackedStep (desc : M → Module) (t : Tracked M) : Act M → Option (Tracked M)
  | .call (.register env module) => lifeStep desc t (.register env module)
  | .call (.unregister env module) =>
      (secDetectorModuleUnregister desc env module t.state).map fun s =>
        ⟨s, match module with
          | some m => Function.update t.registered m false
          | none => t.registered⟩
  | .run ptr env => (runStep desc t.state ptr env).map fun (_, s) => ⟨s, t.registered⟩

/-- Nothing has been called yet. -/
def trackedInit (desc : M → Module) (t : Tracked M) : Prop :=
  actInit desc t.state ∧ ∀ m, t.registered m = false

/-- The call comes to `list_del_rcu` for the node of `m`. -/
def Unlinks (desc : M → Module) (s : State M) (m : M) : Call M → Prop
  | .unregister _ module => module = some m ∧ onModuleList m (s.moduleList.node m)
  | .register env module => module = some m ∧ IdAvailable env s ∧
      RegisterFails desc env (some m) s ∧ onModuleList m (s.moduleList.node m)

/-- A step that releases nothing twice, reads nothing that is released, and deletes a list
node only from the list it is on. -/
structure StepSafe (desc : M → Module) (t : Tracked M) (a : Act M) : Prop where
  released : ∀ t', trackedStep desc t a = some t' → t'.state.heap.FreedOnce
  read : ∀ ptr env t', a = .run ptr env → trackedStep desc t a = some t' →
    ∀ target ∈ presetReads ptr env t.state, t.state.heap.Live target.1 target.2
  unlinked : ∀ call m, a = .call call → Unlinks desc t.state m call → t.state.moduleList.OnList m

/-! ## The condition -/

/-- The registrations of `m`, once they have an id, that meet no released resource. -/
structure Registrable (desc : M → Module) (env : RegisterEnv) (t : Tracked M) (m : M) : Prop where
  unregistered : t.registered m = false
  baselines : ∀ ptr wf, ptr.module = m → workflowAt desc ptr = some wf →
    t.state.LiveAt (.baseline ptr)
  arrays : ∀ ptr wf, ptr.module = m → workflowAt desc ptr = some wf →
    t.state.LiveAt (.array ptr) ∨
      ¬ RegisterFails desc env (some m) t.state ∧ env.kmalloc ptr.index = true
  rollback : RegisterFails desc env (some m) t.state →
    t.state.LiveAt (.entry m) ∧ ¬ onModuleList m (t.state.moduleList.node m)

/-- Modules unregister only when they are registered, and register only when they are not and
when their registration meets no released resource. -/
def Guarded (desc : M → Module) (t : Tracked M) : Act M → Prop
  | .call (.register env module) =>
      ∀ m, module = some m → IdAvailable env t.state → Registrable desc env t m
  | .call (.unregister _ module) => ∀ m, module = some m → t.registered m = true
  | .run _ _ => True

/-! ## Ownership -/

/-- The holders that are responsible for a live resource. -/
def Owned (desc : M → Module) (t : Tracked M) : Holder M → Prop
  | .entry m => t.registered m = true ∧ (desc m).hasParameter = true
  | .array ptr | .baseline ptr =>
      t.state.hooks.Linked ptr ∨
        t.registered ptr.module = true ∧ ∃ wf, workflowAt desc ptr = some wf

/-- The workflow is linked, or it belongs to a registered module. -/
def OwnedWorkflow (desc : M → Module) (t : Tracked M) (ptr : WorkflowPtr M) : Prop :=
  t.state.hooks.Linked ptr ∨ t.registered ptr.module = true ∧ ∃ wf, workflowAt desc ptr = some wf

omit [DecidableEq M] in
theorem owned_iff_of_workflow {k : Holder M} {ptr : WorkflowPtr M} (hptr : k.workflow = some ptr) :
    Owned desc t k ↔ OwnedWorkflow desc t ptr := by
  cases k with
  | entry m => simp [Holder.workflow] at hptr
  | array q | baseline q =>
      obtain rfl := Option.some.inj hptr
      exact Iff.rfl

/-- What holds between the steps of a guarded run. -/
structure ResourceInv (desc : M → Module) (t : Tracked M) : Prop where
  act : ActInv desc t.state
  chain : ∃ c, t.state.moduleList.Chain c ∧ ∀ m, m ∈ c ↔ t.registered m = true
  owns : Owns (Owned desc t) t.state

omit [DecidableEq M] in
theorem trackedInit.resourceInv (hinit : trackedInit desc t) : ResourceInv desc t := by
  have hact := hinit.1.actInv
  refine ⟨hact, ⟨[], ?_, fun m => by simp [hinit.2 m]⟩, hact.pointers, fun resource ptr => ?_,
    fun h _ ptr hptr => ?_⟩
  · rw [hinit.1.1.list]
    exact ListMem.chain_init
  · rw [hinit.1.1.heap]
    exact le_rfl
  · simp [hinit.1.held_eq_none] at hptr

omit [DecidableEq M] in
/-- A workflow without default responses holds no array. -/
theorem ArrayOf.heapPtr_eq_none {wf : Workflow} {array : ResponseArray} (harray : ArrayOf wf array)
    (hnot : ¬ wf.UsesDefaults) : array.heapPtr = none := by
  unfold ArrayOf at harray
  split at harray
  · rename_i hlen
    rcases harray with rfl | ⟨hpreset, _⟩
    · rfl
    · exact absurd ⟨hpreset, hlen⟩ hnot
  · obtain ⟨_, rfl, _⟩ := harray
    rfl

/-- **Ownership after an unregistration**, be it called for or a rollback. -/
theorem Owns.unregister {live : Holder M → Prop} {s s' : State M} {registered : M → Bool}
    {env : ℕ → HookEnv} (howns : Owns live s) (hhooks : HookInv desc s.hooks)
    (hreleases : Releases desc m s live) (hnot : registered m = false)
    (hlive : ∀ k, Owned desc ⟨s, registered⟩ k → live k)
    (hunreg : secDetectorModuleUnregister desc env (some m) s = some s') :
    Owns (Owned desc ⟨s', registered⟩) s' := by
  have hmoves := unregister_moves hreleases hunreg
  refine (hmoves.mono fun k hk => ?_).owns howns
  -- the hooks are those of `s`, or without the workflows of `m`
  obtain ⟨s₁, heq, hhooks₁, _⟩ := unregister_eq_unlinkModule (m := m) hhooks env
  rw [heq] at hunreg
  have hafter := (unlinkModule_frame hunreg).1.trans hhooks₁
  have hlinked : ∀ ptr, s'.hooks.Linked ptr →
      s.hooks.Linked ptr ∧ (IdFound m s → ptr.module ≠ m) := by
    intro ptr hptr
    rw [hafter] at hptr
    split at hptr
    · rename_i hnone
      exact ⟨hptr, fun hfound => absurd hnone hfound⟩
    · rw [Hooks.linked_purge] at hptr
      exact ⟨hptr.1, fun _ => hptr.2⟩
  have hother : ∀ m', registered m' = true → m' ≠ m := by
    rintro m' hm' rfl
    rw [hnot] at hm'
    exact Bool.false_ne_true hm'
  have hworkflow : ∀ ptr, OwnedWorkflow desc ⟨s', registered⟩ ptr →
      OwnedWorkflow desc ⟨s, registered⟩ ptr ∧ (IdFound m s → ptr.module ≠ m) := by
    intro ptr hptr
    rcases hptr with hptr | ⟨hreg, hwf⟩
    · exact ⟨.inl (hlinked ptr hptr).1, (hlinked ptr hptr).2⟩
    · exact ⟨.inr ⟨hreg, hwf⟩, fun _ => hother _ hreg⟩
  rcases k.entry_or_workflow with ⟨m', rfl⟩ | ⟨ptr, hptr⟩
  · refine ⟨hlive _ hk, ?_, fun _ ptr wf hptr => by simp [Holder.workflow] at hptr⟩
    intro heq'
    exact hother m' hk.1 (Holder.entry.inj heq')
  · obtain ⟨howned, hm⟩ := hworkflow ptr ((owned_iff_of_workflow hptr).mp hk)
    refine ⟨hlive k ((owned_iff_of_workflow hptr).mpr howned), ?_, fun hfound q wf hq _ => ?_⟩
    · rintro rfl
      simp [Holder.workflow] at hptr
    · obtain rfl := Option.some.inj (hptr.symm.trans hq)
      exact hm hfound

/-- The bookkeeping takes no part in a step. -/
theorem actStep_of_trackedStep {a : Act M} (hstep : trackedStep desc t a = some t') :
    actStep desc t.state a = some t'.state := by
  cases a with
  | run ptr env =>
      obtain ⟨⟨d, s⟩, hrun, rfl⟩ := Option.map_eq_some_iff.mp hstep
      rw [actStep, hrun]
      rfl
  | call call =>
      cases call with
      | register env module =>
          obtain ⟨⟨ret, s⟩, hreg, rfl⟩ := Option.map_eq_some_iff.mp hstep
          rw [actStep, step, hreg]
          rfl
      | unregister env module =>
          obtain ⟨s, hunreg, rfl⟩ := Option.map_eq_some_iff.mp hstep
          exact hunreg

/-- The list after `m` is deleted from it. -/
theorem unlinkModule_chain {s s' : State M} {c : List M} (hchain : s.moduleList.Chain c)
    (hmem : m ∈ c) (hunlink : unlinkModule m s = some s') : s'.moduleList.Chain (c.erase m) := by
  obtain ⟨hnext, hprev, hself⟩ := hchain.node_linked hmem
  obtain ⟨list, hdel, hchain'⟩ := hchain.delRcu hmem
  have hguard : onModuleList m (s.moduleList.node m) := ⟨hnext.1, hprev.1, .inl hself⟩
  rw [unlinkModule, if_pos hguard, hdel] at hunlink
  obtain rfl := Option.some.inj hunlink
  exact hchain'

/-- A registered module unregisters. -/
theorem ResourceInv.unregister (hinv : ResourceInv desc t) {env : ℕ → HookEnv}
    (hreg : t.registered m = true) {s : State M}
    (hunreg : secDetectorModuleUnregister desc env (some m) t.state = some s)
    (hact : ActInv desc s) : ResourceInv desc ⟨s, Function.update t.registered m false⟩ := by
  refine ⟨hact, ?_, ?_⟩
  · obtain ⟨c, hchain, hc⟩ := hinv.chain
    obtain ⟨s₁, heq, _, _, hlist, _⟩ :=
      unregister_eq_unlinkModule (m := m) hinv.act.frame.hooks env
    rw [heq] at hunreg
    refine ⟨c.erase m, unlinkModule_chain (by rw [hlist]; exact hchain) ((hc m).mpr hreg) hunreg,
      fun m' => ?_⟩
    rw [hchain.nodup.mem_erase_iff, hc]
    by_cases hm : m' = m
    · simp [hm]
    · simp [hm]
  · refine hinv.owns.unregister hinv.act.frame.hooks ⟨fun hparam => ⟨hreg, hparam⟩, ?_⟩
      (Function.update_self m false t.registered) (fun k hk => ?_) hunreg
    · intro _ k ptr wf hptr hm hwf
      exact (owned_iff_of_workflow hptr).mpr (.inr ⟨hm ▸ hreg, wf, hwf⟩)
    · have hsub : ∀ m', Function.update t.registered m false m' = true →
          t.registered m' = true := by
        intro m' hm'
        by_cases hm : m' = m
        · simp [hm] at hm'
        · rwa [Function.update_of_ne hm] at hm'
      rcases k.entry_or_workflow with ⟨m', rfl⟩ | ⟨ptr, hptr⟩
      · exact ⟨hsub m' hk.1, hk.2⟩
      · rw [owned_iff_of_workflow hptr] at hk ⊢
        exact hk.imp_right fun h => ⟨hsub _ h.1, h.2⟩

omit [DecidableEq M] in
/-- All of `LiveAt` is live, so nothing more has to be known of a state whose pointers are
sound. -/
theorem ResourceInv.ownsLive (hinv : ResourceInv desc t) :
    Owns t.state.LiveAt t.state :=
  ⟨hinv.owns.pointers, hinv.owns.freedOnce, fun _ hlive => hlive⟩

/-- Nothing that a rollback frees was released before. -/
theorem Registrable.liveAt {env : RegisterEnv} (hok : Registrable desc env t m)
    (hfails : RegisterFails desc env (some m) t.state) {k : Holder M} {ptr : WorkflowPtr M}
    {wf : Workflow} (hptr : k.workflow = some ptr) (hm : ptr.module = m)
    (hwf : workflowAt desc ptr = some wf) : t.state.LiveAt k := by
  cases k with
  | entry m' => simp [Holder.workflow] at hptr
  | array q =>
      obtain rfl := Option.some.inj hptr
      exact (hok.arrays q wf hm hwf).resolve_right fun h => h.1 hfails
  | baseline q =>
      obtain rfl := Option.some.inj hptr
      exact hok.baselines q wf hm hwf

/-- A registration that fails is rolled back, and nothing it meets was released before. -/
theorem ResourceInv.rollback (hinv : ResourceInv desc t) {env : RegisterEnv}
    (hok : Registrable desc env t m) (hfails : RegisterFails desc env (some m) t.state)
    {idr : Idr M} {ret : ℤ} {s₁ s : State M}
    (hattempt : registerAttempt desc env m { t.state with moduleIdr := idr } = (ret, s₁))
    (hunreg : secDetectorModuleUnregister desc env.rollback (some m) s₁ = some s)
    (hact : ActInv desc s) : ResourceInv desc ⟨s, t.registered⟩ := by
  obtain ⟨hhooks₁, hpurge, _, hlist₁, _, _⟩ :=
    registerAttempt_links (s := { t.state with moduleIdr := idr }) env hinv.act.frame.hooks hattempt
  obtain ⟨hentry, hnode⟩ := hok.rollback hfails
  refine ⟨hact, ?_, ?_⟩
  · -- the module list is the same
    obtain ⟨c, hchain, hc⟩ := hinv.chain
    obtain ⟨s₂, heq, _, _, hlist, _⟩ := unregister_eq_unlinkModule (m := m) hhooks₁ env.rollback
    have hlist' : s₂.moduleList = t.state.moduleList := hlist.trans hlist₁
    rw [heq, unlinkModule_of_not (by rw [hlist']; exact hnode)] at hunreg
    obtain rfl := Option.some.inj hunreg
    exact ⟨c, by rw [hlist']; exact hchain, hc⟩
  · have hmoves := (moves_moduleIdr t.state.LiveAt t.state idr).trans
      (registerAttempt_moves _ hattempt)
    have howns := hmoves.owns hinv.ownsLive
    have hlinked : ∀ ptr, s₁.hooks.Linked ptr →
        t.state.hooks.Linked ptr ∨ ptr.module = m ∧ ∃ wf, workflowAt desc ptr = some wf := by
      intro ptr hptr
      by_cases hm : ptr.module = m
      · exact .inr ⟨hm, hhooks₁.workflowAt_of_linked hptr⟩
      · have hsame : (s₁.hooks.purge m).Linked ptr := Hooks.linked_purge.mpr ⟨hptr, hm⟩
        rw [hpurge] at hsame
        exact .inl (Hooks.linked_purge.mp hsame).1
    have hlive : ∀ k, Owned desc ⟨s₁, t.registered⟩ k → t.state.LiveAt k := by
      intro k hk
      rcases k.entry_or_workflow with ⟨m', rfl⟩ | ⟨ptr, hptr⟩
      · exact hinv.owns.live _ hk
      · have howned : Owned desc t k ↔ OwnedWorkflow desc t ptr := owned_iff_of_workflow hptr
        rcases (owned_iff_of_workflow hptr).mp hk with hnow | hreg
        · rcases hlinked ptr hnow with hold | ⟨hm, wf, hwf⟩
          · exact hinv.owns.live k (howned.mpr (.inl hold))
          · exact hok.liveAt hfails hptr hm hwf
        · exact hinv.owns.live k (howned.mpr (.inr hreg))
    refine howns.unregister hhooks₁ ⟨fun _ => .inl hentry, ?_⟩ hok.unregistered
      (fun k hk => .inl (hlive k hk)) hunreg
    intro _ k ptr wf hptr hm hwf
    exact .inl (hok.liveAt hfails hptr hm hwf)

/-- Publishing a module puts it before the registered ones. -/
theorem publishModule_chain {registered : M → Bool} {s s' : State M} {c : List M}
    (hchain : s.moduleList.Chain c) (hc : ∀ m', m' ∈ c ↔ registered m' = true)
    (hnew : registered m = false) {id : ℕ} (hpub : publishModule m id s = some s') :
    ∃ c', s'.moduleList.Chain c' ∧ ∀ m', m' ∈ c' ↔ Function.update registered m true m' = true := by
  have hnot : m ∉ c := by
    rw [hc, hnew]
    exact Bool.false_ne_true
  obtain ⟨list, hadd, hchain'⟩ := hchain.addRcu hnot
  rw [publishModule, hadd] at hpub
  obtain rfl := Option.some.inj hpub
  refine ⟨m :: c, hchain', fun m' => ?_⟩
  rw [List.mem_cons, hc]
  by_cases hm : m' = m
  · simp [hm]
  · simp [hm]

/-- After a registration a workflow is owned as before, or it is one of its module. -/
theorem OwnedWorkflow.of_update {s : State M} {ptr : WorkflowPtr M}
    (hlinked : s.hooks.Linked ptr →
      t.state.hooks.Linked ptr ∨ ptr.module = m ∧ ∃ wf, workflowAt desc ptr = some wf)
    (hptr : OwnedWorkflow desc ⟨s, Function.update t.registered m true⟩ ptr) :
    OwnedWorkflow desc t ptr ∨ ptr.module = m ∧ ∃ wf, workflowAt desc ptr = some wf := by
  rcases hptr with hptr | ⟨hreg, hwf⟩
  · exact (hlinked hptr).imp_left .inl
  · by_cases hm : ptr.module = m
    · exact .inr ⟨hm, hwf⟩
    · dsimp only at hreg
      rw [Function.update_of_ne hm] at hreg
      exact .inl (.inr ⟨hreg, hwf⟩)

/-- A registration that succeeds makes its module the owner of everything its workflows
hold. -/
theorem ResourceInv.publish (hinv : ResourceInv desc t) {env : RegisterEnv}
    (hok : Registrable desc env t m) {idr : Idr M} {id : ℕ} {ret : ℤ} {s₁ s : State M}
    (hret : 0 ≤ ret)
    (hattempt : registerAttempt desc env m { t.state with moduleIdr := idr } = (ret, s₁))
    (hpub : publishModule m id s₁ = some s) (hact : ActInv desc s) :
    ResourceInv desc ⟨s, Function.update t.registered m true⟩ := by
  obtain ⟨_, _, _, hlist₁, _, hall⟩ :=
    registerAttempt_links (s := { t.state with moduleIdr := idr }) env hinv.act.frame.hooks hattempt
  have hlinked := hall hret
  refine ⟨hact, ?_, ?_⟩
  · obtain ⟨c, hchain, hc⟩ := hinv.chain
    exact publishModule_chain (hlist₁ ▸ hchain) hc hok.unregistered hpub
  · have hmoves := (moves_moduleIdr t.state.LiveAt t.state idr).trans
      ((registerAttempt_moves _ hattempt).trans (publishModule_moves hpub))
    refine (hmoves.mono fun k hk => ?_).owns hinv.ownsLive
    have hworkflow : ∀ ptr, OwnedWorkflow desc ⟨s, Function.update t.registered m true⟩ ptr →
        OwnedWorkflow desc t ptr ∨ ptr.module = m ∧ ∃ wf, workflowAt desc ptr = some wf := by
      intro ptr hptr
      apply hptr.of_update
      intro hnow
      rw [(publishModule_frame hpub).1, hlinked] at hnow
      exact hnow
    cases k with
    | entry m' =>
        by_cases hm : m' = m
        · exact .inr ⟨hret, .inr ⟨congrArg _ hm, hm ▸ hk.2⟩⟩
        · have hreg := hk.1
          dsimp only at hreg
          rw [Function.update_of_ne hm] at hreg
          exact .inl (hinv.owns.live (.entry m') ⟨hreg, hk.2⟩)
    | baseline ptr =>
        rcases hworkflow ptr hk with hold | ⟨hm, wf, hwf⟩
        · exact .inl (hinv.owns.live (.baseline ptr) hold)
        · exact .inl (hok.baselines ptr wf hm hwf)
    | array ptr =>
        rcases hworkflow ptr hk with hold | ⟨hm, wf, hwf⟩
        · exact .inl (hinv.owns.live (.array ptr) hold)
        · rcases hok.arrays ptr wf hm hwf with hlive | ⟨_, halloc⟩
          · exact .inl hlive
          · by_cases hdefaults : wf.UsesDefaults
            · exact .inr ⟨hret, .inl ⟨ptr, wf, rfl, hm, Nat.zero_le _, hwf, hdefaults, halloc⟩⟩
            · -- nothing is held
              have hnone := (hinv.act.arrays ptr wf hwf).heapPtr_eq_none hdefaults
              exact .inl fun array harray => by simp [State.held, hnone] at harray

/-- A registration that meets the condition. -/
theorem ResourceInv.register (hinv : ResourceInv desc t) {env : RegisterEnv}
    (hok : IdAvailable env t.state → Registrable desc env t m) {ret : ℤ} {s : State M}
    (hreg : secDetectorModuleRegister desc env (some m) t.state = some (ret, s))
    (hact : ActInv desc s) :
    ResourceInv desc ⟨s, if 0 ≤ ret then Function.update t.registered m true
      else t.registered⟩ := by
  rcases register_cases hreg with ⟨_, hneg, rfl⟩ |
    ⟨hid, idr, s₁, hattempt, ⟨hneg, hunreg⟩ | ⟨hpos, hpub⟩⟩
  · rw [if_neg (not_le.mpr hneg)]
    exact hinv
  · have hfails : RegisterFails desc env (some m) t.state := by
      intro ret' s' hcall
      obtain ⟨rfl, _⟩ := Prod.mk.inj (Option.some.inj (hreg.symm.trans hcall))
      exact hneg
    rw [if_neg (not_le.mpr hneg)]
    exact hinv.rollback (hok hid) hfails hattempt hunreg hact
  · rw [if_pos hpos]
    exact hinv.publish (hok hid) hpos hattempt hpub hact

/-- A run owns the baseline it creates. -/
theorem ResourceInv.run (hinv : ResourceInv desc t) {ptr : WorkflowPtr M} {env : RunEnv}
    {d : Dispatch} {s : State M} (hrun : presetWorkflow ptr env t.state = some (d, s)) :
    ResourceInv desc ⟨s, t.registered⟩ := by
  obtain ⟨_, hhooks, hlist, _, _⟩ := presetWorkflow_frame hrun
  obtain ⟨c, hchain, hc⟩ := hinv.chain
  refine ⟨hinv.act.run hrun, ⟨c, by rw [hlist]; exact hchain, hc⟩, ?_⟩
  have howns := (presetWorkflow_moves hrun).owns hinv.owns
  refine ⟨howns.pointers, howns.freedOnce, fun k hk => howns.live k ?_⟩
  cases k with
  | entry m => exact hk
  | array ptr => exact hk.imp_left fun h => hhooks ▸ h
  | baseline ptr => exact hk.imp_left fun h => hhooks ▸ h

theorem ResourceInv.step {a : Act M} (hinv : ResourceInv desc t) (hok : Guarded desc t a)
    (hstep : trackedStep desc t a = some t') : ResourceInv desc t' := by
  have hact := hinv.act.step (actStep_of_trackedStep hstep)
  cases a with
  | run ptr env =>
      obtain ⟨⟨d, s⟩, hrun, rfl⟩ := Option.map_eq_some_iff.mp hstep
      exact hinv.run (runStep_spec hrun).2
  | call call =>
      cases call with
      | register env module =>
          obtain ⟨⟨ret, s⟩, hreg, rfl⟩ := Option.map_eq_some_iff.mp hstep
          cases module with
          | none =>
              obtain ⟨_, rfl⟩ := Prod.mk.inj (Option.some.inj hreg)
              exact hinv
          | some m => exact hinv.register (hok m rfl) hreg hact
      | unregister env module =>
          obtain ⟨s, hunreg, rfl⟩ := Option.map_eq_some_iff.mp hstep
          cases module with
          | none =>
              obtain rfl := Option.some.inj hunreg
              exact hinv
          | some m => exact hinv.unregister (hok m rfl) hunreg hact

/-! ## The result -/

omit [DecidableEq M] in
/-- What a run of a linked workflow reads is live. -/
theorem ResourceInv.presetReads_live (hinv : ResourceInv desc t) {ptr : WorkflowPtr M}
    (hlinked : t.state.hooks.Linked ptr) (env : RunEnv) :
    ∀ target ∈ presetReads ptr env t.state, t.state.heap.Live target.1 target.2 := by
  intro target htarget
  rcases List.mem_append.mp htarget with hbaseline | harray
  · split at hbaseline
    · obtain ⟨data, hdata, rfl⟩ := List.mem_map.mp hbaseline
      exact hinv.owns.live (.baseline ptr) (.inl hlinked) data (Option.mem_toList.mp hdata)
    · simp at hbaseline
  · split at harray
    · rename_i array _ heq
      obtain rfl := List.mem_singleton.mp harray
      exact hinv.owns.live (.array ptr) (.inl hlinked) array (by simp [State.held, heq,
        ResponseArray.heapPtr])
    · simp at harray
    · simp at harray

/-- **Resources are released once and not used afterwards.**  In every run all of whose
steps meet the condition, and for every further step that does. -/
theorem resources_safe {acts : List (Act M)} {a : Act M}
    (hrun : Run (trackedStep desc) (Guarded desc) (trackedInit desc) acts t)
    (hok : Guarded desc t a) : StepSafe desc t a := by
  have hinv : ResourceInv desc t :=
    hrun.invariant (fun _ hinit => hinit.resourceInv) fun _ _ _ hinv hok hst => hinv.step hok hst
  refine ⟨fun t' hstep => (hinv.step hok hstep).owns.freedOnce, ?_, ?_⟩
  · rintro ptr env t' rfl hstep
    obtain ⟨⟨d, s⟩, hrun, _⟩ := Option.map_eq_some_iff.mp hstep
    exact hinv.presetReads_live (runStep_spec hrun).1 env
  · rintro call m rfl hunlinks
    obtain ⟨c, hchain, hc⟩ := hinv.chain
    cases call with
    | register env module =>
        obtain ⟨rfl, hid, hfails, hnode⟩ := hunlinks
        exact absurd hnode ((hok m rfl hid).rollback hfails).2
    | unregister env module =>
        obtain ⟨rfl, _⟩ := hunlinks
        exact ⟨c, hchain, (hc m).mpr (hok m rfl)⟩

/-- The function switches before their registration. -/
def switchTracked : Tracked Unit := ⟨freshState, fun _ => false⟩

theorem switchTracked_init : trackedInit switchModule switchTracked :=
  ⟨freshState_actInit, fun _ => rfl⟩

/-- A first life: registration, a round, and unregistration. -/
theorem switch_unregister_safe : ∃ t,
    exec (trackedStep switchModule) switchTracked
        [.call (.register (kprobeEnv 0) (some ())), .run ⟨(), 0⟩ (switchRound true)] = some t ∧
      StepSafe switchModule t (.call (.unregister (kprobeEnv 0).rollback (some ()))) := by
  have hsucceeds : ¬ RegisterFails switchModule (kprobeEnv 0) (some ()) freshState :=
    fun hfails => absurd (hfails 0 switchRegistered rfl) (lt_irrefl 0)
  have hlive : ∀ k, switchTracked.state.LiveAt k := by
    intro k ptr hptr
    exact absurd (hptr.symm.trans (freshState_actInit.held_eq_none k)) (by simp)
  have hregistrable : Registrable switchModule (kprobeEnv 0) switchTracked () :=
    ⟨rfl, fun _ _ _ _ => hlive _, fun _ _ _ _ => .inl (hlive _),
      fun hfails => absurd hfails hsucceeds⟩
  have hrun : Run (trackedStep switchModule) (Guarded switchModule) (trackedInit switchModule)
      ([.call (.register (kprobeEnv 0) (some ()))] ++ [.run ⟨(), 0⟩ (switchRound true)]) _ :=
    .next (.next (.start switchTracked_init) (fun _ _ _ => hregistrable) rfl) trivial rfl
  exact ⟨_, rfl, resources_safe hrun fun _ _ => rfl⟩

/-! ## A second life

The function switches are registered again after they were unregistered.  Their baseline
is released, but `init_tag` is still set. -/

/-- Resources are used after their release in general. -/
theorem not_resources_safe :
    ¬ ∀ (desc : Unit → Module) (acts : List (Act Unit)) (t : Tracked Unit) (a : Act Unit),
      Run (trackedStep desc) Unguarded (trackedInit desc) acts t → StepSafe desc t a := by
  intro hclaim
  have hrun : Run (trackedStep switchModule) Unguarded (trackedInit switchModule)
      [.call (.register (kprobeEnv 0) (some ())), .run ⟨(), 0⟩ (switchRound true),
        .call (.unregister (kprobeEnv 0).rollback (some ())),
        .call (.register (kprobeEnv 0) (some ()))] _ :=
    .of_exec switchTracked_init (fun _ _ _ => trivial) rfl
  have hsafe := hclaim _ _ _ (.run ⟨(), 0⟩ (switchRound true)) hrun
  have hlive := hsafe.read ⟨(), 0⟩ (switchRound true) _ rfl rfl (.baseline, 1) (by decide)
  revert hlive
  decide

end SecDetector.Framework
