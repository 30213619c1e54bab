import SecDetector.Framework.Lifetime
import SecDetector.Lib.RcuList
import SecDetector.Lib.Run

/-!
# The kprobe handlers

`do_secDetector_hook_callback_valid_ret` of `secDetector_hook.h`: when a kprobe fires, its
handler goes through the list of its hook and calls the workflows that are enabled.  It takes no
lock but `rcu_read_lock`, so `insert_callback` and `delete_callback` change the list while
handlers are on it, and when a workflow is unlinked its module goes away, memory and all.

A state has the lists of `secDetector_hook_array` twice: `arrays` are the pointers, as a handler
sees them, and `hooks` are the tables as the callers of `insert_callback` and `delete_callback`
see them.  `delete_callback` is three steps, between which handlers run: it unlinks the workflow,
`synchronize_rcu` returns, and it unregisters the kprobe if the list is empty.
`g_hook_list_array_mutex` is held from the first to the last, and `hooks` changes with the last.

Workflows of timers are on other lists, which no handler reads.  What the called workflows return
is stored in a variable that is not used, and a handler returns 0.
-/

namespace SecDetector.Framework

open Lib

variable {M R : Type*}

/-! ## The system -/

/-- A handler that is on the list of its hook: the workflows that it has been at, each with what
it returned if it was called. -/
structure Handler (M : Type*) where
  hookType : ℕ
  rounds : List (WorkflowPtr M × Option ℤ)

structure Live (M R : Type*) where
  arrays : ℕ → RcuList (WorkflowPtr M) R
  hooks : Hooks M
  running : R → Option (Handler M)
  /-- The workflow that `delete_callback` has unlinked, until it returns. -/
  deleting : Option (WorkflowPtr M)
  unloaded : M → Bool

inductive LiveAct (M R : Type*) where
  /-- A kprobe fires. -/
  | fire (r : R) (hookType : ℕ)
  /-- One round of the loop of a handler; `ret` is what the workflow returns if it is called. -/
  | round (r : R) (ret : ℤ)
  | insert (env : HookEnv) (ptr : WorkflowPtr M)
  | unlink (ptr : WorkflowPtr M)
  | synced
  | delete (env : HookEnv)
  | unload (m : M)
  | load (m : M)
  /-- The memory of an unloaded module is used for something else. -/
  | reuse (ptr : WorkflowPtr M) (entry : ListHead (WorkflowPtr M))

/-- `init_secDetector_hook`. -/
def liveInit (s : Live M R) : Prop :=
  (∀ t, s.arrays t = .init) ∧ s.hooks = ⟨fun _ => [], [], fun _ => false, fun _ => false⟩ ∧
    (∀ r, s.running r = none) ∧ s.deleting = none

namespace Live

variable [DecidableEq M] [DecidableEq R] (desc : M → Module) (enabled : WorkflowPtr M → Bool)
  (s : Live M R)

/-- An operation on the list of a hook. -/
def onArray (t : ℕ) (op : RcuList.Op (WorkflowPtr M) R) : Option (Live M R) :=
  ((s.arrays t).step op).map fun array => { s with arrays := Function.update s.arrays t array }

/-- The kprobe of a hook fires, and its handler takes the read lock. -/
def fire (r : R) (t : ℕ) : Option (Live M R) :=
  if s.hooks.kprobe t ∧ s.running r = none then
    (s.onArray t (.enter r)).map fun s =>
      { s with running := Function.update s.running r (some ⟨t, []⟩) }
  else none

/-- One round of the loop: the next workflow is called if it is enabled, and at the end of the
list the handler returns.  A pointer that leads nowhere and an unloaded workflow are faults. -/
def round (r : R) (ret : ℤ) : Option (Live M R) :=
  (s.running r).bind fun handler =>
    (s.onArray handler.hookType (.advance r)).bind fun s =>
      if r ∈ (s.arrays handler.hookType).inside then
        match (s.arrays handler.hookType).cursor r with
        | .node ptr =>
            if s.unloaded ptr.module then none
            else
              let called := if enabled ptr then some ret else none
              let handler := { handler with rounds := handler.rounds ++ [(ptr, called)] }
              some { s with running := Function.update s.running r (some handler) }
        | _ => none
      else some { s with running := Function.update s.running r none }

/-- `insert_callback` for a kprobe; all that a handler sees of it is `list_add_rcu`. -/
def insert (env : HookEnv) (ptr : WorkflowPtr M) : Option (Live M R) :=
  (workflowAt desc ptr).bind fun wf =>
    if wf.hookType ≤ kprobeHookEnd ∧ s.deleting = none ∧ s.unloaded ptr.module = false then
      let hooks := (insertCallback env ptr wf s.hooks).2
      if hooks.hookArray wf.hookType = s.hooks.hookArray wf.hookType then
        some { s with hooks := hooks }
      else (s.onArray wf.hookType (.addFront ptr)).map fun s => { s with hooks := hooks }
    else none

/-- `delete_callback` up to `list_del_rcu`, for a kprobe. -/
def unlink (ptr : WorkflowPtr M) : Option (Live M R) :=
  (workflowAt desc ptr).bind fun wf =>
    if s.deleting = none ∧ ptr ∈ s.hooks.hookArray wf.hookType then
      (s.onArray wf.hookType (.remove ptr)).map fun s => { s with deleting := some ptr }
    else none

/-- `synchronize_rcu` returns. -/
def synced : Option (Live M R) :=
  s.deleting.bind fun ptr => (workflowAt desc ptr).bind fun wf => s.onArray wf.hookType .synced

/-- The end of `delete_callback`.  `unregister_kprobe` waits for the handlers that run. -/
def delete (env : HookEnv) : Option (Live M R) :=
  s.deleting.bind fun ptr => (workflowAt desc ptr).bind fun wf =>
    let hooks := (deleteCallback env ptr wf s.hooks).2
    if (s.arrays wf.hookType).removing = none ∧
        (hooks.kprobe wf.hookType = false → (s.arrays wf.hookType).inside = []) then
      some { s with hooks := hooks, deleting := none }
    else none

/-- A module goes, here only one that has no workflow on a list.  The kernel does not look; that
it is so is up to `secDetector_module_unregister` (`unload_of_unregistered`). -/
def unload (m : M) : Option (Live M R) :=
  if ∀ t ≤ kprobeHookEnd, ∀ ptr ∈ s.hooks.hookArray t, ptr.module ≠ m then
    some { s with unloaded := Function.update s.unloaded m true }
  else none

/-- The owner of memory that was a workflow writes to it. -/
def reuse (ptr : WorkflowPtr M) (entry : ListHead (WorkflowPtr M)) : Option (Live M R) :=
  (workflowAt desc ptr).bind fun wf =>
    if s.unloaded ptr.module then s.onArray wf.hookType (.scribble ptr entry) else none

end Live

/-- The system. -/
def liveStep [DecidableEq M] [DecidableEq R] (desc : M → Module) (enabled : WorkflowPtr M → Bool)
    (s : Live M R) :
    LiveAct M R → Option (Live M R)
  | .fire r t => s.fire r t
  | .round r ret => s.round enabled r ret
  | .insert env ptr => s.insert desc env ptr
  | .unlink ptr => s.unlink desc ptr
  | .synced => s.synced desc
  | .delete env => s.delete desc env
  | .unload m => s.unload m
  | .load m => some { s with unloaded := Function.update s.unloaded m false }
  | .reuse ptr entry => s.reuse desc ptr entry

/-! ## The invariant -/

section Invariant

variable {desc : M → Module} {enabled : WorkflowPtr M → Bool} {s s' : Live M R}
  {r : R} {ptr : WorkflowPtr M} {wf : Workflow} {t : ℕ}

/-- What is on a list is what the tables say, less the workflow that is being deleted. -/
structure TableInv [DecidableEq M] (desc : M → Module) (s : Live M R) : Prop where
  hooks : HookInv desc s.hooks
  arrays : ∀ t, (s.arrays t).Inv
  list_eq : ∀ t, (s.arrays t).list =
    (s.hooks.hookArray t).filter fun ptr => decide (s.deleting ≠ some ptr)
  removing : ∀ t ptr, (s.arrays t).removing = some ptr →
    s.deleting = some ptr ∧ ptr ∈ s.hooks.hookArray t
  loaded : ∀ t, ∀ ptr ∈ s.hooks.hookArray t, s.unloaded ptr.module = false

/-- The handlers are the readers of the lists, and their kprobes are registered. -/
structure HandlerInv (enabled : WorkflowPtr M → Bool) (s : Live M R) : Prop where
  running : ∀ r handler, s.running r = some handler →
    r ∈ (s.arrays handler.hookType).inside ∧
      (s.arrays handler.hookType).visited r = handler.rounds.map Prod.fst
  inside : ∀ t, ∀ r ∈ (s.arrays t).inside,
    ∃ handler, s.running r = some handler ∧ handler.hookType = t
  registered : ∀ t, (s.arrays t).inside ≠ [] → s.hooks.kprobe t = true
  called : ∀ r handler, s.running r = some handler →
    ∀ round ∈ handler.rounds, round.2.isSome = enabled round.1

def LiveInv [DecidableEq M] (desc : M → Module) (enabled : WorkflowPtr M → Bool)
    (s : Live M R) : Prop :=
  TableInv desc s ∧ HandlerInv enabled s

theorem liveInv_of_init [DecidableEq M] (hinit : liveInit s) : LiveInv desc enabled s := by
  obtain ⟨harrays, hhooks, hrunning, hdeleting⟩ := hinit
  refine ⟨⟨?_, fun t => harrays t ▸ RcuList.inv_init, fun t => ?_, fun t => ?_, fun t => ?_⟩,
    ⟨fun r => ?_, fun t => ?_, fun t => ?_, fun r => ?_⟩⟩
  · rw [hhooks]
    constructor <;> simp
  · rw [harrays t, hhooks]
    rfl
  · simp [harrays t, RcuList.init]
  · simp [hhooks]
  · simp [hrunning r]
  · simp [harrays t, RcuList.init]
  · simp [harrays t, RcuList.init]
  · simp [hrunning r]

/-- A step that changes neither the handlers nor what they have been at. -/
theorem HandlerInv.congr (hinv : HandlerInv enabled s) (hrunning : s'.running = s.running)
    (hinside : ∀ t, (s'.arrays t).inside = (s.arrays t).inside)
    (hvisited : ∀ t, (s'.arrays t).visited = (s.arrays t).visited)
    (hkprobe : ∀ t, (s.arrays t).inside ≠ [] → s.hooks.kprobe t = true →
      s'.hooks.kprobe t = true) : HandlerInv enabled s' := by
  refine ⟨fun r handler h => ?_, fun t r hr => ?_, fun t ht => ?_, fun r handler h => ?_⟩
  · rw [hinside, hvisited]
    exact hinv.running r handler (hrunning ▸ h)
  · rw [hrunning]
    exact hinv.inside t r (hinside t ▸ hr)
  · rw [hinside] at ht
    exact hkprobe t ht (hinv.registered t ht)
  · exact hinv.called r handler (hrunning ▸ h)

/-- A property of all lists, when one of them is replaced. -/
theorem forall_update {arrays : ℕ → RcuList (WorkflowPtr M) R} {array : RcuList (WorkflowPtr M) R}
    {P : ℕ → RcuList (WorkflowPtr M) R → Prop} (hall : ∀ t, P t (arrays t)) (harray : P t array)
    (t' : ℕ) : P t' (Function.update arrays t array t') := by
  by_cases ht : t' = t
  · subst ht
    rwa [Function.update_self]
  · rw [Function.update_of_ne ht]
    exact hall t'

variable [DecidableEq M]

theorem Live.onArray_cases [DecidableEq R] {op : RcuList.Op (WorkflowPtr M) R}
    (hstep : s.onArray t op = some s') :
    ∃ array, (s.arrays t).step op = some array ∧
      s' = { s with arrays := Function.update s.arrays t array } := by
  obtain ⟨array, harray, rfl⟩ := Option.map_eq_some_iff.mp hstep
  exact ⟨array, harray, rfl⟩

theorem filter_not_deleting (ptr : WorkflowPtr M) (list : List (WorkflowPtr M)) :
    (list.filter fun q => decide (some ptr ≠ some q)) = list.filter fun q => q != ptr := by
  congr 1
  funext q
  rw [Bool.eq_iff_iff, decide_eq_true_iff, bne_iff_ne, ne_comm, Ne, Ne, Option.some.injEq]

/-- With no deletion under way the lists are the tables. -/
theorem TableInv.list_eq_hookArray (hinv : TableInv desc s) (hidle : s.deleting = none) (t : ℕ) :
    (s.arrays t).list = s.hooks.hookArray t := by
  rw [hinv.list_eq, hidle]
  simp

theorem TableInv.removing_eq_none (hinv : TableInv desc s) (hidle : s.deleting = none) (t : ℕ) :
    (s.arrays t).removing = none := by
  by_contra hremoving
  obtain ⟨ptr, hptr⟩ := Option.ne_none_iff_exists'.mp hremoving
  rw [(hinv.removing t ptr hptr).1] at hidle
  cases hidle

/-- An operation on a list that neither adds nor removes. -/
theorem TableInv.update {array : RcuList (WorkflowPtr M) R}
    {running : R → Option (Handler M)} (hinv : TableInv desc s) (harray : array.Inv)
    (hlist : array.list = (s.arrays t).list)
    (hremoving : ∀ ptr, array.removing = some ptr → (s.arrays t).removing = some ptr) :
    TableInv desc { s with arrays := Function.update s.arrays t array, running := running } := by
  refine ⟨hinv.hooks, forall_update hinv.arrays harray,
    forall_update (P := fun t array => array.list =
      (s.hooks.hookArray t).filter fun ptr => decide (s.deleting ≠ some ptr)) hinv.list_eq ?_,
    forall_update (P := fun t array => ∀ ptr, array.removing = some ptr →
      s.deleting = some ptr ∧ ptr ∈ s.hooks.hookArray t) hinv.removing ?_, hinv.loaded⟩
  · rw [hlist, hinv.list_eq]
  · exact fun ptr hptr => hinv.removing t ptr (hremoving ptr hptr)

omit [DecidableEq M] in
/-- An operation on a list that its readers do not notice. -/
theorem HandlerInv.update {array : RcuList (WorkflowPtr M) R} (hinv : HandlerInv enabled s)
    (hinside : array.inside = (s.arrays t).inside)
    (hvisited : array.visited = (s.arrays t).visited) :
    HandlerInv enabled { s with arrays := Function.update s.arrays t array } :=
  hinv.congr rfl
    (forall_update (P := fun t array => array.inside = (s.arrays t).inside) (fun _ => rfl) hinside)
    (forall_update (P := fun t array => array.visited = (s.arrays t).visited) (fun _ => rfl)
      hvisited) fun _ _ h => h

/-! ## The steps of a handler -/

variable [DecidableEq R]

omit [DecidableEq M] in
/-- A step of one handler, on the list of its hook; `running` is the handler after it. -/
theorem HandlerInv.update_running {array : RcuList (WorkflowPtr M) R}
    {running : Option (Handler M)} (hinv : HandlerInv enabled s)
    (hold : ∀ handler, s.running r = some handler → handler.hookType = t)
    (hkprobe : s.hooks.kprobe t = true)
    (hothers : ∀ q ≠ r, (q ∈ array.inside ↔ q ∈ (s.arrays t).inside) ∧
      array.visited q = (s.arrays t).visited q)
    (hinside : r ∈ array.inside ↔ running.isSome = true)
    (hnew : ∀ handler, running = some handler → handler.hookType = t ∧
      array.visited r = handler.rounds.map Prod.fst ∧
      ∀ round ∈ handler.rounds, round.2.isSome = enabled round.1) :
    HandlerInv enabled { s with
      arrays := Function.update s.arrays t array
      running := Function.update s.running r running } := by
  refine ⟨fun q handler hq => ?_, fun t' q hq => ?_, fun t' ht' => ?_, fun q handler hq => ?_⟩
  · dsimp only at hq ⊢
    by_cases hqr : q = r
    · subst hqr
      rw [Function.update_self] at hq
      obtain ⟨rfl, hvisited, _⟩ := hnew handler hq
      rw [Function.update_self]
      exact ⟨hinside.mpr (by rw [hq]; rfl), hvisited⟩
    · rw [Function.update_of_ne hqr] at hq
      obtain ⟨hin, hvisited⟩ := hinv.running q handler hq
      by_cases ht : handler.hookType = t
      · subst ht
        rw [Function.update_self]
        exact ⟨(hothers q hqr).1.mpr hin, (hothers q hqr).2.trans hvisited⟩
      · rw [Function.update_of_ne ht]
        exact ⟨hin, hvisited⟩
  · dsimp only at hq ⊢
    by_cases hqr : q = r
    · subst hqr
      rw [Function.update_self]
      by_cases ht : t' = t
      · subst ht
        rw [Function.update_self, hinside, Option.isSome_iff_exists] at hq
        obtain ⟨handler, hhandler⟩ := hq
        exact ⟨handler, hhandler, (hnew handler hhandler).1⟩
      · -- a handler is on one list only
        rw [Function.update_of_ne ht] at hq
        obtain ⟨handler, hhandler, rfl⟩ := hinv.inside t' q hq
        exact absurd (hold handler hhandler) ht
    · rw [Function.update_of_ne hqr]
      refine hinv.inside t' q ?_
      by_cases ht : t' = t
      · subst ht
        rw [Function.update_self] at hq
        exact (hothers q hqr).1.mp hq
      · rwa [Function.update_of_ne ht] at hq
  · dsimp only at ht' ⊢
    by_cases ht : t' = t
    · exact ht ▸ hkprobe
    · rw [Function.update_of_ne ht] at ht'
      exact hinv.registered t' ht'
  · dsimp only at hq ⊢
    by_cases hqr : q = r
    · subst hqr
      rw [Function.update_self] at hq
      exact (hnew handler hq).2.2
    · rw [Function.update_of_ne hqr] at hq
      exact hinv.called q handler hq

theorem LiveInv.fire (hinv : LiveInv desc enabled s) (hstep : s.fire r t = some s') :
    LiveInv desc enabled s' := by
  obtain ⟨htable, hhandler⟩ := hinv
  simp only [Live.fire, Option.ite_none_right_eq_some, Option.map_eq_some_iff] at hstep
  obtain ⟨⟨hkprobe, hfree⟩, s₁, honarray, rfl⟩ := hstep
  obtain ⟨array, henter, rfl⟩ := Live.onArray_cases honarray
  have harray : array.Inv := (htable.arrays t).enter henter
  obtain ⟨_, heq⟩ := RcuList.enter_cases henter
  have hold : ∀ handler, s.running r = some handler → handler.hookType = t := by simp [hfree]
  refine ⟨htable.update harray (by rw [heq]) fun ptr => by rw [heq]; exact id,
    hhandler.update_running hold hkprobe (fun q hq => ?_) ?_ fun handler h => ?_⟩
  · simp [heq, hq]
  · simp [heq]
  · obtain rfl := Option.some.inj h
    simp [heq]

/-- **A round of a handler**: it returns, having been at all that stays on the list, or it goes
to a workflow that is linked. -/
theorem LiveInv.round_cases (hinv : LiveInv desc enabled s) {handler : Handler M}
    (hrunning : s.running r = some handler) (ret : ℤ) :
    (∃ s', s.round enabled r ret = some s' ∧ s'.running r = none ∧ LiveInv desc enabled s' ∧
      ((s.arrays handler.hookType).stays r).Sublist (handler.rounds.map Prod.fst)) ∨
    ∃ s' ptr, s.round enabled r ret = some s' ∧ LiveInv desc enabled s' ∧
      ptr ∈ s.hooks.hookArray handler.hookType ∧
      s'.running r = some { handler with
        rounds := handler.rounds ++ [(ptr, if enabled ptr then some ret else none)] } := by
  obtain ⟨htable, hhandler⟩ := hinv
  obtain ⟨hinside, hvisited⟩ := hhandler.running r handler hrunning
  have hkprobe := hhandler.registered _ (List.ne_nil_of_mem hinside)
  have hold : ∀ h, s.running r = some h → h.hookType = handler.hookType := by
    intro h hh
    rw [Option.some.inj (hh.symm.trans hrunning)]
  have hinv' := htable.arrays handler.hookType
  rcases hinv'.advance_cases hinside with ⟨_, hleave, hstays⟩ | ⟨ptr, rest, hreading, _, hmove⟩
  · have hout : r ∉ ((s.arrays handler.hookType).leave r).inside :=
      hinv'.inside_nodup.not_mem_erase
    let s₁ : Live M R := { s with
      arrays := Function.update s.arrays handler.hookType ((s.arrays handler.hookType).leave r)
      running := Function.update s.running r none }
    refine .inl ⟨s₁, ?_, Function.update_self r none s.running, ⟨?_, ?_⟩, hvisited ▸ hstays⟩
    · simp only [Live.round, hrunning, Option.bind_some, Live.onArray, RcuList.step, hleave,
        Option.map_some, Function.update_self, hout, if_false]
      rfl
    · exact htable.update (hinv'.leave r) rfl fun _ h => h
    · refine hhandler.update_running hold hkprobe (fun q hq => ⟨?_, rfl⟩) ?_ fun h hh => ?_
      · exact List.mem_erase_of_ne hq
      · simp [hout]
      · cases hh
  · have hmem : ptr ∈ s.hooks.hookArray handler.hookType := by
      have hlist : ptr ∈ (s.arrays handler.hookType).list :=
        hreading.ahead.suffix.mem List.mem_cons_self
      rw [htable.list_eq] at hlist
      exact List.mem_of_mem_filter hlist
    have hloaded := htable.loaded _ ptr hmem
    let called := if enabled ptr then some ret else none
    let handler₁ : Handler M := { handler with rounds := handler.rounds ++ [(ptr, called)] }
    let array : RcuList (WorkflowPtr M) R := { s.arrays handler.hookType with
      cursor := Function.update (s.arrays handler.hookType).cursor r (.node ptr)
      visited := Function.update (s.arrays handler.hookType).visited r
        ((s.arrays handler.hookType).visited r ++ [ptr]) }
    let s₁ : Live M R := { s with
      arrays := Function.update s.arrays handler.hookType array
      running := Function.update s.running r (some handler₁) }
    refine .inr ⟨s₁, ptr, ?_, ⟨?_, ?_⟩, hmem, Function.update_self r (some handler₁) s.running⟩
    · simp only [Live.round, hrunning, Option.bind_some, Live.onArray, RcuList.step, hmove,
        Option.map_some, Function.update_self, hinside, if_true, hloaded, Bool.false_eq_true,
        if_false]
      rfl
    · exact htable.update (hinv'.advance hmove) rfl fun _ h => h
    · refine hhandler.update_running hold hkprobe (fun q hq => ⟨Iff.rfl, ?_⟩) ?_ fun h hh => ?_
      · exact Function.update_of_ne hq _ _
      · simpa using hinside
      · obtain rfl := Option.some.inj hh
        refine ⟨rfl, ?_, fun round hround => ?_⟩
        · simp [array, handler₁, hvisited]
        · rcases List.mem_append.mp hround with hround | hround
          · exact hhandler.called r handler hrunning round hround
          · obtain rfl := List.mem_singleton.mp hround
            by_cases h : enabled ptr <;> simp [called, h]

theorem LiveInv.round (hinv : LiveInv desc enabled s) {ret : ℤ}
    (hstep : s.round enabled r ret = some s') : LiveInv desc enabled s' := by
  obtain ⟨handler, hrunning, _⟩ := Option.bind_eq_some_iff.mp hstep
  rcases hinv.round_cases hrunning ret with
    ⟨s₁, heq, _, hinv₁, _⟩ | ⟨s₁, _, heq, hinv₁, _⟩
  · obtain rfl := Option.some.inj (heq.symm.trans hstep)
    exact hinv₁
  · obtain rfl := Option.some.inj (heq.symm.trans hstep)
    exact hinv₁

/-! ## The steps of the manager -/

omit [DecidableEq R] in
/-- `insert_callback` for a kprobe fails and changes nothing, or puts the workflow in front. -/
theorem insertCallback_kprobe {hooks : Hooks M} (hinv : HookInv desc hooks)
    (hwf : workflowAt desc ptr = some wf) (hle : wf.hookType ≤ kprobeHookEnd) (env : HookEnv) :
    (insertCallback env ptr wf hooks).2 = hooks ∨
      ptr ∉ hooks.hookArray wf.hookType ∧
        HookInv desc (insertCallback env ptr wf hooks).2 ∧
        (insertCallback env ptr wf hooks).2 = { hooks.link wf.hookType ptr with
          kprobe := Function.update hooks.kprobe wf.hookType true } := by
  have hfamily : familyOf wf.hookType = some .kprobe := if_pos hle
  have hiff := hinv.exists_iff_linked hwf hfamily
  rw [insertCallback_eq, hfamily]
  dsimp only
  split
  · exact .inl rfl
  · rename_i hexists
    have hfresh : ¬ hooks.Linked ptr := fun hlinked => hexists (hiff.mpr hlinked)
    have hlink := (hinv.link_spec hwf hle hfresh).inv
    have hnot : ptr ∉ hooks.hookArray wf.hookType := fun hmem => hfresh (.inl ⟨_, hmem⟩)
    rw [HookFamily.insert, insertKprobeHook, if_neg (by simp at hle ⊢; omega)]
    split
    · split
      · exact .inl rfl
      · exact .inr ⟨hnot, hlink, rfl⟩
    · rename_i hne
      rw [hinv.update_kprobe_eq_self (by simpa using hne)] at hlink ⊢
      exact .inr ⟨hnot, hlink, rfl⟩

theorem LiveInv.insert (hinv : LiveInv desc enabled s) {env : HookEnv}
    (hstep : s.insert desc env ptr = some s') : LiveInv desc enabled s' := by
  obtain ⟨htable, hhandler⟩ := hinv
  obtain ⟨wf, hwf, hstep⟩ := Option.bind_eq_some_iff.mp hstep
  obtain ⟨⟨hle, hidle, hloaded⟩, hstep⟩ := Option.ite_none_right_eq_some.mp hstep
  dsimp only at hstep
  rcases insertCallback_kprobe htable.hooks hwf hle env with hsame | ⟨hnot, hhooks, hlink⟩
  · rw [if_pos (by rw [hsame])] at hstep
    obtain rfl := Option.some.inj hstep
    rw [hsame]
    exact ⟨htable, hhandler⟩
  · rw [hlink] at hhooks
    rw [hlink, if_neg (by simp [Hooks.link])] at hstep
    obtain ⟨s₁, honarray, rfl⟩ := Option.map_eq_some_iff.mp hstep
    obtain ⟨array, hadd, rfl⟩ := Live.onArray_cases honarray
    have hlists := htable.list_eq_hookArray hidle
    obtain ⟨harray, hlist⟩ := (htable.arrays wf.hookType).addFront (hlists _ ▸ hnot) hadd
    obtain ⟨hquiet, mem, _, heq⟩ := RcuList.addFront_cases hadd
    refine ⟨⟨hhooks, forall_update htable.arrays harray, fun t => ?_, fun t q hq => ?_,
      fun t q hq => ?_⟩, (hhandler.update ?_ ?_).congr rfl (fun _ => rfl) (fun _ => rfl) ?_⟩
    · by_cases ht : t = wf.hookType
      · subst ht
        simp [hidle, hlist, hlists, Hooks.link]
      · simp [hidle, hlists, Hooks.link, Function.update_of_ne ht]
    · refine absurd hq ?_
      by_cases ht : t = wf.hookType
      · subst ht
        simp [heq, hquiet]
      · simp [Function.update_of_ne ht, htable.removing_eq_none hidle]
    · rcases (mem_link_iff q).mp hq with ⟨hqptr, _⟩ | hq
      · exact hqptr ▸ hloaded
      · exact htable.loaded t q hq
    · rw [heq]
    · rw [heq]
    · intro t _ ht
      by_cases h : t = wf.hookType
      · simp [h]
      · simpa [Hooks.link, Function.update_of_ne h] using ht

theorem LiveInv.unlink (hinv : LiveInv desc enabled s) (hstep : s.unlink desc ptr = some s') :
    LiveInv desc enabled s' := by
  obtain ⟨htable, hhandler⟩ := hinv
  obtain ⟨wf, hwf, hstep⟩ := Option.bind_eq_some_iff.mp hstep
  obtain ⟨⟨hidle, hmem⟩, hstep⟩ := Option.ite_none_right_eq_some.mp hstep
  obtain ⟨s₁, honarray, rfl⟩ := Option.map_eq_some_iff.mp hstep
  obtain ⟨array, hremove, rfl⟩ := Live.onArray_cases honarray
  have hlists := htable.list_eq_hookArray hidle
  obtain ⟨harray, hlist⟩ := (htable.arrays wf.hookType).remove (hlists _ ▸ hmem) hremove
  obtain ⟨_, mem, _, heq⟩ := RcuList.remove_cases hremove
  refine ⟨⟨htable.hooks, forall_update htable.arrays harray, fun t => ?_, fun t q hq => ?_,
    htable.loaded⟩, (hhandler.update ?_ ?_).congr rfl (fun _ => rfl) (fun _ => rfl) fun _ _ h => h⟩
  · dsimp only
    by_cases ht : t = wf.hookType
    · subst ht
      rw [Function.update_self, hlist, hlists, (htable.hooks.hook_nodup _).erase_eq_filter,
        filter_not_deleting]
    · -- a workflow is on the list of its hook only
      rw [Function.update_of_ne ht, hlists, List.filter_eq_self.mpr]
      intro q hq
      simp only [ne_eq, Option.some.injEq, decide_eq_true_eq]
      rintro rfl
      exact ht (htable.hooks.hookType_of_mem hwf hq).1.symm
  · dsimp only at hq ⊢
    by_cases ht : t = wf.hookType
    · subst ht
      rw [Function.update_self, heq] at hq
      obtain rfl := Option.some.inj hq
      exact ⟨rfl, hmem⟩
    · rw [Function.update_of_ne ht, htable.removing_eq_none hidle] at hq
      cases hq
  · rw [heq]
  · rw [heq]

theorem LiveInv.synced (hinv : LiveInv desc enabled s) (hstep : s.synced desc = some s') :
    LiveInv desc enabled s' := by
  obtain ⟨htable, hhandler⟩ := hinv
  obtain ⟨ptr, _, hstep⟩ := Option.bind_eq_some_iff.mp hstep
  obtain ⟨wf, _, honarray⟩ := Option.bind_eq_some_iff.mp hstep
  obtain ⟨array, hsynced, rfl⟩ := Live.onArray_cases honarray
  obtain ⟨harray, hlist⟩ := (htable.arrays wf.hookType).synced hsynced
  obtain ⟨_, _, rfl⟩ := RcuList.synced_cases hsynced
  refine ⟨htable.update harray hlist fun q hq => ?_, hhandler.update rfl rfl⟩
  cases hq

omit [DecidableEq R] in
/-- The end of a deletion takes the workflow out of the tables. -/
theorem LiveInv.delete (hinv : LiveInv desc enabled s) {env : HookEnv}
    (hstep : s.delete desc env = some s') : LiveInv desc enabled s' := by
  obtain ⟨htable, hhandler⟩ := hinv
  obtain ⟨ptr, hdeleting, hstep⟩ := Option.bind_eq_some_iff.mp hstep
  obtain ⟨wf, hwf, hstep⟩ := Option.bind_eq_some_iff.mp hstep
  obtain ⟨⟨hquiet, hkprobe⟩, hstep⟩ := Option.ite_none_right_eq_some.mp hstep
  obtain rfl := Option.some.inj hstep
  obtain ⟨_, hdelete⟩ := htable.hooks.deleteCallback_spec hwf env
  have hhooks : HookInv desc (deleteCallback env ptr wf s.hooks).2 := by
    rw [hdelete]
    exact htable.hooks.restrict _
  have hothers : ∀ t ≠ wf.hookType,
      (s.hooks.hookArray t).filter (fun q => q != ptr) = s.hooks.hookArray t := by
    intro t ht
    apply filter_bne_eq_self
    intro hmem
    exact ht (htable.hooks.hookType_of_mem hwf hmem).1.symm
  refine ⟨⟨hhooks, htable.arrays, fun t => ?_, fun t q hq => ?_, fun t q hq => ?_⟩,
    hhandler.congr rfl (fun _ => rfl) (fun _ => rfl) fun t hinside hreg => ?_⟩
  · dsimp only
    rw [htable.list_eq, hdelete, hdeleting, Hooks.restrict, filter_not_deleting]
    simp
  · -- the list of the workflow is the only one with a removal
    exfalso
    obtain ⟨hq', hmem⟩ := htable.removing t q hq
    obtain rfl := Option.some.inj (hdeleting.symm.trans hq')
    obtain ⟨rfl, _⟩ := htable.hooks.hookType_of_mem hwf hmem
    rw [hquiet] at hq
    cases hq
  · dsimp only at hq
    rw [hdelete] at hq
    exact htable.loaded t q (List.mem_of_mem_filter hq)
  · by_cases ht : t = wf.hookType
    · subst ht
      by_contra hout
      exact hinside (hkprobe (Bool.eq_false_iff.mpr hout))
    · rw [hdelete, Hooks.restrict]
      dsimp only
      rw [hothers t ht, ← htable.hooks.kprobe_eq]
      exact hreg

omit [DecidableEq R] in
theorem LiveInv.unload (hinv : LiveInv desc enabled s) {m : M} (hstep : s.unload m = some s') :
    LiveInv desc enabled s' := by
  obtain ⟨htable, hhandler⟩ := hinv
  obtain ⟨hdeleted, hstep⟩ := Option.ite_none_right_eq_some.mp hstep
  obtain rfl := Option.some.inj hstep
  refine ⟨⟨htable.hooks, htable.arrays, htable.list_eq, htable.removing, fun t q hq => ?_⟩,
    hhandler.congr rfl (fun _ => rfl) (fun _ => rfl) fun _ _ h => h⟩
  obtain ⟨_, _, _, hle⟩ := htable.hooks.hook_typed t q hq
  dsimp only
  rw [Function.update_of_ne (hdeleted t hle q hq)]
  exact htable.loaded t q hq

omit [DecidableEq R] in
theorem LiveInv.load (hinv : LiveInv desc enabled s) (m : M) :
    LiveInv desc enabled { s with unloaded := Function.update s.unloaded m false } := by
  obtain ⟨htable, hhandler⟩ := hinv
  refine ⟨⟨htable.hooks, htable.arrays, htable.list_eq, htable.removing, fun t q hq => ?_⟩,
    hhandler.congr rfl (fun _ => rfl) (fun _ => rfl) fun _ _ h => h⟩
  dsimp only
  by_cases hm : q.module = m
  · rw [hm, Function.update_self]
  · rw [Function.update_of_ne hm]
    exact htable.loaded t q hq

theorem LiveInv.reuse (hinv : LiveInv desc enabled s) {entry : ListHead (WorkflowPtr M)}
    (hstep : s.reuse desc ptr entry = some s') : LiveInv desc enabled s' := by
  obtain ⟨htable, hhandler⟩ := hinv
  obtain ⟨wf, _, hstep⟩ := Option.bind_eq_some_iff.mp hstep
  obtain ⟨hunloaded, honarray⟩ := Option.ite_none_right_eq_some.mp hstep
  obtain ⟨array, hscribble, rfl⟩ := Live.onArray_cases honarray
  obtain rfl := Option.some.inj hscribble
  have hnot : ptr ∉ s.hooks.hookArray wf.hookType := by
    intro hmem
    rw [htable.loaded _ ptr hmem] at hunloaded
    cases hunloaded
  refine ⟨htable.update ((htable.arrays _).scribble ?_ ?_ entry) rfl fun _ h => h,
    hhandler.update rfl rfl⟩
  · rw [htable.list_eq]
    exact fun hmem => hnot (List.mem_of_mem_filter hmem)
  · exact fun hremoving => hnot (htable.removing _ ptr hremoving).2

theorem LiveInv.step (hinv : LiveInv desc enabled s) {a : LiveAct M R}
    (hstep : liveStep desc enabled s a = some s') : LiveInv desc enabled s' := by
  cases a with
  | fire r t => exact hinv.fire hstep
  | round r ret => exact hinv.round hstep
  | insert env ptr => exact hinv.insert hstep
  | unlink ptr => exact hinv.unlink hstep
  | synced => exact hinv.synced hstep
  | delete env => exact hinv.delete hstep
  | unload m => exact hinv.unload hstep
  | load m =>
      obtain rfl := Option.some.inj hstep
      exact hinv.load m
  | reuse ptr entry => exact hinv.reuse hstep

theorem liveInv_of_reachable (hreach : Reachable (liveStep desc enabled) liveInit s) :
    LiveInv desc enabled s :=
  hreach.invariant (fun _ => liveInv_of_init) fun _ _ _ hinv hstep => hinv.step hstep

end Invariant

/-! ## What the handlers can rely on -/

variable [DecidableEq M] [DecidableEq R] {desc : M → Module} {enabled : WorkflowPtr M → Bool}
  {s s' s₀ s₁ s₂ s₃ : Live M R} {r : R} {handler : Handler M} {t : ℕ} {l : List (WorkflowPtr M)}

/-- **No handler goes astray.**  A handler that runs can always take its next step, and no
workflow that it has been at has been deleted or unloaded. -/
theorem handler_safe (hreach : Reachable (liveStep desc enabled) liveInit s)
    (hrunning : s.running r = some handler) :
    (∀ ret, ∃ s', liveStep desc enabled s (.round r ret) = some s') ∧
      ∀ round ∈ handler.rounds, round.1 ∈ s.hooks.hookArray handler.hookType ∧
        s.unloaded round.1.module = false := by
  have hinv := liveInv_of_reachable hreach
  refine ⟨fun ret => ?_, fun round hround => ?_⟩
  · rcases hinv.round_cases hrunning ret with ⟨s', hround, _⟩ | ⟨s', _, hround, _⟩
    · exact ⟨s', hround⟩
    · exact ⟨s', hround⟩
  · obtain ⟨htable, hhandler⟩ := hinv
    obtain ⟨hinside, hvisited⟩ := hhandler.running r handler hrunning
    have hmem : round.1 ∈ s.hooks.hookArray handler.hookType := by
      have hat : round.1 ∈ (s.arrays handler.hookType).visited r := by
        rw [hvisited]
        exact List.mem_map_of_mem hround
      rcases (htable.arrays handler.hookType).held hinside hat with hlist | ⟨hremoving, _⟩
      · rw [htable.list_eq] at hlist
        exact List.mem_of_mem_filter hlist
      · exact (htable.removing _ _ hremoving).2
    exact ⟨hmem, htable.loaded _ _ hmem⟩

/-- A module may go where its unregistration has left nothing of it linked. -/
theorem unload_of_unregistered {m : M} {t : Tracked M} (hsafe : UnregisterSafe desc m t)
    (hhooks : s.hooks = t.state.hooks) :
    ∃ s', liveStep desc enabled s (.unload m) = some s' := by
  refine ⟨_, if_pos fun t' _ ptr hptr hm => hsafe.unlinked ptr hm (.inl ⟨t', ?_⟩)⟩
  rwa [← hhooks]

/-- Modules with a workflow on `ptrace_attach` each, and nothing linked. -/
def attachFresh : Live (Fin 4) Unit :=
  ⟨fun _ => .init, ⟨fun _ => [], [], fun _ => false, fun _ => false⟩, fun _ => none, none,
    fun _ => false⟩

/-- The step function of these modules, with their workflows enabled. -/
def attachStep : Live (Fin 4) Unit → LiveAct (Fin 4) Unit → Option (Live (Fin 4) Unit) :=
  liveStep (fun _ => kprobeModule kprobePtraceAttach) fun _ => true

def attachInsert (m : Fin 4) : LiveAct (Fin 4) Unit := .insert ⟨0, 0, 0, true⟩ ⟨m, 0⟩

/-- Three workflows are linked, and then these actions are taken. -/
def attachActs (acts : List (LiveAct (Fin 4) Unit)) : List (LiveAct (Fin 4) Unit) :=
  [attachInsert 0, attachInsert 1, attachInsert 2] ++ acts

def attachRun (acts : List (LiveAct (Fin 4) Unit)) : Live (Fin 4) Unit :=
  (exec attachStep attachFresh (attachActs acts)).getD attachFresh

theorem attachRun_reachable {acts : List (LiveAct (Fin 4) Unit)}
    (hexec : exec attachStep attachFresh (attachActs acts) = some (attachRun acts)) :
    Reachable attachStep liveInit (attachRun acts) :=
  ⟨_, Run.of_exec ⟨fun _ => rfl, rfl, fun _ => rfl, rfl⟩ (fun _ _ _ => trivial) hexec⟩

/-- One module has gone and its memory is used for something else, and the handler is at a workflow
that begins to be deleted. -/
def reusedMeanwhile : List (LiveAct (Fin 4) Unit) :=
  [.unlink ⟨2, 0⟩, .synced, .delete ⟨0, 0, 0, true⟩, .unload 2, .fire () 1, .round () 5,
    .reuse ⟨2, 0⟩ ⟨.null, .null⟩, .unlink ⟨1, 0⟩]

theorem attach_handler_safe :
    ∃ handler : Handler (Fin 4), handler.rounds = [(⟨1, 0⟩, some 5)] ∧
      (∀ ret, ∃ s', attachStep (attachRun reusedMeanwhile) (.round () ret) = some s') ∧
      (attachRun reusedMeanwhile).unloaded 1 = false := by
  have hexec : exec attachStep attachFresh (attachActs reusedMeanwhile) =
      some (attachRun reusedMeanwhile) := rfl
  have hsafe := handler_safe (attachRun_reachable hexec)
    (show (attachRun reusedMeanwhile).running () = some ⟨1, [(⟨1, 0⟩, some 5)]⟩ from rfl)
  exact ⟨⟨1, [(⟨1, 0⟩, some 5)]⟩, rfl, hsafe.1, (hsafe.2 _ List.mem_cons_self).2⟩

/-- A step changes at most one list, and only `unlink` removes from it. -/
theorem liveStep_arrays {a : LiveAct M R} (hstep : liveStep desc enabled s a = some s') :
    s'.arrays = s.arrays ∨ ∃ t op array, (s.arrays t).step op = some array ∧
      s'.arrays = Function.update s.arrays t array ∧ ∀ ptr, op = .remove ptr → a = .unlink ptr := by
  cases a with
  | fire r t =>
      simp only [liveStep, Live.fire, Option.ite_none_right_eq_some, Option.map_eq_some_iff]
        at hstep
      obtain ⟨_, s₁, honarray, rfl⟩ := hstep
      obtain ⟨array, harray, rfl⟩ := Live.onArray_cases honarray
      exact .inr ⟨t, _, array, harray, rfl, fun ptr h => by cases h⟩
  | round r ret =>
      obtain ⟨handler, _, hstep⟩ := Option.bind_eq_some_iff.mp hstep
      obtain ⟨s₁, honarray, hstep⟩ := Option.bind_eq_some_iff.mp hstep
      obtain ⟨array, harray, rfl⟩ := Live.onArray_cases honarray
      refine .inr ⟨handler.hookType, _, array, harray, ?_, fun ptr h => by cases h⟩
      split at hstep
      · split at hstep
        · split at hstep
          · cases hstep
          · obtain rfl := Option.some.inj hstep
            rfl
        · cases hstep
      · obtain rfl := Option.some.inj hstep
        rfl
  | insert env ptr =>
      obtain ⟨wf, _, hstep⟩ := Option.bind_eq_some_iff.mp hstep
      obtain ⟨_, hstep⟩ := Option.ite_none_right_eq_some.mp hstep
      dsimp only at hstep
      split at hstep
      · obtain rfl := Option.some.inj hstep
        exact .inl rfl
      · obtain ⟨s₁, honarray, rfl⟩ := Option.map_eq_some_iff.mp hstep
        obtain ⟨array, harray, rfl⟩ := Live.onArray_cases honarray
        exact .inr ⟨_, _, array, harray, rfl, fun ptr h => by cases h⟩
  | unlink ptr =>
      obtain ⟨wf, _, hstep⟩ := Option.bind_eq_some_iff.mp hstep
      obtain ⟨_, hstep⟩ := Option.ite_none_right_eq_some.mp hstep
      obtain ⟨s₁, honarray, rfl⟩ := Option.map_eq_some_iff.mp hstep
      obtain ⟨array, harray, rfl⟩ := Live.onArray_cases honarray
      refine .inr ⟨_, _, array, harray, rfl, fun q h => ?_⟩
      rw [RcuList.Op.remove.inj h]
  | synced =>
      obtain ⟨ptr, _, hstep⟩ := Option.bind_eq_some_iff.mp hstep
      obtain ⟨wf, _, honarray⟩ := Option.bind_eq_some_iff.mp hstep
      obtain ⟨array, harray, rfl⟩ := Live.onArray_cases honarray
      exact .inr ⟨_, _, array, harray, rfl, fun ptr h => by cases h⟩
  | delete env =>
      obtain ⟨ptr, _, hstep⟩ := Option.bind_eq_some_iff.mp hstep
      obtain ⟨wf, _, hstep⟩ := Option.bind_eq_some_iff.mp hstep
      obtain ⟨_, hstep⟩ := Option.ite_none_right_eq_some.mp hstep
      obtain rfl := Option.some.inj hstep
      exact .inl rfl
  | unload m =>
      obtain ⟨_, hstep⟩ := Option.ite_none_right_eq_some.mp hstep
      obtain rfl := Option.some.inj hstep
      exact .inl rfl
  | load m =>
      obtain rfl := Option.some.inj hstep
      exact .inl rfl
  | reuse ptr entry =>
      obtain ⟨wf, _, hstep⟩ := Option.bind_eq_some_iff.mp hstep
      obtain ⟨_, honarray⟩ := Option.ite_none_right_eq_some.mp hstep
      obtain ⟨array, harray, rfl⟩ := Live.onArray_cases honarray
      exact .inr ⟨_, _, array, harray, rfl, fun ptr h => by cases h⟩

theorem liveStep_keeps {a : LiveAct M R} (hkeeps : (s.arrays t).Keeps r l)
    (hspares : ∀ ptr ∈ l, a ≠ .unlink ptr) (hstep : liveStep desc enabled s a = some s') :
    (s'.arrays t).Keeps r l := by
  rcases liveStep_arrays hstep with heq | ⟨t', op, array, harray, heq, hremove⟩
  · rwa [heq]
  · rw [heq]
    by_cases ht : t = t'
    · subst ht
      rw [Function.update_self]
      exact hkeeps.step _ (fun ptr hptr h => hspares ptr hptr (hremove ptr h)) harray
    · rwa [Function.update_of_ne ht]

/-- **A handler misses nothing.**  Workflows that are linked when the kprobe fires, and that are
not unlinked before its handler returns, have then been called if they are enabled: each once,
and in their order on the list.  No other workflow has been called than an enabled one. -/
theorem handler_complete {acts : List (LiveAct M R)} {ret : ℤ}
    (hreach : Reachable (liveStep desc enabled) liveInit s₀)
    (hlinked : l.Sublist (s₀.hooks.hookArray t)) (hkept : ∀ ptr ∈ l, s₀.deleting ≠ some ptr)
    (hfire : liveStep desc enabled s₀ (.fire r t) = some s₁)
    (hrun : Run (liveStep desc enabled) (fun _ a => ∀ ptr ∈ l, a ≠ .unlink ptr) (· = s₁) acts s₂)
    (hrunning : s₂.running r = some handler) (htype : handler.hookType = t)
    (hlast : liveStep desc enabled s₂ (.round r ret) = some s₃) (hend : s₃.running r = none) :
    l.Sublist (handler.rounds.map Prod.fst) ∧ (handler.rounds.map Prod.fst).Nodup ∧
      ∀ round ∈ handler.rounds, round.2.isSome = enabled round.1 := by
  have hinv₀ := liveInv_of_reachable hreach
  have hlist : l.Sublist (s₀.arrays t).list := by
    rw [hinv₀.1.list_eq]
    have hfilter : l.filter (fun ptr => decide (s₀.deleting ≠ some ptr)) = l :=
      List.filter_eq_self.mpr fun ptr hptr => decide_eq_true (hkept ptr hptr)
    exact hfilter ▸ hlinked.filter _
  have hfree : r ∉ (s₀.arrays t).inside := by
    intro hinside
    obtain ⟨h, hh, _⟩ := hinv₀.2.inside t r hinside
    simp only [liveStep, Live.fire, Option.ite_none_right_eq_some] at hfire
    rw [hfire.1.2] at hh
    cases hh
  have hkeeps₁ : (s₁.arrays t).Keeps r l :=
    liveStep_keeps ⟨hlist, fun hr => absurd hr hfree⟩ (fun _ _ h => by cases h) hfire
  have hinit : ∀ s, s = s₁ → LiveInv desc enabled s ∧ (s.arrays t).Keeps r l := by
    rintro _ rfl
    exact ⟨hinv₀.step hfire, hkeeps₁⟩
  have hall : LiveInv desc enabled s₂ ∧ (s₂.arrays t).Keeps r l := by
    apply hrun.invariant hinit
    intro s a s' hinv hspares hstep
    exact ⟨hinv.1.step hstep, liveStep_keeps hinv.2 hspares hstep⟩
  obtain ⟨hinv₂, hkeeps₂⟩ := hall
  obtain ⟨hinside, hvisited⟩ := hinv₂.2.running r handler hrunning
  refine ⟨?_, ?_, hinv₂.2.called r handler hrunning⟩
  · rcases hinv₂.round_cases hrunning ret with ⟨_, _, _, _, hstays⟩ | ⟨s', _, hround, _, _, hnext⟩
    · subst htype
      exact (hkeeps₂.stays hinside).trans hstays
    · obtain rfl := Option.some.inj (hround.symm.trans hlast)
      rw [hnext] at hend
      cases hend
  · rw [← hvisited]
    exact (hinv₂.1.arrays _).visited_nodup hinside

/-- While a handler is at the first of three workflows, a fourth one is linked in front of it and it
is itself unlinked; the other two are called. -/
def changedMeanwhile : List (LiveAct (Fin 4) Unit) :=
  [.round () 5, attachInsert 3, .unlink ⟨2, 0⟩, .round () 6, .round () 7]

theorem attach_handler_complete :
    ∃ handler : Handler (Fin 4),
      handler.rounds = [(⟨2, 0⟩, some 5), (⟨1, 0⟩, some 6), (⟨0, 0⟩, some 7)] ∧
      [(⟨1, 0⟩ : WorkflowPtr (Fin 4)), ⟨0, 0⟩].Sublist (handler.rounds.map Prod.fst) := by
  have hexec : exec attachStep attachFresh (attachActs []) = some (attachRun []) := rfl
  have hfire : attachStep (attachRun []) (.fire () 1) = some (attachRun [.fire () 1]) := rfl
  have hrounds : exec attachStep (attachRun [.fire () 1]) changedMeanwhile =
      some (attachRun (.fire () 1 :: changedMeanwhile)) := rfl
  have hlinked : [(⟨1, 0⟩ : WorkflowPtr (Fin 4)), ⟨0, 0⟩].Sublist
      ((attachRun []).hooks.hookArray 1) :=
    .cons _ (List.Sublist.refl _)
  have hlast : attachStep (attachRun (.fire () 1 :: changedMeanwhile)) (.round () 0) =
      some (attachRun (.fire () 1 :: changedMeanwhile ++ [.round () 0])) := rfl
  refine ⟨⟨1, _⟩, rfl, (handler_complete (attachRun_reachable hexec) hlinked
    (fun _ _ h => by cases h) hfire (Run.of_exec rfl ?_ hrounds) rfl rfl hlast rfl).1⟩
  rintro _ ha _ ptr hptr rfl
  simp only [changedMeanwhile, attachInsert, List.mem_cons, List.not_mem_nil, reduceCtorEq,
    LiveAct.unlink.injEq, or_false, false_or] at ha hptr
  subst ha
  rcases hptr with h | h <;> cases h

/-! ## The pointers and the tables -/

/-- **The pointers are the tables.**  In every state of every run the pointers of a hook's list
lead through the workflows that the tables have for the hook, in their order, less the one that
is being deleted, and back to the head. -/
theorem lists_hold_tables (hreach : Reachable (liveStep desc enabled) liveInit s) (t : ℕ) :
    (s.arrays t).mem.Chain ((s.hooks.hookArray t).filter fun ptr => s.deleting ≠ some ptr) := by
  obtain ⟨htable, _⟩ := liveInv_of_reachable hreach
  have hchain := (htable.arrays t).chain
  rwa [htable.list_eq] at hchain

/-- The list and the table while a deletion is under way. -/
theorem attach_lists_hold_tables :
    ((attachRun (.fire () 1 :: changedMeanwhile)).arrays 1).mem.Chain
        [(⟨3, 0⟩ : WorkflowPtr (Fin 4)), ⟨1, 0⟩, ⟨0, 0⟩] ∧
      (attachRun (.fire () 1 :: changedMeanwhile)).hooks.hookArray 1 =
        [⟨3, 0⟩, ⟨2, 0⟩, ⟨1, 0⟩, ⟨0, 0⟩] := by
  have hexec : exec attachStep attachFresh (attachActs (.fire () 1 :: changedMeanwhile)) =
      some (attachRun (.fire () 1 :: changedMeanwhile)) := rfl
  exact ⟨lists_hold_tables (attachRun_reachable hexec) 1, rfl⟩

end SecDetector.Framework
