import SecDetector.Framework.Linkage

/-!
# What `insert_callback` and `delete_callback` do

One lemma for each, over all hook families.  The manager's proofs use these two
and never look inside the hook units.
-/

namespace SecDetector.Framework

variable {M : Type*} [DecidableEq M] {desc : M → Module} {hooks : Hooks M}
  {ptr : WorkflowPtr M} {wf : Workflow}

/-- The hook types of a family. -/
def FamilyCovers : Option HookFamily → ℕ → Prop
  | some .kprobe, t => t ≤ kprobeHookEnd
  | some .tracepoint, t => t = tracepointHookStart
  | some .timer, t => t = secDetectorTimer
  | none, t => kprobeHookEnd < t ∧ t ≠ secDetectorTimer

theorem covers_familyOf (t : ℕ) : FamilyCovers (familyOf t) t := by
  unfold familyOf
  split
  · assumption
  · rename_i hkprobe
    split
    · assumption
    · split
      · assumption
      · rename_i htimer
        exact ⟨not_le.mp hkprobe, htimer⟩

theorem familyOf_eq_none {t : ℕ} (h : familyOf t = none) :
    kprobeHookEnd < t ∧ t ≠ secDetectorTimer := by
  have hcovers := covers_familyOf t
  rwa [h] at hcovers

theorem familyOf_eq_kprobe {t : ℕ} (h : familyOf t = some .kprobe) : t ≤ kprobeHookEnd := by
  have hcovers := covers_familyOf t
  rwa [h] at hcovers

theorem familyOf_eq_tracepoint {t : ℕ} (h : familyOf t = some .tracepoint) :
    t = tracepointHookStart := by
  have hcovers := covers_familyOf t
  rwa [h] at hcovers

theorem familyOf_eq_timer {t : ℕ} (h : familyOf t = some .timer) : t = secDetectorTimer := by
  have hcovers := covers_familyOf t
  rwa [h] at hcovers

omit [DecidableEq M] in
/-- No workflow is on a tracepoint list. -/
theorem HookInv.tracepoint_empty (hinv : HookInv desc hooks) :
    hooks.hookArray tracepointHookStart = [] := by
  rw [List.eq_nil_iff_forall_not_mem]
  intro ptr hmem
  obtain ⟨_, _, _, hle⟩ := hinv.hook_typed _ ptr hmem
  simp at hle

omit [DecidableEq M] in
theorem find?_timer (interval : ℤ) (timers : List (Timer M))
    (hnodup : (timers.map Timer.interval).Nodup) {timer : Timer M} (hmem : timer ∈ timers)
    (hinterval : interval = timer.interval) :
    timers.find? (fun timer => interval = timer.interval) = some timer := by
  induction timers with
  | nil => simp at hmem
  | cons head timers ih =>
      rw [List.map_cons, List.nodup_cons] at hnodup
      rcases List.mem_cons.mp hmem with rfl | hin
      · simp [hinterval]
      · have hne : interval ≠ head.interval := by
          intro heq
          exact hnodup.1 (heq ▸ hinterval ▸ List.mem_map_of_mem hin)
        rw [List.find?_cons_of_neg (by simpa using hne)]
        exact ih hnodup.2 hin

/-- Every `exists` function answers whether the workflow is linked. -/
theorem HookInv.exists_iff_linked (hinv : HookInv desc hooks)
    (hwf : workflowAt desc ptr = some wf) {family : HookFamily}
    (hfamily : familyOf wf.hookType = some family) :
    family.exists ptr wf hooks = true ↔ hooks.Linked ptr := by
  cases family with
  | kprobe =>
      have hle := familyOf_eq_kprobe hfamily
      rw [hinv.linked_iff_of_le hwf hle, HookFamily.exists, kprobeExists,
        if_neg (by simp at hle ⊢; omega), List.contains_iff_mem]
  | tracepoint =>
      -- the tracepoint functions look at a list that no insertion ever fills
      have htype := familyOf_eq_tracepoint hfamily
      have hnot : ¬ hooks.Linked ptr :=
        hinv.not_linked_of_other hwf (by simp [htype]) (by simp [htype])
      rw [iff_false_right hnot, HookFamily.exists, tracepointExists, if_neg (by simp [htype]),
        htype, hinv.tracepoint_empty]
      simp
  | timer =>
      have htype := familyOf_eq_timer hfamily
      rw [hinv.linked_iff_of_timer hwf htype, HookFamily.exists, timerCallbackExists]
      constructor
      · intro hfound
        split at hfound
        · rename_i timer hfind
          exact ⟨timer, List.mem_of_find?_eq_some hfind, by simpa using List.find?_some hfind,
            List.contains_iff_mem.mp hfound⟩
        · simp at hfound
      · intro hlinked
        obtain ⟨timer, htimer, hinterval, hmem⟩ := hlinked
        rw [find?_timer _ _ hinv.timer_intervals htimer hinterval]
        exact List.contains_iff_mem.mpr hmem

omit [DecidableEq M] in
/-- Where a list is not empty, its kprobe is registered already. -/
theorem HookInv.update_kprobe_eq_self (hinv : HookInv desc hooks) {t : ℕ}
    (hne : hooks.hookArray t ≠ []) : Function.update hooks.kprobe t true = hooks.kprobe := by
  rw [Function.update_eq_self_iff, hinv.kprobe_eq]
  simpa using hne

/-! ## Deletion -/

/-- Deleting a workflow from the list of its hook type, with the flag that says
whether the list is empty, restricts the tables to the other workflows. -/
theorem HookInv.unlink_eq_restrict (hinv : HookInv desc hooks)
    (hwf : workflowAt desc ptr = some wf) (hle : wf.hookType ≤ kprobeHookEnd) :
    { hooks.unlink wf.hookType ptr with
      kprobe := Function.update hooks.kprobe wf.hookType
        (!((hooks.hookArray wf.hookType).erase ptr).isEmpty) } =
      hooks.restrict fun q => q != ptr := by
  have hother : ∀ t ≠ wf.hookType,
      (hooks.hookArray t).filter (fun q => q != ptr) = hooks.hookArray t := by
    intro t ht
    apply filter_bne_eq_self
    intro hmem
    exact ht (hinv.hookType_of_mem hwf hmem).1.symm
  have herase := (hinv.hook_nodup wf.hookType).erase_eq_filter ptr
  ext1
  · funext t
    by_cases ht : t = wf.hookType
    · simp [Hooks.unlink, Hooks.restrict, ht, herase]
    · simp [Hooks.unlink, Hooks.restrict, Function.update_of_ne ht, hother t ht]
  · -- a workflow of a hook type is on no timer
    refine (restrictTimers_eq_self (fun timer htimer => (hinv.timer_nonempty timer htimer).1)
      fun timer htimer q hq => ?_).symm
    rw [bne_iff_ne]
    intro heq
    subst heq
    have htype := (hinv.timerType_of_mem hwf htimer hq).1
    simp [htype] at hle
  · funext t
    by_cases ht : t = wf.hookType
    · simp only [ht, Function.update_self, Hooks.restrict, herase]
    · simp only [Function.update_of_ne ht, Hooks.restrict, hother t ht, hinv.kprobe_eq]
  · exact funext hinv.tracepoint_eq

/-- `delete_kprobe_hook` leaves the tables as they are without the workflow; its flag
says whether another workflow keeps the kprobe registered. -/
theorem HookInv.deleteKprobeHook_spec (hinv : HookInv desc hooks)
    (hwf : workflowAt desc ptr = some wf) (hle : wf.hookType ≤ kprobeHookEnd) :
    deleteKprobeHook ptr wf hooks = (0, hooks.restrict fun q => q != ptr) := by
  rw [← hinv.unlink_eq_restrict hwf hle, deleteKprobeHook, if_neg (by simp at hle ⊢; omega)]
  cases hempty : ((hooks.hookArray wf.hookType).erase ptr).isEmpty with
  | true => simp [Hooks.unlink, hempty]
  | false =>
      -- the list was not empty before either, so its kprobe stays registered
      have hne : hooks.hookArray wf.hookType ≠ [] := by
        intro hnil
        simp [hnil] at hempty
      simp [Hooks.unlink, hempty, hinv.update_kprobe_eq_self hne]

/-- `unlink_timer_callback` leaves the tables as they are without the workflow and
returns one, when a timer of its interval exists. -/
theorem HookInv.unlinkTimerCallback_spec (hinv : HookInv desc hooks)
    (hwf : workflowAt desc ptr = some wf) (htype : wf.hookType = secDetectorTimer)
    (hlinked : hooks.Linked ptr) :
    unlinkTimerCallback ptr wf hooks = (1, hooks.restrict fun q => q != ptr) := by
  obtain ⟨timer, htimer, hinterval, -⟩ := (hinv.linked_iff_of_timer hwf htype).mp hlinked
  have hdrop := dropFromTimer_eq_restrictTimers hinv.timer_intervals
    (fun timer htimer => (hinv.timer_nonempty timer htimer).1) hinv.timer_nodup
    (fun timer htimer hne => hinv.not_mem_of_interval_ne htimer hwf hne)
    ⟨timer, htimer, hinterval⟩
  -- a workflow of the timer is on the list of no hook type
  have hhook : ∀ t, (hooks.hookArray t).filter (fun q => q != ptr) = hooks.hookArray t := by
    intro t
    apply filter_bne_eq_self
    intro hmem
    obtain ⟨rfl, hle⟩ := hinv.hookType_of_mem hwf hmem
    simp [htype] at hle
  rw [unlinkTimerCallback, hdrop]
  refine Prod.ext rfl ?_
  ext1
  · exact funext fun t => (hhook t).symm
  · rfl
  · exact funext fun t => by simp only [Hooks.restrict, hhook, hinv.kprobe_eq]
  · exact funext hinv.tracepoint_eq

/-- **`delete_callback` removes the workflow, if it is linked, and never fails.** -/
theorem HookInv.deleteCallback_spec (hinv : HookInv desc hooks)
    (hwf : workflowAt desc ptr = some wf) (env : HookEnv) :
    0 ≤ (deleteCallback env ptr wf hooks).1 ∧
      (deleteCallback env ptr wf hooks).2 = hooks.restrict fun q => q != ptr := by
  have habsent : ¬ hooks.Linked ptr → hooks = hooks.restrict fun q => q != ptr := by
    intro hnot
    exact (hinv.restrict_eq_self (bne_of_not_linked hnot)).symm
  rw [deleteCallback_eq]
  cases hfamily : familyOf wf.hookType with
  | none =>
      obtain ⟨hlt, hne⟩ := familyOf_eq_none hfamily
      exact ⟨le_rfl, habsent (hinv.not_linked_of_other hwf hlt hne)⟩
  | some family =>
      have hiff := hinv.exists_iff_linked hwf hfamily
      dsimp only
      split
      · rename_i hexists
        have hlinked := hiff.mp hexists
        cases family with
        | kprobe =>
            rw [HookFamily.delete,
              hinv.deleteKprobeHook_spec hwf (familyOf_eq_kprobe hfamily)]
            exact ⟨le_rfl, rfl⟩
        | tracepoint =>
            have htype := familyOf_eq_tracepoint hfamily
            exact absurd hlinked
              (hinv.not_linked_of_other hwf (by simp [htype]) (by simp [htype]))
        | timer =>
            rw [HookFamily.delete,
              hinv.unlinkTimerCallback_spec hwf (familyOf_eq_timer hfamily) hlinked]
            exact ⟨zero_le_one, rfl⟩
      · rename_i hexists
        exact ⟨le_rfl, habsent fun hlinked => hexists (hiff.mpr hlinked)⟩

/-! ## Insertion -/

omit [DecidableEq M] in
theorem mem_link_iff {t t' : ℕ} (q : WorkflowPtr M) :
    q ∈ (hooks.link t ptr).hookArray t' ↔ (q = ptr ∧ t' = t) ∨ q ∈ hooks.hookArray t' := by
  by_cases ht : t' = t
  · simp [Hooks.link, ht]
  · simp [Hooks.link, ht]

omit [DecidableEq M] in
/-- Who is linked when the list of a hook type got a workflow. -/
theorem linked_link_iff {t : ℕ} (kprobe : ℕ → Bool) (q : WorkflowPtr M) :
    { hooks.link t ptr with kprobe := kprobe }.Linked q ↔ q = ptr ∨ hooks.Linked q := by
  constructor
  · intro hlinked
    rcases hlinked with ⟨t', hq⟩ | ⟨timer, htimer, hq⟩
    · rcases (mem_link_iff q).mp hq with ⟨heq, _⟩ | hq
      · exact .inl heq
      · exact .inr (.inl ⟨t', hq⟩)
    · exact .inr (.inr ⟨timer, htimer, hq⟩)
  · intro hlinked
    rcases hlinked with rfl | ⟨t', hq⟩ | ⟨timer, htimer, hq⟩
    · exact .inl ⟨t, (mem_link_iff _).mpr (.inl ⟨rfl, rfl⟩)⟩
    · exact .inl ⟨t', (mem_link_iff _).mpr (.inr hq)⟩
    · exact .inr ⟨timer, htimer, hq⟩

/-- Linking a workflow to the list of its hook type, with the kprobe of that list
registered. -/
theorem HookInv.link_spec (hinv : HookInv desc hooks) (hwf : workflowAt desc ptr = some wf)
    (hle : wf.hookType ≤ kprobeHookEnd) (hfresh : ¬ hooks.Linked ptr) :
    Links desc hooks ptr
      { hooks.link wf.hookType ptr with
        kprobe := Function.update hooks.kprobe wf.hookType true } := by
  have hnot : ptr ∉ hooks.hookArray wf.hookType := fun hmem => hfresh (.inl ⟨_, hmem⟩)
  have hinv' : HookInv desc { hooks.link wf.hookType ptr with
      kprobe := Function.update hooks.kprobe wf.hookType true } := by
    refine ⟨fun t => ?_, hinv.tracepoint_eq, fun t q hq => ?_, fun t => ?_,
      hinv.timer_intervals, hinv.timer_nonempty, hinv.timer_typed, hinv.timer_nodup⟩
    · by_cases ht : t = wf.hookType
      · simp [Hooks.link, ht]
      · simp [Hooks.link, ht, hinv.kprobe_eq]
    · rcases (mem_link_iff q).mp hq with ⟨rfl, rfl⟩ | hq
      · exact ⟨wf, hwf, rfl, hle⟩
      · exact hinv.hook_typed t q hq
    · by_cases ht : t = wf.hookType
      · simpa [Hooks.link, ht] using ⟨hnot, hinv.hook_nodup _⟩
      · simpa [Hooks.link, Function.update_of_ne ht] using hinv.hook_nodup t
  refine ⟨hfresh, hinv', ?_, linked_link_iff _⟩
  -- without the new workflow the list and the flag of its hook type are as before
  rw [← hinv'.unlink_eq_restrict hwf hle]
  ext1
  · funext t
    by_cases ht : t = wf.hookType
    · simp [Hooks.link, Hooks.unlink, ht]
    · simp [Hooks.link, Hooks.unlink]
  · rfl
  · funext t
    by_cases ht : t = wf.hookType
    · simp [Hooks.link, ht, hinv.kprobe_eq]
    · simp [Hooks.link, Function.update_of_ne ht]
  · rfl

omit [DecidableEq M] in
/-- Who is linked when one timer got a callback. -/
theorem linked_addToTimer_iff {front back : List (Timer M)} {timer : Timer M}
    (htimers : hooks.timerList = front ++ timer :: back) (q : WorkflowPtr M) :
    { hooks with timerList :=
        front ++ { timer with callbackList := ptr :: timer.callbackList } :: back }.Linked q ↔
      q = ptr ∨ hooks.Linked q := by
  simp only [Hooks.Linked, htimers, List.mem_append, List.mem_cons]
  constructor
  · intro hlinked
    rcases hlinked with hq | ⟨other, hother | rfl | hother, hq⟩
    · exact .inr (.inl hq)
    · exact .inr (.inr ⟨other, .inl hother, hq⟩)
    · rcases List.mem_cons.mp hq with rfl | hq
      · exact .inl rfl
      · exact .inr (.inr ⟨timer, .inr (.inl rfl), hq⟩)
    · exact .inr (.inr ⟨other, .inr (.inr hother), hq⟩)
  · intro hlinked
    rcases hlinked with rfl | hq | ⟨other, hother | rfl | hother, hq⟩
    · exact .inr ⟨_, .inr (.inl rfl), List.mem_cons_self⟩
    · exact .inl hq
    · exact .inr ⟨other, .inl hother, hq⟩
    · exact .inr ⟨_, .inr (.inl rfl), List.mem_cons_of_mem _ hq⟩
    · exact .inr ⟨other, .inr (.inr hother), hq⟩

/-- Linking a workflow to the timer of its interval. -/
theorem HookInv.addToTimer_spec (hinv : HookInv desc hooks)
    (hwf : workflowAt desc ptr = some wf) (htype : wf.hookType = secDetectorTimer)
    (hfresh : ¬ hooks.Linked ptr) {front back : List (Timer M)} {timer : Timer M}
    (htimers : hooks.timerList = front ++ timer :: back)
    (hinterval : wf.interval = timer.interval) :
    Links desc hooks ptr { hooks with
      timerList := front ++ { timer with callbackList := ptr :: timer.callbackList } :: back } := by
  have hself : hooks.restrict (fun q => q != ptr) = hooks :=
    hinv.restrict_eq_self (bne_of_not_linked hfresh)
  have hin : timer ∈ hooks.timerList := by simp [htimers]
  have hnot : ptr ∉ timer.callbackList := fun hmem => hfresh (.inr ⟨timer, hin, hmem⟩)
  -- every timer of the new list is an old one or the one that got the callback
  have hold : ∀ other ∈ front ++ { timer with callbackList := ptr :: timer.callbackList } :: back,
      other ∈ hooks.timerList ∨
        other = { timer with callbackList := ptr :: timer.callbackList } := by
    intro other hother
    rw [htimers]
    simp only [List.mem_append, List.mem_cons] at hother ⊢
    tauto
  refine ⟨hfresh, ⟨hinv.kprobe_eq, hinv.tracepoint_eq, hinv.hook_typed, hinv.hook_nodup, ?_,
    fun other hother => ?_, fun other hother q hq => ?_, fun other hother => ?_⟩, ?_,
    linked_addToTimer_iff htimers⟩
  · simpa [htimers] using hinv.timer_intervals
  · rcases hold other hother with hother | rfl
    · exact hinv.timer_nonempty other hother
    · exact ⟨List.cons_ne_nil _ _, (hinv.timer_nonempty timer hin).2⟩
  · rcases hold other hother with hother | rfl
    · exact hinv.timer_typed other hother q hq
    · rcases List.mem_cons.mp hq with rfl | hq
      · exact ⟨wf, hwf, htype, hinterval⟩
      · exact hinv.timer_typed timer hin q hq
  · rcases hold other hother with hother | rfl
    · exact hinv.timer_nodup other hother
    · exact List.nodup_cons.mpr ⟨hnot, hinv.timer_nodup timer hin⟩
  · conv_rhs => rw [← hself]
    ext1
    · rfl
    · simp [Hooks.restrict, restrictTimers, htimers]
    · rfl
    · rfl

/-- Linking a workflow to a new timer. -/
theorem HookInv.newTimer_spec (hinv : HookInv desc hooks)
    (hwf : workflowAt desc ptr = some wf) (htype : wf.hookType = secDetectorTimer)
    (hfresh : ¬ hooks.Linked ptr)
    (hnew : ∀ timer ∈ hooks.timerList, timer.interval ≠ wf.interval) :
    Links desc hooks ptr
      { hooks with timerList := ⟨wf.interval, [ptr], true⟩ :: hooks.timerList } := by
  have hself : hooks.restrict (fun q => q != ptr) = hooks :=
    hinv.restrict_eq_self (bne_of_not_linked hfresh)
  refine ⟨hfresh, ⟨hinv.kprobe_eq, hinv.tracepoint_eq, hinv.hook_typed, hinv.hook_nodup, ?_,
    ?_, ?_, ?_⟩, ?_, fun q => ?_⟩
  · rw [List.map_cons, List.nodup_cons]
    refine ⟨fun hmem => ?_, hinv.timer_intervals⟩
    obtain ⟨timer, htimer, heq⟩ := List.mem_map.mp hmem
    exact hnew timer htimer heq
  · exact List.forall_mem_cons.mpr ⟨⟨List.cons_ne_nil _ _, rfl⟩, hinv.timer_nonempty⟩
  · refine List.forall_mem_cons.mpr ⟨fun q hq => ?_, hinv.timer_typed⟩
    exact ⟨wf, List.mem_singleton.mp hq ▸ hwf, htype, rfl⟩
  · exact List.forall_mem_cons.mpr ⟨List.nodup_singleton _, hinv.timer_nodup⟩
  -- the new timer loses its only workflow, so the restriction drops it
  · conv_rhs => rw [← hself]
    ext1
    · rfl
    · exact (restrictTimers_cons _ _ _).trans (by simp [Hooks.restrict])
    · rfl
    · rfl
  · simp only [Hooks.Linked, List.mem_cons]
    constructor
    · intro hlinked
      rcases hlinked with hq | ⟨timer, rfl | htimer, hq⟩
      · exact .inr (.inl hq)
      · exact .inl (List.mem_singleton.mp hq)
      · exact .inr (.inr ⟨timer, htimer, hq⟩)
    · intro hlinked
      rcases hlinked with rfl | hq | ⟨timer, htimer, hq⟩
      · exact .inr ⟨_, .inl rfl, List.mem_singleton_self _⟩
      · exact .inl hq
      · exact .inr ⟨timer, .inr htimer, hq⟩

/-- `insert_kprobe_hook` fails with the registration of its kprobe, or links the
workflow. -/
theorem HookInv.insertKprobeHook_spec (hinv : HookInv desc hooks)
    (hwf : workflowAt desc ptr = some wf) (hle : wf.hookType ≤ kprobeHookEnd)
    (hfresh : ¬ hooks.Linked ptr) (env : HookEnv) :
    ((insertKprobeHook env ptr wf hooks).1 < 0 ∧ (insertKprobeHook env ptr wf hooks).2 = hooks) ∨
      (0 ≤ (insertKprobeHook env ptr wf hooks).1 ∧
        Links desc hooks ptr (insertKprobeHook env ptr wf hooks).2) := by
  have hlink := hinv.link_spec hwf hle hfresh
  rw [insertKprobeHook, if_neg (by simp at hle ⊢; omega)]
  split
  · split
    · rename_i hret
      exact .inl ⟨hret, rfl⟩
    · rename_i hret
      exact .inr ⟨not_lt.mp hret, hlink⟩
  · rename_i hne
    rw [hinv.update_kprobe_eq_self (by simpa using hne)] at hlink
    exact .inr ⟨le_rfl, hlink⟩

/-- `insert_timer_callback` links the workflow to the timer of its interval, or to a
new one, which it may fail to allocate. -/
theorem HookInv.insertTimerCallback_spec (hinv : HookInv desc hooks)
    (hwf : workflowAt desc ptr = some wf) (htype : wf.hookType = secDetectorTimer)
    (hfresh : ¬ hooks.Linked ptr) (env : HookEnv) :
    ((insertTimerCallback env ptr wf hooks).1 < 0 ∧
        (insertTimerCallback env ptr wf hooks).2 = hooks) ∨
      (0 ≤ (insertTimerCallback env ptr wf hooks).1 ∧
        Links desc hooks ptr (insertTimerCallback env ptr wf hooks).2) := by
  rw [insertTimerCallback]
  split
  · rename_i timers hadd
    obtain ⟨front, timer, back, htimers, hinterval, rfl⟩ := addToTimer_eq_some hadd
    exact .inr ⟨le_rfl, hinv.addToTimer_spec hwf htype hfresh htimers hinterval⟩
  · rename_i hadd
    split
    · exact .inr ⟨le_rfl, hinv.newTimer_spec hwf htype hfresh (addToTimer_eq_none hadd)⟩
    · exact .inl ⟨(by decide : -eNoMem < 0), rfl⟩

/-- **`insert_callback` either fails and changes nothing, or links the workflow.** -/
theorem HookInv.insertCallback_spec (hinv : HookInv desc hooks)
    (hwf : workflowAt desc ptr = some wf) (env : HookEnv) :
    ((insertCallback env ptr wf hooks).1 < 0 ∧ (insertCallback env ptr wf hooks).2 = hooks) ∨
      (0 ≤ (insertCallback env ptr wf hooks).1 ∧
        Links desc hooks ptr (insertCallback env ptr wf hooks).2) := by
  rw [insertCallback_eq]
  cases hfamily : familyOf wf.hookType with
  | none => exact .inl ⟨(by decide : -eFault < 0), rfl⟩
  | some family =>
      have hiff := hinv.exists_iff_linked hwf hfamily
      dsimp only
      split
      · exact .inl ⟨(by decide : -eExist < 0), rfl⟩
      · rename_i hexists
        have hfresh : ¬ hooks.Linked ptr := fun hlinked => hexists (hiff.mpr hlinked)
        cases family with
        | kprobe => exact hinv.insertKprobeHook_spec hwf (familyOf_eq_kprobe hfamily) hfresh env
        | tracepoint =>
            have htype := familyOf_eq_tracepoint hfamily
            have hempty : (hooks.hookArray wf.hookType).isEmpty = true := by
              rw [htype, hinv.tracepoint_empty]
              rfl
            refine .inl ?_
            rw [HookFamily.insert, insertTracepointHook, if_neg (by simp [htype]), if_pos hempty]
            -- no tracepoint has a register function
            exact ⟨(by decide : (-1 : ℤ) < 0), rfl⟩
        | timer => exact hinv.insertTimerCallback_spec hwf (familyOf_eq_timer hfamily) hfresh env

end SecDetector.Framework
