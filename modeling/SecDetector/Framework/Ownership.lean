import SecDetector.Framework.Workflow

/-!
# Who owns what

The framework keeps no record of its resources: a proc entry belongs to the module whose
`parameter->entry` points to it, an array of default responses and a baseline to the
workflow with a pointer to it, and all these pointers stay set when the resource is
released.  `Holder` names the fields, and `State.held` reads them.

Everything the manager does to resources is a sequence of `Moves`: it releases what a
holder points to, it creates something for a holder, or it leaves both alone.  Moves
carry the set of holders that are known to point to something live, so that two
invariants follow from them: `PointerInv`, which holds whatever is called, and `Owns`,
for calls that only release what is live.
-/

namespace SecDetector.Framework

open Lib

variable {M : Type*}

/-! ## Holders -/

/-- A field that points to a resource. -/
inductive Holder (M : Type*) where
  | entry (m : M)
  | array (ptr : WorkflowPtr M)
  | baseline (ptr : WorkflowPtr M)
  deriving DecidableEq

namespace Holder

def resource : Holder M → Resource
  | .entry _ => .procEntry
  | .array _ => .responseArray
  | .baseline _ => .baseline

/-- The workflow that the field is in. -/
def workflow : Holder M → Option (WorkflowPtr M)
  | .entry _ => none
  | .array ptr | .baseline ptr => some ptr

/-- A field is an entry, or it is in a workflow. -/
theorem entry_or_workflow (k : Holder M) : (∃ m, k = .entry m) ∨ ∃ ptr, k.workflow = some ptr := by
  cases k with
  | entry m => exact .inl ⟨m, rfl⟩
  | array ptr | baseline ptr => exact .inr ⟨ptr, rfl⟩

end Holder

/-- The module that the field belongs to. -/
def Holder.module : Holder M → M
  | .entry m => m
  | .array ptr | .baseline ptr => ptr.module

/-- The pointer of an array of default responses. -/
def ResponseArray.heapPtr : ResponseArray → Option ℕ
  | .null | .static _ => none
  | .heap ptr _ => some ptr

/-- What a field points to. -/
def State.held (s : State M) : Holder M → Option ℕ
  | .entry m => (s.modules m).entry
  | .array ptr => (s.workflows ptr).responseArray.heapPtr
  | .baseline ptr => (s.workflows ptr).analyzeStatus.data

/-- What a field points to is live, if it points to anything. -/
def State.LiveAt (s : State M) (h : Holder M) : Prop :=
  ∀ ptr, s.held h = some ptr → s.heap.Live h.resource ptr

section

variable [DecidableEq M]

/-- Only the fields of one workflow change. -/
theorem held_of_update (s s' : State M) (ptr : WorkflowPtr M) (vars : WorkflowVars M)
    (hmodules : s'.modules = s.modules)
    (hworkflows : s'.workflows = Function.update s.workflows ptr vars) :
    s'.held = Function.update (Function.update s.held (.array ptr) vars.responseArray.heapPtr)
      (.baseline ptr) vars.analyzeStatus.data := by
  funext h
  cases h with
  | entry m => simp [State.held, hmodules]
  | array q =>
      by_cases hq : q = ptr
      · simp [State.held, hworkflows, hq]
      · simp [State.held, hworkflows, hq]
  | baseline q =>
      by_cases hq : q = ptr
      · simp [State.held, hworkflows, hq]
      · simp [State.held, hworkflows, hq]

/-- Only the fields of one module change. -/
theorem held_of_update_entry (s s' : State M) (m : M) (vars : ModuleVars)
    (hworkflows : s'.workflows = s.workflows)
    (hmodules : s'.modules = Function.update s.modules m vars) :
    s'.held = Function.update s.held (.entry m) vars.entry := by
  funext h
  cases h with
  | entry m' =>
      by_cases hm : m' = m
      · simp [State.held, hmodules, hm]
      · simp [State.held, hmodules, hm]
  | array q | baseline q => simp [State.held, hworkflows]

/-- The fields of one workflow change, but not the baseline. -/
theorem held_of_update_array (s s' : State M) (ptr : WorkflowPtr M) (vars : WorkflowVars M)
    (hmodules : s'.modules = s.modules)
    (hworkflows : s'.workflows = Function.update s.workflows ptr vars)
    (hstatus : vars.analyzeStatus = (s.workflows ptr).analyzeStatus) :
    s'.held = Function.update s.held (.array ptr) vars.responseArray.heapPtr := by
  rw [held_of_update s s' ptr vars hmodules hworkflows, hstatus, Function.update_comm (by simp)]
  exact congrArg (Function.update · _ _) (Function.update_eq_self (.baseline ptr) s.held)

end

/-! ## The log of the heap -/

namespace Heap

variable (heap : Heap) (resource resource' : Resource) (ptr ptr' : ℕ)

@[simp] theorem fresh_create : (heap.create resource).2.fresh = heap.fresh + 1 := rfl

@[simp] theorem fresh_release : (heap.release resource ptr).fresh = heap.fresh := rfl

theorem created_create : (heap.create resource).2.created resource' ptr' =
    heap.created resource' ptr' + if resource = resource' ∧ heap.fresh = ptr' then 1 else 0 := by
  simp [create, created, List.count_append, List.count_singleton]

theorem released_create :
    (heap.create resource).2.released resource' ptr' = heap.released resource' ptr' := by
  simp [create, released, List.count_append]

theorem created_release :
    (heap.release resource ptr).created resource' ptr' = heap.created resource' ptr' := by
  simp [release, created, List.count_append]

theorem released_release : (heap.release resource ptr).released resource' ptr' =
    heap.released resource' ptr' + if resource = resource' ∧ ptr = ptr' then 1 else 0 := by
  simp [release, released, List.count_append, List.count_singleton]

end Heap

/-! ## Moves -/

section

variable [DecidableEq M]

/-- What happens to resources.  `Moves live s live' s'` leads from `s` to `s'`; if the holders in
`live` point to live resources, then those in `live'` do afterwards. -/
inductive Moves : (Holder M → Prop) → State M → (Holder M → Prop) → State M → Prop
  /-- No resource is touched.  A field may be cleared. -/
  | frame {live live' : Holder M → Prop} {s s' : State M} (hheap : s'.heap = s.heap)
      (hheld : ∀ h, s'.held h = s.held h ∨ s'.held h = none) (hlive : ∀ h, live' h → live h) :
      Moves live s live' s'
  | release {live : Holder M → Prop} {s s' : State M} (h : Holder M) {ptr : ℕ}
      (hheld : s.held h = some ptr) (hlive : live h)
      (hheap : s'.heap = s.heap.release h.resource ptr) (hsame : s'.held = s.held) :
      Moves live s (fun k => live k ∧ k ≠ h) s'
  | create {live : Holder M → Prop} {s s' : State M} (h : Holder M)
      (hheap : s'.heap = (s.heap.create h.resource).2)
      (hheld : s'.held = Function.update s.held h (some s.heap.fresh)) :
      Moves live s (fun k => live k ∨ k = h) s'
  | trans {live live' live'' : Holder M → Prop} {s s' s'' : State M}
      (hfirst : Moves live s live' s') (hnext : Moves live' s' live'' s'') :
      Moves live s live'' s''

/-- Pointers are drawn from a counter and never shared. -/
structure PointerInv (s : State M) : Prop where
  held_lt : ∀ h ptr, s.held h = some ptr → ptr < s.heap.fresh
  unused : ∀ resource ptr, s.heap.fresh ≤ ptr →
    s.heap.created resource ptr = 0 ∧ s.heap.released resource ptr = 0
  distinct : ∀ h h' ptr, s.held h = some ptr → s.held h' = some ptr → h = h'

/-- Nothing was released twice, and the holders in `live` point to live resources. -/
structure Owns (live : Holder M → Prop) (s : State M) : Prop where
  pointers : PointerInv s
  freedOnce : s.heap.FreedOnce
  live : ∀ h, live h → s.LiveAt h

variable {live live' : Holder M → Prop} {s s' : State M}

theorem Moves.refl (live : Holder M → Prop) (s : State M) : Moves live s live s :=
  .frame rfl (fun _ => .inl rfl) fun _ => id

/-- Fewer holders need to be known. -/
theorem Moves.mono {live'' : Holder M → Prop} (hmoves : Moves live s live' s')
    (hsub : ∀ h, live'' h → live' h) : Moves live s live'' s' :=
  hmoves.trans (.frame rfl (fun _ => .inl rfl) hsub)

/-- A field keeps its value or is cleared. -/
theorem Moves.update (h : Holder M) {value : Option ℕ} (hheap : s'.heap = s.heap)
    (hheld : s'.held = Function.update s.held h value)
    (hvalue : value = s.held h ∨ value = none) : Moves live s live s' := by
  refine .frame hheap (fun k => ?_) fun _ => id
  rw [hheld]
  by_cases hk : k = h
  · rw [hk, Function.update_self]
    exact hvalue
  · rw [Function.update_of_ne hk]
    exact .inl rfl

/-- The table of ids holds no resource. -/
theorem moves_moduleIdr (live : Holder M → Prop) (s : State M) (idr : Idr M) :
    Moves live s live { s with moduleIdr := idr } :=
  .frame rfl (fun _ => .inl rfl) fun _ => id

theorem Moves.pointerInv (hmoves : Moves live s live' s') (hinv : PointerInv s) :
    PointerInv s' := by
  induction hmoves with
  | frame hheap hheld hlive =>
      have hold : ∀ h ptr, _ = some ptr → _ = some ptr := fun h ptr hptr =>
        (hheld h).elim (fun heq => heq.symm.trans hptr) fun hnone => by simp [hnone] at hptr
      refine ⟨fun h ptr hptr => ?_, fun resource ptr => ?_, fun h h' ptr hptr hptr' => ?_⟩
      · rw [hheap]
        exact hinv.held_lt h ptr (hold h ptr hptr)
      · rw [hheap]
        exact hinv.unused resource ptr
      · exact hinv.distinct h h' ptr (hold h ptr hptr) (hold h' ptr hptr')
  | @release live s s' h ptr hheld hlive hheap hsame =>
      refine ⟨?_, fun resource ptr' hfresh => ?_, ?_⟩
      · rw [hheap, hsame]
        exact hinv.held_lt
      · rw [hheap, Heap.fresh_release] at hfresh
        rw [hheap, Heap.created_release, Heap.released_release]
        obtain ⟨hcreated, hreleased⟩ := hinv.unused resource ptr' hfresh
        have hlt := hinv.held_lt h ptr hheld
        exact ⟨hcreated, by rw [hreleased, if_neg (by omega)]⟩
      · rw [hsame]
        exact hinv.distinct
  | @create live s s' h hheap hheld =>
      refine ⟨fun k ptr hptr => ?_, fun resource ptr' hfresh => ?_, fun k k' ptr hptr hptr' => ?_⟩
      · rw [hheap, Heap.fresh_create]
        rw [hheld] at hptr
        by_cases hk : k = h
        · rw [hk, Function.update_self, Option.some.injEq] at hptr
          omega
        · rw [Function.update_of_ne hk] at hptr
          exact Nat.lt_succ_of_lt (hinv.held_lt k ptr hptr)
      · rw [hheap, Heap.fresh_create] at hfresh
        rw [hheap, Heap.created_create, Heap.released_create]
        obtain ⟨hcreated, hreleased⟩ := hinv.unused resource ptr' (by omega)
        exact ⟨by rw [hcreated, if_neg (by omega)], hreleased⟩
      · -- the new pointer is above every other
        rw [hheld] at hptr hptr'
        have hfresh : ∀ k ptr, k ≠ h → Function.update s.held h (some s.heap.fresh) k = some ptr →
            ptr < s.heap.fresh := by
          intro k ptr hk hptr
          rw [Function.update_of_ne hk] at hptr
          exact hinv.held_lt k ptr hptr
        by_cases hk : k = h
        · by_cases hk' : k' = h
          · rw [hk, hk']
          · rw [hk, Function.update_self, Option.some.injEq] at hptr
            have hlt := hfresh k' ptr hk' hptr'
            omega
        · by_cases hk' : k' = h
          · rw [hk', Function.update_self, Option.some.injEq] at hptr'
            have hlt := hfresh k ptr hk hptr
            omega
          · rw [Function.update_of_ne hk] at hptr
            rw [Function.update_of_ne hk'] at hptr'
            exact hinv.distinct k k' ptr hptr hptr'
  | trans hfirst hnext ih ih' => exact ih' (ih hinv)

/-- What a holder points to stays live unless the moves release it. -/
theorem Moves.liveAt (watched : Holder M → Prop) (hmoves : Moves live s live' s')
    (hinv : PointerInv s) (hlive : ∀ h, watched h → live h → s.LiveAt h) :
    ∀ h, watched h → live' h → s'.LiveAt h := by
  induction hmoves with
  | frame hheap hheld hsub =>
      intro h hwatched hh ptr hptr
      rw [hheap]
      rcases hheld h with heq | hnone
      · exact hlive h hwatched (hsub h hh) ptr (heq.symm.trans hptr)
      · simp [hnone] at hptr
  | @release live s s' h ptr hheld _ hheap hsame =>
      intro k hwatched hk ptr' hptr'
      rw [hsame] at hptr'
      have hne : ptr ≠ ptr' := by
        intro heq
        subst heq
        exact hk.2 (hinv.distinct k h ptr hptr' hheld)
      rw [Heap.Live, hheap, Heap.created_release, Heap.released_release, if_neg (by simp [hne])]
      exact hlive k hwatched hk.1 ptr' hptr'
  | @create live s s' h hheap hheld =>
      intro k hwatched hk ptr' hptr'
      rw [Heap.Live, hheap, Heap.created_create, Heap.released_create]
      rw [hheld] at hptr'
      by_cases hkh : k = h
      · subst hkh
        rw [Function.update_self, Option.some.injEq] at hptr'
        -- nothing was ever released under a new pointer
        rw [(hinv.unused _ ptr' hptr'.le).2, if_pos ⟨rfl, hptr'⟩]
        exact Nat.succ_pos _
      · rw [Function.update_of_ne hkh] at hptr'
        exact Nat.lt_add_right _ (hlive k hwatched (hk.resolve_right hkh) ptr' hptr')
  | trans hfirst hnext ih ih' => exact ih' (hfirst.pointerInv hinv) (ih hinv hlive)

/-- **Moves release nothing twice.** -/
theorem Moves.owns (hmoves : Moves live s live' s') (howns : Owns live s) : Owns live' s' := by
  refine ⟨hmoves.pointerInv howns.pointers, ?_, fun h hh => ?_⟩
  · induction hmoves with
    | frame hheap hheld hsub =>
        rw [hheap]
        exact howns.freedOnce
    | @release live s s' h ptr hheld hlive hheap hsame =>
        intro resource ptr'
        rw [hheap, Heap.created_release, Heap.released_release]
        split
        · rename_i heq
          obtain ⟨rfl, rfl⟩ := heq
          exact howns.live h hlive ptr hheld
        · exact howns.freedOnce resource ptr'
    | create h hheap hheld =>
        intro resource ptr'
        rw [hheap, Heap.created_create, Heap.released_create]
        exact Nat.le_add_right_of_le (howns.freedOnce resource ptr')
    | trans hfirst hnext ih ih' =>
        exact ih' ⟨hfirst.pointerInv howns.pointers, ih howns, fun h hh =>
          hfirst.liveAt (fun _ => True) howns.pointers (fun h _ => howns.live h) h trivial hh⟩
  · exact hmoves.liveAt (fun _ => True) howns.pointers (fun h _ => howns.live h) h
      trivial hh

/-- Pointers are only added. -/
theorem Moves.fresh_le (hmoves : Moves live s live' s') : s.heap.fresh ≤ s'.heap.fresh := by
  induction hmoves with
  | frame hheap _ _ => exact hheap ▸ le_rfl
  | release h _ _ hheap _ => exact hheap ▸ le_rfl
  | create h hheap _ =>
      rw [hheap, Heap.fresh_create]
      exact Nat.le_succ _
  | trans _ _ ih ih' => exact ih.trans ih'

/-- What is live under a pointer in use was so before. -/
theorem Moves.live_of_live (hmoves : Moves live s live' s') {resource : Resource} {ptr : ℕ}
    (hlt : ptr < s.heap.fresh) (hlive : s'.heap.Live resource ptr) :
    s.heap.Live resource ptr := by
  induction hmoves with
  | frame hheap _ _ => exact hheap ▸ hlive
  | release h _ _ hheap _ =>
      rw [Heap.Live, hheap, Heap.created_release, Heap.released_release] at hlive
      exact lt_of_le_of_lt (Nat.le_add_right _ _) hlive
  | create h hheap _ =>
      rw [Heap.Live, hheap, Heap.created_create, Heap.released_create, if_neg (by omega)] at hlive
      exact hlive
  | trans hfirst _ ih ih' => exact ih hlt (ih' (hlt.trans_le hfirst.fresh_le) hlive)

end

end SecDetector.Framework
