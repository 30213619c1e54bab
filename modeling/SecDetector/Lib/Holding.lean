import Mathlib.Data.Multiset.AddSub
import SecDetector.Lib.Run

/-!
# Resources that are taken and given back

A trace of a program says which resources it takes and which it gives back.  `Use.step`
replays it on what is held: giving back what is not held is refused, so a trace from nothing
to nothing gives back everything that it takes, as often as it takes it, and nothing else.

`Throughout good held uses` says that what is held is good all along the trace, and not only
at its end.
-/

namespace SecDetector.Lib

variable {R : Type*}

/-- One entry of a trace. -/
inductive Use (R : Type*) where
  | acquire (r : R)
  | release (r : R)
  deriving DecidableEq

/-- The resource of an entry. -/
def Use.resource : Use R → R
  | .acquire r => r
  | .release r => r

variable [DecidableEq R]

/-- What is held after an entry. -/
def Use.step (held : Multiset R) : Use R → Option (Multiset R)
  | .acquire r => some (r ::ₘ held)
  | .release r => if r ∈ held then some (held.erase r) else none

namespace Use

variable {held held' : Multiset R} {uses uses' : List (Use R)} {r : R}

@[simp] theorem exec_nil : exec step held [] = some held := rfl

@[simp] theorem exec_acquire (held : Multiset R) (r : R) (uses : List (Use R)) :
    exec step held (.acquire r :: uses) = exec step (r ::ₘ held) uses := rfl

/-- What was taken last is given back. -/
@[simp] theorem exec_release_cons (held : Multiset R) (r : R) (uses : List (Use R)) :
    exec step (r ::ₘ held) (.release r :: uses) = exec step held uses := by
  rw [exec, List.foldlM_cons, step, if_pos (Multiset.mem_cons_self r held),
    Multiset.erase_cons_head]
  rfl

theorem exec_append (held : Multiset R) (uses uses' : List (Use R)) :
    exec step held (uses ++ uses') = (exec step held uses).bind fun held' =>
      exec step held' uses' :=
  List.foldlM_append

theorem exec_acquires (held : Multiset R) (rs : List R) :
    exec step held (rs.map acquire) = some (held + (rs : Multiset R)) := by
  induction rs generalizing held with
  | nil => simp
  | cons r rs ih =>
      rw [List.map_cons, exec_acquire, ih, ← Multiset.cons_coe, Multiset.add_cons,
        Multiset.cons_add]

theorem exec_releases (held : Multiset R) (rs : List R) :
    exec step (held + (rs : Multiset R)) (rs.map release) = some held := by
  induction rs with
  | nil => simp
  | cons r rs ih =>
      rw [List.map_cons, ← Multiset.cons_coe, Multiset.add_cons, exec_release_cons, ih]

/-! ## All along a trace -/

/-- What is held is good at first and after every entry. -/
def Throughout (good : Multiset R → Prop) (held : Multiset R) : List (Use R) → Prop
  | [] => good held
  | use :: uses => good held ∧ ∀ held', step held use = some held' → Throughout good held' uses

variable {good : Multiset R → Prop}

@[simp] theorem throughout_nil_iff : Throughout good held [] ↔ good held := Iff.rfl

@[simp] theorem throughout_acquire_iff :
    Throughout good held (.acquire r :: uses) ↔
      good held ∧ Throughout good (r ::ₘ held) uses := by
  simp [Throughout, step]

@[simp] theorem throughout_release_cons_iff :
    Throughout good (r ::ₘ held) (.release r :: uses) ↔
      good (r ::ₘ held) ∧ Throughout good held uses := by
  simp [Throughout, step]

/-- One trace after the other. -/
theorem Throughout.append (hfst : Throughout good held uses)
    (hexec : exec step held uses = some held') (hsnd : Throughout good held' uses') :
    Throughout good held (uses ++ uses') := by
  induction uses generalizing held with
  | nil =>
      obtain rfl := Option.some.inj hexec
      exact hsnd
  | cons use uses ih =>
      refine ⟨hfst.1, fun held₁ hstep => ?_⟩
      rw [exec, List.foldlM_cons, hstep] at hexec
      exact ih (hfst.2 held₁ hstep) hexec

/-- A resource that a trace does not mention is not held all along. -/
theorem throughout_notMem (hheld : r ∉ held) (huses : ∀ use ∈ uses, use.resource ≠ r) :
    Throughout (r ∉ ·) held uses := by
  induction uses generalizing held with
  | nil => exact hheld
  | cons use uses ih =>
      rw [List.forall_mem_cons] at huses
      refine ⟨hheld, fun held' hstep => ih ?_ huses.2⟩
      cases use with
      | acquire q =>
          obtain rfl := Option.some.inj hstep
          rw [Multiset.mem_cons, not_or]
          exact ⟨fun heq => huses.1 heq.symm, hheld⟩
      | release q =>
          rw [step, Option.ite_none_right_eq_some, Option.some.injEq] at hstep
          rw [← hstep.2]
          exact fun hmem => hheld (Multiset.mem_of_mem_erase hmem)

theorem Throughout.mono {good' : Multiset R → Prop} (h : Throughout good held uses)
    (himp : ∀ held, good held → good' held) : Throughout good' held uses := by
  induction uses generalizing held with
  | nil => exact himp held h
  | cons use uses ih => exact ⟨himp held h.1, fun held' hstep => ih (h.2 held' hstep)⟩

/-- Every state on the way is good. -/
theorem Throughout.of_prefix (h : Throughout good held uses) {front : List (Use R)}
    (hfront : front <+: uses) (hexec : exec step held front = some held') : good held' := by
  induction front generalizing held uses with
  | nil =>
      obtain rfl := Option.some.inj hexec
      cases uses with
      | nil => exact h
      | cons use uses => exact h.1
  | cons use front ih =>
      obtain ⟨back, rfl⟩ := hfront
      rw [exec, List.foldlM_cons] at hexec
      obtain ⟨held₁, hstep, hrest⟩ := Option.bind_eq_some_iff.mp hexec
      exact ih (h.2 held₁ hstep) (List.prefix_append front back) hrest

end Use

end SecDetector.Lib
