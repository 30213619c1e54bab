import Mathlib.Data.List.Nodup
import Mathlib.Logic.Function.Basic

/-!
# Resources that pass from hand to hand

A resource is unused, with one of several agents, in a common store, or gone, and moves from
one of these places to the next.  Agents that follow this order need no other agreement:
`Custody place held shared` says that what the agents hold and what the store contains are as in
`place`, so a resource is nowhere twice, and every move keeps it.
-/

namespace SecDetector.Lib

variable {R H : Type*}

/-- Where a resource is. -/
inductive Place (H : Type*) where
  | unused
  | held (h : H)
  | shared
  | gone
  deriving DecidableEq

/-- Every resource is where `place` says. -/
structure Custody (place : R → Place H) (held : H → Option R) (shared : List R) : Prop where
  held_iff : ∀ h r, held h = some r ↔ place r = .held h
  shared_iff : ∀ r, r ∈ shared ↔ place r = .shared
  nodup : shared.Nodup

namespace Custody

variable {place : R → Place H} {held : H → Option R} {shared rest : List R} {h h' : H} {r : R}

/-- Nobody holds anything yet. -/
theorem start (hheld : ∀ h, held h = none) :
    Custody (fun _ => Place.unused) held ([] : List R) where
  held_iff h r := by simp [hheld]
  shared_iff r := by simp
  nodup := List.nodup_nil

/-- Two agents do not hold the same resource. -/
theorem unique (hc : Custody place held shared) (hr : held h = some r) (hr' : held h' = some r) :
    h = h' := by
  have hplace := (hc.held_iff h r).mp hr
  rw [(hc.held_iff h' r).mp hr'] at hplace
  exact (Place.held.inj hplace).symm

theorem held_ne_shared (hc : Custody place held shared) (hr : held h = some r) : r ∉ shared := by
  rw [hc.shared_iff, (hc.held_iff h r).mp hr]
  simp

/-- An agent with empty hands holds no resource. -/
theorem not_held (hc : Custody place held shared) (hnone : held h = none) (r : R) :
    place r ≠ .held h := by
  rw [Ne, ← hc.held_iff, hnone]
  simp

/-- The resource that an agent holds. -/
theorem eq_of_held (hc : Custody place held shared) (hr : held h = some r) (r' : R)
    (hr' : place r' = .held h) : r' = r :=
  Option.some.inj (((hc.held_iff h r').mpr hr').symm.trans hr)

theorem eq_of_place (hc : Custody place held shared) (hr : held h = some r) (h' : H)
    (hr' : place r = .held h') : h' = h :=
  hc.unique ((hc.held_iff h' r).mpr hr') hr

variable [DecidableEq R] [DecidableEq H]

/-- An agent puts away what it holds, and takes `r`, or nothing. -/
theorem held_update (hc : Custody place held shared) {p : Place H} {next : Option R}
    (hown : ∀ r', place r' = .held h → r' = r) (hfree : ∀ h', place r = .held h' → h' = h)
    (hnext : next = some r ∧ p = .held h ∨ next = none ∧ ∀ h', p ≠ .held h') (h' : H) (r' : R) :
    Function.update held h next h' = some r' ↔ Function.update place r p r' = .held h' := by
  by_cases hh : h' = h
  · subst hh
    rw [Function.update_self]
    by_cases hr : r' = r
    · subst hr
      rw [Function.update_self]
      rcases hnext with ⟨rfl, rfl⟩ | ⟨rfl, hp⟩
      · simp
      · simp [hp]
    · rw [Function.update_of_ne hr]
      refine iff_of_false (fun hnext' => ?_) fun hplace => hr (hown r' hplace)
      rcases hnext with ⟨rfl, _⟩ | ⟨rfl, _⟩
      · exact hr (Option.some.inj hnext').symm
      · cases hnext'
  · rw [Function.update_of_ne hh]
    by_cases hr : r' = r
    · subst hr
      rw [Function.update_self, hc.held_iff]
      refine iff_of_false (fun hplace => hh (hfree h' hplace)) fun hplace => ?_
      rcases hnext with ⟨_, rfl⟩ | ⟨_, hp⟩
      · exact hh (Place.held.inj hplace).symm
      · exact hp h' hplace
    · rw [Function.update_of_ne hr, hc.held_iff]

theorem acquire (hc : Custody place held shared) (hnone : held h = none)
    (hunused : place r = .unused) :
    Custody (Function.update place r (.held h)) (Function.update held h (some r)) shared where
  held_iff := hc.held_update (fun r' hr' => absurd hr' (hc.not_held hnone r'))
    (fun h' hr => by simp [hunused] at hr) (.inl ⟨rfl, rfl⟩)
  shared_iff r' := by
    rw [hc.shared_iff]
    by_cases hr : r' = r
    · subst hr
      simp [hunused]
    · rw [Function.update_of_ne hr]
  nodup := hc.nodup

theorem share (hc : Custody place held shared) (hr : held h = some r) :
    Custody (Function.update place r .shared) (Function.update held h none) (shared ++ [r]) where
  held_iff := hc.held_update (hc.eq_of_held hr) (hc.eq_of_place hr) (.inr ⟨rfl, by simp⟩)
  shared_iff r' := by
    rw [List.mem_append, List.mem_singleton, hc.shared_iff]
    by_cases hr' : r' = r
    · simp [hr']
    · rw [Function.update_of_ne hr', or_iff_left hr']
  nodup := by
    rw [List.nodup_append]
    refine ⟨hc.nodup, List.nodup_singleton r, fun r' hr' r'' hr'' => ?_⟩
    rw [List.mem_singleton.mp hr'']
    exact ne_of_mem_of_not_mem hr' (hc.held_ne_shared hr)

theorem fetch (hc : Custody place held (r :: rest)) (hnone : held h = none) :
    Custody (Function.update place r (.held h)) (Function.update held h (some r)) rest where
  held_iff := by
    have hshared : place r = .shared := (hc.shared_iff r).mp List.mem_cons_self
    exact hc.held_update (fun r' hr' => absurd hr' (hc.not_held hnone r'))
      (fun h' hr => by simp [hshared] at hr) (.inl ⟨rfl, rfl⟩)
  shared_iff r' := by
    obtain ⟨hnotMem, _⟩ := List.nodup_cons.mp hc.nodup
    by_cases hr : r' = r
    · subst hr
      simp [hnotMem]
    · rw [Function.update_of_ne hr, ← hc.shared_iff, List.mem_cons, or_iff_right hr]
  nodup := (List.nodup_cons.mp hc.nodup).2

theorem drop (hc : Custody place held shared) (hr : held h = some r) :
    Custody (Function.update place r .gone) (Function.update held h none) shared where
  held_iff := hc.held_update (hc.eq_of_held hr) (hc.eq_of_place hr) (.inr ⟨rfl, by simp⟩)
  shared_iff r' := by
    rw [hc.shared_iff]
    by_cases hr' : r' = r
    · subst hr'
      rw [(hc.held_iff h r').mp hr, Function.update_self]
      simp
    · rw [Function.update_of_ne hr']
  nodup := hc.nodup

omit [DecidableEq R] [DecidableEq H] in
theorem perm (hc : Custody place held shared) (hperm : shared.Perm rest) :
    Custody place held rest where
  held_iff := hc.held_iff
  shared_iff r := by rw [← hperm.mem_iff, hc.shared_iff]
  nodup := hperm.nodup_iff.mp hc.nodup

omit [DecidableEq H] in
/-- A resource in the store is given up. -/
theorem discard (hc : Custody place held (r :: rest)) :
    Custody (Function.update place r .gone) held rest where
  held_iff h r' := by
    have hshared := (hc.shared_iff r).mp List.mem_cons_self
    by_cases hr : r' = r
    · subst hr
      rw [Function.update_self, hc.held_iff, hshared]
      simp
    · rw [Function.update_of_ne hr, hc.held_iff]
  shared_iff r' := by
    obtain ⟨hnotMem, _⟩ := List.nodup_cons.mp hc.nodup
    by_cases hr : r' = r
    · subst hr
      simp [hnotMem]
    · rw [Function.update_of_ne hr, ← hc.shared_iff, List.mem_cons, or_iff_right hr]
  nodup := (List.nodup_cons.mp hc.nodup).2

end Custody

end SecDetector.Lib
