import SecDetector.Lib.ListChain

/-!
# A list that is read while it changes

A linked list under read-copy-update.  Any number of readers follow its `next` pointers; one writer
at a time adds elements and removes them.  A removal leaves the `next` pointer of its element as it
was and then waits for the readers that were inside, and until it is over there is no other change.
After it the element belongs to its owner again, who may write anything in its node (`scribble`).

`list` holds the elements in order, `visited` those that a reader has been at in its present
section, and `stays` those of the list it began with that have not been removed since.  No branch
depends on these three.  `Inv` is what every operation keeps.  It says for a reader inside

* that it follows live pointers only, so that its next step never faults, and that it has been at
  every element that stays when it comes to the head (`Inv.advance_cases`);
* that what it has been at is on the list or is being removed (`Inv.held`);
* that it is at no element twice (`Inv.visited_nodup`).
-/

namespace SecDetector.Lib

open Link

structure RcuList (α R : Type*) where
  mem : ListMem α
  list : List α
  /-- The readers that are in a section, and the pointers that they hold. -/
  inside : List R
  cursor : R → Link α
  /-- The element whose removal is not over, and the readers that it waits for. -/
  removing : Option α
  waiting : List R
  visited : R → List α
  stays : R → List α

namespace RcuList

variable {α R : Type*}

/-- An empty list that nobody reads. -/
def init : RcuList α R :=
  ⟨ListMem.init, [], [], fun _ => .head, none, [], fun _ => [], fun _ => []⟩

/-! ## Operations -/

section Operations

variable [DecidableEq α] [DecidableEq R] (s : RcuList α R)

/-- `rcu_read_lock`, and the pointer to the head. -/
def enter (r : R) : Option (RcuList α R) :=
  if r ∈ s.inside then none
  else some { s with
    inside := r :: s.inside
    cursor := Function.update s.cursor r .head
    visited := Function.update s.visited r []
    stays := Function.update s.stays r s.list }

/-- `rcu_read_unlock`. -/
def leave (r : R) : RcuList α R :=
  { s with inside := s.inside.erase r, waiting := s.waiting.erase r }

/-- One round of `list_for_each_entry_rcu`; back at the head the section ends.  A null or poisoned
pointer is a fault. -/
def advance (r : R) : Option (RcuList α R) :=
  if r ∈ s.inside then
    match s.mem.nextOf (s.cursor r) with
    | .node a => some { s with
        cursor := Function.update s.cursor r (.node a)
        visited := Function.update s.visited r (s.visited r ++ [a]) }
    | .head => some (s.leave r)
    | .null | .poison => none
  else none

/-- `list_add_rcu`. -/
def addFront (a : α) : Option (RcuList α R) :=
  if s.removing = none then
    (s.mem.addRcu a).map fun mem => { s with mem := mem, list := a :: s.list }
  else none

/-- `list_add_tail_rcu`. -/
def addTail (a : α) : Option (RcuList α R) :=
  if s.removing = none then
    (s.mem.addTailRcu a).map fun mem => { s with mem := mem, list := s.list ++ [a] }
  else none

/-- `list_del_rcu`, and the beginning of `synchronize_rcu`. -/
def remove (a : α) : Option (RcuList α R) :=
  if s.removing = none then
    (s.mem.delRcu a).map fun mem => { s with
      mem := mem
      list := s.list.erase a
      removing := some a
      waiting := s.inside
      stays := fun r => (s.stays r).erase a }
  else none

/-- The end of `synchronize_rcu`. -/
def synced : Option (RcuList α R) :=
  if s.removing ≠ none ∧ s.waiting = [] then some { s with removing := none } else none

/-- The owner of an element writes to its node. -/
def scribble (a : α) (entry : ListHead α) : RcuList α R :=
  { s with mem := { s.mem with node := Function.update s.mem.node a entry } }

/-- The operations, as one transition function. -/
inductive Op (α R : Type*) where
  | enter (r : R)
  | leave (r : R)
  | advance (r : R)
  | addFront (a : α)
  | addTail (a : α)
  | remove (a : α)
  | synced
  | scribble (a : α) (entry : ListHead α)

def step : Op α R → Option (RcuList α R)
  | .enter r => s.enter r
  | .leave r => some (s.leave r)
  | .advance r => s.advance r
  | .addFront a => s.addFront a
  | .addTail a => s.addTail a
  | .remove a => s.remove a
  | .synced => s.synced
  | .scribble a entry => some (s.scribble a entry)

end Operations

/-! ## What an operation can do -/

section Cases

variable {s s' : RcuList α R} {r : R} {a : α}

theorem enter_cases [DecidableEq R] (hstep : s.enter r = some s') :
    r ∉ s.inside ∧ s' = { s with
      inside := r :: s.inside
      cursor := Function.update s.cursor r .head
      visited := Function.update s.visited r []
      stays := Function.update s.stays r s.list } := by
  simp only [enter, Option.ite_none_left_eq_some, Option.some.injEq] at hstep
  exact ⟨hstep.1, hstep.2.symm⟩

theorem addFront_cases [DecidableEq α] (hstep : s.addFront a = some s') :
    s.removing = none ∧ ∃ mem, s.mem.addRcu a = some mem ∧
      s' = { s with mem := mem, list := a :: s.list } := by
  simp only [addFront, Option.ite_none_right_eq_some, Option.map_eq_some_iff] at hstep
  obtain ⟨hidle, mem, hadd, rfl⟩ := hstep
  exact ⟨hidle, mem, hadd, rfl⟩

theorem addTail_cases [DecidableEq α] (hstep : s.addTail a = some s') :
    s.removing = none ∧ ∃ mem, s.mem.addTailRcu a = some mem ∧
      s' = { s with mem := mem, list := s.list ++ [a] } := by
  simp only [addTail, Option.ite_none_right_eq_some, Option.map_eq_some_iff] at hstep
  obtain ⟨hidle, mem, hadd, rfl⟩ := hstep
  exact ⟨hidle, mem, hadd, rfl⟩

theorem remove_cases [DecidableEq α] (hstep : s.remove a = some s') :
    s.removing = none ∧ ∃ mem, s.mem.delRcu a = some mem ∧
      s' = { s with
        mem := mem
        list := s.list.erase a
        removing := some a
        waiting := s.inside
        stays := fun r => (s.stays r).erase a } := by
  simp only [remove, Option.ite_none_right_eq_some, Option.map_eq_some_iff] at hstep
  obtain ⟨hidle, mem, hdel, rfl⟩ := hstep
  exact ⟨hidle, mem, hdel, rfl⟩

theorem synced_cases (hstep : s.synced = some s') :
    s.removing ≠ none ∧ s.waiting = [] ∧ s' = { s with removing := none } := by
  simp only [synced, Option.ite_none_right_eq_some, Option.some.injEq] at hstep
  exact ⟨hstep.1.1, hstep.1.2, hstep.2.symm⟩

end Cases

/-! ## The invariant -/

section Invariant

variable (s : RcuList α R)

/-- `rest` is what the reader will come to: it is at the end of what is in front of `rest` on the
list, or at the element that is being removed. -/
def Ahead (r : R) (rest : List α) : Prop :=
  (∃ pre, s.list = pre ++ rest ∧ s.cursor r = back .head pre) ∨
    ∃ a, s.removing = some a ∧ r ∈ s.waiting ∧ s.cursor r = .node a ∧ rest <:+ s.list ∧
      s.mem.nextOf (.node a) = front rest

/-- What holds of a reader inside. -/
structure Reading (r : R) (rest : List α) : Prop where
  ahead : s.Ahead r rest
  nodup : (s.visited r ++ rest).Nodup
  stays : (s.stays r).Sublist (s.visited r ++ rest)
  held : ∀ a ∈ s.visited r, a ∈ s.list ∨ s.removing = some a ∧ r ∈ s.waiting
  cursor : s.cursor r = back .head (s.visited r)

structure Inv : Prop where
  chain : s.mem.Chain s.list
  removed : ∀ a, s.removing = some a → a ∉ s.list
  reading : ∀ r ∈ s.inside, ∃ rest, s.Reading r rest
  inside_nodup : s.inside.Nodup
  waiting_sublist : s.waiting.Sublist s.inside
  idle : s.removing = none → s.waiting = []

end Invariant

variable {s s' : RcuList α R} {r q : R} {a : α} {rest : List α}

theorem inv_init : Inv (init : RcuList α R) :=
  ⟨ListMem.chain_init, by simp [init], by simp [init], List.nodup_nil, List.Sublist.refl _,
    fun _ => rfl⟩

theorem Ahead.next (hahead : s.Ahead r rest) (hchain : s.mem.Chain s.list) :
    s.mem.nextOf (s.cursor r) = front rest := by
  rcases hahead with ⟨pre, hlist, hcursor⟩ | ⟨a, _, _, hcursor, _, hnext⟩
  · rw [hcursor]
    exact (hlist ▸ hchain.next).drop.apply_eq_front
  · rw [hcursor, hnext]

theorem Ahead.suffix (hahead : s.Ahead r rest) : rest <:+ s.list := by
  rcases hahead with ⟨pre, hlist, _⟩ | ⟨_, _, _, _, hsuffix, _⟩
  · exact ⟨pre, hlist.symm⟩
  · exact hsuffix

/-- With no removal under way the pointer is on the list. -/
theorem Ahead.split (hahead : s.Ahead r rest) (hidle : s.removing = none) :
    ∃ pre, s.list = pre ++ rest ∧ s.cursor r = back .head pre := by
  rcases hahead with hsplit | ⟨a, hremoving, _⟩
  · exact hsplit
  · rw [hidle] at hremoving
    cases hremoving

/-- What a reader has been at is off the list only while its removal waits for the reader. -/
theorem Reading.mem_list (hreading : s.Reading r rest) (hidle : s.removing = none)
    (ha : a ∈ s.visited r) : a ∈ s.list := by
  rcases hreading.held a ha with hlist | ⟨hremoving, _⟩
  · exact hlist
  · rw [hidle] at hremoving
    cases hremoving

/-- A step that leaves the list and the fields of a reader alone. -/
theorem Reading.congr (hreading : s.Reading r rest) (hlist : s'.list = s.list)
    (hnext : ∀ a, s.removing = some a → s'.mem.nextOf (.node a) = s.mem.nextOf (.node a))
    (hremoving : r ∈ s.waiting → s'.removing = s.removing ∧ r ∈ s'.waiting)
    (hcursor : s'.cursor r = s.cursor r) (hvisited : s'.visited r = s.visited r)
    (hstays : s'.stays r = s.stays r) : s'.Reading r rest := by
  obtain ⟨hahead, hnodup, hsub, hheld, hback⟩ := hreading
  refine ⟨?_, hvisited ▸ hnodup, hstays ▸ hvisited ▸ hsub, fun a ha => ?_, ?_⟩
  · rcases hahead with ⟨pre, hpre, hcur⟩ | ⟨a, hrem, hwait, hcur, hsuffix, hfront⟩
    · exact .inl ⟨pre, hlist.trans hpre, hcursor.trans hcur⟩
    · obtain ⟨hrem', hwait'⟩ := hremoving hwait
      exact .inr ⟨a, hrem'.trans hrem, hwait', hcursor.trans hcur, hlist ▸ hsuffix,
        (hnext a hrem).trans hfront⟩
  · rw [hlist]
    refine (hheld a (hvisited ▸ ha)).imp_right fun h => ?_
    obtain ⟨hrem', hwait'⟩ := hremoving h.2
    exact ⟨hrem'.trans h.1, hwait'⟩
  · rw [hcursor, hvisited, hback]

/-! ## The readers -/

section Readers

variable [DecidableEq R]

theorem Inv.enter (hinv : s.Inv) (henter : s.enter r = some s') : s'.Inv := by
  obtain ⟨hout, rfl⟩ := enter_cases henter
  refine ⟨hinv.chain, hinv.removed, fun q hq => ?_, List.nodup_cons.mpr ⟨hout, hinv.inside_nodup⟩,
    hinv.waiting_sublist.cons r, hinv.idle⟩
  by_cases hqr : q = r
  · subst hqr
    refine ⟨s.list, .inl ⟨[], rfl, Function.update_self _ _ _⟩, ?_, ?_, ?_, ?_⟩
    · simpa using hinv.chain.nodup
    · simp
    · simp
    · simp [back]
  · obtain ⟨rest, hreading⟩ := hinv.reading q ((List.mem_cons.mp hq).resolve_left hqr)
    exact ⟨rest, hreading.congr rfl (fun _ _ => rfl) (fun hwait => ⟨rfl, hwait⟩)
      (Function.update_of_ne hqr _ _) (Function.update_of_ne hqr _ _)
      (Function.update_of_ne hqr _ _)⟩

theorem Inv.leave (hinv : s.Inv) (r : R) : (s.leave r).Inv := by
  refine ⟨hinv.chain, hinv.removed, fun q hq => ?_, hinv.inside_nodup.erase r,
    hinv.waiting_sublist.erase r, fun hidle => ?_⟩
  · obtain ⟨hqr, hq⟩ := hinv.inside_nodup.mem_erase_iff.mp hq
    obtain ⟨rest, hreading⟩ := hinv.reading q hq
    exact ⟨rest, hreading.congr rfl (fun _ _ => rfl)
      (fun hwait => ⟨rfl, (List.mem_erase_of_ne hqr).mpr hwait⟩) rfl rfl rfl⟩
  · rw [RcuList.leave, hinv.idle hidle, List.erase_nil]

/-- **The reader's next step.**  It is at the head and has come to all that stays, or it goes to
the first element of what is ahead. -/
theorem Inv.advance_cases (hinv : s.Inv) (hr : r ∈ s.inside) :
    (s.mem.nextOf (s.cursor r) = .head ∧ s.advance r = some (s.leave r) ∧
      (s.stays r).Sublist (s.visited r)) ∨
    ∃ a rest, s.Reading r (a :: rest) ∧ s.mem.nextOf (s.cursor r) = .node a ∧
      s.advance r = some { s with
        cursor := Function.update s.cursor r (.node a)
        visited := Function.update s.visited r (s.visited r ++ [a]) } := by
  obtain ⟨rest, hreading⟩ := hinv.reading r hr
  have hnext := hreading.ahead.next hinv.chain
  cases rest with
  | nil =>
      have hstays := hreading.stays
      rw [List.append_nil] at hstays
      exact .inl ⟨hnext, by rw [RcuList.advance, if_pos hr, hnext, front], hstays⟩
  | cons a rest =>
      exact .inr ⟨a, rest, hreading, hnext, by rw [RcuList.advance, if_pos hr, hnext, front]⟩

theorem Inv.advance (hinv : s.Inv) (hstep : s.advance r = some s') : s'.Inv := by
  have hr : r ∈ s.inside := by
    by_contra hout
    rw [RcuList.advance, if_neg hout] at hstep
    cases hstep
  rcases hinv.advance_cases hr with ⟨_, hleave, _⟩ | ⟨a, rest, hreading, _, hmove⟩
  · obtain rfl := Option.some.inj (hleave.symm.trans hstep)
    exact hinv.leave r
  · obtain rfl := Option.some.inj (hmove.symm.trans hstep)
    refine ⟨hinv.chain, hinv.removed, fun q hq => ?_, hinv.inside_nodup, hinv.waiting_sublist,
      hinv.idle⟩
    by_cases hqr : q = r
    · subst hqr
      obtain ⟨pre, hlist⟩ := hreading.ahead.suffix
      refine ⟨rest, .inl ⟨pre ++ [a], ?_, ?_⟩, ?_, ?_, fun b hb => ?_, ?_⟩
      · simpa using hlist.symm
      · rw [back_append]
        exact Function.update_self _ _ _
      · simpa using hreading.nodup
      · simpa using hreading.stays
      · simp only [Function.update_self, List.mem_append, List.mem_singleton] at hb
        rcases hb with hb | rfl
        · exact hreading.held b hb
        · exact .inl (hlist ▸ by simp)
      · simp [back_append]
    · obtain ⟨rest', hreading'⟩ := hinv.reading q hq
      exact ⟨rest', hreading'.congr rfl (fun _ _ => rfl) (fun hwait => ⟨rfl, hwait⟩)
        (Function.update_of_ne hqr _ _) (Function.update_of_ne hqr _ _) rfl⟩

end Readers

/-! ## The writer -/

theorem Inv.synced (hinv : s.Inv) (hstep : s.synced = some s') : s'.Inv ∧ s'.list = s.list := by
  obtain ⟨_, hwaiting, rfl⟩ := synced_cases hstep
  refine ⟨⟨hinv.chain, fun b hb => (by cases hb), fun r hr => ?_, hinv.inside_nodup,
    hinv.waiting_sublist, fun _ => hwaiting⟩, rfl⟩
  obtain ⟨rest, hreading⟩ := hinv.reading r hr
  refine ⟨rest, hreading.congr rfl (fun _ _ => rfl) (fun hwait => ?_) rfl rfl rfl⟩
  rw [hwaiting] at hwait
  cases hwait

section Writer

variable [DecidableEq α]

theorem Inv.addFront (hinv : s.Inv) (hnot : a ∉ s.list) (hstep : s.addFront a = some s') :
    s'.Inv ∧ s'.list = a :: s.list := by
  obtain ⟨hidle, mem, hadd, rfl⟩ := addFront_cases hstep
  obtain ⟨mem', hadd', hchain⟩ := hinv.chain.addRcu hnot
  obtain rfl := Option.some.inj (hadd.symm.trans hadd')
  refine ⟨⟨hchain, fun b hb => ?_, fun r hr => ?_, hinv.inside_nodup, hinv.waiting_sublist,
    hinv.idle⟩, rfl⟩
  · simp only [hidle] at hb
    cases hb
  · obtain ⟨rest, hreading⟩ := hinv.reading r hr
    obtain ⟨pre, hlist, hcursor⟩ := hreading.ahead.split hidle
    have hfresh : a ∉ s.visited r := fun ha => hnot (hreading.mem_list hidle ha)
    have hheld : ∀ b ∈ s.visited r,
        b ∈ a :: s.list ∨ s.removing = some b ∧ r ∈ s.waiting := fun b hb =>
      .inl (List.mem_cons_of_mem a (hreading.mem_list hidle hb))
    cases pre with
    | nil =>
        -- a reader that is still at the head comes to the new element
        obtain rfl : s.list = rest := hlist
        refine ⟨a :: s.list, .inl ⟨[], rfl, hcursor⟩, ?_, ?_, hheld, hreading.cursor⟩
        · refine List.nodup_middle.mpr (List.nodup_cons.mpr ⟨?_, ?_⟩)
          · rw [List.mem_append, not_or]
            exact ⟨hfresh, hnot⟩
          · exact hreading.nodup
        · exact hreading.stays.trans ((List.sublist_cons_self a _).append_left _)
    | cons b pre =>
        refine ⟨rest, .inl ⟨a :: b :: pre, congrArg (a :: ·) hlist, hcursor⟩, hreading.nodup,
          hreading.stays, hheld, hreading.cursor⟩

theorem Inv.addTail (hinv : s.Inv) (hnot : a ∉ s.list) (hstep : s.addTail a = some s') :
    s'.Inv ∧ s'.list = s.list ++ [a] := by
  obtain ⟨hidle, mem, hadd, rfl⟩ := addTail_cases hstep
  obtain ⟨mem', hadd', hchain⟩ := hinv.chain.addTailRcu hnot
  obtain rfl := Option.some.inj (hadd.symm.trans hadd')
  refine ⟨⟨hchain, fun b hb => ?_, fun r hr => ?_, hinv.inside_nodup, hinv.waiting_sublist,
    hinv.idle⟩, rfl⟩
  · simp only [hidle] at hb
    cases hb
  · obtain ⟨rest, hreading⟩ := hinv.reading r hr
    obtain ⟨pre, hlist, hcursor⟩ := hreading.ahead.split hidle
    have hfresh : a ∉ s.visited r ++ rest := by
      rw [List.mem_append, not_or]
      refine ⟨fun ha => hnot (hreading.mem_list hidle ha), fun ha => hnot ?_⟩
      exact hreading.ahead.suffix.mem ha
    refine ⟨rest ++ [a], .inl ⟨pre, ?_, hcursor⟩, ?_, ?_, fun b hb => .inl ?_, hreading.cursor⟩
    · rw [← List.append_assoc, ← hlist]
    · rw [← List.append_assoc]
      exact List.nodup_append_comm.mp (List.nodup_cons.mpr ⟨hfresh, hreading.nodup⟩)
    · rw [← List.append_assoc]
      exact hreading.stays.trans (List.sublist_append_left _ _)
    · exact List.mem_append_left _ (hreading.mem_list hidle hb)

/-- **The removal of an element.**  A reader that is at it goes on from there. -/
theorem Inv.remove (hinv : s.Inv) (ha : a ∈ s.list) (hstep : s.remove a = some s') :
    s'.Inv ∧ s'.list = s.list.erase a := by
  obtain ⟨hidle, mem, hdel, rfl⟩ := remove_cases hstep
  obtain ⟨mem', hdel', hchain⟩ := hinv.chain.delRcu ha
  obtain rfl := Option.some.inj (hdel.symm.trans hdel')
  have hnext : mem.nextOf (.node a) = s.mem.nextOf (.node a) :=
    ListMem.nextOf_delRcu (hinv.chain.prev_ne_self ha) hdel
  refine ⟨⟨hchain, fun b hb => ?_, fun r hr => ?_, hinv.inside_nodup, List.Sublist.refl _,
    fun hb => by cases hb⟩, rfl⟩
  · obtain rfl := Option.some.inj hb
    exact hinv.chain.nodup.not_mem_erase
  · obtain ⟨rest, hreading⟩ := hinv.reading r hr
    obtain ⟨pre, hlist, hcursor⟩ := hreading.ahead.split hidle
    have hheld : ∀ b ∈ s.visited r, b ∈ s.list.erase a ∨ some a = some b ∧ r ∈ s.inside := by
      intro b hb
      by_cases hba : b = a
      · exact .inr ⟨congrArg some hba.symm, hr⟩
      · exact .inl ((List.mem_erase_of_ne hba).mpr (hreading.mem_list hidle hb))
    by_cases hrest : a ∈ rest
    · -- the reader will not come to it
      have hpre : a ∉ pre := fun hpre =>
        List.disjoint_of_nodup_append (hlist ▸ hinv.chain.nodup) hpre hrest
      have hvisited : a ∉ s.visited r := fun hv =>
        List.disjoint_of_nodup_append hreading.nodup hv hrest
      refine ⟨rest.erase a, .inl ⟨pre, ?_, hcursor⟩, ?_, ?_, hheld, hreading.cursor⟩
      · rw [hlist, List.erase_append_right _ hpre]
      · rw [← List.erase_append_right _ hvisited]
        exact hreading.nodup.erase a
      · rw [← List.erase_append_right _ hvisited]
        exact hreading.stays.erase a
    · -- the reader has been at it, or at the head, and is at it or behind it
      have hpre : a ∈ pre := (List.mem_append.mp (hlist ▸ ha)).resolve_right hrest
      have herase : s.list.erase a = pre.erase a ++ rest := by
        rw [hlist, List.erase_append_left _ hpre]
      refine ⟨rest, ?_, hreading.nodup, ?_, hheld, hreading.cursor⟩
      · by_cases hlast : back .head pre = .node a
        · refine .inr ⟨a, rfl, hr, hcursor.trans hlast, ⟨pre.erase a, herase.symm⟩, ?_⟩
          calc mem.nextOf (.node a) = s.mem.nextOf (.node a) := hnext
            _ = s.mem.nextOf (s.cursor r) := by rw [hcursor, hlast]
            _ = front rest := hreading.ahead.next hinv.chain
        · exact .inl ⟨pre.erase a, herase, hcursor.trans (back_erase hlast).symm⟩
      · exact (List.erase_sublist).trans hreading.stays

/-- The owner of an element that is off the list may write to its node once its removal is
over. -/
theorem Inv.scribble (hinv : s.Inv) (hnot : a ∉ s.list) (hover : s.removing ≠ some a)
    (entry : ListHead α) : (s.scribble a entry).Inv := by
  have hnext : ∀ p, p ≠ .node a → (s.scribble a entry).mem.nextOf p = s.mem.nextOf p := by
    rintro (_ | _ | _ | b) hne
    · rfl
    · rfl
    · rfl
    · exact congrArg ListHead.next (Function.update_of_ne (by rintro rfl; exact hne rfl) _ _)
  have hprev : ∀ p, p ≠ .node a → (s.scribble a entry).mem.prevOf p = s.mem.prevOf p := by
    rintro (_ | _ | _ | b) hne
    · rfl
    · rfl
    · rfl
    · exact congrArg ListHead.prev (Function.update_of_ne (by rintro rfl; exact hne rfl) _ _)
  have hout : ∀ {c : List α}, a ∉ c → ∀ p ∈ Link.head :: c.map .node, p ≠ .node a := by
    rintro c hc p hp rfl
    rcases List.mem_cons.mp hp with heq | hp
    · cases heq
    · exact hc (node_mem_map.mp hp)
  refine ⟨⟨hinv.chain.nodup, hinv.chain.next.congr fun p hp => hnext p (hout hnot p hp), ?_⟩,
    hinv.removed, fun r hr => ?_, hinv.inside_nodup, hinv.waiting_sublist, hinv.idle⟩
  · exact hinv.chain.prev.congr fun p hp => hprev p (hout (mt List.mem_reverse.mp hnot) p hp)
  · obtain ⟨rest, hreading⟩ := hinv.reading r hr
    refine ⟨rest, hreading.congr rfl (fun b hb => hnext _ ?_) (fun hwait => ⟨rfl, hwait⟩) rfl rfl
      rfl⟩
    rintro heq
    obtain rfl := Link.node.inj heq
    exact hover hb

end Writer

/-! ## What a reader can rely on -/

/-- What a reader has been at is on the list, or its removal waits for the reader. -/
theorem Inv.held (hinv : s.Inv) (hr : r ∈ s.inside) (ha : a ∈ s.visited r) :
    a ∈ s.list ∨ s.removing = some a ∧ r ∈ s.waiting := by
  obtain ⟨_, hreading⟩ := hinv.reading r hr
  exact hreading.held a ha

theorem Inv.visited_nodup (hinv : s.Inv) (hr : r ∈ s.inside) : (s.visited r).Nodup := by
  obtain ⟨_, hreading⟩ := hinv.reading r hr
  exact hreading.nodup.of_append_left

section Keeps

variable [DecidableEq R]

/-- The elements of `l` are on the list, and have been since the reader came. -/
structure Keeps (s : RcuList α R) (r : R) (l : List α) : Prop where
  list : l.Sublist s.list
  stays : r ∈ s.inside → l.Sublist (s.stays r)

variable {l : List α}

theorem Keeps.leave (hkeeps : s.Keeps r l) (q : R) : (s.leave q).Keeps r l :=
  ⟨hkeeps.list, fun hr => hkeeps.stays (List.mem_of_mem_erase hr)⟩

/-- They stay until one of them is removed. -/
theorem Keeps.step [DecidableEq α] (op : Op α R) (hkeeps : s.Keeps r l)
    (hspares : ∀ a ∈ l, op ≠ .remove a) (hstep : s.step op = some s') : s'.Keeps r l := by
  obtain ⟨hlist, hstays⟩ := hkeeps
  cases op with
  | enter q =>
      obtain ⟨_, rfl⟩ := enter_cases hstep
      refine ⟨hlist, fun hr => ?_⟩
      by_cases hrq : r = q
      · subst hrq
        simpa using hlist
      · simpa [Function.update_of_ne hrq] using hstays ((List.mem_cons.mp hr).resolve_left hrq)
  | leave q =>
      obtain rfl := Option.some.inj hstep
      exact Keeps.leave ⟨hlist, hstays⟩ q
  | advance q =>
      simp only [RcuList.step, RcuList.advance] at hstep
      split at hstep
      · split at hstep
        · obtain rfl := Option.some.inj hstep
          exact ⟨hlist, hstays⟩
        · obtain rfl := Option.some.inj hstep
          exact Keeps.leave ⟨hlist, hstays⟩ q
        all_goals cases hstep
      · cases hstep
  | addFront a =>
      obtain ⟨_, mem, _, rfl⟩ := addFront_cases hstep
      exact ⟨hlist.cons a, hstays⟩
  | addTail a =>
      obtain ⟨_, mem, _, rfl⟩ := addTail_cases hstep
      exact ⟨hlist.trans (List.sublist_append_left _ _), hstays⟩
  | remove a =>
      obtain ⟨_, mem, _, rfl⟩ := remove_cases hstep
      have hl : l.erase a = l := List.erase_of_not_mem fun ha => hspares a ha rfl
      exact ⟨hl ▸ hlist.erase a, fun hr => hl ▸ (hstays hr).erase a⟩
  | synced =>
      obtain ⟨_, _, rfl⟩ := synced_cases hstep
      exact ⟨hlist, hstays⟩
  | scribble a entry =>
      obtain rfl := Option.some.inj hstep
      exact ⟨hlist, hstays⟩

end Keeps

end RcuList

end SecDetector.Lib
