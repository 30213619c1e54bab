import Mathlib.Data.List.Nodup
import SecDetector.Lib.ListHead

/-!
# The elements of a linked list

`Chain mem c` says that the memory holds the list `c`: the `next` pointers lead from the head
through the nodes of `c` in order and back to the head, and the `prev` pointers lead
the same way back.  An addition puts an element in front (`Chain.addRcu`), and the
deletion of an element of the list takes it out (`Chain.delRcu`); neither faults.

Both directions are paths (`Path`), so what a deletion does to the `next` pointers and
what it does to the `prev` pointers is one lemma, used twice.
-/

namespace SecDetector.Lib

open Link

variable {α : Type*}

/-! ## Paths -/

/-- The pointer to the first node of a list. -/
def front : List α → Link α
  | [] => head
  | a :: _ => node a

/-- The pointer to the last node of a list that is entered from `p`. -/
def back : Link α → List α → Link α
  | p, [] => p
  | _, a :: c => back (node a) c

/-- The pointers `f` lead from `p` through `c` to the head. -/
def Path (f : Link α → Link α) : Link α → List α → Prop
  | p, [] => f p = head
  | p, a :: c => f p = node a ∧ Path f (node a) c

theorem back_append (p : Link α) (c : List α) (a : α) : back p (c ++ [a]) = node a := by
  induction c generalizing p with
  | nil => rfl
  | cons b c ih => exact ih (node b)

theorem back_reverse (c : List α) : back head c.reverse = front c := by
  cases c with
  | nil => rfl
  | cons a c => rw [List.reverse_cons, back_append, front]

theorem back_mem (p : Link α) (c : List α) : back p c ∈ p :: c.map node := by
  induction c generalizing p with
  | nil => exact List.mem_singleton_self p
  | cons a c ih => exact List.mem_cons_of_mem _ (ih (node a))

theorem back_eq_of_ne {p q : Link α} {c : List α} (hne : back p c ≠ p) : back q c = back p c := by
  cases c with
  | nil => exact absurd rfl hne
  | cons a c => rfl

/-- Taking out an element that is not the last leaves the pointer to the last alone. -/
theorem back_erase [DecidableEq α] {p : Link α} {a : α} {c : List α} (hne : back p c ≠ node a) :
    back p (c.erase a) = back p c := by
  induction c generalizing p with
  | nil => rfl
  | cons b c ih =>
      by_cases hba : b = a
      · subst hba
        rw [List.erase_cons_head]
        exact back_eq_of_ne hne
      · rw [List.erase_cons_tail (by simpa using hba)]
        exact ih hne

theorem node_mem_map {a : α} {c : List α} : node a ∈ c.map node ↔ a ∈ c :=
  List.mem_map_of_injective fun _ _ h => Link.node.inj h

theorem head_not_mem_map (c : List α) : head ∉ c.map node := by
  intro hmem
  obtain ⟨a, _, heq⟩ := List.mem_map.mp hmem
  cases heq

namespace Path

variable {f f' : Link α → Link α} {p : Link α} {c : List α}

theorem apply_eq_front (hpath : Path f p c) : f p = front c := by
  cases c with
  | nil => exact hpath
  | cons a c => exact hpath.1

theorem congr (heq : ∀ q ∈ p :: c.map node, f' q = f q) (hpath : Path f p c) : Path f' p c := by
  induction c generalizing p with
  | nil => exact (heq p List.mem_cons_self).trans hpath
  | cons a c ih =>
      obtain ⟨hfirst, hrest⟩ := hpath
      refine ⟨(heq p List.mem_cons_self).trans hfirst, ih (fun q hq => ?_) hrest⟩
      exact heq q (List.mem_cons_of_mem _ hq)

/-- A path goes on behind its first elements. -/
theorem drop {l : List α} (hpath : Path f p (l ++ c)) : Path f (back p l) c := by
  induction l generalizing p with
  | nil => exact hpath
  | cons a l ih => exact ih hpath.2

variable [DecidableEq α]

theorem update_of_not_mem {q v : Link α} (hnot : q ∉ p :: c.map node) (hpath : Path f p c) :
    Path (Function.update f q v) p c := by
  refine hpath.congr fun r hr => Function.update_of_ne ?_ _ _
  exact ne_of_mem_of_not_mem hr hnot

/-- Leading the pointer in front of an element past it takes the element out. -/
theorem erase {l r : List α} {a : α} (hnodup : (p :: (l ++ a :: r).map node).Nodup)
    (hpath : Path f p (l ++ a :: r)) :
    Path (Function.update f (back p l) (f (node a))) p (l ++ r) := by
  induction l generalizing p with
  | nil =>
      obtain ⟨_, hrest⟩ := hpath
      simp only [List.nil_append, List.map_cons, List.nodup_cons, List.mem_cons, not_or] at hnodup
      obtain ⟨⟨_, hp⟩, _, _⟩ := hnodup
      cases r with
      | nil => exact (Function.update_self _ _ _).trans hrest
      | cons b r =>
          exact ⟨(Function.update_self _ _ _).trans hrest.1, hrest.2.update_of_not_mem hp⟩
  | cons b l ih =>
      obtain ⟨hfirst, hrest⟩ := hpath
      rw [List.cons_append, List.map_cons, List.nodup_cons] at hnodup
      refine ⟨(Function.update_of_ne ?_ _ _).trans hfirst, ih hnodup.2 hrest⟩
      -- the pointer that changes is in one of the later nodes
      intro heq
      apply hnodup.1
      rw [heq]
      have hmem := back_mem (node b) l
      simp only [back, List.map_append, List.mem_cons, List.mem_append] at hmem ⊢
      tauto

/-- A node between the entry and the first element becomes the first element. -/
theorem prepend {a : α} (hnodup : (p :: (a :: c).map node).Nodup) (hpath : Path f p c) :
    Path (Function.update (Function.update f (node a) (front c)) p (node a)) p (a :: c) := by
  simp only [List.map_cons, List.nodup_cons, List.mem_cons, not_or] at hnodup
  obtain ⟨⟨hpa, hp⟩, ha, _⟩ := hnodup
  have hfirst : Function.update (Function.update f (node a) (front c)) p (node a) (node a) =
      front c := by
    rw [Function.update_of_ne (Ne.symm hpa), Function.update_self]
  refine ⟨Function.update_self _ _ _, ?_⟩
  cases c with
  | nil => exact hfirst
  | cons b c => exact ⟨hfirst, (hpath.2.update_of_not_mem ha).update_of_not_mem hp⟩

/-- Leading the last pointer to a node that leads to the head puts the node at the end. -/
theorem append {a : α} (hnot : node a ∉ p :: c.map node) (hnodup : (p :: c.map node).Nodup)
    (hpath : Path f p c) :
    Path (Function.update (Function.update f (node a) head) (back p c) (node a)) p (c ++ [a]) := by
  induction c generalizing p with
  | nil =>
      have hne : node a ≠ p := fun heq => hnot (heq ▸ List.mem_cons_self)
      exact ⟨Function.update_self _ _ _,
        (Function.update_of_ne hne _ _).trans (Function.update_self _ _ _)⟩
  | cons b c ih =>
      obtain ⟨hfirst, hrest⟩ := hpath
      rw [List.map_cons] at hnot hnodup
      rw [List.nodup_cons] at hnodup
      have hback : p ≠ back (node b) c := fun heq => hnodup.1 (heq ▸ back_mem _ _)
      have hne : p ≠ node a := fun heq => hnot (heq ▸ List.mem_cons_self)
      refine ⟨?_, ih (fun hmem => hnot (List.mem_cons_of_mem _ hmem)) hnodup.2 hrest⟩
      calc Function.update (Function.update f (node a) _) (back (node b) c) _ p
          = Function.update f (node a) _ p := Function.update_of_ne hback _ _
        _ = f p := Function.update_of_ne hne _ _
        _ = node b := hfirst

end Path

/-! ## Chains -/

namespace ListMem

/-- The `next` field behind a pointer. -/
def nextOf (mem : ListMem α) : Link α → Link α
  | .null | .poison => null
  | .head => mem.head.next
  | .node a => (mem.node a).next

/-- The `prev` field behind a pointer. -/
def prevOf (mem : ListMem α) : Link α → Link α
  | .null | .poison => null
  | .head => mem.head.prev
  | .node a => (mem.node a).prev

/-- The memory holds the list `c`. -/
structure Chain (mem : ListMem α) (c : List α) : Prop where
  nodup : c.Nodup
  next : Path mem.nextOf .head c
  prev : Path mem.prevOf .head c.reverse

/-- The element is on the list. -/
def OnList (mem : ListMem α) (a : α) : Prop := ∃ c, mem.Chain c ∧ a ∈ c

/-- A pointer to the head or to a node. -/
def Live (p : Link α) : Prop := p ≠ null ∧ p ≠ poison

theorem live_front (c : List α) : Live (front c) := by
  cases c <;> simp [Live, front]

theorem live_back_head (c : List α) : Live (back .head c) := by
  rw [← c.reverse_reverse, back_reverse]
  exact live_front _

variable [DecidableEq α] {mem : ListMem α}

omit [DecidableEq α] in
theorem chain_init : (init : ListMem α).Chain [] := ⟨List.nodup_nil, rfl, rfl⟩

theorem setNext_of_live (mem : ListMem α) {p : Link α} (v : Link α) (hp : Live p) :
    ∃ mem', mem.setNext p v = some mem' ∧ mem'.nextOf = Function.update mem.nextOf p v ∧
      mem'.prevOf = mem.prevOf := by
  cases p with
  | null => exact absurd rfl hp.1
  | poison => exact absurd rfl hp.2
  | head =>
      refine ⟨_, rfl, funext fun q => ?_, funext fun q => ?_⟩
      · cases q <;> rfl
      · cases q <;> rfl
  | node a =>
      refine ⟨_, rfl, funext fun q => ?_, funext fun q => ?_⟩
      · cases q with
        | node b => by_cases h : b = a <;> simp [nextOf, h]
        | null | poison | head => rfl
      · cases q with
        | node b => by_cases h : b = a <;> simp [prevOf, h]
        | null | poison | head => rfl

theorem setPrev_of_live (mem : ListMem α) {p : Link α} (v : Link α) (hp : Live p) :
    ∃ mem', mem.setPrev p v = some mem' ∧ mem'.prevOf = Function.update mem.prevOf p v ∧
      mem'.nextOf = mem.nextOf := by
  cases p with
  | null => exact absurd rfl hp.1
  | poison => exact absurd rfl hp.2
  | head =>
      refine ⟨_, rfl, funext fun q => ?_, funext fun q => ?_⟩
      · cases q <;> rfl
      · cases q <;> rfl
  | node a =>
      refine ⟨_, rfl, funext fun q => ?_, funext fun q => ?_⟩
      · cases q with
        | node b => by_cases h : b = a <;> simp [prevOf, h]
        | null | poison | head => rfl
      · cases q with
        | node b => by_cases h : b = a <;> simp [nextOf, h]
        | null | poison | head => rfl

theorem live_of_setNext {mem' : ListMem α} {p v : Link α} (hset : mem.setNext p v = some mem') :
    Live p := by
  constructor
  all_goals
    rintro rfl
    cases hset

theorem live_of_setPrev {mem' : ListMem α} {p v : Link α} (hset : mem.setPrev p v = some mem') :
    Live p := by
  constructor
  all_goals
    rintro rfl
    cases hset

/-- A deleted node keeps its `next` pointer, unless it was linked with itself. -/
theorem nextOf_delRcu {mem' : ListMem α} {a : α} (hself : (mem.node a).prev ≠ .node a)
    (hdel : mem.delRcu a = some mem') : mem'.nextOf (.node a) = mem.nextOf (.node a) := by
  simp only [delRcu, Option.bind_eq_bind, Option.bind_eq_some_iff] at hdel
  obtain ⟨mem₁, hset₁, mem₂, hset₂, hset₃⟩ := hdel
  obtain ⟨_, heq₁, _, hnext₁⟩ := setPrev_of_live mem (mem.node a).prev (live_of_setPrev hset₁)
  obtain ⟨_, heq₂, hnext₂, _⟩ := setNext_of_live mem₁ (mem.node a).next (live_of_setNext hset₂)
  obtain ⟨_, heq₃, _, hnext₃⟩ := setPrev_of_live mem₂ .poison (live_of_setPrev hset₃)
  obtain rfl := Option.some.inj (hset₁.symm.trans heq₁)
  obtain rfl := Option.some.inj (hset₂.symm.trans heq₂)
  obtain rfl := Option.some.inj (hset₃.symm.trans heq₃)
  rw [hnext₃, hnext₂, Function.update_of_ne hself.symm, hnext₁]

omit [DecidableEq α] in
/-- The nodes of a list and its head are different pointers. -/
theorem nodup_pointers {c : List α} (hnodup : c.Nodup) :
    (Link.head :: c.map Link.node).Nodup := by
  refine List.nodup_cons.mpr ⟨head_not_mem_map c, hnodup.map ?_⟩
  exact fun _ _ h => Link.node.inj h

omit [DecidableEq α] in
/-- Where the pointers of an element of the list lead. -/
theorem Chain.node_eq {l r : List α} {a : α} (hchain : mem.Chain (l ++ a :: r)) :
    mem.node a = ⟨front r, back .head l⟩ := by
  have hprev := hchain.prev
  rw [show (l ++ a :: r).reverse = r.reverse ++ a :: l.reverse by simp] at hprev
  have hsucc : (mem.node a).next = front r :=
    (hchain.next.drop (c := a :: r)).2.apply_eq_front
  have hpred : (mem.node a).prev = back .head l := by
    rw [← l.reverse_reverse, back_reverse]
    exact (hprev.drop (c := a :: l.reverse)).2.apply_eq_front
  rw [← hsucc, ← hpred]

omit [DecidableEq α] in
theorem Chain.nextOf_front {c : List α} (hchain : mem.Chain c) :
    mem.nextOf (front c) = front c.tail := by
  cases c with
  | nil => exact hchain.next
  | cons a c => exact hchain.next.2.apply_eq_front

omit [DecidableEq α] in
/-- The node of an element of the list is linked on both sides, and not with itself. -/
theorem Chain.node_linked {c : List α} (hchain : mem.Chain c) {a : α} (hmem : a ∈ c) :
    Live (mem.node a).next ∧ Live (mem.node a).prev ∧ (mem.node a).next ≠ .node a := by
  obtain ⟨l, r, rfl⟩ := List.append_of_mem hmem
  rw [hchain.node_eq]
  refine ⟨live_front r, live_back_head l, fun heq => ?_⟩
  have hnot := (List.nodup_cons.mp (List.nodup_middle.mp hchain.nodup)).1
  cases r with
  | nil => simp [front] at heq
  | cons b r =>
      obtain rfl := Link.node.inj heq
      exact hnot (by simp)

omit [DecidableEq α] in
theorem Chain.prev_ne_self {c : List α} (hchain : mem.Chain c) {a : α} (hmem : a ∈ c) :
    (mem.node a).prev ≠ .node a := by
  obtain ⟨l, r, rfl⟩ := List.append_of_mem hmem
  rw [hchain.node_eq]
  intro heq
  have hnot := (List.nodup_cons.mp (List.nodup_middle.mp hchain.nodup)).1
  have hback := back_mem .head l
  rw [show back .head l = .node a from heq, List.mem_cons, node_mem_map] at hback
  rcases hback with hhead | hl
  · cases hhead
  · exact hnot (List.mem_append_left r hl)

/-- **Addition.**  A new element goes to the front. -/
theorem Chain.addRcu {c : List α} (hchain : mem.Chain c) {a : α} (hnot : a ∉ c) :
    ∃ mem', mem.addRcu a = some mem' ∧ mem'.Chain (a :: c) := by
  have hfront : mem.head.next = front c := hchain.next.apply_eq_front
  -- the three writes, one after the other
  let mem₁ : ListMem α := { mem with node := Function.update mem.node a ⟨mem.head.next, .head⟩ }
  have hnext₁ : mem₁.nextOf = Function.update mem.nextOf (.node a) (front c) := by
    funext q
    cases q with
    | node b => by_cases h : b = a <;> simp [mem₁, nextOf, h, hfront]
    | null | poison | head => rfl
  have hprev₁ : mem₁.prevOf = Function.update mem.prevOf (.node a) .head := by
    funext q
    cases q with
    | node b => by_cases h : b = a <;> simp [mem₁, prevOf, h]
    | null | poison | head => rfl
  obtain ⟨mem₂, hset₂, hnext₂, hprev₂⟩ :=
    setNext_of_live mem₁ (p := .head) (.node a) ⟨by simp, by simp⟩
  obtain ⟨mem₃, hset₃, hprev₃, hnext₃⟩ :=
    setPrev_of_live mem₂ (.node a) (live_front c)
  refine ⟨mem₃, ?_, List.nodup_cons.mpr ⟨hnot, hchain.nodup⟩, ?_, ?_⟩
  · rw [ListMem.addRcu]
    simp only [Option.bind_eq_bind]
    rw [show ListMem.setNext _ _ _ = some mem₂ from hset₂, Option.bind_some, hfront, hset₃]
  · rw [hnext₃, hnext₂, hnext₁]
    exact hchain.next.prepend (nodup_pointers (List.nodup_cons.mpr ⟨hnot, hchain.nodup⟩))
  · rw [hprev₃, hprev₂, hprev₁, List.reverse_cons, ← back_reverse]
    refine hchain.prev.append ?_ (nodup_pointers (List.nodup_reverse.mpr hchain.nodup))
    simpa [node_mem_map] using hnot

/-- **Addition at the end.** -/
theorem Chain.addTailRcu {c : List α} (hchain : mem.Chain c) {a : α} (hnot : a ∉ c) :
    ∃ mem', mem.addTailRcu a = some mem' ∧ mem'.Chain (c ++ [a]) := by
  have hback : mem.head.prev = back .head c := by
    rw [← c.reverse_reverse, back_reverse]
    exact hchain.prev.apply_eq_front
  let mem₁ : ListMem α := { mem with node := Function.update mem.node a ⟨.head, mem.head.prev⟩ }
  have hnext₁ : mem₁.nextOf = Function.update mem.nextOf (.node a) .head := by
    funext q
    cases q with
    | node b => by_cases h : b = a <;> simp [mem₁, nextOf, h]
    | null | poison | head => rfl
  have hprev₁ : mem₁.prevOf = Function.update mem.prevOf (.node a) (front c.reverse) := by
    rw [← back_reverse, List.reverse_reverse]
    funext q
    cases q with
    | node b => by_cases h : b = a <;> simp [mem₁, prevOf, h, hback]
    | null | poison | head => rfl
  obtain ⟨mem₂, hset₂, hnext₂, hprev₂⟩ := setNext_of_live mem₁ (.node a) (live_back_head c)
  obtain ⟨mem₃, hset₃, hprev₃, hnext₃⟩ :=
    setPrev_of_live mem₂ (p := .head) (.node a) ⟨by simp, by simp⟩
  have hnodup : (a :: c.reverse).Nodup :=
    List.nodup_cons.mpr ⟨by simpa using hnot, List.nodup_reverse.mpr hchain.nodup⟩
  refine ⟨mem₃, ?_, ?_, ?_, ?_⟩
  · rw [ListMem.addTailRcu]
    simp only [Option.bind_eq_bind]
    rw [← hback] at hset₂
    rw [show ListMem.setNext _ _ _ = some mem₂ from hset₂, Option.bind_some, hset₃]
  · rw [← List.nodup_reverse, List.reverse_append]
    exact hnodup
  · rw [hnext₃, hnext₂, hnext₁]
    refine hchain.next.append ?_ (nodup_pointers hchain.nodup)
    simpa [node_mem_map] using hnot
  · rw [hprev₃, hprev₂, hprev₁, List.reverse_append]
    exact hchain.prev.prepend (nodup_pointers hnodup)

/-- **Deletion.**  An element of the list is taken out. -/
theorem Chain.delRcu {c : List α} (hchain : mem.Chain c) {a : α} (hmem : a ∈ c) :
    ∃ mem', mem.delRcu a = some mem' ∧ mem'.Chain (c.erase a) := by
  obtain ⟨l, r, rfl⟩ := List.append_of_mem hmem
  have hnodup := hchain.nodup
  have hreverse : (l ++ a :: r).reverse = r.reverse ++ a :: l.reverse := by simp
  have hprev := hchain.prev
  rw [hreverse] at hprev
  have hnodupReverse := List.nodup_reverse.mpr hnodup
  rw [hreverse] at hnodupReverse
  -- the node knows its neighbours
  have hsucc : (mem.node a).next = front r := by rw [hchain.node_eq]
  have hpred : (mem.node a).prev = back .head l := by rw [hchain.node_eq]
  obtain ⟨mem₁, hset₁, hprev₁, hnext₁⟩ :=
    setPrev_of_live mem (mem.node a).prev (live_front r)
  obtain ⟨mem₂, hset₂, hnext₂, hprev₂⟩ :=
    setNext_of_live mem₁ (mem.node a).next (live_front l.reverse)
  obtain ⟨mem₃, hset₃, hprev₃, hnext₃⟩ :=
    setPrev_of_live mem₂ (p := .node a) .poison ⟨by simp, by simp⟩
  have hmiddle := List.nodup_cons.mp (List.nodup_middle.mp hnodup)
  have herase : (l ++ a :: r).erase a = l ++ r := by
    rw [List.erase_append_right _ fun hl => hmiddle.1 (List.mem_append_left r hl),
      List.erase_cons_head]
  rw [herase]
  rw [← back_reverse l.reverse, List.reverse_reverse] at hset₂ hnext₂
  refine ⟨mem₃, ?_, hmiddle.2, ?_, ?_⟩
  · simp only [ListMem.delRcu, Option.bind_eq_bind]
    rw [hsucc] at hset₂ ⊢
    rw [hset₁, Option.bind_some, hpred, hset₂, Option.bind_some, hset₃]
  · rw [hnext₃, hnext₂, hnext₁]
    exact hchain.next.erase (nodup_pointers hnodup)
  · rw [hprev₃, hprev₂, hprev₁, List.reverse_append, ← back_reverse r]
    refine (hprev.erase (nodup_pointers hnodupReverse)).update_of_not_mem ?_
    simpa [node_mem_map, and_comm] using hmiddle.1

end ListMem

end SecDetector.Lib
