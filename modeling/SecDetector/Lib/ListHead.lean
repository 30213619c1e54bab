import Mathlib.Logic.Function.Basic

/-!
# Linked lists at pointer level

Linux's `struct list_head`: a memory with one head and one node per element,
each holding a `next` and a `prev` pointer.  `addRcu` and `delRcu` do the pointer
writes of `list_add_rcu` and `list_del_rcu` in the kernel's order.  A write
through a null or poisoned pointer is a fault (`none`), which is how a node that
was never linked, or was deleted before, differs from one that is on the list.
-/

namespace SecDetector.Lib

/-- What a `next` or `prev` field can hold. -/
inductive Link (α : Type*) where
  | null
  | poison
  | head
  | node (a : α)
  deriving DecidableEq

/-- `struct list_head`. -/
structure ListHead (α : Type*) where
  next : Link α
  prev : Link α
  deriving DecidableEq

/-- The list nodes in memory. -/
structure ListMem (α : Type*) where
  head : ListHead α
  node : α → ListHead α

namespace ListMem

variable {α : Type*} [DecidableEq α]

/-- `LIST_HEAD`, with every node zero-initialised. -/
def init : ListMem α := ⟨⟨.head, .head⟩, fun _ => ⟨.null, .null⟩⟩

/-- Write the `next` field of the node a pointer points to. -/
def setNext (mem : ListMem α) (p v : Link α) : Option (ListMem α) :=
  match p with
  | .null | .poison => none
  | .head => some { mem with head := { mem.head with next := v } }
  | .node a => some { mem with node := Function.update mem.node a { mem.node a with next := v } }

/-- Write the `prev` field of the node a pointer points to. -/
def setPrev (mem : ListMem α) (p v : Link α) : Option (ListMem α) :=
  match p with
  | .null | .poison => none
  | .head => some { mem with head := { mem.head with prev := v } }
  | .node a => some { mem with node := Function.update mem.node a { mem.node a with prev := v } }

/-- `list_add_rcu(&a->list, &head)`. -/
def addRcu (mem : ListMem α) (a : α) : Option (ListMem α) := do
  let next := mem.head.next
  let mem := { mem with node := Function.update mem.node a ⟨next, .head⟩ }
  let mem ← mem.setNext .head (.node a)
  mem.setPrev next (.node a)

/-- `list_add_tail_rcu(&a->list, &head)`. -/
def addTailRcu (mem : ListMem α) (a : α) : Option (ListMem α) := do
  let prev := mem.head.prev
  let mem := { mem with node := Function.update mem.node a ⟨.head, prev⟩ }
  let mem ← mem.setNext prev (.node a)
  mem.setPrev .head (.node a)

/-- `list_del_rcu(&a->list)`. -/
def delRcu (mem : ListMem α) (a : α) : Option (ListMem α) := do
  let entry := mem.node a
  let mem ← mem.setPrev entry.next entry.prev
  let mem ← mem.setNext entry.prev entry.next
  mem.setPrev (.node a) .poison

theorem setPrev_node_prev {mem mem' : ListMem α} {a : α} {v : Link α}
    (hset : mem.setPrev (.node a) v = some mem') : (mem'.node a).prev = v := by
  simp only [setPrev, Option.some.injEq] at hset
  subst hset
  simp

/-- Deleting a node changes the memory: the node ends up poisoned, and deleting
a poisoned node faults. -/
theorem delRcu_ne {mem mem' : ListMem α} {a : α} (hdel : mem.delRcu a = some mem') :
    mem' ≠ mem := by
  simp only [delRcu, Option.bind_eq_bind, Option.bind_eq_some_iff] at hdel
  obtain ⟨mem₁, _, mem₂, hnext, hpoison⟩ := hdel
  intro heq
  subst heq
  rw [setPrev_node_prev hpoison] at hnext
  simp [setNext] at hnext

/-! ## The `next` pointers

The code that adds and deletes nodes dereferences `next` pointers only where they
are live, so an addition never faults. -/

/-- The head points to a node or to itself, and no `next` pointer is poisoned. -/
structure NextLive (mem : ListMem α) : Prop where
  head_ne_null : mem.head.next ≠ .null
  head_ne_poison : mem.head.next ≠ .poison
  node_ne_poison : ∀ a, (mem.node a).next ≠ .poison

omit [DecidableEq α] in
theorem nextLive_init : NextLive (init : ListMem α) :=
  ⟨by simp [init], by simp [init], by simp [init]⟩

theorem NextLive.setPrev {mem mem' : ListMem α} (hlive : NextLive mem) {p v : Link α}
    (hset : mem.setPrev p v = some mem') : NextLive mem' := by
  cases p with
  | null => simp [ListMem.setPrev] at hset
  | poison => simp [ListMem.setPrev] at hset
  | head =>
      obtain rfl := Option.some.inj hset
      exact ⟨hlive.head_ne_null, hlive.head_ne_poison, hlive.node_ne_poison⟩
  | node b =>
      obtain rfl := Option.some.inj hset
      refine ⟨hlive.head_ne_null, hlive.head_ne_poison, fun a => ?_⟩
      by_cases h : a = b
      · subst h; simpa using hlive.node_ne_poison a
      · simpa [Function.update_of_ne h] using hlive.node_ne_poison a

theorem NextLive.setNext {mem mem' : ListMem α} (hlive : NextLive mem) {p v : Link α}
    (hnull : v ≠ .null) (hpoison : v ≠ .poison) (hset : mem.setNext p v = some mem') :
    NextLive mem' := by
  cases p with
  | null => simp [ListMem.setNext] at hset
  | poison => simp [ListMem.setNext] at hset
  | head =>
      obtain rfl := Option.some.inj hset
      exact ⟨hnull, hpoison, hlive.node_ne_poison⟩
  | node b =>
      obtain rfl := Option.some.inj hset
      refine ⟨hlive.head_ne_null, hlive.head_ne_poison, fun a => ?_⟩
      by_cases h : a = b
      · subst h; simpa using hpoison
      · simpa [Function.update_of_ne h] using hlive.node_ne_poison a

/-- An addition never faults. -/
theorem NextLive.addRcu {mem : ListMem α} (hlive : NextLive mem) (a : α) :
    ∃ mem', mem.addRcu a = some mem' ∧ NextLive mem' := by
  have hnode : NextLive { mem with node := Function.update mem.node a ⟨mem.head.next, .head⟩ } := by
    refine ⟨hlive.head_ne_null, hlive.head_ne_poison, fun b => ?_⟩
    by_cases h : b = a
    · subst h; simpa using hlive.head_ne_poison
    · simpa [Function.update_of_ne h] using hlive.node_ne_poison b
  obtain ⟨mem₁, hnext⟩ : ∃ mem₁, ListMem.setNext
      { mem with node := Function.update mem.node a ⟨mem.head.next, .head⟩ } .head (.node a) =
        some mem₁ := ⟨_, rfl⟩
  have hlive₁ := hnode.setNext (by simp) (by simp) hnext
  obtain ⟨mem₂, hprev⟩ : ∃ mem₂, mem₁.setPrev mem.head.next (.node a) = some mem₂ := by
    cases h : mem.head.next with
    | null => exact absurd h hlive.head_ne_null
    | poison => exact absurd h hlive.head_ne_poison
    | head => exact ⟨_, rfl⟩
    | node b => exact ⟨_, rfl⟩
  exact ⟨mem₂, by simp [ListMem.addRcu, hnext, hprev], hlive₁.setPrev hprev⟩

theorem NextLive.delRcu {mem mem' : ListMem α} (hlive : NextLive mem) {a : α}
    (hnull : (mem.node a).next ≠ .null) (hdel : mem.delRcu a = some mem') : NextLive mem' := by
  simp only [ListMem.delRcu, Option.bind_eq_bind, Option.bind_eq_some_iff] at hdel
  obtain ⟨mem₁, hprev, mem₂, hnext, hpoison⟩ := hdel
  exact ((hlive.setPrev hprev).setNext hnull (hlive.node_ne_poison a) hnext).setPrev hpoison

end ListMem

end SecDetector.Lib
