import SecDetector.Lib.Paging
import SecDetector.Ring.Layout

/-!
# The pages of the ring buffer

`ringbuf_area_alloc`: the array of pages that is handed to `vmap`.  Every data page is
entered twice, and `ringbufAreaAlloc_spec` says that what comes out is a `DoubleMap`.

What the allocators answer is an argument.  The data size comes from an `unsigned int`, so
no `int` overflows.
-/

namespace SecDetector.Ring

open Lib Lib.Paging

variable {P : Type*}

/-! ## Allocation -/

/-- `offsetof(struct ringbuf, consumer_pos)`. -/
@[simp] def consumerPosOffset : ℕ := pageSize

/-- `offsetof(struct ringbuf, producer_pos)`. -/
@[simp] def producerPosOffset : ℕ := 2 * pageSize

/-- `RINGBUF_PGOFF`. -/
def ringbufPgoff : ℕ := consumerPosOffset / pageSize

/-- `RINGBUF_POS_PAGES`. -/
def ringbufPosPages : ℕ := 2

/-- What is asked of the allocators and given back to them. -/
inductive AreaEvent (P : Type*) where
  | allocArray
  | allocPage (page : P)
  | vmap
  | freePage (page : P)
  | freeArray

/-- What the allocators answer in one call, and what is in the array at first; `page i` is the
answer to the `i`th request for a page. -/
structure AreaEnv (P : Type*) where
  array : Bool
  garbage : ℕ → P
  page : ℕ → Option P
  vmap : Bool

/-- A page is handed out once. -/
def AreaEnv.Fresh (env : AreaEnv P) : Prop :=
  ∀ i j page, env.page i = some page → env.page j = some page → i = j

/-- `pages` and `nr_pages` of `struct ringbuf`. -/
structure Area (P : Type*) where
  pages : List P
  nrPages : ℕ

/-- The loop of `ringbuf_area_alloc` for the `todo` indices from `i` on.  It returns the index
at which there was no page, the array, and what was allocated. -/
def allocLoop (nrMetaPages nrDataPages : ℕ) (page : ℕ → Option P) :
    ℕ → ℕ → List P → Option ℕ × List P × List (AreaEvent P)
  | 0, _, pages => (none, pages, [])
  | todo + 1, i, pages =>
      match page i with
      | none => (some i, pages, [])
      | some page' =>
          let pages := pages.set i page'
          let pages := if nrMetaPages ≤ i then pages.set (nrDataPages + i) page' else pages
          let (failed, pages, events) := allocLoop nrMetaPages nrDataPages page todo (i + 1) pages
          (failed, pages, .allocPage page' :: events)

/-- What stands behind the label `err_free_pages`. -/
def errFreePages (nrPages : ℕ) (pages : List P) : List (AreaEvent P) :=
  (pages.take nrPages).map .freePage ++ [.freeArray]

/-- `ringbuf_area_alloc`. -/
def ringbufAreaAlloc (dataSz : ℕ) (env : AreaEnv P) : Option (Area P) × List (AreaEvent P) :=
  let nrMetaPages := ringbufPgoff + ringbufPosPages
  let nrDataPages := dataSz / pageSize
  let nrPages := nrMetaPages + nrDataPages
  if !env.array then (none, [])
  else
    let pages := (List.range (nrMetaPages + 2 * nrDataPages)).map env.garbage
    match allocLoop nrMetaPages nrDataPages env.page nrPages 0 pages with
    | (some nrPages, pages, events) =>
        (none, .allocArray :: events ++ errFreePages nrPages pages)
    | (none, pages, events) =>
        if env.vmap then (some ⟨pages, nrPages⟩, .allocArray :: events ++ [.vmap])
        else (none, .allocArray :: events ++ errFreePages nrPages pages)

/-! ## The array -/

/-- The array, after the loop has done the indices below `i`. -/
structure Filled (nrMetaPages nrDataPages : ℕ) (page : ℕ → Option P) (i : ℕ) (pages : List P) :
    Prop where
  length : pages.length = nrMetaPages + 2 * nrDataPages
  answered : ∀ j < i, page j ≠ none
  first : ∀ j < i, pages[j]? = page j
  second : ∀ j < i, nrMetaPages ≤ j → pages[nrDataPages + j]? = page j

section

variable {nrMetaPages nrDataPages : ℕ} {page : ℕ → Option P} {i : ℕ} {pages : List P}

/-- One turn of the loop. -/
theorem Filled.next (h : Filled nrMetaPages nrDataPages page i pages)
    (hi : i < nrMetaPages + nrDataPages) {page' : P} (hpage : page i = some page') :
    Filled nrMetaPages nrDataPages page (i + 1)
      (if nrMetaPages ≤ i then (pages.set i page').set (nrDataPages + i) page'
        else pages.set i page') := by
  have hlen := h.length
  constructor
  · split <;> simpa using hlen
  · intro j hj
    rcases Nat.lt_or_ge j i with hlt | hge
    · exact h.answered j hlt
    · obtain rfl : j = i := by omega
      simp [hpage]
  · intro j hj
    have hfirst : (pages.set i page')[j]? = page j := by
      rcases Nat.lt_or_ge j i with hlt | hge
      · rw [List.getElem?_set_ne (by omega), h.first j hlt]
      · obtain rfl : j = i := by omega
        rw [List.getElem?_set_self (by omega), hpage]
    split
    · -- the second entry of a page is behind all first entries
      rw [List.getElem?_set_ne (by omega), hfirst]
    · exact hfirst
  · intro j hj hmeta
    rw [if_pos (by omega)]
    rcases Nat.lt_or_ge j i with hlt | hge
    · rw [List.getElem?_set_ne (by omega), List.getElem?_set_ne (by omega), h.second j hlt hmeta]
    · obtain rfl : j = i := by omega
      rw [List.getElem?_set_self (by rw [List.length_set]; omega), hpage]

/-- The whole loop, if no page is missing. -/
theorem Filled.allocLoop {todo : ℕ} (h : Filled nrMetaPages nrDataPages page i pages)
    (htodo : i + todo = nrMetaPages + nrDataPages)
    (hall : (allocLoop nrMetaPages nrDataPages page todo i pages).1 = none) :
    Filled nrMetaPages nrDataPages page (nrMetaPages + nrDataPages)
      (allocLoop nrMetaPages nrDataPages page todo i pages).2.1 := by
  induction todo generalizing i pages with
  | zero =>
      rw [← htodo]
      exact h
  | succ todo ih =>
      rw [Ring.allocLoop] at hall ⊢
      cases hpage : page i with
      | none => simp [hpage] at hall
      | some page' =>
          rw [hpage] at hall
          exact ih (h.next (by omega) hpage) (by omega) hall

/-- The array shows the data pages twice. -/
theorem Filled.doubleMap (h : Filled nrMetaPages nrDataPages page (nrMetaPages + nrDataPages) pages)
    (hfresh : ∀ i j page', page i = some page' → page j = some page' → i = j) :
    ∃ d : DoubleMap P, pages = d.pages ∧ d.head.length = nrMetaPages ∧
      d.data.length = nrDataPages := by
  have hlen := h.length
  have hnodup : (pages.take (nrMetaPages + nrDataPages)).Nodup := by
    rw [List.nodup_iff_getElem?_ne_getElem?]
    intro a b hab hb heq
    rw [List.length_take] at hb
    rw [List.getElem?_take_of_lt (by omega), List.getElem?_take_of_lt (by omega),
      h.first a (by omega), h.first b (by omega)] at heq
    obtain ⟨page', hpage⟩ := Option.ne_none_iff_exists'.mp (h.answered b (by omega))
    have hsame := hfresh a b page' (heq.trans hpage) hpage
    omega
  rw [List.take_add] at hnodup
  refine ⟨⟨pages.take nrMetaPages, (pages.drop nrMetaPages).take nrDataPages, hnodup⟩, ?_,
    by simp; omega, by simp; omega⟩
  have hthird : pages.drop (nrMetaPages + nrDataPages) =
      (pages.drop nrMetaPages).take nrDataPages := by
    refine List.ext_getElem? fun j => ?_
    rw [List.getElem?_drop]
    rcases Nat.lt_or_ge j nrDataPages with hlt | hge
    · have hfirst := h.first (nrMetaPages + j) (by omega)
      have hsecond := h.second (nrMetaPages + j) (by omega) (by omega)
      rw [List.getElem?_take_of_lt hlt, List.getElem?_drop, hfirst, ← hsecond]
      congr 1
      omega
    · rw [List.getElem?_eq_none (by omega), List.getElem?_eq_none (by simp; omega)]
  rw [DoubleMap.pages]
  dsimp only
  rw [← List.take_add, ← hthird, List.take_append_drop]

/-- The index at which the loop has stopped. -/
def stopIndex (nrPages : ℕ) (failed : Option ℕ) : ℕ := failed.getD nrPages

/-- **What the loop has allocated** stands in the array, one page after the other. -/
theorem allocLoop_events {todo : ℕ} (htodo : i + todo = nrMetaPages + nrDataPages)
    (hlength : nrMetaPages + nrDataPages ≤ pages.length) :
    (pages.take i).map .allocPage ++ (allocLoop nrMetaPages nrDataPages page todo i pages).2.2 =
      ((allocLoop nrMetaPages nrDataPages page todo i pages).2.1.take
        (stopIndex (nrMetaPages + nrDataPages)
          (allocLoop nrMetaPages nrDataPages page todo i pages).1)).map .allocPage := by
  induction todo generalizing i pages with
  | zero =>
      rw [allocLoop, stopIndex, Option.getD_none, ← htodo, Nat.add_zero, List.append_nil]
  | succ todo ih =>
      rw [allocLoop]
      cases hpage : page i with
      | none => simp [stopIndex]
      | some page' =>
          -- the array with the new page, which is behind those before
          have htake : ∀ pages₁, pages₁ = (if nrMetaPages ≤ i then
              (pages.set i page').set (nrDataPages + i) page' else pages.set i page') →
              pages₁.length = pages.length ∧ pages₁.take (i + 1) = pages.take i ++ [page'] := by
            have hset : (pages.set i page').take (i + 1) = pages.take i ++ [page'] := by
              rw [List.take_add_one, List.take_set_of_le le_rfl, List.getElem?_set_self (by omega)]
              rfl
            rintro pages₁ rfl
            split
            · exact ⟨by simp, (List.take_set_of_le (by omega)).trans hset⟩
            · exact ⟨by simp, hset⟩
          obtain ⟨hlen, htake⟩ := htake _ rfl
          dsimp only
          rw [← ih (by omega) (by omega), htake, List.map_append, List.append_assoc]
          rfl

/-- The loop ends without a failure exactly if there is a page for every index. -/
theorem allocLoop_eq_none_iff {todo : ℕ} :
    (allocLoop nrMetaPages nrDataPages page todo i pages).1 = none ↔
      ∀ j < todo, page (i + j) ≠ none := by
  induction todo generalizing i pages with
  | zero => simp [allocLoop]
  | succ todo ih =>
      rw [allocLoop]
      cases hpage : page i with
      | none =>
          simp only [reduceCtorEq, false_iff]
          exact fun hall => hall 0 (Nat.succ_pos todo) hpage
      | some page' =>
          dsimp only
          rw [ih]
          constructor
          · intro hall j hj
            cases j with
            | zero => simp [hpage]
            | succ j =>
                rw [Nat.add_comm j 1, ← Nat.add_assoc]
                exact hall j (Nat.lt_of_succ_lt_succ hj)
          · intro hall j hj
            rw [Nat.add_assoc, Nat.add_comm 1 j]
            exact hall (j + 1) (Nat.succ_lt_succ hj)

/-- The loop from the first index on. -/
theorem allocLoop_zero {failed : Option ℕ} {pages' : List P} {events : List (AreaEvent P)}
    (hloop : allocLoop nrMetaPages nrDataPages page (nrMetaPages + nrDataPages) 0 pages =
      (failed, pages', events)) (hlength : nrMetaPages + nrDataPages ≤ pages.length) :
    events = (pages'.take (stopIndex (nrMetaPages + nrDataPages) failed)).map .allocPage ∧
      (failed = none ↔ ∀ j < nrMetaPages + nrDataPages, page j ≠ none) := by
  have hevents := @allocLoop_events _ _ _ page _ _ _ (Nat.zero_add _) hlength
  have hnone : (allocLoop nrMetaPages nrDataPages page (nrMetaPages + nrDataPages) 0 pages).1 =
      none ↔ ∀ j < nrMetaPages + nrDataPages, page (0 + j) ≠ none := allocLoop_eq_none_iff
  rw [hloop] at hevents hnone
  simp only [Nat.zero_add] at hnone
  exact ⟨hevents, hnone⟩

end

/-- **What `ringbuf_area_alloc` hands to `vmap`**: three pages, and then every data page
twice. -/
theorem ringbufAreaAlloc_spec {dataSz : ℕ} {env : AreaEnv P} {area : Area P}
    {events : List (AreaEvent P)} (hfresh : env.Fresh)
    (halloc : ringbufAreaAlloc dataSz env = (some area, events)) :
    ∃ d : DoubleMap P, area.pages = d.pages ∧ d.head.length = 3 ∧
      d.data.length = dataSz / pageSize := by
  unfold ringbufAreaAlloc at halloc
  dsimp only at halloc
  split at halloc
  · simp at halloc
  · split at halloc
    · simp at halloc
    · rename_i pages events' hloop
      split at halloc
      · rw [Prod.mk.injEq, Option.some.injEq] at halloc
        rw [← halloc.1]
        have hstart : Filled (ringbufPgoff + ringbufPosPages) (dataSz / pageSize) env.page 0
            ((List.range (ringbufPgoff + ringbufPosPages + 2 * (dataSz / pageSize))).map
              env.garbage) := ⟨by simp, by simp, by simp, by simp⟩
        have hfilled := hstart.allocLoop (Nat.zero_add _) (by rw [hloop])
        rw [hloop] at hfilled
        exact hfilled.doubleMap hfresh
      · simp at halloc

end SecDetector.Ring
