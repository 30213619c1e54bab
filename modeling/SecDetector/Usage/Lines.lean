import Mathlib.Data.List.Chain
import SecDetector.Usage.RoundTrip

/-!
# What the reader loop prints

`convertJson` makes a line of every value that has no values in it, with the way to it in front: the
keys with arrows between them, and an index right behind what leads to its array.

`leaves` is what there is to print, and every leaf gets one line (`convertJson_eq`).  From such a
line the leaf can be told, and the way to it, as long as no key has an arrow or a colon in it or
ends with a digit, and no array lies directly in another: `a12` is both the item 12 of `a` and the
item 2 of its item 1.  So nothing but empty arrays and objects is lost (`convertJson_eq_iff`).
-/

namespace SecDetector.Usage

open SecDetector.Lib

variable {D : Type} (F : NumberFormat D)

/-! ## The lines -/

/-- `convertToJsonString`; `path` is its `prefix`. -/
def convertLeaf (path : Bytes) (v : Json D) : Bytes := path ++ 0x3a :: (v.dump F ++ [0x3b])

mutual

def convertToJsonString (path : Bytes) : Json D → List Bytes
  | .object values => convertMembers path values
  | .array values => convertItems path 0 values
  | v => [convertLeaf F path v]

/-- The loop over the members of an object. -/
def convertMembers (path : Bytes) : List (Bytes × Json D) → List Bytes
  | [] => []
  | (k, v) :: rest =>
      convertToJsonString (if path = [] then k else path ++ str "->" ++ k) v ++
        convertMembers path rest

/-- The loop over the items of an array, from `index` on. -/
def convertItems (path : Bytes) (index : ℕ) : List (Json D) → List Bytes
  | [] => []
  | v :: rest =>
      convertToJsonString (path ++ (decimal index).bytes) v ++ convertItems path (index + 1) rest

end

def convertJson (input : Json D) : List Bytes := convertToJsonString F [] input

/-- A round of the reader loop: what it prints for the text of the file, or the message that it
stops with. -/
def mainRound (jsonString : Bytes) : Except Bytes (List Bytes) :=
  (mainRead F jsonString).map (convertJson F)

/-! ## The leaves -/

/-- A step from a value to one in it. -/
inductive Step where
  | key (k : Bytes)
  | index (i : ℕ)

namespace Json

mutual

/-- The values in `v` that have no values in them, with the ways to them. -/
def leaves : Json D → List (List Step × Json D)
  | object values => leavesOfMembers values
  | array values => leavesOfItems 0 values
  | v => [([], v)]

def leavesOfMembers : List (Bytes × Json D) → List (List Step × Json D)
  | [] => []
  | (k, v) :: rest => v.leaves.map (fun l => (.key k :: l.1, l.2)) ++ leavesOfMembers rest

def leavesOfItems (i : ℕ) : List (Json D) → List (List Step × Json D)
  | [] => []
  | v :: rest => v.leaves.map (fun l => (.index i :: l.1, l.2)) ++ leavesOfItems (i + 1) rest

end

end Json

/-- One more step in a path. -/
def extend (path : Bytes) : Step → Bytes
  | .key k => if path = [] then k else path ++ str "->" ++ k
  | .index i => path ++ (decimal i).bytes

/-- What is printed of a way. -/
def pathText (steps : List Step) : Bytes := steps.foldl extend []

/-- The line of a leaf, from a value that has been reached by `path`. -/
def leafLine (path : Bytes) (l : List Step × Json D) : Bytes :=
  convertLeaf F (l.1.foldl extend path) l.2

theorem convertToJsonString_eq (v : Json D) :
    ∀ path, convertToJsonString F path v = v.leaves.map (leafLine F path) := by
  induction v using Json.induct with
  | null => exact fun _ => rfl
  | bool b => exact fun _ => rfl
  | number x => exact fun _ => rfl
  | string s => exact fun _ => rfl
  | array values ih =>
      intro path
      rw [convertToJsonString, Json.leaves]
      generalize 0 = i
      induction values generalizing i with
      | nil => rfl
      | cons v values ihs =>
          obtain ⟨hv, hvalues⟩ := List.forall_mem_cons.mp ih
          rw [convertItems, Json.leavesOfItems, List.map_append, List.map_map, hv, ihs hvalues]
          rfl
  | object values ih =>
      intro path
      rw [convertToJsonString, Json.leaves]
      induction values with
      | nil => rfl
      | cons kv values ihs =>
          obtain ⟨k, v⟩ := kv
          obtain ⟨hv, hvalues⟩ := List.forall_mem_cons.mp ih
          rw [convertMembers, Json.leavesOfMembers, List.map_append, List.map_map, hv, ihs hvalues]
          rfl

/-- Every leaf has one line, in the order of the leaves. -/
theorem convertJson_eq (v : Json D) :
    convertJson F v = v.leaves.map fun l => convertLeaf F (pathText l.1) l.2 :=
  convertToJsonString_eq F v []

/-! ## The way to a leaf -/

/-- The bytes at the end, as far as `p` holds, can be told from what is in front of them. -/
theorem append_inj_of_stopsAt {p : UInt8 → Bool} {x y s t : Bytes} (hs : ∀ c ∈ s, p c = true)
    (ht : ∀ c ∈ t, p c = true) (hx : StopsAt p x.reverse) (hy : StopsAt p y.reverse)
    (h : x ++ s = y ++ t) : x = y ∧ s = t := by
  have hreverse := congrArg List.reverse h
  rw [List.reverse_append, List.reverse_append] at hreverse
  have hs' : ∀ c ∈ s.reverse, p c = true := fun c hc => hs c (List.mem_reverse.mp hc)
  have ht' : ∀ c ∈ t.reverse, p c = true := fun c hc => ht c (List.mem_reverse.mp hc)
  have htake := congrArg (List.takeWhile p) hreverse
  have hdrop := congrArg (List.dropWhile p) hreverse
  rw [List.takeWhile_append_of_pos hs', List.takeWhile_append_of_pos ht', hx.takeWhile,
    hy.takeWhile, List.append_nil, List.append_nil] at htake
  rw [List.dropWhile_append_of_pos hs', List.dropWhile_append_of_pos ht', hx.dropWhile,
    hy.dropWhile] at hdrop
  exact ⟨List.reverse_injective hdrop, List.reverse_injective htake⟩

/-- A key that can be told from what is around it. -/
structure DistinctKey (k : Bytes) : Prop where
  ne_nil : k ≠ []
  no_arrow : ∀ c ∈ k, (c != 0x3e) = true
  no_colon : 0x3a ∉ k
  no_digit : StopsAt isDigit k.reverse

def Step.IsKey : Step → Prop
  | .key _ => True
  | .index _ => False

/-- The keys can be told, and no index follows another. -/
structure DistinctPath (steps : List Step) : Prop where
  keys : ∀ k, .key k ∈ steps → DistinctKey k
  alternate : steps.IsChain fun s s' => s.IsKey ∨ s'.IsKey

theorem decimal_inj {i j : ℕ} (h : (decimal i).bytes = (decimal j).bytes) : i = j := by
  rw [← digitsValue_decimal i, h, digitsValue_decimal]

theorem decimal_ne_nil (i : ℕ) : (decimal i).bytes ≠ [] :=
  fun h => Nat.toDigits_ne_nil (List.map_eq_nil_iff.mp h)

theorem pathText_concat (steps : List Step) (s : Step) :
    pathText (steps ++ [s]) = extend (pathText steps) s := List.foldl_concat _ _ _ _

theorem extend_key {path k : Bytes} (hk : DistinctKey k) :
    extend path (.key k) ≠ [] ∧ StopsAt isDigit (extend path (.key k)).reverse := by
  rw [extend]
  split
  · exact ⟨hk.ne_nil, hk.no_digit⟩
  · refine ⟨by simp [str], ?_⟩
    rw [List.reverse_append]
    obtain ⟨c, t, hreverse⟩ := List.exists_cons_of_ne_nil
      (fun h => hk.ne_nil (List.reverse_eq_nil_iff.mp h))
    have hstop := hk.no_digit
    rw [hreverse] at hstop ⊢
    exact hstop

/-- An arrow is in front of a key unless nothing is. -/
theorem extend_key_inj {path path' k k' : Bytes} (hk : DistinctKey k) (hk' : DistinctKey k')
    (heq : extend path (.key k) = extend path' (.key k')) : path = path' ∧ k = k' := by
  have harrow : ∀ {path k : Bytes}, 0x3e ∈ path ++ str "->" ++ k := by
    intro path k
    simp [str]
  have hnone : ∀ {k : Bytes}, DistinctKey k → 0x3e ∉ k := fun hk hmem => by
    simpa using hk.no_arrow _ hmem
  have hstop : ∀ path : Bytes, StopsAt (fun c => c != 0x3e) (path ++ str "->").reverse := by
    intro path
    simp [str, StopsAt]
  rw [extend, extend] at heq
  split at heq
  · rename_i hpath
    split at heq
    · rename_i hpath'
      exact ⟨hpath.trans hpath'.symm, heq⟩
    · exact absurd (heq ▸ harrow) (hnone hk)
  · split at heq
    · exact absurd (heq ▸ harrow) (hnone hk')
    · obtain ⟨hpath, rfl⟩ :=
        append_inj_of_stopsAt hk.no_arrow hk'.no_arrow (hstop path) (hstop path') heq
      exact ⟨List.append_cancel_right hpath, rfl⟩

theorem extend_index (path : Bytes) (i : ℕ) :
    extend path (.index i) ≠ [] ∧ ¬ StopsAt isDigit (extend path (.index i)).reverse := by
  obtain ⟨c, t, hreverse⟩ := List.exists_cons_of_ne_nil
    (fun h => decimal_ne_nil i (List.reverse_eq_nil_iff.mp h))
  rw [extend]
  refine ⟨fun h => decimal_ne_nil i (List.append_eq_nil_iff.mp h).2, fun hstop => ?_⟩
  rw [List.reverse_append, hreverse] at hstop
  have hdigit := isDigit_decimal i c (List.mem_reverse.mp (hreverse ▸ List.mem_cons_self))
  exact Bool.false_ne_true ((hstop c rfl).symm.trans hdigit)

section Paths

variable {steps : List Step} {s : Step}

theorem DistinctPath.init (h : DistinctPath (steps ++ [s])) : DistinctPath steps where
  keys k hk := h.keys k (List.mem_append_left _ hk)
  alternate := (List.isChain_append.mp h.alternate).1

theorem DistinctPath.last (h : DistinctPath (steps ++ [s])) :
    (∃ k, s = .key k ∧ DistinctKey k) ∨ ∃ i, s = .index i := by
  cases s with
  | key k => exact .inl ⟨k, rfl, h.keys k (by simp)⟩
  | index i => exact .inr ⟨i, rfl⟩

theorem pathText_concat_ne_nil (h : DistinctPath (steps ++ [s])) :
    pathText (steps ++ [s]) ≠ [] := by
  rw [pathText_concat]
  rcases h.last with ⟨k, rfl, hk⟩ | ⟨i, rfl⟩
  · exact (extend_key hk).1
  · exact (extend_index _ i).1

theorem pathText_eq_nil (h : DistinctPath steps) (hnil : pathText steps = []) : steps = [] := by
  rcases List.eq_nil_or_concat' steps with rfl | ⟨steps, s, rfl⟩
  · rfl
  · exact absurd hnil (pathText_concat_ne_nil h)

/-- What an index follows does not end with a digit. -/
theorem stopsAt_of_index {i : ℕ} (h : DistinctPath (steps ++ [.index i])) :
    StopsAt isDigit (pathText steps).reverse := by
  rcases List.eq_nil_or_concat' steps with rfl | ⟨steps, s, rfl⟩
  · exact nofun
  · rw [pathText_concat]
    rcases h.init.last with ⟨k, rfl, hk⟩ | ⟨j, rfl⟩
    · exact (extend_key hk).2
    · obtain ⟨-, -, hends⟩ := List.isChain_append.mp h.alternate
      rcases hends (.index j) (by simp) (.index i) (by simp) with hkey | hkey
      · exact hkey.elim
      · exact hkey.elim

end Paths

/-- **Two ways that are printed alike are the same.** -/
theorem pathText_inj {steps steps' : List Step} (h : DistinctPath steps) (h' : DistinctPath steps')
    (heq : pathText steps = pathText steps') : steps = steps' := by
  induction steps using List.reverseRecOn generalizing steps' with
  | nil => exact (pathText_eq_nil h' heq.symm).symm
  | append_singleton steps s ih =>
      rcases List.eq_nil_or_concat' steps' with rfl | ⟨steps', s', rfl⟩
      · exact absurd heq (pathText_concat_ne_nil h)
      have hinit : pathText steps = pathText steps' → steps = steps' := ih h.init h'.init
      rw [pathText_concat, pathText_concat] at heq
      rcases h.last with ⟨k, rfl, hk⟩ | ⟨i, rfl⟩
      · rcases h'.last with ⟨k', rfl, hk'⟩ | ⟨i', rfl⟩
        · obtain ⟨hpath, rfl⟩ := extend_key_inj hk hk' heq
          rw [hinit hpath]
        · exact absurd (heq ▸ (extend_key hk).2) (extend_index _ i').2
      · rcases h'.last with ⟨k', rfl, hk'⟩ | ⟨i', rfl⟩
        · exact absurd (heq ▸ (extend_key hk').2) (extend_index _ i).2
        · obtain ⟨hpath, hindex⟩ := append_inj_of_stopsAt (isDigit_decimal i) (isDigit_decimal i')
            (stopsAt_of_index h) (stopsAt_of_index h') heq
          rw [hinit hpath, decimal_inj hindex]

/-! ## The leaves of a value -/

/-- The keys can be told, and no array lies directly in another. -/
inductive Distinct : Json D → Prop
  | null : Distinct .null
  | bool (value : Bool) : Distinct (.bool value)
  | number (value : D) : Distinct (.number value)
  | string (value : Bytes) : Distinct (.string value)
  | array {values : List (Json D)} (items : ∀ v ∈ values, Distinct v)
      (alternate : ∀ v ∈ values, ∀ w, v ≠ .array w) : Distinct (.array values)
  | object {values : List (Bytes × Json D)} (keys : ∀ kv ∈ values, DistinctKey kv.1)
      (members : ∀ kv ∈ values, Distinct kv.2) : Distinct (.object values)

namespace Json

theorem forall_leavesOfItems {P : List Step × Json D → Prop} {values : List (Json D)}
    (h : ∀ v ∈ values, ∀ l ∈ v.leaves, ∀ i, P (.index i :: l.1, l.2)) (i : ℕ) :
    ∀ l ∈ leavesOfItems i values, P l := by
  induction values generalizing i with
  | nil => exact nofun
  | cons v values ih =>
      obtain ⟨hv, hvalues⟩ := List.forall_mem_cons.mp h
      rw [leavesOfItems, List.forall_mem_append, List.forall_mem_map]
      exact ⟨fun l hl => hv l hl i, ih hvalues (i + 1)⟩

theorem forall_leavesOfMembers {P : List Step × Json D → Prop} {values : List (Bytes × Json D)}
    (h : ∀ kv ∈ values, ∀ l ∈ kv.2.leaves, P (.key kv.1 :: l.1, l.2)) :
    ∀ l ∈ leavesOfMembers values, P l := by
  induction values with
  | nil => exact nofun
  | cons kv values ih =>
      obtain ⟨k, v⟩ := kv
      obtain ⟨hv, hvalues⟩ := List.forall_mem_cons.mp h
      rw [leavesOfMembers, List.forall_mem_append, List.forall_mem_map]
      exact ⟨hv, ih hvalues⟩

/-- A leaf has no values in it, and its numbers are numbers of the value. -/
theorem leaf_of_mem (v : Json D) :
    ∀ l ∈ v.leaves, (Ordered l.2 ∧ l.2.depth = 1) ∧ ∀ x ∈ l.2.numbers, x ∈ v.numbers := by
  have hleaf : ∀ {w : Json D}, Ordered w → w.depth = 1 →
      ∀ l ∈ [(([] : List Step), w)], (Ordered l.2 ∧ l.2.depth = 1) ∧
        ∀ x ∈ l.2.numbers, x ∈ w.numbers := by
    intro w hw hdepth l hl
    obtain rfl := List.mem_singleton.mp hl
    exact ⟨⟨hw, hdepth⟩, fun _ hx => hx⟩
  induction v using Json.induct with
  | null => exact hleaf .null rfl
  | bool b => exact hleaf (.bool b) rfl
  | number x => exact hleaf (.number x) rfl
  | string s => exact hleaf (.string s) rfl
  | array values ih =>
      refine forall_leavesOfItems (fun v hv l hl i => ?_) 0
      obtain ⟨h, hnumbers⟩ := ih v hv l hl
      exact ⟨h, fun x hx => mem_numbers_array.mpr ⟨v, hv, hnumbers x hx⟩⟩
  | object values ih =>
      refine forall_leavesOfMembers fun kv hkv l hl => ?_
      obtain ⟨h, hnumbers⟩ := ih kv hkv l hl
      exact ⟨h, fun x hx => mem_numbers_object.mpr ⟨kv, hkv, hnumbers x hx⟩⟩

/-- The way to a leaf begins with a key, unless it leads into an array. -/
theorem head_of_mem_leaves {v : Json D} (hv : ∀ w, v ≠ .array w) :
    ∀ l ∈ v.leaves, ∀ s ∈ l.1.head?, s.IsKey := by
  cases v with
  | array values => exact absurd rfl (hv values)
  | object values =>
      refine forall_leavesOfMembers fun kv _ l _ s hs => ?_
      obtain rfl := Option.some.inj hs
      trivial
  | _ =>
      intro l hl s hs
      obtain rfl := List.mem_singleton.mp hl
      cases hs

end Json

theorem DistinctPath.cons {s : Step} {steps : List Step} (h : DistinctPath steps)
    (hkey : ∀ k, s = .key k → DistinctKey k) (hhead : ∀ s' ∈ steps.head?, s.IsKey ∨ s'.IsKey) :
    DistinctPath (s :: steps) where
  keys k hk := by
    rcases List.mem_cons.mp hk with hk | hk
    · exact hkey k hk.symm
    · exact h.keys k hk
  alternate := List.isChain_cons.mpr ⟨hhead, h.alternate⟩

theorem Distinct.path {v : Json D} (hv : Distinct v) : ∀ l ∈ v.leaves, DistinctPath l.1 := by
  have hleaf : ∀ {w : Json D}, ∀ l ∈ [(([] : List Step), w)], DistinctPath l.1 := by
    intro w l hl
    obtain rfl := List.mem_singleton.mp hl
    exact ⟨nofun, .nil⟩
  induction hv with
  | null | bool | number | string => exact hleaf
  | array items alternate ih =>
      refine Json.forall_leavesOfItems (fun v hv l hl i => ?_) 0
      refine (ih v hv l hl).cons nofun fun s hs => ?_
      exact .inr (Json.head_of_mem_leaves (alternate v hv) l hl s hs)
  | object keys members ih =>
      refine Json.forall_leavesOfMembers fun kv hkv l hl => ?_
      refine (ih kv hkv l hl).cons ?_ fun _ _ => .inl trivial
      rintro k ⟨⟩
      exact keys kv hkv

/-! ## What the lines tell -/

theorem colon_notMem_pathText {steps : List Step} (h : DistinctPath steps) :
    ∀ c ∈ pathText steps, (c != 0x3a) = true := by
  induction steps using List.reverseRecOn with
  | nil => exact nofun
  | append_singleton steps s ih =>
      have hinit := ih h.init
      rw [pathText_concat]
      rcases h.last with ⟨k, rfl, hk⟩ | ⟨i, rfl⟩
      · have hkey : ∀ c ∈ k, (c != 0x3a) = true := fun c hc => by
          simpa using fun heq : c = 0x3a => hk.no_colon (heq ▸ hc)
        rw [extend]
        split
        · exact hkey
        · rw [List.forall_mem_append, List.forall_mem_append]
          exact ⟨⟨hinit, List.all_eq_true.mp rfl⟩, hkey⟩
      · rw [extend, List.forall_mem_append]
        refine ⟨hinit, fun c hc => ?_⟩
        have hdigit := isDigit_decimal i c hc
        simp only [bne_iff_ne, ne_eq]
        rintro rfl
        cases hdigit

variable {F}

/-- A line has one way and one leaf. -/
theorem convertLeaf_inj {steps steps' : List Step} {v w : Json D} (h : DistinctPath steps)
    (h' : DistinctPath steps') (hv : Ordered v ∧ v.depth = 1) (hw : Ordered w ∧ w.depth = 1)
    (hfinite : ∀ x ∈ v.numbers, F.isfinite x = true)
    (hfinite' : ∀ x ∈ w.numbers, F.isfinite x = true)
    (heq : convertLeaf F (pathText steps) v = convertLeaf F (pathText steps') w) :
    steps = steps' ∧ v = w := by
  have hcolon : ∀ s : Bytes, StopsAt (fun c => c != 0x3a) (0x3a :: s) := by simp [StopsAt]
  have htake := congrArg (List.takeWhile fun c => c != 0x3a) heq
  rw [convertLeaf, convertLeaf, List.takeWhile_append_of_pos (colon_notMem_pathText h),
    List.takeWhile_append_of_pos (colon_notMem_pathText h'), (hcolon _).takeWhile,
    (hcolon _).takeWhile, List.append_nil, List.append_nil] at htake
  rw [convertLeaf, convertLeaf, htake] at heq
  have hdump := List.append_cancel_right (List.cons.inj (List.append_cancel_left heq)).2
  have hread := (parse_dump_iff F hv.1).mpr ⟨hv.2.trans_le (by decide), hfinite⟩
  rw [hdump, (parse_dump_iff F hw.1).mpr ⟨hw.2.trans_le (by decide), hfinite'⟩] at hread
  exact ⟨pathText_inj h h' htake, (Except.ok.inj hread).symm⟩

theorem eq_of_map_eq {α β : Type} {f : α → β} {P : α → Prop}
    (hf : ∀ a b, P a → P b → f a = f b → a = b) {l l' : List α} (hl : ∀ a ∈ l, P a)
    (hl' : ∀ a ∈ l', P a) (h : l.map f = l'.map f) : l = l' := by
  induction l generalizing l' with
  | nil => exact (List.map_eq_nil_iff.mp h.symm).symm
  | cons a l ih =>
      obtain ⟨b, l', rfl, hb, hrest⟩ := List.map_eq_cons_iff.mp h.symm
      obtain ⟨ha, hl⟩ := List.forall_mem_cons.mp hl
      obtain ⟨hb', hl'⟩ := List.forall_mem_cons.mp hl'
      rw [hf a b ha hb' hb.symm, ih hl hl' hrest.symm]

/-- **What is printed for two values is the same exactly if they have the same leaves**, on the same
ways. -/
theorem convertJson_eq_iff {v w : Json D} (hv : Distinct v) (hw : Distinct w)
    (hfinite : ∀ x ∈ v.numbers, F.isfinite x = true)
    (hfinite' : ∀ x ∈ w.numbers, F.isfinite x = true) :
    convertJson F v = convertJson F w ↔ v.leaves = w.leaves := by
  rw [convertJson_eq, convertJson_eq]
  refine ⟨fun h => ?_, fun h => h ▸ rfl⟩
  have hleaf : ∀ {u : Json D}, Distinct u → (∀ x ∈ u.numbers, F.isfinite x = true) →
      ∀ l ∈ u.leaves, DistinctPath l.1 ∧ (Ordered l.2 ∧ l.2.depth = 1) ∧
        ∀ x ∈ l.2.numbers, F.isfinite x = true := by
    intro u hu hnumbers l hl
    obtain ⟨hshape, hmem⟩ := u.leaf_of_mem l hl
    exact ⟨hu.path l hl, hshape, fun x hx => hnumbers x (hmem x hx)⟩
  refine eq_of_map_eq ?_ (hleaf hv hfinite) (hleaf hw hfinite') h
  rintro ⟨steps, leaf⟩ ⟨steps', leaf'⟩ ⟨hpath, hshape, hnumbers⟩ ⟨hpath', hshape', hnumbers'⟩ hline
  obtain ⟨rfl, rfl⟩ :=
    convertLeaf_inj hpath hpath' hshape hshape' hnumbers hnumbers' hline
  rfl

end SecDetector.Usage
