import Mathlib.Data.List.Infix
import SecDetector.Usage.Parse

/-!
# What is heard of a value

`heard` is what the reader makes of the text of a value, as long as no string has a quote in it: a
string without its escapes, where every backslash is gone, and nothing for a number that is not
finite.

`dump` escapes quotes, backslashes, control bytes and the two line separators of Unicode; a string
is `Plain` if it has none of them.  A string without quotes is heard as it is exactly if it is plain
(`heardString_eq_iff`): a backslash or a control byte is not heard at all, and for a separator there
is more to hear than there was.
-/

namespace SecDetector.Usage

open SecDetector.Lib

/-! ## Strings -/

/-- The bytes that a string may have as they are between its quotes. -/
def Unquoted (s : Bytes) : Prop := ∀ c ∈ s, c ≠ 0x22 ∧ c ≠ 0x5c ∧ 0x1f < c

instance (s : Bytes) : Decidable (Unquoted s) :=
  List.decidableBAll (fun c => c ≠ 0x22 ∧ c ≠ 0x5c ∧ 0x1f < c) s

theorem Unquoted.append {s t : Bytes} (hs : Unquoted s) (ht : Unquoted t) : Unquoted (s ++ t) :=
  fun c hc => (List.mem_append.mp hc).elim (hs c) (ht c)

/-- There is nothing to escape. -/
structure Plain (s : Bytes) : Prop where
  unquoted : Unquoted s
  no_line_separator : ¬ [0xe2, 0x80, 0xa8] <:+: s
  no_paragraph_separator : ¬ [0xe2, 0x80, 0xa9] <:+: s

theorem not_infix_iff (w s : Bytes) : ¬ w <:+: s ↔ ∀ t ∈ s.tails, t.take w.length ≠ w := by
  rw [List.infix_iff_prefix_suffix]
  constructor
  · intro h t ht htake
    exact h ⟨t, List.prefix_iff_eq_take.mpr htake.symm, (List.mem_tails t s).mp ht⟩
  · rintro h ⟨t, hprefix, hsuffix⟩
    exact h t ((List.mem_tails t s).mpr hsuffix) (List.prefix_iff_eq_take.mp hprefix).symm

theorem plain_iff {s : Bytes} : Plain s ↔ Unquoted s ∧
    ∀ t ∈ s.tails, t.take 3 ≠ [0xe2, 0x80, 0xa8] ∧ t.take 3 ≠ [0xe2, 0x80, 0xa9] := by
  have hline := not_infix_iff [0xe2, 0x80, 0xa8] s
  have hparagraph := not_infix_iff [0xe2, 0x80, 0xa9] s
  rw [forall₂_and]
  exact ⟨fun h => ⟨h.unquoted, hline.mp h.2, hparagraph.mp h.3⟩,
    fun h => ⟨h.1, hline.mpr h.2.1, hparagraph.mpr h.2.2⟩⟩

instance (s : Bytes) : Decidable (Plain s) := decidable_of_iff _ plain_iff.symm

/-- What is read for a string. -/
def heardString (s : Bytes) : Bytes := eraseBackslashes (escape s)

theorem eraseBackslashes_append (s t : Bytes) :
    eraseBackslashes (s ++ t) = eraseBackslashes s ++ eraseBackslashes t := List.filter_append _ _

theorem heardString_cons {ch : UInt8} {s : Bytes}
    (hline : ∀ t, ch = 0xe2 → s = 0x80 :: 0xa8 :: t → False)
    (hparagraph : ∀ t, ch = 0xe2 → s = 0x80 :: 0xa9 :: t → False) :
    heardString (ch :: s) = eraseBackslashes (escapeByte ch) ++ heardString s := by
  rw [heardString, escape, eraseBackslashes_append]
  · rfl
  · exact hline
  · exact hparagraph

theorem hexDigit_unquoted : ∀ n < 16, Unquoted [hexDigit n] := by decide

theorem unquoted_escapeByte {ch : UInt8} (hquote : ch ≠ 0x22) :
    Unquoted (eraseBackslashes (escapeByte ch)) := by
  rw [escapeByte]
  split; · decide
  rename_i hslash
  iterate 5 split; · decide
  split
  · rename_i hctrl
    have hlt : ch.toNat < 32 := by
      rw [UInt8.le_iff_toNat_le] at hctrl
      exact Nat.lt_succ_of_le hctrl
    rw [eraseBackslashes_append]
    apply Unquoted.append (by decide)
    intro c hc
    rcases List.mem_cons.mp (List.mem_of_mem_filter hc) with rfl | hc
    · exact hexDigit_unquoted _ (by omega) _ List.mem_cons_self
    · rw [List.mem_singleton.mp hc]
      exact hexDigit_unquoted _ (by omega) _ List.mem_cons_self
  · rename_i hctrl
    intro c hc
    rw [List.mem_singleton.mp (List.mem_of_mem_filter hc)]
    exact ⟨hquote, hslash, UInt8.not_le.mp hctrl⟩

/-- For a separator of three bytes, the five letters of its escape are heard. -/
theorem heardString_separator {b : UInt8} (hb : b = 0xa8 ∨ b = 0xa9) (s : Bytes) :
    ∃ w, Unquoted w ∧ w.length = 5 ∧
      heardString (0xe2 :: 0x80 :: b :: s) = w ++ heardString s := by
  rcases hb with rfl | rfl
  · exact ⟨str "u2028", by decide, rfl, eraseBackslashes_append (str "\\u2028") _⟩
  · exact ⟨str "u2029", by decide, rfl, eraseBackslashes_append (str "\\u2029") _⟩

theorem unquoted_heardString {s : Bytes} (hquote : 0x22 ∉ s) : Unquoted (heardString s) := by
  fun_induction escape s with
  | case1 => exact List.forall_mem_nil _
  | case2 s ih =>
      obtain ⟨w, hw, -, hheard⟩ := heardString_separator (Or.inl rfl) s
      exact hheard ▸ hw.append (ih (by simpa using hquote))
  | case3 s ih =>
      obtain ⟨w, hw, -, hheard⟩ := heardString_separator (Or.inr rfl) s
      exact hheard ▸ hw.append (ih (by simpa using hquote))
  | case4 ch s hline hparagraph ih =>
      rw [List.mem_cons, not_or] at hquote
      rw [heardString_cons hline hparagraph]
      exact (unquoted_escapeByte (Ne.symm hquote.1)).append (ih hquote.2)

theorem escapeByte_of_unquoted {ch : UInt8} (hch : ch ≠ 0x22 ∧ ch ≠ 0x5c ∧ 0x1f < ch) :
    escapeByte ch = [ch] := by
  obtain ⟨hquote, hslash, hctrl⟩ := hch
  have hne : ∀ c : UInt8, c ≤ 0x1f → ch ≠ c := by
    rintro c hc rfl
    exact UInt8.not_le.mpr hctrl hc
  rw [escapeByte, if_neg hslash, if_neg hquote, if_neg (hne _ (by decide)),
    if_neg (hne _ (by decide)), if_neg (hne _ (by decide)), if_neg (hne _ (by decide)),
    if_neg (hne _ (by decide)), if_neg (UInt8.not_le.mpr hctrl)]

theorem escape_of_plain {s : Bytes} (hs : Plain s) : escape s = s := by
  fun_induction escape s with
  | case1 => rfl
  | case2 s ih => exact absurd ⟨[], s, rfl⟩ hs.no_line_separator
  | case3 s ih => exact absurd ⟨[], s, rfl⟩ hs.no_paragraph_separator
  | case4 ch s hline hparagraph ih =>
      obtain ⟨hch, hbytes⟩ := List.forall_mem_cons.mp hs.unquoted
      have htail : Plain s :=
        ⟨hbytes, fun h => hs.no_line_separator (h.trans (List.suffix_cons ch s).isInfix),
          fun h => hs.no_paragraph_separator (h.trans (List.suffix_cons ch s).isInfix)⟩
      rw [escapeByte_of_unquoted hch, ih htail, List.singleton_append]

theorem length_escapeByte_pos {ch : UInt8} (hslash : ch ≠ 0x5c) :
    1 ≤ (eraseBackslashes (escapeByte ch)).length := by
  rw [escapeByte, if_neg hslash]
  iterate 6 split; · decide
  split
  · rw [eraseBackslashes_append, List.length_append]
    exact Nat.le_add_right_of_le (by decide)
  · simp [eraseBackslashes, hslash]

/-- Nothing is lost unless there was a backslash, and something is added for a separator. -/
theorem length_le_heardString {s : Bytes} (hslash : 0x5c ∉ s) :
    s.length ≤ (heardString s).length ∧
      ((heardString s).length = s.length →
        ¬ [0xe2, 0x80, 0xa8] <:+: s ∧ ¬ [0xe2, 0x80, 0xa9] <:+: s) := by
  fun_induction escape s with
  | case1 => decide
  | case2 s ih =>
      obtain ⟨hle, -⟩ := ih (by simpa using hslash)
      obtain ⟨w, -, hlen, hheard⟩ := heardString_separator (Or.inl rfl) s
      simp only [hheard, hlen, List.length_append, List.length_cons]
      omega
  | case3 s ih =>
      obtain ⟨hle, -⟩ := ih (by simpa using hslash)
      obtain ⟨w, -, hlen, hheard⟩ := heardString_separator (Or.inr rfl) s
      simp only [hheard, hlen, List.length_append, List.length_cons]
      omega
  | case4 ch s hline hparagraph ih =>
      rw [List.mem_cons, not_or] at hslash
      obtain ⟨hle, htail⟩ := ih hslash.2
      have hpos := length_escapeByte_pos (Ne.symm hslash.1)
      rw [heardString_cons hline hparagraph, List.length_append, List.length_cons]
      refine ⟨by omega, fun heq => ?_⟩
      obtain ⟨hl, hp⟩ := htail (by omega)
      constructor
      · rintro h
        rcases List.infix_cons_iff.mp h with ⟨t, ht⟩ | h
        · cases ht
          exact hline t rfl rfl
        · exact hl h
      · rintro h
        rcases List.infix_cons_iff.mp h with ⟨t, ht⟩ | h
        · cases ht
          exact hparagraph t rfl rfl
        · exact hp h

theorem heardString_of_plain {s : Bytes} (hs : Plain s) : heardString s = s := by
  rw [heardString, escape_of_plain hs]
  exact List.filter_eq_self.mpr fun c hc => by simp [(hs.unquoted c hc).2.1]

/-- **A string without quotes is heard as what it was exactly if it is plain.** -/
theorem heardString_eq_iff {s : Bytes} (hquote : 0x22 ∉ s) : heardString s = s ↔ Plain s := by
  refine ⟨fun heq => ?_, heardString_of_plain⟩
  have hbytes : Unquoted s := heq ▸ unquoted_heardString hquote
  have hslash : 0x5c ∉ s := fun hmem => (hbytes _ hmem).2.1 rfl
  obtain ⟨hline, hparagraph⟩ := (length_le_heardString hslash).2 (congrArg List.length heq)
  exact ⟨hbytes, hline, hparagraph⟩

/-! ## What is heard -/

variable {D : Type} (F : NumberFormat D)

namespace Json

mutual

/-- What is read for a value without quotes in its strings. -/
def heard : Json D → Json D
  | null => null
  | bool value => bool value
  | number value => if F.isfinite value then number value else null
  | string value => string (heardString value)
  | array values => array (heardItems values)
  | object values => object (heardMembers values)

def heardItems : List (Json D) → List (Json D)
  | [] => []
  | v :: rest => v.heard :: heardItems rest

def heardMembers : List (Bytes × Json D) → List (Bytes × Json D)
  | [] => []
  | (k, v) :: rest => (k, v.heard) :: heardMembers rest

end

theorem heardItems_eq_map (values : List (Json D)) :
    heardItems F values = values.map (heard F) := by
  induction values with
  | nil => rfl
  | cons v values ih => rw [heardItems, ih, List.map_cons]

theorem heardMembers_eq_map (values : List (Bytes × Json D)) :
    heardMembers F values = values.map fun kv => (kv.1, kv.2.heard F) := by
  induction values with
  | nil => rfl
  | cons kv values ih => rw [heardMembers, ih, List.map_cons]

theorem map_eq_self_iff {α : Type} {f : α → α} {l : List α} : l.map f = l ↔ ∀ a ∈ l, f a = a := by
  simpa using List.map_inj_left (f := f) (g := id) (l := l)

/-- What holds of the elements if it depends on their leaves only. -/
theorem forall_iff_leaves {α β γ : Type*} {l : List α} {strings : α → List β}
    {numbers : α → List γ} {R : α → Prop} {P : β → Prop} {Q : γ → Prop}
    (h : ∀ a ∈ l, R a ↔ (∀ s ∈ strings a, P s) ∧ ∀ x ∈ numbers a, Q x) :
    (∀ a ∈ l, R a) ↔
      (∀ s, (∃ a ∈ l, s ∈ strings a) → P s) ∧ ∀ x, (∃ a ∈ l, x ∈ numbers a) → Q x := by
  constructor
  · intro hall
    refine ⟨?_, ?_⟩
    · rintro s ⟨a, ha, hs⟩
      exact ((h a ha).mp (hall a ha)).1 s hs
    · rintro x ⟨a, ha, hx⟩
      exact ((h a ha).mp (hall a ha)).2 x hx
  · rintro ⟨hstrings, hnumbers⟩ a ha
    exact (h a ha).mpr ⟨fun s hs => hstrings s ⟨a, ha, hs⟩, fun x hx => hnumbers x ⟨a, ha, hx⟩⟩

/-- A value is heard as it is if all its leaves are. -/
theorem heard_eq_iff (v : Json D) : v.heard F = v ↔
    (∀ s ∈ v.strings, heardString s = s) ∧ ∀ x ∈ v.numbers, F.isfinite x = true := by
  induction v using Json.induct with
  | null => simp [heard, strings, numbers]
  | bool b => simp [heard, strings, numbers]
  | number x =>
      rw [heard]
      split
      · rename_i hx
        simp [strings, numbers, hx]
      · rename_i hx
        simp [strings, numbers, hx]
  | string s => simp [heard, strings, numbers]
  | array values ih =>
      rw [heard, heardItems_eq_map, array.injEq, map_eq_self_iff]
      simp only [mem_strings_array, mem_numbers_array]
      exact forall_iff_leaves ih
  | object values ih =>
      have hmember : ∀ kv : Bytes × Json D, (kv.1, kv.2.heard F) = kv ↔ kv.2.heard F = kv.2 := by
        rintro ⟨k, v⟩
        rw [Prod.mk.injEq]
        exact and_iff_right rfl
      rw [heard, heardMembers_eq_map, object.injEq, map_eq_self_iff]
      simp only [mem_strings_object, mem_numbers_object, hmember]
      exact forall_iff_leaves ih

end Json

/-- The keys stay what they are. -/
theorem sorted_heardMembers {values : List (Bytes × Json D)} (hsorted : SortedMap.Sorted values) :
    SortedMap.Sorted (Json.heardMembers F values) := by
  rw [Json.heardMembers_eq_map]
  exact List.pairwise_map.mpr hsorted

/-! ## The text of a value -/

/-- The text of a value in the file. -/
def written (v : Json D) : Bytes := eraseBackslashes (v.dump F)

def writtenItems (values : List (Json D)) : Bytes := eraseBackslashes (Json.dumpItems F true values)

def writtenMembers (values : List (Bytes × Json D)) : Bytes :=
  eraseBackslashes (Json.dumpMembers F true values)

theorem eraseBackslashes_cons {c : UInt8} (hc : c ≠ 0x5c) (s : Bytes) :
    eraseBackslashes (c :: s) = c :: eraseBackslashes s :=
  List.filter_cons_of_pos (by simpa using hc)

theorem written_string (s : Bytes) :
    written F (.string s) = 0x22 :: (heardString s ++ [0x22]) := by
  rw [written, Json.dump, dumpString, List.cons_append, eraseBackslashes_cons (by decide),
    eraseBackslashes_append]
  rfl

theorem written_array (values : List (Json D)) :
    written F (.array values) = 0x5b :: (writtenItems F values ++ [0x5d]) := by
  rw [written, Json.dump, List.cons_append, eraseBackslashes_cons (by decide),
    eraseBackslashes_append]
  rfl

theorem written_object (values : List (Bytes × Json D)) :
    written F (.object values) = 0x7b :: (writtenMembers F values ++ [0x7d]) := by
  rw [written, Json.dump, List.cons_append, eraseBackslashes_cons (by decide),
    eraseBackslashes_append]
  rfl

theorem writtenItems_singleton (v : Json D) : writtenItems F [v] = written F v := by
  rw [writtenItems, Json.dumpItems, Json.dumpItems, List.append_nil]
  rfl

theorem writtenItems_cons_cons (v w : Json D) (values : List (Json D)) :
    writtenItems F (v :: w :: values) =
      written F v ++ 0x2c :: 0x20 :: writtenItems F (w :: values) := by
  simp only [writtenItems, Json.dumpItems, separator, eraseBackslashes_append, written]
  rfl

def writtenMember (k : Bytes) (v : Json D) : Bytes :=
  0x22 :: (heardString k ++ 0x22 :: 0x3a :: 0x20 :: written F v)

theorem writtenMembers_singleton (k : Bytes) (v : Json D) :
    writtenMembers F [(k, v)] = writtenMember F k v := by
  simp only [writtenMembers, Json.dumpMembers, separator, dumpString, eraseBackslashes_append,
    writtenMember, written, List.append_nil]
  rw [eraseBackslashes_cons (by decide), List.cons_append]
  simp [heardString, eraseBackslashes, str]

theorem writtenMembers_cons_cons (k : Bytes) (v : Json D) (kv : Bytes × Json D)
    (values : List (Bytes × Json D)) :
    writtenMembers F ((k, v) :: kv :: values) =
      writtenMember F k v ++ 0x2c :: 0x20 :: writtenMembers F (kv :: values) := by
  simp only [writtenMembers, Json.dumpMembers, separator, eraseBackslashes_append,
    ← writtenMembers_singleton, List.append_nil, List.append_assoc]
  rfl

theorem written_number {x : D} (hx : F.isfinite x = true) : written F (.number x) = F.format x := by
  obtain ⟨n, hformat, -⟩ := F.printed x hx
  rw [written, Json.dump, dumpNumber, if_pos hx, hformat]
  apply List.filter_eq_self.mpr
  intro c hc
  have hne : c ≠ 0x5c := by
    rintro rfl
    rcases n.mem_text hc with h | h
    · cases h
    · exact absurd h (by decide)
  simpa using hne

theorem jsonSpace_of_isDigit {c : UInt8} (hc : isDigit c = true) : jsonSpace c = false := by
  have hne : ∀ d : UInt8, isDigit d = false → c ≠ d := by
    rintro d hd rfl
    exact Bool.false_ne_true (hd.symm.trans hc)
  simp [jsonSpace, hne 0x20 rfl, hne 0x0d rfl, hne 0x0a rfl, hne 0x09 rfl]

/-- Every value begins with a byte that is neither space nor the end of an array. -/
theorem written_front (v : Json D) :
    ∃ c t, written F v = c :: t ∧ jsonSpace c = false ∧ c ≠ 0x5d := by
  cases v with
  | null => exact ⟨0x6e, _, rfl, by decide⟩
  | bool b => cases b <;> exact ⟨_, _, rfl, by decide⟩
  | number x =>
      by_cases hx : F.isfinite x = true
      · obtain ⟨n, hformat, -⟩ := F.printed x hx
        obtain ⟨c, t, htext, hc⟩ := n.text_front
        have hwritten : written F (.number x) = c :: t :=
          calc written F (.number x) = F.format x := written_number F hx
            _ = n.text := hformat
            _ = c :: t := htext
        refine ⟨c, t, hwritten, ?_⟩
        rcases hc with rfl | hc
        · decide
        · exact ⟨jsonSpace_of_isDigit hc, by rintro rfl; cases hc⟩
      · refine ⟨0x6e, str "ull", ?_, by decide⟩
        rw [written, Json.dump, dumpNumber, if_neg hx]
        rfl
  | string s => exact ⟨0x22, _, written_string F s, by decide⟩
  | array values => exact ⟨0x5b, _, written_array F values, by decide⟩
  | object values => exact ⟨0x7b, _, written_object F values, by decide⟩

theorem writtenItems_front (v : Json D) (values : List (Json D)) (rest : Bytes) :
    ∃ c t, writtenItems F (v :: values) ++ rest = c :: t ∧ jsonSpace c = false ∧ c ≠ 0x5d := by
  obtain ⟨c, t, hfront, hc⟩ := written_front F v
  cases values with
  | nil =>
      rw [writtenItems_singleton, hfront]
      exact ⟨c, _, rfl, hc⟩
  | cons w values =>
      rw [writtenItems_cons_cons, hfront]
      exact ⟨c, _, rfl, hc⟩

theorem writtenMembers_front (kv : Bytes × Json D) (values : List (Bytes × Json D)) :
    ∃ t, writtenMembers F (kv :: values) = 0x22 :: t := by
  obtain ⟨k, v⟩ := kv
  cases values with
  | nil => exact ⟨_, writtenMembers_singleton F k v⟩
  | cons kv values => exact ⟨_, writtenMembers_cons_cons F k v kv values⟩

/-- There are at least as many bytes as values. -/
theorem length_le_writtenItems (values : List (Json D)) :
    values.length ≤ (writtenItems F values).length := by
  induction values with
  | nil => exact Nat.zero_le _
  | cons v values ih =>
      cases values with
      | nil =>
          obtain ⟨c, t, hfront, -⟩ := written_front F v
          rw [writtenItems_singleton, hfront]
          exact Nat.succ_le_succ (Nat.zero_le _)
      | cons w values =>
          rw [writtenItems_cons_cons]
          simp only [List.length_append, List.length_cons] at ih ⊢
          omega

theorem length_le_writtenMembers (values : List (Bytes × Json D)) :
    values.length ≤ (writtenMembers F values).length := by
  induction values with
  | nil => exact Nat.zero_le _
  | cons kv values ih =>
      obtain ⟨k, v⟩ := kv
      cases values with
      | nil =>
          rw [writtenMembers_singleton]
          exact Nat.succ_le_succ (Nat.zero_le _)
      | cons kv values =>
          rw [writtenMembers_cons_cons]
          simp only [List.length_append, List.length_cons] at ih ⊢
          omega

end SecDetector.Usage
