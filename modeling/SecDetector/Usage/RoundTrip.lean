import SecDetector.Usage.ReadBack

/-!
# A text that nothing was erased from is read back

The file is read back badly only for what the backend thread erases.  The text of `dump` itself is
read back by `parse` for every value, whatever bytes are in its strings and its keys; nothing but a
number that is not finite becomes another value (`parse_dump_iff`).

A string is followed through `escape`: whatever has been read before it, an escaped byte is read as
that byte (`readsOn_escapeByte`), although its code point may still be waiting for a trail
surrogate.
-/

namespace SecDetector.Usage

open SecDetector.Lib

/-! ## Strings -/

/-- `parse_string` goes on with `s` after it has read `added`. -/
def ReadsOn (added text : Bytes) : Prop :=
  ∀ out last s, ∃ out' last', parseString out last (text ++ s) = parseString out' last' s ∧
    out' ++ encodeUtf8 last' = out ++ encodeUtf8 last ++ added

theorem readsOn_byte {c : UInt8} (hc : c ≠ 0x22 ∧ c ≠ 0x5c ∧ 0x1f < c) : ReadsOn [c] [c] := by
  intro out last s
  obtain ⟨hquote, hslash, hctrl⟩ := hc
  refine ⟨out ++ encodeUtf8 last ++ [c], none, ?_, List.append_nil _⟩
  rw [List.singleton_append, parseString.eq_def]
  dsimp only
  rw [if_neg hquote, if_neg (UInt8.not_le.mpr hctrl), if_pos hslash]

theorem readsOn_unescape {ch c : UInt8} (hu : ch ≠ 0x75) (hch : unescape ch = some c) :
    ReadsOn [c] [0x5c, ch] := by
  intro out last s
  refine ⟨out ++ encodeUtf8 last ++ [c], none, ?_, List.append_nil _⟩
  rw [List.cons_append, List.singleton_append, parseString.eq_def]
  dsimp only
  rw [if_neg (by decide), if_neg (by decide), if_neg (by decide), if_neg hu, hch]

/-- Only a trail surrogate changes what was read before it. -/
theorem readsOn_codepoint {a b c d : UInt8} {pt : ℕ} (hpt : codepoint [a, b, c, d] = some pt)
    (hlt : pt < 0xdc00) : ReadsOn (encodeUtf8 (some pt)) [0x5c, 0x75, a, b, c, d] := by
  intro out last s
  refine ⟨out ++ (addCodepoint last pt).1, (addCodepoint last pt).2, ?_, ?_⟩
  · simp only [List.cons_append, List.nil_append]
    rw [parseString.eq_def]
    dsimp only
    rw [if_neg (by decide), if_neg (by decide), if_neg (by decide), if_pos rfl, hpt]
  · cases last with
    | none => simp [addCodepoint, encodeUtf8]
    | some lead =>
        rw [addCodepoint, if_neg fun h => absurd h.2.1 (Nat.not_le.mpr hlt)]

theorem codepoint_control : ∀ n < 32,
    codepoint [0x30, 0x30, hexDigit (n / 16), hexDigit (n % 16)] = some n := by decide

theorem encodeUtf8_control : ∀ n < 32, encodeUtf8 (some n) = [UInt8.ofNat n] := by decide

/-- **An escaped byte is read as that byte.** -/
theorem readsOn_escapeByte (ch : UInt8) : ReadsOn [ch] (escapeByte ch) := by
  rw [escapeByte]
  iterate 7
    split
    · rename_i h
      exact h ▸ readsOn_unescape (by decide) rfl
  rename_i hslash hquote _ _ _ _ _
  split
  · rename_i hctrl
    have hlt : ch.toNat < 32 := by
      rw [UInt8.le_iff_toNat_le] at hctrl
      exact Nat.lt_succ_of_le hctrl
    have hread := readsOn_codepoint (codepoint_control _ hlt) (by omega)
    rw [encodeUtf8_control _ hlt, UInt8.ofNat_toNat] at hread
    exact hread
  · rename_i hctrl
    exact readsOn_byte ⟨hquote, hslash, UInt8.not_le.mp hctrl⟩

/-- **A string is read back from its escaped bytes.** -/
theorem parseString_escape (s out : Bytes) (last : Option ℕ) (rest : Bytes) :
    parseString out last (escape s ++ 0x22 :: rest) =
      .ok (out ++ encodeUtf8 last ++ s, rest) := by
  have hgo : ∀ {added text t : Bytes}, ReadsOn added text →
      (∀ out last, parseString out last (escape t ++ 0x22 :: rest) =
        .ok (out ++ encodeUtf8 last ++ t, rest)) → ∀ out last,
      parseString out last (text ++ escape t ++ 0x22 :: rest) =
        .ok (out ++ encodeUtf8 last ++ (added ++ t), rest) := by
    intro added text t hread ih out last
    obtain ⟨out', last', hparse, hout⟩ := hread out last (escape t ++ 0x22 :: rest)
    rw [List.append_assoc, hparse, ih, hout, List.append_assoc]
  have hline : codepoint [0x32, 0x30, 0x32, 0x38] = some 0x2028 := rfl
  have hparagraph : codepoint [0x32, 0x30, 0x32, 0x39] = some 0x2029 := rfl
  induction s using escape.induct generalizing out last with
  | case1 =>
      rw [escape, List.nil_append, parseString.eq_def, List.append_nil]
      rfl
  | case2 s ih =>
      rw [escape]
      exact hgo (readsOn_codepoint hline (by decide)) ih out last
  | case3 s ih =>
      rw [escape]
      exact hgo (readsOn_codepoint hparagraph (by decide)) ih out last
  | case4 ch s hnoLine hnoParagraph ih =>
      rw [escape]
      · exact hgo (readsOn_escapeByte ch) ih out last
      · exact hnoLine
      · exact hnoParagraph

/-! ## What is read back -/

variable {D : Type} (F : NumberFormat D)

/-- The keys of every object are in order, as they are in a `std::map`. -/
inductive Ordered : Json D → Prop
  | null : Ordered .null
  | bool (value : Bool) : Ordered (.bool value)
  | number (value : D) : Ordered (.number value)
  | string (value : Bytes) : Ordered (.string value)
  | array {values : List (Json D)} (items : ∀ v ∈ values, Ordered v) : Ordered (.array values)
  | object {values : List (Bytes × Json D)} (sorted : SortedMap.Sorted values)
      (members : ∀ kv ∈ values, Ordered kv.2) : Ordered (.object values)

namespace Json

mutual

/-- The value with nothing for a number that is not finite. -/
def finite : Json D → Json D
  | null => null
  | bool value => bool value
  | number value => if F.isfinite value then number value else null
  | string value => string value
  | array values => array (finiteItems values)
  | object values => object (finiteMembers values)

def finiteItems : List (Json D) → List (Json D)
  | [] => []
  | v :: rest => v.finite :: finiteItems rest

def finiteMembers : List (Bytes × Json D) → List (Bytes × Json D)
  | [] => []
  | (k, v) :: rest => (k, v.finite) :: finiteMembers rest

end

mutual

/-- How deep a value nests. -/
def depth : Json D → ℕ
  | array values => depthItems values + 1
  | object values => depthMembers values + 1
  | _ => 1

def depthItems : List (Json D) → ℕ
  | [] => 0
  | v :: rest => max v.depth (depthItems rest)

def depthMembers : List (Bytes × Json D) → ℕ
  | [] => 0
  | (_, v) :: rest => max v.depth (depthMembers rest)

end

theorem depth_pos (v : Json D) : 1 ≤ v.depth := by
  cases v <;> simp [depth]

theorem finiteItems_eq_map (values : List (Json D)) :
    finiteItems F values = values.map (finite F) := by
  induction values with
  | nil => rfl
  | cons v values ih => rw [finiteItems, ih, List.map_cons]

theorem finiteMembers_eq_map (values : List (Bytes × Json D)) :
    finiteMembers F values = values.map fun kv => (kv.1, kv.2.finite F) := by
  induction values with
  | nil => rfl
  | cons kv values ih => rw [finiteMembers, ih, List.map_cons]

theorem finite_eq_iff (v : Json D) : v.finite F = v ↔ ∀ x ∈ v.numbers, F.isfinite x = true := by
  induction v using Json.induct with
  | null => simp [finite, numbers]
  | bool b => simp [finite, numbers]
  | number x =>
      rw [finite]
      split
      · rename_i hx
        simp [numbers, hx]
      · rename_i hx
        simp [numbers, hx]
  | string s => simp [finite, numbers]
  | array values ih =>
      rw [finite, finiteItems_eq_map, array.injEq, map_eq_self_iff, forall₂_congr ih]
      simp only [mem_numbers_array]
      constructor
      · rintro h x ⟨v, hv, hx⟩
        exact h v hv x hx
      · exact fun h v hv x hx => h x ⟨v, hv, hx⟩
  | object values ih =>
      have hmember : ∀ kv : Bytes × Json D, (kv.1, kv.2.finite F) = kv ↔ kv.2.finite F = kv.2 := by
        rintro ⟨k, v⟩
        rw [Prod.mk.injEq]
        exact and_iff_right rfl
      rw [finite, finiteMembers_eq_map, object.injEq, map_eq_self_iff]
      simp only [hmember, mem_numbers_object]
      rw [forall₂_congr ih]
      constructor
      · rintro h x ⟨kv, hkv, hx⟩
        exact h kv hkv x hx
      · exact fun h kv hkv x hx => h x ⟨kv, hkv, hx⟩

theorem sorted_finiteMembers {values : List (Bytes × Json D)} (hsorted : SortedMap.Sorted values) :
    SortedMap.Sorted (finiteMembers F values) := by
  rw [finiteMembers_eq_map]
  exact List.pairwise_map.mpr hsorted

/-- Every value begins with a byte that is neither space nor the end of an array. -/
theorem dump_front (v : Json D) :
    ∃ c t, v.dump F = c :: t ∧ jsonSpace c = false ∧ c ≠ 0x5d := by
  cases v with
  | null => exact ⟨0x6e, _, rfl, by decide⟩
  | bool b => cases b <;> exact ⟨_, _, rfl, by decide⟩
  | number x =>
      rw [dump, dumpNumber]
      split
      · rename_i hx
        obtain ⟨n, hformat, -⟩ := F.printed x hx
        obtain ⟨c, t, htext, hc⟩ := n.text_front
        refine ⟨c, t, hformat.trans htext, ?_⟩
        rcases hc with rfl | hc
        · decide
        · exact ⟨jsonSpace_of_isDigit hc, by rintro rfl; cases hc⟩
      · exact ⟨0x6e, _, rfl, by decide⟩
  | string s => exact ⟨0x22, _, rfl, by decide⟩
  | array values => exact ⟨0x5b, _, rfl, by decide⟩
  | object values => exact ⟨0x7b, _, rfl, by decide⟩

end Json

/-! ## The loops -/

/-- What is read, if it does not nest too deep. -/
def within {α : Type} (levels depth : ℕ) (a : α) : Except Bytes α :=
  if depth ≤ levels then .ok a else .error (str "exceeded maximum nesting depth")

section Within

variable {α : Type} {levels depth : ℕ}

theorem within_of_le (h : depth ≤ levels) (a : α) : within levels depth a = .ok a := if_pos h

theorem within_of_not_le (h : ¬ depth ≤ levels) (a : α) :
    within levels depth a = .error (str "exceeded maximum nesting depth") := if_neg h

theorem within_max_of_le (h : depth ≤ levels) (depth' : ℕ) (a : α) :
    within levels (max depth depth') a = within levels depth' a := by
  simp only [within, max_le_iff, h, true_and]

theorem within_max_of_not_le (h : ¬ depth ≤ levels) (depth' : ℕ) (a : α) :
    within levels (max depth depth') a = .error (str "exceeded maximum nesting depth") :=
  within_of_not_le (fun hmax => h (max_le_iff.mp hmax).1) a

theorem within_succ (a : α) : within (levels + 1) (depth + 1) a = within levels depth a := by
  simp only [within, Nat.add_le_add_iff_right]

theorem within_bind {β : Type} (a : α) (f : α → β) :
    (within levels depth a >>= fun a => .ok (f a)) = within levels depth (f a) := by
  unfold within
  split <;> rfl

end Within

theorem parseString_key (k s : Bytes) :
    parseString [] none (escape k ++ 0x22 :: s) = .ok (k, s) := by
  rw [parseString_escape]
  rfl

section Loops

variable {parseJson : Bytes → Except Bytes (Json D × Bytes)} {v : Json D} {k s rest err : Bytes}
  {fuel : ℕ}

theorem parseItems_error (h : parseJson s = .error err) (data : List (Json D)) :
    parseItems parseJson (fuel + 1) data s = .error err := by
  rw [parseItems, h]
  rfl

theorem parseMembers_error (h : parseJson s = .error err) (data : List (Bytes × Json D)) :
    parseMembers parseJson (fuel + 1) data 0x22 (escape k ++ 0x22 :: 0x3a :: s) = .error err := by
  rw [parseMembers, if_neg (by simp), parseString_key]
  show (parseJson s >>= _) = _
  rw [h]
  rfl

theorem parseMembers_lastMember (h : parseJson s = .ok (v, 0x7d :: rest))
    (data : List (Bytes × Json D)) :
    parseMembers parseJson (fuel + 1) data 0x22 (escape k ++ 0x22 :: 0x3a :: s) =
      .ok (SortedMap.assign k v data, rest) := by
  rw [parseMembers, if_neg (by simp), parseString_key]
  show (parseJson s >>= _) = _
  rw [h]
  rfl

theorem parseMembers_nextMember {c : UInt8} (h : parseJson s = .ok (v, 0x2c :: 0x20 :: c :: rest))
    (hc : jsonSpace c = false) (data : List (Bytes × Json D)) :
    parseMembers parseJson (fuel + 1) data 0x22 (escape k ++ 0x22 :: 0x3a :: s) =
      parseMembers parseJson fuel (SortedMap.assign k v data) c rest := by
  rw [parseMembers, if_neg (by simp), parseString_key]
  show (parseJson s >>= _) = _
  rw [h]
  show (getNextToken (0x20 :: c :: rest) >>= _) = _
  rw [getNextToken_space hc]
  rfl

variable {F} {levels : ℕ}

/-- The values of an array, in front of its end. -/
theorem parseItems_dumpItems {values : List (Json D)}
    (hparse : ∀ w ∈ v :: values, ∀ rest, StopsAt numberByte rest →
      parseJson (w.dump F ++ rest) = within levels w.depth (w.finite F, rest))
    (hfuel : values.length ≤ fuel) (data : List (Json D)) (rest : Bytes) :
    parseItems parseJson (fuel + 1) data
        (v.dump F ++ (Json.dumpItems F false values ++ 0x5d :: rest)) =
      within levels (Json.depthItems (v :: values))
        (data ++ (v :: values).map (Json.finite F), rest) := by
  induction values generalizing v fuel data with
  | nil =>
      have hread := hparse v List.mem_cons_self (0x5d :: rest) (stopsAt_cons rfl)
      rw [Json.depthItems, Json.dumpItems, List.nil_append]
      by_cases hdepth : v.depth ≤ levels
      · rw [within_of_le hdepth] at hread
        rw [within_max_of_le hdepth, parseItems_last hread]
        rfl
      · rw [within_of_not_le hdepth] at hread
        rw [within_max_of_not_le hdepth, parseItems_error hread]
  | cons w values ih =>
      obtain ⟨hv, hvalues⟩ := List.forall_mem_cons.mp hparse
      obtain ⟨fuel, rfl⟩ := Nat.exists_eq_succ_of_ne_zero (Nat.ne_zero_of_lt hfuel)
      obtain ⟨c, t, hfront, hspace, -⟩ := w.dump_front F
      have htext : Json.dumpItems F false (w :: values) ++ 0x5d :: rest = 0x2c :: 0x20 ::
          (w.dump F ++ (Json.dumpItems F false values ++ 0x5d :: rest)) := by
        simp [Json.dumpItems, separator, str]
      have hread := hv (0x2c :: 0x20 ::
        (w.dump F ++ (Json.dumpItems F false values ++ 0x5d :: rest))) (stopsAt_cons rfl)
      rw [htext, Json.depthItems]
      by_cases hdepth : v.depth ≤ levels
      · have hrest := ih hvalues (Nat.le_of_succ_le_succ hfuel) (data ++ [v.finite F])
        rw [within_of_le hdepth] at hread
        rw [hfront, List.cons_append] at hread hrest ⊢
        rw [parseItems_next hread hspace, hrest, within_max_of_le hdepth, List.append_assoc]
        rfl
      · rw [within_of_not_le hdepth] at hread
        rw [within_max_of_not_le hdepth, parseItems_error hread]

/-- The members of an object, behind the first quote. -/
theorem parseMembers_dumpMembers {values : List (Bytes × Json D)}
    (hparse : ∀ kv ∈ (k, v) :: values, ∀ rest, StopsAt numberByte rest →
      parseJson (0x20 :: (kv.2.dump F ++ rest)) = within levels kv.2.depth (kv.2.finite F, rest))
    (hfuel : values.length ≤ fuel) (data : List (Bytes × Json D)) (rest : Bytes) :
    parseMembers parseJson (fuel + 1) data 0x22 (escape k ++ 0x22 :: 0x3a :: 0x20 ::
        (v.dump F ++ (Json.dumpMembers F false values ++ 0x7d :: rest))) =
      within levels (Json.depthMembers ((k, v) :: values))
        ((Json.finiteMembers F ((k, v) :: values)).foldl
          (fun m e => SortedMap.assign e.1 e.2 m) data, rest) := by
  induction values generalizing k v fuel data with
  | nil =>
      have hread := hparse (k, v) List.mem_cons_self (0x7d :: rest) (stopsAt_cons rfl)
      rw [Json.depthMembers, Json.dumpMembers, List.nil_append]
      by_cases hdepth : v.depth ≤ levels
      · rw [within_of_le hdepth] at hread
        rw [within_max_of_le hdepth, parseMembers_lastMember hread]
        rfl
      · rw [within_of_not_le hdepth] at hread
        rw [within_max_of_not_le hdepth, parseMembers_error hread]
  | cons kv values ih =>
      obtain ⟨k', w⟩ := kv
      obtain ⟨hv, hvalues⟩ := List.forall_mem_cons.mp hparse
      obtain ⟨fuel, rfl⟩ := Nat.exists_eq_succ_of_ne_zero (Nat.ne_zero_of_lt hfuel)
      have htext : Json.dumpMembers F false ((k', w) :: values) ++ 0x7d :: rest =
          0x2c :: 0x20 :: 0x22 :: (escape k' ++ 0x22 :: 0x3a :: 0x20 ::
            (w.dump F ++ (Json.dumpMembers F false values ++ 0x7d :: rest))) := by
        simp [Json.dumpMembers, separator, dumpString, str]
      have hread := hv (0x2c :: 0x20 :: 0x22 :: (escape k' ++ 0x22 :: 0x3a :: 0x20 ::
        (w.dump F ++ (Json.dumpMembers F false values ++ 0x7d :: rest)))) (stopsAt_cons rfl)
      rw [htext, Json.depthMembers]
      by_cases hdepth : v.depth ≤ levels
      · rw [within_of_le hdepth] at hread
        rw [parseMembers_nextMember hread rfl, ih hvalues (Nat.le_of_succ_le_succ hfuel),
          within_max_of_le hdepth]
        rfl
      · rw [within_of_not_le hdepth] at hread
        rw [within_max_of_not_le hdepth, parseMembers_error hread]

end Loops

theorem length_le_dumpItems (values : List (Json D)) :
    values.length ≤ (Json.dumpItems F false values).length := by
  induction values with
  | nil => exact Nat.zero_le _
  | cons v values ih =>
      have hseparator : (separator false).length = 2 := rfl
      simp only [Json.dumpItems, List.length_append, List.length_cons, hseparator]
      omega

theorem length_le_dumpMembers (values : List (Bytes × Json D)) :
    values.length ≤ (Json.dumpMembers F false values).length := by
  induction values with
  | nil => exact Nat.zero_le _
  | cons kv values ih =>
      have hseparator : (separator false).length = 2 := rfl
      simp only [Json.dumpMembers, List.length_append, List.length_cons, hseparator]
      omega

/-! ## Values -/

/-- In front of anything that is not more of a number, the text of `v` is read back. -/
def ReadsBack (levels : ℕ) (v : Json D) : Prop :=
  ∀ rest, StopsAt numberByte rest →
    parseJson F levels (v.dump F ++ rest) = within levels v.depth (v.finite F, rest)

variable {F} {levels : ℕ}

theorem readsBack_number (x : D) : ReadsBack F (levels + 1) (.number x) := by
  intro rest hstop
  rw [Json.depth, within_of_le (Nat.le_add_left 1 levels), Json.dump, dumpNumber, Json.finite]
  · split
    · rename_i hx
      exact parseJson_number F levels rest hx hstop
    · exact parseJson_null F levels rest
  all_goals rintro _ ⟨⟩

theorem readsBack_string (s : Bytes) : ReadsBack F (levels + 1) (.string s) := by
  intro rest _
  have htext : (Json.string s).dump F ++ rest = 0x22 :: (escape s ++ 0x22 :: rest) := by
    simp [Json.dump, dumpString]
  rw [Json.depth, within_of_le (Nat.le_add_left 1 levels), htext, parseJson,
    getNextToken_cons (by decide)]
  · show (parseString [] none (escape s ++ 0x22 :: rest) >>= _) = _
    rw [parseString_key]
    rfl
  all_goals rintro _ ⟨⟩

theorem parseJson_items {c : UInt8} {t rest : Bytes} {depth : ℕ} {data : List (Json D)}
    (hc : jsonSpace c = false) (hend : c ≠ 0x5d)
    (hitems : parseItems (parseJson F levels) (t.length + 2) [] (c :: t) =
      within levels depth (data, rest)) :
    parseJson F (levels + 1) (0x5b :: c :: t) =
      within (levels + 1) (depth + 1) (.array data, rest) := by
  rw [parseJson, getNextToken_cons rfl, within_succ]
  show (getNextToken (c :: t) >>= _) = _
  rw [getNextToken_cons hc]
  show (if c = 0x5d then _ else _) = _
  rw [if_neg hend, hitems]
  exact within_bind (data, rest) fun r => (Json.array r.1, r.2)

theorem parseJson_members {t rest : Bytes} {depth : ℕ} {data : List (Bytes × Json D)}
    (hmembers : parseMembers (parseJson F levels) (t.length + 1) [] 0x22 t =
      within levels depth (data, rest)) :
    parseJson F (levels + 1) (0x7b :: 0x22 :: t) =
      within (levels + 1) (depth + 1) (.object data, rest) := by
  rw [parseJson, getNextToken_cons rfl, within_succ]
  show (parseMembers (parseJson F levels) (t.length + 1) [] 0x22 t >>= _) = _
  rw [hmembers]
  exact within_bind (data, rest) fun r => (Json.object r.1, r.2)

theorem readsBack_array {values : List (Json D)} (hitems : ∀ v ∈ values, ReadsBack F levels v) :
    ReadsBack F (levels + 1) (.array values) := by
  intro rest _
  rw [Json.finite, Json.finiteItems_eq_map, Json.depth]
  cases values with
  | nil => exact (within_of_le (Nat.le_add_left 1 levels) _).symm
  | cons v values =>
      obtain ⟨c, t, hfront, hspace, hend⟩ := v.dump_front F
      have htext : (Json.array (v :: values)).dump F ++ rest =
          0x5b :: (v.dump F ++ (Json.dumpItems F false values ++ 0x5d :: rest)) := by
        simp [Json.dump, Json.dumpItems, separator]
      have hfuel : values.length ≤
          (t ++ (Json.dumpItems F false values ++ 0x5d :: rest)).length + 1 := by
        have hle := length_le_dumpItems F values
        simp only [List.length_append]
        omega
      have hread := parseItems_dumpItems hitems hfuel [] rest
      rw [htext]
      rw [hfront, List.cons_append] at hread ⊢
      exact parseJson_items hspace hend hread

theorem readsBack_object {values : List (Bytes × Json D)} (hsorted : SortedMap.Sorted values)
    (hmembers : ∀ kv ∈ values, ReadsBack F levels kv.2) :
    ReadsBack F (levels + 1) (.object values) := by
  intro rest _
  rw [Json.finite, Json.depth]
  cases values with
  | nil => exact (within_of_le (Nat.le_add_left 1 levels) _).symm
  | cons kv values =>
      obtain ⟨k, v⟩ := kv
      have htext : (Json.object ((k, v) :: values)).dump F ++ rest =
          0x7b :: 0x22 :: (escape k ++ 0x22 :: 0x3a :: 0x20 ::
            (v.dump F ++ (Json.dumpMembers F false values ++ 0x7d :: rest))) := by
        simp [Json.dump, Json.dumpMembers, separator, dumpString, str]
      have hmember : ∀ kv ∈ (k, v) :: values, ∀ rest, StopsAt numberByte rest →
          parseJson F levels (0x20 :: (kv.2.dump F ++ rest)) =
            within levels kv.2.depth (kv.2.finite F, rest) := by
        intro kv hkv rest hstop
        rw [parseJson_space]
        exact hmembers kv hkv rest hstop
      rw [htext]
      refine parseJson_members ?_
      rw [parseMembers_dumpMembers hmember]
      · -- the keys are in order, so the map is the list that was written
        rw [← SortedMap.ofList, SortedMap.ofList_eq_self (Json.sorted_finiteMembers F hsorted)]
      · have hle := length_le_dumpMembers F values
        simp only [List.length_append, List.length_cons]
        omega

/-- With no levels left nothing is read, and every value needs one. -/
theorem readsBack_of_succ {v : Json D} (h : ∀ levels, ReadsBack F (levels + 1) v) (levels : ℕ) :
    ReadsBack F levels v := by
  cases levels with
  | zero =>
      intro rest _
      exact (within_of_not_le (Nat.not_le.mpr v.depth_pos) _).symm
  | succ levels => exact h levels

/-- **The text of a value is read as the value, if it does not nest too deep.** -/
theorem parseJson_dump {v : Json D} (hv : Ordered v) (levels : ℕ) : ReadsBack F levels v := by
  induction hv generalizing levels with
  | null =>
      refine readsBack_of_succ (fun levels rest _ => ?_) levels
      exact (parseJson_null F levels rest).trans
        (within_of_le (Nat.le_add_left 1 levels) (Json.null, rest)).symm
  | bool value =>
      refine readsBack_of_succ (fun levels rest _ => ?_) levels
      have hread : parseJson F (levels + 1) ((Json.bool value).dump F ++ rest) =
          .ok (.bool value, rest) := by
        cases value with
        | false => exact parseJson_bool F levels rest false
        | true => exact parseJson_bool F levels rest true
      exact hread.trans (within_of_le (Nat.le_add_left 1 levels) (Json.bool value, rest)).symm
  | number x => exact readsBack_of_succ (fun _ => readsBack_number x) levels
  | string s => exact readsBack_of_succ (fun _ => readsBack_string s) levels
  | array items ih =>
      refine readsBack_of_succ (fun levels => readsBack_array fun v hv => ?_) levels
      exact ih v hv levels
  | object sorted members ih =>
      refine readsBack_of_succ (fun levels => readsBack_object sorted fun kv hkv => ?_) levels
      exact ih kv hkv levels

variable (F)

theorem parse_dump {v : Json D} (hv : Ordered v) :
    parse F (v.dump F) = within (maxDepth + 1) v.depth (v.finite F) := by
  have hjson := parseJson_dump (F := F) hv (maxDepth + 1) [] nofun
  rw [List.append_nil] at hjson
  rw [parse, hjson]
  by_cases hdepth : v.depth ≤ maxDepth + 1
  · rw [within_of_le hdepth, within_of_le hdepth]
    rfl
  · rw [within_of_not_le hdepth, within_of_not_le hdepth]
    rfl

/-- **A value is read back as it was exactly if its numbers are finite and it does not nest deeper
than the parser goes**, whatever is in its strings and keys. -/
theorem parse_dump_iff {v : Json D} (hv : Ordered v) :
    parse F (v.dump F) = .ok v ↔
      v.depth ≤ maxDepth + 1 ∧ ∀ x ∈ v.numbers, F.isfinite x = true := by
  rw [parse_dump F hv, ← Json.finite_eq_iff]
  by_cases hdepth : v.depth ≤ maxDepth + 1
  · rw [within_of_le hdepth, Except.ok.injEq]
    exact (and_iff_right hdepth).symm
  · rw [within_of_not_le hdepth]
    exact iff_of_false nofun fun h => hdepth h.1

/-- A key with a quote, and a string with a line separator and a backslash. -/
def quoted (x : Option ℤ) : Json (Option ℤ) :=
  .object [([0x61, 0x22], .array [.number x, .string [0xe2, 0x80, 0xa8, 0x5c, 0x01]])]

theorem ordered_quoted (x : Option ℤ) : Ordered (quoted x) := by
  refine .object (List.pairwise_singleton _ _) ?_
  rintro _ (_ | ⟨_, ⟨⟩⟩)
  refine .array ?_
  rintro _ (_ | ⟨_, _ | ⟨_, ⟨⟩⟩⟩)
  · exact .number _
  · exact .string _

/-- With the number it is read back, and with none in its place it is not. -/
theorem parse_dump_quoted :
    parse (withNaN integers) ((quoted (some (-3))).dump (withNaN integers)) =
        .ok (quoted (some (-3))) ∧
      parse (withNaN integers) ((quoted none).dump (withNaN integers)) ≠ .ok (quoted none) := by
  refine ⟨(parse_dump_iff _ (ordered_quoted _)).mpr ⟨by decide, ?_⟩, fun hread => ?_⟩
  · rintro x (_ | ⟨_, ⟨⟩⟩)
    rfl
  · cases ((parse_dump_iff _ (ordered_quoted _)).mp hread).2 none List.mem_cons_self

end SecDetector.Usage
