import SecDetector.Usage.Heard

/-!
# Reading back

A value is read back from the file exactly if nothing in it is escaped
(`mainRead_backendThread_iff`).

If no string has a quote in it, the reader gets what is `heard` of the value
(`parseJson_written`).  A quote would end its string, and then the value is not read at all or as
another, since no string that is read has a quote (`quoteFree_of_parse`).

`Readable` is for the rest that a value needs, and what every value of the code has: it does not
nest too deep, and the keys of its objects are plain and in order.
-/

namespace SecDetector.Usage

open SecDetector.Lib

variable {D : Type} (F : NumberFormat D)

/-- A value of at most so many levels, with keys that are plain and in order. -/
inductive Readable : ℕ → Json D → Prop
  | null {n : ℕ} : Readable (n + 1) .null
  | bool {n : ℕ} (value : Bool) : Readable (n + 1) (.bool value)
  | number {n : ℕ} (value : D) : Readable (n + 1) (.number value)
  | string {n : ℕ} (value : Bytes) : Readable (n + 1) (.string value)
  | array {n : ℕ} {values : List (Json D)} (items : ∀ v ∈ values, Readable n v) :
      Readable (n + 1) (.array values)
  | object {n : ℕ} {values : List (Bytes × Json D)} (sorted : SortedMap.Sorted values)
      (keys : ∀ kv ∈ values, Plain kv.1) (members : ∀ kv ∈ values, Readable n kv.2) :
      Readable (n + 1) (.object values)

/-! ## Scanners on what is written -/

theorem getNextToken_cons {c : UInt8} (hc : jsonSpace c = false) (s : Bytes) :
    getNextToken (c :: s) = .ok (c, s) := by
  rw [getNextToken, List.dropWhile_cons_of_neg (by simp [hc])]

theorem getNextToken_space {c : UInt8} (hc : jsonSpace c = false) (s : Bytes) :
    getNextToken (0x20 :: c :: s) = .ok (c, s) := by
  rw [getNextToken, List.dropWhile_cons_of_pos rfl, List.dropWhile_cons_of_neg (by simp [hc])]

theorem expect_append {α : Type} (expected : Bytes) (res : α) (rest : Bytes) :
    expect expected res (expected ++ rest) = .ok (res, rest) := by
  rw [expect, List.take_left, if_pos rfl, List.drop_left]

theorem parseString_quote (out rest : Bytes) :
    parseString out none (0x22 :: rest) = .ok (out, rest) := by
  rw [parseString.eq_def]
  exact congrArg (fun o => Except.ok (o, rest)) (List.append_nil out)

theorem parseString_cons {c : UInt8} (hc : c ≠ 0x22 ∧ c ≠ 0x5c ∧ 0x1f < c) (out s : Bytes) :
    parseString out none (c :: s) = parseString (out ++ [c]) none s := by
  obtain ⟨hquote, hslash, hctrl⟩ := hc
  rw [parseString.eq_def]
  dsimp only
  rw [if_neg hquote, if_neg (UInt8.not_le.mpr hctrl), if_pos hslash]
  exact congrArg (fun o => parseString (o ++ [c]) none s) (List.append_nil out)

theorem parseString_append {body : Bytes} (hbody : Unquoted body) (out rest : Bytes) :
    parseString out none (body ++ 0x22 :: rest) = .ok (out ++ body, rest) := by
  induction body generalizing out with
  | nil => rw [List.nil_append, parseString_quote, List.append_nil]
  | cons c body ih =>
      obtain ⟨hc, hbody⟩ := List.forall_mem_cons.mp hbody
      rw [List.cons_append, parseString_cons hc, ih hbody, List.append_assoc]
      rfl

/-! ## The loops -/

section Loops

variable {parseJson : Bytes → Except Bytes (Json D × Bytes)} {fuel : ℕ} {v : Json D}
  {s rest : Bytes} {c : UInt8}

theorem parseItems_last (h : parseJson s = .ok (v, 0x5d :: rest)) (data : List (Json D)) :
    parseItems parseJson (fuel + 1) data s = .ok (data ++ [v], rest) := by
  rw [parseItems, h]
  rfl

theorem parseItems_next (h : parseJson s = .ok (v, 0x2c :: 0x20 :: c :: rest))
    (hc : jsonSpace c = false) (data : List (Json D)) :
    parseItems parseJson (fuel + 1) data s =
      parseItems parseJson fuel (data ++ [v]) (c :: rest) := by
  rw [parseItems, h]
  show (getNextToken (0x20 :: c :: rest) >>= _) = _
  rw [getNextToken_space hc]
  rfl

theorem parseMembers_last {k : Bytes} (hk : Unquoted k)
    (h : parseJson (0x20 :: s) = .ok (v, 0x7d :: rest)) (data : List (Bytes × Json D)) :
    parseMembers parseJson (fuel + 1) data 0x22 (k ++ 0x22 :: 0x3a :: 0x20 :: s) =
      .ok (SortedMap.assign k v data, rest) := by
  rw [parseMembers, if_neg (by simp), parseString_append hk]
  show (parseJson (0x20 :: s) >>= _) = _
  rw [h]
  rfl

theorem parseMembers_next {k : Bytes} (hk : Unquoted k)
    (h : parseJson (0x20 :: s) = .ok (v, 0x2c :: 0x20 :: c :: rest)) (hc : jsonSpace c = false)
    (data : List (Bytes × Json D)) :
    parseMembers parseJson (fuel + 1) data 0x22 (k ++ 0x22 :: 0x3a :: 0x20 :: s) =
      parseMembers parseJson fuel (SortedMap.assign k v data) c rest := by
  rw [parseMembers, if_neg (by simp), parseString_append hk]
  show (parseJson (0x20 :: s) >>= _) = _
  rw [h]
  show (getNextToken (0x20 :: c :: rest) >>= _) = _
  rw [getNextToken_space hc]
  rfl

variable {F}

/-- The values of an array, in front of its end. -/
theorem parseItems_written {values : List (Json D)} (hne : values ≠ [])
    (hparse : ∀ v ∈ values, ∀ rest, StopsAt numberByte rest →
      parseJson (written F v ++ rest) = .ok (v.heard F, rest))
    (hfuel : values.length ≤ fuel) (data : List (Json D)) (rest : Bytes) :
    parseItems parseJson fuel data (writtenItems F values ++ 0x5d :: rest) =
      .ok (data ++ values.map (Json.heard F), rest) := by
  induction values generalizing fuel data with
  | nil => exact absurd rfl hne
  | cons v values ih =>
      obtain ⟨hv, hvalues⟩ := List.forall_mem_cons.mp hparse
      obtain ⟨fuel, rfl⟩ := Nat.exists_eq_succ_of_ne_zero (Nat.ne_zero_of_lt hfuel)
      have hfuel := Nat.le_of_succ_le_succ hfuel
      cases values with
      | nil =>
          rw [writtenItems_singleton]
          exact parseItems_last (hv _ (stopsAt_cons rfl)) data
      | cons w values =>
          obtain ⟨c, t, hfront, hspace, -⟩ := writtenItems_front F w values (0x5d :: rest)
          have hnext := hv (0x2c :: 0x20 :: c :: t) (stopsAt_cons rfl)
          rw [writtenItems_cons_cons, List.append_assoc, List.cons_append, List.cons_append,
            hfront, parseItems_next hnext hspace, ← hfront,
            ih (List.cons_ne_nil w values) hvalues hfuel, List.append_assoc]
          rfl

/-- The members of an object, behind the first quote. -/
theorem parseMembers_written {values : List (Bytes × Json D)} (hne : values ≠ [])
    (hkeys : ∀ kv ∈ values, Plain kv.1)
    (hparse : ∀ kv ∈ values, ∀ rest, StopsAt numberByte rest →
      parseJson (0x20 :: (written F kv.2 ++ rest)) = .ok (kv.2.heard F, rest))
    (hfuel : values.length ≤ fuel) (data : List (Bytes × Json D)) {s rest : Bytes}
    (hs : writtenMembers F values ++ 0x7d :: rest = 0x22 :: s) :
    parseMembers parseJson fuel data 0x22 s =
      .ok ((Json.heardMembers F values).foldl (fun m e => SortedMap.assign e.1 e.2 m) data,
        rest) := by
  induction values generalizing fuel data s with
  | nil => exact absurd rfl hne
  | cons kv values ih =>
      obtain ⟨k, v⟩ := kv
      obtain ⟨hk, hkeys⟩ := List.forall_mem_cons.mp hkeys
      obtain ⟨hv, hvalues⟩ := List.forall_mem_cons.mp hparse
      obtain ⟨fuel, rfl⟩ := Nat.exists_eq_succ_of_ne_zero (Nat.ne_zero_of_lt hfuel)
      have hfuel := Nat.le_of_succ_le_succ hfuel
      have hkey : heardString k = k := heardString_of_plain hk
      cases values with
      | nil =>
          rw [writtenMembers_singleton, writtenMember, hkey] at hs
          obtain rfl : k ++ 0x22 :: 0x3a :: 0x20 :: (written F v ++ 0x7d :: rest) = s := by
            simpa using hs
          exact parseMembers_last hk.unquoted (hv _ (stopsAt_cons rfl)) data
      | cons kv values =>
          obtain ⟨t, hfront⟩ := writtenMembers_front F kv values
          have hnext := hv (0x2c :: 0x20 :: 0x22 :: (t ++ 0x7d :: rest)) (stopsAt_cons rfl)
          rw [writtenMembers_cons_cons, hfront, writtenMember, hkey] at hs
          obtain rfl : k ++ 0x22 :: 0x3a :: 0x20 ::
              (written F v ++ 0x2c :: 0x20 :: 0x22 :: (t ++ 0x7d :: rest)) = s := by
            simpa using hs
          rw [parseMembers_next hk.unquoted hnext rfl,
            ih (List.cons_ne_nil kv values) hkeys hvalues hfuel _ (by rw [hfront]; rfl)]
          rfl

end Loops

/-! ## Values -/

/-- `parse_json` passes over the space behind a colon. -/
theorem parseJson_space (levels : ℕ) (s : Bytes) :
    parseJson F levels (0x20 :: s) = parseJson F levels s := by
  cases levels with
  | zero => rfl
  | succ levels =>
      have htoken : getNextToken (0x20 :: s) = getNextToken s := by
        rw [getNextToken, getNextToken, List.dropWhile_cons_of_pos rfl]
      rw [parseJson, parseJson, htoken]

section Dispatch

variable (levels : ℕ) (rest : Bytes)

theorem parseJson_null : parseJson F (levels + 1) (str "null" ++ rest) = .ok (.null, rest) := by
  have htoken : getNextToken (str "null" ++ rest) = _ := getNextToken_cons rfl _
  rw [parseJson, htoken]
  exact expect_append (str "null") Json.null rest

theorem parseJson_bool (value : Bool) :
    parseJson F (levels + 1) (written F (.bool value) ++ rest) = .ok (.bool value, rest) := by
  cases value with
  | false =>
      have htoken : getNextToken (str "false" ++ rest) = _ := getNextToken_cons rfl _
      show parseJson F (levels + 1) (str "false" ++ rest) = _
      rw [parseJson, htoken]
      exact expect_append (str "false") (Json.bool false) rest
  | true =>
      have htoken : getNextToken (str "true" ++ rest) = _ := getNextToken_cons rfl _
      show parseJson F (levels + 1) (str "true" ++ rest) = _
      rw [parseJson, htoken]
      exact expect_append (str "true") (Json.bool true) rest

theorem parseJson_number {x : D} (hx : F.isfinite x = true) (hstop : StopsAt numberByte rest) :
    parseJson F (levels + 1) (F.format x ++ rest) = .ok (.number x, rest) := by
  have hnumber := parseNumber_format F hx hstop
  obtain ⟨n, hformat, -⟩ := F.printed x hx
  obtain ⟨c, t, htext, hc⟩ := n.text_front
  have hspace : jsonSpace c = false := by
    rcases hc with rfl | hc
    · rfl
    · exact jsonSpace_of_isDigit hc
  rw [hformat, htext, List.cons_append] at hnumber ⊢
  rw [parseJson, getNextToken_cons hspace]
  show (if c = 0x2d ∨ isDigit c = true then _ else _) = _
  rw [if_pos hc, hnumber]
  rfl

variable {levels rest}

theorem parseJson_string {body : Bytes} (hbody : Unquoted body) :
    parseJson F (levels + 1) (0x22 :: (body ++ 0x22 :: rest)) = .ok (.string body, rest) := by
  rw [parseJson, getNextToken_cons rfl]
  show (parseString [] none (body ++ 0x22 :: rest) >>= _) = _
  rw [parseString_append hbody]
  rfl

theorem parseJson_array {c : UInt8} {t : Bytes} {data : List (Json D)} (hc : jsonSpace c = false)
    (hend : c ≠ 0x5d)
    (hitems : parseItems (parseJson F levels) (t.length + 2) [] (c :: t) = .ok (data, rest)) :
    parseJson F (levels + 1) (0x5b :: c :: t) = .ok (.array data, rest) := by
  rw [parseJson, getNextToken_cons rfl]
  show (getNextToken (c :: t) >>= _) = _
  rw [getNextToken_cons hc]
  show (if c = 0x5d then _ else _) = _
  rw [if_neg hend, hitems]
  rfl

theorem parseJson_object {t : Bytes} {data : List (Bytes × Json D)}
    (hmembers : parseMembers (parseJson F levels) (t.length + 1) [] 0x22 t = .ok (data, rest)) :
    parseJson F (levels + 1) (0x7b :: 0x22 :: t) = .ok (.object data, rest) := by
  rw [parseJson, getNextToken_cons rfl]
  show (parseMembers (parseJson F levels) (t.length + 1) [] 0x22 t >>= _) = _
  rw [hmembers]
  rfl

end Dispatch

/-- In front of anything that is not more of a number, the text of `v` is read as what is heard of
it. -/
def ReadAsHeard (levels : ℕ) (v : Json D) : Prop :=
  ∀ rest, StopsAt numberByte rest → parseJson F levels (written F v ++ rest) = .ok (v.heard F, rest)

variable {F} {levels : ℕ}

theorem readAsHeard_number (x : D) : ReadAsHeard F (levels + 1) (.number x) := by
  intro rest hstop
  rw [Json.heard]
  split
  · rename_i hx
    rw [written_number F hx]
    exact parseJson_number F levels rest hx hstop
  · rename_i hx
    rw [written, Json.dump, dumpNumber, if_neg hx]
    exact parseJson_null F levels rest

theorem readAsHeard_string {s : Bytes} (hquote : 0x22 ∉ s) :
    ReadAsHeard F (levels + 1) (.string s) := by
  intro rest hstop
  rw [written_string, List.cons_append, List.append_assoc]
  exact parseJson_string F (unquoted_heardString hquote)

theorem readAsHeard_array {values : List (Json D)} (hitems : ∀ v ∈ values, ReadAsHeard F levels v) :
    ReadAsHeard F (levels + 1) (.array values) := by
  intro rest hstop
  rw [written_array, List.cons_append, List.append_assoc, Json.heard, Json.heardItems_eq_map]
  cases values with
  | nil => rfl
  | cons v values =>
      obtain ⟨c, t, hfront, hspace, hend⟩ := writtenItems_front F v values (0x5d :: rest)
      have hfuel : (v :: values).length ≤ t.length + 2 := by
        have hle := length_le_writtenItems F (v :: values)
        have hlen := congrArg List.length hfront
        rw [List.length_append, List.length_cons, List.length_cons] at hlen
        omega
      have hread := parseItems_written (List.cons_ne_nil v values) hitems hfuel [] rest
      rw [hfront] at hread
      calc parseJson F (levels + 1) (0x5b :: (writtenItems F (v :: values) ++ ([0x5d] ++ rest)))
          = parseJson F (levels + 1) (0x5b :: c :: t) :=
            congrArg (fun s => parseJson F (levels + 1) (0x5b :: s)) hfront
        _ = .ok (.array ((v :: values).map (Json.heard F)), rest) :=
            parseJson_array F hspace hend hread

theorem readAsHeard_object {values : List (Bytes × Json D)} (hsorted : SortedMap.Sorted values)
    (hkeys : ∀ kv ∈ values, Plain kv.1) (hmembers : ∀ kv ∈ values, ReadAsHeard F levels kv.2) :
    ReadAsHeard F (levels + 1) (.object values) := by
  intro rest hstop
  rw [written_object, List.cons_append, List.append_assoc, Json.heard]
  cases values with
  | nil => rfl
  | cons kv values =>
      obtain ⟨t, hfront⟩ := writtenMembers_front F kv values
      have hmember : ∀ kv' ∈ kv :: values, ∀ rest, StopsAt numberByte rest →
          parseJson F levels (0x20 :: (written F kv'.2 ++ rest)) = .ok (kv'.2.heard F, rest) := by
        intro kv' hkv rest hstop
        rw [parseJson_space]
        exact hmembers kv' hkv rest hstop
      have hfuel : (kv :: values).length ≤ (t ++ 0x7d :: rest).length + 1 := by
        have hle := length_le_writtenMembers F (kv :: values)
        rw [hfront] at hle
        simp only [List.length_append, List.length_cons] at hle ⊢
        omega
      have htext : writtenMembers F (kv :: values) ++ 0x7d :: rest =
          0x22 :: (t ++ 0x7d :: rest) := congrArg (· ++ 0x7d :: rest) hfront
      have hread := parseMembers_written (List.cons_ne_nil kv values) hkeys hmember hfuel [] htext
      -- the keys are in order, so the map is the list that was written
      rw [← SortedMap.ofList, SortedMap.ofList_eq_self (sorted_heardMembers F hsorted)] at hread
      rw [hfront]
      exact parseJson_object F hread

/-- **The text of a value without quotes is read as what is heard of it.** -/
theorem parseJson_written {v : Json D} (hv : Readable levels v) (hquote : QuoteFree v) :
    ReadAsHeard F levels v := by
  induction hv with
  | null => exact fun rest _ => parseJson_null F _ rest
  | bool value => exact fun rest _ => parseJson_bool F _ rest value
  | number x => exact readAsHeard_number x
  | string s => exact readAsHeard_string (hquote s List.mem_cons_self)
  | array items ih =>
      refine readAsHeard_array fun v hv => ih v hv ?_
      exact fun s hs => hquote s (Json.mem_strings_array.mpr ⟨v, hv, hs⟩)
  | object sorted keys members ih =>
      refine readAsHeard_object sorted keys fun kv hkv => ih kv hkv ?_
      exact fun s hs => hquote s (Json.mem_strings_object.mpr ⟨kv, hkv, hs⟩)

variable (F)

theorem parse_written {v : Json D} (hv : Readable (maxDepth + 1) v) (hquote : QuoteFree v) :
    parse F (written F v) = .ok (v.heard F) := by
  have hjson := parseJson_written (F := F) hv hquote [] nofun
  rw [List.append_nil] at hjson
  rw [parse, hjson]
  rfl

/-! ## The file -/

/-- There is nothing to escape in a value. -/
structure Unescaped (v : Json D) : Prop where
  strings : ∀ s ∈ v.strings, Plain s
  numbers : ∀ x ∈ v.numbers, F.isfinite x = true

theorem Unescaped.quoteFree {v : Json D} (hv : Unescaped F v) : QuoteFree v :=
  fun s hs hmem => ((hv.strings s hs).unquoted _ hmem).1 rfl

theorem unescaped_iff_heard {v : Json D} (hquote : QuoteFree v) :
    v.heard F = v ↔ Unescaped F v := by
  rw [Json.heard_eq_iff]
  constructor
  · rintro ⟨hstrings, hnumbers⟩
    exact ⟨fun s hs => (heardString_eq_iff (hquote s hs)).mp (hstrings s hs), hnumbers⟩
  · rintro ⟨hstrings, hnumbers⟩
    exact ⟨fun s hs => heardString_of_plain (hstrings s hs), hnumbers⟩

theorem slash_notMem_written (v : Json D) : 0x5c ∉ written F v := fun hmem => by
  simpa using List.of_mem_filter hmem

/-- **An object is read back from the file exactly if there is nothing to escape in it.** -/
theorem mainRead_backendThread_iff {values : List (Bytes × Json D)}
    (hv : Readable (maxDepth + 1) (.object values)) :
    mainRead F (backendThread F (.object values)) = .ok (.object values) ↔
      Unescaped F (.object values) := by
  rw [mainRead_eq_parse, backendThread_object]
  show parse F (written F (.object values)) = _ ↔ _
  constructor
  · intro hread
    have hquote := quoteFree_of_parse F (slash_notMem_written F _) hread
    rw [parse_written F hv hquote] at hread
    exact (unescaped_iff_heard F hquote).mp (Except.ok.inj hread)
  · intro hplain
    have hquote := hplain.quoteFree
    rw [parse_written F hv hquote, (unescaped_iff_heard F hquote).mpr hplain]

end SecDetector.Usage
