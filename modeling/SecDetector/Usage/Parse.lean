import SecDetector.Usage.Dump

/-!
# What the reader loop reads

The parser of `json11`, in its standard mode: a scanner takes the text that is left and gives a
value with the text behind it, or the message of the first error.  `parse_json` may nest 200 deep,
and its two loops run as long as there is text.

`Scans` says what a scanner does to any text: an error has a message, and a value is as expected and
leaves less text than there was.  From this the loops never run out of the rounds they are given,
and the reader loop, which looks at the message only, sees every error (`mainRead_eq_parse`).
-/

namespace SecDetector.Usage

open SecDetector.Lib

/-! ## Scanners -/

/-- `consume_whitespace` stops at another byte. -/
def jsonSpace (c : UInt8) : Bool := c == 0x20 || c == 0x0d || c == 0x0a || c == 0x09

/-- `get_next_token`. -/
def getNextToken (s : Bytes) : Except Bytes (UInt8 × Bytes) :=
  match s.dropWhile jsonSpace with
  | [] => .error (str "unexpected end of input")
  | ch :: s => .ok (ch, s)

/-- `encode_utf8`; nothing stands for the code point -1. -/
def encodeUtf8 : Option ℕ → Bytes
  | none => []
  | some pt =>
      let tail (k : ℕ) : UInt8 := UInt8.ofNat (pt / 64 ^ k % 64 + 0x80)
      if pt < 0x80 then [UInt8.ofNat pt]
      else if pt < 0x800 then [UInt8.ofNat (pt / 64 + 0xc0), tail 0]
      else if pt < 0x10000 then [UInt8.ofNat (pt / 64 ^ 2 + 0xe0), tail 1, tail 0]
      else [UInt8.ofNat (pt / 64 ^ 3 + 0xf0), tail 2, tail 1, tail 0]

/-- The value of a hexadecimal digit. -/
def hexValue (c : UInt8) : Option ℕ :=
  if isDigit c then some (c.toNat - 0x30)
  else if 0x61 ≤ c ∧ c ≤ 0x66 then some (c.toNat - 0x57)
  else if 0x41 ≤ c ∧ c ≤ 0x46 then some (c.toNat - 0x37)
  else none

/-- The code point of four hexadecimal digits. -/
def codepoint (ds : Bytes) : Option ℕ :=
  ds.foldlM (fun n c => (hexValue c).map (16 * n + ·)) 0

/-- What the character behind a backslash stands for, `u` apart. -/
def unescape (ch : UInt8) : Option UInt8 :=
  if ch = 0x62 then some 0x08
  else if ch = 0x66 then some 0x0c
  else if ch = 0x6e then some 0x0a
  else if ch = 0x72 then some 0x0d
  else if ch = 0x74 then some 0x09
  else if ch = 0x22 ∨ ch = 0x5c ∨ ch = 0x2f then some ch
  else none

/-- What is added to the string, and the last escaped code point then, after one more of them: a
trail surrogate behind a lead surrogate makes one character with it. -/
def addCodepoint (last : Option ℕ) (pt : ℕ) : Bytes × Option ℕ :=
  match last with
  | some lead =>
      if (0xd800 ≤ lead ∧ lead ≤ 0xdbff) ∧ 0xdc00 ≤ pt ∧ pt ≤ 0xdfff then
        (encodeUtf8 (some ((lead - 0xd800) * 0x400 + (pt - 0xdc00) + 0x10000)), none)
      else (encodeUtf8 last, some pt)
  | none => ([], some pt)

/-- `parse_string`, behind the first quote. -/
def parseString (out : Bytes) (last : Option ℕ) : Bytes → Except Bytes (Bytes × Bytes)
  | [] => .error (str "unexpected end of input in string")
  | ch :: s =>
      if ch = 0x22 then .ok (out ++ encodeUtf8 last, s)
      else if ch ≤ 0x1f then .error (str "unescaped " ++ esc ch ++ str " in string")
      else if ch ≠ 0x5c then parseString (out ++ encodeUtf8 last ++ [ch]) none s
      else match s with
        | [] => .error (str "unexpected end of input in string")
        | ch :: s =>
            if ch = 0x75 then match s with
              | a :: b :: c :: d :: s => match codepoint [a, b, c, d] with
                | some pt =>
                    let (added, last) := addCodepoint last pt
                    parseString (out ++ added) last s
                | none => .error (str "bad \\u escape: " ++ [a, b, c, d])
              | s => .error (str "bad \\u escape: " ++ s)
            else match unescape ch with
              | some c => parseString (out ++ encodeUtf8 last ++ [c]) none s
              | none => .error (str "invalid escape character " ++ esc ch)

/-- `expect`, from the first character of the word on. -/
def expect {α : Type} (expected : Bytes) (res : α) (s : Bytes) : Except Bytes (α × Bytes) :=
  if s.take expected.length = expected then .ok (res, s.drop expected.length)
  else .error (str "parse error: expected " ++ expected ++ str ", got " ++ s.take expected.length)

variable {D : Type} (F : NumberFormat D)

/-- The loop over the members of an object, from the token `ch` on.  Its rounds are bounded by
`fuel`; without fuel there is no message. -/
def parseMembers (parseJson : Bytes → Except Bytes (Json D × Bytes)) :
    (fuel : ℕ) → List (Bytes × Json D) → UInt8 → Bytes →
      Except Bytes (List (Bytes × Json D) × Bytes)
  | 0, _, _, _ => .error []
  | fuel + 1, data, ch, s =>
      if ch ≠ 0x22 then .error (str "expected '\"' in object, got " ++ esc ch)
      else do
        let (key, s) ← parseString [] none s
        let (ch, s) ← getNextToken s
        if ch ≠ 0x3a then .error (str "expected ':' in object, got " ++ esc ch)
        else
          let (value, s) ← parseJson s
          let data := SortedMap.assign key value data
          let (ch, s) ← getNextToken s
          if ch = 0x7d then .ok (data, s)
          else if ch ≠ 0x2c then .error (str "expected ',' in object, got " ++ esc ch)
          else
            let (ch, s) ← getNextToken s
            parseMembers parseJson fuel data ch s

/-- The loop over the values of an array. -/
def parseItems (parseJson : Bytes → Except Bytes (Json D × Bytes)) :
    (fuel : ℕ) → List (Json D) → Bytes → Except Bytes (List (Json D) × Bytes)
  | 0, _, _ => .error []
  | fuel + 1, data, s => do
      let (value, s) ← parseJson s
      let data := data ++ [value]
      let (ch, s) ← getNextToken s
      if ch = 0x5d then .ok (data, s)
      else if ch ≠ 0x2c then .error (str "expected ',' in list, got " ++ esc ch)
      else
        let (ch, s) ← getNextToken s
        parseItems parseJson fuel data (ch :: s)

/-- `parse_json`, `levels` of nesting before the limit. -/
def parseJson : (levels : ℕ) → Bytes → Except Bytes (Json D × Bytes)
  | 0, _ => .error (str "exceeded maximum nesting depth")
  | levels + 1, s => do
      let (ch, s) ← getNextToken s
      if ch = 0x2d ∨ isDigit ch = true then
        let (x, s) ← parseNumber F (ch :: s)
        .ok (.number x, s)
      else if ch = 0x74 then expect (str "true") (.bool true) (ch :: s)
      else if ch = 0x66 then expect (str "false") (.bool false) (ch :: s)
      else if ch = 0x6e then expect (str "null") .null (ch :: s)
      else if ch = 0x22 then
        let (value, s) ← parseString [] none s
        .ok (.string value, s)
      else if ch = 0x7b then
        let (ch, s) ← getNextToken s
        if ch = 0x7d then .ok (.object [], s)
        else
          let (data, s) ← parseMembers (parseJson levels) (s.length + 1) [] ch s
          .ok (.object data, s)
      else if ch = 0x5b then
        let (ch, s) ← getNextToken s
        if ch = 0x5d then .ok (.array [], s)
        else
          let (data, s) ← parseItems (parseJson levels) (s.length + 2) [] (ch :: s)
          .ok (.array data, s)
      else .error (str "expected value, got " ++ esc ch)

def maxDepth : ℕ := 200

/-- `Json::parse`. -/
def parse (text : Bytes) : Except Bytes (Json D) := do
  let (result, s) ← parseJson F (maxDepth + 1) text
  match s.dropWhile jsonSpace with
  | [] => .ok result
  | c :: _ => .error (str "unexpected trailing " ++ esc c)

/-- A round of the reader loop: `parse` gives `Json()` when it fails, and the loop stops if it has
left a message. -/
def mainRead (text : Bytes) : Except Bytes (Json D) :=
  match parse F text with
  | .ok json => .ok json
  | .error err => if err ≠ [] then .error err else .ok .null

/-! ## What a scanner does -/

/-- `r` is what is left of `s`, and something was read. -/
def Behind (r s : Bytes) : Prop := r <:+ s ∧ r.length < s.length

theorem Behind.trans {r s t : Bytes} (hrs : Behind r s) (hst : Behind s t) : Behind r t :=
  ⟨hrs.1.trans hst.1, hrs.2.trans hst.2⟩

theorem behind_cons (c : UInt8) (s : Bytes) : Behind s (c :: s) :=
  ⟨List.suffix_cons c s, Nat.lt_succ_self _⟩

theorem Behind.cons {r s : Bytes} (h : Behind r s) (c : UInt8) : Behind r (c :: s) :=
  h.trans (behind_cons c s)

/-- The outcome of a scanner on `s`. -/
def Scans {α : Type} (s : Bytes) (P : α → Prop) : Except Bytes (α × Bytes) → Prop
  | .ok (a, r) => P a ∧ Behind r s
  | .error err => err ≠ []

namespace Scans

variable {α β : Type} {r s : Bytes} {P : α → Prop} {Q : β → Prop}
  {x : Except Bytes (α × Bytes)}

theorem imp {P' : α → Prop} (hx : Scans s P x) (himp : ∀ a, P a → P' a) : Scans s P' x := by
  cases x with
  | ok ar => exact ⟨himp ar.1 hx.1, hx.2⟩
  | error err => exact hx

theorem of_suffix (hx : Scans r P x) (hr : r <:+ s) : Scans s P x := by
  cases x with
  | ok ar => exact ⟨hx.1, hx.2.1.trans hr, hx.2.2.trans_le hr.length_le⟩
  | error err => exact hx

/-- A scanner on what another has left. -/
theorem behind (hx : Scans r P x) (hr : Behind r s) : Scans s P x := hx.of_suffix hr.1

/-- What is left may be all that another scanner has left. -/
theorem behind_cons (hx : ∀ c, Scans (c :: r) P x) (hr : Behind r s) : Scans s P x := by
  obtain ⟨front, rfl⟩ := hr.1
  have hne : front ≠ [] := by
    rintro rfl
    exact lt_irrefl _ hr.2
  refine (hx (front.getLast hne)).of_suffix ⟨front.dropLast, ?_⟩
  rw [← List.singleton_append, ← List.append_assoc, List.dropLast_append_getLast hne]

theorem bind {f : α × Bytes → Except Bytes (β × Bytes)} (hx : Scans s P x)
    (hf : ∀ a r, x = .ok (a, r) → P a → Behind r s → Scans s Q (f (a, r))) :
    Scans s Q (x >>= f) := by
  cases x with
  | ok ar => exact hf ar.1 ar.2 rfl hx.1 hx.2
  | error err => exact hx

end Scans

/-- The token and the rest are at the end of the text. -/
theorem getNextToken_suffix {s r : Bytes} {ch : UInt8} (h : getNextToken s = .ok (ch, r)) :
    ch :: r <:+ s := by
  have hsuffix : s.dropWhile jsonSpace <:+ s := List.dropWhile_suffix jsonSpace
  rw [getNextToken] at h
  cases hs : s.dropWhile jsonSpace with
  | nil =>
      rw [hs] at h
      cases h
  | cons c t =>
      rw [hs] at h hsuffix
      cases h
      exact hsuffix

theorem getNextToken_scans (s : Bytes) : Scans s (fun _ => True) (getNextToken s) := by
  cases h : getNextToken s with
  | ok chr =>
      have hsuffix := getNextToken_suffix h
      exact ⟨trivial, (List.suffix_cons _ _).trans hsuffix, hsuffix.length_le⟩
  | error err =>
      rw [getNextToken] at h
      split at h
      · cases h
        exact List.cons_ne_nil _ _
      · cases h

/-- Where no backslash is, a string is what stands between the quotes, and there is none in it. -/
theorem parseString_scans (s out : Bytes) (last : Option ℕ) :
    Scans s (fun value => 0x5c ∉ s → last = none → 0x22 ∉ out → 0x22 ∉ value)
      (parseString out last s) := by
  fun_induction parseString out last s with
  | case1 out last => exact List.cons_ne_nil _ _
  | case2 out last s =>
      refine ⟨?_, behind_cons _ s⟩
      rintro - rfl hout
      simpa [encodeUtf8] using hout
  | case3 out last ch s => exact List.cons_ne_nil _ _
  | case4 out last ch s hquote hctrl hslash ih =>
      refine (ih.imp ?_).behind (behind_cons ch s)
      rintro value hvalue hs rfl hout
      apply hvalue (mt (List.mem_cons_of_mem ch) hs) rfl
      simp [encodeUtf8, hout, Ne.symm hquote]
  | case5 out last ch => exact List.cons_ne_nil _ _
  | case6 out last ch _ _ hslash a b c d s pt _ added last' _ ih =>
      refine (ih.imp ?_).behind ?_
      · rintro value - hs
        exact absurd (by simp [not_not.mp hslash]) hs
      · exact (((((behind_cons d s).cons c).cons b).cons a).cons _).cons ch
  | case7 out last ch _ _ _ a b c d s => exact List.cons_ne_nil _ _
  | case8 out last ch _ _ _ s => exact List.cons_ne_nil _ _
  | case9 out last ch _ _ hslash ch' s _ c _ ih =>
      refine (ih.imp ?_).behind ((behind_cons ch' s).cons ch)
      rintro value - hs
      exact absurd (by simp [not_not.mp hslash]) hs
  | case10 out last ch _ _ _ ch' s => exact List.cons_ne_nil _ _

/-! Scanners in a number. -/

theorem behind_dropWhile {p : UInt8 → Bool} {s : Bytes} (hs : s ≠ [])
    (hfront : p (front s) = true) : Behind (s.dropWhile p) s := by
  obtain ⟨c, r, rfl⟩ := List.exists_cons_of_ne_nil hs
  rw [List.dropWhile_cons_of_pos (a := c) hfront]
  have hsuffix : r.dropWhile p <:+ r := List.dropWhile_suffix p
  exact ⟨hsuffix.trans (List.suffix_cons c r), Nat.lt_succ_of_le hsuffix.length_le⟩

theorem ne_nil_of_isDigit {s : Bytes} (h : isDigit (front s) = true) : s ≠ [] := by
  rintro rfl
  cases h

theorem scanWhole_scans (s : Bytes) : Scans s (fun _ => True) (scanWhole s) := by
  rw [scanWhole]
  split
  · rename_i hzero
    split
    · exact List.cons_ne_nil _ _
    · cases s with
      | nil => cases hzero
      | cons c s => exact ⟨trivial, behind_cons c s⟩
  split
  · rename_i hdigit
    exact ⟨trivial, behind_dropWhile (ne_nil_of_isDigit hdigit) hdigit⟩
  · exact List.cons_ne_nil _ _

theorem scanFraction_scans (c : UInt8) (s : Bytes) :
    Scans (c :: s) (fun _ => True) (scanFraction s) := by
  unfold scanFraction
  split
  · split
    · rename_i hdigit
      exact ⟨trivial, ((behind_dropWhile (ne_nil_of_isDigit hdigit) hdigit).cons _).cons c⟩
    · exact List.cons_ne_nil _ _
  · exact ⟨trivial, behind_cons c s⟩

theorem scanSign_suffix (s : Bytes) : (scanSign s).2 <:+ s := by
  unfold scanSign
  split
  · exact List.suffix_cons _ _
  · exact List.suffix_refl s

theorem scanExponentSign_suffix (s : Bytes) : (scanExponentSign s).2 <:+ s := by
  unfold scanExponentSign
  split
  · exact List.suffix_cons _ _
  · exact List.suffix_cons _ _
  · exact List.suffix_refl s

theorem scanExponent_scans (c : UInt8) (s : Bytes) :
    Scans (c :: s) (fun _ => True) (scanExponent s) := by
  cases s with
  | nil => exact ⟨trivial, behind_cons c []⟩
  | cons d s =>
      rw [scanExponent]
      split
      · have hsign := scanExponentSign_suffix s
        dsimp only
        split
        · rename_i hdigit
          have hbehind := behind_dropWhile (ne_nil_of_isDigit hdigit) hdigit
          have hs : Behind ((scanExponentSign s).2.dropWhile isDigit) s :=
            ⟨hbehind.1.trans hsign, hbehind.2.trans_le hsign.length_le⟩
          exact ⟨trivial, (hs.cons d).cons c⟩
        · exact List.cons_ne_nil _ _
      · exact ⟨trivial, behind_cons c (d :: s)⟩

theorem parseNumber_scans (s : Bytes) : Scans s (fun _ => True) (parseNumber F s) := by
  have hsign := scanSign_suffix s
  rw [parseNumber]
  generalize scanSign s = p at hsign ⊢
  refine ((scanWhole_scans p.2).of_suffix hsign).bind ?_
  rintro whole r - - hr
  dsimp only
  split
  · exact ⟨trivial, hr⟩
  refine (Scans.behind_cons (scanFraction_scans · r) hr).bind ?_
  rintro fraction r - - hr
  refine (Scans.behind_cons (scanExponent_scans · r) hr).bind ?_
  rintro exponent r - - hr
  exact ⟨trivial, hr⟩

theorem expect_scans {α : Type} {expected : Bytes} (hne : expected ≠ []) (res : α) (s : Bytes) :
    Scans s (fun value => value = res) (expect expected res s) := by
  rw [expect]
  split
  · rename_i htake
    refine ⟨rfl, List.drop_suffix _ s, ?_⟩
    have hlen := congrArg List.length htake
    have hpos := List.length_pos_iff.mpr hne
    rw [List.length_take] at hlen
    rw [List.length_drop]
    omega
  · exact List.cons_ne_nil _ _

/-! Values. -/

/-- No string in the value has a quote in it. -/
def QuoteFree (v : Json D) : Prop := ∀ s ∈ v.strings, 0x22 ∉ s

section Loops

variable {parseJson : Bytes → Except Bytes (Json D × Bytes)}
  (hparse : ∀ s, Scans s (fun v => 0x5c ∉ s → QuoteFree v) (parseJson s))
include hparse

theorem parseItems_scans {fuel : ℕ} {s : Bytes} (hfuel : s.length < fuel) (data : List (Json D)) :
    Scans s (fun values => 0x5c ∉ s → (∀ v ∈ data, QuoteFree v) → ∀ v ∈ values, QuoteFree v)
      (parseItems parseJson fuel data s) := by
  induction fuel generalizing s data with
  | zero => exact absurd hfuel (Nat.not_lt_zero _)
  | succ fuel ih =>
      rw [parseItems]
      refine (hparse s).bind ?_
      intro v r _ hv hr
      have hdata : 0x5c ∉ s → (∀ w ∈ data, QuoteFree w) → ∀ w ∈ data ++ [v], QuoteFree w := by
        intro hs hquote w hw
        rcases List.mem_append.mp hw with hw | hw
        · exact hquote w hw
        · exact List.mem_singleton.mp hw ▸ hv hs
      refine ((getNextToken_scans r).behind hr).bind ?_
      rintro ch r' hch - hr'
      dsimp only
      split
      · exact ⟨hdata, hr'⟩
      split
      · exact List.cons_ne_nil _ _
      refine ((getNextToken_scans r').behind hr').bind ?_
      rintro ch' t hch' - ht
      -- the next value begins with the token, which is put back
      have hback : ch' :: t <:+ s :=
        (getNextToken_suffix hch').trans hr'.1
      have hlen := (getNextToken_suffix hch').length_le
      have hlen' := hr'.2
      refine ((ih (by omega) _).of_suffix hback).imp ?_
      intro values hvalues hs hquote
      exact hvalues (mt (fun hmem => hback.subset hmem) hs) (hdata hs hquote)

theorem parseMembers_scans {fuel : ℕ} {s : Bytes} (hfuel : s.length < fuel)
    (data : List (Bytes × Json D)) (ch : UInt8) :
    Scans s (fun values => 0x5c ∉ s → (∀ kv ∈ data, QuoteFree kv.2) → ∀ kv ∈ values, QuoteFree kv.2)
      (parseMembers parseJson fuel data ch s) := by
  induction fuel generalizing s data ch with
  | zero => exact absurd hfuel (Nat.not_lt_zero _)
  | succ fuel ih =>
      rw [parseMembers]
      split
      · exact List.cons_ne_nil _ _
      refine (parseString_scans s [] none).bind ?_
      rintro key r - - hr
      refine ((getNextToken_scans r).behind hr).bind ?_
      rintro ch r - - hr
      dsimp only
      split
      · exact List.cons_ne_nil _ _
      refine ((hparse r).behind hr).bind ?_
      rintro v r' - hv hr'
      have hdata : 0x5c ∉ s → (∀ kv ∈ data, QuoteFree kv.2) →
          ∀ kv ∈ SortedMap.assign key v data, QuoteFree kv.2 := by
        intro hs hquote kv hkv
        rcases SortedMap.mem_assign hkv with rfl | hkv
        · exact hv (mt (fun hmem => hr.1.subset hmem) hs)
        · exact hquote kv hkv
      refine ((getNextToken_scans r').behind hr').bind ?_
      rintro ch r - - hr
      dsimp only
      split
      · exact ⟨hdata, hr⟩
      split
      · exact List.cons_ne_nil _ _
      refine ((getNextToken_scans r).behind hr).bind ?_
      rintro ch t - - ht
      have hlen := ht.2
      refine ((ih (by omega) _ ch).behind ht).imp ?_
      intro values hvalues hs hquote
      exact hvalues (mt (fun hmem => ht.1.subset hmem) hs) (hdata hs hquote)

end Loops

/-- **Every value leaves less text than there was, and every error has a message.** -/
theorem parseJson_scans (levels : ℕ) (s : Bytes) :
    Scans s (fun v => 0x5c ∉ s → QuoteFree v) (parseJson F levels s) := by
  induction levels generalizing s with
  | zero => exact List.cons_ne_nil _ _
  | succ levels ih =>
      rw [parseJson]
      refine (getNextToken_scans s).bind ?_
      rintro ch r hch - hr
      have hback := getNextToken_suffix hch
      have hword : ∀ {word : Bytes} {v : Json D}, word ≠ [] → v.strings = [] →
          Scans s (fun v => 0x5c ∉ s → QuoteFree v) (expect word v (ch :: r)) := by
        intro word v hne hnone
        refine ((expect_scans hne v (ch :: r)).of_suffix hback).imp ?_
        rintro w rfl - q hq
        rw [hnone] at hq
        cases hq
      dsimp only
      split
      · refine ((parseNumber_scans F (ch :: r)).of_suffix hback).bind ?_
        rintro x t - - ht
        exact ⟨fun _ _ hq => absurd hq List.not_mem_nil, ht⟩
      split
      · exact hword (by decide) rfl
      split
      · exact hword (by decide) rfl
      split
      · exact hword (by decide) rfl
      split
      · refine ((parseString_scans r [] none).behind hr).bind ?_
        rintro value t - hvalue ht
        refine ⟨?_, ht⟩
        intro hs q hq
        obtain rfl : q = value := List.mem_singleton.mp hq
        exact hvalue (mt (fun hmem => hr.1.subset hmem) hs) rfl List.not_mem_nil
      split
      · refine ((getNextToken_scans r).behind hr).bind ?_
        rintro ch' t - - ht
        dsimp only
        split
        · exact ⟨fun _ _ hq => absurd hq List.not_mem_nil, ht⟩
        refine ((parseMembers_scans ih (Nat.lt_succ_self _) [] ch').behind ht).bind ?_
        rintro values u - hvalues hu
        refine ⟨?_, hu⟩
        intro hs q hq
        obtain ⟨kv, hkv, hqv⟩ := Json.mem_strings_object.mp hq
        exact hvalues (mt (fun hmem => ht.1.subset hmem) hs) nofun kv hkv q hqv
      split
      · refine ((getNextToken_scans r).behind hr).bind ?_
        rintro ch' t hch' - ht
        have hback' : ch' :: t <:+ s := (getNextToken_suffix hch').trans hr.1
        dsimp only
        split
        · exact ⟨fun _ _ hq => absurd hq List.not_mem_nil, ht⟩
        refine ((parseItems_scans ih (Nat.lt_succ_self _) []).of_suffix hback').bind ?_
        rintro values u - hvalues hu
        refine ⟨?_, hu⟩
        intro hs q hq
        obtain ⟨v, hv, hqv⟩ := Json.mem_strings_array.mp hq
        exact hvalues (mt (fun hmem => hback'.subset hmem) hs) nofun v hv q hqv
      · exact List.cons_ne_nil _ _

/-- What `parse` gives for the whole text. -/
theorem parse_scans (text : Bytes) :
    (∀ v, parse F text = .ok v → 0x5c ∉ text → QuoteFree v) ∧
      ∀ err, parse F text = .error err → err ≠ [] := by
  have hscans := parseJson_scans F (maxDepth + 1) text
  rw [parse]
  cases hjson : parseJson F (maxDepth + 1) text with
  | error err =>
      rw [hjson] at hscans
      refine ⟨fun v h => (by cases h), ?_⟩
      intro err' h
      cases h
      exact hscans
  | ok vr =>
      rw [hjson] at hscans
      dsimp only [bind, Except.bind]
      split
      · refine ⟨?_, fun err h => (by cases h)⟩
        intro v h
        cases h
        exact hscans.1
      · refine ⟨fun v h => (by cases h), ?_⟩
        intro err h
        cases h
        exact List.cons_ne_nil _ _

/-- From a text without backslashes no quote gets into a string. -/
theorem quoteFree_of_parse {text : Bytes} (hslash : 0x5c ∉ text) {v : Json D}
    (h : parse F text = .ok v) : QuoteFree v :=
  (parse_scans F text).1 v h hslash

/-- **The reader loop sees every error.** -/
theorem mainRead_eq_parse (text : Bytes) :
    mainRead F text = (parse F text : Except Bytes (Json D)) := by
  rw [mainRead]
  split
  · rename_i h
    exact h.symm
  · rename_i err h
    rw [if_pos ((parse_scans F text).2 err h), h]

end SecDetector.Usage
