import SecDetector.Report.Positions

/-!
# Round after round

With memory for everything and the same items in every round, save-check is a comparison of
two lists: the measures of this round and those of the one before.  `changes` is that
comparison, and `save_check_reports_changes` says that a round reports it and that the
baseline is always the list of the last measures.

Of the code only two facts are needed: what the loops leave in the slots
(`slots_initLoop`, `slots_record`) and which items differ from their slots
(`map_differing`).
-/

namespace SecDetector.Report

open Lib Text

variable {sha256 : List UInt8 → Digest} {list : List CollectData}

/-! ## Measures and slots -/

/-- The measures of the named items. -/
def measures (sha256 : List UInt8 → Digest) (list : List CollectData) : List (BitVec 64) :=
  (namedItems list).map fun cd => measureValue sha256 cd.value

/-- The `n` slots from slot `i` on. -/
def slots (data : ℕ → BitVec 64) (i n : ℕ) : List (BitVec 64) :=
  (List.range n).map fun k => data (i + k)

theorem slots_succ (data : ℕ → BitVec 64) (i n : ℕ) :
    slots data i (n + 1) = data i :: slots data (i + 1) n := by
  rw [slots, List.range_succ_eq_map, List.map_cons, List.map_map]
  refine congrArg (data i :: ·) (List.map_congr_left fun k _ => ?_)
  show data (i + (k + 1)) = data (i + 1 + k)
  rw [Nat.add_right_comm, Nat.add_assoc]

@[simp] theorem measures_unnamed (value : CollectValue) :
    measures sha256 (⟨none, value⟩ :: list) = measures sha256 list := rfl

@[simp] theorem measures_named (name : Text) (value : CollectValue) :
    measures sha256 (⟨some name, value⟩ :: list) =
      measureValue sha256 value :: measures sha256 list := rfl

theorem namedCount_named (name : Text) (value : CollectValue) :
    namedCount (⟨some name, value⟩ :: list) = namedCount list + 1 := by
  simp [namedCount]

theorem length_itemNames (list : List CollectData) :
    (itemNames list).length = namedCount list := by
  induction list with
  | nil => rfl
  | cons item rest ih =>
      obtain ⟨name, value⟩ := item
      cases name with
      | none => exact ih
      | some name =>
          rw [namedCount_named, ← ih]
          rfl

/-- Every named item is an integer or a region. -/
def Measurable (list : List CollectData) : Prop :=
  ∀ cd ∈ list, cd.name.isSome = true → cd.value ≠ .other

/-! ## What the loops leave in the slots -/

theorem initLoop_of_lt {i j : ℕ} {data : ℕ → BitVec 64} (hlt : j < i) :
    initLoop sha256 list i data j = data j := by
  induction list generalizing i data with
  | nil => rfl
  | cons item rest ih =>
      obtain ⟨name, value⟩ := item
      cases name with
      | none => exact ih hlt
      | some name =>
          have hlater : ∀ data, initLoop sha256 rest (i + 1) data j = data j := fun data =>
            ih (Nat.lt_succ_of_lt hlt)
          cases value with
          | other => exact hlater data
          | int value | region bytes =>
              calc initLoop sha256 rest (i + 1) (Function.update data i _) j
                  = Function.update data i _ j := hlater _
                _ = data j := Function.update_of_ne (Nat.ne_of_lt hlt) _ _

/-- The first round fills the slots with its measures. -/
theorem slots_initLoop (hlist : Measurable list) (i : ℕ) (data : ℕ → BitVec 64) :
    slots (initLoop sha256 list i data) i (namedCount list) = measures sha256 list := by
  induction list generalizing i data with
  | nil => rfl
  | cons item rest ih =>
      obtain ⟨name, value⟩ := item
      obtain ⟨hvalue, hrest⟩ := List.forall_mem_cons.mp hlist
      cases name with
      | none => exact ih hrest i data
      | some name =>
          have hloop : initLoop sha256 (⟨some name, value⟩ :: rest) i data =
              initLoop sha256 rest (i + 1)
                (Function.update data i (measureValue sha256 value)) := by
            cases value with
            | other => exact absurd rfl (hvalue rfl)
            | int value | region bytes => rfl
          rw [hloop, namedCount_named, slots_succ, ih hrest, initLoop_of_lt (Nat.lt_succ_self i),
            Function.update_self, measures_named]

/-- Writing every differing item makes the slots equal to the measures. -/
theorem slots_record (sha256 : List UInt8 → Digest) (list : List CollectData) (i : ℕ)
    (data : ℕ → BitVec 64) :
    slots (record sha256 (differing sha256 data list i) data) i (namedCount list) =
      measures sha256 list := by
  induction list generalizing i data with
  | nil => rfl
  | cons item rest ih =>
      obtain ⟨name, value⟩ := item
      cases name with
      | none => exact ih i data
      | some name =>
          -- later items have their slots behind
          have hbehind : i ∉ (differing sha256 data rest (i + 1)).map Prod.snd := by
            intro hmem
            obtain ⟨item, hitem, hslot⟩ := List.mem_map.mp hmem
            have hle := differing_slots sha256 data rest (i + 1) item hitem
            omega
          rw [differing_named, namedCount_named, measures_named, slots_succ]
          split
          · have hlater : ∀ j, i + 1 ≤ j →
                Function.update data i (measureValue sha256 value) j = data j := by
              intro j hj
              exact Function.update_of_ne (Nat.ne_of_gt hj) _ _
            rw [record_cons, record_of_not_mem hbehind, Function.update_self,
              ← differing_congr hlater, ih]
          · rename_i hsame
            rw [record_of_not_mem hbehind, ih, not_not.mp hsame]

/-! ## Changes -/

/-- A change of an item: its name, the old and the new measure. -/
abbrev Change := Text × BitVec 64 × BitVec 64

/-- The items whose measures in `old` and in `new` differ, in the order of the list. -/
def changes (names : List Text) (old new : List (BitVec 64)) : List Change :=
  (names.zip (old.zip new)).filter fun change => change.2.1 ≠ change.2.2

theorem changes_cons (name : Text) (names : List Text) (oldValue newValue : BitVec 64)
    (old new : List (BitVec 64)) :
    changes (name :: names) (oldValue :: old) (newValue :: new) =
      if newValue ≠ oldValue then (name, oldValue, newValue) :: changes names old new
      else changes names old new := by
  rw [changes, List.zip_cons_cons, List.zip_cons_cons, List.filter_cons]
  by_cases hsame : newValue = oldValue
  · simp [hsame, changes]
  · simp [hsame, Ne.symm hsame, changes]

/-- There is a change if some item has another measure than before. -/
theorem changes_ne_nil_iff {names : List Text} {old new : List (BitVec 64)}
    (hold : old.length = names.length) (hnew : new.length = names.length) :
    changes names old new ≠ [] ↔ ∃ i < names.length, old[i]? ≠ new[i]? := by
  induction names generalizing old new with
  | nil => simp [changes]
  | cons name names ih =>
      obtain ⟨oldValue, old, rfl⟩ := List.exists_cons_of_length_eq_add_one hold
      obtain ⟨newValue, new, rfl⟩ := List.exists_cons_of_length_eq_add_one hnew
      have hold := Nat.succ.inj hold
      have hnew := Nat.succ.inj hnew
      rw [changes_cons, List.length_cons]
      simp only [Nat.exists_lt_succ_left, List.getElem?_cons_zero, List.getElem?_cons_succ]
      rw [← ih hold hnew]
      by_cases hsame : newValue = oldValue
      · simp [hsame]
      · simp [hsame, Ne.symm hsame]

/-- The differing items are the changes since the slots were filled. -/
theorem map_differing (sha256 : List UInt8 → Digest) (list : List CollectData) (i : ℕ)
    (data : ℕ → BitVec 64) :
    (differing sha256 data list i).map (fun item =>
        (item.1.name.getD .empty, data item.2, measureValue sha256 item.1.value)) =
      changes (itemNames list) (slots data i (namedCount list)) (measures sha256 list) := by
  induction list generalizing i with
  | nil => rfl
  | cons item rest ih =>
      obtain ⟨name, value⟩ := item
      cases name with
      | none => exact ih i
      | some name =>
          have hnames : itemNames (⟨some name, value⟩ :: rest) = name :: itemNames rest := rfl
          rw [differing_named, namedCount_named, slots_succ, measures_named, hnames, changes_cons,
            ← ih]
          split
          · rfl
          · rfl

/-! ## The report -/

/-- What a report says about a change. -/
def changeText (change : Change) : Text :=
  ascii " secswitch_name=" (ascii_check " secswitch_name=" trivial) ++ change.1 ++
    ascii " old_value=" (ascii_check " old_value=" trivial) ++ decimal change.2.1.toNat ++
    ascii " new_value=" (ascii_check " new_value=" trivial) ++ decimal change.2.2.toNat ++
    ascii "." (ascii_check "." trivial)

/-- What a report says. -/
def changesText (changed : List Change) (timestamp : Option (CString timeStrMaxLen)) : Text :=
  concat (changed.map changeText) ++ ascii "\n" (ascii_check "\n" trivial) ++
    timestampText timestamp

@[simp] theorem text_itemLine (name : Text) (oldValue newValue : BitVec 64) :
    (itemLine name oldValue newValue).text = changeText (name, oldValue, newValue) := rfl

theorem text_foldl_strcat (lines : List Buffer) (b : Buffer) :
    (lines.foldl (fun text line => text.strcat line.text) b).text =
      b.text ++ concat (lines.map Buffer.text) := by
  induction lines generalizing b with
  | nil => exact (append_empty _).symm
  | cons line lines ih =>
      rw [List.foldl_cons, ih, Buffer.text_strcat, List.map_cons, concat_cons, append_assoc]

theorem text_reportText (len : ℕ) (lines : List Buffer)
    (timestamp : Option (CString timeStrMaxLen)) :
    (reportText len lines timestamp).text =
      concat (lines.map Buffer.text) ++ ascii "\n" ++ timestampText timestamp := by
  have hlines : (lines.foldl (fun text line => text.strcat line.text)
      (Buffer.alloc (len + 1))).text = concat (lines.map Buffer.text) := by
    rw [text_foldl_strcat, Buffer.text_alloc, empty_append]
  cases timestamp with
  | none =>
      rw [timestampText, Option.elim_none, append_empty, ← hlines]
      rfl
  | some ts =>
      rw [timestampText, Option.elim_some, ← hlines]
      rfl

/-- The lines of the report are the changes. -/
theorem map_text_reportLines (sha256 : List UInt8 → Digest) (list : List CollectData)
    (data : ℕ → BitVec 64) :
    (reportLines sha256 data (differing sha256 data list 0)).map Buffer.text =
      (changes (itemNames list) (slots data 0 (namedCount list))
        (measures sha256 list)).map changeText := by
  rw [← map_differing, reportLines, List.map_map, List.map_map]
  exact List.map_congr_left fun _ _ => rfl

/-! ## Rounds -/

/-- A call of `analyze_save_check`. -/
def Round.result (sha256 : List UInt8 → Digest) (round : Round) (status : SaveCheckData) :
    ℤ × SaveCheckData × Option ReportData :=
  analyzeSaveCheck sha256 round.list status round.eventType round.fresh round.allocs
    round.timestamp

/-- A baseline, and the measures of the last round, if there was one. -/
structure Watch where
  status : SaveCheckData
  last : Option (List (BitVec 64))

def watchStep (sha256 : List UInt8 → Digest) (watch : Watch) (round : Round) : Option Watch :=
  some ⟨(round.result sha256 watch.status).2.1, some (measures sha256 round.list)⟩

/-- Before the first round. -/
structure WatchInit (watch : Watch) : Prop where
  initTag : watch.status.initTag = false
  last : watch.last = none

/-- A round over the items called `names`, with memory for everything. -/
structure Presents (names : List Text) (round : Round) : Prop where
  names : itemNames round.list = names
  measurable : Measurable round.list
  fresh : round.fresh.isSome = true
  arrays : round.allocs.arrays = true
  line : ∀ k, round.allocs.line k = true
  text : round.allocs.text = true

/-- What a round over the items called `names` is to do. -/
structure ReportsChanges (sha256 : List UInt8 → Digest) (names : List Text) (watch : Watch)
    (round : Round) : Prop where
  /-- The first round reports nothing. -/
  first : watch.last = none → (round.result sha256 watch.status).1 = responseOk ∧
    (round.result sha256 watch.status).2.2 = none
  /-- A later one does so if a measure is not what it was. -/
  later : ∀ old, watch.last = some old →
    ((round.result sha256 watch.status).1 = responseReport ↔
      ∃ i < names.length, old[i]? ≠ (measures sha256 round.list)[i]?)
  report : ∀ old, watch.last = some old →
    (round.result sha256 watch.status).1 = responseReport →
      ∃ log, (round.result sha256 watch.status).2.2 = some log ∧ log.type = round.eventType ∧
        log.text.text =
          changesText (changes names old (measures sha256 round.list)) round.timestamp
  quiet : (round.result sha256 watch.status).1 ≠ responseReport →
    (round.result sha256 watch.status).1 = responseOk ∧
      (round.result sha256 watch.status).2.2 = none
  baseline : (round.result sha256 watch.status).2.1.len = names.length ∧
    slots (round.result sha256 watch.status).2.1.data 0 names.length = measures sha256 round.list

/-- The baseline holds the measures of the last round. -/
def WatchInv (names : List Text) (watch : Watch) : Prop :=
  match watch.last with
  | none => watch.status.initTag = false
  | some old => watch.status.initTag = true ∧ watch.status.len = names.length ∧
      slots watch.status.data 0 names.length = old

section Rounds

variable {names : List Text} {watch : Watch} {round : Round}

/-- The first round. -/
theorem Presents.first (hround : Presents names round) (sha256 : List UInt8 → Digest)
    {status : SaveCheckData} (htag : status.initTag = false) :
    (round.result sha256 status).1 = responseOk ∧ (round.result sha256 status).2.2 = none ∧
      (round.result sha256 status).2.1.initTag = true ∧
      (round.result sha256 status).2.1.len = names.length ∧
      slots (round.result sha256 status).2.1.data 0 names.length =
        measures sha256 round.list := by
  obtain ⟨data, hfresh⟩ := Option.isSome_iff_exists.mp hround.fresh
  have hcount : namedCount round.list = names.length := by
    rw [← length_itemNames, hround.names]
  have hresult : round.result sha256 status = (responseOk,
      ⟨initLoop sha256 round.list 0 data, namedCount round.list, true⟩, none) := by
    rw [Round.result, analyzeSaveCheck, htag, hfresh]
    rfl
  rw [hresult]
  refine ⟨rfl, rfl, rfl, hcount, ?_⟩
  rw [← hcount]
  exact slots_initLoop hround.measurable 0 data

/-- A later round, by the changes since the slots were filled. -/
theorem Presents.later (hround : Presents names round) (sha256 : List UInt8 → Digest)
    {status : SaveCheckData} (htag : status.initTag = true) {changed : List Change}
    (hchanged : changed =
      changes names (slots status.data 0 names.length) (measures sha256 round.list)) :
    slots (round.result sha256 status).2.1.data 0 names.length = measures sha256 round.list ∧
      if changed = [] then
        (round.result sha256 status).1 = responseOk ∧ (round.result sha256 status).2.2 = none
      else
        (round.result sha256 status).1 = responseReport ∧
          ∃ log, (round.result sha256 status).2.2 = some log ∧ log.type = round.eventType ∧
            log.text.text = changesText changed round.timestamp := by
  have hcount : namedCount round.list = names.length := by
    rw [← length_itemNames, hround.names]
  obtain ⟨hdata, hlines, hdone⟩ := normalLoop_round sha256 round.allocs.line round.list status.data
  have hgranted : granted round.allocs.line 0 (differing sha256 status.data round.list 0) =
      differing sha256 status.data round.list 0 :=
    granted_eq_self_iff.mpr fun i _ => hround.line (0 + i)
  rw [hgranted] at hdata hlines
  have htexts := map_text_reportLines sha256 round.list status.data
  rw [← hlines, hround.names, hcount, ← hchanged] at htexts
  have hempty : (normalLoop sha256 round.allocs.line round.list ⟨0, status.data, [], 0⟩).1.lines =
      [] ↔ changed = [] := by
    rw [← List.map_eq_nil_iff (f := Buffer.text), htexts, List.map_eq_nil_iff]
  have hslots := slots_record sha256 round.list 0 status.data
  rw [← hdata, hcount] at hslots
  unfold Round.result analyzeSaveCheck analyzeSaveCheckNormal
  rw [if_pos htag, if_pos hround.arrays]
  generalize normalLoop sha256 round.allocs.line round.list ⟨0, status.data, [], 0⟩ = result at *
  obtain ⟨p, done⟩ := result
  obtain rfl : done = true := hdone.mpr fun i _ => hround.line i
  dsimp only at htexts hempty hslots ⊢
  rw [if_pos rfl]
  split
  · rename_i hnone
    rw [if_pos (hempty.mp (List.isEmpty_iff.mp hnone))]
    exact ⟨hslots, rfl, rfl⟩
  · rename_i hsome
    rw [if_neg fun hnil => hsome (List.isEmpty_iff.mpr (hempty.mpr hnil)), if_pos hround.text]
    refine ⟨hslots, rfl, _, rfl, rfl, ?_⟩
    rw [text_reportText, htexts]
    rfl

/-- The first round reports nothing. -/
theorem reports_first (hround : Presents names round) (hlast : watch.last = none)
    (htag : watch.status.initTag = false) :
    ReportsChanges sha256 names watch round ∧
      ∀ watch', watchStep sha256 watch round = some watch' → WatchInv names watch' := by
  obtain ⟨hret, hlog, htag', hlen, hslots⟩ := hround.first sha256 htag
  refine ⟨⟨fun _ => ⟨hret, hlog⟩, ?_, ?_, fun _ => ⟨hret, hlog⟩, hlen, hslots⟩, ?_⟩
  · rw [hlast]
    exact fun old hold => nomatch hold
  · rw [hlast]
    exact fun old hold => nomatch hold
  · intro watch' hstep
    obtain rfl := Option.some.inj hstep
    exact ⟨htag', hlen, hslots⟩

/-- A later round reports what differs from the slots. -/
theorem reports_later (hround : Presents names round)
    (hlast : watch.last = some (slots watch.status.data 0 names.length))
    (htag : watch.status.initTag = true) (hlen : watch.status.len = names.length) :
    ReportsChanges sha256 names watch round ∧
      ∀ watch', watchStep sha256 watch round = some watch' → WatchInv names watch' := by
  obtain ⟨hslots, hresult⟩ := hround.later sha256 htag rfl
  have hold : (slots watch.status.data 0 names.length).length = names.length := by simp [slots]
  have hnew : (measures sha256 round.list).length = names.length := by
    rw [← hslots]
    simp [slots]
  have hchange := changes_ne_nil_iff hold hnew
  obtain ⟨hlen', htag'⟩ := normal_status sha256 round.list watch.status round.eventType
    round.allocs round.timestamp
  have hnormal : round.result sha256 watch.status = analyzeSaveCheckNormal sha256 round.list
      watch.status round.eventType round.allocs round.timestamp := if_pos htag
  rw [← hnormal, hlen] at hlen'
  rw [← hnormal, htag] at htag'
  refine ⟨⟨?_, ?_, ?_, ?_, hlen', hslots⟩, ?_⟩
  · rw [hlast]
    exact fun hnone => nomatch hnone
  · intro old hold'
    obtain rfl := Option.some.inj (hlast.symm.trans hold')
    rw [← hchange]
    split at hresult
    · rename_i hnil
      exact iff_of_false (by rw [hresult.1]; decide) (not_not.mpr hnil)
    · rename_i hsome
      exact iff_of_true hresult.1 hsome
  · intro old hold' hret
    obtain rfl := Option.some.inj (hlast.symm.trans hold')
    split at hresult
    · rw [hresult.1] at hret
      exact absurd hret (by decide)
    · exact hresult.2
  · intro hret
    split at hresult
    · exact hresult
    · exact absurd hresult.1 hret
  · intro watch' hstep
    obtain rfl := Option.some.inj hstep
    exact ⟨htag', hlen', hslots⟩

/-- **One round.** -/
theorem WatchInv.reports (hinv : WatchInv names watch) (hround : Presents names round) :
    ReportsChanges sha256 names watch round ∧
      ∀ watch', watchStep sha256 watch round = some watch' → WatchInv names watch' := by
  unfold WatchInv at hinv
  cases hlast : watch.last with
  | none =>
      rw [hlast] at hinv
      exact reports_first hround hlast hinv
  | some old =>
      rw [hlast] at hinv
      obtain ⟨htag, hlen, rfl⟩ := hinv
      exact reports_later hround hlast htag hlen

end Rounds

/-- **Save-check reports exactly the changes**, in every round over the same items. -/
theorem save_check_reports_changes {names : List Text} {rounds : List Round} {watch : Watch}
    (hrun : Run (watchStep sha256) (fun _ => Presents names) WatchInit rounds watch)
    {round : Round} (hround : Presents names round) :
    ReportsChanges sha256 names watch round := by
  have hinv : WatchInv names watch := by
    refine hrun.invariant (fun watch hinit => ?_) fun watch round watch' hinv hround hstep =>
      (hinv.reports hround).2 watch' hstep
    rw [WatchInv, hinit.last]
    exact hinit.initTag
  exact (hinv.reports hround).1

/-- A round over two switches, with nothing in the way. -/
def twoSwitchRound (smep smap : BitVec 64) : Round where
  list := [⟨some (ascii "SMEP" (ascii_check "SMEP" trivial)), .int smep⟩, ⟨none, .other⟩,
    ⟨some (ascii "SMAP" (ascii_check "SMAP" trivial)), .int smap⟩]
  eventType := 0
  fresh := some fun _ => 0
  allocs := ⟨true, fun _ => true, true⟩
  timestamp := none

theorem presents_twoSwitchRound (smep smap : BitVec 64) :
    Presents [ascii "SMEP", ascii "SMAP"] (twoSwitchRound smep smap) where
  names := rfl
  measurable := by simp [Measurable, twoSwitchRound]
  fresh := rfl
  arrays := rfl
  line _ := rfl
  text := rfl

/-- Both switches are on in the first round, and the second one is off in the next. -/
theorem save_check_reports_changes_twoSwitches :
    ∃ watch, Run (watchStep fun _ _ => 0) (fun _ => Presents [ascii "SMEP", ascii "SMAP"])
        WatchInit [twoSwitchRound 1 1] watch ∧ watch.last = some [1, 1] ∧
      ReportsChanges (fun _ _ => 0) [ascii "SMEP", ascii "SMAP"] watch (twoSwitchRound 1 0) := by
  have hstart : Run (watchStep fun _ _ => 0) (fun _ => Presents [ascii "SMEP", ascii "SMAP"])
      WatchInit [] ⟨⟨fun _ => 0, 0, false⟩, none⟩ := .start ⟨rfl, rfl⟩
  have hfirst := hstart.next (presents_twoSwitchRound 1 1) rfl
  exact ⟨_, hfirst, rfl, save_check_reports_changes hfirst (presents_twoSwitchRound 1 0)⟩

end SecDetector.Report
