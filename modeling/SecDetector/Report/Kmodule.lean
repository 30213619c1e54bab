import SecDetector.Lib.Greedy
import SecDetector.Report.Cases
import SecDetector.Report.Sizes

/-!
# The list of kernel modules fits

`report_kmodule_baseline` collects the names of the modules in one buffer of `NAME_LEN` bytes
and leaves room in it for the timestamp, which is printed in front of it afterwards.  A name
that does not fit is left out, and shorter ones behind it may still come.

`chosenNames` is this selection, as a `greedy` one, and `kmodule_report_faithful` says that
the buffer and the report hold exactly the chosen ones of the names, each cut to what is stored
of it, and that nothing is written past the buffer or past the report.
-/

namespace SecDetector.Report

open Lib Text Buffer

variable {names : List Text} {headerMsgLen : ℕ} {b : Buffer}

/-! ## The loop -/

/-- What a name and its separator take. -/
def entryLen (name : Text) : ℕ := name.length + (ascii ", " (ascii_check ", " trivial)).length

/-- The names that are taken into the text `t`: those that leave room for the timestamp and
for a terminator. -/
def chosenNames (headerMsgLen : ℕ) (t : Text) (names : List Text) : List Text :=
  greedy entryLen (nameLen - 1 - headerMsgLen - t.length) names

theorem entryLen_eq (name : Text) : entryLen name = name.length + 2 := rfl

/-- The test of the loop says that the entry fits into the room that is left. -/
theorem lt_iff_entryLen_le (name t : Text) :
    t.length + name.length < nameLen - 2 - headerMsgLen ↔
      entryLen name ≤ nameLen - 1 - headerMsgLen - t.length := by
  rw [entryLen_eq, nameLen]
  omega

/-- The text after an entry. -/
theorem text_entry (b : Buffer) (name : Text) :
    ((b.strcat name).strcat (ascii ", ")).text = b.text ++ (name ++ ascii ", ") := by
  rw [text_strcat, text_strcat, append_assoc]

/-- **The loop appends the chosen names**, each with its separator. -/
theorem appendNames_text (headerMsgLen : ℕ) (names : List Text) (b : Buffer) :
    (appendNames headerMsgLen names b).text =
      b.text ++ concat ((chosenNames headerMsgLen b.text names).map (· ++ ascii ", ")) := by
  induction names generalizing b with
  | nil => exact (append_empty b.text).symm
  | cons name names ih =>
      rw [appendNames, chosenNames, greedy]
      by_cases hfits : b.text.length + name.length < nameLen - 2 - headerMsgLen
      · have hroom :
            nameLen - 1 - headerMsgLen - ((b.strcat name).strcat (ascii ", ")).text.length =
              nameLen - 1 - headerMsgLen - b.text.length - entryLen name := by
          rw [text_entry, length_append, length_append, entryLen]
          omega
        rw [if_pos hfits, if_pos ((lt_iff_entryLen_le name b.text).mp hfits), ih, chosenNames,
          hroom, text_entry, List.map_cons, concat_cons, append_assoc]
      · rw [if_neg hfits, if_neg (mt (lt_iff_entryLen_le name b.text).mpr hfits), ih, chosenNames]

theorem appendNames_tight (htight : b.Tight) : (appendNames headerMsgLen names b).Tight := by
  induction names generalizing b with
  | nil => exact htight
  | cons name names ih =>
      rw [appendNames]
      split
      · exact ih ((htight.strcat name).strcat _)
      · exact ih htight

theorem size_appendNames (headerMsgLen : ℕ) (names : List Text) (b : Buffer) :
    (appendNames headerMsgLen names b).size = b.size := by
  induction names generalizing b with
  | nil => rfl
  | cons name names ih =>
      rw [appendNames]
      split
      · rw [ih, size_strcat, size_strcat]
      · rw [ih]

/-! ## The buffer -/

/-- What the text begins with. -/
def kmodulePrefix : Text :=
  ascii "event_type=kmodulelist module_name="
    (ascii_check "event_type=kmodulelist module_name=" trivial)

theorem length_entries (names : List Text) :
    (concat (names.map (· ++ ascii ", "))).length = (names.map entryLen).sum := by
  induction names with
  | nil => rfl
  | cons name names ih =>
      rw [List.map_cons, concat_cons, length_append, length_append, ih, List.map_cons,
        List.sum_cons, entryLen]

theorem moduleNameAll_text (headerMsgLen : ℕ) (names : List Text) :
    (moduleNameAll headerMsgLen names).text = kmodulePrefix ++
      concat ((chosenNames headerMsgLen kmodulePrefix names).map (· ++ ascii ", ")) :=
  appendNames_text headerMsgLen names _

theorem moduleNameAll_tight (headerMsgLen : ℕ) (names : List Text) :
    (moduleNameAll headerMsgLen names).Tight := by
  apply appendNames_tight
  show max 0 (0 + kmodulePrefix.length + 1) = (empty ++ kmodulePrefix).length + 1
  rw [empty_append]
  omega

/-- The timestamp fits behind the names. -/
theorem length_moduleNameAll_add_le (msg : CString timeStrMaxLen) (names : List Text) :
    (moduleNameAll msg.length names).text.length + msg.length < nameLen := by
  have hmsg : msg.length < 100 := msg.length_lt
  have hprefix : kmodulePrefix.length = 35 := rfl
  have hsum := sum_greedy_le entryLen (nameLen - 1 - msg.length - kmodulePrefix.length) names
  rw [moduleNameAll_text, length_append, length_entries, chosenNames, nameLen] at *
  omega

theorem moduleNameAll_inBounds (msg : CString timeStrMaxLen) (names : List Text) :
    (moduleNameAll msg.length names).InBounds := by
  have hle := length_moduleNameAll_add_le msg names
  have hsize : (moduleNameAll msg.length names).size = nameLen := size_appendNames _ _ _
  rw [(moduleNameAll_tight _ _).inBounds_iff, hsize]
  omega

/-- If there is room for all names, all are chosen. -/
theorem chosenNames_eq_self
    (h : kmodulePrefix.length + (names.map entryLen).sum + headerMsgLen < nameLen) :
    chosenNames headerMsgLen kmodulePrefix names = names :=
  greedy_eq_self (by omega)

/-! ## The report -/

/-- What is printed into a buffer of its own length stays in it. -/
theorem snprintf_fits {type : BitVec 32} {len : ℕ} (hlen : 0 < len) (out : Text) :
    ReportFits ⟨type, (Buffer.alloc len).snprintf len out, len⟩ := by
  have hlt : (out.take (len - 1)).length < len := by
    rw [length_take]
    omega
  exact ⟨(tight_strcpy len _).inBounds_iff.mpr hlt, hlt⟩

/-- The names as the list has them, in its order. -/
def storedNames (names : List Text) : List Text := names.map (·.take (nameLen - 1))

/-- At most 4095 bytes of a name are stored. -/
theorem addKmoduleBaselineName_eq (name : Text) :
    addKmoduleBaselineName name = name.take (nameLen - 1) := by
  rw [addKmoduleBaselineName]
  split
  · rename_i hlt
    rw [take_of_le le_rfl, take_of_le (by omega)]
  · rfl

/-- What is reported of the list. -/
def kmoduleText (names : List Text) (msg : CString timeStrMaxLen) : Text :=
  msg.toText ++ (kmodulePrefix ++
    concat ((chosenNames msg.length kmodulePrefix names).map
      (· ++ ascii ", " (ascii_check ", " trivial))))

/-- The newline is what the bound of `scnprintf` cuts off. -/
theorem reportKmoduleBaseline_text {msg : CString timeStrMaxLen} {kzalloc kmalloc : Bool}
    {log : ReportData}
    (hreport : reportKmoduleBaseline names (some msg) kzalloc kmalloc = some log) :
    log.text.text = kmoduleText names msg := by
  obtain ⟨msg', hmsg', -, hlen, htext⟩ := reportKmoduleBaseline_report hreport
  obtain rfl := Option.some.inj hmsg'
  have hnewline : (ascii "\n").length = 1 := rfl
  have hcut : log.len - 1 = (msg.toText ++ (moduleNameAll msg.length names).text).length := by
    rw [hlen, kmoduleFormat, length_append, hnewline, Nat.add_sub_cancel]
  have htake : (kmoduleFormat msg names).take (log.len - 1) =
      msg.toText ++ (moduleNameAll msg.length names).text := by
    rw [hcut, kmoduleFormat]
    exact Text.ext List.take_left
  rw [htext, htake, moduleNameAll_text, kmoduleText]

/-- The list of `names` is reported in bounds, and with exactly the names that fit, each cut to
what was stored of it. -/
structure KmoduleFaithful (names : List Text) (msg : CString timeStrMaxLen) : Prop where
  inBounds : (moduleNameAll msg.length (names.map addKmoduleBaselineName)).InBounds
  text : (moduleNameAll msg.length (names.map addKmoduleBaselineName)).text = kmodulePrefix ++
    concat ((chosenNames msg.length kmodulePrefix (storedNames names)).map (· ++ ascii ", "))
  all : kmodulePrefix.length + ((storedNames names).map entryLen).sum + msg.length < nameLen →
    chosenNames msg.length kmodulePrefix (storedNames names) = storedNames names
  reported : ∃ log,
    reportKmoduleBaseline (names.map addKmoduleBaselineName) (some msg) true true = some log
  report : ∀ kmalloc log,
    reportKmoduleBaseline (names.map addKmoduleBaselineName) (some msg) true kmalloc = some log →
      ReportFits log ∧ log.len ≤ nameLen ∧ log.text.text = kmoduleText (storedNames names) msg

/-- **The list of kernel modules is reported faithfully**, whatever the modules are called and
however many there are. -/
theorem kmodule_report_faithful (names : List Text) (msg : CString timeStrMaxLen)
    (hmsg : 0 < msg.length) : KmoduleFaithful names msg := by
  have hstored : names.map addKmoduleBaselineName = storedNames names :=
    List.map_congr_left fun name _ => addKmoduleBaselineName_eq name
  have hle := length_moduleNameAll_add_le msg (storedNames names)
  constructor
  · exact moduleNameAll_inBounds msg _
  · rw [hstored, moduleNameAll_text]
  · exact chosenNames_eq_self
  · have hpos := length_kmoduleFormat_pos msg (names.map addKmoduleBaselineName)
    apply Option.ne_none_iff_exists'.mp
    rw [reportKmoduleBaseline]
    dsimp only
    rw [if_neg (Nat.ne_of_gt hmsg), if_pos ⟨rfl, by rw [scnprintfRet]; omega⟩]
    exact Option.some_ne_none _
  · intro kmalloc log hreport
    rw [hstored] at hreport
    refine ⟨?_, ?_, reportKmoduleBaseline_text hreport⟩
    all_goals
      rw [reportKmoduleBaseline] at hreport
      dsimp only at hreport
      rw [if_neg (Nat.ne_of_gt hmsg)] at hreport
      split at hreport
    · obtain rfl := Option.some.inj hreport
      exact snprintf_fits (Nat.succ_pos _) _
    · cases hreport
    · obtain rfl := Option.some.inj hreport
      exact hle
    · cases hreport

/-- A name of 5000 bytes, which is cut and does not fit even so. -/
def longName : Text :=
  ⟨List.replicate 5000 0x61, fun h => absurd (List.eq_of_mem_replicate h) (by decide)⟩

/-- Three modules and the timestamp of a day. -/
theorem kmodule_report_faithful_three :
    KmoduleFaithful [ascii "xfs", longName, ascii "ext4"]
      (.ofText (ascii "timestamp=20231103.10:00:00 ") (by decide)) :=
  kmodule_report_faithful _ _ (by decide)

end SecDetector.Report
