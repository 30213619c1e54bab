import SecDetector.Usage.GetData
import SecDetector.Usage.Lines

/-!
# The readings can be told from what is printed

The keys of the program have neither arrows nor colons, none ends with a digit, and its arrays have
objects in them.  So the lines of every value that `get_data` gives can be told apart
(`distinct_getData`), and if there is nothing to escape in two of them, the reader loop prints the
same for both exactly if they have the same leaves (`mainRound_eq_iff`).
-/

namespace SecDetector.Usage

open SecDetector.Lib

instance (k : Bytes) : Decidable (DistinctKey k) :=
  decidable_of_iff (k ≠ [] ∧ (k.all fun c => c != 0x3e) = true ∧ 0x3a ∉ k ∧
      (k.reverse.head?.all fun c => !isDigit c) = true)
    ⟨fun ⟨hne, harrow, hcolon, hdigit⟩ => ⟨hne, List.all_eq_true.mp harrow, hcolon, fun c hc => by
        simpa using (Option.all_eq_true _ _).mp hdigit c hc⟩,
      fun h => ⟨h.ne_nil, List.all_eq_true.mpr h.no_arrow, h.no_colon,
        (Option.all_eq_true _ _).mpr fun c hc => by simp [h.no_digit c hc]⟩⟩

/-! ## The values of `get_data` -/

section Distinct

variable {D : Type}

/-- The keys are checked by evaluation. -/
theorem distinct_ofMembers {members : List (Bytes × Json D)}
    (hkeys : (members.all fun member => decide (DistinctKey member.1)) = true)
    (hvalues : ∀ member ∈ members, Distinct member.2) : Distinct (Json.ofMembers members) := by
  refine .object (fun kv hkv => ?_) fun kv hkv => hvalues kv (SortedMap.mem_of_mem_ofList hkv)
  exact of_decide_eq_true (List.all_eq_true.mp hkeys kv (SortedMap.mem_of_mem_ofList hkv))

/-- An array of objects. -/
theorem distinct_array {values : List (Json D)}
    (hvalues : ∀ v ∈ values, Distinct v ∧ ∃ members, v = .object members) :
    Distinct (.array values) := by
  refine .array (fun v hv => (hvalues v hv).1) fun v hv w hw => ?_
  obtain ⟨members, rfl⟩ := (hvalues v hv).2
  cases hw

theorem distinct_map {α : Type} {f : α → Json D}
    (hf : ∀ a, Distinct (f a) ∧ ∃ members, f a = .object members) (l : List α) :
    Distinct (.array (l.map f)) :=
  distinct_array (List.forall_mem_map.mpr fun a _ => hf a)

variable (F : NumberFormat D)

theorem distinct_tcp4data (c : Option TcpStatCount) (b : TcpBuffer) :
    Distinct (tcp4data F c b) := by
  have hcount : Distinct (tcp4statcount F c) := by
    cases c with
    | none => exact distinct_ofMembers rfl nofun
    | some c =>
        apply distinct_ofMembers rfl
        simp [int, Distinct.number]
  have hbuffer : Distinct (tcp4buffer F b) := by
    apply distinct_ofMembers rfl
    simp [int, Distinct.number]
  apply distinct_ofMembers rfl
  simp [hcount, hbuffer]

theorem distinct_updateCpuUsage (usage : Option (D × D)) : Distinct (updateCpuUsage usage) := by
  cases usage with
  | none => exact distinct_ofMembers rfl nofun
  | some usage =>
      apply distinct_ofMembers rfl
      simp [Distinct.number]

theorem distinct_fsObject (fs : FileSystemInfo) :
    Distinct (fsObject (D := D) fs) ∧ ∃ members, fsObject (D := D) fs = .object members := by
  refine ⟨distinct_ofMembers rfl ?_, _, rfl⟩
  simp [Distinct.string]

theorem distinct_getInfofileJson (maxSystem openSystem maxProcess : ℤ)
    (filesystems : List FileSystemInfo) :
    Distinct (getInfofileJson F maxSystem openSystem maxProcess filesystems) := by
  have husage : Distinct (getFileUsageJson F maxSystem openSystem maxProcess 0 0) := by
    apply distinct_ofMembers rfl
    simp [int, Distinct.number]
  apply distinct_ofMembers rfl
  simp [husage, distinct_map distinct_fsObject]

theorem distinct_getAllMemoryInfo (m : MemoryReading D) : Distinct (getAllMemoryInfo F m) := by
  apply distinct_ofMembers rfl
  simp [int, Distinct.number]

theorem distinct_getProcessesInfoAll (processes threads children : ℤ) (ratio : D) :
    Distinct (getProcessesInfoAll F processes threads children ratio) := by
  apply distinct_ofMembers rfl
  simp [int, Distinct.number, Distinct.string]

theorem distinct_connectionObject (c : ConnectionInfo) :
    Distinct (connectionObject (D := D) c) ∧
      ∃ members, connectionObject (D := D) c = .object members := by
  refine ⟨distinct_ofMembers rfl ?_, _, rfl⟩
  simp [Distinct.string]

theorem distinct_getSSHInfoAll (ssh loggedIn : List ConnectionInfo) :
    Distinct (getSSHInfoAll F ssh loggedIn) := by
  apply distinct_ofMembers rfl
  simp [int, Distinct.number, distinct_map distinct_connectionObject]

theorem distinct_diskUsageObject (d : DiskUsage) (diff : Option D) :
    Distinct (diskUsageObject d diff) ∧ ∃ members, diskUsageObject d diff = .object members := by
  refine ⟨?_, _, rfl⟩
  cases diff with
  | none =>
      apply distinct_ofMembers rfl
      simp [Distinct.string]
  | some diff =>
      apply distinct_ofMembers rfl
      simp [Distinct.string, Distinct.number]

end Distinct

section GetData

variable {D : Type} [Zero D] [Add D] [Sub D] {F : NumberFormat D}
  {previous previous' : List DiskUsage} {r r' : Readings D} {json json' : Json D}
  {next next' : List DiskUsage}

/-- Every round of the loop adds the object of an entry. -/
theorem diskUsageArray_foldlM {entries : List (DiskUsage × ℕ)} {st st' : DiskLoop D}
    (hloop : entries.foldlM (diskUsageStep F.stod previous) st = some st')
    (hitems : ∀ v ∈ st.diskUsageArray, ∃ d diff, v = diskUsageObject d diff) :
    ∀ v ∈ st'.diskUsageArray, ∃ d diff, v = diskUsageObject d diff := by
  induction entries generalizing st with
  | nil =>
      cases hloop
      exact hitems
  | cons entry entries ih =>
      rw [List.foldlM_cons] at hloop
      obtain ⟨mid, hstep, hrest⟩ := Option.bind_eq_some_iff.mp hloop
      obtain ⟨diskUsage, i⟩ := entry
      obtain ⟨diff, -, hstep⟩ := Option.bind_eq_some_iff.mp hstep
      obtain ⟨used, -, hstep⟩ := Option.bind_eq_some_iff.mp hstep
      obtain ⟨available, -, hstep⟩ := Option.bind_eq_some_iff.mp hstep
      cases hstep
      refine ih hrest (List.forall_mem_append.mpr ⟨hitems, ?_⟩)
      exact List.forall_mem_singleton.mpr ⟨diskUsage, diff, rfl⟩

theorem distinct_getDiskUsageString {df : Option Bytes} {report : Json D}
    (h : getDiskUsageString F.stod previous df = some (report, next)) : Distinct report := by
  obtain ⟨st, hloop, hst⟩ := Option.bind_eq_some_iff.mp h
  cases hst
  have harray : Distinct (.array st.diskUsageArray) := by
    refine distinct_array fun v hv => ?_
    obtain ⟨d, diff, rfl⟩ := diskUsageArray_foldlM hloop nofun v hv
    exact distinct_diskUsageObject d diff
  apply distinct_ofMembers rfl
  simp [Distinct.number, harray]

/-- **The lines of a value can be told apart.** -/
theorem distinct_getData (h : getData F previous r = some (json, next)) : Distinct json := by
  obtain ⟨⟨diskinfo, list⟩, hdisk, hjson⟩ := Option.bind_eq_some_iff.mp h
  cases hjson
  apply distinct_ofMembers rfl
  simp only [List.forall_mem_cons]
  exact ⟨distinct_tcp4data F _ _, distinct_updateCpuUsage _, distinct_getDiskUsageString hdisk,
    distinct_getInfofileJson F _ _ _ _, distinct_getAllMemoryInfo F _,
    distinct_getProcessesInfoAll F _ _ _ _, distinct_getSSHInfoAll F _ _, nofun⟩

/-! ## What is printed -/

theorem mainRound_backendThread (h : getData F previous r = some (json, next))
    (hplain : Unescaped F json) :
    mainRound F (backendThread F json) = .ok (convertJson F json) := by
  obtain ⟨values, rfl, hreadable⟩ := getData_object h
  rw [mainRound, (mainRead_backendThread_iff F hreadable).mpr hplain]
  rfl

/-- **From what is printed of a value, every reading can be told**: what is printed of two values
with nothing to escape is the same exactly if their leaves are. -/
theorem mainRound_eq_iff (h : getData F previous r = some (json, next))
    (h' : getData F previous' r' = some (json', next')) (hplain : Unescaped F json)
    (hplain' : Unescaped F json') :
    mainRound F (backendThread F json) = mainRound F (backendThread F json') ↔
      json.leaves = json'.leaves := by
  rw [mainRound_backendThread h hplain, mainRound_backendThread h' hplain', Except.ok.injEq]
  exact convertJson_eq_iff (distinct_getData h) (distinct_getData h') hplain.numbers hplain'.numbers

end GetData

/-- Two hosts that differ in where their filesystem is mounted. -/
theorem mainRound_eq_iff_quiet :
    ∃ json json' next next', getData integers [] (quietHost (str "/home")) = some (json, next) ∧
      getData integers [] (quietHost (str "/data")) = some (json', next') ∧
      (mainRound integers (backendThread integers json) =
        mainRound integers (backendThread integers json') ↔ json.leaves = json'.leaves) := by
  have hplain : ∀ mountPoint ∈ [str "/home", str "/data"], ∃ json next,
      getData integers [] (quietHost mountPoint) = some (json, next) ∧ Unescaped integers json := by
    intro mountPoint hmem
    have hfacts : ((getData integers [] (quietHost mountPoint)).map fun j =>
        decide (∀ s ∈ j.1.strings, Plain s)) = some true := by
      revert mountPoint
      decide +kernel
    obtain ⟨⟨json, next⟩, h, hjson⟩ := Option.map_eq_some_iff.mp hfacts
    exact ⟨json, next, h, of_decide_eq_true hjson, fun _ _ => rfl⟩
  obtain ⟨json, next, h, hjson⟩ := hplain (str "/home") (by simp)
  obtain ⟨json', next', h', hjson'⟩ := hplain (str "/data") (by simp)
  exact ⟨json, json', next, next', h, h', mainRound_eq_iff h h' hjson hjson'⟩

end SecDetector.Usage
