import SecDetector.Handlers.Cases
import SecDetector.Handlers.WorkflowSpec

/-!
# What the handlers of the two cases take and give back
-/

namespace SecDetector.Handlers

open Lib Text
open Report (Tm timeStrMaxLen timestampLen)

variable {stop : List Bool → Prop} {own : Multiset Ptr}

/-! ## The list of kernel modules -/

def ModuleEntry.owned (module : ModuleEntry) : Multiset Ptr :=
  {module.node} + {module.moduleName}

def ownedEntries (list : List ModuleEntry) : Multiset Ptr := (list.map ModuleEntry.owned).sum

@[simp] theorem ownedEntries_nil : ownedEntries [] = 0 := rfl

@[simp] theorem ownedEntries_cons (module : ModuleEntry) (list : List ModuleEntry) :
    ownedEntries (module :: list) = module.owned + ownedEntries list := List.sum_cons

theorem mem_ownedEntries {list : List ModuleEntry} {module : ModuleEntry} (hmem : module ∈ list)
    {h : Ptr} (hh : h ∈ module.owned) : h ∈ ownedEntries list := by
  induction list with
  | nil => cases hmem
  | cons module' list ih =>
      rw [ownedEntries_cons, Multiset.mem_add]
      rcases List.mem_cons.mp hmem with rfl | hmem
      · exact Or.inl hh
      · exact Or.inr (ih hmem)

theorem node_mem_ownedEntries {list : List ModuleEntry} {node : Ptr}
    (hmem : node ∈ list.map ModuleEntry.node) : node ∈ ownedEntries list := by
  obtain ⟨module, hmodule, rfl⟩ := List.mem_map.mp hmem
  exact mem_ownedEntries hmodule (by simp [ModuleEntry.owned])

def entryNames (list : List ModuleEntry) : List Text := list.map ModuleEntry.name

/-- The name is stored in front, unless a request is refused. -/
def NameStored (name : Text) (list : List ModuleEntry) (d : List Bool)
    (r : Option (List ModuleEntry)) : Prop :=
  (r = none ∧ ∃ node moduleName, (node && moduleName) = false ∧ d = inTurn node moduleName) ∨
    ∃ list', r = some list' ∧ d = [true, true] ∧
      entryNames list' = Report.addKmoduleBaselineName name :: entryNames list

theorem turns_addKmoduleBaselineName (name : Text) (list : List ModuleEntry) :
    Turns stop (ownedEntries list) (addKmoduleBaselineName name list)
      (fun r => ownedEntries (r.getD list)) (NameStored name list) := by
  refine .alloc_then (.pure rfl (.inl ⟨rfl, false, true, rfl, rfl⟩)) fun node => ?_
  refine .use_then (by simp) (.alloc_then ?_ fun moduleName => ?_)
  · exact .give_then _ rfl (.pure rfl (.inl ⟨rfl, true, false, rfl, rfl⟩))
  · refine .use_then (by simp)
      (.seqUnasked (turns_relink (by simp) fun next hnext => ?_) fun _ _ => ?_)
    · simp [node_mem_ownedEntries hnext]
    · refine .pure ?_ (.inr ⟨_, rfl, rfl, rfl⟩)
      simp only [Option.getD_some, ownedEntries_cons, ModuleEntry.owned]
      abel

theorem turns_freeKmoduleBaseline (list : List ModuleEntry) :
    Turns stop (ownedEntries list) (freeKmoduleBaseline list) (fun _ => 0)
      (Unasked fun r => r = []) := by
  induction list with
  | nil => exact .pure rfl ⟨rfl, rfl⟩
  | cons module rest ih =>
      refine .seqUnasked (turns_relink (by simp [ModuleEntry.owned]) fun next hnext => ?_)
        fun _ _ => ?_
      · simp [node_mem_ownedEntries hnext]
      refine .use_then (by simp [ModuleEntry.owned]) ?_
      refine .give_then ({module.node} + ownedEntries rest) ?_ (.give_then _ rfl ih)
      rw [ownedEntries_cons, ModuleEntry.owned]
      abel

theorem turns_readNames {all : Ptr} (hall : all ∈ own) {list : List ModuleEntry}
    (hlist : ∀ module ∈ list, ∀ h ∈ module.owned, h ∈ own) :
    Turns stop own (readNames all list) (fun _ => own) (Unasked fun _ => True) := by
  induction list with
  | nil => exact .pure rfl ⟨rfl, trivial⟩
  | cons module rest ih =>
      obtain ⟨hmodule, hrest⟩ := List.forall_mem_cons.mp hlist
      refine .use_then (hmodule _ (by simp [ModuleEntry.owned])) ?_
      exact .use_then (hmodule _ (by simp [ModuleEntry.owned])) (.use_then hall (ih hrest))

/-- The answers to the requests of `report_kmodule_baseline`; `stmStr` and `retStr` are those of
`get_timestamp_str`. -/
def kmoduleAnswers (kzalloc stmStr retStr kmalloc : Bool) : List Bool :=
  kzalloc ::
    if kzalloc then inTurn stmStr retStr ++ if stmStr && retStr then [kmalloc] else [] else []

/-- The record of the value model, with the answers `d` to its requests. -/
def KmoduleRecord (names : List Text) (stm : Tm) (d : List Bool) (record : Option (List UInt8)) :
    Prop :=
  ∃ kzalloc stmStr retStr kmalloc d',
    d = kmoduleAnswers kzalloc stmStr retStr kmalloc ++ d' ∧
    RecordValue (Report.reportKmoduleBaseline names (Report.getTimestampStr stm stmStr retStr)
      kzalloc kmalloc) d' record

theorem isSome_getTimestampStr (stm : Tm) (stmStr retStr : Bool) :
    (Report.getTimestampStr stm stmStr retStr).isSome = (stmStr && retStr) := by
  cases stmStr <;> cases retStr <;> rfl

/-- What follows the timestamp. -/
theorem KmoduleRecord.of_timestamp {names : List Text} {stm : Tm} {stmStr retStr kmalloc : Bool}
    {headerMsg : CString timeStrMaxLen} {d : List Bool} {record : Option (List UInt8)}
    (hts : some headerMsg = Report.getTimestampStr stm stmStr retStr)
    (hvalue : RecordValue (Report.reportKmoduleBaseline names (some headerMsg) true kmalloc) d
      record) :
    KmoduleRecord names stm (true :: (inTurn stmStr retStr ++ (kmalloc :: d))) record := by
  have hgranted := isSome_getTimestampStr stm stmStr retStr
  rw [← hts, Option.isSome_some] at hgranted
  refine ⟨true, stmStr, retStr, kmalloc, d, ?_, hts ▸ hvalue⟩
  simp [kmoduleAnswers, ← hgranted]

theorem turns_reportKmoduleBaseline (list : List ModuleEntry) (stm : Tm) :
    Turns stop (ownedEntries list) (reportKmoduleBaseline list stm)
      (fun _ => ownedEntries list) (KmoduleRecord (entryNames list) stm) := by
  refine .alloc_then (.pure rfl ⟨false, true, true, true, [], rfl, recordValue_none⟩) fun all => ?_
  refine .bind _ (turns_getTimestampStr stm) ?_ (zero_add _).symm
  rintro _ ⟨timestamp, len⟩ ⟨hlen, hpos, stmStr, retStr, rfl, hts⟩
  cases timestamp with
  | none =>
      have hrefused := isSome_getTimestampStr stm stmStr retStr
      rw [← hts, Option.map_none, Option.isSome_none] at hrefused
      refine .give_then (ownedEntries list) (zero_add _) (.pure rfl
        ⟨true, stmStr, retStr, true, [], by simp [kmoduleAnswers, ← hrefused], ?_⟩)
      rw [← hts]
      exact recordValue_none
  | some header =>
      obtain ⟨headerPtr, headerMsg⟩ := header
      obtain rfl : len = headerMsg.length := hlen
      have hlen : headerMsg.length ≠ 0 := (hpos rfl).ne'
      -- the names are held all along, and so is what is given back at the end
      have hfree : ∀ {stop fact} (record : Option (List UInt8)), fact [] record →
          Turns stop ({headerPtr} + ({all} + ownedEntries list))
            (do give headerPtr; give all; pure record) (fun _ => ownedEntries list) fact :=
        fun record hrecord => .give_then _ rfl (.give_then _ rfl (.pure rfl hrecord))
      have hall : all ∈ {headerPtr} + ({all} + ownedEntries list) := by simp
      dsimp only
      rw [if_neg hlen]
      refine .use_then hall ?_
      refine .seqUnasked (turns_readNames hall fun module hmodule h hh => ?_) fun _ _ => ?_
      · simp [mem_ownedEntries hmodule hh]
      refine .alloc_then (hfree none (.of_timestamp hts ?_)) fun text => ?_
      · rw [Report.reportKmoduleBaseline, if_neg hlen]
        exact recordValue_none
      refine .use_then (by simp) (.use_then (by simp) (.use_then (by simp) ?_))
      split
      · rename_i hret
        refine .seq (turns_secDetectorReport _ (by rintro _ ⟨⟩; simp)) ?_
        intro d record hvalue
        refine .give_then _ rfl (hfree _ ?_)
        rw [List.append_nil]
        refine .of_timestamp hts ?_
        rw [Report.reportKmoduleBaseline, if_neg hlen, entryNames]
        dsimp only
        rw [if_pos (And.intro rfl hret)]
        exact hvalue
      · rename_i hret
        refine .give_then _ rfl (hfree none (.of_timestamp hts ?_))
        rw [Report.reportKmoduleBaseline, if_neg hlen, entryNames]
        dsimp only
        rw [if_neg (not_and.mpr fun _ => hret)]
        exact recordValue_none

/-! ## The kset -/

def watchedNames (kset : List Kobject) : List Text :=
  kset.filterMap fun k => if k.watched then k.name else none

/-- The names are stored one by one, the last one in front, until a request is refused. -/
inductive StoredNames : List Text → List Bool → List Text → List Text → Prop
  | nil {stored : List Text} : StoredNames [] [] stored stored
  | refused {name : Text} {names stored : List Text} {node moduleName : Bool}
      (hrefused : (node && moduleName) = false) :
      StoredNames (name :: names) (inTurn node moduleName) stored stored
  | cons {name : Text} {names stored stored' : List Text} {d : List Bool}
      (h : StoredNames names d (Report.addKmoduleBaselineName name :: stored) stored') :
      StoredNames (name :: names) (true :: true :: d) stored stored'

theorem turns_addNames (kset : List Kobject) (list : List ModuleEntry) :
    Turns stop (ownedEntries list) (addNames kset list) ownedEntries
      fun d list' => StoredNames (watchedNames kset) d (entryNames list) (entryNames list') := by
  induction kset generalizing list stop with
  | nil => exact .pure rfl .nil
  | cons k rest ih =>
      obtain ⟨name, watched⟩ := k
      cases name with
      | none => cases watched <;> exact ih list
      | some name =>
          cases watched with
          | false => exact ih list
          | true =>
              refine .seq (turns_addKmoduleBaselineName name list) ?_
              rintro _ _ (⟨rfl, node, moduleName, hrefused, rfl⟩ | ⟨list', rfl, rfl, hnames⟩)
              · refine .pure rfl ?_
                rw [List.append_nil]
                exact .refused hrefused
              · exact (ih list').imp (fun _ _ _ => rfl) fun _ _ h => .cons (hnames ▸ h)

/-- What a round reports: the names that it could store. -/
def KmoduleReport (trylock : Bool) (moduleKset : Option (List Kobject)) (stm : Tm) (d : List Bool)
    (record : Option (List UInt8)) : Prop :=
  match trylock, moduleKset with
  | true, some kset => ∃ d₁ d₂ names, d = d₁ ++ d₂ ∧ StoredNames (watchedNames kset) d₁ [] names ∧
      KmoduleRecord names stm d₂ record
  | _, _ => d = [] ∧ record = none

def KmoduleOf (trylock : Bool) (moduleKset : Option (List Kobject)) (stm : Tm) (d : List Bool)
    (r : List ModuleEntry × Option (List UInt8)) : Prop :=
  r.1 = [] ∧ KmoduleReport trylock moduleKset stm d r.2

theorem turns_checkKmoduleBaseline (moduleKset : Option (List Kobject)) (stm : Tm) :
    Turns stop 0 (checkKmoduleBaseline moduleKset stm []) (fun _ => 0)
      (KmoduleOf true moduleKset stm) := by
  cases moduleKset with
  | none => exact .pure rfl ⟨rfl, rfl, rfl⟩
  | some kset =>
      refine .take_then fun moduleMutex => .take_then fun listLock => ?_
      refine .bind ({moduleMutex} + {listLock}) (turns_addNames kset []) ?_ ?_
      · intro d₁ list hlist
        refine .give_then ({moduleMutex} + ownedEntries list) ?_ (.give_then _ rfl ?_)
        · abel
        refine .seq (turns_reportKmoduleBaseline list stm) fun d₂ record hrecord => ?_
        refine .seqUnasked (turns_freeKmoduleBaseline list) ?_
        rintro _ rfl
        refine .pure rfl ⟨rfl, d₁, d₂, entryNames list, ?_, hlist, hrecord⟩
        rw [List.append_nil]
      · rw [ownedEntries_nil]
        abel

theorem turns_checkWatchingKmodule (trylock : Bool) (moduleKset : Option (List Kobject))
    (stm : Tm) :
    Turns stop 0 (checkWatchingKmodule trylock moduleKset stm []) (fun _ => 0)
      (KmoduleOf trylock moduleKset stm) := by
  cases trylock with
  | false => exact .pure rfl ⟨rfl, rfl, rfl⟩
  | true =>
      refine .take_then fun caseMutex => ?_
      refine .bind {caseMutex} (turns_checkKmoduleBaseline moduleKset stm) ?_ (add_comm _ _)
      refine fun d r hr => .give_then 0 (add_comm _ _) (.pure rfl ?_)
      rw [List.append_nil]
      exact hr

/-! ## Program actions -/

section ProgramActions

open SecDetector.Task

variable {T : Type} {sys : Tasks T} {current : T}

theorem turns_getProcessPath (p : T) {pi : Ptr} (hpi : pi ∈ own) :
    Turns stop own (getProcessPath sys current p pi) (fun _ => own)
      (Unasked fun r => r = Task.getProcessPath sys current p) := by
  unfold getProcessPath Task.getProcessPath
  split
  · exact .pure rfl ⟨rfl, rfl⟩
  · cases (sys.task p).exeFile with
    | none => exact .use_then hpi (.pure rfl ⟨rfl, rfl⟩)
    | some path =>
        refine .take_then fun exeFile => .use_then (by simp [hpi]) ?_
        exact .give_then own rfl (.pure rfl ⟨rfl, rfl⟩)

theorem turns_getTaskPath {fs : Option FsStruct} (hfs : fs.isSome = true) :
    Turns stop 0 (getTaskPath fs) owned (Unasked fun r => r.isSome = true) := by
  obtain ⟨fs, rfl⟩ := Option.isSome_iff_exists.mp hfs
  refine .take_then fun taskLock => .take_then fun path => ?_
  refine .give_then {path} ?_ (.pure rfl ⟨rfl, rfl⟩)
  rw [add_zero, add_comm]

theorem turns_printPath {fs : Option FsStruct} (hfs : fs.isSome = true) {pi : Ptr}
    (hpi : pi ∈ own) :
    Turns stop own (printPath (getTaskPath fs) pi) (fun _ => own) (Unasked fun _ => True) := by
  refine .bindUnasked own (turns_getTaskPath hfs) ?_ (zero_add own).symm
  intro path hpath
  obtain ⟨path, rfl⟩ := Option.isSome_iff_exists.mp hpath
  exact .use_then (by simp [hpi]) (turns_give rfl)

/-- What `get_common_process_info` follows without a test is there. -/
structure Present (task : TaskStruct T) : Prop where
  fs : task.fs.isSome = true
  utsNs : ∃ nsproxy ∈ task.nsproxy, nsproxy.utsNs.isSome = true

theorem turns_getCommonProcessInfo {tsk : T} (hpresent : Present (sys.task tsk))
    (parent : Option T) :
    Turns stop 0 (getCommonProcessInfo sys current (some tsk) parent)
      (fun r => owned (r.map Prod.fst)) fun d r => ∃ kzalloc, d = [kzalloc] ∧
        Task.getCommonProcessInfo sys current kzalloc (some tsk) parent =
          some (r.map Prod.snd) := by
  refine .alloc_then (.pure rfl ⟨false, rfl, rfl⟩) fun pi => ?_
  refine .of_eq (add_zero {pi}) (.use_then (by simp) ?_)
  obtain ⟨fs, hfs⟩ := Option.isSome_iff_exists.mp hpresent.fs
  obtain ⟨nsproxy, hnsproxy, hutsNs⟩ := hpresent.utsNs
  obtain ⟨utsNs, hutsNs⟩ := Option.isSome_iff_exists.mp hutsNs
  have hnsproxy : (sys.task tsk).nsproxy = some nsproxy := hnsproxy
  rw [hfs]
  refine .seqUnasked (turns_getProcessPath tsk (by simp)) ?_
  rintro _ rfl
  cases hpath : Task.getProcessPath sys current tsk with
  | none =>
      refine .give_then 0 rfl (.pure rfl ⟨true, rfl, ?_⟩)
      simp [Task.getCommonProcessInfo, hfs, hpath]
  | some path =>
      have hpi : pi ∈ ({pi} : Multiset Ptr) := Multiset.mem_singleton_self pi
      refine .use_then hpi (.seqUnasked (turns_printPath hpresent.fs hpi) fun _ _ => ?_)
      refine .seqUnasked (turns_printPath hpresent.fs hpi) fun _ _ => ?_
      refine .take_then fun rcu => .use_then (by simp) (.give_then {pi} rfl ?_)
      have hinfo : ∃ info, Task.getCommonProcessInfo sys current true (some tsk) parent =
          some (some info) := by
        simp [Task.getCommonProcessInfo, hfs, hpath, hnsproxy, hutsNs]
      obtain ⟨info, hinfo⟩ := hinfo
      rw [hinfo]
      exact .pure rfl ⟨true, rfl, hinfo⟩

/-- What becomes of the text that the handlers print, with the answers `d`. -/
def ProcessReport (type : BitVec 32) (format : Option (CString timeStrMaxLen) → Text) (stm : Tm)
    (d : List Bool) (record : Option (List UInt8)) : Prop :=
  ∃ stmStr retStr kzalloc d', d = inTurn stmStr retStr ++ (kzalloc :: d') ∧
    RecordValue (if kzalloc then
      some (Report.bufferReport type (format (Report.getTimestampStr stm stmStr retStr))) else none)
      d' record

theorem turns_reportProcess (pi : Ptr) (type : BitVec 32)
    (format : Option (CString timeStrMaxLen) → Text) (stm : Tm) :
    Turns stop {pi} (reportProcess pi type format stm) (fun _ => 0)
      (ProcessReport type format stm) := by
  refine .bind {pi} (turns_getTimestampStr stm) ?_ (zero_add _).symm
  rintro _ ⟨timestamp, len⟩ ⟨-, -, stmStr, retStr, rfl, htimestamp⟩
  refine .alloc_then ?_ fun text => ?_
  · refine .seqUnasked (turns_giveAny rfl) fun _ _ => ?_
    exact .give_then 0 (add_zero _).symm
      (.pure rfl ⟨stmStr, retStr, false, [], rfl, recordValue_none⟩)
  · have hts : ∀ h ∈ timestamp.map Prod.fst, h ∈ ({text} : Multiset Ptr) +
        (ownedTimestamp (timestamp, len) + {pi}) := by
      intro h hh
      rw [ownedTimestamp, hh]
      simp [owned]
    refine .use_then (by simp) (.seqUnasked (turns_useAny hts) fun _ _ => .use_then (by simp) ?_)
    refine .seq (turns_secDetectorReport _ (by rintro _ ⟨⟩; simp)) ?_
    intro d record hrecord
    refine .give_then _ rfl (.seqUnasked (turns_giveAny rfl) fun _ _ => ?_)
    refine .give_then 0 (add_zero _).symm (.pure rfl ⟨stmStr, retStr, true, d, ?_, ?_⟩)
    · rw [List.append_nil]
    · rw [← htimestamp]
      exact hrecord

/-- A probe puts out what its handler does in the value model, with the answers `d`.  If it does not
come to the report, only the description of the task has been asked for. -/
def ProbeRecord (sys : Tasks T) (current : T) (stm : Tm) (reports : Bool)
    (preHandler : Option Report.ProcessInfo → Option (CString timeStrMaxLen) → Bool →
      Option Report.ReportData) (d : List Bool) (record : Option (List UInt8)) : Prop :=
  ∃ kzalloc' info stmStr retStr kzalloc d',
    Task.getCommonProcessInfo sys current kzalloc' (some current) none = some info ∧
    d = kzalloc' :: ((if info.isSome && reports then inTurn stmStr retStr ++ [kzalloc] else []) ++
      d') ∧
    RecordValue (preHandler (info.map CommonProcessInfo.toProcessInfo)
      (Report.getTimestampStr stm stmStr retStr) kzalloc) d' record

def PtraceAttachRecord (sys : Tasks T) (current : T) (args : Option Report.PtraceArgs) (stm : Tm) :
    List Bool → Option (List UInt8) → Prop :=
  ProbeRecord sys current stm args.isSome fun pi => Report.ptraceAttachPreHandler pi args

def DoPipe2Record (sys : Tasks T) (current : T) (stm : Tm) :
    List Bool → Option (List UInt8) → Prop :=
  ProbeRecord sys current stm true Report.doPipe2PreHandler

theorem turns_ptraceAttachPreHandler (hpresent : Present (sys.task current))
    (args : Option Report.PtraceArgs) (stm : Tm) :
    Turns stop 0 (ptraceAttachPreHandler sys current args stm) (fun _ => 0)
      (PtraceAttachRecord sys current args stm) := by
  refine .seq (turns_getCommonProcessInfo hpresent none) ?_
  rintro _ (- | ⟨pi, info⟩) ⟨kzalloc', rfl, hinfo⟩
  · exact .pure rfl ⟨kzalloc', none, true, true, true, [], hinfo, rfl, recordValue_none⟩
  cases args with
  | none =>
      exact .give_then 0 rfl
        (.pure rfl ⟨kzalloc', some info, true, true, true, [], hinfo, rfl, recordValue_none⟩)
  | some args =>
      refine (turns_reportProcess pi _ _ stm).imp (fun _ _ _ => rfl) ?_
      rintro _ _ ⟨stmStr, retStr, kzalloc, d', rfl, hrecord⟩
      exact ⟨kzalloc', some info, stmStr, retStr, kzalloc, d', hinfo, by simp, hrecord⟩

theorem turns_doPipe2PreHandler (hpresent : Present (sys.task current)) (stm : Tm) :
    Turns stop 0 (doPipe2PreHandler sys current stm) (fun _ => 0)
      (DoPipe2Record sys current stm) := by
  refine .seq (turns_getCommonProcessInfo hpresent none) ?_
  rintro _ (- | ⟨pi, info⟩) ⟨kzalloc', rfl, hinfo⟩
  · exact .pure rfl ⟨kzalloc', none, true, true, true, [], hinfo, rfl, recordValue_none⟩
  · refine (turns_reportProcess pi _ _ stm).imp (fun _ _ _ => rfl) ?_
    rintro _ _ ⟨stmStr, retStr, kzalloc, d', rfl, hrecord⟩
    exact ⟨kzalloc', some info, stmStr, retStr, kzalloc, d', hinfo, by simp, hrecord⟩

end ProgramActions

end SecDetector.Handlers
