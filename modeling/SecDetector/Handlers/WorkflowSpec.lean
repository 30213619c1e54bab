import Mathlib.Data.Fin.VecNotation
import SecDetector.Handlers.Workflow
import SecDetector.Report.Sizes

/-!
# What a round of a preset workflow takes and gives back

For every function of a round there is a triple.  Its fact ties the result to that of the value
model, whose requests are answered by `d`, the answers that the function itself has got.
-/

namespace SecDetector.Handlers

open Lib Text
open Report (CollectData CollectValue SaveCheckData ReportData Arch Registers Digest Tm eNomem
  timeStrMaxLen timestampLen)

variable {stop : List Bool → Prop}

/-! ## Items -/

def ItemValue.owned : ItemValue → Multiset Ptr
  | .int _ => 0
  | .region addr _ => {addr}

def Item.owned (cd : Item) : Multiset Ptr := {cd.node} + ({cd.namePtr} + cd.value.owned)

def ownedItems (list : List Item) : Multiset Ptr := (list.map Item.owned).sum

@[simp] theorem ownedItems_cons (cd : Item) (list : List Item) :
    ownedItems (cd :: list) = cd.owned + ownedItems list := List.sum_cons

theorem ownedItems_concat (list : List Item) (cd : Item) :
    ownedItems (list ++ [cd]) = cd.owned + ownedItems list := by
  simp [ownedItems, add_comm]

/-- The items of a list can be used. -/
def Readable (own : Multiset Ptr) (list : List Item) : Prop :=
  ∀ cd ∈ list, ∀ h ∈ cd.owned, h ∈ own

theorem readable_ownedItems (list : List Item) (extra : Multiset Ptr) :
    Readable (ownedItems list + extra) list := by
  intro cd hcd h hh
  rw [Multiset.mem_add]
  left
  induction list with
  | nil => cases hcd
  | cons cd' list ih =>
      rw [ownedItems_cons, Multiset.mem_add]
      rcases List.mem_cons.mp hcd with rfl | hcd
      · exact Or.inl hh
      · exact Or.inr (ih hcd)

def ItemValue.toCollectValue : ItemValue → CollectValue
  | .int value => .int value
  | .region _ bytes => .region bytes

/-- The item in the value model. -/
def Item.toCollectData (cd : Item) : CollectData := ⟨some cd.name, cd.value.toCollectValue⟩

/-- What `init_collect_data` has taken. -/
def ownedHead : Option (ItemValue → Item) → Multiset Ptr
  | none => 0
  | some cd => {(cd (.int 0)).node} + {(cd (.int 0)).namePtr}

/-- The answers to two requests, of which the second is made only if the first is granted. -/
def inTurn (first second : Bool) : List Bool := first :: if first then [second] else []

/-- The answers to the requests of `init_collect_data`. -/
def itemAnswers (name : Option Text) (allocs : Report.CollectAllocs) : List Bool :=
  if name.isSome then inTurn allocs.data allocs.name else []

/-- The item is there, or a request was refused, as in the value model. -/
def HeadOf (name : Option Text) (d : List Bool) (r : Option (ItemValue → Item)) : Prop :=
  ∃ allocs, d = itemAnswers name allocs ∧
    ((r = none ∧ Report.initCollectData name allocs = none) ∨
      ∃ node namePtr text, r = some (Item.mk node namePtr text) ∧ name = some text ∧
        allocs = ⟨true, true⟩)

theorem turns_initCollectData (name : Option Text) :
    Turns stop 0 (initCollectData name) ownedHead (HeadOf name) := by
  cases name with
  | none => exact .pure rfl ⟨⟨true, true⟩, rfl, .inl ⟨rfl, rfl⟩⟩
  | some name =>
      refine .alloc_then (.pure rfl ⟨⟨false, true⟩, rfl, .inl ⟨rfl, rfl⟩⟩) fun cd => ?_
      refine .use_then (by simp) (.alloc_then ?_ fun namePtr => ?_)
      · exact .give_then _ rfl (.pure rfl ⟨⟨true, false⟩, rfl, .inl ⟨rfl, rfl⟩⟩)
      · refine .use_then (by simp) (.pure ?_ ⟨⟨true, true⟩, rfl, .inr ?_⟩)
        · rw [ownedHead, add_zero, add_comm]
        · exact ⟨cd, namePtr, name, rfl, rfl, rfl⟩

theorem turns_freeCollectData (cd : Item) :
    Turns stop cd.owned (freeCollectData cd) (fun _ => 0) (Unasked fun _ => True) := by
  obtain ⟨node, namePtr, name, value⟩ := cd
  refine .use_then (by simp [Item.owned]) (.give_then ({node} + value.owned) ?_ ?_)
  · simp only [Item.owned]
    abel
  refine .use_then (by simp) ?_
  cases value with
  | int v => exact turns_give rfl
  | region addr bytes => exact .give_then _ (add_comm _ _) (turns_give (add_zero _).symm)

theorem turns_relink {own : Multiset Ptr} {node : Ptr} {rest : List Ptr} (hnode : node ∈ own)
    (hrest : ∀ next ∈ rest, next ∈ own) :
    Turns stop own (relink node rest) (fun _ => own) (Unasked fun _ => True) := by
  refine .use_then hnode ?_
  cases rest with
  | nil => exact .pure rfl ⟨rfl, trivial⟩
  | cons next rest => exact turns_use (hrest next List.mem_cons_self)

theorem turns_freeCollectDataList (list : List Item) :
    Turns stop (ownedItems list) (freeCollectDataList list) (fun _ => 0)
      (Unasked fun _ => True) := by
  induction list with
  | nil => exact .pure rfl ⟨rfl, trivial⟩
  | cons node rest ih =>
      refine .seqUnasked (turns_relink (by simp [Item.owned]) fun next hnext => ?_) fun _ _ => ?_
      · obtain ⟨cd, hcd, rfl⟩ := List.mem_map.mp hnext
        rw [ownedItems_cons, add_comm]
        exact readable_ownedItems rest _ cd hcd _ (by simp [Item.owned])
      exact .bindUnasked _ (turns_freeCollectData node)
        (fun _ _ => (zero_add (ownedItems rest)).symm ▸ ih) (ownedItems_cons node rest)

/-! ## Collecting -/

/-- The answers to the requests for the items of one architecture. -/
def switchAnswers (arch : Arch) (allocs : Fin 4 → Report.CollectAllocs) : List Bool :=
  match arch with
  | .x86_64 => inTurn (allocs 0).data (allocs 0).name ++
      (inTurn (allocs 1).data (allocs 1).name ++ inTurn (allocs 2).data (allocs 2).name)
  | .aarch64 => inTurn (allocs 3).data (allocs 3).name
  | .other => []

/-- The list after a unit is that of the value model, with the answers `d` to its requests. -/
def CollectUnit.Yields :
    CollectUnit → List Bool → List CollectData → List CollectData → Prop
  | .functionSwitch arch registers, d, list, list' => ∃ allocs, d = switchAnswers arch allocs ∧
      list' = Report.collectFunctionSwitch arch registers allocs list
  | .time stm, d, list, list' => ∃ (kmalloc : Bool) (allocs : Report.CollectAllocs),
      d = (kmalloc :: if kmalloc then inTurn allocs.data allocs.name else []) ∧
        list' = Report.collectTime (if kmalloc then some stm else none) allocs list

def Yields : List CollectUnit → List Bool → List CollectData → List CollectData → Prop
  | [], d, list, list' => d = [] ∧ list' = list
  | unit :: units, d, list, list' => ∃ d₁ d₂ mid, d = d₁ ++ d₂ ∧ unit.Yields d₁ list mid ∧
      Yields units d₂ mid list'

def values (list : List Item) : List CollectData := list.map Item.toCollectData

theorem values_concat (list : List Item) (cd : Item) :
    values (list ++ [cd]) = values list ++ [cd.toCollectData] := by
  simp [values]

theorem turns_listAddTail (cd : Item) (list : List Item) :
    Turns stop (cd.owned + ownedItems list) (listAddTail cd list) ownedItems
      (Unasked fun r => r = list ++ [cd]) := by
  refine .use_then (by simp [Item.owned]) ?_
  cases hlast : list.getLast? with
  | none =>
      rw [List.getLast?_eq_none_iff.mp hlast]
      exact .pure (ownedItems_concat [] cd).symm ⟨rfl, rfl⟩
  | some last =>
      refine .use_then ?_ (.pure (ownedItems_concat list cd).symm ⟨rfl, rfl⟩)
      rw [add_comm]
      exact readable_ownedItems list _ last (List.mem_of_getLast? hlast) _ (by simp [Item.owned])

/-- What the four functions for the switches yield. -/
def TagYields (name : Option Text) (value : BitVec 64) (d : List Bool)
    (list list' : List CollectData) : Prop :=
  ∃ allocs, d = itemAnswers name allocs ∧ list' = Report.collectTag name value allocs list

theorem turns_collectTag (name : Option Text) (value : BitVec 64) (list : List Item) :
    Turns stop (ownedItems list) (collectTag name value list) ownedItems
      fun d r => TagYields name value d (values list) (values r) := by
  refine .bind _ (turns_initCollectData name) ?_ (zero_add _).symm
  rintro _ _ ⟨allocs, rfl, ⟨rfl, hnone⟩ | ⟨node, namePtr, text, rfl, rfl, rfl⟩⟩
  · refine .pure (zero_add _) ⟨allocs, List.append_nil _, ?_⟩
    rw [Report.collectTag, hnone]
  · refine (turns_listAddTail ⟨node, namePtr, text, .int value⟩ list).imp (fun _ _ _ => rfl) ?_
    rintro _ _ ⟨rfl, rfl⟩
    exact ⟨⟨true, true⟩, List.append_nil _, values_concat _ _⟩

theorem turns_collectFunctionSwitch (arch : Arch) (registers : Registers) (list : List Item) :
    Turns stop (ownedItems list) (collectFunctionSwitch arch registers list) ownedItems
      fun d r => (CollectUnit.functionSwitch arch registers).Yields d (values list)
        (values r) := by
  refine .seq (turns_collectTag _ _ list) ?_
  rintro _ smep ⟨a₀, rfl, hsmep⟩
  refine .seq (turns_collectTag _ _ smep) ?_
  rintro _ smap ⟨a₁, rfl, hsmap⟩
  refine .seq (turns_collectTag _ _ smap) ?_
  rintro _ wp ⟨a₂, rfl, hwp⟩
  refine (turns_collectTag _ _ wp).imp (fun _ _ _ => rfl) ?_
  rintro _ wxn ⟨a₃, rfl, hwxn⟩
  refine ⟨![a₀, a₁, a₂, a₃], ?_, ?_⟩
  · cases arch <;> simp [itemAnswers, switchAnswers]
  · rw [hwxn, hwp, hsmap, hsmep]
    rfl

theorem turns_collectTime (stm : List UInt8) (list : List Item) :
    Turns stop (ownedItems list) (collectTime stm list) ownedItems
      fun d r => (CollectUnit.time stm).Yields d (values list) (values r) := by
  refine .alloc_then (.pure rfl ⟨false, ⟨true, true⟩, rfl, rfl⟩) fun addr => ?_
  refine .use_then (by simp) (.bind _ (turns_initCollectData _) ?_ (zero_add _).symm)
  rintro _ _ ⟨allocs, rfl, ⟨rfl, hnone⟩ | ⟨node, namePtr, text, rfl, hname, rfl⟩⟩
  · refine .give_then _ (zero_add _) (.pure rfl ⟨true, allocs, ?_, ?_⟩)
    · simp [itemAnswers]
    · unfold Report.collectTime
      rw [hnone]
      rfl
  · obtain rfl := Option.some.inj hname
    refine .of_eq ?_ ((turns_listAddTail ⟨node, namePtr, _, .region addr stm⟩ list).imp
      (fun _ _ _ => rfl) ?_)
    · simp only [ownedHead, Item.owned, ItemValue.owned]
      abel
    · rintro _ _ ⟨rfl, rfl⟩
      exact ⟨true, ⟨true, true⟩, rfl, values_concat _ _⟩

theorem turns_collect (units : List CollectUnit) (list : List Item) :
    Turns stop (ownedItems list) (collect units list) ownedItems
      fun d r => Yields units d (values list) (values r) := by
  induction units generalizing list stop with
  | nil => exact .pure rfl ⟨rfl, rfl⟩
  | cons unit units ih =>
      have hunit : Turns stop (ownedItems list) (unit.collectFunc list) ownedItems
          fun d r => unit.Yields d (values list) (values r) := by
        cases unit with
        | functionSwitch arch registers => exact turns_collectFunctionSwitch arch registers list
        | time stm => exact turns_collectTime stm list
      refine .seq hunit fun d mid hmid => (ih mid).imp (fun _ _ _ => rfl) ?_
      exact fun d' r hr => ⟨d, d', values mid, rfl, hmid, hr⟩

/-! ## The timestamp -/

def ownedTimestamp (r : Option (Ptr × CString timeStrMaxLen) × ℕ) : Multiset Ptr :=
  owned (r.1.map Prod.fst)

/-- A string that is there is not empty, and its length is what is returned. -/
structure TimestampOf (stm : Tm) (d : List Bool) (r : Option (Ptr × CString timeStrMaxLen) × ℕ) :
    Prop where
  len : r.2 = timestampLen (r.1.map Prod.snd)
  pos : r.1.isSome = true → 0 < r.2
  value : ∃ kzalloc kstrdup, d = inTurn kzalloc kstrdup ∧
    r.1.map Prod.snd = Report.getTimestampStr stm kzalloc kstrdup

/-- The text begins with its name. -/
theorem timestamp_length_pos {stm : Tm} {str : CString timeStrMaxLen}
    (hstr : Report.getTimestampStr stm true true = some str) : 0 < str.length := by
  obtain rfl := Option.some.inj hstr
  show 0 < ((Report.timestampFormat stm).take (timeStrMaxLen - 1)).length
  rw [length_take]
  refine lt_min (by decide) ?_
  simp only [Report.timestampFormat, length_append]
  have hname : (ascii "timestamp=").length = 10 := rfl
  omega

theorem turns_getTimestampStr (stm : Tm) :
    Turns stop 0 (getTimestampStr stm) ownedTimestamp (TimestampOf stm) := by
  refine .alloc_then (.pure rfl ⟨rfl, nofun, false, false, rfl, rfl⟩) fun stmStr => ?_
  refine .use_then (by simp) ?_
  obtain ⟨str, hstr⟩ : ∃ str, Report.getTimestampStr stm true true = some str := ⟨_, rfl⟩
  have hpos := timestamp_length_pos hstr
  rw [hstr]
  dsimp only
  rw [if_neg hpos.ne']
  refine .use_then (by simp) (.alloc_then ?_ fun retStr => ?_)
  · exact .give_then _ rfl (.pure rfl ⟨rfl, nofun, true, false, rfl, rfl⟩)
  · refine .use_then (by simp) (.give_then _ (add_left_comm _ _ _) (.pure (add_zero _) ?_))
    exact ⟨rfl, fun _ => hpos, true, true, rfl, hstr.symm⟩

/-! ## Save-check -/

section SaveCheck

variable {sha256 : List UInt8 → Digest} {own : Multiset Ptr}

theorem turns_measureValue {cd : Item} (hcd : ∀ h ∈ cd.owned, h ∈ own) :
    Turns stop own (measureValue sha256 cd) (fun _ => own)
      (Unasked fun m => m = Report.measureValue sha256 cd.value.toCollectValue) := by
  obtain ⟨node, namePtr, name, value⟩ := cd
  refine .use_then (hcd _ (by simp [Item.owned])) ?_
  cases value with
  | int v => exact .pure rfl ⟨rfl, rfl⟩
  | region addr bytes =>
      exact .use_then (hcd _ (by simp [Item.owned, ItemValue.owned])) (.pure rfl ⟨rfl, rfl⟩)

theorem turns_countItems {list : List Item} (hlist : Readable own list) :
    Turns stop own (countItems list) (fun _ => own) (Unasked fun n => n = list.length) := by
  induction list with
  | nil => exact .pure rfl ⟨rfl, rfl⟩
  | cons cd rest ih =>
      obtain ⟨hcd, hrest⟩ := List.forall_mem_cons.mp hlist
      refine .use_then (hcd _ (by simp [Item.owned])) (.seqUnasked (ih hrest) ?_)
      rintro n rfl
      exact .pure rfl ⟨rfl, rfl⟩

theorem turns_initLoop {list : List Item} {data : Ptr} (hlist : Readable own list)
    (hdata : data ∈ own) (i : ℕ) (saved : ℕ → BitVec 64) :
    Turns stop own (initLoop sha256 data list i saved) (fun _ => own)
      (Unasked fun saved' => saved' = Report.initLoop sha256 (values list) i saved) := by
  induction list generalizing i saved with
  | nil => exact .pure rfl ⟨rfl, rfl⟩
  | cons cd rest ih =>
      obtain ⟨hcd, hrest⟩ := List.forall_mem_cons.mp hlist
      refine .seqUnasked (turns_measureValue hcd) ?_
      rintro _ rfl
      refine .use_then hdata ((ih hrest _ _).imp (fun _ _ _ => rfl) ?_)
      rintro _ _ ⟨rfl, rfl⟩
      obtain ⟨node, namePtr, name, value⟩ := cd
      cases value <;> exact ⟨rfl, rfl⟩

/-- `response_arrays` in the value model. -/
def ownedLines (lines : List (Ptr × Buffer)) : Multiset Ptr := (lines.map Prod.fst : List Ptr)

@[simp] theorem ownedLines_cons (line : Ptr × Buffer) (lines : List (Ptr × Buffer)) :
    ownedLines (line :: lines) = {line.1} + ownedLines lines := rfl

theorem ownedLines_concat (lines : List (Ptr × Buffer)) (line : Ptr × Buffer) :
    ownedLines (lines ++ [line]) = {line.1} + ownedLines lines := by
  rw [ownedLines, List.map_append, ← Multiset.coe_add, add_comm]
  rfl

def Progress.value (p : Progress) : Report.Progress :=
  ⟨p.dataIndex, p.saved, p.lines.map Prod.snd, p.charLen⟩

/-- The loop asks for the lines that are still to come only. -/
theorem normalLoop_congr {kzalloc kzalloc' : ℕ → Bool} (list : List CollectData)
    (p : Report.Progress) (h : ∀ i, p.lines.length ≤ i → kzalloc i = kzalloc' i) :
    Report.normalLoop sha256 kzalloc list p = Report.normalLoop sha256 kzalloc' list p := by
  induction list generalizing p with
  | nil => rfl
  | cons cd rest ih =>
      obtain ⟨name, value⟩ := cd
      cases name with
      | none =>
          unfold Report.normalLoop
          exact ih p h
      | some name =>
          simp only [Report.normalLoop]
          rw [h _ le_rfl, ih { p with dataIndex := p.dataIndex + 1 } h]
          split
          · split
            · refine ih _ fun i hi => h i (le_trans ?_ hi)
              simp
            · rfl
          · rfl

/-- The loop did what it does in the value model, with the answers `d` for the lines that are still
to come. -/
structure LoopOf (sha256 : List UInt8 → Digest) (list : List Item) (p : Progress) (d : List Bool)
    (r : Progress × Bool) : Prop where
  value : ∃ line n, Report.normalLoop sha256 line (values list) p.value = (r.1.value, r.2) ∧
    r.1.lines.length = p.lines.length + n ∧
    d = (List.range' p.lines.length (n + if r.2 then 0 else 1)).map line
  refused : r.2 = false → false ∈ d

/-- The progress after a line. -/
def Progress.add (p : Progress) (linePtr : Ptr) (name : Text) (measure : BitVec 64) : Progress :=
  let line := Report.itemLine name (p.saved p.dataIndex) measure
  { dataIndex := p.dataIndex + 1
    saved := Function.update p.saved p.dataIndex measure
    lines := p.lines ++ [(linePtr, line)]
    charLen := (p.charLen + line.text.length) % 2 ^ 32 }

section Loop

variable {cd : Item} {rest : List Item} {p : Progress} {d : List Bool} {r : Progress × Bool}

theorem LoopOf.same
    (hsame : ¬ Report.measureValue sha256 cd.value.toCollectValue ≠ p.saved p.dataIndex)
    (h : LoopOf sha256 rest { p with dataIndex := p.dataIndex + 1 } d r) :
    LoopOf sha256 (cd :: rest) p d r := by
  obtain ⟨⟨line, n, hloop, hn, hd⟩, hrefused⟩ := h
  refine ⟨⟨line, n, Eq.trans ?_ hloop, hn, hd⟩, hrefused⟩
  exact if_neg hsame

theorem LoopOf.stopped
    (hchanged : Report.measureValue sha256 cd.value.toCollectValue ≠ p.saved p.dataIndex) :
    LoopOf sha256 (cd :: rest) p [false] (p, false) :=
  ⟨⟨fun _ => false, 0, if_pos hchanged, rfl, rfl⟩, fun _ => List.mem_singleton_self false⟩

theorem LoopOf.line {linePtr : Ptr}
    (hchanged : Report.measureValue sha256 cd.value.toCollectValue ≠ p.saved p.dataIndex)
    (h : LoopOf sha256 rest
      (p.add linePtr cd.name (Report.measureValue sha256 cd.value.toCollectValue)) d r) :
    LoopOf sha256 (cd :: rest) p (true :: d) r := by
  obtain ⟨⟨line, n, hloop, hn, rfl⟩, hrefused⟩ := h
  have hadd : (p.add linePtr cd.name
      (Report.measureValue sha256 cd.value.toCollectValue)).lines.length = p.lines.length + 1 := by
    simp [Progress.add]
  rw [hadd] at hn hrefused ⊢
  -- the answer to this request, and those to the later ones
  have hlater : ∀ i, p.lines.length + 1 ≤ i →
      Function.update line p.lines.length true i = line i := fun i hi =>
    Function.update_of_ne (Nat.ne_of_gt hi) _ _
  refine ⟨⟨Function.update line p.lines.length true, n + 1, ?_, by omega, ?_⟩, fun h =>
    List.mem_cons_of_mem true (hrefused h)⟩
  · have hlength : p.value.lines.length = p.lines.length := List.length_map _
    refine (if_pos hchanged).trans ((if_pos ?_).trans ?_)
    · rw [hlength]
      exact Function.update_self _ _ _
    refine (normalLoop_congr _ _ fun i hi => hlater i ?_).trans (Eq.trans ?_ hloop)
    · rw [List.length_append, List.length_singleton, hlength] at hi
      exact hi
    · simp [Progress.add, Progress.value, values]
  · rw [Nat.add_right_comm, List.range'_succ, List.map_cons, Function.update_self]
    refine congrArg (true :: ·) (List.map_congr_left fun i hi => (hlater i ?_).symm)
    exact (List.mem_range'_1.mp hi).1

end Loop

theorem turns_normalLoop {list : List Item} {arrays data : Ptr} (hlist : Readable own list)
    (harrays : arrays ∈ own) (hdata : data ∈ own) (p : Progress) :
    Turns stop (ownedLines p.lines + own) (normalLoop sha256 arrays data list p)
      (fun r => ownedLines r.1.lines + own) (LoopOf sha256 list p) := by
  have hown : ∀ {h : Ptr} {lines : Multiset Ptr}, h ∈ own → h ∈ lines + own := fun hmem =>
    Multiset.mem_add.mpr (Or.inr hmem)
  induction list generalizing p stop with
  | nil => exact .pure rfl ⟨⟨fun _ => true, 0, rfl, rfl, rfl⟩, nofun⟩
  | cons cd rest ih =>
      obtain ⟨hcd, hrest⟩ := List.forall_mem_cons.mp hlist
      have hname : cd.namePtr ∈ own := hcd _ (by simp [Item.owned])
      refine .seqUnasked (turns_measureValue fun h hh => hown (hcd h hh)) ?_
      rintro _ rfl
      refine .use_then (hown hdata) ?_
      by_cases hchanged : Report.measureValue sha256 cd.value.toCollectValue ≠ p.saved p.dataIndex
      · rw [if_pos hchanged]
        refine .use_then (hown hname) (.use_then (hown harrays) (.alloc_then ?_ fun linePtr => ?_))
        · exact .pure rfl (.stopped hchanged)
        · refine .use_then (by simp) (.use_then (by simp [hown hname]) ?_)
          refine .use_then (by simp [hown hdata]) (.of_eq ?_
            ((ih hrest (p.add linePtr cd.name _)).imp (fun _ _ _ => rfl) fun _ _ h =>
              h.line hchanged))
          rw [Progress.add, ownedLines_concat, add_assoc]
      · rw [if_neg hchanged]
        exact (ih hrest { p with dataIndex := p.dataIndex + 1 }).imp (fun _ _ _ => rfl)
          fun _ _ h => h.same hchanged

theorem turns_appendLines {arrays text : Ptr} {lines : List (Ptr × Buffer)}
    (harrays : arrays ∈ own) (htext : text ∈ own) (hlines : ∀ line ∈ lines, line.1 ∈ own) :
    Turns stop own (appendLines arrays text lines) (fun _ => own) (Unasked fun _ => True) := by
  induction lines with
  | nil => exact .pure rfl ⟨rfl, trivial⟩
  | cons line lines ih =>
      obtain ⟨hline, hlines⟩ := List.forall_mem_cons.mp hlines
      exact .use_then harrays (.use_then hline (.use_then htext (ih hlines)))

theorem turns_freeLines {arrays : Ptr} (harrays : arrays ∈ own) (lines : List (Ptr × Buffer)) :
    Turns stop (ownedLines lines + own) (freeLines arrays lines) (fun _ => own)
      (Unasked fun _ => True) := by
  induction lines with
  | nil => exact .pure (zero_add own) ⟨rfl, trivial⟩
  | cons line lines ih =>
      refine .use_then (by simp [harrays]) (.give_then _ ?_ ih)
      rw [ownedLines_cons, add_assoc]

theorem turns_endNormal {arrays : Ptr} {lines : List (Ptr × Buffer)} {text timestamp : Option Ptr}
    {len : ℕ} (hlen : 0 < len ↔ timestamp.isSome = true) :
    Turns stop ({arrays} + (ownedLines lines + (owned text + owned timestamp)))
      (endNormal arrays lines text timestamp len) (fun _ => owned text)
      (Unasked fun _ => True) := by
  have hlines : Turns stop (ownedLines lines + ({arrays} + owned text))
      (do freeLines arrays lines; give arrays) (fun _ => owned text) (Unasked fun _ => True) := by
    exact .seqUnasked (turns_freeLines (by simp) lines) fun _ _ => turns_give rfl
  unfold endNormal
  by_cases hpos : 0 < len
  · obtain ⟨ts, rfl⟩ := Option.isSome_iff_exists.mp (hlen.mp hpos)
    rw [if_pos hpos]
    have hkfree : Turns stop ({arrays} + (ownedLines lines + (owned text + {ts})))
        (do kfree (some ts); freeLines arrays lines; give arrays) (fun _ => owned text)
        (Unasked fun _ => True) := by
      refine .give_then (ownedLines lines + ({arrays} + owned text)) ?_ hlines
      abel
    cases text with
    | none => exact hkfree
    | some text => exact .use_then (by simp [owned]) (.use_then (by simp [owned]) hkfree)
  · have htimestamp : timestamp = none := by
      simpa using mt hlen.mpr hpos
    rw [if_neg hpos, htimestamp]
    refine .of_eq ?_ hlines
    simp only [owned]
    abel

end SaveCheck

/-! ## The analysis -/

section Analysis

variable {sha256 : List UInt8 → Digest}

def ResponseData.value (rd : ResponseData) : Option ReportData :=
  rd.text.map fun text => ⟨rd.type, text.2, rd.len⟩

def ownedResponse (rd : Option ResponseData) : Multiset Ptr :=
  owned (rd.bind fun rd => rd.text.map Prod.fst)

/-- What comes of an analysis.  It fails only if a request was refused. -/
inductive Outcome (refused : Prop) : ℤ → Option ResponseData → Prop
  | ok : Outcome refused Report.responseOk none
  | report (type : BitVec 32) (text : Ptr) (buffer : Buffer) (len : ℕ) :
      Outcome refused Report.responseReport (some ⟨type, some (text, buffer), len⟩)
  | failed {rd : Option ResponseData} (htext : rd.bind ResponseData.text = none)
      (hrefused : refused) : Outcome refused (-eNomem) rd

theorem Outcome.imp {refused refused' : Prop} {ret : ℤ} {rd : Option ResponseData}
    (h : Outcome refused ret rd) (himp : refused → refused') : Outcome refused' ret rd := by
  cases h with
  | ok => exact .ok
  | report type text buffer len => exact .report type text buffer len
  | failed htext hrefused => exact .failed htext (himp hrefused)

/-- The baseline is there once it has been filled in. -/
def AnalyzeStatus.Ready (status : AnalyzeStatus) : Prop :=
  status.saved.initTag = status.data.isSome

theorem namedCount_values (list : List Item) : Report.namedCount (values list) = list.length := by
  rw [Report.namedCount, values, List.countP_map]
  exact List.countP_eq_length.mpr fun _ _ => rfl

structure InitOf (sha256 : List UInt8 → Digest) (list : List Item) (fresh : ℕ → BitVec 64)
    (status : AnalyzeStatus) (d : List Bool) (r : ℤ × AnalyzeStatus) : Prop where
  value : ∃ kmalloc : Bool, d = [kmalloc] ∧
    Report.analyzeSaveCheckInit sha256 (values list) (if kmalloc then some fresh else none)
      status.saved = (r.1, r.2.saved)
  ready : r.2.Ready
  outcome : Outcome (false ∈ d) r.1 none

theorem turns_analyzeSaveCheckInit (list : List Item) (fresh : ℕ → BitVec 64)
    {status : AnalyzeStatus} (hready : status.Ready) (hfirst : status.saved.initTag = false) :
    Turns stop (ownedItems list + owned status.data)
      (analyzeSaveCheckInit sha256 list fresh status)
      (fun r => ownedItems list + owned r.2.data) (InitOf sha256 list fresh status) := by
  have hnone : status.data = none := by
    have hisSome := hready.symm.trans hfirst
    simpa using hisSome
  have hlist := readable_ownedItems list 0
  rw [add_zero] at hlist
  rw [hnone, owned, add_zero]
  refine .seqUnasked (turns_countItems hlist) ?_
  rintro _ rfl
  refine .alloc_then ?_ fun data => ?_
  · refine .pure (add_zero _).symm ⟨⟨false, rfl, rfl⟩, ?_, .failed rfl (List.mem_singleton_self _)⟩
    exact hfirst
  · refine .seqUnasked (turns_initLoop (fun cd hcd h hh => ?_) (by simp) 0 fresh) ?_
    · exact Multiset.mem_add.mpr (Or.inr (hlist cd hcd h hh))
    rintro _ rfl
    refine .pure (add_comm _ _) ⟨⟨true, rfl, ?_⟩, rfl, .ok⟩
    rw [if_pos rfl, Report.analyzeSaveCheckInit, namedCount_values]

/-- The result behind the loop, as in the value model with the answers `d`. -/
structure ReportOf (p : Progress) (done : Bool) (eventType : BitVec 32) (stm : Tm) (d : List Bool)
    (r : ℤ × Option ResponseData) : Prop where
  value : ∃ kzalloc kstrdup granted : Bool,
    d = (if done && !p.lines.isEmpty then inTurn kzalloc kstrdup ++ [granted] else []) ∧
    (r.1, r.2.bind ResponseData.value) =
      if done then
        if p.value.lines.isEmpty then (Report.responseOk, none)
        else if granted then
          let timestamp := Report.getTimestampStr stm kzalloc kstrdup
          let len := (p.value.charLen + timestampLen timestamp) % 2 ^ 32
          (Report.responseReport,
            some ⟨eventType, Report.reportText len p.value.lines timestamp, len⟩)
        else (-eNomem, none)
      else (-eNomem, none)
  outcome : Outcome (done = false ∨ false ∈ d) r.1 r.2

theorem turns_reportChanges {arrays : Ptr} {p : Progress} {done : Bool} (eventType : BitVec 32)
    (stm : Tm) :
    Turns stop ({arrays} + ownedLines p.lines)
      (reportChanges arrays p done eventType stm) (fun r => ownedResponse r.2)
      (ReportOf p done eventType stm) := by
  have hend : ∀ {stop : List Bool → Prop}, Turns stop ({arrays} + ownedLines p.lines)
      (endNormal arrays p.lines none none 0) (fun _ => 0) (Unasked fun _ => True) :=
    .of_eq (by simp [owned]) (turns_endNormal (by simp))
  cases done with
  | false =>
      exact .seqUnasked hend fun _ _ =>
        .pure rfl ⟨⟨false, false, false, rfl, rfl⟩, .failed rfl (.inl rfl)⟩
  | true =>
      by_cases hempty : p.lines.isEmpty = true
      · have hvalue : p.value.lines.isEmpty = true := by simpa [Progress.value] using hempty
        unfold reportChanges
        rw [if_pos rfl, if_pos hempty]
        refine .seqUnasked hend fun _ _ =>
          .pure rfl ⟨⟨false, false, false, by simp [hempty], ?_⟩, .ok⟩
        rw [if_pos rfl, if_pos hvalue]
        rfl
      · have hvalue : ¬ p.value.lines.isEmpty = true := by simpa [Progress.value] using hempty
        unfold reportChanges
        rw [if_pos rfl, if_neg hempty]
        refine .bind _ (turns_getTimestampStr stm) ?_ (zero_add _).symm
        rintro d ⟨timestamp, len⟩ ⟨hlen, hpos, kzalloc, kstrdup, rfl, hts⟩
        obtain rfl : len = timestampLen (timestamp.map Prod.snd) := hlen
        have hlen : 0 < timestampLen (timestamp.map Prod.snd) ↔
            (timestamp.map Prod.fst).isSome = true := by
          rw [Option.isSome_map]
          refine ⟨fun hpos => ?_, hpos⟩
          cases timestamp with
          | none => exact absurd hpos (lt_irrefl 0)
          | some ts => rfl
        refine .alloc_then ?_ fun text => ?_
        · refine .seqUnasked (.of_eq ?_ (turns_endNormal hlen)) fun _ _ => ?_
          · simp only [owned, ownedTimestamp]
            abel
          · refine .pure rfl ⟨⟨kzalloc, kstrdup, false, by simp [hempty], ?_⟩,
              .failed rfl (.inr (by simp))⟩
            rw [if_pos rfl, if_neg hvalue]
            rfl
        · have hlines : ∀ line ∈ p.lines, line.1 ∈ ownedLines p.lines := fun line hline =>
            Multiset.mem_coe.mpr (List.mem_map_of_mem hline)
          refine .seqUnasked (turns_appendLines (by simp) (by simp) fun line hline => ?_)
            fun _ _ => ?_
          · simp [hlines line hline]
          refine .use_then (by simp)
            (.seqUnasked (.of_eq ?_ (turns_endNormal hlen)) fun _ _ => ?_)
          · simp only [owned, ownedTimestamp]
            abel
          · refine .pure rfl ⟨⟨kzalloc, kstrdup, true, by simp [hempty], ?_⟩, .report _ _ _ _⟩
            rw [if_pos rfl, if_neg hvalue, if_pos rfl, ← hts]
            rfl

/-- The answers to the requests of `analyze_save_check_normal`; `timestamp` are those to the
requests of `get_timestamp_str`. -/
def normalAnswers (sha256 : List UInt8 → Digest) (list : List CollectData) (data : ℕ → BitVec 64)
    (allocs : Report.NormalAllocs) (timestamp : List Bool) : List Bool :=
  allocs.arrays ::
    if allocs.arrays then
      let (p, done) := Report.normalLoop sha256 allocs.line list ⟨0, data, [], 0⟩
      (List.range' 0 (p.lines.length + if done then 0 else 1)).map allocs.line ++
        if done && !p.lines.isEmpty then timestamp ++ [allocs.text] else []
    else []

/-- The analysis of the value model, with the answers `d` to its requests. -/
def AnalysisValue (sha256 : List UInt8 → Digest) (list : List CollectData) (saved : SaveCheckData)
    (eventType : BitVec 32) (fresh : ℕ → BitVec 64) (stm : Tm) (d : List Bool)
    (result : ℤ × SaveCheckData × Option ReportData) : Prop :=
  ∃ (kmalloc : Bool) (allocs : Report.NormalAllocs) (kzalloc kstrdup : Bool),
    d = (if saved.initTag then
      normalAnswers sha256 list saved.data allocs (inTurn kzalloc kstrdup) else [kmalloc]) ∧
    Report.analyzeSaveCheck sha256 list saved eventType (if kmalloc then some fresh else none)
      allocs (Report.getTimestampStr stm kzalloc kstrdup) = result

theorem analysisValue_normal {list : List CollectData} {saved : SaveCheckData}
    (hagain : saved.initTag = true) {eventType : BitVec 32} {fresh : ℕ → BitVec 64} {stm : Tm}
    {d : List Bool} {result : ℤ × SaveCheckData × Option ReportData} (allocs : Report.NormalAllocs)
    (kzalloc kstrdup : Bool)
    (hd : d = normalAnswers sha256 list saved.data allocs (inTurn kzalloc kstrdup))
    (hresult : Report.analyzeSaveCheckNormal sha256 list saved eventType allocs
      (Report.getTimestampStr stm kzalloc kstrdup) = result) :
    AnalysisValue sha256 list saved eventType fresh stm d result := by
  refine ⟨true, allocs, kzalloc, kstrdup, hd.trans (if_pos hagain).symm, ?_⟩
  rw [Report.analyzeSaveCheck, if_pos hagain, hresult]

structure AnalysisOf (sha256 : List UInt8 → Digest) (list : List Item) (fresh : ℕ → BitVec 64)
    (status : AnalyzeStatus) (eventType : BitVec 32) (stm : Tm) (d : List Bool)
    (r : ℤ × AnalyzeStatus × Option ResponseData) : Prop where
  value : AnalysisValue sha256 (values list) status.saved eventType fresh stm d
    (r.1, r.2.1.saved, r.2.2.bind ResponseData.value)
  ready : r.2.1.Ready
  outcome : Outcome (false ∈ d) r.1 r.2.2

theorem turns_analyzeSaveCheckNormal (list : List Item) (fresh : ℕ → BitVec 64)
    {status : AnalyzeStatus} (hready : status.Ready) (hagain : status.saved.initTag = true)
    (eventType : BitVec 32) (stm : Tm) :
    Turns stop (ownedItems list + owned status.data)
      (analyzeSaveCheckNormal sha256 list status eventType stm)
      (fun r => ownedItems list + (owned r.2.1.data + ownedResponse r.2.2))
      (AnalysisOf sha256 list fresh status eventType stm) := by
  obtain ⟨data, hdata⟩ := Option.isSome_iff_exists.mp (hready.symm.trans hagain)
  have hlist := readable_ownedItems list {data}
  rw [hdata, owned]
  refine .seqUnasked (turns_countItems hlist) ?_
  rintro _ -
  refine .alloc_then ?_ fun arrays => ?_
  · refine .pure ?_ ⟨analysisValue_normal hagain ⟨false, fun _ => false, false⟩ false false rfl rfl,
      hready, .failed rfl (List.mem_singleton_self _)⟩
    rw [hdata]
    simp [ownedResponse, owned]
  rw [hdata]
  have hlist' : Readable ({arrays} + (ownedItems list + {data})) list :=
    fun cd hcd h hh => Multiset.mem_add.mpr (Or.inr (hlist cd hcd h hh))
  refine .seq (.of_eq (zero_add _).symm (turns_normalLoop hlist' (by simp) (by simp)
    ⟨0, status.saved.data, [], 0⟩)) ?_
  rintro d ⟨p, done⟩ ⟨⟨line, n, hloop, hn, hd⟩, hdone⟩
  refine .bind (ownedItems list + {data}) (turns_reportChanges eventType stm) ?_ ?_
  · rintro d' ⟨ret, rd⟩ ⟨⟨kzalloc, kstrdup, granted, hd', hret⟩, houtcome⟩
    have hloop' : Report.normalLoop sha256 line (values list) ⟨0, status.saved.data, [], 0⟩ =
        (p.value, done) := hloop
    refine .pure ?_ ⟨analysisValue_normal hagain ⟨true, line, granted⟩ kzalloc kstrdup ?_ ?_,
      hagain, houtcome.imp ?_⟩
    · show ownedResponse rd + (ownedItems list + {data}) =
        ownedItems list + ({data} + ownedResponse rd)
      abel
    · have hlines : p.value.lines.length = n := by
        simpa [Progress.value] using hn
      have hempty : p.value.lines.isEmpty = p.lines.isEmpty := by simp [Progress.value]
      rw [normalAnswers, if_pos rfl, hloop']
      dsimp only
      rw [hlines, hempty, List.append_nil, hd, hd']
      rfl
    · show _ = ((ret, rd.bind ResponseData.value).1, _, (ret, rd.bind ResponseData.value).2)
      rw [Report.analyzeSaveCheckNormal, if_pos rfl, hloop', hret]
      dsimp only
      cases done with
      | false => rfl
      | true => cases p.value.lines.isEmpty <;> cases granted <;> rfl
    · rintro (hstop | hrefused)
      · exact List.mem_cons_of_mem true (List.mem_append_left _ (hdone hstop))
      · simp [hrefused]
  · abel

theorem turns_analyzeSaveCheck (list : List Item) (fresh : ℕ → BitVec 64) {status : AnalyzeStatus}
    (hready : status.Ready) (eventType : BitVec 32) (stm : Tm) :
    Turns stop (ownedItems list + owned status.data)
      (analyzeSaveCheck sha256 list fresh status eventType stm)
      (fun r => ownedItems list + (owned r.2.1.data + ownedResponse r.2.2))
      (AnalysisOf sha256 list fresh status eventType stm) := by
  unfold analyzeSaveCheck
  cases htag : status.saved.initTag with
  | true => exact turns_analyzeSaveCheckNormal list fresh hready htag eventType stm
  | false =>
      refine .seq (turns_analyzeSaveCheckInit list fresh hready htag) ?_
      rintro d ⟨ret, status'⟩ ⟨⟨kmalloc, hd, hinit⟩, hready', houtcome⟩
      refine .pure (by simp [ownedResponse, owned]) ?_
      rw [List.append_nil]
      refine ⟨⟨kmalloc, ⟨true, fun _ => true, true⟩, true, true, ?_, ?_⟩, hready', houtcome⟩
      · rw [htag, hd]
        rfl
      · rw [Report.analyzeSaveCheck, htag, if_neg Bool.false_ne_true, hinit]
        rfl

end Analysis

/-! ## The length of a report

A report of length 0 is not freed.  The length is counted in 32 bits, so it is 0 for a report whose
text would be of 4 GiB. -/

/-- What the lines for all the items would take at most. -/
def linesRoom (list : List CollectData) : ℕ :=
  (list.map fun cd => cd.name.elim 0 Text.length + 79).sum

/-- The items do not have names for 4 GiB. -/
def Moderate (list : List CollectData) : Prop := linesRoom list + timeStrMaxLen < 2 ^ 32

/-- A line is not empty, and has its room. -/
theorem itemLine_room (name : Text) (oldValue newValue : BitVec 64) :
    1 ≤ (Report.itemLine name oldValue newValue).text.length ∧
      (Report.itemLine name oldValue newValue).text.length ≤ name.length + 79 := by
  have hold := Report.length_decimal_toNat_le oldValue
  have hnew := Report.length_decimal_toNat_le newValue
  rw [Report.length_itemLine]
  omega

theorem totalLength_concat (lines : List Buffer) (line : Buffer) :
    Report.totalLength (lines ++ [line]) = Report.totalLength lines + line.text.length := by
  simp [Report.totalLength]

/-- The lines grow by at least one character each, and stay in their room. -/
theorem lines_normalLoop (sha256 : List UInt8 → Digest) (kzalloc : ℕ → Bool)
    (list : List CollectData) (p : Report.Progress) :
    let lines := (Report.normalLoop sha256 kzalloc list p).1.lines
    lines.length + Report.totalLength p.lines ≤ Report.totalLength lines + p.lines.length ∧
      Report.totalLength lines ≤ Report.totalLength p.lines + linesRoom list := by
  induction list generalizing p with
  | nil => exact ⟨le_of_eq (Nat.add_comm _ _), Nat.le_add_right _ _⟩
  | cons cd rest ih =>
      obtain ⟨name, value⟩ := cd
      have hroom : linesRoom (⟨name, value⟩ :: rest) =
          name.elim 0 Text.length + 79 + linesRoom rest := List.sum_cons
      cases name with
      | none =>
          unfold Report.normalLoop
          obtain ⟨hlines, htotal⟩ := ih p
          exact ⟨hlines, by omega⟩
      | some name =>
          simp only [Report.normalLoop]
          obtain ⟨hpos, hline⟩ := itemLine_room name (p.data p.dataIndex)
            (Report.measureValue sha256 value)
          replace hroom : linesRoom (⟨some name, value⟩ :: rest) =
            name.length + 79 + linesRoom rest := hroom
          split
          · split
            · obtain ⟨hlines, htotal⟩ := ih
                { dataIndex := p.dataIndex + 1
                  data := Function.update p.data p.dataIndex (Report.measureValue sha256 value)
                  lines := p.lines ++ [Report.itemLine name (p.data p.dataIndex)
                    (Report.measureValue sha256 value)]
                  charLen := (p.charLen + (Report.itemLine name (p.data p.dataIndex)
                    (Report.measureValue sha256 value)).text.length) % 2 ^ 32 }
              simp only [totalLength_concat, List.length_append, List.length_singleton]
                at hlines htotal
              omega
            · exact ⟨le_of_eq (Nat.add_comm _ _), Nat.le_add_right _ _⟩
          · obtain ⟨hlines, htotal⟩ := ih { p with dataIndex := p.dataIndex + 1 }
            dsimp only at hlines htotal
            omega

/-- A report of moderate items is freed. -/
theorem report_len_ne_zero {sha256 : List UInt8 → Digest} {list : List CollectData}
    (hlist : Moderate list) {status : SaveCheckData} {eventType : BitVec 32}
    {fresh : Option (ℕ → BitVec 64)} {allocs : Report.NormalAllocs}
    {timestamp : Option (CString timeStrMaxLen)} {log : ReportData}
    (hreport : (Report.analyzeSaveCheck sha256 list status eventType fresh allocs timestamp).2.2 =
      some log) : log.len ≠ 0 := by
  have hstart : (⟨0, status.data, [], 0⟩ : Report.Progress).charLen =
    Report.totalLength [] % 2 ^ 32 := rfl
  have hcount := Report.charLen_normalLoop sha256 allocs.line list hstart
  obtain ⟨hlines, htotal⟩ := lines_normalLoop sha256 allocs.line list ⟨0, status.data, [], 0⟩
  have hts : timestampLen timestamp ≤ timeStrMaxLen := by
    cases timestamp with
    | none => exact Nat.zero_le _
    | some ts => exact ts.length_lt.le
  have hnone : Report.totalLength [] = 0 := rfl
  rw [Moderate] at hlist
  rw [hnone] at hlines htotal
  simp only [Report.analyzeSaveCheck, Report.analyzeSaveCheckNormal, hcount] at hreport
  split at hreport
  · split at hreport
    · split at hreport
      · split at hreport
        · cases hreport
        · rename_i hne
          split at hreport
          · obtain rfl := Option.some.inj hreport
            have hpos := List.length_pos_iff.mpr (mt List.isEmpty_iff.mpr hne)
            dsimp only
            rw [Nat.mod_eq_of_lt (by omega : Report.totalLength _ < 2 ^ 32)]
            rw [Nat.mod_eq_of_lt] <;> simp only [List.length_nil] at hlines <;> omega
          · cases hreport
      · cases hreport
    · cases hreport
  · cases hreport

theorem linesRoom_concat (list : List CollectData) (cd : CollectData) :
    linesRoom (list ++ [cd]) = linesRoom list + (cd.name.elim 0 Text.length + 79) := by
  simp [linesRoom]

theorem linesRoom_collectTag {name : Option Text} (hname : ∀ text ∈ name, text.length ≤ 4)
    (value : BitVec 64) (allocs : Report.CollectAllocs) (list : List CollectData) :
    linesRoom (Report.collectTag name value allocs list) ≤ linesRoom list + 83 := by
  unfold Report.collectTag
  split
  · rename_i cd hcd
    obtain ⟨hcdname, hsome⟩ := Report.initCollectData_eq_some hcd
    obtain ⟨text, htext⟩ := Option.isSome_iff_exists.mp hsome
    have hlength := hname text (hcdname ▸ htext)
    rw [linesRoom_concat]
    show _ + (cd.name.elim 0 Text.length + 79) ≤ _
    rw [htext]
    exact Nat.add_le_add_left (Nat.add_le_add_right hlength 79) _
  · exact Nat.le_add_right _ _

theorem CollectUnit.Yields.linesRoom_le {unit : CollectUnit} {d : List Bool}
    {list list' : List CollectData} (h : unit.Yields d list list') :
    linesRoom list' ≤ linesRoom list + 332 := by
  cases unit with
  | functionSwitch arch registers =>
      obtain ⟨allocs, -, rfl⟩ := h
      have htag : ∀ (a : Arch) (text : Text), text.length ≤ 4 → ∀ value allocs list,
          linesRoom (Report.collectTag (if arch = a then some text else none) value allocs list) ≤
            linesRoom list + 83 := by
        intro a text hlength value allocs list
        refine linesRoom_collectTag (fun t ht => ?_) value allocs list
        split at ht
        · exact Option.some.inj ht ▸ hlength
        · cases ht
      have hsmep := htag .x86_64 (ascii "SMEP") (by decide) (Report.tagOf registers.cr4
        Report.x86Cr4Smep) (allocs 0) list
      have hsmap := (htag .x86_64 (ascii "SMAP") (by decide) (Report.tagOf registers.cr4
        Report.x86Cr4Smap) (allocs 1) _).trans (Nat.add_le_add_right hsmep 83)
      have hwp := (htag .x86_64 (ascii "WP") (by decide) (Report.tagOf registers.cr0
        Report.x86Cr0Wp) (allocs 2) _).trans (Nat.add_le_add_right hsmap 83)
      have hwxn := (htag .aarch64 (ascii "WXN") (by decide) (Report.tagOf registers.sctlrEl1
        Report.sctlrWxn) (allocs 3) _).trans (Nat.add_le_add_right hwp 83)
      exact hwxn.trans (by omega)
  | time stm =>
      obtain ⟨kmalloc, allocs, -, rfl⟩ := h
      unfold Report.collectTime
      split
      · rename_i cd _ hcd
        obtain ⟨hcdname, -⟩ := Report.initCollectData_eq_some hcd
        rw [linesRoom_concat]
        show _ + (cd.name.elim 0 Text.length + 79) ≤ _
        rw [hcdname]
        exact Nat.add_le_add_left (by decide) _
      · exact Nat.le_add_right _ _

theorem Yields.linesRoom_le {units : List CollectUnit} {d : List Bool}
    {list list' : List CollectData} (h : Yields units d list list') :
    linesRoom list' ≤ linesRoom list + 332 * units.length := by
  induction units generalizing list d with
  | nil =>
      obtain ⟨-, rfl⟩ := h
      exact Nat.le_add_right _ _
  | cons unit units ih =>
      obtain ⟨_, _, mid, -, hunit, hunits⟩ := h
      have hmid := hunit.linesRoom_le
      have hrest := ih hunits
      rw [List.length_cons]
      omega

/-- A million units are not too many. -/
theorem Yields.moderate {units : List CollectUnit} (hunits : units.length ≤ 2 ^ 20)
    {d : List Bool} {list : List CollectData} (h : Yields units d [] list) : Moderate list := by
  have hle := h.linesRoom_le
  have hnil : linesRoom [] = 0 := rfl
  rw [Moderate, timeStrMaxLen]
  omega

/-! ## Responding -/

section Respond

variable {own : Multiset Ptr}

/-- The record of the value model, with the answers `d`.  No request is made for a record that would
not be put out anyway. -/
def RecordValue (log : Option ReportData) (d : List Bool) (record : Option (List UInt8)) : Prop :=
  ∃ kzalloc : Bool,
    d = (if (log.bind (Report.secDetectorReport · true)).isSome then [kzalloc] else []) ∧
    record = log.bind (Report.secDetectorReport · kzalloc)

theorem recordValue_none : RecordValue none [] none := ⟨true, rfl, rfl⟩

theorem turns_secDetectorReport (log : ResponseData)
    (htext : ∀ text ∈ log.text, text.1 ∈ own) :
    Turns stop own (secDetectorReport log) (fun _ => own) (RecordValue log.value) := by
  obtain ⟨type, text, len⟩ := log
  cases text with
  | none => exact .pure rfl recordValue_none
  | some text =>
      obtain ⟨text, buffer⟩ := text
      have hmem : text ∈ own := htext _ rfl
      have hvalue : ∀ {d record} (kzalloc : Bool),
          d = (if (Report.secDetectorReport ⟨type, buffer, len⟩ true).isSome then [kzalloc]
            else []) → record = Report.secDetectorReport ⟨type, buffer, len⟩ kzalloc →
          RecordValue (ResponseData.value ⟨type, some (text, buffer), len⟩) d record :=
        fun kzalloc hd hrecord => ⟨kzalloc, hd, hrecord⟩
      simp only [Report.secDetectorReport] at hvalue
      simp only [secDetectorReport]
      split
      · rename_i hlen
        simp only [if_pos hlen] at hvalue
        exact .pure rfl (hvalue true rfl rfl)
      · rename_i hlen
        simp only [if_neg hlen] at hvalue
        split
        · rename_i hsize
          simp only [if_pos hsize] at hvalue
          exact .pure rfl (hvalue true rfl rfl)
        · rename_i hsize
          simp only [if_neg hsize] at hvalue
          refine .alloc_then (.pure rfl (hvalue false rfl rfl)) fun rbEntry => ?_
          refine .use_then (by simp) (.use_then (by simp [hmem]) ?_)
          refine .give_then own rfl (.pure rfl (hvalue true rfl ?_))
          rw [Report.secDetectorReport, if_neg hlen]
          exact if_neg hsize

theorem turns_freeResponseDataNoRd {type : BitVec 32} {text : Ptr} {buffer : Buffer} {len : ℕ}
    (hlen : len ≠ 0) :
    Turns stop {text}
      (freeResponseDataNoRd Framework.responseReport (some ⟨type, some (text, buffer), len⟩))
      (fun _ => 0) (Unasked fun _ => True) := by
  unfold freeResponseDataNoRd
  rw [if_pos rfl]
  dsimp only
  rw [if_pos hlen]
  exact turns_give (add_zero _).symm

end Respond

/-! ## A round -/

/-- A round of the value model, with the answers `d` to its requests.  `fresh` is what is in the
memory for the baseline, if it is granted. -/
def RoundValue (sha256 : List UInt8 → Digest) (units : List CollectUnit) (fresh : ℕ → BitVec 64)
    (stm : Tm) (eventType : BitVec 32) (saved : SaveCheckData) (d : List Bool)
    (saved' : SaveCheckData) (record : Option (List UInt8)) : Prop :=
  ∃ d₁ d₂ d₃ list ret log, d = d₁ ++ (d₂ ++ d₃) ∧ Yields units d₁ [] list ∧
    AnalysisValue sha256 list saved eventType fresh stm d₂ (ret, saved', log) ∧
    RecordValue log d₃ record

structure RoundOf (sha256 : List UInt8 → Digest) (units : List CollectUnit)
    (fresh : ℕ → BitVec 64) (stm : Tm) (eventType : BitVec 32) (status : AnalyzeStatus)
    (d : List Bool) (r : AnalyzeStatus × Option (List UInt8)) : Prop where
  ready : r.1.Ready
  value : RoundValue sha256 units fresh stm eventType status.saved d r.1.saved r.2

/-- The id of a failed analysis is far behind the end of the array. -/
theorem no_response_of_refused :
    Framework.defaultResponses[Framework.responseId (-eNomem)]?.bind
      Framework.Response.responseFunc = none := by
  rw [List.getElem?_eq_none (by decide)]
  rfl

/-- **Whatever is refused, a round gives back all but the baseline.**  After a failed analysis it
calls through the array at an index that is not there. -/
theorem turns_presetWorkflow {sha256 : List UInt8 → Digest} {units : List CollectUnit}
    (hunits : units.length ≤ 2 ^ 20) (fresh : ℕ → BitVec 64) {status : AnalyzeStatus}
    (hready : status.Ready) (eventType : BitVec 32) (stm : Tm) :
    Turns (false ∈ ·) (owned status.data)
      (presetWorkflow sha256 units fresh status eventType stm) (fun r => owned r.1.data)
      (RoundOf sha256 units fresh stm eventType status) := by
  refine .bind (owned status.data) (turns_collect units []) ?_ (zero_add _).symm
  intro d₁ list hlist
  refine .seq (turns_analyzeSaveCheck list fresh hready eventType stm) ?_
  rintro d₂ ⟨ret, status', rd⟩ ⟨hvalue, hready', houtcome⟩
  have hround : ∀ {d₃ record}, RecordValue (rd.bind ResponseData.value) d₃ record →
      RoundOf sha256 units fresh stm eventType status (d₁ ++ (d₂ ++ d₃)) (status', record) :=
    fun hrecord => ⟨hready', d₁, d₂, _, values list, ret, _, rfl, hlist, hvalue, hrecord⟩
  generalize hrd : rd = rd' at houtcome
  cases houtcome with
  | ok =>
      subst hrd
      refine .pure_then (.bindUnasked (owned status'.data) (turns_freeCollectDataList list)
        (fun _ _ => .pure_then (.pure (zero_add _) (hround recordValue_none))) ?_)
      simp [ownedResponse, owned]
  | report type text buffer len =>
      subst hrd
      have hlen : len ≠ 0 := by
        obtain ⟨_, _, _, _, -, hanalysis⟩ := hvalue
        exact report_len_ne_zero (hlist.moderate hunits) (congrArg (·.2.2) hanalysis)
      have hmem : ∀ t ∈ some (text, buffer), t.1 ∈
          ownedItems list + (owned status'.data + {text}) := by
        rintro _ ⟨⟩
        simp
      refine .seq (turns_secDetectorReport ⟨type, some (text, buffer), len⟩ hmem) ?_
      intro d₃ record hrecord
      refine .bindUnasked _ (turns_freeCollectDataList list) (fun _ _ => ?_) rfl
      refine .bindUnasked (owned status'.data) (turns_freeResponseDataNoRd hlen)
        (fun _ _ => ?_) ?_
      · refine .pure (zero_add _) ?_
        rw [List.append_nil]
        exact hround hrecord
      · rw [zero_add, add_comm]
        rfl
  | failed htext hrefused =>
      have hret : Int.negSucc 11 = -eNomem := rfl
      dsimp only
      rw [hret, no_response_of_refused]
      exact .stuck (by simp [hrefused])

end SecDetector.Handlers
