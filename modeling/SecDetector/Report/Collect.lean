import SecDetector.Report.SaveCheck

/-!
# The collect units

`init_collect_data` of `secDetector_collect.c` and the units of
`secDetector_function_switch.c` and `secDetector_time.c`.

A unit that cannot allocate its item returns without a word, and the list that is handed
to the analyze unit lacks it.
-/

namespace SecDetector.Report

open Lib Text

/-- The answers to the two allocations of `init_collect_data`. -/
structure CollectAllocs where
  data : Bool
  name : Bool

/-- `init_collect_data`; the value is not set yet. -/
def initCollectData (name : Option Text) (allocs : CollectAllocs) : Option CollectData :=
  match name with
  | none => none
  | some name => if allocs.data && allocs.name then some ⟨some name, .other⟩ else none

/-! ## Function switches -/

inductive Arch where
  | x86_64
  | aarch64
  | other
  deriving DecidableEq

/-- The control registers that are read. -/
structure Registers where
  cr0 : BitVec 64
  cr4 : BitVec 64
  sctlrEl1 : BitVec 64

def x86Cr4Smep : BitVec 64 := 1 <<< 20
def x86Cr4Smap : BitVec 64 := 1 <<< 21
def x86Cr0Wp : BitVec 64 := 1 <<< 16
def sctlrWxn : BitVec 64 := 1 <<< 19

/-- `(value & flag) ? 1 : 0`. -/
def tagOf (value flag : BitVec 64) : BitVec 64 := if value &&& flag ≠ 0 then 1 else 0

/-- What the four functions have in common. -/
def collectTag (name : Option Text) (value : BitVec 64) (allocs : CollectAllocs)
    (retList : List CollectData) : List CollectData :=
  match initCollectData name allocs with
  | some cd => retList ++ [{ cd with value := .int value }]
  | none => retList

variable (arch : Arch) (registers : Registers)

def collectSMEPTag : CollectAllocs → List CollectData → List CollectData :=
  collectTag (if arch = .x86_64 then some (ascii "SMEP") else none)
    (tagOf registers.cr4 x86Cr4Smep)

def collectSMAPTag : CollectAllocs → List CollectData → List CollectData :=
  collectTag (if arch = .x86_64 then some (ascii "SMAP") else none)
    (tagOf registers.cr4 x86Cr4Smap)

def collectWPTag : CollectAllocs → List CollectData → List CollectData :=
  collectTag (if arch = .x86_64 then some (ascii "WP") else none) (tagOf registers.cr0 x86Cr0Wp)

def collectWXNTag : CollectAllocs → List CollectData → List CollectData :=
  collectTag (if arch = .aarch64 then some (ascii "WXN") else none)
    (tagOf registers.sctlrEl1 sctlrWxn)

/-- `collect_function_switch`; `allocs` answers the allocations of the four items. -/
def collectFunctionSwitch (allocs : Fin 4 → CollectAllocs) (retList : List CollectData) :
    List CollectData :=
  collectWXNTag arch registers (allocs 3) <| collectWPTag arch registers (allocs 2) <|
    collectSMAPTag arch registers (allocs 1) <| collectSMEPTag arch registers (allocs 0) retList

/-! ## The time -/

/-- `collect_time`; `stm` is the memory of the `struct tm`, if it can be allocated. -/
def collectTime (stm : Option (List UInt8)) (allocs : CollectAllocs)
    (retList : List CollectData) : List CollectData :=
  match stm, initCollectData (some (ascii "time" (ascii_check "time" trivial))) allocs with
  | some stm, some cd => retList ++ [{ cd with value := .region stm }]
  | _, _ => retList

/-! ## What is collected -/

/-- Every item has a name and a value. -/
def WellCollected (list : List CollectData) : Prop :=
  ∀ cd ∈ list, cd.name.isSome = true ∧ cd.value ≠ .other

theorem WellCollected.concat {list : List CollectData} (hlist : WellCollected list)
    {cd : CollectData} (hname : cd.name.isSome = true) (hvalue : cd.value ≠ .other) :
    WellCollected (list ++ [cd]) := by
  intro cd' hmem
  rcases List.mem_append.mp hmem with hmem | hmem
  · exact hlist cd' hmem
  · rw [List.mem_singleton.mp hmem]
    exact ⟨hname, hvalue⟩

theorem initCollectData_eq_some {name : Option Text} {allocs : CollectAllocs} {cd : CollectData}
    (hinit : initCollectData name allocs = some cd) : cd.name = name ∧ cd.name.isSome = true := by
  unfold initCollectData at hinit
  split at hinit
  · simp at hinit
  · split at hinit
    · obtain rfl := Option.some.inj hinit
      exact ⟨rfl, rfl⟩
    · simp at hinit

theorem WellCollected.collectTag {list : List CollectData} (hlist : WellCollected list)
    (name : Option Text) (value : BitVec 64) (allocs : CollectAllocs) :
    WellCollected (Report.collectTag name value allocs list) := by
  unfold Report.collectTag
  split
  · rename_i cd hinit
    exact hlist.concat (initCollectData_eq_some hinit).2 (by simp)
  · exact hlist

/-- The units collect whole items or none. -/
theorem wellCollected_collectFunctionSwitch (allocs : Fin 4 → CollectAllocs)
    {list : List CollectData} (hlist : WellCollected list) :
    WellCollected (collectFunctionSwitch arch registers allocs list) :=
  (((hlist.collectTag _ _ _).collectTag _ _ _).collectTag _ _ _).collectTag _ _ _

theorem wellCollected_collectTime (stm : Option (List UInt8)) (allocs : CollectAllocs)
    {list : List CollectData} (hlist : WellCollected list) :
    WellCollected (collectTime stm allocs list) := by
  unfold collectTime
  split
  · rename_i stm cd hinit
    exact hlist.concat (initCollectData_eq_some hinit).2 (by simp)
  · exact hlist

/-- The names of a list. -/
def itemNames (list : List CollectData) : List Text := list.filterMap CollectData.name

/-- The names of the items of one architecture, in the order of the calls. -/
def switchNames : Arch → List Text
  | .x86_64 => [ascii "SMEP", ascii "SMAP", ascii "WP"]
  | .aarch64 => [ascii "WXN"]
  | .other => []

theorem itemNames_collectTag_sublist (name : Option Text) (value : BitVec 64)
    (allocs : CollectAllocs) (list : List CollectData) :
    (itemNames (collectTag name value allocs list)).Sublist (itemNames list ++ name.toList) := by
  unfold collectTag
  split
  · rename_i cd hinit
    obtain ⟨hname, _⟩ := initCollectData_eq_some hinit
    have hone : itemNames [{ cd with value := .int value }] = name.toList := by
      rw [← hname]
      cases cd.name <;> simp [itemNames]
    rw [itemNames, List.filterMap_append]
    show (itemNames list ++ itemNames [{ cd with value := .int value }]).Sublist _
    exact hone ▸ List.Sublist.refl _
  · exact List.sublist_append_left _ _

/-- Some of the items may be missing, but the others are in their order. -/
theorem itemNames_collectFunctionSwitch_sublist (allocs : Fin 4 → CollectAllocs) :
    (itemNames (collectFunctionSwitch arch registers allocs [])).Sublist (switchNames arch) := by
  have hstep : ∀ {list : List CollectData} {names : List Text} (name : Option Text)
      (value : BitVec 64) (allocs : CollectAllocs), (itemNames list).Sublist names →
      (itemNames (collectTag name value allocs list)).Sublist (names ++ name.toList) := by
    intro list names name value allocs hsub
    exact (itemNames_collectTag_sublist name value allocs list).trans (hsub.append_right _)
  have hall := hstep (if arch = .aarch64 then some (ascii "WXN") else none)
    (tagOf registers.sctlrEl1 sctlrWxn) (allocs 3) <|
    hstep (if arch = .x86_64 then some (ascii "WP") else none)
      (tagOf registers.cr0 x86Cr0Wp) (allocs 2) <|
    hstep (if arch = .x86_64 then some (ascii "SMAP") else none)
      (tagOf registers.cr4 x86Cr4Smap) (allocs 1) <|
    hstep (if arch = .x86_64 then some (ascii "SMEP") else none)
      (tagOf registers.cr4 x86Cr4Smep) (allocs 0) (List.Sublist.refl (itemNames []))
  cases arch <;> exact hall

theorem nodup_switchNames : (switchNames arch).Nodup := by
  cases arch <;> decide

end SecDetector.Report
