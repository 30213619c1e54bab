import SecDetector.Framework.Workflow
import SecDetector.Lib.Resources
import SecDetector.Report.Collect
import SecDetector.Report.Trip

/-!
# A round of a preset workflow

`preset_workflow` of `secDetector_workflow.c` with all that it calls: the collect units, save-check,
the responses, and what frees their data.  The functions are those of the value model, with every
request for memory, every use of it through a pointer and every `kfree` in its place.

Between two rounds only the baseline is kept, which `sc_data.data` points to.
-/

namespace SecDetector.Handlers

open Lib Text
open Report (CollectData CollectValue SaveCheckData ReportData Arch Registers Digest Tm eNomem
  timeStrMaxLen timestampLen)

/-- What a handler takes: memory, the references of a path or a file, and locks. -/
inductive Kind where
  | memory
  | path
  | file
  | lock
  deriving DecidableEq

abbrev Ptr := Handle Kind
abbrev Kernel := Prog Kind

def kmalloc : Kernel (Option Ptr) := alloc .memory
def kfree (p : Option Ptr) : Kernel Unit := giveAny p

/-! ## Collecting -/

/-- The value of an item; a region has memory of its own. -/
inductive ItemValue where
  | int (value : BitVec 64)
  | region (addr : Ptr) (bytes : List UInt8)

/-- `struct collect_data`, and where it and its name are. -/
structure Item where
  node : Ptr
  namePtr : Ptr
  name : Text
  value : ItemValue

/-- `init_collect_data`: the item without its value. -/
def initCollectData (name : Option Text) : Kernel (Option (ItemValue → Item)) :=
  match name with
  | none => pure none
  | some name => do
      match ← kmalloc with
      | none => pure none
      | some cd =>
          use cd
          match ← kmalloc with
          | none =>
              give cd
              pure none
          | some namePtr =>
              use namePtr
              pure (some (Item.mk cd namePtr name))

/-- `free_collect_data`. -/
def freeCollectData (cd : Item) : Kernel Unit := do
  use cd.node
  give cd.namePtr
  use cd.node
  match cd.value with
  | .int _ => give cd.node
  | .region addr _ =>
      give addr
      give cd.node

/-- `list_add_tail`; the last item is linked to the new one. -/
def listAddTail (cd : Item) (retList : List Item) : Kernel (List Item) := do
  use cd.node
  match retList.getLast? with
  | none => pure [cd]
  | some last =>
      use last.node
      pure (retList ++ [cd])

/-- What the four functions for the switches have in common. -/
def collectTag (name : Option Text) (value : BitVec 64) (retList : List Item) :
    Kernel (List Item) := do
  match ← initCollectData name with
  | none => pure retList
  | some cd => listAddTail (cd (.int value)) retList

section Units

variable (arch : Arch) (registers : Registers)

def collectSMEPTag : List Item → Kernel (List Item) :=
  collectTag (if arch = .x86_64 then some (ascii "SMEP" (ascii_check "SMEP" trivial)) else none)
    (Report.tagOf registers.cr4 Report.x86Cr4Smep)

def collectSMAPTag : List Item → Kernel (List Item) :=
  collectTag (if arch = .x86_64 then some (ascii "SMAP" (ascii_check "SMAP" trivial)) else none)
    (Report.tagOf registers.cr4 Report.x86Cr4Smap)

def collectWPTag : List Item → Kernel (List Item) :=
  collectTag (if arch = .x86_64 then some (ascii "WP" (ascii_check "WP" trivial)) else none)
    (Report.tagOf registers.cr0 Report.x86Cr0Wp)

def collectWXNTag : List Item → Kernel (List Item) :=
  collectTag (if arch = .aarch64 then some (ascii "WXN" (ascii_check "WXN" trivial)) else none)
    (Report.tagOf registers.sctlrEl1 Report.sctlrWxn)

/-- `collect_function_switch`. -/
def collectFunctionSwitch (retList : List Item) : Kernel (List Item) := do
  let retList ← collectSMEPTag arch registers retList
  let retList ← collectSMAPTag arch registers retList
  let retList ← collectWPTag arch registers retList
  collectWXNTag arch registers retList

end Units

/-- `collect_time`; `stm` is the broken-down time. -/
def collectTime (stm : List UInt8) (retList : List Item) : Kernel (List Item) := do
  match ← kmalloc with
  | none => pure retList
  | some addr =>
      use addr
      match ← initCollectData (some (ascii "time" (ascii_check "time" trivial))) with
      | none =>
          give addr
          pure retList
      | some cd => listAddTail (cd (.region addr stm)) retList

/-- An entry of `collect_array`, with what its unit reads. -/
inductive CollectUnit where
  | functionSwitch (arch : Arch) (registers : Registers)
  | time (stm : List UInt8)

def CollectUnit.collectFunc : CollectUnit → List Item → Kernel (List Item)
  | .functionSwitch arch registers => collectFunctionSwitch arch registers
  | .time stm => collectTime stm

/-- The loop over `collect_array`. -/
def collect : List CollectUnit → List Item → Kernel (List Item)
  | [], list => pure list
  | unit :: units, list => do
      let list ← unit.collectFunc list
      collect units list

/-- `list_add` and `list_del` at the front of a list: they write to the node and to the one behind
it. -/
def relink (node : Ptr) (rest : List Ptr) : Kernel Unit := do
  use node
  match rest with
  | [] => pure ()
  | next :: _ => use next

/-- `free_collect_data_list`. -/
def freeCollectDataList : List Item → Kernel Unit
  | [] => pure ()
  | node :: rest => do
      relink node.node (rest.map Item.node)
      freeCollectData node
      freeCollectDataList rest

/-! ## The timestamp -/

/-- `get_timestamp_str`: the string it stores, and what it returns. -/
def getTimestampStr (stm : Tm) : Kernel (Option (Ptr × CString timeStrMaxLen) × ℕ) := do
  match ← kmalloc with
  | none => pure (none, 0)
  | some stmStr =>
      use stmStr
      match Report.getTimestampStr stm true true with
      | none =>
          give stmStr
          pure (none, 0)
      | some str =>
          if str.length = 0 then
            give stmStr
            pure (none, 0)
          else
            use stmStr
            match ← kmalloc with
            | none =>
                give stmStr
                pure (none, 0)
            | some retStr =>
                use retStr
                give stmStr
                pure (some (retStr, str), str.length)

/-! ## Save-check -/

/-- `analyze_status_t`: the pointer to the baseline, and the baseline. -/
structure AnalyzeStatus where
  data : Option Ptr
  saved : SaveCheckData

/-- `response_data_t`; the text may be `NULL`. -/
structure ResponseData where
  type : BitVec 32
  text : Option (Ptr × Buffer)
  len : ℕ

variable (sha256 : List UInt8 → Digest)

/-- The `measure_value` of an item. -/
def measureValue (cd : Item) : Kernel (BitVec 64) := do
  use cd.node
  match cd.value with
  | .int value => pure value
  | .region addr bytes =>
      use addr
      pure (Report.hashToLong sha256 bytes)

/-- The first loop of both functions, over the items with a name. -/
def countItems : List Item → Kernel ℕ
  | [] => pure 0
  | cd :: rest => do
      use cd.node
      let n ← countItems rest
      pure (n + 1)

/-- The second loop of `analyze_save_check_init`, from index `i` on. -/
def initLoop (data : Ptr) : List Item → ℕ → (ℕ → BitVec 64) → Kernel (ℕ → BitVec 64)
  | [], _, saved => pure saved
  | cd :: rest, i, saved => do
      let measure ← measureValue sha256 cd
      use data
      initLoop data rest (i + 1) (Function.update saved i measure)

/-- `analyze_save_check_init`; `fresh` is what is in the memory that `kmalloc` returns. -/
def analyzeSaveCheckInit (list : List Item) (fresh : ℕ → BitVec 64) (status : AnalyzeStatus) :
    Kernel (ℤ × AnalyzeStatus) := do
  let len ← countItems list
  match ← kmalloc with
  | none => pure (-eNomem, { status with data := none })
  | some data =>
      let saved ← initLoop sha256 data list 0 fresh
      pure (Report.responseOk, ⟨some data, saved, len, true⟩)

/-- The local variables of the loop; `lines` is `response_arrays`. -/
structure Progress where
  dataIndex : ℕ
  saved : ℕ → BitVec 64
  lines : List (Ptr × Buffer)
  charLen : ℕ

/-- The loop of `analyze_save_check_normal`, and whether it came to its end. -/
def normalLoop (arrays data : Ptr) : List Item → Progress → Kernel (Progress × Bool)
  | [], p => pure (p, true)
  | cd :: rest, p => do
      let measure ← measureValue sha256 cd
      use data
      if measure ≠ p.saved p.dataIndex then
        use cd.namePtr
        use arrays
        match ← kmalloc with
        | none => pure (p, false)
        | some linePtr =>
            use linePtr
            use cd.namePtr
            use data
            let line := Report.itemLine cd.name (p.saved p.dataIndex) measure
            normalLoop arrays data rest
              { dataIndex := p.dataIndex + 1
                saved := Function.update p.saved p.dataIndex measure
                lines := p.lines ++ [(linePtr, line)]
                charLen := (p.charLen + line.text.length) % 2 ^ 32 }
      else normalLoop arrays data rest { p with dataIndex := p.dataIndex + 1 }

/-- The loop that appends the lines to the text. -/
def appendLines (arrays text : Ptr) : List (Ptr × Buffer) → Kernel Unit
  | [] => pure ()
  | line :: lines => do
      use arrays
      use line.1
      use text
      appendLines arrays text lines

/-- The loop that frees the lines. -/
def freeLines (arrays : Ptr) : List (Ptr × Buffer) → Kernel Unit
  | [] => pure ()
  | line :: lines => do
      use arrays
      give line.1
      freeLines arrays lines

/-- The end of `analyze_save_check_normal`, behind its label.  The timestamp is appended to the
text, if both are there. -/
def endNormal (arrays : Ptr) (lines : List (Ptr × Buffer)) (text : Option Ptr)
    (timestamp : Option Ptr) (timestampLen : ℕ) : Kernel Unit := do
  if 0 < timestampLen then
    match text with
    | some text =>
        use text
        follow timestamp
        kfree timestamp
        freeLines arrays lines
        give arrays
    | none =>
        kfree timestamp
        freeLines arrays lines
        give arrays
  else
    freeLines arrays lines
    give arrays

/-- `analyze_save_check_normal` behind its loop, which came to its end if `done`. -/
def reportChanges (arrays : Ptr) (p : Progress) (done : Bool) (eventType : BitVec 32) (stm : Tm) :
    Kernel (ℤ × Option ResponseData) := do
  if done then
    if p.lines.isEmpty then
      endNormal arrays p.lines none none 0
      pure (Report.responseOk, none)
    else
      let (timestamp, timestampLen) ← getTimestampStr stm
      -- the newline is not counted
      let len := (p.charLen + timestampLen) % 2 ^ 32
      match ← kmalloc with
      | none =>
          endNormal arrays p.lines none (timestamp.map Prod.fst) timestampLen
          pure (-eNomem, some ⟨eventType, none, len⟩)
      | some text =>
          appendLines arrays text p.lines
          use text
          endNormal arrays p.lines (some text) (timestamp.map Prod.fst) timestampLen
          let buffer := Report.reportText len (p.lines.map Prod.snd) (timestamp.map Prod.snd)
          pure (Report.responseReport, some ⟨eventType, some (text, buffer), len⟩)
  else
    endNormal arrays p.lines none none 0
    pure (-eNomem, none)

/-- `analyze_save_check_normal`: what it returns, the baseline, and the response data if they are
filled in. -/
def analyzeSaveCheckNormal (list : List Item) (status : AnalyzeStatus) (eventType : BitVec 32)
    (stm : Tm) : Kernel (ℤ × AnalyzeStatus × Option ResponseData) := do
  let _ ← countItems list
  match ← kmalloc with
  | none => pure (-eNomem, status, none)
  | some arrays =>
      match status.data with
      | none => stuck
      | some data =>
          let (p, done) ← normalLoop sha256 arrays data list ⟨0, status.saved.data, [], 0⟩
          let (ret, rd) ← reportChanges arrays p done eventType stm
          pure (ret, { status with saved := { status.saved with data := p.saved } }, rd)

/-- `analyze_save_check`. -/
def analyzeSaveCheck (list : List Item) (fresh : ℕ → BitVec 64) (status : AnalyzeStatus)
    (eventType : BitVec 32) (stm : Tm) : Kernel (ℤ × AnalyzeStatus × Option ResponseData) := do
  if status.saved.initTag then analyzeSaveCheckNormal sha256 list status eventType stm
  else
    let (ret, status) ← analyzeSaveCheckInit sha256 list fresh status
    pure (ret, status, none)

/-! ## Responding -/

/-- `secDetector_report`: the record that it hands to `secDetector_ringbuf_output`. -/
def secDetectorReport (log : ResponseData) : Kernel (Option (List UInt8)) :=
  match log.text with
  | none => pure none
  | some (text, buffer) =>
      if log.len = 0 then pure none
      else
        let entrySize := (Report.entryHdrSz + log.len) % 2 ^ 64
        if entrySize < Report.entryHdrSz ∨ entrySize < log.len then pure none
        else do
          match ← kmalloc with
          | none => pure none
          | some rbEntry =>
              use rbEntry
              use text
              give rbEntry
              pure (Report.secDetectorReport ⟨log.type, buffer, log.len⟩ true)

/-- The call of a response unit; `rd` is nothing if it has not been filled in. -/
def respond (rd : Option ResponseData) :
    Framework.ResponseFunc → Kernel (Option (List UInt8))
  | .secDetectorReport =>
      match rd with
      | none => stuck
      | some rd => secDetectorReport rd
  | .secDetectorOk | .secDetectorKill | .custom _ => pure none

/-- `free_response_data_no_rd`. -/
def freeResponseDataNoRd (responseId : ℕ) (rd : Option ResponseData) : Kernel Unit :=
  if responseId = Framework.responseReport then
    match rd with
    | none => stuck
    | some rd => if rd.len ≠ 0 then kfree (rd.text.map Prod.fst) else pure ()
  else pure ()

/-- `preset_workflow`, with the default responses: the state of its analysis and the record that
is put out, if there is one. -/
def presetWorkflow (units : List CollectUnit) (fresh : ℕ → BitVec 64) (status : AnalyzeStatus)
    (eventType : BitVec 32) (stm : Tm) : Kernel (AnalyzeStatus × Option (List UInt8)) := do
  let list ← collect units []
  let (ret, status, rd) ← analyzeSaveCheck sha256 list fresh status eventType stm
  let responseId := Framework.responseId ret
  match Framework.defaultResponses[responseId]?.bind Framework.Response.responseFunc with
  | none => stuck
  | some responseFunc =>
      let record ← respond rd responseFunc
      freeCollectDataList list
      freeResponseDataNoRd responseId rd
      pure (status, record)

end SecDetector.Handlers
