import SecDetector.Framework.Manager

/-!
# Preset workflows

`preset_workflow` of `secDetector_workflow.c`: collect, analyze, respond.  What is collected
only matters by its number of named items, and what a later round of save-check or a
custom analysis returns is up to the environment; the state of save-check is
modelled, since it owns memory.

`dispatch` is the last statement of the function.  Its test `repsonse_id >= 0` is made of an
unsigned integer, so it is no test.
-/

namespace SecDetector.Framework

/-! ## Live resources -/

namespace Heap

/-- How often a resource was created under a pointer. -/
def created (heap : Heap) (resource : Resource) (ptr : ℕ) : ℕ :=
  heap.log.count (.create resource ptr)

/-- How often it was released. -/
def released (heap : Heap) (resource : Resource) (ptr : ℕ) : ℕ :=
  heap.log.count (.release resource ptr)

/-- It was created and not released since. -/
def Live (heap : Heap) (resource : Resource) (ptr : ℕ) : Prop :=
  heap.released resource ptr < heap.created resource ptr

instance (heap : Heap) (resource : Resource) (ptr : ℕ) : Decidable (heap.Live resource ptr) :=
  inferInstanceAs (Decidable (_ < _))

/-- Nothing was released more often than it was created. -/
def FreedOnce (heap : Heap) : Prop :=
  ∀ resource ptr, heap.released resource ptr ≤ heap.created resource ptr

end Heap

/-! ## Dispatch -/

/-- What the call through `response_array` comes to. -/
inductive Dispatch where
  | skipped
  /-- There is no such entry: no array, a released one, or an index behind its end. -/
  | outside
  | nullFunc
  | calls (response : Response) (func : ResponseFunc)
  deriving DecidableEq

/-- The entries behind `response_array`. -/
def ResponseArray.entries (heap : Heap) : ResponseArray → Option (List Response)
  | .null => none
  | .static array => some array
  | .heap ptr array => if heap.Live .responseArray ptr then some array else none

/-- The `uint32_t` that the `int` of the analysis is stored in. -/
def responseId (ret : ℤ) : ℕ := (ret % 2 ^ 32).toNat

/-- `if (repsonse_id >= 0) wf->response_array[repsonse_id].response_func(&rd)`. -/
def dispatch (heap : Heap) (array : ResponseArray) (ret : ℤ) : Dispatch :=
  if 0 ≤ responseId ret then
    match (array.entries heap).bind fun entries => entries[responseId ret]? with
    | none => .outside
    | some response =>
        match response.responseFunc with
        | none => .nullFunc
        | some func => .calls response func
  else .skipped

/-! ## A run -/

/-- What the environment contributes to a run: the number of named items collected, whether
the first `kmalloc` of the analysis succeeds, and what the analysis returns otherwise. -/
structure RunEnv where
  named : ℕ
  kmalloc : Bool
  ret : ℤ
  ret_int : -2 ^ 31 ≤ ret ∧ ret < 2 ^ 31

/-- `analyze_save_check`, as far as the status is concerned.  An allocation of no bytes
succeeds and owns nothing. -/
def analyzeSaveCheck (env : RunEnv) (status : AnalyzeStatus) (heap : Heap) :
    ℤ × AnalyzeStatus × Heap :=
  if status.initTag = 1 then (env.ret, status, heap)
  else if env.named = 0 then (responseOk, ⟨analyzeStatusSaveCheck, none, 0, 1⟩, heap)
  else if env.kmalloc then
    let (ptr, heap) := heap.create .baseline
    (responseOk, ⟨analyzeStatusSaveCheck, some ptr, env.named, 1⟩, heap)
  else (-eNoMem, { status with data := none }, heap)

/-- `wf->analyze_func`. -/
def AnalyzeFunc.call (func : AnalyzeFunc) (env : RunEnv) (status : AnalyzeStatus) (heap : Heap) :
    ℤ × AnalyzeStatus × Heap :=
  match func with
  | .analyzeSaveCheck => Framework.analyzeSaveCheck env status heap
  | .custom _ => (env.ret, status, heap)

variable {M : Type*} [DecidableEq M]

/-- `preset_workflow`; it returns nothing when it calls a null collect or analyze function. -/
def presetWorkflow (ptr : WorkflowPtr M) (env : RunEnv) (s : State M) :
    Option (Dispatch × State M) :=
  let vars := s.workflows ptr
  if vars.collectArray.all fun collect => collect.collectFunc.isSome then
    vars.analyzeFunc.map fun func =>
      let (ret, status, heap) := func.call env vars.analyzeStatus s.heap
      (dispatch heap vars.responseArray ret,
        { s with
          workflows := Function.update s.workflows ptr { vars with analyzeStatus := status }
          heap := heap })
  else none

/-- The memory that a run reads: the baseline, if there is one and an item to compare with
it, and the default responses.  Save-check allocates before it reads. -/
def presetReads (ptr : WorkflowPtr M) (env : RunEnv) (s : State M) : List (Resource × ℕ) :=
  let vars := s.workflows ptr
  let baseline :=
    if vars.analyzeFunc = some .analyzeSaveCheck ∧ vars.analyzeStatus.initTag = 1 ∧
        env.kmalloc = true ∧ 0 < env.named
    then vars.analyzeStatus.data.toList.map fun data => (Resource.baseline, data)
    else []
  let responses :=
    match vars.responseArray with
    | .heap array _ => [(Resource.responseArray, array)]
    | .null | .static _ => []
  baseline ++ responses

end SecDetector.Framework
