import SecDetector.Framework.Hook

/-!
# The module manager

`secDetector_manager.c`: registration of a module with all its workflows, and
unregistration, which the failing path of the registration calls as its
rollback.  The module pointer is `none` when the caller passes a null pointer.

An operation that writes through a dead list pointer does not return: its result
is `none`.  Everything else returns a new state, with the return value where the
function has one.
-/

namespace SecDetector.Framework

open Lib

variable {M : Type*} [DecidableEq M]

/-! ## Unregistration -/

/-- `free_analyze_status_data` with `free_analyze_status_data_sc`. -/
def freeAnalyzeStatusData (status : AnalyzeStatus) (heap : Heap) : Heap :=
  if status.dataType = analyzeStatusSaveCheck then
    match status.data with
    | some ptr => heap.release .baseline ptr
    | none => heap
  else heap

/-- `kfree(wf->response_array)`. -/
def freeResponseArray (array : ResponseArray) (heap : Heap) : Heap :=
  match array with
  | .heap ptr _ => heap.release .responseArray ptr
  | .null | .static _ => heap

/-- What the workflow loop of `secDetector_module_unregister` frees after the
callback of a preset workflow is deleted.  The fields keep the freed pointers. -/
def freePreset (wf : Workflow) (vars : WorkflowVars M) (heap : Heap) : Heap :=
  if wf.workflowType = .preset then
    let heap := freeAnalyzeStatusData vars.analyzeStatus heap
    if wf.responseArrayLen = 0 then freeResponseArray vars.responseArray heap else heap
  else heap

/-- The workflow loop of `secDetector_module_unregister`, from index `i` on. -/
def unregisterLoop (env : ℕ → HookEnv) (m : M) : ℕ → List Workflow → State M → State M
  | _, [], s => s
  | i, wf :: wfs, s =>
      let (ret, hooks) := deleteCallback (env i) ⟨m, i⟩ wf s.hooks
      let s := { s with hooks := hooks }
      if ret < 0 then s
      else unregisterLoop env m (i + 1) wfs
        { s with heap := freePreset wf (s.workflows ⟨m, i⟩) s.heap }

/-- The condition in front of `list_del_rcu`. -/
def onModuleList (m : M) (node : ListHead M) : Prop :=
  node.next ≠ .null ∧ node.prev ≠ .null ∧ (node.next ≠ .node m ∨ node.prev ≠ .node m)

instance (m : M) (node : ListHead M) : Decidable (onModuleList m node) :=
  inferInstanceAs (Decidable (_ ∧ _ ∧ (_ ∨ _)))

/-- The statements behind the label `error` of `secDetector_module_unregister`. -/
def unlinkModule (m : M) (s : State M) : Option (State M) :=
  if onModuleList m (s.moduleList.node m) then
    (s.moduleList.delRcu m).map fun list => { s with moduleList := list }
  else some s

/-- `proc_remove(module->parameter->entry)`, if there is an entry. -/
def removeProcEntry (desc : M → Module) (m : M) (s : State M) : State M :=
  match (desc m).hasParameter, (s.modules m).entry with
  | true, some ptr => { s with heap := s.heap.release .procEntry ptr }
  | _, _ => s

/-- `secDetector_module_unregister`. -/
def secDetectorModuleUnregister (desc : M → Module) (env : ℕ → HookEnv) (module : Option M)
    (s : State M) : Option (State M) :=
  match module with
  | none => some s
  | some m =>
      let s := removeProcEntry desc m s
      -- in a rollback `module->id` is still what it was before the registration
      let (retId, idr) := s.moduleIdr.remove (s.modules m).id
      let s := { s with moduleIdr := idr }
      match retId with
      | none => unlinkModule m s
      | some _ =>
          unlinkModule m (unregisterLoop env m 0 ((desc m).workflowArray.getD []) s)

/-! ## Registration -/

/-- The answers of the environment during one registration: whether `idr_alloc` is
out of memory, the hook operations of workflow `i`, the allocation of its
default response array, `proc_create_data`, and the hook operations of the
rollback. -/
structure RegisterEnv where
  idrNoMem : Bool
  hook : ℕ → HookEnv
  kmalloc : ℕ → Bool
  procCreate : Bool
  rollback : ℕ → HookEnv

/-- The array of default responses that padding fills in. -/
def defaultResponses : List Response :=
  (List.range nrResponse).map fun type => ⟨type, responseUnits type⟩

/-- `secDetector_collect_analyze_response_unit_padding`. -/
def secDetectorCollectAnalyzeResponseUnitPadding (wf : Workflow) (kmalloc : Bool)
    (vars : WorkflowVars M) (heap : Heap) : WorkflowVars M × Heap :=
  let vars := { vars with
    collectArray := vars.collectArray.map fun collect =>
      if collect.collectType < collectCustomization then
        { collect with collectFunc := collectUnits collect.collectType }
      else collect
    analyzeFunc :=
      if wf.analyzeType < analyzeCustomization then analyzeUnits wf.analyzeType
      else vars.analyzeFunc }
  if wf.responseArrayLen = 0 then
    if kmalloc then
      let (ptr, heap) := heap.create .responseArray
      ({ vars with responseArray := .heap ptr defaultResponses }, heap)
    else (vars, heap)
  else
    match vars.responseArray with
    | .static array =>
        ({ vars with responseArray := .static (array.map fun response =>
            if response.responseType < responseCustomization then
              { response with responseFunc := responseUnits response.responseType }
            else response) }, heap)
    | .null | .heap _ _ => (vars, heap)

/-- The stores of the registration loop before `insert_callback`. -/
def prepareWorkflow (env : RegisterEnv) (m : M) (i : ℕ) (wf : Workflow) (s : State M) :
    State M :=
  let vars := { s.workflows ⟨m, i⟩ with module := some m }
  if wf.workflowType = .preset then
    let (vars, heap) := secDetectorCollectAnalyzeResponseUnitPadding wf (env.kmalloc i)
      { vars with runsPreset := true } s.heap
    { s with workflows := Function.update s.workflows ⟨m, i⟩ vars, heap := heap }
  else { s with workflows := Function.update s.workflows ⟨m, i⟩ vars }

/-- The workflow loop of `secDetector_module_register`, from index `i` on, with the
value of `ret` so far.  It stops at the first negative `ret`. -/
def registerLoop (env : RegisterEnv) (m : M) :
    ℕ → List Workflow → ℤ → State M → ℤ × State M
  | _, [], ret, s => (ret, s)
  | i, wf :: wfs, _, s =>
      let s := prepareWorkflow env m i wf s
      let (ret, hooks) := insertCallback (env.hook i) ⟨m, i⟩ wf s.hooks
      let s := { s with hooks := hooks }
      if ret < 0 then (ret, s)
      else
        let vars := { s.workflows ⟨m, i⟩ with id := i }
        registerLoop env m (i + 1) wfs ret
          { s with workflows := Function.update s.workflows ⟨m, i⟩ vars }

/-- The workflow loop as a whole.  A null `workflow_array` is noticed in the first
round. -/
def registerWorkflows (desc : M → Module) (env : RegisterEnv) (m : M) (s : State M) :
    ℤ × State M :=
  match (desc m).workflowArray with
  | some array => registerLoop env m 0 array 0 s
  | none => if (desc m).workflowArrayLen = 0 then (0, s) else (-eInval, s)

/-- The creation of the proc entry. -/
def createProcEntry (desc : M → Module) (env : RegisterEnv) (m : M) (ret : ℤ) (s : State M) :
    ℤ × State M :=
  if (desc m).hasParameter then
    if env.procCreate then
      let (ptr, heap) := s.heap.create .procEntry
      (ret, { s with
        heap := heap
        modules := Function.update s.modules m { s.modules m with entry := some ptr } })
    else
      (-eInval, { s with
        modules := Function.update s.modules m { s.modules m with entry := none } })
  else (ret, s)

/-- The stores at the end of a successful registration. -/
def publishModule (m : M) (moduleId : ℕ) (s : State M) : Option (State M) :=
  (s.moduleList.addRcu m).map fun list =>
    { s with
      modules := Function.update s.modules m { s.modules m with id := moduleId }
      moduleList := list }

/-- `secDetector_module_register`. -/
def secDetectorModuleRegister (desc : M → Module) (env : RegisterEnv) (module : Option M)
    (s : State M) : Option (ℤ × State M) :=
  match module with
  | none => some (-eInval, s)
  | some m =>
      if env.idrNoMem then some (-eNoMem, s)
      else
        match s.moduleIdr.alloc m intMax with
        | none => some (-eNoSpc, s)
        | some (moduleId, idr) =>
            let (ret, s) := registerWorkflows desc env m { s with moduleIdr := idr }
            if ret < 0 then
              (secDetectorModuleUnregister desc env.rollback (some m) s).map (ret, ·)
            else
              let (ret, s) := createProcEntry desc env m ret s
              if ret < 0 then
                (secDetectorModuleUnregister desc env.rollback (some m) s).map (ret, ·)
              else (publishModule m moduleId s).map (ret, ·)

/-! ## The framework as a transition system -/

/-- A call into the framework. -/
inductive Call (M : Type*) where
  | register (env : RegisterEnv) (module : Option M)
  | unregister (env : ℕ → HookEnv) (module : Option M)

/-- The calls, one after the other. -/
def step (desc : M → Module) (s : State M) : Call M → Option (State M)
  | .register env module => (secDetectorModuleRegister desc env module s).map Prod.snd
  | .unregister env module => secDetectorModuleUnregister desc env module s

/-- The framework after `secDetector_init_manager`, before any module is known.
The modules' own structures hold what their authors put there: list nodes are
zero, no proc entry exists, and `response_array` is the author's array or null. -/
structure Initial (desc : M → Module) (s : State M) : Prop where
  idr : s.moduleIdr = Idr.empty
  hooks : s.hooks = ⟨fun _ => [], [], fun _ => false, fun _ => false⟩
  list : s.moduleList = ListMem.init
  entry : ∀ m, (s.modules m).entry = none
  response : ∀ ptr wf, workflowAt desc ptr = some wf →
    if wf.responseArrayLen = 0 then (s.workflows ptr).responseArray = .null
    else ∃ array, (s.workflows ptr).responseArray = .static array ∧
      array.length = wf.responseArrayLen
  status : ∀ ptr, (s.workflows ptr).analyzeStatus = ⟨0, none, 0, 0⟩
  heap : s.heap = ⟨0, []⟩

end SecDetector.Framework
