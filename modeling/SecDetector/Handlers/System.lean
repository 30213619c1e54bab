import Mathlib.Logic.Function.Basic
import SecDetector.Handlers.Cases
import SecDetector.Lib.Run

/-!
# The handlers side by side

The timers and the probes of the cases, in any order and on any number of CPUs.  The work of a
timer, `do_timer_work`, goes through the workflows of its list with `g_hook_list_array_mutex`; if
it does not get the mutex, it does nothing.  A probe runs whenever a task runs into it, also in the
middle of a timer's work.

The workflows are registered already; what registration does with their memory is part of the
model of the framework.
-/

namespace SecDetector.Handlers

open Lib
open Report (SaveCheckData Digest Tm)
open SecDetector.Task (Tasks)

/-! ## The work of a timer -/

/-- What the workflows of the timers keep: the preset workflows `W` their `analyze_status`, and
the kernel module case its list. -/
structure Shared (W : Type) where
  analyzeStatus : W → AnalyzeStatus
  moduleList : List ModuleEntry

/-- A workflow that is called, with what it then finds. -/
inductive Call (W : Type) where
  | preset (w : W) (units : List CollectUnit) (fresh : ℕ → BitVec 64) (stm : Tm)
  | kmodule (trylock : Bool) (moduleKset : Option (List Kobject)) (stm : Tm)

/-- The probes of the program actions. -/
inductive Probe (T : Type) where
  | ptraceAttach (sys : Tasks T) (current : T) (args : Option Report.PtraceArgs) (stm : Tm)
  | doPipe2 (sys : Tasks T) (current : T) (stm : Tm)

def Probe.preHandler {T : Type} : Probe T → Kernel (Option (List UInt8))
  | .ptraceAttach sys current args stm => ptraceAttachPreHandler sys current args stm
  | .doPipe2 sys current stm => doPipe2PreHandler sys current stm

/-- What has been done, with the record that was put out. -/
inductive Entry (W T : Type) where
  | workflow (call : Call W) (record : Option (List UInt8))
  | probe (p : Probe T) (record : Option (List UInt8))

def Entry.record {W T : Type} : Entry W T → Option (List UInt8)
  | .workflow _ record | .probe _ record => record

section Model

variable {W T ι : Type} [DecidableEq W] [DecidableEq ι] (sha256 : List UInt8 → Digest)
  (eventType : W → BitVec 32)

/-- The call of `workflow_func`. -/
def Call.run (shared : Shared W) : Call W → Kernel (Shared W × Entry W T)
  | .preset w units fresh stm => do
      let (status, record) ← presetWorkflow sha256 units fresh (shared.analyzeStatus w)
        (eventType w) stm
      pure ({ shared with analyzeStatus := Function.update shared.analyzeStatus w status },
        .workflow (.preset w units fresh stm) record)
  | .kmodule trylock moduleKset stm => do
      let (moduleList, record) ← checkWatchingKmodule trylock moduleKset stm shared.moduleList
      pure ({ shared with moduleList := moduleList },
        .workflow (.kmodule trylock moduleKset stm) record)

/-- The loop of `_do_secDetector_callback` over the workflows that are enabled. -/
def doSecDetectorCallback : List (Call W) → Shared W → Kernel (Shared W × List (Entry W T))
  | [], shared => pure (shared, [])
  | workflow :: workflows, shared => do
      let (shared, entry) ← workflow.run sha256 eventType shared
      let (shared, entries) ← doSecDetectorCallback workflows shared
      pure (shared, entry :: entries)

/-! ## The system -/

/-- `timerWork` is what is left to do of the work with `g_hook_list_array_mutex`, and `probes` are
the probes that are running, by the contexts `ι` that they run in. -/
structure State (W T ι : Type) where
  store : Store Kind
  shared : Shared W
  timerWork : Option (Kernel (Shared W × List (Entry W T)))
  probes : ι → Option (Probe T × Kernel (Option (List UInt8)))
  log : List (Entry W T)
  fault : Option (Fault Kind)

inductive Action (W T ι : Type) where
  /-- `do_timer_work` gets the mutex. -/
  | doTimerWork (workflows : List (Call W))
  | timerStep
  | timerDone
  /-- A task runs into a probe. -/
  | hit (i : ι) (p : Probe T)
  | probeStep (i : ι)
  | probeDone (i : ι)

/-- The next action of a program; a fault ends everything. -/
def State.advance {α : Type} (s : State W T ι) (x : Kernel α)
    (continueWith : Kernel α → State W T ι) : State W T ι :=
  match x.step s.store with
  | .ok (x', store) => { continueWith x' with store := store }
  | .error fault => { s with fault := some fault }

def step (s : State W T ι) : Action W T ι → Option (State W T ι)
  | .doTimerWork workflows =>
      if s.fault = none ∧ s.timerWork.isNone then
        some { s with
          timerWork := some (doSecDetectorCallback sha256 eventType workflows s.shared) }
      else none
  | .timerStep =>
      match s.fault, s.timerWork with
      | none, some x => some (s.advance x fun x' => { s with timerWork := some x' })
      | _, _ => none
  | .timerDone =>
      match s.fault, s.timerWork with
      | none, some (.pure (shared, entries)) =>
          some { s with shared := shared, log := s.log ++ entries, timerWork := none }
      | _, _ => none
  | .hit i p =>
      if s.fault = none ∧ (s.probes i).isNone then
        some { s with probes := Function.update s.probes i (some (p, p.preHandler)) }
      else none
  | .probeStep i =>
      match s.fault, s.probes i with
      | none, some (p, x) =>
          some (s.advance x fun x' =>
            { s with probes := Function.update s.probes i (some (p, x')) })
      | _, _ => none
  | .probeDone i =>
      match s.fault, s.probes i with
      | none, some (p, .pure record) =>
          some { s with
            log := s.log ++ [.probe p record]
            probes := Function.update s.probes i none }
      | _, _ => none

end Model

/-- `analyze_status` of a workflow that has not run. -/
def AnalyzeStatus.zero : AnalyzeStatus := ⟨none, ⟨fun _ => 0, 0, false⟩⟩

/-- Nothing has run yet.  `answers` says which requests for memory will be refused. -/
def State.initial {W T ι : Type} (answers : ℕ → Bool) : State W T ι where
  store := .empty answers
  shared := ⟨fun _ => .zero, []⟩
  timerWork := none
  probes _ := none
  log := []
  fault := none

end SecDetector.Handlers
