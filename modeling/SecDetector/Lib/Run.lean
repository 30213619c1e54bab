import Mathlib.Data.List.Induction
import Mathlib.Logic.Basic

/-!
# Runs of a partial transition function

A system is a state type `S`, an action type `A` and `step : S → A → Option S`,
where `none` means that the action is not enabled.  Everything the environment
chooses (outcomes of allocations, the thread that moves) is part of the action,
so `step` is a function.

`Run step ok init acts s` says that `s` is reached by the actions `acts`, each
of which met the guard `ok` in the state it was taken in.  A guard serves two
purposes: it restricts the runs a result is about, and, through `Leads`, it
expresses that every state of the run is good (`Run.leads_iff`).
-/

namespace SecDetector.Lib

variable {S A : Type*}

/-- The states reached from `init` by actions that meet the guard `ok`. -/
inductive Run (step : S → A → Option S) (ok : S → A → Prop) (init : S → Prop) :
    List A → S → Prop
  | start {s : S} (hinit : init s) : Run step ok init [] s
  | next {acts : List A} {s t : S} {a : A} (hrun : Run step ok init acts s) (hok : ok s a)
      (hstep : step s a = some t) : Run step ok init (acts ++ [a]) t

/-- The guard of unrestricted runs. -/
def Unguarded : S → A → Prop := fun _ _ => True

/-- The guard of runs that move through `good` states only. -/
def Leads (step : S → A → Option S) (good : S → Prop) : S → A → Prop :=
  fun s a => ∀ t, step s a = some t → good t

/-- Reachable by an unrestricted run. -/
def Reachable (step : S → A → Option S) (init : S → Prop) (s : S) : Prop :=
  ∃ acts, Run step Unguarded init acts s

variable {step : S → A → Option S} {ok ok' : S → A → Prop} {init inv good : S → Prop}

/-- **Invariant rule.**  What holds initially and is kept by every allowed step
holds after every run. -/
theorem Run.invariant (hinit : ∀ s, init s → inv s)
    (hstep : ∀ s a t, inv s → ok s a → step s a = some t → inv t)
    {acts : List A} {s : S} (hrun : Run step ok init acts s) : inv s := by
  induction hrun with
  | start h => exact hinit _ h
  | next _ hok hst ih => exact hstep _ _ _ ih hok hst

/-- A guard may be replaced by one that it implies in the states of the run. -/
theorem Run.mono (hinv : ∀ {acts s}, Run step ok init acts s → inv s)
    (himp : ∀ s a t, inv s → step s a = some t → ok s a → ok' s a)
    {acts : List A} {s : S} (hrun : Run step ok init acts s) : Run step ok' init acts s := by
  induction hrun with
  | start h => exact .start h
  | next hprev hok hst ih => exact .next ih (himp _ _ _ (hinv hprev) hst hok) hst

/-- The state after the actions, if all of them are enabled. -/
def exec (step : S → A → Option S) (s : S) (acts : List A) : Option S :=
  acts.foldlM step s

/-- A computed execution is a run, if its actions meet the guard in every state. -/
theorem Run.of_exec {s t : S} {acts : List A} (hstart : init s) (hok : ∀ a ∈ acts, ∀ s, ok s a)
    (hexec : exec step s acts = some t) : Run step ok init acts t := by
  induction acts using List.reverseRecOn generalizing t with
  | nil =>
      obtain rfl := Option.some.inj hexec
      exact .start hstart
  | append_singleton acts a ih =>
      rw [exec, List.foldlM_append] at hexec
      obtain ⟨mid, hmid, hlast⟩ := Option.bind_eq_some_iff.mp hexec
      rw [List.foldlM_cons] at hlast
      obtain ⟨last, hstep, hend⟩ := Option.bind_eq_some_iff.mp hlast
      obtain rfl := Option.some.inj hend
      rw [List.forall_mem_append, List.forall_mem_singleton] at hok
      exact .next (ih hok.1 hmid) (hok.2 mid) hstep

/-- A computed execution in which the guard is tested in every state. -/
theorem Run.of_guardedExec {ok : S → A → Prop} [∀ s a, Decidable (ok s a)] {s t : S} {acts : List A}
    (hstart : init s) (hexec : exec (fun s a => if ok s a then step s a else none) s acts = some t) :
    Run step ok init acts t := by
  have hrun : Run (fun s a => if ok s a then step s a else none) Unguarded init acts t :=
    .of_exec hstart (fun _ _ _ => trivial) hexec
  clear hexec
  induction hrun with
  | start h => exact .start h
  | next _ _ hst ih =>
      obtain ⟨hok, hst⟩ := Option.ite_none_right_eq_some.mp hst
      exact .next ih hok hst

theorem Reachable.invariant (hinit : ∀ s, init s → inv s)
    (hstep : ∀ s a t, inv s → step s a = some t → inv t)
    {s : S} (hreach : Reachable step init s) : inv s := by
  obtain ⟨acts, hrun⟩ := hreach
  exact hrun.invariant hinit fun s a t hs _ hst => hstep s a t hs hst

/-- **Exchange rule.**  Suppose that runs guarded by `ok` keep `inv`, and that the
guards agree on every step from `inv`.  Then they guard the same runs. -/
theorem Run.guard_iff (hinit : ∀ s, init s → inv s)
    (hkeep : ∀ s a t, inv s → ok s a → step s a = some t → inv t)
    (hagree : ∀ s a t, inv s → step s a = some t → (ok s a ↔ ok' s a))
    {acts : List A} {s : S} : Run step ok init acts s ↔ Run step ok' init acts s := by
  constructor
  · intro hrun
    exact hrun.mono (fun hprev => hprev.invariant hinit hkeep)
      fun s a t hs hst hok => (hagree s a t hs hst).mp hok
  · intro hrun
    induction hrun with
    | start h => exact .start h
    | @next acts s t a _ hok hst ih =>
        exact .next ih ((hagree s a t (ih.invariant hinit hkeep) hst).mpr hok) hst

/-- **Exactness rule.**  Suppose that runs guarded by `ok` keep `inv`, that
`inv` implies `good`, and that an allowed step from `inv` into a good state
meets `ok`.  Then the runs all of whose steps meet `ok` are exactly the runs
all of whose states are good. -/
theorem Run.leads_iff (hinit : ∀ s, init s → inv s)
    (hkeep : ∀ s a t, inv s → ok s a → step s a = some t → inv t)
    (hgood : ∀ s, inv s → good s)
    (hexact : ∀ s a t, inv s → step s a = some t → good t → ok s a)
    {acts : List A} {s : S} :
    Run step ok init acts s ↔ Run step (Leads step good) init acts s := by
  apply Run.guard_iff hinit hkeep
  intro s a t hs hst
  constructor
  · intro hok t' ht'
    exact hgood t' (hkeep s a t' hs hok ht')
  · intro hleads
    exact hexact s a t hs hst (hleads t hst)

end SecDetector.Lib
