import Mathlib.Data.Fintype.Option
import SecDetector.Handlers.CasesSpec
import SecDetector.Handlers.System

/-!
# The handlers are safe, and report as in the value model

For every order of the actions of the timers and the probes, and whatever requests are refused:
nothing is used or given back that is not held, only after a refused request may a handler get
stuck, and when all of them are done, the baselines are all that is held (`handlers_safe`).  What
they report is, round by round, what the value model reports when its requests are answered as
those of the round were (`handlers_refine`).
-/

namespace SecDetector.Handlers

open Lib
open Report (SaveCheckData Digest Tm)
open SecDetector.Task (Tasks)

/-! ## What is expected -/

/-- A probe is hit by a task that has its `fs_struct` and its name spaces. -/
def Probe.Proper {T : Type} : Probe T → Prop
  | .ptraceAttach sys current _ _ | .doPipe2 sys current _ => Present (sys.task current)

def Call.Proper {W : Type} : Call W → Prop
  | .preset _ units _ _ => units.length ≤ 2 ^ 20
  | .kmodule _ _ _ => True

/-- The guard of the runs. -/
def Proper {W T ι : Type} (_ : State W T ι) : Action W T ι → Prop
  | .doTimerWork workflows => ∀ workflow ∈ workflows, workflow.Proper
  | .hit _ p => p.Proper
  | .timerStep | .timerDone | .probeStep _ | .probeDone _ => True

def Probe.RecordOf {T : Type} : Probe T → List Bool → Option (List UInt8) → Prop
  | .ptraceAttach sys current args stm => PtraceAttachRecord sys current args stm
  | .doPipe2 sys current stm => DoPipe2Record sys current stm

variable {W T ι : Type} [DecidableEq W] {sha256 : List UInt8 → Digest}
  {eventType : W → BitVec 32} {answers : ℕ → Bool}

section Value

variable (sha256 eventType)

/-- The value model, with the baselines of the preset workflows as its state, and the answers to its
requests. -/
inductive Reported :
    (W → SaveCheckData) → Entry W T → List Bool → (W → SaveCheckData) → Prop
  | round {saved : W → SaveCheckData} {w : W} {units : List CollectUnit} {fresh : ℕ → BitVec 64}
      {stm : Tm} {d : List Bool} {saved' : SaveCheckData} {record : Option (List UInt8)}
      (hround : RoundValue sha256 units fresh stm (eventType w) (saved w) d saved' record) :
      Reported saved (.workflow (.preset w units fresh stm) record) d
        (Function.update saved w saved')
  | kmodule {saved : W → SaveCheckData} {trylock : Bool} {moduleKset : Option (List Kobject)}
      {stm : Tm} {d : List Bool} {record : Option (List UInt8)}
      (hrecord : KmoduleReport trylock moduleKset stm d record) :
      Reported saved (.workflow (.kmodule trylock moduleKset stm) record) d saved
  | probe {saved : W → SaveCheckData} {p : Probe T} {d : List Bool}
      {record : Option (List UInt8)} (hrecord : p.RecordOf d record) :
      Reported saved (.probe p record) d saved

/-- A run of the value model, with the answers for each entry. -/
inductive ReportedAll :
    (W → SaveCheckData) → List (Entry W T) → List (List Bool) → (W → SaveCheckData) → Prop
  | nil {saved : W → SaveCheckData} : ReportedAll saved [] [] saved
  | cons {saved saved' saved'' : W → SaveCheckData} {entry : Entry W T} {d : List Bool}
      {log : List (Entry W T)} {ds : List (List Bool)}
      (hentry : Reported sha256 eventType saved entry d saved')
      (hlog : ReportedAll saved' log ds saved'') :
      ReportedAll saved (entry :: log) (d :: ds) saved''

end Value

theorem ReportedAll.append {saved saved' saved'' : W → SaveCheckData} {log log' : List (Entry W T)}
    {ds ds' : List (List Bool)} (h : ReportedAll sha256 eventType saved log ds saved')
    (h' : ReportedAll sha256 eventType saved' log' ds' saved'') :
    ReportedAll sha256 eventType saved (log ++ log') (ds ++ ds') saved'' := by
  induction h with
  | nil => exact h'
  | cons hentry _ ih => exact .cons hentry (ih h')

theorem Reported.all {saved saved' : W → SaveCheckData} {entry : Entry W T} {d : List Bool}
    (h : Reported sha256 eventType saved entry d saved') :
    ReportedAll sha256 eventType saved [entry] [d] saved' := .cons h .nil

/-! ## The programs -/

section Programs

variable [Fintype W]

/-- What the workflows keep. -/
def Shared.owned (shared : Shared W) : Multiset Ptr :=
  ∑ w, Lib.owned (shared.analyzeStatus w).data + ownedEntries shared.moduleList

/-- Between two timers the list of modules is empty. -/
structure Shared.Sound (shared : Shared W) : Prop where
  ready : ∀ w, (shared.analyzeStatus w).Ready
  moduleList : shared.moduleList = []

def Shared.saved (shared : Shared W) (w : W) : SaveCheckData := (shared.analyzeStatus w).saved

variable {shared : Shared W}

omit [Fintype W] in
theorem Shared.Sound.update (hshared : shared.Sound) (w : W) {status : AnalyzeStatus}
    (hstatus : status.Ready) :
    { shared with analyzeStatus := Function.update shared.analyzeStatus w status }.Sound where
  ready := (Function.forall_update_iff _ fun _ => AnalyzeStatus.Ready).mpr
    ⟨hstatus, fun w' _ => hshared.ready w'⟩
  moduleList := hshared.moduleList

/-- What the others keep while `w` has a round. -/
def Shared.others (shared : Shared W) (w : W) : Multiset Ptr :=
  ∑ w' ∈ Finset.univ \ {w}, Lib.owned (shared.analyzeStatus w').data +
    ownedEntries shared.moduleList

theorem Shared.owned_eq (shared : Shared W) (w : W) :
    shared.owned = Lib.owned (shared.analyzeStatus w).data + shared.others w := by
  rw [Shared.owned, Finset.sum_eq_add_sum_sdiff_singleton_of_mem (Finset.mem_univ w), add_assoc]
  rfl

theorem Shared.owned_update (shared : Shared W) (w : W) (status : AnalyzeStatus) :
    Lib.owned status.data + shared.others w =
      { shared with analyzeStatus := Function.update shared.analyzeStatus w status }.owned := by
  have hsum := Finset.sum_update_of_mem (Finset.mem_univ w)
    (fun w' => Lib.owned (shared.analyzeStatus w').data) (Lib.owned status.data)
  rw [Shared.owned, Shared.others, ← add_assoc, ← hsum]
  congr 1
  refine Finset.sum_congr rfl fun w' _ => ?_
  exact (Function.apply_update (fun _ (st : AnalyzeStatus) => Lib.owned st.data) _ w status w').symm

omit [Fintype W] in
theorem Shared.saved_update (shared : Shared W) (w : W) (status : AnalyzeStatus) :
    { shared with analyzeStatus := Function.update shared.analyzeStatus w status }.saved =
      Function.update shared.saved w status.saved := by
  funext w'
  exact Function.apply_update (fun _ => AnalyzeStatus.saved) _ w status w'

/-- The workflows leave the shared data sound, and report as in the value model. -/
structure CallsOf (sha256 : List UInt8 → Digest) (eventType : W → BitVec 32) (shared : Shared W)
    (d : List Bool) (r : Shared W × List (Entry W T)) : Prop where
  sound : r.1.Sound
  reported : ∃ ds : List (List Bool), d = ds.flatten ∧
    ReportedAll sha256 eventType shared.saved r.2 ds r.1.saved

structure CallOf (sha256 : List UInt8 → Digest) (eventType : W → BitVec 32) (shared : Shared W)
    (d : List Bool) (r : Shared W × Entry W T) : Prop where
  sound : r.1.Sound
  reported : Reported sha256 eventType shared.saved r.2 d r.1.saved

theorem turns_call (hshared : shared.Sound) {workflow : Call W} (hproper : workflow.Proper) :
    Turns (false ∈ ·) shared.owned (workflow.run (T := T) sha256 eventType shared)
      (fun r => r.1.owned) (CallOf sha256 eventType shared) := by
  cases workflow with
  | preset w units fresh stm =>
      refine .bind (shared.others w) (turns_presetWorkflow hproper fresh (hshared.ready w)
        (eventType w) stm) ?_ (shared.owned_eq w)
      rintro d ⟨status, record⟩ ⟨hready, hvalue⟩
      refine .pure (shared.owned_update w status) ?_
      rw [List.append_nil]
      refine ⟨hshared.update w hready, ?_⟩
      rw [Shared.saved_update]
      exact .round hvalue
  | kmodule trylock moduleKset stm =>
      obtain ⟨analyzeStatus, moduleList⟩ := shared
      obtain rfl : moduleList = [] := hshared.moduleList
      refine .bind (∑ w, Lib.owned (analyzeStatus w).data)
        (turns_checkWatchingKmodule trylock moduleKset stm) ?_ ?_
      · rintro d ⟨moduleList, record⟩ ⟨hnil, hrecord⟩
        obtain rfl : moduleList = [] := hnil
        refine .pure (add_comm _ _) ?_
        rw [List.append_nil]
        exact ⟨⟨hshared.ready, rfl⟩, .kmodule hrecord⟩
      · exact add_comm _ _

theorem turns_doSecDetectorCallback (hshared : shared.Sound) {workflows : List (Call W)}
    (hproper : ∀ workflow ∈ workflows, workflow.Proper) :
    Turns (false ∈ ·) shared.owned
      (doSecDetectorCallback (T := T) sha256 eventType workflows shared) (fun r => r.1.owned)
      (CallsOf sha256 eventType shared) := by
  induction workflows generalizing shared with
  | nil => exact .pure rfl ⟨hshared, [], rfl, .nil⟩
  | cons workflow workflows ih =>
      obtain ⟨hworkflow, hworkflows⟩ := List.forall_mem_cons.mp hproper
      refine .seq (turns_call hshared hworkflow) ?_
      rintro d ⟨shared', entry⟩ ⟨hsound, hentry⟩
      refine .seq ((ih hsound hworkflows).mono_stop fun _ => List.mem_append_right d) ?_
      rintro _ ⟨shared'', entries⟩ ⟨hsound', ds, rfl, hentries⟩
      refine .pure rfl ⟨hsound', d :: ds, ?_, .cons hentry hentries⟩
      rw [List.append_nil, List.flatten_cons]

end Programs

theorem turns_preHandler {p : Probe T} (hproper : p.Proper) :
    Turns (false ∈ ·) 0 p.preHandler (fun _ => 0) p.RecordOf := by
  cases p with
  | ptraceAttach sys current args stm => exact turns_ptraceAttachPreHandler hproper args stm
  | doPipe2 sys current stm => exact turns_doPipe2PreHandler hproper stm

/-! ## The invariant -/

section System

variable [Fintype W] [Fintype ι] [DecidableEq ι] {s s' : State W T ι}

/-- The timer's work has enough to go on: `own`, or nothing if there is none.  It has made the
requests `asked`. -/
def TimerWorkHas (sha256 : List UInt8 → Digest) (eventType : W → BitVec 32) (answers : ℕ → Bool)
    (shared : Shared W) (own : Multiset Ptr) (asked : List ℕ) :
    Option (Kernel (Shared W × List (Entry W T))) → Prop
  | none => own = 0 ∧ asked = []
  | some x => TurnsAfter (asked.map answers) (false ∈ ·) own x (fun r => r.1.owned)
      (CallsOf sha256 eventType shared)

def ProbeHas (answers : ℕ → Bool) (own : Multiset Ptr) (asked : List ℕ) :
    Option (Probe T × Kernel (Option (List UInt8))) → Prop
  | none => own = 0 ∧ asked = []
  | some (p, x) => TurnsAfter (asked.map answers) (false ∈ ·) own x (fun _ => 0) p.RecordOf

/-- What the workflows keep is with the timer while it works. -/
def State.atRest (s : State W T ι) : Multiset Ptr :=
  match s.timerWork with
  | none => s.shared.owned
  | some _ => 0

/-- What is held is with the timer's work, which is `none` here, with the probes, or kept by the
workflows.  In the same way the requests are those of the timer's work, of the probes, or
`requests`, those of what has been done. -/
structure Accounts (sha256 : List UInt8 → Digest) (eventType : W → BitVec 32) (answers : ℕ → Bool)
    (s : State W T ι) (own : Option ι → Multiset Ptr) (asked : Option ι → List ℕ)
    (requests : List (List ℕ)) : Prop where
  answered : s.store.answers = answers
  shares : Shares s.store own s.atRest asked (requests.flatten : List ℕ)
  order : ∀ list ∈ requests, list.Pairwise (· < ·)
  timerWork : TimerWorkHas sha256 eventType answers s.shared (own none) (asked none) s.timerWork
  probes : ∀ i, ProbeHas answers (own (some i)) (asked (some i)) (s.probes i)
  sound : s.shared.Sound
  log : ReportedAll sha256 eventType (fun _ => AnalyzeStatus.zero.saved) s.log
    (requests.map (List.map answers)) s.shared.saved
  fault : ∀ fault ∈ s.fault, fault = .stuck ∧ ∃ n < s.store.asked, answers n = false

/-- The invariant of the runs. -/
def Inv (sha256 : List UInt8 → Digest) (eventType : W → BitVec 32) (answers : ℕ → Bool)
    (s : State W T ι) : Prop :=
  ∃ own asked requests, Accounts sha256 eventType answers s own asked requests

variable {own : Option ι → Multiset Ptr} {asked : Option ι → List ℕ} {requests : List (List ℕ)}

omit [DecidableEq ι] in
theorem accounts_initial :
    Accounts sha256 eventType answers (State.initial answers : State W T ι) (fun _ => 0)
      (fun _ => []) [] where
  answered := rfl
  shares := by
    refine ⟨?_, ?_, fun _ => .nil⟩
    · show (0 : Multiset Ptr) = _ + (∑ w : W, 0 + 0)
      simp
    · show (0 : Multiset ℕ) = ∑ _, 0 + 0
      simp
  order := nofun
  timerWork := ⟨rfl, rfl⟩
  probes _ := ⟨rfl, rfl⟩
  sound := ⟨fun _ => rfl, rfl⟩
  log := .nil
  fault := nofun

/-- The timer's work, or a probe, does its next action. -/
theorem Accounts.advance {α : Type} {x : Kernel α} {i : Option ι} {post : α → Multiset Ptr}
    {fact : List Bool → α → Prop} (h : Accounts sha256 eventType answers s own asked requests)
    (hx : TurnsAfter ((asked i).map answers) (false ∈ ·) (own i) x post fact)
    {continueWith : Kernel α → State W T ι}
    (hnext : ∀ x' store own' asked', store.answers = answers →
      Shares store (Function.update own i own') s.atRest (Function.update asked i asked')
        (requests.flatten : List ℕ) →
      TurnsAfter (asked'.map answers) (false ∈ ·) own' x' post fact →
      Inv sha256 eventType answers { continueWith x' with store := store }) :
    Inv sha256 eventType answers (s.advance x continueWith) := by
  obtain rfl := h.answered
  have hstep := h.shares.step hx
  unfold State.advance
  revert hstep
  cases x.step s.store with
  | error fault =>
      rintro ⟨rfl, hrefused⟩
      refine ⟨own, asked, requests, { h with fault := ?_ }⟩
      rintro _ ⟨⟩
      obtain ⟨n, hn, hanswer⟩ := List.mem_map.mp hrefused
      exact ⟨rfl, n, h.shares.lt_asked hn, hanswer⟩
  | ok r =>
      rintro ⟨own', asked', hanswers, hshares, hx'⟩
      exact hnext r.1 r.2 own' asked' hanswers hshares hx'

omit [DecidableEq W] [Fintype W] [Fintype ι] in
theorem probes_update (hprobes : ∀ i, ProbeHas answers (own (some i)) (asked (some i)) (s.probes i))
    (i : ι) {own' : Multiset Ptr} {asked' : List ℕ}
    {probe : Option (Probe T × Kernel (Option (List UInt8)))}
    (hprobe : ProbeHas answers own' asked' probe) (j : ι) :
    ProbeHas answers (Function.update own (some i) own' (some j))
      (Function.update asked (some i) asked' (some j)) (Function.update s.probes i probe j) := by
  by_cases hj : j = i
  · subst hj
    rw [Function.update_self, Function.update_self, Function.update_self]
    exact hprobe
  · have hne : some j ≠ some i := fun h => hj (Option.some.inj h)
    rw [Function.update_of_ne hj, Function.update_of_ne hne, Function.update_of_ne hne]
    exact hprobes j

omit [DecidableEq W] [Fintype W] [Fintype ι] in
theorem probes_timer (hprobes : ∀ i, ProbeHas answers (own (some i)) (asked (some i)) (s.probes i))
    (own' : Multiset Ptr) (asked' : List ℕ) (i : ι) :
    ProbeHas answers (Function.update own none own' (some i))
      (Function.update asked none asked' (some i)) (s.probes i) := by
  rw [Function.update_of_ne (Option.some_ne_none i), Function.update_of_ne (Option.some_ne_none i)]
  exact hprobes i

theorem Accounts.doTimerWork (h : Accounts sha256 eventType answers s own asked requests)
    {workflows : List (Call W)} (hproper : ∀ workflow ∈ workflows, workflow.Proper)
    (hidle : s.timerWork = none) :
    Inv sha256 eventType answers { s with
      timerWork := some (doSecDetectorCallback sha256 eventType workflows s.shared) } := by
  have htimer := h.timerWork
  rw [hidle] at htimer
  obtain ⟨hown, hasked⟩ := htimer
  have hrest : s.atRest = s.shared.owned := by rw [State.atRest, hidle]
  refine ⟨Function.update own none s.shared.owned, Function.update asked none [], requests,
    { h with
      shares := h.shares.transfer none ?_ (by rw [hasked]) .nil
      timerWork := ?_
      probes := probes_timer h.probes _ _ }⟩
  · rw [hown, hrest, zero_add]
    exact (add_zero _).symm
  · rw [Function.update_self, Function.update_self]
    exact turns_doSecDetectorCallback h.sound hproper

theorem Accounts.timerStep (h : Accounts sha256 eventType answers s own asked requests)
    (hfault : s.fault = none) {x : Kernel (Shared W × List (Entry W T))}
    (hwork : s.timerWork = some x) :
    Inv sha256 eventType answers (s.advance x fun x' => { s with timerWork := some x' }) := by
  have htimer := h.timerWork
  rw [hwork] at htimer
  refine h.advance htimer fun x' store own' asked' hanswers hshares hx' => ?_
  refine ⟨_, _, requests,
    { h with
      answered := hanswers
      shares := ?_
      timerWork := ?_
      probes := probes_timer h.probes own' asked'
      fault := by simp [hfault] }⟩
  · have hrest : s.atRest = 0 := by rw [State.atRest, hwork]
    rw [hrest] at hshares
    exact hshares
  · rw [Function.update_self, Function.update_self]
    exact hx'

/-- Answers in parts are the answers to parts of the requests. -/
theorem exists_parts {list : List ℕ} {ds : List (List Bool)} (h : list.map answers = ds.flatten) :
    ∃ parts : List (List ℕ), parts.flatten = list ∧ parts.map (List.map answers) = ds := by
  induction ds generalizing list with
  | nil => exact ⟨[], (List.map_eq_nil_iff.mp h).symm, rfl⟩
  | cons d ds ih =>
      obtain ⟨part, rest, rfl, rfl, hrest⟩ := List.map_eq_append_iff.mp h
      obtain ⟨parts, rfl, rfl⟩ := ih hrest
      exact ⟨part :: parts, rfl, rfl⟩

theorem Accounts.timerDone (h : Accounts sha256 eventType answers s own asked requests)
    {shared : Shared W} {entries : List (Entry W T)}
    (hwork : s.timerWork = some (.pure (shared, entries))) :
    Inv sha256 eventType answers
      { s with shared := shared, log := s.log ++ entries, timerWork := none } := by
  have htimer := h.timerWork
  rw [hwork] at htimer
  obtain ⟨hown, hsound, ds, hds, hentries⟩ := htimer
  rw [List.append_nil] at hds
  obtain ⟨parts, hparts, rfl⟩ := exists_parts hds
  have hrest : s.atRest = 0 := by rw [State.atRest, hwork]
  refine ⟨Function.update own none 0, Function.update asked none [], requests ++ parts,
    { h with
      shares := h.shares.transfer none ?_ ?_ .nil
      order := ?_
      timerWork := ?_
      probes := probes_timer h.probes _ _
      sound := hsound
      log := ?_ }⟩
  · rw [hown, hrest]
    exact add_comm _ _
  · rw [List.flatten_append, hparts, ← Multiset.coe_add, add_comm]
    exact (zero_add _).symm
  · have hasked := h.shares.order none
    rw [← hparts, List.pairwise_flatten] at hasked
    exact List.forall_mem_append.mpr ⟨h.order, hasked.1⟩
  · rw [Function.update_self, Function.update_self]
    exact ⟨rfl, rfl⟩
  · rw [List.map_append]
    exact h.log.append hentries

theorem Accounts.hit (h : Accounts sha256 eventType answers s own asked requests) {i : ι}
    {p : Probe T} (hproper : p.Proper) (hidle : s.probes i = none) :
    Inv sha256 eventType answers
      { s with probes := Function.update s.probes i (some (p, p.preHandler)) } := by
  have hprobe := h.probes i
  rw [hidle] at hprobe
  obtain ⟨hown, hasked⟩ := hprobe
  have hnew : ProbeHas answers (own (some i)) (asked (some i)) (some (p, p.preHandler)) := by
    rw [hown, hasked]
    exact turns_preHandler hproper
  have hprobes := probes_update h.probes i hnew
  rw [Function.update_eq_self, Function.update_eq_self] at hprobes
  exact ⟨own, asked, requests, { h with probes := hprobes }⟩

theorem Accounts.probeStep (h : Accounts sha256 eventType answers s own asked requests)
    (hfault : s.fault = none) {i : ι} {p : Probe T} {x : Kernel (Option (List UInt8))}
    (hi : s.probes i = some (p, x)) :
    Inv sha256 eventType answers (s.advance x fun x' =>
      { s with probes := Function.update s.probes i (some (p, x')) }) := by
  have hprobe := h.probes i
  rw [hi] at hprobe
  refine h.advance hprobe fun x' store own' asked' hanswers hshares hx' => ?_
  refine ⟨_, _, requests,
    { h with
      answered := hanswers
      shares := hshares
      timerWork := ?_
      probes := probes_update h.probes i hx'
      fault := by simp [hfault] }⟩
  have hne : (none : Option ι) ≠ some i := (Option.some_ne_none i).symm
  rw [Function.update_of_ne hne, Function.update_of_ne hne]
  exact h.timerWork

theorem Accounts.probeDone (h : Accounts sha256 eventType answers s own asked requests) {i : ι}
    {p : Probe T} {record : Option (List UInt8)} (hi : s.probes i = some (p, .pure record)) :
    Inv sha256 eventType answers { s with
      log := s.log ++ [.probe p record]
      probes := Function.update s.probes i none } := by
  have hprobe := h.probes i
  rw [hi] at hprobe
  obtain ⟨hown, hrecord⟩ := hprobe
  rw [List.append_nil] at hrecord
  have hnone : ProbeHas answers 0 [] (none : Option (Probe T × Kernel _)) := ⟨rfl, rfl⟩
  refine ⟨Function.update own (some i) 0, Function.update asked (some i) [],
    requests ++ [asked (some i)],
    { h with
      shares := h.shares.transfer (some i) (by rw [hown]; rfl) ?_ .nil
      order := ?_
      timerWork := ?_
      probes := probes_update h.probes i hnone
      log := ?_ }⟩
  · rw [List.flatten_append, List.flatten_singleton, ← Multiset.coe_add, add_comm]
    exact (zero_add _).symm
  · exact List.forall_mem_append.mpr
      ⟨h.order, List.forall_mem_singleton.mpr (h.shares.order (some i))⟩
  · have hne : (none : Option ι) ≠ some i := (Option.some_ne_none i).symm
    rw [Function.update_of_ne hne, Function.update_of_ne hne]
    exact h.timerWork
  · rw [List.map_append]
    exact h.log.append (Reported.probe hrecord).all

theorem Accounts.step {a : Action W T ι}
    (h : Accounts sha256 eventType answers s own asked requests) (hproper : Proper s a)
    (hstep : Handlers.step sha256 eventType s a = some s') : Inv sha256 eventType answers s' := by
  cases a with
  | doTimerWork workflows =>
      obtain ⟨⟨-, hidle⟩, ⟨⟩⟩ := Option.ite_none_right_eq_some.mp hstep
      exact h.doTimerWork hproper (Option.isNone_iff_eq_none.mp hidle)
  | hit i p =>
      obtain ⟨⟨-, hidle⟩, ⟨⟩⟩ := Option.ite_none_right_eq_some.mp hstep
      exact h.hit hproper (Option.isNone_iff_eq_none.mp hidle)
  | timerStep =>
      simp only [Handlers.step] at hstep
      split at hstep
      · rename_i x hfault hwork
        exact Option.some.inj hstep ▸ h.timerStep hfault hwork
      · cases hstep
  | timerDone =>
      simp only [Handlers.step] at hstep
      split at hstep
      · rename_i hwork
        exact Option.some.inj hstep ▸ h.timerDone hwork
      · cases hstep
  | probeStep i =>
      simp only [Handlers.step] at hstep
      split at hstep
      · rename_i p x hfault hi
        exact Option.some.inj hstep ▸ h.probeStep hfault hi
      · cases hstep
  | probeDone i =>
      simp only [Handlers.step] at hstep
      split at hstep
      · rename_i p record _ hi
        exact Option.some.inj hstep ▸ h.probeDone hi
      · cases hstep

theorem inv_of_run {acts : List (Action W T ι)}
    (hrun : Run (Handlers.step sha256 eventType) Proper (· = State.initial answers) acts s) :
    Inv sha256 eventType answers s := by
  refine hrun.invariant (fun _ hs => hs ▸ ⟨_, _, _, accounts_initial⟩) ?_
  rintro _ _ _ ⟨own, asked, requests, h⟩ hproper hstep
  exact h.step hproper hstep

/-! ## The results -/

omit [DecidableEq ι] in
/-- Where nothing runs, nothing is left to a program. -/
theorem Accounts.idle (h : Accounts sha256 eventType answers s own asked requests)
    (hwork : s.timerWork = none) (hprobes : ∀ i, s.probes i = none) (i : Option ι) :
    own i = 0 ∧ asked i = [] := by
  cases i with
  | none =>
      have htimer := h.timerWork
      rw [hwork] at htimer
      exact htimer
  | some i =>
      have hprobe := h.probes i
      rw [hprobes i] at hprobe
      exact hprobe

/-- What has been done has made its own requests, in the order of the lists, and `asked` requests
have been made. -/
structure Requested (asked : ℕ) (requests : List (List ℕ)) : Prop where
  nodup : requests.flatten.Nodup
  order : ∀ list ∈ requests, list.Pairwise (· < ·)
  lt_asked : ∀ n ∈ requests.flatten, n < asked

omit [DecidableEq ι] in
theorem Accounts.requested (h : Accounts sha256 eventType answers s own asked requests) :
    Requested s.store.asked requests := by
  have hle : (requests.flatten : Multiset ℕ) ≤ Multiset.range s.store.asked := by
    rw [h.shares.requests]
    exact Multiset.le_add_left _ _
  exact ⟨Multiset.coe_nodup.mp (Multiset.nodup_of_le hle (Multiset.nodup_range _)), h.order,
    fun n hn => Multiset.mem_range.mp (Multiset.mem_of_le hle (Multiset.mem_coe.mpr hn))⟩

/-- **What has been done is a run of the value model**, from no baselines to those of the
workflows.  Each entry of it gets the answers to its own requests, and when nothing runs, these are
all the requests that have been made. -/
theorem handlers_refine {acts : List (Action W T ι)}
    (hrun : Run (Handlers.step sha256 eventType) Proper (· = State.initial answers) acts s) :
    ∃ requests : List (List ℕ), Requested s.store.asked requests ∧
      ReportedAll sha256 eventType (fun _ => AnalyzeStatus.zero.saved) s.log
        (requests.map (List.map answers)) s.shared.saved ∧
      (s.timerWork = none → (∀ i, s.probes i = none) →
        ∀ n < s.store.asked, n ∈ requests.flatten) := by
  obtain ⟨own, asked, requests, h⟩ := inv_of_run hrun
  refine ⟨requests, h.requested, h.log, fun hwork hprobes n hn => ?_⟩
  have hall : Multiset.range s.store.asked = (requests.flatten : List ℕ) := by
    rw [h.shares.requests, Finset.sum_eq_zero fun i _ => ?_, zero_add]
    rw [(h.idle hwork hprobes i).2]
    rfl
  rw [← Multiset.mem_range, hall] at hn
  exact Multiset.mem_coe.mp hn

/-! ## A run -/

/-- The beginning of 1970. -/
def epoch : Tm := ⟨70, 0, 1, 0, 0, 0⟩

/-- A round that looks at the switch of an arm64 machine. -/
def switchRound (sctlrEl1 : BitVec 64) : Call Unit :=
  .preset () [.functionSwitch .aarch64 ⟨0, 0, sctlrEl1⟩] (fun _ => 0) epoch

/-- While a round stores its baseline, a probe is hit, and its request is refused.  The next round
finds the switch turned off. -/
def hitDuringTimer : List (Action Unit (Fin 3) Unit) :=
  .doTimerWork [.kmodule true none epoch, switchRound Report.sctlrWxn] ::
    (List.replicate 6 .timerStep ++
      [.hit () (.doPipe2 Task.shellTasks (Fin.last 2) epoch), .probeStep (), .probeDone ()] ++
      List.replicate 10 .timerStep ++ [.timerDone, .doTimerWork [switchRound 0]] ++
      List.replicate 42 .timerStep ++ [.timerDone])

theorem hitDuringTimer_proper (s : State Unit (Fin 3) Unit) :
    ∀ a ∈ hitDuringTimer, Proper s a := by
  have hpresent : Present (Task.shellTasks.task (Fin.last 2)) := ⟨rfl, _, rfl, rfl⟩
  simpa [hitDuringTimer, switchRound, or_imp, forall_and, Proper, Call.Proper, Probe.Proper]
    using hpresent

theorem hitDuringTimer_run : ∃ s : State Unit (Fin 3) Unit,
    Run (Handlers.step (fun _ _ => 0) fun _ => 0) Proper (· = State.initial fun n => n ≠ 2)
      hitDuringTimer s ∧
    s.fault = none ∧ s.timerWork = none ∧ (∀ i, s.probes i = none) ∧
    (s.shared.analyzeStatus ()).data.isSome = true ∧
    s.log.map (fun entry => entry.record.isSome) = [false, false, false, true] ∧
    s.store.asked = 12 := by
  have hend : (exec (Handlers.step (fun _ _ => 0) fun _ => 0) (State.initial fun n => n ≠ 2)
      hitDuringTimer).map (fun s =>
        (s.fault.isNone && s.timerWork.isNone && (s.probes ()).isNone &&
          (s.shared.analyzeStatus ()).data.isSome,
          s.log.map (fun entry => entry.record.isSome), s.store.asked)) =
      some (true, [false, false, false, true], 12) := by
    decide +kernel
  obtain ⟨s, hexec, hs⟩ := Option.map_eq_some_iff.mp hend
  simp only [Prod.mk.injEq, Bool.and_eq_true, Option.isNone_iff_eq_none] at hs
  obtain ⟨⟨⟨⟨hfault, htimer⟩, hprobe⟩, hdata⟩, hlog, hasked⟩ := hs
  exact ⟨s, .of_exec rfl (fun a ha s => hitDuringTimer_proper s a ha) hexec, hfault, htimer,
    fun _ => hprobe, hdata, hlog, hasked⟩

/-- Four have been done, and the last of them has put out a record; between them they have got all
twelve answers. -/
theorem hitDuringTimer_refine :
    ∃ (s : State Unit (Fin 3) Unit) (requests : List (List ℕ)),
      s.log.map (fun entry => entry.record.isSome) = [false, false, false, true] ∧
      Requested 12 requests ∧
      ReportedAll (fun _ _ => 0) (fun _ => 0) (fun _ => AnalyzeStatus.zero.saved) s.log
        (requests.map (List.map fun n => n ≠ 2)) s.shared.saved ∧
      ∀ n < 12, n ∈ requests.flatten := by
  obtain ⟨s, hrun, _, htimer, hprobes, _, hlog, hasked⟩ := hitDuringTimer_run
  obtain ⟨requests, hrequested, hreported, hall⟩ := handlers_refine hrun
  rw [hasked] at hrequested hall
  exact ⟨s, requests, hlog, hrequested, hreported, hall htimer hprobes⟩

end System

end SecDetector.Handlers
