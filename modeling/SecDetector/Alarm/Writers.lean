import SecDetector.Alarm.Queue
import SecDetector.Lib.Run
import Mathlib.Logic.Function.Basic

/-!
# Concurrent writers of the alarm log

`write_log` again, now for any number of calls at a time.  The spin lock covers one
`kfifo_out` or one `kfifo_in`, not the whole call, so that other calls may come between the
test for room and the insertion.  `advance` is one atomic step of a call; a run is any
interleaving of such steps.

* `advance_settles`: what one step does to its call and to the events;
* `writers_keep_newest_iff`: the runs in which no call fails are those with `Room` at every
  `kfifo_out` and `kfifo_in`;
* `serial_room`: that is so if no two calls overlap.
-/

namespace SecDetector.Alarm.Writers

open Lib

/-- A buffer that `write_log` accepts. -/
structure Message where
  bytes : List UInt8
  pos : 1 ≤ bytes.length
  le : bytes.length ≤ msgLen
  deriving DecidableEq

/-- How far a call has come. -/
inductive Pc where
  | idle
  | checking (buf : Message)
  | evicting (buf : Message)
  | allocating (buf : Message)
  | inserting (buf : Message) (log : LogData)
  | returned (ret : ℤ)
  deriving DecidableEq

/-- `evicted` is a record that `kfifo_out` took for the call `w`; `inserted` is the step that
ends in `kfifo_in`, with what the log holds right after it. -/
inductive Event (W : Type*) where
  | evicted (w : W) (log : LogData)
  | inserted (w : W) (buf : Message) (after : List LogData)

structure State (W : Type*) where
  log : SecDetectorLog
  pc : W → Pc
  events : List (Event W)

inductive Action (W : Type*) where
  | call (w : W) (buf : Message)
  | advance (w : W)

/-- The record that a call allocates and fills. -/
def fill (buf : Message) : LogData :=
  let bufLen := buf.bytes.length
  let len := if bufLen = msgLen then bufLen - 1 else bufLen
  ⟨bufLen, some (buf.bytes.take len ++ List.replicate (bufLen - len) 0)⟩

variable {W : Type*}

/-- One atomic step of the call `w`. -/
def advance (w : W) (logFifo : Kfifo LogData) :
    Pc → Option (Kfifo LogData × Pc × List (Event W))
  | .idle => none
  | .checking buf =>
      if logFifo.avail = 0 then some (logFifo, .evicting buf, [])
      else some (logFifo, .allocating buf, [])
  | .evicting buf =>
      match logFifo.get with
      | (none, logFifo) => some (logFifo, .returned (-1), [])
      | (some log, logFifo) => some (logFifo, .checking buf, [.evicted w log])
  | .allocating buf => some (logFifo, .inserting buf (fill buf), [])
  | .inserting buf log =>
      let (ret, logFifo) := logFifo.put log
      some (logFifo, .returned (if ret ≠ 1 then -1 else 0), [.inserted w buf logFifo.toList])
  | .returned _ => none

def step [DecidableEq W] (s : State W) : Action W → Option (State W)
  | .call w buf =>
      if s.pc w = .idle then
        some { s with
          pc := Function.update s.pc w (if s.log.inflag then .checking buf else .returned (-1)) }
      else none
  | .advance w =>
      (advance w s.log.logFifo (s.pc w)).map fun (logFifo, pc, events) =>
        { log := { s.log with logFifo := logFifo }
          pc := Function.update s.pc w pc
          events := s.events ++ events }

/-- A log with any number of records, and no call yet. -/
def Initial (s : State W) : Prop :=
  s.log.inflag = true ∧ (∀ w, s.pc w = .idle) ∧ s.events = []

/-- Nothing is evicted for a call once its own record is in. -/
def Older : Event W → Event W → Prop
  | .inserted w _ _, .evicted w' _ => w ≠ w'
  | _, _ => True

/-- Every call that has returned has returned 0, every record is in the log right after it was
inserted, and only older ones are evicted for it. -/
structure KeepsNewest (s : State W) : Prop where
  returns : ∀ w ret, s.pc w = .returned ret → ret = 0
  inserts : ∀ w buf after, .inserted w buf after ∈ s.events →
    record (stored buf.bytes) ∈ after
  evicts : s.events.Pairwise Older

/-- `kfifo_out` finds a record and `kfifo_in` a free slot. -/
def Pc.Finds (logFifo : Kfifo LogData) : Pc → Prop
  | .evicting _ => logFifo.len ≠ 0
  | .inserting _ _ => logFifo.len < logFifo.size
  | _ => True

/-- The call that moves finds what its next step needs. -/
def Room (s : State W) : Action W → Prop
  | .call _ _ => True
  | .advance w => (s.pc w).Finds s.log.logFifo

/-! ## One step -/

theorem fill_eq (buf : Message) : fill buf = record (stored buf.bytes) := by
  unfold fill record
  dsimp only
  rw [fill_eq_stored, length_stored]

def Event.caller : Event W → W
  | .evicted w _ => w
  | .inserted w _ _ => w

/-- The record of `w` is not in yet. -/
def Pending (w : W) (events : List (Event W)) : Prop :=
  ∀ buf after, .inserted w buf after ∉ events

/-- What is known of a call at each point of its way. -/
def Sound (w : W) (events : List (Event W)) : Pc → Prop
  | .returned ret => ret = 0
  | .inserting buf log => log = fill buf ∧ Pending w events
  | _ => Pending w events

/-- What one step of `w` may add to the events. -/
structure Settles (w : W) (events new : List (Event W)) (pc : Pc) : Prop where
  own : ∀ e ∈ new, e.caller = w
  sound : Sound w (events ++ new) pc
  inserts : ∀ buf after, .inserted w buf after ∈ new → record (stored buf.bytes) ∈ after
  evicts : (events ++ new).Pairwise Older

variable {s : State W} {w : W}

/-- A step that neither takes out nor puts in. -/
theorem settles_nil {events : List (Event W)} {pc : Pc} (hevicts : events.Pairwise Older)
    (hsound : Sound w events pc) : Settles w events [] pc where
  own := by simp
  sound := by rwa [List.append_nil]
  inserts := by simp
  evicts := by rwa [List.append_nil]

theorem pending_append_evicted {events : List (Event W)} (hpending : Pending w events)
    (log : LogData) : Pending w (events ++ [.evicted w log]) := by
  intro buf after hmem
  rcases List.mem_append.mp hmem with hold | hnew
  · exact hpending buf after hold
  · simp at hnew

theorem advance_settles {logFifo logFifo' : Kfifo LogData} {pc pc' : Pc}
    {events new : List (Event W)} (hevicts : events.Pairwise Older) (hsound : Sound w events pc)
    (hroom : pc.Finds logFifo)
    (hstep : advance w logFifo pc = some (logFifo', pc', new)) : Settles w events new pc' := by
  cases pc with
  | idle => simp [advance] at hstep
  | returned ret => simp [advance] at hstep
  | checking buf =>
      by_cases hfull : logFifo.avail = 0
      · simp only [advance, if_pos hfull, Option.some.injEq, Prod.mk.injEq] at hstep
        obtain ⟨-, rfl, rfl⟩ := hstep
        exact settles_nil hevicts hsound
      · simp only [advance, if_neg hfull, Option.some.injEq, Prod.mk.injEq] at hstep
        obtain ⟨-, rfl, rfl⟩ := hstep
        exact settles_nil hevicts hsound
  | allocating buf =>
      simp only [advance, Option.some.injEq, Prod.mk.injEq] at hstep
      obtain ⟨-, rfl, rfl⟩ := hstep
      exact settles_nil hevicts ⟨rfl, hsound⟩
  | evicting buf =>
      obtain ⟨log, f, hget, -, -⟩ := logFifo.get_spec hroom
      simp only [advance, hget, Option.some.injEq, Prod.mk.injEq] at hstep
      obtain ⟨-, rfl, rfl⟩ := hstep
      refine ⟨by simp [Event.caller], pending_append_evicted hsound log, by simp, ?_⟩
      refine List.pairwise_append.mpr ⟨hevicts, List.pairwise_singleton _ _, fun e he e' he' => ?_⟩
      obtain rfl := List.mem_singleton.mp he'
      cases e with
      | evicted w' log' => trivial
      | inserted w' buf' after =>
          rintro rfl
          exact hsound buf' after he
  | inserting buf log =>
      obtain ⟨rfl, -⟩ := hsound
      obtain ⟨f, hput, -, hlist⟩ := logFifo.put_spec (fill buf) hroom
      simp only [advance, hput, Option.some.injEq, Prod.mk.injEq] at hstep
      obtain ⟨-, rfl, rfl⟩ := hstep
      refine ⟨by simp [Event.caller], rfl, fun buf' after hmem => ?_, ?_⟩
      · obtain ⟨-, rfl, rfl⟩ := Event.inserted.inj (List.mem_singleton.mp hmem)
        rw [hlist, fill_eq]
        exact List.mem_append_right _ (List.mem_singleton_self _)
      · refine List.pairwise_append.mpr ⟨hevicts, List.pairwise_singleton _ _,
          fun e _ e' he' => ?_⟩
        obtain rfl := List.mem_singleton.mp he'
        cases e <;> trivial

/-! ## All runs -/

/-- Every call is `Sound`, and nothing has gone wrong so far. -/
structure Inv (s : State W) : Prop where
  accepting : s.log.inflag = true
  sound : ∀ w, Sound w s.events (s.pc w)
  inserts : ∀ w buf after, .inserted w buf after ∈ s.events →
    record (stored buf.bytes) ∈ after
  evicts : s.events.Pairwise Older

theorem Inv.keepsNewest (hinv : Inv s) : KeepsNewest s where
  returns w ret hret := by
    have hsound := hinv.sound w
    rwa [hret] at hsound
  inserts := hinv.inserts
  evicts := hinv.evicts

theorem Inv.start (hinit : Initial s) : Inv s := by
  obtain ⟨haccepting, hidle, hevents⟩ := hinit
  refine ⟨haccepting, fun w => ?_, by simp [hevents], by simp [hevents]⟩
  rw [hidle w]
  intro buf after
  simp [hevents]

/-- The steps of one call do not disturb another. -/
theorem sound_append {w' : W} {events new : List (Event W)} {pc : Pc} (hne : w' ≠ w)
    (hown : ∀ e ∈ new, e.caller = w) (hsound : Sound w' events pc) :
    Sound w' (events ++ new) pc := by
  have hpending (h : Pending w' events) : Pending w' (events ++ new) := by
    intro buf after hmem
    rcases List.mem_append.mp hmem with hold | hnew
    · exact h buf after hold
    · exact hne (hown _ hnew)
  cases pc with
  | returned ret => exact hsound
  | inserting buf log => exact ⟨hsound.1, hpending hsound.2⟩
  | _ => exact hpending hsound

theorem Inv.step [DecidableEq W] {t : State W} {a : Action W} (hinv : Inv s) (hok : Room s a)
    (hstep : step s a = some t) : Inv t := by
  cases a with
  | call w buf =>
      by_cases hidle : s.pc w = .idle
      · rw [Writers.step, if_pos hidle, hinv.accepting, if_pos rfl] at hstep
        obtain rfl := Option.some.inj hstep
        refine ⟨hinv.accepting, fun w' => ?_, hinv.inserts, hinv.evicts⟩
        have hsound := hinv.sound w'
        dsimp only
        rcases eq_or_ne w' w with rfl | hne
        · rw [hidle] at hsound
          rw [Function.update_self]
          exact hsound
        · rw [Function.update_of_ne hne]
          exact hsound
      · rw [Writers.step, if_neg hidle] at hstep
        cases hstep
  | advance w =>
      obtain ⟨⟨logFifo, pc, new⟩, hadvance, rfl⟩ := Option.map_eq_some_iff.mp hstep
      have hsettles := advance_settles hinv.evicts (hinv.sound w) hok hadvance
      refine ⟨hinv.accepting, fun w' => ?_, fun w' buf after hmem => ?_, hsettles.evicts⟩
      · dsimp only
        rcases eq_or_ne w' w with rfl | hne
        · rw [Function.update_self]
          exact hsettles.sound
        · rw [Function.update_of_ne hne]
          exact sound_append hne hsettles.own (hinv.sound w')
      · rcases List.mem_append.mp hmem with hold | hnew
        · exact hinv.inserts w' buf after hold
        · obtain rfl : w' = w := hsettles.own _ hnew
          exact hsettles.inserts buf after hnew

/-- A call that does not find what it needs returns -1. -/
theorem room_of_keepsNewest [DecidableEq W] {t : State W} {a : Action W} (hstep : step s a = some t)
    (hgood : KeepsNewest t) : Room s a := by
  cases a with
  | call w buf => trivial
  | advance w =>
      obtain ⟨⟨logFifo, pc, new⟩, hadvance, rfl⟩ := Option.map_eq_some_iff.mp hstep
      have hreturns := hgood.returns w
      dsimp only at hreturns
      rw [Function.update_self] at hreturns
      show (s.pc w).Finds s.log.logFifo
      cases hpc : s.pc w with
      | evicting buf =>
          intro hempty
          rw [hpc, advance, Kfifo.get_of_empty _ hempty] at hadvance
          obtain ⟨-, rfl, -⟩ := hadvance
          exact absurd (hreturns (-1) rfl) (by decide)
      | inserting buf log =>
          by_contra hfull
          have havail : s.log.logFifo.avail = 0 := Nat.sub_eq_zero_of_le (not_lt.mp hfull)
          have hput : s.log.logFifo.put log = (0, s.log.logFifo) := by
            rw [Kfifo.put, dif_pos havail]
          rw [hpc, advance, hput] at hadvance
          obtain ⟨-, rfl, -⟩ := hadvance
          exact absurd (hreturns (-1) rfl) (by decide)
      | _ => trivial

/-- **When concurrent writers keep the newest record.** -/
theorem writers_keep_newest_iff [DecidableEq W] {acts : List (Action W)} :
    Run step Room Initial acts s ↔ Run step (Leads step KeepsNewest) Initial acts s :=
  Run.leads_iff (fun _ => Inv.start) (fun _ _ _ => Inv.step) (fun _ => Inv.keepsNewest)
    fun _ _ _ _ => room_of_keepsNewest

/-- The newest record can be lost: the log has one free slot, two calls see it, and the second
one to insert finds it taken. -/
theorem not_writers_keep_newest :
    ¬ ∀ (acts : List (Action Bool)) (s : State Bool),
      Run step Unguarded Initial acts s → KeepsNewest s := by
  intro hclaim
  let buf : Message := ⟨[1], by decide, by decide⟩
  let logFifo : Kfifo LogData := ((Kfifo.empty 1 (fun _ => ⟨0, none⟩) (by decide)).put (fill buf)).2
  let start : State Bool := ⟨⟨logFifo, true⟩, fun _ => .idle, []⟩
  have hexec : (exec step start
      [.call false buf, .call true buf, .advance false, .advance true, .advance false,
        .advance true, .advance false, .advance true]).map (fun s => s.pc true) =
      some (.returned (-1)) := by decide
  obtain ⟨s, hs, hpc⟩ := Option.map_eq_some_iff.mp hexec
  have hrun : Run step Unguarded Initial _ s :=
    Run.of_exec ⟨rfl, fun _ => rfl, rfl⟩ (fun _ _ _ => trivial) hs
  exact absurd ((hclaim _ s hrun).returns true _ hpc) (by decide)

/-! ## Calls that do not overlap -/

/-- The call does not come between two steps of another. -/
def Pc.AtRest : Pc → Prop
  | .idle => True
  | .returned _ => True
  | _ => False

/-- A call begins only when all others are at rest. -/
def Serial (s : State W) : Action W → Prop
  | .call _ _ => ∀ w, (s.pc w).AtRest
  | .advance _ => True

/-- What a call that is alone knows of the log. -/
def Pc.Fits (logFifo : Kfifo LogData) : Pc → Prop
  | .evicting _ => logFifo.len ≠ 0
  | .allocating _ => logFifo.len < logFifo.size
  | .inserting _ _ => logFifo.len < logFifo.size
  | _ => True

/-- Whoever is under way is alone. -/
def Alone (s : State W) : Prop :=
  ∀ w, ¬ (s.pc w).AtRest → (s.pc w).Fits s.log.logFifo ∧ ∀ w', w' ≠ w → (s.pc w').AtRest

theorem moving_of_advance {logFifo : Kfifo LogData} {pc : Pc}
    {next : Kfifo LogData × Pc × List (Event W)} (hstep : advance w logFifo pc = some next) :
    ¬ pc.AtRest := by
  intro hrest
  cases pc with
  | idle => simp [advance] at hstep
  | returned ret => simp [advance] at hstep
  | _ => exact hrest

theorem Pc.Fits.advance {logFifo logFifo' : Kfifo LogData} {pc pc' : Pc} {new : List (Event W)}
    (hfits : pc.Fits logFifo) (hstep : advance w logFifo pc = some (logFifo', pc', new)) :
    pc'.Fits logFifo' := by
  cases pc with
  | idle => simp [Writers.advance] at hstep
  | returned ret => simp [Writers.advance] at hstep
  | checking buf =>
      have hle := logFifo.len_le_size
      have hpos := logFifo.size_pos
      have hfull := logFifo.avail_eq_zero_iff
      by_cases havail : logFifo.avail = 0
      · simp only [Writers.advance, if_pos havail, Option.some.injEq, Prod.mk.injEq] at hstep
        obtain ⟨rfl, rfl, -⟩ := hstep
        show logFifo.len ≠ 0
        omega
      · simp only [Writers.advance, if_neg havail, Option.some.injEq, Prod.mk.injEq] at hstep
        obtain ⟨rfl, rfl, -⟩ := hstep
        show logFifo.len < logFifo.size
        omega
  | evicting buf =>
      obtain ⟨log, f, hget, -, -⟩ := logFifo.get_spec hfits
      simp only [Writers.advance, hget, Option.some.injEq, Prod.mk.injEq] at hstep
      obtain ⟨-, rfl, -⟩ := hstep
      trivial
  | allocating buf =>
      simp only [Writers.advance, Option.some.injEq, Prod.mk.injEq] at hstep
      obtain ⟨rfl, rfl, -⟩ := hstep
      exact hfits
  | inserting buf log =>
      simp only [Writers.advance, Option.some.injEq, Prod.mk.injEq] at hstep
      obtain ⟨-, rfl, -⟩ := hstep
      trivial

theorem Pc.finds {logFifo : Kfifo LogData} {pc : Pc} (hfits : ¬ pc.AtRest → pc.Fits logFifo) :
    pc.Finds logFifo := by
  cases pc with
  | evicting buf => exact hfits id
  | inserting buf log => exact hfits id
  | _ => trivial

theorem Alone.step [DecidableEq W] {t : State W} {a : Action W} (halone : Alone s)
    (hok : Serial s a) (hstep : step s a = some t) : Alone t := by
  cases a with
  | call w buf =>
      by_cases hidle : s.pc w = .idle
      · rw [Writers.step, if_pos hidle] at hstep
        obtain rfl := Option.some.inj hstep
        intro w' hmoving
        dsimp only at hmoving ⊢
        rcases eq_or_ne w' w with rfl | hne
        · rw [Function.update_self]
          refine ⟨by split <;> trivial, fun w'' hne => ?_⟩
          rw [Function.update_of_ne hne]
          exact hok w''
        · rw [Function.update_of_ne hne] at hmoving
          exact absurd (hok w') hmoving
      · rw [Writers.step, if_neg hidle] at hstep
        cases hstep
  | advance w =>
      obtain ⟨⟨logFifo, pc, new⟩, hadvance, rfl⟩ := Option.map_eq_some_iff.mp hstep
      obtain ⟨hfits, hothers⟩ := halone w (moving_of_advance hadvance)
      intro w' hmoving'
      dsimp only at hmoving' ⊢
      rcases eq_or_ne w' w with rfl | hne
      · rw [Function.update_self]
        refine ⟨hfits.advance hadvance, fun w'' hne => ?_⟩
        rw [Function.update_of_ne hne]
        exact hothers w'' hne
      · rw [Function.update_of_ne hne] at hmoving'
        exact absurd (hothers w' hne) hmoving'

/-- **With one lock around the whole call** no record would be lost. -/
theorem serial_room [DecidableEq W] {acts : List (Action W)}
    (hrun : Run step Serial Initial acts s) : Run step Room Initial acts s := by
  have hstart : ∀ s : State W, Initial s → Alone s := by
    intro s hinit w hmoving
    rw [hinit.2.1 w] at hmoving
    exact absurd trivial hmoving
  refine hrun.mono (fun hrun => hrun.invariant hstart fun _ _ _ => Alone.step)
    fun s a t halone hstep _ => ?_
  cases a with
  | call w buf => trivial
  | advance w => exact Pc.finds fun hmoving => (halone w hmoving).1

end SecDetector.Alarm.Writers
