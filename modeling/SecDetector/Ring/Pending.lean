import Mathlib.Data.UInt
import SecDetector.Ring.Masks

/-!
# Pending reservations

A reservation is pending from the locked step to the exchange of its header word.
`__ringbuf_reserve` compares the new `producer_pos` with `consumer_pos` only, and
user space can store anything there; nothing keeps the new reservation from running
into a pending one.

`NotOverrun` is the missing check: a granted reservation ends at most one turn after
the start of the oldest pending one.  Under it, and whatever user space writes,
pending reservations share no byte, and their headers stay as they were written; and
without it two of them meet (`pending_safe_iff`).

The check of `__ringbuf_reserve` does as much if the position that it has loaded is not
ahead of a pending reservation (`NotAhead`), as it is when the daemon alone writes it.
-/

namespace SecDetector.Ring

open Lib

variable {P : Type*} [DecidableEq P] {g : Geometry} {s s' : State P} {live live' : ℕ → Prop}

/-- The reservations that are not yet committed. -/
def State.Pending (s : State P) (i : ℕ) : Prop :=
  s.hist.phase i ≠ .committed

/-- No pending reservation is in the way of another. -/
structure PendingSafe (g : Geometry) (s : State P) : Prop where
  apart : ∀ (i j : ℕ) (r r' : Reservation P), i ≠ j → s.hist.log[i]? = some r →
    s.hist.log[j]? = some r' → s.Pending i → s.Pending j →
    Cyclic.Apart g.dataSz (s.hist.start i) r.len (s.hist.start j) r'.len
  header : ∀ (i : ℕ) (r : Reservation P), s.hist.log[i]? = some r → s.Pending i →
    Cyclic.loadWord g.dataSz s.rb.data (s.hist.start i) = busyWord r.out.size ∧
      Cyclic.loadWord g.dataSz s.rb.data (s.hist.start i + 4) =
        ringbufRecPgOff (s.hist.start i % g.dataSz)

/-- What a reservation is about to be tested with: the output, and the `consumer_pos` that
was loaded for it. -/
def State.loadedBy (s : State P) : Action P → Option (Output × ℕ)
  | .reserve p true =>
      match s.producer p with
      | .loaded out consPos _ => some (out, consPos)
      | _ => none
  | _ => none

/-- A reservation is only granted if it ends at most one turn after the start of every
pending one. -/
def NotOverrun (g : Geometry) (s : State P) (a : Action P) : Prop :=
  ∀ load ∈ s.loadedBy a, hasSpace g s.rb load.2 load.1.size →
    ∀ i < s.hist.log.length, s.Pending i →
      s.hist.total + reserveLen load.1.size ≤ s.hist.start i + g.dataSz

/-- The position that `consumer_pos` stands for in the space check: the one that is less
than `2 ^ 64` bytes behind the end of the new reservation. -/
def State.consumerPosition (s : State P) (consPos size : ℕ) : ℕ :=
  s.hist.total + reserveLen size -
    ((s.rb.producerPos + reserveLen size) % 2 ^ 64 + 2 ^ 64 - consPos) % 2 ^ 64

/-- The position that a reservation has loaded is not ahead of a pending one. -/
def NotAhead (s : State P) (a : Action P) : Prop :=
  ∀ load ∈ s.loadedBy a, ∀ i < s.hist.log.length, s.Pending i →
    s.consumerPosition load.2 load.1.size ≤ s.hist.start i

instance (s : State P) : DecidablePred s.Pending :=
  fun _ => inferInstanceAs (Decidable (_ ≠ _))

instance (s : State P) : DecidablePred (NotAhead s) :=
  fun a => inferInstanceAs (Decidable (∀ load ∈ s.loadedBy a, ∀ i < s.hist.log.length,
    s.Pending i → s.consumerPosition load.2 load.1.size ≤ s.hist.start i))

omit [DecidableEq P] in
theorem loadedBy_reserve {p : P} {out : Output} {consPos k : ℕ}
    (hpc : s.producer p = .loaded out consPos k) :
    s.loadedBy (.reserve p true) = some (out, consPos) := by
  rw [State.loadedBy, hpc]

omit [DecidableEq P] in
/-- **The space check suffices** if the position that was loaded is not ahead of the pending
reservations. -/
theorem NotAhead.notOverrun {a : Action P} (hahead : NotAhead s a) : NotOverrun g s a := by
  intro load hload hspace i hi hpending
  have hposition := hahead load hload i hi hpending
  have hmask := g.mask_add_one
  rw [hasSpace] at hspace
  rw [State.consumerPosition] at hposition
  omega

/-! ## The invariant -/

/-- The pending reservations stand in memory, within one turn. -/
structure PendingInv (g : Geometry) (s : State P) : Prop where
  log : LogInv g s
  within : Within g s s.Pending
  intact : Intact g s s.Pending

omit [DecidableEq P] in
theorem Intact.mono (h : Intact g s live)
    (himp : ∀ i < s.hist.log.length, live' i → live i) : Intact g s live' := by
  intro i r hr hlive
  exact h i r hr (himp i (lt_of_log hr) hlive)

omit [DecidableEq P] in
theorem Initial.pendingInv (hinit : Initial s) : PendingInv g s where
  log := hinit.logInv
  within i hi := by simp [hinit.log] at hi
  intact i r hr := by simp [hinit.log] at hr

omit [DecidableEq P] in
theorem PendingInv.pendingSafe (hinv : PendingInv g s) : PendingSafe g s where
  apart i j r r' hij hi hj hpi hpj := hinv.within.apart hij hi hpi hj hpj
  header i r hi hpi := by
    have hstored := hinv.intact i r hi hpi
    refine ⟨?_, hstored.pgOff⟩
    rw [hstored.len]
    cases hphase : s.hist.phase i with
    | committed => exact absurd hphase hpi
    | reserved | copied => rfl

omit [DecidableEq P] in
theorem PendingInv.of_frame (hinv : PendingInv g s) (hframe : KernelFrame s s') :
    PendingInv g s' where
  log := hframe.logInv hinv.log
  within i hi hlive := by
    rw [hframe.log] at hi
    rw [State.Pending, hframe.phase] at hlive
    rw [hframe.total, hframe.start]
    exact hinv.within i hi hlive
  intact i r hr hlive := by
    rw [hframe.log] at hr
    rw [State.Pending, hframe.phase] at hlive
    rw [hframe.data, hframe.start, hframe.phase]
    exact hinv.intact i r hr hlive

theorem PendingInv.setProducer (hinv : PendingInv g s) {p : P} {pc : ProducerPc}
    (hpc : ProducerOk g s.hist p pc) : PendingInv g (s.setProducer p pc) :=
  ⟨hinv.log.setProducer hpc, hinv.within, hinv.intact⟩

theorem PendingInv.reserve (hinv : PendingInv g s) {p : P} {out : Output}
    (hfits : reserveFits g out.size)
    (hturn : ∀ i < s.hist.log.length, s.Pending i →
      s.hist.total + reserveLen out.size ≤ s.hist.start i + g.dataSz) :
    PendingInv g (s.reserve g p out) := by
  -- an older reservation is pending afterwards exactly if it was before
  have hold : ∀ i < s.hist.log.length, (s.reserve g p out).Pending i → s.Pending i := by
    intro i hi hpending hcommitted
    exact hpending ((Function.update_of_ne (Nat.ne_of_lt hi) _ _).trans hcommitted)
  refine ⟨hinv.log.reserve hfits, fun i hi hlive => ?_, ?_⟩
  · rw [reserve_total]
    rcases Nat.lt_or_ge i s.hist.log.length with hlt | hge
    · rw [reserve_start (Nat.le_of_lt hlt)]
      exact hturn i hlt (hold i hlt hlive)
    · have hlen : (s.reserve g p out).hist.log.length = s.hist.log.length + 1 := by
        simp [State.reserve]
      obtain rfl : i = s.hist.log.length := by omega
      have hle := reserveLen_le_dataSz hfits
      rw [reserve_start le_rfl, History.total]
      omega
  · exact (hinv.intact.mono hold).reserve hinv.log hfits fun i hi hlive =>
      hturn i hi (hold i hi hlive)

omit [DecidableEq P] in
/-- A producer that works on a pending reservation makes no other one pending. -/
theorem pending_of_setPhase {i : ℕ} {phase : Phase} (hpending : s.Pending i)
    (hphase : s'.hist.phase = Function.update s.hist.phase i phase) {j : ℕ}
    (hj : s'.Pending j) : s.Pending j := by
  intro hcommitted
  by_cases hji : j = i
  · exact hpending (hji ▸ hcommitted)
  · apply hj
    rw [hphase, Function.update_of_ne hji, hcommitted]

theorem PendingInv.copy (hinv : PendingInv g s) {p : P} {out : Output} {hdr i : ℕ}
    (hpc : s.producer p = .reserved out hdr i) : PendingInv g (s.copy g p out hdr i) := by
  have hstep : step g s (.copy p) = some (s.copy g p out hdr i) := by
    simp only [step, copyStep, hpc]
  have hpending : s.Pending i := by
    rw [State.Pending, (hinv.log.of_reserved hpc).2.2]
    decide
  have hold : ∀ j, (s.copy g p out hdr i).Pending j → s.Pending j :=
    fun j hj => pending_of_setPhase hpending rfl hj
  have hintact := hinv.intact.copy hinv.within hinv.log hpc hpending
  exact ⟨hinv.log.step hstep, fun j hj hlive => hinv.within j hj (hold j hlive),
    hintact.mono fun j _ hlive => hold j hlive⟩

theorem PendingInv.exchange (hinv : PendingInv g s) {p : P} {out : Output} {hdr i : ℕ}
    (hpc : s.producer p = .copied out hdr i) : PendingInv g (s.exchange g p out hdr i) := by
  have hstep : step g s (.exchange p) = some (s.exchange g p out hdr i) := by
    simp only [step, exchangeStep, hpc]
  have hpending : s.Pending i := by
    rw [State.Pending, (hinv.log.of_copied hpc).2.2]
    decide
  have hold : ∀ j, (s.exchange g p out hdr i).Pending j → s.Pending j :=
    fun j hj => pending_of_setPhase hpending rfl hj
  have hintact := hinv.intact.exchange hinv.within hinv.log hpc hpending
  exact ⟨hinv.log.step hstep, fun j hj hlive => hinv.within j hj (hold j hlive),
    hintact.mono fun j _ hlive => hold j hlive⟩

theorem PendingInv.step {a : Action P} (hinv : PendingInv g s) (hok : NotOverrun g s a)
    (h : step g s a = some s') : PendingInv g s' := by
  by_cases ha : a.isProducer = false
  · exact hinv.of_frame (kernelFrame_of_step ha h)
  · cases a with
    | output p out =>
        rcases output_cases h with ⟨ret, _, rfl⟩ | ⟨hfits, rfl⟩
        · exact hinv.setProducer trivial
        · exact hinv.setProducer hfits
    | reserve p locked =>
        obtain ⟨out, consPos, k, hpc, rfl | ⟨rfl, hspace, rfl⟩⟩ := reserve_cases h
        · exact hinv.setProducer trivial
        · exact hinv.reserve (hinv.log.of_loaded hpc) (hok _ (loadedBy_reserve hpc) hspace)
    | copy p =>
        obtain ⟨out, hdr, i, hpc, rfl⟩ := copy_cases h
        exact hinv.copy hpc
    | exchange p =>
        obtain ⟨out, hdr, i, hpc, rfl⟩ := exchange_cases h
        exact hinv.exchange hpc
    | notify p =>
        obtain ⟨pending, queued, rfl⟩ := notify_cases h
        have hidle : PendingInv g (s.setProducer p (.idle 0)) := hinv.setProducer trivial
        exact hidle.of_frame ⟨rfl, rfl, rfl, rfl, rfl⟩
    | _ => simp [Action.isProducer] at ha

/-- A reservation that overruns a pending one shares a byte with it. -/
theorem PendingInv.notOverrun {a : Action P} (hinv : PendingInv g s) (h : Ring.step g s a = some s')
    (hsafe : PendingSafe g s') : NotOverrun g s a := by
  intro load hload hspace i hi hpending
  cases a with
  | reserve p locked =>
      cases locked with
      | false => cases hload
      | true =>
          obtain ⟨out, consPos, k, hpc, -⟩ := reserve_cases h
          obtain rfl := Option.some.inj ((loadedBy_reserve hpc).symm.trans hload)
          have hgranted : Ring.step g s (.reserve p true) = some (s.reserve g p out) := by
            simp only [Ring.step, reserveStep, hpc]
            exact if_pos ⟨trivial, hspace⟩
          obtain rfl := Option.some.inj (hgranted.symm.trans h)
          have hr := List.getElem?_eq_getElem hi
          have hold : (s.reserve g p out).Pending i := by
            intro hcommitted
            exact hpending ((Function.update_of_ne (Nat.ne_of_lt hi) _ _).symm.trans hcommitted)
          have hnew : (s.reserve g p out).Pending s.hist.log.length := by
            rw [State.Pending, State.reserve]
            simp
          have hapart := hsafe.apart i s.hist.log.length _ ⟨p, out⟩ (Nat.ne_of_lt hi)
            ((reserve_log_of_lt hi).trans hr) reserve_log_length hold hnew
          rw [reserve_start (Nat.le_of_lt hi), reserve_start le_rfl] at hapart
          have hpos : 0 < s.hist.log[i].len := by
            rw [Reservation.len, reserveLen, bpfRingbufHdrSz]
            omega
          exact hapart.le_turn hpos (hinv.within i hi hpending)
  | _ => cases hload

/-- **Pending reservations are safe** in a run exactly if no granted reservation overruns the
oldest pending one, whatever user space writes to `consumer_pos`; and none does if no
reservation has loaded a position ahead of a pending one. -/
theorem pending_safe_iff {acts : List (Action P)} :
    (Run (step g) (NotOverrun g) Initial acts s ↔
      Run (step g) (Leads (step g) (PendingSafe g)) Initial acts s) ∧
      (Run (step g) NotAhead Initial acts s → Run (step g) (NotOverrun g) Initial acts s) := by
  constructor
  · exact Run.leads_iff (fun _ hinit => hinit.pendingInv)
      (fun _ _ _ hinv hok hstep => hinv.step hok hstep) (fun _ hinv => hinv.pendingSafe)
      fun _ _ _ hinv hstep hsafe => hinv.notOverrun hstep hsafe
  · intro hrun
    exact hrun.mono (fun _ => trivial) fun _ _ _ _ _ hahead => hahead.notOverrun

/-- One producer's record is committed, and user space stores its end.  Two producers then have
reservations, and the second of them goes over the end of the ring. -/
def pendingActions : List (Action Bool) :=
  outputActions true (countingOutput 2000) ++
    [.userWrite 2008, .output false (countingOutput 1500), .output true (countingOutput 1000),
      .reserve false true, .reserve true true, .userWrite 12345]

theorem pendingActions_run : ∃ s, Run (step pageRing) NotAhead Initial pendingActions s ∧
    s.hist.log.map Reservation.len = [2008, 1512, 1008] ∧ s.Pending 1 ∧ s.Pending 2 := by
  have hend : (exec (fun s a => if NotAhead s a then step pageRing s a else none) freshRing
      pendingActions).map (fun s =>
        (s.hist.log.map Reservation.len, s.hist.phase 1, s.hist.phase 2)) =
      some ([2008, 1512, 1008], .reserved, .reserved) := by
    decide +kernel
  obtain ⟨s, hexec, hs⟩ := Option.map_eq_some_iff.mp hend
  simp only [Prod.mk.injEq] at hs
  obtain ⟨hlens, hfirst, hsecond⟩ := hs
  refine ⟨s, .of_guardedExec freshRing_initial hexec, hlens, ?_, ?_⟩
  · rw [State.Pending, hfirst]
    decide
  · rw [State.Pending, hsecond]
    decide

/-- The two reservations are safe. -/
theorem pending_safe_two : ∃ s : State Bool,
    s.hist.log.map Reservation.len = [2008, 1512, 1008] ∧ s.Pending 1 ∧ s.Pending 2 ∧
      Run (step pageRing) (Leads (step pageRing) (PendingSafe pageRing)) Initial
        pendingActions s := by
  obtain ⟨s, hrun, hlens, hfirst, hsecond⟩ := pendingActions_run
  exact ⟨s, hlens, hfirst, hsecond, pending_safe_iff.1.mp (pending_safe_iff.2 hrun)⟩

/-! ## An overrun

The first producer reserves all but eight bytes of a ring of 4 MB.  User space stores
the new `producer_pos` in `consumer_pos`, and the second producer is granted the last
eight bytes together with the start of the first reservation. -/

/-- The run of the two producers. -/
def overrunActions : List (Action Bool) :=
  [.output true (countingOutput (2 ^ 22 - 16)), .reserve true true, .userWrite (2 ^ 22 - 8),
    .output false (countingOutput 2000), .reserve false true]

/-- Both reservations are pending in the end. -/
theorem overrun_end :
    (exec (step (moduleRing 2)) freshRing overrunActions).map (fun s =>
        (s.hist.phase 0, s.hist.phase 1, s.hist.log.map Reservation.len)) =
      some (.reserved, .reserved, [2 ^ 22 - 8, 2008]) := by
  decide +kernel

/-- Pending reservations are not safe in general. -/
theorem not_pending_safe :
    ¬ ∀ (g : Geometry) (acts : List (Action Bool)) (s : State Bool),
      Run (step g) Unguarded Initial acts s → PendingSafe g s := by
  intro hclaim
  obtain ⟨s, hexec, hend⟩ := Option.map_eq_some_iff.mp overrun_end
  simp only [Prod.mk.injEq] at hend
  obtain ⟨hfirst, hsecond, hlens⟩ := hend
  have hsafe := hclaim _ _ s (.of_exec freshRing_initial (fun _ _ _ => trivial) hexec)
  obtain ⟨r, rest, hlog, hlen, hrest⟩ := List.map_eq_cons_iff.mp hlens
  obtain ⟨r', rest', rfl, hlen', -⟩ := List.map_eq_cons_iff.mp hrest
  have hget : s.hist.log[0]? = some r := by rw [hlog]; rfl
  have hget' : s.hist.log[1]? = some r' := by rw [hlog]; rfl
  have hapart := hsafe.apart 0 1 r r' (by decide) hget hget'
    (by rw [State.Pending, hfirst]; decide) (by rw [State.Pending, hsecond]; decide)
  -- the ninth byte of the second reservation is the first one of the first
  have hmeet := hapart 0 (by rw [hlen]; decide) 8 (by rw [hlen']; decide)
  rw [History.start, History.start, hlens] at hmeet
  revert hmeet
  decide

end SecDetector.Ring
