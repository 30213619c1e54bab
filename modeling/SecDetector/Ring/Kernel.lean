import SecDetector.Ring.Stored

/-!
# The kernel side of the ring buffer

What holds of reservations whoever writes to `consumer_pos`: `LogInv` ties the
producers and `producer_pos` to the log of reservations.

`Intact g s live` says that the reservations picked by `live` stand in memory.  A
step of a producer keeps that as long as the live reservations and everything
reserved after them fit in one turn of the ring (`Within`).  The delivery of
records uses it for the reservations that are not consumed yet, the protection of
pending reservations for those that are not committed yet.
-/

namespace SecDetector.Ring

open Lib

variable {P : Type*} [DecidableEq P] {g : Geometry} {s s' : State P} {p q : P} {out : Output}
  {hdr i k : ℕ} {live : ℕ → Prop}

/-! ## Positions -/

namespace History

omit [DecidableEq P]

variable {h : History P} {r : Reservation P}

theorem start_mono {j : ℕ} (hij : i ≤ j) : h.start i ≤ h.start j :=
  Tiling.start_mono hij

theorem start_succ (hi : h.log[i]? = some r) : h.start (i + 1) = h.start i + r.len :=
  Tiling.start_succ (by rw [List.getElem?_map, hi]; rfl)

theorem start_add_len_le {j : ℕ} (hi : h.log[i]? = some r) (hij : i < j) :
    h.start i + r.len ≤ h.start j := by
  rw [← start_succ hi]
  exact start_mono hij

theorem start_le_total (hi : i ≤ h.log.length) : h.start i ≤ h.total :=
  start_mono hi

theorem start_add_len_le_total (hi : h.log[i]? = some r) : h.start i + r.len ≤ h.total :=
  start_add_len_le hi (List.getElem?_eq_some_iff.mp hi).1

end History

omit [DecidableEq P] in
theorem lt_of_log {r : Reservation P} (hi : s.hist.log[i]? = some r) : i < s.hist.log.length :=
  (List.getElem?_eq_some_iff.mp hi).1

theorem reserve_start (hi : i ≤ s.hist.log.length) :
    (s.reserve g p out).hist.start i = s.hist.start i := by
  simp only [State.reserve, History.start, List.map_append, List.map_cons, List.map_nil]
  exact Tiling.start_append (by rwa [List.length_map])

theorem reserve_log_of_lt (hi : i < s.hist.log.length) :
    (s.reserve g p out).hist.log[i]? = s.hist.log[i]? :=
  List.getElem?_append_left hi

theorem reserve_log_length :
    (s.reserve g p out).hist.log[s.hist.log.length]? = some ⟨p, out⟩ := by
  simp [State.reserve]

theorem reserve_total : (s.reserve g p out).hist.total = s.hist.total + reserveLen out.size := by
  have hlen : (s.reserve g p out).hist.log.length = s.hist.log.length + 1 := by
    simp [State.reserve]
  rw [History.total, hlen, History.start_succ reserve_log_length, reserve_start le_rfl]
  rfl

/-- A reservation after the next one is either old or the new one. -/
theorem reserve_log_cases {r : Reservation P} (hi : (s.reserve g p out).hist.log[i]? = some r) :
    s.hist.log[i]? = some r ∧ i < s.hist.log.length ∨ i = s.hist.log.length ∧ r = ⟨p, out⟩ := by
  rcases lt_trichotomy i s.hist.log.length with hlt | rfl | hgt
  · rw [reserve_log_of_lt hlt] at hi
    exact .inl ⟨hi, hlt⟩
  · rw [reserve_log_length, Option.some.injEq] at hi
    exact .inr ⟨rfl, hi.symm⟩
  · have hlen := lt_of_log hi
    simp only [State.reserve, List.length_append, List.length_singleton] at hlen
    omega

/-! ## Steps of the producers -/

/-- The load step fails, or remembers `consumer_pos`. -/
theorem output_cases (h : outputStep g s p out = some s') :
    (∃ ret < 0, s' = s.setProducer p (.idle ret)) ∨
      (reserveFits g out.size ∧
        s' = s.setProducer p (.loaded out s.rb.consumerPos s.hist.consumed)) := by
  unfold outputStep at h
  split at h
  · split at h
    · exact .inl ⟨-eInval, by decide, (Option.some.inj h).symm⟩
    · split at h
      · exact .inr ⟨‹_›, (Option.some.inj h).symm⟩
      · exact .inl ⟨-eAgain, by decide, (Option.some.inj h).symm⟩
  · simp at h

/-- The locked step fails, or grants the reservation. -/
theorem reserve_cases {locked : Bool} (h : reserveStep g s p locked = some s') :
    ∃ out consPos seen, s.producer p = .loaded out consPos seen ∧
      (s' = s.setProducer p (.idle (-eAgain)) ∨
        (locked = true ∧ hasSpace g s.rb consPos out.size ∧ s' = s.reserve g p out)) := by
  unfold reserveStep at h
  split at h
  · rename_i out consPos seen hpc
    refine ⟨out, consPos, seen, hpc, ?_⟩
    split at h
    · rename_i hgrant
      exact .inr ⟨hgrant.1, hgrant.2, (Option.some.inj h).symm⟩
    · exact .inl (Option.some.inj h).symm
  · simp at h

theorem copy_cases (h : copyStep g s p = some s') :
    ∃ out hdr i, s.producer p = .reserved out hdr i ∧ s' = s.copy g p out hdr i := by
  unfold copyStep at h
  split at h
  · exact ⟨_, _, _, ‹_›, (Option.some.inj h).symm⟩
  · simp at h

theorem exchange_cases (h : exchangeStep g s p = some s') :
    ∃ out hdr i, s.producer p = .copied out hdr i ∧ s' = s.exchange g p out hdr i := by
  unfold exchangeStep at h
  split at h
  · exact ⟨_, _, _, ‹_›, (Option.some.inj h).symm⟩
  · simp at h

theorem notify_cases (h : notifyStep g s p = some s') :
    ∃ pending queued, s' = { s.setProducer p (.idle 0) with
      irqPending := pending, hist := { s.hist with wakeQueued := queued } } := by
  unfold notifyStep at h
  split at h
  · split at h
    · split at h
      · exact ⟨_, _, (Option.some.inj h).symm⟩
      · exact ⟨_, _, (Option.some.inj h).symm⟩
    · simp at h
  · simp at h

/-! ## Steps of the consumer -/

omit [DecidableEq P] in
/-- A wake-up only sets the flag of a waiting consumer. -/
theorem irqWork_cases (h : irqWorkStep s = some s') :
    s.irqPending = true ∧ ∃ pc, s' = { s with irqPending := false, consumer := pc } ∧
      (pc = s.consumer ∧ (∀ woken, pc ≠ .blocked woken) ∨
        (∃ woken, s.consumer = .registered woken ∧ pc = .registered true) ∨
          ∃ woken, s.consumer = .blocked woken ∧ pc = .blocked true) := by
  unfold irqWorkStep at h
  split at h
  · refine ⟨‹_›, _, (Option.some.inj h).symm, ?_⟩
    cases hpc : s.consumer with
    | registered woken => exact .inr (.inl ⟨woken, rfl, rfl⟩)
    | blocked woken => exact .inr (.inr ⟨woken, rfl, rfl⟩)
    | _ => exact .inl ⟨rfl, by simp⟩
  · simp at h

omit [DecidableEq P] in
/-- The load of a header only moves the consumer, and not to sleep. -/
theorem loadHeader_cases (h : loadHeaderStep g s = some s') :
    ∃ pc, s' = { s with consumer := pc } ∧ ∀ woken, pc ≠ .blocked woken := by
  unfold loadHeaderStep at h
  split at h
  · dsimp only at h
    split at h
    · exact ⟨_, (Option.some.inj h).symm, by simp⟩
    · split at h
      · exact ⟨_, (Option.some.inj h).symm, by simp⟩
      · exact ⟨_, (Option.some.inj h).symm, by simp⟩
  · simp at h

omit [DecidableEq P] in
theorem callback_cases {err : ℤ} (h : callbackStep g s err = some s') :
    ∃ consPos prodPos hdr len, s.consumer = .record consPos prodPos hdr len ∧
      s' = { s with
        consumer := .storing consPos prodPos err
        hist := { s.hist with
          delivered := s.hist.delivered ++
            [(Cyclic.load g.dataSz s.rb.data (hdr + bpfRingbufHdrSz) len, len)] } } := by
  unfold callbackStep at h
  split at h
  · exact ⟨_, _, _, _, ‹_›, (Option.some.inj h).symm⟩
  · simp at h

omit [DecidableEq P] in
theorem storeConsumerPos_cases (h : storeConsumerPosStep s = some s') :
    ∃ consPos prodPos err, s.consumer = .storing consPos prodPos err ∧
      s' = { s with
        rb := { s.rb with consumerPos := consPos }
        consumer := if err < 0 then .idle err else pollLoop true consPos prodPos
        hist := { s.hist with consumed := s.hist.consumed + 1 } } := by
  unfold storeConsumerPosStep at h
  split at h
  · exact ⟨_, _, _, ‹_›, (Option.some.inj h).symm⟩
  · simp at h

/-- The steps of the producers. -/
def Action.isProducer : Action P → Bool
  | .output _ _ | .reserve _ _ | .copy _ | .exchange _ | .notify _ => true
  | _ => false

/-- What the steps of the consumer, of user space and of the `irq_work` leave alone. -/
structure KernelFrame (s s' : State P) : Prop where
  producerPos : s'.rb.producerPos = s.rb.producerPos
  data : s'.rb.data = s.rb.data
  producer : s'.producer = s.producer
  log : s'.hist.log = s.hist.log
  phase : s'.hist.phase = s.hist.phase

theorem kernelFrame_of_step {a : Action P} (ha : a.isProducer = false)
    (h : step g s a = some s') : KernelFrame s s' := by
  cases a with
  | output | reserve | copy | exchange | notify => simp [Action.isProducer] at ha
  | userWrite value =>
      obtain rfl := Option.some.inj h
      exact ⟨rfl, rfl, rfl, rfl, rfl⟩
  | irqWork =>
      obtain ⟨_, pc, rfl, _⟩ := irqWork_cases h
      exact ⟨rfl, rfl, rfl, rfl, rfl⟩
  | loadHeader =>
      obtain ⟨pc, rfl, _⟩ := loadHeader_cases h
      exact ⟨rfl, rfl, rfl, rfl, rfl⟩
  | callback err =>
      obtain ⟨consPos, prodPos, hdr, len, _, rfl⟩ := callback_cases h
      exact ⟨rfl, rfl, rfl, rfl, rfl⟩
  | storeConsumerPos =>
      obtain ⟨consPos, prodPos, err, _, rfl⟩ := storeConsumerPos_cases h
      exact ⟨rfl, rfl, rfl, rfl, rfl⟩
  | pollEnter | pollTest | pollWake | pollFail | loadConsumerPos | loadProducerPos =>
      simp only [step, pollStep] at h
      split at h <;> first
        | (obtain rfl := Option.some.inj h; exact ⟨rfl, rfl, rfl, rfl, rfl⟩)
        | simp at h

/-! ## The log and the producers -/

/-- What is known of a producer. -/
def ProducerOk (g : Geometry) (h : History P) (p : P) : ProducerPc → Prop
  | .idle _ => True
  | .loaded out _ _ => reserveFits g out.size
  | .reserved out hdr i =>
      h.log[i]? = some ⟨p, out⟩ ∧ hdr = h.start i % g.dataSz ∧ h.phase i = .reserved
  | .copied out hdr i =>
      h.log[i]? = some ⟨p, out⟩ ∧ hdr = h.start i % g.dataSz ∧ h.phase i = .copied
  | .exchanged out hdr _ i =>
      h.log[i]? = some ⟨p, out⟩ ∧ hdr = h.start i % g.dataSz ∧ h.phase i = .committed

/-- The log describes `producer_pos` and the producers. -/
structure LogInv (g : Geometry) (s : State P) : Prop where
  producerPos : s.rb.producerPos = s.hist.total % 2 ^ 64
  fits : ∀ (i : ℕ) (r : Reservation P), s.hist.log[i]? = some r → reserveFits g r.out.size
  producers : ∀ p, ProducerOk g s.hist p (s.producer p)

omit [DecidableEq P] in
theorem Initial.logInv (hinit : Initial s) : LogInv g s where
  producerPos := by simp [hinit.producerPos, History.total, History.start, hinit.log]
  fits i r hr := by simp [hinit.log] at hr
  producers p := by
    rw [hinit.producer p]
    trivial

omit [DecidableEq P] in
theorem KernelFrame.total (h : KernelFrame s s') : s'.hist.total = s.hist.total := by
  rw [History.total, History.total, History.start, History.start, h.log]

omit [DecidableEq P] in
theorem KernelFrame.start (h : KernelFrame s s') (i : ℕ) : s'.hist.start i = s.hist.start i := by
  rw [History.start, History.start, h.log]

section

omit [DecidableEq P]

/-- What is known of a producer stays true while its reservations keep their place and
their phase. -/
theorem ProducerOk.keep {h h' : History P} {pc : ProducerPc} (hok : ProducerOk g h q pc)
    (hkeep : ∀ (i : ℕ) out, h.log[i]? = some ⟨q, out⟩ → h'.log[i]? = some ⟨q, out⟩ ∧
      h'.start i = h.start i ∧ h'.phase i = h.phase i) : ProducerOk g h' q pc := by
  cases pc with
  | idle ret => trivial
  | loaded out consPos seen => exact hok
  | reserved out hdr i | copied out hdr i | exchanged out hdr rb i =>
      obtain ⟨hi, hhdr, hphase⟩ := hok
      obtain ⟨hi', hstart, hphase'⟩ := hkeep i out hi
      exact ⟨hi', by rw [hstart, hhdr], by rw [hphase', hphase]⟩

theorem LogInv.of_loaded {consPos : ℕ} (hinv : LogInv g s)
    (hpc : s.producer p = .loaded out consPos k) : reserveFits g out.size := by
  have hok := hinv.producers p
  rwa [hpc] at hok

theorem LogInv.of_reserved (hinv : LogInv g s) (hpc : s.producer p = .reserved out hdr i) :
    s.hist.log[i]? = some ⟨p, out⟩ ∧ hdr = s.hist.start i % g.dataSz ∧
      s.hist.phase i = .reserved := by
  have hok := hinv.producers p
  rwa [hpc] at hok

theorem LogInv.of_copied (hinv : LogInv g s) (hpc : s.producer p = .copied out hdr i) :
    s.hist.log[i]? = some ⟨p, out⟩ ∧ hdr = s.hist.start i % g.dataSz ∧
      s.hist.phase i = .copied := by
  have hok := hinv.producers p
  rwa [hpc] at hok

theorem KernelFrame.logInv (h : KernelFrame s s') (hinv : LogInv g s) : LogInv g s' where
  producerPos := by rw [h.producerPos, h.total, hinv.producerPos]
  fits := by
    rw [h.log]
    exact hinv.fits
  producers p := by
    rw [h.producer]
    apply (hinv.producers p).keep
    intro i out hi
    exact ⟨by rw [h.log, hi], h.start i, by rw [h.phase]⟩

end

theorem LogInv.setProducer (hinv : LogInv g s) {pc : ProducerPc}
    (hpc : ProducerOk g s.hist p pc) : LogInv g (s.setProducer p pc) where
  producerPos := hinv.producerPos
  fits := hinv.fits
  producers q := by
    by_cases hq : q = p
    · subst hq
      simpa [State.setProducer] using hpc
    · show ProducerOk g s.hist q (Function.update s.producer p pc q)
      rw [Function.update_of_ne hq]
      exact hinv.producers q

theorem LogInv.reserve (hinv : LogInv g s) (hfits : reserveFits g out.size) :
    LogInv g (s.reserve g p out) where
  producerPos := by
    rw [reserve_total]
    simp only [State.reserve, ringbufReserve, hinv.producerPos]
    rw [Nat.mod_add_mod]
  fits i r hr := by
    rcases reserve_log_cases hr with ⟨hold, _⟩ | ⟨_, rfl⟩
    · exact hinv.fits i r hold
    · exact hfits
  producers q := by
    by_cases hq : q = p
    · subst hq
      have hpc : (s.reserve g q out).producer q =
          .reserved out (nextHdr g s.rb) s.hist.log.length := Function.update_self _ _ _
      rw [hpc]
      refine ⟨reserve_log_length, ?_, Function.update_self _ _ _⟩
      rw [nextHdr_eq hinv.producerPos, reserve_start le_rfl, History.total]
    · have hpc : (s.reserve g p out).producer q = s.producer q := Function.update_of_ne hq _ _
      rw [hpc]
      -- the older reservations keep their place, their start and their phase
      apply (hinv.producers q).keep
      intro i out' hi
      have hlt := lt_of_log hi
      exact ⟨by rw [reserve_log_of_lt hlt, hi], reserve_start (Nat.le_of_lt hlt),
        Function.update_of_ne (Nat.ne_of_lt hlt) _ _⟩

/-- A phase of the producer's own reservation changes, together with its place. -/
theorem LogInv.setPhase (hinv : LogInv g s) {phase : Phase} {pc : ProducerPc} {rb : Ringbuf}
    (hi : s.hist.log[i]? = some ⟨p, out⟩) (hpos : rb.producerPos = s.rb.producerPos)
    (hpc : ProducerOk g { s.hist with phase := Function.update s.hist.phase i phase } p pc) :
    LogInv g { s with
      rb := rb
      producer := Function.update s.producer p pc
      hist := { s.hist with phase := Function.update s.hist.phase i phase } } where
  producerPos := hpos.trans hinv.producerPos
  fits := hinv.fits
  producers q := by
    by_cases hq : q = p
    · subst hq
      simpa using hpc
    · dsimp only
      rw [Function.update_of_ne hq]
      apply (hinv.producers q).keep
      intro j out' hj
      have hji : j ≠ i := by
        intro heq
        rw [heq, hi, Option.some.injEq] at hj
        exact hq (congrArg Reservation.owner hj).symm
      exact ⟨hj, rfl, Function.update_of_ne hji _ _⟩

/-- **No step breaks the log invariant.** -/
theorem LogInv.step {a : Action P} (hinv : LogInv g s) (h : step g s a = some s') :
    LogInv g s' := by
  by_cases ha : a.isProducer = false
  · exact (kernelFrame_of_step ha h).logInv hinv
  · cases a with
    | output p out =>
        rcases output_cases h with ⟨ret, _, rfl⟩ | ⟨hfits, rfl⟩
        · exact hinv.setProducer trivial
        · exact hinv.setProducer hfits
    | reserve p locked =>
        obtain ⟨out, consPos, seen, hpc, rfl | ⟨_, _, rfl⟩⟩ := reserve_cases h
        · exact hinv.setProducer trivial
        · exact hinv.reserve (hinv.of_loaded hpc)
    | copy p =>
        obtain ⟨out, hdr, i, hpc, rfl⟩ := copy_cases h
        have hok := hinv.of_reserved hpc
        exact hinv.setPhase hok.1 rfl ⟨hok.1, hok.2.1, Function.update_self _ _ _⟩
    | exchange p =>
        obtain ⟨out, hdr, i, hpc, rfl⟩ := exchange_cases h
        have hok := hinv.of_copied hpc
        exact hinv.setPhase hok.1 rfl ⟨hok.1, hok.2.1, Function.update_self _ _ _⟩
    | notify p =>
        obtain ⟨pending, queued, rfl⟩ := notify_cases h
        have hidle : LogInv g (s.setProducer p (.idle 0)) := hinv.setProducer trivial
        exact ⟨hidle.producerPos, hidle.fits, hidle.producers⟩
    | _ => simp [Action.isProducer] at ha

/-! ## Reservations in memory -/

/-- The live reservations and everything after them fit in one turn of the ring. -/
def Within (g : Geometry) (s : State P) (live : ℕ → Prop) : Prop :=
  ∀ i < s.hist.log.length, live i → s.hist.total ≤ s.hist.start i + g.dataSz

/-- The live reservations stand in memory. -/
def Intact (g : Geometry) (s : State P) (live : ℕ → Prop) : Prop :=
  ∀ (i : ℕ) (r : Reservation P), s.hist.log[i]? = some r → live i →
    Stored g s.rb.data (s.hist.start i) r.out (s.hist.phase i)

omit [DecidableEq P] in
/-- Two reservations within one turn share no byte. -/
theorem Within.apart (hwithin : Within g s live) {j : ℕ} {r r' : Reservation P} (hij : i ≠ j)
    (hi : s.hist.log[i]? = some r) (hlive : live i) (hj : s.hist.log[j]? = some r')
    (hlive' : live j) :
    Cyclic.Apart g.dataSz (s.hist.start i) r.len (s.hist.start j) r'.len := by
  have hendi := History.start_add_len_le_total hi
  have hendj := History.start_add_len_le_total hj
  have hturni := hwithin i (lt_of_log hi) hlive
  have hturnj := hwithin j (lt_of_log hj) hlive'
  rcases Nat.lt_or_gt_of_ne hij with hlt | hlt
  · exact Cyclic.apart_of_le (History.start_add_len_le hi hlt) (by omega)
  · exact (Cyclic.apart_of_le (History.start_add_len_le hj hlt) (by omega)).symm

/-- **A reservation keeps the live ones** if it ends less than one turn after their
starts. -/
theorem Intact.reserve (hintact : Intact g s live) (hinv : LogInv g s)
    (hfits : reserveFits g out.size)
    (hturn : ∀ i < s.hist.log.length, live i →
      s.hist.total + reserveLen out.size ≤ s.hist.start i + g.dataSz) :
    Intact g (s.reserve g p out) live := by
  intro i r hr hlive
  rcases reserve_log_cases hr with ⟨hold, hlt⟩ | ⟨rfl, rfl⟩
  · have hend := History.start_add_len_le_total hold
    have hphase : (s.reserve g p out).hist.phase i = s.hist.phase i :=
      Function.update_of_ne (Nat.ne_of_lt hlt) _ _
    rw [reserve_start (Nat.le_of_lt hlt), hphase]
    refine (hintact i r hold hlive).same (ringbufReserve_same hinv.producerPos ?_)
    exact (Cyclic.apart_of_le hend (hturn i hlt hlive)).symm
  · have hphase : (s.reserve g p out).hist.phase s.hist.log.length = .reserved :=
      Function.update_self _ _ _
    rw [reserve_start le_rfl, hphase]
    exact ringbufReserve_stored hfits hinv.producerPos

omit [DecidableEq P] in
/-- A write to the area of reservation `i` that moves it to the phase `phase`. -/
theorem Intact.setPhase (hintact : Intact g s live) (hwithin : Within g s live)
    {phase : Phase} {producer : P → ProducerPc} {rb : Ringbuf} {r : Reservation P}
    (hi : s.hist.log[i]? = some r) (hlive : live i)
    (hsame : ∀ q m, Cyclic.Apart g.dataSz (s.hist.start i) r.len q m →
      Cyclic.Same g.dataSz s.rb.data rb.data q m)
    (hstored : Stored g rb.data (s.hist.start i) r.out phase) :
    Intact g { s with
      rb := rb
      producer := producer
      hist := { s.hist with phase := Function.update s.hist.phase i phase } } live := by
  intro j r' hj hlive'
  by_cases hji : j = i
  · subst hji
    obtain rfl : r = r' := Option.some.inj (hi.symm.trans hj)
    dsimp only
    rw [Function.update_self]
    exact hstored
  · dsimp only
    rw [Function.update_of_ne hji]
    have hapart := hwithin.apart (Ne.symm hji) hi hlive hj hlive'
    exact (hintact j r' hj hlive').same (hsame _ _ hapart)

theorem Intact.copy (hintact : Intact g s live) (hwithin : Within g s live) (hinv : LogInv g s)
    (hpc : s.producer p = .reserved out hdr i) (hlive : live i) :
    Intact g (s.copy g p out hdr i) live := by
  obtain ⟨hi, rfl, hphase⟩ := hinv.of_reserved hpc
  have hstored := hintact i _ hi hlive
  rw [hphase] at hstored
  exact hintact.setPhase hwithin hi hlive (fun _ _ hapart => copyPayload_same hapart)
    (copyPayload_stored (hinv.fits i _ hi) hstored)

theorem Intact.exchange (hintact : Intact g s live) (hwithin : Within g s live)
    (hinv : LogInv g s) (hpc : s.producer p = .copied out hdr i) (hlive : live i) :
    Intact g (s.exchange g p out hdr i) live := by
  obtain ⟨hi, rfl, hphase⟩ := hinv.of_copied hpc
  have hstored := hintact i _ hi hlive
  rw [hphase] at hstored
  exact hintact.setPhase hwithin hi hlive
    (fun _ _ hapart => exchangeLen_same hstored.len hapart)
    (exchangeLen_stored (hinv.fits i _ hi) hstored)

end SecDetector.Ring
