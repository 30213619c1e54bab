import SecDetector.Ring.InOrder

/-!
# No lost wake-up

The consumer registers on the wait queue, finds nothing to read, and sleeps; a record is
reserved and committed at the position where it waits.  `ringbuf_commit` compares the
record's offset with `consumer_pos` and queues the `irq_work`.

`wakeup_not_lost` says that whenever the consumer sleeps in front of a committed record, a
wake-up is queued or has arrived, or the record's `ringbuf_commit` is between the
exchange and the comparison.  The last case cannot be dropped: the header word is
exchanged first.  The reason is the order of the two sides: a record that is there when
`poll` tests for data keeps the consumer awake, so what it sleeps in front of was
reserved later, and its `ringbuf_commit` still finds `consumer_pos` where it is.
-/

namespace SecDetector.Ring

open Lib

variable {P : Type*} [DecidableEq P] {g : Geometry} {s s' : State P} {p : P} {out : Output}
  {i : ℕ}

/-! ## Waiting -/

/-- Reservation `i` is the record at `consumer_pos`.  Positions repeat after `2 ^ 64` bytes. -/
structure AtConsumerPos (s : State P) (i : ℕ) : Prop where
  lt : i < s.hist.log.length
  start : s.hist.start i % 2 ^ 64 = s.rb.consumerPos
  recent : s.hist.total < s.hist.start i + 2 ^ 64

/-- The `ringbuf_commit` of reservation `i` has exchanged the header word and goes on. -/
def Committing (s : State P) (i : ℕ) : Prop :=
  ∃ p out hdr rb, s.producer p = .exchanged out hdr rb i

/-- A wake-up was queued since the consumer registered, and it is pending or has arrived. -/
def WakeupUnderway (s : State P) (woken : Bool) : Prop :=
  s.hist.wakeQueued = true ∧ (s.irqPending = true ∨ woken = true)

/-- Outputs without `BPF_RB_NO_WAKEUP`; `consumer_pos` is only moved by the poll loop. -/
def Waking (s : State P) : Action P → Prop
  | .output _ out => out.flags &&& bpfRbNoWakeup = 0
  | a => PollOnly s a

/-- The output that a producer is in the middle of. -/
def ProducerPc.out? : ProducerPc → Option Output
  | .idle _ => none
  | .loaded out _ _ | .reserved out _ _ | .copied out _ _ | .exchanged out _ _ _ => some out

/-- No output in progress forbids the wake-up, and none is lost. -/
structure WakeInv (g : Geometry) (s : State P) : Prop where
  log : LogInv g s
  flags : ∀ p out, (s.producer p).out? = some out → out.flags &&& bpfRbNoWakeup = 0
  wake : ∀ woken i, s.consumer = .blocked woken → AtConsumerPos s i →
    s.hist.phase i = .committed → WakeupUnderway s woken ∨ Committing s i

omit [DecidableEq P] in
theorem Initial.wakeInv (hinit : Initial s) : WakeInv g s where
  log := hinit.logInv
  flags p out hout := by
    rw [hinit.producer p] at hout
    simp [ProducerPc.out?] at hout
  wake woken i hblocked := by
    rw [hinit.consumer] at hblocked
    simp at hblocked

/-! ## The test -/

omit [DecidableEq P] in
/-- A record at `consumer_pos` is data to read. -/
theorem AtConsumerPos.avail_ne_zero (hat : AtConsumerPos s i) (hinv : LogInv g s) :
    ringbufAvailDataSz s.rb ≠ 0 := by
  obtain ⟨hlt, hstart, hrecent⟩ := hat
  have hget := List.getElem?_eq_getElem hlt
  have hend := History.start_add_len_le_total hget
  have hlen : 8 ≤ (s.hist.log[i]).len :=
    calc 8 ≤ (s.hist.log[i]).out.size + 8 := Nat.le_add_left _ _
      _ ≤ (s.hist.log[i]).len := size_add_le_reserveLen
  rw [ringbufAvailDataSz, hinv.producerPos, ← hstart]
  omega

omit [DecidableEq P] in
/-- The comparison finds the record at `consumer_pos`. -/
theorem AtConsumerPos.wantsWakeup (hat : AtConsumerPos s i) {hdr flags : ℕ}
    (hhdr : hdr = s.hist.start i % g.dataSz) (hflags : flags &&& bpfRbNoWakeup = 0) :
    wantsWakeup g s.rb hdr flags = true := by
  have hoffset : s.rb.consumerPos &&& g.mask = hdr := by
    rw [← hat.start, g.and_mask, g.mod_dataSz, hhdr]
  rw [Ring.wantsWakeup, hoffset, hflags]
  simp

/-! ## Steps -/

omit [DecidableEq P] in
/-- A step of the consumer or of the `irq_work`, or the test of `poll`. -/
theorem WakeInv.of_frame (hinv : WakeInv g s) (hframe : KernelFrame s s')
    (hwake : ∀ woken, s'.consumer = .blocked woken → ∀ i, AtConsumerPos s' i →
      s.hist.phase i = .committed → WakeupUnderway s' woken ∨ Committing s i) :
    WakeInv g s' where
  log := hframe.logInv hinv.log
  flags := by
    rw [hframe.producer]
    exact hinv.flags
  wake woken i hblocked hat hphase := by
    rw [hframe.phase] at hphase
    refine (hwake woken hblocked i hat hphase).imp_right fun hcommitting => ?_
    rw [Committing, hframe.producer]
    exact hcommitting

omit [DecidableEq P] in
/-- Steps after which the consumer does not sleep. -/
theorem WakeInv.awake (hinv : WakeInv g s) (hframe : KernelFrame s s')
    (hawake : ∀ woken, s'.consumer ≠ .blocked woken) : WakeInv g s' :=
  hinv.of_frame hframe fun woken hblocked => absurd hblocked (hawake woken)

/-- A commit goes on while another producer moves. -/
theorem Committing.of_update {pc : ProducerPc} (hcommitting : Committing s i)
    (hp : ∀ out hdr rb, s.producer p ≠ .exchanged out hdr rb i)
    (hproducer : s'.producer = Function.update s.producer p pc) : Committing s' i := by
  obtain ⟨q, out, hdr, rb, hq⟩ := hcommitting
  refine ⟨q, out, hdr, rb, ?_⟩
  have hne : q ≠ p := by
    rintro rfl
    exact hp out hdr rb hq
  rw [hproducer, Function.update_of_ne hne, hq]

theorem WakeInv.flags_update (hinv : WakeInv g s) {pc : ProducerPc}
    (hpc : ∀ out, pc.out? = some out → out.flags &&& bpfRbNoWakeup = 0) (q : P) (out : Output)
    (hout : (Function.update s.producer p pc q).out? = some out) :
    out.flags &&& bpfRbNoWakeup = 0 := by
  by_cases hq : q = p
  · rw [hq, Function.update_self] at hout
    exact hpc out hout
  · rw [Function.update_of_ne hq] at hout
    exact hinv.flags q out hout

/-- A step of a producer that is not between its exchange and the comparison.  It commits
reservation `committed` at most, and is then between the two. -/
theorem WakeInv.of_producer (hinv : WakeInv g s) (hlog : LogInv g s') (pc : ProducerPc)
    (hpc : ∀ out, pc.out? = some out → out.flags &&& bpfRbNoWakeup = 0)
    (hp : ∀ out hdr rb j, s.producer p ≠ .exchanged out hdr rb j)
    (hproducer : s'.producer = Function.update s.producer p pc)
    (hconsumer : s'.consumer = s.consumer) (hirq : s'.irqPending = s.irqPending)
    (hqueued : s'.hist.wakeQueued = s.hist.wakeQueued)
    (hold : ∀ j, AtConsumerPos s' j → s'.hist.phase j = .committed →
      AtConsumerPos s j ∧ s.hist.phase j = .committed ∨ Committing s' j) : WakeInv g s' where
  log := hlog
  flags q out hout := by
    rw [hproducer] at hout
    exact hinv.flags_update hpc q out hout
  wake woken j hblocked hat hphase := by
    rcases hold j hat hphase with ⟨hat, hphase⟩ | hcommitting
    · rw [hconsumer] at hblocked
      rw [WakeupUnderway, hqueued, hirq]
      refine (hinv.wake woken j hblocked hat hphase).imp_right fun hcommitting => ?_
      exact hcommitting.of_update (fun out hdr rb => hp out hdr rb j) hproducer
    · exact .inr hcommitting

theorem WakeInv.setProducer (hinv : WakeInv g s) {pc : ProducerPc}
    (hok : ProducerOk g s.hist p pc)
    (hpc : ∀ out, pc.out? = some out → out.flags &&& bpfRbNoWakeup = 0)
    (hp : ∀ out hdr rb j, s.producer p ≠ .exchanged out hdr rb j) :
    WakeInv g (s.setProducer p pc) :=
  hinv.of_producer (hinv.log.setProducer hok) pc hpc hp rfl rfl rfl rfl fun _ hat hphase =>
    .inl ⟨⟨hat.lt, hat.start, hat.recent⟩, hphase⟩

/-- A new reservation is not committed, and the older ones keep their place. -/
theorem WakeInv.reserve (hinv : WakeInv g s) {consPos seen : ℕ}
    (hpc : s.producer p = .loaded out consPos seen) : WakeInv g (s.reserve g p out) := by
  have hflags := hinv.flags p out (by rw [hpc]; rfl)
  refine hinv.of_producer (hinv.log.reserve (hinv.log.of_loaded hpc))
    (.reserved out (nextHdr g s.rb) s.hist.log.length)
    (fun _ hout => Option.some.inj hout ▸ hflags) (by simp [hpc]) rfl rfl rfl rfl
    fun j hat hphase => .inl ?_
  have hne : j ≠ s.hist.log.length := by
    rintro rfl
    simp [State.reserve] at hphase
  have hphase' : s.hist.phase j = .committed := by
    rw [← hphase]
    exact (Function.update_of_ne hne _ _).symm
  have hlt : j < s.hist.log.length := by
    have hlt' := hat.lt
    simp only [State.reserve, List.length_append, List.length_singleton] at hlt'
    omega
  have hstart := hat.start
  have hrecent := hat.recent
  rw [reserve_start (Nat.le_of_lt hlt)] at hstart hrecent
  rw [reserve_total] at hrecent
  exact ⟨⟨hlt, hstart, by omega⟩, hphase'⟩

theorem WakeInv.copy (hinv : WakeInv g s) {hdr : ℕ}
    (hpc : s.producer p = .reserved out hdr i) : WakeInv g (s.copy g p out hdr i) := by
  have hstep : Ring.step g s (.copy p) = some (s.copy g p out hdr i) := by
    simp only [Ring.step, copyStep, hpc]
  have hflags := hinv.flags p out (by rw [hpc]; rfl)
  refine hinv.of_producer (hinv.log.step hstep) (.copied out hdr i)
    (fun _ hout => Option.some.inj hout ▸ hflags) (by simp [hpc]) rfl rfl rfl rfl
    fun j hat hphase => .inl ⟨⟨hat.lt, hat.start, hat.recent⟩, ?_⟩
  have hne : j ≠ i := by
    rintro rfl
    simp [State.copy] at hphase
  rw [← hphase]
  exact (Function.update_of_ne hne _ _).symm

/-- An exchange commits a reservation whose `ringbuf_commit` goes on. -/
theorem WakeInv.exchange (hinv : WakeInv g s) {hdr : ℕ}
    (hpc : s.producer p = .copied out hdr i) : WakeInv g (s.exchange g p out hdr i) := by
  have hstep : Ring.step g s (.exchange p) = some (s.exchange g p out hdr i) := by
    simp only [Ring.step, exchangeStep, hpc]
  have hflags := hinv.flags p out (by rw [hpc]; rfl)
  refine hinv.of_producer (hinv.log.step hstep) (.exchanged out hdr (restoredRb g s.rb hdr) i)
    (fun _ hout => Option.some.inj hout ▸ hflags) (by simp [hpc]) rfl rfl rfl rfl
    fun j hat hphase => ?_
  by_cases hj : j = i
  · subst hj
    exact .inr ⟨p, out, hdr, restoredRb g s.rb hdr, Function.update_self _ _ _⟩
  · refine .inl ⟨⟨hat.lt, hat.start, hat.recent⟩, ?_⟩
    rw [← hphase]
    exact (Function.update_of_ne hj _ _).symm

/-- The end of a commit: it queues the `irq_work` if its record is the one at
`consumer_pos`. -/
theorem WakeInv.notify (hinv : WakeInv g s) (h : notifyStep g s p = some s') :
    WakeInv g s' := by
  unfold notifyStep at h
  split at h
  swap
  · simp at h
  rename_i out hdr rb i hpc
  split at h
  swap
  · simp at h
  have hflags := hinv.flags p out (by rw [hpc]; rfl)
  have hok := hinv.log.producers p
  rw [hpc] at hok
  have hidle : LogInv g (s.setProducer p (.idle 0)) := hinv.log.setProducer trivial
  have hidleFlags : ∀ q out, ((s.setProducer p (.idle 0)).producer q).out? = some out →
      out.flags &&& bpfRbNoWakeup = 0 :=
    hinv.flags_update fun _ hout => absurd hout (by simp [ProducerPc.out?])
  split at h
  · obtain rfl := Option.some.inj h
    exact ⟨⟨hidle.producerPos, hidle.fits, hidle.producers⟩, hidleFlags,
      fun woken j _ _ _ => .inl ⟨rfl, .inl rfl⟩⟩
  · rename_i hno
    obtain rfl := Option.some.inj h
    refine ⟨hidle, hidleFlags, fun woken j hblocked hat hphase => ?_⟩
    have hat' : AtConsumerPos s j := ⟨hat.lt, hat.start, hat.recent⟩
    refine (hinv.wake woken j hblocked hat' hphase).imp_right fun hcommitting => ?_
    refine hcommitting.of_update (fun out' hdr' rb' heq => ?_) rfl
    -- the record at `consumer_pos` would have been noticed
    rw [hpc, ProducerPc.exchanged.injEq] at heq
    obtain ⟨rfl, rfl, rfl, rfl⟩ := heq
    exact hno (hat'.wantsWakeup hok.2.1 hflags)

omit [DecidableEq P] in
/-- The consumer's steps.  Only the test of `poll` puts it to sleep, and it does so when there
is no record at `consumer_pos`. -/
theorem WakeInv.poll {a : Action P} (hinv : WakeInv g s) (hframe : KernelFrame s s')
    (h : pollStep s a = some s') : WakeInv g s' := by
  cases hpc : s.consumer with
  | registered woken =>
      cases a <;> simp only [pollStep, hpc, reduceCtorEq, Option.some.injEq] at h
      · subst h
        apply hinv.of_frame hframe
        intro woken hblocked j hat _
        have hat' : AtConsumerPos s j := ⟨hat.lt, hat.start, hat.recent⟩
        dsimp only at hblocked
        rw [if_pos (hat'.avail_ne_zero hinv.log)] at hblocked
        simp at hblocked
      · subst h
        exact hinv.awake hframe fun _ => by simp
  | blocked woken =>
      cases a <;> cases woken <;>
        simp only [pollStep, hpc, reduceCtorEq, Option.some.injEq] at h <;> subst h <;>
        exact hinv.awake hframe fun _ => by simp
  | idle | polled =>
      cases a <;> simp only [pollStep, hpc, reduceCtorEq, Option.some.injEq] at h
      subst h
      exact hinv.awake hframe fun _ => by simp
  | outer consPos =>
      cases a <;> simp only [pollStep, hpc, reduceCtorEq, Option.some.injEq] at h
      subst h
      apply hinv.awake hframe
      intro _
      simp only [pollLoop]
      split <;> simp
  | inner | record | storing => cases a <;> simp [pollStep, hpc] at h

/-- **Every waking step keeps the invariant.** -/
theorem WakeInv.step {a : Action P} (hinv : WakeInv g s) (hok : Waking s a)
    (h : Ring.step g s a = some s') : WakeInv g s' := by
  cases a with
  | output p out =>
      have hidle : ∀ out hdr rb j, s.producer p ≠ .exchanged out hdr rb j := by
        intro out hdr rb j hpc
        simp [Ring.step, outputStep, hpc] at h
      rcases output_cases h with ⟨ret, _, rfl⟩ | ⟨hfits, rfl⟩
      · exact hinv.setProducer trivial (fun _ hout => absurd hout (by simp [ProducerPc.out?])) hidle
      · exact hinv.setProducer hfits (fun _ hout => Option.some.inj hout ▸ hok) hidle
  | reserve p locked =>
      obtain ⟨out, consPos, seen, hpc, rfl | ⟨_, _, rfl⟩⟩ := reserve_cases h
      · exact hinv.setProducer trivial (fun _ hout => absurd hout (by simp [ProducerPc.out?]))
          (by simp [hpc])
      · exact hinv.reserve hpc
  | copy p =>
      obtain ⟨out, hdr, i, hpc, rfl⟩ := copy_cases h
      exact hinv.copy hpc
  | exchange p =>
      obtain ⟨out, hdr, i, hpc, rfl⟩ := exchange_cases h
      exact hinv.exchange hpc
  | notify p => exact hinv.notify h
  | userWrite value => exact absurd hok id
  | irqWork =>
      have hframe := kernelFrame_of_step rfl h
      obtain ⟨_, pc, rfl, ⟨rfl, hawake⟩ | ⟨old, hpc, rfl⟩ | ⟨old, hpc, rfl⟩⟩ := irqWork_cases h
      · exact hinv.awake hframe hawake
      · exact hinv.awake hframe fun _ => by simp
      · -- the wake-up arrives
        apply hinv.of_frame hframe
        intro woken hblocked j hat hphase
        obtain rfl := ConsumerPc.blocked.inj hblocked
        refine (hinv.wake old j hpc ⟨hat.lt, hat.start, hat.recent⟩ hphase).imp_left ?_
        exact fun hunderway => ⟨hunderway.1, .inr rfl⟩
  | loadHeader =>
      have hframe := kernelFrame_of_step rfl h
      obtain ⟨pc, rfl, hawake⟩ := loadHeader_cases h
      exact hinv.awake hframe hawake
  | callback err =>
      have hframe := kernelFrame_of_step rfl h
      obtain ⟨consPos, prodPos, hdr, len, _, rfl⟩ := callback_cases h
      exact hinv.awake hframe fun _ => by simp
  | storeConsumerPos =>
      have hframe := kernelFrame_of_step rfl h
      obtain ⟨consPos, prodPos, err, _, rfl⟩ := storeConsumerPos_cases h
      apply hinv.awake hframe
      intro _
      simp only [pollLoop]
      split_ifs <;> simp
  | pollEnter | pollTest | pollWake | pollFail | loadConsumerPos | loadProducerPos =>
      exact hinv.poll (kernelFrame_of_step rfl h) (by unfold Ring.step at h; exact h)

/-- **No wake-up is lost.**  When the consumer sleeps in `poll` and the record at
`consumer_pos` is committed, then a wake-up was queued since it registered, and is pending
or has arrived, or the record's `ringbuf_commit` has not returned yet. -/
theorem wakeup_not_lost {acts : List (Action P)} {woken : Bool}
    (hrun : Run (step g) Waking Initial acts s) (hblocked : s.consumer = .blocked woken)
    (hat : AtConsumerPos s i) (hcommitted : s.hist.phase i = .committed) :
    WakeupUnderway s woken ∨ Committing s i := by
  have hinv : WakeInv g s := hrun.invariant (fun _ hinit => hinit.wakeInv)
    fun _ _ _ hinv hok hstep => hinv.step hok hstep
  exact hinv.wake woken i hblocked hat hcommitted

/-! ## A sleeping consumer

The consumer finds nothing and sleeps.  Then a record of four bytes is handed over. -/

/-- The consumer goes to sleep, and a record is committed up to the exchange. -/
def sleepActions : List (Action Bool) :=
  [.pollEnter, .pollTest, .output true (countingOutput 4), .reserve true true, .copy true,
    .exchange true]

theorem sleepActions_waking : ∀ a ∈ sleepActions ++ [.notify true], ∀ s : State Bool,
    Waking s a := by
  simp [sleepActions, Waking, PollOnly, countingOutput]

/-- What a state in front of the first record looks like. -/
theorem atConsumerPos_zero {s : State Bool} (hpos : s.rb.consumerPos = 0)
    (hlen : s.hist.log.length = 1) (htotal : s.hist.total = 16) : AtConsumerPos s 0 := by
  have hstart : s.hist.start 0 = 0 := rfl
  exact ⟨by omega, by rw [hstart, hpos, Nat.zero_mod], by omega⟩

/-- With the comparison done, the wake-up is pending. -/
theorem wakeup_not_lost_single : ∃ s,
    exec (step pageRing) freshRing (sleepActions ++ [.notify true]) = some s ∧
      s.consumer = .blocked false ∧ (WakeupUnderway s false ∨ Committing s 0) := by
  have hend : (exec (step pageRing) freshRing (sleepActions ++ [.notify true])).map (fun s =>
      (s.consumer, s.hist.phase 0, s.rb.consumerPos, s.hist.log.length, s.hist.total)) =
        some (.blocked false, .committed, 0, 1, 16) := by
    decide +kernel
  obtain ⟨s, hexec, hs⟩ := Option.map_eq_some_iff.mp hend
  simp only [Prod.mk.injEq] at hs
  obtain ⟨hblocked, hphase, hpos, hlen, htotal⟩ := hs
  exact ⟨s, hexec, hblocked, wakeup_not_lost (.of_exec freshRing_initial sleepActions_waking hexec)
    hblocked (atConsumerPos_zero hpos hlen htotal) hphase⟩

/-- Between the exchange and the comparison no wake-up is queued yet. -/
theorem not_wakeup_queued :
    ¬ ∀ (g : Geometry) (acts : List (Action Bool)) (s : State Bool) (woken : Bool) (i : ℕ),
      Run (step g) Waking Initial acts s → s.consumer = .blocked woken → AtConsumerPos s i →
        s.hist.phase i = .committed → s.hist.wakeQueued = true := by
  intro hclaim
  have hend : (exec (step pageRing) freshRing sleepActions).map (fun s =>
      (s.consumer, s.hist.phase 0, s.rb.consumerPos, s.hist.log.length, s.hist.total,
        s.hist.wakeQueued)) = some (.blocked false, .committed, 0, 1, 16, false) := by
    decide +kernel
  obtain ⟨s, hexec, hs⟩ := Option.map_eq_some_iff.mp hend
  simp only [Prod.mk.injEq] at hs
  obtain ⟨hblocked, hphase, hpos, hlen, htotal, hqueued⟩ := hs
  have hwaking : ∀ a ∈ sleepActions, ∀ s : State Bool, Waking s a := fun a ha =>
    sleepActions_waking a (List.mem_append_left _ ha)
  have hcontra := hclaim pageRing sleepActions s false 0 (.of_exec freshRing_initial hwaking hexec)
    hblocked (atConsumerPos_zero hpos hlen htotal) hphase
  rw [hqueued] at hcontra
  exact Bool.false_ne_true hcontra

end SecDetector.Ring
