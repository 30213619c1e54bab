import SecDetector.Ring.Delivery

/-!
# Exactly once, in order, intact

The delivery invariant along runs, and what it says about the callback:
`DeliversInOrder` holds in every state of every run in which the two sides use the
same mask, `consumer_pos` is only moved by the poll loop, and fewer than `2 ^ 64`
bytes are reserved.
-/

namespace SecDetector.Ring

open Lib

variable {P : Type*} [DecidableEq P] {g : Geometry} {s s' : State P}

omit [DecidableEq P] in
/-- The steps of `poll` and the loads of the two positions. -/
theorem DeliveryInv.poll {a : Action P} (hinv : DeliveryInv g s) (h : pollStep s a = some s') :
    DeliveryInv g s' := by
  have hconsumer := hinv.consumer
  have hdelivered := hinv.delivered
  unfold State.handled at hdelivered
  cases hpc : s.consumer with
  | idle ret =>
      rw [hpc] at hdelivered
      cases a <;> simp only [pollStep, hpc, reduceCtorEq, Option.some.injEq] at h
      subst h
      exact hinv.of_frame ⟨rfl, rfl, rfl, rfl, rfl⟩ rfl rfl trivial hdelivered
  | registered woken =>
      rw [hpc] at hdelivered
      cases a <;> simp only [pollStep, hpc, reduceCtorEq, Option.some.injEq] at h
      · subst h
        refine hinv.of_frame ⟨rfl, rfl, rfl, rfl, rfl⟩ rfl rfl ?_ ?_
        · split <;> trivial
        · split <;> exact hdelivered
      · subst h
        exact hinv.of_frame ⟨rfl, rfl, rfl, rfl, rfl⟩ rfl rfl trivial hdelivered
  | blocked woken =>
      rw [hpc] at hdelivered
      cases a <;> cases woken <;>
        simp only [pollStep, hpc, reduceCtorEq, Option.some.injEq] at h <;> subst h <;>
        exact hinv.of_frame ⟨rfl, rfl, rfl, rfl, rfl⟩ rfl rfl trivial hdelivered
  | polled =>
      rw [hpc] at hdelivered
      cases a <;> simp only [pollStep, hpc, reduceCtorEq, Option.some.injEq] at h
      subst h
      exact hinv.of_frame ⟨rfl, rfl, rfl, rfl, rfl⟩ rfl rfl hinv.consumerPos hdelivered
  | outer consPos =>
      rw [hpc] at hconsumer hdelivered
      cases a <;> simp only [pollStep, hpc, reduceCtorEq, Option.some.injEq] at h
      subst h
      refine hinv.of_frame ⟨rfl, rfl, rfl, rfl, rfl⟩ rfl rfl ?_ ?_
      · unfold pollLoop
        split
        · exact ⟨‹_›, hconsumer, _, le_rfl, hinv.consumed_le, hinv.log.producerPos⟩
        · trivial
      · unfold pollLoop
        split <;> exact hdelivered
  -- inside the loop over the records the consumer takes none of these steps
  | inner | record | storing => cases a <;> simp [pollStep, hpc] at h

/-- **Every regular step keeps the delivery invariant.** -/
theorem DeliveryInv.step {a : Action P} (hinv : DeliveryInv g s) (hok : Regular g s a)
    (h : step g s a = some s') : DeliveryInv g s' := by
  obtain ⟨hpoll, hlap, hoffset⟩ := hok
  have hconsumer := hinv.consumer
  have hdelivered := hinv.delivered
  unfold State.handled at hdelivered
  cases a with
  | output p out =>
      rcases output_cases h with ⟨ret, _, rfl⟩ | ⟨hfits, rfl⟩
      · exact hinv.setProducer trivial trivial
      · exact hinv.setProducer hfits ⟨le_rfl, hinv.consumerPos⟩
  | reserve p locked =>
      obtain ⟨out, consPos, k, hpc, rfl | ⟨rfl, hspace, rfl⟩⟩ := reserve_cases h
      · exact hinv.setProducer trivial trivial
      · exact hinv.reserve hpc hspace (hlap out consPos k hpc hspace)
  | copy p =>
      obtain ⟨out, hdr, i, hpc, rfl⟩ := copy_cases h
      exact hinv.copy hpc
  | exchange p =>
      obtain ⟨out, hdr, i, hpc, rfl⟩ := exchange_cases h
      exact hinv.exchange hpc
  | notify p =>
      obtain ⟨pending, queued, rfl⟩ := notify_cases h
      have hidle : DeliveryInv g (s.setProducer p (.idle 0)) := hinv.setProducer trivial trivial
      exact hidle.of_frame ⟨rfl, rfl, rfl, rfl, rfl⟩ rfl rfl hidle.consumer hidle.delivered
  | userWrite value => exact absurd hpoll id
  | loadHeader => exact hinv.loadHeader hoffset h
  | callback err => exact hinv.callback h
  | storeConsumerPos => exact hinv.storeConsumerPos h
  | irqWork =>
      obtain ⟨_, pc, rfl, ⟨rfl, _⟩ | ⟨woken, hpc, rfl⟩ | ⟨woken, hpc, rfl⟩⟩ := irqWork_cases h
      · exact hinv.of_frame ⟨rfl, rfl, rfl, rfl, rfl⟩ rfl rfl hconsumer hdelivered
      · rw [hpc] at hdelivered
        exact hinv.of_frame ⟨rfl, rfl, rfl, rfl, rfl⟩ rfl rfl trivial hdelivered
      · rw [hpc] at hdelivered
        exact hinv.of_frame ⟨rfl, rfl, rfl, rfl, rfl⟩ rfl rfl trivial hdelivered
  | pollEnter | pollTest | pollWake | pollFail | loadConsumerPos | loadProducerPos =>
      unfold Ring.step at h
      exact hinv.poll h

/-! ## Runs of less than `2 ^ 64` bytes -/

/-- Nothing is ever taken back from the log. -/
theorem total_le_of_step {a : Action P} (h : step g s a = some s') :
    s.hist.total ≤ s'.hist.total := by
  by_cases ha : a.isProducer = false
  · rw [(kernelFrame_of_step ha h).total]
  · cases a with
    | output p out => rcases output_cases h with ⟨_, _, rfl⟩ | ⟨_, rfl⟩ <;> exact le_rfl
    | reserve p locked =>
        obtain ⟨out, consPos, k, hpc, rfl | ⟨_, _, rfl⟩⟩ := reserve_cases h
        · exact le_rfl
        · rw [reserve_total]
          omega
    | copy p =>
        obtain ⟨_, _, _, _, rfl⟩ := copy_cases h
        exact le_rfl
    | exchange p =>
        obtain ⟨_, _, _, _, rfl⟩ := exchange_cases h
        exact le_rfl
    | notify p =>
        obtain ⟨_, _, rfl⟩ := notify_cases h
        exact le_rfl
    | _ => simp [Action.isProducer] at ha

omit [DecidableEq P] in
/-- With equal masks, the daemon finds the ring byte that it looks for. -/
theorem offsetAgrees_of_mask (hmask : g.daemonMask = g.mask) (s : State P) (a : Action P) :
    OffsetAgrees g s a := by
  unfold OffsetAgrees
  split
  · intro consPos prodPos _
    rw [hmask, g.and_mask, Nat.mod_mod]
  · trivial

/-- In a run of less than `2 ^ 64` bytes no reservation is lapped. -/
theorem run_notLapped {acts : List (Action P)} (hrun : Run (step g) PollOnly Initial acts s)
    (htotal : s.hist.total < 2 ^ 64) :
    Run (step g) (fun s a => PollOnly s a ∧ NotLapped g s a) Initial acts s := by
  induction hrun with
  | start hinit => exact .start hinit
  | @next acts s t a hprev hpoll hstep ih =>
      have hle := total_le_of_step hstep
      refine .next (ih (by omega)) ⟨hpoll, ?_⟩ hstep
      unfold NotLapped
      split
      · rename_i p
        intro out consPos k hpc hspace
        simp only [Ring.step, reserveStep, hpc, true_and, if_pos hspace, Option.some.injEq] at hstep
        rw [← hstep, reserve_total] at htotal
        omega
      · trivial

/-- The invariant after a run with equal masks. -/
theorem deliveryInv_of_run (hmask : g.daemonMask = g.mask) {acts : List (Action P)}
    (hrun : Run (step g) (fun s a => PollOnly s a ∧ NotLapped g s a) Initial acts s) :
    DeliveryInv g s := by
  refine hrun.invariant (fun _ hinit => hinit.deliveryInv) fun s a t hinv hok hstep => ?_
  exact hinv.step ⟨hok.1, hok.2, offsetAgrees_of_mask hmask s a⟩ hstep

/-- What the ring buffer promises about its records. -/
structure DeliversInOrder (g : Geometry) (s : State P) : Prop where
  /-- The callback has been given the committed records, in order, up to some point. -/
  inOrder : s.hist.delivered <+: s.hist.committed
  /-- A failed output changes nothing but its caller. -/
  failed : ∀ (a : Action P) t p ret, step g s a = some t → t.producer p = .idle ret → ret < 0 →
    ((∃ out, a = .output p out) ∨ ∃ locked, a = .reserve p locked) →
    t = s.setProducer p (.idle ret)
  /-- A callback error ends the poll, with the record of the callback consumed. -/
  error : ∀ consPos prodPos err, s.consumer = .storing consPos prodPos err → err < 0 →
    ∃ r t, s.hist.log[s.hist.consumed]? = some r ∧
      s.hist.delivered.getLast? = some (r.out.bytes, r.out.size) ∧
      step g s .storeConsumerPos = some t ∧ t.consumer = .idle err ∧
      t.rb.consumerPos = s.hist.start (s.hist.consumed + 1) % 2 ^ 64 ∧
      t.hist.consumed = s.hist.consumed + 1
  /-- Every commit finds its ring again. -/
  restored : ∀ p out hdr rb i, s.producer p = .exchanged out hdr rb i → rb = g.base

theorem failed_output {a : Action P} {p : P} {ret : ℤ} (hstep : step g s a = some s')
    (hpc : s'.producer p = .idle ret)
    (ha : (∃ out, a = .output p out) ∨ ∃ locked, a = .reserve p locked) :
    s' = s.setProducer p (.idle ret) := by
  rcases ha with ⟨out, rfl⟩ | ⟨locked, rfl⟩
  · rcases output_cases hstep with ⟨ret', _, rfl⟩ | ⟨_, rfl⟩
    · simp only [State.setProducer, Function.update_self, ProducerPc.idle.injEq] at hpc
      rw [hpc]
    · simp [State.setProducer] at hpc
  · obtain ⟨out, consPos, k, _, rfl | ⟨_, _, rfl⟩⟩ := reserve_cases hstep
    · simp only [State.setProducer, Function.update_self, ProducerPc.idle.injEq] at hpc
      rw [hpc]
    · simp [State.reserve] at hpc

theorem DeliveryInv.deliversInOrder (hinv : DeliveryInv g s) : DeliversInOrder g s where
  inOrder := by
    rw [hinv.delivered]
    apply List.IsPrefix.filterMap _
    exact List.take_prefix _ _
  failed a t p ret hstep hpc _ ha := failed_output hstep hpc ha
  error consPos prodPos err hpc herr := by
    have hconsumer := hinv.consumer
    have hdelivered := hinv.delivered
    unfold State.handled at hdelivered
    rw [hpc] at hconsumer hdelivered
    obtain ⟨hconsuming, hrecord⟩ := hconsumer
    obtain ⟨r, hr, hdiscard⟩ := hrecord herr
    refine ⟨r, _, hr, ?_, by simp only [Ring.step, storeConsumerPosStep, hpc]; rfl, ?_, ?_, rfl⟩
    · dsimp only [ConsumerPc.handled] at hdelivered
      rw [hdelivered, deliverable_succ hr]
      simp [History.committed?, hconsuming.committed, hdiscard]
    · exact if_pos herr
    · exact hconsuming.consPos
  restored p out hdr rb i hpc := by
    have hp := hinv.remembers p
    rwa [hpc] at hp

/-- **The ring buffer delivers every record exactly once, in order and intact**, for any
number of producers and every interleaving, as long as both sides use the same
mask and fewer than `2 ^ 64` bytes are reserved. -/
theorem ring_delivers_in_order (hmask : g.daemonMask = g.mask) {acts : List (Action P)}
    (hrun : Run (step g) PollOnly Initial acts s) (htotal : s.hist.total < 2 ^ 64) :
    DeliversInOrder g s :=
  (deliveryInv_of_run hmask (run_notLapped hrun htotal)).deliversInOrder

/-! ## Records on their way

Two producers hand over three records, and the consumer polls twice. -/

/-- A ring of one page. -/
def pageRing : Geometry where
  order := 12
  base := 2 ^ 40
  daemonMask := 2 ^ 12 - 1
  page_le := le_rfl
  order_le := by norm_num
  base_aligned := pageSize_dvd_two_pow_40
  base_le := by norm_num

/-- A fresh ring with zeroed pages. -/
def freshRing : State Bool where
  rb := ⟨0, 0, fun _ => 0⟩
  producer _ := .idle 0
  consumer := .idle 0
  irqPending := false
  hist := ⟨[], fun _ => .committed, 0, [], false⟩

theorem freshRing_initial : Initial freshRing where
  consumerPos := rfl
  producerPos := rfl
  producer _ := rfl
  consumer := rfl
  irqPending := rfl
  log := rfl
  consumed := rfl
  delivered := rfl

/-- An output of `size` bytes `0, 1, 2, …`. -/
def countingOutput (size : ℕ) : Output :=
  ⟨fun i => UInt8.ofNat i, size, 0, false⟩

/-- A whole `ringbuf_output` without an interruption. -/
def outputActions (p : Bool) (out : Output) : List (Action Bool) :=
  [.output p out, .reserve p true, .copy p, .exchange p, .notify p]

/-- A poll that finds one record, up to the end of the callback. -/
def pollActions : List (Action Bool) :=
  [.pollEnter, .pollTest, .loadConsumerPos, .loadProducerPos, .loadHeader, .callback 0]

/-- An output that is discarded. -/
def discardedOutput : Output := { countingOutput 2 with discard := true }

/-- The record that is reserved second is committed first, and a poll that comes before the other
commit finds nothing.  The next poll finds both records and one that is discarded. -/
def overtakingActions : List (Action Bool) :=
  [.output false (countingOutput 4), .output true (countingOutput 8), .reserve false true,
    .reserve true true, .copy true, .exchange true, .notify true, .pollEnter, .pollTest,
    .loadConsumerPos, .loadProducerPos, .loadHeader] ++
  outputActions true discardedOutput ++ [.copy false, .exchange false, .notify false] ++
  pollActions ++ [.storeConsumerPos, .loadHeader, .callback 0, .storeConsumerPos, .loadHeader,
    .storeConsumerPos]

/-- The run ends with the two records delivered in the order of their reservations. -/
theorem ring_delivers_overtaking :
    ∃ s, exec (step pageRing) freshRing overtakingActions = some s ∧
      DeliversInOrder pageRing s ∧ s.hist.consumed = 3 ∧
      s.hist.delivered = [([0, 1, 2, 3], 4), ([0, 1, 2, 3, 4, 5, 6, 7], 8)] := by
  have hpoll : ∀ a ∈ overtakingActions, ∀ s : State Bool, PollOnly s a := by
    simp [overtakingActions, outputActions, pollActions, PollOnly]
  have hend : (exec (step pageRing) freshRing overtakingActions).map
      (fun s => (s.hist.total, s.hist.consumed, s.hist.delivered)) =
        some (48, 3, [([0, 1, 2, 3], 4), ([0, 1, 2, 3, 4, 5, 6, 7], 8)]) := by
    decide +kernel
  obtain ⟨s, hexec, hs⟩ := Option.map_eq_some_iff.mp hend
  simp only [Prod.mk.injEq] at hs
  obtain ⟨htotal, hconsumed, hdelivered⟩ := hs
  refine ⟨s, hexec, ?_, hconsumed, hdelivered⟩
  exact ring_delivers_in_order rfl (.of_exec freshRing_initial hpoll hexec) (by omega)

end SecDetector.Ring
