import Mathlib.Data.List.Count
import SecDetector.Ring.InOrder

/-!
# What a poll gets done

`secDetector_ringbuf_poll` runs beside the producers.  When it returns 0, every record that was
committed when it was entered, with nothing uncommitted in front of it, has been consumed
(`poll_returns_drained`).  And it does no work in vain: each load of a position or header, each
callback and each store is paid for by a record or by the call itself (`poll_work_le`), so a poll
that goes on and on is one that is fed by the producers.
-/

namespace SecDetector.Ring

open Lib

variable {P : Type*} [DecidableEq P] {g : Geometry} {s s' t : State P} {k : ℕ}
  {records : List (List UInt8 × ℕ)}

/-! ## Commits stay -/

/-- The log grows in every step, and commits stay. -/
theorem grows_of_step {a : Action P} (hinv : LogInv g s) (h : step g s a = some s') :
    s.hist.Grows { s'.hist with consumed := s.hist.consumed } := by
  have hsame : s'.hist.log = s.hist.log → s'.hist.phase = s.hist.phase →
      s.hist.Grows { s'.hist with consumed := s.hist.consumed } := fun hlog hphase =>
    ⟨hlog ▸ List.prefix_refl _, fun _ _ hi => hphase ▸ hi, rfl⟩
  by_cases ha : a.isProducer = false
  · have hframe := kernelFrame_of_step ha h
    exact hsame hframe.log hframe.phase
  · cases a with
    | output p out => rcases output_cases h with ⟨_, _, rfl⟩ | ⟨_, rfl⟩ <;> exact hsame rfl rfl
    | reserve p locked =>
        obtain ⟨out, consPos, seen, hpc, rfl | ⟨_, _, rfl⟩⟩ := reserve_cases h
        · exact hsame rfl rfl
        · refine ⟨List.prefix_append _ _, fun i hi hphase => ?_, rfl⟩
          rw [← hphase]
          exact Function.update_of_ne (Nat.ne_of_lt hi) _ _
    | copy p =>
        obtain ⟨out, hdr, i, hpc, rfl⟩ := copy_cases h
        have hphase : s.hist.phase i ≠ .committed := by
          rw [(hinv.of_reserved hpc).2.2]
          decide
        exact grows_setPhase hphase
    | exchange p =>
        obtain ⟨out, hdr, i, hpc, rfl⟩ := exchange_cases h
        have hphase : s.hist.phase i ≠ .committed := by
          rw [(hinv.of_copied hpc).2.2]
          decide
        exact grows_setPhase hphase
    | notify p =>
        obtain ⟨_, _, rfl⟩ := notify_cases h
        exact hsame rfl rfl
    | _ => simp [Action.isProducer] at ha

/-! ## The end of a poll -/

/-- The first `k` reservations are committed and hand over `records`, and a poll that has
returned 0 is through with them. -/
structure DrainInv (s : State P) (k : ℕ) (records : List (List UInt8 × ℕ)) : Prop where
  length_le : k ≤ s.hist.log.length
  committed : ∀ i < k, s.hist.phase i = .committed
  deliverable : s.hist.deliverable k = records
  returned : s.consumer = .idle 0 → k ≤ s.hist.consumed

/-- A step that does not end a poll with 0. -/
theorem DrainInv.of_step (hinv : DrainInv s k records) (hlog : LogInv g s) {a : Action P}
    (h : step g s a = some s') (hreturned : s'.consumer = .idle 0 → k ≤ s'.hist.consumed) :
    DrainInv s' k records := by
  have hgrow := grows_of_step hlog h
  refine ⟨hinv.length_le.trans hgrow.length_le, fun i hi => ?_, ?_, hreturned⟩
  · exact hgrow.committed i (lt_of_lt_of_le hi hinv.length_le) (hinv.committed i hi)
  · rw [← hinv.deliverable, ← hgrow.deliverable hinv.length_le hinv.committed]
    rfl

omit [DecidableEq P] in
/-- The consumer is at a record that is not committed. -/
theorem DrainInv.le_of_busy (hinv : DrainInv s k records)
    (hbusy : s.hist.phase s.hist.consumed ≠ .committed) : k ≤ s.hist.consumed := by
  by_contra hlt
  exact hbusy (hinv.committed _ (not_le.mp hlt))

omit [DecidableEq P] in
/-- The load of `producer_pos` finds no record behind `consumer_pos`. -/
theorem DeliveryInv.le_of_empty (hinv : DeliveryInv g s) (htotal : s.hist.total < 2 ^ 64)
    {consPos : ℕ} (hpc : s.consumer = .outer consPos) (hle : s.rb.producerPos ≤ consPos)
    (hk : k ≤ s.hist.log.length) : k ≤ s.hist.consumed := by
  have hconsumer := hinv.consumer
  rw [hpc] at hconsumer
  have hcons : consPos = s.hist.start s.hist.consumed % 2 ^ 64 := hconsumer
  have hstart := History.start_le_total hinv.consumed_le
  have hprod := hinv.log.producerPos
  rw [Nat.mod_eq_of_lt (by omega)] at hcons
  by_contra hlt
  obtain ⟨r, hr⟩ : ∃ r, s.hist.log[s.hist.consumed]? = some r :=
    ⟨_, List.getElem?_eq_getElem (by omega)⟩
  have hend := History.start_add_len_le_total hr
  have hlen : 8 ≤ r.len :=
    calc 8 ≤ r.out.size + 8 := Nat.le_add_left _ _
      _ ≤ r.len := size_add_le_reserveLen
  rw [Nat.mod_eq_of_lt htotal] at hprod
  omega

omit [DecidableEq P] in
/-- The header of a committed record is not busy. -/
theorem DeliveryInv.busy (hinv : DeliveryInv g s) (hmask : g.daemonMask = g.mask)
    {consPos prodPos : ℕ} (hpc : s.consumer = .inner consPos prodPos)
    (hbusy : Cyclic.loadWord g.dataSz s.rb.data (consPos &&& g.daemonMask) &&&
      bpfRingbufBusyBit ≠ 0) :
    s.hist.phase s.hist.consumed ≠ .committed := by
  intro hphase
  have hconsumer := hinv.consumer
  rw [hpc] at hconsumer
  obtain ⟨hlt, hcons, m, hm, hle, hprod⟩ := hconsumer
  have hkm : s.hist.consumed ≠ m := by
    intro heq
    rw [← heq] at hprod
    omega
  obtain ⟨r, hr⟩ : ∃ r, s.hist.log[s.hist.consumed]? = some r :=
    ⟨_, List.getElem?_eq_getElem (by omega)⟩
  have hhdr : (consPos &&& g.daemonMask) % g.dataSz = s.hist.start s.hist.consumed % g.dataSz := by
    rw [hmask, g.and_mask, Nat.mod_mod, hcons, g.mod_dataSz]
  rw [Cyclic.loadWord_congr hhdr, (hinv.intact _ r hr le_rfl).len, hphase, headerWord] at hbusy
  exact hbusy (commitWord_and_busy (hinv.log.fits _ r hr).1 r.out.discard)

/-- A poll that returns 0 is through with the records that were committed. -/
theorem DrainInv.returns (hinv : DrainInv s k records) (hdelivery : DeliveryInv g s)
    (hmask : g.daemonMask = g.mask) (htotal : s.hist.total < 2 ^ 64) {a : Action P}
    (h : step g s a = some s') (hpoll : PollOnly s a) (hret : s'.consumer = .idle 0) :
    k ≤ s'.hist.consumed := by
  cases a with
  | output p out =>
      rcases output_cases h with ⟨_, _, rfl⟩ | ⟨_, rfl⟩ <;> exact hinv.returned hret
  | reserve p locked =>
      obtain ⟨out, consPos, seen, hpc, rfl | ⟨_, _, rfl⟩⟩ := reserve_cases h <;>
        exact hinv.returned hret
  | copy p =>
      obtain ⟨_, _, _, _, rfl⟩ := copy_cases h
      exact hinv.returned hret
  | exchange p =>
      obtain ⟨_, _, _, _, rfl⟩ := exchange_cases h
      exact hinv.returned hret
  | notify p =>
      obtain ⟨_, _, rfl⟩ := notify_cases h
      exact hinv.returned hret
  | irqWork =>
      obtain ⟨_, pc, rfl, ⟨rfl, _⟩ | ⟨_, _, rfl⟩ | ⟨_, _, rfl⟩⟩ := irqWork_cases h
      · exact hinv.returned hret
      · cases hret
      · cases hret
  | userWrite value => exact hpoll.elim
  | callback err =>
      obtain ⟨_, _, _, _, _, rfl⟩ := callback_cases h
      cases hret
  | storeConsumerPos =>
      -- after a record the poll ends with an error, or looks for more
      obtain ⟨consPos, prodPos, err, _, rfl⟩ := storeConsumerPos_cases h
      dsimp only at hret
      split at hret
      · rename_i herr
        obtain rfl := ConsumerPc.idle.inj hret
        exact absurd herr (lt_irrefl 0)
      · unfold pollLoop at hret
        split at hret <;> cases hret
  | loadHeader =>
      simp only [Ring.step, loadHeaderStep] at h
      split at h
      · rename_i consPos prodPos hpc
        split at h
        · rename_i hbusy
          obtain rfl := Option.some.inj h
          exact hinv.le_of_busy (hdelivery.busy hmask hpc hbusy)
        · split at h <;> cases h <;> cases hret
      · cases h
  | loadProducerPos =>
      simp only [Ring.step, pollStep] at h
      split at h
      · rename_i consPos hpc
        obtain rfl := Option.some.inj h
        dsimp only [pollLoop] at hret
        split at hret
        · cases hret
        · rename_i hle
          exact hdelivery.le_of_empty htotal hpc (not_lt.mp hle) hinv.length_le
      · cases h
  | pollTest =>
      simp only [Ring.step, pollStep] at h
      split at h
      · obtain rfl := Option.some.inj h
        dsimp only at hret
        split at hret <;> cases hret
      · cases h
  | pollEnter | pollWake | pollFail | loadConsumerPos =>
      simp only [Ring.step, pollStep] at h
      split at h <;> cases h <;> cases hret

/-- **A poll that returns 0 has left nothing behind.**  In every run with equal masks and less
than `2 ^ 64` bytes: the records that are committed when the poll is entered, up to the first one
that is not, have been consumed when a poll returns 0 after it, and handed to the callback in
their order. -/
theorem poll_returns_drained (hmask : g.daemonMask = g.mask) {acts later : List (Action P)}
    (hrun : Run (step g) PollOnly Initial acts s) (henter : step g s .pollEnter = some t)
    (hlater : Run (step g) PollOnly (· = t) later s') (htotal : s'.hist.total < 2 ^ 64)
    (hret : s'.consumer = .idle 0) (hk : k ≤ s.hist.log.length)
    (hcommitted : ∀ i < k, s.hist.phase i = .committed) :
    k ≤ s'.hist.consumed ∧ s.hist.deliverable k <+: s'.hist.delivered := by
  have hinv : ∀ {later s'}, Run (step g) PollOnly (· = t) later s' →
      s'.hist.total < 2 ^ 64 → (∃ acts, Run (step g) PollOnly Initial acts s') ∧
        DrainInv s' k (s.hist.deliverable k) := by
    intro later s' hlater htotal
    induction hlater with
    | @start s' hinit =>
        subst hinit
        have hpoll : PollOnly s .pollEnter := trivial
        refine ⟨⟨_, hrun.next hpoll henter⟩, ?_⟩
        simp only [step, pollStep] at henter
        split at henter
        · obtain rfl := Option.some.inj henter
          exact ⟨hk, hcommitted, rfl, by simp⟩
        · cases henter
    | @next later s' t' a _ hpoll hstep ih =>
        have hlt := lt_of_le_of_lt (total_le_of_step hstep) htotal
        obtain ⟨⟨acts, hreach⟩, hdrain⟩ := ih hlt
        have hdelivery := deliveryInv_of_run hmask (run_notLapped hreach hlt)
        exact ⟨⟨_, hreach.next hpoll hstep⟩, hdrain.of_step hdelivery.log hstep
          (hdrain.returns hdelivery hmask hlt hstep hpoll)⟩
  obtain ⟨⟨_, hreach⟩, hdrain⟩ := hinv hlater htotal
  have hdelivery := deliveryInv_of_run hmask (run_notLapped hreach htotal)
  have hconsumed := hdrain.returned hret
  have hdelivered := hdelivery.delivered
  rw [State.handled, hret] at hdelivered
  refine ⟨hconsumed, ?_⟩
  rw [← hdrain.deliverable, hdelivered]
  exact (List.take_prefix_take_left hconsumed).filterMap _

/-! ## A poll between two records

The first record is committed and the second is not, when a poll is entered. -/

/-- One record is handed over, and the next is reserved. -/
def halfActions : List (Action Bool) :=
  outputActions true (countingOutput 4) ++
    [.output true (countingOutput 8), .reserve true true]

/-- The rest of a poll that finds one record. -/
def drainActions : List (Action Bool) :=
  [.pollTest, .loadConsumerPos, .loadProducerPos, .loadHeader, .callback 0, .storeConsumerPos,
    .loadHeader]

theorem drain_single : ∃ s t s', exec (step pageRing) freshRing halfActions = some s ∧
    step pageRing s .pollEnter = some t ∧ exec (step pageRing) t drainActions = some s' ∧
      1 ≤ s'.hist.consumed ∧ s.hist.deliverable 1 <+: s'.hist.delivered := by
  have hhalf : ∀ a ∈ halfActions, ∀ s : State Bool, PollOnly s a := by
    simp [halfActions, outputActions, PollOnly]
  have hdrain : ∀ a ∈ drainActions, ∀ s : State Bool, PollOnly s a := by
    simp [drainActions, PollOnly]
  have hend : (exec (step pageRing) freshRing halfActions).bind (fun s =>
      (step pageRing s .pollEnter).bind fun t =>
        (exec (step pageRing) t drainActions).map fun s' =>
          (s.hist.log.length, s.hist.phase 0, s'.hist.total, s'.consumer)) =
      some (2, .committed, 32, .idle 0) := by
    decide +kernel
  obtain ⟨s, hexec, hend⟩ := Option.bind_eq_some_iff.mp hend
  obtain ⟨t, henter, hend⟩ := Option.bind_eq_some_iff.mp hend
  obtain ⟨s', hlater, hend⟩ := Option.map_eq_some_iff.mp hend
  simp only [Prod.mk.injEq] at hend
  obtain ⟨hlength, hphase, htotal, hret⟩ := hend
  refine ⟨s, t, s', hexec, henter, hlater, ?_⟩
  refine poll_returns_drained rfl (.of_exec freshRing_initial hhalf hexec) henter
    (.of_exec rfl hdrain hlater) (by omega) hret (by omega) fun i hi => ?_
  obtain rfl : i = 0 := by omega
  exact hphase

/-! ## The work of the polls -/

/-- A load of a position or of a header, a callback, or a store. -/
def Action.isWork : Action P → Bool
  | .loadConsumerPos | .loadProducerPos | .loadHeader | .callback _ | .storeConsumerPos => true
  | _ => false

def Action.isPollEnter : Action P → Bool
  | .pollEnter => true
  | _ => false

/-- How much of the work for a poll and for a record has been done. -/
def ConsumerPc.work : ConsumerPc → ℕ
  | .registered _ | .blocked _ | .polled => 0
  | .outer _ => 1
  | .inner _ _ => 2
  | .idle _ | .record _ _ _ _ => 3
  | .storing _ _ _ => 4

omit [DecidableEq P] in
theorem pollLoop_work (consPos prodPos : ℕ) :
    1 ≤ (pollLoop true consPos prodPos).work ∧ 2 ≤ (pollLoop false consPos prodPos).work := by
  unfold pollLoop
  split_ifs <;> simp_all [ConsumerPc.work]

/-- Work is paid for by a record or by a call of the poll. -/
theorem work_of_step {a : Action P} (h : step g s a = some s') :
    4 * s.hist.consumed + s.consumer.work + (if a.isWork then 1 else 0) ≤
      4 * s'.hist.consumed + s'.consumer.work + if a.isPollEnter then 3 else 0 := by
  cases a with
  | output p out => rcases output_cases h with ⟨_, _, rfl⟩ | ⟨_, rfl⟩ <;> exact le_rfl
  | reserve p locked =>
      obtain ⟨_, _, _, _, rfl | ⟨_, _, rfl⟩⟩ := reserve_cases h <;> exact le_rfl
  | copy p =>
      obtain ⟨_, _, _, _, rfl⟩ := copy_cases h
      exact le_rfl
  | exchange p =>
      obtain ⟨_, _, _, _, rfl⟩ := exchange_cases h
      exact le_rfl
  | notify p =>
      obtain ⟨_, _, rfl⟩ := notify_cases h
      exact le_rfl
  | userWrite value =>
      obtain rfl := Option.some.inj h
      exact le_rfl
  | irqWork =>
      obtain ⟨_, pc, rfl, ⟨rfl, _⟩ | ⟨_, hpc, rfl⟩ | ⟨_, hpc, rfl⟩⟩ := irqWork_cases h
      · exact le_rfl
      · simp [hpc, ConsumerPc.work, Action.isWork]
      · simp [hpc, ConsumerPc.work, Action.isWork]
  | callback err =>
      obtain ⟨_, _, _, _, hpc, rfl⟩ := callback_cases h
      simp [hpc, ConsumerPc.work, Action.isWork]
  | storeConsumerPos =>
      obtain ⟨consPos, prodPos, err, hpc, rfl⟩ := storeConsumerPos_cases h
      have hnext : 1 ≤ (if err < 0 then ConsumerPc.idle err else
          pollLoop true consPos prodPos).work := by
        split
        · simp [ConsumerPc.work]
        · exact (pollLoop_work consPos prodPos).1
      have hold : s.consumer.work = 4 := by rw [hpc, ConsumerPc.work]
      simp only [hold, Action.isWork, Action.isPollEnter, if_true, Bool.false_eq_true, if_false]
      omega
  | loadHeader =>
      simp only [Ring.step, loadHeaderStep] at h
      split at h
      · rename_i hpc
        split at h
        · cases h
          simp [hpc, ConsumerPc.work, Action.isWork]
        · split at h <;> cases h <;> simp [hpc, ConsumerPc.work, Action.isWork, Action.isPollEnter]
      · cases h
  | loadProducerPos =>
      simp only [Ring.step, pollStep] at h
      split at h
      · rename_i consPos hpc
        obtain rfl := Option.some.inj h
        have hnext := (pollLoop_work consPos s.rb.producerPos).2
        have hold : s.consumer.work = 1 := by rw [hpc, ConsumerPc.work]
        simp only [hold, Action.isWork, Action.isPollEnter, if_true, Bool.false_eq_true, if_false]
        omega
      · cases h
  | pollTest =>
      simp only [Ring.step, pollStep] at h
      split at h
      · rename_i hpc
        obtain rfl := Option.some.inj h
        have hold : s.consumer.work = 0 := by rw [hpc, ConsumerPc.work]
        simp only [hold, Action.isWork, Action.isPollEnter, Bool.false_eq_true, if_false]
        omega
      · cases h
  | pollEnter | pollWake | pollFail | loadConsumerPos =>
      simp only [Ring.step, pollStep] at h
      split at h <;> cases h <;>
        simp [*, ConsumerPc.work, Action.isWork, Action.isPollEnter]

/-- The work after a run. -/
theorem work_of_run {acts : List (Action P)} (hrun : Run (step g) PollOnly Initial acts s) :
    acts.countP Action.isWork + 3 ≤
      4 * s.hist.consumed + s.consumer.work + 3 * acts.countP Action.isPollEnter := by
  induction hrun with
  | start hinit => simp [hinit.consumer, ConsumerPc.work]
  | @next acts s t a _ _ hstep ih =>
      have hwork := work_of_step hstep
      rw [List.countP_append, List.countP_append, List.countP_singleton, List.countP_singleton]
      split_ifs at hwork ⊢ <;> omega

/-- **No poll works in vain.**  In every run with equal masks and less than `2 ^ 64` bytes, the
polls have taken at most four steps for each record that was reserved, and three for each call. -/
theorem poll_work_le (hmask : g.daemonMask = g.mask) {acts : List (Action P)}
    (hrun : Run (step g) PollOnly Initial acts s) (htotal : s.hist.total < 2 ^ 64) :
    acts.countP Action.isWork ≤
      4 * s.hist.log.length + 3 * acts.countP Action.isPollEnter + 1 := by
  have hdelivery := deliveryInv_of_run hmask (run_notLapped hrun htotal)
  have hwork := work_of_run hrun
  have hconsumed := hdelivery.consumed_le
  have hmax : s.consumer.work ≤ 4 := by cases s.consumer <;> simp [ConsumerPc.work]
  omega

/-- A record is handed over and polled. -/
theorem poll_work_single : ∃ s,
    exec (step pageRing) freshRing (outputActions true (countingOutput 4) ++ pollActions) =
      some s ∧
      (outputActions true (countingOutput 4) ++ pollActions).countP Action.isWork ≤
        4 * s.hist.log.length +
          3 * (outputActions true (countingOutput 4) ++ pollActions).countP Action.isPollEnter +
          1 := by
  have hpoll : ∀ a ∈ outputActions true (countingOutput 4) ++ pollActions,
      ∀ s : State Bool, PollOnly s a := by
    simp [outputActions, pollActions, PollOnly]
  have hend : (exec (step pageRing) freshRing
      (outputActions true (countingOutput 4) ++ pollActions)).map (fun s => s.hist.total) =
        some 16 := by
    decide +kernel
  obtain ⟨s, hexec, htotal⟩ := Option.map_eq_some_iff.mp hend
  exact ⟨s, hexec, poll_work_le rfl (.of_exec freshRing_initial hpoll hexec) (by omega)⟩

end SecDetector.Ring
