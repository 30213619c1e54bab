import SecDetector.Service.Daemon

/-!
# The main thread

The main thread publishes the records that it consumes, each once and in their order, unless
their topic is masked, and stops at the first record without a text (`MainInv`).
-/

namespace SecDetector.Service

open Lib

variable {P H : Type*} [DecidableEq P] [DecidableEq H] {c : Config H} {s s' : Daemon P H}

/-! ## What a record says -/

/-- The topic of a record. -/
def recordType (bytes : List UInt8) : BitVec 32 :=
  BitVec.ofNat 32 (leNat (bytes.take Report.entryHdrSz))

/-- A record has a text, and its topic is not masked. -/
def Wanted (mask : BitVec 32) (record : List UInt8 × ℕ) : Prop :=
  Report.entryHdrSz < record.2 ∧ mask &&& recordType record.1 ≠ 0

instance (mask : BitVec 32) : DecidablePred (Wanted mask) :=
  fun _ => inferInstanceAs (Decidable (_ ∧ _))

/-- What is pushed is the record: its topic, and its text, which ends at the first NUL, be it in
the record or behind it. -/
def Pushes (push : Push) (record : List UInt8 × ℕ) : Prop :=
  push.type = recordType record.1 ∧
    ∃ rest, readString (record.1.drop Report.entryHdrSz ++ rest) = some push.content

/-- The calls of `Publish` of one thread. -/
def pushesOf (t : Thread) (requests : List Request) : List Push :=
  (requests.filter fun request => request.thread = t).map Request.push

/-! ## The ring and its poll -/

/-- The poll has returned an error, or is about to. -/
def Ended : Ring.ConsumerPc → Prop
  | .idle ret => ret ≠ 0
  | .storing _ _ err => err < 0
  | _ => False

/-- What a step of the ring leaves alone that is not the callback. -/
structure Quiet (g : Ring.Geometry) (r r' : Ring.State P) : Prop where
  delivered : r'.hist.delivered = r.hist.delivered
  log : r.hist.log <+: r'.hist.log
  record : ∀ consPos prodPos hdr len, r.consumer = .record consPos prodPos hdr len →
    r'.consumer = r.consumer ∧ r'.hist.consumed = r.hist.consumed
  hdr_le : ∀ consPos prodPos hdr len, r'.consumer = .record consPos prodPos hdr len →
    r.consumer = r'.consumer ∨ hdr ≤ g.daemonMask
  ended : Ended r.consumer → Ended r'.consumer

section Quiet

variable {g : Ring.Geometry} {r r' : Ring.State P} {a : Ring.Action P}

omit [DecidableEq P] in
theorem quiet_of_same (hconsumer : r'.consumer = r.consumer)
    (hdelivered : r'.hist.delivered = r.hist.delivered) (hlog : r.hist.log <+: r'.hist.log)
    (hconsumed : r'.hist.consumed = r.hist.consumed) : Quiet g r r' :=
  ⟨hdelivered, hlog, fun _ _ _ _ _ => ⟨hconsumer, hconsumed⟩, fun _ _ _ _ _ => .inl hconsumer.symm,
    fun h => hconsumer ▸ h⟩

omit [DecidableEq P] in
/-- A step of the consumer outside of the callback and of the end of a poll. -/
theorem quiet_of_move (hdelivered : r'.hist.delivered = r.hist.delivered)
    (hlog : r'.hist.log = r.hist.log)
    (hrecord : ∀ consPos prodPos hdr len, r.consumer ≠ .record consPos prodPos hdr len)
    (hhdr : ∀ consPos prodPos hdr len, r'.consumer = .record consPos prodPos hdr len →
      hdr ≤ g.daemonMask)
    (hended : ¬ Ended r.consumer) : Quiet g r r' :=
  ⟨hdelivered, hlog ▸ List.prefix_refl _, fun _ _ _ _ h => absurd h (hrecord _ _ _ _),
    fun _ _ _ _ h => .inr (hhdr _ _ _ _ h), fun h => absurd h hended⟩

theorem pollLoop_ne_record {gotNewData : Bool} {consPos prodPos consPos' prodPos' hdr len : ℕ} :
    Ring.pollLoop gotNewData consPos prodPos ≠ .record consPos' prodPos' hdr len := by
  unfold Ring.pollLoop
  split_ifs <;> simp

omit [DecidableEq P] in
theorem quiet_of_poll (hstep : Ring.pollStep r a = some r')
    (henter : a = .pollEnter → r.consumer = .idle 0) : Quiet g r r' := by
  cases hpc : r.consumer with
  | idle ret =>
      cases a <;> simp only [Ring.pollStep, hpc, reduceCtorEq, Option.some.injEq] at hstep
      subst hstep
      have hret := henter rfl
      exact quiet_of_move rfl rfl (by simp [hpc]) (by simp) (by simp [hret, Ended])
  | registered woken =>
      cases a <;> simp only [Ring.pollStep, hpc, reduceCtorEq, Option.some.injEq] at hstep
      · subst hstep
        refine quiet_of_move rfl rfl (by simp [hpc]) ?_ (by simp [hpc, Ended])
        intro _ _ _ _ h
        dsimp only at h
        split_ifs at h
      · subst hstep
        exact quiet_of_move rfl rfl (by simp [hpc]) (by simp) (by simp [hpc, Ended])
  | polled =>
      cases a <;> simp only [Ring.pollStep, hpc, reduceCtorEq, Option.some.injEq] at hstep
      subst hstep
      exact quiet_of_move rfl rfl (by simp [hpc]) (by simp) (by simp [hpc, Ended])
  | outer consPos =>
      cases a <;> simp only [Ring.pollStep, hpc, reduceCtorEq, Option.some.injEq] at hstep
      subst hstep
      exact quiet_of_move rfl rfl (by simp [hpc]) (fun _ _ _ _ h => absurd h pollLoop_ne_record)
        (by simp [hpc, Ended])
  | blocked woken =>
      cases a <;> cases woken <;>
        simp only [Ring.pollStep, hpc, reduceCtorEq, Option.some.injEq] at hstep
      all_goals
        subst hstep
        exact quiet_of_move rfl rfl (by simp [hpc]) (by simp) (by simp [hpc, Ended])
  | inner | record | storing => cases a <;> simp [Ring.pollStep, hpc] at hstep

omit [DecidableEq P] in
theorem quiet_of_loadHeader (hstep : Ring.loadHeaderStep g r = some r') : Quiet g r r' := by
  unfold Ring.loadHeaderStep at hstep
  split at hstep
  · rename_i consPos prodPos hpc
    have hquiet : ∀ pc, (∀ consPos' prodPos' hdr len, pc = .record consPos' prodPos' hdr len →
        hdr ≤ g.daemonMask) → Quiet g r { r with consumer := pc } := fun pc hhdr =>
      quiet_of_move rfl rfl (by simp [hpc]) hhdr (by simp [hpc, Ended])
    dsimp only at hstep
    split at hstep
    · exact (Option.some.inj hstep) ▸ hquiet _ (by simp)
    · split at hstep
      · refine (Option.some.inj hstep) ▸ hquiet _ fun _ _ _ _ h => ?_
        obtain ⟨_, _, rfl, _⟩ := Ring.ConsumerPc.record.inj h
        exact Nat.and_le_right
      · exact (Option.some.inj hstep) ▸ hquiet _ (by simp)
  · cases hstep

theorem quiet_of_step (hstep : Ring.step g r a = some r') (hcallback : ∀ err, a ≠ .callback err)
    (henter : a = .pollEnter → r.consumer = .idle 0) : Quiet g r r' := by
  cases a with
  | output p out =>
      rcases Ring.output_cases hstep with ⟨_, _, rfl⟩ | ⟨_, rfl⟩
      · exact quiet_of_same rfl rfl (List.prefix_refl _) rfl
      · exact quiet_of_same rfl rfl (List.prefix_refl _) rfl
  | reserve p locked =>
      obtain ⟨out, consPos, k, _, rfl | ⟨_, _, rfl⟩⟩ := Ring.reserve_cases hstep
      · exact quiet_of_same rfl rfl (List.prefix_refl _) rfl
      · exact quiet_of_same rfl rfl (List.prefix_append _ _) rfl
  | copy p =>
      obtain ⟨_, _, _, _, rfl⟩ := Ring.copy_cases hstep
      exact quiet_of_same rfl rfl (List.prefix_refl _) rfl
  | exchange p =>
      obtain ⟨_, _, _, _, rfl⟩ := Ring.exchange_cases hstep
      exact quiet_of_same rfl rfl (List.prefix_refl _) rfl
  | notify p =>
      obtain ⟨_, _, rfl⟩ := Ring.notify_cases hstep
      exact quiet_of_same rfl rfl (List.prefix_refl _) rfl
  | irqWork =>
      obtain ⟨_, pc, rfl, ⟨hpc, _⟩ | ⟨_, hold, hpc⟩ | ⟨_, hold, hpc⟩⟩ := Ring.irqWork_cases hstep
      · exact quiet_of_same hpc rfl (List.prefix_refl _) rfl
      · exact quiet_of_move rfl rfl (by simp [hold]) (by simp [hpc]) (by simp [hold, Ended])
      · exact quiet_of_move rfl rfl (by simp [hold]) (by simp [hpc]) (by simp [hold, Ended])
  | loadHeader => exact quiet_of_loadHeader hstep
  | callback err => exact absurd rfl (hcallback err)
  | storeConsumerPos =>
      obtain ⟨_, _, err, hold, rfl⟩ := Ring.storeConsumerPos_cases hstep
      refine ⟨rfl, List.prefix_refl _, fun _ _ _ _ h => ?_, fun _ _ _ _ h => ?_, fun h => ?_⟩
      · rw [hold] at h
        cases h
      · dsimp only at h
        split at h
        · cases h
        · exact absurd h pollLoop_ne_record
      · rw [hold] at h
        have herr : err < 0 := h
        dsimp only
        rw [if_pos herr]
        exact ne_of_lt herr
  | userWrite value =>
      obtain rfl := Option.some.inj hstep
      exact quiet_of_same rfl rfl (List.prefix_refl _) rfl
  | pollEnter | pollTest | pollWake | pollFail | loadConsumerPos | loadProducerPos =>
      unfold Ring.step at hstep
      exact quiet_of_poll hstep henter

end Quiet

/-! ## The record under the callback -/

theorem load_append (n : ℕ) (mem : ℕ → UInt8) (p l m : ℕ) :
    Cyclic.load n mem p (l + m) = Cyclic.load n mem p l ++ Cyclic.load n mem (p + l) m := by
  rw [Cyclic.load, List.range_add, List.map_append, List.map_map]
  congr 1
  apply List.map_congr_left
  intro i _
  rw [Function.comp_apply, Nat.add_assoc]

omit [DecidableEq P] in
/-- The consumer is at a record of the log, and the sample is its bytes. -/
theorem record_at {g : Ring.Geometry} {r : Ring.State P} (hinv : Ring.DeliveryInv g r)
    {consPos prodPos hdr len : ℕ} (hpc : r.consumer = .record consPos prodPos hdr len) :
    ∃ res, r.hist.log[r.hist.consumed]? = some res ∧ len = res.out.size ∧
      len + Ring.bpfRingbufHdrSz ≤ g.dataSz ∧
      Cyclic.load g.dataSz r.rb.data (hdr + Ring.bpfRingbufHdrSz) len = res.out.bytes := by
  have hconsumer := hinv.consumer
  rw [hpc] at hconsumer
  obtain ⟨hconsuming, hhdr, res, hres, hdiscard, rfl⟩ := hconsumer
  have hstored := hinv.intact _ res hres le_rfl
  obtain ⟨_, hfits⟩ := hinv.log.fits _ res hres
  have hsize : res.out.size + 8 ≤ Ring.reserveLen res.out.size := Ring.size_add_le_reserveLen
  have hmask := g.mask_add_one
  refine ⟨res, hres, rfl, ?_, ?_⟩
  · simp only [Ring.bpfRingbufHdrSz]
    omega
  · rw [Cyclic.load_congr (Nat.ModEq.add_right Ring.bpfRingbufHdrSz hhdr)]
    apply List.map_congr_left
    intro i hi
    refine hstored.payload ?_ i (List.mem_range.mp hi)
    rw [hconsuming.committed]
    decide

theorem sampleMem_eq {g : Ring.Geometry} (rb : Ring.Ringbuf) {hdr len : ℕ}
    (hhdr : hdr ≤ g.mask) (hlen : len + Ring.bpfRingbufHdrSz ≤ g.dataSz) :
    ∃ rest, sampleMem g rb hdr =
      Cyclic.load g.dataSz rb.data (hdr + Ring.bpfRingbufHdrSz) len ++ rest := by
  have hmask := g.mask_add_one
  obtain ⟨m, hm⟩ : ∃ m, 2 * g.dataSz - (hdr + Ring.bpfRingbufHdrSz) = len + m :=
    ⟨2 * g.dataSz - (hdr + Ring.bpfRingbufHdrSz) - len, by omega⟩
  exact ⟨_, by rw [sampleMem, hm, load_append]⟩

/-- What the callback makes of a record. -/
theorem ringbufCb_cases (bytes rest : List UInt8) :
    (bytes.length ≤ Report.entryHdrSz ∧
      Report.ringbufCb (bytes ++ rest) bytes.length = .error (-Ring.eInval)) ∨
    (Report.entryHdrSz < bytes.length ∧ Report.ringbufCb (bytes ++ rest) bytes.length =
      .ok (recordType bytes, readString (bytes.drop Report.entryHdrSz ++ rest))) := by
  rcases Nat.lt_or_ge Report.entryHdrSz bytes.length with hlt | hle
  · refine .inr ⟨hlt, ?_⟩
    rw [Report.ringbufCb, if_neg (not_le.mpr hlt), List.take_append_of_le_length hlt.le,
      List.drop_append_of_le_length hlt.le, recordType]
  · exact .inl ⟨hle, if_pos hle⟩

/-! ## The main thread -/

/-- What the main thread has pushed are the records that the callback was given. -/
structure MainInv (c : Config H) (s : Daemon P H) : Prop where
  hdr_le : ∀ consPos prodPos hdr len, s.ring.consumer = .record consPos prodPos hdr len →
    hdr ≤ c.g.daemonMask
  pushing : ∀ push, s.pushing .main = some push →
    ∃ consPos prodPos hdr len res, s.ring.consumer = .record consPos prodPos hdr len ∧
      s.ring.hist.log[s.ring.hist.consumed]? = some res ∧
      Wanted c.topicMask (res.out.bytes, res.out.size) ∧ Pushes push (res.out.bytes, res.out.size)
  requests : List.Forall₂ Pushes (pushesOf .main s.requests)
    (s.ring.hist.delivered.filter fun record => Wanted c.topicMask record)
  short : ∀ pre record post, s.ring.hist.delivered = pre ++ record :: post →
    record.2 ≤ Report.entryHdrSz → post = [] ∧ Ended s.ring.consumer

/-! ## Steps of the main thread -/

section MainThread

variable {ring : Ring.State P}

omit [DecidableEq P] [DecidableEq H] in
/-- A step that the main thread sees nothing of but a quiet step of the ring. -/
theorem MainInv.quiet (hinv : MainInv c s) (hquiet : Quiet c.g s.ring s'.ring)
    (hpushing : s'.pushing .main = s.pushing .main)
    (hrequests : pushesOf .main s'.requests = pushesOf .main s.requests) : MainInv c s' where
  hdr_le consPos prodPos hdr len hpc := by
    rcases hquiet.hdr_le _ _ _ _ hpc with hold | hle
    · exact hinv.hdr_le consPos prodPos hdr len (hold.trans hpc)
    · exact hle
  pushing push hpush := by
    rw [hpushing] at hpush
    obtain ⟨consPos, prodPos, hdr, len, res, hpc, hres, hrest⟩ := hinv.pushing push hpush
    obtain ⟨hconsumer, hconsumed⟩ := hquiet.record _ _ _ _ hpc
    refine ⟨consPos, prodPos, hdr, len, res, hconsumer.trans hpc, ?_, hrest⟩
    obtain ⟨more, hmore⟩ := hquiet.log
    rw [hconsumed, ← hmore, List.getElem?_append_left (List.getElem?_eq_some_iff.mp hres).1, hres]
  requests := by
    rw [hrequests, hquiet.delivered]
    exact hinv.requests
  short pre record post hsplit hle := by
    rw [hquiet.delivered] at hsplit
    obtain ⟨hpost, hended⟩ := hinv.short pre record post hsplit hle
    exact ⟨hpost, hquiet.ended hended⟩

omit [DecidableEq P] [DecidableEq H] in
theorem MainInv.of_same (hinv : MainInv c s) (hring : s'.ring = s.ring)
    (hpushing : s'.pushing .main = s.pushing .main)
    (hrequests : pushesOf .main s'.requests = pushesOf .main s.requests) : MainInv c s' := by
  refine hinv.quiet ?_ hpushing hrequests
  rw [hring]
  exact quiet_of_same rfl rfl (List.prefix_refl _) rfl

omit [DecidableEq H] in
/-- The callback returns, and what has been pushed is settled. -/
theorem MainInv.returns {err : ℤ} (hinv : MainInv c s)
    (hdelivery : Ring.DeliveryInv c.g s.ring) {res : Ring.Reservation P}
    (hres : s.ring.hist.log[s.ring.hist.consumed]? = some res)
    (herr : res.out.size ≤ Report.entryHdrSz → err < 0)
    (hrequests : List.Forall₂ Pushes (pushesOf .main s'.requests)
      ((s.ring.hist.delivered ++ [(res.out.bytes, res.out.size)]).filter
        fun record => Wanted c.topicMask record))
    (hring : Ring.step c.g s.ring (.callback err) = some ring) (hs' : s'.ring = ring)
    (hpushing : s'.pushing .main = none) :
    MainInv c s' := by
  obtain ⟨consPos, prodPos, hdr, len, hpc, rfl⟩ := Ring.callback_cases hring
  obtain ⟨res', hres', rfl, _, hload⟩ := record_at hdelivery hpc
  obtain rfl := Option.some.inj (hres.symm.trans hres')
  rw [← hload] at hrequests
  refine ⟨by simp [hs'], fun push hpush => ?_, hs' ▸ hrequests,
    fun pre record post hsplit hle => ?_⟩
  · rw [hpushing] at hpush
    cases hpush
  · rw [hs'] at hsplit ⊢
    -- the records in front of the last one were long enough, or the poll would be over
    rcases List.eq_nil_or_concat post with rfl | ⟨post, last, rfl⟩
    · obtain ⟨_, hlast⟩ := List.append_inj' hsplit rfl
      obtain rfl := (List.singleton_inj.mp hlast).symm
      exact ⟨rfl, herr hle⟩
    · rw [List.concat_eq_append, ← List.cons_append, ← List.append_assoc] at hsplit
      obtain ⟨hsplit, _⟩ := List.append_inj' hsplit rfl
      obtain ⟨_, hended⟩ := hinv.short pre record post hsplit hle
      rw [hpc] at hended
      exact hended.elim

omit [DecidableEq P] [DecidableEq H] in
/-- What the callback makes of the record under it. -/
theorem MainInv.callback (hinv : MainInv c s) (hdelivery : Ring.DeliveryInv c.g s.ring)
    (hmask : c.g.daemonMask = c.g.mask) {consPos prodPos hdr len : ℕ}
    (hpc : s.ring.consumer = .record consPos prodPos hdr len) :
    ∃ res, s.ring.hist.log[s.ring.hist.consumed]? = some res ∧
      ((res.out.size ≤ Report.entryHdrSz ∧
        Report.ringbufCb (sampleMem c.g s.ring.rb hdr) len = .error (-Ring.eInval)) ∨
      ∃ rest, Report.entryHdrSz < res.out.size ∧
        Report.ringbufCb (sampleMem c.g s.ring.rb hdr) len = .ok (recordType res.out.bytes,
          readString (res.out.bytes.drop Report.entryHdrSz ++ rest))) := by
  obtain ⟨res, hres, rfl, hfits, hload⟩ := record_at hdelivery hpc
  have hhdr := hinv.hdr_le _ _ _ _ hpc
  rw [hmask] at hhdr
  obtain ⟨rest, hmem⟩ := sampleMem_eq s.ring.rb hhdr hfits
  have hlen : res.out.bytes.length = res.out.size := by simp [Ring.Output.bytes]
  have hcases := ringbufCb_cases res.out.bytes rest
  rw [hlen] at hcases
  rw [hmem, hload]
  refine ⟨res, hres, hcases.imp_right fun h => ⟨rest, h⟩⟩

theorem MainInv.step {a : Action P H} (hinv : MainInv c s)
    (hdelivery : Ring.DeliveryInv c.g s.ring) (hmask : c.g.daemonMask = c.g.mask)
    (hstep : step c s a = some s') : MainInv c s' := by
  cases effect_of_step hstep with
  | ring hring hcallback henter =>
      exact hinv.quiet (quiet_of_step hring hcallback henter) rfl rfl
  | @returned consPos prodPos hdr len err ring hpc hpushing hcb hring =>
      obtain ⟨res, hres, hcases⟩ := hinv.callback hdelivery hmask hpc
      have hunwanted : ¬ Wanted c.topicMask (res.out.bytes, res.out.size) := by
        rintro ⟨hlt, hunmasked⟩
        rcases hcases with ⟨hle, _⟩ | ⟨rest, _, hok⟩
        · exact not_lt_of_ge hle hlt
        · rw [hok] at hcb
          rcases hcb with hcb | ⟨_, type, content, hmasked, hcb⟩
          · cases hcb
          · obtain ⟨rfl, _⟩ := Prod.mk.inj (Except.ok.inj hcb)
            exact hunmasked hmasked
      refine hinv.returns hdelivery hres ?_ ?_ hring rfl hpushing
      · intro hle
        rcases hcases with ⟨_, herror⟩ | ⟨_, hlt, _⟩
        · rw [herror] at hcb
          rcases hcb with hcb | ⟨_, _, _, _, hcb⟩
          · rw [← Except.error.inj hcb]
            decide
          · cases hcb
        · omega
      · rw [List.filter_append, List.filter_singleton, decide_eq_false hunwanted]
        simpa using hinv.requests
  | @pushed consPos prodPos hdr len push hpc hpushing hcb hunmasked =>
      obtain ⟨res, hres, ⟨_, herror⟩ | ⟨rest, hlt, hok⟩⟩ := hinv.callback hdelivery hmask hpc
      · rw [herror] at hcb
        cases hcb
      · rw [hok] at hcb
        obtain ⟨htype, hread⟩ := Prod.mk.inj (Except.ok.inj hcb)
        refine ⟨hinv.hdr_le, fun push' hpush => ?_, hinv.requests, hinv.short⟩
        dsimp only at hpush
        rw [Function.update_self, Option.some.injEq] at hpush
        subst hpush
        exact ⟨consPos, prodPos, hdr, len, res, hpc, hres, ⟨hlt, htype ▸ hunmasked⟩, htype.symm,
          rest, hread⟩
  | ebpfPushed env e ht =>
      exact hinv.of_same rfl (Function.update_of_ne ht.symm ..) rfl
  | @publishedMain served entries sent push server ring hpush hserver hring =>
      obtain ⟨_, _, _, _, res, _, hres, hwanted, hpushes⟩ := hinv.pushing push hpush
      have hlast : pushesOf .main (published s .main push served server).requests =
          pushesOf .main s.requests ++ [push] := by
        simp [published, pushesOf]
      have hidle : (published s .main push served server).pushing .main = none := by
        simp [published]
      refine hinv.returns hdelivery hres (fun h => absurd h (not_le.mpr hwanted.1)) ?_ hring rfl
        hidle
      dsimp only
      rw [hlast, List.filter_append, List.filter_singleton, decide_eq_true hwanted]
      exact List.rel_append hinv.requests (.cons hpushes .nil)
  | publishedEbpf ht =>
      refine hinv.of_same rfl (Function.update_of_ne (Ne.symm ht) ..) ?_
      simp [published, pushesOf, ht]
  | ebpfSkipped | server | clientInit | signal | stopServer => exact hinv.of_same rfl rfl rfl

end MainThread

end SecDetector.Service
