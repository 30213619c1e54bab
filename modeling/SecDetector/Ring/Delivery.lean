import SecDetector.Lib.Run
import SecDetector.Ring.Kernel

/-!
# Delivery of records

The consumer meets the records in the order of their reservation.  `DeliveryInv` is
the invariant: the records from the first one not consumed up to `producer_pos` tile
the ring, `consumer_pos` is the start of the first of them, and what the callback
was given are exactly the committed records in front of it.

It is proved for runs in which `consumer_pos` is only moved by the poll loop, in
which no granted reservation works with a `consumer_pos` from `2 ^ 64` bytes ago,
and in which the daemon's mask picks the right byte.  `ring_delivers_in_order` is
the case of equal masks and of less than `2 ^ 64` bytes in total.
-/

namespace SecDetector.Ring

open Lib

variable {P : Type*} [DecidableEq P] {g : Geometry} {s s' : State P} {p : P} {out : Output}
  {hdr i k : ℕ}

/-! ## Runs -/

omit [DecidableEq P] in
/-- `consumer_pos` is only moved by the poll loop. -/
def PollOnly (_ : State P) : Action P → Prop
  | .userWrite _ => False
  | _ => True

/-- When `p` is granted a reservation, less than `2 ^ 64` bytes have been reserved
from the position it read in `consumer_pos` on. -/
def NotLapped (g : Geometry) (s : State P) : Action P → Prop
  | .reserve p true => ∀ out consPos k, s.producer p = .loaded out consPos k →
      hasSpace g s.rb consPos out.size →
      s.hist.total + reserveLen out.size < s.hist.start k + 2 ^ 64
  | _ => True

/-- The daemon loads the header from the ring byte that its position denotes. -/
def OffsetAgrees (g : Geometry) (s : State P) : Action P → Prop
  | .loadHeader => ∀ consPos prodPos, s.consumer = .inner consPos prodPos →
      (consPos &&& g.daemonMask) % g.dataSz = consPos % g.dataSz
  | _ => True

/-- The guard of the delivery invariant. -/
def Regular (g : Geometry) (s : State P) (a : Action P) : Prop :=
  PollOnly s a ∧ NotLapped g s a ∧ OffsetAgrees g s a

/-! ## The invariant -/

/-- The consumer works on the first record that it has not released. -/
structure Consuming (h : History P) (consPos prodPos : ℕ) : Prop where
  committed : h.phase h.consumed = .committed
  consPos : consPos = h.start (h.consumed + 1) % 2 ^ 64
  prodPos : ∃ m ≤ h.log.length, h.consumed + 1 ≤ m ∧ prodPos = h.start m % 2 ^ 64

/-- What is known of the consumer. -/
def ConsumerOk (g : Geometry) (h : History P) : ConsumerPc → Prop
  | .idle _ | .registered _ | .blocked _ | .polled => True
  | .outer consPos => consPos = h.start h.consumed % 2 ^ 64
  | .inner consPos prodPos => consPos < prodPos ∧ consPos = h.start h.consumed % 2 ^ 64 ∧
      ∃ m ≤ h.log.length, h.consumed ≤ m ∧ prodPos = h.start m % 2 ^ 64
  | .record consPos prodPos hdr len => Consuming h consPos prodPos ∧
      hdr % g.dataSz = h.start h.consumed % g.dataSz ∧
      ∃ r, h.log[h.consumed]? = some r ∧ r.out.discard = false ∧ len = r.out.size
  | .storing consPos prodPos err => Consuming h consPos prodPos ∧
      (err < 0 → ∃ r, h.log[h.consumed]? = some r ∧ r.out.discard = false)

/-- How many records the callback is through with, when `k` are consumed. -/
def ConsumerPc.handled (k : ℕ) : ConsumerPc → ℕ
  | .storing _ _ _ => k + 1
  | _ => k

def State.handled (s : State P) : ℕ :=
  s.consumer.handled s.hist.consumed

/-- What a producer remembers of `consumer_pos`, and of the address of the ring. -/
def Remembers (g : Geometry) (h : History P) : ProducerPc → Prop
  | .loaded _ consPos k => k ≤ h.consumed ∧ consPos = h.start k % 2 ^ 64
  | .exchanged _ _ rb _ => rb = g.base
  | .idle _ | .reserved _ _ _ | .copied _ _ _ => True

/-- The ring delivers its records in order. -/
structure DeliveryInv (g : Geometry) (s : State P) : Prop where
  log : LogInv g s
  intact : Intact g s (s.hist.consumed ≤ ·)
  consumed_le : s.hist.consumed ≤ s.hist.log.length
  consumerPos : s.rb.consumerPos = s.hist.start s.hist.consumed % 2 ^ 64
  window : s.hist.total ≤ s.hist.start s.hist.consumed + g.mask
  committed : ∀ i < s.hist.consumed, s.hist.phase i = .committed
  remembers : ∀ p, Remembers g s.hist (s.producer p)
  consumer : ConsumerOk g s.hist s.consumer
  delivered : s.hist.delivered = s.hist.deliverable s.handled

omit [DecidableEq P] in
theorem Initial.deliveryInv (hinit : Initial s) : DeliveryInv g s where
  log := hinit.logInv
  intact i r hr := by simp [hinit.log] at hr
  consumed_le := by simp [hinit.consumed]
  consumerPos := by simp [hinit.consumerPos, hinit.consumed, History.start]
  window := by simp [History.total, History.start, hinit.log]
  committed i hi := by simp [hinit.consumed] at hi
  remembers p := by
    rw [hinit.producer p]
    trivial
  consumer := by
    rw [hinit.consumer]
    trivial
  delivered := by simp [hinit.delivered, History.deliverable, hinit.log]

omit [DecidableEq P] in
theorem DeliveryInv.within (hinv : DeliveryInv g s) : Within g s (s.hist.consumed ≤ ·) := by
  intro i _ hlive
  have hmono : s.hist.start s.hist.consumed ≤ s.hist.start i := History.start_mono hlive
  have hwindow := hinv.window
  have hmask := g.mask_add_one
  omega

omit [DecidableEq P] in
/-- A reservation that is not committed is not consumed. -/
theorem DeliveryInv.live (hinv : DeliveryInv g s) (hphase : s.hist.phase i ≠ .committed) :
    s.hist.consumed ≤ i := by
  by_contra hlt
  exact hphase (hinv.committed i (by omega))

/-! ## Histories that grow -/

omit [DecidableEq P]

/-- The log grows, commits stay, and nothing is released. -/
structure History.Grows (h h' : History P) : Prop where
  log : h.log <+: h'.log
  committed : ∀ i < h.log.length, h.phase i = .committed → h'.phase i = .committed
  consumed : h'.consumed = h.consumed

namespace History.Grows

variable {h h' : History P} {r : Reservation P}

theorem length_le (hgrow : h.Grows h') : h.log.length ≤ h'.log.length :=
  hgrow.log.length_le

theorem get (hgrow : h.Grows h') (hi : h.log[i]? = some r) : h'.log[i]? = some r := by
  obtain ⟨rest, hrest⟩ := hgrow.log
  rw [← hrest, List.getElem?_append_left (List.getElem?_eq_some_iff.mp hi).1, hi]

theorem start (hgrow : h.Grows h') (hi : i ≤ h.log.length) : h'.start i = h.start i := by
  obtain ⟨rest, hrest⟩ := hgrow.log
  rw [History.start, History.start, Tiling.start, Tiling.start, ← hrest, List.map_append,
    List.take_append_of_le_length (by rwa [List.length_map])]

theorem prodPos (hgrow : h.Grows h') {prodPos : ℕ}
    (hm : ∃ m ≤ h.log.length, k ≤ m ∧ prodPos = h.start m % 2 ^ 64) :
    ∃ m ≤ h'.log.length, k ≤ m ∧ prodPos = h'.start m % 2 ^ 64 := by
  obtain ⟨m, hle, hk, hprod⟩ := hm
  exact ⟨m, Nat.le_trans hle hgrow.length_le, hk, by rw [hgrow.start hle, hprod]⟩

theorem consuming (hgrow : h.Grows h') {consPos prodPos : ℕ}
    (hc : Consuming h consPos prodPos) : Consuming h' consPos prodPos := by
  obtain ⟨m, hle, hk, _⟩ := hc.prodPos
  constructor
  · rw [hgrow.consumed]
    exact hgrow.committed _ (by omega) hc.committed
  · rw [hgrow.consumed, hgrow.start (by omega)]
    exact hc.consPos
  · rw [hgrow.consumed]
    exact hgrow.prodPos hc.prodPos

theorem consumerOk (hgrow : h.Grows h') (hle : h.consumed ≤ h.log.length) {pc : ConsumerPc}
    (hok : ConsumerOk g h pc) : ConsumerOk g h' pc := by
  cases pc with
  | idle | registered | blocked | polled => trivial
  | outer consPos =>
      rw [ConsumerOk, hgrow.consumed, hgrow.start hle]
      exact hok
  | inner consPos prodPos =>
      rw [ConsumerOk, hgrow.consumed, hgrow.start hle]
      exact ⟨hok.1, hok.2.1, hgrow.prodPos hok.2.2⟩
  | record consPos prodPos hdr len =>
      obtain ⟨hc, hhdr, r, hr, hlen⟩ := hok
      refine ⟨hgrow.consuming hc, ?_, r, ?_, hlen⟩
      · rw [hgrow.consumed, hgrow.start hle, hhdr]
      · rw [hgrow.consumed, hgrow.get hr]
  | storing consPos prodPos err =>
      obtain ⟨hc, herr⟩ := hok
      refine ⟨hgrow.consuming hc, fun hneg => ?_⟩
      obtain ⟨r, hr, hdiscard⟩ := herr hneg
      exact ⟨r, by rw [hgrow.consumed, hgrow.get hr], hdiscard⟩

theorem remembers (hgrow : h.Grows h') (hle : h.consumed ≤ h.log.length) {pc : ProducerPc}
    (hpc : Remembers g h pc) : Remembers g h' pc := by
  cases pc with
  | loaded out consPos k =>
      obtain ⟨hk, hcons⟩ := hpc
      rw [Remembers, hgrow.consumed, hgrow.start (Nat.le_trans hk hle)]
      exact ⟨hk, hcons⟩
  | exchanged out hdr rb i => exact hpc
  | idle | reserved | copied => trivial

/-- Growth does not change what committed records in front deliver. -/
theorem deliverable (hgrow : h.Grows h') (hk : k ≤ h.log.length)
    (hcommitted : ∀ i < k, h.phase i = .committed) : h'.deliverable k = h.deliverable k := by
  obtain ⟨rest, hrest⟩ := hgrow.log
  rw [History.deliverable, History.deliverable, ← hrest, List.zipIdx_append,
    List.take_append_of_le_length (by rwa [List.length_zipIdx])]
  apply List.filterMap_congr
  intro entry hentry
  obtain ⟨j, hj, hget⟩ := List.mem_take_iff_getElem.mp hentry
  rw [List.getElem_zipIdx] at hget
  have hj' : j < k := by omega
  subst hget
  simp only [History.committed?, Nat.zero_add]
  rw [hcommitted j hj', hgrow.committed j (by omega) (hcommitted j hj')]

end History.Grows

theorem deliverable_succ {h : History P} {r : Reservation P} (hk : h.log[k]? = some r) :
    h.deliverable (k + 1) = h.deliverable k ++ (h.committed? (r, k)).toList := by
  have hget : h.log.zipIdx[k]? = some (r, k) := by simp [List.getElem?_zipIdx, hk]
  rw [History.deliverable, History.deliverable, List.take_add_one, hget, List.filterMap_append]
  cases hc : h.committed? (r, k) <;> simp [hc]

theorem ConsumerOk.handled_le {h : History P} {pc : ConsumerPc} (hok : ConsumerOk g h pc)
    (hle : h.consumed ≤ h.log.length) (hcommitted : ∀ i < h.consumed, h.phase i = .committed) :
    pc.handled h.consumed ≤ h.log.length ∧
      ∀ i < pc.handled h.consumed, h.phase i = .committed := by
  cases pc with
  | storing consPos prodPos err =>
      obtain ⟨m, hm, hk, _⟩ := hok.1.prodPos
      refine ⟨Nat.le_trans hk hm, fun i hi => ?_⟩
      rcases Nat.lt_succ_iff_lt_or_eq.mp hi with hlt | rfl
      · exact hcommitted i hlt
      · exact hok.1.committed
  | _ => exact ⟨hle, hcommitted⟩

/-! ## Steps -/

/-- A step that releases no record. -/
theorem DeliveryInv.of_grows (hinv : DeliveryInv g s) (hgrow : s.hist.Grows s'.hist)
    (hpos : s'.rb.consumerPos = s.rb.consumerPos) (hlog : LogInv g s')
    (hintact : Intact g s' (s.hist.consumed ≤ ·))
    (hwindow : s'.hist.total ≤ s.hist.start s.hist.consumed + g.mask)
    (hremembers : ∀ p, Remembers g s.hist (s'.producer p))
    (hok : ConsumerOk g s.hist s'.consumer)
    (hdelivered : s'.hist.delivered = s.hist.deliverable (s'.consumer.handled s.hist.consumed)) :
    DeliveryInv g s' where
  log := hlog
  intact := by
    rw [hgrow.consumed]
    exact hintact
  consumed_le := by
    rw [hgrow.consumed]
    exact Nat.le_trans hinv.consumed_le hgrow.length_le
  consumerPos := by rw [hpos, hinv.consumerPos, hgrow.consumed, hgrow.start hinv.consumed_le]
  window := by rwa [hgrow.consumed, hgrow.start hinv.consumed_le]
  committed i hi := by
    rw [hgrow.consumed] at hi
    exact hgrow.committed i (Nat.lt_of_lt_of_le hi hinv.consumed_le) (hinv.committed i hi)
  remembers p := hgrow.remembers hinv.consumed_le (hremembers p)
  consumer := hgrow.consumerOk hinv.consumed_le hok
  delivered := by
    obtain ⟨hle, hcommitted⟩ := hok.handled_le hinv.consumed_le hinv.committed
    rw [State.handled, hgrow.consumed, hgrow.deliverable hle hcommitted, hdelivered]

/-- A step that moves neither a producer nor `consumer_pos`. -/
theorem DeliveryInv.of_frame (hinv : DeliveryInv g s) (hframe : KernelFrame s s')
    (hconsumed : s'.hist.consumed = s.hist.consumed)
    (hpos : s'.rb.consumerPos = s.rb.consumerPos) (hok : ConsumerOk g s.hist s'.consumer)
    (hdelivered : s'.hist.delivered = s.hist.deliverable (s'.consumer.handled s.hist.consumed)) :
    DeliveryInv g s' := by
  have hgrow : s.hist.Grows s'.hist :=
    ⟨⟨[], by rw [hframe.log, List.append_nil]⟩, fun i _ hi => by rw [hframe.phase, hi], hconsumed⟩
  refine hinv.of_grows hgrow hpos (hframe.logInv hinv.log) ?_ ?_ ?_ hok hdelivered
  · intro i r hr hlive
    rw [hframe.log] at hr
    rw [hframe.data, hframe.phase, hframe.start]
    exact hinv.intact i r hr hlive
  · rw [hframe.total]
    exact hinv.window
  · rw [hframe.producer]
    exact hinv.remembers

section Steps

variable [DecidableEq P]

theorem DeliveryInv.remembers_update (hinv : DeliveryInv g s) {pc : ProducerPc}
    (hpc : Remembers g s.hist pc) (q : P) :
    Remembers g s.hist (Function.update s.producer p pc q) := by
  by_cases hq : q = p
  · rw [hq, Function.update_self]
    exact hpc
  · rw [Function.update_of_ne hq]
    exact hinv.remembers q

/-- A producer that moves outside of a reservation. -/
theorem DeliveryInv.setProducer (hinv : DeliveryInv g s) {pc : ProducerPc}
    (hok : ProducerOk g s.hist p pc) (hpc : Remembers g s.hist pc) :
    DeliveryInv g (s.setProducer p pc) := by
  have hgrow : s.hist.Grows (s.setProducer p pc).hist :=
    ⟨⟨[], List.append_nil _⟩, fun _ _ hi => hi, rfl⟩
  exact hinv.of_grows hgrow rfl (hinv.log.setProducer hok) hinv.intact hinv.window
    (hinv.remembers_update hpc) hinv.consumer hinv.delivered

omit [DecidableEq P] in
/-- The space check, in positions without bound. -/
theorem DeliveryInv.space (hinv : DeliveryInv g s) {consPos : ℕ}
    (hpc : s.producer p = .loaded out consPos k) (hspace : hasSpace g s.rb consPos out.size)
    (hlap : s.hist.total + reserveLen out.size < s.hist.start k + 2 ^ 64) :
    s.hist.total + reserveLen out.size ≤ s.hist.start s.hist.consumed + g.mask := by
  have hseen := hinv.remembers p
  rw [hpc] at hseen
  obtain ⟨hk, rfl⟩ := hseen
  have hstart : s.hist.start k ≤ s.hist.start s.hist.consumed := History.start_mono hk
  have htotal : s.hist.start s.hist.consumed ≤ s.hist.total :=
    History.start_le_total hinv.consumed_le
  rw [hasSpace, hinv.log.producerPos] at hspace
  omega

theorem DeliveryInv.reserve (hinv : DeliveryInv g s) {consPos : ℕ}
    (hpc : s.producer p = .loaded out consPos k) (hspace : hasSpace g s.rb consPos out.size)
    (hlap : s.hist.total + reserveLen out.size < s.hist.start k + 2 ^ 64) :
    DeliveryInv g (s.reserve g p out) := by
  have hroom := hinv.space hpc hspace hlap
  have hfits : reserveFits g out.size := hinv.log.of_loaded hpc
  have hgrow : s.hist.Grows (s.reserve g p out).hist := by
    refine ⟨⟨_, rfl⟩, fun i hi hc => ?_, rfl⟩
    calc (s.reserve g p out).hist.phase i
        = s.hist.phase i := Function.update_of_ne (Nat.ne_of_lt hi) _ _
      _ = .committed := hc
  have hturn : ∀ i < s.hist.log.length, s.hist.consumed ≤ i →
      s.hist.total + reserveLen out.size ≤ s.hist.start i + g.dataSz := by
    intro i _ hlive
    have hmono : s.hist.start s.hist.consumed ≤ s.hist.start i := History.start_mono hlive
    have hmask := g.mask_add_one
    omega
  exact hinv.of_grows hgrow rfl (hinv.log.reserve hfits)
    (hinv.intact.reserve hinv.log hfits hturn) (by rwa [reserve_total])
    (hinv.remembers_update trivial) hinv.consumer hinv.delivered

omit [DecidableEq P] in
/-- Setting the phase of a reservation that is not committed. -/
theorem grows_setPhase {phase : Phase} (hphase : s.hist.phase i ≠ .committed) :
    s.hist.Grows { s.hist with phase := Function.update s.hist.phase i phase } := by
  refine ⟨⟨[], List.append_nil _⟩, fun j _ hj => ?_, rfl⟩
  have hji : j ≠ i := by
    intro heq
    exact hphase (heq ▸ hj)
  calc Function.update s.hist.phase i phase j
      = s.hist.phase j := Function.update_of_ne hji _ _
    _ = .committed := hj

theorem DeliveryInv.copy (hinv : DeliveryInv g s) (hpc : s.producer p = .reserved out hdr i) :
    DeliveryInv g (s.copy g p out hdr i) := by
  have hstep : step g s (.copy p) = some (s.copy g p out hdr i) := by
    simp only [step, copyStep, hpc]
  have hphase : s.hist.phase i ≠ .committed := by
    rw [(hinv.log.of_reserved hpc).2.2]
    decide
  exact hinv.of_grows (grows_setPhase hphase) rfl (hinv.log.step hstep)
    (hinv.intact.copy hinv.within hinv.log hpc (hinv.live hphase)) hinv.window
    (hinv.remembers_update trivial) hinv.consumer hinv.delivered

theorem DeliveryInv.exchange (hinv : DeliveryInv g s)
    (hpc : s.producer p = .copied out hdr i) : DeliveryInv g (s.exchange g p out hdr i) := by
  have hstep : step g s (.exchange p) = some (s.exchange g p out hdr i) := by
    simp only [step, exchangeStep, hpc]
  obtain ⟨hi, hhdr, hcopied⟩ := hinv.log.of_copied hpc
  have hphase : s.hist.phase i ≠ .committed := by
    rw [hcopied]
    decide
  have hlive := hinv.live hphase
  have hbase : restoredRb g s.rb hdr = g.base := by
    rw [hhdr]
    exact restoredRb_eq (hinv.intact i _ hi hlive)
  exact hinv.of_grows (grows_setPhase hphase) rfl (hinv.log.step hstep)
    (hinv.intact.exchange hinv.within hinv.log hpc hlive) hinv.window
    (hinv.remembers_update hbase) hinv.consumer hinv.delivered

omit [DecidableEq P] in
/-- The load of a header: the record is busy, discarded, or goes to the callback. -/
theorem DeliveryInv.loadHeader (hinv : DeliveryInv g s) (hok : OffsetAgrees g s .loadHeader)
    (h : loadHeaderStep g s = some s') : DeliveryInv g s' := by
  unfold loadHeaderStep at h
  split at h
  swap
  · simp at h
  rename_i consPos prodPos hpc
  have hoffset := hok consPos prodPos hpc
  have hconsumer := hinv.consumer
  have hdelivered := hinv.delivered
  rw [State.handled, hpc] at hdelivered
  rw [hpc] at hconsumer
  obtain ⟨hlt, hcons, m, hm, hle, hprod⟩ := hconsumer
  -- there is a record at `consPos`
  have hkm : s.hist.consumed ≠ m := by
    intro heq
    rw [← heq] at hprod
    omega
  obtain ⟨r, hr⟩ : ∃ r, s.hist.log[s.hist.consumed]? = some r :=
    ⟨_, List.getElem?_eq_getElem (by omega)⟩
  have hstored := hinv.intact _ r hr le_rfl
  have hfits := hinv.log.fits _ r hr
  have hhdr : (consPos &&& g.daemonMask) % g.dataSz = s.hist.start s.hist.consumed % g.dataSz := by
    rw [hoffset, hcons, g.mod_dataSz]
  have hword : Cyclic.loadWord g.dataSz s.rb.data (consPos &&& g.daemonMask) =
      headerWord r.out (s.hist.phase s.hist.consumed) := by
    rw [Cyclic.loadWord_congr hhdr, hstored.len]
  dsimp only at h
  rw [hword] at h
  by_cases hphase : s.hist.phase s.hist.consumed = .committed
  · rw [hphase, headerWord, commitWord_and_busy hfits.1, roundupLen_commitWord hfits.1,
      if_neg (by simp)] at h
    have htest := commitWord_and_discard hfits.1 r.out.discard
    have hconsuming : Consuming s.hist ((consPos + reserveLen r.out.size) % 2 ^ 64) prodPos := by
      refine ⟨hphase, ?_, m, hm, by omega, hprod⟩
      rw [History.start_succ hr, hcons, Nat.mod_add_mod]
      rfl
    cases hdiscard : r.out.discard with
    | false =>
        rw [if_pos (htest.mpr hdiscard), commitWord_busyWord hfits.1, hdiscard] at h
        obtain rfl := Option.some.inj h
        exact hinv.of_frame ⟨rfl, rfl, rfl, rfl, rfl⟩ rfl rfl
          ⟨hconsuming, hhdr, r, hr, hdiscard, rfl⟩ hdelivered
    | true =>
        rw [if_neg fun hzero => by simp [htest.mp hzero] at hdiscard] at h
        obtain rfl := Option.some.inj h
        refine hinv.of_frame ⟨rfl, rfl, rfl, rfl, rfl⟩ rfl rfl
          ⟨hconsuming, fun herr => absurd herr (by decide)⟩ ?_
        dsimp only [ConsumerPc.handled] at hdelivered ⊢
        rw [deliverable_succ hr, hdelivered]
        simp [History.committed?, hdiscard]
  · have hbusy : headerWord r.out (s.hist.phase s.hist.consumed) = busyWord r.out.size := by
      cases hp : s.hist.phase s.hist.consumed with
      | committed => exact absurd hp hphase
      | reserved | copied => rfl
    rw [hbusy, if_pos busyWord_and_busy] at h
    obtain rfl := Option.some.inj h
    exact hinv.of_frame ⟨rfl, rfl, rfl, rfl, rfl⟩ rfl rfl trivial hdelivered

omit [DecidableEq P] in
/-- The callback is given the bytes of the record. -/
theorem DeliveryInv.callback (hinv : DeliveryInv g s) {err : ℤ}
    (h : callbackStep g s err = some s') : DeliveryInv g s' := by
  obtain ⟨consPos, prodPos, hdr, len, hpc, rfl⟩ := callback_cases h
  have hconsumer := hinv.consumer
  have hdelivered := hinv.delivered
  rw [State.handled, hpc] at hdelivered
  rw [hpc] at hconsumer
  obtain ⟨hconsuming, hhdr, r, hr, hdiscard, rfl⟩ := hconsumer
  have hstored := hinv.intact _ r hr le_rfl
  have hbytes : Cyclic.load g.dataSz s.rb.data (hdr + bpfRingbufHdrSz) r.out.size =
      r.out.bytes := by
    rw [Cyclic.load_congr (Nat.ModEq.add_right bpfRingbufHdrSz hhdr)]
    apply List.map_congr_left
    intro i hi
    refine hstored.payload ?_ i (List.mem_range.mp hi)
    rw [hconsuming.committed]
    decide
  refine hinv.of_frame ⟨rfl, rfl, rfl, rfl, rfl⟩ rfl rfl
    ⟨hconsuming, fun _ => ⟨r, hr, hdiscard⟩⟩ ?_
  dsimp only [ConsumerPc.handled] at hdelivered ⊢
  rw [deliverable_succ hr, hdelivered, hbytes]
  simp [History.committed?, hconsuming.committed, hdiscard]

omit [DecidableEq P] in
/-- The store of `consumer_pos` releases one record. -/
theorem DeliveryInv.storeConsumerPos (hinv : DeliveryInv g s)
    (h : storeConsumerPosStep s = some s') : DeliveryInv g s' := by
  obtain ⟨consPos, prodPos, err, hpc, rfl⟩ := storeConsumerPos_cases h
  have hconsumer := hinv.consumer
  have hdelivered := hinv.delivered
  rw [State.handled, hpc] at hdelivered
  rw [hpc] at hconsumer
  obtain ⟨⟨hcommitted, hcons, m, hm, hk, hprod⟩, _⟩ := hconsumer
  have hmono : s.hist.start s.hist.consumed ≤ s.hist.start (s.hist.consumed + 1) :=
    History.start_mono (by omega)
  constructor
  · exact ⟨hinv.log.producerPos, hinv.log.fits, hinv.log.producers⟩
  · intro i r hr hlive
    exact hinv.intact i r hr (Nat.le_of_succ_le hlive)
  · exact Nat.le_trans hk hm
  · exact hcons
  · calc s.hist.total
        ≤ s.hist.start s.hist.consumed + g.mask := hinv.window
      _ ≤ s.hist.start (s.hist.consumed + 1) + g.mask := Nat.add_le_add_right hmono g.mask
  -- the record that is released is the one whose header the consumer found committed
  · intro i hi
    rcases Nat.lt_succ_iff_lt_or_eq.mp hi with hlt | rfl
    · exact hinv.committed i hlt
    · exact hcommitted
  · intro p
    have hp := hinv.remembers p
    dsimp only
    cases hpc' : s.producer p with
    | loaded out consPos' k =>
        rw [hpc'] at hp
        exact ⟨Nat.le_succ_of_le hp.1, hp.2⟩
    | exchanged out hdr rb i =>
        rw [hpc'] at hp
        exact hp
    | idle | reserved | copied => trivial
  -- a callback error ends the poll, else the inner loop tests the old `prod_pos` again
  · dsimp only
    split
    · trivial
    · unfold pollLoop
      split
      · exact ⟨‹_›, hcons, m, hm, hk, hprod⟩
      · exact hcons
  · have hhandled : (if err < 0 then ConsumerPc.idle err else pollLoop true consPos prodPos).handled
        (s.hist.consumed + 1) = s.hist.consumed + 1 := by
      unfold pollLoop
      split_ifs <;> rfl
    rw [State.handled, hhandled]
    exact hdelivered

end Steps

end SecDetector.Ring
