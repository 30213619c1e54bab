import Mathlib.Data.Int.Notation
import Mathlib.Logic.Function.Basic
import SecDetector.Lib.Tiling
import SecDetector.Ring.Layout

/-!
# Producers and the consumer of the ring buffer

`secDetector_ringbuffer.c` on the kernel side and `secDetector_ringbuf_poll` on the
daemon's side, as one transition system.  Memory is sequentially consistent, and
a step is what one thread does between two accesses to shared memory:

* a producer reads `consumer_pos`, reserves under the lock, copies its payload,
  exchanges the header word, and decides about the wake-up;
* the consumer sleeps in `poll`, loads the positions, loads a header, runs the
  callback, and stores `consumer_pos`;
* user space may also store anything in `consumer_pos` (`userWrite`), and the
  kernel runs the queued `irq_work`.

Outcomes that the environment chooses are part of the action.  `History` is what
the statements talk about: no branch depends on it.
-/

namespace SecDetector.Ring

open Lib

variable {P : Type*} [DecidableEq P]

/-! ## The ring -/

/-- The fields of `struct ringbuf` that change while it is in use. -/
structure Ringbuf where
  consumerPos : ℕ
  producerPos : ℕ
  data : ℕ → UInt8

/-- The arguments of one `ringbuf_output`, and of its `ringbuf_commit`. -/
structure Output where
  data : ℕ → UInt8
  size : ℕ
  flags : ℕ
  discard : Bool

/-- The bytes that the call hands over. -/
def Output.bytes (out : Output) : List UInt8 :=
  (List.range out.size).map out.data

/-- `ringbuf_avail_data_sz`. -/
def ringbufAvailDataSz (rb : Ringbuf) : ℕ :=
  (rb.producerPos + 2 ^ 64 - rb.consumerPos) % 2 ^ 64

/-- The checks of `__ringbuf_reserve` that need no shared memory. -/
def reserveFits (g : Geometry) (size : ℕ) : Prop :=
  size ≤ ringbufMaxRecordSz ∧ reserveLen size ≤ g.mask + 1

instance (g : Geometry) (size : ℕ) : Decidable (reserveFits g size) :=
  inferInstanceAs (Decidable (_ ∧ _))

/-- The space check of `__ringbuf_reserve`. -/
def hasSpace (g : Geometry) (rb : Ringbuf) (consPos size : ℕ) : Prop :=
  ((rb.producerPos + reserveLen size) % 2 ^ 64 + 2 ^ 64 - consPos) % 2 ^ 64 ≤ g.mask

instance (g : Geometry) (rb : Ringbuf) (consPos size : ℕ) :
    Decidable (hasSpace g rb consPos size) :=
  inferInstanceAs (Decidable (_ ≤ _))

/-- The offset of the next record header in the data area. -/
def nextHdr (g : Geometry) (rb : Ringbuf) : ℕ :=
  rb.producerPos &&& g.mask

/-- What `__ringbuf_reserve` writes once the space check has passed. -/
def ringbufReserve (g : Geometry) (rb : Ringbuf) (size : ℕ) : Ringbuf :=
  let hdr := nextHdr g rb
  { rb with
    data := Cyclic.storeWord g.dataSz (Cyclic.storeWord g.dataSz rb.data hdr (busyWord size))
      (hdr + 4) (ringbufRecPgOff hdr)
    producerPos := (rb.producerPos + reserveLen size) % 2 ^ 64 }

/-- The `memcpy` of `ringbuf_output`. -/
def copyPayload (g : Geometry) (rb : Ringbuf) (hdr : ℕ) (out : Output) : Ringbuf :=
  { rb with
    data := Cyclic.store g.dataSz rb.data (hdr + bpfRingbufHdrSz) out.size out.data }

/-- The exchange of the header word in `ringbuf_commit`. -/
def exchangeLen (g : Geometry) (rb : Ringbuf) (hdr : ℕ) (discard : Bool) : Ringbuf :=
  { rb with
    data := Cyclic.storeWord g.dataSz rb.data hdr
      (commitWord (Cyclic.loadWord g.dataSz rb.data hdr) discard) }

/-- The address that `ringbuf_commit` takes for `rb`. -/
def restoredRb (g : Geometry) (rb : Ringbuf) (hdr : ℕ) : ℕ :=
  ringbufRestoreFromRec (g.base + dataOffset + hdr) (Cyclic.loadWord g.dataSz rb.data (hdr + 4))

/-- Whether `ringbuf_commit` queues the `irq_work`. -/
def wantsWakeup (g : Geometry) (rb : Ringbuf) (hdr flags : ℕ) : Bool :=
  flags &&& bpfRbForceWakeup ≠ 0 ||
    rb.consumerPos &&& g.mask = hdr && flags &&& bpfRbNoWakeup = 0

/-! ## Threads -/

/-- Where a producer is.  The last argument is history: how many records had been
consumed when `consumer_pos` was read, or the number of the reservation. -/
inductive ProducerPc where
  /-- Not in a call; the last one returned `ret`. -/
  | idle (ret : ℤ)
  /-- Before the lock. -/
  | loaded (out : Output) (consPos : ℕ) (seen : ℕ)
  /-- Before the copy. -/
  | reserved (out : Output) (hdr : ℕ) (index : ℕ)
  /-- Before the exchange. -/
  | copied (out : Output) (hdr : ℕ) (index : ℕ)
  /-- Before the wake-up; `rb` is the address restored from the record. -/
  | exchanged (out : Output) (hdr : ℕ) (rb : ℕ) (index : ℕ)

/-- Where the consumer is. -/
inductive ConsumerPc where
  /-- Not in a call; the last one returned `ret`. -/
  | idle (ret : ℤ)
  /-- In `poll`, on the wait queue, before the test. -/
  | registered (woken : Bool)
  /-- In `poll`, asleep. -/
  | blocked (woken : Bool)
  /-- `poll` has returned 1. -/
  | polled
  /-- At the load of `producer_pos`. -/
  | outer (consPos : ℕ)
  /-- At the load of a header. -/
  | inner (consPos prodPos : ℕ)
  /-- At the callback, for the record behind the header at offset `hdr`. -/
  | record (consPos prodPos hdr len : ℕ)
  /-- At the store of `consumer_pos`. -/
  | storing (consPos prodPos : ℕ) (err : ℤ)
  deriving DecidableEq

/-! ## History -/

inductive Phase where
  | reserved
  | copied
  | committed
  deriving DecidableEq

/-- A reservation. -/
structure Reservation (P : Type*) where
  owner : P
  out : Output

def Reservation.len (r : Reservation P) : ℕ :=
  reserveLen r.out.size

/-- The reservations in their order, how far each is, how many the consumer has
released, what the callback was given, and whether a wake-up was queued since
the consumer registered on the wait queue. -/
structure History (P : Type*) where
  log : List (Reservation P)
  phase : ℕ → Phase
  consumed : ℕ
  delivered : List (List UInt8 × ℕ)
  wakeQueued : Bool

/-- The position of reservation `i`, as if `producer_pos` had no bound. -/
def History.start (h : History P) (i : ℕ) : ℕ :=
  Tiling.start (h.log.map Reservation.len) i

/-- The number of bytes reserved so far. -/
def History.total (h : History P) : ℕ :=
  h.start h.log.length

/-- The bytes and the length of a reservation, if it is committed and not discarded. -/
def History.committed? (h : History P) : Reservation P × ℕ → Option (List UInt8 × ℕ)
  | (r, i) => if h.phase i = .committed ∧ r.out.discard = false
      then some (r.out.bytes, r.out.size) else none

/-- What the first `k` reservations hand to the callback. -/
def History.deliverable (h : History P) (k : ℕ) : List (List UInt8 × ℕ) :=
  (h.log.zipIdx.take k).filterMap h.committed?

/-- The committed records that are not discarded, in the order of reservation. -/
def History.committed (h : History P) : List (List UInt8 × ℕ) :=
  h.log.zipIdx.filterMap h.committed?

/-! ## The transition system -/

/-- The ring, its threads, the queued `irq_work`, and the history. -/
structure State (P : Type*) where
  rb : Ringbuf
  producer : P → ProducerPc
  consumer : ConsumerPc
  irqPending : Bool
  hist : History P

inductive Action (P : Type*) where
  | output (p : P) (out : Output)
  | reserve (p : P) (locked : Bool)
  | copy (p : P)
  | exchange (p : P)
  | notify (p : P)
  | irqWork
  | pollEnter
  | pollTest
  | pollWake
  | pollFail
  | loadConsumerPos
  | loadProducerPos
  | loadHeader
  | callback (err : ℤ)
  | storeConsumerPos
  | userWrite (value : UInt64)

def State.setProducer (s : State P) (p : P) (pc : ProducerPc) : State P :=
  { s with producer := Function.update s.producer p pc }

/-- `ringbuf_output` up to the load of `consumer_pos`. -/
def outputStep (g : Geometry) (s : State P) (p : P) (out : Output) : Option (State P) :=
  match s.producer p with
  | .idle _ =>
      if out.flags &&& (2 ^ 64 - 1 - (bpfRbNoWakeup ||| bpfRbForceWakeup)) ≠ 0 then
        some (s.setProducer p (.idle (-eInval)))
      else if reserveFits g out.size then
        some (s.setProducer p (.loaded out s.rb.consumerPos s.hist.consumed))
      else some (s.setProducer p (.idle (-eAgain)))
  | _ => none

/-- The state after the granted reservation of `out` by `p`. -/
def State.reserve (g : Geometry) (s : State P) (p : P) (out : Output) : State P :=
  { s with
    rb := ringbufReserve g s.rb out.size
    producer := Function.update s.producer p (.reserved out (nextHdr g s.rb) s.hist.log.length)
    hist := { s.hist with
      log := s.hist.log ++ [⟨p, out⟩]
      phase := Function.update s.hist.phase s.hist.log.length .reserved } }

/-- `__ringbuf_reserve` from the lock on.  In an NMI the lock may not be had. -/
def reserveStep (g : Geometry) (s : State P) (p : P) (locked : Bool) : Option (State P) :=
  match s.producer p with
  | .loaded out consPos _ =>
      if locked = true ∧ hasSpace g s.rb consPos out.size then some (s.reserve g p out)
      else some (s.setProducer p (.idle (-eAgain)))
  | _ => none

/-- The state after the copy of the payload of reservation `i`. -/
def State.copy (g : Geometry) (s : State P) (p : P) (out : Output) (hdr i : ℕ) : State P :=
  { s with
    rb := copyPayload g s.rb hdr out
    producer := Function.update s.producer p (.copied out hdr i)
    hist := { s.hist with phase := Function.update s.hist.phase i .copied } }

def copyStep (g : Geometry) (s : State P) (p : P) : Option (State P) :=
  match s.producer p with
  | .reserved out hdr i => some (s.copy g p out hdr i)
  | _ => none

/-- The state after the exchange of the header word of reservation `i`. -/
def State.exchange (g : Geometry) (s : State P) (p : P) (out : Output) (hdr i : ℕ) : State P :=
  { s with
    rb := exchangeLen g s.rb hdr out.discard
    producer := Function.update s.producer p (.exchanged out hdr (restoredRb g s.rb hdr) i)
    hist := { s.hist with phase := Function.update s.hist.phase i .committed } }

def exchangeStep (g : Geometry) (s : State P) (p : P) : Option (State P) :=
  match s.producer p with
  | .copied out hdr i => some (s.exchange g p out hdr i)
  | _ => none

/-- The end of `ringbuf_commit`.  Nothing is known about a ring restored at another
address, so there is no step then. -/
def notifyStep (g : Geometry) (s : State P) (p : P) : Option (State P) :=
  match s.producer p with
  | .exchanged out hdr rb _ =>
      if rb = g.base then
        if wantsWakeup g s.rb hdr out.flags then
          some { s.setProducer p (.idle 0) with
            irqPending := true
            hist := { s.hist with wakeQueued := true } }
        else some (s.setProducer p (.idle 0))
      else none
  | _ => none

/-- `ringbuf_notify`. -/
def irqWorkStep (s : State P) : Option (State P) :=
  if s.irqPending then
    some { s with
      irqPending := false
      consumer := match s.consumer with
        | .registered _ => .registered true
        | .blocked _ => .blocked true
        | pc => pc }
  else none

/-- The two loop tests of `secDetector_ringbuf_poll`. -/
def pollLoop (gotNewData : Bool) (consPos prodPos : ℕ) : ConsumerPc :=
  if consPos < prodPos then .inner consPos prodPos
  else if gotNewData then .outer consPos
  else .idle 0

/-- The load of a header, up to the callback or the store. -/
def loadHeaderStep (g : Geometry) (s : State P) : Option (State P) :=
  match s.consumer with
  | .inner consPos prodPos =>
      let hdr := consPos &&& g.daemonMask
      let len := Cyclic.loadWord g.dataSz s.rb.data hdr
      if len &&& bpfRingbufBusyBit ≠ 0 then some { s with consumer := .idle 0 }
      else
        let consPos := (consPos + roundupLen len) % 2 ^ 64
        if len &&& bpfRingbufDiscardBit = 0 then
          some { s with consumer := .record consPos prodPos hdr len }
        else some { s with consumer := .storing consPos prodPos 0 }
  | _ => none

/-- The callback, which is given the bytes behind the header. -/
def callbackStep (g : Geometry) (s : State P) (err : ℤ) : Option (State P) :=
  match s.consumer with
  | .record consPos prodPos hdr len => some { s with
      consumer := .storing consPos prodPos err
      hist := { s.hist with
        delivered := s.hist.delivered ++
          [(Cyclic.load g.dataSz s.rb.data (hdr + bpfRingbufHdrSz) len, len)] } }
  | _ => none

def storeConsumerPosStep (s : State P) : Option (State P) :=
  match s.consumer with
  | .storing consPos prodPos err => some { s with
      rb := { s.rb with consumerPos := consPos }
      consumer := if err < 0 then .idle err else pollLoop true consPos prodPos
      hist := { s.hist with consumed := s.hist.consumed + 1 } }
  | _ => none

/-- `poll` on the device, and the loads of the two positions. -/
def pollStep (s : State P) : Action P → Option (State P)
  | .pollEnter => match s.consumer with
      | .idle _ => some { s with
          consumer := .registered false
          hist := { s.hist with wakeQueued := false } }
      | _ => none
  | .pollTest => match s.consumer with
      | .registered woken => some { s with
          consumer := if ringbufAvailDataSz s.rb ≠ 0 then .polled else .blocked woken }
      | _ => none
  | .pollWake => match s.consumer with
      | .blocked true => some { s with consumer := .registered false }
      | _ => none
  | .pollFail => match s.consumer with
      | .registered _ | .blocked _ => some { s with consumer := .idle (-1) }
      | _ => none
  | .loadConsumerPos => match s.consumer with
      | .polled => some { s with consumer := .outer s.rb.consumerPos }
      | _ => none
  | .loadProducerPos => match s.consumer with
      | .outer consPos => some { s with consumer := pollLoop false consPos s.rb.producerPos }
      | _ => none
  | _ => none

/-- One step of one thread. -/
def step (g : Geometry) (s : State P) : Action P → Option (State P)
  | .output p out => outputStep g s p out
  | .reserve p locked => reserveStep g s p locked
  | .copy p => copyStep g s p
  | .exchange p => exchangeStep g s p
  | .notify p => notifyStep g s p
  | .irqWork => irqWorkStep s
  | .loadHeader => loadHeaderStep g s
  | .callback err => callbackStep g s err
  | .storeConsumerPos => storeConsumerPosStep s
  | .userWrite value => some { s with rb := { s.rb with consumerPos := value.toNat } }
  | a => pollStep s a

/-- The ring after `ringbuf_alloc`, before the first call. -/
structure Initial (s : State P) : Prop where
  consumerPos : s.rb.consumerPos = 0
  producerPos : s.rb.producerPos = 0
  producer : ∀ p, s.producer p = .idle 0
  consumer : s.consumer = .idle 0
  irqPending : s.irqPending = false
  log : s.hist.log = []
  consumed : s.hist.consumed = 0
  delivered : s.hist.delivered = []

end SecDetector.Ring
