import SecDetector.Ebpf.Converter
import SecDetector.PubSub.Fanout
import SecDetector.Report.Trip
import SecDetector.Ring.InOrder

/-!
# The daemon

`main.cpp`: the thread that polls the ring of the kernel module, the two threads that run the
eBPF programs, and the subscription server, which they reach through one gRPC client.  A thread
that has something to report calls `push_log`, and `push_log` takes `pub_mutex` for the time of
the call of `Publish`; so the calls follow each other, and each is one step (`publish`).

The ring and the server are the transition systems of `Ring` and `PubSub`.  What links them is
`ringbuf_cb`, which reads a string from a record, and the topic mask of the daemon.  A text goes
over the wire only if it is a protobuf string; `decode` stands for this test.

`client.init` comes after the start of the eBPF threads, and a publication before it is a
fault.  The poll loop ends with the first result that is not 0, or with a signal, and then the
server is stopped.

`requests` is history: the calls of `Publish` in their order.
-/

namespace SecDetector.Service

open Lib

inductive Thread where
  | main
  | process
  | file
  deriving DecidableEq

/-- The arguments of `push_log`. -/
structure Push where
  type : BitVec 32
  content : Text

/-- A call of `Publish` by the client; `served` says that it has reached the server. -/
structure Request where
  thread : Thread
  push : Push
  served : Bool

structure Daemon (P H : Type*) where
  ring : Ring.State P
  server : PubSub.State H
  /-- The threads that are in `push_log`. -/
  pushing : Thread → Option Push
  ready : Bool
  exiting : Bool
  requests : List Request

inductive Action (P H : Type*) where
  | ring (a : Ring.Action P)
  | ringbufCb
  | ebpfCb (t : Thread) (env : Ebpf.Env) (e : Ebpf.EbpfEvent)
  | publish (t : Thread) (served : Bool) (entries : List (PubSub.Entry H)) (sent : H → Bool)
  | server (a : PubSub.Action H)
  | clientInit
  | signal
  | stopServer

/-- What does not change: the ring, the requests of the subscribers, the topic mask, and which
texts are protobuf strings. -/
structure Config (H : Type*) where
  g : Ring.Geometry
  req : H → PubSub.SubscribeRequest
  topicMask : BitVec 32
  decode : Text → Option String

variable {P H : Type*} [DecidableEq P] [DecidableEq H]

/-- The memory from a sample on, up to the end of the second mapping of the data area. -/
def sampleMem (g : Ring.Geometry) (rb : Ring.Ringbuf) (hdr : ℕ) : List UInt8 :=
  Cyclic.load g.dataSz rb.data (hdr + Ring.bpfRingbufHdrSz)
    (2 * g.dataSz - (hdr + Ring.bpfRingbufHdrSz))

namespace Daemon

variable (c : Config H) (s : Daemon P H)

/-- A step of the ring.  The callback is not one, and the poll is called again only while it
returns 0 and there was no signal. -/
def ringStep (a : Ring.Action P) : Option (Daemon P H) :=
  match a with
  | .callback _ => none
  | .pollEnter =>
      if s.ring.consumer = .idle 0 ∧ s.exiting = false ∧ s.ready = true then
        (Ring.step c.g s.ring .pollEnter).map fun ring => { s with ring := ring }
      else none
  | a => (Ring.step c.g s.ring a).map fun ring => { s with ring := ring }

/-- The callback returns. -/
def callbackReturns (err : ℤ) : Option (Daemon P H) :=
  (Ring.step c.g s.ring (.callback err)).map fun ring => { s with ring := ring }

/-- `push_log` up to the mutex; `skipped` is how the caller goes on if the topic is masked. -/
def pushLog (t : Thread) (push : Push) (skipped : Option (Daemon P H)) : Option (Daemon P H) :=
  if c.topicMask &&& push.type = 0 then skipped
  else some { s with pushing := Function.update s.pushing t (some push) }

/-- `ringbuf_cb`.  A string without an end is a fault. -/
def ringbufCb : Option (Daemon P H) :=
  match s.ring.consumer, s.pushing .main with
  | .record _ _ hdr len, none =>
      match Report.ringbufCb (sampleMem c.g s.ring.rb hdr) len with
      | .error err => s.callbackReturns c err
      | .ok (type, some content) => s.pushLog c .main ⟨type, content⟩ (s.callbackReturns c 0)
      | .ok (_, none) => none
  | _, _ => none

/-- `ebpf_cb`, in one of the two threads. -/
def ebpfCb (t : Thread) (env : Ebpf.Env) (e : Ebpf.EbpfEvent) : Option (Daemon P H) :=
  if t ≠ .main ∧ (s.pushing t).isNone then
    (Ebpf.ebpfEventToText env e).bind fun content => s.pushLog c t ⟨e.type, content⟩ (some s)
  else none

/-- The request at the server, if it gets there. -/
def serve (push : Push) (served : Bool) (entries : List (PubSub.Entry H)) (sent : H → Bool) :
    Option (PubSub.State H) :=
  match c.decode push.content, served with
  | some data, true => PubSub.step c.req s.server (.publish push.type data entries sent)
  | _, _ => some s.server

/-- `client.Publish` under `pub_mutex`, and the return of the callback. -/
def publish (t : Thread) (served : Bool) (entries : List (PubSub.Entry H)) (sent : H → Bool) :
    Option (Daemon P H) :=
  (s.pushing t).bind fun push =>
    if s.ready then
      (s.serve c push served entries sent).bind fun server =>
        let s := { s with
          server := server
          pushing := Function.update s.pushing t none
          requests := s.requests ++ [⟨t, push, served⟩] }
        if t = .main then s.callbackReturns c 0 else some s
    else none

/-- A step of the server that is none of the daemon's own calls. -/
def serverStep (a : PubSub.Action H) : Option (Daemon P H) :=
  match a with
  | .closeAllConnection => none
  | a => (PubSub.step c.req s.server a).map fun server => { s with server := server }

/-- `StopServer`, when the poll loop has ended. -/
def stopServer : Option (Daemon P H) :=
  match s.ring.consumer with
  | .idle ret =>
      if ret ≠ 0 ∨ s.exiting = true then
        (PubSub.step c.req s.server .closeAllConnection).map fun server =>
          { s with server := server }
      else none
  | _ => none

end Daemon

/-- The system. -/
def step (c : Config H) (s : Daemon P H) : Action P H → Option (Daemon P H)
  | .ring a => s.ringStep c a
  | .ringbufCb => s.ringbufCb c
  | .ebpfCb t env e => s.ebpfCb c t env e
  | .publish t served entries sent => s.publish c t served entries sent
  | .server a => s.serverStep c a
  | .clientInit => some { s with ready := true }
  | .signal => some { s with exiting := true }
  | .stopServer => s.stopServer c

/-- The daemon after `secDetector_ringbuf_attach`. -/
structure Initial (s : Daemon P H) : Prop where
  ring : Ring.Initial s.ring
  server : PubSub.Initial s.server
  pushing : ∀ t, s.pushing t = none
  requests : s.requests = []

/-! ## What a step can do -/

variable {c : Config H} {s s' : Daemon P H}

/-- The state after a call of `Publish`. -/
def published (s : Daemon P H) (t : Thread) (push : Push) (served : Bool)
    (server : PubSub.State H) : Daemon P H :=
  { s with
    server := server
    pushing := Function.update s.pushing t none
    requests := s.requests ++ [⟨t, push, served⟩] }

inductive Effect (c : Config H) (s : Daemon P H) : Action P H → Daemon P H → Prop
  | ring {a : Ring.Action P} {ring : Ring.State P} (hring : Ring.step c.g s.ring a = some ring)
      (hcallback : ∀ err, a ≠ .callback err) (henter : a = .pollEnter → s.ring.consumer = .idle 0) :
      Effect c s (.ring a) { s with ring := ring }
  /-- A record without a text, or with a masked topic. -/
  | returned {consPos prodPos hdr len : ℕ} {err : ℤ} {ring : Ring.State P}
      (hpc : s.ring.consumer = .record consPos prodPos hdr len) (hpushing : s.pushing .main = none)
      (hcb : Report.ringbufCb (sampleMem c.g s.ring.rb hdr) len = .error err ∨
        err = 0 ∧ ∃ type content, c.topicMask &&& type = 0 ∧
          Report.ringbufCb (sampleMem c.g s.ring.rb hdr) len = .ok (type, some content))
      (hring : Ring.step c.g s.ring (.callback err) = some ring) :
      Effect c s .ringbufCb { s with ring := ring }
  | pushed {consPos prodPos hdr len : ℕ} {push : Push}
      (hpc : s.ring.consumer = .record consPos prodPos hdr len) (hpushing : s.pushing .main = none)
      (hcb : Report.ringbufCb (sampleMem c.g s.ring.rb hdr) len =
        .ok (push.type, some push.content))
      (hmask : c.topicMask &&& push.type ≠ 0) :
      Effect c s .ringbufCb { s with pushing := Function.update s.pushing .main (some push) }
  | ebpfSkipped (t : Thread) (env : Ebpf.Env) (e : Ebpf.EbpfEvent) : Effect c s (.ebpfCb t env e) s
  | ebpfPushed {t : Thread} (env : Ebpf.Env) (e : Ebpf.EbpfEvent) {push : Push} (ht : t ≠ .main)
      (hmask : c.topicMask &&& push.type ≠ 0) :
      Effect c s (.ebpfCb t env e) { s with pushing := Function.update s.pushing t (some push) }
  | publishedMain {served : Bool} {entries : List (PubSub.Entry H)} {sent : H → Bool} {push : Push}
      {server : PubSub.State H} {ring : Ring.State P} (hpush : s.pushing .main = some push)
      (hserver : s.serve c push served entries sent = some server)
      (hring : Ring.step c.g s.ring (.callback 0) = some ring) :
      Effect c s (.publish .main served entries sent)
        { published s .main push served server with ring := ring }
  | publishedEbpf {t : Thread} {served : Bool} {entries : List (PubSub.Entry H)} {sent : H → Bool}
      {push : Push} {server : PubSub.State H} (ht : t ≠ .main) (hpush : s.pushing t = some push)
      (hserver : s.serve c push served entries sent = some server) :
      Effect c s (.publish t served entries sent) (published s t push served server)
  | server {a : PubSub.Action H} {server : PubSub.State H}
      (hserver : PubSub.step c.req s.server a = some server) :
      Effect c s (.server a) { s with server := server }
  | clientInit : Effect c s .clientInit { s with ready := true }
  | signal : Effect c s .signal { s with exiting := true }
  | stopServer {server : PubSub.State H}
      (hserver : PubSub.step c.req s.server .closeAllConnection = some server) :
      Effect c s .stopServer { s with server := server }

theorem effect_ring {a : Ring.Action P} (hstep : s.ringStep c a = some s') :
    Effect c s (.ring a) s' := by
  cases a with
  | callback err => simp [Daemon.ringStep] at hstep
  | pollEnter =>
      simp only [Daemon.ringStep] at hstep
      split_ifs at hstep with hguard
      obtain ⟨ring, hring, rfl⟩ := Option.map_eq_some_iff.mp hstep
      exact .ring hring (by simp) fun _ => hguard.1
  | _ =>
      simp only [Daemon.ringStep, Option.map_eq_some_iff] at hstep
      obtain ⟨ring, hring, rfl⟩ := hstep
      exact .ring hring (by simp) (by simp)

theorem effect_ringbufCb (hstep : s.ringbufCb c = some s') : Effect c s .ringbufCb s' := by
  unfold Daemon.ringbufCb at hstep
  split at hstep
  · rename_i consPos prodPos hdr len hpc hpushing
    split at hstep
    · rename_i err hcb
      obtain ⟨ring, hring, rfl⟩ := Option.map_eq_some_iff.mp hstep
      exact .returned hpc hpushing (.inl hcb) hring
    · rename_i type content hcb
      unfold Daemon.pushLog at hstep
      split at hstep
      · rename_i hmask
        obtain ⟨ring, hring, rfl⟩ := Option.map_eq_some_iff.mp hstep
        exact .returned hpc hpushing (.inr ⟨rfl, type, content, hmask, hcb⟩) hring
      · rename_i hmask
        obtain rfl := Option.some.inj hstep
        exact .pushed hpc hpushing hcb hmask
    · cases hstep
  · cases hstep

theorem effect_ebpfCb {t : Thread} {env : Ebpf.Env} {e : Ebpf.EbpfEvent}
    (hstep : s.ebpfCb c t env e = some s') : Effect c s (.ebpfCb t env e) s' := by
  unfold Daemon.ebpfCb at hstep
  split at hstep
  · rename_i hthread
    obtain ⟨content, _, hstep⟩ := Option.bind_eq_some_iff.mp hstep
    unfold Daemon.pushLog at hstep
    split at hstep
    · obtain rfl := Option.some.inj hstep
      exact .ebpfSkipped t env e
    · rename_i hmask
      obtain rfl := Option.some.inj hstep
      exact .ebpfPushed env e hthread.1 hmask
  · cases hstep

theorem effect_publish {t : Thread} {served : Bool} {entries : List (PubSub.Entry H)}
    {sent : H → Bool} (hstep : s.publish c t served entries sent = some s') :
    Effect c s (.publish t served entries sent) s' := by
  obtain ⟨push, hpush, hstep⟩ := Option.bind_eq_some_iff.mp hstep
  split at hstep
  · obtain ⟨server, hserver, hstep⟩ := Option.bind_eq_some_iff.mp hstep
    dsimp only at hstep
    split at hstep
    · rename_i ht
      obtain ⟨ring, hring, rfl⟩ := Option.map_eq_some_iff.mp hstep
      subst ht
      exact .publishedMain hpush hserver hring
    · rename_i ht
      obtain rfl := Option.some.inj hstep
      exact .publishedEbpf ht hpush hserver
  · cases hstep

theorem effect_of_step {a : Action P H} (hstep : step c s a = some s') : Effect c s a s' := by
  cases a with
  | ring a => exact effect_ring hstep
  | ringbufCb => exact effect_ringbufCb hstep
  | ebpfCb t env e => exact effect_ebpfCb hstep
  | publish t served entries sent => exact effect_publish hstep
  | server a =>
      cases a with
      | closeAllConnection => simp [step, Daemon.serverStep] at hstep
      | _ =>
          simp only [step, Daemon.serverStep, Option.map_eq_some_iff] at hstep
          obtain ⟨server, hserver, rfl⟩ := hstep
          exact .server hserver
  | clientInit =>
      obtain rfl := Option.some.inj hstep
      exact .clientInit
  | signal =>
      obtain rfl := Option.some.inj hstep
      exact .signal
  | stopServer =>
      simp only [step, Daemon.stopServer] at hstep
      split at hstep
      · split at hstep
        · obtain ⟨server, hserver, rfl⟩ := Option.map_eq_some_iff.mp hstep
          exact .stopServer hserver
        · cases hstep
      · cases hstep

/-- No other process writes to the ring or publishes. -/
def Local (_ : Daemon P H) : Action P H → Prop
  | .ring (.userWrite _) => False
  | .server (.publish _ _ _ _) => False
  | _ => True

/-- A step of the daemon is at most one step of its ring. -/
theorem ring_of_step {a : Action P H} (hlocal : Local s a) (hstep : step c s a = some s') :
    s'.ring = s.ring ∨
      ∃ b, Ring.PollOnly s.ring b ∧ Ring.step c.g s.ring b = some s'.ring := by
  cases effect_of_step hstep with
  | @ring a ring hring _ _ =>
      refine .inr ⟨a, ?_, hring⟩
      cases a with
      | userWrite value => exact hlocal
      | _ => trivial
  | returned _ _ _ hring => exact .inr ⟨.callback _, trivial, hring⟩
  | publishedMain _ _ hring => exact .inr ⟨.callback _, trivial, hring⟩
  | _ => exact .inl rfl

end SecDetector.Service
