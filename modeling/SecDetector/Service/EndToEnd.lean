import SecDetector.PubSub.Received
import SecDetector.Service.MainThread

/-!
# From the kernel to a subscriber

What the daemon makes of the records in the ring, over whole runs: its main thread publishes the
records that it consumes, each once and in their order, and stops at the first record without a
text; and what is written to the stream of a subscriber is a part of what was published while it
was subscribed, in the same order (`service_end_to_end`).
-/

namespace SecDetector.Service

open Lib

variable {P H : Type*} [DecidableEq P] [DecidableEq H] {c : Config H} {s s' : Daemon P H}

/-! ## The requests -/

/-- The call of the server that a request becomes. -/
def Request.call? (decode : Text → Option String) (request : Request) :
    Option (BitVec 32 × String) :=
  if request.served then
    (decode request.push.content).map fun data => (request.push.type, data)
  else none

/-- The calls that the server has served are those of the daemon. -/
structure RequestInv (c : Config H) (s : Daemon P H) : Prop where
  server : PubSub.ReceivedInv c.req s.server
  calls : PubSub.calls s.server.log = s.requests.filterMap (Request.call? c.decode)
  requests : ∀ request ∈ s.requests, c.topicMask &&& request.push.type ≠ 0
  pushing : ∀ t push, s.pushing t = some push → c.topicMask &&& push.type ≠ 0

omit [DecidableEq P] in
theorem RequestInv.of_same (hinv : RequestInv c s) (hserver : s'.server = s.server)
    (hrequests : s'.requests = s.requests) (hpushing : s'.pushing = s.pushing) :
    RequestInv c s' where
  server := hserver ▸ hinv.server
  calls := by rw [hserver, hrequests, hinv.calls]
  requests := hrequests ▸ hinv.requests
  pushing := hpushing ▸ hinv.pushing

omit [DecidableEq P] in
theorem RequestInv.push (hinv : RequestInv c s) {t : Thread} {push : Push}
    (hmask : c.topicMask &&& push.type ≠ 0) :
    RequestInv c { s with pushing := Function.update s.pushing t (some push) } where
  server := hinv.server
  calls := hinv.calls
  requests := hinv.requests
  pushing t' push' hpush := by
    dsimp only at hpush
    by_cases ht : t' = t
    · subst ht
      rw [Function.update_self, Option.some.injEq] at hpush
      exact hpush ▸ hmask
    · rw [Function.update_of_ne ht] at hpush
      exact hinv.pushing t' push' hpush

omit [DecidableEq P] in
/-- A step of the server that is no call of `Publish`. -/
theorem RequestInv.serverStep (hinv : RequestInv c s) {a : PubSub.Action H}
    {server : PubSub.State H} (hserver : PubSub.step c.req s.server a = some server)
    (hpublish : ∀ topic data entries sent, a ≠ .publish topic data entries sent) :
    RequestInv c { s with server := server } := by
  obtain ⟨events, hlog, hquiet⟩ := PubSub.quiet_of_step hserver hpublish
  refine ⟨hinv.server.of_quiet (hinv.server.registry.step hserver) hlog hquiet, ?_, hinv.requests,
    hinv.pushing⟩
  dsimp only
  rw [hlog, PubSub.calls_append, PubSub.calls_of_quiet hquiet, List.append_nil, hinv.calls]

omit [DecidableEq P] in
/-- A call of `Publish` by the daemon. -/
theorem RequestInv.published (hinv : RequestInv c s) {t : Thread} {push : Push} {served : Bool}
    {entries : List (PubSub.Entry H)} {sent : H → Bool} {server : PubSub.State H}
    (hpush : s.pushing t = some push)
    (hserver : s.serve c push served entries sent = some server) :
    RequestInv c (published s t push served server) := by
  have hrequests : ∀ request ∈ s.requests ++ [⟨t, push, served⟩],
      c.topicMask &&& request.push.type ≠ 0 := by
    rw [List.forall_mem_append, List.forall_mem_singleton]
    exact ⟨hinv.requests, hinv.pushing t push hpush⟩
  have hpushing : ∀ t' push', Function.update s.pushing t none t' = some push' →
      c.topicMask &&& push'.type ≠ 0 := by
    intro t' push' hpush'
    by_cases ht : t' = t
    · rw [ht, Function.update_self] at hpush'
      cases hpush'
    · rw [Function.update_of_ne ht] at hpush'
      exact hinv.pushing t' push' hpush'
  unfold Daemon.serve at hserver
  split at hserver
  · rename_i data hdecode
    have hcall : Request.call? c.decode ⟨t, push, true⟩ = some (push.type, data) := by
      simp [Request.call?, hdecode]
    cases PubSub.step_outcome hserver with
    | published _ _ _ _ hperm =>
        refine ⟨hinv.server.publish (hinv.server.registry.step hserver) hperm rfl, ?_, hrequests,
          hpushing⟩
        have hlast : PubSub.calls (.published push.type data ::
            (PubSub.publishLoop push.type data sent entries).2) = [(push.type, data)] := by
          rw [← PubSub.calls_publishLoop push.type data sent entries]
          rfl
        dsimp only [Service.published, PubSub.State.record]
        rw [PubSub.calls_append, hinv.calls, hlast, List.filterMap_append,
          List.filterMap_cons_some hcall,
          List.filterMap_nil]
  · rename_i served _ _ hnone
    obtain rfl := Option.some.inj hserver
    have hcall : Request.call? c.decode ⟨t, push, served⟩ = none := by
      cases served with
      | false => rfl
      | true =>
          cases hdecode : c.decode push.content with
          | none => simp [Request.call?, hdecode]
          | some data => exact (hnone data hdecode rfl).elim
    refine ⟨hinv.server, ?_, hrequests, hpushing⟩
    dsimp only [Service.published]
    rw [List.filterMap_append, List.filterMap_cons_none hcall, List.filterMap_nil,
      List.append_nil, hinv.calls]

theorem RequestInv.step {a : Action P H} (hinv : RequestInv c s) (hlocal : Local s a)
    (hstep : step c s a = some s') : RequestInv c s' := by
  cases effect_of_step hstep with
  | pushed _ _ _ hmask => exact hinv.push hmask
  | ebpfPushed _ _ _ hmask => exact hinv.push hmask
  | publishedMain hpush hserver => exact (hinv.published hpush hserver).of_same rfl rfl rfl
  | publishedEbpf _ hpush hserver => exact hinv.published hpush hserver
  | @server a _ hserver =>
      refine hinv.serverStep hserver ?_
      rintro topic data entries sent rfl
      exact hlocal
  | stopServer hserver => exact hinv.serverStep hserver (by simp)
  | ring | returned | ebpfSkipped | clientInit | signal => exact hinv.of_same rfl rfl rfl

/-! ## Runs -/

/-- What the daemon promises about the records in its ring. -/
structure EndToEnd (c : Config H) (s : Daemon P H) : Prop where
  /-- The callback has been given the committed records, in order, up to some point. -/
  inOrder : s.ring.hist.delivered <+: s.ring.hist.committed
  /-- The main thread has published each of them that it should, once and in this order. -/
  published : List.Forall₂ Pushes (pushesOf .main s.requests)
    (s.ring.hist.delivered.filter fun record => Wanted c.topicMask record)
  /-- Behind a record without a text it has been given none, and the poll is over. -/
  short : ∀ pre record post, s.ring.hist.delivered = pre ++ record :: post →
    record.2 ≤ Report.entryHdrSz → post = [] ∧ Ended s.ring.consumer
  /-- No thread publishes on a masked topic. -/
  unmasked : ∀ request ∈ s.requests, c.topicMask &&& request.push.type ≠ 0
  /-- The server has served the calls of the daemon, in their order, and no others. -/
  served : PubSub.calls s.server.log = s.requests.filterMap (Request.call? c.decode)
  /-- A subscriber has got, each once and in their order, texts of calls on its topics that
  came while it was subscribed. -/
  received : ∀ h, (PubSub.texts h s.server.log).Sublist (PubSub.due c.req h s.server.log) ∧
    (PubSub.due c.req h s.server.log).Sublist (PubSub.textsFor (c.req h).topic
      (PubSub.calls s.server.log))

/-- What is known after a run. -/
structure DaemonInv (c : Config H) (s : Daemon P H) : Prop where
  ring : ∃ acts, Run (Ring.step c.g) Ring.PollOnly Ring.Initial acts s.ring
  main : s.ring.hist.total < 2 ^ 64 → MainInv c s
  requests : RequestInv c s

omit [DecidableEq P] [DecidableEq H] in
theorem mainInv_of_initial (hinit : Initial s) : MainInv c s where
  hdr_le := by simp [hinit.ring.consumer]
  pushing := by simp [hinit.pushing]
  requests := by simp [hinit.requests, pushesOf, hinit.ring.delivered]
  short := by simp [hinit.ring.delivered]

omit [DecidableEq P] in
theorem requestInv_of_initial (hinit : Initial s) : RequestInv c s where
  server := PubSub.receivedInv_of_initial hinit.server
  calls := by simp [hinit.server.log, PubSub.calls, hinit.requests]
  requests := by simp [hinit.requests]
  pushing := by simp [hinit.pushing]

theorem DaemonInv.step (hmask : c.g.daemonMask = c.g.mask) {a : Action P H}
    (hinv : DaemonInv c s) (hlocal : Local s a) (hstep : step c s a = some s') :
    DaemonInv c s' := by
  obtain ⟨acts, hrun⟩ := hinv.ring
  refine ⟨?_, fun htotal => ?_, hinv.requests.step hlocal hstep⟩
  · rcases ring_of_step hlocal hstep with hsame | ⟨b, hpoll, hring⟩
    · exact ⟨acts, hsame ▸ hrun⟩
    · exact ⟨_, hrun.next hpoll hring⟩
  · have hle : s.ring.hist.total ≤ s'.ring.hist.total := by
      rcases ring_of_step hlocal hstep with hsame | ⟨b, _, hring⟩
      · rw [hsame]
      · exact Ring.total_le_of_step hring
    have hlt : s.ring.hist.total < 2 ^ 64 := lt_of_le_of_lt hle htotal
    have hdelivery := Ring.deliveryInv_of_run hmask (Ring.run_notLapped hrun hlt)
    exact (hinv.main hlt).step hdelivery hmask hstep

/-- **From the ring to the streams**, in every run of the daemon in which the two sides of the
ring use the same mask, less than `2 ^ 64` bytes go through it, and no other process writes to
its pages or publishes. -/
theorem service_end_to_end (hmask : c.g.daemonMask = c.g.mask) {acts : List (Action P H)}
    (hrun : Run (step c) Local Initial acts s) (htotal : s.ring.hist.total < 2 ^ 64) :
    EndToEnd c s := by
  have hinv : DaemonInv c s := by
    refine hrun.invariant (fun s hinit => ?_) fun s a t hinv hlocal hstep =>
      hinv.step hmask hlocal hstep
    exact ⟨⟨[], .start hinit.ring⟩, fun _ => mainInv_of_initial hinit, requestInv_of_initial hinit⟩
  obtain ⟨ringActs, hring⟩ := hinv.ring
  have hdelivery := Ring.deliveryInv_of_run hmask (Ring.run_notLapped hring htotal)
  have hmain := hinv.main htotal
  have hrequests := hinv.requests
  exact ⟨hdelivery.deliversInOrder.inOrder, hmain.requests, hmain.short, hrequests.requests,
    hrequests.calls, fun h => ⟨hrequests.server.received h, hrequests.server.onTopic h⟩⟩

/-! ## A record on its way to a subscriber -/

/-- A record with the text `hi` on the topic 1. -/
def hiOutput : Ring.Output :=
  ⟨fun i => ([1, 0, 0, 0, 104, 105, 0] : List UInt8).getD i 0, 7, 0, false⟩

def pageConfig : Config Bool where
  g := Ring.pageRing
  req := PubSub.twoClients
  topicMask := 1
  decode t := String.fromUTF8? ⟨t.bytes.toArray⟩

def freshDaemon : Daemon Bool Bool where
  ring := Ring.freshRing
  server := PubSub.freshServer
  pushing _ := none
  ready := false
  exiting := false
  requests := []

theorem freshDaemon_initial : Initial freshDaemon where
  ring := Ring.freshRing_initial
  server := PubSub.freshServer_initial
  pushing _ := rfl
  requests := rfl

/-- A client subscribes, the record is written and polled, and its text is published. -/
def hiActions : List (Action Bool Bool) :=
  (Ring.outputActions true hiOutput).map .ring ++
    [.clientInit, .server (.subscribe true true)] ++
    [.pollEnter, .pollTest, .loadConsumerPos, .loadProducerPos, .loadHeader].map .ring ++
    [.ringbufCb, .publish .main true
      [⟨(PubSub.twoClients true).subName, PubSub.ownEntry PubSub.twoClients true⟩] fun _ => true]

theorem hi_end_to_end :
    ∃ s, exec (step pageConfig) freshDaemon hiActions = some s ∧ EndToEnd pageConfig s ∧
      PubSub.texts true s.server.log = ["hi"] := by
  have hlocal : ∀ a ∈ hiActions, ∀ s : Daemon Bool Bool, Local s a := by
    simp [hiActions, Ring.outputActions, Local]
  have hend : (exec (step pageConfig) freshDaemon hiActions).map
      (fun s => (s.ring.hist.total, PubSub.texts true s.server.log)) = some (16, ["hi"]) := by
    decide +kernel
  obtain ⟨s, hexec, hs⟩ := Option.map_eq_some_iff.mp hend
  obtain ⟨htotal, htexts⟩ := Prod.mk.inj hs
  refine ⟨s, hexec, ?_, htexts⟩
  exact service_end_to_end rfl (.of_exec freshDaemon_initial hlocal hexec) (by omega)

end SecDetector.Service
