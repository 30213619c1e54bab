import Mathlib.Data.Int.Notation
import Mathlib.Data.List.AList
import Mathlib.Data.List.Perm.Basic

/-!
# The subscription server

`PubSubServiceImpl` of `server.cpp`.  A call of `Subscribe` is a thread that lives as
long as the subscription; it is its own handler `h`, and its `ServerWriter` is
identified with it.  The calls `Publish`, `UnSubscribe` and `CloseAllConnection` run
in one step each.

Everything under `sub_mutex` is one step.  The test of `killed` in the loop of
`Subscribe` and the wait between two keepalives are steps of their own, and the wait
may end at any time.  The environment chooses whether a write succeeds and in
which order the `unordered_map` is traversed.

`log` records what happened, in the order of the locked sections.  No branch reads
it.
-/

namespace SecDetector.PubSub

variable {H : Type*} [DecidableEq H]

/-! ## Data -/

/-- `MAX_CONNECTION`. -/
def maxConnection : ℤ := 5

/-- The fields of a `SubscribeRequest`. -/
structure SubscribeRequest where
  topic : BitVec 32
  subName : String

/-- `class Subscribers`. -/
structure Subscribers (H : Type*) where
  topic : BitVec 32
  writer : H
  deriving DecidableEq

/-- `std::unordered_map<std::string, Subscribers>`. -/
abbrev SuberTopic (H : Type*) := AList fun _ : String => Subscribers H

/-- An entry of the map. -/
abbrev Entry (H : Type*) := Sigma fun _ : String => Subscribers H

/-- `grpc::Status`. -/
inductive Status where
  | ok
  | internal (message : String)
  deriving DecidableEq

/-- Which call wrote to a stream. -/
inductive Source where
  | subscribe
  | keepalive
  | publish
  deriving DecidableEq

/-- Where a `Subscribe` call is. -/
inductive HandlerPc where
  /-- Not yet served. -/
  | idle
  /-- At the test of `killed`. -/
  | loop
  /-- Before the lock of the keepalive section. -/
  | keepalive
  /-- In `WaitKeeplive`. -/
  | waiting
  | returned (status : Status)
  deriving DecidableEq

inductive Event (H : Type*) where
  | registered (h : H)
  | wrote (h : H) (source : Source) (text : String) (sent : Bool)
  | published (topic : BitVec 32) (data : String)
  | unsubscribed (name : String)
  | removed (h : H)
  | returned (h : H)
  deriving DecidableEq

structure State (H : Type*) where
  suberTopic : SuberTopic H
  connectionNum : ℤ
  killed : Bool
  handler : H → HandlerPc
  log : List (Event H)

/-- Append events to the log. -/
def State.record (s : State H) (events : List (Event H)) : State H :=
  { s with log := s.log ++ events }

def State.setHandler (s : State H) (h : H) (pc : HandlerPc) : State H :=
  { s with handler := Function.update s.handler h pc }

/-- A handler returns. -/
def State.return (s : State H) (h : H) (status : Status) : State H :=
  (s.setHandler h (.returned status)).record [.returned h]

/-! ## The calls -/

/-- `DeleteSubscriberByCliName`. -/
def deleteSubscriberByCliName (cliName : String) (s : State H) : Bool × State H :=
  match s.suberTopic.lookup cliName with
  | some sub =>
      (true, { s with
        suberTopic := s.suberTopic.erase cliName
        connectionNum := s.connectionNum - 1
        log := s.log ++ [.removed sub.writer] })
  | none => (false, s)

/-- `Subscribe` up to the loop. -/
def subscribe (req : SubscribeRequest) (h : H) (sent : Bool) (s : State H) : State H :=
  if maxConnection ≤ s.connectionNum then
    (s.record [.wrote h .subscribe "over max connection number!" sent]).return h
      (.internal "over max connection number")
  else if req.subName ∈ s.suberTopic then
    (s.record [.wrote h .subscribe "this client name already subscribe the topic" sent]).return h
      (.internal "this client name already subscribe the topic")
  else
    let text := "topic: " ++ toString req.topic.toInt ++ " Subscribe success!"
    if sent then
      { s with
        suberTopic := s.suberTopic.insert req.subName ⟨req.topic, h⟩
        connectionNum := s.connectionNum + 1
        handler := Function.update s.handler h .loop
        log := s.log ++ [.wrote h .subscribe text true, .registered h] }
    else
      (s.record [.wrote h .subscribe text false]).return h
        (.internal "Failed to write the message")

/-- The locked section of the loop of `Subscribe`. -/
def keepalive (req : SubscribeRequest) (h : H) (sent : Bool) (s : State H) : State H :=
  if req.subName ∉ s.suberTopic then s.return h .ok
  else
    let s := s.record [.wrote h .keepalive "keepalive" sent]
    if sent then s.setHandler h .waiting
    else (deleteSubscriberByCliName req.subName s).2.return h (.internal "writer is lose!")

/-- The loop of `Publish` over the entries, with the writes it makes. -/
def publishLoop (topic : BitVec 32) (data : String) (sent : H → Bool) :
    List (Entry H) → Status × List (Event H)
  | [] => (.ok, [])
  | ⟨_, sub⟩ :: entries =>
      if sub.topic &&& topic ≠ 0 then
        if sent sub.writer then
          let (status, events) := publishLoop topic data sent entries
          (status, .wrote sub.writer .publish data true :: events)
        else
          -- `return` inside the loop: the entries that follow are not served
          (.internal "Failed to write the message", [.wrote sub.writer .publish data false])
      else publishLoop topic data sent entries

/-- `Publish`, when the map is traversed in the order `entries`. -/
def publish (topic : BitVec 32) (data : String) (entries : List (Entry H)) (sent : H → Bool)
    (s : State H) : Status × State H :=
  let (status, events) := publishLoop topic data sent entries
  (status, s.record (.published topic data :: events))

/-- `UnSubscribe`, with its status and the text of its response. -/
def unSubscribe (cliName : String) (s : State H) : Status × String × State H :=
  let s := s.record [.unsubscribed cliName]
  if s.connectionNum ≤ 0 then
    (.internal "connection_num <= 0, Failed to UnSubscribe topic!",
      "connection_num <= 0, don't UnSubscribe!", s)
  else
    let (exist, s) := deleteSubscriberByCliName cliName s
    if exist then (.ok, "UnSubscribe success!", s)
    else (.internal "Failed to UnSubscribe reader!", "don't exist the reader", s)

/-! ## The transition system -/

inductive Action (H : Type*) where
  | subscribe (h : H) (sent : Bool)
  | testKilled (h : H)
  | keepalive (h : H) (sent : Bool)
  | wake (h : H)
  | publish (topic : BitVec 32) (data : String) (entries : List (Entry H)) (sent : H → Bool)
  | unSubscribe (cliName : String)
  | closeAllConnection

/-- One step of one thread; `req h` is the request of the call `h`. -/
def step (req : H → SubscribeRequest) (s : State H) : Action H → Option (State H)
  | .subscribe h sent => match s.handler h with
      | .idle => some (subscribe (req h) h sent s)
      | _ => none
  -- the loop ends on `killed`, with the entry of `h` left in the map
  | .testKilled h => match s.handler h with
      | .loop => some (if s.killed then s.return h .ok else s.setHandler h .keepalive)
      | _ => none
  | .keepalive h sent => match s.handler h with
      | .keepalive => some (keepalive (req h) h sent s)
      | _ => none
  | .wake h => match s.handler h with
      | .waiting => some (s.setHandler h .loop)
      | _ => none
  | .publish topic data entries sent =>
      if entries.Perm s.suberTopic.entries then some (publish topic data entries sent s).2 else none
  | .unSubscribe cliName => some (unSubscribe cliName s).2.2
  | .closeAllConnection => some { s with killed := true }

/-- The service at start-up. -/
structure Initial (s : State H) : Prop where
  suberTopic : s.suberTopic = ∅
  connectionNum : s.connectionNum = 0
  killed : s.killed = false
  handler : ∀ h, s.handler h = .idle
  log : s.log = []

end SecDetector.PubSub
