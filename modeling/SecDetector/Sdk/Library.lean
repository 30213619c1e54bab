import SecDetector.Lib.CString
import SecDetector.PubSub.Fanout

/-!
# The library of the subscribers

`secDetector_sdk.cpp` and the part of `client.cpp` that it uses: `secSub`, `secReadFrom` and
`secUnsub`, called by any number of threads of one application, beside the server.

A call holds `g_connect_mtx` from its first look at `g_reader_map` on, also while it waits for the
server, so a call is the step that takes the mutex and the step that gives it back.  What comes
from the server for the client `h` is what the server has written to its stream (`stream`).  A
read that fails gives an empty text; the connection is free to fail at any time.

`A` are the addresses of readers.  The allocator may hand out the address of a reader that was
freed, but not one that is in use.  The calls with a null pointer do nothing and are left out.

`consumed` says how much of its stream a client has read, and `out` is history: the buffers that
`secReadFrom` has filled, with their sizes.
-/

namespace SecDetector.Sdk

open Lib PubSub

def allTopic : ℤ := 0x00FFFFFF

/-- A client object. -/
inductive Client where
  | unborn
  | live
  | deleted
  deriving DecidableEq

/-- What a thread waits for. -/
inductive Call (A H : Type*) where
  | idle
  | subscribing (h : H)
  | reading (reader : A) (h : H) (dataLen : ℕ)
  | unsubscribing (reader : A) (h : H)
  deriving DecidableEq

structure State (T A H : Type*) where
  server : PubSub.State H
  readerMap : List (A × H)
  connectMtx : Option T
  call : T → Call A H
  client : H → Client
  consumed : H → ℕ
  out : H → List (ℕ × List UInt8)

inductive Action (T A H : Type*) where
  | secSub (t : T) (topic : ℤ) (h : H)
  | subscribed (t : T) (reader : A) (fails : Bool)
  | secReadFrom (t : T) (reader : A) (dataLen : ℤ)
  | read (t : T) (fails : Bool)
  | secUnsub (t : T) (reader : A)
  | unsubscribed (t : T) (served : Bool)
  | server (a : PubSub.Action H)

variable {T A H : Type*} [DecidableEq T] [DecidableEq A] [DecidableEq H]

/-- The text that an event writes to the stream of `h`. -/
def message? (h : H) : Event H → Option String
  | .wrote h' _ text true => if h' = h then some text else none
  | _ => none

/-- What the server has written to the stream of `h`. -/
def stream (h : H) (log : List (Event H)) : List String :=
  log.filterMap (message? h)

/-- `ret_info.substr(0, 6) == "topic:"`. -/
def IsTopic (text : String) : Prop :=
  text.toList.take 6 = ['t', 'o', 'p', 'i', 'c', ':']

instance : DecidablePred IsTopic := fun _ => inferInstanceAs (Decidable (_ = _))

/-- The buffer after `secReadFrom`: zeroed, and then `strncpy` of all but its last byte. -/
def fill (dataLen : ℕ) (text : String) : List UInt8 :=
  if text = "keepalive" then List.replicate dataLen 0
  else
    let str := (text.toUTF8.data.toList.takeWhile (· ≠ 0)).take (dataLen - 1)
    str ++ List.replicate (dataLen - str.length) 0

namespace State

variable (s : State T A H)

/-- `PubSubClient::ReadFrom`.  The use of a client that is not allocated is a fault. -/
def readFrom (h : H) (fails : Bool) : Option (String × State T A H) :=
  if s.client h ≠ .live then none
  else if fails then some ("", s)
  else
    (stream h s.server.log)[s.consumed h]?.map fun text =>
      (text, { s with consumed := Function.update s.consumed h (s.consumed h + 1) })

/-- `delete cur_client`. -/
def delete (h : H) : Option (State T A H) :=
  if s.client h = .live then some { s with client := Function.update s.client h .deleted }
  else none

def lock (t : T) (call : Call A H) : State T A H :=
  { s with connectMtx := some t, call := Function.update s.call t call }

def unlock (t : T) : State T A H :=
  { s with connectMtx := none, call := Function.update s.call t .idle }

/-- `g_reader_map.find`. -/
def find (reader : A) : Option H :=
  (s.readerMap.find? fun entry => entry.1 = reader).map Prod.snd

/-- `secSub` up to the first message. -/
def secSub (req : H → SubscribeRequest) (t : T) (topic : ℤ) (h : H) : Option (State T A H) :=
  if s.call t = .idle then
    if topic ≤ 0 ∨ allTopic < topic then some s
    else if s.connectMtx = none ∧ s.client h = .unborn ∧
        (req h).topic = BitVec.ofInt 32 topic then
      some { s.lock t (.subscribing h) with client := Function.update s.client h .live }
    else none
  else none

/-- The rest of `secSub`; `reader` is the address of the new reader. -/
def subscribed (t : T) (reader : A) (fails : Bool) : Option (State T A H) :=
  match s.call t with
  | .subscribing h =>
      (s.readFrom h fails).bind fun (text, s) =>
        if IsTopic text then
          if ∀ entry ∈ s.readerMap, entry.1 ≠ reader then
            some { s.unlock t with readerMap := s.readerMap ++ [(reader, h)] }
          else none
        else (s.delete h).map fun s => s.unlock t
  | _ => none

/-- `secReadFrom` up to the message. -/
def secReadFrom (t : T) (reader : A) (dataLen : ℤ) : Option (State T A H) :=
  if s.call t = .idle then
    if dataLen ≤ 1 then some s
    else if s.connectMtx = none then
      match s.find reader with
      | some h => some (s.lock t (.reading reader h dataLen.toNat))
      | none => some s
    else none
  else none

/-- The rest of `secReadFrom`. -/
def read (t : T) (fails : Bool) : Option (State T A H) :=
  match s.call t with
  | .reading _ h dataLen =>
      (s.readFrom h fails).map fun (text, s) =>
        if fails then s.unlock t
        else { s.unlock t with
          out := Function.update s.out h (s.out h ++ [(dataLen, fill dataLen text)]) }
  | _ => none

/-- `secUnsub` up to the call of `UnSubscribe`. -/
def secUnsub (t : T) (reader : A) : Option (State T A H) :=
  if s.call t = .idle ∧ s.connectMtx = none then
    match s.find reader with
    | some h => some (s.lock t (.unsubscribing reader h))
    | none => some s
  else none

/-- The rest of `secUnsub`; `served` says that the call has reached the server. -/
def unsubscribed (req : H → SubscribeRequest) (t : T) (served : Bool) : Option (State T A H) :=
  match s.call t with
  | .unsubscribing reader h =>
      (s.delete h).map fun s =>
        { s.unlock t with
          server := if served then (unSubscribe (req h).subName s.server).2.2 else s.server
          readerMap := s.readerMap.filter fun entry => entry.1 ≠ reader }
  | _ => none

/-- A step of the server; it serves no subscription that was not asked for. -/
def serverStep (req : H → SubscribeRequest) (a : PubSub.Action H) : Option (State T A H) :=
  match a with
  | .subscribe h sent =>
      if s.client h ≠ .unborn then
        (PubSub.step req s.server (.subscribe h sent)).map fun server => { s with server := server }
      else none
  | a => (PubSub.step req s.server a).map fun server => { s with server := server }

end State

def step (req : H → SubscribeRequest) (s : State T A H) : Action T A H → Option (State T A H)
  | .secSub t topic h => s.secSub req t topic h
  | .subscribed t reader fails => s.subscribed t reader fails
  | .secReadFrom t reader dataLen => s.secReadFrom t reader dataLen
  | .read t fails => s.read t fails
  | .secUnsub t reader => s.secUnsub t reader
  | .unsubscribed t served => s.unsubscribed req t served
  | .server a => s.serverStep req a

structure Initial (s : State T A H) : Prop where
  server : PubSub.Initial s.server
  readerMap : s.readerMap = []
  connectMtx : s.connectMtx = none
  call : ∀ t, s.call t = .idle
  client : ∀ h, s.client h = .unborn
  consumed : ∀ h, s.consumed h = 0
  out : ∀ h, s.out h = []

end SecDetector.Sdk
