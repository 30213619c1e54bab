import SecDetector.Lib.Custody
import SecDetector.Sdk.Stream

/-!
# The handles of an application

For any number of threads of an application and every order of their calls and of the steps of
the server: a client is used as long as it is allocated and deleted once, two subscriptions have
different readers, and `g_connect_mtx` is held by the call that waits for the server and by no
other (`handles_safe`).
-/

namespace SecDetector.Sdk

open Lib PubSub

variable {T A H : Type*} [DecidableEq T] [DecidableEq A] [DecidableEq H]
  {req : H → SubscribeRequest} {s s' : State T A H} {t : T} {h : H} {reader : A}

/-! ## What a step can do -/

omit [DecidableEq T] [DecidableEq A] in
/-- A read of the stream. -/
theorem readFrom_cases {fails : Bool} {text : String}
    (hread : s.readFrom h fails = some (text, s')) :
    s.client h = .live ∧ ((fails = true ∧ text = "" ∧ s' = s) ∨
      (fails = false ∧ (stream h s.server.log)[s.consumed h]? = some text ∧
        s' = { s with consumed := Function.update s.consumed h (s.consumed h + 1) })) := by
  unfold State.readFrom at hread
  split at hread
  · cases hread
  · rename_i hlive
    refine ⟨not_not.mp hlive, ?_⟩
    split at hread
    · rename_i hfails
      obtain ⟨rfl, rfl⟩ := Prod.mk.inj (Option.some.inj hread)
      exact .inl ⟨hfails, rfl, rfl⟩
    · rename_i hfails
      obtain ⟨text', hget, heq⟩ := Option.map_eq_some_iff.mp hread
      obtain ⟨rfl, rfl⟩ := Prod.mk.inj heq
      exact .inr ⟨Bool.eq_false_iff.mpr hfails, hget, rfl⟩

omit [DecidableEq T] [DecidableEq A] in
theorem delete_cases (hdelete : s.delete h = some s') :
    s.client h = .live ∧ s' = { s with client := Function.update s.client h .deleted } := by
  unfold State.delete at hdelete
  split at hdelete
  · exact ⟨‹_›, (Option.some.inj hdelete).symm⟩
  · cases hdelete

omit [DecidableEq T] [DecidableEq H] in
/-- A reader that is found is in the map. -/
theorem mem_of_find (hfind : s.find reader = some h) : (reader, h) ∈ s.readerMap := by
  obtain ⟨entry, hentry, rfl⟩ := Option.map_eq_some_iff.mp hfind
  have hreader := List.find?_some hentry
  rw [decide_eq_true_eq] at hreader
  rw [← hreader]
  exact List.mem_of_find?_eq_some hentry

/-- The ways a step can go. -/
inductive Effect (req : H → SubscribeRequest) (s : State T A H) : State T A H → Prop
  | nothing : Effect req s s
  | subscribing {t : T} {h : H} (hidle : s.call t = .idle) (hmtx : s.connectMtx = none)
      (hclient : s.client h = .unborn) :
      Effect req s { s.lock t (.subscribing h) with
        client := Function.update s.client h .live }
  | accepted {t : T} {h : H} {reader : A} {text : String} (hcall : s.call t = .subscribing h)
      (hget : (stream h s.server.log)[s.consumed h]? = some text) (htopic : IsTopic text)
      (hnew : ∀ entry ∈ s.readerMap, entry.1 ≠ reader) :
      Effect req s { s.unlock t with
        consumed := Function.update s.consumed h (s.consumed h + 1)
        readerMap := s.readerMap ++ [(reader, h)] }
  | refused {t : T} {h : H} {consumed : ℕ} (hcall : s.call t = .subscribing h)
      (hlive : s.client h = .live)
      (hconsumed : consumed = s.consumed h ∨
        consumed = s.consumed h + 1 ∧ s.consumed h < (stream h s.server.log).length) :
      Effect req s { s.unlock t with
        consumed := Function.update s.consumed h consumed
        client := Function.update s.client h .deleted }
  | waiting {t : T} {reader : A} {h : H} {call : Call A H} (hidle : s.call t = .idle)
      (hmtx : s.connectMtx = none) (hmem : (reader, h) ∈ s.readerMap)
      (hcall : call = .unsubscribing reader h ∨ ∃ dataLen, call = .reading reader h dataLen) :
      Effect req s (s.lock t call)
  | failed {t : T} {reader : A} {h : H} {dataLen : ℕ}
      (hcall : s.call t = .reading reader h dataLen) :
      Effect req s (s.unlock t)
  | read {t : T} {reader : A} {h : H} {dataLen : ℕ} {text : String}
      (hcall : s.call t = .reading reader h dataLen)
      (hget : (stream h s.server.log)[s.consumed h]? = some text) :
      Effect req s { s.unlock t with
        consumed := Function.update s.consumed h (s.consumed h + 1)
        out := Function.update s.out h (s.out h ++ [(dataLen, fill dataLen text)]) }
  | unsubscribed {t : T} {reader : A} {h : H} {server : PubSub.State H}
      (hcall : s.call t = .unsubscribing reader h) (hlive : s.client h = .live)
      (hserver : server = s.server ∨ ∃ a, PubSub.step req s.server a = some server ∧
        ∀ h sent, a ≠ .subscribe h sent) :
      Effect req s { s.unlock t with
        client := Function.update s.client h .deleted
        server := server
        readerMap := s.readerMap.filter fun entry => entry.1 ≠ reader }
  | server {a : PubSub.Action H} {server : PubSub.State H}
      (hserver : PubSub.step req s.server a = some server)
      (hclient : ∀ h sent, a = .subscribe h sent → s.client h ≠ .unborn) :
      Effect req s { s with server := server }

theorem effect_of_step {a : Action T A H} (hstep : step req s a = some s') : Effect req s s' := by
  cases a with
  | secSub t topic h =>
      simp only [step, State.secSub] at hstep
      split at hstep
      · rename_i hidle
        split at hstep
        · exact Option.some.inj hstep ▸ .nothing
        · split at hstep
          · rename_i hguard
            exact Option.some.inj hstep ▸ .subscribing hidle hguard.1 hguard.2.1
          · cases hstep
      · cases hstep
  | subscribed t reader fails =>
      simp only [step, State.subscribed] at hstep
      split at hstep
      · rename_i h hcall
        obtain ⟨⟨text, s₁⟩, hread, hrest⟩ := Option.bind_eq_some_iff.mp hstep
        obtain ⟨hlive, ⟨_, rfl, rfl⟩ | ⟨_, hget, rfl⟩⟩ := readFrom_cases hread
        · have hempty : ¬ IsTopic "" := by decide
          dsimp only at hrest
          rw [if_neg hempty] at hrest
          obtain ⟨s₂, hdelete, rfl⟩ := Option.map_eq_some_iff.mp hrest
          obtain ⟨_, rfl⟩ := delete_cases hdelete
          have hrefused : Effect req s₁ _ := .refused hcall hlive (.inl rfl)
          rw [Function.update_eq_self] at hrefused
          exact hrefused
        · dsimp only at hrest
          split at hrest
          · rename_i htopic
            split at hrest
            · rename_i hnew
              exact Option.some.inj hrest ▸ .accepted hcall hget htopic hnew
            · cases hrest
          · obtain ⟨s₂, hdelete, rfl⟩ := Option.map_eq_some_iff.mp hrest
            obtain ⟨_, rfl⟩ := delete_cases hdelete
            exact .refused hcall hlive (.inr ⟨rfl, (List.getElem?_eq_some_iff.mp hget).1⟩)
      · cases hstep
  | secReadFrom t reader dataLen =>
      simp only [step, State.secReadFrom] at hstep
      split at hstep
      · rename_i hidle
        split at hstep
        · exact Option.some.inj hstep ▸ .nothing
        · split at hstep
          · rename_i hmtx
            split at hstep
            · rename_i h hfind
              exact Option.some.inj hstep ▸
                .waiting hidle hmtx (mem_of_find hfind) (.inr ⟨_, rfl⟩)
            · exact Option.some.inj hstep ▸ .nothing
          · cases hstep
      · cases hstep
  | read t fails =>
      simp only [step, State.read] at hstep
      split at hstep
      · rename_i reader h dataLen hcall
        obtain ⟨⟨text, s₁⟩, hread, rfl⟩ := Option.map_eq_some_iff.mp hstep
        obtain ⟨_, ⟨rfl, _, rfl⟩ | ⟨rfl, hget, rfl⟩⟩ := readFrom_cases hread
        · exact .failed hcall
        · exact .read hcall hget
      · cases hstep
  | secUnsub t reader =>
      simp only [step, State.secUnsub] at hstep
      split at hstep
      · rename_i hguard
        split at hstep
        · rename_i h hfind
          exact Option.some.inj hstep ▸
            .waiting hguard.1 hguard.2 (mem_of_find hfind) (.inl rfl)
        · exact Option.some.inj hstep ▸ .nothing
      · cases hstep
  | unsubscribed t served =>
      simp only [step, State.unsubscribed] at hstep
      split at hstep
      · rename_i reader h hcall
        obtain ⟨s₁, hdelete, rfl⟩ := Option.map_eq_some_iff.mp hstep
        obtain ⟨hlive, rfl⟩ := delete_cases hdelete
        refine .unsubscribed hcall hlive ?_
        cases served with
        | false => exact .inl rfl
        | true => exact .inr ⟨.unSubscribe (req h).subName, rfl, by simp⟩
      · cases hstep
  | server a =>
      cases a with
      | subscribe h sent =>
          simp only [step, State.serverStep] at hstep
          split at hstep
          · rename_i hclient
            obtain ⟨server, hserver, rfl⟩ := Option.map_eq_some_iff.mp hstep
            refine .server hserver fun h' sent' heq => ?_
            obtain ⟨rfl, rfl⟩ := PubSub.Action.subscribe.inj heq
            exact hclient
          · cases hstep
      | _ =>
          simp only [step, State.serverStep, Option.map_eq_some_iff] at hstep
          obtain ⟨server, hserver, rfl⟩ := hstep
          exact .server hserver (by simp)

/-! ## Clients and handles -/

/-- The client of a running `secSub`. -/
def Call.subscribing? : Call A H → Option H
  | .subscribing h => some h
  | _ => none

/-- The reader and the client that a running call has found. -/
def Call.read? : Call A H → Option (A × H)
  | .reading reader h _ | .unsubscribing reader h => some (reader, h)
  | _ => none

/-- The state of a client, by its place. -/
def clientAt : Place T → Client
  | .unused => .unborn
  | .held _ | .shared => .live
  | .gone => .deleted

/-- Every client is in a running `secSub`, in the map, or deleted. -/
structure Kept (place : H → Place T) (s : State T A H) : Prop where
  custody : Custody place (fun t => (s.call t).subscribing?) (s.readerMap.map Prod.snd)
  client : ∀ h, s.client h = clientAt (place h)
  keys : (s.readerMap.map Prod.fst).Nodup
  mutex : ∀ t, s.call t ≠ .idle ↔ s.connectMtx = some t
  entry : ∀ t entry, (s.call t).read? = some entry → entry ∈ s.readerMap

omit [DecidableEq T] [DecidableEq A] [DecidableEq H] in
theorem Initial.kept (hinit : Initial s) : Kept (fun _ => Place.unused) s where
  custody := by
    rw [hinit.readerMap]
    exact Custody.start fun t => by rw [hinit.call t]; rfl
  client := hinit.client
  keys := by simp [hinit.readerMap]
  mutex t := by simp [hinit.call, hinit.connectMtx]
  entry t entry hentry := by
    rw [hinit.call t] at hentry
    cases hentry

omit [DecidableEq A] [DecidableEq H] in
/-- What the calls hold when one of them moves. -/
theorem subscribing_update (call : Call A H) :
    (fun t' => (Function.update s.call t call t').subscribing?) =
      Function.update (fun t' => (s.call t').subscribing?) t call.subscribing? := by
  funext t'
  by_cases ht : t' = t
  · subst ht
    rw [Function.update_self, Function.update_self]
  · rw [Function.update_of_ne ht, Function.update_of_ne ht]

omit [DecidableEq T] [DecidableEq A] in
theorem clientAt_update {place : H → Place T} (hclient : ∀ h, s.client h = clientAt (place h))
    (p : Place T) (h' : H) :
    Function.update s.client h (clientAt p) h' = clientAt (Function.update place h p h') := by
  by_cases hh : h' = h
  · subst hh
    rw [Function.update_self, Function.update_self]
  · rw [Function.update_of_ne hh, Function.update_of_ne hh, hclient]

omit [DecidableEq A] [DecidableEq H] in
/-- The mutex is taken. -/
theorem mutex_lock {place : H → Place T} (hkept : Kept place s) (hmtx : s.connectMtx = none)
    {call : Call A H} (hcall : call ≠ .idle) (t' : T) :
    Function.update s.call t call t' ≠ .idle ↔ some t = some t' := by
  by_cases ht : t' = t
  · subst ht
    simp [hcall]
  · rw [Function.update_of_ne ht, hkept.mutex t', hmtx]
    simp [Ne.symm ht]

omit [DecidableEq A] [DecidableEq H] in
/-- The mutex is given back. -/
theorem mutex_unlock {place : H → Place T} (hkept : Kept place s) (hcall : s.call t ≠ .idle)
    (t' : T) : Function.update s.call t .idle t' ≠ .idle ↔ none = some t' := by
  by_cases ht : t' = t
  · subst ht
    simp
  · rw [Function.update_of_ne ht, hkept.mutex t', (hkept.mutex t).mp hcall]
    simp [Ne.symm ht]

omit [DecidableEq T] [DecidableEq A] [DecidableEq H] in
/-- Only the owner of the mutex is in a call. -/
theorem Kept.idle_of_ne {place : H → Place T} (hkept : Kept place s) (hcall : s.call t ≠ .idle)
    {t' : T} (hne : t' ≠ t) : s.call t' = .idle := by
  by_contra hcall'
  have hmtx := (hkept.mutex t').mp hcall'
  rw [(hkept.mutex t).mp hcall] at hmtx
  exact hne (Option.some.inj hmtx).symm

omit [DecidableEq A] [DecidableEq H] in
/-- After a call nobody has found an entry. -/
theorem Kept.entry_unlock {place : H → Place T} (hkept : Kept place s) (hcall : s.call t ≠ .idle)
    (t' : T) : (Function.update s.call t .idle t').read? = none := by
  by_cases ht : t' = t
  · subst ht
    rw [Function.update_self]
    rfl
  · rw [Function.update_of_ne ht, hkept.idle_of_ne hcall ht]
    rfl

omit [DecidableEq H] in
/-- Erasing a key takes out its entry. -/
theorem perm_filter_key {map : List (A × H)} (hkeys : (map.map Prod.fst).Nodup)
    (hmem : (reader, h) ∈ map) :
    map.Perm ((reader, h) :: map.filter fun entry => entry.1 ≠ reader) := by
  induction map with
  | nil => cases hmem
  | cons head map ih =>
      rw [List.map_cons, List.nodup_cons] at hkeys
      rcases List.mem_cons.mp hmem with rfl | hmem
      · have hrest : map.filter (fun entry => entry.1 ≠ reader) = map := by
          rw [List.filter_eq_self]
          intro entry hentry
          have hne : entry.1 ≠ reader := fun heq =>
            hkeys.1 (List.mem_map.mpr ⟨entry, hentry, heq⟩)
          exact decide_eq_true hne
        rw [List.filter_cons_of_neg (by simp), hrest]
      · have hne : head.1 ≠ reader := fun heq =>
          hkeys.1 (List.mem_map.mpr ⟨(reader, h), hmem, heq.symm⟩)
        rw [List.filter_cons_of_pos (by simpa using hne)]
        exact ((ih hkeys.2 hmem).cons head).trans (List.Perm.swap _ _ _)

omit [DecidableEq A] [DecidableEq H] in
/-- The end of a call that leaves the clients and the map alone. -/
theorem Kept.unlock {place : H → Place T} (hkept : Kept place s) (hcall : s.call t ≠ .idle)
    (hnone : (s.call t).subscribing? = none) : Kept place (s.unlock t) where
  custody := by
    dsimp only [State.unlock]
    have hsame : (Call.idle : Call A H).subscribing? = (s.call t).subscribing? := hnone.symm
    rw [subscribing_update, hsame, Function.update_eq_self]
    exact hkept.custody
  client := hkept.client
  keys := hkept.keys
  mutex := mutex_unlock hkept hcall
  entry t' entry hentry := by
    rw [State.unlock, hkept.entry_unlock hcall] at hentry
    cases hentry

theorem Kept.step {place : H → Place T} (hkept : Kept place s) (heffect : Effect req s s') :
    ∃ place', Kept place' s' := by
  have hcustody := hkept.custody
  cases heffect with
  | nothing => exact ⟨place, hkept⟩
  | @subscribing t h hidle hmtx hclient =>
      have hunused : place h = .unused := by
        have hplace := hkept.client h
        rw [hclient] at hplace
        cases hp : place h with
        | unused => rfl
        | held | shared | gone =>
            rw [hp] at hplace
            cases hplace
      have hnone : (s.call t).subscribing? = none := by rw [hidle]; rfl
      refine ⟨Function.update place h (.held t), ?_, fun h' => ?_, hkept.keys,
        mutex_lock hkept hmtx (by simp), fun t' entry hentry => ?_⟩
      · have hnext := hcustody.acquire hnone hunused
        dsimp only [State.lock]
        rw [subscribing_update]
        exact hnext
      · exact clientAt_update hkept.client (.held t) h'
      · dsimp only [State.lock] at hentry
        by_cases ht : t' = t
        · subst ht
          rw [Function.update_self] at hentry
          cases hentry
        · rw [Function.update_of_ne ht] at hentry
          exact hkept.entry t' entry hentry
  | @accepted t h reader text hcall hget htopic hnew =>
      have hne : s.call t ≠ .idle := by simp [hcall]
      have hheld : (s.call t).subscribing? = some h := by rw [hcall]; rfl
      have hplace := (hcustody.held_iff t h).mp hheld
      have hclient : ∀ h', s.client h' = clientAt (Function.update place h .shared h') := by
        intro h'
        by_cases hh : h' = h
        · subst hh
          rw [Function.update_self, hkept.client, hplace]
          rfl
        · rw [Function.update_of_ne hh, hkept.client]
      refine ⟨Function.update place h .shared, ?_, hclient, ?_, mutex_unlock hkept hne,
        fun t' entry hentry => ?_⟩
      · have hnext := hcustody.share hheld
        dsimp only [State.unlock]
        rw [subscribing_update, List.map_append]
        exact hnext
      · dsimp only
        rw [List.map_append, List.nodup_append]
        refine ⟨hkept.keys, List.nodup_singleton _, fun key hkey key' hkey' heq => ?_⟩
        obtain ⟨entry, hentry, rfl⟩ := List.mem_map.mp hkey
        rw [List.map_singleton, List.mem_singleton] at hkey'
        exact hnew entry hentry (heq.trans hkey')
      · rw [State.unlock, hkept.entry_unlock hne] at hentry
        cases hentry
  | @refused t h consumed hcall hlive hconsumed =>
      have hne : s.call t ≠ .idle := by simp [hcall]
      have hheld : (s.call t).subscribing? = some h := by rw [hcall]; rfl
      refine ⟨Function.update place h .gone, ?_, fun h' => ?_, hkept.keys,
        mutex_unlock hkept hne, fun t' entry hentry => ?_⟩
      · have hnext := hcustody.drop hheld
        dsimp only [State.unlock]
        rw [subscribing_update]
        exact hnext
      · exact clientAt_update hkept.client .gone h'
      · rw [State.unlock, hkept.entry_unlock hne] at hentry
        cases hentry
  | @waiting t reader h call hidle hmtx hmem hcall =>
      have hnone : call.subscribing? = (s.call t).subscribing? := by
        rw [hidle]
        rcases hcall with rfl | ⟨_, rfl⟩ <;> rfl
      have hne : call ≠ .idle := by rcases hcall with rfl | ⟨_, rfl⟩ <;> simp
      have hentry' : call.read? = some (reader, h) := by
        rcases hcall with rfl | ⟨_, rfl⟩ <;> rfl
      refine ⟨place, ?_, hkept.client, hkept.keys, mutex_lock hkept hmtx hne,
        fun t' entry hentry => ?_⟩
      · dsimp only [State.lock]
        rw [subscribing_update, hnone, Function.update_eq_self]
        exact hcustody
      · dsimp only [State.lock] at hentry
        by_cases ht : t' = t
        · subst ht
          rw [Function.update_self, hentry'] at hentry
          exact Option.some.inj hentry ▸ hmem
        · rw [Function.update_of_ne ht] at hentry
          exact hkept.entry t' entry hentry
  | @failed t reader h dataLen hcall =>
      exact ⟨place, hkept.unlock (by simp [hcall]) (by rw [hcall]; rfl)⟩
  | @read t reader h dataLen text hcall hget =>
      have hunlock : Kept place (s.unlock t) :=
        hkept.unlock (by simp [hcall]) (by rw [hcall]; rfl)
      exact ⟨place, hunlock.custody, hunlock.client, hunlock.keys, hunlock.mutex, hunlock.entry⟩
  | @unsubscribed t reader h server hcall hlive hserver =>
      have hne : s.call t ≠ .idle := by simp [hcall]
      have hmem : (reader, h) ∈ s.readerMap := hkept.entry t _ (by rw [hcall]; rfl)
      have hperm := perm_filter_key hkept.keys hmem
      have hnone : (Call.idle : Call A H).subscribing? = (s.call t).subscribing? := by
        rw [hcall]
        rfl
      refine ⟨Function.update place h .gone, ?_, fun h' => ?_, ?_, mutex_unlock hkept hne,
        fun t' entry hentry => ?_⟩
      · have hnext := (hcustody.perm (hperm.map Prod.snd)).discard
        dsimp only [State.unlock]
        rw [subscribing_update, hnone, Function.update_eq_self]
        exact hnext
      · exact clientAt_update hkept.client .gone h'
      · exact hkept.keys.sublist (List.filter_sublist.map Prod.fst)
      · rw [State.unlock, hkept.entry_unlock hne] at hentry
        cases hentry
  | server hserver hclient =>
      exact ⟨place, hcustody, hkept.client, hkept.keys, hkept.mutex, hkept.entry⟩

/-- The client that a call works with. -/
def Call.client? : Call A H → Option H
  | .idle => none
  | .subscribing h | .reading _ h _ | .unsubscribing _ h => some h

/-- What holds of the clients and of the mutex in every reachable state. -/
structure Safe (req : H → SubscribeRequest) (s : State T A H) : Prop where
  /-- A client that a call works with is allocated. -/
  used : ∀ t h, (s.call t).client? = some h → s.client h = .live
  /-- The allocated clients are those that have a reader, and that of a running `secSub`. -/
  clients : ∀ h, s.client h = .live ↔
    (∃ reader, (reader, h) ∈ s.readerMap) ∨ ∃ t, s.call t = .subscribing h
  /-- No two subscriptions have the same reader, or the same client. -/
  handles : (s.readerMap.map Prod.fst).Nodup ∧ (s.readerMap.map Prod.snd).Nodup
  /-- The mutex is held by the call that waits for the server, and by no other. -/
  mutex : ∀ t, s.call t ≠ .idle ↔ s.connectMtx = some t
  /-- When the connection is lost, the call that waits comes to its end. -/
  ends : ∀ (t : T) (_ : A), s.call t ≠ .idle → ∃ a s', step req s a = some s' ∧ s'.call t = .idle

omit [DecidableEq T] [DecidableEq A] [DecidableEq H] in
theorem Kept.used {place : H → Place T} (hkept : Kept place s)
    (hclient : (s.call t).client? = some h) : s.client h = .live := by
  have hshared : ∀ reader, (reader, h) ∈ s.readerMap → s.client h = .live := by
    intro reader hmem
    rw [hkept.client, (hkept.custody.shared_iff h).mp (List.mem_map_of_mem hmem)]
    rfl
  cases hcall : s.call t with
  | idle => simp [hcall, Call.client?] at hclient
  | subscribing h' =>
      rw [hcall] at hclient
      obtain rfl := Option.some.inj hclient
      rw [hkept.client, (hkept.custody.held_iff t h').mp (by rw [hcall]; rfl)]
      rfl
  | reading reader h' dataLen =>
      rw [hcall] at hclient
      obtain rfl := Option.some.inj hclient
      exact hshared reader (hkept.entry t _ (by rw [hcall]; rfl))
  | unsubscribing reader h' =>
      rw [hcall] at hclient
      obtain rfl := Option.some.inj hclient
      exact hshared reader (hkept.entry t _ (by rw [hcall]; rfl))

omit [DecidableEq T] [DecidableEq A] [DecidableEq H] in
theorem Kept.clients {place : H → Place T} (hkept : Kept place s) (h : H) :
    s.client h = .live ↔
      (∃ reader, (reader, h) ∈ s.readerMap) ∨ ∃ t, s.call t = .subscribing h := by
  have hshared := hkept.custody.shared_iff h
  rw [List.mem_map] at hshared
  constructor
  · intro hlive
    rw [hkept.client] at hlive
    cases hp : place h with
    | unused | gone =>
        rw [hp] at hlive
        cases hlive
    | held t =>
        refine .inr ⟨t, ?_⟩
        have hheld := (hkept.custody.held_iff t h).mpr hp
        cases hcall : s.call t with
        | subscribing h' =>
            rw [hcall] at hheld
            rw [Option.some.inj hheld]
        | _ =>
            rw [hcall] at hheld
            cases hheld
    | shared =>
        obtain ⟨⟨reader, h'⟩, hmem, rfl⟩ := hshared.mpr hp
        exact .inl ⟨reader, hmem⟩
  · rintro (⟨reader, hmem⟩ | ⟨t, hcall⟩)
    · rw [hkept.client, hshared.mp ⟨_, hmem, rfl⟩]
      rfl
    · exact hkept.used (t := t) (by rw [hcall]; rfl)

/-- A call ends when its read fails. -/
theorem Kept.ends {place : H → Place T} (hkept : Kept place s) (reader : A)
    (hcall : s.call t ≠ .idle) : ∃ a s', Sdk.step req s a = some s' ∧ s'.call t = .idle := by
  have hused : ∀ {h}, (s.call t).client? = some h → s.client h = .live := fun hclient =>
    hkept.used hclient
  cases hpc : s.call t with
  | idle => exact absurd hpc hcall
  | subscribing h =>
      have hlive : s.client h = .live := hused (by rw [hpc]; rfl)
      have hempty : ¬ IsTopic "" := by decide
      refine ⟨.subscribed t reader true, { s.unlock t with
        client := Function.update s.client h .deleted }, ?_, Function.update_self ..⟩
      simp [Sdk.step, State.subscribed, hpc, State.readFrom, hlive, hempty, State.delete,
        State.unlock]
  | reading reader' h dataLen =>
      have hlive : s.client h = .live := hused (by rw [hpc]; rfl)
      refine ⟨.read t true, s.unlock t, ?_, Function.update_self ..⟩
      simp [Sdk.step, State.read, hpc, State.readFrom, hlive]
  | unsubscribing reader' h =>
      have hlive : s.client h = .live := hused (by rw [hpc]; rfl)
      refine ⟨.unsubscribed t false, { s.unlock t with
        client := Function.update s.client h .deleted
        readerMap := s.readerMap.filter fun entry => entry.1 ≠ reader' }, ?_,
        Function.update_self ..⟩
      simp [Sdk.step, State.unsubscribed, hpc, State.delete, hlive, State.unlock]

theorem kept_of_reachable (hreach : Reachable (step req) Initial s) :
    ∃ place, Kept place s := by
  obtain ⟨acts, hrun⟩ := hreach
  induction hrun with
  | start hinit => exact ⟨_, hinit.kept⟩
  | next _ _ hstep ih =>
      obtain ⟨place, hkept⟩ := ih
      exact hkept.step (effect_of_step hstep)

/-- **The subscriptions of an application are handled safely**, for any number of threads, every
order of their calls and every behaviour of the server. -/
theorem handles_safe (hreach : Reachable (step req) Initial s) : Safe req s := by
  obtain ⟨place, hkept⟩ := kept_of_reachable hreach
  exact ⟨fun t h hclient => hkept.used hclient, hkept.clients,
    ⟨hkept.keys, hkept.custody.nodup⟩, hkept.mutex, fun t reader hcall => hkept.ends reader hcall⟩

/-! ## Two threads -/

/-- An application with two threads, before its first call. -/
def freshApplication : State Bool ℕ Bool where
  server := freshServer
  readerMap := []
  connectMtx := none
  call _ := .idle
  client _ := .unborn
  consumed _ := 0
  out _ := []

theorem freshApplication_initial : Initial freshApplication where
  server := freshServer_initial
  readerMap := rfl
  connectMtx := rfl
  call _ := rfl
  client _ := rfl
  consumed _ := rfl
  out _ := rfl

/-- Each thread subscribes, a text is published to both, and one thread reads it into a buffer of
four bytes.  The other one gives its own subscription up and reads the next text from the reader
of the first, which then waits for another one. -/
def readActions : List (Action Bool ℕ Bool) :=
  [.secSub false 1 false, .server (.subscribe false true), .subscribed false 4096 false,
    .secSub true 1 true, .server (.subscribe true true), .subscribed true 8192 false,
    .server (.publish 1 "hi" [⟨"first", ⟨1, false⟩⟩, ⟨"second", ⟨1, true⟩⟩] fun _ => true),
    .secReadFrom true 8192 4, .read true false, .secUnsub false 4096, .unsubscribed false true,
    .server (.publish 1 "you" [⟨"second", ⟨1, true⟩⟩] fun _ => true),
    .secReadFrom false 8192 3, .read false false, .secReadFrom true 8192 4]

theorem read_reachable : ∃ s : State Bool ℕ Bool, Reachable (step twoClients) Initial s ∧
    s.readerMap = [(8192, true)] ∧ s.connectMtx = some true ∧
    s.out true = [(4, [104, 105, 0, 0]), (3, [121, 111, 0])] := by
  have hend : (exec (step twoClients) freshApplication readActions).map
      (fun s => (s.readerMap, s.connectMtx, s.out true)) =
        some ([(8192, true)], some true, [(4, [104, 105, 0, 0]), (3, [121, 111, 0])]) := by
    decide +kernel
  obtain ⟨s, hexec, hs⟩ := Option.map_eq_some_iff.mp hend
  simp only [Prod.mk.injEq] at hs
  obtain ⟨hmap, hmutex, hout⟩ := hs
  exact ⟨s, ⟨_, .of_exec freshApplication_initial (fun _ _ _ => trivial) hexec⟩, hmap, hmutex, hout⟩

theorem read_safe : ∃ s : State Bool ℕ Bool, s.readerMap = [(8192, true)] ∧
    s.connectMtx = some true ∧ Safe twoClients s := by
  obtain ⟨s, hreach, hmap, hmutex, _⟩ := read_reachable
  exact ⟨s, hmap, hmutex, handles_safe hreach⟩

end SecDetector.Sdk
