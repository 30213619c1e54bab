import SecDetector.PubSub.Received
import SecDetector.Sdk.Handles

/-!
# What an application reads

What `secReadFrom` returns for a reader, read by read, are the texts that were published to its
subscription, in their order and none left out (`reads_published`).
-/

namespace SecDetector.Sdk

open Lib PubSub

variable {T A H : Type*} [DecidableEq T] [DecidableEq A] [DecidableEq H]
  {req : H → SubscribeRequest} {s s' : State T A H} {t : T} {h : H} {reader : A}

/-! ## What is read -/

/-- A buffer is filled from a text. -/
def Filled (buffer : ℕ × List UInt8) (text : String) : Prop :=
  buffer.2 = fill buffer.1 text

/-- What has been read of the streams. -/
structure ReadInv (req : H → SubscribeRequest) (s : State T A H) : Prop where
  streams : StreamInv req s.server
  unborn : ∀ h, s.client h = .unborn → s.server.handler h = .idle ∧ s.consumed h = 0
  subscribing : ∀ t h, s.call t = .subscribing h → s.consumed h = 0
  consumed_le : ∀ h, s.consumed h ≤ (stream h s.server.log).length
  answered : ∀ entry ∈ s.readerMap, 1 ≤ s.consumed entry.2 ∧
    ∃ first, (stream entry.2 s.server.log)[0]? = some first ∧ IsTopic first
  out : ∀ h, List.Forall₂ Filled (s.out h)
    (((stream h s.server.log).take (s.consumed h)).drop 1)

omit [DecidableEq T] [DecidableEq A] in
theorem Initial.readInv (hinit : Initial s) : ReadInv req s where
  streams := streamInv_of_initial hinit.server
  unborn h _ := ⟨hinit.server.handler h, hinit.consumed h⟩
  subscribing t h _ := hinit.consumed h
  consumed_le h := by simp [hinit.consumed]
  answered := by simp [hinit.readerMap]
  out h := by simp [hinit.consumed, hinit.out]

/-- A call that is not served yet stays so in a step of another one. -/
theorem handler_idle {r r' : PubSub.State H} {a : PubSub.Action H}
    (hstep : PubSub.step req r a = some r') (hidle : r.handler h = .idle)
    (hother : ∀ sent, a ≠ .subscribe h sent) : r'.handler h = .idle := by
  have hne : ∀ {h'}, r.handler h' ≠ .idle → h ≠ h' := by
    rintro h' hpc rfl
    exact hpc hidle
  cases PubSub.step_outcome hstep with
  | rejected h' | registered h' =>
      have hother' : h ≠ h' := by
        rintro rfl
        exact hother _ rfl
      exact (Function.update_of_ne hother' ..).trans hidle
  | killed h' hpc | alive h' hpc | gone h' _ hpc | kept h' hpc | lost h' _ hpc | woken h' hpc =>
      exact (Function.update_of_ne (hne (by simp [hpc])) ..).trans hidle
  | published | unknown | unsubscribed | closed => exact hidle

/-- The streams only grow. -/
theorem stream_grows {r r' : PubSub.State H} {a : PubSub.Action H}
    (hstep : PubSub.step req r a = some r') : stream h r.log <+: stream h r'.log := by
  have hlog : r.log <+: r'.log := by
    cases PubSub.step_outcome hstep with
    | rejected => exact ⟨_, (List.append_assoc _ _ _).symm⟩
    | alive | woken | closed => exact List.prefix_refl _
    | _ => exact List.prefix_append _ _
  exact hlog.filterMap _

omit [DecidableEq T] [DecidableEq A] in
/-- A step of the server. -/
theorem ReadInv.server (hinv : ReadInv req s) {a : PubSub.Action H} {server : PubSub.State H}
    (hserver : PubSub.step req s.server a = some server)
    (hclient : ∀ h sent, a = .subscribe h sent → s.client h ≠ .unborn) :
    ReadInv req { s with server := server } where
  streams := hinv.streams.step hserver
  unborn h hunborn := by
    obtain ⟨hidle, hconsumed⟩ := hinv.unborn h hunborn
    exact ⟨handler_idle hserver hidle fun sent heq => hclient h sent heq hunborn, hconsumed⟩
  subscribing := hinv.subscribing
  consumed_le h := (hinv.consumed_le h).trans (stream_grows hserver).length_le
  answered entry hentry := by
    obtain ⟨hle, first, hfirst, htopic⟩ := hinv.answered entry hentry
    obtain ⟨more, hmore⟩ := stream_grows (h := entry.2) hserver
    refine ⟨hle, first, ?_, htopic⟩
    dsimp only
    rw [← hmore, List.getElem?_append_left (List.getElem?_eq_some_iff.mp hfirst).1, hfirst]
  out h := by
    obtain ⟨more, hmore⟩ := stream_grows (h := h) hserver
    dsimp only
    rw [← hmore, List.take_append_of_le_length (hinv.consumed_le h)]
    exact hinv.out h

/-- One more text of a stream is read. -/
theorem drop_take_succ {texts : List String} {n : ℕ} {text : String}
    (hget : texts[n]? = some text) (hpos : 1 ≤ n) :
    (texts.take (n + 1)).drop 1 = (texts.take n).drop 1 ++ [text] := by
  have hlt := (List.getElem?_eq_some_iff.mp hget).1
  rw [List.take_add_one, hget, List.drop_append_of_le_length]
  · rfl
  · rw [List.length_take]
    omega

omit [DecidableEq T] [DecidableEq A] in
/-- A step that reads nothing and opens nothing. -/
theorem ReadInv.of_same (hinv : ReadInv req s) (hserver : s'.server = s.server)
    (hclient : ∀ h, s'.client h = .unborn → s.client h = .unborn)
    (hcall : ∀ t h, s'.call t = .subscribing h → s.consumed h = 0)
    (hmap : ∀ entry ∈ s'.readerMap, entry ∈ s.readerMap) (hconsumed : s'.consumed = s.consumed)
    (hout : s'.out = s.out) : ReadInv req s' where
  streams := hserver ▸ hinv.streams
  unborn h hunborn := by
    rw [hserver, hconsumed]
    exact hinv.unborn h (hclient h hunborn)
  subscribing t h hsub := by
    rw [hconsumed]
    exact hcall t h hsub
  consumed_le h := by
    rw [hserver, hconsumed]
    exact hinv.consumed_le h
  answered entry hentry := by
    rw [hserver, hconsumed]
    exact hinv.answered entry (hmap entry hentry)
  out h := by
    rw [hserver, hconsumed, hout]
    exact hinv.out h

omit [DecidableEq T] [DecidableEq A] in
/-- The end of a call that has read the stream of `h`. -/
theorem ReadInv.of_read (hinv : ReadInv req s) {n : ℕ} {out : List (ℕ × List UInt8)}
    (hserver : s'.server = s.server) (hidle : ∀ t, s'.call t = .idle)
    (hconsumed : s'.consumed = Function.update s.consumed h n)
    (hout : s'.out = Function.update s.out h out)
    (hn : n ≤ (stream h s.server.log).length)
    (hfilled : List.Forall₂ Filled out (((stream h s.server.log).take n).drop 1))
    (hclient : ∀ h', s'.client h' = .unborn → h' ≠ h ∧ s.client h' = .unborn)
    (hmap : ∀ entry ∈ s'.readerMap, entry.2 ≠ h ∧ entry ∈ s.readerMap ∨ entry.2 = h ∧ 1 ≤ n ∧
      ∃ first, (stream h s.server.log)[0]? = some first ∧ IsTopic first) : ReadInv req s' where
  streams := hserver ▸ hinv.streams
  unborn h' hunborn := by
    obtain ⟨hne, hold⟩ := hclient h' hunborn
    rw [hserver, hconsumed, Function.update_of_ne hne]
    exact hinv.unborn h' hold
  subscribing t h' hsub := by
    rw [hidle t] at hsub
    cases hsub
  consumed_le h' := by
    rw [hserver, hconsumed]
    by_cases hh : h' = h
    · subst hh
      rwa [Function.update_self]
    · rw [Function.update_of_ne hh]
      exact hinv.consumed_le h'
  answered entry hentry := by
    rw [hserver, hconsumed]
    rcases hmap entry hentry with ⟨hne, hold⟩ | ⟨rfl, hpos, hfirst⟩
    · rw [Function.update_of_ne hne]
      exact hinv.answered entry hold
    · rw [Function.update_self]
      exact ⟨hpos, hfirst⟩
  out h' := by
    rw [hserver, hconsumed, hout]
    by_cases hh : h' = h
    · subst hh
      rwa [Function.update_self, Function.update_self]
    · rw [Function.update_of_ne hh, Function.update_of_ne hh]
      exact hinv.out h'

omit [DecidableEq A] [DecidableEq H] in
/-- When a call ends, all are idle. -/
theorem Kept.idle_unlock {place : H → Place T} (hkept : Kept place s) (hcall : s.call t ≠ .idle)
    (t' : T) : Function.update s.call t .idle t' = .idle := by
  by_cases ht : t' = t
  · subst ht
    exact Function.update_self ..
  · rw [Function.update_of_ne ht]
    exact hkept.idle_of_ne hcall ht

omit [DecidableEq T] [DecidableEq A] [DecidableEq H] in
theorem Kept.ne_of_unborn {place : H → Place T} (hkept : Kept place s)
    (hclient : (s.call t).client? = some h) {h' : H} (hunborn : s.client h' = .unborn) :
    h' ≠ h := by
  rintro rfl
  rw [hkept.used hclient] at hunborn
  cases hunborn

theorem ReadInv.step {place : H → Place T} (hinv : ReadInv req s) (hkept : Kept place s)
    (heffect : Effect req s s') : ReadInv req s' := by
  cases heffect with
  | nothing => exact hinv
  | @subscribing t h hidle hmtx hclient =>
      refine hinv.of_same rfl (fun h' hunborn => ?_) (fun t' h' hsub => ?_) (fun _ hmem => hmem)
        rfl rfl
      · dsimp only at hunborn
        by_cases hh : h' = h
        · rw [hh, Function.update_self] at hunborn
          cases hunborn
        · rwa [Function.update_of_ne hh] at hunborn
      · dsimp only [State.lock] at hsub
        by_cases ht : t' = t
        · rw [ht, Function.update_self] at hsub
          obtain rfl := Call.subscribing.inj hsub
          exact (hinv.unborn h hclient).2
        · rw [Function.update_of_ne ht] at hsub
          exact hinv.subscribing t' h' hsub
  | @accepted t h reader text hcall hget htopic hnew =>
      have hne : s.call t ≠ .idle := by simp [hcall]
      have hzero := hinv.subscribing t h hcall
      have hheld : (s.call t).subscribing? = some h := by rw [hcall]; rfl
      rw [hzero] at hget
      have hlt := (List.getElem?_eq_some_iff.mp hget).1
      have hempty := hinv.out h
      rw [hzero, List.take_zero, List.drop_nil, List.forall₂_nil_right_iff] at hempty
      refine hinv.of_read rfl (hkept.idle_unlock hne) rfl (Function.update_eq_self h s.out).symm
        (by omega) ?_ (fun h' hunborn => ?_) fun entry hentry => ?_
      · rw [hzero, hempty, List.drop_eq_nil_of_le (by rw [List.length_take]; omega)]
        exact .nil
      · exact ⟨hkept.ne_of_unborn (by rw [hcall]; rfl) hunborn, hunborn⟩
      · rcases List.mem_append.mp hentry with hold | hlast
        · refine .inl ⟨fun heq => ?_, hold⟩
          exact hkept.custody.held_ne_shared hheld (heq ▸ List.mem_map_of_mem hold)
        · rw [List.mem_singleton.mp hlast]
          exact .inr ⟨rfl, by omega, text, hget, htopic⟩
  | @refused t h consumed hcall hlive hconsumed =>
      have hne : s.call t ≠ .idle := by simp [hcall]
      have hzero := hinv.subscribing t h hcall
      have hheld : (s.call t).subscribing? = some h := by rw [hcall]; rfl
      have hle : consumed ≤ 1 ∧ consumed ≤ (stream h s.server.log).length := by omega
      have hempty := hinv.out h
      rw [hzero, List.take_zero, List.drop_nil, List.forall₂_nil_right_iff] at hempty
      refine hinv.of_read rfl (hkept.idle_unlock hne) rfl (Function.update_eq_self h s.out).symm
        hle.2 ?_ (fun h' hunborn => ?_) fun entry hentry => ?_
      · rw [hempty, List.drop_eq_nil_of_le (by rw [List.length_take]; omega)]
        exact .nil
      · dsimp only at hunborn
        by_cases hh : h' = h
        · rw [hh, Function.update_self] at hunborn
          cases hunborn
        · rw [Function.update_of_ne hh] at hunborn
          exact ⟨hh, hunborn⟩
      · refine .inl ⟨fun heq => ?_, hentry⟩
        exact hkept.custody.held_ne_shared hheld (heq ▸ List.mem_map_of_mem hentry)
  | @waiting t reader h call hidle hmtx hmem hcall =>
      refine hinv.of_same rfl (fun _ h => h) (fun t' h' hsub => ?_) (fun _ hmem => hmem) rfl rfl
      dsimp only [State.lock] at hsub
      by_cases ht : t' = t
      · rw [ht, Function.update_self] at hsub
        rcases hcall with rfl | ⟨_, rfl⟩ <;> cases hsub
      · rw [Function.update_of_ne ht] at hsub
        exact hinv.subscribing t' h' hsub
  | @failed t reader h dataLen hcall =>
      refine hinv.of_same rfl (fun _ h => h) (fun t' h' hsub => ?_) (fun _ hmem => hmem) rfl rfl
      dsimp only [State.unlock] at hsub
      rw [hkept.idle_unlock (by simp [hcall])] at hsub
      cases hsub
  | @read t reader h dataLen text hcall hget =>
      have hne : s.call t ≠ .idle := by simp [hcall]
      have hmem : (reader, h) ∈ s.readerMap := hkept.entry t _ (by rw [hcall]; rfl)
      obtain ⟨hpos, hfirst⟩ := hinv.answered _ hmem
      have hlt := (List.getElem?_eq_some_iff.mp hget).1
      refine hinv.of_read rfl (hkept.idle_unlock hne) rfl rfl (by omega) ?_
        (fun h' hunborn => ?_) fun entry hentry => ?_
      · rw [drop_take_succ hget hpos]
        exact List.rel_append (hinv.out h) (.cons rfl .nil)
      · exact ⟨hkept.ne_of_unborn (by rw [hcall]; rfl) hunborn, hunborn⟩
      · by_cases hh : entry.2 = h
        · exact .inr ⟨hh, by omega, hfirst⟩
        · exact .inl ⟨hh, hentry⟩
  | @unsubscribed t reader h server hcall hlive hserver =>
      have hmid : ReadInv req { s with server := server } := by
        rcases hserver with rfl | ⟨a, hserver, hother⟩
        · exact hinv
        · exact hinv.server hserver fun h' sent heq => absurd heq (hother h' sent)
      refine hmid.of_same rfl (fun h' hunborn => ?_) (fun t' h' hsub => ?_)
        (fun _ hmem => List.mem_of_mem_filter hmem) rfl rfl
      · dsimp only at hunborn
        by_cases hh : h' = h
        · rw [hh, Function.update_self] at hunborn
          cases hunborn
        · rwa [Function.update_of_ne hh] at hunborn
      · dsimp only [State.unlock] at hsub
        rw [hkept.idle_unlock (by simp [hcall])] at hsub
        cases hsub
  | server hserver hclient => exact hinv.server hserver hclient

/-! ## All runs -/

/-- What an application reads is what was published. -/
structure ReadsPublished (req : H → SubscribeRequest) (s : State T A H) : Prop where
  /-- A client that has a reader was registered by the server. -/
  registered : ∀ entry ∈ s.readerMap, .registered entry.2 ∈ s.server.log
  /-- The buffers of `secReadFrom` are filled, one after the other, from the texts that the
  server has published to the stream, with keep-alives in between as empty buffers. -/
  reads : ∀ h, ∃ messages, List.Forall₂ Filled (s.out h) messages ∧
    messages.filter Shown <+: (texts h s.server.log).filter Shown
  /-- These were published while the client was subscribed, on its topics. -/
  published : ∀ h, (texts h s.server.log).Sublist (due req h s.server.log)

omit [DecidableEq T] [DecidableEq A] in
theorem ReadInv.registered (hinv : ReadInv req s) {entry : A × H} (hentry : entry ∈ s.readerMap) :
    .registered entry.2 ∈ s.server.log := by
  obtain ⟨_, first, hfirst, htopic⟩ := hinv.answered entry hentry
  rcases hinv.streams.cases entry.2 with haccepted | ⟨_, _, hnil | ⟨first', hone, hno⟩⟩
  · exact haccepted.1
  · rw [hnil] at hfirst
    cases hfirst
  · rw [hone] at hfirst
    obtain rfl := Option.some.inj hfirst
    exact absurd htopic hno

omit [DecidableEq T] [DecidableEq A] in
theorem ReadInv.reads (hinv : ReadInv req s) (h : H) :
    (((stream h s.server.log).take (s.consumed h)).drop 1).filter Shown <+:
      (texts h s.server.log).filter Shown := by
  have hprefix : ((stream h s.server.log).take (s.consumed h)).drop 1 <+:
      (stream h s.server.log).drop 1 := by
    rw [List.drop_take]
    exact List.take_prefix _ _
  rcases hinv.streams.cases h with ⟨_, first, rest, hstream, _, hrest⟩ | ⟨_, _, hstream⟩
  · rw [hstream] at hprefix ⊢
    rw [← hrest]
    exact hprefix.filter _
  · have hnil : (stream h s.server.log).drop 1 = [] := by
      rcases hstream with hnil | ⟨_, hone, _⟩
      · rw [hnil, List.drop_nil]
      · rw [hone, List.drop_one, List.tail_cons]
    rw [hnil] at hprefix
    rw [List.prefix_nil.mp hprefix]
    exact List.nil_prefix

/-- The server beside an application. -/
structure ApplicationInv (req : H → SubscribeRequest) (s : State T A H) : Prop where
  kept : ∃ place, Kept place s
  read : ReadInv req s
  received : ReceivedInv req s.server

/-- **What an application reads are the texts that were published to it**, for any number of
threads and every order of their calls and of the steps of the server. -/
theorem reads_published (hreach : Reachable (step req) Initial s) : ReadsPublished req s := by
  have hinv : ApplicationInv req s := by
    refine hreach.invariant (fun s hinit => ⟨⟨_, hinit.kept⟩, hinit.readInv,
      receivedInv_of_initial hinit.server⟩) fun s a t hinv hstep => ?_
    obtain ⟨⟨place, hkept⟩, hread, hreceived⟩ := hinv
    have heffect := effect_of_step hstep
    refine ⟨hkept.step heffect, hread.step hkept heffect, ?_⟩
    cases heffect with
    | unsubscribed _ _ hserver =>
        rcases hserver with rfl | ⟨a, hserver, _⟩
        · exact hreceived
        · exact hreceived.step hserver
    | server hserver => exact hreceived.step hserver
    | _ => exact hreceived
  exact ⟨fun entry hentry => hinv.read.registered hentry,
    fun h => ⟨_, hinv.read.out h, hinv.read.reads h⟩, hinv.received.received⟩

theorem read_published : ∃ s : State Bool ℕ Bool,
    s.out true = [(4, [104, 105, 0, 0]), (3, [121, 111, 0])] ∧ ReadsPublished twoClients s := by
  obtain ⟨s, hreach, _, _, hout⟩ := read_reachable
  exact ⟨s, hout, reads_published hreach⟩

end SecDetector.Sdk
