import SecDetector.Lib.Run
import SecDetector.PubSub.Server

/-!
# What a step of the server does

`Outcome` lists the ways a step can go, with everything that it changes.  The registry
invariant ties the map to the log: an entry belongs to the call that asked for it
under this name, and the calls that are subscribed according to the log are the
ones in the map.
-/

namespace SecDetector.PubSub

open Lib

variable {H : Type*} [DecidableEq H] {req : H → SubscribeRequest} {s s' : State H} {h : H}

/-! ## Outcomes -/

/-- The ways a step can go. -/
inductive Outcome (req : H → SubscribeRequest) (s : State H) : Action H → State H → Prop
  /-- A subscription is turned down. -/
  | rejected (h : H) (sent reported : Bool) (text : String) (status : Status)
      (hpc : s.handler h = .idle) :
      Outcome req s (.subscribe h sent)
        ((s.record [.wrote h .subscribe text reported]).return h status)
  | registered (h : H) (text : String) (hpc : s.handler h = .idle)
      (hnum : s.connectionNum < maxConnection) (hname : (req h).subName ∉ s.suberTopic) :
      Outcome req s (.subscribe h true)
        { s with
          suberTopic := s.suberTopic.insert (req h).subName ⟨(req h).topic, h⟩
          connectionNum := s.connectionNum + 1
          handler := Function.update s.handler h .loop
          log := s.log ++ [.wrote h .subscribe text true, .registered h] }
  | killed (h : H) (hpc : s.handler h = .loop) (hkilled : s.killed = true) :
      Outcome req s (.testKilled h) (s.return h .ok)
  | alive (h : H) (hpc : s.handler h = .loop) (hkilled : s.killed = false) :
      Outcome req s (.testKilled h) (s.setHandler h .keepalive)
  | gone (h : H) (sent : Bool) (hpc : s.handler h = .keepalive)
      (hname : (req h).subName ∉ s.suberTopic) :
      Outcome req s (.keepalive h sent) (s.return h .ok)
  | kept (h : H) (hpc : s.handler h = .keepalive) (hname : (req h).subName ∈ s.suberTopic) :
      Outcome req s (.keepalive h true)
        ((s.record [.wrote h .keepalive "keepalive" true]).setHandler h .waiting)
  | lost (h : H) (sub : Subscribers H) (hpc : s.handler h = .keepalive)
      (hlookup : s.suberTopic.lookup (req h).subName = some sub) :
      Outcome req s (.keepalive h false)
        { s with
          suberTopic := s.suberTopic.erase (req h).subName
          connectionNum := s.connectionNum - 1
          handler := Function.update s.handler h (.returned (.internal "writer is lose!"))
          log := s.log ++ [.wrote h .keepalive "keepalive" false, .removed sub.writer,
            .returned h] }
  | woken (h : H) (hpc : s.handler h = .waiting) :
      Outcome req s (.wake h) (s.setHandler h .loop)
  | published (topic : BitVec 32) (data : String) (entries : List (Entry H)) (sent : H → Bool)
      (hperm : entries.Perm s.suberTopic.entries) :
      Outcome req s (.publish topic data entries sent)
        (s.record (.published topic data :: (publishLoop topic data sent entries).2))
  | unknown (name : String) (hname : s.connectionNum ≤ 0 ∨ name ∉ s.suberTopic) :
      Outcome req s (.unSubscribe name) (s.record [.unsubscribed name])
  | unsubscribed (name : String) (sub : Subscribers H)
      (hlookup : s.suberTopic.lookup name = some sub) :
      Outcome req s (.unSubscribe name)
        { s with
          suberTopic := s.suberTopic.erase name
          connectionNum := s.connectionNum - 1
          log := s.log ++ [.unsubscribed name, .removed sub.writer] }
  | closed : Outcome req s .closeAllConnection { s with killed := true }

omit [DecidableEq H] in
theorem exists_lookup {map : AList fun _ : String => Subscribers H} {name : String}
    (hname : name ∈ map) : ∃ sub, map.lookup name = some sub := by
  rw [← Option.isSome_iff_exists]
  exact AList.lookup_isSome.mpr hname

/-- **Every step has one of the outcomes.** -/
theorem step_outcome {a : Action H} (hstep : step req s a = some s') : Outcome req s a s' := by
  cases a with
  | subscribe h sent =>
      simp only [step] at hstep
      split at hstep
      · rename_i hpc
        obtain rfl := Option.some.inj hstep
        unfold subscribe
        split
        · exact .rejected h sent sent _ _ hpc
        · rename_i hnum
          split
          · exact .rejected h sent sent _ _ hpc
          · rename_i hname
            -- the entry stays only if the first write reaches the client
            cases sent with
            | true => exact .registered h _ hpc (Int.not_le.mp hnum) hname
            | false => exact .rejected h false false _ _ hpc
      · simp at hstep
  | testKilled h =>
      simp only [step] at hstep
      split at hstep
      · rename_i hpc
        obtain rfl := Option.some.inj hstep
        cases hkilled : s.killed with
        | true => exact .killed h hpc hkilled
        | false => exact .alive h hpc hkilled
      · simp at hstep
  | keepalive h sent =>
      simp only [step] at hstep
      split at hstep
      · rename_i hpc
        obtain rfl := Option.some.inj hstep
        unfold keepalive
        split
        · rename_i hname
          exact .gone h sent hpc hname
        · rename_i hname
          rw [not_not] at hname
          cases sent with
          | true => exact .kept h hpc hname
          | false =>
              -- the entry deleted here is the one found by name, whoever its writer is
              obtain ⟨sub, hlookup⟩ := exists_lookup hname
              have hlost : Outcome req s _ _ := .lost h sub hpc hlookup
              simpa [deleteSubscriberByCliName, State.record, State.return, State.setHandler,
                hlookup] using hlost
      · simp at hstep
  | wake h =>
      simp only [step] at hstep
      split at hstep
      · rename_i hpc
        obtain rfl := Option.some.inj hstep
        exact .woken h hpc
      · simp at hstep
  | publish topic data entries sent =>
      simp only [step] at hstep
      split at hstep
      · rename_i hperm
        obtain rfl := Option.some.inj hstep
        exact .published topic data entries sent hperm
      · simp at hstep
  | unSubscribe name =>
      obtain rfl := Option.some.inj hstep
      unfold unSubscribe
      dsimp only
      split
      · rename_i hnum
        exact .unknown name (.inl hnum)
      · cases hlookup : s.suberTopic.lookup name with
        | none =>
            have hname := AList.lookup_eq_none.mp hlookup
            have hunknown : Outcome req s _ _ := .unknown name (.inr hname)
            simpa [deleteSubscriberByCliName, State.record, hlookup] using hunknown
        | some sub =>
            have hdone : Outcome req s _ _ := .unsubscribed name sub hlookup
            simpa [deleteSubscriberByCliName, State.record, hlookup] using hdone
  | closeAllConnection =>
      obtain rfl := Option.some.inj hstep
      exact .closed

/-! ## The registry invariant -/

/-- Whether a call is subscribed after an event. -/
def Event.after (h : H) (before : Bool) : Event H → Bool
  | .registered h' => if h' = h then true else before
  | .removed h' => if h' = h then false else before
  | _ => before

/-- Whether a call is subscribed, according to the log. -/
def subscribed (h : H) (log : List (Event H)) : Bool :=
  log.foldl (Event.after h) false

theorem subscribed_append (log events : List (Event H)) :
    subscribed h (log ++ events) = events.foldl (Event.after h) (subscribed h log) :=
  List.foldl_append

/-- The entry that the call `h` stores under its name. -/
def ownEntry (req : H → SubscribeRequest) (h : H) : Subscribers H :=
  ⟨(req h).topic, h⟩

/-- The map agrees with the requests and with the log. -/
structure RegistryInv (req : H → SubscribeRequest) (s : State H) : Prop where
  entry : ∀ name sub, s.suberTopic.lookup name = some sub →
    (req sub.writer).subName = name ∧ sub = ownEntry req sub.writer
  subscribed_iff : ∀ h, subscribed h s.log = true ↔
    s.suberTopic.lookup (req h).subName = some (ownEntry req h)

theorem Initial.registryInv (hinit : Initial s) : RegistryInv req s where
  entry name sub hlookup := by simp [hinit.suberTopic] at hlookup
  subscribed_iff h := by simp [hinit.suberTopic, hinit.log, subscribed]

/-- A step that leaves the map and the subscriptions alone. -/
theorem RegistryInv.of_same (hinv : RegistryInv req s) (hmap : s'.suberTopic = s.suberTopic)
    (hlog : ∀ h, subscribed h s'.log = subscribed h s.log) : RegistryInv req s' where
  entry := by
    rw [hmap]
    exact hinv.entry
  subscribed_iff h := by
    rw [hmap, hlog]
    exact hinv.subscribed_iff h

/-- A registration under a free name. -/
theorem RegistryInv.insert (hinv : RegistryInv req s) (hname : (req h).subName ∉ s.suberTopic)
    (hmap : s'.suberTopic = s.suberTopic.insert (req h).subName (ownEntry req h))
    (hlog : ∀ h', subscribed h' s'.log = if h = h' then true else subscribed h' s.log) :
    RegistryInv req s' where
  entry name sub hlookup := by
    rw [hmap] at hlookup
    by_cases hn : name = (req h).subName
    · rw [hn, AList.lookup_insert, Option.some.injEq] at hlookup
      subst hlookup
      exact ⟨hn.symm, rfl⟩
    · rw [AList.lookup_insert_ne hn] at hlookup
      exact hinv.entry name sub hlookup
  subscribed_iff h' := by
    rw [hmap, hlog]
    by_cases hh : h = h'
    · subst hh
      simp [AList.lookup_insert]
    · rw [if_neg hh, hinv.subscribed_iff]
      by_cases hn : (req h').subName = (req h).subName
      · -- the name was free, so `h'` was not subscribed; and it is not now
        rw [hn, AList.lookup_insert, AList.lookup_eq_none.mpr hname]
        simp [ownEntry, hh]
      · rw [AList.lookup_insert_ne hn]

omit [DecidableEq H] in
/-- What is found after an erasure was there before, under another name. -/
theorem lookup_of_erase {map : AList fun _ : String => Subscribers H} {name name' : String}
    {sub : Subscribers H} (hlookup : (map.erase name).lookup name' = some sub) :
    name' ≠ name ∧ map.lookup name' = some sub := by
  by_cases hn : name' = name
  · rw [hn, AList.lookup_erase] at hlookup
    simp at hlookup
  · rw [AList.lookup_erase_ne hn] at hlookup
    exact ⟨hn, hlookup⟩

/-- An entry under another name is of another call. -/
theorem RegistryInv.writer_ne (hinv : RegistryInv req s) {name : String} {sub : Subscribers H}
    (hlookup : s.suberTopic.lookup name = some sub) (hname : name ≠ (req h).subName) :
    sub.writer ≠ h := by
  intro heq
  apply hname
  rw [← heq]
  exact (hinv.entry name sub hlookup).1.symm

/-- The removal of an entry. -/
theorem RegistryInv.erase (hinv : RegistryInv req s) {name : String} {sub : Subscribers H}
    (hlookup : s.suberTopic.lookup name = some sub)
    (hmap : s'.suberTopic = s.suberTopic.erase name)
    (hlog : ∀ h', subscribed h' s'.log =
      if sub.writer = h' then false else subscribed h' s.log) : RegistryInv req s' where
  entry name' sub' hlookup' := by
    rw [hmap] at hlookup'
    exact hinv.entry name' sub' (lookup_of_erase hlookup').2
  subscribed_iff h' := by
    obtain ⟨hname, hsub⟩ := hinv.entry name sub hlookup
    rw [hmap, hlog]
    by_cases hh : sub.writer = h'
    · subst hh
      rw [hname, AList.lookup_erase]
      simp
    · rw [if_neg hh, hinv.subscribed_iff]
      by_cases hn : (req h').subName = name
      · -- the entry under this name was of another call
        rw [hn, AList.lookup_erase, hlookup]
        simp only [Option.some.injEq, reduceCtorEq, iff_false]
        intro heq
        exact hh (congrArg Subscribers.writer heq)
      · rw [AList.lookup_erase_ne hn]

omit [DecidableEq H] in
/-- What `Publish` writes. -/
theorem mem_publishLoop {topic : BitVec 32} {data : String} {sent : H → Bool} {e : Event H}
    {entries : List (Entry H)} (hmem : e ∈ (publishLoop topic data sent entries).2) :
    ∃ entry ∈ entries, entry.2.topic &&& topic ≠ 0 ∧
      e = .wrote entry.2.writer .publish data (sent entry.2.writer) := by
  induction entries with
  | nil => simp [publishLoop] at hmem
  | cons head entries ih =>
      obtain ⟨name, sub⟩ := head
      have hlater : e ∈ (publishLoop topic data sent entries).2 →
          ∃ entry ∈ (⟨name, sub⟩ :: entries : List (Entry H)), entry.2.topic &&& topic ≠ 0 ∧
            e = .wrote entry.2.writer .publish data (sent entry.2.writer) := by
        intro hrest
        obtain ⟨entry, hentry, htail⟩ := ih hrest
        exact ⟨entry, List.mem_cons_of_mem _ hentry, htail⟩
      unfold publishLoop at hmem
      split at hmem
      · rename_i htopic
        split at hmem
        · rename_i hsent
          rcases List.mem_cons.mp hmem with rfl | hmem
          · exact ⟨⟨name, sub⟩, List.mem_cons_self, htopic, by rw [hsent]⟩
          · exact hlater hmem
        · -- the loop ends with the write that failed
          rename_i hsent
          rw [List.mem_singleton] at hmem
          refine ⟨⟨name, sub⟩, List.mem_cons_self, htopic, ?_⟩
          rw [hmem, Bool.not_eq_true _ |>.mp hsent]
      · exact hlater hmem

/-- Writes do not change who is subscribed. -/
theorem foldl_after_of_wrote {events : List (Event H)} {b : Bool}
    (hevents : ∀ e ∈ events, ∃ h' source text sent, e = .wrote h' source text sent) :
    events.foldl (Event.after h) b = b := by
  induction events with
  | nil => rfl
  | cons e events ih =>
      rw [List.forall_mem_cons] at hevents
      obtain ⟨⟨h', source, text, sent, rfl⟩, hrest⟩ := hevents
      rw [List.foldl_cons]
      exact ih hrest

theorem RegistryInv.step {a : Action H} (hinv : RegistryInv req s)
    (hstep : step req s a = some s') : RegistryInv req s' := by
  have houtcome := step_outcome hstep
  cases houtcome with
  | rejected h sent reported text status hpc =>
      refine hinv.of_same rfl fun h' => ?_
      simp [State.return, State.record, State.setHandler, subscribed_append, Event.after]
  | registered h text hpc hnum hname =>
      refine hinv.insert hname rfl fun h' => ?_
      simp [subscribed_append, Event.after]
  | killed h hpc hkilled | gone h sent hpc hname =>
      refine hinv.of_same rfl fun h' => ?_
      simp [State.return, State.record, State.setHandler, subscribed_append, Event.after]
  | alive h hpc hkilled | woken h hpc | closed => exact hinv.of_same rfl fun _ => rfl
  | kept h hpc hname =>
      refine hinv.of_same rfl fun h' => ?_
      simp [State.record, State.setHandler, subscribed_append, Event.after]
  | lost h sub hpc hlookup =>
      refine hinv.erase hlookup rfl fun h' => ?_
      simp [subscribed_append, Event.after]
  | published topic data entries sent hperm =>
      -- a failing write ends the fan-out but removes no entry
      refine hinv.of_same rfl fun h' => ?_
      rw [State.record, subscribed_append, List.foldl_cons]
      refine foldl_after_of_wrote fun e he => ?_
      obtain ⟨entry, _, _, rfl⟩ := mem_publishLoop he
      exact ⟨_, _, _, _, rfl⟩
  | unknown name hname =>
      refine hinv.of_same rfl fun h' => ?_
      simp [State.record, subscribed_append, Event.after]
  | unsubscribed name sub hlookup =>
      refine hinv.erase hlookup rfl fun h' => ?_
      simp [subscribed_append, Event.after]

end SecDetector.PubSub
