import SecDetector.PubSub.Shutdown

/-!
# The end of a subscription

A subscription should end through an `UnSubscribe` for its name or through its own
stream, and a call whose entry is gone should return when it wakes up.  A call knows
its entry by the client name only.  A name that is unsubscribed and subscribed again
while the old call sleeps in `WaitKeeplive` therefore leads the old call to the entry of
the new one: it goes on writing, and when its write fails it erases that entry.

`subscriptions_kept_iff` says that nothing else goes wrong.
-/

namespace SecDetector.PubSub

open Lib

variable {H : Type*} [DecidableEq H] {req : H → SubscribeRequest} {s s' : State H} {h : H}

/-- The entry of the call is in the map. -/
def HasEntry (req : H → SubscribeRequest) (s : State H) (h : H) : Prop :=
  s.suberTopic.lookup (req h).subName = some (ownEntry req h)

/-! ## The property -/

/-- No stream is written to after its entry was removed. -/
def Quiet (log : List (Event H)) : Prop :=
  log.Pairwise fun e e' => ∀ h source text sent, e = .removed h → e' ≠ .wrote h source text sent

/-- A registered entry stays until an `UnSubscribe` for its name or a failed keepalive on
its own writer. -/
def EntriesKept (req : H → SubscribeRequest) (s : State H) : Prop :=
  ∀ h pre post, s.log = pre ++ .registered h :: post →
    HasEntry req s h ∨ .unsubscribed (req h).subName ∈ post ∨
      ∃ text, .wrote h .keepalive text false ∈ post

/-- After the step, subscriptions have ended only through their own `UnSubscribe` or
stream; and if the step is the keepalive section of a call whose entry was removed, then
the call has returned. -/
def SubscriptionsKept (req : H → SubscribeRequest) (s : State H) (a : Action H) : Prop :=
  ∀ t, step req s a = some t → EntriesKept req t ∧ Quiet t.log ∧
    ∀ h sent, a = .keepalive h sent → .removed h ∈ s.log → ∃ status, t.handler h = .returned status

/-- Every keepalive section finds its own entry or none. -/
def FindsOwnEntry (req : H → SubscribeRequest) (s : State H) : Action H → Prop
  | .keepalive h _ => ∀ sub, s.suberTopic.lookup (req h).subName = some sub → sub.writer = h
  | _ => True

/-! ## Calls and their entries -/

/-- Where the calls are, and whose entries are gone. -/
structure HandlerInv (req : H → SubscribeRequest) (s : State H) : Prop where
  registry : RegistryInv req s
  entered : ∀ h, s.handler h = .idle → .removed h ∉ s.log ∧ ¬ HasEntry req s h
  removed : ∀ h, .removed h ∈ s.log → ¬ HasEntry req s h
  running : ∀ h, (s.handler h).running = true → HasEntry req s h ∨ .removed h ∈ s.log

theorem Initial.handlerInv (hinit : Initial s) : HandlerInv req s where
  registry := hinit.registryInv
  entered h _ := by simp [hinit.log, hinit.suberTopic, HasEntry]
  removed h hmem := by simp [hinit.log] at hmem
  running h hpc := by simp [hinit.handler, HandlerPc.running] at hpc

omit [DecidableEq H] in
theorem hasEntry_congr (hmap : s'.suberTopic = s.suberTopic) :
    HasEntry req s' h ↔ HasEntry req s h := by
  rw [HasEntry, HasEntry, hmap]

omit [DecidableEq H] in
/-- Only the new call has its entry under the new name. -/
theorem hasEntry_insert {h' : H} (hname : (req h).subName ∉ s.suberTopic)
    (hmap : s'.suberTopic = s.suberTopic.insert (req h).subName (ownEntry req h)) :
    HasEntry req s' h' ↔ HasEntry req s h' ∨ h' = h := by
  rw [HasEntry, HasEntry, hmap]
  by_cases hn : (req h').subName = (req h).subName
  · rw [hn, AList.lookup_insert, AList.lookup_eq_none.mpr hname, Option.some.injEq]
    constructor
    · intro heq
      exact .inr (congrArg Subscribers.writer heq).symm
    · intro hafter
      rcases hafter with hnone | rfl
      · simp at hnone
      · rfl
  · rw [AList.lookup_insert_ne hn]
    constructor
    · exact .inl
    · intro hafter
      rcases hafter with hold | rfl
      · exact hold
      · exact absurd rfl hn

/-- Only the removed call loses its entry. -/
theorem hasEntry_erase {h' : H} (hregistry : RegistryInv req s) {name : String}
    {sub : Subscribers H} (hlookup : s.suberTopic.lookup name = some sub)
    (hmap : s'.suberTopic = s.suberTopic.erase name) :
    HasEntry req s' h' ↔ HasEntry req s h' ∧ h' ≠ sub.writer := by
  obtain ⟨hname, hsub⟩ := hregistry.entry name sub hlookup
  rw [HasEntry, HasEntry, hmap]
  by_cases hn : (req h').subName = name
  · rw [hn, AList.lookup_erase, hlookup, Option.some.injEq]
    constructor
    · intro hcontra
      simp at hcontra
    · intro hbefore
      obtain ⟨rfl, hne⟩ := hbefore
      exact absurd rfl hne
  · rw [AList.lookup_erase_ne hn]
    constructor
    · intro hold
      refine ⟨hold, ?_⟩
      intro heq
      exact hn (heq ▸ hname)
    · exact And.left

/-- A step that leaves the map alone. -/
theorem HandlerInv.of_same (hinv : HandlerInv req s) (hregistry : RegistryInv req s')
    (hmap : s'.suberTopic = s.suberTopic)
    (hlog : ∀ h, .removed h ∈ s'.log ↔ .removed h ∈ s.log)
    (hidle : ∀ h, s'.handler h = .idle → s.handler h = .idle)
    (hrun : ∀ h, (s'.handler h).running = true → (s.handler h).running = true) :
    HandlerInv req s' where
  registry := hregistry
  entered h hpc := by
    rw [hasEntry_congr hmap, hlog]
    exact hinv.entered h (hidle h hpc)
  removed h hmem := by
    rw [hasEntry_congr hmap]
    exact hinv.removed h ((hlog h).mp hmem)
  running h hpc := by
    rw [hasEntry_congr hmap, hlog]
    exact hinv.running h (hrun h hpc)

/-- The removal of an entry. -/
theorem HandlerInv.erase (hinv : HandlerInv req s) (hregistry : RegistryInv req s')
    {name : String} {sub : Subscribers H} (hlookup : s.suberTopic.lookup name = some sub)
    (hmap : s'.suberTopic = s.suberTopic.erase name)
    (hlog : ∀ h, .removed h ∈ s'.log ↔ .removed h ∈ s.log ∨ h = sub.writer)
    (hidle : ∀ h, s'.handler h = .idle → s.handler h = .idle)
    (hrun : ∀ h, (s'.handler h).running = true → (s.handler h).running = true) :
    HandlerInv req s' where
  registry := hregistry
  entered h hpc := by
    obtain ⟨hmem, hentry⟩ := hinv.entered h (hidle h hpc)
    rw [hasEntry_erase hinv.registry hlookup hmap, hlog]
    refine ⟨?_, fun hnow => hentry hnow.1⟩
    intro hnow
    rcases hnow with hold | rfl
    · exact hmem hold
    · -- an entry in the map belongs to a call that has entered
      obtain ⟨hname, hsub⟩ := hinv.registry.entry name sub hlookup
      rw [HasEntry, hname, ← hsub] at hentry
      exact hentry hlookup
  removed h hmem := by
    rw [hasEntry_erase hinv.registry hlookup hmap]
    intro hnow
    obtain ⟨hentry, hne⟩ := hnow
    rcases (hlog h).mp hmem with hold | heq
    · exact hinv.removed h hold hentry
    · exact hne heq
  running h hpc := by
    rw [hasEntry_erase hinv.registry hlookup hmap, hlog]
    by_cases heq : h = sub.writer
    · exact .inr (.inr heq)
    · rcases hinv.running h (hrun h hpc) with hentry | hmem
      · exact .inl ⟨hentry, heq⟩
      · exact .inr (.inl hmem)

/-- A call that stops at `pc` starts no call and sets none running. -/
theorem update_idle {pc : HandlerPc} (hpc : pc ≠ .idle) (h' : H)
    (hnow : Function.update s.handler h pc h' = .idle) : s.handler h' = .idle := by
  by_cases heq : h' = h
  · rw [heq, Function.update_self] at hnow
    exact absurd hnow hpc
  · rwa [Function.update_of_ne heq] at hnow

theorem update_running {pc : HandlerPc}
    (hpc : pc.running = true → (s.handler h).running = true) (h' : H)
    (hnow : (Function.update s.handler h pc h').running = true) :
    (s.handler h').running = true := by
  by_cases heq : h' = h
  · rw [heq, Function.update_self] at hnow
    rw [heq]
    exact hpc hnow
  · rwa [Function.update_of_ne heq] at hnow

/-- A registration under a free name. -/
theorem HandlerInv.insert (hinv : HandlerInv req s) (hregistry : RegistryInv req s')
    (hpc : s.handler h = .idle) (hname : (req h).subName ∉ s.suberTopic)
    (hmap : s'.suberTopic = s.suberTopic.insert (req h).subName (ownEntry req h))
    (hlog : ∀ h', .removed h' ∈ s'.log ↔ .removed h' ∈ s.log)
    (hhandler : s'.handler = Function.update s.handler h .loop) : HandlerInv req s' where
  registry := hregistry
  entered h' hpc' := by
    rw [hhandler] at hpc'
    obtain ⟨hmem, hentry⟩ := hinv.entered h' (update_idle (by simp) h' hpc')
    rw [hasEntry_insert hname hmap, hlog]
    refine ⟨hmem, ?_⟩
    intro hnow
    rcases hnow with hold | rfl
    · exact hentry hold
    · rw [Function.update_self] at hpc'
      simp at hpc'
  removed h' hmem := by
    rw [hlog] at hmem
    rw [hasEntry_insert hname hmap]
    intro hnow
    -- a call that was removed has entered its loop, so it does not register now
    rcases hnow with hold | rfl
    · exact hinv.removed h' hmem hold
    · exact (hinv.entered h' hpc).1 hmem
  running h' hpc' := by
    rw [hasEntry_insert hname hmap, hlog]
    by_cases heq : h' = h
    · exact .inl (.inr heq)
    · rw [hhandler, Function.update_of_ne heq] at hpc'
      rcases hinv.running h' hpc' with hentry | hmem
      · exact .inl (.inl hentry)
      · exact .inr hmem

omit [DecidableEq H] in
/-- `Publish` removes nothing. -/
theorem removed_mem_publish {topic : BitVec 32} {data : String} {entries : List (Entry H)}
    {sent : H → Bool} (log : List (Event H)) :
    .removed h ∈ log ++ .published topic data :: (publishLoop topic data sent entries).2 ↔
      .removed h ∈ log := by
  rw [List.mem_append, List.mem_cons]
  constructor
  · intro hafter
    rcases hafter with hold | hnow | hnow
    · exact hold
    · simp at hnow
    · obtain ⟨entry, _, _, heq⟩ := mem_publishLoop hnow
      simp at heq
  · exact .inl

theorem HandlerInv.step {a : Action H} (hinv : HandlerInv req s)
    (hstep : step req s a = some s') : HandlerInv req s' := by
  have hregistry := hinv.registry.step hstep
  have houtcome := step_outcome hstep
  cases houtcome with
  | rejected h sent reported text status hpc =>
      refine hinv.of_same hregistry rfl ?_ (update_idle (by simp))
        (update_running fun h => by cases h)
      simp [State.return, State.record, State.setHandler]
  | registered h text hpc hnum hname =>
      exact hinv.insert hregistry hpc hname rfl (by simp) rfl
  | killed h hpc hkilled | gone h sent hpc hname =>
      refine hinv.of_same hregistry rfl ?_ (update_idle (by simp))
        (update_running fun h => by cases h)
      simp [State.return, State.record, State.setHandler]
  | alive h hpc hkilled | woken h hpc =>
      exact hinv.of_same hregistry rfl (fun _ => Iff.rfl) (update_idle (by simp))
        (update_running fun _ => congrArg HandlerPc.running hpc)
  | kept h hpc hname =>
      refine hinv.of_same hregistry rfl ?_ (update_idle (by simp))
        (update_running fun _ => congrArg HandlerPc.running hpc)
      simp [State.record, State.setHandler]
  | lost h sub hpc hlookup =>
      exact hinv.erase hregistry hlookup rfl (by simp) (update_idle (by simp))
        (update_running fun h => by cases h)
  | published topic data entries sent hperm =>
      exact hinv.of_same hregistry rfl (fun _ => removed_mem_publish _) (fun _ => id) fun _ => id
  | unknown name hname =>
      exact hinv.of_same hregistry rfl (by simp [State.record]) (fun _ => id) fun _ => id
  | unsubscribed name sub hlookup =>
      exact hinv.erase hregistry hlookup rfl (by simp) (fun _ => id) fun _ => id
  | closed => exact hinv.of_same hregistry rfl (fun _ => Iff.rfl) (fun _ => id) fun _ => id

/-! ## Entries stay -/

omit [DecidableEq H] in
/-- Events are appended that register nobody else, and an entry that is lost is lost for a
reason among them. -/
theorem EntriesKept.append (hkept : EntriesKept req s) {events : List (Event H)}
    (hlog : s'.log = s.log ++ events) (hnew : ∀ h, .registered h ∈ events → HasEntry req s' h)
    (hend : ∀ h, HasEntry req s h → HasEntry req s' h ∨ .unsubscribed (req h).subName ∈ events ∨
      ∃ text, .wrote h .keepalive text false ∈ events) : EntriesKept req s' := by
  intro h pre post hsplit
  rw [hlog, List.append_eq_append_iff] at hsplit
  rcases hsplit with ⟨mid, rfl, hevents⟩ | ⟨mid, hold, hmid⟩
  · -- registered just now
    exact .inl (hnew h (by simp [hevents]))
  · cases mid with
    | nil =>
        rw [List.nil_append] at hmid
        exact .inl (hnew h (by simp [← hmid]))
    | cons e mid =>
        obtain ⟨rfl, rfl⟩ := List.cons.inj hmid
        rcases hkept h pre mid hold with hentry | hunsub | ⟨text, hfailed⟩
        · rcases hend h hentry with hentry' | hunsub | ⟨text, hfailed⟩
          · exact .inl hentry'
          · exact .inr (.inl (List.mem_append_right _ hunsub))
          · exact .inr (.inr ⟨text, List.mem_append_right _ hfailed⟩)
        · exact .inr (.inl (List.mem_append_left _ hunsub))
        · exact .inr (.inr ⟨text, List.mem_append_left _ hfailed⟩)

omit [DecidableEq H] in
/-- No entry is lost by a step that leaves the map alone and registers nobody. -/
theorem EntriesKept.of_same (hkept : EntriesKept req s) {events : List (Event H)}
    (hlog : s'.log = s.log ++ events) (hmap : s'.suberTopic = s.suberTopic)
    (hnew : ∀ h, .registered h ∉ events) : EntriesKept req s' :=
  hkept.append hlog (fun h hmem => absurd hmem (hnew h))
    fun _ hentry => .inl ((hasEntry_congr hmap).mpr hentry)

theorem EntriesKept.step {a : Action H} (hkept : EntriesKept req s) (hinv : HandlerInv req s)
    (hok : FindsOwnEntry req s a) (hstep : step req s a = some s') : EntriesKept req s' := by
  have houtcome := step_outcome hstep
  cases houtcome with
  | rejected h sent reported text status hpc =>
      exact hkept.of_same (List.append_assoc _ _ _) rfl (by simp)
  | registered h text hpc hnum hname =>
      refine hkept.append rfl (fun h' hmem => ?_) fun h' hentry => .inl ?_
      · have heq : h' = h := by simpa using hmem
        exact (hasEntry_insert hname rfl).mpr (.inr heq)
      · exact (hasEntry_insert hname rfl).mpr (.inl hentry)
  | killed h hpc hkilled | gone h sent hpc hname | kept h hpc hname | unknown name hname =>
      exact hkept.of_same rfl rfl (by simp)
  | alive h hpc hkilled | woken h hpc | closed => exact hkept
  | lost h sub hpc hlookup =>
      refine hkept.append rfl (by simp) fun h' hentry => ?_
      by_cases heq : h' = sub.writer
      · -- the failed keepalive was on the writer of the entry itself
        rw [heq, hok sub hlookup]
        exact .inr (.inr ⟨"keepalive", by simp⟩)
      · exact .inl ((hasEntry_erase hinv.registry hlookup rfl).mpr ⟨hentry, heq⟩)
  | published topic data entries sent hperm =>
      refine hkept.of_same rfl rfl fun h hmem => ?_
      rcases List.mem_cons.mp hmem with hmem | hmem
      · simp at hmem
      · obtain ⟨entry, _, _, heq⟩ := mem_publishLoop hmem
        simp at heq
  | unsubscribed name sub hlookup =>
      refine hkept.append rfl (by simp) fun h' hentry => ?_
      by_cases heq : h' = sub.writer
      · rw [heq, (hinv.registry.entry name sub hlookup).1]
        exact .inr (.inl (by simp))
      · exact .inl ((hasEntry_erase hinv.registry hlookup rfl).mpr ⟨hentry, heq⟩)

/-! ## Nothing is written after the removal -/

omit [DecidableEq H] in
theorem Quiet.append {log events : List (Event H)} (hquiet : Quiet log) (hevents : Quiet events)
    (hwrites : ∀ h source text sent, .wrote h source text sent ∈ events → .removed h ∉ log) :
    Quiet (log ++ events) := by
  unfold Quiet
  rw [List.pairwise_append]
  refine ⟨hquiet, hevents, ?_⟩
  intro e hold e' hnow h source text sent he he'
  subst he he'
  exact hwrites h source text sent hnow hold

omit [DecidableEq H] in
/-- Nothing is removed among these events. -/
theorem Quiet.of_not_removed {events : List (Event H)} (hnone : ∀ h, .removed h ∉ events) :
    Quiet events := by
  unfold Quiet
  rw [List.pairwise_iff_forall_sublist]
  intro e e' hsub h source text sent he
  subst he
  exact absurd (hsub.subset List.mem_cons_self) (hnone h)

omit [DecidableEq H] in
/-- All writes are to one stream, and its entry was not removed. -/
theorem Quiet.append_own {log events : List (Event H)} (hquiet : Quiet log)
    (hevents : Quiet events) (hpresent : .removed h ∉ log)
    (hone : ∀ h' source text sent, .wrote h' source text sent ∈ events → h' = h) :
    Quiet (log ++ events) := by
  apply hquiet.append hevents
  intro h' source text sent hmem
  rw [hone h' source text sent hmem]
  exact hpresent

/-- The entry that the keepalive section finds was not removed. -/
theorem HandlerInv.not_removed (hinv : HandlerInv req s) {sent : Bool} {sub : Subscribers H}
    (hok : FindsOwnEntry req s (.keepalive h sent))
    (hlookup : s.suberTopic.lookup (req h).subName = some sub) :
    sub = ownEntry req h ∧ .removed h ∉ s.log := by
  have hsub : sub = ownEntry req h := by
    have hown := (hinv.registry.entry _ _ hlookup).2
    rwa [hok sub hlookup] at hown
  refine ⟨hsub, fun hmem => hinv.removed h hmem ?_⟩
  rw [HasEntry, hlookup, hsub]

theorem Quiet.step {a : Action H} (hquiet : Quiet s.log) (hinv : HandlerInv req s)
    (hok : FindsOwnEntry req s a) (hstep : step req s a = some s') : Quiet s'.log := by
  have houtcome := step_outcome hstep
  cases houtcome with
  | rejected h sent reported text status hpc =>
      have hquiet' : Quiet (s.log ++ [.wrote h .subscribe text reported, .returned h]) :=
        hquiet.append_own (.of_not_removed (by simp)) (hinv.entered h hpc).1 (by simp +contextual)
      rwa [List.append_cons] at hquiet'
  | registered h text hpc hnum hname =>
      exact hquiet.append_own (.of_not_removed (by simp)) (hinv.entered h hpc).1
        (by simp +contextual)
  | killed h hpc hkilled | gone h sent hpc hname | unknown name hname =>
      exact hquiet.append (.of_not_removed (by simp)) (by simp)
  | alive h hpc hkilled | woken h hpc | closed => exact hquiet
  | kept h hpc hname =>
      obtain ⟨sub, hlookup⟩ := exists_lookup hname
      exact hquiet.append_own (.of_not_removed (by simp)) (hinv.not_removed hok hlookup).2
        (by simp +contextual)
  | lost h sub hpc hlookup =>
      exact hquiet.append_own (by simp [Quiet]) (hinv.not_removed hok hlookup).2
        (by simp +contextual)
  | published topic data entries sent hperm =>
      refine hquiet.append (.of_not_removed fun h => ?_) fun h source text b hmem hremoved => ?_
      · intro hmem
        simpa using (removed_mem_publish []).mp hmem
      · rcases List.mem_cons.mp hmem with hmem | hmem
        · simp at hmem
        · -- a traversed entry is in the map, and its writer was not removed
          obtain ⟨entry, hentry, _, heq⟩ := mem_publishLoop hmem
          injection heq with hwriter
          have hlookup := AList.mem_lookup_iff.mpr (hperm.mem_iff.mp hentry)
          obtain ⟨hname, hsub⟩ := hinv.registry.entry entry.1 entry.2 hlookup
          refine hinv.removed h hremoved ?_
          rw [HasEntry, hwriter, hname, ← hsub]
          exact hlookup
  | unsubscribed name sub hlookup =>
      exact hquiet.append (by simp [Quiet]) (by simp)

/-! ## Runs -/

/-- The invariant behind `subscriptions_kept_iff`. -/
structure SubscriptionInv (req : H → SubscribeRequest) (s : State H) : Prop where
  handlers : HandlerInv req s
  kept : EntriesKept req s
  quiet : Quiet s.log

theorem Initial.subscriptionInv (hinit : Initial s) : SubscriptionInv req s where
  handlers := hinit.handlerInv
  kept h pre post hsplit := by simp [hinit.log] at hsplit
  quiet := by simp [Quiet, hinit.log]

theorem SubscriptionInv.step {a : Action H} (hinv : SubscriptionInv req s)
    (hok : FindsOwnEntry req s a) (hstep : step req s a = some s') : SubscriptionInv req s' where
  handlers := hinv.handlers.step hstep
  kept := hinv.kept.step hinv.handlers hok hstep
  quiet := hinv.quiet.step hinv.handlers hok hstep

/-- A call whose entry was removed finds none, and returns. -/
theorem SubscriptionInv.returns {sent : Bool} (hinv : SubscriptionInv req s)
    (hok : FindsOwnEntry req s (.keepalive h sent)) (hremoved : .removed h ∈ s.log)
    (hstep : PubSub.step req s (.keepalive h sent) = some s') :
    ∃ status, s'.handler h = .returned status := by
  have houtcome := step_outcome hstep
  cases houtcome with
  | gone h sent hpc hname =>
      exact ⟨.ok, by simp [State.return, State.setHandler, State.record]⟩
  | kept h hpc hname =>
      obtain ⟨sub, hlookup⟩ := exists_lookup hname
      exact absurd hremoved (hinv.handlers.not_removed hok hlookup).2
  | lost h sub hpc hlookup =>
      exact absurd hremoved (hinv.handlers.not_removed hok hlookup).2

/-- A keepalive section that finds a foreign entry writes although its own was removed. -/
theorem SubscriptionInv.findsOwnEntry {a : Action H} (hinv : SubscriptionInv req s)
    (hstep : PubSub.step req s a = some s') (hquiet : Quiet s'.log) : FindsOwnEntry req s a := by
  have hwrote : ∀ h sent events, s'.log = s.log ++ .wrote h .keepalive "keepalive" sent :: events →
      .removed h ∉ s.log := by
    intro h sent events hlog hmem
    rw [hlog] at hquiet
    exact (List.pairwise_append.mp hquiet).2.2 _ hmem _ List.mem_cons_self h _ _ _ rfl rfl
  have hown : ∀ h, (s.handler h).running = true → .removed h ∉ s.log → ∀ sub,
      s.suberTopic.lookup (req h).subName = some sub → sub.writer = h := by
    intro h hrunning hpresent sub hlookup
    rcases hinv.handlers.running h hrunning with hentry | hmem
    · rw [HasEntry, hlookup, Option.some.injEq] at hentry
      rw [hentry, ownEntry]
    · exact absurd hmem hpresent
  have houtcome := step_outcome hstep
  cases houtcome with
  | gone h sent hpc hname =>
      intro sub hlookup
      exact absurd hlookup (lookup_ne_of_not_mem hname sub)
  | kept h hpc hname =>
      exact hown h (congrArg HandlerPc.running hpc) (hwrote h true [] rfl)
  | lost h sub hpc hlookup =>
      exact hown h (congrArg HandlerPc.running hpc) (hwrote h false _ rfl)
  | _ => trivial

/-- **When a subscription only ends through its own `UnSubscribe` or its own stream.**
The runs in which every keepalive section finds its own entry or none are exactly the
runs in which registered entries stay until an `UnSubscribe` for their name or a failed
keepalive on their writer, nothing is written to a stream after the removal of its
entry, and a call whose entry was removed returns in its next keepalive section. -/
theorem subscriptions_kept_iff {acts : List (Action H)} {s : State H} :
    Run (step req) (FindsOwnEntry req) Initial acts s ↔
      Run (step req) (SubscriptionsKept req) Initial acts s := by
  refine Run.guard_iff (fun _ hinit => hinit.subscriptionInv)
    (fun _ _ _ hinv hok hst => hinv.step hok hst) fun s a t hinv hst => ?_
  constructor
  · intro hok t' ht'
    have hinv' := hinv.step hok ht'
    refine ⟨hinv'.kept, hinv'.quiet, ?_⟩
    intro h sent ha hremoved
    subst ha
    exact hinv.returns hok hremoved ht'
  · intro hkept
    exact hinv.findsOwnEntry hst (hkept t hst).2.1

/-! ## A name that is subscribed again -/

/-- Two calls of clients with the same name. -/
def sameName (h : Bool) : SubscribeRequest :=
  ⟨if h then 2 else 1, "client"⟩

/-- The first call sleeps while its name is unsubscribed and subscribed again; it wakes
up, and its write fails. -/
def resubscribeActions : List (Action Bool) :=
  [.subscribe false true, .testKilled false, .keepalive false true, .unSubscribe "client",
    .subscribe true true, .wake false, .testKilled false, .keepalive false false]

theorem resubscribe_end :
    (exec (step sameName) freshServer resubscribeActions).map (fun s =>
      (s.log.drop 6, s.suberTopic.lookup "client")) =
    some ([.registered true, .wrote false .keepalive "keepalive" false, .removed true,
      .returned false], none) := by
  decide +kernel

/-- A registered entry can be erased by the call of an earlier subscription. -/
theorem not_subscriptions_kept :
    ¬ ∀ (req : Bool → SubscribeRequest) (acts : List (Action Bool)) (s : State Bool),
      Run (step req) Unguarded Initial acts s → EntriesKept req s ∧ Quiet s.log := by
  intro hclaim
  obtain ⟨s, hexec, hend⟩ := Option.map_eq_some_iff.mp resubscribe_end
  obtain ⟨hlog, hlookup⟩ := Prod.mk.inj hend
  have hkept := (hclaim sameName _ s
    (.of_exec freshServer_initial (fun _ _ _ => trivial) hexec)).1
  have hsplit : s.log = s.log.take 6 ++ .registered true ::
      [.wrote false .keepalive "keepalive" false, .removed true, .returned false] := by
    rw [← hlog, List.take_append_drop]
  rcases hkept true _ _ hsplit with hentry | hunsub | ⟨text, hfailed⟩
  · rw [HasEntry] at hentry
    simp [sameName, hlookup] at hentry
  · simp at hunsub
  · simp at hfailed

end SecDetector.PubSub
