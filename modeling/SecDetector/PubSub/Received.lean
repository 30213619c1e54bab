import SecDetector.PubSub.Fanout

/-!
# What a subscriber receives

`texts_eq_due_iff` says when a subscriber gets everything that is due to it.  Whatever writes
fail, it gets nothing else: what is written to its stream are texts that were published while it
was subscribed, on its topics, each once and in their order (`ReceivedInv`).
-/

namespace SecDetector.PubSub

open Lib

variable {H : Type*} [DecidableEq H] {req : H → SubscribeRequest} {s s' : State H}

/-- A call of `Publish` that the server has served. -/
def Event.call? : Event H → Option (BitVec 32 × String)
  | .published topic data => some (topic, data)
  | _ => none

def calls (log : List (Event H)) : List (BitVec 32 × String) :=
  log.filterMap Event.call?

/-- The texts of the calls with a bit of a mask. -/
def textsFor (mask : BitVec 32) (calls : List (BitVec 32 × String)) : List String :=
  (calls.filter fun call => mask &&& call.1 ≠ 0).map Prod.snd

omit [DecidableEq H] in
theorem calls_append (log events : List (Event H)) :
    calls (log ++ events) = calls log ++ calls events :=
  List.filterMap_append

omit [DecidableEq H] in
theorem calls_of_quiet {events : List (Event H)}
    (hquiet : ∀ e ∈ events, e.isQuiet = true) : calls events = [] := by
  unfold calls
  rw [List.filterMap_eq_nil_iff]
  intro e he
  have hevent := hquiet e he
  cases e <;> simp_all [Event.isQuiet, Event.call?]

omit [DecidableEq H] in
theorem calls_publishLoop (topic : BitVec 32) (data : String) (sent : H → Bool)
    (entries : List (Entry H)) :
    calls (publishLoop topic data sent entries).2 = [] := by
  unfold calls
  rw [List.filterMap_eq_nil_iff]
  intro e he
  obtain ⟨entry, _, _, rfl⟩ := mem_publishLoop he
  rfl

theorem textsFor_append (mask : BitVec 32) (calls calls' : List (BitVec 32 × String)) :
    textsFor mask (calls ++ calls') = textsFor mask calls ++ textsFor mask calls' := by
  rw [textsFor, List.filter_append, List.map_append]
  rfl

/-- A stream gets the text of a call at most once. -/
theorem texts_publishLoop_sublist {h : H} (topic : BitVec 32) (data : String) (sent : H → Bool)
    {entries : List (Entry H)} (hnodup : (entries.map fun e => e.2.writer).Nodup) :
    (texts h (publishLoop topic data sent entries).2).Sublist [data] := by
  induction entries with
  | nil => exact List.nil_sublist _
  | cons head entries ih =>
      obtain ⟨name, sub⟩ := head
      rw [List.map_cons, List.nodup_cons] at hnodup
      simp only [publishLoop]
      split
      · split
        · by_cases heq : sub.writer = h
          · -- its own entry, and there is no other one
            have hrest : texts h (publishLoop topic data sent entries).2 = [] := by
              refine texts_publishLoop_eq_nil data sent fun other hother _ hwriter => ?_
              exact hnodup.1 (List.mem_map.mpr ⟨other, hother, hwriter.trans heq.symm⟩)
            unfold texts at hrest ⊢
            simp [Event.text?, heq, hrest]
          · have hrest := ih hnodup.2
            unfold texts at hrest ⊢
            simpa [Event.text?, heq] using hrest
        · simp [texts, Event.text?]
      · exact ih hnodup.2

/-- What a subscriber has got was published while it was subscribed. -/
structure ReceivedInv (req : H → SubscribeRequest) (s : State H) : Prop where
  registry : RegistryInv req s
  received : ∀ h, (texts h s.log).Sublist (due req h s.log)
  onTopic : ∀ h, (due req h s.log).Sublist (textsFor (req h).topic (calls s.log))

theorem receivedInv_of_initial (hinit : Initial s) : ReceivedInv req s where
  registry := hinit.registryInv
  received h := by simp [hinit.log, texts]
  onTopic h := by simp [hinit.log, due]

theorem ReceivedInv.of_quiet (hinv : ReceivedInv req s) (hregistry : RegistryInv req s')
    {events : List (Event H)} (hlog : s'.log = s.log ++ events)
    (hquiet : ∀ e ∈ events, e.isQuiet = true) : ReceivedInv req s' where
  registry := hregistry
  received h := by
    rw [hlog, texts_append, texts_of_quiet hquiet, List.append_nil, due,
      List.foldl_append, due_of_quiet hquiet]
    exact hinv.received h
  onTopic h := by
    rw [hlog, calls_append, calls_of_quiet hquiet, List.append_nil, due,
      List.foldl_append, due_of_quiet hquiet]
    exact hinv.onTopic h

theorem ReceivedInv.publish (hinv : ReceivedInv req s) {topic : BitVec 32} {data : String}
    {entries : List (Entry H)} {sent : H → Bool}
    (hregistry : RegistryInv req s') (hperm : entries.Perm s.suberTopic.entries)
    (hlog : s'.log =
      s.log ++ .published topic data :: (publishLoop topic data sent entries).2) :
    ReceivedInv req s' where
  registry := hregistry
  received h := by
    rw [hlog, texts_append, due_publish]
    refine (hinv.received h).append ?_
    have htexts : texts h
        (.published topic data :: (publishLoop topic data sent entries).2) =
        texts h (publishLoop topic data sent entries).2 := rfl
    rw [htexts]
    split
    · exact texts_publishLoop_sublist topic data sent (hinv.registry.writers_nodup hperm)
    · rename_i hmatch
      rw [texts_publishLoop_eq_nil data sent]
      intro e he htopic heq
      obtain ⟨hsub, hentry⟩ := (hinv.registry.mem_traversal hperm).mp he
      rw [hentry] at htopic
      rw [heq] at hsub htopic
      exact hmatch ⟨hsub, htopic⟩
  onTopic h := by
    have hcalls : calls (.published topic data ::
        (publishLoop topic data sent entries).2) = [(topic, data)] := by
      rw [← calls_publishLoop topic data sent entries]
      rfl
    rw [hlog, due_publish, calls_append, textsFor_append, hcalls]
    refine (hinv.onTopic h).append ?_
    split
    · rename_i hmatch
      rw [textsFor, List.filter_singleton, decide_eq_true hmatch.2]
      exact .refl _
    · exact List.nil_sublist _

/-- A step of the server that is no call of `Publish`. -/
theorem quiet_of_step {a : Action H} (hstep : step req s a = some s')
    (hpublish : ∀ topic data entries sent, a ≠ .publish topic data entries sent) :
    ∃ events, s'.log = s.log ++ events ∧ ∀ e ∈ events, e.isQuiet = true := by
  cases step_outcome hstep with
  | rejected => exact ⟨_, List.append_assoc _ _ _, by simp [Event.isQuiet]⟩
  | alive | woken | closed => exact ⟨[], (List.append_nil _).symm, by simp⟩
  | published topic data entries sent => exact absurd rfl (hpublish topic data entries sent)
  | _ => exact ⟨_, rfl, by simp [Event.isQuiet]⟩

theorem ReceivedInv.step {a : Action H} (hinv : ReceivedInv req s)
    (hstep : step req s a = some s') : ReceivedInv req s' := by
  have hregistry := hinv.registry.step hstep
  cases a with
  | publish topic data entries sent =>
      cases step_outcome hstep with
      | published _ _ _ _ hperm => exact hinv.publish hregistry hperm rfl
  | _ =>
      obtain ⟨events, hlog, hquiet⟩ := quiet_of_step hstep (by simp)
      exact hinv.of_quiet hregistry hlog hquiet

end SecDetector.PubSub
