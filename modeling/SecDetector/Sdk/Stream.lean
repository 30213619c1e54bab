import SecDetector.PubSub.Shutdown
import SecDetector.Sdk.Library

/-!
# What a stream contains

The server answers a subscription first.  If it accepts it, the answer begins with `topic:`, and
then come keep-alives and the published texts of `texts`; if not, nothing comes after the answer
(`StreamInv`).
-/

namespace SecDetector.Sdk

open Lib PubSub

variable {H : Type*} [DecidableEq H] {req : H → SubscribeRequest} {r r' : PubSub.State H} {h : H}

/-- A text that `secReadFrom` hands over. -/
def Shown (text : String) : Prop := text ≠ "keepalive"

instance : DecidablePred Shown := fun _ => inferInstanceAs (Decidable (_ ≠ _))

/-- The stream of an accepted subscription. -/
def Accepted (h : H) (log : List (Event H)) : Prop :=
  .registered h ∈ log ∧ ∃ first rest, stream h log = first :: rest ∧ IsTopic first ∧
    rest.filter Shown = (texts h log).filter Shown

/-- The stream of a subscription that is refused, or not served yet. -/
def Refused (h : H) (log : List (Event H)) : Prop :=
  .registered h ∉ log ∧ texts h log = [] ∧
    (stream h log = [] ∨ ∃ first, stream h log = [first] ∧ ¬ IsTopic first)

structure StreamInv (req : H → SubscribeRequest) (r : PubSub.State H) : Prop where
  registry : RegistryInv req r
  cases : ∀ h, Accepted h r.log ∨ Refused h r.log
  idle : ∀ h, r.handler h = .idle → .registered h ∉ r.log ∧ stream h r.log = []
  running : ∀ h, (r.handler h).running = true → .registered h ∈ r.log

theorem stream_append (log events : List (Event H)) :
    stream h (log ++ events) = stream h log ++ stream h events :=
  List.filterMap_append

/-- Who is subscribed was registered. -/
theorem registered_of_subscribed {log : List (Event H)} (hsub : subscribed h log = true) :
    .registered h ∈ log := by
  induction log using List.reverseRecOn with
  | nil => simp [subscribed] at hsub
  | append_singleton log e ih =>
      rw [subscribed_append] at hsub
      rw [List.mem_append, List.mem_singleton]
      cases e with
      | registered h' =>
          simp only [List.foldl_cons, List.foldl_nil, Event.after] at hsub
          split at hsub
          · rename_i heq
            exact .inr (heq ▸ rfl)
          · exact .inl (ih hsub)
      | removed h' =>
          simp only [List.foldl_cons, List.foldl_nil, Event.after] at hsub
          split at hsub
          · cases hsub
          · exact .inl (ih hsub)
      | _ => exact .inl (ih hsub)

/-! ## Events -/

/-- Events that have nothing to do with the stream of `h`. -/
structure Silent (h : H) (events : List (Event H)) : Prop where
  stream : stream h events = []
  texts : texts h events = []
  registered : .registered h ∉ events

@[simp] theorem message?_wrote (h' : H) (source : Source) (text : String) (sent : Bool) :
    message? h (.wrote h' source text sent) =
      if sent = true ∧ h' = h then some text else none := by
  cases sent <;> simp [message?]

/-- What is published to a stream is written to it. -/
theorem text?_of_message? {e : Event H} (hnone : message? h e = none) :
    Event.text? h e = none := by
  cases e with
  | wrote h' source text sent =>
      cases source <;> cases sent <;> simp_all [Event.text?]
  | _ => rfl

theorem silent_of_none {events : List (Event H)}
    (hnone : ∀ e ∈ events, message? h e = none ∧ e ≠ .registered h) : Silent h events where
  stream := List.filterMap_eq_nil_iff.mpr fun e he => (hnone e he).1
  texts := List.filterMap_eq_nil_iff.mpr fun e he => text?_of_message? (hnone e he).1
  registered hmem := (hnone _ hmem).2 rfl

theorem Accepted.append {log events : List (Event H)} (haccepted : Accepted h log)
    (hrest : (stream h events).filter Shown = (texts h events).filter Shown) :
    Accepted h (log ++ events) := by
  obtain ⟨hregistered, first, rest, hstream, htopic, htexts⟩ := haccepted
  refine ⟨List.mem_append_left _ hregistered, first, rest ++ stream h events, ?_, htopic, ?_⟩
  · rw [stream_append, hstream, List.cons_append]
  · rw [texts_append, List.filter_append, List.filter_append, htexts, hrest]

theorem Refused.append {log events : List (Event H)} (hrefused : Refused h log)
    (hsilent : Silent h events) : Refused h (log ++ events) := by
  obtain ⟨hregistered, htexts, hstream⟩ := hrefused
  refine ⟨?_, ?_, ?_⟩
  · rw [List.mem_append, not_or]
    exact ⟨hregistered, hsilent.registered⟩
  · rw [texts_append, htexts, hsilent.texts, List.append_nil]
  · rwa [stream_append, hsilent.stream, List.append_nil]

theorem cases_append {log events : List (Event H)} (hcases : Accepted h log ∨ Refused h log)
    (hsilent : Silent h events) : Accepted h (log ++ events) ∨ Refused h (log ++ events) :=
  hcases.imp (fun haccepted => haccepted.append (by rw [hsilent.stream, hsilent.texts]))
    fun hrefused => hrefused.append hsilent

/-- Who was registered is accepted. -/
theorem StreamInv.accepted (hinv : StreamInv req r) (hregistered : .registered h ∈ r.log) :
    Accepted h r.log :=
  (hinv.cases h).resolve_right fun hrefused => hrefused.1 hregistered

/-- A step of the call `h`, if it has one. -/
theorem StreamInv.of_events (hinv : StreamInv req r) (hregistry : RegistryInv req r')
    {events : List (Event H)} (hlog : r'.log = r.log ++ events) (moved : H → Prop)
    (hsilent : ∀ h, ¬ moved h → Silent h events)
    (hhandler : ∀ h, ¬ moved h → r'.handler h = r.handler h)
    (hmoved : ∀ h, moved h → (Accepted h r'.log ∨ Refused h r'.log) ∧ r'.handler h ≠ .idle ∧
      ((r'.handler h).running = true → .registered h ∈ r'.log)) : StreamInv req r' where
  registry := hregistry
  cases h := by
    by_cases hh : moved h
    · exact (hmoved h hh).1
    · rw [hlog]
      exact cases_append (hinv.cases h) (hsilent h hh)
  idle h hidle := by
    by_cases hh : moved h
    · exact absurd hidle (hmoved h hh).2.1
    · rw [hhandler h hh] at hidle
      obtain ⟨hregistered, hstream⟩ := hinv.idle h hidle
      rw [hlog, List.mem_append, not_or, stream_append, hstream, (hsilent h hh).stream]
      exact ⟨⟨hregistered, (hsilent h hh).registered⟩, rfl⟩
  running h hrunning := by
    by_cases hh : moved h
    · exact (hmoved h hh).2.2 hrunning
    · rw [hhandler h hh] at hrunning
      rw [hlog]
      exact List.mem_append_left _ (hinv.running h hrunning)

/-- A step of the call `h` past its subscription. -/
theorem StreamInv.of_move (hinv : StreamInv req r) (hregistry : RegistryInv req r')
    {events : List (Event H)} (hlog : r'.log = r.log ++ events) {pc : HandlerPc}
    (hhandler : r'.handler = Function.update r.handler h pc) (hpc : pc ≠ .idle)
    (hrunning : (r.handler h).running = true)
    (hsilent : ∀ h' ≠ h, Silent h' events)
    (hrest : (stream h events).filter Shown = (texts h events).filter Shown) :
    StreamInv req r' := by
  have hregistered := hinv.running h hrunning
  refine hinv.of_events hregistry hlog (· = h) hsilent (fun h' hne => ?_) fun h' heq => ?_
  · rw [hhandler, Function.update_of_ne hne]
  · subst heq
    rw [hlog, hhandler, Function.update_self]
    exact ⟨.inl ((hinv.accepted hregistered).append hrest), hpc, fun _ =>
      List.mem_append_left _ hregistered⟩

/-- A step of no call. -/
theorem StreamInv.of_silent (hinv : StreamInv req r) (hregistry : RegistryInv req r')
    {events : List (Event H)} (hlog : r'.log = r.log ++ events)
    (hhandler : r'.handler = r.handler) (hsilent : ∀ h, Silent h events) : StreamInv req r' :=
  hinv.of_events hregistry hlog (fun _ => False) (fun h _ => hsilent h)
    (fun _ _ => by rw [hhandler]) fun _ hfalse => hfalse.elim

/-! ## Steps -/

theorem stream_publishLoop (topic : BitVec 32) (data : String) (sent : H → Bool)
    (entries : List (Entry H)) :
    stream h (publishLoop topic data sent entries).2 =
      texts h (publishLoop topic data sent entries).2 := by
  unfold stream texts
  apply List.filterMap_congr
  intro e he
  obtain ⟨entry, _, _, rfl⟩ := mem_publishLoop he
  cases sent entry.2.writer <;> rfl

/-- A published text goes to registered subscribers. -/
theorem StreamInv.publish (hinv : StreamInv req r) (hregistry : RegistryInv req r')
    {topic : BitVec 32} {data : String} {sent : H → Bool} {entries : List (Entry H)}
    (hperm : entries.Perm r.suberTopic.entries)
    (hlog : r'.log = r.log ++ .published topic data :: (publishLoop topic data sent entries).2)
    (hhandler : r'.handler = r.handler) : StreamInv req r' := by
  have hstream : ∀ h, stream h (.published topic data ::
      (publishLoop topic data sent entries).2) =
        texts h (.published topic data :: (publishLoop topic data sent entries).2) := fun h =>
    stream_publishLoop topic data sent entries
  have hnew : ∀ h, .registered h ∉
      .published topic data :: (publishLoop topic data sent entries).2 := by
    intro h hmem
    rcases List.mem_cons.mp hmem with heq | hmem
    · cases heq
    · obtain ⟨_, _, _, heq⟩ := mem_publishLoop hmem
      cases heq
  have hsilent : ∀ h, .registered h ∉ r.log → Silent h
      (.published topic data :: (publishLoop topic data sent entries).2) := by
    intro h hregistered
    have htexts : texts h (publishLoop topic data sent entries).2 = [] := by
      refine texts_publishLoop_eq_nil data sent fun e he _ heq => hregistered ?_
      obtain ⟨hsub, _⟩ := (hinv.registry.mem_traversal hperm).mp he
      exact heq ▸ registered_of_subscribed hsub
    exact ⟨(hstream h).trans htexts, htexts, hnew h⟩
  refine ⟨hregistry, fun h => ?_, fun h hidle => ?_, fun h hrunning => ?_⟩
  · rw [hlog]
    rcases hinv.cases h with haccepted | hrefused
    · exact .inl (haccepted.append (by rw [hstream]))
    · exact .inr (hrefused.append (hsilent h hrefused.1))
  · rw [hhandler] at hidle
    obtain ⟨hregistered, hnil⟩ := hinv.idle h hidle
    rw [hlog, List.mem_append, not_or, stream_append, hnil, (hsilent h hregistered).stream]
    exact ⟨⟨hregistered, hnew h⟩, rfl⟩
  · rw [hhandler] at hrunning
    rw [hlog]
    exact List.mem_append_left _ (hinv.running h hrunning)

/-- A subscription is refused. -/
theorem StreamInv.refuse {text : String} {sent : Bool} {status : Status} (hinv : StreamInv req r)
    (hidle : r.handler h = .idle) (htopic : sent = true → ¬ IsTopic text)
    (hregistry : RegistryInv req ((r.record [.wrote h .subscribe text sent]).return h status)) :
    StreamInv req ((r.record [.wrote h .subscribe text sent]).return h status) := by
  have hlog : ((r.record [.wrote h .subscribe text sent]).return h status).log =
      r.log ++ [.wrote h .subscribe text sent, .returned h] := List.append_assoc _ _ _
  have hhandler : ((r.record [.wrote h .subscribe text sent]).return h status).handler =
      Function.update r.handler h (.returned status) := rfl
  obtain ⟨hregistered, hnil⟩ := hinv.idle h hidle
  have htexts : texts h r.log = [] :=
    ((hinv.cases h).resolve_left fun haccepted => hregistered haccepted.1).2.1
  refine hinv.of_events hregistry hlog (· = h) (fun h' hne => ?_) (fun h' hne => ?_)
    fun h' heq => ?_
  · refine silent_of_none ?_
    cases sent <;> simp [Ne.symm hne, message?]
  · rw [hhandler, Function.update_of_ne hne]
  · subst heq
    rw [hlog, hhandler, Function.update_self]
    refine ⟨.inr ⟨by simp [hregistered], ?_, ?_⟩, by simp, by simp [HandlerPc.running]⟩
    · rw [texts_append, htexts]
      rfl
    · rw [stream_append, hnil]
      cases sent with
      | false => exact .inl rfl
      | true => exact .inr ⟨text, by simp [stream, message?], htopic rfl⟩

/-- A subscription is accepted. -/
theorem StreamInv.accept {text : String} (hinv : StreamInv req r) (hidle : r.handler h = .idle)
    (htopic : IsTopic text) (hregistry : RegistryInv req r') {pc : HandlerPc}
    (hpc : pc ≠ .idle) (hhandler : r'.handler = Function.update r.handler h pc)
    (hlog : r'.log = r.log ++ [.wrote h .subscribe text true, .registered h]) :
    StreamInv req r' := by
  obtain ⟨hregistered, hnil⟩ := hinv.idle h hidle
  have htexts : texts h r.log = [] :=
    ((hinv.cases h).resolve_left fun haccepted => hregistered haccepted.1).2.1
  refine hinv.of_events hregistry hlog (· = h) (fun h' hne => ?_) (fun h' hne => ?_)
    fun h' heq => ?_
  · refine silent_of_none ?_
    simp [Ne.symm hne, message?]
  · rw [hhandler, Function.update_of_ne hne]
  · subst heq
    rw [hlog, hhandler, Function.update_self]
    refine ⟨.inl ⟨by simp, text, [], ?_, htopic, ?_⟩, hpc, fun _ => by simp⟩
    · rw [stream_append, hnil]
      simp [stream, message?]
    · rw [texts_append, htexts]
      rfl

theorem isTopic_success (topic : String) :
    IsTopic ("topic: " ++ topic ++ " Subscribe success!") := by
  simp [IsTopic]

/-- The answer to a subscription. -/
theorem StreamInv.subscribe {sent : Bool} (hinv : StreamInv req r)
    (hstep : PubSub.step req r (.subscribe h sent) = some r') : StreamInv req r' := by
  have hregistry := hinv.registry.step hstep
  simp only [PubSub.step] at hstep
  split at hstep
  · rename_i hidle
    obtain rfl := Option.some.inj hstep
    unfold PubSub.subscribe at hregistry ⊢
    by_cases hnum : maxConnection ≤ r.connectionNum
    · rw [if_pos hnum] at hregistry ⊢
      exact hinv.refuse hidle (fun _ => by decide) hregistry
    · rw [if_neg hnum] at hregistry ⊢
      by_cases hname : (req h).subName ∈ r.suberTopic
      · rw [if_pos hname] at hregistry ⊢
        exact hinv.refuse hidle (fun _ => by decide) hregistry
      · rw [if_neg hname] at hregistry ⊢
        cases sent with
        | true => exact hinv.accept hidle (isTopic_success _) hregistry (by simp) rfl rfl
        | false => exact hinv.refuse hidle (by simp) hregistry
  · cases hstep

theorem StreamInv.step {a : PubSub.Action H} (hinv : StreamInv req r)
    (hstep : PubSub.step req r a = some r') : StreamInv req r' := by
  have hregistry := hinv.registry.step hstep
  have hrun : ∀ {h pc}, r.handler h = pc → pc.running = true → (r.handler h).running = true :=
    fun hpc hrunning => hpc ▸ hrunning
  cases step_outcome hstep with
  | rejected | registered => exact hinv.subscribe hstep
  | killed h hpc =>
      exact hinv.of_move hregistry rfl rfl (by simp) (hrun hpc rfl)
        (fun h' _ => silent_of_none (by simp [message?])) rfl
  | alive h hpc =>
      exact hinv.of_move hregistry (List.append_nil _).symm rfl (by simp) (hrun hpc rfl)
        (fun h' _ => silent_of_none (by simp)) rfl
  | gone h sent hpc =>
      exact hinv.of_move hregistry rfl rfl (by simp) (hrun hpc rfl)
        (fun h' _ => silent_of_none (by simp [message?])) rfl
  | kept h hpc =>
      refine hinv.of_move hregistry rfl rfl (by simp) (hrun hpc rfl)
        (fun h' hne => silent_of_none (by simp [Ne.symm hne])) ?_
      simp [stream, texts, Event.text?, Shown]
  | lost h sub hpc =>
      exact hinv.of_move hregistry rfl rfl (by simp) (hrun hpc rfl)
        (fun h' _ => silent_of_none (by simp [message?])) rfl
  | woken h hpc =>
      exact hinv.of_move hregistry (List.append_nil _).symm rfl (by simp) (hrun hpc rfl)
        (fun h' _ => silent_of_none (by simp)) rfl
  | published topic data entries sent hperm => exact hinv.publish hregistry hperm rfl rfl
  | unknown name =>
      exact hinv.of_silent hregistry rfl rfl fun _ => silent_of_none (by simp [message?])
  | unsubscribed name sub =>
      exact hinv.of_silent hregistry rfl rfl fun _ => silent_of_none (by simp [message?])
  | closed =>
      exact hinv.of_silent hregistry (List.append_nil _).symm rfl fun _ =>
        silent_of_none (by simp)

theorem streamInv_of_initial (hinit : PubSub.Initial r) : StreamInv req r where
  registry := hinit.registryInv
  cases h := .inr (by simp [Refused, hinit.log, texts, stream])
  idle h _ := by simp [hinit.log, stream]
  running h hrunning := by
    rw [hinit.handler h] at hrunning
    cases hrunning

end SecDetector.Sdk
