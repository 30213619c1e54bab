import SecDetector.PubSub.Registry

/-!
# The fan-out of published texts

A subscriber should get the texts that are published while it is subscribed, on a
topic of its mask, whatever happens to the other subscribers.  `texts` is what was
written to it, `due` is what it should have got; both are read off the log.

`Publish` returns at the first write that fails, so the subscribers that come later
in the traversal get nothing.  `texts_eq_due_iff` says that this is the only way in
which a text is lost: `NoneSkipped` excludes the calls of `Publish` in which a failing
writer stands in front of one that has never failed.
-/

namespace SecDetector.PubSub

open Lib

variable {H : Type*} [DecidableEq H] {req : H → SubscribeRequest} {s s' : State H} {h : H}
  {topic : BitVec 32} {data : String} {sent : H → Bool} {entries : List (Entry H)}

/-! ## What was written, and what was due -/

/-- A write to the stream of `h` has failed. -/
def WriterFailed (h : H) (log : List (Event H)) : Prop :=
  ∃ source text, .wrote h source text false ∈ log

/-- The published text that an event writes to the stream of `h`. -/
def Event.text? (h : H) : Event H → Option String
  | .wrote h' .publish text true => if h' = h then some text else none
  | _ => none

/-- The published texts written to the stream of `h`. -/
def texts (h : H) (log : List (Event H)) : List String :=
  log.filterMap (Event.text? h)

/-- One event, seen by `h`: whether it is subscribed, and the texts due so far. -/
def dueStep (req : H → SubscribeRequest) (h : H) (acc : Bool × List String) (e : Event H) :
    Bool × List String :=
  (e.after h acc.1, match e with
    | .published topic data =>
        if acc.1 = true ∧ (req h).topic &&& topic ≠ 0 then acc.2 ++ [data] else acc.2
    | _ => acc.2)

/-- The texts published while `h` was subscribed, on a topic with a bit of its mask. -/
def due (req : H → SubscribeRequest) (h : H) (log : List (Event H)) : List String :=
  (log.foldl (dueStep req h) (false, [])).2

/-- Every subscriber whose writer has never failed has got all its texts. -/
def AllDelivered (req : H → SubscribeRequest) (s : State H) : Prop :=
  ∀ h, ¬ WriterFailed h s.log → texts h s.log = due req h s.log

/-- In a call of `Publish`, no matching writer fails in front of a matching one that has
never failed. -/
def NoneSkipped (s : State H) : Action H → Prop
  | .publish topic _ entries sent => ∀ pre b post, entries = pre ++ b :: post →
      b.2.topic &&& topic ≠ 0 → sent b.2.writer = false →
      ∀ e ∈ post, e.2.topic &&& topic ≠ 0 → WriterFailed e.2.writer s.log
  | _ => True

/-! ## The log grows -/

theorem texts_append (log events : List (Event H)) :
    texts h (log ++ events) = texts h log ++ texts h events :=
  List.filterMap_append

theorem dueStep_fst (log : List (Event H)) (acc : Bool × List String) :
    (log.foldl (dueStep req h) acc).1 = log.foldl (Event.after h) acc.1 := by
  induction log generalizing acc with
  | nil => rfl
  | cons e log ih =>
      rw [List.foldl_cons, List.foldl_cons, ih]
      rfl

omit [DecidableEq H] in
theorem WriterFailed.append {log : List (Event H)} (hfailed : WriterFailed h log)
    (events : List (Event H)) : WriterFailed h (log ++ events) := by
  obtain ⟨source, text, hmem⟩ := hfailed
  exact ⟨source, text, List.mem_append_left _ hmem⟩

/-- Events of no call of `Publish`. -/
def Event.isQuiet : Event H → Bool
  | .published _ _ | .wrote _ .publish _ _ => false
  | _ => true

theorem texts_of_quiet {events : List (Event H)} (hquiet : ∀ e ∈ events, e.isQuiet = true) :
    texts h events = [] := by
  unfold texts
  rw [List.filterMap_eq_nil_iff]
  intro e he
  have hevent := hquiet e he
  cases e with
  | wrote h' source text sent => cases source <;> simp_all [Event.isQuiet, Event.text?]
  | _ => rfl

theorem due_of_quiet {events : List (Event H)} (hquiet : ∀ e ∈ events, e.isQuiet = true)
    (acc : Bool × List String) : (events.foldl (dueStep req h) acc).2 = acc.2 := by
  induction events generalizing acc with
  | nil => rfl
  | cons e events ih =>
      rw [List.forall_mem_cons] at hquiet
      rw [List.foldl_cons, ih hquiet.2]
      cases e with
      | published => simp [Event.isQuiet] at hquiet
      | _ => rfl

/-- Steps that publish nothing. -/
theorem AllDelivered.of_quiet (hall : AllDelivered req s) {events : List (Event H)}
    (hlog : s'.log = s.log ++ events) (hquiet : ∀ e ∈ events, e.isQuiet = true) :
    AllDelivered req s' := by
  intro h hnever
  have hold : ¬ WriterFailed h s.log := by
    intro hfailed
    exact hnever (hlog ▸ hfailed.append events)
  rw [hlog, texts_append, texts_of_quiet hquiet, List.append_nil, hall h hold, due, due,
    List.foldl_append, due_of_quiet hquiet]

/-! ## One call of `Publish` -/

omit [DecidableEq H] in
/-- The loop ends at the first matching writer that fails. -/
theorem publishLoop_stop {b : Entry H} (htopic : b.2.topic &&& topic ≠ 0)
    (hfails : sent b.2.writer = false) (post pre : List (Entry H)) :
    publishLoop topic data sent (pre ++ b :: post) = publishLoop topic data sent (pre ++ [b]) := by
  induction pre with
  | nil =>
      obtain ⟨name, sub⟩ := b
      simp only [List.nil_append, publishLoop, if_pos htopic, hfails]
      rfl
  | cons e pre ih =>
      rw [List.cons_append, List.cons_append, publishLoop, publishLoop, ih]

/-- Nothing is published to a stream without a matching entry in the traversal. -/
theorem texts_publishLoop_eq_nil (data : String) (sent : H → Bool)
    (hnone : ∀ e ∈ entries, e.2.topic &&& topic ≠ 0 → e.2.writer ≠ h) :
    texts h (publishLoop topic data sent entries).2 = [] := by
  unfold texts
  rw [List.filterMap_eq_nil_iff]
  intro e he
  obtain ⟨entry, hentry, htopic, rfl⟩ := mem_publishLoop he
  have hne := hnone entry hentry htopic
  cases hsent : sent entry.2.writer <;> simp [Event.text?, hne]

/-- A matching subscriber gets the text, or its writer fails, or it is skipped because
another writer fails. -/
theorem publishLoop_cases (data : String) (sent : H → Bool) {entry : Entry H}
    (htopic : entry.2.topic &&& topic ≠ 0) (hnodup : (entries.map fun e => e.2.writer).Nodup)
    (hmem : entry ∈ entries) :
    texts entry.2.writer (publishLoop topic data sent entries).2 = [data] ∨
      WriterFailed entry.2.writer (publishLoop topic data sent entries).2 ∨
      ∃ pre b post, entries = pre ++ b :: post ∧ b.2.topic &&& topic ≠ 0 ∧
        sent b.2.writer = false ∧ entry ∈ post := by
  induction entries with
  | nil => simp at hmem
  | cons head entries ih =>
      obtain ⟨name, sub⟩ := head
      rw [List.map_cons, List.nodup_cons] at hnodup
      rcases List.mem_cons.mp hmem with rfl | hmem
      · -- the subscriber itself
        simp only [publishLoop, if_pos htopic]
        split
        · refine .inl ?_
          have hrest : texts sub.writer (publishLoop topic data sent entries).2 = [] := by
            apply texts_publishLoop_eq_nil
            intro other hother _ heq
            exact hnodup.1 (List.mem_map.mpr ⟨other, hother, heq⟩)
          unfold texts at hrest ⊢
          simp [Event.text?, hrest]
        · exact .inr (.inl ⟨.publish, data, by simp⟩)
      · have hne : sub.writer ≠ entry.2.writer := by
          intro heq
          exact hnodup.1 (List.mem_map.mpr ⟨entry, hmem, heq.symm⟩)
        have hrest := ih hnodup.2 hmem
        by_cases hmatch : sub.topic &&& topic ≠ 0
        · cases hsent : sent sub.writer with
          | false => exact .inr (.inr ⟨[], ⟨name, sub⟩, entries, rfl, hmatch, hsent, hmem⟩)
          | true =>
              simp only [publishLoop, if_pos hmatch, hsent]
              rcases hrest with htext | ⟨source, text, hfailed⟩ |
                ⟨pre, b, post, rfl, hb, hfails, hpost⟩
              · refine .inl ?_
                unfold texts at htext ⊢
                simpa [Event.text?, hne] using htext
              · exact .inr (.inl ⟨source, text, List.mem_cons_of_mem _ hfailed⟩)
              · exact .inr (.inr ⟨⟨name, sub⟩ :: pre, b, post, rfl, hb, hfails, hpost⟩)
        · simp only [publishLoop, if_neg hmatch]
          rcases hrest with htext | hfailed | ⟨pre, b, post, rfl, hb, hfails, hpost⟩
          · exact .inl htext
          · exact .inr (.inl hfailed)
          · exact .inr (.inr ⟨⟨name, sub⟩ :: pre, b, post, rfl, hb, hfails, hpost⟩)

omit [DecidableEq H] in
/-- Nothing is written to a stream without a matching entry in front of the end of the
loop. -/
theorem not_mem_publishLoop (data : String) (sent : H → Bool)
    (hnone : ∀ e ∈ entries, e.2.topic &&& topic ≠ 0 → e.2.writer ≠ h)
    (source : Source) (text : String) (b : Bool) :
    .wrote h source text b ∉ (publishLoop topic data sent entries).2 := by
  intro hmem
  obtain ⟨e, he, htopic, heq⟩ := mem_publishLoop hmem
  injection heq with hwriter
  exact hnone e he htopic hwriter.symm

/-- The texts due after a call of `Publish`. -/
theorem due_publish (log : List (Event H)) :
    due req h (log ++ .published topic data :: (publishLoop topic data sent entries).2) =
      due req h log ++ if subscribed h log = true ∧ (req h).topic &&& topic ≠ 0 then [data]
        else [] := by
  -- writes make no text due: only the call itself does
  have hwrites : ∀ (events : List (Event H)) (acc : Bool × List String),
      (∀ e ∈ events, ∃ h' source text b, e = .wrote h' source text b) →
      events.foldl (dueStep req h) acc = acc := by
    intro events
    induction events with
    | nil =>
        intro acc _
        rfl
    | cons e events ih =>
        intro acc hevents
        rw [List.forall_mem_cons] at hevents
        obtain ⟨⟨h', source, text, b, rfl⟩, hrest⟩ := hevents
        rw [List.foldl_cons]
        exact ih acc hrest
  have hsub : (log.foldl (dueStep req h) (false, [])).1 = subscribed h log := dueStep_fst _ _
  rw [due, due, List.foldl_append, List.foldl_cons, hwrites]
  · simp only [dueStep, hsub]
    split <;> simp
  · intro e he
    obtain ⟨entry, _, _, rfl⟩ := mem_publishLoop he
    exact ⟨_, _, _, _, rfl⟩

/-! ## Traversals of the map -/

/-- No writer occurs twice in a traversal. -/
theorem RegistryInv.writers_nodup (hinv : RegistryInv req s)
    (hperm : entries.Perm s.suberTopic.entries) : (entries.map fun e => e.2.writer).Nodup := by
  have hnames : (entries.map fun e => e.2.writer).map (fun w => (req w).subName) =
      entries.map Sigma.fst := by
    rw [List.map_map]
    apply List.map_congr_left
    intro e he
    have hlookup := AList.mem_lookup_iff.mpr (hperm.mem_iff.mp he)
    exact (hinv.entry e.1 e.2 hlookup).1
  -- two entries with one writer would carry its client name twice, but names are keys
  have hkeys : (entries.map Sigma.fst).Nodup := (hperm.map _).nodup_iff.mpr s.suberTopic.keys_nodup
  exact List.Nodup.of_map _ (hnames ▸ hkeys)

/-- The entry of a subscribed call is traversed, and no other entry is its own. -/
theorem RegistryInv.mem_traversal (hinv : RegistryInv req s)
    (hperm : entries.Perm s.suberTopic.entries) {e : Entry H} :
    e ∈ entries ↔ subscribed e.2.writer s.log = true ∧
      e = ⟨(req e.2.writer).subName, ownEntry req e.2.writer⟩ := by
  rw [hperm.mem_iff, hinv.subscribed_iff]
  obtain ⟨name, sub⟩ := e
  rw [← AList.mem_lookup_iff, Option.mem_def]
  constructor
  · intro hlookup
    obtain ⟨hname, hsub⟩ := hinv.entry name sub hlookup
    dsimp only at hname hsub ⊢
    rw [hname, ← hsub]
    exact ⟨hlookup, rfl⟩
  · intro hown
    obtain ⟨hlookup, heq⟩ := hown
    obtain ⟨hname, hsub⟩ := Sigma.mk.inj heq
    rw [hname, eq_of_heq hsub]
    exact hlookup

/-! ## Runs -/

/-- The invariant of the fan-out. -/
structure FanoutInv (req : H → SubscribeRequest) (s : State H) : Prop where
  registry : RegistryInv req s
  delivered : AllDelivered req s

theorem Initial.fanoutInv (hinit : Initial s) : FanoutInv req s where
  registry := hinit.registryInv
  delivered h _ := by simp [hinit.log, texts, due]

/-- A call of `Publish` that skips no subscriber. -/
theorem FanoutInv.publish (hinv : FanoutInv req s) (hperm : entries.Perm s.suberTopic.entries)
    (hok : NoneSkipped s (.publish topic data entries sent)) :
    AllDelivered req
      (s.record (.published topic data :: (publishLoop topic data sent entries).2)) := by
  intro h hnever
  have hold : ¬ WriterFailed h s.log := by
    intro hfailed
    exact hnever (hfailed.append _)
  have hnow : ¬ WriterFailed h (publishLoop topic data sent entries).2 := by
    intro hfailed
    obtain ⟨source, text, hmem⟩ := hfailed
    exact hnever ⟨source, text, List.mem_append_right _ (List.mem_cons_of_mem _ hmem)⟩
  have hsplit : texts h (.published topic data :: (publishLoop topic data sent entries).2) =
      texts h (publishLoop topic data sent entries).2 := rfl
  rw [State.record, due_publish, texts_append, hinv.delivered h hold, hsplit]
  congr 1
  split
  · rename_i hmatch
    obtain ⟨hsub, htopic⟩ := hmatch
    have hentry : (⟨(req h).subName, ownEntry req h⟩ : Entry H) ∈ entries :=
      (hinv.registry.mem_traversal hperm).mpr ⟨hsub, rfl⟩
    have hnodup := hinv.registry.writers_nodup hperm
    -- reached and written, reached and lost, or behind a failing write, which `hok` excludes
    rcases publishLoop_cases data sent htopic hnodup hentry with
      htext | hfailed | ⟨pre, b, post, hsplit, hb, hfails, hpost⟩
    · exact htext
    · exact absurd hfailed hnow
    · exact absurd (hok pre b post hsplit hb hfails _ hpost htopic) hold
  · rename_i hmatch
    apply texts_publishLoop_eq_nil
    intro e he htopic heq
    obtain ⟨hsub, hentry⟩ := (hinv.registry.mem_traversal hperm).mp he
    rw [hentry] at htopic
    rw [heq] at hsub htopic
    exact hmatch ⟨hsub, htopic⟩

theorem FanoutInv.step {a : Action H} (hinv : FanoutInv req s) (hok : NoneSkipped s a)
    (hstep : step req s a = some s') : FanoutInv req s' := by
  refine ⟨hinv.registry.step hstep, ?_⟩
  have hall := hinv.delivered
  have houtcome := step_outcome hstep
  cases houtcome with
  | rejected h sent reported text status hpc =>
      apply hall.of_quiet (List.append_assoc _ _ _)
      simp [Event.isQuiet]
  | registered h text hpc hnum hname => exact hall.of_quiet rfl (by simp [Event.isQuiet])
  | killed h hpc hkilled => exact hall.of_quiet rfl (by simp [Event.isQuiet])
  | gone h sent hpc hname => exact hall.of_quiet rfl (by simp [Event.isQuiet])
  | alive h hpc hkilled => exact hall
  | woken h hpc => exact hall
  | closed => exact hall
  | kept h hpc hname => exact hall.of_quiet rfl (by simp [Event.isQuiet])
  | lost h sub hpc hlookup => exact hall.of_quiet rfl (by simp [Event.isQuiet])
  | published topic data entries sent hperm => exact hinv.publish hperm hok
  | unknown name hname => exact hall.of_quiet rfl (by simp [Event.isQuiet])
  | unsubscribed name sub hlookup => exact hall.of_quiet rfl (by simp [Event.isQuiet])

/-- A call of `Publish` after which every subscriber has its texts has skipped nobody. -/
theorem FanoutInv.noneSkipped {a : Action H} (hinv : FanoutInv req s)
    (hstep : PubSub.step req s a = some s') (hall : AllDelivered req s') : NoneSkipped s a := by
  have houtcome := step_outcome hstep
  cases houtcome with
  | published topic data entries sent hperm =>
      intro pre b post hsplit hb hfails e he htopic
      subst hsplit
      by_contra hold
      obtain ⟨hsub, heq⟩ := (hinv.registry.mem_traversal hperm).mp
        (List.mem_append_right _ (List.mem_cons_of_mem _ he))
      -- the loop has ended before it came to `e`
      have hnodup := hinv.registry.writers_nodup hperm
      have hskip : ∀ x ∈ pre ++ [b], x.2.topic &&& topic ≠ 0 → x.2.writer ≠ e.2.writer := by
        intro x hx _ hxe
        rw [List.append_cons, List.map_append, List.nodup_append] at hnodup
        exact hnodup.2.2 _ (List.mem_map_of_mem hx) _ (List.mem_map_of_mem he) hxe
      have hwrites := not_mem_publishLoop data sent hskip
      rw [← publishLoop_stop hb hfails post pre] at hwrites
      have hnever : ¬ WriterFailed e.2.writer (s.record (.published topic data ::
          (publishLoop topic data sent (pre ++ b :: post)).2)).log := by
        intro hfailed
        obtain ⟨source, text, hmem⟩ := hfailed
        rcases List.mem_append.mp hmem with hmem | hmem
        · exact hold ⟨source, text, hmem⟩
        · rcases List.mem_cons.mp hmem with hmem | hmem
          · simp at hmem
          · exact hwrites source text false hmem
      have hnothing : texts e.2.writer (.published topic data ::
          (publishLoop topic data sent (pre ++ b :: post)).2) = [] := by
        rw [publishLoop_stop hb hfails post pre]
        exact texts_publishLoop_eq_nil data sent hskip
      have htopic' : (req e.2.writer).topic &&& topic ≠ 0 := by
        rw [heq] at htopic
        exact htopic
      have hgot := hall e.2.writer hnever
      rw [State.record, due_publish, texts_append, hnothing, List.append_nil,
        hinv.delivered e.2.writer hold, if_pos ⟨hsub, htopic'⟩] at hgot
      simpa using congrArg List.length hgot
  | _ => trivial

/-- **When one bad subscriber costs the others nothing.**  The runs in which no `Publish`
skips a subscriber are exactly the runs in which, in every state, every subscriber
whose writer has never failed has got exactly the texts due to it. -/
theorem texts_eq_due_iff {acts : List (Action H)} {s : State H} :
    Run (step req) NoneSkipped Initial acts s ↔
      Run (step req) (Leads (step req) (AllDelivered req)) Initial acts s :=
  Run.leads_iff (fun _ hinit => hinit.fanoutInv) (fun _ _ _ hinv hok hst => hinv.step hok hst)
    (fun _ hinv => hinv.delivered) fun _ _ _ hinv hst hall => hinv.noneSkipped hst hall

/-! ## A skipped subscriber

Two subscribers of the same topic.  The writer of the first in the traversal fails,
and the second gets nothing. -/

/-- The service before its first call. -/
def freshServer : State Bool where
  suberTopic := ∅
  connectionNum := 0
  killed := false
  handler _ := .idle
  log := []

theorem freshServer_initial : Initial freshServer where
  suberTopic := rfl
  connectionNum := rfl
  killed := rfl
  handler _ := rfl
  log := rfl

/-- Two clients with the same mask. -/
def twoClients (h : Bool) : SubscribeRequest :=
  ⟨1, if h then "second" else "first"⟩

/-- Both subscribe, and a text is published. -/
def skipActions : List (Action Bool) :=
  [.subscribe false true, .subscribe true true,
    .publish 1 "text" [⟨"first", ⟨1, false⟩⟩, ⟨"second", ⟨1, true⟩⟩] id]

theorem skip_end : (exec (step twoClients) freshServer skipActions).map (fun s =>
      (texts true s.log, due twoClients true s.log,
        s.log.all fun e => match e with
          | .wrote true _ _ false => false
          | _ => true)) =
    some ([], ["text"], true) := by
  decide +kernel

/-- A text can be lost although the subscriber's own writer has never failed. -/
theorem not_texts_eq_due :
    ¬ ∀ (req : Bool → SubscribeRequest) (acts : List (Action Bool)) (s : State Bool),
      Run (step req) Unguarded Initial acts s → AllDelivered req s := by
  intro hclaim
  obtain ⟨s, hexec, hend⟩ := Option.map_eq_some_iff.mp skip_end
  simp only [Prod.mk.injEq] at hend
  obtain ⟨htexts, hdue, hnever⟩ := hend
  have hall := hclaim twoClients _ s (.of_exec freshServer_initial (fun _ _ _ => trivial) hexec)
  have hgot := hall true fun ⟨source, text, hmem⟩ => by
    simpa using List.all_eq_true.mp hnever _ hmem
  rw [htexts, hdue] at hgot
  simp at hgot

end SecDetector.PubSub
