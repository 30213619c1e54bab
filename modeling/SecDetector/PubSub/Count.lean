import SecDetector.PubSub.Fanout

/-!
# The number of subscribers

`connection_num` is kept beside `suber_topic_` and is what the limit is checked
against.  The two are updated separately, on registration and on two paths of removal,
while four error paths return early.  `CountInv` says that they never drift apart, and
`subscribe_refused` and `unSubscribe_refused` that an early return touches neither.
-/

namespace SecDetector.PubSub

open Lib

variable {H : Type*} [DecidableEq H] {req : H → SubscribeRequest} {s s' : State H} {h : H}

/-- `connection_num` is the size of the map, and the limit is kept. -/
structure CountInv (s : State H) : Prop where
  count : s.connectionNum = s.suberTopic.keys.length
  bounded : s.connectionNum ≤ maxConnection

omit [DecidableEq H] in
theorem Initial.countInv (hinit : Initial s) : CountInv s where
  count := by simp [hinit.suberTopic, hinit.connectionNum]
  bounded := by simp [hinit.connectionNum, maxConnection]

omit [DecidableEq H] in
theorem CountInv.nonneg (hinv : CountInv s) : 0 ≤ s.connectionNum := by
  rw [hinv.count]
  exact Int.natCast_nonneg _

omit [DecidableEq H] in
/-- While somebody is in the map, the count is positive. -/
theorem CountInv.pos_of_mem (hinv : CountInv s) {name : String} (hname : name ∈ s.suberTopic) :
    0 < s.connectionNum := by
  rw [hinv.count]
  exact Int.natCast_pos.mpr (List.length_pos_of_mem (AList.mem_keys.mp hname))

omit [DecidableEq H] in
theorem length_keys_insert {map : SuberTopic H} {name : String} (hname : name ∉ map)
    (sub : Subscribers H) : (map.insert name sub).keys.length = map.keys.length + 1 := by
  rw [AList.keys_insert, List.length_cons, List.erase_of_not_mem]
  exact fun hmem => hname (AList.mem_keys.mpr hmem)

omit [DecidableEq H] in
theorem length_keys_erase {map : SuberTopic H} {name : String} {sub : Subscribers H}
    (hlookup : map.lookup name = some sub) :
    ((map.erase name).keys.length : ℤ) = map.keys.length - 1 := by
  have hmem : name ∈ map.keys :=
    AList.mem_keys.mp (AList.lookup_isSome.mp (by simp [hlookup]))
  have hpos := List.length_pos_of_mem hmem
  rw [AList.keys_erase, List.length_erase_of_mem hmem]
  omega

omit [DecidableEq H] in
/-- A step that leaves the map and the count alone. -/
theorem CountInv.of_same (hinv : CountInv s) (hmap : s'.suberTopic = s.suberTopic)
    (hnum : s'.connectionNum = s.connectionNum) : CountInv s' where
  count := by rw [hnum, hmap, hinv.count]
  bounded := by rw [hnum]; exact hinv.bounded

omit [DecidableEq H] in
/-- A registration below the limit, under a free name. -/
theorem CountInv.insert (hinv : CountInv s) {name : String} {sub : Subscribers H}
    (hname : name ∉ s.suberTopic) (hlimit : s.connectionNum < maxConnection)
    (hmap : s'.suberTopic = s.suberTopic.insert name sub)
    (hnum : s'.connectionNum = s.connectionNum + 1) : CountInv s' where
  count := by
    rw [hnum, hmap, length_keys_insert hname, hinv.count]
    push_cast
    rfl
  bounded := by rw [hnum]; exact Int.add_one_le_iff.mpr hlimit

omit [DecidableEq H] in
/-- The removal of an entry that is there. -/
theorem CountInv.erase (hinv : CountInv s) {name : String} {sub : Subscribers H}
    (hlookup : s.suberTopic.lookup name = some sub)
    (hmap : s'.suberTopic = s.suberTopic.erase name)
    (hnum : s'.connectionNum = s.connectionNum - 1) : CountInv s' where
  count := by rw [hnum, hmap, length_keys_erase hlookup, hinv.count]
  bounded := by
    have hbound := hinv.bounded
    omega

theorem CountInv.step {a : Action H} (hinv : CountInv s) (hstep : step req s a = some s') :
    CountInv s' := by
  have houtcome := step_outcome hstep
  cases houtcome with
  | registered h text hpc hnum hname => exact hinv.insert hname hnum rfl rfl
  -- both paths of removal erase an entry that was found
  | lost h sub hpc hlookup => exact hinv.erase hlookup rfl rfl
  | unsubscribed name sub hlookup => exact hinv.erase hlookup rfl rfl
  | rejected | killed | alive | gone | kept | woken | published | unknown | closed =>
      exact hinv.of_same rfl rfl

theorem countInv_of_reachable (hreach : Reachable (step req) Initial s) : CountInv s :=
  hreach.invariant (fun _ hinit => hinit.countInv) fun _ _ _ hinv hstep => hinv.step hstep

/-! ## Calls that return an error -/

/-- A call that returns has returned. -/
@[simp] theorem handler_return (s : State H) (h : H) (status : Status) :
    (s.return h status).handler h = .returned status := by
  simp [State.return, State.setHandler, State.record]

/-- Why a `Subscribe` is turned down. -/
def SubscribeRefused (req : H → SubscribeRequest) (h : H) (sent : Bool) (s : State H) : Prop :=
  maxConnection ≤ s.connectionNum ∨ (req h).subName ∈ s.suberTopic ∨ sent = false

/-- The first section of `Subscribe` returns an error exactly on one of the three
grounds, and then it has stored nothing. -/
theorem subscribe_refused (req : H → SubscribeRequest) (h : H) (sent : Bool) (s : State H) :
    ((∃ message, (subscribe (req h) h sent s).handler h = .returned (.internal message)) ↔
        SubscribeRefused req h sent s) ∧
      (SubscribeRefused req h sent s →
        (subscribe (req h) h sent s).suberTopic = s.suberTopic ∧
          (subscribe (req h) h sent s).connectionNum = s.connectionNum) := by
  unfold subscribe SubscribeRefused
  split
  · rename_i hlimit
    exact ⟨iff_of_true ⟨_, handler_return _ _ _⟩ (.inl hlimit), fun _ => ⟨rfl, rfl⟩⟩
  · rename_i hlimit
    split
    · rename_i hname
      exact ⟨iff_of_true ⟨_, handler_return _ _ _⟩ (.inr (.inl hname)), fun _ => ⟨rfl, rfl⟩⟩
    · rename_i hname
      cases sent with
      | true =>
          -- a client that is told of its success is registered
          have hnot : ¬ (maxConnection ≤ s.connectionNum ∨ (req h).subName ∈ s.suberTopic ∨
              true = false) := by simp [hlimit, hname]
          exact ⟨iff_of_false (by simp) hnot, fun hrefused => absurd hrefused hnot⟩
      | false =>
          exact ⟨iff_of_true ⟨_, handler_return _ _ _⟩ (.inr (.inr rfl)), fun _ => ⟨rfl, rfl⟩⟩

omit [DecidableEq H] in
/-- `UnSubscribe` returns an error exactly for an unknown name, and then it has removed
nothing. -/
theorem unSubscribe_refused (hinv : CountInv s) (name : String) :
    ((∃ message, (unSubscribe name s).1 = .internal message) ↔ name ∉ s.suberTopic) ∧
      (name ∉ s.suberTopic →
        (unSubscribe name s).2.2.suberTopic = s.suberTopic ∧
          (unSubscribe name s).2.2.connectionNum = s.connectionNum) := by
  unfold unSubscribe
  dsimp only [State.record]
  split
  · rename_i hnum
    -- an empty count means an empty map
    have hname : name ∉ s.suberTopic := fun hmem =>
      absurd hnum (Int.not_le.mpr (hinv.pos_of_mem hmem))
    exact ⟨iff_of_true ⟨_, rfl⟩ hname, fun _ => ⟨rfl, rfl⟩⟩
  · cases hlookup : s.suberTopic.lookup name with
    | none =>
        have hname := AList.lookup_eq_none.mp hlookup
        simp [deleteSubscriberByCliName, hlookup, hname]
    | some sub =>
        have hname : name ∈ s.suberTopic := AList.lookup_isSome.mp (by simp [hlookup])
        simp [deleteSubscriberByCliName, hlookup, hname]

/-- The count of a state is exact and within its bounds, and a call that is turned down
in that state changes neither the count nor the map. -/
structure CountExact (req : H → SubscribeRequest) (s : State H) : Prop where
  count : s.connectionNum = s.suberTopic.entries.length
  nonneg : 0 ≤ s.connectionNum
  bounded : s.connectionNum ≤ maxConnection
  subscribe : ∀ h sent s', step req s (.subscribe h sent) = some s' →
    ((∃ message, s'.handler h = .returned (.internal message)) ↔
        SubscribeRefused req h sent s) ∧
      (SubscribeRefused req h sent s →
        s'.suberTopic = s.suberTopic ∧ s'.connectionNum = s.connectionNum)
  unSubscribe : ∀ name,
    ((∃ message, (unSubscribe name s).1 = .internal message) ↔ name ∉ s.suberTopic) ∧
      (name ∉ s.suberTopic →
        (unSubscribe name s).2.2.suberTopic = s.suberTopic ∧
          (unSubscribe name s).2.2.connectionNum = s.connectionNum)

/-- **The subscriber count is exact and bounded**, in every state in which no call is
inside a locked section. -/
theorem count_exact (hreach : Reachable (step req) Initial s) : CountExact req s where
  count := by
    rw [(countInv_of_reachable hreach).count, AList.keys, List.keys, List.length_map]
  nonneg := (countInv_of_reachable hreach).nonneg
  bounded := (countInv_of_reachable hreach).bounded
  subscribe h sent s' hstep := by
    simp only [step] at hstep
    split at hstep
    · obtain rfl := Option.some.inj hstep
      exact subscribe_refused req h sent s
    · simp at hstep
  unSubscribe := unSubscribe_refused (countInv_of_reachable hreach)

/-- Two clients of which the second has left again. -/
def leaveActions : List (Action Bool) :=
  [.subscribe false true, .subscribe true true, .unSubscribe "second"]

theorem leave_countExact :
    ∃ s, exec (step twoClients) freshServer leaveActions = some s ∧ CountExact twoClients s :=
  ⟨_, rfl, count_exact ⟨leaveActions, .of_exec freshServer_initial (fun _ _ _ => trivial) rfl⟩⟩

end SecDetector.PubSub
