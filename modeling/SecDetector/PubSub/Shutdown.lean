import SecDetector.PubSub.Fanout

/-!
# Writers and their calls

A `ServerWriter` is valid until its `Subscribe` returns, so every entry of the map
must belong to a call that is still running.  Three of the four ways out of
`Subscribe` see to that: a rejected call has stored nothing, a call whose name is gone
has nothing stored, and a call whose keepalive fails erases its entry.  The fourth,
the exit from the loop when `killed` is set, leaves the entry behind, and
`writers_alive_iff` says that nothing else does.
-/

namespace SecDetector.PubSub

open Lib

variable {H : Type*} [DecidableEq H] {req : H → SubscribeRequest} {s s' : State H} {h : H}

/-- The call is past its registration and has not returned. -/
def HandlerPc.running : HandlerPc → Bool
  | .loop | .keepalive | .waiting => true
  | .idle | .returned _ => false

/-- Every writer in the map belongs to a running call. -/
def WritersAlive (s : State H) : Prop :=
  ∀ name sub, s.suberTopic.lookup name = some sub → (s.handler sub.writer).running = true

/-- No call leaves its loop on `killed` while its own entry is in the map. -/
def ExitsErased (req : H → SubscribeRequest) (s : State H) : Action H → Prop
  | .testKilled h => s.killed = true →
      s.suberTopic.lookup (req h).subName ≠ some (ownEntry req h)
  | _ => True

/-- The registry, with running calls. -/
structure AliveInv (req : H → SubscribeRequest) (s : State H) : Prop where
  registry : RegistryInv req s
  alive : WritersAlive s

theorem Initial.aliveInv (hinit : Initial s) : AliveInv req s where
  registry := hinit.registryInv
  alive name sub hlookup := by simp [hinit.suberTopic] at hlookup

/-- One call moves; it keeps running, or it has no entry. -/
theorem AliveInv.of_move (hinv : AliveInv req s) {pc : HandlerPc}
    (hmap : s'.suberTopic = s.suberTopic)
    (hhandler : s'.handler = Function.update s.handler h pc)
    (hpc : pc.running = true ∨ s.suberTopic.lookup (req h).subName ≠ some (ownEntry req h)) :
    WritersAlive s' := by
  intro name sub hlookup
  rw [hmap] at hlookup
  rw [hhandler]
  by_cases hsub : sub.writer = h
  · obtain ⟨hname, hown⟩ := hinv.registry.entry name sub hlookup
    rw [hsub] at hname hown
    rcases hpc with hrunning | hnone
    · rw [hsub, Function.update_self]
      exact hrunning
    · rw [hname] at hnone
      exact absurd (hown ▸ hlookup) hnone
  · rw [Function.update_of_ne hsub]
    exact hinv.alive name sub hlookup

/-- A call that is not running has no entry. -/
theorem AliveInv.lookup_ne (hinv : AliveInv req s) (hpc : (s.handler h).running = false) :
    s.suberTopic.lookup (req h).subName ≠ some (ownEntry req h) := by
  intro hlookup
  have hrunning := hinv.alive _ _ hlookup
  rw [ownEntry, hpc] at hrunning
  simp at hrunning

omit [DecidableEq H] in
theorem lookup_ne_of_not_mem {name : String} (hname : name ∉ s.suberTopic)
    (sub : Subscribers H) : s.suberTopic.lookup name ≠ some sub := by
  rw [AList.lookup_eq_none.mpr hname]
  simp

theorem AliveInv.step {a : Action H} (hinv : AliveInv req s) (hok : ExitsErased req s a)
    (hstep : step req s a = some s') : AliveInv req s' := by
  refine ⟨hinv.registry.step hstep, ?_⟩
  have houtcome := step_outcome hstep
  cases houtcome with
  | rejected h sent reported text status hpc =>
      exact hinv.of_move rfl rfl (.inr (hinv.lookup_ne (by rw [hpc]; rfl)))
  | registered h text hpc hnum hname =>
      intro name sub hlookup
      dsimp only at hlookup ⊢
      by_cases hn : name = (req h).subName
      · rw [hn, AList.lookup_insert, Option.some.injEq] at hlookup
        rw [← hlookup, Function.update_self]
        rfl
      · rw [AList.lookup_insert_ne hn] at hlookup
        rw [Function.update_of_ne (hinv.registry.writer_ne hlookup hn)]
        exact hinv.alive name sub hlookup
  -- the only exit from the loop that does not look into the map, hence the condition
  | killed h hpc hkilled => exact hinv.of_move rfl rfl (.inr (hok hkilled))
  | alive h hpc hkilled => exact hinv.of_move rfl rfl (.inl rfl)
  | gone h sent hpc hname =>
      exact hinv.of_move rfl rfl (.inr (lookup_ne_of_not_mem hname _))
  | kept h hpc hname => exact hinv.of_move rfl rfl (.inl rfl)
  | lost h sub hpc hlookup =>
      intro name sub' hlookup'
      obtain ⟨hn, hlookup'⟩ := lookup_of_erase hlookup'
      dsimp only
      rw [Function.update_of_ne (hinv.registry.writer_ne hlookup' hn)]
      exact hinv.alive name sub' hlookup'
  | woken h hpc => exact hinv.of_move rfl rfl (.inl rfl)
  | published topic data entries sent hperm => exact hinv.alive
  | unknown name hname => exact hinv.alive
  | unsubscribed name sub hlookup =>
      intro name' sub' hlookup'
      exact hinv.alive name' sub' (lookup_of_erase hlookup').2
  | closed => exact hinv.alive

/-- A step after which all writers are alive was no exit with an entry left behind. -/
theorem exitsErased_of_alive {a : Action H} (hstep : step req s a = some s')
    (halive : WritersAlive s') : ExitsErased req s a := by
  have houtcome := step_outcome hstep
  cases houtcome with
  | killed h hpc hkilled =>
      intro _ hlookup
      have hrunning := halive _ _ hlookup
      simp [ownEntry, State.return, State.record, State.setHandler, HandlerPc.running] at hrunning
  | alive h hpc hkilled =>
      intro hcontra
      simp [hkilled] at hcontra
  | _ => trivial

/-- **When `Publish` never writes through a dead stream.**  The runs in which no call
leaves its loop on `killed` with its entry still in the map are exactly the runs in
which, in every state, every writer in the map belongs to a running call. -/
theorem writers_alive_iff {acts : List (Action H)} {s : State H} :
    Run (step req) (ExitsErased req) Initial acts s ↔
      Run (step req) (Leads (step req) WritersAlive) Initial acts s :=
  Run.leads_iff (fun _ hinit => hinit.aliveInv) (fun _ _ _ hinv hok hst => hinv.step hok hst)
    (fun _ hinv => hinv.alive) fun _ _ _ _ hst halive => exitsErased_of_alive hst halive

/-! ## An entry left behind -/

/-- A client subscribes, the service is told to stop, and the call returns. -/
def shutdownActions : List (Action Bool) :=
  [.subscribe false true, .closeAllConnection, .testKilled false]

theorem shutdown_end : (exec (step twoClients) freshServer shutdownActions).map (fun s =>
      (s.suberTopic.lookup "first", s.handler false)) =
    some (some ⟨1, false⟩, .returned .ok) := by
  decide +kernel

/-- The map can hold the writer of a call that has returned. -/
theorem not_writers_alive :
    ¬ ∀ (req : Bool → SubscribeRequest) (acts : List (Action Bool)) (s : State Bool),
      Run (step req) Unguarded Initial acts s → WritersAlive s := by
  intro hclaim
  obtain ⟨s, hexec, hend⟩ := Option.map_eq_some_iff.mp shutdown_end
  obtain ⟨hlookup, hreturned⟩ := Prod.mk.inj hend
  have halive := hclaim twoClients _ s (.of_exec freshServer_initial (fun _ _ _ => trivial) hexec)
    "first" _ hlookup
  rw [hreturned] at halive
  simp [HandlerPc.running] at halive

end SecDetector.PubSub
