import SecDetector.Alarm.Buffers

/-!
# No buffer of the alarm log is lost, used too late or freed twice

Whatever calls overlap and whatever fails, every buffer is with one call, in the log, or freed
(`buffers_safe`), and the records come out of the log in the order in which they went in, each
once and to one call, with the text that was composed for it (`records_once`).
-/

namespace SecDetector.Alarm.Buffers

open Lib

variable {W : Type*} [DecidableEq W] {s s' : State W} {w : W}

/-! ## Where the buffers are -/

/-- What is in the memory of a buffer, by its place. -/
def InPlace (composed : List (List UInt8)) (data : ℕ) (cell : Cell) : Place W → Prop
  | .unused => composed.length ≤ data ∧ cell = .unused
  | .gone => data < composed.length ∧ cell = .freed
  | .held _ | .shared => ∃ bytes, composed[data]? = some bytes ∧ cell = .live bytes

/-- The buffers of the calls and of the log. -/
structure Placed (place : ℕ → Place W) (s : State W) : Prop where
  custody : Custody place (fun w => (s.pc w).log?.map Record.data)
    (s.logFifo.toList.map Record.data)
  mem : ∀ data, InPlace s.composed data (s.mem data) (place data)

omit [DecidableEq W] in
theorem Initial.placed (hinit : Initial s) : Placed (fun _ => Place.unused) s where
  custody := by
    rw [hinit.logFifo]
    exact Custody.start fun w => by rw [hinit.pc w]; rfl
  mem data := ⟨by simp [hinit.composed], hinit.mem data⟩

/-- What the calls hold when one of them moves. -/
theorem held_update (pc : Pc) :
    (fun w' => ((Function.update s.pc w pc w').log?.map Record.data)) =
      Function.update (fun w' => (s.pc w').log?.map Record.data) w (pc.log?.map Record.data) := by
  funext w'
  by_cases hw : w' = w
  · subst hw
    rw [Function.update_self, Function.update_self]
  · rw [Function.update_of_ne hw, Function.update_of_ne hw]

omit [DecidableEq W] in
theorem inPlace_live {composed : List (List UInt8)} {data : ℕ} {cell : Cell} {p : Place W}
    (hp : p = .shared ∨ ∃ w, p = .held w) :
    InPlace composed data cell p ↔ ∃ bytes, composed[data]? = some bytes ∧ cell = .live bytes := by
  rcases hp with rfl | ⟨w, rfl⟩ <;> rfl

omit [DecidableEq W] in
/-- Another buffer is allocated. -/
theorem InPlace.append {composed : List (List UInt8)} {data : ℕ} {cell : Cell} {p : Place W}
    (hin : InPlace composed data cell p) (hne : data ≠ composed.length) (bytes : List UInt8) :
    InPlace (composed ++ [bytes]) data cell p := by
  have hlength : (composed ++ [bytes]).length = composed.length + 1 := by simp
  cases p with
  | unused =>
      obtain ⟨hle, hcell⟩ := hin
      exact ⟨by omega, hcell⟩
  | gone =>
      obtain ⟨hlt, hcell⟩ := hin
      exact ⟨by omega, hcell⟩
  | held | shared =>
      obtain ⟨bytes', hget, hcell⟩ := hin
      refine ⟨bytes', ?_, hcell⟩
      rw [List.getElem?_append_left (List.getElem?_eq_some_iff.mp hget).1, hget]

omit [DecidableEq W] in
/-- The next buffer is unused. -/
theorem Placed.unused {place : ℕ → Place W} (hplaced : Placed place s) :
    place s.composed.length = .unused := by
  have hin := hplaced.mem s.composed.length
  cases hp : place s.composed.length with
  | unused => rfl
  | gone =>
      rw [hp] at hin
      exact absurd hin.1 (lt_irrefl _)
  | held | shared =>
      rw [hp] at hin
      obtain ⟨_, hget, _⟩ := hin
      simp at hget

omit [DecidableEq W] in
/-- A move of one buffer that stays allocated. -/
theorem Placed.mem_update {place : ℕ → Place W} (hplaced : Placed place s) {data : ℕ}
    {p : Place W} (hold : place data = .shared ∨ ∃ w, place data = .held w)
    (hnew : p = .shared ∨ ∃ w, p = .held w) (data' : ℕ) :
    InPlace s.composed data' (s.mem data') (Function.update place data p data') := by
  by_cases hdata : data' = data
  · subst hdata
    rw [Function.update_self, inPlace_live hnew, ← inPlace_live hold]
    exact hplaced.mem data'
  · rw [Function.update_of_ne hdata]
    exact hplaced.mem data'

theorem Placed.step {place : ℕ → Place W} (hplaced : Placed place s) (hmove : Move s w s') :
    ∃ place', Placed place' s' := by
  obtain ⟨hcustody, hmem⟩ := hplaced
  cases hmove with
  | @look pc inflag hlog haside =>
      refine ⟨place, ?_, hmem⟩
      have hsame : (fun w' => ((Function.update s.pc w pc w').log?.map Record.data)) =
          fun w' => (s.pc w').log?.map Record.data := by
        rw [held_update, hlog, Function.update_eq_self]
      dsimp only [State.setPc]
      rwa [hsame]
  | alloc bytes hlog =>
      have hunused := Placed.unused ⟨hcustody, hmem⟩
      refine ⟨Function.update place s.composed.length (.held w), ?_, fun data => ?_⟩
      · have hnext := hcustody.acquire (by rw [hlog]; rfl) hunused
        dsimp only [State.alloc]
        rw [held_update]
        exact hnext
      · dsimp only [State.alloc]
        by_cases hdata : data = s.composed.length
        · subst hdata
          rw [Function.update_self, Function.update_self]
          exact ⟨bytes, by simp, rfl⟩
        · rw [Function.update_of_ne hdata, Function.update_of_ne hdata]
          exact (hmem data).append hdata bytes
  | @free pc log hlog hpc =>
      have hheld : (s.pc w).log?.map Record.data = some log.data := by rw [hlog]; rfl
      have hplace := (hcustody.held_iff w log.data).mp hheld
      refine ⟨Function.update place log.data .gone, ?_, fun data => ?_⟩
      · have hnext := hcustody.drop hheld
        dsimp only
        rw [held_update, hpc]
        exact hnext
      · dsimp only
        by_cases hdata : data = log.data
        · subst hdata
          rw [Function.update_self, Function.update_self]
          have hin := hmem log.data
          rw [hplace] at hin
          obtain ⟨bytes, hget, _⟩ := hin
          exact ⟨(List.getElem?_eq_some_iff.mp hget).1, rfl⟩
        · rw [Function.update_of_ne hdata, Function.update_of_ne hdata]
          exact hmem data
  | @out pc log logFifo hlog hlist hpc hnext =>
      rw [hlist, List.map_cons] at hcustody
      have hshared := (hcustody.shared_iff log.data).mp List.mem_cons_self
      refine ⟨Function.update place log.data (.held w), ?_,
        Placed.mem_update ⟨?_, hmem⟩ (.inl hshared) (.inr ⟨w, rfl⟩)⟩
      · have hfetch := hcustody.fetch (by rw [hlog]; rfl)
        dsimp only
        rw [held_update, hpc]
        exact hfetch
      · rwa [hlist, List.map_cons]
  | @into log logFifo hpc hlist =>
      have hheld : (s.pc w).log?.map Record.data = some log.data := by rw [hpc]; rfl
      have hplace := (hcustody.held_iff w log.data).mp hheld
      refine ⟨Function.update place log.data .shared, ?_,
        Placed.mem_update ⟨hcustody, hmem⟩ (.inr ⟨w, hplace⟩) (.inl rfl)⟩
      have hshare := hcustody.share hheld
      dsimp only
      rw [held_update, hlist, List.map_append]
      exact hshare
  | @copy buflen log bytes hpc hbytes =>
      refine ⟨place, ?_, hmem⟩
      have hsame : (fun w' => ((Function.update s.pc w (.releasing log.dataSize log) w').log?.map
          Record.data)) = fun w' => (s.pc w').log?.map Record.data := by
        have hlog : (Pc.releasing log.dataSize log).log? = (s.pc w).log? := by rw [hpc]; rfl
        rw [held_update, hlog, Function.update_eq_self]
      dsimp only
      rwa [hsame]

omit [DecidableEq W] in
/-- The buffer of a record in the hands of a call. -/
theorem Placed.live {place : ℕ → Place W} (hplaced : Placed place s) {log : Record}
    (hlog : (s.pc w).log? = some log) :
    ∃ bytes, s.composed[log.data]? = some bytes ∧ s.mem log.data = .live bytes := by
  have hplace := (hplaced.custody.held_iff w log.data).mp (by rw [hlog]; rfl)
  have hin := hplaced.mem log.data
  rw [hplace] at hin
  exact hin

/-- What holds of the buffers in every reachable state. -/
structure Safe (s : State W) : Prop where
  /-- A call that has begun and not returned goes on, so it does not release or copy from a
  buffer that is not allocated. -/
  moves : ∀ w env, ¬ (s.pc w).AtRest → (s.advance w env).isSome
  /-- When no call is under way, the allocated buffers are those of the records in the log. -/
  settled : (∀ w, (s.pc w).AtRest) → ∀ data, (∃ bytes, s.mem data = .live bytes) ↔
    ∃ log ∈ s.logFifo.toList, log.data = data

theorem Placed.kfree_isSome {place : ℕ → Place W} (hplaced : Placed place s) {log : Record}
    (hlog : (s.pc w).log? = some log) (pc : Pc) : (s.kfree w log.data pc).isSome := by
  obtain ⟨bytes, _, hmem⟩ := hplaced.live hlog
  rw [State.kfree, hmem]
  rfl

theorem Placed.moves {place : ℕ → Place W} (hplaced : Placed place s) (env : Env)
    (hmoving : ¬ (s.pc w).AtRest) : (s.advance w env).isSome := by
  have hkfree : ∀ {log : Record} (pc : Pc), (s.pc w).log? = some log →
      (s.kfree w log.data pc).isSome := fun pc hlog => hplaced.kfree_isSome hlog pc
  unfold State.advance
  cases hpc : s.pc w with
  | idle | returned =>
      rw [hpc] at hmoving
      exact absurd trivial hmoving
  | freeing | refused | releasing | dropping =>
      rw [hpc] at hkfree
      exact hkfree _ rfl
  | copying buflen log =>
      obtain ⟨bytes, _, hmem⟩ := hplaced.live (by rw [hpc]; rfl)
      dsimp only
      rw [State.logDataToUser, hmem]
      dsimp only
      split_ifs <;> rfl
  | allocating buf =>
      dsimp only
      split_ifs <;> rfl
  | _ => rfl

omit [DecidableEq W] in
theorem Placed.settled {place : ℕ → Place W} (hplaced : Placed place s)
    (hrest : ∀ w, (s.pc w).AtRest) (data : ℕ) :
    (∃ bytes, s.mem data = .live bytes) ↔ ∃ log ∈ s.logFifo.toList, log.data = data := by
  have hheld : ∀ w, place data ≠ .held w := by
    intro w hplace
    have hlog := (hplaced.custody.held_iff w data).mpr hplace
    have hw := hrest w
    cases hpc : s.pc w with
    | idle | returned =>
        rw [hpc] at hlog
        cases hlog
    | _ =>
        rw [hpc] at hw
        exact hw
  have hshared := hplaced.custody.shared_iff data
  rw [List.mem_map] at hshared
  rw [hshared]
  have hin := hplaced.mem data
  cases hp : place data with
  | shared =>
      rw [hp] at hin
      obtain ⟨bytes, _, hcell⟩ := hin
      exact iff_of_true ⟨bytes, hcell⟩ rfl
  | held w => exact absurd hp (hheld w)
  | unused | gone =>
      rw [hp] at hin
      refine iff_of_false ?_ (by simp)
      rintro ⟨bytes, hcell⟩
      rw [hin.2] at hcell
      cases hcell

/-! ## What becomes of the records -/

/-- What a call knows of the record that it is about to insert or to copy. -/
def Ready (s : State W) : Pc → Prop
  | .inserting log => (∃ bytes, s.composed[log.data]? = some bytes ∧ bytes.length = log.dataSize) ∧
      ∀ log' ∈ s.inserted, log'.data ≠ log.data
  | .copying _ log => log ∈ s.removed ∧ ∀ entry ∈ s.copied, entry.1 ≠ log.data
  | _ => True

/-- The records go through the log in order, each once and with its text. -/
structure Exact (s : State W) : Prop where
  /-- The log is first in, first out, for everyone who takes records out. -/
  order : s.removed ++ s.logFifo.toList = s.inserted
  /-- No record goes in twice, and each has the size of what was composed for it. -/
  once : (s.inserted.map Record.data).Nodup
  filled : ∀ log ∈ s.inserted,
    ∃ bytes, s.composed[log.data]? = some bytes ∧ bytes.length = log.dataSize
  /-- What arrives at the readers are the texts of records that were taken out, each once. -/
  copiedOnce : (s.copied.map Prod.fst).Nodup
  copied : ∀ entry ∈ s.copied, s.composed[entry.1]? = some entry.2 ∧
    ∃ log ∈ s.removed, log.data = entry.1

structure HistoryInv (s : State W) : Prop where
  exact : Exact s
  ready : ∀ w, Ready s (s.pc w)

omit [DecidableEq W] in
theorem Initial.historyInv (hinit : Initial s) : HistoryInv s where
  exact := by
    constructor <;> simp [hinit.logFifo, hinit.removed, hinit.inserted, hinit.copied]
  ready w := by
    rw [hinit.pc w]
    trivial

omit [DecidableEq W] in
/-- The buffers of two calls are different. -/
theorem Placed.ne_of_held {place : ℕ → Place W} (hplaced : Placed place s) {w' : W}
    (hne : w' ≠ w) {log log' : Record} (hlog : (s.pc w).log? = some log)
    (hlog' : (s.pc w').log? = some log') : log'.data ≠ log.data := by
  intro heq
  have hw : (s.pc w).log?.map Record.data = some log.data := by rw [hlog]; rfl
  have hw' : (s.pc w').log?.map Record.data = some log.data := by rw [hlog', ← heq]; rfl
  exact hne (hplaced.custody.unique hw' hw)

omit [DecidableEq W] in
/-- A call that has no record at hand, or one put aside. -/
theorem ready_of_aside {pc : Pc} (haside : pc.Aside) : Ready s pc := by
  cases pc with
  | inserting | copying => exact haside.elim
  | _ => trivial

omit [DecidableEq W] in
theorem aside_of_none {pc : Pc} (hpc : pc.log? = none) : pc.Aside := by
  cases pc with
  | inserting | copying => cases hpc
  | _ => trivial

/-- The calls that do not move are ready as before. -/
theorem HistoryInv.ready_update (hinv : HistoryInv s) {pc : Pc} (hpc : s'.pc =
    Function.update s.pc w pc) (hmoved : Ready s' pc)
    (hothers : ∀ w' ≠ w, Ready s (s.pc w') → Ready s' (s.pc w')) (w' : W) :
    Ready s' (s'.pc w') := by
  rw [hpc]
  by_cases hw : w' = w
  · subst hw
    rwa [Function.update_self]
  · rw [Function.update_of_ne hw]
    exact hothers w' hw (hinv.ready w')

omit [DecidableEq W] in
/-- Readiness in a state with the same history. -/
theorem ready_congr {pc : Pc} (hcomposed : s'.composed = s.composed)
    (hinserted : s'.inserted = s.inserted) (hremoved : s'.removed = s.removed)
    (hcopied : s'.copied = s.copied) (hready : Ready s pc) : Ready s' pc := by
  cases pc with
  | inserting log =>
      rw [Ready, hcomposed, hinserted]
      exact hready
  | copying buflen log =>
      rw [Ready, hremoved, hcopied]
      exact hready
  | _ => trivial

theorem HistoryInv.step {place : ℕ → Place W} (hinv : HistoryInv s) (hplaced : Placed place s)
    (hmove : Move s w s') : HistoryInv s' := by
  have hexact := hinv.exact
  cases hmove with
  | look hlog haside =>
      exact ⟨⟨hexact.order, hexact.once, hexact.filled, hexact.copiedOnce, hexact.copied⟩,
        hinv.ready_update rfl (ready_of_aside haside) fun _ _ => ready_congr rfl rfl rfl rfl⟩
  | free hlog hpc =>
      exact ⟨⟨hexact.order, hexact.once, hexact.filled, hexact.copiedOnce, hexact.copied⟩,
        hinv.ready_update rfl (ready_of_aside (aside_of_none hpc)) fun _ _ =>
          ready_congr rfl rfl rfl rfl⟩
  | alloc bytes hlog =>
      have hkeep : ∀ {data : ℕ} {bytes' : List UInt8}, s.composed[data]? = some bytes' →
          (s.composed ++ [bytes])[data]? = some bytes' := fun hget => by
        rw [List.getElem?_append_left (List.getElem?_eq_some_iff.mp hget).1, hget]
      refine ⟨⟨hexact.order, hexact.once, fun log hmem => ?_, hexact.copiedOnce,
        fun entry hentry => ?_⟩, hinv.ready_update rfl ?_ fun w' _ hready => ?_⟩
      · obtain ⟨bytes', hget, hlen⟩ := hexact.filled log hmem
        exact ⟨bytes', hkeep hget, hlen⟩
      · obtain ⟨hget, hremoved⟩ := hexact.copied entry hentry
        exact ⟨hkeep hget, hremoved⟩
      · refine ⟨⟨bytes, by simp [State.alloc], rfl⟩, fun log hmem heq => ?_⟩
        obtain ⟨_, hget, _⟩ := hexact.filled log hmem
        rw [heq] at hget
        simp at hget
      · cases hpc : s.pc w' with
        | inserting log =>
            rw [hpc] at hready
            obtain ⟨⟨bytes', hget, hlen⟩, hnew⟩ := hready
            exact ⟨⟨bytes', hkeep hget, hlen⟩, hnew⟩
        | copying buflen log =>
            rw [hpc] at hready
            exact hready
        | _ => trivial
  | @out pc log logFifo hlog hlist hpc hnext =>
      have horder := hexact.order
      rw [hlist] at horder
      refine ⟨⟨?_, hexact.once, hexact.filled, hexact.copiedOnce, fun entry hentry => ?_⟩,
        hinv.ready_update rfl ?_ fun w' _ hready => ?_⟩
      · rw [← horder, List.append_assoc]
        rfl
      · obtain ⟨hget, log', hremoved, heq⟩ := hexact.copied entry hentry
        exact ⟨hget, log', List.mem_append_left _ hremoved, heq⟩
      · rcases hnext with haside | ⟨buflen, rfl⟩
        · exact ready_of_aside haside
        · refine ⟨List.mem_append_right _ (List.mem_singleton_self _), fun entry hentry heq => ?_⟩
          -- it would have been taken out twice
          obtain ⟨_, log', hremoved, heq'⟩ := hexact.copied entry hentry
          have honce := hexact.once
          rw [← horder, List.map_append, List.map_cons, List.nodup_append] at honce
          exact honce.2.2 _ (List.mem_map_of_mem hremoved) _ List.mem_cons_self
            (heq'.trans heq)
      · cases hpc' : s.pc w' with
        | inserting log' =>
            rw [hpc'] at hready
            exact hready
        | copying buflen log' =>
            rw [hpc'] at hready
            exact ⟨List.mem_append_left _ hready.1, hready.2⟩
        | _ => trivial
  | @into log logFifo hpc hlist =>
      have hnow := hinv.ready w
      rw [hpc] at hnow
      obtain ⟨hfilled, hnew⟩ := hnow
      refine ⟨⟨?_, ?_, fun log' hmem => ?_, hexact.copiedOnce, hexact.copied⟩,
        hinv.ready_update rfl trivial fun w' hw hready => ?_⟩
      · rw [hlist, ← hexact.order, List.append_assoc]
      · rw [List.map_append, List.nodup_append]
        refine ⟨hexact.once, List.nodup_singleton _, fun data hdata data' hdata' heq => ?_⟩
        obtain ⟨log', hmem, rfl⟩ := List.mem_map.mp hdata
        rw [List.map_singleton, List.mem_singleton] at hdata'
        exact hnew log' hmem (heq.trans hdata')
      · rcases List.mem_append.mp hmem with hold | hlast
        · exact hexact.filled log' hold
        · rw [List.mem_singleton.mp hlast]
          exact hfilled
      · cases hpc' : s.pc w' with
        | inserting log' =>
            rw [hpc'] at hready
            refine ⟨hready.1, fun log'' hmem => ?_⟩
            rcases List.mem_append.mp hmem with hold | hlast
            · exact hready.2 log'' hold
            · rw [List.mem_singleton.mp hlast]
              exact (hplaced.ne_of_held hw (by rw [hpc]; rfl) (by rw [hpc']; rfl)).symm
        | copying buflen log' =>
            rw [hpc'] at hready
            exact hready
        | _ => trivial
  | @copy buflen log bytes hpc hbytes =>
      have hnow := hinv.ready w
      rw [hpc] at hnow
      obtain ⟨hremoved, hnew⟩ := hnow
      have hinserted : log ∈ s.inserted := by
        rw [← hexact.order]
        exact List.mem_append_left _ hremoved
      obtain ⟨bytes', hget, hlen⟩ := hexact.filled log hinserted
      obtain ⟨bytes'', hget', hmem⟩ := hplaced.live (by rw [hpc]; rfl)
      have hsame : bytes.take log.dataSize = bytes' := by
        rw [hbytes] at hmem
        rw [Cell.live.inj hmem, ← Option.some.inj (hget.symm.trans hget'), ← hlen,
          List.take_length]
      refine ⟨⟨hexact.order, hexact.once, hexact.filled, ?_, fun entry hentry => ?_⟩,
        hinv.ready_update rfl trivial fun w' hw hready => ?_⟩
      · rw [List.map_append, List.nodup_append]
        refine ⟨hexact.copiedOnce, List.nodup_singleton _, fun data hdata data' hdata' heq => ?_⟩
        obtain ⟨entry, hentry, rfl⟩ := List.mem_map.mp hdata
        rw [List.map_singleton, List.mem_singleton] at hdata'
        exact hnew entry hentry (heq.trans hdata')
      · rcases List.mem_append.mp hentry with hold | hlast
        · exact hexact.copied entry hold
        · rw [List.mem_singleton.mp hlast, hsame]
          exact ⟨hget, log, hremoved, rfl⟩
      · cases hpc' : s.pc w' with
        | inserting log' =>
            rw [hpc'] at hready
            exact hready
        | copying buflen' log' =>
            rw [hpc'] at hready
            refine ⟨hready.1, fun entry hentry => ?_⟩
            rcases List.mem_append.mp hentry with hold | hlast
            · exact hready.2 entry hold
            · rw [List.mem_singleton.mp hlast]
              exact (hplaced.ne_of_held hw (by rw [hpc]; rfl) (by rw [hpc']; rfl)).symm
        | _ => trivial

/-! ## All runs -/

/-- What is known in every reachable state. -/
def Tracked (s : State W) : Prop :=
  (∃ place, Placed place s) ∧ HistoryInv s

theorem tracked_of_reachable (hreach : Reachable step Initial s) : Tracked s := by
  have hstart : ∀ s : State W, Initial s → Tracked s := fun s hinit =>
    ⟨⟨_, hinit.placed⟩, hinit.historyInv⟩
  refine hreach.invariant hstart fun s a t hinv hstep => ?_
  obtain ⟨⟨place, hplaced⟩, hhistory⟩ := hinv
  obtain ⟨w, hmove⟩ := move_of_step hstep
  exact ⟨hplaced.step hmove, hhistory.step hplaced hmove⟩

/-- A log of two slots. -/
def emptyLog : State Bool where
  logFifo := Kfifo.empty 1 (fun _ => ⟨0, 0⟩) (by decide)
  inflag := true
  mem _ := .unused
  pc _ := .idle
  composed := []
  inserted := []
  removed := []
  copied := []

theorem emptyLog_initial : Initial emptyLog where
  logFifo := by simp [emptyLog]
  mem _ := rfl
  pc _ := rfl
  composed := rfl
  inserted := rfl
  removed := rfl
  copied := rfl

/-- A record of one byte is written and read. -/
def writeReadActions : List (Action Bool) :=
  .write false ⟨[7], by decide, by decide⟩ :: List.replicate 3 (.advance false ⟨true, 0⟩) ++
    .read true 4 :: List.replicate 4 (.advance true ⟨true, 0⟩)

theorem writeRead_reachable :
    ∃ s : State Bool, Reachable step Initial s ∧ s.copied = [(0, [7])] := by
  have hend : (exec step emptyLog writeReadActions).map (fun s => s.copied) =
      some [(0, [7])] := by
    decide
  obtain ⟨s, hexec, hcopied⟩ := Option.map_eq_some_iff.mp hend
  exact ⟨s, ⟨_, .of_exec emptyLog_initial (fun _ _ _ => trivial) hexec⟩, hcopied⟩

/-- **No buffer is freed twice, used after it is freed, or lost**, for any number of writers,
readers and cleaners, every interleaving, and whatever the allocator and `copy_to_user` answer. -/
theorem buffers_safe (hreach : Reachable step Initial s) : Safe s := by
  obtain ⟨⟨place, hplaced⟩, _⟩ := tracked_of_reachable hreach
  exact ⟨fun w env hmoving => hplaced.moves env hmoving, hplaced.settled⟩

theorem writeRead_safe : ∃ s : State Bool, s.copied = [(0, [7])] ∧ Safe s :=
  writeRead_reachable.imp fun _ h => ⟨h.2, buffers_safe h.1⟩

/-- **Every record goes through the log once**, for any number of writers, readers and cleaners
and every interleaving. -/
theorem records_once (hreach : Reachable step Initial s) : Exact s :=
  (tracked_of_reachable hreach).2.exact

theorem writeRead_exact : ∃ s : State Bool, s.copied = [(0, [7])] ∧ Exact s :=
  writeRead_reachable.imp fun _ h => ⟨h.2, records_once h.1⟩

end SecDetector.Alarm.Buffers
