import SecDetector.Alarm.Writers
import SecDetector.Lib.Custody

/-!
# The buffers of the alarm log

All calls of `secDetector_proc.c` at a time: `write_log`, the read of the file `alarm`, and the
write to it that empties the log.  The spin lock covers one `kfifo_out` or one `kfifo_in`, so
`advance` is one such step of a call, one look at a counter or at `inflag`, or one allocation or
release.  The allocator and `copy_to_user` are free to fail.

A record points to its buffer, which its call has allocated.  A release of a buffer that is not
allocated, and a copy from one, are faults: there is no step then.

`composed`, `inserted`, `removed` and `copied` are history: what was composed in the buffers, in
the order of their allocation; the records that went into the log and out of it; and what has
arrived at the readers.
-/

namespace SecDetector.Alarm.Buffers

open Lib Writers

/-- `s_log_data`. -/
structure Record where
  dataSize : ℕ
  data : ℕ
  deriving DecidableEq

/-- A buffer. -/
inductive Cell where
  | unused
  | live (bytes : List UInt8)
  | freed
  deriving DecidableEq

/-- How far a call has come. -/
inductive Pc where
  | idle
  | returned (ret : ℤ)
  /-- In `write_log`: before `kfifo_avail`. -/
  | checking (buf : Message)
  | evicting (buf : Message)
  | evicted (buf : Message) (log : Record)
  | freeing (buf : Message) (log : Record) (avail : ℕ)
  | allocating (buf : Message)
  | inserting (log : Record)
  | refused (log : Record)
  /-- In `secDetector_log_read`: before `kfifo_is_empty`. -/
  | testing (buflen : ℕ)
  | reading (buflen : ℕ)
  | copying (buflen : ℕ) (log : Record)
  | releasing (ret : ℤ) (log : Record)
  /-- In `clean_log_fifo_data`: before `inflag` is cleared. -/
  | closing
  | counting
  | taking
  | taken (log : Record)
  | dropping (log : Record) (len : ℕ)
  | opening (ret : ℤ)
  deriving DecidableEq

/-- The record in the local variable of a call, as long as its buffer is the call's to free. -/
def Pc.log? : Pc → Option Record
  | .evicted _ log | .freeing _ log _ | .inserting log | .refused log | .copying _ log
  | .releasing _ log | .taken log | .dropping log _ => some log
  | _ => none

structure State (W : Type*) where
  logFifo : Kfifo Record
  inflag : Bool
  mem : ℕ → Cell
  pc : W → Pc
  composed : List (List UInt8)
  inserted : List Record
  removed : List Record
  copied : List (ℕ × List UInt8)

/-- What the allocator and `copy_to_user` answer. -/
structure Env where
  kzalloc : Bool
  uncopied : ℕ

inductive Action (W : Type*) where
  | write (w : W) (buf : Message)
  | read (w : W) (buflen : ℕ)
  | clean (w : W) (count : ℕ)
  | advance (w : W) (env : Env)

/-- What `write_log` copies into its zeroed buffer. -/
def compose (buf : Message) : List UInt8 :=
  let bufLen := buf.bytes.length
  let len := if bufLen = msgLen then bufLen - 1 else bufLen
  buf.bytes.take len ++ List.replicate (bufLen - len) 0

namespace State

variable {W : Type*} [DecidableEq W] (s : State W) (w : W)

def setPc (pc : Pc) : State W :=
  { s with pc := Function.update s.pc w pc }

/-- `kzalloc` and `memcpy`. -/
def alloc (bytes : List UInt8) : State W :=
  { s with
    mem := Function.update s.mem s.composed.length (.live bytes)
    composed := s.composed ++ [bytes]
    pc := Function.update s.pc w (.inserting ⟨bytes.length, s.composed.length⟩) }

/-- `kfree`. -/
def kfree (data : ℕ) (pc : Pc) : Option (State W) :=
  match s.mem data with
  | .live _ => some { s with
      mem := Function.update s.mem data .freed
      pc := Function.update s.pc w pc }
  | _ => none

/-- `kfifo_out`; `fails` is where the call goes if there is no record. -/
def kfifoOut (fails : Pc) (next : Record → Pc) : State W :=
  match s.logFifo.get with
  | (none, _) => s.setPc w fails
  | (some log, logFifo) => { s with
      logFifo := logFifo
      pc := Function.update s.pc w (next log)
      removed := s.removed ++ [log] }

/-- `kfifo_in`. -/
def kfifoIn (log : Record) : State W :=
  match s.logFifo.put log with
  | (1, logFifo) => { s with
      logFifo := logFifo
      pc := Function.update s.pc w (.returned 0)
      inserted := s.inserted ++ [log] }
  | _ => s.setPc w (.refused log)

/-- `log_data_to_user`, with the answer of `copy_to_user`. -/
def logDataToUser (buflen : ℕ) (log : Record) (uncopied : ℕ) : Option (State W) :=
  if buflen < log.dataSize then some (s.setPc w (.releasing (-1) log))
  else
    match s.mem log.data with
    | .live bytes =>
        if uncopied ≠ 0 then some (s.setPc w (.releasing (-eFault) log))
        else some { s with
          pc := Function.update s.pc w (.releasing log.dataSize log)
          copied := s.copied ++ [(log.data, bytes.take log.dataSize)] }
    | _ => none

/-- One atomic step of the call `w`. -/
def advance (env : Env) : Option (State W) :=
  match s.pc w with
  | .idle | .returned _ => none
  | .checking buf =>
      some (s.setPc w (if s.logFifo.avail = 0 then .evicting buf else .allocating buf))
  | .evicting buf => some (s.kfifoOut w (.returned (-1)) (.evicted buf))
  | .evicted buf log => some (s.setPc w (.freeing buf log s.logFifo.avail))
  | .freeing buf log avail =>
      s.kfree w log.data (if avail = 0 then .evicting buf else .allocating buf)
  | .allocating buf =>
      if env.kzalloc then some (s.alloc w (compose buf)) else some (s.setPc w (.returned (-1)))
  | .inserting log => some (s.kfifoIn w log)
  | .refused log => s.kfree w log.data (.returned (-1))
  | .testing buflen =>
      some (s.setPc w (if s.logFifo.isEmpty then .returned 0 else .reading buflen))
  | .reading buflen => some (s.kfifoOut w (.returned (-1)) (.copying buflen))
  | .copying buflen log => s.logDataToUser w buflen log env.uncopied
  | .releasing ret log => s.kfree w log.data (.returned ret)
  | .closing => some { s.setPc w .counting with inflag := false }
  | .counting => some (s.setPc w (if s.logFifo.len ≠ 0 then .taking else .opening 0))
  | .taking => some (s.kfifoOut w (.opening (-1)) .taken)
  | .taken log => some (s.setPc w (.dropping log s.logFifo.len))
  | .dropping log len => s.kfree w log.data (if len ≠ 0 then .taking else .opening 0)
  | .opening ret =>
      some { s.setPc w (.returned (if ret ≠ 0 then ret else 1)) with inflag := true }

end State

variable {W : Type*} [DecidableEq W]

/-- A call up to its first look at a counter. -/
def State.call (s : State W) (w : W) (pc : Pc) : Option (State W) :=
  if s.pc w = .idle then some (s.setPc w pc) else none

def step (s : State W) : Action W → Option (State W)
  | .write w buf => s.call w (if s.inflag then .checking buf else .returned (-1))
  | .read w buflen =>
      s.call w (if buflen = 0 ∨ buflen % msgAlign ≠ 0 then .returned (-eInval)
        else .testing buflen)
  | .clean w count =>
      s.call w (if count ≠ 1 then .returned (-eInval)
        else if s.inflag then .closing else .returned 1)
  | .advance w env => s.advance w env

/-- The log after `create_log`. -/
structure Initial (s : State W) : Prop where
  logFifo : s.logFifo.toList = []
  mem : ∀ data, s.mem data = .unused
  pc : ∀ w, s.pc w = .idle
  composed : s.composed = []
  inserted : s.inserted = []
  removed : s.removed = []
  copied : s.copied = []

/-! ## What a step can do -/

/-- The call has not begun or has returned. -/
def Pc.AtRest : Pc → Prop
  | .idle | .returned _ => True
  | _ => False

/-- The record at hand is neither about to go into the log nor about to be copied. -/
def Pc.Aside : Pc → Prop
  | .inserting _ | .copying _ _ => False
  | _ => True

/-- What a step does to the buffers and to the log. -/
inductive Move (s : State W) (w : W) : State W → Prop
  | look {pc : Pc} {inflag : Bool} (hlog : pc.log? = (s.pc w).log?) (haside : pc.Aside) :
      Move s w { s.setPc w pc with inflag := inflag }
  | alloc (bytes : List UInt8) (hlog : (s.pc w).log? = none) : Move s w (s.alloc w bytes)
  | free {pc : Pc} {log : Record} (hlog : (s.pc w).log? = some log) (hpc : pc.log? = none) :
      Move s w { s with
        mem := Function.update s.mem log.data .freed
        pc := Function.update s.pc w pc }
  | out {pc : Pc} {log : Record} {logFifo : Kfifo Record} (hlog : (s.pc w).log? = none)
      (hlist : s.logFifo.toList = log :: logFifo.toList) (hpc : pc.log? = some log)
      (hnext : pc.Aside ∨ ∃ buflen, pc = .copying buflen log) :
      Move s w { s with
        logFifo := logFifo
        pc := Function.update s.pc w pc
        removed := s.removed ++ [log] }
  | into {log : Record} {logFifo : Kfifo Record} (hpc : s.pc w = .inserting log)
      (hlist : logFifo.toList = s.logFifo.toList ++ [log]) :
      Move s w { s with
        logFifo := logFifo
        pc := Function.update s.pc w (.returned 0)
        inserted := s.inserted ++ [log] }
  | copy {buflen : ℕ} {log : Record} {bytes : List UInt8} (hpc : s.pc w = .copying buflen log)
      (hmem : s.mem log.data = .live bytes) :
      Move s w { s with
        pc := Function.update s.pc w (.releasing log.dataSize log)
        copied := s.copied ++ [(log.data, bytes.take log.dataSize)] }

variable {s s' : State W} {w : W}

theorem move_setPc {pc : Pc} (hlog : pc.log? = (s.pc w).log?) (haside : pc.Aside) :
    Move s w (s.setPc w pc) :=
  .look hlog haside

theorem move_kfree {pc : Pc} {log : Record} (hlog : (s.pc w).log? = some log)
    (hpc : pc.log? = none) (hstep : s.kfree w log.data pc = some s') : Move s w s' := by
  unfold State.kfree at hstep
  split at hstep
  · obtain rfl := Option.some.inj hstep
    exact .free hlog hpc
  · cases hstep

theorem move_kfifoOut {fails : Pc} {next : Record → Pc} (hlog : (s.pc w).log? = none)
    (hfails : fails.log? = none ∧ fails.Aside)
    (hnext : ∀ log, (next log).log? = some log ∧
      ((next log).Aside ∨ ∃ buflen, next log = .copying buflen log)) :
    Move s w (s.kfifoOut w fails next) := by
  unfold State.kfifoOut
  by_cases hempty : s.logFifo.len = 0
  · rw [s.logFifo.get_of_empty hempty]
    exact move_setPc (hfails.1.trans hlog.symm) hfails.2
  · obtain ⟨log, logFifo, hget, _, hlist⟩ := s.logFifo.get_spec hempty
    rw [hget]
    exact .out hlog hlist (hnext log).1 (hnext log).2

theorem move_kfifoIn {log : Record} (hpc : s.pc w = .inserting log) :
    Move s w (s.kfifoIn w log) := by
  unfold State.kfifoIn
  by_cases hroom : s.logFifo.len < s.logFifo.size
  · obtain ⟨logFifo, hput, _, hlist⟩ := s.logFifo.put_spec log hroom
    rw [hput]
    exact .into hpc hlist
  · have havail : s.logFifo.avail = 0 := Nat.sub_eq_zero_of_le (not_lt.mp hroom)
    rw [Kfifo.put, dif_pos havail]
    exact move_setPc (by rw [hpc]; rfl) trivial

theorem move_logDataToUser {buflen uncopied : ℕ} {log : Record}
    (hpc : s.pc w = .copying buflen log)
    (hstep : s.logDataToUser w buflen log uncopied = some s') : Move s w s' := by
  have hlog : (s.pc w).log? = some log := by rw [hpc]; rfl
  unfold State.logDataToUser at hstep
  split at hstep
  · exact Option.some.inj hstep ▸ move_setPc hlog.symm trivial
  · split at hstep
    · rename_i bytes hmem
      split at hstep
      · exact Option.some.inj hstep ▸ move_setPc hlog.symm trivial
      · exact Option.some.inj hstep ▸ .copy hpc hmem
    · cases hstep

theorem move_of_advance {env : Env} (hstep : s.advance w env = some s') : Move s w s' := by
  unfold State.advance at hstep
  cases hpc : s.pc w with
  | idle | returned => simp [hpc] at hstep
  | checking buf =>
      simp only [hpc, Option.some.injEq] at hstep
      subst hstep
      refine move_setPc ?_ ?_ <;> split <;> simp [hpc, Pc.log?, Pc.Aside]
  | evicting buf =>
      simp only [hpc, Option.some.injEq] at hstep
      subst hstep
      exact move_kfifoOut (by rw [hpc]; rfl) ⟨rfl, trivial⟩ fun log => ⟨rfl, .inl trivial⟩
  | evicted buf log =>
      simp only [hpc, Option.some.injEq] at hstep
      subst hstep
      exact move_setPc (by rw [hpc]; rfl) trivial
  | freeing buf log avail =>
      simp only [hpc] at hstep
      exact move_kfree (by rw [hpc]; rfl) (by split <;> rfl) hstep
  | allocating buf =>
      simp only [hpc] at hstep
      split at hstep
      · exact Option.some.inj hstep ▸ .alloc _ (by rw [hpc]; rfl)
      · exact Option.some.inj hstep ▸ move_setPc (by rw [hpc]; rfl) trivial
  | inserting log =>
      simp only [hpc, Option.some.injEq] at hstep
      subst hstep
      exact move_kfifoIn hpc
  | refused log =>
      simp only [hpc] at hstep
      exact move_kfree (by rw [hpc]; rfl) rfl hstep
  | testing buflen =>
      simp only [hpc, Option.some.injEq] at hstep
      subst hstep
      refine move_setPc ?_ ?_ <;> split <;> simp [hpc, Pc.log?, Pc.Aside]
  | reading buflen =>
      simp only [hpc, Option.some.injEq] at hstep
      subst hstep
      exact move_kfifoOut (by rw [hpc]; rfl) ⟨rfl, trivial⟩ fun log =>
        ⟨rfl, .inr ⟨buflen, rfl⟩⟩
  | copying buflen log =>
      simp only [hpc] at hstep
      exact move_logDataToUser hpc hstep
  | releasing ret log =>
      simp only [hpc] at hstep
      exact move_kfree (by rw [hpc]; rfl) rfl hstep
  | closing =>
      simp only [hpc, Option.some.injEq] at hstep
      subst hstep
      exact .look (by rw [hpc]; rfl) trivial
  | counting =>
      simp only [hpc, Option.some.injEq] at hstep
      subst hstep
      refine move_setPc ?_ ?_ <;> split <;> simp [hpc, Pc.log?, Pc.Aside]
  | taking =>
      simp only [hpc, Option.some.injEq] at hstep
      subst hstep
      exact move_kfifoOut (by rw [hpc]; rfl) ⟨rfl, trivial⟩ fun log => ⟨rfl, .inl trivial⟩
  | taken log =>
      simp only [hpc, Option.some.injEq] at hstep
      subst hstep
      exact move_setPc (by rw [hpc]; rfl) trivial
  | dropping log len =>
      simp only [hpc] at hstep
      exact move_kfree (by rw [hpc]; rfl) (by split <;> rfl) hstep
  | opening ret =>
      simp only [hpc, Option.some.injEq] at hstep
      subst hstep
      exact .look (by rw [hpc]; rfl) trivial

theorem move_of_call {pc : Pc} (hlog : pc.log? = none) (haside : pc.Aside)
    (hstep : s.call w pc = some s') : Move s w s' := by
  unfold State.call at hstep
  split at hstep
  · rename_i hidle
    obtain rfl := Option.some.inj hstep
    exact move_setPc (by rw [hlog, hidle]; rfl) haside
  · cases hstep

theorem move_of_step {a : Action W} (hstep : step s a = some s') : ∃ w, Move s w s' := by
  cases a with
  | write w buf =>
      refine ⟨w, move_of_call ?_ ?_ hstep⟩ <;> split <;> trivial
  | read w buflen =>
      refine ⟨w, move_of_call ?_ ?_ hstep⟩ <;> split <;> trivial
  | clean w count =>
      refine ⟨w, move_of_call ?_ ?_ hstep⟩ <;> split_ifs <;> trivial
  | advance w env => exact ⟨w, move_of_advance hstep⟩

end SecDetector.Alarm.Buffers
