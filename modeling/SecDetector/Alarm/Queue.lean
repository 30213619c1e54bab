import SecDetector.Alarm.Log
import SecDetector.Lib.DropOldest
import SecDetector.Lib.Run

/-!
# The alarm log is a queue that drops its oldest record

The calls of `secDetector_proc.c` beside the history `DropOldest` of what was written.
`Simulates` ties the two: the `kfifo` holds the records that are not gone.  Each call has
one lemma (`writeLog_spec`, `secDetectorLogRead_spec`, `secDetectorLogWrite_spec`) that says
what it returns and what it leaves in the `kfifo`; they do not mention the history.
-/

namespace SecDetector.Alarm

open Lib

/-! ## What the calls do -/

/-- The record that `write_log` keeps of a buffer: a buffer of the full length loses its last
byte to the terminating zero. -/
def stored (bytes : List UInt8) : List UInt8 :=
  if bytes.length = msgLen then bytes.dropLast ++ [0] else bytes

/-- A record in the `kfifo`. -/
def record (bytes : List UInt8) : LogData := ⟨bytes.length, some bytes⟩

@[simp] theorem length_stored (bytes : List UInt8) : (stored bytes).length = bytes.length := by
  unfold stored
  split
  · rename_i hlen
    rw [List.length_append, List.length_dropLast, List.length_singleton, hlen]
    rfl
  · rfl

/-- The buffer as `write_log` fills it. -/
theorem fill_eq_stored (bytes : List UInt8) :
    bytes.take (if bytes.length = msgLen then bytes.length - 1 else bytes.length) ++
      List.replicate (bytes.length -
        if bytes.length = msgLen then bytes.length - 1 else bytes.length) 0 = stored bytes := by
  unfold stored
  split
  · rename_i hlen
    rw [hlen, List.dropLast_eq_take, hlen]
    rfl
  · rw [List.take_length, Nat.sub_self, List.replicate_zero, List.append_nil]

/-- The check before a write: a full log loses its oldest record. -/
theorem checkAndOutLogFifo_spec (f : Kfifo LogData) :
    ∃ f', checkAndOutLogFifo f = (0, f') ∧ f'.order = f.order ∧ f'.len < f'.size ∧
      f'.toList = if f.len < f.size then f.toList else f.toList.tail := by
  have hle := f.len_le_size
  have hpos := f.size_pos
  by_cases hroom : f.len < f.size
  · refine ⟨f, ?_, rfl, hroom, (if_pos hroom).symm⟩
    rw [checkAndOutLogFifo, if_neg]
    rw [f.avail_eq_zero_iff]
    omega
  · obtain ⟨a, f', hget, horder, hlist⟩ := f.get_spec (by omega)
    have hlen := congrArg List.length hlist
    rw [f.length_toList, List.length_cons, f'.length_toList] at hlen
    have hsize : f'.size = f.size := by rw [Kfifo.size, Kfifo.size, horder]
    refine ⟨f', ?_, horder, by omega, by rw [if_neg hroom, hlist, List.tail_cons]⟩
    -- after one turn there is room
    rw [checkAndOutLogFifo, if_pos (by rw [f.avail_eq_zero_iff]; omega)]
    split
    · rename_i heq
      simp [hget] at heq
    · rename_i heq
      rw [hget, Prod.mk.injEq] at heq
      rw [← heq.2, checkAndOutLogFifo, if_neg (by rw [f'.avail_eq_zero_iff]; omega)]

/-- The loop of a clear takes everything. -/
theorem cleanLoop_spec (f : Kfifo LogData) :
    ∃ f', cleanLoop f = (0, f') ∧ f'.order = f.order ∧ f'.toList = [] := by
  induction hlen : f.len generalizing f with
  | zero =>
      refine ⟨f, ?_, rfl, f.toList_eq_nil_iff.mpr hlen⟩
      rw [cleanLoop, if_neg (by omega)]
  | succ n ih =>
      obtain ⟨a, f₁, hget, horder, hlist⟩ := f.get_spec (by omega)
      have hlen₁ := congrArg List.length hlist
      rw [f.length_toList, List.length_cons, f₁.length_toList] at hlen₁
      obtain ⟨f', hloop, horder', hempty⟩ := ih f₁ (by omega)
      refine ⟨f', ?_, horder'.trans horder, hempty⟩
      rw [cleanLoop, if_pos (by omega)]
      split
      · rename_i heq
        simp [hget] at heq
      · rename_i heq
        rw [hget, Prod.mk.injEq] at heq
        rw [← heq.2, hloop]

/-- **A write** returns 0 and appends its record, after dropping the oldest one of a full
log. -/
theorem writeLog_spec (f : Kfifo LogData) {bytes : List UInt8} (hpos : 1 ≤ bytes.length)
    (hle : bytes.length ≤ msgLen) :
    ∃ f', writeLog (some ⟨f, true⟩) (some bytes) bytes.length true = (0, some ⟨f', true⟩) ∧
      f'.order = f.order ∧
      f'.toList =
        (if f.len < f.size then f.toList else f.toList.tail) ++ [record (stored bytes)] := by
  obtain ⟨f₁, hcheck, horder, hroom, hlist⟩ := checkAndOutLogFifo_spec f
  obtain ⟨f', hput, horder', hlist'⟩ := f₁.put_spec (record (stored bytes)) hroom
  refine ⟨f', ?_, horder'.trans horder, by rw [hlist', hlist]⟩
  unfold writeLog
  dsimp only
  rw [if_neg (by omega), hcheck]
  simp only [Bool.not_true, Bool.false_eq_true, if_false, ne_eq, not_true_eq_false]
  rw [fill_eq_stored]
  rw [record, length_stored] at hput
  rw [hput]
  simp

/-- **A read** with a large enough buffer returns the oldest record and takes it. -/
theorem secDetectorLogRead_spec (f : Kfifo LogData) {bytes : List UInt8} {rest : List LogData}
    (hlist : f.toList = record bytes :: rest) {buflen : ℕ} (hpos : buflen ≠ 0)
    (halign : buflen % msgAlign = 0) (hlarge : bytes.length ≤ buflen) :
    ∃ f' : Kfifo LogData, secDetectorLogRead ⟨f, true⟩ buflen 0 =
        (((bytes.length : ℤ), bytes), ⟨f', true⟩) ∧
      f'.order = f.order ∧ f'.toList = rest := by
  have hlen : f.len ≠ 0 := by
    rw [Ne, ← f.toList_eq_nil_iff, hlist]
    exact List.cons_ne_nil _ _
  obtain ⟨a, f', hget, horder, hget'⟩ := f.get_spec hlen
  rw [hlist, List.cons.injEq] at hget'
  obtain ⟨rfl, rfl⟩ := hget'
  refine ⟨f', ?_, horder, rfl⟩
  have hsome : ¬ f.isEmpty = true := fun hempty => hlen (f.isEmpty_iff.mp hempty)
  rw [secDetectorLogRead, if_neg (by omega), if_neg hsome, hget]
  dsimp only
  rw [logDataToUser, record]
  dsimp only
  rw [if_neg (not_lt.mpr hlarge), if_neg (by simp), Option.getD_some, List.take_length]

/-- A read of an empty log returns 0. -/
theorem secDetectorLogRead_empty (f : Kfifo LogData) (hlist : f.toList = []) {buflen : ℕ}
    (hpos : buflen ≠ 0) (halign : buflen % msgAlign = 0) :
    secDetectorLogRead ⟨f, true⟩ buflen 0 = ((0, []), ⟨f, true⟩) := by
  have hempty : f.isEmpty = true := f.isEmpty_iff.mpr (f.toList_eq_nil_iff.mp hlist)
  rw [secDetectorLogRead, if_neg (by omega), if_pos hempty]

/-- **A clear** returns 1 and leaves the log empty. -/
theorem secDetectorLogWrite_spec (f : Kfifo LogData) :
    ∃ f', secDetectorLogWrite (some ⟨f, true⟩) 1 = (1, some ⟨f', true⟩) ∧
      f'.order = f.order ∧ f'.toList = [] := by
  obtain ⟨f', hloop, horder, hempty⟩ := cleanLoop_spec f
  refine ⟨f', ?_, horder, hempty⟩
  rw [secDetectorLogWrite, if_neg (by simp), cleanLogFifoData]
  dsimp only
  rw [if_pos rfl, hloop]
  simp

/-- A log of a power of two of records is accepted. -/
theorem secDetectorInitLog_spec {n k : ℕ} (hpow : n = 2 ^ k) (hlow : 2 ≤ n)
    (hhigh : n ≤ alarmRecordsMaxSize) (garbage : ℕ → LogData) :
    ∃ f, secDetectorInitLog true n ⟨true, true, garbage, true⟩ = (0, some ⟨f, true⟩) ∧
      f.size = n ∧ f.toList = [] := by
  have hlog : Nat.clog 2 n = k := by rw [hpow, Nat.clog_pow 2 k Nat.one_lt_two]
  have hround : roundupPowOfTwo n = n := by rw [roundupPowOfTwo, hlog, hpow]
  have hk : k ≤ 31 := by
    have hlt : 2 ^ k < 2 ^ 13 := by
      rw [← hpow]
      exact Nat.lt_of_le_of_lt hhigh (by decide)
    have := (Nat.pow_lt_pow_iff_right Nat.one_lt_two).mp hlt
    omega
  have horder : Nat.clog 2 n ≤ 31 := by rwa [hlog]
  refine ⟨Kfifo.empty (Nat.clog 2 n) garbage horder, ?_, ?_, Kfifo.toList_empty _ _⟩
  · rw [secDetectorInitLog, if_neg (by simp; omega), if_neg (by simp [hround]), createLog,
      kfifoAlloc, dif_pos ⟨by rwa [hround], horder⟩]
    rfl
  · exact hround

/-! ## The simulation -/

/-- The log and the history of what was written to it. -/
structure State where
  log : Option SecDetectorLog
  hist : DropOldest (List UInt8)

/-- A call, for which allocations and copies succeed. -/
inductive Action where
  | write (bytes : List UInt8)
  | read (buflen : ℕ)
  | clear

/-- One call, with its effect on the history. -/
def step (capacity : ℕ) (s : State) : Action → Option State
  | .write bytes => some
      { log := (writeLog s.log (some bytes) bytes.length true).2
        hist := s.hist.write capacity (stored bytes) }
  | .read buflen => s.log.map fun log =>
      { log := some (secDetectorLogRead log buflen 0).2
        hist := s.hist.read }
  | .clear => some
      { log := (secDetectorLogWrite s.log 1).2
        hist := s.hist.clear }

/-- After the initialisation of a log for `capacity` records. -/
def Initial (capacity : ℕ) (s : State) : Prop :=
  (∃ garbage, secDetectorInitLog true capacity ⟨true, true, garbage, true⟩ = (0, s.log)) ∧
    s.hist = DropOldest.empty

/-- Buffers of 1 to 4096 bytes are written, and buffers to read into are aligned and large
enough for the oldest record. -/
def Proper (s : State) : Action → Prop
  | .write bytes => 1 ≤ bytes.length ∧ bytes.length ≤ msgLen
  | .read buflen => buflen ≠ 0 ∧ buflen % msgAlign = 0 ∧
      ∀ bytes, s.hist.oldest = some bytes → bytes.length ≤ buflen
  | .clear => True

/-- A call does what the history says: every write returns 0, a read returns the oldest record
that is not gone, or 0 if there is none, and a clear returns 1 and empties the log. -/
def Answers (s : State) : Action → Prop
  | .write bytes => (writeLog s.log (some bytes) bytes.length true).1 = 0
  | .read buflen => ∃ log, s.log = some log ∧
      (secDetectorLogRead log buflen 0).1 =
        match s.hist.oldest with
        | some bytes => ((bytes.length : ℤ), bytes)
        | none => (0, [])
  | .clear => ∃ log, secDetectorLogWrite s.log 1 = (1, some log) ∧ log.logFifo.toList = []

/-- The `kfifo` holds the records that are not gone. -/
def Simulates (capacity : ℕ) (s : State) : Prop :=
  ∃ f : Kfifo LogData, s.log = some ⟨f, true⟩ ∧ f.size = capacity ∧
    f.toList = s.hist.unread.map record

theorem size_eq_of_order {f f' : Kfifo LogData} (horder : f'.order = f.order) :
    f'.size = f.size := by
  rw [Kfifo.size, Kfifo.size, horder]

/-- The oldest record in the history is the oldest one in the `kfifo`. -/
theorem unread_eq_cons {q : DropOldest (List UInt8)} {bytes : List UInt8}
    (holdest : q.oldest = some bytes) : q.unread = bytes :: q.unread.tail := by
  rw [q.oldest_eq_head?] at holdest
  exact (List.cons_head?_tail holdest).symm

theorem unread_eq_nil {q : DropOldest (List UInt8)} (holdest : q.oldest = none) :
    q.unread = [] := by
  rw [q.oldest_eq_head?] at holdest
  exact List.head?_eq_none_iff.mp holdest

variable {capacity : ℕ} {s s' : State}

/-- **One call**: it answers as the history says, and the simulation goes on. -/
theorem Simulates.call {a : Action} (hsim : Simulates capacity s) (hok : Proper s a) :
    Answers s a ∧ ∀ s', step capacity s a = some s' → Simulates capacity s' := by
  obtain ⟨f, hlog, hsize, hlist⟩ := hsim
  have hlen : f.len = s.hist.unread.length := by
    rw [← f.length_toList, hlist, List.length_map]
  cases a with
  | write bytes =>
      obtain ⟨f', hwrite, horder, hlist'⟩ := writeLog_spec f hok.1 hok.2
      refine ⟨by rw [Answers, hlog, hwrite], fun s' hstep => ?_⟩
      obtain rfl := Option.some.inj hstep
      refine ⟨f', by rw [hlog, hwrite], (size_eq_of_order horder).trans hsize, ?_⟩
      rw [hlist', hlen, hsize, hlist]
      have hpos := f.size_pos
      split
      · rename_i hroom
        rw [DropOldest.unread_write_of_lt _ _ _ hroom, List.map_append]
        rfl
      · rename_i hfull
        rw [DropOldest.unread_write_of_le _ _ _ (by omega) (not_lt.mp hfull), List.map_append,
          List.map_tail]
        rfl
  | clear =>
      obtain ⟨f', hclear, horder, hempty⟩ := secDetectorLogWrite_spec f
      refine ⟨⟨⟨f', true⟩, by rw [hlog, hclear], hempty⟩, fun s' hstep => ?_⟩
      obtain rfl := Option.some.inj hstep
      refine ⟨f', by rw [hlog, hclear], (size_eq_of_order horder).trans hsize, ?_⟩
      rw [hempty, DropOldest.unread_clear, List.map_nil]
  | read buflen =>
      obtain ⟨hpos, halign, hlarge⟩ := hok
      cases holdest : s.hist.oldest with
      | none =>
          have hunread := unread_eq_nil holdest
          have hread := secDetectorLogRead_empty f (by rw [hlist, hunread]; rfl) hpos halign
          refine ⟨⟨⟨f, true⟩, hlog, by rw [hread, holdest]⟩, fun s' hstep => ?_⟩
          rw [step, hlog] at hstep
          obtain rfl := Option.some.inj hstep
          refine ⟨f, by dsimp only; rw [hread], hsize, ?_⟩
          rw [DropOldest.unread_read, hlist, hunread]
          rfl
      | some bytes =>
          have hunread := unread_eq_cons holdest
          obtain ⟨f', hread, horder, hrest⟩ := secDetectorLogRead_spec f
            (by rw [hlist, hunread]; rfl) hpos halign (hlarge bytes holdest)
          refine ⟨⟨⟨f, true⟩, hlog, by rw [hread, holdest]⟩, fun s' hstep => ?_⟩
          rw [step, hlog] at hstep
          obtain rfl := Option.some.inj hstep
          refine ⟨f', by dsimp only; rw [hread], (size_eq_of_order horder).trans hsize, ?_⟩
          rw [DropOldest.unread_read, hrest]

/-- **The alarm log is a drop-oldest queue**, for every capacity that is a power of two from 2
to 4096 and every sequence of calls. -/
theorem alarm_log_drops_oldest {k : ℕ} (hpow : capacity = 2 ^ k) (hlow : 2 ≤ capacity)
    (hhigh : capacity ≤ 4096) {acts : List Action}
    (hrun : Run (step capacity) Proper (Initial capacity) acts s) {a : Action}
    (hok : Proper s a) : Answers s a := by
  have hsim : Simulates capacity s := by
    refine hrun.invariant (fun s hinit => ?_) fun s a s' hsim hok hstep =>
      (hsim.call hok).2 s' hstep
    obtain ⟨⟨garbage, hinit⟩, hhist⟩ := hinit
    obtain ⟨f, hlog, hsize, hempty⟩ := secDetectorInitLog_spec hpow hlow hhigh garbage
    rw [hlog, Prod.mk.injEq] at hinit
    exact ⟨f, hinit.2.symm, hsize, by rw [hempty, hhist]; rfl⟩
  exact (hsim.call hok).1

/-- The third write to a log for two records drops the first one. -/
theorem alarm_log_drops_oldest_two :
    ∃ s, Run (step 2) Proper (Initial 2) [.write [1], .write [2], .write [3]] s ∧
      s.hist.oldest = some [2] ∧ Answers s (.read 4) := by
  obtain ⟨f, hinit, -, -⟩ := secDetectorInitLog_spec (n := 2) (k := 1) rfl le_rfl (by decide)
    fun _ => ⟨0, none⟩
  have hstart : Run (step 2) Proper (Initial 2) [] ⟨some ⟨f, true⟩, DropOldest.empty⟩ :=
    .start ⟨⟨_, hinit⟩, rfl⟩
  have hbyte : ∀ (s : State) (b : UInt8), Proper s (.write [b]) := fun _ b =>
    ⟨Nat.le_refl [b].length, show 1 ≤ msgLen by decide⟩
  have hone := hstart.next (hbyte _ 1) rfl
  have htwo := hone.next (hbyte _ 2) rfl
  have hthree := htwo.next (hbyte _ 3) rfl
  refine ⟨_, hthree, rfl, ?_⟩
  refine alarm_log_drops_oldest (k := 1) rfl le_rfl (by decide) hthree ⟨by decide, by decide, ?_⟩
  intro bytes holdest
  obtain rfl : [2] = bytes := Option.some.inj holdest
  decide

end SecDetector.Alarm
