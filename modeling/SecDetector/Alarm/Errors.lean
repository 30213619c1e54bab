import SecDetector.Alarm.Queue

/-!
# What a failing call loses

A read takes its record out before it looks at the size of the reader's buffer and before it
copies, and a write drops the oldest record of a full log before it has memory for the new
one.  `failure_keeps_iff` says which failing calls leave the log as it was.
-/

namespace SecDetector.Alarm

open Lib

/-- A call of `write_log` or of `secDetector_log_read`, with what the allocator and
`copy_to_user` answer. -/
inductive Request where
  | write (buf : Option (List UInt8)) (bufLen : ℕ) (kzalloc : Bool)
  | read (buflen : ℕ) (uncopied : ℕ)

/-- What the call returns, and the log after it. -/
def Request.result (log : SecDetectorLog) : Request → ℤ × Option SecDetectorLog
  | .write buf bufLen kzalloc => writeLog (some log) buf bufLen kzalloc
  | .read buflen uncopied =>
      ((secDetectorLogRead log buflen uncopied).1.1,
        some (secDetectorLogRead log buflen uncopied).2)

/-- The records in the log, oldest first. -/
def records (log : Option SecDetectorLog) : List LogData :=
  log.elim [] fun log => log.logFifo.toList

/-- If the call fails, the records are those from before it. -/
def KeptOnFailure (log : SecDetectorLog) (request : Request) : Prop :=
  (request.result log).1 < 0 → records (request.result log).2 = log.logFifo.toList

/-- A write with proper arguments finds room or memory; a read that is not refused finds the log
empty, or its buffer is large enough and can be written to. -/
def Request.Keeps (log : SecDetectorLog) : Request → Prop
  | .write buf bufLen kzalloc =>
      buf ≠ none → bufLen ≠ 0 → bufLen ≤ msgLen → log.inflag = true →
        log.logFifo.len < log.logFifo.size ∨ kzalloc = true
  | .read buflen uncopied =>
      buflen ≠ 0 → buflen % msgAlign = 0 → ∀ data ∈ log.logFifo.toList.head?,
        data.dataSize ≤ buflen ∧ uncopied = 0

variable {log : SecDetectorLog}

/-- A write that comes to its check. -/
theorem write_keeps_iff (f : Kfifo LogData) (buf : List UInt8) {bufLen : ℕ} (hpos : bufLen ≠ 0)
    (hle : bufLen ≤ msgLen) (kzalloc : Bool) :
    KeptOnFailure ⟨f, true⟩ (.write (some buf) bufLen kzalloc) ↔
      f.len < f.size ∨ kzalloc = true := by
  obtain ⟨f₁, hcheck, _, hroom, hlist⟩ := checkAndOutLogFifo_spec f
  unfold KeptOnFailure Request.result writeLog
  dsimp only
  rw [if_neg (by omega), hcheck]
  simp only [Bool.not_true, Bool.false_eq_true, if_false, ne_eq, not_true_eq_false]
  cases kzalloc with
  | true =>
      -- the write succeeds
      obtain ⟨f', hput, -⟩ := f₁.put_spec ⟨bufLen, some (buf.take
        (if bufLen = msgLen then bufLen - 1 else bufLen) ++ List.replicate
          (bufLen - if bufLen = msgLen then bufLen - 1 else bufLen) 0)⟩ hroom
      refine iff_of_true (fun hneg => absurd hneg ?_) (.inr rfl)
      simp [hput]
  | false =>
      simp only [Bool.not_false, if_true, records, Option.elim_some]
      rw [imp_iff_right (by decide), hlist]
      by_cases hfree : f.len < f.size
      · rw [if_pos hfree]
        exact iff_of_true rfl (.inl hfree)
      · rw [if_neg hfree]
        refine iff_of_false (fun htail => ?_) (by simp [hfree])
        have hlen := congrArg List.length htail
        have hpos := f.size_pos
        rw [List.length_tail, f.length_toList] at hlen
        omega

theorem read_keeps_iff (f : Kfifo LogData) {inflag : Bool} {buflen : ℕ} (hpos : buflen ≠ 0)
    (halign : buflen % msgAlign = 0) (uncopied : ℕ) :
    KeptOnFailure ⟨f, inflag⟩ (.read buflen uncopied) ↔
      ∀ data ∈ f.toList.head?, data.dataSize ≤ buflen ∧ uncopied = 0 := by
  unfold KeptOnFailure Request.result secDetectorLogRead
  dsimp only
  rw [if_neg (by omega)]
  by_cases hempty : f.len = 0
  · -- nothing is taken out
    rw [if_pos (f.isEmpty_iff.mpr hempty), f.toList_eq_nil_iff.mpr hempty]
    exact iff_of_true (fun hneg => absurd hneg (by simp)) (by simp)
  · obtain ⟨data, f', hget, _, hlist⟩ := f.get_spec hempty
    have hlost : f'.toList ≠ f.toList := by
      rw [hlist]
      exact (List.cons_ne_self _ _).symm
    have hsome : ¬ f.isEmpty = true := fun h => hempty (f.isEmpty_iff.mp h)
    rw [if_neg hsome, hget]
    simp only [hlist, List.head?_cons, Option.mem_def, Option.some.injEq, forall_eq', records,
      Option.elim_some]
    rw [← hlist]
    unfold logDataToUser
    by_cases hsmall : buflen < data.dataSize
    · rw [if_pos hsmall]
      exact iff_of_false (fun h => hlost (h (by decide))) fun h => absurd h.1 (not_le.mpr hsmall)
    · rw [if_neg hsmall, and_iff_right (not_lt.mp hsmall)]
      by_cases hcopied : uncopied = 0
      · rw [if_neg (not_not.mpr hcopied)]
        exact iff_of_true (fun hneg => absurd hneg (by simp)) hcopied
      · rw [if_pos hcopied]
        exact iff_of_false (fun h => hlost (h (by decide))) hcopied

/-- **When a failing call loses nothing.** -/
theorem failure_keeps_iff (log : SecDetectorLog) (request : Request) :
    KeptOnFailure log request ↔ request.Keeps log := by
  obtain ⟨f, inflag⟩ := log
  cases request with
  | read buflen uncopied =>
      unfold Request.Keeps
      by_cases hpos : buflen = 0
      · refine iff_of_true (fun _ => ?_) fun h => absurd hpos h
        simp [Request.result, secDetectorLogRead, hpos, records]
      · by_cases halign : buflen % msgAlign = 0
        · exact (read_keeps_iff f hpos halign uncopied).trans
            ⟨fun h _ _ => h, fun h => h hpos halign⟩
        · refine iff_of_true (fun _ => ?_) fun _ h => absurd h halign
          simp [Request.result, secDetectorLogRead, halign, records]
  | write buf bufLen kzalloc =>
      unfold Request.Keeps
      cases buf with
      | none => exact iff_of_true (fun _ => rfl) fun h => absurd rfl h
      | some buf =>
          by_cases hlen : bufLen = 0 ∨ msgLen < bufLen
          · refine iff_of_true (fun _ => ?_) fun _ hpos hle => by omega
            simp [Request.result, writeLog, hlen, records]
          · obtain ⟨hpos, hle⟩ := not_or.mp hlen
            have hle := not_lt.mp hle
            cases inflag with
            | false =>
                refine iff_of_true (fun _ => ?_) fun _ _ _ h => absurd h Bool.false_ne_true
                simp [Request.result, writeLog, hlen, records]
            | true =>
                exact (write_keeps_iff f buf hpos hle kzalloc).trans
                  ⟨fun h _ _ _ _ => h, fun h => h (Option.some_ne_none buf) hpos hle rfl⟩

/-- A failing call can lose a record: here the only one is read into memory that cannot be
written to. -/
theorem not_failure_keeps :
    ¬ ∀ (capacity : ℕ) (acts : List Action) (s : State) (log : SecDetectorLog) (request : Request),
      Run (step capacity) Proper (Initial capacity) acts s → s.log = some log →
        KeptOnFailure log request := by
  intro hclaim
  obtain ⟨f, hinit, -, hempty⟩ := secDetectorInitLog_spec (n := 2) (k := 1) rfl le_rfl (by decide)
    fun _ => ⟨0, none⟩
  have hstart : Run (step 2) Proper (Initial 2) [] ⟨some ⟨f, true⟩, DropOldest.empty⟩ :=
    .start ⟨⟨_, hinit⟩, rfl⟩
  have hpos : 1 ≤ ([1] : List UInt8).length := by decide
  obtain ⟨f', hwrite, -, hlist⟩ := writeLog_spec f hpos (by decide)
  have hproper : ∀ s, Proper s (.write [1]) := fun _ => ⟨by decide, by decide⟩
  have hone := hstart.next (hproper _) rfl
  have hkept := hclaim 2 _ _ ⟨f', true⟩ (.read 4 1) hone (by rw [hwrite])
  rw [read_keeps_iff f' (by decide) (by decide)] at hkept
  have hcopied := hkept (record (stored [1])) (by rw [hlist, hempty]; simp)
  exact absurd hcopied.2 (by decide)

end SecDetector.Alarm
