import Mathlib.Data.Int.Notation
import Mathlib.Data.Nat.Log
import SecDetector.Lib.Kfifo

/-!
# The alarm log

`secDetector_proc.c`: `write_log`, and the read and the write of the file `alarm`.  The log
is a `kfifo` of records; who frees the buffer of a record is not part of the model.

What the allocator and `copy_to_user` answer is an argument.  The calls do not overlap, so
the spin lock is left out.
-/

namespace SecDetector.Alarm

open Lib

def alarmRecordsMaxSize : ℕ := 4096
def msgAlign : ℕ := 4
def msgLen : ℕ := 4096

def eFault : ℤ := 14
def eInval : ℤ := 22

/-- `s_log_data`; `data` is `none` for a null pointer. -/
structure LogData where
  dataSize : ℕ
  data : Option (List UInt8)
  deriving DecidableEq

/-- `s_secDetector_log`. -/
structure SecDetectorLog where
  logFifo : Kfifo LogData
  inflag : Bool

/-! ## The loops -/

theorem len_get_lt {α : Type*} {f f' : Kfifo α} {a : α} (hget : f.get = (some a, f')) :
    f'.len < f.len := by
  by_cases hempty : f.len = 0
  · rw [f.get_of_empty hempty] at hget
    simp at hget
  · obtain ⟨a', f'', heq, _, hlist⟩ := f.get_spec hempty
    rw [heq, Prod.mk.injEq] at hget
    have hlen := congrArg List.length hlist
    rw [f.length_toList, List.length_cons, f''.length_toList, hget.2] at hlen
    omega

/-- The loop of `clean_log_fifo_data`. -/
def cleanLoop (logFifo : Kfifo LogData) : ℤ × Kfifo LogData :=
  if logFifo.len ≠ 0 then
    match hget : logFifo.get with
    | (none, logFifo) => (-1, logFifo)
    | (some _, logFifo) => cleanLoop logFifo
  else (0, logFifo)
termination_by logFifo.len
decreasing_by exact len_get_lt hget

/-- `check_and_out_log_fifo`. -/
def checkAndOutLogFifo (logFifo : Kfifo LogData) : ℤ × Kfifo LogData :=
  if logFifo.avail = 0 then
    match hget : logFifo.get with
    | (none, logFifo) => (-1, logFifo)
    | (some _, logFifo) => checkAndOutLogFifo logFifo
  else (0, logFifo)
termination_by logFifo.len
decreasing_by exact len_get_lt hget

/-! ## The calls

`log` is `g_secDetector_log_fifo`. -/

/-- `clean_log_fifo_data`. -/
def cleanLogFifoData (log : Option SecDetectorLog) : ℤ × Option SecDetectorLog :=
  match log with
  | none => (0, none)
  | some log =>
      if log.inflag then
        let (ret, logFifo) := cleanLoop log.logFifo
        (ret, some { logFifo := logFifo, inflag := true })
      else (0, some log)

/-- `write_log`, for the first `bufLen` bytes behind `buf`. -/
def writeLog (log : Option SecDetectorLog) (buf : Option (List UInt8)) (bufLen : ℕ)
    (kzalloc : Bool) : ℤ × Option SecDetectorLog :=
  match buf with
  | none => (-eInval, log)
  | some buf =>
      if bufLen = 0 ∨ msgLen < bufLen then (-eInval, log)
      else
        match log with
        | none => (-1, none)
        | some log =>
            if !log.inflag then (-1, some log)
            else
              let (ret, logFifo) := checkAndOutLogFifo log.logFifo
              if ret ≠ 0 then (-1, some { log with logFifo := logFifo })
              else if !kzalloc then (-1, some { log with logFifo := logFifo })
              else
                let len := if bufLen = msgLen then bufLen - 1 else bufLen
                -- the rest of the buffer stays zero
                let data := buf.take len ++ List.replicate (bufLen - len) 0
                let (ret, logFifo) := logFifo.put ⟨bufLen, some data⟩
                (if ret ≠ 1 then -1 else 0, some { log with logFifo := logFifo })

/-- `log_data_to_user`, with the bytes that arrive; `uncopied` is what `copy_to_user` returns. -/
def logDataToUser (buflen : ℕ) (log : LogData) (uncopied : ℕ) : ℤ × List UInt8 :=
  if buflen < log.dataSize then (-1, [])
  else if uncopied ≠ 0 then (-eFault, [])
  else (log.dataSize, (log.data.getD []).take log.dataSize)

/-- `secDetector_log_read`.  The file exists only as long as the log does. -/
def secDetectorLogRead (log : SecDetectorLog) (buflen : ℕ) (uncopied : ℕ) :
    (ℤ × List UInt8) × SecDetectorLog :=
  if buflen = 0 ∨ buflen % msgAlign ≠ 0 then ((-eInval, []), log)
  else if log.logFifo.isEmpty then ((0, []), log)
  else
    match log.logFifo.get with
    | (none, logFifo) => ((-1, []), { log with logFifo := logFifo })
    | (some data, logFifo) =>
        (logDataToUser buflen data uncopied, { log with logFifo := logFifo })

/-- `secDetector_log_write`. -/
def secDetectorLogWrite (log : Option SecDetectorLog) (count : ℕ) : ℤ × Option SecDetectorLog :=
  if count ≠ 1 then (-eInval, log)
  else
    let (ret, log) := cleanLogFifoData log
    if ret ≠ 0 then (ret, log) else (count, log)

/-! ## Initialisation -/

/-- What the environment contributes to `create_log`: the two allocations, what is in the
memory of the second, and `proc_create`. -/
structure CreateEnv where
  kzalloc : Bool
  kfifoAlloc : Bool
  garbage : ℕ → LogData
  procCreate : Bool

/-- `roundup_pow_of_two`. -/
def roundupPowOfTwo (n : ℕ) : ℕ := 2 ^ Nat.clog 2 n

/-- `kfifo_alloc`. -/
def kfifoAlloc (size : ℕ) (env : CreateEnv) : Option (Kfifo LogData) :=
  if horder : 2 ≤ roundupPowOfTwo size ∧ Nat.clog 2 size ≤ 31 then
    if env.kfifoAlloc then some (Kfifo.empty (Nat.clog 2 size) env.garbage horder.2) else none
  else none

/-- `create_log`. -/
def createLog (logSize : ℕ) (env : CreateEnv) : ℤ × Option SecDetectorLog :=
  if !env.kzalloc then (-1, none)
  else
    match kfifoAlloc logSize env with
    | none => (-1, none)
    | some logFifo =>
        if !env.procCreate then (-1, none) else (0, some ⟨logFifo, true⟩)

/-- `secDetector_init_log`; `parent` says that the directory is there. -/
def secDetectorInitLog (parent : Bool) (logSize : ℕ) (env : CreateEnv) :
    ℤ × Option SecDetectorLog :=
  if !parent ∨ logSize ≤ 1 ∨ alarmRecordsMaxSize < logSize then (-eInval, none)
  else if logSize ≠ roundupPowOfTwo logSize then (-eInval, none)
  else createLog logSize env

end SecDetector.Alarm
