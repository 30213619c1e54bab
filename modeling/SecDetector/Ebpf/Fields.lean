import SecDetector.Ebpf.File
import SecDetector.Ebpf.Converter

/-!
# What stands in a record

The fields of a record after the handlers have written them.  `Filled` is about the
common fields and `ProcessFilled` about the fields that the process program adds;
strings are found through `Holds`.
-/

namespace SecDetector.Ebpf

open Lib Text Memory

variable {T : Type*} [DecidableEq T] {k : Kernel T} {e : EbpfEvent} {name : Text}

/-! ## Integers in the union -/

namespace EbpfEvent

variable {off off' : ℕ} {bytes : List UInt8}

theorem u32_storeInfo (hapart : off + 4 ≤ off' ∨ off' + bytes.length ≤ off) :
    (e.storeInfo off' bytes).u32 off = e.u32 off :=
  loadNat_store_of_apart hapart

theorem u64_storeInfo (hapart : off + 8 ≤ off' ∨ off' + bytes.length ≤ off) :
    (e.storeInfo off' bytes).u64 off = e.u64 off :=
  loadNat_store_of_apart hapart

theorem u32_storeU32_self (value : BitVec 32) : (e.storeU32 off value).u32 off = value.toNat :=
  loadNat_store_self value.isLt

theorem u64_storeU64_self (value : BitVec 64) : (e.storeU64 off value).u64 off = value.toNat :=
  loadNat_store_self value.isLt

theorem u32_storeU32 (value : BitVec 32) (hapart : off + 4 ≤ off' ∨ off' + 4 ≤ off) :
    (e.storeU32 off' value).u32 off = e.u32 off :=
  u32_storeInfo (by rwa [length_leBytes])

theorem u32_storeU64 (value : BitVec 64) (hapart : off + 4 ≤ off' ∨ off' + 8 ≤ off) :
    (e.storeU64 off' value).u32 off = e.u32 off :=
  u32_storeInfo (by rwa [length_leBytes])

theorem u64_storeU64 (value : BitVec 64) (hapart : off + 8 ≤ off' ∨ off' + 8 ≤ off) :
    (e.storeU64 off' value).u64 off = e.u64 off :=
  u64_storeInfo (by rwa [length_leBytes])

end EbpfEvent

open EbpfEvent

/-! ## Common fields -/

/-- The record has the common fields that `get_common_info` fills in, and an event name. -/
structure Filled (k : Kernel T) (name : Text) (e : EbpfEvent) : Prop where
  common : getCommonInfo k e = e
  eventName : ∃ rest, e.eventName = name.bytes ++ 0 :: rest

theorem Filled.pid (hfilled : Filled k name e) : e.pid = k.currentTask.tgid :=
  (congrArg EbpfEvent.pid hfilled.common).symm

/-- **The common text is determined by the kernel and the event name.** -/
theorem exists_commonText (env : Env) (k : Kernel T) (name : Text) :
    ∃ common, ∀ e, Filled k name e → extractCommonInfo env e = some common := by
  have hread : ∀ rest, readString (name.bytes ++ 0 :: rest) = some name :=
    fun rest => readString_append_nul name rest
  cases hlink : env.readlink
      (ascii "/proc/" ++ decimal k.currentTask.tgid.toNat ++ ascii "/exe") with
  | none | some path =>
      apply Exists.intro
      intro e hfilled
      obtain ⟨hcommon, rest, hname⟩ := hfilled
      rw [← hcommon]
      simp only [extractCommonInfo, findProcessPathFromPid, getCommonInfo, hname, hlink, hread,
        KernelString.readString_padded, KernelString.readString_bytes, bind, pure,
        Option.bind_some]
      rfl

/-! ## Fields of the process program -/

/-- The fields that `get_common_info` of the process program adds. -/
structure ProcessFilled (k : Kernel T) (e : EbpfEvent) : Prop where
  umask : e.u32 ProcessInfo.umask = k.currentTask.umask.toNat
  tracerPid : e.u32 ProcessInfo.tracerPid = (Process.tracerPid k).toNat
  cgroupNs : e.u64 ProcessInfo.cgroupNs = (k.currentTask.cgroupNs.zeroExtend 64).toNat
  ipcNs : e.u64 ProcessInfo.ipcNs = (k.currentTask.ipcNs.zeroExtend 64).toNat
  mntNs : e.u64 ProcessInfo.mntNs = (k.currentTask.mntNs.zeroExtend 64).toNat
  userNs : e.u64 ProcessInfo.userNs = (k.currentTask.userNs.zeroExtend 64).toNat
  utsNs : e.u64 ProcessInfo.utsNs = (k.currentTask.utsNs.zeroExtend 64).toNat
  timeNs : e.u64 ProcessInfo.timeNs = (k.currentTask.timeNs.zeroExtend 64).toNat

theorem processFilled_getCommonInfo (k : Kernel T) (e : EbpfEvent) :
    ProcessFilled k (Process.getCommonInfo k e) := by
  constructor <;>
    simp (disch := decide) only [Process.getCommonInfo, Process.getNamespace, u32_storeU64,
      u32_storeU32, u64_storeU64, u32_storeU32_self, u64_storeU64_self]

omit [DecidableEq T] in
theorem ProcessFilled.storeInfo (hfilled : ProcessFilled k e) {off : ℕ} {bytes : List UInt8}
    (hapart : off + bytes.length ≤ 16 ∨ 72 ≤ off) : ProcessFilled k (e.storeInfo off bytes) where
  umask := (u32_storeInfo (by simp; omega)).trans hfilled.umask
  tracerPid := (u32_storeInfo (by simp; omega)).trans hfilled.tracerPid
  cgroupNs := (u64_storeInfo (by simp; omega)).trans hfilled.cgroupNs
  ipcNs := (u64_storeInfo (by simp; omega)).trans hfilled.ipcNs
  mntNs := (u64_storeInfo (by simp; omega)).trans hfilled.mntNs
  userNs := (u64_storeInfo (by simp; omega)).trans hfilled.userNs
  utsNs := (u64_storeInfo (by simp; omega)).trans hfilled.utsNs
  timeNs := (u64_storeInfo (by simp; omega)).trans hfilled.timeNs

omit [DecidableEq T] in
/-- The fields are in the union. -/
theorem ProcessFilled.of_info (hfilled : ProcessFilled k e) {e' : EbpfEvent}
    (hinfo : e'.info = e.info) : ProcessFilled k e' := by
  obtain ⟨humask, htracer, hcgroup, hipc, hmnt, huser, huts, htime⟩ := hfilled
  simp only [u32, u64, ← hinfo] at humask htracer hcgroup hipc hmnt huser huts htime
  exact ⟨humask, htracer, hcgroup, hipc, hmnt, huser, huts, htime⟩

/-- `get_common_info` writes to no other area of the union. -/
theorem load_getCommonInfo {off n : ℕ} (hapart : off + n ≤ 16 ∨ 72 ≤ off) :
    load (Process.getCommonInfo k e).info off n = load e.info off n := by
  simp only [Process.getCommonInfo, Process.getNamespace, storeU64, storeU32, EbpfEvent.storeInfo]
  repeat rw [load_store_of_apart (by rw [length_leBytes]; simp; omega)]
  rfl

theorem u32_getCommonInfo {off : ℕ} (hapart : off + 4 ≤ 16 ∨ 72 ≤ off) :
    (Process.getCommonInfo k e).u32 off = e.u32 off :=
  congrArg leNat (load_getCommonInfo hapart)

omit [DecidableEq T] in
/-- The process text is determined by the kernel. -/
theorem exists_processText (env : Env) (k : Kernel T) :
    ∃ text, ∀ e, e.pid = k.currentTask.tgid → ProcessFilled k e →
      extractCommonProcessInfo env e = text := by
  apply Exists.intro
  intro e hpid hfilled
  rw [extractCommonProcessInfo, hfilled.umask, hfilled.tracerPid, hfilled.cgroupNs, hfilled.ipcNs,
    hfilled.mntNs, hfilled.userNs, hfilled.utsNs, hfilled.timeNs, hpid]

/-! ## Strings in the union -/

/-- The string that `bpf_probe_read_str` leaves. -/
def probeText (size : ℕ) (src : Option Text) : Text :=
  src.elim .empty (Text.take (size - 1))

theorem length_probeText {size : ℕ} (hsize : 0 < size) (src : Option Text) :
    (probeText size src).length < size := by
  cases src with
  | none => exact hsize
  | some t =>
      rw [probeText, Option.elim_some, length_take]
      omega

theorem length_probeBytes {size : ℕ} (hsize : 0 < size) (src : Option Text) :
    (Process.probeBytes size src).length ≤ size := by
  cases src with
  | none => simp [Process.probeBytes]
  | some t =>
      have hlength := length_probeText hsize (some t)
      rw [probeText, Option.elim_some, Text.length] at hlength
      rw [Process.probeBytes, List.length_append]
      exact hlength

theorem holds_probeBytes {size : ℕ} (hsize : 0 < size) (info : ℕ → UInt8) (off : ℕ)
    (src : Option Text) : Holds (store info off (Process.probeBytes size src)) off
      (probeText size src) := by
  cases src with
  | none =>
      have hzeros : List.replicate size (0 : UInt8) = Text.empty.bytes ++
          0 :: List.replicate (size - 1) 0 := by
        rw [← Nat.sub_add_cancel hsize, List.replicate_succ, Nat.add_sub_cancel]
        rfl
      rw [Process.probeBytes, hzeros]
      exact holds_store_self _ _ _ _
  | some t => exact holds_store_self _ _ _ _

/-- Strings outside the fields of `get_common_info` stay. -/
theorem holds_getCommonInfo {off : ℕ} {t : Text} (h : Holds e.info off t) (hoff : 72 ≤ off) :
    Holds (Process.getCommonInfo k e).info off t :=
  (load_getCommonInfo (.inr hoff)).trans h

theorem holds_kernelString {n : ℕ} (s : KernelString n) (info : ℕ → UInt8) (off : ℕ) :
    Holds (store info off s.bytes) off s.text :=
  holds_store_self _ _ _ _

end SecDetector.Ebpf
