import SecDetector.Alarm.Queue
import SecDetector.Lib.Holding
import SecDetector.Ring.Paged

/-!
# Starting up

`secDetector_ringbuf_dev_init` and `secDetector_init`, with every allocation and registration
on the way as an entry of a trace.  What the kernel answers is an argument.

`ringbuf_alloc` reports a failure as an error pointer, and `secDetector_ringbuf_dev_init` looks
for a null pointer.  So a start without memory goes on: it registers the device on a ring that
is not there, or faults in `ringbuf_free`.  `startup_clean_iff` says that this is all that
goes wrong: whenever the pages are there, each later failure undoes everything.
-/

namespace SecDetector.Core

open SecDetector.Lib SecDetector.Ring SecDetector.Alarm

variable {P : Type*}

/-! ## The device -/

/-- What the kernel hands out on the way. -/
inductive Resource (P : Type*) where
  | array
  | page (page : P)
  | mapping
  | chrdev
  | deviceClass
  | device
  deriving DecidableEq

/-- An entry of the trace of `ringbuf_area_alloc`. -/
def use : AreaEvent P → Use (Resource P)
  | .allocArray => .acquire .array
  | .allocPage page => .acquire (.page page)
  | .vmap => .acquire .mapping
  | .freePage page => .release (.page page)
  | .freeArray => .release .array

/-- An error that `ERR_PTR` can show. -/
structure Errno where
  value : ℕ
  pos : 0 < value
  le : value ≤ 4095

/-- `PTR_ERR`. -/
def Errno.ptrErr (err : Errno) : ℤ := -err.value

/-- What the kernel answers: `register_chrdev` the major number or an error, `class_create` and
`device_create` nothing or an error. -/
structure DevEnv (P : Type*) where
  area : AreaEnv P
  registerChrdev : ℤ
  classCreate : Option Errno
  deviceCreate : Option Errno

/-- `g_rb`. -/
inductive GRb (P : Type*) where
  | null
  | err (ret : ℤ)
  | ring (rb : Area P)

/-- What `ringbuf_alloc` returns. -/
def GRb.ofAlloc {M : Type*} : Except ℤ (Area P × M) → GRb P
  | .error ret => .err ret
  | .ok (rb, _) => .ring rb

/-- `ringbuf_free`; nothing if there is no ring behind the pointer, since its fields are read. -/
def ringbufFree : GRb P → Option (List (Use (Resource P)))
  | .ring rb => some (.release .mapping :: (errFreePages rb.nrPages rb.pages).map use)
  | .null => none
  | .err _ => none

/-- How `secDetector_ringbuf_dev_init` ends: what it returns, unless the kernel faults, the
pointer that it leaves, and its trace. -/
structure DevResult (P : Type*) where
  ret : Option ℤ
  gRb : GRb P
  uses : List (Use (Resource P))

/-- What stands behind the label `error_free`. -/
def errorFree (ret : ℤ) (gRb : GRb P) (uses : List (Use (Resource P))) : DevResult P :=
  match ringbufFree gRb with
  | none => ⟨none, gRb, uses⟩
  | some freed => ⟨some ret, .null, uses ++ freed⟩

/-- `secDetector_ringbuf_dev_init` from `register_chrdev` on. -/
def devRegister (env : DevEnv P) (gRb : GRb P) (uses : List (Use (Resource P))) : DevResult P :=
  if env.registerChrdev < 0 then errorFree env.registerChrdev gRb uses
  else
    let uses := uses ++ [.acquire .chrdev]
    match env.classCreate with
    | some err => errorFree err.ptrErr gRb (uses ++ [.release .chrdev])
    | none =>
        let uses := uses ++ [.acquire .deviceClass]
        match env.deviceCreate with
        | some err =>
            errorFree err.ptrErr gRb (uses ++ [.release .deviceClass, .release .chrdev])
        | none => ⟨some 0, gRb, uses ++ [.acquire .device]⟩

/-- `secDetector_ringbuf_dev_init`. -/
def secDetectorRingbufDevInit [DecidableEq P] (layout : RingbufLayout) (rbSz : UInt32)
    (env : DevEnv P) (mem : P × ℕ → UInt8) : DevResult P :=
  let (rb, events) := ringbufAlloc layout rbSz.toNat env.area mem
  match GRb.ofAlloc rb with
  | .null => ⟨some (-eNomem), .null, events.map use⟩
  | gRb => devRegister env gRb (events.map use)

/-! ## The core -/

/-- `secDetector_destroy_log`: whether the file of the log is there after it, and the log. -/
def secDetectorDestroyLog (log : Option SecDetectorLog) : Bool × Option SecDetectorLog :=
  match cleanLogFifoData log with
  | (ret, log) => (false, if ret ≠ 0 then log else none)

def minRingbufSize : UInt32 := 4
def maxRingbufSize : UInt32 := 1024

/-- `is_power_of_2`. -/
def isPowerOf2 (n : UInt32) : Bool := n != 0 && n &&& (n - 1) == 0

/-- `ringbuf_size_check`: the size in bytes, if it is accepted. -/
def ringbufSizeCheck (ringbufSize : UInt32) : Option UInt32 :=
  if ringbufSize < minRingbufSize ∨ maxRingbufSize < ringbufSize then none
  else if !isPowerOf2 ringbufSize then none
  else some (ringbufSize * 1024 * 1024)

/-- The parameters of the module, and what the kernel answers before the device. -/
structure CoreEnv where
  ringbufSize : UInt32
  logSize : ℕ
  initManager : ℤ
  procMkdir : Bool
  createLog : CreateEnv

/-- What `secDetector_init` leaves; `alarm` says that the file of the log is there, and `dev`
is nothing if the device was not reached. -/
structure CoreResult (P : Type*) where
  ret : Option ℤ
  rootDir : Bool
  alarm : Bool
  log : Option SecDetectorLog
  dev : Option (DevResult P)

/-- `secDetector_init`. -/
def secDetectorInit [DecidableEq P] (layout : RingbufLayout) (core : CoreEnv) (env : DevEnv P)
    (mem : P × ℕ → UInt8) : CoreResult P :=
  match ringbufSizeCheck core.ringbufSize with
  | none => ⟨some (-SecDetector.Ring.eInval), false, false, none, none⟩
  | some ringbufSizeBytes =>
      if core.initManager ≠ 0 then ⟨some core.initManager, false, false, none, none⟩
      else if !core.procMkdir then ⟨some (-eFault), false, false, none, none⟩
      else
        let (ret, log) := secDetectorInitLog true core.logSize core.createLog
        if ret ≠ 0 then ⟨some ret, false, false, log, none⟩
        else
          let dev := secDetectorRingbufDevInit layout ringbufSizeBytes env mem
          match dev.ret with
          | none => ⟨none, true, true, log, some dev⟩
          | some ret =>
              if ret ≠ 0 then
                let (alarm, log) := secDetectorDestroyLog log
                ⟨some ret, false, alarm, log, some dev⟩
              else ⟨some 0, true, true, log, some dev⟩

/-! ## What a failed start leaves -/

/-- Every allocation of `ringbuf_area_alloc` succeeds. -/
structure Complete (dataSz : ℕ) (env : AreaEnv P) : Prop where
  array : env.array = true
  page : ∀ i < ringbufPgoff + ringbufPosPages + dataSz / pageSize, env.page i ≠ none
  vmap : env.vmap = true

/-- Every allocation and every registration succeeds. -/
structure Succeeds (rbSz : UInt32) (env : DevEnv P) : Prop where
  area : Complete rbSz.toNat env.area
  registerChrdev : 0 ≤ env.registerChrdev
  classCreate : env.classCreate = none
  deviceCreate : env.deviceCreate = none

variable [DecidableEq P]

/-- An error is returned, everything that was taken is given back once, and the character device
is registered only while the ring is mapped. -/
structure DevClean (result : DevResult P) : Prop where
  error : ∃ ret < 0, result.ret = some ret
  released : exec Use.step 0 result.uses = some 0
  usable : ∀ front held, front <+: result.uses → exec Use.step 0 front = some held →
    .chrdev ∈ held → .mapping ∈ held

omit [DecidableEq P] in
/-- The error of the device is returned, and the log and the directory are removed. -/
structure CoreClean (ret : Option ℤ) (result : CoreResult P) : Prop where
  ret : result.ret = ret
  rootDir : result.rootDir = false
  alarm : result.alarm = false
  log : result.log = none

/-- If anything fails on the way to a device of `rbSz` bytes, nothing is left behind, neither
by `secDetector_ringbuf_dev_init` nor by a `secDetector_init` that has called it. -/
def StartupClean (layout : RingbufLayout) (rbSz : UInt32) (env : DevEnv P)
    (mem : P × ℕ → UInt8) : Prop :=
  ¬ Succeeds rbSz env →
    DevClean (secDetectorRingbufDevInit layout rbSz env mem) ∧
      ∀ core, ringbufSizeCheck core.ringbufSize = some rbSz →
        (secDetectorInit layout core env mem).dev ≠ none →
          CoreClean (secDetectorRingbufDevInit layout rbSz env mem).ret
            (secDetectorInit layout core env mem)

/-! ## The pages -/

variable {layout : RingbufLayout} {rbSz : UInt32} {env : DevEnv P} {mem : P × ℕ → UInt8}

omit [DecidableEq P] in
theorem map_use_allocPage (pages : List P) :
    (pages.map .allocPage).map use = (pages.map Resource.page).map .acquire := by
  rw [List.map_map, List.map_map]
  rfl

omit [DecidableEq P] in
theorem map_use_errFreePages (nrPages : ℕ) (pages : List P) :
    (errFreePages nrPages pages).map use =
      ((pages.take nrPages).map Resource.page).map .release ++ [.release .array] := by
  rw [errFreePages, List.map_append, List.map_map, List.map_map]
  rfl

/-- Giving back the pages and the array. -/
theorem exec_errFreePages (nrPages : ℕ) (pages : List P) :
    exec Use.step (Resource.array ::ₘ ((pages.take nrPages).map Resource.page : Multiset _))
      ((errFreePages nrPages pages).map use) = some 0 := by
  rw [map_use_errFreePages, Use.exec_append, ← Multiset.singleton_add, Use.exec_releases]
  exact Use.exec_release_cons 0 Resource.array []

/-- Taking the array and the pages. -/
theorem exec_allocPages (pages : List P) :
    exec Use.step 0 ((.allocArray :: pages.map .allocPage).map use) =
      some (Resource.array ::ₘ (pages.map Resource.page : Multiset _)) := by
  rw [List.map_cons, map_use_allocPage, use, Use.exec_acquire, Use.exec_acquires]
  rfl

/-- What is held while the ring is there. -/
def ringHeld (area : Area P) : Multiset (Resource P) :=
  .mapping ::ₘ .array ::ₘ ((area.pages.take area.nrPages).map Resource.page : Multiset _)

omit [DecidableEq P] in
/-- The array as it is handed to the loop. -/
theorem length_initialPages {n k : ℕ} (garbage : ℕ → P) :
    n + k ≤ ((List.range (n + 2 * k)).map garbage).length := by
  rw [List.length_map, List.length_range]
  omega

/-- **What `ringbuf_area_alloc` takes**: the ring, if nothing fails, and else nothing that it
does not give back. -/
theorem ringbufAreaAlloc_uses (dataSz : ℕ) (env : AreaEnv P) :
    (∃ area events, ringbufAreaAlloc dataSz env = (some area, events) ∧ Complete dataSz env ∧
      exec Use.step 0 (events.map use) = some (ringHeld area)) ∨
    (∃ events, ringbufAreaAlloc dataSz env = (none, events) ∧ ¬ Complete dataSz env ∧
      exec Use.step 0 (events.map use) = some 0) := by
  unfold ringbufAreaAlloc
  dsimp only
  split
  · rename_i harray
    refine .inr ⟨[], rfl, fun h => ?_, rfl⟩
    simp [h.array] at harray
  · rename_i harray
    simp only [Bool.not_eq_eq_eq_not, Bool.not_true, Bool.not_eq_false] at harray
    split
    · rename_i stop pages events hloop
      obtain ⟨rfl, hall⟩ := allocLoop_zero hloop (length_initialPages env.garbage)
      refine .inr ⟨_, rfl, fun h => ?_, ?_⟩
      · exact absurd (hall.mpr h.page) (by simp)
      · rw [List.map_append, Use.exec_append, exec_allocPages]
        exact exec_errFreePages stop pages
    · rename_i pages events hloop
      obtain ⟨rfl, hall⟩ := allocLoop_zero hloop (length_initialPages env.garbage)
      split
      · rename_i hvmap
        refine .inl ⟨_, _, rfl, ⟨harray, hall.mp rfl, hvmap⟩, ?_⟩
        rw [List.map_append, Use.exec_append, exec_allocPages]
        rfl
      · rename_i hvmap
        refine .inr ⟨_, rfl, fun h => hvmap h.vmap, ?_⟩
        rw [List.map_append, Use.exec_append, exec_allocPages]
        exact exec_errFreePages _ pages

omit [DecidableEq P] in
theorem use_resource_ne (event : AreaEvent P) : (use event).resource ≠ .chrdev := by
  cases event <;> simp [use, Use.resource]

omit [DecidableEq P] in
theorem mapping_mem_ringHeld (area : Area P) : .mapping ∈ ringHeld area :=
  Multiset.mem_cons_self _ _

omit [DecidableEq P] in
theorem chrdev_notMem_ringHeld (area : Area P) : .chrdev ∉ ringHeld area := by
  have hpages : Resource.chrdev ∉ (area.pages.take area.nrPages).map Resource.page := by
    intro hmem
    obtain ⟨page, -, heq⟩ := List.mem_map.mp hmem
    exact nomatch heq
  rw [ringHeld, Multiset.mem_cons, Multiset.mem_cons, Multiset.mem_coe]
  rintro (heq | heq | hmem)
  · exact nomatch heq
  · exact nomatch heq
  · exact hpages hmem

/-- **With the pages or without**, what is passed on to the registrations. -/
theorem secDetectorRingbufDevInit_cases (layout : RingbufLayout) (rbSz : UInt32) (env : DevEnv P)
    (mem : P × ℕ → UInt8) :
    (Complete rbSz.toNat env.area ∧ ∃ area, ∃ events : List (AreaEvent P),
      secDetectorRingbufDevInit layout rbSz env mem =
        devRegister env (.ring area) (events.map use) ∧
      exec Use.step 0 (events.map use) = some (ringHeld area)) ∨
    (¬ Complete rbSz.toNat env.area ∧ ∃ events : List (AreaEvent P),
      secDetectorRingbufDevInit layout rbSz env mem =
        devRegister env (.err (-eNomem)) (events.map use)) := by
  unfold secDetectorRingbufDevInit ringbufAlloc
  rcases ringbufAreaAlloc_uses rbSz.toNat env.area with
    ⟨area, events, halloc, hcomplete, hexec⟩ | ⟨events, halloc, hcomplete, -⟩
  · refine .inl ⟨hcomplete, area, events, ?_, hexec⟩
    rw [halloc]
    rfl
  · refine .inr ⟨hcomplete, events, ?_⟩
    rw [halloc]
    rfl

/-! ## The registrations -/

omit [DecidableEq P] in
theorem Errno.ptrErr_neg (err : Errno) : err.ptrErr < 0 := by
  have hpos := err.pos
  unfold ptrErr
  omega

/-- `ringbuf_free` gives back the whole ring. -/
theorem exec_ringbufFree (area : Area P) :
    exec Use.step (ringHeld area)
      (.release .mapping :: (errFreePages area.nrPages area.pages).map use) = some 0 := by
  rw [ringHeld, Use.exec_release_cons]
  exact exec_errFreePages area.nrPages area.pages

/-- The registrations `middle` are undone, and then the ring is given back. -/
theorem errorFree_clean {area : Area P} {events : List (AreaEvent P)} {ret : ℤ}
    {middle : List (Use (Resource P))} (hret : ret < 0)
    (hexec : exec Use.step 0 (events.map use) = some (ringHeld area))
    (hmiddle : exec Use.step (ringHeld area) middle = some (ringHeld area))
    (hmapped : Use.Throughout (.mapping ∈ ·) (ringHeld area) middle) :
    DevClean (errorFree ret (.ring area) (events.map use ++ middle)) := by
  have hheld : exec Use.step 0 (events.map use ++ middle) = some (ringHeld area) := by
    rw [Use.exec_append, hexec]
    exact hmiddle
  refine ⟨⟨ret, hret, rfl⟩, ?_, fun front held hprefix hfront => ?_⟩
  · show exec Use.step 0 (_ ++ _) = _
    rw [Use.exec_append, hheld]
    exact exec_ringbufFree area
  · -- the device is not registered before `middle`, and not any more after it
    have hbefore : Use.Throughout (.chrdev ∉ ·) (0 : Multiset (Resource P)) (events.map use) := by
      apply Use.throughout_notMem (Multiset.notMem_zero _)
      intro entry hentry
      obtain ⟨event, -, rfl⟩ := List.mem_map.mp hentry
      exact use_resource_ne event
    have hafter : Use.Throughout (.chrdev ∉ ·) (ringHeld area)
        (.release .mapping :: (errFreePages area.nrPages area.pages).map use) := by
      apply Use.throughout_notMem (chrdev_notMem_ringHeld area)
      intro entry hentry
      rcases List.mem_cons.mp hentry with rfl | hentry
      · simp [Use.resource]
      · obtain ⟨event, -, rfl⟩ := List.mem_map.mp hentry
        exact use_resource_ne event
    have hall : Use.Throughout (fun held => .chrdev ∈ held → .mapping ∈ held) 0
        ((events.map use ++ middle) ++
          (.release .mapping :: (errFreePages area.nrPages area.pages).map use)) := by
      refine Use.Throughout.append (Use.Throughout.append ?_ hexec ?_) hheld ?_
      · exact hbefore.mono fun _ hnot hmem => absurd hmem hnot
      · exact hmapped.mono fun _ hmem _ => hmem
      · exact hafter.mono fun _ hnot hmem => absurd hmem hnot
    exact hall.of_prefix hprefix hfront

/-- **With a ring, every failure is undone.** -/
theorem devRegister_ring_clean {area : Area P} {events : List (AreaEvent P)}
    (hexec : exec Use.step 0 (events.map use) = some (ringHeld area))
    (hfail : ¬ (0 ≤ env.registerChrdev ∧ env.classCreate = none ∧ env.deviceCreate = none)) :
    DevClean (devRegister env (.ring area) (events.map use)) := by
  have hmapping := mapping_mem_ringHeld area
  unfold devRegister
  split
  · rename_i hmajor
    rw [← List.append_nil (events.map use)]
    exact errorFree_clean hmajor hexec rfl hmapping
  · rename_i hmajor
    cases hclass : env.classCreate with
    | some err =>
        dsimp only
        rw [List.append_assoc]
        apply errorFree_clean err.ptrErr_neg hexec (by simp)
        simp [hmapping]
    | none =>
        cases hdevice : env.deviceCreate with
        | some err =>
            dsimp only
            rw [List.append_assoc, List.append_assoc]
            apply errorFree_clean err.ptrErr_neg hexec (by simp)
            simp [hmapping]
        | none => exact absurd ⟨not_lt.mp hmajor, hclass, hdevice⟩ hfail

omit [DecidableEq P] in
/-- Without a ring, the start succeeds or faults. -/
theorem devRegister_err_ret (env : DevEnv P) (e : ℤ) (uses : List (Use (Resource P))) :
    (devRegister env (.err e) uses).ret = none ∨ (devRegister env (.err e) uses).ret = some 0 := by
  unfold devRegister
  split
  · exact .inl rfl
  · cases env.classCreate with
    | some err => exact .inl rfl
    | none =>
        cases env.deviceCreate with
        | some err => exact .inl rfl
        | none => exact .inr rfl

/-! ## The start as a whole -/

theorem secDetectorDestroyLog_eq (log : Option SecDetectorLog) :
    secDetectorDestroyLog log = (false, none) := by
  cases log with
  | none => rfl
  | some log =>
      obtain ⟨logFifo, inflag⟩ := log
      cases inflag with
      | false => rfl
      | true =>
          obtain ⟨f', hloop, -⟩ := cleanLoop_spec logFifo
          simp [secDetectorDestroyLog, cleanLogFifoData, hloop]

/-- **`secDetector_init` passes the error on** and removes what it has made. -/
theorem secDetectorInit_clean {core : CoreEnv} {ret : ℤ}
    (hsize : ringbufSizeCheck core.ringbufSize = some rbSz)
    (hreached : (secDetectorInit layout core env mem).dev ≠ none)
    (hret : (secDetectorRingbufDevInit layout rbSz env mem).ret = some ret) (hneg : ret < 0) :
    CoreClean (some ret) (secDetectorInit layout core env mem) := by
  unfold secDetectorInit at hreached ⊢
  rw [hsize] at hreached ⊢
  dsimp only at hreached ⊢
  split at hreached
  · exact absurd rfl hreached
  · rename_i hmanager
    rw [if_neg hmanager]
    split at hreached
    · exact absurd rfl hreached
    · rename_i hmkdir
      rw [if_neg hmkdir]
      split at hreached
      · exact absurd rfl hreached
      · rename_i hlog
        rw [if_neg hlog, hret]
        dsimp only
        rw [if_pos hneg.ne, secDetectorDestroyLog_eq]
        exact ⟨rfl, rfl, rfl, rfl⟩

/-- **When a failed start leaves nothing behind**: exactly when it does not fail for want of
memory for the ring. -/
theorem startup_clean_iff (layout : RingbufLayout) (rbSz : UInt32) (env : DevEnv P)
    (mem : P × ℕ → UInt8) :
    StartupClean layout rbSz env mem ↔ Complete rbSz.toNat env.area := by
  rcases secDetectorRingbufDevInit_cases layout rbSz env mem with
    ⟨hcomplete, area, events, hinit, hexec⟩ | ⟨hincomplete, events, hinit⟩
  · refine ⟨fun _ => hcomplete, fun _ hfail => ?_⟩
    have hclean : DevClean (secDetectorRingbufDevInit layout rbSz env mem) := by
      rw [hinit]
      exact devRegister_ring_clean hexec fun hall => hfail ⟨hcomplete, hall.1, hall.2.1, hall.2.2⟩
    refine ⟨hclean, fun core hsize hreached => ?_⟩
    obtain ⟨ret, hneg, hret⟩ := hclean.error
    rw [hret]
    exact secDetectorInit_clean hsize hreached hret hneg
  · refine ⟨fun hclean => ?_, fun hcomplete => absurd hcomplete hincomplete⟩
    obtain ⟨ret, hneg, hret⟩ := (hclean fun h => hincomplete h.area).1.error
    rw [hinit] at hret
    rcases devRegister_err_ret env (-eNomem) (events.map use) with hfault | hzero
    · simp [hfault] at hret
    · rw [hzero, Option.some.injEq] at hret
      omega

/-- There is no page at all, and the device is registered all the same. -/
def noPages : DevEnv ℕ := ⟨⟨true, fun _ => 0, fun _ => none, true⟩, 240, none, none⟩

/-- A start that finds no memory for the ring reports success. -/
theorem not_startup_clean :
    ¬ ∀ (layout : RingbufLayout) (rbSz : UInt32) (env : DevEnv ℕ) (mem : ℕ × ℕ → UInt8),
      StartupClean layout rbSz env mem := by
  intro hclaim
  let layout : RingbufLayout := ⟨64, by decide⟩
  have hret : (secDetectorRingbufDevInit layout 0x400000 noPages fun _ => 0).ret = some 0 := by
    decide +kernel
  have hfail : ¬ Succeeds 0x400000 noPages := fun h => h.area.page 0 (by decide) rfl
  obtain ⟨ret, hneg, heq⟩ := (hclaim layout 0x400000 noPages (fun _ => 0) hfail).1.error
  rw [hret, Option.some.injEq] at heq
  omega

end SecDetector.Core
