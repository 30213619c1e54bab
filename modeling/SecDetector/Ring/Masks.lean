import SecDetector.Ring.InOrder

/-!
# The masks of the kernel and of the daemon

The kernel's ring has the size that the module parameter `ringbuf_size` asks for; the
daemon was compiled for a ring of 4 MB.  `RingAgrees size` says that on a ring of
`size` MB every header is loaded from the byte it was written to.

With another size than 4 the daemon goes wrong as soon as the positions have left
the first 4 MB: it masks the bit away and loads the header of an older record.
-/

namespace SecDetector.Ring

open Lib

/-! ## The two sizes -/

/-- `is_power_of_2`. -/
def isPowerOf2 (n : ℕ) : Bool :=
  n ≠ 0 && n &&& (n - 1) = 0

/-- `ringbuf_size_check`, for a size in MB. -/
def ringbufSizeCheck (ringbufSize : ℕ) : Bool :=
  4 ≤ ringbufSize && ringbufSize ≤ 1024 && isPowerOf2 ringbufSize

/-- `ringbuf_size_bytes`, an `unsigned int`. -/
def ringbufSizeBytes (ringbufSize : ℕ) : ℕ :=
  ringbufSize * 1024 * 1024 % 2 ^ 32

/-- The daemon's `rb_datasz`. -/
def rbDatasz : ℕ :=
  pageSize <<< 10

/-- The daemon's `rb_mask`. -/
def rbMask : ℕ :=
  rbDatasz - 1

/-- The ring between the module and the daemon. -/
structure ModuleRing (g : Geometry) (ringbufSize : ℕ) : Prop where
  dataSz : g.dataSz = ringbufSizeBytes ringbufSize
  daemonMask : g.daemonMask = rbMask

/-! ## Agreement -/

/-- The daemon, wherever it is about to load a header, loads it from the ring byte that
`__ringbuf_reserve` wrote it to, and all that it has delivered was reserved. -/
structure HeadersAgree {P : Type*} (g : Geometry) (s : State P) : Prop where
  header : ∀ consPos prodPos, s.consumer = .inner consPos prodPos →
    (∃ i < s.hist.log.length, consPos = s.hist.start i % 2 ^ 64) ∧
      (consPos &&& g.daemonMask) % g.dataSz = consPos &&& g.mask
  delivered : ∀ d ∈ s.hist.delivered, ∃ r ∈ s.hist.log, d = (r.out.bytes, r.out.size)

/-- Agreement in every run in which `consumer_pos` is moved by the poll loop only and no
call of `ringbuf_output` is overtaken by `2 ^ 64` bytes. -/
def RingAgrees (ringbufSize : ℕ) : Prop :=
  ∀ (P : Type) [DecidableEq P] (g : Geometry), ModuleRing g ringbufSize →
    ∀ (acts : List (Action P)) (s : State P),
      Run (step g) (fun s a => PollOnly s a ∧ NotLapped g s a) Initial acts s → HeadersAgree g s

theorem DeliveryInv.headersAgree {P : Type*} {g : Geometry} {s : State P}
    (hinv : DeliveryInv g s) (hmask : g.daemonMask = g.mask) : HeadersAgree g s where
  header consPos prodPos hpc := by
    have hconsumer := hinv.consumer
    rw [hpc] at hconsumer
    obtain ⟨hlt, hcons, m, hm, hle, hprod⟩ := hconsumer
    have hkm : s.hist.consumed ≠ m := by
      intro heq
      rw [← heq] at hprod
      omega
    refine ⟨⟨s.hist.consumed, by omega, hcons⟩, ?_⟩
    rw [hmask, g.and_mask, Nat.mod_mod]
  delivered d hd := by
    rw [hinv.delivered] at hd
    obtain ⟨⟨r, i⟩, hentry, hr⟩ := List.mem_filterMap.mp hd
    have hlog := List.mem_zipIdx_iff_getElem?.mp (List.mem_of_mem_take hentry)
    refine ⟨r, List.mem_of_getElem? hlog, ?_⟩
    simp only [History.committed?] at hr
    split at hr
    · exact (Option.some.inj hr).symm
    · simp at hr

/-- The daemon and a ring of 4 MB. -/
theorem ringAgrees_four : RingAgrees 4 := by
  intro P _ g hring acts s hrun
  have hmask : g.daemonMask = g.mask := by
    rw [hring.daemonMask, Geometry.mask, hring.dataSz]
    decide
  exact (deliveryInv_of_run hmask hrun).headersAgree hmask

/-! ## Larger rings

A record of 4 MB, header included, is delivered; the header of the next one is at
4 MB, and the daemon looks for it at 0. -/

/-- The ring of the module for `2 ^ k` MB. -/
def moduleRing (k : Fin 11) : Geometry where
  order := 20 + k
  base := 2 ^ 40
  daemonMask := rbMask
  page_le := by omega
  order_le := by omega
  base_aligned := pageSize_dvd_two_pow_40
  base_le := by
    have hpow : 2 ^ (20 + k.val) ≤ 2 ^ 30 := Nat.pow_le_pow_right (by norm_num) (by omega)
    norm_num at hpow ⊢
    omega

theorem moduleRing_moduleRing : ∀ k, ModuleRing (moduleRing k) (2 ^ k.val) := by
  intro k
  refine ⟨?_, rfl⟩
  revert k
  decide

theorem eq_two_pow_of_check {size : ℕ} (hcheck : ringbufSizeCheck size = true) :
    ∃ k : Fin 11, 2 ≤ k.val ∧ size = 2 ^ k.val := by
  have hall : ∀ size : Fin 1025, ringbufSizeCheck size = true →
      ∃ k : Fin 11, 2 ≤ k.val ∧ size.val = 2 ^ k.val := by
    decide +kernel
  have hle : size ≤ 1024 := by
    simp only [ringbufSizeCheck, Bool.and_eq_true, decide_eq_true_eq] at hcheck
    exact hcheck.1.2
  exact hall ⟨size, by omega⟩ hcheck

/-- Two outputs, with a poll in between that goes on to the second record. -/
def secondRecordActions : List (Action Bool) :=
  outputActions true (countingOutput (2 ^ 22 - 8)) ++ pollActions ++ [.storeConsumerPos] ++
    outputActions true (countingOutput 8) ++ [.loadProducerPos]

theorem secondRecordActions_pollOnly :
    ∀ a ∈ secondRecordActions, ∀ s : State Bool, PollOnly s a := by
  simp [secondRecordActions, outputActions, pollActions, PollOnly]

/-- Where the run ends: at the load of the second header. -/
theorem secondRecord_end : ∀ k : Fin 11, 3 ≤ k.val →
    (exec (step (moduleRing k)) freshRing secondRecordActions).map
      (fun s => (s.consumer, s.hist.total)) =
      some (.inner (2 ^ 22) (2 ^ 22 + 16), 2 ^ 22 + 16) := by
  decide +kernel

theorem secondRecord_offset : ∀ k : Fin 11, 3 ≤ k.val →
    (2 ^ 22 &&& (moduleRing k).daemonMask) % (moduleRing k).dataSz ≠
      2 ^ 22 &&& (moduleRing k).mask := by
  decide +kernel

/-- **No larger ring agrees with the daemon.** -/
theorem not_ringAgrees_of_lt {k : Fin 11} (hk : 3 ≤ k.val) : ¬ RingAgrees (2 ^ k.val) := by
  intro hagrees
  obtain ⟨s, hexec, hend⟩ := Option.map_eq_some_iff.mp (secondRecord_end k hk)
  obtain ⟨hconsumer, htotal⟩ := Prod.mk.inj hend
  have hrun : Run (step (moduleRing k)) PollOnly Initial secondRecordActions s :=
    .of_exec freshRing_initial secondRecordActions_pollOnly hexec
  have hheader := (hagrees Bool _ (moduleRing_moduleRing k) _ s
    (run_notLapped hrun (by omega))).header _ _ hconsumer
  exact secondRecord_offset k hk hheader.2

/-- **The daemon only understands a ring of 4 MB.** -/
theorem ringAgrees_iff {size : ℕ} (hcheck : ringbufSizeCheck size = true) :
    RingAgrees size ↔ size = 4 := by
  obtain ⟨k, hk, rfl⟩ := eq_two_pow_of_check hcheck
  constructor
  · intro hagrees
    by_contra hne
    have hne2 : k.val ≠ 2 := by
      intro heq
      rw [heq] at hne
      exact hne rfl
    exact not_ringAgrees_of_lt (k := k) (by omega) hagrees
  · intro heq
    rw [heq]
    exact ringAgrees_four

/-- The default size. -/
theorem ringAgrees_default : RingAgrees 4 :=
  (ringAgrees_iff (by decide)).mpr rfl

/-- The size that the installation guide passes to the module is accepted, and the daemon
does not understand the ring. -/
theorem not_ringAgrees : ¬ ∀ size, ringbufSizeCheck size = true → RingAgrees size := by
  intro hclaim
  exact not_ringAgrees_of_lt (k := 7) (by decide) (hclaim 128 (by decide))

end SecDetector.Ring
