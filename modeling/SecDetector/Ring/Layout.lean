import Mathlib.Data.Nat.Bitwise
import Mathlib.Tactic.NormNum
import SecDetector.Lib.CyclicMemory

/-!
# Layout of the ring buffer

The constants of `secDetector_ringbuffer.c` and `ringbuffer.cpp`, the geometry of
one ring, and the record header: the word that `__ringbuf_reserve` writes, the
word that `ringbuf_commit` leaves, and what the daemon computes from it.

`unsigned long` and `u64` values are natural numbers with explicit `% 2 ^ 64`.
-/

namespace SecDetector.Ring

open Lib

/-! ## Constants -/

@[simp] def pageSize : ℕ := 4096
@[simp] def bpfRingbufBusyBit : ℕ := 2 ^ 31
@[simp] def bpfRingbufDiscardBit : ℕ := 2 ^ 30
@[simp] def bpfRingbufHdrSz : ℕ := 8
@[simp] def bpfRbNoWakeup : ℕ := 1
@[simp] def bpfRbForceWakeup : ℕ := 2

/-- `RINGBUF_MAX_RECORD_SZ`. -/
@[simp] def ringbufMaxRecordSz : ℕ := (2 ^ 32 - 1) / 4

/-- `offsetof(struct ringbuf, data)`: one page of private fields, the consumer page and
the producer page. -/
@[simp] def dataOffset : ℕ := 3 * pageSize

def eAgain : ℤ := 11
def eInval : ℤ := 22

theorem pageSize_dvd_two_pow_40 : pageSize ∣ 2 ^ 40 := ⟨2 ^ 28, by norm_num⟩

/-! ## Geometry -/

/-- One ring: `rb->mask + 1` is `2 ^ order`, `base` is the address of `struct ringbuf`, and
`daemonMask` is the mask that the daemon applies to its positions.  The bound on the
order is the one that the `u32` page offset in a record header allows. -/
structure Geometry where
  order : ℕ
  base : ℕ
  daemonMask : ℕ
  page_le : 12 ≤ order
  order_le : order ≤ 43
  base_aligned : pageSize ∣ base
  base_le : base + dataOffset + 2 * 2 ^ order ≤ 2 ^ 64

/-- The number of data bytes. -/
def Geometry.dataSz (g : Geometry) : ℕ := 2 ^ g.order

/-- `rb->mask`. -/
def Geometry.mask (g : Geometry) : ℕ := g.dataSz - 1

namespace Geometry

variable (g : Geometry)

theorem pageSize_le_dataSz : 4096 ≤ g.dataSz :=
  calc 4096 = 2 ^ 12 := by norm_num
    _ ≤ 2 ^ g.order := Nat.pow_le_pow_right (by norm_num) g.page_le

theorem dataSz_le : g.dataSz ≤ 2 ^ 43 :=
  Nat.pow_le_pow_right (by norm_num) g.order_le

theorem dataSz_pos : 0 < g.dataSz :=
  Nat.lt_of_lt_of_le (by norm_num) g.pageSize_le_dataSz

theorem mask_add_one : g.mask + 1 = g.dataSz :=
  Nat.sub_add_cancel g.dataSz_pos

theorem and_mask (pos : ℕ) : pos &&& g.mask = pos % g.dataSz :=
  Nat.and_two_pow_sub_one_eq_mod pos g.order

theorem dvd_two_pow : g.dataSz ∣ 2 ^ 64 :=
  Nat.pow_dvd_pow 2 (Nat.le_trans g.order_le (by norm_num))

/-- A position and its `unsigned long` value denote the same ring byte. -/
theorem mod_dataSz (pos : ℕ) : pos % 2 ^ 64 % g.dataSz = pos % g.dataSz :=
  Nat.mod_mod_of_dvd pos g.dvd_two_pow

end Geometry

/-! ## The record header -/

/-- `round_up(size + BPF_RINGBUF_HDR_SZ, 8)`. -/
def reserveLen (size : ℕ) : ℕ :=
  (size + bpfRingbufHdrSz + 7) / 8 * 8

/-- The value of `hdr->len` that `__ringbuf_reserve` writes. -/
def busyWord (size : ℕ) : ℕ :=
  size ||| bpfRingbufBusyBit

/-- The value of `hdr->len` that `ringbuf_commit` writes. -/
def commitWord (len : ℕ) (discard : Bool) : ℕ :=
  let newLen := len ^^^ bpfRingbufBusyBit
  if discard then newLen ||| bpfRingbufDiscardBit else newLen

/-- The daemon's `roundup_len`, on a `__u32`. -/
def roundupLen (len : ℕ) : ℕ :=
  let len := len <<< 2 % 2 ^ 32
  let len := len >>> 2
  let len := (len + bpfRingbufHdrSz) % 2 ^ 32
  (len + 7) % 2 ^ 32 / 8 * 8

/-- `ringbuf_rec_pg_off`, for the record header at the offset `hdr` of the data area. -/
def ringbufRecPgOff (hdr : ℕ) : ℕ :=
  (dataOffset + hdr) / pageSize

/-- `ringbuf_restore_from_rec`, for the header at address `addr`. -/
def ringbufRestoreFromRec (addr pgOff : ℕ) : ℕ :=
  (addr / pageSize * pageSize + 2 ^ 64 - pgOff * pageSize % 2 ^ 64) % 2 ^ 64

variable {size : ℕ}

theorem size_add_le_reserveLen : size + 8 ≤ reserveLen size := by
  simp only [reserveLen, bpfRingbufHdrSz]
  omega

/-! Busy, committed and discarded words, bit by bit. -/

theorem size_testBit (hsize : size ≤ ringbufMaxRecordSz) {i : ℕ} (hi : 30 ≤ i) :
    size.testBit i = false := by
  refine Nat.testBit_lt_two_pow (Nat.lt_of_lt_of_le ?_ (Nat.pow_le_pow_right (by norm_num) hi))
  unfold ringbufMaxRecordSz at hsize
  omega

theorem busyWord_lt (hsize : size ≤ ringbufMaxRecordSz) : busyWord size < 2 ^ 32 := by
  refine Nat.or_lt_two_pow ?_ (by norm_num)
  unfold ringbufMaxRecordSz at hsize
  omega

theorem busyWord_and_busy : busyWord size &&& bpfRingbufBusyBit ≠ 0 := by
  rw [busyWord, bpfRingbufBusyBit, Nat.and_two_pow, Nat.testBit_or, Nat.testBit_two_pow_self,
    Bool.or_true]
  norm_num

theorem busyWord_xor (hsize : size ≤ ringbufMaxRecordSz) :
    busyWord size ^^^ bpfRingbufBusyBit = size := by
  apply Nat.eq_of_testBit_eq
  intro i
  rw [busyWord, Nat.testBit_xor, Nat.testBit_or, bpfRingbufBusyBit, Nat.testBit_two_pow]
  by_cases hi : 31 = i
  · rw [size_testBit hsize (by omega)]
    simp [hi]
  · simp [hi]

theorem commitWord_busyWord (hsize : size ≤ ringbufMaxRecordSz) (discard : Bool) :
    commitWord (busyWord size) discard =
      if discard then size ||| bpfRingbufDiscardBit else size := by
  rw [commitWord, busyWord_xor hsize]

theorem commitWord_lt (hsize : size ≤ ringbufMaxRecordSz) (discard : Bool) :
    commitWord (busyWord size) discard < 2 ^ 32 := by
  rw [commitWord_busyWord hsize]
  unfold ringbufMaxRecordSz at hsize
  split
  · exact Nat.or_lt_two_pow (by omega) (by norm_num)
  · omega

theorem commitWord_and_busy (hsize : size ≤ ringbufMaxRecordSz) (discard : Bool) :
    commitWord (busyWord size) discard &&& bpfRingbufBusyBit = 0 := by
  rw [commitWord_busyWord hsize, bpfRingbufBusyBit, Nat.and_two_pow]
  have hbit := size_testBit hsize (by norm_num : 30 ≤ 31)
  split
  · rw [Nat.testBit_or, hbit, bpfRingbufDiscardBit, Nat.testBit_two_pow_of_ne (by norm_num)]
    rfl
  · simp [hbit]

theorem commitWord_and_discard (hsize : size ≤ ringbufMaxRecordSz) (discard : Bool) :
    commitWord (busyWord size) discard &&& bpfRingbufDiscardBit = 0 ↔ discard = false := by
  rw [commitWord_busyWord hsize, bpfRingbufDiscardBit, Nat.and_two_pow]
  have hbit := size_testBit hsize le_rfl
  cases discard
  · simp [hbit]
  · rw [if_pos rfl, Nat.testBit_or, Nat.testBit_two_pow_self, Bool.or_true]
    norm_num

/-- `roundup_len` drops the two flag bits. -/
theorem roundupLen_eq (len : ℕ) :
    roundupLen len = (len % 2 ^ 30 + bpfRingbufHdrSz + 7) / 8 * 8 := by
  simp only [roundupLen, Nat.shiftLeft_eq, Nat.shiftRight_eq_div_pow, bpfRingbufHdrSz]
  omega

/-- **The two sides agree on the length of a record.** -/
theorem roundupLen_commitWord (hsize : size ≤ ringbufMaxRecordSz) (discard : Bool) :
    roundupLen (commitWord (busyWord size) discard) = reserveLen size := by
  rw [roundupLen_eq, commitWord_busyWord hsize, reserveLen]
  unfold ringbufMaxRecordSz at hsize
  have hmod : (if discard then size ||| bpfRingbufDiscardBit else size) % 2 ^ 30 = size := by
    split
    · rw [bpfRingbufDiscardBit, Nat.or_mod_two_pow, Nat.mod_self, Nat.or_zero]
      omega
    · omega
  rw [hmod]

/-- **The ring is found again from any of its records.** -/
theorem ringbufRestoreFromRec_eq (g : Geometry) {hdr : ℕ} (hhdr : hdr < g.dataSz) :
    ringbufRecPgOff hdr < 2 ^ 32 ∧
      ringbufRestoreFromRec (g.base + dataOffset + hdr) (ringbufRecPgOff hdr) = g.base := by
  have hsz := g.dataSz_le
  have hbase := g.base_le
  obtain ⟨page, hpage⟩ := g.base_aligned
  simp only [ringbufRecPgOff, ringbufRestoreFromRec, dataOffset, pageSize] at *
  rw [← Geometry.dataSz] at hbase
  constructor
  · omega
  · omega

end SecDetector.Ring
