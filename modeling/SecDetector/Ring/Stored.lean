import SecDetector.Ring.Model

/-!
# Records in memory

`Stored g mem pos out phase` says that the record of `out` stands at position `pos`:
its header words are those of its phase, and its payload is there once it has
been copied.  Each of the three writes of a producer makes it true of the
producer's own record and, by `Cyclic.Same`, keeps every record apart from that
one.
-/

namespace SecDetector.Ring

open Lib

variable {g : Geometry} {rb : Ringbuf} {out : Output} {mem mem' : ℕ → UInt8} {pos q m : ℕ}
  {phase : Phase}

/-- The value of `hdr->len` in each phase. -/
def headerWord (out : Output) : Phase → ℕ
  | .reserved | .copied => busyWord out.size
  | .committed => commitWord (busyWord out.size) out.discard

/-- The record of `out` at position `pos`. -/
structure Stored (g : Geometry) (mem : ℕ → UInt8) (pos : ℕ) (out : Output) (phase : Phase) :
    Prop where
  len : Cyclic.loadWord g.dataSz mem pos = headerWord out phase
  pgOff : Cyclic.loadWord g.dataSz mem (pos + 4) = ringbufRecPgOff (pos % g.dataSz)
  payload : phase ≠ .reserved → ∀ i < out.size,
    mem ((pos + bpfRingbufHdrSz + i) % g.dataSz) = out.data i

theorem Geometry.mod_add_mod (g : Geometry) (pos a : ℕ) :
    (pos % g.dataSz + a) % g.dataSz = (pos + a) % g.dataSz :=
  Nat.mod_add_mod pos g.dataSz a

theorem Geometry.four_le (g : Geometry) : 4 ≤ g.dataSz :=
  Nat.le_trans (by norm_num) g.pageSize_le_dataSz

theorem Geometry.eight_le (g : Geometry) : 8 ≤ g.dataSz :=
  Nat.le_trans (by norm_num) g.pageSize_le_dataSz

theorem reserveLen_le_dataSz (hfits : reserveFits g out.size) : reserveLen out.size ≤ g.dataSz := by
  rw [← g.mask_add_one]
  exact hfits.2

/-- A record survives whatever leaves its area alone. -/
theorem Stored.same (h : Stored g mem pos out phase)
    (hsame : Cyclic.Same g.dataSz mem mem' pos (reserveLen out.size)) :
    Stored g mem' pos out phase := by
  have hlen : out.size + 8 ≤ reserveLen out.size := size_add_le_reserveLen
  constructor
  · have hheader : Cyclic.Same g.dataSz mem mem' (pos + 0) 4 := hsame.sub (by omega)
    rw [Nat.add_zero] at hheader
    rw [hheader.loadWord, h.len]
  · have hpgOff : Cyclic.Same g.dataSz mem mem' (pos + 4) 4 := hsame.sub (by omega)
    rw [hpgOff.loadWord, h.pgOff]
  · intro hphase i hi
    have hpayload : Cyclic.Same g.dataSz mem mem' (pos + bpfRingbufHdrSz) out.size :=
      hsame.sub (by rw [bpfRingbufHdrSz]; omega)
    rw [hpayload i hi]
    exact h.payload hphase i hi

/-! ## The reservation -/

theorem nextHdr_eq (hpos : rb.producerPos = pos % 2 ^ 64) : nextHdr g rb = pos % g.dataSz := by
  rw [nextHdr, hpos, g.and_mask, g.mod_dataSz]

/-- The stores of the reservation, at its position. -/
theorem ringbufReserve_data (hpos : rb.producerPos = pos % 2 ^ 64) :
    (ringbufReserve g rb out.size).data =
      Cyclic.storeWord g.dataSz (Cyclic.storeWord g.dataSz rb.data pos (busyWord out.size))
        (pos + 4) (ringbufRecPgOff (pos % g.dataSz)) := by
  simp only [ringbufReserve, nextHdr_eq hpos, Cyclic.storeWord]
  rw [Cyclic.store_congr (Nat.mod_mod pos g.dataSz), Cyclic.store_congr (g.mod_add_mod pos 4)]

theorem ringbufReserve_same (hpos : rb.producerPos = pos % 2 ^ 64)
    (hapart : Cyclic.Apart g.dataSz pos (reserveLen out.size) q m) :
    Cyclic.Same g.dataSz rb.data (ringbufReserve g rb out.size).data q m := by
  have hlen : out.size + 8 ≤ reserveLen out.size := size_add_le_reserveLen
  rw [ringbufReserve_data hpos]
  refine (Cyclic.Same.store g.dataSz_pos ?_).trans (Cyclic.Same.store g.dataSz_pos ?_)
  · exact hapart.sub (a := 0) (b := 0) (by omega) (by omega)
  · exact hapart.sub (b := 0) (by omega) (by omega)

/-- **A reservation writes its header.** -/
theorem ringbufReserve_stored (hfits : reserveFits g out.size)
    (hpos : rb.producerPos = pos % 2 ^ 64) :
    Stored g (ringbufReserve g rb out.size).data pos out .reserved := by
  rw [ringbufReserve_data hpos]
  constructor
  · rw [Cyclic.loadWord_storeWord_next g.eight_le,
      Cyclic.loadWord_storeWord g.four_le (busyWord_lt hfits.1)]
    rfl
  · exact Cyclic.loadWord_storeWord g.four_le
      (ringbufRestoreFromRec_eq g (Nat.mod_lt pos g.dataSz_pos)).1
  · intro hphase
    exact absurd rfl hphase

/-! ## The copy -/

theorem copyPayload_same (hapart : Cyclic.Apart g.dataSz pos (reserveLen out.size) q m) :
    Cyclic.Same g.dataSz rb.data (copyPayload g rb (pos % g.dataSz) out).data q m := by
  have hlen : out.size + 8 ≤ reserveLen out.size := size_add_le_reserveLen
  unfold copyPayload
  rw [Cyclic.store_congr (g.mod_add_mod pos bpfRingbufHdrSz)]
  exact Cyclic.Same.store g.dataSz_pos
    (hapart.sub (b := 0) (by rw [bpfRingbufHdrSz]; omega) (by omega))

/-- **The copy stores the payload.** -/
theorem copyPayload_stored (hfits : reserveFits g out.size)
    (h : Stored g rb.data pos out .reserved) :
    Stored g (copyPayload g rb (pos % g.dataSz) out).data pos out .copied := by
  have hlen : out.size + 8 ≤ reserveLen out.size := size_add_le_reserveLen
  have hsz := reserveLen_le_dataSz hfits
  have hapart : Cyclic.Apart g.dataSz (pos + bpfRingbufHdrSz) out.size pos 8 := by
    refine (Cyclic.apart_of_le ?_ ?_).symm
    · rw [bpfRingbufHdrSz]
    · rw [bpfRingbufHdrSz]; omega
  have hsame : Cyclic.Same g.dataSz rb.data (copyPayload g rb (pos % g.dataSz) out).data pos 8 := by
    unfold copyPayload
    rw [Cyclic.store_congr (g.mod_add_mod pos bpfRingbufHdrSz)]
    exact Cyclic.Same.store g.dataSz_pos hapart
  constructor
  · have hheader : Cyclic.Same g.dataSz rb.data _ (pos + 0) 4 := hsame.sub (by omega)
    rw [Nat.add_zero] at hheader
    rw [hheader.loadWord, h.len]
    rfl
  · have hpgOff : Cyclic.Same g.dataSz rb.data _ (pos + 4) 4 := hsame.sub (by omega)
    rw [hpgOff.loadWord, h.pgOff]
  · intro _ i hi
    simp only [copyPayload]
    rw [Cyclic.store_congr (g.mod_add_mod pos bpfRingbufHdrSz),
      Cyclic.store_self g.dataSz_pos (by omega) hi]

/-! ## The exchange -/

theorem exchangeLen_data (hlen : Cyclic.loadWord g.dataSz rb.data pos = busyWord out.size) :
    (exchangeLen g rb (pos % g.dataSz) out.discard).data =
      Cyclic.storeWord g.dataSz rb.data pos (commitWord (busyWord out.size) out.discard) := by
  simp only [exchangeLen, Cyclic.storeWord]
  rw [Cyclic.loadWord_congr (Nat.mod_mod pos g.dataSz), hlen,
    Cyclic.store_congr (Nat.mod_mod pos g.dataSz)]

theorem exchangeLen_same (hlen : Cyclic.loadWord g.dataSz rb.data pos = busyWord out.size)
    (hapart : Cyclic.Apart g.dataSz pos (reserveLen out.size) q m) :
    Cyclic.Same g.dataSz rb.data (exchangeLen g rb (pos % g.dataSz) out.discard).data q m := by
  have hsize : out.size + 8 ≤ reserveLen out.size := size_add_le_reserveLen
  rw [exchangeLen_data hlen]
  exact Cyclic.Same.store g.dataSz_pos (hapart.sub (a := 0) (b := 0) (by omega) (by omega))

/-- **The exchange commits the record.** -/
theorem exchangeLen_stored (hfits : reserveFits g out.size)
    (h : Stored g rb.data pos out .copied) :
    Stored g (exchangeLen g rb (pos % g.dataSz) out.discard).data pos out .committed := by
  have hsize : out.size + 8 ≤ reserveLen out.size := size_add_le_reserveLen
  have hsz := reserveLen_le_dataSz hfits
  have hsame : Cyclic.Same g.dataSz rb.data
      (Cyclic.storeWord g.dataSz rb.data pos (commitWord (busyWord out.size) out.discard))
      (pos + 4) (4 + out.size) :=
    Cyclic.Same.store g.dataSz_pos (Cyclic.apart_of_le (by omega) (by omega))
  rw [exchangeLen_data h.len]
  constructor
  · exact Cyclic.loadWord_storeWord g.four_le (commitWord_lt hfits.1 out.discard)
  · have hpgOff : Cyclic.Same g.dataSz rb.data _ (pos + 4 + 0) 4 := hsame.sub (by omega)
    rw [Nat.add_zero] at hpgOff
    rw [hpgOff.loadWord, h.pgOff]
  · intro _ i hi
    have hpayload : Cyclic.Same g.dataSz rb.data _ (pos + 4 + 4) out.size := hsame.sub (by omega)
    rw [show pos + bpfRingbufHdrSz = pos + 4 + 4 from rfl, hpayload i hi]
    exact h.payload (by simp) i hi

/-- The ring that `ringbuf_commit` restores from an intact header. -/
theorem restoredRb_eq (h : Stored g rb.data pos out phase) :
    restoredRb g rb (pos % g.dataSz) = g.base := by
  rw [restoredRb, Cyclic.loadWord_congr (g.mod_add_mod pos 4), h.pgOff]
  exact (ringbufRestoreFromRec_eq g (Nat.mod_lt pos g.dataSz_pos)).2

end SecDetector.Ring
