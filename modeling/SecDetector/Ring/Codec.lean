import SecDetector.Ring.InOrder

/-!
# The record header, as both sides see it

The kernel writes the header of a record twice, in `__ringbuf_reserve` and in
`ringbuf_commit`, and the header is read twice, by `ringbuf_commit` to find its ring again and
by the daemon.  The two sides are separate programs with their own formulas.  `header_codec`
says that they agree, on the bytes in memory: for every size that is accepted, wherever the
record is in the data, and whatever is written elsewhere between the two.
-/

namespace SecDetector.Ring

open Lib

variable {g : Geometry} {rb rb' : Ringbuf} {size : ℕ}

/-- A length that is reserved is a `u32` of the kernel and an `int` of the daemon. -/
theorem reserveLen_lt (hsize : size ≤ ringbufMaxRecordSz) : reserveLen size < 2 ^ 31 := by
  unfold ringbufMaxRecordSz at hsize
  rw [reserveLen, bpfRingbufHdrSz]
  omega

theorem nextHdr_lt (g : Geometry) (rb : Ringbuf) : nextHdr g rb < g.dataSz := by
  rw [nextHdr, g.and_mask]
  exact Nat.mod_lt _ g.dataSz_pos

/-- The first word that a reservation writes. -/
theorem loadWord_ringbufReserve (hsize : size ≤ ringbufMaxRecordSz) :
    Cyclic.loadWord g.dataSz (ringbufReserve g rb size).data (nextHdr g rb) = busyWord size := by
  rw [ringbufReserve, Cyclic.loadWord_storeWord_next g.eight_le,
    Cyclic.loadWord_storeWord g.four_le (busyWord_lt hsize)]

/-- The second word that a reservation writes. -/
theorem loadWord_ringbufReserve_pgOff (g : Geometry) (rb : Ringbuf) (size : ℕ) :
    Cyclic.loadWord g.dataSz (ringbufReserve g rb size).data (nextHdr g rb + 4) =
      ringbufRecPgOff (nextHdr g rb) :=
  Cyclic.loadWord_storeWord g.four_le (ringbufRestoreFromRec_eq g (nextHdr_lt g rb)).1

/-- The word that a commit leaves, if the header is still the one of the reservation. -/
theorem loadWord_exchangeLen (hsize : size ≤ ringbufMaxRecordSz)
    (hsame : Cyclic.Same g.dataSz (ringbufReserve g rb size).data rb'.data (nextHdr g rb) 8)
    (discard : Bool) :
    Cyclic.loadWord g.dataSz (exchangeLen g rb' (nextHdr g rb) discard).data (nextHdr g rb) =
      commitWord (busyWord size) discard := by
  have hlen : Cyclic.Same g.dataSz (ringbufReserve g rb size).data rb'.data (nextHdr g rb + 0) 4 :=
    hsame.sub (by omega)
  rw [Nat.add_zero] at hlen
  rw [exchangeLen, hlen.loadWord, loadWord_ringbufReserve hsize,
    Cyclic.loadWord_storeWord g.four_le (commitWord_lt hsize discard)]

/-- Without the discard flag, the word is the size. -/
theorem commitWord_keep (hsize : size ≤ ringbufMaxRecordSz) :
    commitWord (busyWord size) false = size := by
  rw [commitWord_busyWord hsize]
  rfl

/-- What the two sides read in the header of a record of `size` bytes that is reserved in `rb`
and committed in `rb'`. -/
structure HeaderCodec (g : Geometry) (rb rb' : Ringbuf) (size : ℕ) (discard : Bool) : Prop where
  /-- The header of the reservation is busy. -/
  reserved : Cyclic.loadWord g.dataSz (ringbufReserve g rb size).data (nextHdr g rb) &&&
    bpfRingbufBusyBit ≠ 0
  /-- The commit finds its ring. -/
  restored : restoredRb g rb' (nextHdr g rb) = g.base
  committed : Cyclic.loadWord g.dataSz (exchangeLen g rb' (nextHdr g rb) discard).data
    (nextHdr g rb) &&& bpfRingbufBusyBit = 0
  discarded : Cyclic.loadWord g.dataSz (exchangeLen g rb' (nextHdr g rb) discard).data
    (nextHdr g rb) &&& bpfRingbufDiscardBit ≠ 0 ↔ discard = true
  length : discard = false → Cyclic.loadWord g.dataSz
    (exchangeLen g rb' (nextHdr g rb) discard).data (nextHdr g rb) = size
  /-- The daemon goes on by as much as the kernel has reserved. -/
  advanced : (ringbufReserve g rb size).producerPos = (rb.producerPos + roundupLen
    (Cyclic.loadWord g.dataSz (exchangeLen g rb' (nextHdr g rb) discard).data (nextHdr g rb))) %
      2 ^ 64
  reserveLen_lt : reserveLen size < 2 ^ 31

/-- **Both sides agree on the header of a record.** -/
theorem header_codec (hsize : size ≤ ringbufMaxRecordSz)
    (hsame : Cyclic.Same g.dataSz (ringbufReserve g rb size).data rb'.data (nextHdr g rb) 8)
    (discard : Bool) : HeaderCodec g rb rb' size discard := by
  have hword := loadWord_exchangeLen hsize hsame discard
  refine ⟨?_, ?_, ?_, ?_, ?_, ?_, reserveLen_lt hsize⟩
  · rw [loadWord_ringbufReserve hsize]
    exact busyWord_and_busy
  · have hpgOff : Cyclic.Same g.dataSz (ringbufReserve g rb size).data rb'.data
        (nextHdr g rb + 4) 4 := hsame.sub (by omega)
    rw [restoredRb, hpgOff.loadWord, loadWord_ringbufReserve_pgOff]
    exact (ringbufRestoreFromRec_eq g (nextHdr_lt g rb)).2
  · rw [hword]
    exact commitWord_and_busy hsize discard
  · rw [hword, Ne, commitWord_and_discard hsize discard, Bool.not_eq_false]
  · rintro rfl
    rw [hword, commitWord_keep hsize]
  · rw [hword, roundupLen_commitWord hsize discard]
    rfl

/-- A discarded record whose header is the last one before the end of the data. -/
theorem header_codec_last :
    HeaderCodec pageRing ⟨0, 2 ^ 12 - 8, fun _ => 0⟩
      (ringbufReserve pageRing ⟨0, 2 ^ 12 - 8, fun _ => 0⟩ 100) 100 true :=
  header_codec (by decide) (fun _ _ => rfl) true

end SecDetector.Ring
