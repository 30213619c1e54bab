import SecDetector.Ring.Area
import SecDetector.Ring.Stored

/-!
# The ring buffer in memory

`__ringbuf_reserve` on the fields of `struct ringbuf` as they lie in the pages of the
area.  `InMemory` ties the pages to the `Ringbuf` that the rest of the development talks
about, and `ringbufReserveLocked_eq` says that the reservation in memory is
`ringbufReserve`: in the double mapping a record may run over the end of the data.
-/

namespace SecDetector.Ring

open Lib Lib.Paging

variable {P : Type*} [DecidableEq P]

/-! ## Fields -/

/-- Where `mask` is in `struct ringbuf`.  It depends on the kernel's locks and wait queues; the
private fields fit in one page. -/
structure RingbufLayout where
  maskOffset : ℕ
  maskOffset_le : maskOffset + 8 ≤ consumerPosOffset

def eNomem : ℤ := 12

omit [DecidableEq P] in
/-- Load an `unsigned long` of the ring. -/
def loadLong (pages : List P) (mem : P × ℕ → UInt8) (off : ℕ) : ℕ :=
  Memory.loadNat (view pageSize pages mem) off 8

/-- Store an integer of `k` bytes in the ring. -/
def storeInt (k : ℕ) (pages : List P) (mem : P × ℕ → UInt8) (off value : ℕ) : P × ℕ → UInt8 :=
  store pageSize pages mem off (leBytes k value)

/-- `ringbuf_alloc`. -/
def ringbufAlloc (layout : RingbufLayout) (dataSz : ℕ) (env : AreaEnv P) (mem : P × ℕ → UInt8) :
    Except ℤ (Area P × (P × ℕ → UInt8)) × List (AreaEvent P) :=
  match ringbufAreaAlloc dataSz env with
  | (none, events) => (.error (-eNomem), events)
  | (some rb, events) =>
      let mem := storeInt 8 rb.pages mem layout.maskOffset (dataSz - 1)
      let mem := storeInt 8 rb.pages mem consumerPosOffset 0
      let mem := storeInt 8 rb.pages mem producerPosOffset 0
      (.ok (rb, mem), events)

omit [DecidableEq P] in
/-- `__ringbuf_reserve` up to the lock: the value of `consumer_pos`. -/
def ringbufReserveLoad (layout : RingbufLayout) (pages : List P) (mem : P × ℕ → UInt8)
    (size : ℕ) : Option ℕ :=
  if ringbufMaxRecordSz < size then none
  else if (loadLong pages mem layout.maskOffset + 1) % 2 ^ 64 < reserveLen size then none
  else some (loadLong pages mem consumerPosOffset)

/-- `__ringbuf_reserve` from the lock on: the offset of the header in the data. -/
def ringbufReserveLocked (layout : RingbufLayout) (pages : List P) (mem : P × ℕ → UInt8)
    (size consPos : ℕ) : Option (ℕ × (P × ℕ → UInt8)) :=
  let mask := loadLong pages mem layout.maskOffset
  let prodPos := loadLong pages mem producerPosOffset
  let newProdPos := (prodPos + reserveLen size) % 2 ^ 64
  if mask < (newProdPos + 2 ^ 64 - consPos) % 2 ^ 64 then none
  else
    let hdr := prodPos &&& mask
    let pgOff := ringbufRecPgOff hdr
    let mem := storeInt 4 pages mem (dataOffset + hdr) (busyWord size)
    let mem := storeInt 4 pages mem (dataOffset + hdr + 4) pgOff
    let mem := storeInt 8 pages mem producerPosOffset newProdPos
    some (hdr, mem)

/-! ## Memory and model -/

omit [DecidableEq P] in
/-- The pages of a ring of `g.dataSz` data bytes. -/
structure HasShape (g : Geometry) (d : DoubleMap P) : Prop where
  base : d.base pageSize = dataOffset
  size : d.size pageSize = g.dataSz

omit [DecidableEq P] in
/-- The ring `rb` in the pages `d`. -/
structure InMemory (g : Geometry) (layout : RingbufLayout) (d : DoubleMap P)
    (mem : P × ℕ → UInt8) (rb : Ringbuf) : Prop where
  mask : loadLong d.pages mem layout.maskOffset = g.mask
  consumerPos : loadLong d.pages mem consumerPosOffset = rb.consumerPos
  producerPos : loadLong d.pages mem producerPosOffset = rb.producerPos
  data : ∀ o < g.dataSz, view pageSize d.pages mem (dataOffset + o) = rb.data o

variable {g : Geometry} {layout : RingbufLayout} {d : DoubleMap P} {mem : P × ℕ → UInt8}
  {rb : Ringbuf} {size consPos : ℕ}

omit [DecidableEq P] in
/-- The checks are those of the model, and `consumer_pos` is what is loaded. -/
theorem ringbufReserveLoad_eq (h : InMemory g layout d mem rb) :
    ringbufReserveLoad layout d.pages mem size =
      if reserveFits g size then some rb.consumerPos else none := by
  have hmask := g.mask_add_one
  have hle := g.dataSz_le
  have hmod : (g.mask + 1) % 2 ^ 64 = g.mask + 1 := Nat.mod_eq_of_lt (by omega)
  rw [ringbufReserveLoad, h.mask, h.consumerPos, hmod]
  by_cases hfits : reserveFits g size
  · rw [if_pos hfits, if_neg (not_lt.mpr hfits.1), if_neg (not_lt.mpr hfits.2)]
  · rw [if_neg hfits]
    rw [reserveFits, not_and_or] at hfits
    split
    · rfl
    · rw [if_pos (by omega)]

omit [DecidableEq P] in
theorem HasShape.page_le (hshape : HasShape g d) : pageSize ≤ d.size pageSize := by
  rw [hshape.size]
  exact g.pageSize_le_dataSz

/-- The bytes of a word, as they are stored. -/
theorem getD_leBytes {k w i : ℕ} (hi : i < k) : (leBytes k w).getD i 0 = Cyclic.wordByte w i := by
  induction k generalizing w i with
  | zero => omega
  | succ k ih =>
      cases i with
      | zero => simp [leBytes, Cyclic.wordByte]
      | succ i =>
          rw [leBytes, List.getD_cons_succ, ih (by omega), Cyclic.wordByte, Cyclic.wordByte,
            Nat.div_div_eq_div_mul, Nat.pow_succ']

/-- A word of a record header. -/
theorem InMemory.storeWord (h : InMemory g layout d mem rb) (hshape : HasShape g d) {p w : ℕ}
    (hp : p + 4 ≤ 2 * g.dataSz) :
    InMemory g layout d (storeInt 4 d.pages mem (dataOffset + p) w)
      { rb with data := Cyclic.storeWord g.dataSz rb.data p w } := by
  have hbase := hshape.base
  have hsize := hshape.size
  have hlen : (leBytes 4 w).length = 4 := length_leBytes 4 w
  have hpage := g.pageSize_le_dataSz
  have hoff := layout.maskOffset_le
  -- the fields are before the data
  have hfield : ∀ off, off + 8 ≤ dataOffset →
      loadLong d.pages (storeInt 4 d.pages mem (dataOffset + p) w) off =
        loadLong d.pages mem off := by
    intro off hfield
    rw [← hbase] at hfield ⊢
    exact loadNat_store_of_apart (d.apart_head (by rw [hlen, hsize]; omega) hfield)
  constructor
  · rw [hfield _ (by simp only [consumerPosOffset, dataOffset, pageSize] at *; omega), h.mask]
  · rw [hfield _ (by simp), h.consumerPos]
  · rw [hfield _ (by simp), h.producerPos]
  · intro o ho
    have hdata : view pageSize d.pages (store pageSize d.pages mem (d.base pageSize + p)
        (leBytes 4 w)) (d.base pageSize + o) = _ :=
      d.data_store (by rw [hlen, hsize]; omega) (by rw [hlen, hsize]; omega) (by rwa [hsize])
    rw [hbase, hsize, hlen] at hdata
    rw [storeInt, hdata]
    simp only [Cyclic.storeWord, Cyclic.store]
    split
    · rename_i hin
      rw [getD_leBytes hin]
    · exact h.data o ho

/-! The fields before the data. -/

variable {off off' value : ℕ}

theorem loadLong_storeInt_self (hshape : HasShape g d) (hoff : off + 8 ≤ dataOffset)
    (hvalue : value < 2 ^ 64) :
    loadLong d.pages (storeInt 8 d.pages mem off value) off = value :=
  d.loadNat_store_self (by rw [hshape.base]; omega) hvalue

theorem loadLong_storeInt_of_apart (hshape : HasShape g d) (hoff : off + 8 ≤ dataOffset)
    (hoff' : off' + 8 ≤ dataOffset) (hapart : off + 8 ≤ off' ∨ off' + 8 ≤ off) :
    loadLong d.pages (storeInt 8 d.pages mem off value) off' = loadLong d.pages mem off' := by
  refine loadNat_store_of_apart (d.apart_of_lt ?_ ?_ ?_)
  · rw [length_leBytes, hshape.base]
    omega
  · rw [hshape.base]
    omega
  · rwa [length_leBytes]

theorem view_storeInt_data (hshape : HasShape g d) (hoff : off + 8 ≤ dataOffset) {o : ℕ}
    (ho : o < g.dataSz) :
    view pageSize d.pages (storeInt 8 d.pages mem off value) (dataOffset + o) =
      view pageSize d.pages mem (dataOffset + o) := by
  have hbase := hshape.base
  have hsize := hshape.size
  refine view_store_of_apart (k := g.dataSz) (d.apart_of_lt ?_ ?_ ?_) ho
  · rw [length_leBytes, hbase]
    omega
  · rw [hbase, hsize]
  · rw [length_leBytes]
    exact .inl hoff

theorem InMemory.storeProducerPos (h : InMemory g layout d mem rb) (hshape : HasShape g d)
    (hvalue : value < 2 ^ 64) :
    InMemory g layout d (storeInt 8 d.pages mem producerPosOffset value)
      { rb with producerPos := value } := by
  have hmask := layout.maskOffset_le
  have hoff : producerPosOffset + 8 ≤ dataOffset := by decide
  simp only [consumerPosOffset, pageSize] at hmask
  constructor
  · rw [loadLong_storeInt_of_apart hshape hoff (by simp; omega) (by simp; omega), h.mask]
  · rw [loadLong_storeInt_of_apart hshape hoff (by decide) (by decide), h.consumerPos]
  · exact loadLong_storeInt_self hshape hoff hvalue
  · intro o ho
    rw [view_storeInt_data hshape hoff ho, h.data o ho]

omit [DecidableEq P] in
theorem ringbufReserve_producerPos :
    (ringbufReserve g rb size).producerPos = (rb.producerPos + reserveLen size) % 2 ^ 64 := by
  rw [ringbufReserve]

omit [DecidableEq P] in
/-- `producer_pos` stays a multiple of 8. -/
theorem ringbufReserve_aligned (haligned : 8 ∣ rb.producerPos) :
    8 ∣ (ringbufReserve g rb size).producerPos := by
  rw [ringbufReserve_producerPos, reserveLen]
  omega

/-- **The reservation in memory is the one of the model.** -/
theorem ringbufReserveLocked_eq (h : InMemory g layout d mem rb) (hshape : HasShape g d)
    (hspace : hasSpace g rb consPos size) :
    ∃ mem', ringbufReserveLocked layout d.pages mem size consPos = some (nextHdr g rb, mem') ∧
      InMemory g layout d mem' (ringbufReserve g rb size) := by
  have hhdr : nextHdr g rb < g.dataSz := by
    rw [nextHdr, g.and_mask]
    exact Nat.mod_lt _ g.dataSz_pos
  have hpage := g.pageSize_le_dataSz
  have hlen := h.storeWord hshape (p := nextHdr g rb) (w := busyWord size) (by omega)
  have hpgOff := hlen.storeWord hshape (p := nextHdr g rb + 4)
    (w := ringbufRecPgOff (nextHdr g rb)) (by omega)
  have hvalue : (rb.producerPos + reserveLen size) % 2 ^ 64 < 2 ^ 64 := Nat.mod_lt _ (by norm_num)
  have hpos := hpgOff.storeProducerPos hshape hvalue
  refine ⟨_, ?_, hpos⟩
  unfold ringbufReserveLocked
  rw [h.mask, h.producerPos]
  exact if_neg (not_lt.mpr hspace)

theorem ringbufReserveLocked_full (h : InMemory g layout d mem rb)
    (hspace : ¬ hasSpace g rb consPos size) :
    ringbufReserveLocked layout d.pages mem size consPos = none := by
  unfold ringbufReserveLocked
  rw [h.mask, h.producerPos]
  exact if_pos (not_le.mp hspace)

/-! ## Allocation -/

omit [DecidableEq P] in
theorem hasShape_of_length (hhead : d.head.length = 3)
    (hdata : d.data.length = g.dataSz / pageSize) : HasShape g d := by
  have hdvd : pageSize ∣ g.dataSz := Nat.pow_dvd_pow 2 g.page_le
  constructor
  · rw [DoubleMap.base, hhead]
    rfl
  · rw [DoubleMap.size, hdata, Nat.mul_div_cancel' hdvd]

/-- **The ring after `ringbuf_alloc`** is empty, and its pages are a double mapping. -/
theorem ringbufAlloc_spec {env : AreaEnv P} {area : Area P} {mem' : P × ℕ → UInt8}
    {events : List (AreaEvent P)} (hfresh : env.Fresh)
    (halloc : ringbufAlloc layout g.dataSz env mem = (.ok (area, mem'), events)) :
    ∃ d : DoubleMap P, area.pages = d.pages ∧ HasShape g d ∧
      InMemory g layout d mem' ⟨0, 0, fun o => view pageSize d.pages mem' (dataOffset + o)⟩ := by
  unfold ringbufAlloc at halloc
  split at halloc
  · simp at halloc
  · rename_i area' events' harea
    simp only [Prod.mk.injEq, Except.ok.injEq] at halloc
    obtain ⟨⟨rfl, rfl⟩, -⟩ := halloc
    obtain ⟨d, hpages, hhead, hdata⟩ := ringbufAreaAlloc_spec hfresh harea
    have hshape := hasShape_of_length hhead hdata
    have hmask := layout.maskOffset_le
    have hdataSz := g.dataSz_le
    simp only [consumerPosOffset, pageSize] at hmask
    rw [hpages]
    refine ⟨d, rfl, hshape, ?_⟩
    constructor
    · rw [loadLong_storeInt_of_apart hshape (by decide) (by simp; omega) (by simp; omega),
        loadLong_storeInt_of_apart hshape (by decide) (by simp; omega) (by simp; omega),
        loadLong_storeInt_self hshape (by simp; omega) (by omega), Geometry.mask]
    · rw [loadLong_storeInt_of_apart hshape (by decide) (by decide) (by decide)]
      exact loadLong_storeInt_self hshape (by decide) (by norm_num)
    · exact loadLong_storeInt_self hshape (by decide) (by norm_num)
    · exact fun o _ => rfl

end SecDetector.Ring
