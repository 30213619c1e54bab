import SecDetector.Lib.Run
import SecDetector.Ring.Paged

/-!
# The ring buffer in user space

`ringbuffer_mmap`, and the ring while user space maps parts of it, writes whatever it likes
through the mappings that are writable, and calls of `__ringbuf_reserve` go on.

The consumer page is the only one that is ever writable, so user space controls
`consumer_pos` and nothing else (`Inv.userWrite`).  The check for space may then pass when it
should not, but a reservation starts at `producer_pos` modulo the size, and that is enough to
keep it in the double mapping.

`remap_vmalloc_range` is not part of the repository.  It is a parameter, and `RemapExact` says
what is relied on: it maps the pages that it is asked for.
-/

namespace SecDetector.Ring.Mapped

open Lib Lib.Paging

variable {P T : Type*}

/-! ## `mmap` -/

def ePerm : ℤ := 1

/-- `struct vm_area_struct`, with the flags `VM_WRITE` and `VM_MAYWRITE`.  The offset is less
than `2 ^ 52` pages, since `mmap` takes a number of bytes. -/
structure Vma where
  vmStart : ℕ
  vmEnd : ℕ
  vmPgoff : ℕ
  write : Bool
  mayWrite : Bool
  start_lt : vmStart < vmEnd
  vmPgoff_lt : vmPgoff < 2 ^ 52

def Vma.nrPages (vma : Vma) : ℕ := (vma.vmEnd - vma.vmStart) / pageSize

/-- A mapping of user space. -/
structure Mapping (P : Type*) where
  write : Bool
  mayWrite : Bool
  pages : List P

/-- `remap_vmalloc_range` of an area, from page `pgoff` on: the pages, or an error. -/
abbrev RemapVmallocRange (P : Type*) := List P → Vma → ℕ → Except ℤ (List P)

/-- Exactly the pages that are asked for are mapped. -/
def RemapExact (remap : RemapVmallocRange P) : Prop :=
  ∀ area vma pgoff pages, remap area vma pgoff = .ok pages →
    pages = (area.drop pgoff).take vma.nrPages

/-- `ringbuffer_mmap`. -/
def ringbufferMmap (remap : RemapVmallocRange P) (rb : Area P) (vma : Vma) :
    Except ℤ (Mapping P) :=
  let pgoff := (vma.vmPgoff + ringbufPgoff) % 2 ^ 64
  if vma.write then
    if vma.vmPgoff ≠ 0 ∨ vma.vmEnd - vma.vmStart ≠ pageSize then .error (-ePerm)
    else (remap rb.pages vma pgoff).map fun pages => ⟨true, vma.mayWrite, pages⟩
  else
    let vma := { vma with mayWrite := false }
    (remap rb.pages vma pgoff).map fun pages => ⟨false, vma.mayWrite, pages⟩

/-! ## The transition system -/

/-- A reservation: the offset of its header in the data, and the length of the record. -/
structure Grant where
  hdr : ℕ
  len : ℕ
  deriving DecidableEq

/-- The ring, the memory, what user space has mapped, the calls of `__ringbuf_reserve` that are
before the lock (with their size and the `consumer_pos` they have loaded), and the
reservations so far. -/
structure State (P T : Type*) where
  rb : Area P
  mem : P × ℕ → UInt8
  mappings : List (Mapping P)
  calls : T → Option (ℕ × ℕ)
  granted : List Grant

inductive Action (T : Type*) where
  | mmap (vma : Vma)
  | mprotect (index : ℕ) (write : Bool)
  | userWrite (index addr : ℕ) (bytes : List UInt8)
  | call (t : T) (size : ℕ)
  | reserve (t : T) (locked : Bool)

/-- The value of `producer_pos`. -/
def State.producerPos (s : State P T) : ℕ :=
  loadLong s.rb.pages s.mem producerPosOffset

def mmapStep (remap : RemapVmallocRange P) (s : State P T) (vma : Vma) : Option (State P T) :=
  match ringbufferMmap remap s.rb vma with
  | .error _ => none
  | .ok m => some { s with mappings := s.mappings ++ [m] }

/-- Write access is given only where the mapping may have it. -/
def mprotectStep (s : State P T) (index : ℕ) (write : Bool) : Option (State P T) :=
  match s.mappings[index]? with
  | none => none
  | some m =>
      if write && !m.mayWrite then none
      else some { s with mappings := s.mappings.set index { m with write := write } }

def userWriteStep [DecidableEq P] (s : State P T) (index addr : ℕ) (bytes : List UInt8) :
    Option (State P T) :=
  match s.mappings[index]? with
  | none => none
  | some m =>
      if m.write = true ∧ addr + bytes.length ≤ pageSize * m.pages.length then
        some { s with mem := store pageSize m.pages s.mem addr bytes }
      else none

/-- `__ringbuf_reserve` up to the lock. -/
def callStep [DecidableEq T] (layout : RingbufLayout) (s : State P T) (t : T) (size : ℕ) :
    Option (State P T) :=
  match s.calls t with
  | some _ => none
  | none =>
      match ringbufReserveLoad layout s.rb.pages s.mem size with
      | none => some s
      | some consPos => some { s with calls := Function.update s.calls t (some (size, consPos)) }

/-- The state after a call that returned `result`. -/
def State.returned [DecidableEq T] (s : State P T) (t : T) (size : ℕ) :
    Option (ℕ × (P × ℕ → UInt8)) → State P T
  | none => { s with calls := Function.update s.calls t none }
  | some (hdr, mem) => { s with
      calls := Function.update s.calls t none
      mem := mem
      granted := s.granted ++ [⟨hdr, reserveLen size⟩] }

/-- `__ringbuf_reserve` from the lock on.  In an NMI the lock may not be had. -/
def reserveStep [DecidableEq P] [DecidableEq T] (layout : RingbufLayout) (s : State P T) (t : T)
    (locked : Bool) : Option (State P T) :=
  match s.calls t with
  | none => none
  | some (size, consPos) => some (s.returned t size
      (if locked then ringbufReserveLocked layout s.rb.pages s.mem size consPos else none))

def step [DecidableEq P] [DecidableEq T] (layout : RingbufLayout) (remap : RemapVmallocRange P)
    (s : State P T) : Action T → Option (State P T)
  | .mmap vma => mmapStep remap s vma
  | .mprotect index write => mprotectStep s index write
  | .userWrite index addr bytes => userWriteStep s index addr bytes
  | .call t size => callStep layout s t size
  | .reserve t locked => reserveStep layout s t locked

/-- After `ringbuf_alloc`, for the size that `secDetector_ringbuf_dev_init` is given. -/
structure Initial [DecidableEq P] (layout : RingbufLayout) (rbSz : UInt32) (env : AreaEnv P)
    (s : State P T) : Prop where
  alloc : ∃ mem events, ringbufAlloc layout rbSz.toNat env mem = (.ok (s.rb, s.mem), events)
  mappings : s.mappings = []
  calls : ∀ t, s.calls t = none
  granted : s.granted = []

/-! ## What user space can reach -/

/-- A mapping of user space shows no private page of the ring, and only the consumer page if
it may be written to. -/
structure Restricted (d : DoubleMap P) (m : Mapping P) : Prop where
  shown : ∀ page ∈ m.pages, page ∈ d.pages.drop ringbufPgoff
  writable : m.write = true ∨ m.mayWrite = true → m.pages = (d.pages.drop ringbufPgoff).take 1

section

variable {g : Geometry} {layout : RingbufLayout} {d : DoubleMap P} {mem : P × ℕ → UInt8}
  {rb : Ringbuf} {m : Mapping P} {addr l off k : ℕ} {bytes : List UInt8}

theorem remap_of_map_eq_ok {pages : Except ℤ (List P)} {f : List P → Mapping P}
    (h : pages.map f = .ok m) : ∃ pages', pages = .ok pages' ∧ f pages' = m := by
  cases pages with
  | error ret => simp [Except.map] at h
  | ok pages' => exact ⟨pages', rfl, Except.ok.inj h⟩

/-- **What `ringbuffer_mmap` accepts is restricted.** -/
theorem ringbufferMmap_restricted {remap : RemapVmallocRange P} (hremap : RemapExact remap)
    {area : Area P} (hpages : area.pages = d.pages) {vma : Vma}
    (hmmap : ringbufferMmap remap area vma = .ok m) : Restricted d m := by
  have hpgoff := vma.vmPgoff_lt
  unfold ringbufferMmap at hmmap
  dsimp only at hmmap
  split at hmmap
  · split at hmmap
    · simp at hmmap
    · rename_i hcheck
      rw [not_or, not_not, not_not] at hcheck
      obtain ⟨pages, hremapped, rfl⟩ := remap_of_map_eq_ok hmmap
      have hone : vma.nrPages = 1 := by rw [Vma.nrPages, hcheck.2]; rfl
      have hexact := hremap _ _ _ _ hremapped
      rw [hcheck.1, hone, hpages] at hexact
      refine ⟨fun page hpage => ?_, fun _ => hexact⟩
      rw [hexact] at hpage
      exact List.mem_of_mem_take hpage
  · obtain ⟨pages, hremapped, rfl⟩ := remap_of_map_eq_ok hmmap
    refine ⟨fun page hpage => ?_, by simp⟩
    rw [hremap _ _ _ _ hremapped, hpages] at hpage
    -- the offset does not wrap around to the private page
    have hnowrap : (vma.vmPgoff + ringbufPgoff) % 2 ^ 64 = ringbufPgoff + vma.vmPgoff := by
      simp only [ringbufPgoff, consumerPosOffset, pageSize]
      omega
    rw [hnowrap, ← List.drop_drop] at hpage
    exact List.mem_of_mem_drop (List.mem_of_mem_take hpage)

/-- The consumer page has no place in common with the rest of the ring. -/
theorem apart_consumerPage (hshape : HasShape g d)
    (hpages : m.pages = (d.pages.drop ringbufPgoff).take 1) (haddr : addr + l ≤ pageSize)
    (hoff : off + k ≤ dataOffset + g.dataSz)
    (hapart : off + k ≤ consumerPosOffset ∨ producerPosOffset ≤ off) :
    Apart pageSize m.pages addr l d.pages off k := by
  have hbase := hshape.base
  have hsize := hshape.size
  simp only [consumerPosOffset, producerPosOffset, dataOffset, pageSize] at *
  intro i hi j hj place hplace hplace'
  rw [hpages, translate_window (by omega)] at hplace
  have heq := d.translate_inj (by simp only [ringbufPgoff, consumerPosOffset, pageSize]; omega)
    (by omega) (hplace.trans hplace'.symm)
  simp only [ringbufPgoff, consumerPosOffset, pageSize] at heq
  omega

/-- **A write of user space** changes `consumer_pos` only. -/
theorem userWrite_inMemory [DecidableEq P] (h : InMemory g layout d mem rb) (hshape : HasShape g d)
    (hpages : m.pages = (d.pages.drop ringbufPgoff).take 1)
    (haddr : addr + bytes.length ≤ pageSize) :
    ∃ consumerPos, InMemory g layout d (store pageSize m.pages mem addr bytes)
      { rb with consumerPos := consumerPos } := by
  have hmask := layout.maskOffset_le
  refine ⟨_, ?_, rfl, ?_, fun o ho => ?_⟩
  · rw [← h.mask]
    refine loadNat_store_of_apart (apart_consumerPage hshape hpages haddr ?_ (.inl hmask))
    simp only [consumerPosOffset, dataOffset, pageSize] at *
    omega
  · rw [← h.producerPos]
    refine loadNat_store_of_apart (apart_consumerPage hshape hpages haddr ?_ (.inr le_rfl))
    simp only [producerPosOffset, dataOffset, pageSize]
    omega
  · rw [← h.data o ho]
    exact view_store_of_apart
      (apart_consumerPage hshape hpages haddr (le_refl (dataOffset + g.dataSz))
        (.inr (by decide))) ho

end

/-! ## The invariant -/

/-- What holds in every state. -/
structure Inv (g : Geometry) (layout : RingbufLayout) (d : DoubleMap P) (s : State P T) :
    Prop where
  pages : s.rb.pages = d.pages
  memory : ∃ rb, InMemory g layout d s.mem rb ∧ 8 ∣ rb.producerPos
  mappings : ∀ m ∈ s.mappings, Restricted d m
  calls : ∀ t size consPos, s.calls t = some (size, consPos) → reserveFits g size
  granted : ∀ r ∈ s.granted, r.hdr < g.dataSz ∧ r.hdr + r.len ≤ 2 * g.dataSz

variable {g : Geometry} {layout : RingbufLayout} {remap : RemapVmallocRange P}
  {d : DoubleMap P} {s s' : State P T}

theorem Inv.mmap (hinv : Inv g layout d s) (hremap : RemapExact remap) {vma : Vma}
    (hstep : mmapStep remap s vma = some s') :
    Inv g layout d s' ∧ s'.producerPos = s.producerPos := by
  unfold mmapStep at hstep
  split at hstep
  · simp at hstep
  · rename_i m hmmap
    obtain rfl := Option.some.inj hstep
    refine ⟨⟨hinv.pages, hinv.memory, ?_, hinv.calls, hinv.granted⟩, rfl⟩
    exact List.forall_mem_append.mpr ⟨hinv.mappings,
      List.forall_mem_singleton.mpr (ringbufferMmap_restricted hremap hinv.pages hmmap)⟩

theorem Inv.mprotect (hinv : Inv g layout d s) {index : ℕ} {write : Bool}
    (hstep : mprotectStep s index write = some s') :
    Inv g layout d s' ∧ s'.producerPos = s.producerPos := by
  unfold mprotectStep at hstep
  split at hstep
  · simp at hstep
  · rename_i m hm
    have hrestricted := hinv.mappings m (List.mem_of_getElem? hm)
    split at hstep
    · simp at hstep
    · rename_i hdenied
      obtain rfl := Option.some.inj hstep
      refine ⟨⟨hinv.pages, hinv.memory, fun m' hm' => ?_, hinv.calls, hinv.granted⟩, rfl⟩
      rcases List.mem_or_eq_of_mem_set hm' with hold | rfl
      · exact hinv.mappings m' hold
      · refine ⟨hrestricted.shown, fun hwrite => hrestricted.writable (.inr ?_)⟩
        -- write access is given only with `VM_MAYWRITE`
        rcases hwrite with hwrite | hmay
        · dsimp only at hwrite
          simpa [hwrite] using hdenied
        · exact hmay

theorem Inv.userWrite [DecidableEq P] (hinv : Inv g layout d s) (hshape : HasShape g d)
    {index addr : ℕ} {bytes : List UInt8} (hstep : userWriteStep s index addr bytes = some s') :
    Inv g layout d s' ∧ s'.producerPos = s.producerPos := by
  unfold userWriteStep at hstep
  split at hstep
  · simp at hstep
  · rename_i m hm
    split at hstep
    · rename_i hwrite
      obtain rfl := Option.some.inj hstep
      have hpages := (hinv.mappings m (List.mem_of_getElem? hm)).writable (.inl hwrite.1)
      have haddr : addr + bytes.length ≤ pageSize := by
        have hlen : m.pages.length ≤ 1 := by
          rw [hpages]
          exact List.length_take_le _ _
        have hmul := Nat.mul_le_mul_left pageSize hlen
        omega
      obtain ⟨rb, hrb, haligned⟩ := hinv.memory
      obtain ⟨consumerPos, hrb'⟩ := userWrite_inMemory hrb hshape hpages haddr
      refine ⟨⟨hinv.pages, ⟨_, hrb', haligned⟩, hinv.mappings, hinv.calls, hinv.granted⟩, ?_⟩
      rw [State.producerPos, State.producerPos, hinv.pages, hrb.producerPos, hrb'.producerPos]
    · simp at hstep

theorem Inv.call [DecidableEq T] (hinv : Inv g layout d s) {t : T} {size : ℕ}
    (hstep : callStep layout s t size = some s') :
    Inv g layout d s' ∧ s'.producerPos = s.producerPos := by
  obtain ⟨rb, hrb, haligned⟩ := hinv.memory
  unfold callStep at hstep
  split at hstep
  · simp at hstep
  · rw [hinv.pages, ringbufReserveLoad_eq hrb] at hstep
    by_cases hfits : reserveFits g size
    · rw [if_pos hfits] at hstep
      obtain rfl := Option.some.inj hstep
      refine ⟨⟨hinv.pages, hinv.memory, hinv.mappings, fun u size' consPos' hu => ?_,
        hinv.granted⟩, rfl⟩
      dsimp only at hu
      by_cases hut : u = t
      · rw [hut, Function.update_self, Option.some.injEq, Prod.mk.injEq] at hu
        rw [← hu.1]
        exact hfits
      · rw [Function.update_of_ne hut] at hu
        exact hinv.calls u size' consPos' hu
    · rw [if_neg hfits] at hstep
      obtain rfl := Option.some.inj hstep
      exact ⟨hinv, rfl⟩

/-- A call that is done. -/
theorem Inv.done [DecidableEq T] (hinv : Inv g layout d s) (t : T) :
    Inv g layout d { s with calls := Function.update s.calls t none } := by
  refine ⟨hinv.pages, hinv.memory, hinv.mappings, fun u size consPos hu => ?_, hinv.granted⟩
  dsimp only at hu
  by_cases hut : u = t
  · simp [hut] at hu
  · rw [Function.update_of_ne hut] at hu
    exact hinv.calls u size consPos hu

variable [DecidableEq P] [DecidableEq T]

/-- **A reservation** moves `producer_pos` by a multiple of 8 and stays in the double mapping,
whatever `consumer_pos` was loaded. -/
theorem Inv.reserve (hinv : Inv g layout d s) (hshape : HasShape g d) {t : T} {locked : Bool}
    (hstep : reserveStep layout s t locked = some s') :
    Inv g layout d s' ∧ (s'.producerPos = s.producerPos ∨
      ∃ size consPos, locked = true ∧ s.calls t = some (size, consPos) ∧
        s'.producerPos = (s.producerPos + reserveLen size) % 2 ^ 64) := by
  obtain ⟨rb, hrb, haligned⟩ := hinv.memory
  have hdone := hinv.done t
  cases hcall : s.calls t with
  | none => simp [reserveStep, hcall] at hstep
  | some call =>
      obtain ⟨size, consPos⟩ := call
      rw [reserveStep, hcall, Option.some.injEq, hinv.pages] at hstep
      obtain rfl := hstep
      cases hresult : (if locked then ringbufReserveLocked layout d.pages s.mem size consPos
        else none) with
      | none => exact ⟨hdone, .inl rfl⟩
      | some result =>
          obtain ⟨hlocked, hreserve⟩ := Option.ite_none_right_eq_some.mp hresult
          by_cases hspace : hasSpace g rb consPos size
          · obtain ⟨mem, hgranted, hrb'⟩ := ringbufReserveLocked_eq hrb hshape hspace
            obtain rfl := Option.some.inj (hreserve.symm.trans hgranted)
            have hhdr : nextHdr g rb < g.dataSz := by
              rw [nextHdr, g.and_mask]
              exact Nat.mod_lt _ g.dataSz_pos
            have hlen : reserveLen size ≤ g.dataSz := by
              rw [← g.mask_add_one]
              exact (hinv.calls t size consPos hcall).2
            refine ⟨⟨hinv.pages, ⟨_, hrb', ringbufReserve_aligned haligned⟩, hinv.mappings,
              hdone.calls, ?_⟩, .inr ⟨size, consPos, hlocked, rfl, ?_⟩⟩
            · exact List.forall_mem_append.mpr ⟨hinv.granted,
                List.forall_mem_singleton.mpr ⟨hhdr, by dsimp only; omega⟩⟩
            · show loadLong s.rb.pages mem producerPosOffset =
                (loadLong s.rb.pages s.mem producerPosOffset + reserveLen size) % 2 ^ 64
              rw [hinv.pages, hrb.producerPos, hrb'.producerPos, ringbufReserve_producerPos]
          · rw [ringbufReserveLocked_full hrb hspace] at hreserve
            simp at hreserve

/-- **One step**: only a reservation moves `producer_pos`. -/
theorem Inv.step (hinv : Inv g layout d s) (hshape : HasShape g d) (hremap : RemapExact remap)
    {a : Action T} (hstep : step layout remap s a = some s') :
    Inv g layout d s' ∧ (s'.producerPos = s.producerPos ∨
      ∃ t size consPos, a = .reserve t true ∧ s.calls t = some (size, consPos) ∧
        s'.producerPos = (s.producerPos + reserveLen size) % 2 ^ 64) := by
  cases a with
  | mmap vma =>
      obtain ⟨hinv', hpos⟩ := hinv.mmap hremap hstep
      exact ⟨hinv', .inl hpos⟩
  | mprotect index write =>
      obtain ⟨hinv', hpos⟩ := hinv.mprotect hstep
      exact ⟨hinv', .inl hpos⟩
  | userWrite index addr bytes =>
      obtain ⟨hinv', hpos⟩ := hinv.userWrite hshape hstep
      exact ⟨hinv', .inl hpos⟩
  | call t size =>
      obtain ⟨hinv', hpos⟩ := hinv.call hstep
      exact ⟨hinv', .inl hpos⟩
  | reserve t locked =>
      obtain ⟨hinv', hpos | ⟨size, consPos, hlocked, hcall, hpos⟩⟩ := hinv.reserve hshape hstep
      · exact ⟨hinv', .inl hpos⟩
      · exact ⟨hinv', .inr ⟨t, size, consPos, by rw [hlocked], hcall, hpos⟩⟩

/-! ## The result -/

/-- User space cannot push the producer out of the ring. -/
structure ProducerConfined (layout : RingbufLayout) (remap : RemapVmallocRange P) (dataSz : ℕ)
    (s : State P T) : Prop where
  /-- `producer_pos` is moved by reservations only, and stays a multiple of 8. -/
  moved : ∀ a s', Mapped.step layout remap s a = some s' → s'.producerPos = s.producerPos ∨
    ∃ t size consPos, a = .reserve t true ∧ s.calls t = some (size, consPos) ∧
      s'.producerPos = (s.producerPos + reserveLen size) % 2 ^ 64
  aligned : 8 ∣ s.producerPos
  /-- Every header starts in the first mapping, and every record ends in the second one. -/
  granted : ∀ r ∈ s.granted, r.hdr < dataSz ∧ r.hdr + r.len ≤ 2 * dataSz
  mapped : ∀ o < 2 * dataSz, ∃ place,
    translate pageSize s.rb.pages (dataOffset + o) = some place
  /-- The second mapping shows the same bytes as the first one. -/
  doubled : ∀ o < dataSz, translate pageSize s.rb.pages (dataOffset + o + dataSz) =
    translate pageSize s.rb.pages (dataOffset + o)
  /-- The pages before the consumer page are not shown to user space. -/
  hidden : ∀ m ∈ s.mappings, ∀ page ∈ s.rb.pages.take ringbufPgoff, page ∉ m.pages

theorem Inv.producerConfined (hinv : Inv g layout d s) (hshape : HasShape g d)
    (hremap : RemapExact remap) : ProducerConfined layout remap g.dataSz s where
  moved a s' hstep := (hinv.step hshape hremap hstep).2
  aligned := by
    obtain ⟨rb, hrb, haligned⟩ := hinv.memory
    rw [State.producerPos, hinv.pages, hrb.producerPos]
    exact haligned
  granted := hinv.granted
  mapped o ho := by
    rw [hinv.pages, ← hshape.base]
    exact d.exists_translate (by rw [hshape.size]; omega)
  doubled o ho := by
    rw [hinv.pages, ← hshape.base, ← hshape.size]
    exact d.translate_add_size (by rwa [hshape.size])
  hidden m hm page hpage hshown := by
    rw [hinv.pages] at hpage
    refine d.not_mem_drop ?_ hpage ((hinv.mappings m hm).shown page hshown)
    have hbase := hshape.base
    simp only [DoubleMap.base, dataOffset, pageSize] at hbase
    simp only [ringbufPgoff, consumerPosOffset, pageSize]
    omega

/-- The pages are a double mapping, and the invariant holds. -/
def Shaped (g : Geometry) (layout : RingbufLayout) (s : State P T) : Prop :=
  ∃ d : DoubleMap P, HasShape g d ∧ Inv g layout d s

omit [DecidableEq T] in
theorem Initial.shaped {rbSz : UInt32} {env : AreaEnv P} (hinit : Initial layout rbSz env s)
    (hsize : g.dataSz = rbSz.toNat) (hfresh : env.Fresh) : Shaped g layout s := by
  obtain ⟨mem, events, halloc⟩ := hinit.alloc
  rw [← hsize] at halloc
  obtain ⟨d, hpages, hshape, hmemory⟩ := ringbufAlloc_spec hfresh halloc
  refine ⟨d, hshape, hpages, ⟨_, hmemory, dvd_zero 8⟩, ?_, ?_, ?_⟩
  · simp [hinit.mappings]
  · simp [hinit.calls]
  · simp [hinit.granted]

/-- A ring of `2 ^ k` bytes.  Its address plays no part here. -/
def ringOfOrder (k : ℕ) (hlow : 12 ≤ k) (hhigh : k ≤ 31) : Geometry where
  order := k
  base := 0
  daemonMask := 2 ^ k - 1
  page_le := hlow
  order_le := by omega
  base_aligned := dvd_zero _
  base_le := by
    have hpow : 2 ^ k ≤ 2 ^ 31 := Nat.pow_le_pow_right (by norm_num) hhigh
    simp only [dataOffset, pageSize]
    omega

/-- **User space cannot push the producer out of the ring**, for every data size that is a
power of two and at least one page, whatever is mapped, written and reserved. -/
theorem producer_confined {k : ℕ} {rbSz : UInt32} (hpow : rbSz.toNat = 2 ^ k)
    (hpage : pageSize ≤ rbSz.toNat) {env : AreaEnv P} (hfresh : env.Fresh)
    (hremap : RemapExact remap) {acts : List (Action T)}
    (hrun : Run (Mapped.step layout remap) Unguarded (Initial layout rbSz env) acts s) :
    ProducerConfined layout remap rbSz.toNat s := by
  have hlow : 12 ≤ k := by
    rw [hpow] at hpage
    exact (Nat.pow_le_pow_iff_right Nat.one_lt_two).mp hpage
  have hhigh : k ≤ 31 := by
    have hlt := rbSz.toNat_lt
    rw [hpow] at hlt
    have := (Nat.pow_lt_pow_iff_right Nat.one_lt_two).mp hlt
    omega
  have hsize : (ringOfOrder k hlow hhigh).dataSz = rbSz.toNat := hpow.symm
  have hinv : Shaped (ringOfOrder k hlow hhigh) layout s :=
    hrun.invariant (fun s hinit => hinit.shaped hsize hfresh) fun s a s' hinv _ hstep => by
      obtain ⟨d, hshape, hinv⟩ := hinv
      exact ⟨d, hshape, (hinv.step hshape hremap hstep).1⟩
  obtain ⟨d, hshape, hinv⟩ := hinv
  rw [← hsize]
  exact hinv.producerConfined hshape hremap

/-! ## A forged position

User space maps the consumer page of a ring of one page and claims to be ahead of the
producer. -/

/-- `remap_vmalloc_range`, with its check of the range. -/
def remapVmallocRange (area : List P) (vma : Vma) (pgoff : ℕ) : Except ℤ (List P) :=
  if area.length < pgoff + vma.nrPages then .error (-eInval)
  else .ok ((area.drop pgoff).take vma.nrPages)

omit [DecidableEq P] in
theorem remapVmallocRange_exact : RemapExact (remapVmallocRange (P := P)) := by
  intro area vma pgoff pages hremapped
  unfold remapVmallocRange at hremapped
  split at hremapped
  · simp at hremapped
  · exact (Except.ok.inj hremapped).symm

def pageLayout : RingbufLayout := ⟨64, by decide⟩

/-- Pages are handed out in order. -/
def pageEnv : AreaEnv ℕ := ⟨true, fun _ => 0, some, true⟩

theorem pageEnv_fresh : pageEnv.Fresh :=
  fun _ _ _ hi hj => (Option.some.inj hi).trans (Option.some.inj hj).symm

def consumerVma : Vma := ⟨0, pageSize, 0, true, true, by decide, by decide⟩

/-- The ring after `ringbuf_alloc`; its one data page is shown twice. -/
def pageRing : State ℕ Unit where
  rb := ⟨[0, 1, 2, 3, 3], 4⟩
  mem :=
    let pages := [0, 1, 2, 3, 3]
    let mem := storeInt 8 pages (fun _ => 0) 64 4095
    storeInt 8 pages (storeInt 8 pages mem consumerPosOffset 0) producerPosOffset 0
  mappings := []
  calls := fun _ => none
  granted := []

theorem pageRing_initial : Initial pageLayout 4096 pageEnv pageRing :=
  ⟨⟨fun _ => 0, _, rfl⟩, rfl, fun _ => rfl, rfl⟩

def forgedActions : List (Action Unit) :=
  [.mmap consumerVma, .userWrite 0 0 (List.replicate 8 255), .call () 8, .reserve () true]

theorem forgedActions_granted :
    (exec (Mapped.step pageLayout remapVmallocRange) pageRing forgedActions).map (·.granted) =
      some [⟨0, 16⟩] := by
  decide +kernel

/-- The forged position is taken for the space check, and the record is still in the ring. -/
theorem producer_confined_page :
    ∃ s : State ℕ Unit, Run (Mapped.step pageLayout remapVmallocRange) Unguarded
      (Initial pageLayout 4096 pageEnv) forgedActions s ∧ s.granted = [⟨0, 16⟩] ∧
        ProducerConfined pageLayout remapVmallocRange 4096 s := by
  obtain ⟨s, hexec, hend⟩ := Option.map_eq_some_iff.mp forgedActions_granted
  have hrun : Run (Mapped.step pageLayout remapVmallocRange) Unguarded
      (Initial pageLayout 4096 pageEnv) forgedActions s :=
    .of_exec pageRing_initial (fun _ _ _ => trivial) hexec
  exact ⟨s, hrun, hend,
    producer_confined (k := 12) rfl (by decide) pageEnv_fresh remapVmallocRange_exact hrun⟩

end SecDetector.Ring.Mapped
