import Mathlib.Data.List.Enum
import SecDetector.Report.SaveCheck

/-!
# The baseline after an error

`analyze_save_check_normal` writes the new value of a changed item into the baseline as soon
as it has the string for it, and can fail later: at the string of the next changed
item, or at the report text.  What it has written by then is not reported, and the
next round compares against it.

`normalLoop_eq` says what the loop does in closed form, and `baseline_kept_iff` for which
answers of the allocator an error leaves the baseline as it was.
-/

namespace SecDetector.Report

open Lib Text

variable {sha256 : List UInt8 → Digest} {kzalloc : ℕ → Bool} {list : List CollectData}

/-! ## The changed items -/

/-- The items that have a slot in the baseline. -/
def namedItems (list : List CollectData) : List CollectData :=
  list.filter fun cd => cd.name.isSome

/-- The items that differ from their slots, with the indices of the slots; the first named
item belongs to slot `i`. -/
def differing (sha256 : List UInt8 → Digest) (data : ℕ → BitVec 64) (list : List CollectData)
    (i : ℕ) : List (CollectData × ℕ) :=
  ((namedItems list).zipIdx i).filter fun item => measureValue sha256 item.1.value ≠ data item.2

/-- The elements whose allocations, numbered from `start` on, succeed before one fails. -/
def granted {A : Type*} (kzalloc : ℕ → Bool) : ℕ → List A → List A
  | _, [] => []
  | start, a :: rest => if kzalloc start then a :: granted kzalloc (start + 1) rest else []

theorem granted_sublist {A : Type*} (kzalloc : ℕ → Bool) (start : ℕ) (items : List A) :
    (granted kzalloc start items).Sublist items := by
  induction items generalizing start with
  | nil => exact .slnil
  | cons a items ih =>
      unfold granted
      split
      · exact (ih _).cons_cons a
      · exact List.nil_sublist _

theorem granted_eq_nil_iff {A : Type*} {start : ℕ} {items : List A} :
    granted kzalloc start items = [] ↔ items = [] ∨ kzalloc start = false := by
  cases items with
  | nil => simp [granted]
  | cons a items => cases h : kzalloc start <;> simp [granted, h]

theorem granted_eq_self_iff {A : Type*} {start : ℕ} {items : List A} :
    granted kzalloc start items = items ↔ ∀ i < items.length, kzalloc (start + i) = true := by
  induction items generalizing start with
  | nil => simp [granted]
  | cons a items ih =>
      rw [List.length_cons, Nat.forall_lt_succ_left, Nat.add_zero]
      unfold granted
      split
      · rename_i hfirst
        rw [List.cons_inj_right, ih, and_iff_right hfirst]
        apply forall₂_congr
        intro i _
        rw [Nat.add_right_comm, Nat.add_assoc]
      · rename_i hfirst
        exact iff_of_false (List.cons_ne_nil _ _).symm fun hall => hfirst hall.1

/-- Writing items to their slots. -/
def record (sha256 : List UInt8 → Digest) (items : List (CollectData × ℕ))
    (data : ℕ → BitVec 64) : ℕ → BitVec 64 :=
  items.foldl (fun data item => Function.update data item.2 (measureValue sha256 item.1.value)) data

@[simp] theorem record_cons (item : CollectData × ℕ) (items : List (CollectData × ℕ))
    (data : ℕ → BitVec 64) :
    record sha256 (item :: items) data =
      record sha256 items (Function.update data item.2 (measureValue sha256 item.1.value)) := rfl

theorem record_of_not_mem {items : List (CollectData × ℕ)} {data : ℕ → BitVec 64} {i : ℕ}
    (hnot : i ∉ items.map Prod.snd) : record sha256 items data i = data i := by
  induction items generalizing data with
  | nil => rfl
  | cons item items ih =>
      rw [List.map_cons, List.mem_cons, not_or] at hnot
      rw [record_cons, ih hnot.2, Function.update_of_ne hnot.1]

/-- The lines of the report. -/
def reportLines (sha256 : List UInt8 → Digest) (data : ℕ → BitVec 64)
    (items : List (CollectData × ℕ)) : List Buffer :=
  items.map fun item =>
    itemLine (item.1.name.getD .empty) (data item.2) (measureValue sha256 item.1.value)

theorem reportLines_congr {data data' : ℕ → BitVec 64} {items : List (CollectData × ℕ)}
    (heq : ∀ item ∈ items, data' item.2 = data item.2) :
    reportLines sha256 data' items = reportLines sha256 data items :=
  List.map_congr_left fun item hitem => by rw [heq item hitem]

/-- The slots of the differing items are in increasing order, from the first one on. -/
theorem differing_slots (sha256 : List UInt8 → Digest) (data : ℕ → BitVec 64)
    (list : List CollectData) (i : ℕ) :
    ∀ item ∈ differing sha256 data list i, i ≤ item.2 := by
  intro item hitem
  have hmem := List.mem_of_mem_filter hitem
  exact (List.mem_zipIdx hmem).1

theorem differing_congr {data data' : ℕ → BitVec 64} {i : ℕ}
    (heq : ∀ j, i ≤ j → data' j = data j) :
    differing sha256 data' list i = differing sha256 data list i := by
  unfold differing
  apply List.filter_congr
  intro item hitem
  rw [heq _ (List.mem_zipIdx hitem).1]

@[simp] theorem differing_nil (data : ℕ → BitVec 64) (i : ℕ) :
    differing sha256 data [] i = [] := rfl

@[simp] theorem differing_unnamed (data : ℕ → BitVec 64) (value : CollectValue) (i : ℕ) :
    differing sha256 data (⟨none, value⟩ :: list) i = differing sha256 data list i := rfl

theorem differing_named (data : ℕ → BitVec 64) (name : Text) (value : CollectValue) (i : ℕ) :
    differing sha256 data (⟨some name, value⟩ :: list) i =
      if measureValue sha256 value ≠ data i then
        (⟨some name, value⟩, i) :: differing sha256 data list (i + 1)
      else differing sha256 data list (i + 1) := by
  simp [differing, namedItems, List.zipIdx_cons, List.filter_cons]

/-- **The loop of `analyze_save_check_normal`.**  It works through the items that differ from the
baseline it finds, up to the first string that cannot be allocated. -/
theorem normalLoop_eq (sha256 : List UInt8 → Digest) (kzalloc : ℕ → Bool)
    (list : List CollectData) (p : Progress) {items : List (CollectData × ℕ)}
    (hitems : items = differing sha256 p.data list p.dataIndex) :
    (normalLoop sha256 kzalloc list p).1.data =
        record sha256 (granted kzalloc p.lines.length items) p.data ∧
      (normalLoop sha256 kzalloc list p).1.lines =
        p.lines ++ reportLines sha256 p.data (granted kzalloc p.lines.length items) ∧
      ((normalLoop sha256 kzalloc list p).2 = true ↔
        granted kzalloc p.lines.length items = items) := by
  induction list generalizing p items with
  | nil =>
      subst hitems
      simp [normalLoop, granted, record, reportLines]
  | cons item rest ih =>
      obtain ⟨name, value⟩ := item
      cases name with
      | none =>
          -- an item without a name is passed over
          exact ih p hitems
      | some name =>
          rw [differing_named] at hitems
          simp only [normalLoop]
          split
          · rename_i hdiffers
            rw [if_pos hdiffers] at hitems
            subst hitems
            unfold granted
            split
            · -- the later items still see the old baseline, since their slots are behind
              have hsame : ∀ j, p.dataIndex + 1 ≤ j →
                  Function.update p.data p.dataIndex (measureValue sha256 value) j = p.data j := by
                intro j hj
                exact Function.update_of_ne (Nat.ne_of_gt hj) _ _
              obtain ⟨hdata, hlines, hdone⟩ := ih
                { dataIndex := p.dataIndex + 1
                  data := Function.update p.data p.dataIndex (measureValue sha256 value)
                  lines := p.lines ++
                    [itemLine name (p.data p.dataIndex) (measureValue sha256 value)]
                  charLen := (p.charLen + (itemLine name (p.data p.dataIndex)
                    (measureValue sha256 value)).text.length) % 2 ^ 32 }
                (differing_congr hsame).symm
              rw [List.length_append, List.length_singleton] at hdata hlines hdone
              refine ⟨hdata, ?_, hdone.trans (List.cons_inj_right _).symm⟩
              have hold : ∀ item ∈ granted kzalloc (p.lines.length + 1)
                  (differing sha256 p.data rest (p.dataIndex + 1)),
                  Function.update p.data p.dataIndex (measureValue sha256 value) item.2 =
                    p.data item.2 := by
                intro item hitem
                exact hsame _ (differing_slots _ _ _ _ _ ((granted_sublist _ _ _).subset hitem))
              rw [hlines, reportLines_congr hold, List.append_assoc]
              rfl
            · simp [record, reportLines]
          · rename_i hsame
            rw [if_neg hsame] at hitems
            exact ih { p with dataIndex := p.dataIndex + 1 } hitems

/-- The loop of a round. -/
theorem normalLoop_round (sha256 : List UInt8 → Digest) (kzalloc : ℕ → Bool)
    (list : List CollectData) (data : ℕ → BitVec 64) :
    (normalLoop sha256 kzalloc list ⟨0, data, [], 0⟩).1.data =
        record sha256 (granted kzalloc 0 (differing sha256 data list 0)) data ∧
      (normalLoop sha256 kzalloc list ⟨0, data, [], 0⟩).1.lines =
        reportLines sha256 data (granted kzalloc 0 (differing sha256 data list 0)) ∧
      ((normalLoop sha256 kzalloc list ⟨0, data, [], 0⟩).2 = true ↔
        ∀ i < (differing sha256 data list 0).length, kzalloc i = true) := by
  obtain ⟨hdata, hlines, hdone⟩ := normalLoop_eq sha256 kzalloc list ⟨0, data, [], 0⟩ rfl
  refine ⟨hdata, hlines, hdone.trans (granted_eq_self_iff.trans ?_)⟩
  simp only [List.length_nil, Nat.zero_add]

/-! ## An error leaves the baseline alone, or not -/

/-- An error is returned only with the baseline as it was. -/
def KeptOnError (status : SaveCheckData) (result : ℤ × SaveCheckData × Option ReportData) :
    Prop :=
  result.1 < 0 → result.2.1 = status

theorem nodup_differing_slots (sha256 : List UInt8 → Digest) (data : ℕ → BitVec 64)
    (list : List CollectData) (i : ℕ) :
    ((differing sha256 data list i).map Prod.snd).Nodup := by
  have hslots : (((namedItems list).zipIdx i).map Prod.snd).Nodup := by
    rw [List.zipIdx_map_snd]
    exact List.nodup_range'
  exact hslots.sublist (List.filter_sublist.map _)

/-- Whatever is written by then changes the baseline. -/
theorem record_granted_eq_self_iff {start i : ℕ} {data : ℕ → BitVec 64} :
    record sha256 (granted kzalloc start (differing sha256 data list i)) data = data ↔
      granted kzalloc start (differing sha256 data list i) = [] := by
  have hsub := granted_sublist kzalloc start (differing sha256 data list i)
  have hnodup := (nodup_differing_slots sha256 data list i).sublist (hsub.map _)
  cases hitems : granted kzalloc start (differing sha256 data list i) with
  | nil => exact iff_of_true rfl rfl
  | cons item items =>
      refine iff_of_false (fun hsame => ?_) (List.cons_ne_nil _ _)
      rw [hitems, List.map_cons, List.nodup_cons] at hnodup
      -- nobody else writes to the slot of the first item, which differs from it
      have hslot := congrFun hsame item.2
      rw [record_cons, record_of_not_mem hnodup.1, Function.update_self] at hslot
      have hmem : item ∈ differing sha256 data list i := hsub.subset (by simp [hitems])
      exact absurd hslot (by simpa using (List.mem_filter.mp hmem).2)

/-- The answers of the allocator after which an error leaves the baseline alone: nothing
has changed, or nothing can be written because the strings or the first of them cannot
be allocated, or there is memory for everything. -/
def AllocsKeep (sha256 : List UInt8 → Digest) (list : List CollectData) (status : SaveCheckData)
    (allocs : NormalAllocs) : Prop :=
  allocs.arrays = false ∨ differing sha256 status.data list 0 = [] ∨ allocs.line 0 = false ∨
    ((∀ i < (differing sha256 status.data list 0).length, allocs.line i = true) ∧
      allocs.text = true)

/-- A later round. -/
theorem normal_keptOnError_iff {status : SaveCheckData} {eventType : BitVec 32}
    {allocs : NormalAllocs} {timestamp : Option (CString timeStrMaxLen)} :
    KeptOnError status
        (analyzeSaveCheckNormal sha256 list status eventType allocs timestamp) ↔
      AllocsKeep sha256 list status allocs := by
  obtain ⟨hdata, hlines, hdone⟩ := normalLoop_round sha256 allocs.line list status.data
  unfold KeptOnError AllocsKeep analyzeSaveCheckNormal
  cases harrays : allocs.arrays with
  | false => exact iff_of_true (fun _ => rfl) (.inl rfl)
  | true =>
      generalize normalLoop sha256 allocs.line list ⟨0, status.data, [], 0⟩ = result at *
      obtain ⟨p, done⟩ := result
      have hsame : { status with data := p.data } = status ↔
          differing sha256 status.data list 0 = [] ∨ allocs.line 0 = false := by
        rw [← granted_eq_nil_iff, ← record_granted_eq_self_iff, ← hdata]
        cases status
        simp
      have hempty : p.lines = [] ↔
          differing sha256 status.data list 0 = [] ∨ allocs.line 0 = false := by
        rw [← granted_eq_nil_iff, hlines]
        exact List.map_eq_nil_iff
      generalize differing sha256 status.data list 0 = items at hdone hsame hempty ⊢
      cases done with
      | false =>
          -- the string of a changed item could not be allocated
          have hfail : ¬ ∀ i < items.length, allocs.line i = true := fun hall =>
            Bool.false_ne_true (hdone.mpr hall)
          simp [hsame, hfail, eNomem]
      | true =>
          have hall := hdone.mp rfl
          have hisEmpty := List.isEmpty_iff.trans hempty
          by_cases hnone : items = [] ∨ allocs.line 0 = false
          · -- there is nothing to report
            refine iff_of_true (fun herror => ?_) (.inr (hnone.imp_right .inl))
            simp [hisEmpty.mpr hnone] at herror
          · have hchanged : p.lines.isEmpty = false := by
              rw [← Bool.not_eq_true, hisEmpty]
              exact hnone
            cases htext : allocs.text with
            | true =>
                refine iff_of_true (fun herror => ?_) (.inr (.inr (.inr ⟨hall, rfl⟩)))
                simp [hchanged] at herror
            | false =>
                -- everything is written, and nothing is reported
                refine iff_of_false (fun hkept => hnone (hsame.mp ?_)) (by simp [not_or.mp hnone])
                simpa [hchanged, eNomem] using hkept

/-- **When an error of `analyze_save_check` leaves the baseline as it was.** -/
theorem baseline_kept_iff {status : SaveCheckData} {eventType : BitVec 32}
    {fresh : Option (ℕ → BitVec 64)} {allocs : NormalAllocs}
    {timestamp : Option (CString timeStrMaxLen)} :
    KeptOnError status (analyzeSaveCheck sha256 list status eventType fresh allocs timestamp) ↔
      (status.initTag = true → AllocsKeep sha256 list status allocs) := by
  unfold analyzeSaveCheck
  cases status.initTag with
  | true =>
      rw [if_pos rfl, normal_keptOnError_iff]
      exact (imp_iff_right rfl).symm
  | false =>
      -- the first round writes to the baseline only after its one allocation
      refine iff_of_true (fun herror => ?_) (fun hinit => absurd hinit Bool.false_ne_true)
      cases fresh with
      | none => rfl
      | some data => simp [analyzeSaveCheckInit] at herror

/-! ## A forgotten change

Two switches are off that were on in the baseline.  The string of the second cannot be
allocated. -/

def twoSwitches : List CollectData :=
  [⟨some (ascii "SMEP" (ascii_check "SMEP" trivial)), .int 0⟩,
    ⟨some (ascii "SMAP" (ascii_check "SMAP" trivial)), .int 0⟩]

def bothOn : SaveCheckData := ⟨fun _ => 1, 2, true⟩

/-- The baseline does not survive every error. -/
theorem not_baseline_kept :
    ¬ ∀ (sha256 : List UInt8 → Digest) (list : List CollectData) (status : SaveCheckData)
      (eventType : BitVec 32) (fresh : Option (ℕ → BitVec 64)) (allocs : NormalAllocs)
      (timestamp : Option (CString timeStrMaxLen)),
      KeptOnError status
        (analyzeSaveCheck sha256 list status eventType fresh allocs timestamp) := by
  intro hclaim
  have hkept := hclaim (fun _ _ => 0) twoSwitches bothOn 0 none ⟨true, fun i => i == 0, true⟩ none
    (by decide)
  have hslot := congrFun (congrArg SaveCheckData.data hkept) 0
  revert hslot
  decide

end SecDetector.Report
