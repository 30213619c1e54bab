import SecDetector.Lib.Ledger
import SecDetector.Lib.Run
import SecDetector.Report.Baseline
import SecDetector.Report.Collect

/-!
# Items and their slots

The slots of a baseline have no names: the first round stores its items one behind the
other, and a later round compares its first item with slot 0, its second with slot 1, and
so on.  That is right as long as nothing is missing from the later list that was in the
first one, except at the end, and nothing is there that was not.

`Life` adds to the baseline which list it was made from, and a ledger of what was
recorded under which name.  Every access to `sc_data.data` is logged as a `Check`, which
is `Good` if the index is inside the array and, for a comparison, if the slot holds the
last record of the item's name.  `life_good_iff` is the exact condition on the lists.
-/

namespace SecDetector.Report

open Lib Text

variable {sha256 : List UInt8 → Digest} {list : List CollectData}

/-! ## Accesses -/

/-- An access to `sc_data.data`. -/
inductive Access where
  | compare (index : ℕ) (name : Text)
  | write (index : ℕ) (name : Text) (value : BitVec 64)

/-- The accesses of `analyze_save_check_init`, from index `i` on. -/
def initAccesses (sha256 : List UInt8 → Digest) : List CollectData → ℕ → List Access
  | [], _ => []
  | ⟨none, _⟩ :: rest, i => initAccesses sha256 rest i
  | ⟨some _, .other⟩ :: rest, i => initAccesses sha256 rest (i + 1)
  | ⟨some name, value⟩ :: rest, i =>
      .write i name (measureValue sha256 value) :: initAccesses sha256 rest (i + 1)

/-- The accesses of the loop of `analyze_save_check_normal`, from index `i` and the string
number `line` on. -/
def normalAccesses (sha256 : List UInt8 → Digest) (kzalloc : ℕ → Bool) :
    List CollectData → ℕ → (ℕ → BitVec 64) → ℕ → List Access
  | [], _, _, _ => []
  | ⟨none, _⟩ :: rest, i, data, line => normalAccesses sha256 kzalloc rest i data line
  | ⟨some name, value⟩ :: rest, i, data, line =>
      let measure := measureValue sha256 value
      .compare i name ::
        if measure ≠ data i then
          if kzalloc line then
            .write i name measure ::
              normalAccesses sha256 kzalloc rest (i + 1) (Function.update data i measure) (line + 1)
          else []
        else normalAccesses sha256 kzalloc rest (i + 1) data line

/-- What the accesses leave in the array. -/
def Access.apply (data : ℕ → BitVec 64) : Access → ℕ → BitVec 64
  | .compare _ _ => data
  | .write i _ value => Function.update data i value

/-- The accesses are those of the model. -/
theorem initLoop_eq_foldl (sha256 : List UInt8 → Digest) (list : List CollectData) (i : ℕ)
    (data : ℕ → BitVec 64) :
    initLoop sha256 list i data = (initAccesses sha256 list i).foldl Access.apply data := by
  induction list generalizing i data with
  | nil => rfl
  | cons item rest ih =>
      obtain ⟨name, value⟩ := item
      cases name with
      | none => exact ih i data
      | some name => cases value <;> exact ih (i + 1) _

theorem normalLoop_eq_foldl (sha256 : List UInt8 → Digest) (kzalloc : ℕ → Bool)
    (list : List CollectData) (p : Progress) :
    (normalLoop sha256 kzalloc list p).1.data =
      (normalAccesses sha256 kzalloc list p.dataIndex p.data p.lines.length).foldl
        Access.apply p.data := by
  induction list generalizing p with
  | nil => rfl
  | cons item rest ih =>
      obtain ⟨name, value⟩ := item
      cases name with
      | none => exact ih p
      | some name =>
          simp only [normalLoop, normalAccesses, List.foldl_cons, Access.apply]
          split
          · split
            · rw [ih, List.length_append, List.length_singleton]
              rfl
            · rfl
          · exact ih { p with dataIndex := p.dataIndex + 1 }

/-! ## The life of a baseline -/

/-- What the environment contributes to a round. -/
structure Round where
  list : List CollectData
  eventType : BitVec 32
  fresh : Option (ℕ → BitVec 64)
  allocs : NormalAllocs
  timestamp : Option (CString timeStrMaxLen)

/-- An access, with the length of the array; a comparison, with the number of the record in
the slot and that of the last record of the name. -/
inductive Check where
  | write (index len : ℕ)
  | compare (index len : ℕ) (slot last : Option ℕ)
  deriving DecidableEq

/-- The access is inside the array, and a comparison is with the last record. -/
def Check.Good : Check → Prop
  | .write index len => index < len
  | .compare index len slot last => index < len ∧ slot = last ∧ slot ≠ none

/-- A baseline, the list it was initialised from, and what was recorded and accessed. -/
structure Life where
  status : SaveCheckData
  initial : List CollectData
  ledger : Ledger ℕ Text
  checks : List Check

/-- The accesses of a round that finds `status`. -/
def Round.accesses (sha256 : List UInt8 → Digest) (status : SaveCheckData) (round : Round) :
    List Access :=
  if status.initTag then
    if round.allocs.arrays then
      normalAccesses sha256 round.allocs.line round.list 0 status.data 0
    else []
  else if round.fresh.isSome then initAccesses sha256 round.list 0
  else []

/-- Log an access, and record what it writes. -/
def Life.access (life : Life) : Access → Life
  | .compare i name =>
      { life with
        checks := life.checks ++
          [.compare i life.status.len (life.ledger.slot i) (life.ledger.last name)] }
  | .write i name _ =>
      { life with
        ledger := life.ledger.record i name
        checks := life.checks ++ [.write i life.status.len] }

/-- A round of `analyze_save_check`. -/
def Life.round (sha256 : List UInt8 → Digest) (life : Life) (round : Round) : Life :=
  let (_, status, _) := analyzeSaveCheck sha256 round.list life.status round.eventType
    round.fresh round.allocs round.timestamp
  let initial := if life.status.initTag then life.initial else round.list
  (round.accesses sha256 life.status).foldl Life.access
    { life with status := status, initial := initial }

/-- The rounds as a transition system. -/
def roundStep (sha256 : List UInt8 → Digest) (life : Life) (round : Round) : Option Life :=
  some (life.round sha256 round)

/-- Before the first round. -/
structure LifeInit (life : Life) : Prop where
  initTag : life.status.initTag = false
  ledger : life.ledger = .empty
  checks : life.checks = []

/-- Every access so far was good. -/
def Life.Good (life : Life) : Prop := ∀ check ∈ life.checks, check.Good

/-! ## The condition -/

/-- The names under which the first round fills the slots; an item without a value fills
none. -/
def slotNames (initial : List CollectData) : List (Option Text) :=
  (namedItems initial).map fun cd =>
    match cd.value with
    | .other => none
    | .int _ | .region _ => cd.name

/-- Whether a round that finds `data` comes as far as the items behind `pre`: their strings can be
allocated for all items of `pre` that differ.  The first item of `pre` belongs to slot `i`
and the first string has the number `line`. -/
def Reached (sha256 : List UInt8 → Digest) (kzalloc : ℕ → Bool) (data : ℕ → BitVec 64)
    (i line : ℕ) (pre : List CollectData) : Prop :=
  ∀ k < (differing sha256 data pre i).length, kzalloc (line + k) = true

/-- Every item that the loop comes to has its slot where its name was stored last. -/
def ItemsInPlace (sha256 : List UInt8 → Digest) (kzalloc : ℕ → Bool) (names : List (Option Text))
    (data : ℕ → BitVec 64) (i line : ℕ) (list : List CollectData) : Prop :=
  ∀ pre cd post name, list = pre ++ cd :: post → cd.name = some name →
    Reached sha256 kzalloc data i line pre → OwnsLast names (i + namedCount pre) name

/-- The rounds that meet the baseline item by item.  The first round always does. -/
def InPlace (sha256 : List UInt8 → Digest) (life : Life) (round : Round) : Prop :=
  life.status.initTag = true → round.allocs.arrays = true →
    ItemsInPlace sha256 round.allocs.line (slotNames life.initial) life.status.data 0 0 round.list

section ItemsInPlace

variable {kzalloc : ℕ → Bool} {names : List (Option Text)} {data : ℕ → BitVec 64} {i line : ℕ}

theorem itemsInPlace_nil : ItemsInPlace sha256 kzalloc names data i line [] := by
  intro pre cd post name hlist
  simp at hlist

theorem itemsInPlace_unnamed {value : CollectValue} :
    ItemsInPlace sha256 kzalloc names data i line (⟨none, value⟩ :: list) ↔
      ItemsInPlace sha256 kzalloc names data i line list := by
  constructor
  · intro hall pre cd post name hlist hname hreached
    exact hall (⟨none, value⟩ :: pre) cd post name (by rw [hlist]; rfl) hname hreached
  · intro hall pre cd post name hlist hname hreached
    cases pre with
    | nil =>
        obtain ⟨rfl, _⟩ := List.cons_eq_cons.mp hlist
        simp at hname
    | cons head pre =>
        obtain ⟨rfl, htail⟩ := List.cons_eq_cons.mp hlist
        exact hall pre cd post name htail hname hreached

theorem reached_named {name : Text} {value : CollectValue} {pre : List CollectData} :
    Reached sha256 kzalloc data i line (⟨some name, value⟩ :: pre) ↔
      if measureValue sha256 value ≠ data i then
        kzalloc line = true ∧ Reached sha256 kzalloc
          (Function.update data i (measureValue sha256 value)) (i + 1) (line + 1) pre
      else Reached sha256 kzalloc data (i + 1) line pre := by
  have hlater : ∀ j, i + 1 ≤ j →
      Function.update data i (measureValue sha256 value) j = data j := by
    intro j hj
    exact Function.update_of_ne (Nat.ne_of_gt hj) _ _
  unfold Reached
  rw [differing_named]
  split
  · rw [differing_congr hlater, List.length_cons, Nat.forall_lt_succ_left, Nat.add_zero]
    refine and_congr_right fun _ => forall₂_congr fun k _ => ?_
    rw [Nat.add_right_comm, Nat.add_assoc]
  · rfl

theorem itemsInPlace_named {name : Text} {value : CollectValue} :
    ItemsInPlace sha256 kzalloc names data i line (⟨some name, value⟩ :: list) ↔
      OwnsLast names i name ∧
        if measureValue sha256 value ≠ data i then
          kzalloc line = true → ItemsInPlace sha256 kzalloc names
            (Function.update data i (measureValue sha256 value)) (i + 1) (line + 1) list
        else ItemsInPlace sha256 kzalloc names data (i + 1) line list := by
  have hcount : ∀ pre, i + namedCount (⟨some name, value⟩ :: pre) = i + 1 + namedCount pre := by
    intro pre
    simp [namedCount]
    omega
  constructor
  · intro hall
    refine ⟨hall [] ⟨some name, value⟩ list name rfl rfl (fun k hk => absurd hk (by simp)), ?_⟩
    split
    · rename_i hdiffers
      intro halloc pre cd post name' hlist hname hreached
      rw [← hcount]
      refine hall (⟨some name, value⟩ :: pre) cd post name' (by rw [hlist]; rfl) hname ?_
      rw [reached_named, if_pos hdiffers]
      exact ⟨halloc, hreached⟩
    · rename_i hsame
      intro pre cd post name' hlist hname hreached
      rw [← hcount]
      refine hall (⟨some name, value⟩ :: pre) cd post name' (by rw [hlist]; rfl) hname ?_
      rw [reached_named, if_neg hsame]
      exact hreached
  · intro hall pre cd post name' hlist hname hreached
    obtain ⟨hfirst, hrest⟩ := hall
    cases pre with
    | nil =>
        obtain ⟨rfl, _⟩ := List.cons_eq_cons.mp hlist
        obtain rfl := Option.some.inj hname
        exact hfirst
    | cons head pre =>
        obtain ⟨rfl, htail⟩ := List.cons_eq_cons.mp hlist
        rw [reached_named] at hreached
        rw [hcount]
        split at hrest
        · rename_i hdiffers
          rw [if_pos hdiffers] at hreached
          exact hrest hreached.1 pre cd post name' htail hname hreached.2
        · rename_i hsame
          rw [if_neg hsame] at hreached
          exact hrest pre cd post name' htail hname hreached

end ItemsInPlace

/-! ## The invariant -/

/-- The array is as long as the first list has names, and a slot is current for a name exactly
if it was the last to be filled under it. -/
structure SlotsInv (names : List (Option Text)) (life : Life) : Prop where
  len : life.status.len = names.length
  current_iff : ∀ i name, life.ledger.Current i name ↔ OwnsLast names i name

@[simp] theorem status_access (life : Life) (access : Access) :
    (life.access access).status = life.status := by cases access <;> rfl

@[simp] theorem initial_access (life : Life) (access : Access) :
    (life.access access).initial = life.initial := by cases access <;> rfl

theorem frame_foldl_access (accesses : List Access) (life : Life) :
    (accesses.foldl Life.access life).status = life.status ∧
      (accesses.foldl Life.access life).initial = life.initial := by
  induction accesses generalizing life with
  | nil => exact ⟨rfl, rfl⟩
  | cons access accesses ih =>
      rw [List.foldl_cons, (ih _).1, (ih _).2, status_access, initial_access]
      exact ⟨rfl, rfl⟩

/-- What was accessed stays in the log. -/
theorem good_of_foldl_access {accesses : List Access} {life : Life}
    (hgood : (accesses.foldl Life.access life).Good) : life.Good := by
  induction accesses generalizing life with
  | nil => exact hgood
  | cons access accesses ih =>
      intro check hcheck
      apply ih hgood
      cases access <;> exact List.mem_append_left _ hcheck

theorem good_compare_iff {life : Life} {i : ℕ} {name : Text} :
    (life.access (.compare i name)).Good ↔
      life.Good ∧ i < life.status.len ∧ life.ledger.Current i name := by
  simp [Life.Good, Life.access, Check.Good, Ledger.Current, or_imp, forall_and]

theorem good_write_iff {life : Life} {i : ℕ} {name : Text} {value : BitVec 64} :
    (life.access (.write i name value)).Good ↔ life.Good ∧ i < life.status.len := by
  simp [Life.Good, Life.access, Check.Good, or_imp, forall_and]

section Rounds

variable {names : List (Option Text)} {life : Life}

/-- A comparison is good exactly if the slot is the name's own. -/
theorem SlotsInv.compare (hinv : SlotsInv names life) (i : ℕ) (name : Text) :
    SlotsInv names (life.access (.compare i name)) ∧
      ((life.access (.compare i name)).Good ↔ life.Good ∧ OwnsLast names i name) := by
  refine ⟨⟨hinv.len, hinv.current_iff⟩, good_compare_iff.trans (and_congr_right fun _ => ?_)⟩
  rw [hinv.len, hinv.current_iff]
  exact and_iff_right_of_imp OwnsLast.lt_length

/-- A write to the name's own slot keeps every slot current that was. -/
theorem SlotsInv.write (hinv : SlotsInv names life) {i : ℕ} {name : Text}
    (howns : OwnsLast names i name) (value : BitVec 64) :
    SlotsInv names (life.access (.write i name value)) ∧
      ((life.access (.write i name value)).Good ↔ life.Good) := by
  refine ⟨⟨hinv.len, fun j other => ?_⟩, good_write_iff.trans (and_iff_left ?_)⟩
  · refine (Ledger.current_record _).trans ?_
    rw [hinv.current_iff]
    constructor
    · intro hcases
      rcases hcases with ⟨rfl, rfl⟩ | ⟨_, _, hother⟩
      · exact howns
      · exact hother
    · intro hother
      by_cases hj : j = i
      · subst hj
        exact .inl ⟨rfl, hother.key_unique howns⟩
      · refine .inr ⟨hj, fun hname => hj ?_, hother⟩
        exact hother.index_unique (hname ▸ howns)
  · rw [hinv.len]
    exact howns.lt_length

/-- **The loop of a later round.**  Its accesses are good exactly if the items are in place, and
then the slots are as before. -/
theorem SlotsInv.normal (hinv : SlotsInv names life) (sha256 : List UInt8 → Digest)
    (kzalloc : ℕ → Bool) (list : List CollectData) (i : ℕ) (data : ℕ → BitVec 64) (line : ℕ) :
    (((normalAccesses sha256 kzalloc list i data line).foldl Life.access life).Good ↔
        life.Good ∧ ItemsInPlace sha256 kzalloc names data i line list) ∧
      (ItemsInPlace sha256 kzalloc names data i line list →
        SlotsInv names
          ((normalAccesses sha256 kzalloc list i data line).foldl Life.access life)) := by
  induction list generalizing life i data line with
  | nil => exact ⟨(and_iff_left itemsInPlace_nil).symm, fun _ => hinv⟩
  | cons item rest ih =>
      obtain ⟨name, value⟩ := item
      cases name with
      | none =>
          rw [itemsInPlace_unnamed]
          exact ih hinv i data line
      | some name =>
          obtain ⟨hcompare, hgood⟩ := hinv.compare i name
          rw [itemsInPlace_named]
          simp only [normalAccesses, List.foldl_cons]
          by_cases howns : OwnsLast names i name
          · rw [and_iff_left howns] at hgood
            rw [and_iff_right howns]
            split
            · split
              · -- the new value goes to the slot it was compared with
                rename_i halloc
                rw [imp_iff_right halloc, List.foldl_cons]
                obtain ⟨hwrite, hsame⟩ := hcompare.write howns (measureValue sha256 value)
                obtain ⟨hiff, hkeep⟩ := ih hwrite (i + 1)
                  (Function.update data i (measureValue sha256 value)) (line + 1)
                exact ⟨by rw [hiff, hsame, hgood], hkeep⟩
              · rename_i halloc
                exact ⟨by simp [halloc, hgood], fun _ => hcompare⟩
            · obtain ⟨hiff, hkeep⟩ := ih hcompare (i + 1) data line
              exact ⟨by rw [hiff, hgood], hkeep⟩
          · refine ⟨iff_of_false (fun hlast => ?_) fun hall => howns hall.2.1,
              fun hall => absurd hall.1 howns⟩
            exact howns (hgood.mp (good_of_foldl_access hlast)).2

/-- The loop of the first round fills the slots in the order of the names. -/
theorem initAccesses_spec (sha256 : List UInt8 → Digest) (list : List CollectData) (i : ℕ)
    (life : Life) (hgood : life.Good) (hlen : i + namedCount list ≤ life.status.len) :
    ((initAccesses sha256 list i).foldl Life.access life).Good ∧
      ((initAccesses sha256 list i).foldl Life.access life).ledger =
        Ledger.recordList (slotNames list) i life.ledger := by
  induction list generalizing life i with
  | nil => exact ⟨hgood, rfl⟩
  | cons item rest ih =>
      obtain ⟨name, value⟩ := item
      cases name with
      | none => exact ih i life hgood hlen
      | some name =>
          have hcount : namedCount (⟨some name, value⟩ :: rest) = namedCount rest + 1 := by
            simp [namedCount]
          rw [hcount] at hlen
          have hwrite : ∀ measure, (life.access (.write i name measure)).Good := fun measure =>
            good_write_iff.mpr ⟨hgood, by omega⟩
          have hlen' : i + 1 + namedCount rest ≤ life.status.len := by omega
          cases value with
          | other => exact ih (i + 1) life hgood hlen'
          | int value => exact ih (i + 1) _ (hwrite _) hlen'
          | region bytes => exact ih (i + 1) _ (hwrite _) hlen'

/-- The invariant of a life: every access was good, and a baseline has its slots in place. -/
structure LifeInv (life : Life) : Prop where
  good : life.Good
  empty : life.status.initTag = false → life.ledger = .empty
  slots : life.status.initTag = true → SlotsInv (slotNames life.initial) life

theorem LifeInit.lifeInv (hinit : LifeInit life) : LifeInv life where
  good := by simp [Life.Good, hinit.checks]
  empty _ := hinit.ledger
  slots htag := by simp [hinit.initTag] at htag

/-- A later round leaves the length, the tag and the first list alone. -/
theorem normal_status (sha256 : List UInt8 → Digest) (list : List CollectData)
    (status : SaveCheckData) (eventType : BitVec 32) (allocs : NormalAllocs)
    (timestamp : Option (CString timeStrMaxLen)) :
    (analyzeSaveCheckNormal sha256 list status eventType allocs timestamp).2.1.len = status.len ∧
      (analyzeSaveCheckNormal sha256 list status eventType allocs timestamp).2.1.initTag =
        status.initTag := by
  unfold analyzeSaveCheckNormal
  split
  · dsimp only
    split
    · split
      · exact ⟨rfl, rfl⟩
      · split <;> exact ⟨rfl, rfl⟩
    · exact ⟨rfl, rfl⟩
  · exact ⟨rfl, rfl⟩

theorem length_slotNames (list : List CollectData) :
    (slotNames list).length = namedCount list := by
  rw [slotNames, List.length_map, namedItems, namedCount, List.countP_eq_length_filter]

/-- The first round, when the array can be allocated. -/
theorem LifeInv.initialise (hinv : LifeInv life) (htag : life.status.initTag = false)
    (sha256 : List UInt8 → Digest) (list : List CollectData) (status : SaveCheckData)
    (hlen : status.len = namedCount list) (hinit : status.initTag = true) :
    LifeInv ((initAccesses sha256 list 0).foldl Life.access
      { life with status := status, initial := list }) := by
  obtain ⟨hgood, hledger⟩ := initAccesses_spec sha256 list 0
    { life with status := status, initial := list } hinv.good (by simp [hlen])
  obtain ⟨hstatus, hinitial⟩ := frame_foldl_access (initAccesses sha256 list 0)
    { life with status := status, initial := list }
  refine ⟨hgood, fun hcontra => ?_, fun _ => ⟨?_, fun i name => ?_⟩⟩
  · rw [hstatus, hinit] at hcontra
    simp at hcontra
  · rw [hstatus, hinitial, length_slotNames, hlen]
  · rw [hledger, hinitial, hinv.empty htag,
      Ledger.current_recordList fun _ _ => rfl]
    simp

/-- A later round. -/
theorem LifeInv.later (hinv : LifeInv life) (htag : life.status.initTag = true)
    {round : Round} (harrays : round.allocs.arrays = true) {status : SaveCheckData}
    (hlen : status.len = life.status.len) (hinit : status.initTag = true) :
    let life' := (normalAccesses sha256 round.allocs.line round.list 0 life.status.data 0).foldl
      Life.access { life with status := status }
    (life'.Good ↔ InPlace sha256 life round) ∧ (InPlace sha256 life round → LifeInv life') := by
  have hslots := hinv.slots htag
  have hbase : SlotsInv (slotNames life.initial) { life with status := status } :=
    ⟨hlen.trans hslots.len, hslots.current_iff⟩
  obtain ⟨hiff, hkeep⟩ := hbase.normal sha256 round.allocs.line round.list 0 life.status.data 0
  obtain ⟨hstatus, hinitial⟩ := frame_foldl_access
    (normalAccesses sha256 round.allocs.line round.list 0 life.status.data 0)
    { life with status := status }
  have hplace : InPlace sha256 life round ↔ ItemsInPlace sha256 round.allocs.line
      (slotNames life.initial) life.status.data 0 0 round.list := by
    rw [InPlace, imp_iff_right htag, imp_iff_right harrays]
  rw [hplace]
  refine ⟨hiff.trans (and_iff_right hinv.good), fun hitems => ⟨?_, fun hcontra => ?_, fun _ => ?_⟩⟩
  · exact hiff.mpr ⟨hinv.good, hitems⟩
  · rw [hstatus, hinit] at hcontra
    simp at hcontra
  · rw [hinitial]
    exact hkeep hitems

/-- **One round.**  It is good exactly if it meets the baseline item by item, and then the
invariant holds again. -/
theorem LifeInv.round (hinv : LifeInv life) (round : Round) :
    ((life.round sha256 round).Good ↔ InPlace sha256 life round) ∧
      (InPlace sha256 life round → LifeInv (life.round sha256 round)) := by
  unfold Life.round Round.accesses analyzeSaveCheck
  cases htag : life.status.initTag with
  | true =>
      obtain ⟨hlen, hinit⟩ := normal_status sha256 round.list life.status round.eventType
        round.allocs round.timestamp
      rw [htag] at hinit
      cases harrays : round.allocs.arrays with
      | true => exact hinv.later htag harrays hlen hinit
      | false =>
          -- nothing is compared
          have hplace : InPlace sha256 life round := fun _ hcontra => by simp [harrays] at hcontra
          have hslots := hinv.slots htag
          refine ⟨iff_of_true hinv.good hplace,
            fun _ => ⟨hinv.good, fun hcontra => ?_, fun _ => ?_⟩⟩
          · simp [hinit] at hcontra
          · exact ⟨hlen.trans hslots.len, hslots.current_iff⟩
  | false =>
      have hplace : InPlace sha256 life round := fun hcontra => by simp [htag] at hcontra
      cases hfresh : round.fresh with
      | none =>
          refine ⟨iff_of_true hinv.good hplace, fun _ => ⟨hinv.good, hinv.empty, fun hcontra => ?_⟩⟩
          exact absurd (htag.symm.trans hcontra) Bool.false_ne_true
      | some data =>
          have hinv' := hinv.initialise htag sha256 round.list
            (analyzeSaveCheckInit sha256 round.list (some data) life.status).2 rfl rfl
          exact ⟨iff_of_true hinv'.good hplace, fun _ => hinv'⟩

end Rounds

/-- **When save-check compares each item with its own baseline.**  All accesses of a life are
inside the array and find the last record of their name exactly if every round after the
first successful one meets the baseline item by item. -/
theorem life_good_iff {rounds : List Round} {life : Life} :
    Run (roundStep sha256) (InPlace sha256) LifeInit rounds life ↔
      Run (roundStep sha256) (Leads (roundStep sha256) Life.Good) LifeInit rounds life := by
  refine Run.leads_iff (fun _ hinit => hinit.lifeInv) (fun s a t hinv hok hstep => ?_)
    (fun _ hinv => hinv.good) (fun s a t hinv hstep hgood => ?_)
  · obtain rfl := Option.some.inj hstep
    exact (hinv.round a).2 hok
  · obtain rfl := Option.some.inj hstep
    exact (hinv.round a).1.mp hgood

/-! ## Prefixes

With memory for everything the condition says that the names of a later round are the
first names of the first one. -/

theorem ownsLast_map_some_iff {names : List Text} (hnodup : names.Nodup) {i : ℕ} {name : Text} :
    OwnsLast (names.map some) i name ↔ names[i]? = some name := by
  unfold OwnsLast
  simp only [List.getElem?_map, Option.map_eq_some_iff, Option.some.injEq, exists_eq_right,
    and_iff_left_iff_imp, ne_eq]
  intro hi j hij hj
  have hlt := (List.getElem?_eq_some_iff.mp hi).1
  exact absurd ((List.getElem?_inj hlt hnodup).mp (hi.trans hj.symm)) (Nat.ne_of_lt hij)

theorem itemsInPlace_iff_prefix {kzalloc : ℕ → Bool} {names : List Text} (hnodup : names.Nodup)
    (halloc : ∀ k, kzalloc k = true) (data : ℕ → BitVec 64) (i line : ℕ) :
    ItemsInPlace sha256 kzalloc (names.map some) data i line list ↔
      itemNames list <+: names.drop i := by
  induction list generalizing data i line with
  | nil => exact iff_of_true itemsInPlace_nil List.nil_prefix
  | cons item rest ih =>
      obtain ⟨name, value⟩ := item
      cases name with
      | none =>
          rw [itemsInPlace_unnamed]
          exact ih data i line
      | some name =>
          have hnames : itemNames (⟨some name, value⟩ :: rest) = name :: itemNames rest := rfl
          rw [itemsInPlace_named, ownsLast_map_some_iff hnodup, imp_iff_right (halloc line), ih, ih,
            ite_self, hnames]
          rcases Nat.lt_or_ge i names.length with hlt | hge
          · rw [List.drop_eq_getElem_cons hlt, List.cons_prefix_cons, List.getElem?_eq_getElem hlt,
              Option.some.injEq, eq_comm]
          · -- there is no slot left
            rw [List.drop_eq_nil_of_le hge, List.getElem?_eq_none hge]
            simp

/-- Whole items fill their slots. -/
theorem slotNames_eq (hlist : WellCollected list) :
    slotNames list = (itemNames list).map some := by
  induction list with
  | nil => rfl
  | cons item rest ih =>
      obtain ⟨name, value⟩ := item
      obtain ⟨⟨hname, hvalue⟩, hrest⟩ := List.forall_mem_cons.mp hlist
      obtain ⟨text, rfl⟩ := Option.isSome_iff_exists.mp hname
      have hcons : itemNames (⟨some text, value⟩ :: rest) = text :: itemNames rest := rfl
      rw [hcons, List.map_cons, ← ih hrest]
      cases value with
      | other => exact absurd rfl hvalue
      | int value => rfl
      | region bytes => rfl

/-- The rounds that meet the baseline item by item, when nothing fails in them. -/
theorem inPlace_iff_prefix {life : Life} {round : Round} (htag : life.status.initTag = true)
    (hvalues : WellCollected life.initial) (hnodup : (itemNames life.initial).Nodup)
    (harrays : round.allocs.arrays = true) (hline : ∀ k, round.allocs.line k = true) :
    InPlace sha256 life round ↔ itemNames round.list <+: itemNames life.initial := by
  rw [InPlace, imp_iff_right htag, imp_iff_right harrays, slotNames_eq hvalues,
    itemsInPlace_iff_prefix hnodup hline, List.drop_zero]

/-- For the function switches nothing more has to be asked of the first round. -/
theorem inPlace_switches_iff {arch : Arch} {registers : Registers} {allocs : Fin 4 → CollectAllocs}
    {life : Life} {round : Round} (htag : life.status.initTag = true)
    (hinitial : life.initial = collectFunctionSwitch arch registers allocs [])
    (harrays : round.allocs.arrays = true) (hline : ∀ k, round.allocs.line k = true) :
    InPlace sha256 life round ↔ itemNames round.list <+: itemNames life.initial := by
  refine inPlace_iff_prefix htag ?_ ?_ harrays hline
  · rw [hinitial]
    exact wellCollected_collectFunctionSwitch arch registers allocs (by simp [WellCollected])
  · rw [hinitial]
    exact (nodup_switchNames arch).sublist
      (itemNames_collectFunctionSwitch_sublist arch registers allocs)

/-! ## A missing item

The first item cannot be allocated in the first round; the second round is complete. -/

def allocated : CollectAllocs := ⟨true, true⟩

def protectedRegisters : Registers := ⟨x86Cr0Wp, x86Cr4Smep ||| x86Cr4Smap, 0⟩

/-- A round over the switches, when the item of `SMEP` is allocated or not. -/
def switchRound (smep : Bool) : Round where
  list := collectFunctionSwitch .x86_64 protectedRegisters
    (fun i => if i = 0 then ⟨smep, true⟩ else allocated) []
  eventType := 0
  fresh := some fun _ => 0
  allocs := ⟨true, fun _ => true, true⟩
  timestamp := none

/-- The switches before their first round. -/
def freshLife : Life := ⟨⟨fun _ => 0, 0, false⟩, [], .empty, []⟩

/-- The accesses of a life can leave the array. -/
theorem not_life_good :
    ¬ ∀ (sha256 : List UInt8 → Digest) (rounds : List Round) (life : Life),
      Run (roundStep sha256) Unguarded LifeInit rounds life → life.Good := by
  intro hclaim
  have hrun : Run (roundStep fun _ _ => 0) Unguarded LifeInit
      [switchRound false, switchRound true] _ :=
    .of_exec ⟨rfl, rfl, rfl⟩ (fun _ _ _ => trivial) (rfl : exec _ freshLife _ = _)
  have hlast : Check.compare 2 2 none (some 1) ∈
      ((freshLife.round (fun _ _ => 0) (switchRound false)).round (fun _ _ => 0)
        (switchRound true)).checks := by decide
  exact absurd (hclaim _ _ _ hrun _ hlast).1 (by decide)

end SecDetector.Report
