import SecDetector.Block.Rules
import SecDetector.Lib.RcuList
import SecDetector.Lib.Run

/-!
# Checks against the rules

`task_bprm_check` and `file_write_check` look for a rule that matches a path, and `proc_write`
adds rules and clears them.  A check takes `rcu_read_lock` only, so it goes through the list
while rules come and go, and what is cleared is freed.

`clear_task_rule_list` and `clear_file_rule_list` hold `rules_mutex` from the first item to the
last, which keeps other writers out, and for each item wait in `synchronize_rcu` before they free
it.  An item is a number, and numbers are not used twice: the memory of a freed item is used for
anything else (`reuse`).

The copy of the input that `proc_write` makes is left out here; what becomes of it is in
`stores_line_iff`.  `glob_match` is the kernel's.
-/

namespace SecDetector.Block

open Lib

def ePerm : ℤ := 1
def bufSize : ℕ := 4096

variable {R : Type*}

/-! ## The system -/

/-- A call of `task_bprm_check` or `file_write_check`. -/
inductive Check where
  | idle
  | looking (path : Text)
  | matched (path : Text)
  | returned (ret : ℤ)

/-- The holder of `rules_mutex`: nobody, or the clear loop at its head, or in `synchronize_rcu`. -/
inductive ClearLoop where
  | idle
  | at (item tmp : Link ℕ)
  | grace (item : ℕ) (tmp : Link ℕ)
  deriving DecidableEq

structure Enforcement (R : Type*) where
  rules : RcuList ℕ R
  /-- `item->rule`, for the items that are allocated. -/
  item : ℕ → Option Text
  fresh : ℕ
  loop : ClearLoop
  checks : R → Check
  reported : List Text

inductive EnforceAct (R : Type*) where
  /-- A check begins; `path` is nothing if the buffer or the path is not to be had. -/
  | check (r : R) (path : Option Text)
  | look (r : R)
  | answer (r : R) (kzalloc : Bool)
  | write (buffer : List UInt8) (env : WriteEnv)
  | clear
  | unlink
  | free
  | reuse (a : ℕ) (entry : ListHead ℕ)

/-- No rules and no checks. -/
def enforceInit (s : Enforcement R) : Prop :=
  s.rules = .init ∧ (∀ a, s.item a = none) ∧ s.loop = .idle ∧ ∀ r, s.checks r = .idle

/-- What is reported of a denied path. -/
def denial : BlockCase → Text → Text
  | .taskBlock, path =>
      ((Text.ascii "[secDetector] ") ++ path ++ Text.ascii " is not allowed to run\n").take
        (bufSize - 1)
  | .fileBlock, path =>
      ((Text.ascii "[secDetector] ") ++ path ++ Text.ascii " is not allowed to overwrite\n").take
        (bufSize - 1)

/-- The rule that a write appends. -/
def ruleOf (buffer : List UInt8) : Text := ((textOf buffer).rstrip isspace).upTo newline

namespace Enforcement

variable [DecidableEq R] (globMatch : Text → Text → Bool) (block : BlockCase) (s : Enforcement R)

def onRules (op : RcuList.Op ℕ R) : Option (Enforcement R) :=
  (s.rules.step op).map fun rules => { s with rules := rules }

/-- The check up to the loop over the rules. -/
def check (r : R) (path : Option Text) : Option (Enforcement R) :=
  match s.checks r with
  | .looking _ | .matched _ => none
  | .idle | .returned _ =>
      match path with
      | none => some { s with checks := Function.update s.checks r (.returned 0) }
      | some path =>
          (s.onRules (.enter r)).map fun s =>
            { s with checks := Function.update s.checks r (.looking path) }

/-- One round of the loop over the rules.  A freed item is a fault. -/
def look (r : R) : Option (Enforcement R) :=
  match s.checks r with
  | .looking path =>
      (s.onRules (.advance r)).bind fun s =>
        if r ∈ s.rules.inside then
          match s.rules.cursor r with
          | .node a =>
              (s.item a).bind fun rule =>
                if globMatch rule path then
                  (s.onRules (.leave r)).map fun s =>
                    { s with checks := Function.update s.checks r (.matched path) }
                else some s
          | _ => none
        else some { s with checks := Function.update s.checks r (.returned 0) }
  | .idle | .matched _ | .returned _ => none

/-- The report and the return; the buffer of the report is not tested for. -/
def answer (r : R) (kzalloc : Bool) : Option (Enforcement R) :=
  match s.checks r with
  | .matched path =>
      if kzalloc then
        some { s with
          reported := s.reported ++ [denial block path]
          checks := Function.update s.checks r (.returned (-ePerm)) }
      else none
  | .idle | .looking _ | .returned _ => none

/-- `mutex_lock`, and the first two items of the clear loop. -/
def clear : Option (Enforcement R) :=
  match s.loop with
  | .idle =>
      let item := s.rules.mem.nextOf .head
      some { s with loop := .at item (s.rules.mem.nextOf item) }
  | .at _ _ | .grace _ _ => none

/-- `list_add_tail_rcu` of a new item, under the mutex. -/
def append (rule : Text) : Option (Enforcement R) :=
  match s.loop with
  | .idle =>
      (s.onRules (.addTail s.fresh)).map fun s' =>
        { s' with item := Function.update s.item s.fresh (some rule), fresh := s.fresh + 1 }
  | .at _ _ | .grace _ _ => none

/-- `proc_write`, up to the clear loop if it clears the list. -/
def write (buffer : List UInt8) (env : WriteEnv) : Option (Enforcement R) :=
  (procWrite block (fun _ => []) buffer env).bind fun result =>
    if (textOf buffer).Blank isspace then s.clear
    else if result.ret < 0 then some s
    else s.append (ruleOf buffer)

/-- The head of the clear loop, and `list_del_rcu`. -/
def unlink : Option (Enforcement R) :=
  match s.loop with
  | .at item tmp =>
      match item with
      | .head => some { s with loop := .idle }
      | .node a => (s.onRules (.remove a)).map fun s => { s with loop := .grace a tmp }
      | .null | .poison => none
  | .idle | .grace _ _ => none

/-- `synchronize_rcu` returns and the item is freed; to free it twice is a fault. -/
def free : Option (Enforcement R) :=
  match s.loop with
  | .grace a tmp =>
      (s.onRules .synced).bind fun s =>
        (s.item a).map fun _ => { s with
          item := Function.update s.item a none
          loop := .at tmp (s.rules.mem.nextOf tmp) }
  | .idle | .at _ _ => none

/-- Memory that was an item is written to. -/
def reuse (a : ℕ) (entry : ListHead ℕ) : Option (Enforcement R) :=
  if s.item a = none then s.onRules (.scribble a entry) else none

end Enforcement

/-- The system. -/
def enforceStep [DecidableEq R] (globMatch : Text → Text → Bool) (block : BlockCase)
    (s : Enforcement R) : EnforceAct R → Option (Enforcement R)
  | .check r path => s.check r path
  | .look r => s.look globMatch r
  | .answer r kzalloc => s.answer block r kzalloc
  | .write buffer env => s.write block buffer env
  | .clear => s.clear
  | .unlink => s.unlink
  | .free => s.free
  | .reuse a entry => s.reuse a entry

/-! ## The invariant -/

section Invariant

variable {globMatch : Text → Text → Bool} {block : BlockCase} {s s' : Enforcement R}
  {r q : R} {a : ℕ} {path : Text}

/-- What the clear loop holds while it is at an item, and while it waits. -/
def ClearLoop.Fits : ClearLoop → RcuList ℕ R → Prop
  | .idle, rules => rules.removing = none
  | .at item tmp, rules =>
      rules.removing = none ∧ item = front rules.list ∧ tmp = front rules.list.tail
  | .grace a tmp, rules => rules.removing = some a ∧ tmp = front rules.list

/-- The allocated items are those on the list and the one that is being removed. -/
structure RulesInv (s : Enforcement R) : Prop where
  rules : s.rules.Inv
  item_iff : ∀ a, s.item a ≠ none ↔ a ∈ s.rules.list ∨ s.rules.removing = some a
  fresh : ∀ a, s.fresh ≤ a → s.item a = none
  loop : s.loop.Fits s.rules

/-- The checks in the loop are the readers, and no rule that they have seen matches. -/
structure CheckInv (globMatch : Text → Text → Bool) (s : Enforcement R) : Prop where
  inside_iff : ∀ r, r ∈ s.rules.inside ↔ ∃ path, s.checks r = .looking path
  seen : ∀ r path, s.checks r = .looking path → ∀ a ∈ s.rules.visited r,
    ∃ rule, s.item a = some rule ∧ globMatch rule path = false

def EnforceInv (globMatch : Text → Text → Bool) (s : Enforcement R) : Prop :=
  RulesInv s ∧ CheckInv globMatch s

theorem enforceInv_of_init (hinit : enforceInit s) : EnforceInv globMatch s := by
  obtain ⟨hrules, hitem, hloop, hchecks⟩ := hinit
  refine ⟨⟨hrules ▸ RcuList.inv_init, fun a => ?_, fun a _ => hitem a, ?_⟩, fun r => ?_,
    fun r => ?_⟩
  · simp [hrules, hitem, RcuList.init]
  · rw [hloop, hrules]
    rfl
  · simp [hrules, hchecks, RcuList.init]
  · simp [hchecks]

/-- The list and the items are as before. -/
theorem RulesInv.congr (hinv : RulesInv s) (hrules : s'.rules.Inv)
    (hlist : s'.rules.list = s.rules.list) (hremoving : s'.rules.removing = s.rules.removing)
    (hitem : s'.item = s.item) (hfresh : s'.fresh = s.fresh) (hloop : s'.loop = s.loop) :
    RulesInv s' := by
  refine ⟨hrules, fun a => ?_, fun a ha => ?_, ?_⟩
  · rw [hitem, hlist, hremoving]
    exact hinv.item_iff a
  · rw [hitem]
    exact hinv.fresh a (hfresh ▸ ha)
  · rw [hloop]
    have hfits := hinv.loop
    cases hl : s.loop with
    | idle =>
        rw [hl] at hfits
        exact hremoving.trans hfits
    | «at» item tmp =>
        rw [hl] at hfits
        obtain ⟨hquiet, hitem, htmp⟩ := hfits
        exact ⟨hremoving.trans hquiet, hlist ▸ hitem, hlist ▸ htmp⟩
    | grace a tmp =>
        rw [hl] at hfits
        exact ⟨hremoving.trans hfits.1, hlist ▸ hfits.2⟩

/-- The readers are as before, and the items that they have seen. -/
theorem CheckInv.congr (hinv : CheckInv globMatch s) (hinside : s'.rules.inside = s.rules.inside)
    (hvisited : s'.rules.visited = s.rules.visited) (hchecks : s'.checks = s.checks)
    (hitem : ∀ r ∈ s.rules.inside, ∀ a ∈ s.rules.visited r, s'.item a = s.item a) :
    CheckInv globMatch s' := by
  refine ⟨fun r => ?_, fun r path hr a ha => ?_⟩
  · rw [hinside, hchecks]
    exact hinv.inside_iff r
  · rw [hchecks] at hr
    rw [hvisited] at ha
    rw [hitem r ((hinv.inside_iff r).mpr ⟨path, hr⟩) a ha]
    exact hinv.seen r path hr a ha

theorem RulesInv.removing_eq_none (hinv : RulesInv s) (hloop : s.loop = .idle) :
    s.rules.removing = none := by
  have hfits := hinv.loop
  rwa [hloop] at hfits

/-- A check goes on in another state than before; the other checks do not notice. -/
theorem CheckInv.update [DecidableEq R] {rules : RcuList ℕ R} {now : Check}
    (hinv : CheckInv globMatch s)
    (hothers : ∀ q ≠ r, (q ∈ rules.inside ↔ q ∈ s.rules.inside) ∧
      rules.visited q = s.rules.visited q)
    (hinside : r ∈ rules.inside ↔ ∃ path, now = .looking path)
    (hseen : ∀ path, now = .looking path → ∀ a ∈ rules.visited r,
      ∃ rule, s.item a = some rule ∧ globMatch rule path = false) :
    CheckInv globMatch { s with rules := rules, checks := Function.update s.checks r now } := by
  refine ⟨fun q => ?_, fun q path hq a ha => ?_⟩
  · dsimp only
    by_cases hqr : q = r
    · subst hqr
      rw [Function.update_self]
      exact hinside
    · rw [Function.update_of_ne hqr, (hothers q hqr).1]
      exact hinv.inside_iff q
  · dsimp only at hq ha ⊢
    by_cases hqr : q = r
    · subst hqr
      rw [Function.update_self] at hq
      exact hseen path hq a ha
    · rw [Function.update_of_ne hqr] at hq
      rw [(hothers q hqr).2] at ha
      exact hinv.seen q path hq a ha

end Invariant

/-! ## The checks -/

section Checks

variable [DecidableEq R] {globMatch : Text → Text → Bool} {block : BlockCase}
  {s s' : Enforcement R} {r q : R} {a : ℕ} {path : Text}

theorem Enforcement.onRules_cases {op : RcuList.Op ℕ R} (hstep : s.onRules op = some s') :
    ∃ rules, s.rules.step op = some rules ∧ s' = { s with rules := rules } := by
  obtain ⟨rules, hrules, rfl⟩ := Option.map_eq_some_iff.mp hstep
  exact ⟨rules, hrules, rfl⟩

/-- What the beginning of a check can do. -/
theorem Enforcement.check_cases {path? : Option Text} (hstep : s.check r path? = some s') :
    (∀ path, s.checks r ≠ .looking path) ∧ (∀ path, s.checks r ≠ .matched path) ∧
      ((path? = none ∧
        s' = { s with checks := Function.update s.checks r (.returned 0) }) ∨
      ∃ path rules, path? = some path ∧ s.rules.enter r = some rules ∧
        s' = { s with rules := rules, checks := Function.update s.checks r (.looking path) }) := by
  unfold Enforcement.check at hstep
  cases hcheck : s.checks r with
  | looking path | matched path =>
      rw [hcheck] at hstep
      cases hstep
  | idle | returned ret =>
      rw [hcheck] at hstep
      refine ⟨by simp, by simp, ?_⟩
      cases path? with
      | none => exact .inl ⟨rfl, (Option.some.inj hstep).symm⟩
      | some path =>
          obtain ⟨s₁, honrules, rfl⟩ := Option.map_eq_some_iff.mp hstep
          obtain ⟨rules, henter, rfl⟩ := onRules_cases honrules
          exact .inr ⟨path, rules, rfl, henter, rfl⟩

theorem EnforceInv.check (hinv : EnforceInv globMatch s) {path? : Option Text}
    (hstep : s.check r path? = some s') : EnforceInv globMatch s' := by
  obtain ⟨hrules, hchecks⟩ := hinv
  obtain ⟨hlooking, _, ⟨_, rfl⟩ | ⟨path, rules, _, henter, rfl⟩⟩ := Enforcement.check_cases hstep
  · refine ⟨hrules.congr hrules.rules rfl rfl rfl rfl rfl,
      hchecks.update (fun q _ => ⟨Iff.rfl, rfl⟩) ?_ fun _ h => by cases h⟩
    rw [hchecks.inside_iff]
    simp [hlooking]
  · have hinv' := hrules.rules.enter henter
    obtain ⟨_, rfl⟩ := RcuList.enter_cases henter
    refine ⟨hrules.congr hinv' rfl rfl rfl rfl rfl, hchecks.update (fun q hq => ?_) ?_ ?_⟩
    · simp [hq]
    · simp
    · simp

/-- **A round of a check**: it has been at all that stays on the list, or the next rule is
there, and either ends the loop or does not match. -/
theorem EnforceInv.look_cases (hinv : EnforceInv globMatch s)
    (hlooking : s.checks r = .looking path) :
    (s.look globMatch r = some { s with
        rules := s.rules.leave r, checks := Function.update s.checks r (.returned 0) } ∧
      (s.rules.stays r).Sublist (s.rules.visited r)) ∨
    ∃ a rule rest, s.rules.Reading r (a :: rest) ∧ s.item a = some rule ∧
      let rules : RcuList ℕ R := { s.rules with
        cursor := Function.update s.rules.cursor r (.node a)
        visited := Function.update s.rules.visited r (s.rules.visited r ++ [a]) }
      s.rules.advance r = some rules ∧
      s.look globMatch r = some (if globMatch rule path then
        { s with rules := rules.leave r, checks := Function.update s.checks r (.matched path) }
      else { s with rules := rules }) := by
  obtain ⟨hrules, hchecks⟩ := hinv
  have hr : r ∈ s.rules.inside := (hchecks.inside_iff r).mpr ⟨path, hlooking⟩
  rcases hrules.rules.advance_cases hr with ⟨_, hleave, hstays⟩ | ⟨a, rest, hreading, _, hmove⟩
  · have hout : r ∉ (s.rules.leave r).inside := hrules.rules.inside_nodup.not_mem_erase
    refine .inl ⟨?_, hstays⟩
    simp only [Enforcement.look, hlooking, Enforcement.onRules, RcuList.step, hleave,
      Option.map_some, Option.bind_some, hout, if_false]
  · have hlist : a ∈ s.rules.list := hreading.ahead.suffix.mem List.mem_cons_self
    obtain ⟨rule, hrule⟩ := Option.ne_none_iff_exists'.mp ((hrules.item_iff a).mpr (.inl hlist))
    refine .inr ⟨a, rule, rest, hreading, hrule, hmove, ?_⟩
    simp only [Enforcement.look, hlooking, Enforcement.onRules, RcuList.step, hmove,
      Option.map_some, Option.bind_some, hr, if_true, Function.update_self, hrule]
    split
    · rfl
    · rfl

theorem EnforceInv.look (hinv : EnforceInv globMatch s) (hstep : s.look globMatch r = some s') :
    EnforceInv globMatch s' := by
  cases hcheck : s.checks r with
  | idle | matched path | returned ret =>
      rw [Enforcement.look, hcheck] at hstep
      cases hstep
  | looking path =>
      have hcases := hinv.look_cases hcheck
      obtain ⟨hrules, hchecks⟩ := hinv
      have hr : r ∈ s.rules.inside := (hchecks.inside_iff r).mpr ⟨path, hcheck⟩
      have herase : ∀ q ≠ r, (q ∈ s.rules.inside.erase r ↔ q ∈ s.rules.inside) := fun q hq =>
        List.mem_erase_of_ne hq
      have hout : r ∉ s.rules.inside.erase r := hrules.rules.inside_nodup.not_mem_erase
      rcases hcases with ⟨heq, _⟩ | ⟨a, rule, rest, hreading, hrule, hmove, heq⟩
      · obtain rfl := Option.some.inj (heq.symm.trans hstep)
        refine ⟨hrules.congr (hrules.rules.leave r) rfl rfl rfl rfl rfl,
          hchecks.update (fun q hq => ⟨herase q hq, rfl⟩) ?_ fun _ h => by cases h⟩
        simp [RcuList.leave, hout]
      · obtain rfl := Option.some.inj (heq.symm.trans hstep)
        have hinv' := hrules.rules.advance hmove
        split
        · refine ⟨hrules.congr (hinv'.leave r) rfl rfl rfl rfl rfl,
            hchecks.update (fun q hq => ⟨herase q hq, ?_⟩) ?_ fun _ h => by cases h⟩
          · exact Function.update_of_ne hq _ _
          · simp [RcuList.leave, hout]
        · rename_i hmatch
          refine ⟨hrules.congr hinv' rfl rfl rfl rfl rfl, fun q => hchecks.inside_iff q,
            fun q path' hq b hb => ?_⟩
          by_cases hqr : q = r
          · subst hqr
            obtain rfl : path = path' := by simpa [hcheck] using hq
            simp only [Function.update_self, List.mem_append, List.mem_singleton] at hb
            rcases hb with hb | rfl
            · exact hchecks.seen q path hq b hb
            · exact ⟨rule, hrule, by simpa using hmatch⟩
          · simp only [Function.update_of_ne hqr] at hb
            exact hchecks.seen q path' hq b hb

theorem Enforcement.answer_cases {kzalloc : Bool} (hstep : s.answer block r kzalloc = some s') :
    ∃ path, s.checks r = .matched path ∧ kzalloc = true ∧ s' = { s with
      reported := s.reported ++ [denial block path]
      checks := Function.update s.checks r (.returned (-ePerm)) } := by
  unfold Enforcement.answer at hstep
  cases hcheck : s.checks r with
  | idle | looking path | returned ret =>
      rw [hcheck] at hstep
      cases hstep
  | matched path =>
      rw [hcheck] at hstep
      obtain ⟨halloc, hstep⟩ := Option.ite_none_right_eq_some.mp hstep
      exact ⟨path, rfl, halloc, (Option.some.inj hstep).symm⟩

/-- The report is written exactly if there is a buffer for it. -/
theorem Enforcement.answer_iff (hmatched : s.checks r = .matched path) {kzalloc : Bool} :
    (∃ s', s.answer block r kzalloc = some s') ↔ kzalloc = true := by
  refine ⟨fun ⟨s', hstep⟩ => ?_, fun halloc => ?_⟩
  · obtain ⟨_, _, halloc, _⟩ := answer_cases hstep
    exact halloc
  · rw [Enforcement.answer, hmatched, halloc]
    exact ⟨_, rfl⟩

theorem EnforceInv.answer (hinv : EnforceInv globMatch s) {kzalloc : Bool}
    (hstep : s.answer block r kzalloc = some s') : EnforceInv globMatch s' := by
  obtain ⟨hrules, hchecks⟩ := hinv
  obtain ⟨path, hcheck, _, rfl⟩ := Enforcement.answer_cases hstep
  refine ⟨hrules.congr hrules.rules rfl rfl rfl rfl rfl, ?_⟩
  have hout : r ∉ s.rules.inside := by
    rw [hchecks.inside_iff, hcheck]
    simp
  have hinside : r ∈ s.rules.inside ↔ ∃ path, Check.returned (-ePerm) = .looking path := by
    simp [hout]
  exact (hchecks.update (fun q _ => ⟨Iff.rfl, rfl⟩) hinside fun _ h => by cases h).congr
    rfl rfl rfl fun _ _ _ _ => rfl

end Checks

/-! ## The writers -/

section Writers

variable {globMatch : Text → Text → Bool} {block : BlockCase} {s s' : Enforcement R} {a : ℕ}

/-- What a check has seen is allocated. -/
theorem CheckInv.item_ne_none (hinv : CheckInv globMatch s) {r : R} (hr : r ∈ s.rules.inside)
    (ha : a ∈ s.rules.visited r) : s.item a ≠ none := by
  obtain ⟨path, hpath⟩ := (hinv.inside_iff r).mp hr
  obtain ⟨rule, hrule, _⟩ := hinv.seen r path hpath a ha
  rw [hrule]
  exact Option.some_ne_none rule

theorem Enforcement.clear_cases (hstep : s.clear = some s') :
    s.loop = .idle ∧ let item := s.rules.mem.nextOf .head
      s' = { s with loop := .at item (s.rules.mem.nextOf item) } := by
  unfold Enforcement.clear at hstep
  cases hloop : s.loop with
  | idle =>
      rw [hloop] at hstep
      exact ⟨rfl, (Option.some.inj hstep).symm⟩
  | «at» item tmp | grace item tmp =>
      rw [hloop] at hstep
      cases hstep

theorem EnforceInv.clear (hinv : EnforceInv globMatch s) (hstep : s.clear = some s') :
    EnforceInv globMatch s' := by
  obtain ⟨hrules, hchecks⟩ := hinv
  obtain ⟨hloop, rfl⟩ := Enforcement.clear_cases hstep
  have hhead : s.rules.mem.nextOf .head = front s.rules.list :=
    hrules.rules.chain.next.apply_eq_front
  refine ⟨⟨hrules.rules, hrules.item_iff, hrules.fresh, hrules.removing_eq_none hloop, hhead, ?_⟩,
    hchecks.congr rfl rfl rfl fun _ _ _ _ => rfl⟩
  rw [hhead, hrules.rules.chain.nextOf_front]

theorem Enforcement.unlink_cases [DecidableEq R] (hstep : s.unlink = some s') :
    (∃ tmp, s.loop = .at .head tmp ∧ s' = { s with loop := .idle }) ∨
    ∃ a tmp rules, s.loop = .at (.node a) tmp ∧ s.rules.remove a = some rules ∧
      s' = { s with rules := rules, loop := .grace a tmp } := by
  unfold Enforcement.unlink at hstep
  cases hloop : s.loop with
  | idle | grace item tmp =>
      rw [hloop] at hstep
      cases hstep
  | «at» item tmp =>
      rw [hloop] at hstep
      cases item with
      | null | poison => cases hstep
      | head => exact .inl ⟨tmp, rfl, (Option.some.inj hstep).symm⟩
      | node a =>
          obtain ⟨s₁, honrules, rfl⟩ := Option.map_eq_some_iff.mp hstep
          obtain ⟨rules, hremove, rfl⟩ := onRules_cases honrules
          exact .inr ⟨a, tmp, rules, rfl, hremove, rfl⟩

/-- At an item the clear loop is at the first of the list. -/
theorem RulesInv.list_eq_cons (hinv : RulesInv s) {tmp : Link ℕ}
    (hloop : s.loop = .at (.node a) tmp) :
    ∃ rest, s.rules.list = a :: rest ∧ tmp = front rest ∧ s.rules.removing = none := by
  have hfits := hinv.loop
  rw [hloop] at hfits
  obtain ⟨hquiet, hitem, htmp⟩ := hfits
  cases hlist : s.rules.list with
  | nil =>
      rw [hlist] at hitem
      cases hitem
  | cons b rest =>
      rw [hlist] at hitem htmp
      obtain rfl := Link.node.inj hitem
      exact ⟨rest, rfl, htmp, hquiet⟩

theorem EnforceInv.unlink [DecidableEq R] (hinv : EnforceInv globMatch s)
    (hstep : s.unlink = some s') : EnforceInv globMatch s' := by
  obtain ⟨hrules, hchecks⟩ := hinv
  rcases Enforcement.unlink_cases hstep with
    ⟨tmp, hloop, rfl⟩ | ⟨a, tmp, rules, hloop, hremove, rfl⟩
  · have hfits := hrules.loop
    rw [hloop] at hfits
    exact ⟨⟨hrules.rules, hrules.item_iff, hrules.fresh, hfits.1⟩,
      hchecks.congr rfl rfl rfl fun _ _ _ _ => rfl⟩
  · obtain ⟨rest, hlist, htmp, hquiet⟩ := hrules.list_eq_cons hloop
    obtain ⟨hinv', hlist'⟩ := hrules.rules.remove (hlist ▸ List.mem_cons_self) hremove
    obtain ⟨_, mem, _, rfl⟩ := RcuList.remove_cases hremove
    have herase : s.rules.list.erase a = rest := by rw [hlist, List.erase_cons_head]
    refine ⟨⟨hinv', fun b => ?_, hrules.fresh, rfl, ?_⟩, hchecks.congr rfl rfl rfl
      fun _ _ _ _ => rfl⟩
    · dsimp only
      rw [hrules.item_iff, herase, hlist, hquiet]
      simp [eq_comm, or_comm]
    · rw [htmp]
      exact congrArg front herase.symm

theorem Enforcement.free_cases [DecidableEq R] (hstep : s.free = some s') :
    ∃ a tmp rule, s.loop = .grace a tmp ∧ s.item a = some rule ∧ s.rules.removing ≠ none ∧
      s.rules.waiting = [] ∧ s' = { s with
        rules := { s.rules with removing := none }
        item := Function.update s.item a none
        loop := .at tmp (s.rules.mem.nextOf tmp) } := by
  unfold Enforcement.free at hstep
  cases hloop : s.loop with
  | idle | «at» item tmp =>
      rw [hloop] at hstep
      cases hstep
  | grace a tmp =>
      rw [hloop] at hstep
      obtain ⟨s₁, honrules, hfree⟩ := Option.bind_eq_some_iff.mp hstep
      obtain ⟨rules, hsynced, rfl⟩ := onRules_cases honrules
      obtain ⟨hbusy, hwaiting, rfl⟩ := RcuList.synced_cases hsynced
      obtain ⟨rule, hrule, rfl⟩ := Option.map_eq_some_iff.mp hfree
      exact ⟨a, tmp, rule, rfl, hrule, hbusy, hwaiting, rfl⟩

theorem EnforceInv.free [DecidableEq R] (hinv : EnforceInv globMatch s)
    (hstep : s.free = some s') : EnforceInv globMatch s' := by
  obtain ⟨hrules, hchecks⟩ := hinv
  obtain ⟨a, tmp, rule, hloop, hrule, hbusy, hwaiting, rfl⟩ := Enforcement.free_cases hstep
  have hfits := hrules.loop
  rw [hloop] at hfits
  obtain ⟨hremoving, htmp⟩ := hfits
  have hnot : a ∉ s.rules.list := hrules.rules.removed a hremoving
  have hinv' : ({ s.rules with removing := none } : RcuList ℕ R).Inv :=
    (hrules.rules.synced (if_pos ⟨hbusy, hwaiting⟩)).1
  refine ⟨⟨hinv', fun b => ?_, fun b hb => ?_, rfl, htmp, ?_⟩,
    hchecks.congr rfl rfl rfl fun r hr b hb => ?_⟩
  · dsimp only
    by_cases hba : b = a
    · subst hba
      simp [hnot]
    · rw [Function.update_of_ne hba, hrules.item_iff, hremoving]
      simp [Ne.symm hba]
  · dsimp only
    by_cases hba : b = a
    · rw [hba, Function.update_self]
    · rw [Function.update_of_ne hba]
      exact hrules.fresh b hb
  · dsimp only
    rw [htmp]
    exact hrules.rules.chain.nextOf_front
  · -- no check that has seen the item is still in its loop
    refine Function.update_of_ne ?_ _ _
    rintro rfl
    rcases hrules.rules.held hr hb with hlist | ⟨_, hwait⟩
    · exact hnot hlist
    · rw [hwaiting] at hwait
      cases hwait

theorem EnforceInv.reuse [DecidableEq R] (hinv : EnforceInv globMatch s) {entry : ListHead ℕ}
    (hstep : s.reuse a entry = some s') : EnforceInv globMatch s' := by
  obtain ⟨hrules, hchecks⟩ := hinv
  obtain ⟨hfreed, honrules⟩ := Option.ite_none_right_eq_some.mp hstep
  obtain ⟨rules, hscribble, rfl⟩ := Enforcement.onRules_cases honrules
  obtain rfl := Option.some.inj hscribble
  have hnot := mt (hrules.item_iff a).mpr (not_not_intro hfreed)
  rw [not_or] at hnot
  exact ⟨hrules.congr (hrules.rules.scribble hnot.1 hnot.2 entry) rfl rfl rfl rfl rfl,
    hchecks.congr rfl rfl rfl fun _ _ _ _ => rfl⟩

theorem Enforcement.append_cases [DecidableEq R] {rule : Text} (hstep : s.append rule = some s') :
    s.loop = .idle ∧ ∃ rules, s.rules.addTail s.fresh = some rules ∧ s' = { s with
      rules := rules
      item := Function.update s.item s.fresh (some rule)
      fresh := s.fresh + 1 } := by
  unfold Enforcement.append at hstep
  cases hloop : s.loop with
  | «at» item tmp | grace item tmp =>
      rw [hloop] at hstep
      cases hstep
  | idle =>
      rw [hloop] at hstep
      obtain ⟨s₁, honrules, rfl⟩ := Option.map_eq_some_iff.mp hstep
      obtain ⟨rules, hadd, rfl⟩ := onRules_cases honrules
      exact ⟨rfl, rules, hadd, by rw [hloop]⟩

theorem EnforceInv.append [DecidableEq R] (hinv : EnforceInv globMatch s) {rule : Text}
    (hstep : s.append rule = some s') : EnforceInv globMatch s' := by
  obtain ⟨hrules, hchecks⟩ := hinv
  obtain ⟨hloop, rules, hadd, rfl⟩ := Enforcement.append_cases hstep
  have hfree : s.item s.fresh = none := hrules.fresh s.fresh le_rfl
  have hnot := mt (hrules.item_iff s.fresh).mpr (not_not_intro hfree)
  rw [not_or] at hnot
  obtain ⟨hinv', hlist⟩ := hrules.rules.addTail hnot.1 hadd
  obtain ⟨hquiet, mem, _, rfl⟩ := RcuList.addTail_cases hadd
  refine ⟨⟨hinv', fun b => ?_, fun b hb => ?_, ?_⟩, hchecks.congr rfl rfl rfl fun r hr b hb => ?_⟩
  · dsimp only
    by_cases hb : b = s.fresh
    · subst hb
      simp
    · rw [Function.update_of_ne hb, hrules.item_iff]
      simp [hb]
  · dsimp only at hb ⊢
    rw [Function.update_of_ne (by omega)]
    exact hrules.fresh b (by omega)
  · dsimp only
    rw [hloop]
    exact hquiet
  · refine Function.update_of_ne ?_ _ _
    rintro rfl
    exact hchecks.item_ne_none hr hb hfree

/-- A write clears the list, changes nothing, or appends a rule. -/
theorem Enforcement.write_cases [DecidableEq R] {buffer : List UInt8} {env : WriteEnv}
    (hstep : s.write block buffer env = some s') :
    ((textOf buffer).Blank isspace ∧ s.clear = some s') ∨ s' = s ∨
      ¬ (textOf buffer).Blank isspace ∧ s.append (ruleOf buffer) = some s' := by
  obtain ⟨result, _, hstep⟩ := Option.bind_eq_some_iff.mp hstep
  split at hstep
  · rename_i hblank
    exact .inl ⟨hblank, hstep⟩
  · rename_i hblank
    split at hstep
    · exact .inr (.inl (Option.some.inj hstep).symm)
    · exact .inr (.inr ⟨hblank, hstep⟩)

end Writers

/-! ## Runs -/

variable [DecidableEq R] {globMatch : Text → Text → Bool} {block : BlockCase}
  {s s' s₀ s₁ s₂ : Enforcement R} {act : EnforceAct R} {r : R} {a : ℕ} {path : Text}

theorem EnforceInv.step (hinv : EnforceInv globMatch s)
    (hstep : enforceStep globMatch block s act = some s') : EnforceInv globMatch s' := by
  cases act with
  | check r path => exact hinv.check hstep
  | look r => exact hinv.look hstep
  | answer r kzalloc => exact hinv.answer hstep
  | write buffer env =>
      rcases Enforcement.write_cases hstep with ⟨_, hclear⟩ | rfl | ⟨_, happend⟩
      · exact hinv.clear hclear
      · exact hinv
      · exact hinv.append happend
  | clear => exact hinv.clear hstep
  | unlink => exact hinv.unlink hstep
  | free => exact hinv.free hstep
  | reuse a entry => exact hinv.reuse hstep

theorem enforceInv_of_reachable (hreach : Reachable (enforceStep globMatch block) enforceInit s) :
    EnforceInv globMatch s :=
  hreach.invariant (fun _ => enforceInv_of_init) fun _ _ _ hinv hstep => hinv.step hstep

/-- **Neither a check nor a clear loop goes astray**, in whatever order they take their steps:
each can take its next step, but that a report without a buffer is written through the null
pointer.  When nobody clears, the allocated items are the list. -/
theorem block_safe (hreach : Reachable (enforceStep globMatch block) enforceInit s) :
    (∀ r path, s.checks r = .looking path →
      ∃ s', enforceStep globMatch block s (.look r) = some s') ∧
    (∀ r path, s.checks r = .matched path → ∀ kzalloc,
      (∃ s', enforceStep globMatch block s (.answer r kzalloc) = some s') ↔ kzalloc = true) ∧
    (∀ item tmp, s.loop = .at item tmp →
      ∃ s', enforceStep globMatch block s .unlink = some s') ∧
    (∀ a tmp, s.loop = .grace a tmp → s.rules.waiting = [] →
      ∃ s', enforceStep globMatch block s .free = some s') ∧
    (s.loop = .idle → ∀ a, s.item a ≠ none ↔ a ∈ s.rules.list) := by
  have hinv := enforceInv_of_reachable hreach
  obtain ⟨hrules, hchecks⟩ := id hinv
  refine ⟨fun r path hlooking => ?_, fun r path hmatched kzalloc => ?_, fun item tmp hloop => ?_,
    fun a tmp hloop hwaiting => ?_, fun hloop a => ?_⟩
  · rcases hinv.look_cases hlooking with ⟨hlook, _⟩ | ⟨_, _, _, _, _, _, hlook⟩
    · exact ⟨_, hlook⟩
    · exact ⟨_, hlook⟩
  · exact Enforcement.answer_iff hmatched
  · have hfits := hrules.loop
    rw [hloop] at hfits
    obtain ⟨hquiet, hitem, _⟩ := hfits
    cases hlist : s.rules.list with
    | nil =>
        rw [hlist] at hitem
        subst hitem
        refine Option.isSome_iff_exists.mp ?_
        simp [enforceStep, Enforcement.unlink, hloop, front]
    | cons a rest =>
        rw [hlist] at hitem
        subst hitem
        obtain ⟨mem, hdel, _⟩ := hrules.rules.chain.delRcu (hlist ▸ List.mem_cons_self (a := a))
        refine Option.isSome_iff_exists.mp ?_
        simp [enforceStep, Enforcement.unlink, hloop, front, Enforcement.onRules, RcuList.step,
          RcuList.remove, hquiet, hdel]
  · have hfits := hrules.loop
    rw [hloop] at hfits
    obtain ⟨rule, hrule⟩ :=
      Option.ne_none_iff_exists'.mp ((hrules.item_iff a).mpr (.inr hfits.1))
    refine Option.isSome_iff_exists.mp ?_
    simp [enforceStep, Enforcement.free, hloop, Enforcement.onRules, RcuList.step,
      RcuList.synced, hfits.1, hwaiting, hrule]
  · rw [hrules.item_iff, hrules.removing_eq_none hloop]
    simp

end SecDetector.Block
