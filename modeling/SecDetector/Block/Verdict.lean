import SecDetector.Block.Enforce

/-!
# The verdict of a check

What the result of `task_bprm_check` or `file_write_check` says about the rules.  A check takes
its time, and rules are added and cleared meanwhile, so it is compared with the rules that were
in force at some moment of it, and with those that were in force all the time (`check_verdict`).

A write that is not disturbed leaves the rules that `procWrite` says (`write_refines`), and when
the clear loop is over nothing is left (`clear_leaves_nothing`).
-/

namespace SecDetector.Block

open Lib

variable {R : Type*} [DecidableEq R] {globMatch : Text → Text → Bool} {block : BlockCase}
  {s s' s₀ s₁ s₂ : Enforcement R} {act : EnforceAct R} {r : R} {a : ℕ} {path : Text}

/-! ## What a step leaves -/

/-- What a step leaves of the rules: items are added with new numbers, keep their rules while
they are on the list, and stay ahead of the checks that have not come to them. -/
structure Carried (s s' : Enforcement R) : Prop where
  fresh : s.fresh ≤ s'.fresh
  mem_list : ∀ a ∈ s'.rules.list, a ∈ s.rules.list ∨ s.fresh ≤ a
  item : ∀ a ∈ s.rules.list, s'.item a = s.item a
  keeps : ∀ r a, s.rules.Keeps r [a] → a ∈ s'.rules.list → s'.rules.Keeps r [a]

omit [DecidableEq R] in
theorem Carried.of_rules_eq (hrules : s'.rules = s.rules) (hitem : s'.item = s.item)
    (hfresh : s'.fresh = s.fresh) : Carried s s' := by
  refine ⟨hfresh.ge, fun a ha => .inl (hrules ▸ ha), fun a _ => congrFun hitem a,
    fun r a hkeeps _ => ?_⟩
  rwa [hrules]

/-- An operation that adds nothing to the list. -/
theorem Carried.of_op (op : RcuList.Op ℕ R) (hop : s.rules.step op = some s'.rules)
    (hlist : ∀ a ∈ s'.rules.list, a ∈ s.rules.list) (hremove : ∀ a ∈ s'.rules.list, op ≠ .remove a)
    (hitem : ∀ a ∈ s.rules.list, s'.item a = s.item a) (hfresh : s'.fresh = s.fresh) :
    Carried s s' := by
  refine ⟨hfresh.ge, fun a ha => .inl (hlist a ha), hitem, fun r a hkeeps ha => ?_⟩
  refine hkeeps.step op (fun b hb => ?_) hop
  rw [List.mem_singleton.mp hb]
  exact hremove a ha

theorem EnforceInv.carried (hinv : EnforceInv globMatch s)
    (hstep : enforceStep globMatch block s act = some s') : Carried s s' := by
  obtain ⟨hrules, hchecks⟩ := id hinv
  cases act with
  | check r path? =>
      obtain ⟨_, _, ⟨_, rfl⟩ | ⟨path, rules, _, henter, rfl⟩⟩ := Enforcement.check_cases hstep
      · exact .of_rules_eq rfl rfl rfl
      · refine .of_op (.enter r) henter (fun a ha => ?_) (fun _ _ h => by cases h)
          (fun _ _ => rfl) rfl
        obtain ⟨_, rfl⟩ := RcuList.enter_cases henter
        exact ha
  | look r =>
      cases hcheck : s.checks r with
      | idle | matched path | returned ret =>
          rw [enforceStep, Enforcement.look, hcheck] at hstep
          cases hstep
      | looking path =>
          rcases hinv.look_cases hcheck with ⟨heq, _⟩ | ⟨a, rule, rest, _, _, hmove, heq⟩
          · obtain rfl := Option.some.inj (heq.symm.trans hstep)
            exact .of_op (.leave r) rfl (fun _ ha => ha) (fun _ _ h => by cases h)
              (fun _ _ => rfl) rfl
          · obtain rfl := Option.some.inj (heq.symm.trans hstep)
            split
            · refine ⟨le_rfl, fun a ha => .inl ha, fun _ _ => rfl, fun q b hkeeps _ => ?_⟩
              exact (hkeeps.step (.advance r) (fun _ _ h => by cases h) hmove).leave r
            · exact .of_op (.advance r) hmove (fun _ ha => ha) (fun _ _ h => by cases h)
                (fun _ _ => rfl) rfl
  | answer r kzalloc =>
      obtain ⟨_, _, _, rfl⟩ := Enforcement.answer_cases hstep
      exact .of_rules_eq rfl rfl rfl
  | write buffer env =>
      rcases Enforcement.write_cases hstep with ⟨_, hclear⟩ | rfl | ⟨_, happend⟩
      · obtain ⟨_, rfl⟩ := Enforcement.clear_cases hclear
        exact .of_rules_eq rfl rfl rfl
      · exact .of_rules_eq rfl rfl rfl
      · obtain ⟨_, rules, hadd, rfl⟩ := Enforcement.append_cases happend
        have hfree : s.fresh ∉ s.rules.list := fun hmem =>
          (hrules.item_iff s.fresh).mpr (.inl hmem) (hrules.fresh s.fresh le_rfl)
        have hlist := (hrules.rules.addTail hfree hadd).2
        refine ⟨Nat.le_succ _, fun a ha => ?_, fun a ha => ?_, fun q a hkeeps _ =>
          hkeeps.step (.addTail s.fresh) (fun _ _ h => by cases h) hadd⟩
        · dsimp only at ha
          rw [hlist, List.mem_append, List.mem_singleton] at ha
          exact ha.imp_right Eq.ge
        · refine Function.update_of_ne ?_ _ _
          rintro rfl
          exact hfree ha
  | clear =>
      obtain ⟨_, rfl⟩ := Enforcement.clear_cases hstep
      exact .of_rules_eq rfl rfl rfl
  | unlink =>
      rcases Enforcement.unlink_cases hstep with ⟨_, _, rfl⟩ | ⟨a, tmp, rules, hloop, hremove, rfl⟩
      · exact .of_rules_eq rfl rfl rfl
      · obtain ⟨_, hlist, _, _⟩ := hrules.list_eq_cons hloop
        have herase := (hrules.rules.remove (hlist ▸ List.mem_cons_self) hremove).2
        refine .of_op (.remove a) hremove (fun b hb => ?_) ?_ (fun _ _ => rfl) rfl
        · exact List.mem_of_mem_erase (herase ▸ hb)
        · rintro b hb heq
          obtain rfl := RcuList.Op.remove.inj heq
          exact hrules.rules.chain.nodup.not_mem_erase (herase ▸ hb)
  | free =>
      obtain ⟨a, tmp, rule, hloop, _, hbusy, hwaiting, rfl⟩ := Enforcement.free_cases hstep
      have hfits := hrules.loop
      rw [hloop] at hfits
      refine .of_op .synced (if_pos ⟨hbusy, hwaiting⟩) (fun _ hb => hb)
        (fun _ _ h => by cases h) (fun b hb => Function.update_of_ne ?_ _ _) rfl
      rintro rfl
      exact hrules.rules.removed b hfits.1 hb
  | reuse a entry =>
      obtain ⟨_, honrules⟩ := Option.ite_none_right_eq_some.mp hstep
      obtain ⟨rules, hscribble, rfl⟩ := Enforcement.onRules_cases honrules
      refine .of_op (.scribble a entry) hscribble (fun b hb => ?_) (fun _ _ h => by cases h)
        (fun _ _ => rfl) rfl
      obtain rfl := Option.some.inj hscribble
      exact hb

/-- The other steps leave a check where it is. -/
theorem EnforceInv.checks_eq (hinv : EnforceInv globMatch s)
    (hstep : enforceStep globMatch block s act = some s')
    (hcheck : ∀ path, act ≠ .check r path) (hlook : act ≠ .look r)
    (hanswer : ∀ kzalloc, act ≠ .answer r kzalloc) : s'.checks r = s.checks r := by
  cases act with
  | check q path? =>
      have hqr : r ≠ q := by
        rintro rfl
        exact hcheck path? rfl
      obtain ⟨_, _, ⟨_, rfl⟩ | ⟨path, rules, _, _, rfl⟩⟩ := Enforcement.check_cases hstep
      · exact Function.update_of_ne hqr _ _
      · exact Function.update_of_ne hqr _ _
  | look q =>
      have hqr : r ≠ q := by
        rintro rfl
        exact hlook rfl
      cases hq : s.checks q with
      | idle | matched path | returned ret =>
          rw [enforceStep, Enforcement.look, hq] at hstep
          cases hstep
      | looking path =>
          rcases hinv.look_cases hq with ⟨heq, _⟩ | ⟨a, rule, rest, _, _, _, heq⟩
          · obtain rfl := Option.some.inj (heq.symm.trans hstep)
            exact Function.update_of_ne hqr _ _
          · obtain rfl := Option.some.inj (heq.symm.trans hstep)
            split
            · exact Function.update_of_ne hqr _ _
            · rfl
  | answer q kzalloc =>
      have hqr : r ≠ q := by
        rintro rfl
        exact hanswer kzalloc rfl
      obtain ⟨_, _, _, rfl⟩ := Enforcement.answer_cases hstep
      exact Function.update_of_ne hqr _ _
  | write buffer env =>
      rcases Enforcement.write_cases hstep with ⟨_, hclear⟩ | rfl | ⟨_, happend⟩
      · obtain ⟨_, rfl⟩ := Enforcement.clear_cases hclear
        rfl
      · rfl
      · obtain ⟨_, rules, _, rfl⟩ := Enforcement.append_cases happend
        rfl
  | clear =>
      obtain ⟨_, rfl⟩ := Enforcement.clear_cases hstep
      rfl
  | unlink =>
      rcases Enforcement.unlink_cases hstep with ⟨_, _, rfl⟩ | ⟨a, tmp, rules, _, _, rfl⟩
      · rfl
      · rfl
  | free =>
      obtain ⟨a, tmp, rule, _, _, _, _, rfl⟩ := Enforcement.free_cases hstep
      rfl
  | reuse a entry =>
      obtain ⟨_, honrules⟩ := Option.ite_none_right_eq_some.mp hstep
      obtain ⟨rules, _, rfl⟩ := Enforcement.onRules_cases honrules
      rfl

/-- The item is off the list for good. -/
def Gone (s : Enforcement R) (a : ℕ) : Prop := a ∉ s.rules.list ∧ a < s.fresh

omit [DecidableEq R] in
theorem EnforceInv.lt_fresh (hinv : EnforceInv globMatch s) (ha : a ∈ s.rules.list) :
    a < s.fresh := by
  by_contra hle
  exact (hinv.1.item_iff a).mpr (.inl ha) (hinv.1.fresh a (not_lt.mp hle))

omit [DecidableEq R] in
theorem Carried.gone (hcarried : Carried s s') (hgone : Gone s a) : Gone s' a := by
  refine ⟨fun ha => ?_, hgone.2.trans_le hcarried.fresh⟩
  rcases hcarried.mem_list a ha with ha | hle
  · exact hgone.1 ha
  · exact absurd hgone.2 (not_lt.mpr hle)

/-! ## The verdict -/

/-- Where a check of `path` is, whose loop began on the items `l`; `denied` says that a rule has
matched. -/
def Verdict (globMatch : Text → Text → Bool) (path : Text) (l : List ℕ) (denied : Prop)
    (s : Enforcement R) (r : R) : Prop :=
  (s.checks r = .looking path ∧ ∀ a ∈ l, Gone s a ∨ s.rules.Keeps r [a]) ∨
  (s.checks r = .returned 0 ∧ ∀ a ∈ l, Gone s a ∨
    ∃ rule, s.item a = some rule ∧ globMatch rule path = false) ∨
  (s.checks r = .matched path ∧ denied) ∨ (s.checks r = .returned (-ePerm) ∧ denied)

omit [DecidableEq R] in
/-- A step that the check does not take. -/
theorem Verdict.other {l : List ℕ} {denied : Prop} (hverdict : Verdict globMatch path l denied s r)
    (hinv : EnforceInv globMatch s) (hcarried : Carried s s')
    (hchecks : s'.checks r = s.checks r) : Verdict globMatch path l denied s' r := by
  unfold Verdict
  rw [hchecks]
  refine hverdict.imp (fun h => ⟨h.1, fun a ha => ?_⟩) (Or.imp (fun h => ⟨h.1, fun a ha => ?_⟩) id)
  · rcases h.2 a ha with hgone | hkeeps
    · exact .inl (hcarried.gone hgone)
    · have hlist : a ∈ s.rules.list := hkeeps.list.subset (List.mem_singleton_self a)
      by_cases hstays : a ∈ s'.rules.list
      · exact .inr (hcarried.keeps r a hkeeps hstays)
      · exact .inl ⟨hstays, (hinv.lt_fresh hlist).trans_le hcarried.fresh⟩
  · rcases h.2 a ha with hgone | ⟨rule, hrule, hmatch⟩
    · exact .inl (hcarried.gone hgone)
    · by_cases hlist : a ∈ s.rules.list
      · exact .inr ⟨rule, (hcarried.item a hlist).trans hrule, hmatch⟩
      · refine .inl (hcarried.gone ⟨hlist, ?_⟩)
        by_contra hle
        rw [hinv.1.fresh a (not_lt.mp hle)] at hrule
        cases hrule

omit [DecidableEq R] in
theorem Verdict.imp {l : List ℕ} {denied denied' : Prop}
    (hverdict : Verdict globMatch path l denied s r) (himp : denied → denied') :
    Verdict globMatch path l denied' s r :=
  hverdict.imp_right (.imp_right (.imp (.imp_right himp) (.imp_right himp)))

/-- A step of any kind but a new check. -/
theorem Verdict.step {l : List ℕ} {denied : Prop} (hverdict : Verdict globMatch path l denied s r)
    (hinv : EnforceInv globMatch s) (hcheck : ∀ path, act ≠ .check r path)
    (hstep : enforceStep globMatch block s act = some s')
    (hdenied : ∀ a ∈ s.rules.list, ∀ rule, s.item a = some rule → globMatch rule path = true →
      denied) : Verdict globMatch path l denied s' r := by
  have hcarried := hinv.carried hstep
  by_cases hlook : act = .look r
  · subst hlook
    rcases hverdict with ⟨hlooking, hkept⟩ | ⟨hc, _⟩ | ⟨hc, _⟩ | ⟨hc, _⟩
    case inr.inl | inr.inr.inl | inr.inr.inr =>
      rw [enforceStep, Enforcement.look, hc] at hstep
      cases hstep
    have hr : r ∈ s.rules.inside := (hinv.2.inside_iff r).mpr ⟨path, hlooking⟩
    rcases hinv.look_cases hlooking with ⟨heq, hstays⟩ | ⟨a, rule, rest, hreading, hrule, _, heq⟩
    · -- the loop is over: every item that stayed has been seen, and does not match
      obtain rfl := Option.some.inj (heq.symm.trans hstep)
      refine .inr (.inl ⟨Function.update_self _ _ _, fun a ha => ?_⟩)
      refine (hkept a ha).imp id fun hkeeps => ?_
      have hseen := (hkeeps.stays hr).trans hstays
      exact hinv.2.seen r path hlooking a (hseen.subset (List.mem_singleton_self a))
    · obtain rfl := Option.some.inj (heq.symm.trans hstep)
      split
      · rename_i hmatch
        have ha : a ∈ s.rules.list := hreading.ahead.suffix.mem List.mem_cons_self
        exact .inr (.inr (.inl ⟨Function.update_self _ _ _, hdenied a ha rule hrule hmatch⟩))
      · rename_i hmatch
        rw [if_neg hmatch] at hcarried
        exact Verdict.other (.inl ⟨hlooking, hkept⟩) hinv hcarried rfl
  · by_cases hanswer : ∃ kzalloc, act = .answer r kzalloc
    · obtain ⟨kzalloc, rfl⟩ := hanswer
      obtain ⟨path', hmatched, _, rfl⟩ := Enforcement.answer_cases hstep
      rcases hverdict with ⟨hc, _⟩ | ⟨hc, _⟩ | ⟨_, hd⟩ | ⟨hc, _⟩
      case inr.inr.inl => exact .inr (.inr (.inr ⟨Function.update_self _ _ _, hd⟩))
      all_goals
        rw [hc] at hmatched
        cases hmatched
    · rw [not_exists] at hanswer
      exact hverdict.other hinv hcarried (hinv.checks_eq hstep hcheck hlook hanswer)

/-- The actions between the beginning of a check and its end. -/
def NoCheck (r : R) : Enforcement R → EnforceAct R → Prop :=
  fun _ act => ∀ path, act ≠ .check r path

/-- A check that has returned is over. -/
theorem EnforceInv.returned_step {ret : ℤ} (hinv : EnforceInv globMatch s)
    (hreturned : s.checks r = .returned ret) (hcheck : NoCheck r s act)
    (hstep : enforceStep globMatch block s act = some s') : s'.checks r = .returned ret := by
  refine (hinv.checks_eq hstep hcheck ?_ ?_).trans hreturned
  · rintro rfl
    rw [enforceStep, Enforcement.look, hreturned] at hstep
    cases hstep
  · rintro kzalloc rfl
    rw [enforceStep, Enforcement.answer, hreturned] at hstep
    cases hstep

/-- A rule matches `path` that is on the list in some state of the run from `s₁` on. -/
def MatchedWithin (globMatch : Text → Text → Bool) (block : BlockCase) (r : R) (path : Text)
    (s₁ : Enforcement R) (acts : List (EnforceAct R)) : Prop :=
  ∃ acts' s a rule, acts' <+: acts ∧
    Run (enforceStep globMatch block) (NoCheck r) (· = s₁) acts' s ∧
    a ∈ s.rules.list ∧ s.item a = some rule ∧ globMatch rule path = true

theorem MatchedWithin.mono {acts acts' : List (EnforceAct R)} (hmore : acts <+: acts')
    (h : MatchedWithin globMatch block r path s₁ acts) :
    MatchedWithin globMatch block r path s₁ acts' := by
  obtain ⟨_, s, a, rule, hacts, hrest⟩ := h
  exact ⟨_, s, a, rule, hacts.trans hmore, hrest⟩

/-- Where a check with a path is after a run. -/
theorem verdict_of_run {acts : List (EnforceAct R)} (hinv₀ : EnforceInv globMatch s₀)
    (hcheck : enforceStep globMatch block s₀ (.check r (some path)) = some s₁)
    (hrun : Run (enforceStep globMatch block) (NoCheck r) (· = s₁) acts s₂) :
    EnforceInv globMatch s₂ ∧ Verdict globMatch path s₀.rules.list
      (MatchedWithin globMatch block r path s₁ acts) s₂ r := by
  induction hrun with
  | start heq =>
      subst heq
      refine ⟨hinv₀.step hcheck, .inl ?_⟩
      have hbegin : s₀.check r (some path) = some _ := hcheck
      obtain ⟨hlooking, _, ⟨hnone, _⟩ | ⟨path', rules, hpath, henter, rfl⟩⟩ :=
        Enforcement.check_cases hbegin
      · cases hnone
      · obtain rfl := Option.some.inj hpath
        refine ⟨Function.update_self _ _ _, fun a ha => .inr ?_⟩
        have hout : r ∉ s₀.rules.inside := by
          rw [hinv₀.2.inside_iff]
          rintro ⟨_, hl⟩
          exact hlooking _ hl
        have hkeeps : s₀.rules.Keeps r [a] :=
          ⟨List.singleton_sublist.mpr ha, fun hr => absurd hr hout⟩
        exact hkeeps.step (.enter r) (fun _ _ h => by cases h) henter
  | @next acts s t act hprev hok hstep ih =>
      obtain ⟨hinv, hverdict⟩ := ih
      have hmore := List.prefix_append acts [act]
      refine ⟨hinv.step hstep, ?_⟩
      exact (hverdict.imp (.mono hmore)).step hinv hok hstep fun a ha rule hrule hmatch =>
        ⟨acts, s, a, rule, hmore, hprev, ha, hrule, hmatch⟩

/-- A check without a path is over at once. -/
theorem returned_of_run {acts : List (EnforceAct R)} (hinv₀ : EnforceInv globMatch s₀)
    (hcheck : enforceStep globMatch block s₀ (.check r none) = some s₁)
    (hrun : Run (enforceStep globMatch block) (NoCheck r) (· = s₁) acts s₂) :
    s₂.checks r = .returned 0 := by
  have hend : EnforceInv globMatch s₂ ∧ s₂.checks r = .returned 0 := by
    induction hrun with
    | start heq =>
        subst heq
        have hbegin : s₀.check r none = some _ := hcheck
        obtain ⟨_, _, ⟨_, rfl⟩ | ⟨_, _, hpath, _⟩⟩ := Enforcement.check_cases hbegin
        · exact ⟨hinv₀.step hcheck, Function.update_self _ _ _⟩
        · cases hpath
    | next _ hok hstep ih =>
        exact ⟨ih.1.step hstep, ih.1.returned_step ih.2 hok hstep⟩
  exact hend.2

/-- **The verdict of a check.**  It denies its path only if a rule that was on the list in the
meantime matches.  If it allows its path, there was no memory for it or `d_path` failed, or no rule
matches that was on the list from its beginning to its end. -/
theorem check_verdict {path? : Option Text} {acts : List (EnforceAct R)} {ret : ℤ}
    (hreach : Reachable (enforceStep globMatch block) enforceInit s₀)
    (hcheck : enforceStep globMatch block s₀ (.check r path?) = some s₁)
    (hrun : Run (enforceStep globMatch block) (NoCheck r) (· = s₁) acts s₂)
    (hret : s₂.checks r = .returned ret) :
    (ret = -ePerm ∧ ∃ path ∈ path?, MatchedWithin globMatch block r path s₁ acts) ∨
    (ret = 0 ∧ ∀ path ∈ path?, ∀ a ∈ s₀.rules.list, a ∈ s₂.rules.list →
      ∃ rule, s₂.item a = some rule ∧ globMatch rule path = false) := by
  have hinv₀ := enforceInv_of_reachable hreach
  cases path? with
  | none =>
      have hzero := returned_of_run hinv₀ hcheck hrun
      rw [hzero] at hret
      exact .inr ⟨(Check.returned.inj hret).symm, fun _ hpath => by cases hpath⟩
  | some path =>
      rcases (verdict_of_run hinv₀ hcheck hrun).2 with
        ⟨hc, _⟩ | ⟨hc, hkept⟩ | ⟨hc, _⟩ | ⟨hc, hdenied⟩
      · rw [hc] at hret
        cases hret
      · rw [hc] at hret
        refine .inr ⟨(Check.returned.inj hret).symm, ?_⟩
        rintro _ ⟨⟩ a ha hstays
        exact (hkept a ha).resolve_left fun hgone => hgone.1 hstays
      · rw [hc] at hret
        cases hret
      · rw [hc] at hret
        exact .inl ⟨(Check.returned.inj hret).symm, path, rfl, hdenied⟩

/-- A rule that forbids one path. -/
def samePath (rule path : Text) : Bool := rule = path

def enforceFresh : Enforcement Unit := ⟨.init, fun _ => none, 0, .idle, fun _ => .idle, []⟩

/-- The state after these actions. -/
def enforceRun (acts : List (EnforceAct Unit)) : Enforcement Unit :=
  (exec (enforceStep samePath .taskBlock) enforceFresh acts).getD enforceFresh

/-- The rules `a` and `b` are written. -/
def writeRules : List (EnforceAct Unit) :=
  [.write [97] ⟨true, true, true⟩, .write [98] ⟨true, true, true⟩]

/-- `b` is checked. -/
def checkB : EnforceAct Unit := .check () (some (Text.ascii "b"))

theorem enforceRun_reachable {acts : List (EnforceAct Unit)}
    (hexec : exec (enforceStep samePath .taskBlock) enforceFresh acts = some (enforceRun acts)) :
    Reachable (enforceStep samePath .taskBlock) enforceInit (enforceRun acts) :=
  ⟨_, Run.of_exec ⟨rfl, fun _ => rfl, rfl, fun _ => rfl⟩ (fun _ _ _ => trivial) hexec⟩

/-- A check is at the first rule while the clear loop waits for it; later it has matched the second
one. -/
theorem cleared_block_safe :
    let s := enforceRun (writeRules ++ [checkB, .look (), .clear, .unlink])
    let s' := enforceRun (writeRules ++ [checkB, .look (), .clear, .unlink, .look ()])
    (∃ t, enforceStep samePath .taskBlock s (.look ()) = some t) ∧ s.loop = .grace 0 (.node 1) ∧
      (∃ t, enforceStep samePath .taskBlock s' .free = some t) ∧
      ¬ ∃ t, enforceStep samePath .taskBlock s' (.answer () false) = some t := by
  have hlooking : exec (enforceStep samePath .taskBlock) enforceFresh
      (writeRules ++ [checkB, .look (), .clear, .unlink]) =
        some (enforceRun (writeRules ++ [checkB, .look (), .clear, .unlink])) := rfl
  have hmatched : exec (enforceStep samePath .taskBlock) enforceFresh
      (writeRules ++ [checkB, .look (), .clear, .unlink, .look ()]) =
        some (enforceRun (writeRules ++ [checkB, .look (), .clear, .unlink, .look ()])) := rfl
  have hsafe := block_safe (enforceRun_reachable hmatched)
  refine ⟨(block_safe (enforceRun_reachable hlooking)).1 () (Text.ascii "b") rfl, rfl,
    hsafe.2.2.2.1 0 (.node 1) rfl rfl, fun hanswer => ?_⟩
  cases (hsafe.2.1 () (Text.ascii "b") rfl false).mp hanswer

/-- `b` is denied while the rules are cleared: the check goes on from the rule that is taken off
under it, and the second one is freed before the report. -/
def clearedMeanwhile : List (EnforceAct Unit) :=
  [.look (), .clear, .unlink, .look (), .free, .unlink, .free, .answer () true]

theorem cleared_check_verdict : (enforceRun (writeRules ++ checkB :: clearedMeanwhile)).item 1 =
      none ∧ MatchedWithin samePath .taskBlock () (Text.ascii "b")
        (enforceRun (writeRules ++ [checkB])) clearedMeanwhile := by
  have hexec : exec (enforceStep samePath .taskBlock) enforceFresh writeRules =
      some (enforceRun writeRules) := rfl
  have hcheck : enforceStep samePath .taskBlock (enforceRun writeRules) checkB =
      some (enforceRun (writeRules ++ [checkB])) := rfl
  have hrest : exec (enforceStep samePath .taskBlock) (enforceRun (writeRules ++ [checkB]))
      clearedMeanwhile = some (enforceRun (writeRules ++ checkB :: clearedMeanwhile)) := rfl
  have hother : ∀ act ∈ clearedMeanwhile, ∀ s : Enforcement Unit, NoCheck () s act := by
    rintro _ hact _ _ rfl
    simp [clearedMeanwhile] at hact
  refine ⟨rfl, ?_⟩
  rcases check_verdict (enforceRun_reachable hexec) hcheck (Run.of_exec rfl hother hrest) rfl
    with
    ⟨_, _, ⟨⟩, hmatched⟩ | ⟨hret, _⟩
  · exact hmatched
  · exact absurd hret (by decide)

/-! ## The writes -/

/-- The rules, as `proc_show` shows them. -/
def Enforcement.texts (s : Enforcement R) : List Text := s.rules.list.filterMap s.item

omit [DecidableEq R] in
/-- Behind the last item of the clear loop there is nothing left. -/
theorem RulesInv.clear_leaves_nothing (hinv : RulesInv s) {tmp : Link ℕ}
    (hloop : s.loop = .at .head tmp) : s.rules.list = [] ∧ ∀ a, s.item a = none := by
  have hfits := hinv.loop
  rw [hloop] at hfits
  obtain ⟨hquiet, hhead, _⟩ := hfits
  have hlist : s.rules.list = [] := by
    cases hlist : s.rules.list with
    | nil => rfl
    | cons a rest =>
        rw [hlist] at hhead
        cases hhead
  refine ⟨hlist, fun a => ?_⟩
  have hiff := hinv.item_iff a
  rw [hlist, hquiet] at hiff
  simpa using hiff

/-- The step with which the clear loop ends. -/
theorem EnforceInv.loop_ends (hinv : EnforceInv globMatch s)
    (hstep : enforceStep globMatch block s act = some s') (hbusy : s.loop ≠ .idle)
    (hidle : s'.loop = .idle) : s'.rules.list = [] ∧ ∀ a, s'.item a = none := by
  cases act with
  | check r path? =>
      obtain ⟨_, _, ⟨_, rfl⟩ | ⟨path, rules, _, _, rfl⟩⟩ := Enforcement.check_cases hstep
      all_goals exact absurd hidle hbusy
  | look r =>
      cases hcheck : s.checks r with
      | idle | matched path | returned ret =>
          rw [enforceStep, Enforcement.look, hcheck] at hstep
          cases hstep
      | looking path =>
          refine absurd hidle ?_
          rcases hinv.look_cases hcheck with ⟨heq, _⟩ | ⟨a, rule, rest, _, _, _, heq⟩
          · obtain rfl := Option.some.inj (heq.symm.trans hstep)
            exact hbusy
          · obtain rfl := Option.some.inj (heq.symm.trans hstep)
            split
            · exact hbusy
            · exact hbusy
  | answer r kzalloc =>
      obtain ⟨_, _, _, rfl⟩ := Enforcement.answer_cases hstep
      exact absurd hidle hbusy
  | write buffer env =>
      rcases Enforcement.write_cases hstep with ⟨_, hclear⟩ | rfl | ⟨_, happend⟩
      · exact absurd (Enforcement.clear_cases hclear).1 hbusy
      · exact absurd hidle hbusy
      · exact absurd (Enforcement.append_cases happend).1 hbusy
  | clear => exact absurd (Enforcement.clear_cases hstep).1 hbusy
  | unlink =>
      rcases Enforcement.unlink_cases hstep with ⟨tmp, hloop, rfl⟩ | ⟨a, tmp, rules, _, _, rfl⟩
      · exact hinv.1.clear_leaves_nothing hloop
      · cases hidle
  | free =>
      obtain ⟨a, tmp, rule, _, _, _, _, rfl⟩ := Enforcement.free_cases hstep
      cases hidle
  | reuse a entry =>
      obtain ⟨_, honrules⟩ := Option.ite_none_right_eq_some.mp hstep
      obtain ⟨rules, _, rfl⟩ := Enforcement.onRules_cases honrules
      exact absurd hidle hbusy

theorem EnforceInv.texts_append (hinv : EnforceInv globMatch s) {rule : Text}
    (hstep : s.append rule = some s') : s'.texts = s.texts ++ [rule] := by
  obtain ⟨_, rules, hadd, rfl⟩ := Enforcement.append_cases hstep
  have hfree : s.item s.fresh = none := hinv.1.fresh _ le_rfl
  have hnot : s.fresh ∉ s.rules.list := fun hmem => (hinv.1.item_iff _).mpr (.inl hmem) hfree
  have hlist : rules.list = s.rules.list ++ [s.fresh] := (hinv.1.rules.addTail hnot hadd).2
  have hold : s.rules.list.filterMap (Function.update s.item s.fresh (some rule)) = s.texts := by
    refine List.filterMap_congr fun a ha => Function.update_of_ne ?_ _ _
    rintro rfl
    exact hnot ha
  show rules.list.filterMap (Function.update s.item s.fresh (some rule)) = s.texts ++ [rule]
  rw [hlist, List.filterMap_append, hold]
  simp

/-- A write of a rule is over at once. -/
theorem EnforceInv.write_rule (hinv : EnforceInv globMatch s) {buffer : List UInt8} {env : WriteEnv}
    {result : WriteResult} (hblank : ¬ (textOf buffer).Blank isspace)
    (hwrite : s.write block buffer env = some s')
    (hresult : procWrite block (fun _ => s.texts) buffer env = some result) :
    s'.texts = result.lists block := by
  have hdup := memdupUserNul_of_procWrite hresult
  obtain ⟨next, _, hrule⟩ := procWrite_of_not_blank block (fun _ => s.texts) hblank
  obtain ⟨next', _, hrule'⟩ := procWrite_of_not_blank block (fun _ => []) hblank
  rw [hrule env hdup, Option.some.injEq] at hresult
  rw [Enforcement.write, hrule' env hdup, Option.bind_some, if_neg hblank] at hwrite
  subst hresult
  by_cases hmemory : (env.kstrdup && env.kzalloc) = true
  · rw [if_pos hmemory, if_neg (Int.natCast_nonneg _).not_gt] at hwrite
    rw [if_pos hmemory, hinv.texts_append hwrite]
    exact (Function.update_self block _ (fun _ => s.texts)).symm
  · rw [if_neg hmemory, if_pos neg_eNomem] at hwrite
    rw [if_neg hmemory, ← Option.some.inj hwrite]

/-- **A write leaves the rules of `procWrite`**, whatever checks run meanwhile and whatever memory
there is: a write of a rule at once, and one that clears the list when it gives the mutex back. -/
theorem write_refines {buffer : List UInt8} {env : WriteEnv} {result : WriteResult}
    (hreach : Reachable (enforceStep globMatch block) enforceInit s₀)
    (hwrite : enforceStep globMatch block s₀ (.write buffer env) = some s₁)
    (hresult : procWrite block (fun _ => s₀.texts) buffer env = some result) :
    (¬ (textOf buffer).Blank isspace → s₁.texts = result.lists block) ∧
      ((textOf buffer).Blank isspace → s₁.loop ≠ .idle ∧
        ∀ acts s₂ act s', Run (enforceStep globMatch block) (fun s _ => s.loop ≠ .idle) (· = s₁)
            acts s₂ → s₂.loop ≠ .idle → enforceStep globMatch block s₂ act = some s' →
          s'.loop = .idle → s'.texts = result.lists block) := by
  have hinv₀ := enforceInv_of_reachable hreach
  have hinv₁ := hinv₀.step hwrite
  refine ⟨fun hblank => hinv₀.write_rule hblank hwrite hresult, fun hblank => ?_⟩
  obtain ⟨_, _, hclear⟩ := Option.bind_eq_some_iff.mp hwrite
  rw [if_pos hblank] at hclear
  have hempty : result.lists block = [] := by
    have hdup := memdupUserNul_of_procWrite hresult
    rw [procWrite_blank hblank _ hdup, Option.some.injEq] at hresult
    rw [← hresult]
    exact Function.update_self block _ (fun _ => s₀.texts)
  refine ⟨?_, fun acts s₂ act s' hrun hbusy hstep hidle => ?_⟩
  · rw [(Enforcement.clear_cases hclear).2]
    simp
  · have hinv₂ : EnforceInv globMatch s₂ :=
      hrun.invariant (fun s heq => heq ▸ hinv₁) fun s act t hinv _ hst => hinv.step hst
    rw [Enforcement.texts, (hinv₂.loop_ends hstep hbusy hidle).1, hempty]
    rfl

/-- The rules are cleared while a check is under way, and meanwhile a write fails. -/
def rulesChecked : List (EnforceAct Unit) := writeRules ++ [checkB, .look ()]

def clearBegun : List (EnforceAct Unit) := rulesChecked ++ [.write [32] ⟨true, false, false⟩]

def refusedC : EnforceAct Unit := .write [99] ⟨true, true, false⟩

def clearGoesOn : List (EnforceAct Unit) := [.unlink, refusedC, .look (), .free, .unlink, .free]

theorem cleared_write_refines :
    (∃ result, procWrite .taskBlock (fun _ => (enforceRun (clearBegun ++ [.unlink])).texts) [99]
        ⟨true, true, false⟩ = some result ∧
      (enforceRun (clearBegun ++ [.unlink, refusedC])).texts = result.lists .taskBlock) ∧
    ∃ result, procWrite .taskBlock (fun _ => (enforceRun rulesChecked).texts) [32]
        ⟨true, false, false⟩ = some result ∧
      (enforceRun (clearBegun ++ clearGoesOn ++ [.unlink])).texts = result.lists .taskBlock := by
  have hbegun : exec (enforceStep samePath .taskBlock) enforceFresh (clearBegun ++ [.unlink]) =
      some (enforceRun (clearBegun ++ [.unlink])) := rfl
  have hchecked : exec (enforceStep samePath .taskBlock) enforceFresh rulesChecked =
      some (enforceRun rulesChecked) := rfl
  obtain ⟨refused, hrefused⟩ := Option.isSome_iff_exists.mp
    (show (procWrite .taskBlock (fun _ => (enforceRun (clearBegun ++ [.unlink])).texts) [99]
      ⟨true, true, false⟩).isSome = true from rfl)
  obtain ⟨result, hresult⟩ := Option.isSome_iff_exists.mp
    (show (procWrite .taskBlock (fun _ => (enforceRun rulesChecked).texts) [32]
      ⟨true, false, false⟩).isSome = true from rfl)
  have hwrite : enforceStep samePath .taskBlock (enforceRun (clearBegun ++ [.unlink])) refusedC =
      some (enforceRun (clearBegun ++ [.unlink, refusedC])) := rfl
  have hclear : enforceStep samePath .taskBlock (enforceRun rulesChecked)
      (.write [32] ⟨true, false, false⟩) = some (enforceRun clearBegun) := rfl
  have hrest : Run (enforceStep samePath .taskBlock) (fun s _ => s.loop ≠ .idle)
      (· = enforceRun clearBegun) clearGoesOn (enforceRun (clearBegun ++ clearGoesOn)) :=
    .of_guardedExec rfl rfl
  refine ⟨⟨refused, hrefused, ?_⟩, result, hresult, ?_⟩
  · exact (write_refines (enforceRun_reachable hbegun) hwrite hrefused).1 (by decide)
  · exact ((write_refines (enforceRun_reachable hchecked) hclear hresult).2 (by decide)).2
      _ _ .unlink _ hrest (by decide) rfl rfl

end SecDetector.Block
