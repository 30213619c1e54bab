import SecDetector.Ebpf.StaleFree
import SecDetector.Lib.Table

/-!
# Programs that are taken off

All programs of an object are attached at first, and then those of the topics that the mask leaves
out are taken off: `DisableProg` destroys the link of a program, and moves the last entry of the
skeleton's table of programs to its place.  The loop of `fentry.c` then goes on, up to the number of
entries that there were before, and the loop of `file_fentry.c` stops.

`disableLoop_hit` says that this makes no difference, since a table holds each name once.
-/

namespace SecDetector.Ebpf

open Lib List

/-! ## The table -/

/-- `struct bpf_prog_skeleton`: a program, and where its link is. -/
structure BpfProgSkeleton (P L : Type) where
  name : String
  prog : P
  link : Option L

/-- `struct bpf_object_skeleton`, and the links that were destroyed. -/
structure BpfObjectSkeleton (P L : Type) where
  progs : List (BpfProgSkeleton P L)
  progCnt : ℕ
  destroyed : List L

variable {P L : Type}

/-- The body of the loop of `DisableProg`, which was entered with `n` entries; the flag says
that the name was found.  A step behind the table, or through a null pointer, goes nowhere. -/
def disableEntry (progName : String) (n : ℕ) (s : BpfObjectSkeleton P L) (i : ℕ) :
    Option (BpfObjectSkeleton P L × Bool) := do
  let entry ← s.progs[i]?
  if entry.name = progName then
    let link ← entry.link
    -- exchange the last one
    let progs := s.progs.set i { entry with link := none }
    let last ← progs[n - 1]?
    return ({ progs := progs.set i last
              progCnt := s.progCnt - 1
              destroyed := s.destroyed ++ [link] }, true)
  else return (s, false)

/-- The loop of `DisableProg`, for `k` more entries from `i` on; with `stop` it ends when the
name was found. -/
def disableLoop (stop : Bool) (progName : String) (n : ℕ) :
    ℕ → ℕ → BpfObjectSkeleton P L → Option (BpfObjectSkeleton P L)
  | 0, _, s => some s
  | k + 1, i, s => do
      let (s, found) ← disableEntry progName n s i
      if stop && found then return s else disableLoop stop progName n k (i + 1) s

/-- `DisableProg` of `fentry.c`. -/
def Process.disableProg (s : BpfObjectSkeleton P L) (progName : String) :
    Option (BpfObjectSkeleton P L) :=
  disableLoop false progName s.progCnt s.progCnt 0 s

/-- `DisableProg` of `file_fentry.c`. -/
def File.disableProg (s : BpfObjectSkeleton P L) (progName : String) :
    Option (BpfObjectSkeleton P L) :=
  disableLoop true progName s.progCnt s.progCnt 0 s

/-- `DisableProgBasedOnMask` of `fentry.c`. -/
def Process.disableProgBasedOnMask (skel : BpfObjectSkeleton P L) (mask : BitVec 32) :
    Option (BpfObjectSkeleton P L) := do
  let skel ← if mask &&& creatprocess = 0 then do
      let skel ← disableProg skel "handle_exec"
      let skel ← disableProg skel "handle_fork"
      disableProg skel "handle_bprm_check"
    else some skel
  let skel ← if mask &&& destroyprocess = 0 then disableProg skel "handle_exit" else some skel
  let skel ← if mask &&& setprocessattr = 0 then disableProg skel "handle_commit_creds"
    else some skel
  if mask &&& execcmd = 0 then disableProg skel "handle_execve_cmd" else some skel

/-- `DisableProgBasedOnMask` of `file_fentry.c`. -/
def File.disableProgBasedOnMask (skel : BpfObjectSkeleton P L) (mask : BitVec 32) :
    Option (BpfObjectSkeleton P L) := do
  let skel ← if mask &&& createfile = 0 then disableProg skel "do_filp_open_exit" else some skel
  let skel ← if mask &&& delfile = 0 then disableProg skel "fexit_vfs_unlink" else some skel
  let skel ← if mask &&& writefile = 0 then disableProg skel "fexit_vfs_write" else some skel
  let skel ← if mask &&& readfile = 0 then disableProg skel "fexit_vfs_read" else some skel
  if mask &&& setfileattr = 0 then do
    let skel ← disableProg skel "fexit_vfs_utimes"
    let skel ← disableProg skel "fexit_chown_common"
    let skel ← disableProg skel "fexit_chmod_common"
    let skel ← disableProg skel "fentry__vfs_setxattr_noperm"
    let skel ← disableProg skel "fentry__vfs_removexattr_locked"
    disableProg skel "fentry_vfs_rename"
  else some skel

namespace BpfObjectSkeleton

variable {s : BpfObjectSkeleton P L}

/-- The entries that the skeleton has: the programs that are attached. -/
def entries (s : BpfObjectSkeleton P L) : List (BpfProgSkeleton P L) :=
  s.progs.take s.progCnt

/-- The table has the entries, with distinct names and a link for each. -/
structure Live (s : BpfObjectSkeleton P L) : Prop where
  progCnt_le : s.progCnt ≤ s.progs.length
  names : (s.entries.map BpfProgSkeleton.name).Nodup
  links : ∀ p ∈ s.entries, p.link ≠ none

theorem length_entries (hlive : s.Live) : s.entries.length = s.progCnt := by
  rw [entries, List.length_take, Nat.min_eq_left hlive.progCnt_le]

end BpfObjectSkeleton

open BpfObjectSkeleton

variable {s : BpfObjectSkeleton P L} {stop : Bool} {progName : String} {n i k : ℕ}

/-! ## The loop -/

theorem disableEntry_of_ne (hi : i < s.progs.length) (hne : s.progs[i].name ≠ progName) :
    disableEntry progName n s i = some (s, false) := by
  simp [disableEntry, hi, hne]

/-- Where the name does not occur, the loop leaves the table alone. -/
theorem disableLoop_miss (hle : i + k ≤ s.progs.length)
    (hne : ∀ j (hj : j < s.progs.length), i ≤ j → j < i + k → s.progs[j].name ≠ progName) :
    disableLoop stop progName n k i s = some s := by
  induction k generalizing i with
  | zero => rfl
  | succ k ih =>
      have hi : i < s.progs.length := by omega
      rw [disableLoop, disableEntry_of_ne hi (hne i hi le_rfl (by omega))]
      simp only [Option.bind_eq_bind, Option.bind_some, Bool.and_false, Bool.false_eq_true,
        if_false]
      exact ih (by omega) fun j hj hlow hhigh => hne j hj (by omega) (by omega)

/-- Where it occurs, the last entry takes its place. -/
theorem disableEntry_of_eq (hlast : n - 1 < s.progs.length) (hi : i < s.progs.length)
    (heq : s.progs[i].name = progName) {link : L} (hlink : s.progs[i].link = some link) :
    ∃ last, (i ≠ n - 1 → s.progs[n - 1]? = some last) ∧
      disableEntry progName n s i = some
        ({ progs := s.progs.set i last
           progCnt := s.progCnt - 1
           destroyed := s.destroyed ++ [link] }, true) := by
  have hlast' : n - 1 < (s.progs.set i { s.progs[i] with link := none }).length := by simpa
  refine ⟨(s.progs.set i { s.progs[i] with link := none })[n - 1], fun hne => ?_, ?_⟩
  · rw [List.getElem_set_ne hne, List.getElem?_eq_getElem hlast]
  · simp [disableEntry, hi, heq, hlink, hlast]

/-- The loop as it comes to the first entry of the name. -/
theorem disableLoop_hit {j : ℕ} (hlow : i ≤ j) (hhigh : j < i + k) (hj : j < s.progs.length)
    (hne : ∀ m (hm : m < s.progs.length), i ≤ m → m < j → s.progs[m].name ≠ progName)
    {t : BpfObjectSkeleton P L} (hentry : disableEntry progName n s j = some (t, true)) :
    disableLoop stop progName n k i s =
      if stop then some t else disableLoop stop progName n (i + k - (j + 1)) (j + 1) t := by
  induction k generalizing i with
  | zero => omega
  | succ k ih =>
      rcases Nat.eq_or_lt_of_le hlow with rfl | hlt
      · rw [disableLoop, hentry, show i + (k + 1) - (i + 1) = k by omega]
        simp
      · rw [disableLoop, disableEntry_of_ne (by omega) (hne i (by omega) le_rfl hlt)]
        simp only [Option.bind_eq_bind, Option.bind_some, Bool.and_false, Bool.false_eq_true,
          if_false]
        rw [ih hlt (by omega) fun m hm hge => hne m hm (by omega),
          show i + 1 + k - (j + 1) = i + (k + 1) - (j + 1) by omega]

/-- What `DisableProg` does: the entry of the name is gone, and its link is destroyed. -/
structure Disables (progName : String) (s t : BpfObjectSkeleton P L) : Prop where
  live : t.Live
  entries : t.entries.Perm (s.entries.filter fun p => p.name ≠ progName)
  destroyed : t.destroyed.map some = s.destroyed.map some ++
    (s.entries.filter fun p => p.name = progName).map BpfProgSkeleton.link

/-- The table after entry `j` was removed. -/
theorem disables_of_moveLast (hlive : s.Live) {j : ℕ} (hj : j < s.entries.length) {link : L}
    (hlink : s.entries[j].link = some link) {last : BpfProgSkeleton P L}
    (hlast : j ≠ s.progCnt - 1 → s.progs[s.progCnt - 1]? = some last) :
    Disables s.entries[j].name s ⟨s.progs.set j last, s.progCnt - 1, s.destroyed ++ [link]⟩ := by
  have hle := hlive.progCnt_le
  have hcount := length_entries hlive
  have hmove : ((s.progs.set j last).take (s.progCnt - 1)).Perm (s.entries.eraseIdx j) :=
    Table.take_moveLast_perm (by omega) hle hlast
  have hperm := hmove.trans (Table.eraseIdx_perm_filter hlive.names hj)
  refine ⟨⟨?_, ?_, ?_⟩, hperm, ?_⟩
  · show s.progCnt - 1 ≤ (s.progs.set j last).length
    rw [List.length_set]
    omega
  · refine ((hperm.map _).nodup_iff).mpr (hlive.names.sublist ?_)
    exact List.filter_sublist.map _
  · intro p hp
    exact hlive.links p (List.mem_of_mem_filter (hperm.mem_iff.mp hp))
  · rw [Table.filter_eq_singleton hlive.names hj, List.map_append, List.map_singleton,
      List.map_singleton, hlink]

/-- The entries, seen in the table. -/
theorem getElem_entries {m : ℕ} (hm : m < s.entries.length) (hm' : m < s.progs.length) :
    s.entries[m] = s.progs[m] := List.getElem_take

theorem disableLoop_of_not_mem (hlive : s.Live) (stop : Bool)
    (hne : ∀ p ∈ s.entries, p.name ≠ progName) :
    disableLoop stop progName s.progCnt s.progCnt 0 s = some s ∧ Disables progName s s := by
  have hle := hlive.progCnt_le
  have hcount := length_entries hlive
  refine ⟨disableLoop_miss (by omega) fun m hm _ hlt => ?_, hlive, ?_, ?_⟩
  · have hm' : m < s.entries.length := by omega
    rw [← getElem_entries hm' hm]
    exact hne _ (List.getElem_mem hm')
  · rw [List.filter_eq_self.mpr fun p hp => decide_eq_true (hne p hp)]
  · rw [List.filter_eq_nil_iff.mpr fun p hp => by simpa using hne p hp, List.map_nil,
      List.append_nil]

theorem disableLoop_of_mem (hlive : s.Live) (stop : Bool) {j : ℕ} (hj : j < s.entries.length) :
    ∃ t, disableLoop stop s.entries[j].name s.progCnt s.progCnt 0 s = some t ∧
      Disables s.entries[j].name s t := by
  have hle := hlive.progCnt_le
  have hcount := length_entries hlive
  have hj' : j < s.progs.length := by omega
  have hentry : s.entries[j] = s.progs[j] := getElem_entries hj hj'
  have hother : ∀ m (hm : m < s.progs.length), m < s.progCnt → m ≠ j →
      s.progs[m].name ≠ s.entries[j].name := by
    intro m hm hlt hne
    have hm' : m < s.entries.length := by omega
    rw [← getElem_entries hm' hm]
    exact Table.key_ne_of_ne hlive.names hj hm' hne
  obtain ⟨link, hlink⟩ := Option.ne_none_iff_exists'.mp (hlive.links _ (List.getElem_mem hj))
  obtain ⟨last, hlast, hfound⟩ := disableEntry_of_eq (n := s.progCnt) (by omega) hj'
    (congrArg BpfProgSkeleton.name hentry).symm ((congrArg _ hentry).symm.trans hlink)
  refine ⟨_, ?_, disables_of_moveLast hlive hj hlink hlast⟩
  rw [disableLoop_hit (Nat.zero_le j) (by omega) hj'
    (fun m hm _ hlt => hother m hm (by omega) (Nat.ne_of_lt hlt)) hfound]
  cases stop with
  | true => rfl
  | false =>
      -- no entry behind it has the name
      refine disableLoop_miss ?_ fun m hm hlow hhigh => ?_
      · rw [List.length_set]
        omega
      · rw [List.length_set] at hm
        simp only [List.getElem_set_ne (Nat.ne_of_lt hlow)]
        exact hother m hm (by omega) (Nat.ne_of_gt hlow)

theorem disableLoop_spec (hlive : s.Live) (stop : Bool) (progName : String) :
    ∃ t, disableLoop stop progName s.progCnt s.progCnt 0 s = some t ∧ Disables progName s t := by
  by_cases hmem : progName ∈ s.entries.map BpfProgSkeleton.name
  · obtain ⟨j, hj, hname⟩ := List.getElem_of_mem hmem
    rw [List.length_map] at hj
    rw [List.getElem_map] at hname
    subst hname
    exact disableLoop_of_mem hlive stop hj
  · have hne : ∀ p ∈ s.entries, p.name ≠ progName := by
      rintro p hp rfl
      exact hmem (List.mem_map_of_mem hp)
    exact ⟨s, disableLoop_of_not_mem hlive stop hne⟩

/-! ## The mask -/

/-- The two objects that are loaded. -/
inductive Object where
  | process
  | file

/-- `DisableProg` of the object. -/
def Object.disableProg : Object → BpfObjectSkeleton P L → String → Option (BpfObjectSkeleton P L)
  | .process => Process.disableProg
  | .file => File.disableProg

/-- `DisableProgBasedOnMask` of the object. -/
def Object.disableProgBasedOnMask : Object → BpfObjectSkeleton P L → BitVec 32 →
    Option (BpfObjectSkeleton P L)
  | .process => Process.disableProgBasedOnMask
  | .file => File.disableProgBasedOnMask

/-- The names that a mask disables. -/
def Object.disabled (mask : BitVec 32) : Object → List String
  | .process =>
      (if mask &&& creatprocess = 0 then ["handle_exec", "handle_fork", "handle_bprm_check"]
        else []) ++
      (if mask &&& destroyprocess = 0 then ["handle_exit"] else []) ++
      (if mask &&& setprocessattr = 0 then ["handle_commit_creds"] else []) ++
      (if mask &&& execcmd = 0 then ["handle_execve_cmd"] else [])
  | .file =>
      (if mask &&& createfile = 0 then ["do_filp_open_exit"] else []) ++
      (if mask &&& delfile = 0 then ["fexit_vfs_unlink"] else []) ++
      (if mask &&& writefile = 0 then ["fexit_vfs_write"] else []) ++
      (if mask &&& readfile = 0 then ["fexit_vfs_read"] else []) ++
      (if mask &&& setfileattr = 0 then ["fexit_vfs_utimes", "fexit_chown_common",
        "fexit_chmod_common", "fentry__vfs_setxattr_noperm", "fentry__vfs_removexattr_locked",
        "fentry_vfs_rename"] else [])

theorem foldlM_ite {A B : Type} (c : Prop) [Decidable c] (l : List A) (f : B → A → Option B)
    (b : B) : (if c then l else []).foldlM f b = if c then l.foldlM f b else some b := by
  split <;> rfl

theorem ite_bind {A B : Type} (c : Prop) [Decidable c] (x y : Option A) (f : A → Option B) :
    (if c then x else y).bind f = if c then x.bind f else y.bind f := by
  split <;> rfl

/-- The calls for a mask disable its names one by one. -/
theorem disableProgBasedOnMask_eq (o : Object) (mask : BitVec 32) :
    o.disableProgBasedOnMask s mask = (o.disabled mask).foldlM o.disableProg s := by
  cases o <;>
    simp only [Object.disabled, List.foldlM_append, foldlM_ite, List.foldlM_cons, List.foldlM_nil,
      Object.disableProgBasedOnMask, Process.disableProgBasedOnMask, File.disableProgBasedOnMask,
      Object.disableProg, Option.pure_def, Option.bind_eq_bind, Option.bind_some,
      Option.bind_fun_some, Option.bind_assoc, ite_bind]

/-- What disabling some names does. -/
structure DisablesAll (names : List String) (s t : BpfObjectSkeleton P L) : Prop where
  live : t.Live
  entries : t.entries.Perm (s.entries.filter fun p => p.name ∉ names)
  destroyed : (t.destroyed.map some).Perm (s.destroyed.map some ++
    (s.entries.filter fun p => p.name ∈ names).map BpfProgSkeleton.link)

/-- A list falls into the elements of one name, those of some other names, and the rest. -/
theorem filter_cons_perm (l : List (BpfProgSkeleton P L)) (progName : String)
    (names : List String) :
    (l.filter fun p => p.name ∈ progName :: names).Perm
      (l.filter (fun p => p.name = progName) ++
        (l.filter fun p => p.name ≠ progName).filter fun p => p.name ∈ names) := by
  have hsplit := (List.filter_append_perm (fun p => decide (p.name = progName))
    (l.filter fun p => p.name ∈ progName :: names)).symm
  rw [List.filter_filter, List.filter_filter] at hsplit
  rw [List.filter_filter]
  convert hsplit using 2
  · apply List.filter_congr
    intro p _
    by_cases hname : p.name = progName <;> simp [hname]
  · apply List.filter_congr
    intro p _
    by_cases hname : p.name = progName <;> simp [hname]

theorem foldlM_disableProg (o : Object) (hlive : s.Live) (names : List String) :
    ∃ t, names.foldlM o.disableProg s = some t ∧ DisablesAll names s t := by
  induction names generalizing s with
  | nil =>
      refine ⟨s, rfl, hlive, ?_, ?_⟩
      · simp
      · simp
  | cons progName names ih =>
      obtain ⟨s₁, hdisable, hone⟩ : ∃ t, o.disableProg s progName = some t ∧
          Disables progName s t := by
        cases o with
        | process => exact disableLoop_spec hlive false progName
        | file => exact disableLoop_spec hlive true progName
      obtain ⟨t, hfold, hall⟩ := ih hone.live
      refine ⟨t, ?_, hall.live, ?_, ?_⟩
      · rw [List.foldlM_cons, hdisable]
        exact hfold
      · calc t.entries
            ~ s₁.entries.filter (fun p => p.name ∉ names) := hall.entries
          _ ~ (s.entries.filter fun p => p.name ≠ progName).filter fun p => p.name ∉ names :=
            hone.entries.filter _
          _ = s.entries.filter fun p => p.name ∉ progName :: names := by
            rw [List.filter_filter]
            apply List.filter_congr
            intro p _
            by_cases hname : p.name = progName <;> simp [hname]
      · have hperm := (filter_cons_perm s.entries progName names).symm.map BpfProgSkeleton.link
        calc t.destroyed.map some
            ~ s₁.destroyed.map some ++
                (s₁.entries.filter fun p => p.name ∈ names).map BpfProgSkeleton.link :=
            hall.destroyed
          _ ~ s₁.destroyed.map some ++ ((s.entries.filter fun p => p.name ≠ progName).filter
                fun p => p.name ∈ names).map BpfProgSkeleton.link :=
            ((hone.entries.filter _).map _).append_left _
          _ = s.destroyed.map some ++ (s.entries.filter (fun p => p.name = progName) ++
                (s.entries.filter fun p => p.name ≠ progName).filter
                  fun p => p.name ∈ names).map BpfProgSkeleton.link := by
            rw [hone.destroyed, List.append_assoc, ← List.map_append]
          _ ~ s.destroyed.map some ++
                (s.entries.filter fun p => p.name ∈ progName :: names).map BpfProgSkeleton.link :=
            hperm.append_left _

/-! ## Names and types -/

namespace Handler

/-- The object with the program. -/
def object : Handler → Object
  | handleExec | handleExecveCmd _ | handleExit _ | handleFork | handleCommitCreds _ _
  | handleBprmCheck _ => .process
  | _ => .file

/-- The name of the program, in its object. -/
def program : Handler → String
  | handleExec => "handle_exec"
  | handleExecveCmd _ => "handle_execve_cmd"
  | handleExit _ => "handle_exit"
  | handleFork => "handle_fork"
  | handleCommitCreds _ _ => "handle_commit_creds"
  | handleBprmCheck _ => "handle_bprm_check"
  | doFilpOpenExit _ _ _ => "do_filp_open_exit"
  | fexitVfsWrite _ _ => "fexit_vfs_write"
  | fexitVfsUnlink _ _ => "fexit_vfs_unlink"
  | fexitVfsRead _ _ => "fexit_vfs_read"
  | fexitVfsUtimes _ => "fexit_vfs_utimes"
  | fexitChmodCommon _ => "fexit_chmod_common"
  | fexitChownCommon _ => "fexit_chown_common"
  | fentryVfsSetxattrNoperm _ _ => "fentry__vfs_setxattr_noperm"
  | fentryVfsRemovexattrLocked _ _ => "fentry__vfs_removexattr_locked"
  | fentryVfsRename _ => "fentry_vfs_rename"

/-- The type of the events that the program submits. -/
def type : Handler → BitVec 32
  | handleExec | handleFork | handleBprmCheck _ => creatprocess
  | handleExecveCmd _ => execcmd
  | handleExit _ => destroyprocess
  | handleCommitCreds _ _ => setprocessattr
  | doFilpOpenExit _ _ _ => createfile
  | fexitVfsWrite _ _ => writefile
  | fexitVfsUnlink _ _ => delfile
  | fexitVfsRead _ _ => readfile
  | _ => setfileattr

end Handler

variable {T : Type*} [DecidableEq T] {k : Kernel T} {e e' : EbpfEvent} {h : Handler}
  {mask : BitVec 32}

omit [DecidableEq T] in
theorem Guarded.eq_fill {fill : EbpfEvent → EbpfEvent} {run : EbpfEvent → Option EbpfEvent}
    (hguarded : Guarded k fill run) (hrun : run e = some e') : e' = fill e := by
  rcases hguarded with hnone | hsubmit
  · rw [hnone] at hrun
    cases hrun
  · rw [hsubmit] at hrun
    exact eq_of_reserveAndSubmit hrun

/-- A program submits events of one type only. -/
theorem type_of_run (hrun : h.run k e = some e') : e'.type = h.type := by
  cases h with
  | handleCommitCreds newUid newGid =>
      rw [(guarded_submit.ite _).eq_fill hrun]
      rfl
  | doFilpOpenExit pathname op retFile =>
      rw [(((guarded_submit.ite _).ite _).ite _).eq_fill hrun]
      rfl
  | fexitVfsWrite file ret | fexitVfsRead file ret =>
      rw [((guarded_submit.ite _).ite _).eq_fill hrun]
      rfl
  | fexitVfsUnlink dentry ret =>
      rw [(guarded_submit.ite _).eq_fill hrun]
      rfl
  | fentryVfsRename rd =>
      cases rd with
      | none => cases hrun
      | some rd =>
          rw [eq_of_reserveAndSubmit hrun]
          rfl
  | _ =>
      rw [eq_of_reserveAndSubmit hrun]
      rfl

/-- **The names and the types belong together.** -/
theorem program_mem_disabled_iff (h : Handler) (mask : BitVec 32) :
    h.program ∈ h.object.disabled mask ↔ mask &&& h.type = 0 := by
  cases h <;>
    simp [Handler.object, Handler.program, Handler.type, Object.disabled]

/-! ## Disabling by a mask -/

/-- A skeleton that was opened: each entry has a link of its own, and none is destroyed. -/
structure Fresh (s : BpfObjectSkeleton P L) : Prop extends s.Live where
  own : (s.entries.map BpfProgSkeleton.link).Nodup
  destroyed : s.destroyed = []

/-- The entries that are left are those that the mask does not disable, with their links; the
links of the others are destroyed once; and it is the wanted events that are left. -/
structure Exact [DecidableEq L] (k : Kernel T) (o : Object) (mask : BitVec 32)
    (s t : BpfObjectSkeleton P L) : Prop where
  progCnt_le : t.progCnt ≤ t.progs.length
  entries : t.entries.Perm (s.entries.filter fun p => p.name ∉ o.disabled mask)
  once : ∀ p ∈ s.entries, p.name ∈ o.disabled mask →
    ∀ link, p.link = some link → t.destroyed.count link = 1
  spared : ∀ p ∈ t.entries, ∀ link, p.link = some link → link ∉ t.destroyed
  wanted : ∀ p ∈ t.entries, ∀ h : Handler, h.object = o → h.program = p.name →
    ∀ e e', h.run k e = some e' → mask &&& e'.type ≠ 0
  known : ∀ p ∈ s.entries, ∀ h : Handler, h.object = o → h.program = p.name →
    mask &&& h.type ≠ 0 → p ∈ t.entries

/-- The links that are destroyed are those of the disabled entries. -/
theorem mem_destroyed_iff {t : BpfObjectSkeleton P L} {names : List String} (hfresh : Fresh s)
    (hall : DisablesAll names s t) {link : L} :
    link ∈ t.destroyed ↔ ∃ p ∈ s.entries, p.name ∈ names ∧ p.link = some link := by
  rw [← List.mem_map_of_injective (Option.some_injective L), hall.destroyed.mem_iff,
    hfresh.destroyed]
  simp [and_assoc]

/-- **Disabling by a mask removes exactly the unwanted programs.** -/
theorem disableProgBasedOnMask_exact [DecidableEq L] (k : Kernel T) (o : Object)
    (mask : BitVec 32) (hfresh : Fresh s) :
    ∃ t, o.disableProgBasedOnMask s mask = some t ∧ Exact k o mask s t := by
  obtain ⟨t, hfold, hall⟩ := foldlM_disableProg o hfresh.toLive (o.disabled mask)
  have hmem : ∀ p, p ∈ t.entries ↔ p ∈ s.entries ∧ p.name ∉ o.disabled mask := by
    intro p
    rw [hall.entries.mem_iff, List.mem_filter, decide_eq_true_iff]
  have hnodup : t.destroyed.Nodup := by
    have hperm := hall.destroyed
    rw [hfresh.destroyed, List.map_nil, List.nil_append] at hperm
    refine List.Nodup.of_map some (hperm.nodup_iff.mpr (hfresh.own.sublist ?_))
    exact List.filter_sublist.map _
  refine ⟨t, (disableProgBasedOnMask_eq o mask).trans hfold, hall.live.progCnt_le, hall.entries,
    fun p hp hname link hlink => ?_, fun p hp link hlink hdestroyed => ?_,
    fun p hp h hobject hprogram e e' hrun => ?_, fun p hp h hobject hprogram htype => ?_⟩
  · have hdestroyed := (mem_destroyed_iff hfresh hall).mpr ⟨p, hp, hname, hlink⟩
    exact List.count_eq_one_of_mem hnodup hdestroyed
  · obtain ⟨q, hq, hname, hlink'⟩ := (mem_destroyed_iff hfresh hall).mp hdestroyed
    obtain ⟨hp, hkept⟩ := (hmem p).mp hp
    have hsame : p = q := List.inj_on_of_nodup_map hfresh.own hp hq (hlink.trans hlink'.symm)
    exact hkept (hsame ▸ hname)
  · obtain ⟨-, hkept⟩ := (hmem p).mp hp
    subst hobject
    rw [← hprogram, program_mem_disabled_iff] at hkept
    rwa [type_of_run hrun]
  · subst hobject
    rw [hmem, ← hprogram, program_mem_disabled_iff]
    exact ⟨hp, htype⟩

/-- Three programs, in the order of their links. -/
def threePrograms : BpfObjectSkeleton Unit ℕ where
  progs := [⟨"handle_exec", (), some 0⟩, ⟨"handle_exit", (), some 1⟩, ⟨"handle_fork", (), some 2⟩]
  progCnt := 3
  destroyed := []

/-- Without a subscriber to created processes, the last program takes the place of the first
one, and is removed there. -/
theorem disableProgBasedOnMask_exact_three : ∃ t,
    Process.disableProgBasedOnMask threePrograms destroyprocess = some t ∧
      t.entries.Perm [⟨"handle_exit", (), some 1⟩] := by
  have hfresh : Fresh threePrograms := by
    refine ⟨⟨le_rfl, by decide, ?_⟩, by decide, rfl⟩
    intro p hp
    simp only [threePrograms, entries, List.take_succ_cons, List.take_zero, List.mem_cons,
      List.not_mem_nil, or_false] at hp
    rcases hp with rfl | rfl | rfl <;> exact Option.some_ne_none _
  obtain ⟨t, ht, hexact⟩ :=
    disableProgBasedOnMask_exact shellKernel .process destroyprocess hfresh
  exact ⟨t, ht, hexact.entries⟩

end SecDetector.Ebpf
