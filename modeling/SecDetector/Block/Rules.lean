import Mathlib.Data.Int.Notation
import Mathlib.Logic.Function.Basic
import SecDetector.Lib.KString

/-!
# The rules of the block cases

`proc_write` of `secDetector_task_block.c` and of `secDetector_file_block.c`: what is written
to the file of a case becomes a rule at the end of its list, or clears the list.

The function strips the copy of its input, but then takes the first line from where the copy
begins, so that leading space stays in the rule (`rule_stripped_iff`).  `strsep` moves the
pointer to the copy, and the moved pointer is freed: `stores_line_iff` says that a write is
right only if it clears the list.

The calls do not overlap, so the mutex and the grace periods are left out.
-/

namespace SecDetector.Block

open Lib

def eInval : ℤ := 22
def eNomem : ℤ := 12

theorem neg_eNomem : -eNomem < 0 := by decide

/-! ## The write -/

/-- `isspace` of the kernel; `0xa0` is the no-break space of Latin-1. -/
def isspace (c : UInt8) : Bool := (9 ≤ c && c ≤ 13) || c == 32 || c == 0xa0

def newline : UInt8 := 10

/-- The two cases that keep a list of rules. -/
inductive BlockCase where
  | taskBlock
  | fileBlock
  deriving DecidableEq

/-- `task_block_rule_list` and `file_block_rule_list`. -/
abbrev RuleLists := BlockCase → List Text

/-- `clear_task_rule_list` and `clear_file_rule_list`: the items are taken off one by one. -/
def clearRuleList : List Text → List Text
  | [] => []
  | _ :: rules => clearRuleList rules

/-- Which allocations succeed. -/
structure WriteEnv where
  memdupUserNul : Bool
  kstrdup : Bool
  kzalloc : Bool

/-- What a write returns, the lists after it, and the pointer that it frees at its end, as an
offset in the copy of its input. -/
structure WriteResult where
  ret : ℤ
  lists : RuleLists
  freed : Option ℕ

/-- `proc_write`; nothing if the kernel faults, since the error pointer of `memdup_user_nul` is
not tested for. -/
def procWrite (block : BlockCase) (lists : RuleLists) (buffer : List UInt8) (env : WriteEnv) :
    Option WriteResult :=
  if !env.memdupUserNul then none
  else
    let copy := buffer ++ [0]
    let data := some 0
    let (copy, str) := strstrip isspace copy 0
    if readString (copy.drop str) = some .empty then
      some ⟨buffer.length, Function.update lists block (clearRuleList (lists block)), data⟩
    else
      let (copy, data, str) := strsep newline copy data
      match str.bind fun str => readString (copy.drop str) with
      | none => none
      | some str =>
          if !env.kstrdup then some ⟨-eNomem, lists, data⟩
          else if !env.kzalloc then some ⟨-eNomem, lists, data⟩
          else some ⟨buffer.length, Function.update lists block (lists block ++ [str]), data⟩

/-- `proc_write` of the task block. -/
def taskBlockProcWrite := procWrite .taskBlock

/-- `proc_write` of the file block. -/
def fileBlockProcWrite := procWrite .fileBlock

/-! ## What a write should do -/

/-- The text in a buffer, which ends at its first NUL. -/
def textOf (buffer : List UInt8) : Text :=
  ⟨buffer.takeWhile (· ≠ 0), nul_notMem_takeWhile buffer⟩

/-- The first line of a text without the space around it. -/
def strippedLine (t : Text) : Text := (t.strip isspace).upTo newline

/-- A write with enough memory clears the list if the buffer is blank, and else appends the
stripped line of the buffer, and it frees the copy that it has made. -/
def StoresLine (block : BlockCase) (lists : RuleLists) (buffer : List UInt8) : Prop :=
  ∃ result, procWrite block lists buffer ⟨true, true, true⟩ = some result ∧
    (result.lists block = if (textOf buffer).Blank isspace then []
      else lists block ++ [strippedLine (textOf buffer)]) ∧
    result.freed = some 0

/-! ## What it does -/

variable {block : BlockCase} {lists : RuleLists} {buffer : List UInt8}

theorem clearRuleList_eq (rules : List Text) : clearRuleList rules = [] := by
  induction rules with
  | nil => rfl
  | cons rule rules ih => exact ih

theorem copy_eq (buffer : List UInt8) :
    ∃ rest, buffer ++ [0] = (textOf buffer).bytes ++ 0 :: rest := by
  have hsplit : buffer = (textOf buffer).bytes ++ buffer.dropWhile (· ≠ 0) :=
    List.takeWhile_append_dropWhile.symm
  cases hrest : buffer.dropWhile (· ≠ 0) with
  | nil =>
      refine ⟨[], ?_⟩
      conv_lhs => rw [hsplit, hrest, List.append_nil]
  | cons c rest =>
      have hhead := List.head_dropWhile_not (· ≠ 0) (l := buffer) (hrest ▸ List.cons_ne_nil c rest)
      simp only [hrest, List.head_cons] at hhead
      obtain rfl : c = 0 := by simpa using hhead
      refine ⟨rest ++ [0], ?_⟩
      conv_lhs => rw [hsplit, hrest, List.append_assoc]
      rfl

theorem memdupUserNul_of_procWrite {env : WriteEnv} {result : WriteResult}
    (hwrite : procWrite block lists buffer env = some result) : env.memdupUserNul = true := by
  by_contra hdup
  rw [procWrite, if_pos (by simpa using hdup)] at hwrite
  cases hwrite

/-- A blank buffer clears the list. -/
theorem procWrite_blank (hblank : (textOf buffer).Blank isspace) (env : WriteEnv)
    (hdup : env.memdupUserNul = true) :
    procWrite block lists buffer env =
      some ⟨buffer.length, Function.update lists block [], some 0⟩ := by
  obtain ⟨rest, hcopy⟩ := copy_eq buffer
  have hread := readString_strstrip isspace rfl (textOf buffer) rest
  rw [← hcopy, Text.strip_eq_empty_iff.mpr hblank] at hread
  simp only [procWrite, hdup, Bool.not_true, Bool.false_eq_true, if_false, hread, if_true,
    clearRuleList_eq]

/-- Any other buffer is a rule, with the space that leads it, and the pointer that is freed has
moved. -/
theorem procWrite_of_not_blank (block : BlockCase) (lists : RuleLists)
    (hblank : ¬ (textOf buffer).Blank isspace) :
    ∃ next, next ≠ some 0 ∧ ∀ env : WriteEnv, env.memdupUserNul = true →
      procWrite block lists buffer env = some (if env.kstrdup && env.kzalloc then
        ⟨buffer.length, Function.update lists block
          (lists block ++ [((textOf buffer).rstrip isspace).upTo newline]), next⟩
      else ⟨-eNomem, lists, next⟩) := by
  obtain ⟨rest, hcopy⟩ := copy_eq buffer
  have hread := readString_strstrip isspace rfl (textOf buffer) rest
  obtain ⟨rest', hstrip⟩ := strstrip_spec isspace rfl (textOf buffer) rest
  obtain ⟨rest'', next, hsep, hnext⟩ :=
    strsep_spec newline ((textOf buffer).rstrip isspace) rest'
  refine ⟨next, hnext, ?_⟩
  rintro ⟨_, kstrdup, kzalloc⟩ rfl
  have hsome : (textOf buffer).strip isspace ≠ .empty := mt Text.strip_eq_empty_iff.mp hblank
  rw [← hcopy] at hread hstrip
  have hne : ¬ readString ((strstrip isspace (buffer ++ [0]) 0).1.drop
      (strstrip isspace (buffer ++ [0]) 0).2) = some .empty := by
    rw [hread, Option.some.injEq]
    exact hsome
  simp only [procWrite, Bool.not_true, Bool.false_eq_true, if_false, hne]
  rw [hstrip]
  dsimp only
  rw [hsep]
  cases kstrdup <;> cases kzalloc <;> simp [readString_append_nul]

/-- **Any other buffer appends a rule** if there is memory for it. -/
theorem procWrite_rule (block : BlockCase) (lists : RuleLists)
    (hblank : ¬ (textOf buffer).Blank isspace) :
    ∃ next, procWrite block lists buffer ⟨true, true, true⟩ =
        some ⟨buffer.length, Function.update lists block
          (lists block ++ [((textOf buffer).rstrip isspace).upTo newline]), next⟩ ∧
      next ≠ some 0 := by
  obtain ⟨next, hnext, hwrite⟩ := procWrite_of_not_blank block lists hblank
  exact ⟨next, hwrite _ rfl, hnext⟩

/-- The rule is the stripped line exactly if no space leads the buffer. -/
theorem rule_stripped_iff {t : Text} (hblank : ¬ t.Blank isspace) :
    (t.rstrip isspace).upTo newline = strippedLine t ↔ t.strip isspace = t.rstrip isspace := by
  refine ⟨fun heq => ?_, fun heq => by rw [strippedLine, heq]⟩
  have hsome : t.strip isspace ≠ .empty := mt Text.strip_eq_empty_iff.mp hblank
  apply Text.ext
  show (t.rstrip isspace).bytes.dropWhile isspace = (t.rstrip isspace).bytes
  have hlines : (t.rstrip isspace).bytes.takeWhile (· ≠ newline) =
      ((t.rstrip isspace).bytes.dropWhile isspace).takeWhile (· ≠ newline) :=
    congrArg Text.bytes heq
  cases hfront : (t.rstrip isspace).bytes with
  | nil => rfl
  | cons a front =>
      rw [hfront] at hlines
      by_cases ha : isspace a = true
      · -- the stripped line begins with a byte that is no space, and so no newline
        cases hback : (a :: front).dropWhile isspace with
        | nil =>
            rw [← hfront] at hback
            exact absurd (Text.ext hback) hsome
        | cons c back =>
            have hhead := List.head_dropWhile_not isspace (hback ▸ List.cons_ne_nil c back)
            simp only [hback, List.head_cons] at hhead
            have hc : c ≠ newline := by
              rintro rfl
              exact absurd hhead (by decide)
            have hline : (c :: back).takeWhile (· ≠ newline) = c :: back.takeWhile (· ≠ newline) :=
              List.takeWhile_cons_of_pos (by simpa using hc)
            rw [hback, hline, List.takeWhile_cons] at hlines
            split at hlines
            · obtain rfl := (List.cons.inj hlines).1
              exact absurd ha (by simp [hhead])
            · simp at hlines
      · exact List.dropWhile_cons_of_neg ha

/-- **When a write does what it should**: exactly when it clears the list. -/
theorem stores_line_iff (block : BlockCase) (lists : RuleLists) (buffer : List UInt8) :
    StoresLine block lists buffer ↔ (textOf buffer).Blank isspace := by
  constructor
  · intro hstores
    by_contra hblank
    obtain ⟨result, hwrite, -, hfreed⟩ := hstores
    obtain ⟨next, hrule, hnext⟩ := procWrite_rule block lists hblank
    rw [hrule, Option.some.injEq] at hwrite
    exact hnext (by rw [← hfreed, ← hwrite])
  · intro hblank
    refine ⟨_, procWrite_blank hblank _ rfl, ?_, rfl⟩
    rw [if_pos hblank]
    exact Function.update_self _ _ _

/-- A rule is written, and the pointer behind its line is freed. -/
theorem not_stores_line :
    ¬ ∀ (block : BlockCase) (lists : RuleLists) (buffer : List UInt8),
      StoresLine block lists buffer := by
  intro hclaim
  obtain ⟨result, hwrite, -, hfreed⟩ :=
    hclaim .taskBlock (fun _ => []) (Text.ascii "/bin/ls\n").bytes
  have hnone : (procWrite .taskBlock (fun _ => []) (Text.ascii "/bin/ls\n").bytes
      ⟨true, true, true⟩).map (·.freed) = some none := by decide +kernel
  rw [hwrite, Option.map_some, hfreed] at hnone
  simp at hnone

end SecDetector.Block
