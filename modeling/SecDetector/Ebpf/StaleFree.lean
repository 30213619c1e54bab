import SecDetector.Ebpf.Written

/-!
# Stale contents of a record

A record of the ring buffer comes with the bytes of an earlier one.  The text of an event
should depend on the event only: two runs of a handler on the same input, with
different old contents of the record, should give the same text.

`staleFree_iff` says for which calls this holds.  It fails where a converter reads a field
that the handler has left alone: `have_bprm` for the two other handlers that report
`CREATPROCESS`, `value` and `old_value` for the handlers that report `SETFILEATTR` without
them, and `argv` or `envp` when the vector is empty.
-/

namespace SecDetector.Ebpf

open Lib Text Memory EbpfEvent

variable {T : Type*} [DecidableEq T] {k : Kernel T} {e : EbpfEvent} {name : Text} {env : Env}

/-! ## The handlers -/

/-- A call of one of the handlers, with its arguments. -/
inductive Handler where
  | handleExec
  | handleExecveCmd (ctx : Process.ExecveArg)
  | handleExit (exitCode : BitVec 64)
  | handleFork
  | handleCommitCreds (newUid newGid : BitVec 32)
  | handleBprmCheck (file : Option Text)
  | doFilpOpenExit (pathname : KernelString maxTextSize) (op : Option File.OpenFlags)
      (retFile : File.FileStruct)
  | fexitVfsWrite (file : File.FileStruct) (ret : ℤ)
  | fexitVfsUnlink (dentry : KernelString maxTextSize) (ret : ℤ)
  | fexitVfsRead (file : File.FileStruct) (ret : ℤ)
  | fexitVfsUtimes (path : KernelString maxTextSize)
  | fexitChmodCommon (path : KernelString maxTextSize)
  | fexitChownCommon (path : KernelString maxTextSize)
  | fentryVfsSetxattrNoperm (dentry : KernelString maxTextSize) (name : Option Text)
  | fentryVfsRemovexattrLocked (dentry : KernelString maxTextSize) (name : Option Text)
  | fentryVfsRename (rd : Option File.Renamedata)

/-- The record that the call submits, if any. -/
def Handler.run (k : Kernel T) : Handler → EbpfEvent → Option EbpfEvent
  | .handleExec => Process.handleExec k
  | .handleExecveCmd ctx => Process.handleExecveCmd k ctx
  | .handleExit exitCode => Process.handleExit k exitCode
  | .handleFork => Process.handleFork k
  | .handleCommitCreds newUid newGid => Process.handleCommitCreds k newUid newGid
  | .handleBprmCheck file => Process.handleBprmCheck k file
  | .doFilpOpenExit pathname op retFile => File.doFilpOpenExit k pathname op retFile
  | .fexitVfsWrite file ret => File.fexitVfsWrite k file ret
  | .fexitVfsUnlink dentry ret => File.fexitVfsUnlink k dentry ret
  | .fexitVfsRead file ret => File.fexitVfsRead k file ret
  | .fexitVfsUtimes path => File.fexitVfsUtimes k path
  | .fexitChmodCommon path => File.fexitChmodCommon k path
  | .fexitChownCommon path => File.fexitChownCommon k path
  | .fentryVfsSetxattrNoperm dentry name => File.fentryVfsSetxattrNoperm k dentry name
  | .fentryVfsRemovexattrLocked dentry name => File.fentryVfsRemovexattrLocked k dentry name
  | .fentryVfsRename rd => File.fentryVfsRename k rd

/-- The text of the call does not depend on the old contents of the record. -/
def StaleFree (k : Kernel T) (h : Handler) : Prop :=
  ∀ (env : Env) (e e' : EbpfEvent),
    (h.run k e).map (ebpfEventToText env) = (h.run k e').map (ebpfEventToText env)

/-- No record is submitted: the caller is the daemon, or the ring buffer is full. -/
def Kernel.Silent (k : Kernel T) : Prop := k.ourself = true ∨ k.reserved = false

/-- The call writes what the converter will read, or submits nothing. -/
def Handler.WritesAll (k : Kernel T) : Handler → Prop
  | .handleExec | .handleFork => k.Silent
  | .handleExecveCmd ctx => k.Silent ∨
      (∃ src, ctx.argv 0 = .string src) ∧ ∃ src, ctx.envp 0 = .string src
  | .fexitVfsUtimes _ | .fexitChmodCommon _ | .fexitChownCommon _ => k.Silent
  | .fentryVfsSetxattrNoperm _ _ | .fentryVfsRemovexattrLocked _ _ => k.Silent
  | _ => True

/-! ## Submitting -/

variable {fill : EbpfEvent → EbpfEvent}

omit [DecidableEq T] in
theorem reserveAndSubmit_of_silent (hsilent : k.Silent) : reserveAndSubmit k fill e = none := by
  unfold reserveAndSubmit
  rcases hsilent with hself | hfull
  · rw [if_pos hself]
  · rw [hfull]
    split <;> rfl

omit [DecidableEq T] in
theorem reserveAndSubmit_of_not_silent (hloud : ¬ k.Silent) :
    reserveAndSubmit k fill e = some (fill e) := by
  rw [Kernel.Silent, not_or, Bool.not_eq_false] at hloud
  rw [reserveAndSubmit, if_neg hloud.1, if_pos hloud.2]

omit [DecidableEq T] in
/-- The texts are the same if what is filled in determines the text. -/
theorem staleFree_of_fill (hfill : ∀ env, ∃ text, ∀ e, ebpfEventToText env (fill e) = text)
    (env : Env) (e e' : EbpfEvent) :
    (reserveAndSubmit k fill e).map (ebpfEventToText env) =
      (reserveAndSubmit k fill e').map (ebpfEventToText env) := by
  by_cases hsilent : k.Silent
  · rw [reserveAndSubmit_of_silent hsilent, reserveAndSubmit_of_silent hsilent]
  · obtain ⟨text, htext⟩ := hfill env
    rw [reserveAndSubmit_of_not_silent hsilent, reserveAndSubmit_of_not_silent hsilent,
      Option.map_some, Option.map_some, htext, htext]

omit [DecidableEq T] in
/-- Two old contents with different texts show that something was not written. -/
theorem silent_of_ne (hsame : ∀ env e e', (reserveAndSubmit k fill e).map (ebpfEventToText env) =
      (reserveAndSubmit k fill e').map (ebpfEventToText env)) {e e' : EbpfEvent}
    (hne : ebpfEventToText env (fill e) ≠ ebpfEventToText env (fill e')) : k.Silent := by
  by_contra hloud
  have heq := hsame env e e'
  rw [reserveAndSubmit_of_not_silent hloud, reserveAndSubmit_of_not_silent hloud,
    Option.map_some, Option.map_some, Option.some.injEq] at heq
  exact hne heq

/-! ## Old contents that show -/

/-- A record with nothing in it. -/
def blank : EbpfEvent where
  type := 0
  eventName := []
  timestamp := 0
  uid := 0
  gid := 0
  exe := []
  pid := 0
  comm := []
  tgid := 0
  pgid := 0
  ppid := 0
  pcomm := []
  sid := 0
  nodename := []
  pns := 0
  rootPns := 0
  info := fun _ => 0

/-- A record in which an earlier event left a string at `off`. -/
def leftover (off : ℕ) : EbpfEvent :=
  blank.storeInfo off ((ascii "x").bytes ++ [0])

theorem holds_blank (off : ℕ) : Holds blank.info off .empty := rfl

theorem holds_leftover_self (off : ℕ) : Holds (leftover off).info off (ascii "x") :=
  holds_store_self _ _ _ _

theorem holds_leftover {off off' : ℕ} (hapart : off + 1 ≤ off' ∨ off' + 2 ≤ off) :
    Holds (leftover off').info off .empty :=
  Holds.store (holds_blank off) hapart

/-- Nowhere to ask: every link of `/proc` is unreadable. -/
def noEnv : Env where
  localTime := .empty
  readlink _ := none

/-- `have_bprm` is read, and was not written. -/
theorem creatEvent_ne (k : Kernel T) (name : Text) : ∃ e e',
    ebpfEventToText noEnv (Process.creatEvent k name e) ≠
      ebpfEventToText noEnv (Process.creatEvent k name e') := by
  obtain ⟨text, htext⟩ := exists_createText noEnv k name
  have heq : ∀ e, Process.creatEvent k name e = named k name { e with type := creatprocess } :=
    fun _ => rfl
  have hunset : (named k name { blank with type := creatprocess }).u32 ProcessInfo.haveBprm = 0 :=
    u32_named (by simp)
  have hset : (named k name { blank.storeU32 ProcessInfo.haveBprm 1 with
      type := creatprocess }).u32 ProcessInfo.haveBprm = 1 :=
    (u32_named (by simp)).trans (u32_storeU32_self _)
  have hfile : (named k name { blank.storeU32 ProcessInfo.haveBprm 1 with
      type := creatprocess }).cstr ProcessInfo.bprmFile = some .empty := by
    refine cstr_of_holds (holds_named (Holds.store (holds_blank _) (.inl ?_)) (by simp)) (by simp)
    simp
  refine ⟨blank, blank.storeU32 ProcessInfo.haveBprm 1, ?_⟩
  rw [heq, heq, htext _ rfl filled_named processFilled_named,
    htext _ rfl filled_named processFilled_named, hfile, hunset, hset, if_neg (by simp),
    if_pos Nat.one_ne_zero]
  intro hsame
  have hlength := congrArg Text.length (Option.some.inj hsame)
  simp [length_ascii] at hlength

/-- `value` is read, and was not written. -/
theorem attrEvent_ne (k : Kernel T) (filename : KernelString maxTextSize) (attr : Option Text) :
    ∃ e e', ebpfEventToText noEnv (File.attrEvent k filename attr e) ≠
      ebpfEventToText noEnv (File.attrEvent k filename attr e') := by
  obtain ⟨text, htext⟩ := exists_text_attrFilled (k := k) filename attr noEnv
  have hempty : Holds (leftover FileInfo.value).info FileInfo.oldValue .empty :=
    holds_leftover (.inr (by simp))
  refine ⟨blank, leftover FileInfo.value, ?_⟩
  rw [htext _ .empty .empty attrFilled_attrEvent (by decide) (by decide)
      (holds_attrEvent (holds_blank _) (by simp)) (holds_attrEvent (holds_blank _) (by simp)),
    htext _ (ascii "x") .empty attrFilled_attrEvent (by decide) (by decide)
      (holds_attrEvent (holds_leftover_self _) (by simp)) (holds_attrEvent hempty (by simp))]
  intro hsame
  have hlength := congrArg Text.length (Option.some.inj hsame)
  simp [length_ascii] at hlength

/-- An empty vector leaves its field, and the field is read. -/
theorem execveCmdEvent_ne_argv (k : Kernel T) {ctx : Process.ExecveArg}
    (hargv : ctx.argv 0 = .null ∨ ctx.argv 0 = .unreadable) :
    ∃ e e', ebpfEventToText noEnv (Process.execveCmdEvent k ctx e) ≠
      ebpfEventToText noEnv (Process.execveCmdEvent k ctx e') := by
  obtain ⟨text, htext⟩ := exists_text_execveCmd (k := k) ctx noEnv
  obtain ⟨envp, hlength, hread⟩ := exists_holds_readArgs ProcessInfo.envp ctx.envp
  have henvp : ∀ e, Holds e.info ProcessInfo.envp .empty →
      Holds (envpRead k ctx e) ProcessInfo.envp envp :=
    fun e hempty => hread _ (.inr (holds_argvRead hempty))
  refine ⟨blank, leftover ProcessInfo.argv, ?_⟩
  rw [htext blank .empty envp (by decide) hlength
      (holds_argvRead_null hargv (holds_blank _)) (henvp _ (holds_blank _)),
    htext (leftover ProcessInfo.argv) (ascii "x") envp (by decide) hlength
      (holds_argvRead_null hargv (holds_leftover_self _))
      (henvp _ (holds_leftover (.inr (by simp))))]
  intro hsame
  have hlength := congrArg Text.length (Option.some.inj hsame)
  simp [length_ascii] at hlength

theorem execveCmdEvent_ne_envp (k : Kernel T) {ctx : Process.ExecveArg}
    (henvp : ctx.envp 0 = .null ∨ ctx.envp 0 = .unreadable) :
    ∃ e e', ebpfEventToText noEnv (Process.execveCmdEvent k ctx e) ≠
      ebpfEventToText noEnv (Process.execveCmdEvent k ctx e') := by
  obtain ⟨text, htext⟩ := exists_text_execveCmd (k := k) ctx noEnv
  obtain ⟨argv, hlength, hread⟩ := exists_holds_readArgs ProcessInfo.argv ctx.argv
  have hargv : ∀ e, Holds e.info ProcessInfo.argv .empty →
      Holds (argvRead k ctx e) ProcessInfo.argv argv :=
    fun e hempty => hread _ (.inr (holds_execveStored hempty le_rfl))
  refine ⟨blank, leftover ProcessInfo.envp, ?_⟩
  rw [htext blank argv .empty hlength (by decide) (hargv _ (holds_blank _))
      (holds_envpRead_null henvp (holds_blank _)),
    htext (leftover ProcessInfo.envp) argv (ascii "x") hlength (by decide)
      (hargv _ (holds_leftover (.inl (by simp))))
      (holds_envpRead_null henvp (holds_leftover_self _))]
  intro hsame
  have hlength := congrArg Text.length (Option.some.inj hsame)
  simp [length_ascii] at hlength

/-! ## Which calls are free of stale contents -/

/-- A first argument that is a pointer. -/
theorem exists_string_or (p : Process.ArgPointer) :
    (∃ src, p = .string src) ∨ p = .null ∨ p = .unreadable := by
  cases p <;> simp

theorem staleFree_execveCmd_iff (k : Kernel T) (ctx : Process.ExecveArg) :
    StaleFree k (.handleExecveCmd ctx) ↔ k.Silent ∨
      (∃ src, ctx.argv 0 = .string src) ∧ ∃ src, ctx.envp 0 = .string src := by
  constructor
  · intro hfree
    rcases exists_string_or (ctx.argv 0) with hargv | hargv
    · rcases exists_string_or (ctx.envp 0) with henvp | henvp
      · exact .inr ⟨hargv, henvp⟩
      · obtain ⟨e, e', hne⟩ := execveCmdEvent_ne_envp k henvp
        exact .inl (silent_of_ne hfree hne)
    · obtain ⟨e, e', hne⟩ := execveCmdEvent_ne_argv k hargv
      exact .inl (silent_of_ne hfree hne)
  · intro hwrites env e e'
    rcases hwrites with hsilent | ⟨hargv, henvp⟩
    · show (reserveAndSubmit _ _ _).map _ = (reserveAndSubmit _ _ _).map _
      rw [reserveAndSubmit_of_silent hsilent, reserveAndSubmit_of_silent hsilent]
    · refine staleFree_of_fill (fun env => ?_) env e e'
      obtain ⟨text, htext⟩ := exists_text_execveCmd (k := k) ctx env
      obtain ⟨argv, hargvLength, hargvRead⟩ := exists_holds_readArgs ProcessInfo.argv ctx.argv
      obtain ⟨envp, henvpLength, henvpRead⟩ := exists_holds_readArgs ProcessInfo.envp ctx.envp
      exact ⟨_, fun e => htext e argv envp hargvLength henvpLength (hargvRead _ (.inl hargv))
        (henvpRead _ (.inl henvp))⟩

/-- A handler that leaves something unwritten is free of stale contents only when it submits
nothing. -/
theorem staleFree_iff_silent {h : Handler} (hrun : ∀ e, h.run k e = reserveAndSubmit k fill e)
    (hne : ∃ e e', ebpfEventToText noEnv (fill e) ≠ ebpfEventToText noEnv (fill e')) :
    StaleFree k h ↔ k.Silent := by
  constructor
  · intro hfree
    obtain ⟨e, e', hne⟩ := hne
    refine silent_of_ne (fun env e e' => ?_) hne
    rw [← hrun, ← hrun]
    exact hfree env e e'
  · intro hsilent env e e'
    rw [hrun, hrun, reserveAndSubmit_of_silent hsilent, reserveAndSubmit_of_silent hsilent]

/-- A handler that tests its input, and then submits nothing or what it fills in. -/
def Guarded (k : Kernel T) (fill : EbpfEvent → EbpfEvent) (run : EbpfEvent → Option EbpfEvent) :
    Prop :=
  (∀ e, run e = none) ∨ ∀ e, run e = reserveAndSubmit k fill e

omit [DecidableEq T] in
theorem guarded_submit : Guarded k fill (reserveAndSubmit k fill) :=
  .inr fun _ => rfl

omit [DecidableEq T] in
theorem Guarded.ite {run : EbpfEvent → Option EbpfEvent} (hguarded : Guarded k fill run) (c : Prop)
    [Decidable c] : Guarded k fill fun e => if c then none else run e := by
  by_cases hc : c
  · exact .inl fun _ => if_pos hc
  · rcases hguarded with hnone | hsubmit
    · exact .inl fun e => (if_neg hc).trans (hnone e)
    · exact .inr fun e => (if_neg hc).trans (hsubmit e)

/-- A handler that writes everything, whatever it tests before. -/
theorem staleFree_of_guarded {h : Handler} (hguarded : Guarded k fill (h.run k))
    (hfill : ∀ env, ∃ text, ∀ e, ebpfEventToText env (fill e) = text) : StaleFree k h := by
  intro env e e'
  rcases hguarded with hnone | hsubmit
  · rw [hnone, hnone]
  · rw [hsubmit, hsubmit]
    exact staleFree_of_fill hfill env e e'

/-- **The text of a call depends on the event only if and only if the call writes what the
converter reads.** -/
theorem staleFree_iff (k : Kernel T) (h : Handler) : StaleFree k h ↔ h.WritesAll k := by
  cases h with
  | handleExec | handleFork => exact staleFree_iff_silent (fun _ => rfl) (creatEvent_ne k _)
  | handleExecveCmd ctx => exact staleFree_execveCmd_iff k ctx
  | fexitVfsUtimes path | fexitChmodCommon path | fexitChownCommon path =>
      exact staleFree_iff_silent (fun _ => rfl) (attrEvent_ne k _ _)
  | fentryVfsSetxattrNoperm dentry name | fentryVfsRemovexattrLocked dentry name =>
      exact staleFree_iff_silent (fun _ => rfl) (attrEvent_ne k _ _)
  | handleExit exitCode =>
      exact iff_true_intro (staleFree_of_guarded guarded_submit (exists_text_exit exitCode))
  | handleCommitCreds newUid newGid =>
      exact iff_true_intro (staleFree_of_guarded (guarded_submit.ite _)
        (exists_text_commitCreds newUid newGid))
  | handleBprmCheck file =>
      exact iff_true_intro (staleFree_of_guarded guarded_submit (exists_text_bprmCheck file))
  | doFilpOpenExit pathname op retFile =>
      exact iff_true_intro (staleFree_of_guarded (((guarded_submit.ite _).ite _).ite _)
        (exists_text_fileEvent (.inl rfl) _ pathname))
  | fexitVfsWrite file ret =>
      exact iff_true_intro (staleFree_of_guarded ((guarded_submit.ite _).ite _)
        (exists_text_fileEvent (.inr (.inr (.inl rfl))) _ file.name))
  | fexitVfsUnlink dentry ret =>
      exact iff_true_intro (staleFree_of_guarded (guarded_submit.ite _)
        (exists_text_fileEvent (.inr (.inl rfl)) _ dentry))
  | fexitVfsRead file ret =>
      exact iff_true_intro (staleFree_of_guarded ((guarded_submit.ite _).ite _)
        (exists_text_fileEvent (.inr (.inr (.inr rfl))) _ file.name))
  | fentryVfsRename rd =>
      apply iff_true_intro
      cases rd with
      | none => exact fun _ _ _ => rfl
      | some rd => exact staleFree_of_guarded guarded_submit (exists_text_rename rd)

/-! ## A process that the next event takes for checked -/

/-- A shell, the child of itself. -/
def shellTask : TaskStruct Unit where
  pid := 42
  tgid := 42
  realParent := some ()
  parent := some ()
  comm := ⟨ascii "sh", List.replicate 13 0, by rw [List.length_replicate]; rfl⟩
  uid := 0
  gid := 0
  session := some 42
  pidNs := some 1
  nodename := ⟨ascii "host", List.replicate 251 0, by rw [List.length_replicate]; rfl⟩
  umask := 0o022
  ptrace := 0
  cgroupNs := 1
  ipcNs := 2
  mntNs := 3
  userNs := 4
  utsNs := 5
  timeNs := 6

def shellKernel : Kernel Unit where
  task _ := shellTask
  current := ()
  ktime := 1000
  secdetectorPid := 7
  reserved := true

/-- After an event of `handle_bprm_check`, the record of `handle_exec` has a `bprm_file`. -/
theorem not_staleFree :
    ¬ ∀ (T : Type) [DecidableEq T] (k : Kernel T) (h : Handler), StaleFree k h := by
  intro hclaim
  have hsame := hclaim Unit shellKernel .handleExec noEnv blank
    (Process.bprmCheckEvent shellKernel (some (ascii "ls")) blank)
  have hne : (Handler.handleExec.run shellKernel blank).map (ebpfEventToText noEnv) ≠
      (Handler.handleExec.run shellKernel
        (Process.bprmCheckEvent shellKernel (some (ascii "ls")) blank)).map
          (ebpfEventToText noEnv) := by
    decide +kernel
  exact hne hsame

end SecDetector.Ebpf
