import SecDetector.Ebpf.Fields

/-!
# The text of a record, by its type

Which fields a converter reads.  A theorem `exists_…Text` says that a text is determined
by the kernel and by the fields that it names; a field that a handler may leave
alone appears in the text itself.
-/

namespace SecDetector.Ebpf

open Lib Text Memory EbpfEvent

variable {T : Type*} [DecidableEq T] {k : Kernel T} {e : EbpfEvent} {name : Text} {env : Env}

/-! ## The converters -/

theorem text_creatprocess (htype : e.type = creatprocess) :
    ebpfEventToText env e = convertCreatProcess env e := by
  rw [ebpfEventToText, htype]
  rfl

theorem text_destroyprocess (htype : e.type = destroyprocess) :
    ebpfEventToText env e = convertDestroyProcess env e := by
  rw [ebpfEventToText, htype]
  rfl

theorem text_setprocessattr (htype : e.type = setprocessattr) :
    ebpfEventToText env e = convertSetProcessAttr env e := by
  rw [ebpfEventToText, htype]
  rfl

theorem text_execcmd (htype : e.type = execcmd) :
    ebpfEventToText env e = convertExecveCmd env e := by
  rw [ebpfEventToText, htype]
  rfl

theorem text_setfileattr (htype : e.type = setfileattr) :
    ebpfEventToText env e = convertSetFileAttr env e := by
  rw [ebpfEventToText, htype]
  rfl

theorem text_file (htype : e.type = createfile ∨ e.type = delfile ∨ e.type = writefile ∨
    e.type = readfile) : ebpfEventToText env e = convertCommonFile env e := by
  rcases htype with htype | htype | htype | htype <;> rw [ebpfEventToText, htype] <;> rfl

/-! ## What a text is made of -/

theorem exists_destroyText (env : Env) (k : Kernel T) (name : Text) (exitCode : ℕ) :
    ∃ text, ∀ e, e.type = destroyprocess → Filled k name e → ProcessFilled k e →
      e.u32 ProcessInfo.exitCode = exitCode → ebpfEventToText env e = text := by
  obtain ⟨common, hcommon⟩ := exists_commonText env k name
  obtain ⟨process, hprocess⟩ := exists_processText env k
  refine ⟨some (common ++ process ++ ascii " exit_code:" ++ decimal exitCode), ?_⟩
  intro e htype hfilled hprocessFilled hexit
  rw [text_destroyprocess htype, convertDestroyProcess, hcommon e hfilled,
    hprocess e hfilled.pid hprocessFilled, hexit]
  rfl

theorem exists_setAttrText (env : Env) (k : Kernel T) (name : Text) (newUid newGid : ℕ) :
    ∃ text, ∀ e, e.type = setprocessattr → Filled k name e → ProcessFilled k e →
      e.u32 ProcessInfo.newUid = newUid → e.u32 ProcessInfo.newGid = newGid →
      ebpfEventToText env e = text := by
  obtain ⟨common, hcommon⟩ := exists_commonText env k name
  obtain ⟨process, hprocess⟩ := exists_processText env k
  refine ⟨some (common ++ process ++ ascii " new_uid:" ++ decimal newUid ++ ascii " new_gid:" ++
    decimal newGid), ?_⟩
  intro e htype hfilled hprocessFilled huid hgid
  rw [text_setprocessattr htype, convertSetProcessAttr, hcommon e hfilled,
    hprocess e hfilled.pid hprocessFilled, huid, hgid]
  rfl

/-- The text of a created process, by `have_bprm` and `bprm_file`. -/
theorem exists_createText (env : Env) (k : Kernel T) (name : Text) :
    ∃ text, ∀ e, e.type = creatprocess → Filled k name e → ProcessFilled k e →
      ebpfEventToText env e =
        if e.u32 ProcessInfo.haveBprm ≠ 0 then
          (e.cstr ProcessInfo.bprmFile).map (text ++ ascii " bprm_file:" ++ ·)
        else some text := by
  obtain ⟨common, hcommon⟩ := exists_commonText env k name
  obtain ⟨process, hprocess⟩ := exists_processText env k
  refine ⟨common ++ process, ?_⟩
  intro e htype hfilled hprocessFilled
  rw [text_creatprocess htype, convertCreatProcess, hcommon e hfilled,
    hprocess e hfilled.pid hprocessFilled]
  split
  · cases e.cstr ProcessInfo.bprmFile <;> rfl
  · rfl

/-- The text of a command, by its strings. -/
theorem exists_execText (env : Env) (k : Kernel T) (name filename : Text) :
    ∃ text, ∀ e, e.type = execcmd → Filled k name e →
      e.cstr ProcessInfo.filename = some filename →
      ebpfEventToText env e = (e.cstr ProcessInfo.argv).bind fun argv =>
        (e.cstr ProcessInfo.envp).map fun envp =>
          text ++ ascii " argv:" ++ argv ++ ascii " envp:" ++ envp := by
  obtain ⟨common, hcommon⟩ := exists_commonText env k name
  refine ⟨common ++ ascii " filename:" ++ filename, ?_⟩
  intro e htype hfilled hfilename
  rw [text_execcmd htype, convertExecveCmd, hcommon e hfilled, hfilename]
  cases e.cstr ProcessInfo.argv with
  | none => rfl
  | some argv => cases e.cstr ProcessInfo.envp <;> rfl

theorem exists_fileText (env : Env) (k : Kernel T) (name filename : Text) :
    ∃ text, ∀ e, (e.type = createfile ∨ e.type = delfile ∨ e.type = writefile ∨
      e.type = readfile) → Filled k name e → e.cstr FileInfo.filename = some filename →
      ebpfEventToText env e = text := by
  obtain ⟨common, hcommon⟩ := exists_commonText env k name
  refine ⟨some (common ++ ascii " filename:" ++ filename), ?_⟩
  intro e htype hfilled hfilename
  rw [text_file htype, convertCommonFile, hcommon e hfilled, hfilename]
  rfl

/-- The text of a changed attribute, by its values. -/
theorem exists_attrText (env : Env) (k : Kernel T) (name filename attr : Text) :
    ∃ text, ∀ e, e.type = setfileattr → Filled k name e →
      e.cstr FileInfo.filename = some filename → e.cstr FileInfo.name = some attr →
      ebpfEventToText env e = (e.cstr FileInfo.value).bind fun value =>
        (e.cstr FileInfo.oldValue).map fun oldValue =>
          text ++ ascii " value:" ++ value ++ ascii " old_value:" ++ oldValue := by
  obtain ⟨common, hcommon⟩ := exists_commonText env k name
  refine ⟨common ++ ascii " filename:" ++ filename ++ ascii " name:" ++ attr, ?_⟩
  intro e htype hfilled hfilename hattr
  rw [text_setfileattr htype, convertSetFileAttr, hcommon e hfilled, hfilename, hattr]
  cases e.cstr FileInfo.value with
  | none => rfl
  | some value => cases e.cstr FileInfo.oldValue <;> rfl

end SecDetector.Ebpf
