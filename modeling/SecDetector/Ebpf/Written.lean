import SecDetector.Ebpf.Arguments
import SecDetector.Ebpf.Texts

/-!
# What the handlers write

The record of a handler as stores around the common fields, and the text of it.  Where
the handler writes everything that the converter reads, the text is the same for
every old content of the record.
-/

namespace SecDetector.Ebpf

open Lib Text Memory EbpfEvent

variable {T : Type*} [DecidableEq T] {k : Kernel T} {e : EbpfEvent} {name : Text} {env : Env}

/-! ## Events of a process

A handler of the process program fills in the common fields of a record and names it,
with stores before and after. -/

def named (k : Kernel T) (name : Text) (e : EbpfEvent) : EbpfEvent :=
  (Process.getCommonInfo k e).setEventName name

theorem type_named : (named k name e).type = e.type := rfl

theorem info_named : (named k name e).info = (Process.getCommonInfo k e).info := rfl

theorem filled_named : Filled k name (named k name e) where
  common := rfl
  eventName := ⟨_, rfl⟩

theorem processFilled_named : ProcessFilled k (named k name e) :=
  (processFilled_getCommonInfo k e).of_info rfl

theorem u32_named {off : ℕ} (hapart : off + 4 ≤ 16 ∨ 72 ≤ off) :
    (named k name e).u32 off = e.u32 off := by
  rw [u32, info_named]
  exact u32_getCommonInfo hapart

theorem holds_named {off : ℕ} {t : Text} (h : Holds e.info off t) (hoff : 72 ≤ off) :
    Holds (named k name e).info off t := by
  rw [info_named]
  exact holds_getCommonInfo h hoff

theorem Filled.storeInfo (hfilled : Filled k name e) (off : ℕ) (bytes : List UInt8) :
    Filled k name (e.storeInfo off bytes) where
  common := congrArg (EbpfEvent.storeInfo · off bytes) hfilled.common
  eventName := hfilled.eventName

omit [DecidableEq T] in
theorem cstr_of_holds {off : ℕ} {t : Text} (h : Holds e.info off t)
    (hlimit : off + (t.length + 1) ≤ infoSize) : e.cstr off = some t :=
  h.cstring hlimit

theorem exists_text_exit (exitCode : BitVec 64) (env : Env) : ∃ text, ∀ e,
    ebpfEventToText env (Process.exitEvent k exitCode e) = text := by
  obtain ⟨text, htext⟩ := exists_destroyText env k (ascii "sched_process_exit")
    ((exitCode.sshiftRight 8 &&& 0xff).setWidth 32).toNat
  refine ⟨text, fun e => ?_⟩
  have heq : Process.exitEvent k exitCode e =
      (named k (ascii "sched_process_exit") { e with type := destroyprocess }).storeU32
        ProcessInfo.exitCode ((exitCode.sshiftRight 8 &&& 0xff).setWidth 32) := rfl
  rw [heq]
  exact htext _ rfl (filled_named.storeInfo _ _)
    (processFilled_named.storeInfo (.inl (by simp))) (u32_storeU32_self _)

theorem exists_text_commitCreds (newUid newGid : BitVec 32) (env : Env) : ∃ text, ∀ e,
    ebpfEventToText env (Process.commitCredsEvent k newUid newGid e) = text := by
  obtain ⟨text, htext⟩ := exists_setAttrText env k (ascii "commit_creds") newUid.toNat
    newGid.toNat
  refine ⟨text, fun e => ?_⟩
  have heq : Process.commitCredsEvent k newUid newGid e = named k (ascii "commit_creds")
      (({ e with type := setprocessattr }.storeU32 ProcessInfo.newUid newUid).storeU32
        ProcessInfo.newGid newGid) := rfl
  rw [heq]
  apply htext _ rfl filled_named processFilled_named
  · rw [u32_named (by simp), u32_storeU32 _ (by simp), u32_storeU32_self]
  · rw [u32_named (by simp), u32_storeU32_self]

theorem exists_text_bprmCheck (file : Option Text) (env : Env) : ∃ text, ∀ e,
    ebpfEventToText env (Process.bprmCheckEvent k file e) = text := by
  obtain ⟨text, htext⟩ := exists_createText env k (ascii "security_bprm_check")
  refine ⟨some (text ++ ascii " bprm_file:" ++ probeText maxFilenameSize file), fun e => ?_⟩
  have heq : Process.bprmCheckEvent k file e = named k (ascii "security_bprm_check")
      (({ e with type := creatprocess }.storeInfo ProcessInfo.bprmFile
        (Process.probeBytes maxFilenameSize file)).storeU32 ProcessInfo.haveBprm 1) := rfl
  have hlength : (probeText maxFilenameSize file).length < 256 := length_probeText (by decide) file
  rw [heq]
  generalize hstored : ({ e with type := creatprocess }.storeInfo ProcessInfo.bprmFile
    (Process.probeBytes maxFilenameSize file)) = stored
  have hholds : Holds stored.info ProcessInfo.bprmFile (probeText maxFilenameSize file) := by
    rw [← hstored]
    exact holds_probeBytes (by decide) _ _ _
  have hhave : (named k (ascii "security_bprm_check")
      (stored.storeU32 ProcessInfo.haveBprm 1)).u32 ProcessInfo.haveBprm = 1 := by
    rw [u32_named (by simp), u32_storeU32_self]
    rfl
  have hfile : (named k (ascii "security_bprm_check")
      (stored.storeU32 ProcessInfo.haveBprm 1)).cstr ProcessInfo.bprmFile =
      some (probeText maxFilenameSize file) := by
    refine Holds.cstring (holds_named (hholds.store (.inl ?_)) (by simp)) ?_
    · simp only [ProcessInfo.bprmFile, ProcessInfo.haveBprm]
      omega
    · simp only [ProcessInfo.bprmFile, infoSize]
      omega
  rw [htext _ (by rw [type_named, ← hstored]; rfl) filled_named processFilled_named, hhave, hfile]
  rfl

/-! ## Commands -/

/-- The record of `handle_execve_cmd` before the argument vectors are read. -/
def execveStored (k : Kernel T) (ctx : Process.ExecveArg) (e : EbpfEvent) : EbpfEvent :=
  (named k (ascii "execve_cmd" (ascii_check "execve_cmd" trivial))
    { e with type := execcmd }).storeInfo ProcessInfo.filename
    (Process.probeBytes maxFilenameSize ctx.filename)

variable {ctx : Process.ExecveArg}

/-- The union with `argv` read. -/
def argvRead (k : Kernel T) (ctx : Process.ExecveArg) (e : EbpfEvent) : ℕ → UInt8 :=
  Process.readArgs ProcessInfo.argv ctx.argv (execveStored k ctx e).info

/-- The union with both vectors read. -/
def envpRead (k : Kernel T) (ctx : Process.ExecveArg) (e : EbpfEvent) : ℕ → UInt8 :=
  Process.readArgs ProcessInfo.envp ctx.envp (argvRead k ctx e)

theorem execveCmdEvent_eq : Process.execveCmdEvent k ctx e =
    { execveStored k ctx e with info := envpRead k ctx e } := by
  have hstored : ({ Process.getCommonInfo k e with type := execcmd }.setEventName
      (ascii "execve_cmd")).storeInfo ProcessInfo.filename
        (Process.probeBytes maxFilenameSize ctx.filename) = execveStored k ctx e := rfl
  simp only [Process.execveCmdEvent, hstored, envpRead, argvRead]

/-- Strings behind `filename` stay until the vectors are read. -/
theorem holds_execveStored {off : ℕ} {t : Text} (h : Holds e.info off t)
    (hoff : ProcessInfo.argv ≤ off) : Holds (execveStored k ctx e).info off t := by
  have hlength : (Process.probeBytes maxFilenameSize ctx.filename).length ≤ 256 :=
    length_probeBytes (by decide) _
  unfold ProcessInfo.argv at hoff
  have hnamed : Holds (named k (ascii "execve_cmd") { e with type := execcmd }).info off t :=
    holds_named h (by omega)
  refine hnamed.store (.inr ?_)
  unfold ProcessInfo.filename
  omega

theorem holds_argvRead_null {t : Text} (hargv : ctx.argv 0 = .null ∨ ctx.argv 0 = .unreadable)
    (h : Holds e.info ProcessInfo.argv t) : Holds (argvRead k ctx e) ProcessInfo.argv t := by
  rw [argvRead, readArgs_null hargv]
  exact holds_execveStored h le_rfl

/-- Reading `argv` leaves `envp` alone. -/
theorem holds_argvRead {t : Text} (h : Holds e.info ProcessInfo.envp t) :
    Holds (argvRead k ctx e) ProcessInfo.envp t :=
  confined_readArgs.holds (holds_execveStored h (by decide)) (.inr (by decide))

theorem holds_envpRead_null {t : Text} (henvp : ctx.envp 0 = .null ∨ ctx.envp 0 = .unreadable)
    (h : Holds e.info ProcessInfo.envp t) : Holds (envpRead k ctx e) ProcessInfo.envp t := by
  rw [envpRead, readArgs_null henvp]
  exact holds_argvRead h

/-- The text of a command, by the strings that reading leaves in the two fields. -/
theorem exists_text_execveCmd (ctx : Process.ExecveArg) (env : Env) : ∃ text, ∀ e argv envp,
    argv.length + 1 ≤ maxTextSize → envp.length + 1 ≤ maxTextSize →
    Holds (argvRead k ctx e) ProcessInfo.argv argv →
    Holds (envpRead k ctx e) ProcessInfo.envp envp →
    ebpfEventToText env (Process.execveCmdEvent k ctx e) =
      some (text ++ ascii " argv:" ++ argv ++ ascii " envp:" ++ envp) := by
  obtain ⟨text, htext⟩ := exists_execText env k (ascii "execve_cmd")
    (probeText maxFilenameSize ctx.filename)
  refine ⟨text, fun e argv envp hargvLength henvpLength hargv henvp => ?_⟩
  have hlength : (probeText maxFilenameSize ctx.filename).length < 256 :=
    length_probeText (by decide) _
  have hstored : Holds (execveStored k ctx e).info ProcessInfo.filename
      (probeText maxFilenameSize ctx.filename) := holds_probeBytes (by decide) _ _ _
  rw [maxTextSize] at hargvLength henvpLength
  -- the two loops write behind `filename`, and the second one behind `argv`
  have hfilename : Holds (envpRead k ctx e) ProcessInfo.filename
      (probeText maxFilenameSize ctx.filename) := by
    refine confined_readArgs.holds (confined_readArgs.holds hstored (.inl ?_)) (.inl ?_)
    · rw [ProcessInfo.filename, ProcessInfo.argv]
      omega
    · rw [ProcessInfo.filename, ProcessInfo.envp]
      omega
  have hargv' : Holds (envpRead k ctx e) ProcessInfo.argv argv := by
    refine confined_readArgs.holds hargv (.inl ?_)
    rw [ProcessInfo.argv, ProcessInfo.envp]
    omega
  have hfilled : Filled k (ascii "execve_cmd")
      { execveStored k ctx e with info := envpRead k ctx e } := ⟨rfl, _, rfl⟩
  rw [execveCmdEvent_eq, htext _ rfl hfilled
    (cstr_of_holds hfilename (by rw [ProcessInfo.filename, infoSize]; omega)),
    cstr_of_holds hargv' (by rw [ProcessInfo.argv, infoSize]; omega),
    cstr_of_holds henvp (by rw [ProcessInfo.envp, infoSize]; omega)]
  rfl

/-! ## Events of a file -/

theorem KernelString.length_text_lt {n : ℕ} (s : KernelString n) : s.text.length < n := by
  have hlength := s.length_eq
  omega

theorem filled_fileEvent {type : BitVec 32} {filename : KernelString maxTextSize} :
    Filled k name (File.fileEvent k type name filename e) where
  common := rfl
  eventName := ⟨_, rfl⟩

theorem holds_fileEvent {type : BitVec 32} {filename : KernelString maxTextSize} :
    Holds (File.fileEvent k type name filename e).info FileInfo.filename filename.text :=
  holds_kernelString filename e.info FileInfo.filename

theorem exists_text_fileEvent {type : BitVec 32} (htype : type = createfile ∨ type = delfile ∨
    type = writefile ∨ type = readfile) (name : Text) (filename : KernelString maxTextSize)
    (env : Env) : ∃ text, ∀ e,
      ebpfEventToText env (File.fileEvent k type name filename e) = text := by
  obtain ⟨text, htext⟩ := exists_fileText env k name filename.text
  refine ⟨text, fun e => htext _ htype filled_fileEvent (cstr_of_holds holds_fileEvent ?_)⟩
  have hlength : filename.text.length < 4096 := filename.length_text_lt
  rw [FileInfo.filename, infoSize]
  omega

/-- What the handlers for attributes have written in any case. -/
structure AttrFilled (k : Kernel T) (filename : KernelString maxTextSize) (attr : Option Text)
    (e : EbpfEvent) : Prop where
  type : e.type = setfileattr
  filled : Filled k (ascii "setfileattr") e
  filename : Holds e.info FileInfo.filename filename.text
  name : Holds e.info FileInfo.name (probeText maxTextSize attr)

variable {filename : KernelString maxTextSize} {attr : Option Text}

theorem attrFilled_attrEvent : AttrFilled k filename attr (File.attrEvent k filename attr e) where
  type := rfl
  filled := filled_fileEvent.storeInfo _ _
  filename := holds_fileEvent.store (.inl (by
    have hlength : filename.text.length < 4096 := filename.length_text_lt
    rw [FileInfo.filename, FileInfo.name]
    omega))
  name := holds_probeBytes (by decide) _ _ _

/-- Strings behind `name` stay. -/
theorem holds_attrEvent {off : ℕ} {t : Text} (h : Holds e.info off t)
    (hoff : FileInfo.value ≤ off) : Holds (File.attrEvent k filename attr e).info off t := by
  have hname : (Process.probeBytes maxTextSize attr).length ≤ 4096 :=
    length_probeBytes (by decide) _
  have hfilename : filename.bytes.length = 4096 := filename.length_bytes
  unfold FileInfo.value at hoff
  refine Holds.store (Holds.store h (.inr ?_)) (.inr ?_)
  · rw [FileInfo.filename]
    omega
  · rw [FileInfo.name]
    omega

theorem AttrFilled.storeInfo (hfilled : AttrFilled k filename attr e) {off : ℕ}
    (hoff : FileInfo.value ≤ off) (bytes : List UInt8) :
    AttrFilled k filename attr (e.storeInfo off bytes) := by
  have hfilename : filename.text.length < 4096 := filename.length_text_lt
  have hname : (probeText maxTextSize attr).length < 4096 := length_probeText (by decide) _
  unfold FileInfo.value at hoff
  refine ⟨hfilled.type, hfilled.filled.storeInfo _ _, hfilled.filename.store (.inl ?_),
    hfilled.name.store (.inl ?_)⟩
  · rw [FileInfo.filename]
    omega
  · rw [FileInfo.name]
    omega

/-- The text of a changed attribute, by what stands in `value` and in `old_value`. -/
theorem exists_text_attrFilled (filename : KernelString maxTextSize) (attr : Option Text)
    (env : Env) : ∃ text, ∀ e value oldValue, AttrFilled k filename attr e →
      value.length < maxTextSize → oldValue.length < maxTextSize →
      Holds e.info FileInfo.value value → Holds e.info FileInfo.oldValue oldValue →
      ebpfEventToText env e =
        some (text ++ ascii " value:" ++ value ++ ascii " old_value:" ++ oldValue) := by
  obtain ⟨text, htext⟩ := exists_attrText env k (ascii "setfileattr") filename.text
    (probeText maxTextSize attr)
  refine ⟨text, fun e value oldValue hfilled hvalueLength holdLength hvalue hold => ?_⟩
  have hfilename : filename.text.length < 4096 := filename.length_text_lt
  have hname : (probeText maxTextSize attr).length < 4096 := length_probeText (by decide) _
  rw [maxTextSize] at hvalueLength holdLength
  rw [htext e hfilled.type hfilled.filled
    (cstr_of_holds hfilled.filename (by rw [FileInfo.filename, infoSize]; omega))
    (cstr_of_holds hfilled.name (by rw [FileInfo.name, infoSize]; omega)),
    cstr_of_holds hvalue (by rw [FileInfo.value, infoSize]; omega),
    cstr_of_holds hold (by rw [FileInfo.oldValue, infoSize]; omega)]
  rfl

theorem exists_text_rename (rd : File.Renamedata) (env : Env) : ∃ text, ∀ e,
    ebpfEventToText env (File.renameEvent k rd e) = text := by
  obtain ⟨text, htext⟩ := exists_text_attrFilled (k := k) rd.oldDentry (some (ascii "rename")) env
  refine ⟨some (text ++ ascii " value:" ++ rd.newDentry.text ++ ascii " old_value:" ++
    rd.oldDentry.text), fun e => ?_⟩
  have hattr : AttrFilled k rd.oldDentry (some (ascii "rename"))
    (File.attrEvent k rd.oldDentry (some (ascii "rename")) e) := attrFilled_attrEvent
  have hnew : rd.newDentry.text.length < 4096 := rd.newDentry.length_text_lt
  apply htext _ _ _ ((hattr.storeInfo le_rfl _).storeInfo (by decide) _)
    rd.newDentry.length_text_lt rd.oldDentry.length_text_lt
  · refine Holds.store (holds_kernelString rd.newDentry _ _) (.inl ?_)
    rw [FileInfo.value, FileInfo.oldValue]
    omega
  · exact holds_kernelString rd.oldDentry _ _

end SecDetector.Ebpf
