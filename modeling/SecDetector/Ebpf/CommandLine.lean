import SecDetector.Ebpf.StaleFree

/-!
# The command line of an event

The two fields of a record of `handle_execve_cmd`: `argv` and `envp` each hold their command
line, and neither loop writes outside its field.
-/

namespace SecDetector.Ebpf

open Lib Text Memory Process

variable {T : Type*} [DecidableEq T] {k : Kernel T} {ctx : ExecveArg} {e e' : EbpfEvent}

/-- What a record says about a command: the command lines of the two vectors, and no byte
written outside the field that a loop fills. -/
structure Captures (k : Kernel T) (ctx : ExecveArg) (e e' : EbpfEvent) : Prop where
  argv : ∀ t, ctx.argv 0 = .string (some t) →
    Holds e'.info ProcessInfo.argv (commandLine ctx.argv)
  envp : ∀ t, ctx.envp 0 = .string (some t) →
    Holds e'.info ProcessInfo.envp (commandLine ctx.envp)
  argv_lt : (commandLine ctx.argv).length < maxTextSize
  envp_lt : (commandLine ctx.envp).length < maxTextSize
  info : e'.info = envpRead k ctx e
  argv_outside : ∀ i, i < ProcessInfo.argv ∨ ProcessInfo.argv + maxTextSize ≤ i →
    argvRead k ctx e i = (execveStored k ctx e).info i
  envp_outside : ∀ i, i < ProcessInfo.envp ∨ ProcessInfo.envp + maxTextSize ≤ i →
    envpRead k ctx e i = argvRead k ctx e i

/-- **A record of a command holds its command lines.** -/
theorem handleExecveCmd_captures (hrun : handleExecveCmd k ctx e = some e') :
    Captures k ctx e e' := by
  have hinfo : e'.info = envpRead k ctx e := by
    rw [eq_of_reserveAndSubmit hrun, execveCmdEvent_eq]
  refine ⟨fun t hargv => ?_, fun t henvp => ?_, length_commandLine _, length_commandLine _, hinfo,
    fun i => readArgs_outside _ _, fun i => readArgs_outside _ _⟩
  · rw [hinfo]
    have hlength := length_commandLine ctx.argv
    -- the second loop writes behind the first field
    refine confined_readArgs.holds (holds_readArgs hargv _ _) (.inl ?_)
    rw [ProcessInfo.argv, ProcessInfo.envp]
    rw [maxTextSize] at hlength
    omega
  · rw [hinfo]
    exact holds_readArgs henvp _ _

/-- `ls -l`, without an environment. -/
def lsCommand : ExecveArg where
  filename := some (ascii "/bin/ls")
  argv i := if i = 0 then .string (some (ascii "ls")) else
    if i = 1 then .string (some (ascii "-l")) else .null
  envp _ := .null

theorem commandLine_lsCommand : commandLine lsCommand.argv = ascii "ls -l" := by decide +kernel

theorem handleExecveCmd_captures_ls :
    ∃ e', handleExecveCmd shellKernel lsCommand blank = some e' ∧
      Holds e'.info ProcessInfo.argv (ascii "ls -l") := by
  have hrun : handleExecveCmd shellKernel lsCommand blank =
    some (execveCmdEvent shellKernel lsCommand blank) := rfl
  have hargv := (handleExecveCmd_captures hrun).argv (ascii "ls") rfl
  rw [commandLine_lsCommand] at hargv
  exact ⟨_, hrun, hargv⟩

end SecDetector.Ebpf
