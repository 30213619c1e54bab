import SecDetector.Ebpf.StaleFree

/-!
# Which operations are reported

A handler at the end of an operation on a file sees what the operation returned.  An event
should be submitted if and only if the operation succeeded: `vfs_read` and `vfs_write` return
how many bytes they moved, the others return 0.

`fexit_vfs_write` and `fexit_vfs_unlink` test for this.  `fexit_vfs_read` tests for a return
value of 0, as if it stood behind `vfs_unlink`, and the handlers behind `chmod_common` and
`chown_common` do not look at it; `reports_iff` says what that leaves.
-/

namespace SecDetector.Ebpf

open Lib Text

variable {T : Type*} [DecidableEq T] {k : Kernel T}

/-- An operation on a file, with what it returned. -/
inductive Operation where
  | vfsRead (file : File.FileStruct) (ret : ℤ)
  | vfsWrite (file : File.FileStruct) (ret : ℤ)
  | vfsUnlink (dentry : KernelString maxTextSize) (ret : ℤ)
  | chmodCommon (path : KernelString maxTextSize) (ret : ℤ)
  | chownCommon (path : KernelString maxTextSize) (ret : ℤ)

namespace Operation

/-- The call of the program that is attached to the end of the operation. -/
def handler : Operation → Handler
  | vfsRead file ret => .fexitVfsRead file ret
  | vfsWrite file ret => .fexitVfsWrite file ret
  | vfsUnlink dentry ret => .fexitVfsUnlink dentry ret
  | chmodCommon path _ => .fexitChmodCommon path
  | chownCommon path _ => .fexitChownCommon path

/-- The type of event that reports it. -/
def type : Operation → BitVec 32
  | vfsRead _ _ => readfile
  | vfsWrite _ _ => writefile
  | vfsUnlink _ _ => delfile
  | chmodCommon _ _ => setfileattr
  | chownCommon _ _ => setfileattr

/-- The handlers that look at the mode of the file find a regular one. -/
def Regular : Operation → Prop
  | vfsRead file _ => File.sIsreg file.iMode = true
  | vfsWrite file _ => File.sIsreg file.iMode = true
  | _ => True

/-- At least one byte was moved, or 0 was returned. -/
def Succeeded : Operation → Prop
  | vfsRead _ ret => 0 < ret
  | vfsWrite _ ret => 0 < ret
  | vfsUnlink _ ret => ret = 0
  | chmodCommon _ ret => ret = 0
  | chownCommon _ ret => ret = 0

/-- One event of the right type if the operation succeeded, none if it failed. -/
def Reports (k : Kernel T) (op : Operation) (e : EbpfEvent) : Prop :=
  (op.Succeeded → ∃ e', op.handler.run k e = some e' ∧ e'.type = op.type) ∧
    (¬ op.Succeeded → op.handler.run k e = none)

/-- Reads fail with an error, and modes and owners are changed. -/
def Covered : Operation → Prop
  | vfsRead _ ret => ret < 0
  | chmodCommon _ ret => ret = 0
  | chownCommon _ ret => ret = 0
  | _ => True

variable {op : Operation} {e : EbpfEvent}

omit [DecidableEq T] in
theorem not_silent (hother : k.ourself = false) (hspace : k.reserved = true) : ¬ k.Silent := by
  simp [Kernel.Silent, hother, hspace]

/-- A handler that tests `test` before it reserves a record. -/
theorem reports_iff_of_run (op : Operation) {test : Prop} {fill : EbpfEvent → EbpfEvent}
    (hsubmit : test → op.handler.run k e = some (fill e)) (htype : (fill e).type = op.type)
    (hrefuse : ¬ test → op.handler.run k e = none) :
    op.Reports k e ↔ (op.Succeeded ↔ test) := by
  by_cases htest : test
  · have hrun := hsubmit htest
    constructor
    · intro hreports
      refine iff_of_true ?_ htest
      by_contra hfailed
      exact absurd (hrun.symm.trans (hreports.2 hfailed)) (Option.some_ne_none _)
    · intro hiff
      exact ⟨fun _ => ⟨fill e, hrun, htype⟩, fun hfailed => absurd (hiff.mpr htest) hfailed⟩
  · have hrun := hrefuse htest
    constructor
    · intro hreports
      refine iff_of_false (fun hsucceeded => ?_) htest
      obtain ⟨e', hsome, -⟩ := hreports.1 hsucceeded
      exact absurd (hrun.symm.trans hsome).symm (Option.some_ne_none _)
    · intro hiff
      exact ⟨fun hsucceeded => absurd (hiff.mp hsucceeded) htest, fun _ => hrun⟩

theorem reports_vfsRead_iff (hother : k.ourself = false) (hspace : k.reserved = true)
    {file : File.FileStruct} (hregular : File.sIsreg file.iMode = true) (ret : ℤ) :
    (vfsRead file ret).Reports k e ↔ ret < 0 := by
  have hrun : ret = 0 → File.fexitVfsRead k file ret e = some (File.fileEvent k readfile
      (ascii "readfile") file.name e) := by
    intro hret
    rw [File.fexitVfsRead, if_neg (not_not.mpr hret), if_neg (Bool.not_eq_false _ ▸ hregular),
      reserveAndSubmit_of_not_silent (not_silent hother hspace)]
  rw [reports_iff_of_run (.vfsRead file ret) hrun rfl fun hret => if_pos hret]
  show (0 < ret ↔ ret = 0) ↔ ret < 0
  omega

/-- **When the outcome of an operation is reported.** -/
theorem reports_iff (hother : k.ourself = false) (hspace : k.reserved = true)
    (hregular : op.Regular) (e : EbpfEvent) : op.Reports k e ↔ op.Covered := by
  have hsubmit : ∀ fill : EbpfEvent → EbpfEvent, reserveAndSubmit k fill e = some (fill e) :=
    fun _ => reserveAndSubmit_of_not_silent (not_silent hother hspace)
  cases op with
  | vfsRead file ret => exact reports_vfsRead_iff hother hspace hregular ret
  | vfsWrite file ret =>
      have hrun : 0 < ret → File.fexitVfsWrite k file ret e = some (File.fileEvent k writefile
          (ascii "writefile") file.name e) := by
        intro hret
        rw [File.fexitVfsWrite, if_neg (not_le.mpr hret),
          if_neg (Bool.not_eq_false _ ▸ hregular), hsubmit]
      rw [reports_iff_of_run (.vfsWrite file ret) hrun rfl
        fun hret => if_pos (not_lt.mp hret)]
      exact iff_true_intro Iff.rfl
  | vfsUnlink dentry ret =>
      have hrun : ret = 0 → File.fexitVfsUnlink k dentry ret e = some (File.fileEvent k delfile
          (ascii "delfile") dentry e) := by
        intro hret
        rw [File.fexitVfsUnlink, if_neg (not_not.mpr hret), hsubmit]
      rw [reports_iff_of_run (.vfsUnlink dentry ret) hrun rfl fun hret => if_pos hret]
      exact iff_true_intro Iff.rfl
  -- nothing is tested here
  | chmodCommon path ret =>
      have hrun : File.fexitChmodCommon k path e = some (File.attrEvent k path
          (some (ascii "chmod")) e) := hsubmit _
      rw [reports_iff_of_run (.chmodCommon path ret) (fun _ : True => hrun) rfl
        (absurd trivial), iff_true]
      exact Iff.rfl
  | chownCommon path ret =>
      have hrun : File.fexitChownCommon k path e = some (File.attrEvent k path
          (some (ascii "chown")) e) := hsubmit _
      rw [reports_iff_of_run (.chownCommon path ret) (fun _ : True => hrun) rfl
        (absurd trivial), iff_true]
      exact Iff.rfl

/-- A file with a name of one letter. -/
def letterFile : File.FileStruct where
  iMode := 0o100644
  fMode := 0
  name := ⟨ascii "a", List.replicate 4094 0, by rw [List.length_replicate]; rfl⟩

/-- A write of five bytes is reported. -/
theorem reports_write : (vfsWrite letterFile 5).Reports shellKernel blank := by
  have hregular : (vfsWrite letterFile 5).Regular := show File.sIsreg 0o100644 = true by decide
  exact (reports_iff rfl rfl hregular blank).mpr trivial

/-- A read of five bytes is not. -/
theorem not_reports :
    ¬ ∀ (T : Type) [DecidableEq T] (k : Kernel T) (op : Operation) (e : EbpfEvent),
      k.ourself = false → k.reserved = true → op.Regular → op.Reports k e := by
  intro hclaim
  have hregular : File.sIsreg letterFile.iMode = true := by decide
  have hreports := hclaim Unit shellKernel (vfsRead letterFile 5) blank rfl rfl hregular
  have hneg : (5 : ℤ) < 0 := (reports_vfsRead_iff rfl rfl hregular 5).mp hreports
  exact absurd hneg (by decide)

end Operation

end SecDetector.Ebpf
