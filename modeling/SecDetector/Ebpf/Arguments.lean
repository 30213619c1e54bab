import Mathlib.Data.List.ReduceOption
import SecDetector.Ebpf.Fields

/-!
# Argument vectors

`handle_execve_cmd` reads the arguments of a command one by one into a field.  Each string
comes with a terminator, which becomes a space when the next one is read, and the last space
becomes a terminator again.

`readArgsLoop_spec` is the invariant of the loop: what was read so far, with a space behind
each argument, cut off at the end of the field.  The rest follows from it: where the loop
stops depends on the arguments only (`readArgs_eq`), so `readArgs` touches nothing outside
its field (`confined_readArgs`), and the field holds the command line (`holds_readArgs`).
-/

namespace SecDetector.Ebpf

open Lib Text Memory

/-! ## What should be captured -/

namespace Process

/-- The string that can be read behind the pointer. -/
def ArgPointer.text : ArgPointer → Option Text
  | .unreadable => none
  | .null => none
  | .string src => src

/-- The `n` arguments from `i` on, up to the first one that is missing or cannot be read. -/
def readableFrom (args : ℕ → ArgPointer) (i n : ℕ) : List Text :=
  (((List.range' i n).map fun j => (args j).text).takeWhile Option.isSome).reduceOption

/-- The arguments that can be read, 64 of them at most. -/
def readable (args : ℕ → ArgPointer) : List Text :=
  readableFrom args 0 maxNumArgs

/-- The arguments with single spaces between them, cut off at the size of a field. -/
def commandLine (args : ℕ → ArgPointer) : Text :=
  (join (ascii " " (ascii_check " " trivial)) (readable args)).take (maxTextSize - 1)

end Process

open Process

variable {off n i pos : ℕ} {args : ℕ → ArgPointer} {info : ℕ → UInt8}

theorem readableFrom_cons {t : Text} (hargs : args i = .string (some t)) :
    readableFrom args i (n + 1) = t :: readableFrom args (i + 1) n := by
  simp [readableFrom, List.range'_succ, hargs, ArgPointer.text, List.reduceOption_cons_of_some]

theorem readableFrom_nil (hargs : (args i).text = none) : readableFrom args i n = [] := by
  cases n <;> simp [readableFrom, List.range'_succ, hargs, List.reduceOption_nil]

/-! ## One argument -/

theorem readArgsLoop_null (hargs : args i = .null ∨ args i = .unreadable) :
    readArgsLoop off args (n + 1) i info pos = (info, pos) := by
  rcases hargs with hargs | hargs <;> rw [readArgsLoop, hargs]

theorem readArgsLoop_fault (hargs : args i = .string none) :
    readArgsLoop off args (n + 1) i info pos =
      (store info (off + pos) (probeBytes (maxTextSize - pos) none), pos) := by
  rw [readArgsLoop, hargs]
  rfl

/-- The position behind the terminator of an argument. -/
def posAfter (pos : ℕ) (t : Text) : ℕ :=
  pos + ((t.take (maxTextSize - pos - 1)).length + 1)

theorem posAfter_le (hpos : pos < maxTextSize) (t : Text) :
    pos < posAfter pos t ∧ posAfter pos t ≤ maxTextSize := by
  rw [posAfter, length_take]
  omega

theorem readArgsLoop_some {t : Text} (hargs : args i = .string (some t)) :
    readArgsLoop off args (n + 1) i info pos =
      if maxTextSize ≤ posAfter pos t then
        (store info (off + pos) (probeBytes (maxTextSize - pos) (some t)), posAfter pos t)
      else readArgsLoop off args n (i + 1)
        (store (store info (off + pos) (probeBytes (maxTextSize - pos) (some t)))
          (off + (posAfter pos t - 1)) (ascii " ").bytes) (posAfter pos t) := by
  have hret : probeRet (maxTextSize - pos) (some t) =
    (((t.take (maxTextSize - pos - 1)).length + 1 : ℕ) : ℤ) := rfl
  rw [readArgsLoop, hargs]
  dsimp only
  rw [hret, if_neg (Int.not_lt.mpr (Int.natCast_nonneg _)), Int.toNat_natCast, posAfter]

/-! ## The loop -/

/-- Each argument with a space behind it. -/
def spaced (texts : List Text) : Text :=
  concat (texts.map (· ++ ascii " " (ascii_check " " trivial)))

/-- The loop stops at `pos`, with `full` in the field as far as it fits. -/
structure Reads (off : ℕ) (full : Text) (info : ℕ → UInt8) (pos : ℕ) : Prop where
  pos_eq : pos = min full.length maxTextSize
  load_eq : load info off (pos - 1) = (full.take (pos - 1)).bytes

/-- Nothing more can be read. -/
theorem reads_stop {done : Text} (hdone : load info off done.length = done.bytes)
    (hlt : done.length < maxTextSize) :
    Reads off (done ++ spaced []) info done.length := by
  rw [show spaced [] = .empty from rfl, append_empty]
  constructor
  · exact (min_eq_left (Nat.le_of_lt hlt)).symm
  · rw [load_of_le (Nat.sub_le _ 1), hdone]
    rfl

/-- The argument does not fit any more. -/
theorem reads_cut {done t : Text} {rest : List Text}
    (hdone : load info off done.length = done.bytes) (hlt : done.length < maxTextSize)
    (hfull : maxTextSize ≤ posAfter done.length t) :
    Reads off (done ++ spaced (t :: rest))
      (store info (off + done.length) (probeBytes (maxTextSize - done.length) (some t)))
      (posAfter done.length t) := by
  have hle := (posAfter_le hlt t).2
  have hcut : (t.take (maxTextSize - done.length - 1)).length = maxTextSize - done.length - 1 := by
    unfold posAfter at hfull
    rw [length_take] at hfull ⊢
    omega
  have hlong : maxTextSize - done.length - 1 ≤ t.length := by
    rw [length_take] at hcut
    omega
  have hspaced : spaced (t :: rest) = t ++ (ascii " " ++ spaced rest) := append_assoc _ _ _
  rw [le_antisymm hle hfull]
  constructor
  · rw [hspaced, length_append, length_append, length_append, length_ascii]
    refine (min_eq_right ?_).symm
    show maxTextSize ≤ done.length + (t.length + (1 + _))
    omega
  · have hpos : maxTextSize - 1 = done.length + (maxTextSize - done.length - 1) := by omega
    have hstore := load_store_append info off done.length
      (t.take (maxTextSize - done.length - 1)).bytes [0]
    rw [show (t.take (maxTextSize - done.length - 1)).bytes.length = _ from hcut, hdone] at hstore
    rw [hpos]
    apply hstore.trans
    rw [hspaced]
    show done.bytes ++ t.bytes.take _ =
      (done.bytes ++ (t.bytes ++ _)).take (done.bytes.length + (maxTextSize - done.length - 1))
    rw [List.take_length_add_append, List.take_append_of_le_length hlong]

/-- The argument fits, and there is room behind the space. -/
theorem load_next {done t : Text} (hdone : load info off done.length = done.bytes)
    (hmore : posAfter done.length t < maxTextSize) :
    posAfter done.length t = (done ++ (t ++ ascii " ")).length ∧
      load (store (store info (off + done.length)
          (probeBytes (maxTextSize - done.length) (some t)))
        (off + (posAfter done.length t - 1)) (ascii " ").bytes) off
        (done ++ (t ++ ascii " ")).length = (done ++ (t ++ ascii " ")).bytes := by
  have hfit : t.length ≤ maxTextSize - done.length - 1 := by
    unfold posAfter at hmore
    rw [length_take] at hmore
    omega
  have hpos : posAfter done.length t = done.length + t.length + 1 := by
    rw [posAfter, take_of_le hfit, Nat.add_assoc]
  have hlength : (done ++ (t ++ ascii " ")).length = done.length + t.length + 1 := by
    rw [length_append, length_append, Nat.add_assoc]
    rfl
  refine ⟨hpos.trans hlength.symm, ?_⟩
  rw [hlength, hpos, Nat.add_sub_cancel, probeBytes, take_of_le hfit]
  have hstored : load (store info (off + done.length) (t.bytes ++ [0])) off
      (done.length + t.length) = done.bytes ++ t.bytes := by
    rw [← hdone]
    exact load_store_append info off done.length t.bytes [0]
  have hspace := load_store_append (store info (off + done.length) (t.bytes ++ [0])) off
    (done.length + t.length) (ascii " ").bytes []
  rw [List.append_nil, hstored, List.append_assoc] at hspace
  exact hspace

theorem readArgsLoop_spec (off : ℕ) (args : ℕ → ArgPointer) (n i : ℕ) (info : ℕ → UInt8)
    (done : Text)
    (hdone : load info off done.length = done.bytes) (hlt : done.length < maxTextSize) :
    Reads off (done ++ spaced (readableFrom args i n))
      (readArgsLoop off args n i info done.length).1
      (readArgsLoop off args n i info done.length).2 := by
  induction n generalizing i info done with
  | zero => exact reads_stop hdone hlt
  | succ n ih =>
      cases hargs : args i with
      | unreadable =>
          rw [readArgsLoop_null (.inr hargs), readableFrom_nil (by rw [hargs]; rfl)]
          exact reads_stop hdone hlt
      | null =>
          rw [readArgsLoop_null (.inl hargs), readableFrom_nil (by rw [hargs]; rfl)]
          exact reads_stop hdone hlt
      | string src =>
          cases src with
          | none =>
              -- the zeros are behind what was read
              rw [readArgsLoop_fault hargs, readableFrom_nil (by rw [hargs]; rfl)]
              refine reads_stop ?_ hlt
              rw [load_store_of_apart (.inl le_rfl), hdone]
          | some t =>
              rw [readArgsLoop_some hargs, readableFrom_cons hargs]
              split
              · rename_i hfull
                exact reads_cut hdone hlt hfull
              · rename_i hmore
                obtain ⟨hpos, hload⟩ := load_next hdone (Nat.not_le.mp hmore)
                rw [show spaced (t :: readableFrom args (i + 1) n) =
                  t ++ ascii " " ++ spaced (readableFrom args (i + 1) n) from rfl,
                  ← append_assoc, hpos]
                rw [hpos] at hload hmore
                exact ih (i + 1) _ _ hload (Nat.not_le.mp hmore)

/-! ## The field -/

/-- The loop writes to its field only. -/
theorem confined_readArgsLoop (n i pos : ℕ) (hpos : pos < maxTextSize) :
    Confined (fun info => (readArgsLoop off args n i info pos).1) off maxTextSize := by
  induction n generalizing i pos with
  | zero => exact confined_id _ _
  | succ n ih =>
      cases hargs : args i with
      | unreadable =>
          simp only [readArgsLoop_null (.inr hargs)]
          exact confined_id _ _
      | null =>
          simp only [readArgsLoop_null (.inl hargs)]
          exact confined_id _ _
      | string src =>
          -- even a fault stores: zeros from the position reached to the end of the field
          have hbytes := length_probeBytes (Nat.sub_pos_of_lt hpos) src
          have hstore : Confined
              (fun info => store info (off + pos) (probeBytes (maxTextSize - pos) src)) off
              maxTextSize := confined_store (by omega) (by omega)
          cases src with
          | none =>
              simp only [readArgsLoop_fault hargs]
              exact hstore
          | some t =>
              simp only [readArgsLoop_some hargs]
              split
              · exact hstore
              · rename_i hmore
                have hspace : Confined (fun info => store info (off + (posAfter pos t - 1))
                    (ascii " ").bytes) off maxTextSize := by
                  apply confined_store (by omega)
                  have hone : (ascii " ").bytes.length = 1 := rfl
                  omega
                exact (ih (i + 1) (posAfter pos t) (Nat.not_le.mp hmore)).comp
                  (hspace.comp hstore)

/-- Where the loop stops depends on the arguments only. -/
theorem readArgs_eq (off : ℕ) (args : ℕ → ArgPointer) : ∃ stop ≤ maxTextSize, ∀ info,
    readArgs off args info =
      if 0 < stop then
        store (readArgsLoop off args maxNumArgs 0 info 0).1 (off + (stop - 1)) [0]
      else (readArgsLoop off args maxNumArgs 0 info 0).1 := by
  refine ⟨min (spaced (readable args)).length maxTextSize, Nat.min_le_right _ _, fun info => ?_⟩
  have hreads := readArgsLoop_spec off args maxNumArgs 0 info .empty rfl (by decide)
  rw [empty_append] at hreads
  rw [← readable] at hreads
  rw [← hreads.pos_eq]
  rfl

/-- `readArgs` writes to its field only. -/
theorem confined_readArgs : Confined (readArgs off args) off maxTextSize := by
  obtain ⟨stop, hstop, heq⟩ := readArgs_eq off args
  have hloop : Confined (fun info => (readArgsLoop off args maxNumArgs 0 info 0).1) off
    maxTextSize := confined_readArgsLoop maxNumArgs 0 0 (by decide)
  rw [funext fun info => heq info]
  split
  · exact Confined.comp (confined_store (by omega) (by simp; omega)) hloop
  · exact hloop

/-- Outside its field, a loop leaves every byte alone. -/
theorem readArgs_outside (args : ℕ → ArgPointer) (info : ℕ → UInt8) {i : ℕ}
    (hi : i < off ∨ off + maxTextSize ≤ i) : readArgs off args info i = info i := by
  have hframe : load (readArgs off args info) i 1 = load info i 1 :=
    confined_readArgs.frame (by omega)
  simpa [load] using hframe

/-- An argument vector without a first argument leaves the field as it was. -/
theorem readArgs_null (hargs : args 0 = .null ∨ args 0 = .unreadable) :
    readArgs off args info = info := by
  have hloop : readArgsLoop off args maxNumArgs 0 info 0 = (info, 0) := readArgsLoop_null hargs
  rw [readArgs, hloop]
  rfl

/-- When the first string cannot be read, zeros are left in the whole field. -/
theorem holds_readArgs_fault (hargs : args 0 = .string none) :
    Holds (readArgs off args info) off .empty := by
  have hloop : readArgs off args info = store info (off + 0) (probeBytes maxTextSize none) := by
    rw [readArgs, maxNumArgs, readArgsLoop_fault hargs]
    rfl
  rw [hloop]
  exact holds_probeBytes (by decide) info off none

theorem readable_ne_nil {t : Text} (hargs : args 0 = .string (some t)) : readable args ≠ [] := by
  rw [readable, maxNumArgs, readableFrom_cons hargs]
  exact List.cons_ne_nil _ _

/-- What the loop stops with is the command line, and a byte for the terminator. -/
theorem Reads.commandLine {pos : ℕ} (hne : readable args ≠ [])
    (hreads : Reads off (spaced (readable args)) info pos) :
    pos = (commandLine args).length + 1 ∧
      load info off (commandLine args).length = (commandLine args).bytes := by
  have hspaced : spaced (readable args) = join (ascii " ") (readable args) ++ ascii " " :=
    concat_map_append_sep (ascii " ") hne
  obtain ⟨hpos, hload⟩ := hreads
  rw [hspaced] at hpos hload
  have hlength : (Process.commandLine args).length =
      min (maxTextSize - 1) (join (ascii " ") (readable args)).length := length_take _ _
  have hstop : pos = (Process.commandLine args).length + 1 := by
    rw [hpos, hlength, length_append, length_ascii]
    show min (_ + 1) 4096 = min 4095 _ + 1
    omega
  rw [hstop, Nat.add_sub_cancel] at hload
  refine ⟨hstop, hload.trans ?_⟩
  -- the last space is not needed
  show ((join (ascii " ") (readable args)).bytes ++ _).take _ =
    (join (ascii " ") (readable args)).bytes.take (maxTextSize - 1)
  rw [List.take_append_of_le_length (hlength.trans_le (Nat.min_le_right _ _)), hlength,
    List.take_eq_take_iff, min_assoc]
  exact congrArg _ (min_self _)

/-- **One field holds the command line**, with its terminator inside the field. -/
theorem holds_readArgs {t : Text} (hargs : args 0 = .string (some t)) (off : ℕ)
    (info : ℕ → UInt8) : Holds (readArgs off args info) off (commandLine args) := by
  have hreads := readArgsLoop_spec off args maxNumArgs 0 info .empty rfl (by decide)
  rw [empty_append] at hreads
  obtain ⟨hstop, hload⟩ := hreads.commandLine (readable_ne_nil hargs)
  rw [length_empty] at hstop hload
  have hterminated := load_store_append (readArgsLoop off args maxNumArgs 0 info 0).1 off
    (commandLine args).length [0] []
  rw [hload] at hterminated
  have hread : readArgs off args info =
      if 0 < (readArgsLoop off args maxNumArgs 0 info 0).2 then
        store (readArgsLoop off args maxNumArgs 0 info 0).1
          (off + ((readArgsLoop off args maxNumArgs 0 info 0).2 - 1)) [0]
      else (readArgsLoop off args maxNumArgs 0 info 0).1 := rfl
  rw [hread, hstop, if_pos (Nat.succ_pos _), Nat.add_sub_cancel]
  exact hterminated

theorem length_commandLine (args : ℕ → ArgPointer) : (commandLine args).length < maxTextSize :=
  calc (commandLine args).length
      ≤ maxTextSize - 1 := (length_take _ _).trans_le (Nat.min_le_left _ _)
    _ < maxTextSize := by decide

/-- The string of the field does not depend on the memory if there is a first argument.
Otherwise an empty string stays. -/
theorem exists_holds_readArgs (off : ℕ) (args : ℕ → ArgPointer) :
    ∃ s : Text, s.length + 1 ≤ maxTextSize ∧ ∀ info,
      ((∃ src, args 0 = .string src) ∨ Holds info off .empty) →
        Holds (readArgs off args info) off s := by
  cases hargs : args 0 with
  | unreadable =>
      refine ⟨.empty, by decide, fun info hinfo => ?_⟩
      rw [readArgs_null (.inr hargs)]
      exact hinfo.resolve_left (by simp)
  | null =>
      refine ⟨.empty, by decide, fun info hinfo => ?_⟩
      rw [readArgs_null (.inl hargs)]
      exact hinfo.resolve_left (by simp)
  | string src =>
      cases src with
      | none => exact ⟨.empty, by decide, fun info _ => holds_readArgs_fault hargs⟩
      | some t =>
          exact ⟨commandLine args, length_commandLine args, fun info _ =>
            holds_readArgs hargs off info⟩

end SecDetector.Ebpf
