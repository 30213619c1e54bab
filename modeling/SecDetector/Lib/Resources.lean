import Mathlib.Algebra.BigOperators.Group.Finset.Piecewise
import Mathlib.Algebra.Order.Group.Multiset
import Mathlib.Data.Finset.Erase
import Mathlib.Data.Finset.Insert
import Mathlib.Tactic.Abel

/-!
# Programs that take resources and give them back

A program of type `Prog K α` takes resources of the kinds `K`: memory, which may be refused, or
references and locks, which are not.  Each resource gets a handle of its own.  A handle that is
not held can neither be used nor given back, so a run without a fault gives nothing back twice
and uses nothing afterwards.

`Turns stop own x post fact` is the triple of these programs: with `own`, the program `x` comes to a
result `a`, and then has `post a`.  `fact d a` is what is known of the result after the answers `d`
to the requests of `x` itself.  The triple is about what `x` has and asks for, and not about what
else is held or asked for, so nothing that other programs do in between can break it
(`Turns.step`).  Its rules follow the program from one action to the next.

Where programs run side by side, `Shares` says which of them has what, and whose the requests are;
it is kept by the actions of any of them (`Shares.step`).
-/

namespace SecDetector.Lib

/-! ## Programs -/

/-- A resource of some kind.  No two resources have the same number. -/
structure Handle (K : Type) where
  kind : K
  id : ℕ
  deriving DecidableEq

inductive Prog (K α : Type) where
  | pure (a : α)
  /-- The program goes wrong by itself: it follows a null pointer, or calls through one. -/
  | stuck
  /-- A resource that is always there to be taken. -/
  | take (k : K) (next : Handle K → Prog K α)
  /-- A request that may be refused. -/
  | alloc (k : K) (next : Option (Handle K) → Prog K α)
  | use (h : Handle K) (next : Prog K α)
  | give (h : Handle K) (next : Prog K α)

namespace Prog

variable {K α β : Type}

def bind (f : α → Prog K β) : Prog K α → Prog K β
  | .pure a => f a
  | .stuck => .stuck
  | .take k next => .take k fun h => (next h).bind f
  | .alloc k next => .alloc k fun r => (next r).bind f
  | .use h next => .use h (next.bind f)
  | .give h next => .give h (next.bind f)

instance monad : Monad (Prog K) where
  pure := .pure
  bind x f := x.bind f

end Prog

section Actions

variable {K : Type}

def take (k : K) : Prog K (Handle K) := .take k .pure

def alloc (k : K) : Prog K (Option (Handle K)) := .alloc k .pure

def use (h : Handle K) : Prog K Unit := .use h (.pure ())

def give (h : Handle K) : Prog K Unit := .give h (.pure ())

def stuck {α : Type} : Prog K α := .stuck

/-- A pointer is followed. -/
def follow : Option (Handle K) → Prog K Unit
  | none => stuck
  | some h => use h

/-- A null pointer is tested for. -/
def useAny : Option (Handle K) → Prog K Unit
  | none => pure ()
  | some h => use h

/-- Giving back what a null pointer points to does nothing. -/
def giveAny : Option (Handle K) → Prog K Unit
  | none => pure ()
  | some h => give h

end Actions

/-! ## Runs -/

/-- What is held, and the answers to the requests. -/
structure Store (K : Type) where
  live : Finset (Handle K)
  next : ℕ
  fresh : ∀ h ∈ live, h.id < next
  answers : ℕ → Bool
  asked : ℕ

inductive Fault (K : Type) where
  /-- The handle is used or given back, but it is not held. -/
  | notHeld (h : Handle K)
  | stuck
  deriving DecidableEq

namespace Store

variable {K : Type} (s : Store K)

/-- Nothing is held yet. -/
def empty (answers : ℕ → Bool) : Store K := ⟨∅, 0, nofun, answers, 0⟩

theorem next_notMem (k : K) : ⟨k, s.next⟩ ∉ s.live := fun hmem => lt_irrefl _ (s.fresh _ hmem)

/-- A new resource. -/
def put (k : K) : Store K where
  live := Finset.cons ⟨k, s.next⟩ s.live (s.next_notMem k)
  next := s.next + 1
  fresh h hmem := by
    rcases Finset.mem_cons.mp hmem with rfl | hmem
    · exact Nat.lt_succ_self _
    · exact (s.fresh h hmem).trans (Nat.lt_succ_self _)
  answers := s.answers
  asked := s.asked

/-- A request is answered. -/
def ask : Store K := { s with asked := s.asked + 1 }

variable [DecidableEq K]

def drop (h : Handle K) : Store K where
  live := s.live.erase h
  next := s.next
  fresh h' hmem := s.fresh h' (Finset.mem_of_mem_erase hmem)
  answers := s.answers
  asked := s.asked

end Store

/-- The next action of a program; a program that has its result does nothing more. -/
def Prog.step {K α : Type} [DecidableEq K] (s : Store K) :
    Prog K α → Except (Fault K) (Prog K α × Store K)
  | .pure a => .ok (.pure a, s)
  | .stuck => .error .stuck
  | .take k next => .ok (next ⟨k, s.next⟩, s.put k)
  | .alloc k next =>
      if s.answers s.asked then .ok (next (some ⟨k, s.next⟩), s.ask.put k)
      else .ok (next none, s.ask)
  | .use h next => if h ∈ s.live then .ok (next, s) else .error (.notHeld h)
  | .give h next => if h ∈ s.live then .ok (next, s.drop h) else .error (.notHeld h)

/-! ## Triples -/

section Triples

variable {K α β : Type}

/-- What is held through a pointer that may be null. -/
def owned : Option (Handle K) → Multiset (Handle K)
  | none => 0
  | some h => {h}

/-- What a program has is enough for it, whatever handles it gets and however its requests are
answered; it may get stuck only after answers as in `stop`. -/
def Prog.Suffices (post : α → Multiset (Handle K)) :
    Prog K α → (List Bool → Prop) → (List Bool → α → Prop) → Multiset (Handle K) → Prop
  | .pure a, _, fact, own => own = post a ∧ fact [] a
  | .stuck, stop, _, _ => stop []
  | .take k next, stop, fact, own =>
      ∀ id, (next ⟨k, id⟩).Suffices post stop fact ({⟨k, id⟩} + own)
  | .alloc k next, stop, fact, own =>
      (next none).Suffices post (fun d => stop (false :: d)) (fun d => fact (false :: d)) own ∧
        ∀ id, (next (some ⟨k, id⟩)).Suffices post (fun d => stop (true :: d))
          (fun d => fact (true :: d)) ({⟨k, id⟩} + own)
  | .use h next, stop, fact, own => h ∈ own ∧ next.Suffices post stop fact own
  | .give h next, stop, fact, own =>
      ∃ rest, own = {h} + rest ∧ next.Suffices post stop fact rest

/-- From `own` to `post a`, for a result `a` as `fact` says. -/
def Turns (stop : List Bool → Prop) (own : Multiset (Handle K)) (x : Prog K α)
    (post : α → Multiset (Handle K)) (fact : List Bool → α → Prop) : Prop :=
  x.Suffices post stop fact own

/-- A result without a request. -/
def Unasked (fact : α → Prop) (d : List Bool) (a : α) : Prop := d = [] ∧ fact a

variable {stop stop' : List Bool → Prop} {own own' extra : Multiset (Handle K)} {h : Handle K}
  {x : Prog K α} {f : α → Prog K β} {post post' : α → Multiset (Handle K)}
  {fact fact' : List Bool → α → Prop} {postB : β → Multiset (Handle K)}
  {factB : List Bool → β → Prop}

namespace Turns

theorem pure {a : α} (hown : own = post a) (hfact : fact [] a) :
    Turns stop own (Pure.pure a) post fact := ⟨hown, hfact⟩

theorem stuck (hstop : stop []) : Turns stop own (Lib.stuck : Prog K α) post fact := hstop

theorem of_eq (hown : own = own') (hx : Turns stop own' x post fact) :
    Turns stop own x post fact := hown ▸ hx

/-- One program after the other; `extra` is set aside during the first. -/
theorem bind (extra : Multiset (Handle K)) (hx : Turns stop own x post fact)
    (hf : ∀ d a, fact d a → Turns (fun d' => stop (d ++ d')) (post a + extra) (f a) postB
      fun d' => factB (d ++ d')) (hown : own' = own + extra) :
    Turns stop own' (x >>= f) postB factB := by
  subst hown
  show (x.bind f).Suffices postB stop factB (own + extra)
  induction x generalizing own stop fact factB with
  | pure a =>
      obtain ⟨rfl, hfact⟩ := hx
      exact hf [] a hfact
  | stuck => exact hx
  | take k next ih =>
      intro id
      rw [← add_assoc]
      exact ih _ (hx id) hf
  | alloc k next ih =>
      refine ⟨ih none hx.1 fun d => hf (false :: d), fun id => ?_⟩
      rw [← add_assoc]
      exact ih _ (hx.2 id) fun d => hf (true :: d)
  | use h next ih => exact ⟨Multiset.mem_add.mpr (Or.inl hx.1), ih hx.2 hf⟩
  | give h next ih =>
      obtain ⟨rest, rfl, hnext⟩ := hx
      exact ⟨rest + extra, add_assoc _ _ _, ih hnext hf⟩

theorem seq (hx : Turns stop own x post fact)
    (hf : ∀ d a, fact d a → Turns (fun d' => stop (d ++ d')) (post a) (f a) postB
      fun d' => factB (d ++ d')) : Turns stop own (x >>= f) postB factB :=
  bind 0 hx (fun d a ha => (add_zero (post a)).symm ▸ hf d a ha) (add_zero own).symm

/-- The first program asks for nothing. -/
theorem bindUnasked {fact : α → Prop} (extra : Multiset (Handle K))
    (hx : Turns stop own x post (Unasked fact))
    (hf : ∀ a, fact a → Turns stop (post a + extra) (f a) postB factB)
    (hown : own' = own + extra) : Turns stop own' (x >>= f) postB factB := by
  refine bind extra hx ?_ hown
  rintro _ a ⟨rfl, ha⟩
  exact hf a ha

theorem seqUnasked {fact : α → Prop} (hx : Turns stop own x post (Unasked fact))
    (hf : ∀ a, fact a → Turns stop (post a) (f a) postB factB) :
    Turns stop own (x >>= f) postB factB :=
  bindUnasked 0 hx (fun a ha => (add_zero (post a)).symm ▸ hf a ha) (add_zero own).symm

theorem imp (hx : Turns stop own x post fact) (hpost : ∀ d a, fact d a → post a = post' a)
    (hfact : ∀ d a, fact d a → fact' d a) : Turns stop own x post' fact' := by
  induction x generalizing own stop fact fact' with
  | pure a => exact ⟨hx.1.trans (hpost [] a hx.2), hfact [] a hx.2⟩
  | stuck => exact hx
  | take k next ih => exact fun id => ih _ (hx id) hpost hfact
  | alloc k next ih =>
      exact ⟨ih none hx.1 (fun d => hpost (false :: d)) fun d => hfact (false :: d),
        fun id => ih _ (hx.2 id) (fun d => hpost (true :: d)) fun d => hfact (true :: d)⟩
  | use h next ih => exact ⟨hx.1, ih hx.2 hpost hfact⟩
  | give h next ih =>
      obtain ⟨rest, hown, hnext⟩ := hx
      exact ⟨rest, hown, ih hnext hpost hfact⟩

theorem mono_stop (hx : Turns stop own x post fact) (hstop : ∀ d, stop d → stop' d) :
    Turns stop' own x post fact := by
  induction x generalizing own stop stop' fact with
  | pure a => exact hx
  | stuck => exact hstop [] hx
  | take k next ih => exact fun id => ih _ (hx id) hstop
  | alloc k next ih =>
      exact ⟨ih none hx.1 fun d => hstop (false :: d),
        fun id => ih _ (hx.2 id) fun d => hstop (true :: d)⟩
  | use h next ih => exact ⟨hx.1, ih hx.2 hstop⟩
  | give h next ih =>
      obtain ⟨rest, hown, hnext⟩ := hx
      exact ⟨rest, hown, ih hnext hstop⟩

/-! The next action of a program. -/

theorem pure_then {a : α} (hf : Turns stop own (f a) postB factB) :
    Turns stop own (Pure.pure a >>= f) postB factB := hf

theorem take_then {k : K} {f : Handle K → Prog K β}
    (hf : ∀ h, Turns stop ({h} + own) (f h) postB factB) :
    Turns stop own (take k >>= f) postB factB := fun id => hf ⟨k, id⟩

theorem alloc_then {k : K} {f : Option (Handle K) → Prog K β}
    (hnone : Turns (fun d => stop (false :: d)) own (f none) postB fun d => factB (false :: d))
    (hsome : ∀ h, Turns (fun d => stop (true :: d)) ({h} + own) (f (some h)) postB
      fun d => factB (true :: d)) : Turns stop own (alloc k >>= f) postB factB :=
  ⟨hnone, fun id => hsome ⟨k, id⟩⟩

theorem use_then {f : Unit → Prog K β} (hmem : h ∈ own) (hf : Turns stop own (f ()) postB factB) :
    Turns stop own (use h >>= f) postB factB := ⟨hmem, hf⟩

theorem give_then {f : Unit → Prog K β} (extra : Multiset (Handle K)) (hown : own = {h} + extra)
    (hf : Turns stop extra (f ()) postB factB) :
    Turns stop own (give h >>= f) postB factB := ⟨extra, hown, hf⟩

end Turns

theorem turns_use (hmem : h ∈ own) :
    Turns stop own (use h) (fun _ => own) (Unasked fun _ => True) := ⟨hmem, rfl, rfl, trivial⟩

theorem turns_give (hown : own = {h} + extra) :
    Turns stop own (give h) (fun _ => extra) (Unasked fun _ => True) :=
  ⟨extra, hown, rfl, rfl, trivial⟩

theorem turns_useAny {r : Option (Handle K)} (hmem : ∀ h ∈ r, h ∈ own) :
    Turns stop own (useAny r) (fun _ => own) (Unasked fun _ => True) := by
  cases r with
  | none => exact .pure rfl ⟨rfl, trivial⟩
  | some h => exact turns_use (hmem h rfl)

theorem turns_giveAny {r : Option (Handle K)} (hown : own = owned r + extra) :
    Turns stop own (giveAny r) (fun _ => extra) (Unasked fun _ => True) := by
  cases r with
  | none => exact .pure (hown.trans (zero_add extra)) ⟨rfl, trivial⟩
  | some h => exact turns_give hown

variable [DecidableEq K]

/-- The requests between two states, by their numbers. -/
def Store.requests (s s' : Store K) : List ℕ := List.range' s.asked (s'.asked - s.asked)

/-- **Whatever else is held, the next action of a program does no harm.** -/
theorem Turns.step (hx : Turns stop own x post fact) {s : Store K} {rest : Multiset (Handle K)}
    (hlive : s.live.val = own + rest) :
    match x.step s with
    | .ok (x', s') => ∃ own', s'.live.val = own' + rest ∧ s'.answers = s.answers ∧
        s.asked ≤ s'.asked ∧
        Turns (fun d => stop ((s.requests s').map s.answers ++ d)) own' x' post
          fun d => fact ((s.requests s').map s.answers ++ d)
    | .error fault => fault = .stuck ∧ stop [] := by
  have hmem : ∀ {h}, h ∈ own → h ∈ s.live := by
    intro h hh
    rw [← Finset.mem_val, hlive]
    exact Multiset.mem_add.mpr (Or.inl hh)
  have hput : ∀ {h}, h ::ₘ s.live.val = {h} + own + rest := by
    intro h
    rw [hlive, ← Multiset.singleton_add, add_assoc]
  have hsame : (s.requests s).map s.answers = [] := by simp [Store.requests]
  cases x with
  | pure a => exact ⟨own, hlive, rfl, le_rfl, hsame.symm ▸ hx⟩
  | stuck => exact ⟨rfl, hx⟩
  | take k next =>
      have hput' : (s.requests (s.put k)).map s.answers = [] := hsame
      exact ⟨_, hput, rfl, le_rfl, hput'.symm ▸ hx s.next⟩
  | alloc k next =>
      rw [Prog.step]
      have hask : ∀ s' : Store K, s'.asked = s.asked + 1 →
          (s.requests s').map s.answers = [s.answers s.asked] := by
        intro s' hs'
        simp [Store.requests, hs']
      by_cases hanswer : s.answers s.asked = true
      · rw [if_pos hanswer]
        refine ⟨_, hput, rfl, Nat.le_succ _, ?_⟩
        rw [hask _ rfl, hanswer]
        exact hx.2 s.next
      · rw [if_neg hanswer]
        refine ⟨own, hlive, rfl, Nat.le_succ _, ?_⟩
        rw [hask _ rfl, Bool.eq_false_of_not_eq_true hanswer]
        exact hx.1
  | use h next =>
      rw [Prog.step, if_pos (hmem hx.1)]
      exact ⟨own, hlive, rfl, le_rfl, hsame.symm ▸ hx.2⟩
  | give h next =>
      obtain ⟨own', rfl, hnext⟩ := hx
      rw [Prog.step, if_pos (hmem (by simp))]
      have hdrop : (s.requests (s.drop h)).map s.answers = [] := hsame
      refine ⟨own', ?_, rfl, le_rfl, hdrop.symm ▸ hnext⟩
      show (s.live.erase h).val = _
      rw [Finset.erase_val, hlive, add_assoc, Multiset.singleton_add, Multiset.erase_cons_head]

end Triples

/-! ## Side by side -/

section SideBySide

variable {M ι : Type} [Fintype ι] [DecidableEq ι]

/-- `all` is divided up: `own i` is with program `i`, and `rest` is with none of them. -/
def Divided (all : Multiset M) (own : ι → Multiset M) (rest : Multiset M) : Prop :=
  all = ∑ i, own i + rest

variable {all : Multiset M} {own : ι → Multiset M} {rest rest' : Multiset M}

theorem Divided.eq (h : Divided all own rest) (i : ι) :
    all = own i + (∑ j ∈ Finset.univ \ {i}, own j + rest) := by
  rw [h, Finset.sum_eq_add_sum_sdiff_singleton_of_mem (Finset.mem_univ i), add_assoc]

theorem divided_update (i : ι) {own' : Multiset M}
    (hall : all = own' + (∑ j ∈ Finset.univ \ {i}, own j + rest)) :
    Divided all (Function.update own i own') rest := by
  rw [Divided, Finset.sum_update_of_mem (Finset.mem_univ i), hall, add_assoc]

/-- A program takes over from what is with none, or leaves something there. -/
theorem Divided.transfer (h : Divided all own rest) (i : ι) {own' : Multiset M}
    (heq : own i + rest = own' + rest') : Divided all (Function.update own i own') rest' := by
  refine divided_update i ?_
  rw [h.eq i, add_left_comm, heq, add_left_comm]

theorem Divided.le (h : Divided all own rest) (i : ι) : own i ≤ all := by
  rw [h.eq i]
  exact Multiset.le_add_right _ _

/-! ### Programs and their requests -/

variable {K α : Type}

/-- The rest of a program that has had the answers `d` already. -/
def TurnsAfter (d : List Bool) (stop : List Bool → Prop) (own : Multiset (Handle K)) (x : Prog K α)
    (post : α → Multiset (Handle K)) (fact : List Bool → α → Prop) : Prop :=
  Turns (fun d' => stop (d ++ d')) own x post fun d' => fact (d ++ d')

/-- What is held and what has been asked for is divided up: the requests `asked i` are those of
program `i`, in their order, and `done` are those of the programs before. -/
structure Shares (s : Store K) (own : ι → Multiset (Handle K)) (rest : Multiset (Handle K))
    (asked : ι → List ℕ) (done : Multiset ℕ) : Prop where
  live : Divided s.live.val own rest
  requests : Divided (Multiset.range s.asked) (fun i => (asked i : Multiset ℕ)) done
  order : ∀ i, (asked i).Pairwise (· < ·)

namespace Shares

variable {s s' : Store K} {own : ι → Multiset (Handle K)} {rest : Multiset (Handle K)}
  {asked : ι → List ℕ} {done : Multiset ℕ}

theorem lt_asked (h : Shares s own rest asked done) {i : ι} {n : ℕ} (hn : n ∈ asked i) :
    n < s.asked :=
  Multiset.mem_range.mp (Multiset.mem_of_le (h.requests.le i) (Multiset.mem_coe.mpr hn))

omit [Fintype ι] in
theorem coe_update (asked : ι → List ℕ) (i : ι) (list : List ℕ) :
    (fun j => (Function.update asked i list j : Multiset ℕ)) =
      Function.update (fun j => (asked j : Multiset ℕ)) i list := by
  funext j
  exact Function.apply_update (fun _ (l : List ℕ) => (l : Multiset ℕ)) asked i list j

theorem update (h : Shares s own rest asked done) (i : ι) {own' : Multiset (Handle K)}
    (hlive : s'.live.val = own' + (∑ j ∈ Finset.univ \ {i}, own j + rest))
    (hle : s.asked ≤ s'.asked) :
    Shares s' (Function.update own i own') rest
      (Function.update asked i (asked i ++ s.requests s')) done where
  live := divided_update i hlive
  requests := by
    rw [coe_update]
    refine divided_update i ?_
    have hrange : List.range s'.asked = List.range s.asked ++ s.requests s' := by
      obtain ⟨n, hn⟩ := Nat.exists_eq_add_of_le hle
      rw [Store.requests, hn, Nat.add_sub_cancel_left, List.range_add, List.range'_eq_map_range]
    have hall : Multiset.range s'.asked = Multiset.range s.asked + (s.requests s' : Multiset ℕ) :=
      (congrArg _ hrange).trans (Multiset.coe_add _ _).symm
    rw [hall, h.requests.eq i, ← Multiset.coe_add, add_right_comm]
  order := by
    refine (Function.forall_update_iff _ fun _ (l : List ℕ) => l.Pairwise (· < ·)).mpr
      ⟨List.pairwise_append.mpr ⟨h.order i, List.pairwise_lt_range', ?_⟩, fun j _ => h.order j⟩
    intro n hn m hm
    exact (h.lt_asked hn).trans_le (List.mem_range'_1.mp hm).1

/-- A program takes over, or leaves something there; its requests may be done. -/
theorem transfer (h : Shares s own rest asked done) (i : ι) {own' rest' : Multiset (Handle K)}
    {asked' : List ℕ} {done' : Multiset ℕ} (hown : own i + rest = own' + rest')
    (hasked : (asked i : Multiset ℕ) + done = asked' + done')
    (horder : asked'.Pairwise (· < ·)) :
    Shares s (Function.update own i own') rest' (Function.update asked i asked') done' where
  live := h.live.transfer i hown
  requests := by
    rw [coe_update]
    exact h.requests.transfer i hasked
  order := (Function.forall_update_iff _ fun _ (l : List ℕ) => l.Pairwise (· < ·)).mpr
    ⟨horder, fun j _ => h.order j⟩

/-- **Programs with enough of their own may act in any order.** -/
theorem step [DecidableEq K] {stop : List Bool → Prop} {i : ι} {x : Prog K α}
    {post : α → Multiset (Handle K)} {fact : List Bool → α → Prop}
    (h : Shares s own rest asked done)
    (hx : TurnsAfter ((asked i).map s.answers) stop (own i) x post fact) :
    match x.step s with
    | .ok (x', s') => ∃ own' asked', s'.answers = s.answers ∧
        Shares s' (Function.update own i own') rest (Function.update asked i asked') done ∧
        TurnsAfter (asked'.map s.answers) stop own' x' post fact
    | .error fault => fault = .stuck ∧ stop ((asked i).map s.answers) := by
  have hstep := Turns.step hx (h.live.eq i)
  revert hstep
  cases x.step s with
  | error fault =>
      rintro ⟨rfl, hstop⟩
      rw [List.append_nil] at hstop
      exact ⟨rfl, hstop⟩
  | ok r =>
      rintro ⟨own', hlive, hanswers, hle, hx'⟩
      refine ⟨own', asked i ++ s.requests r.2, hanswers, h.update i hlive hle, ?_⟩
      simp only [← List.append_assoc, ← List.map_append] at hx'
      exact hx'

end Shares

end SideBySide

end SecDetector.Lib
