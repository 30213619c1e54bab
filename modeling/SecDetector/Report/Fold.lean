import SecDetector.Report.SaveCheck

/-!
# Folding a digest

`hash_to_long` joins the four words of a digest with `&`.  A bit of the measure is set if
it is set in all four words, so a bit that is clear in one of them hides what happens to the
others.
-/

namespace SecDetector.Report

variable {sha256 : List UInt8 → Digest} {data data' : List UInt8}

/-- The measure of a digest. -/
def foldDigest (digest : Digest) : BitVec 64 := hashToLong (fun _ => digest) []

theorem hashToLong_eq (sha256 : List UInt8 → Digest) (data : List UInt8) :
    hashToLong sha256 data = foldDigest (sha256 data) := rfl

/-- The loop reads the first word a second time. -/
theorem foldDigest_eq (digest : Digest) :
    foldDigest digest = digest 0 &&& digest 0 &&& digest 1 &&& digest 2 &&& digest 3 := rfl

/-- A bit of the measure is set if it is set in every word. -/
theorem getLsbD_foldDigest (digest : Digest) (i : ℕ) :
    (foldDigest digest).getLsbD i = true ↔ ∀ word, (digest word).getLsbD i = true := by
  simp only [foldDigest_eq, BitVec.getLsbD_and, Bool.and_eq_true, Fin.forall_fin_succ,
    IsEmpty.forall_iff, and_true, and_self, and_assoc]
  rfl

/-- The digest with one bit changed. -/
def flipBit (digest : Digest) (word : Fin 4) (bit : Fin 64) : Digest :=
  Function.update digest word (digest word ^^^ BitVec.twoPow 64 bit)

theorem getLsbD_flipBit_self (digest : Digest) (word : Fin 4) (bit : Fin 64) :
    (flipBit digest word bit word).getLsbD bit = !(digest word).getLsbD bit := by
  rw [flipBit, Function.update_self, BitVec.getLsbD_xor, BitVec.getLsbD_twoPow]
  simp

theorem getLsbD_flipBit_of_ne (digest : Digest) (word other : Fin 4) {bit : Fin 64} {i : ℕ}
    (hi : i ≠ bit) : (flipBit digest word bit other).getLsbD i = (digest other).getLsbD i := by
  by_cases hword : other = word
  · rw [hword, flipBit, Function.update_self, BitVec.getLsbD_xor, BitVec.getLsbD_twoPow]
    simp [Ne.symm hi]
  · rw [flipBit, Function.update_of_ne hword]

/-- The other words say whether a change of one bit is seen in the measure. -/
theorem getLsbD_flipBit_iff (digest : Digest) (word : Fin 4) (bit : Fin 64) :
    ((foldDigest (flipBit digest word bit)).getLsbD bit ≠ (foldDigest digest).getLsbD bit) ↔
      ∀ other, other ≠ word → (digest other).getLsbD bit = true := by
  have hsplit : ∀ d : Digest, (foldDigest d).getLsbD bit = true ↔
      (d word).getLsbD bit = true ∧ ∀ other, other ≠ word → (d other).getLsbD bit = true := by
    intro d
    rw [getLsbD_foldDigest]
    constructor
    · intro hall
      exact ⟨hall word, fun other _ => hall other⟩
    · rintro ⟨hword, hothers⟩ other
      by_cases hother : other = word
      · exact hother ▸ hword
      · exact hothers other hother
  have hothers : (∀ other, other ≠ word → (flipBit digest word bit other).getLsbD bit = true) ↔
      ∀ other, other ≠ word → (digest other).getLsbD bit = true := by
    apply forall₂_congr
    intro other hother
    rw [flipBit, Function.update_of_ne hother]
  rw [Ne, Bool.eq_iff_iff, hsplit, hsplit, hothers, getLsbD_flipBit_self]
  cases (digest word).getLsbD bit <;> simp

/-- **When the measure of a region changes with one bit of its digest.** -/
theorem flip_seen_iff (digest : Digest) (word : Fin 4) (bit : Fin 64) :
    foldDigest (flipBit digest word bit) ≠ foldDigest digest ↔
      ∀ other, other ≠ word → (digest other).getLsbD bit = true := by
  rw [← getLsbD_flipBit_iff]
  constructor
  · intro hdiffers hsame
    refine hdiffers (BitVec.eq_of_getLsbD_eq fun i _ => ?_)
    by_cases hi : i = bit
    · rw [hi, hsame]
    · -- the other bits are the same in every word
      rw [Bool.eq_iff_iff, getLsbD_foldDigest, getLsbD_foldDigest]
      exact forall_congr' fun other => by rw [getLsbD_flipBit_of_ne digest word other hi]
  · intro hbit hsame
    exact hbit (by rw [hsame])

/-- A digest of zeros hides every change. -/
theorem not_flip_seen :
    ¬ ∀ (digest : Digest) (word : Fin 4) (bit : Fin 64),
      foldDigest (flipBit digest word bit) ≠ foldDigest digest := by
  intro hclaim
  exact hclaim (fun _ => 0) 0 0 (by decide)

end SecDetector.Report
