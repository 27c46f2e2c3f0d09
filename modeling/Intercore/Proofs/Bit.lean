import Mathlib.Data.Fin.Basic
import Mathlib.Tactic.Lemma

/-!
# Bits of words

Registers have a bit for each channel, and drivers look it up with a mask.
-/

namespace Intercore

/-- Whether a bit is set in a word. -/
def hasBit (i : Fin 32) (w : UInt32) : Bool := w &&& (1 <<< UInt32.ofNat i.val) ≠ 0

lemma toBitVec_shiftLeft_one (i : Fin 32) :
    (1 <<< UInt32.ofNat i.val : UInt32).toBitVec = BitVec.twoPow 32 i.val := by
  revert i
  decide

lemma hasBit_eq (i : Fin 32) (w : UInt32) : hasBit i w = w.toBitVec.getLsbD i.val := by
  have hne : BitVec.twoPow 32 i.val ≠ 0#32 := by
    intro h
    have := congrArg BitVec.toNat h
    simp [BitVec.toNat_twoPow_of_lt i.isLt] at this
  rw [hasBit, Bool.eq_iff_iff, decide_eq_true_iff, ← UInt32.toBitVec_inj.ne, UInt32.toBitVec_and,
    toBitVec_shiftLeft_one, BitVec.and_twoPow]
  split <;> simp_all

lemma ext_hasBit {w w' : UInt32} : w = w' ↔ ∀ i, hasBit i w = hasBit i w' := by
  constructor
  · rintro rfl _
    rfl
  · intro h
    rw [← UInt32.toBitVec_inj]
    apply BitVec.eq_of_getLsbD_eq
    intro i hi
    simpa only [hasBit_eq] using h ⟨i, hi⟩

section Operators

variable (i j : Fin 32) (w w' : UInt32)

@[simp] lemma hasBit_zero : hasBit i 0 = false := by simp [hasBit_eq]

@[simp] lemma hasBit_and : hasBit i (w &&& w') = (hasBit i w && hasBit i w') := by
  simp [hasBit_eq]

@[simp] lemma hasBit_or : hasBit i (w ||| w') = (hasBit i w || hasBit i w') := by
  simp [hasBit_eq]

@[simp] lemma hasBit_not : hasBit i (~~~w) = !hasBit i w := by simp [hasBit_eq]

@[simp] lemma hasBit_shiftLeft_one :
    hasBit i (1 <<< UInt32.ofNat j.val) = decide (i = j) := by
  rw [hasBit_eq, toBitVec_shiftLeft_one, BitVec.getLsbD_twoPow]
  simp [Fin.ext_iff, eq_comm]

end Operators

end Intercore
