import Intercore.Semaphore.Block
import Mathlib.Data.Fin.Basic

/-!
# Claim registers

What a write makes of a claim register, and where the registers of the board's channels are.
-/

namespace Intercore.Semaphore

namespace Channel

lemma val_lt (ch : Channel) : ch.val < 8 := ch.isLt

@[simp] lemma toNat_index (ch : Channel) : ch.index.toNat = ch.val := by
  have := ch.val_lt
  simp [index]
  omega

lemma index_injective : Function.Injective index := by
  intro a b h
  have := congrArg UInt8.toNat h
  exact Fin.ext (by simpa using this)

end Channel

lemma index_toNat_lt (ch : Channel) : ch.index.toNat < 32 := by
  have := ch.val_lt
  rw [ch.toNat_index]
  omega

/-- What a write of `key` makes of a claim register. -/
def rewritten (key old : UInt8) : UInt8 :=
  if key = 0 then old else if old = 0 then key else if old = key then 0 else old

/-- A write of one key does not change whether the register holds another one. -/
lemma rewritten_eq_iff {key key' old : UInt8} (hne : key ≠ key') (hkey' : key' ≠ 0) :
    rewritten key old = key' ↔ old = key' := by
  grind [rewritten]

lemma rewritten_self {key : UInt8} (hkey : key ≠ 0) : rewritten key key = 0 := by
  grind [rewritten]

namespace Block

/-- The key in the claim register of a channel. -/
def claimed (b : Block) (ch : Channel) : UInt8 :=
  have := ch.val_lt
  b.sem[ch.val]

lemma claim_sem (b : Block) (side : Side) (i : Fin 32) (key : UInt8) {j : Nat} (hj : j < 32) :
    (b.claim side i key).sem[j] =
      if i.val = j then rewritten key b.sem[j] else b.sem[j] := by
  by_cases hij : i.val = j
  · subst hij
    simp only [claim, rewritten, Fin.getElem_fin, if_true]
    split_ifs
    all_goals simp
  · simp only [claim, Fin.getElem_fin, if_neg hij]
    split_ifs <;> simp [hij]

lemma writeSem_of_lt (b : Block) (side : Side) {ch : UInt8} (key : UInt8) (h : ch.toNat < 32) :
    b.writeSem side ch key = (.ok (), { b with writes := b.writes + 1 }.claim side ⟨_, h⟩ key) := by
  simp [writeSem, h]

end Block

end Intercore.Semaphore
