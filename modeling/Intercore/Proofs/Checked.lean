import Mathlib.Tactic.Lemma

/-!
# Checked arithmetic

Operations on words that have no result where the exact one does not fit or does not exist. A
computation is free of overflow and of divisions by zero if it has the same result with them.
-/

namespace Intercore.Checked

def add (a b : UInt64) : Option UInt64 :=
  if a.toNat + b.toNat < UInt64.size then some (a + b) else none

def sub (a b : UInt64) : Option UInt64 := if b.toNat ≤ a.toNat then some (a - b) else none

def mul (a b : UInt64) : Option UInt64 :=
  if a.toNat * b.toNat < UInt64.size then some (a * b) else none

/-- The quotient and the remainder. -/
def divMod (a b : UInt64) : Option (UInt64 × UInt64) :=
  if b = 0 then none else some (a / b, a % b)

def mod (a b : UInt32) : Option UInt32 := if b = 0 then none else some (a % b)

variable {a b : UInt64} {m n : Nat}

lemma add_eq (ha : a.toNat = m) (hb : b.toNat = n) (h : m + n < UInt64.size) :
    add a b = some (a + b) ∧ (a + b).toNat = m + n := by
  subst ha hb
  exact ⟨if_pos h, (UInt64.toNat_add a b).trans (Nat.mod_eq_of_lt h)⟩

lemma sub_eq (ha : a.toNat = m) (hb : b.toNat = n) (h : n ≤ m) :
    sub a b = some (a - b) ∧ (a - b).toNat = m - n := by
  subst ha hb
  exact ⟨if_pos h, UInt64.toNat_sub_of_le a b (UInt64.le_iff_toNat_le.mpr h)⟩

lemma mul_eq (ha : a.toNat = m) (hb : b.toNat = n) (h : m * n < UInt64.size) :
    mul a b = some (a * b) ∧ (a * b).toNat = m * n := by
  subst ha hb
  exact ⟨if_pos h, (UInt64.toNat_mul a b).trans (Nat.mod_eq_of_lt h)⟩

lemma divMod_eq (hb : 0 < b.toNat) : divMod a b = some (a / b, a % b) := by
  apply if_neg
  rintro rfl
  exact Nat.lt_irrefl 0 hb

lemma mod_eq {a b : UInt32} (h : b ≠ 0) : mod a b = some (a % b) := if_neg h

end Intercore.Checked
