import Intercore.Span
import Mathlib.Order.Bounds.Basic
import Mathlib.Tactic.Lemma

/-!
# Words and powers of two

What masks do to words, said in natural numbers: clearing the bits below a power of two rounds
down to a multiple of it.
-/

namespace Intercore

/-- The least multiple of `a` that is not below `n`. -/
def roundUp (n a : Nat) : Nat := (n + a - 1) / a * a

section RoundUp

variable {n a : Nat}

lemma dvd_roundUp (n a : Nat) : a ∣ roundUp n a := ⟨_, Nat.mul_comm _ _⟩

lemma le_roundUp (ha : 0 < a) : n ≤ roundUp n a := by
  have hmod := Nat.mod_lt (n + a - 1) ha
  have hdiv := Nat.div_add_mod' (n + a - 1) a
  simp only [roundUp]
  omega

lemma roundUp_lt (ha : 0 < a) : roundUp n a < n + a := by
  have hle := Nat.div_mul_le_self (n + a - 1) a
  simp only [roundUp]
  omega

lemma roundUp_le {m : Nat} (ha : 0 < a) (hm : a ∣ m) (hn : n ≤ m) : roundUp n a ≤ m := by
  obtain ⟨k, rfl⟩ := hm
  have hlt : n + a - 1 < (k + 1) * a := by
    rw [Nat.add_mul, Nat.mul_comm k a]
    omega
  rw [roundUp, Nat.mul_comm a k]
  exact Nat.mul_le_mul_right a (Nat.lt_succ_iff.mp ((Nat.div_lt_iff_lt_mul ha).mpr hlt))

lemma roundUp_of_dvd (ha : 0 < a) (h : a ∣ n) : roundUp n a = n :=
  Nat.le_antisymm (roundUp_le ha h (Nat.le_refl n)) (le_roundUp ha)

lemma roundUp_mono {m : Nat} (h : n ≤ m) : roundUp n a ≤ roundUp m a := by
  have hpad : n + a - 1 ≤ m + a - 1 := by omega
  exact Nat.mul_le_mul_right a (Nat.div_le_div_right hpad)

lemma roundUp_le_of_dvd {b : Nat} (ha : 0 < a) (hb : 0 < b) (h : a ∣ b) :
    roundUp n a ≤ roundUp n b :=
  roundUp_le ha (Nat.dvd_trans h (dvd_roundUp n b)) (le_roundUp hb)

/-- The same with a quotient that is rounded up only if there is a remainder. -/
lemma roundUp_eq_ite (ha : 0 < a) :
    roundUp n a = (if n % a = 0 then n / a else n / a + 1) * a := by
  have hdiv := Nat.div_add_mod n a
  have hmod := Nat.mod_lt n ha
  rw [roundUp]
  congr 1
  split
  case isTrue hzero =>
    rw [show n + a - 1 = a * (n / a) + (a - 1) by omega, Nat.mul_add_div ha,
      Nat.div_eq_of_lt (a := a - 1) (by omega), Nat.add_zero]
  case isFalse hzero =>
    rw [show n + a - 1 = a * (n / a) + (a + (n % a - 1)) by omega, Nat.mul_add_div ha,
      Nat.add_div_left _ ha, Nat.div_eq_of_lt (a := n % a - 1) (by omega)]

lemma isLeast_roundUp (ha : 0 < a) : IsLeast {m | a ∣ m ∧ n ≤ m} (roundUp n a) :=
  ⟨⟨dvd_roundUp n a, le_roundUp ha⟩, fun _ hm => roundUp_le ha hm.1 hm.2⟩

end RoundUp

lemma dvd_of_isPowerOfTwo {a b : Nat} (ha : a.isPowerOfTwo) (hb : b.isPowerOfTwo) (h : a ≤ b) :
    a ∣ b := by
  obtain ⟨i, rfl⟩ := ha
  obtain ⟨j, rfl⟩ := hb
  exact Nat.pow_dvd_pow 2 ((Nat.pow_le_pow_iff_right (by decide)).mp h)

lemma mod_eq_zero_iff_dvd (v w : UInt32) : v % w = 0 ↔ w.toNat ∣ v.toNat := by
  rw [← UInt32.toNat_inj, UInt32.toNat_mod, Nat.dvd_iff_mod_eq_zero]
  rfl

/-- A word is checked to be a power of two by its predecessor. -/
lemma isPowerOfTwo_iff (v : UInt32) : isPowerOfTwo v = true ↔ v.toNat.isPowerOfTwo := by
  rw [← Nat.ne_zero_and_sub_one_eq_zero_iff_isPowerOfTwo]
  have hzero : v ≠ 0 ↔ v.toNat ≠ 0 := by simp [← UInt32.toNat_inj]
  by_cases hv : v = 0
  · simp [isPowerOfTwo, hv]
  · have hone : 1 ≤ v := by
      rw [UInt32.le_iff_toNat_le]
      exact Nat.one_le_iff_ne_zero.mpr (hzero.mp hv)
    have hsub : (v - 1).toNat = v.toNat - 1 := UInt32.toNat_sub_of_le v 1 hone
    simp [isPowerOfTwo, ← UInt32.toNat_inj, hsub]

lemma ne_zero_of_isPowerOfTwo {v : UInt32} (h : v.toNat.isPowerOfTwo) : v ≠ 0 := by
  rintro rfl
  exact Nat.lt_irrefl 0 (Nat.pos_of_isPowerOfTwo h)

/-- Clearing the bits below a power of two rounds down. -/
lemma toNat_clear (w a : UInt64) (ha : a.toNat.isPowerOfTwo) :
    (w &&& ~~~(a - 1)).toNat = w.toNat / a.toNat * a.toNat := by
  have hone : 1 ≤ a := by
    rw [UInt64.le_iff_toNat_le]
    exact Nat.pos_of_isPowerOfTwo ha
  have hsub : (a - 1).toNat = a.toNat - 1 := UInt64.toNat_sub_of_le a 1 hone
  have hlt : a.toNat - 1 < 2 ^ 64 := Nat.lt_of_le_of_lt (Nat.sub_le _ _) a.toNat_lt
  obtain ⟨k, hk⟩ := ha
  apply Nat.eq_of_testBit_eq
  intro i
  have hnot : (~~~(a - 1)).toNat = 2 ^ 64 - (a.toNat - 1 + 1) := by
    rw [UInt64.toNat_not, hsub, show UInt64.size = 2 ^ 64 from rfl, Nat.add_comm, Nat.sub_sub]
  rw [UInt64.toNat_and, Nat.testBit_and, hnot, Nat.testBit_two_pow_sub_succ hlt, hk,
    Nat.testBit_two_pow_sub_one, Nat.testBit_mul_two_pow, Nat.testBit_div_two_pow]
  -- bits from `k` on are kept, and those below are cleared
  by_cases hi : k ≤ i
  · have hbit : w.toNat.testBit i = true → i < 64 := by
      intro h
      by_contra hge
      have hlow : w.toNat < 2 ^ i :=
        Nat.lt_of_lt_of_le w.toNat_lt (Nat.pow_le_pow_right (by decide) (by omega))
      simp [Nat.testBit_lt_two_pow hlow] at h
    rw [Nat.sub_add_cancel hi]
    cases h : w.toNat.testBit i with
    | false => simp
    | true => simp [hi, hbit h, Nat.not_lt.mpr hi]
  · simp [hi, Nat.lt_of_not_le hi]

end Intercore
