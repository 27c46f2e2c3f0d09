import Intercore.Proofs.Board.Overflow

/-!
# The size of a ring

A board finds the size of a ring with a division, and a table finds it with a mask. Both find the size
of the layout, and neither leaves its 64 bits on the way. A ring grows with each buffer, and does not
shrink when it is aligned to a greater power of two.
-/

namespace Intercore.Resource

variable {align : UInt32}

/-- Each buffer takes eight bytes behind the padding, whatever the padding in front of them does. -/
lemma vringSize_lt_vringSize (ha : align.toNat.isPowerOfTwo) {num more : UInt32} (h : num < more) :
    vringSize num align < vringSize more align := by
  have hlt : num.toNat < more.toNat := UInt32.lt_iff_toNat_lt.mp h
  have hround : roundUp (16 * num.toNat + (6 + 2 * num.toNat)) align.toNat ≤
      roundUp (16 * more.toNat + (6 + 2 * more.toNat)) align.toNat := roundUp_mono (by omega)
  rw [UInt64.lt_iff_toNat_lt, toNat_vringSize num ha, toNat_vringSize more ha]
  omega

/-- A multiple of the greater power of two is one of the smaller. -/
lemma vringSize_le_vringSize (num : UInt32) {wider : UInt32} (ha : align.toNat.isPowerOfTwo)
    (hw : wider.toNat.isPowerOfTwo) (h : align ≤ wider) :
    vringSize num align ≤ vringSize num wider := by
  have hdvd := dvd_of_isPowerOfTwo ha hw (UInt32.le_iff_toNat_le.mp h)
  rw [UInt64.le_iff_toNat_le, toNat_vringSize num ha, toNat_vringSize num hw]
  exact Nat.add_le_add_right
    (roundUp_le_of_dvd (Nat.pos_of_isPowerOfTwo ha) (Nat.pos_of_isPowerOfTwo hw) hdvd) _

lemma exists_used_vringSize (num : UInt32) (ha : align.toNat.isPowerOfTwo) :
    ∃ used, IsLeast {m | align.toNat ∣ m ∧ 18 * num.toNat + 6 ≤ m} used ∧
      (vringSize num align).toNat = used + 6 + 8 * num.toNat := by
  refine ⟨_, isLeast_roundUp (Nat.pos_of_isPowerOfTwo ha), ?_⟩
  rw [toNat_vringSize num ha, Nat.add_assoc]
  congr 2
  omega

/-- For a power of two the two sizes of a ring are one. It is that of the layout in numbers without
bound: the descriptors and the available buffers with their padding, then the used buffers. No
operation on the way to either overflows. The size goes up with the number of buffers, and never
down with the alignment. -/
theorem ring_sizes_exact (num : UInt32) (ha : align.toNat.isPowerOfTwo) :
    Vring.packedSize num align = vringSize num align ∧
      (∃ used, IsLeast {m | align.toNat ∣ m ∧ 18 * num.toNat + 6 ≤ m} used ∧
        (vringSize num align).toNat = used + 6 + 8 * num.toNat) ∧
      Vring.packedSize? num align = some (Vring.packedSize num align) ∧
      vringSize? num align = some (vringSize num align) ∧
      (∀ more, num < more → vringSize num align < vringSize more align) ∧
      ∀ wider : UInt32, wider.toNat.isPowerOfTwo → align ≤ wider →
        vringSize num align ≤ vringSize num wider := by
  refine ⟨Vring.packedSize_eq_vringSize num ha, exists_used_vringSize num ha, ?_, vringSize?_eq ha,
    fun _ => vringSize_lt_vringSize ha, fun _ hw => vringSize_le_vringSize num ha hw⟩
  exact Vring.packedSize?_eq num (Nat.pos_of_isPowerOfTwo ha)

/-- The greatest numbers of buffers and the greatest alignments. -/
theorem ring_sizes_exact_greatest :
    (0x40000000 : UInt32).toNat.isPowerOfTwo ∧ (0x80000000 : UInt32).toNat.isPowerOfTwo ∧
      Vring.packedSize 0xFFFFFFFE 0x40000000 = vringSize 0xFFFFFFFE 0x40000000 ∧
      vringSize 0xFFFFFFFE 0x40000000 < vringSize 0xFFFFFFFF 0x40000000 ∧
      vringSize 0xFFFFFFFE 0x40000000 ≤ vringSize 0xFFFFFFFE 0x80000000 := by
  have halign : (0x40000000 : UInt32).toNat.isPowerOfTwo := ⟨30, rfl⟩
  have hwider : (0x80000000 : UInt32).toNat.isPowerOfTwo := ⟨31, rfl⟩
  obtain ⟨hsame, -, -, -, hmore, hwide⟩ := ring_sizes_exact 0xFFFFFFFE halign
  exact ⟨halign, hwider, hsame, hmore _ (by decide), hwide _ hwider (by decide)⟩

end Intercore.Resource
