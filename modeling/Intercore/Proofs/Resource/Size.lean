import Intercore.Proofs.Extent
import Intercore.Resource.Validate

/-!
# Sizes of rings

The size that is computed for a ring is its size in numbers without bound.
-/

namespace Intercore.Resource

@[simp] lemma require_eq_ok {ok : Bool} {e : TableError} : require ok e = .ok () ↔ ok = true := by
  cases ok <;> simp [require]

def VringDesc.placement (v : VringDesc) : Placement := ⟨v.da.toNat, v.align.toNat, v.num.toNat⟩

variable {align : UInt32}

lemma toNat_availEnd (num : UInt32) :
    (16 * num.toUInt64 + 2 * (3 + num.toUInt64)).toNat = 16 * num.toNat + (6 + 2 * num.toNat) := by
  have hnum := num.toNat_lt
  simp only [UInt64.toNat_add, UInt64.toNat_mul, UInt32.toNat_toUInt64, UInt64.reduceToNat]
  omega

/-- The mask takes the ring of used buffers to the next multiple of the alignment. -/
lemma toNat_usedOffset (num : UInt32) (ha : align.toNat.isPowerOfTwo) :
    ((16 * num.toUInt64 + 2 * (3 + num.toUInt64) + align.toUInt64 - 1) &&&
        ~~~(align.toUInt64 - 1)).toNat =
      roundUp (16 * num.toNat + (6 + 2 * num.toNat)) align.toNat := by
  have hnum := num.toNat_lt
  have halign := align.toNat_lt
  have hpos := Nat.pos_of_isPowerOfTwo ha
  have havail := toNat_availEnd num
  -- what comes before the padding enters only by its value
  generalize 16 * num.toUInt64 + 2 * (3 + num.toUInt64) = availEnd at havail ⊢
  have hup : (availEnd + align.toUInt64 - 1).toNat = availEnd.toNat + align.toNat - 1 := by
    simp only [UInt64.toNat_sub, UInt64.toNat_add, UInt32.toNat_toUInt64, UInt64.reduceToNat]
    omega
  rw [toNat_clear _ _ (by simpa using ha), hup, havail, UInt32.toNat_toUInt64, roundUp]

lemma toNat_vringSize (num : UInt32) (ha : align.toNat.isPowerOfTwo) :
    (vringSize num align).toNat =
      roundUp (16 * num.toNat + (6 + 2 * num.toNat)) align.toNat + (6 + 8 * num.toNat) := by
  have hnum := num.toNat_lt
  have halign := align.toNat_lt
  have hround := roundUp_lt (n := 16 * num.toNat + (6 + 2 * num.toNat))
    (Nat.pos_of_isPowerOfTwo ha)
  have hused := toNat_usedOffset num ha
  simp only [vringSize, UInt64.toNat_add, UInt64.toNat_mul, UInt32.toNat_toUInt64,
    UInt64.reduceToNat] at hused ⊢
  omega

lemma VringDesc.area_measures {v : VringDesc} (ha : v.align.toNat.isPowerOfTwo) :
    v.area.Measures v.placement.whole := by
  have hda := v.da.toNat_lt
  have hnum := v.num.toNat_lt
  have halign := v.align.toNat_lt
  have hsize := toNat_vringSize v.num ha
  have hround := roundUp_lt (n := 16 * v.num.toNat + (6 + 2 * v.num.toNat))
    (Nat.pos_of_isPowerOfTwo ha)
  constructor
  · simp [area, Span.ofBase, placement, Placement.whole]
  · simp only [area, Span.ofBase, UInt64.toNat_add, UInt32.toNat_toUInt64, hsize, placement,
      Placement.whole, Extent.stop, Placement.usedOffset, Placement.availEnd]
    omega

def Trace.extent (t : Trace) : Extent := ⟨t.da.toNat, t.len.toNat⟩

lemma Trace.area_measures (t : Trace) : t.area.Measures t.extent := by
  have hda := t.da.toNat_lt
  have hlen := t.len.toNat_lt
  constructor
  · simp [area, Span.ofBase, extent]
  · simp only [area, Span.ofBase, UInt64.toNat_add, UInt32.toNat_toUInt64, extent, Extent.stop]
    omega

end Intercore.Resource
