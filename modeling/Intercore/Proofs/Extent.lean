import Intercore.Proofs.Word
import Mathlib.Data.Set.Basic

/-!
# Extents

Stretches of bytes in memory, in numbers without bound, and the areas that a ring of buffers is
made of.
-/

namespace Intercore

/-- The `size` bytes from `start` on. -/
structure Extent where
  start : Nat
  size : Nat
  deriving DecidableEq, Repr

namespace Extent

def stop (e : Extent) : Nat := e.start + e.size

/-- The addresses of the extent. -/
def bytes (e : Extent) : Set Nat := {a | e.start ≤ a ∧ a < e.stop}

/-- The extent does not leave another one. -/
def Within (e f : Extent) : Prop := f.start ≤ e.start ∧ e.stop ≤ f.stop

/-- No address belongs to both extents. -/
def Apart (e f : Extent) : Prop := ∀ a ∈ e.bytes, a ∉ f.bytes

variable {e f g : Extent}

lemma Within.trans (h : e.Within f) (h' : f.Within g) : e.Within g :=
  ⟨Nat.le_trans h'.1 h.1, Nat.le_trans h.2 h'.2⟩

lemma Within.bytes_subset (h : e.Within f) : e.bytes ⊆ f.bytes :=
  fun _ ha => ⟨Nat.le_trans h.1 ha.1, Nat.lt_of_lt_of_le ha.2 h.2⟩

lemma apart_of_le (h : e.stop ≤ f.start) : e.Apart f := by
  intro a he hf
  have hlt : a < f.start := Nat.lt_of_lt_of_le he.2 h
  exact Nat.not_lt.mpr hf.1 hlt

lemma Apart.symm (h : e.Apart f) : f.Apart e := by
  intro a hf he
  exact h a he hf

lemma Apart.mono {e' f' : Extent} (h : e.Apart f) (he : e'.Within e) (hf : f'.Within f) :
    e'.Apart f' :=
  fun a ha ha' => h a (he.bytes_subset ha) (hf.bytes_subset ha')

end Extent

def Region.extent (r : Region) : Extent := ⟨r.base.toNat, r.size.toNat⟩

lemma Region.toNat_stop (r : Region) : r.stop.toNat = r.extent.stop := by
  have hbase := r.base.toNat_lt
  have hsize := r.size.toNat_lt
  simp only [Region.stop, UInt64.toNat_add, UInt32.toNat_toUInt64, extent, Extent.stop]
  omega

/-- The ends of a span are those of an extent, so nothing overflowed. -/
def Span.Measures (s : Span) (e : Extent) : Prop := s.start.toNat = e.start ∧ s.stop.toNat = e.stop

namespace Span.Measures

variable {s s' : Span} {e f : Extent}

lemma contains_iff (h : s.Measures e) (r : Region) :
    r.contains s.start (s.stop - s.start) = true ↔ e.Within r.extent := by
  have hback : s.start + (s.stop - s.start) = s.stop := by
    rw [UInt64.add_comm, UInt64.sub_add_cancel]
  simp [Region.contains, hback, UInt64.le_iff_toNat_le, Extent.Within, h.1, h.2, r.toNat_stop,
    Region.extent]

lemma apart (h : s.Measures e) (h' : s'.Measures f) (hnot : s.overlaps s' = false) :
    e.Apart f := by
  simp only [overlaps, Bool.and_eq_false_iff, decide_eq_false_iff_not, UInt64.lt_iff_toNat_lt, h.1,
    h.2, h'.1, h'.2, Nat.not_lt] at hnot
  rcases hnot with hbefore | hafter
  · exact (Extent.apart_of_le hbefore).symm
  · exact Extent.apart_of_le hafter

lemma covers_iff (h : s.Measures e) (h' : s'.Measures f) : s.covers s' = true ↔ f.Within e := by
  simp [covers, UInt64.le_iff_toNat_le, Extent.Within, h.1, h.2, h'.1, h'.2]

end Span.Measures

/-- Where a ring of buffers lies: its descriptors, behind them the ring of available buffers, and
from the next multiple of the alignment on the ring of used buffers. -/
structure Placement where
  base : Nat
  align : Nat
  num : Nat
  deriving DecidableEq, Repr

namespace Placement

variable (p : Placement)

def descriptors : Extent := ⟨p.base, 16 * p.num⟩

def available : Extent := ⟨p.descriptors.stop, 6 + 2 * p.num⟩

/-- The end of the ring of available buffers, counted from the base. -/
def availEnd : Nat := 16 * p.num + (6 + 2 * p.num)

/-- Where the ring of used buffers starts, counted from the base. -/
def usedOffset : Nat := roundUp p.availEnd p.align

def used : Extent := ⟨p.base + p.usedOffset, 6 + 8 * p.num⟩

def areas : List Extent := [p.descriptors, p.available, p.used]

/-- All that a ring takes, padding included. -/
def whole : Extent := ⟨p.base, p.usedOffset + (6 + 8 * p.num)⟩

variable {p}

lemma stop_available : p.available.stop = p.base + p.availEnd := by
  simp only [available, descriptors, Extent.stop, availEnd]
  omega

/-- No area of a ring reaches into the next one. -/
lemma areas_pairwise (ha : 0 < p.align) : p.areas.Pairwise Extent.Apart := by
  have havail : p.available.stop ≤ p.used.start := by
    rw [stop_available]
    exact Nat.add_le_add_left (le_roundUp ha) _
  have hdesc : p.descriptors.stop ≤ p.used.start := Nat.le_trans (Nat.le_add_right _ _) havail
  simp only [areas, List.pairwise_cons, List.mem_cons, List.not_mem_nil, or_false, forall_eq_or_imp,
    forall_eq, false_implies, implies_true, List.Pairwise.nil, and_true]
  refine ⟨⟨?_, ?_⟩, ?_⟩
  · exact Extent.apart_of_le (Nat.le_refl _)
  · exact Extent.apart_of_le hdesc
  · exact Extent.apart_of_le havail

/-- No area of a ring leaves what the ring takes. -/
lemma within_whole (ha : 0 < p.align) {e : Extent} (he : e ∈ p.areas) : e.Within p.whole := by
  have hround : p.availEnd ≤ p.usedOffset := le_roundUp ha
  simp only [areas, List.mem_cons, List.not_mem_nil, or_false] at he
  rcases he with rfl | rfl | rfl
  · simp only [availEnd] at hround
    simp only [Extent.Within, Extent.stop, whole, descriptors]
    omega
  · constructor
    · exact Nat.le_add_right _ _
    · rw [stop_available]
      simp only [Extent.stop, whole]
      omega
  · simp only [Extent.Within, Extent.stop, whole, used]
    omega

/-- The ring of used buffers is aligned if the ring is. -/
lemma dvd_used (h : p.align ∣ p.base) : p.align ∣ p.used.start :=
  Nat.dvd_add h (dvd_roundUp _ _)

end Placement

end Intercore
