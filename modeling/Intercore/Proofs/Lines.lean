import Intercore.Cache
import Intercore.Proofs.Word

/-!
# Whole lines

A span is widened to whole lines before its lines are maintained. The end is held at the largest word
before the bits below a line are cleared, which comes to holding it at the start of the last line and
then rounding it up (`toNat_stop_lineSpan`). So the widened span is the smallest one that will do,
unless the span ends inside the last line: then no word above its end is a multiple of the line size,
and the last line is left out.
-/

namespace Intercore

/-- Both ends of a span are multiples of the line size. -/
structure Span.Lined (s : Span) (line : UInt64) : Prop where
  start : line.toNat ∣ s.start.toNat
  stop : line.toNat ∣ s.stop.toNat

lemma Span.covers_iff {outer inner : Span} : outer.covers inner = true ↔
    outer.start.toNat ≤ inner.start.toNat ∧ inner.stop.toNat ≤ outer.stop.toNat := by
  simp [covers, UInt64.le_iff_toNat_le]

lemma Span.eq_of_toNat {s s' : Span} (hstart : s.start.toNat = s'.start.toNat)
    (hstop : s.stop.toNat = s'.stop.toNat) : s = s' := by
  cases s
  cases s'
  rw [Span.mk.injEq]
  exact ⟨UInt64.toNat_inj.mp hstart, UInt64.toNat_inj.mp hstop⟩

namespace Cache

/-- `s` is the smallest span of whole lines that covers a range. -/
structure Widens (line : UInt64) (range s : Span) : Prop where
  lined : s.Lined line
  covers : s.covers range = true
  least : ∀ s' : Span, s'.Lined line → s'.covers range = true → s'.covers s = true

/-- Where the last line of all begins. -/
def lastLine (line : UInt64) : Nat := UInt64.size - line.toNat

lemma toNat_saturatingAdd (a b : UInt64) :
    (saturatingAdd a b).toNat = min (a.toNat + b.toNat) (UInt64.size - 1) := by
  rw [saturatingAdd]
  split
  case isTrue h =>
    rw [UInt64.toNat_add, Nat.mod_eq_of_lt h]
    omega
  case isFalse h =>
    rw [UInt64.toNat_ofNat_of_lt' (by decide)]
    omega

section Ends

variable {line : UInt64} (hline : line.toNat.isPowerOfTwo)
include hline

/-!
### The last line
-/

lemma dvd_size : line.toNat ∣ UInt64.size :=
  dvd_of_isPowerOfTwo hline ⟨64, rfl⟩ (Nat.le_of_lt line.toNat_lt)

lemma dvd_lastLine : line.toNat ∣ lastLine line :=
  Nat.dvd_sub (dvd_size hline) (Nat.dvd_refl _)

/-- No line begins behind the last one. -/
lemma le_lastLine {w : UInt64} (h : line.toNat ∣ w.toNat) : w.toNat ≤ lastLine line := by
  have hlt : w.toNat < UInt64.size := w.toNat_lt
  have hroom := Nat.le_of_dvd (Nat.sub_pos_of_lt hlt) (Nat.dvd_sub (dvd_size hline) h)
  rw [lastLine]
  omega

/-!
### The ends of a widened span
-/

lemma toNat_alignDown (a : UInt64) :
    (alignDown a line).toNat = a.toNat / line.toNat * line.toNat := toNat_clear a line hline

lemma toNat_start_lineSpan (range : Span) :
    (lineSpan range line).start.toNat = range.start.toNat / line.toNat * line.toNat :=
  toNat_alignDown hline range.start

lemma toNat_stop_lineSpan (range : Span) :
    (lineSpan range line).stop.toNat =
      roundUp (min range.stop.toNat (lastLine line)) line.toNat := by
  have hpos := Nat.pos_of_isPowerOfTwo hline
  have hlt := line.toNat_lt
  have hword : UInt64.size = 2 ^ 64 := rfl
  have hone : (line - 1).toNat = line.toNat - 1 :=
    UInt64.toNat_sub_of_le line 1 (UInt64.le_iff_toNat_le.mpr hpos)
  have hheld : (saturatingAdd range.stop (line - 1)).toNat =
      min range.stop.toNat (lastLine line) + line.toNat - 1 := by
    rw [toNat_saturatingAdd, hone, lastLine]
    omega
  exact (toNat_alignDown hline _).trans (by rw [hheld, roundUp])

lemma stop_lineSpan_of_le {range : Span} (h : range.stop.toNat ≤ lastLine line) :
    (lineSpan range line).stop.toNat = roundUp range.stop.toNat line.toNat := by
  rw [toNat_stop_lineSpan hline, Nat.min_eq_left h]

lemma stop_lineSpan_of_ge {range : Span} (h : lastLine line ≤ range.stop.toNat) :
    (lineSpan range line).stop.toNat = lastLine line := by
  rw [toNat_stop_lineSpan hline, Nat.min_eq_right h]
  exact roundUp_of_dvd (Nat.pos_of_isPowerOfTwo hline) (dvd_lastLine hline)

lemma lined_lineSpan (range : Span) : (lineSpan range line).Lined line where
  start := by
    rw [toNat_start_lineSpan hline]
    exact Nat.dvd_mul_left _ _
  stop := by
    rw [toNat_stop_lineSpan hline]
    exact dvd_roundUp _ _

lemma start_lineSpan_le (range : Span) :
    (lineSpan range line).start.toNat ≤ range.start.toNat := by
  rw [toNat_start_lineSpan hline]
  exact Nat.div_mul_le_self _ _

/-- The start goes down to the last multiple that is not above it. -/
lemma le_start_lineSpan {range : Span} {m : Nat} (hm : line.toNat ∣ m)
    (hle : m ≤ range.start.toNat) : m ≤ (lineSpan range line).start.toNat := by
  obtain ⟨k, rfl⟩ := hm
  have hpos := Nat.pos_of_isPowerOfTwo hline
  rw [toNat_start_lineSpan hline, Nat.mul_comm]
  refine Nat.mul_le_mul_right _ ((Nat.le_div_iff_mul_le hpos).mpr ?_)
  rwa [Nat.mul_comm]

/-!
### What is covered
-/

lemma widens_lineSpan {range : Span} (h : range.stop.toNat ≤ lastLine line) :
    Widens line range (lineSpan range line) where
  lined := lined_lineSpan hline range
  covers := by
    rw [Span.covers_iff, stop_lineSpan_of_le hline h]
    exact ⟨start_lineSpan_le hline range, le_roundUp (Nat.pos_of_isPowerOfTwo hline)⟩
  least := by
    intro s' hlined hcovers
    rw [Span.covers_iff] at hcovers ⊢
    rw [stop_lineSpan_of_le hline h]
    exact ⟨le_start_lineSpan hline hlined.start hcovers.1,
      roundUp_le (Nat.pos_of_isPowerOfTwo hline) hlined.stop hcovers.2⟩

end Ends

/-- A widened span has whole lines and does not start after the range. It is the smallest span of
whole lines that covers the range if and only if the range ends no later than the last line begins.
If it ends later, the widened span ends where the last line begins, before the range does. -/
theorem widens_lineSpan_iff {line : UInt64} (hline : line.toNat.isPowerOfTwo) (range : Span) :
    (lineSpan range line).Lined line ∧
      (lineSpan range line).start ≤ range.start ∧
      (Widens line range (lineSpan range line) ↔ range.stop.toNat ≤ lastLine line) ∧
      (lastLine line < range.stop.toNat →
        (lineSpan range line).stop.toNat = lastLine line ∧
          (lineSpan range line).stop < range.stop) := by
  refine ⟨lined_lineSpan hline range, ?_, ⟨?_, widens_lineSpan hline⟩, ?_⟩
  · exact UInt64.le_iff_toNat_le.mpr (start_lineSpan_le hline range)
  · intro h
    exact Nat.le_trans (Span.covers_iff.mp h.covers).2 (le_lastLine hline h.lined.stop)
  · intro hlate
    have hstop := stop_lineSpan_of_ge hline (Nat.le_of_lt hlate)
    refine ⟨hstop, ?_⟩
    rw [UInt64.lt_iff_toNat_lt, hstop]
    exact hlate

/-- A range over two lines, and one that ends in the last line. -/
theorem widens_lineSpan_iff_ends :
    (64 : UInt64).toNat.isPowerOfTwo ∧
      Widens 64 ⟨0x103F, 0x1041⟩ (lineSpan ⟨0x103F, 0x1041⟩ 64) ∧
      (lineSpan ⟨0x1000, 0xFFFFFFFFFFFFFFF0⟩ 64).stop.toNat = lastLine 64 := by
  have h64 : (64 : UInt64).toNat.isPowerOfTwo := ⟨6, rfl⟩
  have htwo := widens_lineSpan_iff h64 ⟨0x103F, 0x1041⟩
  have hlast := widens_lineSpan_iff h64 ⟨0x1000, 0xFFFFFFFFFFFFFFF0⟩
  exact ⟨h64, htwo.2.2.1.mpr (by decide), (hlast.2.2.2 (by decide)).1⟩

/-- Thirty-two bytes in the last line are widened to nothing. -/
theorem last_line_left_out :
    (64 : UInt64).toNat.isPowerOfTwo ∧
      (0xFFFFFFFFFFFFFFD0 : UInt64) ≤ 0xFFFFFFFFFFFFFFF0 ∧
      lineSpan ⟨0xFFFFFFFFFFFFFFD0, 0xFFFFFFFFFFFFFFF0⟩ 64 =
        ⟨0xFFFFFFFFFFFFFFC0, 0xFFFFFFFFFFFFFFC0⟩ ∧
      (lineSpan ⟨0xFFFFFFFFFFFFFFD0, 0xFFFFFFFFFFFFFFF0⟩ 64).covers
        ⟨0xFFFFFFFFFFFFFFD0, 0xFFFFFFFFFFFFFFF0⟩ = false :=
  ⟨⟨6, rfl⟩, by decide, by decide, by decide⟩

/-!
### Order
-/

section Order

variable {line : UInt64} (hline : line.toNat.isPowerOfTwo)
include hline

lemma covers_lineSpan {a b : Span} (h : b.covers a = true) :
    (lineSpan b line).covers (lineSpan a line) = true := by
  rw [Span.covers_iff] at h ⊢
  simp only [toNat_start_lineSpan hline, toNat_stop_lineSpan hline]
  constructor
  · exact Nat.mul_le_mul_right _ (Nat.div_le_div_right h.1)
  · exact roundUp_mono (Nat.le_min.mpr ⟨by omega, Nat.min_le_right _ _⟩)

lemma lineSpan_lineSpan (a : Span) : lineSpan (lineSpan a line) line = lineSpan a line := by
  have hlined := lined_lineSpan hline a
  apply Span.eq_of_toNat
  · rw [toNat_start_lineSpan hline, Nat.div_mul_cancel hlined.start]
  · rw [stop_lineSpan_of_le hline (le_lastLine hline hlined.stop),
      roundUp_of_dvd (Nat.pos_of_isPowerOfTwo hline) hlined.stop]

lemma start_le_stop_lineSpan {a : Span} (h : a.start ≤ a.stop) :
    (lineSpan a line).start ≤ (lineSpan a line).stop := by
  have hbefore := Nat.le_trans (start_lineSpan_le hline a) (UInt64.le_iff_toNat_le.mp h)
  have hlast := le_lastLine hline (lined_lineSpan hline a).start
  rw [UInt64.le_iff_toNat_le, toNat_stop_lineSpan hline]
  exact Nat.le_trans (Nat.le_min.mpr ⟨hbefore, hlast⟩) (le_roundUp (Nat.pos_of_isPowerOfTwo hline))

end Order

/-- Widening keeps the order of spans, it leaves a widened span as it is, and it does not swap the ends
of a span. All this holds up to the end of the address space. -/
theorem lineSpan_closes {line : UInt64} (hline : line.toNat.isPowerOfTwo) :
    (∀ a b : Span, b.covers a = true → (lineSpan b line).covers (lineSpan a line) = true) ∧
      (∀ a : Span, lineSpan (lineSpan a line) line = lineSpan a line) ∧
      ∀ a : Span, a.start ≤ a.stop → (lineSpan a line).start ≤ (lineSpan a line).stop :=
  ⟨fun _ _ => covers_lineSpan hline, lineSpan_lineSpan hline,
    fun _ => start_le_stop_lineSpan hline⟩

/-- The smaller span ends where the last line begins, and the larger one inside that line. -/
theorem lineSpan_closes_last_line :
    (64 : UInt64).toNat.isPowerOfTwo ∧
      Span.covers ⟨0xFFFFFFFFFFFFFF41, 0xFFFFFFFFFFFFFFFF⟩
        ⟨0xFFFFFFFFFFFFFF80, 0xFFFFFFFFFFFFFFC0⟩ = true ∧
      (lineSpan ⟨0xFFFFFFFFFFFFFF41, 0xFFFFFFFFFFFFFFFF⟩ 64).covers
        (lineSpan ⟨0xFFFFFFFFFFFFFF80, 0xFFFFFFFFFFFFFFC0⟩ 64) = true := by
  have h64 : (64 : UInt64).toNat.isPowerOfTwo := ⟨6, rfl⟩
  have hcovers : Span.covers ⟨0xFFFFFFFFFFFFFF41, 0xFFFFFFFFFFFFFFFF⟩
      ⟨0xFFFFFFFFFFFFFF80, 0xFFFFFFFFFFFFFFC0⟩ = true := by decide
  exact ⟨h64, hcovers, (lineSpan_closes h64).1 _ _ hcovers⟩

end Cache

end Intercore
