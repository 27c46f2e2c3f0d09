import Intercore.Board.Check
import Intercore.Proofs.Resource.RoundTrip

/-!
# What is built is accepted

The geometry of a board is tested twice, with other formulas: when the board is built, and when the
other core reads the table that describes it. The second verdict is the first one, so no board that
can be built is refused later.
-/

namespace Intercore

lemma Vring.ceilDiv_mul {a b : UInt64} (hb : 0 < b.toNat)
    (h : roundUp a.toNat b.toNat < UInt64.size) :
    (packedSize.ceilDiv a b).toNat * b.toNat = roundUp a.toNat b.toNat := by
  rw [roundUp_eq_ite hb] at h ⊢
  have hzero : a % b = 0 ↔ a.toNat % b.toNat = 0 := by
    rw [← UInt64.toNat_inj, UInt64.toNat_mod]
    rfl
  simp only [packedSize.ceilDiv, hzero]
  split at h
  case isTrue hexact => rw [if_pos hexact, if_pos hexact, UInt64.toNat_div]
  case isFalse hrest =>
    have hquotient := Nat.lt_of_le_of_lt (Nat.le_mul_of_pos_right (a.toNat / b.toNat + 1) hb) h
    rw [if_neg hrest, if_neg hrest, UInt64.toNat_add, UInt64.toNat_div]
    exact congrArg (· * b.toNat) (Nat.mod_eq_of_lt hquotient)

lemma Vring.toNat_ceilDiv {a b : UInt64} (hb : 0 < b.toNat)
    (h : roundUp a.toNat b.toNat < UInt64.size) :
    (packedSize.ceilDiv a b * b).toNat = roundUp a.toNat b.toNat := by
  rw [UInt64.toNat_mul, ceilDiv_mul hb h]
  exact Nat.mod_eq_of_lt h

/-- To divide and round up comes to the same as to mask, if the alignment is a power of two. -/
lemma Vring.packedSize_eq_vringSize (num : UInt32) {align : UInt32}
    (ha : align.toNat.isPowerOfTwo) : packedSize num align = Resource.vringSize num align := by
  have hnum := num.toNat_lt
  have halign := align.toNat_lt
  have hpos := Nat.pos_of_isPowerOfTwo ha
  have hround := roundUp_lt (n := 16 * num.toNat + (6 + 2 * num.toNat)) hpos
  have havail := Resource.toNat_availEnd num
  have hceil := toNat_ceilDiv (a := 16 * num.toUInt64 + 2 * (3 + num.toUInt64))
    (b := align.toUInt64) (by simpa using hpos)
  rw [havail, UInt32.toNat_toUInt64] at hceil
  have hword : UInt64.size = 2 ^ 64 := rfl
  have hused := UInt64.toNat_inj.mp
    ((hceil (by omega)).trans (Resource.toNat_usedOffset num ha).symm)
  simp only [packedSize, hused, Resource.vringSize]

lemma Vring.area_eq {v : Vring} (ha : v.align.toNat.isPowerOfTwo) :
    v.area = (Resource.VringDesc.ofVring v).area := by
  simp only [area, packedSize_eq_vringSize v.num ha, Resource.VringDesc.area,
    Resource.VringDesc.ofVring]

lemma Vring.area_measures {v : Vring} (ha : v.align.toNat.isPowerOfTwo) :
    v.area.Measures (Resource.VringDesc.ofVring v).placement.whole := by
  rw [area_eq ha]
  exact Resource.VringDesc.area_measures ha

lemma Region.span_measures (r : Region) : r.span.Measures r.extent :=
  ⟨UInt32.toNat_toUInt64 r.base, r.toNat_stop⟩

namespace Board

open Resource ResourceTable

@[simp] lemma require_eq_ok {ok : Bool} {c : Complaint} : require ok c = .ok () ↔ ok = true := by
  cases ok <;> simp [require]

/-- A ring passes the test of a board exactly if it passes the test of a table. -/
lemma checkVring_eq_ok {part : Part} {v : Vring} {window : Region} :
    checkVring part v window.span = .ok () ↔ (VringDesc.ofVring v).Accepted window := by
  have hcovers (ha : v.align.toNat.isPowerOfTwo) : window.span.covers v.area = true ↔
      (VringDesc.ofVring v).placement.whole.Within window.extent :=
    window.span_measures.covers_iff (Vring.area_measures ha)
  simp only [checkVring, seq_eq_ok, require_eq_ok, decide_eq_true_eq, isPowerOfTwo_iff,
    mod_eq_zero_iff_dvd]
  constructor
  · rintro ⟨ha, haligned, hnum, hin⟩
    exact ⟨ha, haligned, hnum, (hcovers ha).mp hin⟩
  · intro h
    exact ⟨h.align, h.aligned, h.num, (hcovers h.align).mpr h.inside⟩

/-- All areas are compared with each other. -/
lemma checkApart_eq_ok {areas : List (Part × Span)} : checkApart areas = .ok () ↔
    (areas.map Prod.snd).Pairwise fun a b => a.overlaps b = false := by
  induction areas with
  | nil => simp [checkApart]
  | cons p rest ih =>
    obtain ⟨a, areaA⟩ := p
    rw [List.map_cons, List.pairwise_cons, ← ih, checkApart]
    split
    next b areaB hfind =>
      have hmem := List.mem_of_find?_eq_some hfind
      have hoverlaps := List.find?_some hfind
      simp only [reduceCtorEq, List.mem_map, false_iff, not_and]
      intro hapart
      simp [hapart areaB ⟨(b, areaB), hmem, rfl⟩] at hoverlaps
    next hfind =>
      rw [List.find?_eq_none] at hfind
      refine (and_iff_right ?_).symm
      intro _ hmem
      obtain ⟨q, hq, rfl⟩ := List.mem_map.mp hmem
      simpa using hfind q hq

/-- The table of a board is accepted if and only if its rings and its trace buffer pass the tests
of the board. Whether the trace buffer is empty does not matter there. -/
lemma validate_ofBoard (b : Board) : (ofLayout (.ofBoard b)).validate b.shared = .ok () ↔
    checkVring .tx b.transport.tx b.shared.span = .ok () ∧
      checkVring .rx b.transport.rx b.shared.span = .ok () ∧
      b.shared.span.covers b.trace.buffer.span = true ∧ checkApart (b.areas.take 3) = .ok () := by
  have hcovers := (b.trace.buffer.span_measures.contains_iff b.shared).trans
    (b.shared.span_measures.covers_iff b.trace.buffer.span_measures).symm
  obtain ⟨hheader, hdevice, htrace⟩ := (normal_ofLayout (.ofBoard b)).frame
  simp only [validate, hheader, hdevice, htrace, seq_eq_ok, true_and, Resource.require_eq_ok,
    VringDesc.validate_eq_ok, checkVring_eq_ok, checkApart_eq_ok]
  refine and_congr_right fun htx => and_congr_right fun hrx => and_congr hcovers ?_
  have htxArea : b.transport.tx.area = _ := Vring.area_eq htx.align
  have hrxArea : b.transport.rx.area = _ := Vring.area_eq hrx.align
  simp [areas, htxArea, hrxArea, ofLayout, Layout.ofBoard, Trace.area, Region.span, and_assoc]

/-- If a board passes its check, its table is written in 140 bytes, is read back from them whatever
follows, and is accepted for the memory that the cores share. -/
theorem table_of_check (b : Board) (h : b.check = .ok ()) :
    (ofLayout (.ofBoard b)).bytes.length = 140 ∧
      (∀ rest, parse ((ofLayout (.ofBoard b)).bytes ++ rest) = .ok (ofLayout (.ofBoard b))) ∧
      (ofLayout (.ofBoard b)).validate b.shared = .ok () := by
  refine ⟨length_bytes _, ?_, ?_⟩
  · intro rest
    have hnormal := normal_ofLayout (.ofBoard b)
    exact parse_eq_ok.mpr ⟨hnormal, _, hnormal.readFrom_bytes rest⟩
  · simp only [check, checkLocated, bind_assoc, seq_eq_ok, require_eq_ok, Bool.and_eq_true] at h
    obtain ⟨-, -, -, -, -, htx, hrx, -, ⟨-, htrace⟩, -, -, -, -, hapart⟩ := h
    rw [validate_ofBoard]
    refine ⟨htx, hrx, htrace, ?_⟩
    rw [checkApart_eq_ok] at hapart ⊢
    exact hapart.sublist ((List.take_sublist 3 b.areas).map Prod.snd)

theorem table_of_evaluation :
    ResourceTable.board.bytes.length = 140 ∧
      parse (ResourceTable.board.bytes ++ [5]) = .ok ResourceTable.board ∧
      ResourceTable.board.validate evaluation.shared = .ok () :=
  have h := table_of_check evaluation (by decide +kernel)
  ⟨h.1, h.2.1 [5], h.2.2⟩

end Board

end Intercore
