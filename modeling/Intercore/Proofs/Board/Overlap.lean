import Intercore.Proofs.Board.Soundness

/-!
# Refusals for overlap

A table and a board are refused for overlap only after they have passed all other tests. The ends
of their areas are compared for that, which finds exactly the areas that share a byte, as long as
all of them have bytes. An area without bytes shares none, and is still taken to overlap an area that
it lies inside of.
-/

namespace Intercore

namespace Extent

variable {e f : Extent}

/-- The extent has no bytes and lies inside the other one. -/
def Splits (e f : Extent) : Prop := e.size = 0 ∧ f.start < e.start ∧ e.start < f.stop

/-- Each extent starts before the other one stops. -/
def Collides (e f : Extent) : Prop := e.start < f.stop ∧ f.start < e.stop

/-- Some address belongs to two of the extents. -/
def Shared (extents : List Extent) : Prop :=
  ∃ e f, [e, f].Sublist extents ∧ (e.bytes ∩ f.bytes).Nonempty

lemma apart_iff : e.Apart f ↔ e.size = 0 ∨ f.size = 0 ∨ e.stop ≤ f.start ∨ f.stop ≤ e.start := by
  constructor
  · intro h
    -- the later one of the two starts is the address that they would share
    have hlater := h (max e.start f.start)
    simp only [bytes, stop, Set.mem_ofPred_eq] at hlater ⊢
    omega
  · intro h a hae haf
    simp only [bytes, stop, Set.mem_ofPred_eq] at h hae haf
    omega

instance : DecidableRel Apart := fun _ _ => decidable_of_iff _ apart_iff.symm

lemma not_apart_iff : ¬ e.Apart f ↔ (e.bytes ∩ f.bytes).Nonempty := by
  simp [Apart, Set.Nonempty]

lemma collides_iff : e.Collides f ↔ ¬ e.Apart f ∨ e.Splits f ∨ f.Splits e := by
  simp only [Collides, apart_iff, Splits, stop]
  omega

lemma not_splits_of_pos (h : 0 < e.size) : ¬ e.Splits f := fun hsplits =>
  Nat.ne_of_gt h hsplits.1

lemma shared_iff {extents : List Extent} : Shared extents ↔ ¬ extents.Pairwise Apart := by
  simp only [Shared, List.pairwise_iff_forall_sublist, not_forall, not_apart_iff, exists_prop]

/-- If only the last one may have no bytes, no other one splits an area. -/
lemma exists_collision_iff {extents : List Extent} {last : Extent}
    (hpos : ∀ e ∈ extents, 0 < e.size) :
    ¬ (extents ++ [last]).Pairwise (fun e f => ¬ e.Collides f) ↔
      Shared (extents ++ [last]) ∨ ∃ e ∈ extents, last.Splits e := by
  have hamong : extents.Pairwise (fun e f => ¬ e.Collides f) ↔ extents.Pairwise Apart := by
    apply List.Pairwise.iff_of_mem
    intro e f he hf
    simp [collides_iff, not_splits_of_pos (hpos e he), not_splits_of_pos (hpos f hf)]
  have hlast : (∀ e ∈ extents, ¬ e.Collides last) ↔
      (∀ e ∈ extents, e.Apart last) ∧ ∀ e ∈ extents, ¬ last.Splits e := by
    rw [← forall₂_and]
    refine forall₂_congr fun e he => ?_
    simp [collides_iff, not_splits_of_pos (hpos e he)]
  simp only [shared_iff, List.pairwise_append, List.pairwise_singleton, List.mem_singleton,
    forall_eq, true_and, hamong, hlast]
  rw [← and_assoc, not_and_or]
  simp

end Extent

lemma Placement.size_whole_pos (p : Placement) : 0 < p.whole.size := by
  simp only [whole]
  omega

namespace Span.Measures

variable {s s' : Span} {e f : Extent}

lemma overlaps_iff (h : s.Measures e) (h' : s'.Measures f) :
    s.overlaps s' = true ↔ e.Collides f := by
  simp only [overlaps, Bool.and_eq_true, decide_eq_true_eq, UInt64.lt_iff_toNat_lt, h.1, h.2, h'.1,
    h'.2, Extent.Collides]

lemma pairwise_iff {spans : List Span} {extents : List Extent}
    (h : List.Forall₂ Span.Measures spans extents) :
    (spans.Pairwise fun s s' => s.overlaps s' = false) ↔
      extents.Pairwise fun e f => ¬ e.Collides f := by
  induction h with
  | nil => simp
  | @cons s e spans extents hs hrest ih =>
    have hhead : (∀ s' ∈ spans, s.overlaps s' = false) ↔ ∀ f ∈ extents, ¬ e.Collides f := by
      clear ih
      induction hrest with
      | nil => simp
      | cons hs' _ ih =>
        simp only [List.forall_mem_cons, ih, ← hs.overlaps_iff hs', Bool.not_eq_true]
    rw [List.pairwise_cons, List.pairwise_cons, hhead, ih]

end Span.Measures

/-- A sequence fails where its first part does, or else where the second one does. -/
lemma Resource.bind_eq_error {ε α β : Type} {x : Except ε α} {f : α → Except ε β} {e : ε} :
    x >>= f = .error e ↔ x = .error e ∨ ∃ a, x = .ok a ∧ f a = .error e := by
  cases x with
  | error e => simp [bind, Except.bind]
  | ok a => simp [bind, Except.bind]

@[simp] lemma Resource.require_eq_error {ok : Bool} {e e' : TableError} :
    require ok e = .error e' ↔ ok = false ∧ e = e' := by
  cases ok <;> simp [require]

@[simp] lemma Board.require_eq_error {ok : Bool} {c c' : Complaint} :
    require ok c = .error c' ↔ ok = false ∧ c = c' := by
  cases ok <;> simp [require]

namespace ResourceTable

open Resource

/-- What the rings take, padding included. -/
def rings (t : ResourceTable) : List Extent :=
  [t.device.tx.placement.whole, t.device.rx.placement.whole]

def extents (t : ResourceTable) : List Extent := t.rings ++ [t.trace.extent]

/-- A table passes all tests but the comparison of its areas. -/
structure Located (t : ResourceTable) (window : Region) : Prop where
  header : t.header.validate = .ok ()
  device : t.device.validate = .ok ()
  traceType : t.trace.validate = .ok ()
  tx : t.device.tx.validate window = .ok ()
  rx : t.device.rx.validate window = .ok ()
  trace : t.trace.extent.Within window.extent

variable {t : ResourceTable} {window : Region}

lemma validate_eq_overlap_iff : t.validate window = .error .overlap ↔
    t.Located window ∧ ¬ t.extents.Pairwise fun e f => ¬ e.Collides f := by
  have hheader : t.header.validate ≠ .error .overlap := by simp [Header.validate, bind_eq_error]
  have hdevice : t.device.validate ≠ .error .overlap := by simp [Device.validate, bind_eq_error]
  have htype : t.trace.validate ≠ .error .overlap := by simp [Trace.validate]
  have hvring (v : VringDesc) : v.validate window ≠ .error .overlap := by
    simp [VringDesc.validate, bind_eq_error]
  have hin := t.trace.area_measures.contains_iff window
  have hareas (tx : t.device.tx.Accepted window) (rx : t.device.rx.Accepted window) :
      (t.device.tx.area.overlaps t.device.rx.area || t.device.tx.area.overlaps t.trace.area ||
          t.device.rx.area.overlaps t.trace.area) = true ↔
        ¬ t.extents.Pairwise fun e f => ¬ e.Collides f := by
    rw [extents, rings, List.cons_append, List.cons_append, List.nil_append,
      ← Span.Measures.pairwise_iff (.cons (VringDesc.area_measures tx.align) <|
        .cons (VringDesc.area_measures rx.align) <| .cons t.trace.area_measures .nil)]
    simp [or_assoc, imp_iff_not_or]
  simp only [validate, bind_eq_error, hheader, hdevice, htype, hvring, false_or, Unique.exists_iff,
    PUnit.default_eq_unit, require_eq_error, require_eq_ok, reduceCtorEq, and_false, and_true,
    Bool.not_eq_false', hin]
  constructor
  · rintro ⟨header, device, type, tx, rx, trace, hoverlaps⟩
    exact ⟨⟨header, device, type, tx, rx, trace⟩, (hareas (VringDesc.validate_eq_ok.mp tx)
      (VringDesc.validate_eq_ok.mp rx)).mp hoverlaps⟩
  · rintro ⟨h, hcollides⟩
    exact ⟨h.header, h.device, h.traceType, h.tx, h.rx, h.trace,
      (hareas (VringDesc.validate_eq_ok.mp h.tx) (VringDesc.validate_eq_ok.mp h.rx)).mpr hcollides⟩

end ResourceTable

namespace Board

open Resource

variable {b : Board}

lemma checkLocated_ne_overlap {p p' : Part} {s s' : Span} :
    b.checkLocated ≠ .error (.overlap p s p' s') := by
  simp [checkLocated, checkChannels, checkReset, checkVring, bind_eq_error]

/-- A comparison that does not pass is refused for two of the areas. -/
lemma exists_overlap_iff {areas : List (Part × Span)} :
    (∃ p s p' s', checkApart areas = .error (.overlap p s p' s')) ↔
      ¬ (areas.map Prod.snd).Pairwise fun s s' => s.overlaps s' = false := by
  rw [← checkApart_eq_ok]
  induction areas with
  | nil => simp [checkApart]
  | cons area rest ih =>
    simp only [checkApart]
    split
    next => simp
    next => exact ih

lemma check_eq_overlap_iff : (∃ p s p' s', b.check = .error (.overlap p s p' s')) ↔
    b.checkLocated = .ok () ∧ ¬ b.extents.Pairwise fun e f => ¬ e.Collides f := by
  have hareas (h : b.checkLocated = .ok ()) :
      (∃ p s p' s', checkApart b.areas = .error (.overlap p s p' s')) ↔
        ¬ b.extents.Pairwise fun e f => ¬ e.Collides f := by
    simp only [checkLocated, seq_eq_ok] at h
    obtain ⟨-, -, -, -, -, htx, hrx, -⟩ := h
    rw [exists_overlap_iff, Span.Measures.pairwise_iff
      (areas_measure (regular_of_checkVring htx).1 (regular_of_checkVring hrx).1)]
  simp only [check, bind_eq_error, checkLocated_ne_overlap, false_or, Unique.exists_iff,
    PUnit.default_eq_unit, exists_and_left]
  exact and_congr_right hareas

/-- All areas in the shared window of a board that passed the other tests have bytes. -/
lemma size_pos_of_checkLocated (h : b.checkLocated = .ok ()) {e : Extent}
    (he : e ∈ b.sharedExtents) : 0 < e.size := by
  simp only [checkLocated, seq_eq_ok, require_eq_ok, Bool.and_eq_true, Bool.not_eq_true'] at h
  obtain ⟨-, -, -, -, -, -, -, -, ⟨htrace, -⟩, -⟩ := h
  obtain ⟨a, hstart, hstop⟩ := nonempty_of_not_isEmpty htrace
  simp only [sharedExtents, List.mem_cons, List.not_mem_nil, or_false] at he
  rcases he with rfl | rfl | rfl | rfl
  · exact Placement.size_whole_pos _
  · exact Placement.size_whole_pos _
  · exact Nat.pos_of_lt_add_right (Nat.lt_of_le_of_lt hstart hstop)
  · exact Nat.succ_pos 3

end Board

/-- A table is refused for overlap if and only if it passes all other tests, and two of its rings and
its trace buffer share a byte or the trace buffer is empty and lies inside a ring. A board is refused
for overlap if and only if it passes all other tests, and two of its areas share a byte or the image
of the secondary core is empty and lies inside one of the others. -/
theorem overlap_verdicts (t : ResourceTable) (window : Region) (b : Board) :
    (t.validate window = .error .overlap ↔
      t.Located window ∧ (Extent.Shared t.extents ∨
        ∃ e ∈ t.rings, t.trace.extent.Splits e)) ∧
      ((∃ p s p' s', b.check = .error (.overlap p s p' s')) ↔
        b.checkLocated = .ok () ∧ (Extent.Shared b.extents ∨
          ∃ e ∈ b.sharedExtents, b.secondary.load.extent.Splits e)) := by
  constructor
  · rw [ResourceTable.validate_eq_overlap_iff]
    refine and_congr_right fun _ => Extent.exists_collision_iff ?_
    simp [ResourceTable.rings, Placement.size_whole_pos]
  · rw [Board.check_eq_overlap_iff]
    refine and_congr_right fun h => Extent.exists_collision_iff ?_
    intro e he
    exact Board.size_pos_of_checkLocated h he

/-- The table of the evaluation board, with an empty trace buffer inside of its first ring. -/
def ResourceTable.emptyTrace : ResourceTable :=
  { board with trace := { board.trace with da := 0x8f000010, len := 0 } }

/-- The evaluation board, with an empty image inside of its trace buffer. -/
def Board.emptyImage : Board :=
  { evaluation with secondary := { evaluation.secondary with load := ⟨0x8f008010, 0⟩ } }

/-- Areas of which no two share a byte are refused for overlap. -/
theorem overlap_without_shared_byte :
    (ResourceTable.emptyTrace.validate Board.evaluation.shared = .error .overlap ∧
        ¬ Extent.Shared ResourceTable.emptyTrace.extents) ∧
      Board.emptyImage.check = .error (.overlap .trace ⟨0x8f008000, 0x8f009000⟩ .image
        ⟨0x8f008010, 0x8f008010⟩) ∧
      ¬ Extent.Shared Board.emptyImage.extents := by
  simp only [Extent.shared_iff, not_not]
  decide +kernel

end Intercore
