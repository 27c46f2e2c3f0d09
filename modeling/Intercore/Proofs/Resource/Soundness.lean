import Intercore.Proofs.Resource.Overflow

/-!
# Tables that pass validation

What a table promises once it was accepted for a window: all its areas lie in the window, each of
them for itself. Only the two ends of each ring and of the trace buffer are compared for that.
-/

namespace Intercore

namespace Resource

/-!
### Passing tests
-/

lemma bind_eq_ok {ε α β : Type} {x : Except ε α} {f : α → Except ε β} {b : β} :
    x >>= f = .ok b ↔ ∃ a, x = .ok a ∧ f a = .ok b := by
  cases x with
  | error e => simp [bind, Except.bind]
  | ok a => simp [bind, Except.bind]

lemma seq_eq_ok {ε β : Type} {x : Except ε Unit} {f : Unit → Except ε β} {b : β} :
    x >>= f = .ok b ↔ x = .ok () ∧ f () = .ok b := by
  rw [bind_eq_ok, Unique.exists_iff]

/-- What is checked of a ring. -/
structure VringDesc.Accepted (v : VringDesc) (window : Region) : Prop where
  align : v.align.toNat.isPowerOfTwo
  aligned : v.align.toNat ∣ v.da.toNat
  num : v.num.toNat.isPowerOfTwo
  inside : v.placement.whole.Within window.extent

lemma VringDesc.validate_eq_ok {v : VringDesc} {window : Region} :
    v.validate window = .ok () ↔ v.Accepted window := by
  simp only [validate, seq_eq_ok, require_eq_ok, decide_eq_true_eq, isPowerOfTwo_iff,
    mod_eq_zero_iff_dvd]
  constructor
  · rintro ⟨ha, haligned, -, hn, hin⟩
    exact ⟨ha, haligned, hn, ((area_measures ha).contains_iff window).mp hin⟩
  · intro h
    have hin := ((area_measures h.align).contains_iff window).mpr h.inside
    exact ⟨h.align, h.aligned, ne_zero_of_isPowerOfTwo h.num, h.num, hin⟩

end Resource

namespace ResourceTable

open Resource

/-- The areas that a table gives out: three of each ring, and the trace buffer. -/
def areas (t : ResourceTable) : List Extent :=
  t.device.tx.placement.areas ++ (t.device.rx.placement.areas ++ [t.trace.extent])

/-- What is checked of a table besides its frame. -/
structure Accepted (t : ResourceTable) (window : Region) : Prop where
  tx : t.device.tx.Accepted window
  rx : t.device.rx.Accepted window
  trace : t.trace.extent.Within window.extent
  tx_rx : t.device.tx.placement.whole.Apart t.device.rx.placement.whole
  tx_trace : t.device.tx.placement.whole.Apart t.trace.extent
  rx_trace : t.device.rx.placement.whole.Apart t.trace.extent

variable {t : ResourceTable} {window : Region}

lemma Accepted.of_validate (h : t.validate window = .ok ()) : t.Accepted window := by
  simp only [validate, seq_eq_ok, require_eq_ok, VringDesc.validate_eq_ok, Bool.not_eq_true',
    Bool.or_eq_false_iff] at h
  obtain ⟨-, -, -, htx, hrx, htrace, ⟨htxrx, htxtrace⟩, hrxtrace⟩ := h
  have tx := VringDesc.area_measures htx.align
  have rx := VringDesc.area_measures hrx.align
  have trace := t.trace.area_measures
  exact
    { tx := htx
      rx := hrx
      trace := (trace.contains_iff window).mp htrace
      tx_rx := tx.apart rx htxrx
      tx_trace := tx.apart trace htxtrace
      rx_trace := rx.apart trace hrxtrace }

namespace Accepted

lemma align_pos {v : VringDesc} (h : v.Accepted window) : 0 < v.placement.align :=
  Nat.pos_of_isPowerOfTwo h.align

lemma within (h : t.Accepted window) {e : Extent} (he : e ∈ t.areas) : e.Within window.extent := by
  simp only [areas, List.mem_append, List.mem_singleton] at he
  rcases he with he | he | rfl
  · exact (Placement.within_whole (align_pos h.tx) he).trans h.tx.inside
  · exact (Placement.within_whole (align_pos h.rx) he).trans h.rx.inside
  · exact h.trace

lemma pairwise (h : t.Accepted window) : t.areas.Pairwise Extent.Apart := by
  have htx := align_pos h.tx
  have hrx := align_pos h.rx
  simp only [areas, List.pairwise_append, List.mem_append, List.mem_singleton,
    List.pairwise_singleton, true_and]
  refine ⟨Placement.areas_pairwise htx, ⟨Placement.areas_pairwise hrx, ?_⟩, ?_⟩
  · intro e he f hf
    subst hf
    exact h.rx_trace.mono (Placement.within_whole hrx he) ⟨Nat.le_refl _, Nat.le_refl _⟩
  · intro e he f hf
    rcases hf with hf | rfl
    · exact h.tx_rx.mono (Placement.within_whole htx he) (Placement.within_whole hrx hf)
    · exact h.tx_trace.mono (Placement.within_whole htx he) ⟨Nat.le_refl _, Nat.le_refl _⟩

end Accepted

/-- If a table is accepted, its areas lie in the window, no address belongs to two of them, and its
rings are aligned and have a power of two of buffers. Coming to the verdict, accepted or not, takes
no operation that overflows or divides by zero. -/
theorem validate_sound (t : ResourceTable) (window : Region) :
    (t.validate window = .ok () →
      (∀ e ∈ t.areas, e.Within window.extent) ∧ t.areas.Pairwise Extent.Apart ∧
        ∀ v ∈ [t.device.tx, t.device.rx],
          v.align.toNat.isPowerOfTwo ∧ v.num.toNat.isPowerOfTwo ∧ v.align.toNat ∣ v.da.toNat ∧
            v.align.toNat ∣ v.placement.used.start ∧
            IsLeast {m | v.align.toNat ∣ m ∧ v.placement.availEnd ≤ m} v.placement.usedOffset) ∧
      (t.validate? window).run = some (t.validate window) := by
  refine ⟨fun h => ?_, t.run_validate? window⟩
  have haccepted := Accepted.of_validate h
  refine ⟨fun e he => haccepted.within he, haccepted.pairwise, fun v hv => ?_⟩
  have hv : v.Accepted window := by
    simp only [List.mem_cons, List.not_mem_nil, or_false] at hv
    rcases hv with rfl | rfl
    · exact haccepted.tx
    · exact haccepted.rx
  exact ⟨hv.align, hv.num, hv.aligned, Placement.dvd_used hv.aligned,
    isLeast_roundUp (Accepted.align_pos hv)⟩

/-- The table of the evaluation board is accepted for the memory that its cores share. -/
theorem board_areas_apart :
    board.validate Board.evaluation.shared = .ok () ∧ board.areas.length = 7 ∧
      board.areas.Pairwise Extent.Apart :=
  have h : board.validate Board.evaluation.shared = .ok () := by decide
  ⟨h, rfl, ((validate_sound board Board.evaluation.shared).1 h).2.1⟩

end ResourceTable

end Intercore
