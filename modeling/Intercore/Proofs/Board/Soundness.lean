import Intercore.Mailbox.Register
import Intercore.Proofs.Board.Overflow
import Intercore.Reset.Register
import Intercore.Semaphore.Register
import Mathlib.Data.List.Forall2

/-!
# Boards that pass the check

What a board promises once it was accepted. The drivers are built from its numbers and test none of
them again: they shift by the numbers of channels and by the bits of reset lines, they index banks of
registers with them, and they leave each other's memory alone only because the areas lie apart.
-/

namespace Intercore

/-- The register is in its bank. -/
def Mapped.InBank {R : Type} [Mapped R] (r : R) : Prop := ∃ offset, Mapped.offset r = .ok offset

/-- A reset line is there in hardware. -/
structure ResetBit.Fits (r : ResetBit) : Prop where
  register_le : r.register ≤ 3
  bit_le : r.bit ≤ 31
  shift : r.bit.toUInt32 < 32
  inBank : Mapped.InBank (Reset.Register.iprst r.register)

/-- A ring is aligned, to a power of two, and has a power of two of buffers. -/
structure Vring.Regular (v : Vring) : Prop where
  align : v.align.toNat.isPowerOfTwo
  aligned : v.align.toNat ∣ v.da.toNat
  num : v.num.toNat.isPowerOfTwo

/-- All that a ring takes, padding included. -/
def Vring.extent (v : Vring) : Extent := (Resource.VringDesc.ofVring v).placement.whole

/-- Of spans that do not overlap, no two take the same address. -/
lemma Span.Measures.pairwise_apart {spans : List Span} {extents : List Extent}
    (h : List.Forall₂ Span.Measures spans extents)
    (hspans : spans.Pairwise fun s s' => s.overlaps s' = false) : extents.Pairwise Extent.Apart := by
  rw [List.pairwise_iff_getElem] at hspans ⊢
  intro i j hi hj hij
  have hi' : i < spans.length := h.length_eq ▸ hi
  have hj' : j < spans.length := h.length_eq ▸ hj
  exact (h.get hi' hi).apart (h.get hj' hj) (hspans i j hi' hj' hij)

namespace Board

open Resource

/-- The bit of a semaphore channel is in the interrupt registers, and its claim register is there. -/
structure SemaphoreFits (i : Nat) : Prop where
  shift : UInt32.ofNat i < 32
  inBank : Mapped.InBank (Semaphore.Register.sem (.ofNat i))

/-- Both flags of a mailbox channel are in the interrupt registers, and both of its slots are there. -/
structure MailboxFits (i : Nat) : Prop where
  shift : UInt32.ofNat i < 32
  ackShift : UInt32.ofNat i + Mailbox.ackShift < 32
  sends : ∀ word < 4, Mapped.InBank (Mailbox.Register.tmdat (.ofNat i) word)
  receives : ∀ word < 4, Mapped.InBank (Mailbox.Register.rmdat (.ofNat i) word)

variable {b : Board} {i : Nat}

/-- What lies in the window that the cores share. -/
def sharedExtents (b : Board) : List Extent :=
  [b.transport.tx.extent, b.transport.rx.extent, b.trace.buffer.extent, b.secondary.flagExtent]

def extents (b : Board) : List Extent := b.sharedExtents ++ [b.secondary.load.extent]

/-- What is relied upon of a board. -/
structure Sound (b : Board) : Prop where
  semaphoreCount : 1 ≤ b.semaphores.channels ∧ b.semaphores.channels ≤ 32
  mailboxCount : 1 ≤ b.mailboxes.channels ∧ b.mailboxes.channels ≤ 16
  semaphores : ∀ i < b.semaphores.channels.toNat, SemaphoreFits i
  mailboxes : ∀ i < b.mailboxes.channels.toNat, MailboxFits i
  resets : ∀ r ∈ [b.semaphores.reset, b.mailboxes.reset, b.secondary.reset], r.Fits
  tx : b.transport.tx.Regular
  rx : b.transport.rx.Regular
  notifyIds : b.transport.tx.notifyId ≠ b.transport.rx.notifyId
  trace : b.trace.buffer.extent.bytes.Nonempty
  flagAligned : 4 ∣ b.secondary.bootFlag.toNat
  magic : b.secondary.bootMagic ≠ 0
  inside : ∀ e ∈ b.sharedExtents, e.Within b.shared.extent
  apart : b.extents.Pairwise Extent.Apart

/-!
### What each test finds
-/

lemma SemaphoreFits.of_lt (hi : i < 32) : SemaphoreFits i := by
  constructor
  · rw [UInt32.lt_iff_toNat_lt, UInt32.toNat_ofNat']
    exact Nat.lt_of_le_of_lt (Nat.mod_le _ _) hi
  · have hindex : UInt8.ofNat i < 32 := by
      rw [UInt8.lt_iff_toNat_lt, UInt8.toNat_ofNat']
      exact Nat.lt_of_le_of_lt (Nat.mod_le _ _) hi
    exact ⟨_, if_pos hindex⟩

lemma MailboxFits.of_lt (hi : i < 16) : MailboxFits i := by
  have hslot {word : Nat} (hword : word < 4) : Mailbox.checkSlot (.ofNat i) word = .ok () := by
    have hindex : (UInt8.ofNat i).toNat < 16 := by
      rw [UInt8.toNat_ofNat']
      exact Nat.lt_of_le_of_lt (Nat.mod_le _ _) hi
    rw [Mailbox.checkSlot, if_neg (Nat.not_le.mpr hindex), if_neg (Nat.not_le.mpr hword)]
  constructor
  · exact (SemaphoreFits.of_lt (Nat.lt_of_lt_of_le hi (by decide))).shift
  · simp only [UInt32.lt_iff_toNat_lt, UInt32.toNat_add, UInt32.toNat_ofNat', Mailbox.ackShift,
      UInt32.reduceToNat]
    omega
  · intro word hword
    exact ⟨_, congrArg (Except.map _) (hslot hword)⟩
  · intro word hword
    exact ⟨_, congrArg (Except.map _) (hslot hword)⟩

lemma fits_of_checkReset {part : Part} {r : ResetBit} (h : checkReset part r = .ok ()) :
    r.Fits := by
  simp only [checkReset, require_eq_ok, Bool.and_eq_true, decide_eq_true_eq] at h
  obtain ⟨hregister, hbit⟩ := h
  refine ⟨hregister, hbit, ?_, _, if_pos ?_⟩
  · rw [UInt32.lt_iff_toNat_lt, UInt8.toNat_toUInt32]
    exact Nat.lt_succ_of_le (UInt8.le_iff_toNat_le.mp hbit)
  · rw [UInt8.lt_iff_toNat_lt]
    exact Nat.lt_succ_of_le (UInt8.le_iff_toNat_le.mp hregister)

lemma checkChannels_eq_ok {part : Part} {count limit : UInt8} :
    checkChannels part count limit = .ok () ↔ 1 ≤ count ∧ count ≤ limit := by
  have hpos : count ≠ 0 ↔ 1 ≤ count := by
    rw [Ne, ← UInt8.toNat_inj, UInt8.le_iff_toNat_le]
    exact Nat.one_le_iff_ne_zero.symm
  simp only [checkChannels, require_eq_ok, Bool.and_eq_true, decide_eq_true_eq, hpos]

lemma regular_of_checkVring {part : Part} {v : Vring} {window : Region}
    (h : checkVring part v window.span = .ok ()) :
    v.Regular ∧ v.extent.Within window.extent := by
  have haccepted := checkVring_eq_ok.mp h
  exact ⟨⟨haccepted.align, haccepted.aligned, haccepted.num⟩, haccepted.inside⟩

lemma nonempty_of_not_isEmpty {r : Region} (h : r.span.isEmpty = false) :
    r.extent.bytes.Nonempty := by
  have hends := r.span_measures
  simp only [Span.isEmpty, decide_eq_false_iff_not, UInt64.le_iff_toNat_le, hends.1, hends.2,
    Nat.not_le] at h
  exact ⟨_, Nat.le_refl _, h⟩

/-- All areas are those that were compared. -/
lemma areas_measure (htx : b.transport.tx.Regular) (hrx : b.transport.rx.Regular) :
    List.Forall₂ Span.Measures (b.areas.map Prod.snd) b.extents :=
  .cons (Vring.area_measures htx.align) <| .cons (Vring.area_measures hrx.align) <|
    .cons b.trace.buffer.span_measures <| .cons b.secondary.flagArea_measures <|
    .cons b.secondary.load.span_measures .nil

/-- The check of a board neither overflows nor divides by zero, whatever the board. If it accepts a
board, then all holds that is relied upon. -/
theorem check_sound (b : Board) :
    b.check?.run = some b.check ∧ (b.check = .ok () → b.Sound) := by
  refine ⟨b.run_check?, ?_⟩
  intro h
  simp only [check, checkLocated, bind_assoc, seq_eq_ok, require_eq_ok, checkChannels_eq_ok, checkApart_eq_ok, decide_eq_true_eq,
    Bool.and_eq_true, Bool.not_eq_true'] at h
  obtain ⟨hsemaphores, hmailboxes, hreset, hreset', hreset'', htx, hrx, hnotify, ⟨htrace, htraceIn⟩, -,
    hflag, hmagic, hflagIn, hapart⟩ := h
  obtain ⟨htx, htxIn⟩ := regular_of_checkVring htx
  obtain ⟨hrx, hrxIn⟩ := regular_of_checkVring hrx
  exact
    { semaphoreCount := hsemaphores
      mailboxCount := hmailboxes
      semaphores := fun i hi =>
        .of_lt (Nat.lt_of_lt_of_le hi (UInt8.le_iff_toNat_le.mp hsemaphores.2))
      mailboxes := fun i hi =>
        .of_lt (Nat.lt_of_lt_of_le hi (UInt8.le_iff_toNat_le.mp hmailboxes.2))
      resets := by
        simpa using ⟨fits_of_checkReset hreset, fits_of_checkReset hreset', fits_of_checkReset hreset''⟩
      tx := htx
      rx := hrx
      notifyIds := hnotify
      trace := nonempty_of_not_isEmpty htrace
      flagAligned := (mod_eq_zero_iff_dvd _ _).mp hflag
      magic := hmagic
      inside := by
        have htraceIn := (b.shared.span_measures.covers_iff b.trace.buffer.span_measures).mp htraceIn
        have hflagIn := (b.shared.span_measures.covers_iff b.secondary.flagArea_measures).mp hflagIn
        simpa [sharedExtents] using ⟨htxIn, hrxIn, htraceIn, hflagIn⟩
      apart := Span.Measures.pairwise_apart (areas_measure htx hrx) hapart }

theorem check_sound_evaluation : evaluation.check = .ok () ∧ evaluation.Sound :=
  have h : evaluation.check = .ok () := by decide +kernel
  ⟨h, (check_sound evaluation).2 h⟩

end Board

end Intercore
