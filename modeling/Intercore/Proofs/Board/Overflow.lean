import Intercore.Proofs.Board.Agreement

/-!
# Checking with checked arithmetic

The check of a board once more, with operations that refuse to overflow or to divide by zero. It comes
to the same verdict on every description, so the check does neither. An alignment of zero would be
divided by, but it is no power of two and is refused before.
-/

namespace Intercore

open Resource

def Vring.packedSize? (num align : UInt32) : Option UInt64 := do
  let num := num.toUInt64
  let align := align.toUInt64
  let availEnd ← Checked.add (← Checked.mul 16 num) (← Checked.mul 2 (← Checked.add 3 num))
  let used ← Checked.mul (← ceilDiv? availEnd align) align
  Checked.add (← Checked.add used (← Checked.mul 2 3)) (← Checked.mul 8 num)
where
  ceilDiv? (a b : UInt64) : Option UInt64 := do
    let (quotient, rest) ← Checked.divMod a b
    if rest = 0 then return quotient else Checked.add quotient 1

def Vring.area? (v : Vring) : Option Span := do
  Span.ofBase? v.da (← packedSize? v.num v.align)

def Region.span? (r : Region) : Option Span := Span.ofBase? r.base r.size.toUInt64

namespace Board

def Secondary.flagArea? (s : Secondary) : Option Span := Span.ofBase? s.bootFlag 4

def checkVring? (part : Part) (v : Vring) (window : Span) : ExceptT Complaint Option Unit := do
  require (isPowerOfTwo v.align) (.alignment part v.align)
  require ((← Checked.mod v.da v.align) = 0) (.misaligned part v.da v.align)
  require (isPowerOfTwo v.num) (.bufferCount part v.num)
  let area ← v.area?
  require (window.covers area) (.outside part area)

def areas? (b : Board) : Option (List (Part × Span)) := do
  return [(.tx, ← b.transport.tx.area?), (.rx, ← b.transport.rx.area?),
    (.trace, ← b.trace.buffer.span?), (.bootFlag, ← b.secondary.flagArea?),
    (.image, ← b.secondary.load.span?)]

/-- The check of a board, checked. -/
def check? (b : Board) : ExceptT Complaint Option Unit := do
  checkChannels .semaphores b.semaphores.channels 32
  checkChannels .mailboxes b.mailboxes.channels 16
  checkReset .semaphores b.semaphores.reset
  checkReset .mailboxes b.mailboxes.reset
  checkReset .secondary b.secondary.reset
  let window ← b.shared.span?
  checkVring? .tx b.transport.tx window
  checkVring? .rx b.transport.rx window
  require (b.transport.tx.notifyId ≠ b.transport.rx.notifyId) (.notifyId b.transport.tx.notifyId)
  let trace ← b.trace.buffer.span?
  require (!trace.isEmpty && window.covers trace) (.outside .trace trace)
  require (b.trace.name.utf8ByteSize < 32) (.longName b.trace.name)
  require (b.secondary.bootFlag % 4 = 0) (.flagMisaligned b.secondary.bootFlag)
  require (b.secondary.bootMagic ≠ 0) .zeroMagic
  let flag ← b.secondary.flagArea?
  require (window.covers flag) (.flagOutside flag)
  checkApart (← b.areas?)

end Board

/-!
### Every operation has its result
-/

/-- Only what leaves a remainder is rounded up, so there is room above the quotient. -/
lemma Vring.ceilDiv?_eq {a b : UInt64} (hb : 0 < b.toNat) :
    packedSize?.ceilDiv? a b = some (packedSize.ceilDiv a b) := by
  simp only [packedSize?.ceilDiv?, packedSize.ceilDiv, Checked.divMod_eq hb, Option.bind_eq_bind,
    Option.bind_some]
  split
  case isTrue => rfl
  case isFalse hrest =>
    have hmod : a.toNat % b.toNat ≠ 0 := fun h => hrest (UInt64.toNat_inj.mp h)
    have hroom : a.toNat / b.toNat + 1 ≤ a.toNat := by
      have hdiv := Nat.div_add_mod a.toNat b.toNat
      have hmul := Nat.le_mul_of_pos_left (a.toNat / b.toNat) hb
      omega
    exact (Checked.add_eq (UInt64.toNat_div a b) (n := 1) rfl
      (Nat.lt_of_le_of_lt hroom a.toNat_lt)).1

lemma Vring.packedSize?_eq (num : UInt32) {align : UInt32} (ha : 0 < align.toNat) :
    packedSize? num align = some (packedSize num align) := by
  have hnum := num.toNat_lt
  have halign := align.toNat_lt
  have hround := roundUp_lt (n := 16 * num.toNat + (6 + 2 * num.toNat)) ha
  have hword : UInt64.size = 2 ^ 64 := rfl
  have hn : num.toUInt64.toNat = num.toNat := UInt32.toNat_toUInt64 num
  have hal : align.toUInt64.toNat = align.toNat := UInt32.toNat_toUInt64 align
  -- one step for each operation, in the order in which they are made
  obtain ⟨hmul, hmul'⟩ := Checked.mul_eq (a := 16) (m := 16) rfl hn (by omega)
  obtain ⟨hadd, hadd'⟩ := Checked.add_eq (a := 3) (m := 3) rfl hn (by omega)
  obtain ⟨hdouble, hdouble'⟩ := Checked.mul_eq (a := 2) (m := 2) rfl hadd' (by omega)
  obtain ⟨havail, -⟩ := Checked.add_eq hmul' hdouble' (by omega)
  have hfits : roundUp (16 * num.toUInt64 + 2 * (3 + num.toUInt64)).toNat align.toUInt64.toNat <
      UInt64.size := by
    rw [toNat_availEnd, hal]
    omega
  -- the quotient times the alignment is the offset that is wanted, so it fits although rounded up
  have hceil := ceilDiv?_eq (a := 16 * num.toUInt64 + 2 * (3 + num.toUInt64)) (hal ▸ ha)
  have hround' := ceilDiv_mul (hal ▸ ha) hfits
  obtain ⟨hused, hused'⟩ := Checked.mul_eq rfl rfl (hround'.trans_lt hfits)
  rw [hround', toNat_availEnd, hal] at hused'
  obtain ⟨hsix, hsix'⟩ := Checked.mul_eq (a := 2) (b := 3) (m := 2) (n := 3) rfl rfl (by omega)
  obtain ⟨hpart, hpart'⟩ := Checked.add_eq hused' hsix' (by omega)
  obtain ⟨hring, hring'⟩ := Checked.mul_eq (a := 8) (m := 8) rfl hn (by omega)
  obtain ⟨hsize, -⟩ := Checked.add_eq hpart' hring' (by omega)
  simp only [packedSize?, hmul, hadd, hdouble, havail, hceil, hused, hsix, hpart, hring, hsize,
    Option.bind_eq_bind, Option.bind_some, packedSize]

lemma Vring.area?_eq {v : Vring} (ha : v.align.toNat.isPowerOfTwo) : v.area? = some v.area := by
  have hstop : v.area.stop.toNat = v.da.toNat + (packedSize v.num v.align).toNat := by
    rw [(area_measures ha).2, packedSize_eq_vringSize v.num ha, toNat_vringSize v.num ha]
    rfl
  simp only [area?, packedSize?_eq v.num (Nat.pos_of_isPowerOfTwo ha), Option.bind_eq_bind,
    Option.bind_some]
  exact ofBase?_eq hstop

lemma Region.span?_eq (r : Region) : r.span? = some r.span := by
  refine ofBase?_eq (r.span_measures.2.trans ?_)
  rw [UInt32.toNat_toUInt64]
  rfl

namespace Board

def Secondary.flagExtent (s : Secondary) : Extent := ⟨s.bootFlag.toNat, 4⟩

lemma Secondary.flagArea_measures (s : Secondary) : s.flagArea.Measures s.flagExtent := by
  have hflag := s.bootFlag.toNat_lt
  constructor
  · exact UInt32.toNat_toUInt64 s.bootFlag
  · simp only [flagArea, Span.ofBase, UInt64.toNat_add, UInt32.toNat_toUInt64, UInt64.reduceToNat,
      flagExtent, Extent.stop]
    omega

lemma Secondary.flagArea?_eq (s : Secondary) : s.flagArea? = some s.flagArea :=
  ofBase?_eq s.flagArea_measures.2

lemma areas?_eq {b : Board} (htx : b.transport.tx.align.toNat.isPowerOfTwo)
    (hrx : b.transport.rx.align.toNat.isPowerOfTwo) : b.areas? = some b.areas := by
  simp only [areas?, Vring.area?_eq htx, Vring.area?_eq hrx, Region.span?_eq,
    Secondary.flagArea?_eq, Option.bind_eq_bind, Option.bind_some]
  rfl

lemma run_checkVring? (part : Part) (v : Vring) (window : Span) :
    (checkVring? part v window).run = some (checkVring part v window) := by
  unfold checkVring? checkVring
  refine run_test_bind fun () halign => ?_
  have ha : v.align.toNat.isPowerOfTwo := by simpa [isPowerOfTwo_iff] using halign
  refine (run_value_bind (Checked.mod_eq (ne_zero_of_isPowerOfTwo ha))).trans ?_
  refine run_test_bind fun _ _ => run_test_bind fun _ _ => ?_
  exact run_value_bind (Vring.area?_eq ha)

/-- No operation of a check overflows or divides by zero. -/
lemma run_check? (b : Board) : b.check?.run = some b.check := by
  simp only [check?, check, checkLocated, bind_assoc]
  refine run_test_bind fun _ _ => run_test_bind fun _ _ => run_test_bind fun _ _ =>
    run_test_bind fun _ _ => run_test_bind fun _ _ => ?_
  refine (run_value_bind b.shared.span?_eq).trans ?_
  refine run_bind_eq (run_checkVring? _ _ _) fun _ htx => ?_
  refine run_bind_eq (run_checkVring? _ _ _) fun _ hrx => ?_
  refine run_test_bind fun _ _ => ?_
  refine (run_value_bind b.trace.buffer.span?_eq).trans ?_
  refine run_test_bind fun _ _ => run_test_bind fun _ _ => run_test_bind fun _ _ =>
    run_test_bind fun _ _ => ?_
  refine (run_value_bind b.secondary.flagArea?_eq).trans ?_
  refine run_test_bind fun _ _ => ?_
  exact run_value_bind
    (areas?_eq (checkVring_eq_ok.mp htx).align (checkVring_eq_ok.mp hrx).align)

end Board

end Intercore
