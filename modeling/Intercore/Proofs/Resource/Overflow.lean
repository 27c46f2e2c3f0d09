import Intercore.Proofs.Checked
import Intercore.Proofs.Resource.Size

/-!
# Validation with checked arithmetic

Validation once more, with operations that refuse to overflow or to divide by zero. It comes to the
same verdict on every table, so validation does neither.
-/

namespace Intercore

def Span.ofBase? (base : UInt32) (length : UInt64) : Option Span :=
  return ⟨base.toUInt64, ← Checked.add base.toUInt64 length⟩

def Region.stop? (r : Region) : Option UInt64 := Checked.add r.base.toUInt64 r.size.toUInt64

/-- Whether a span lies in the region, checked. -/
def Region.contains? (r : Region) (s : Span) : Option Bool := do
  let length ← Checked.sub s.stop s.start
  return r.base.toUInt64 ≤ s.start && (← Checked.add s.start length) ≤ (← r.stop?)

namespace Resource

def vringSize? (num align : UInt32) : Option UInt64 := do
  let num := num.toUInt64
  let align := align.toUInt64
  let availEnd ← Checked.add (← Checked.mul 16 num) (← Checked.mul 2 (← Checked.add 3 num))
  let used := (← Checked.sub (← Checked.add availEnd align) 1) &&& ~~~(← Checked.sub align 1)
  Checked.add (← Checked.add used (← Checked.mul 2 3)) (← Checked.mul 8 num)

def VringDesc.area? (v : VringDesc) : Option Span := do
  Span.ofBase? v.da (← vringSize? v.num v.align)

def Trace.area? (t : Trace) : Option Span := Span.ofBase? t.da t.len.toUInt64

def VringDesc.validate? (v : VringDesc) (window : Region) : ExceptT TableError Option Span := do
  require (isPowerOfTwo v.align) .badAlignment
  require ((← Checked.mod v.da v.align) = 0) .unaligned
  require (v.num ≠ 0) .emptyRing
  require (isPowerOfTwo v.num) (.badRingSize v.num)
  let area ← v.area?
  require (← window.contains? area) .outsideWindow
  return area

section

variable {ε α β : Type}

/-- Computations that come to the same verdict do so one after the other. -/
lemma run_bind_eq {x : ExceptT ε Option α} {y : Except ε α} {f : α → ExceptT ε Option β}
    {g : α → Except ε β} (hx : x.run = some y) (h : ∀ a, y = .ok a → (f a).run = some (g a)) :
    (x >>= f).run = some (y >>= g) := by
  rw [ExceptT.run_bind, hx]
  cases y with
  | error e => rfl
  | ok a => exact h a rfl

/-- A test is never a matter of arithmetic. -/
lemma run_test_bind {x : Except ε α} {f : α → ExceptT ε Option β} {g : α → Except ε β}
    (h : ∀ a, x = .ok a → (f a).run = some (g a)) :
    ((liftM x : ExceptT ε Option α) >>= f).run = some (x >>= g) := by
  refine run_bind_eq ?_ h
  cases x <;> rfl

/-- A part that comes to the same verdict may stand for the other one. -/
lemma run_part_bind {x : ExceptT ε Option α} {y : Except ε Unit} {a : α}
    {f : α → ExceptT ε Option β} {g : Unit → Except ε β}
    (hx : x.run = some (y >>= fun _ => .ok a)) (h : (f a).run = some (g ())) :
    (x >>= f).run = some (y >>= g) := by
  cases y with
  | error e =>
    rw [ExceptT.run_bind, hx]
    rfl
  | ok u =>
    rw [ExceptT.run_bind, hx]
    exact h

/-- A computation that has a result may be left out of account. -/
lemma run_value_bind {x : Option α} {a : α} {f : α → ExceptT ε Option β} (h : x = some a) :
    ((liftM x : ExceptT ε Option α) >>= f).run = (f a).run := by
  subst h
  rfl

end

lemma vringSize?_eq {num align : UInt32} (ha : align.toNat.isPowerOfTwo) :
    vringSize? num align = some (vringSize num align) := by
  have hnum := num.toNat_lt
  have halign := align.toNat_lt
  have hpos := Nat.pos_of_isPowerOfTwo ha
  have hround := roundUp_lt (n := 16 * num.toNat + (6 + 2 * num.toNat)) hpos
  have hword : UInt64.size = 2 ^ 64 := rfl
  have hn : num.toUInt64.toNat = num.toNat := UInt32.toNat_toUInt64 num
  have hal : align.toUInt64.toNat = align.toNat := UInt32.toNat_toUInt64 align
  -- one step for each operation, in the order in which they are made
  obtain ⟨hmul, hmul'⟩ := Checked.mul_eq (a := 16) (m := 16) rfl hn (by omega)
  obtain ⟨hadd, hadd'⟩ := Checked.add_eq (a := 3) (m := 3) rfl hn (by omega)
  obtain ⟨hdouble, hdouble'⟩ := Checked.mul_eq (a := 2) (m := 2) rfl hadd' (by omega)
  obtain ⟨havail, havail'⟩ := Checked.add_eq hmul' hdouble' (by omega)
  obtain ⟨hpad, hpad'⟩ := Checked.add_eq havail' hal (by omega)
  obtain ⟨hup, -⟩ := Checked.sub_eq (b := 1) (n := 1) hpad' rfl (by omega)
  obtain ⟨hmask, -⟩ := Checked.sub_eq (b := 1) (n := 1) hal rfl hpos
  obtain ⟨hsix, hsix'⟩ := Checked.mul_eq (a := 2) (b := 3) (m := 2) (n := 3) rfl rfl (by omega)
  obtain ⟨hused, hused'⟩ := Checked.add_eq (toNat_usedOffset num ha) hsix' (by omega)
  obtain ⟨hring, hring'⟩ := Checked.mul_eq (a := 8) (m := 8) rfl hn (by omega)
  obtain ⟨hsize, -⟩ := Checked.add_eq hused' hring' (by omega)
  simp only [vringSize?, hmul, hadd, hdouble, havail, hpad, hup, hmask, hsix, hused, hring, hsize,
    Option.bind_eq_bind, Option.bind_some, vringSize]

lemma ofBase?_eq {base : UInt32} {length : UInt64}
    (h : (Span.ofBase base length).stop.toNat = base.toNat + length.toNat) :
    Span.ofBase? base length = some (.ofBase base length) := by
  have hlt := (Span.ofBase base length).stop.toNat_lt
  rw [h] at hlt
  obtain ⟨hstop, -⟩ := Checked.add_eq (UInt32.toNat_toUInt64 base) rfl hlt
  simp only [Span.ofBase?, hstop, Option.bind_eq_bind, Option.bind_some]
  rfl

lemma VringDesc.area?_eq {v : VringDesc} (ha : v.align.toNat.isPowerOfTwo) :
    v.area? = some v.area := by
  have hstop : v.area.stop.toNat = v.da.toNat + (vringSize v.num v.align).toNat := by
    rw [(area_measures ha).2, toNat_vringSize v.num ha]
    rfl
  simp only [area?, vringSize?_eq ha, Option.bind_eq_bind, Option.bind_some]
  exact ofBase?_eq hstop

lemma Trace.area?_eq (t : Trace) : t.area? = some t.area := by
  refine ofBase?_eq (t.area_measures.2.trans ?_)
  rw [UInt32.toNat_toUInt64]
  rfl

lemma contains?_eq {s : Span} {e : Extent} (h : s.Measures e) (window : Region) :
    window.contains? s = some (window.contains s.start (s.stop - s.start)) := by
  have hword : UInt64.size = 2 ^ 64 := rfl
  have hlt := s.stop.toNat_lt
  have hle : e.start ≤ e.stop := Nat.le_add_right _ _
  rw [h.2] at hlt
  obtain ⟨hlength, hvalue⟩ := Checked.sub_eq h.2 h.1 hle
  obtain ⟨hstop, -⟩ := Checked.add_eq h.1 hvalue (by omega)
  have hregion : window.stop? = some window.stop := by
    have hbase := window.base.toNat_lt
    have hsize := window.size.toNat_lt
    exact (Checked.add_eq (UInt32.toNat_toUInt64 _) (UInt32.toNat_toUInt64 _) (by omega)).1
  simp only [Region.contains?, hlength, hstop, hregion, Option.bind_eq_bind, Option.bind_some]
  rfl

lemma VringDesc.run_validate? (v : VringDesc) (window : Region) :
    (v.validate? window).run = some (v.validate window >>= fun _ => .ok v.area) := by
  unfold validate? validate
  simp only [bind_assoc]
  refine run_test_bind fun () halign => ?_
  have ha : v.align.toNat.isPowerOfTwo := by simpa [require_eq_ok, isPowerOfTwo_iff] using halign
  refine (run_value_bind (Checked.mod_eq (ne_zero_of_isPowerOfTwo ha))).trans ?_
  refine run_test_bind fun _ _ => run_test_bind fun _ _ => run_test_bind fun _ _ => ?_
  refine (run_value_bind (area?_eq ha)).trans ?_
  refine (run_value_bind (contains?_eq (area_measures ha) window)).trans ?_
  exact run_test_bind fun _ _ => rfl

end Resource

open Resource in
/-- Validation of a table, checked. -/
def ResourceTable.validate? (t : ResourceTable) (window : Region) :
    ExceptT TableError Option Unit := do
  t.header.validate
  t.device.validate
  t.trace.validate
  let tx ← t.device.tx.validate? window
  let rx ← t.device.rx.validate? window
  let trace ← t.trace.area?
  require (← window.contains? trace) .outsideWindow
  require (!(tx.overlaps rx || tx.overlaps trace || rx.overlaps trace)) .overlap

open Resource in
/-- No operation of a validation overflows or divides by zero. -/
lemma ResourceTable.run_validate? (t : ResourceTable) (window : Region) :
    (t.validate? window).run = some (t.validate window) := by
  unfold validate? validate
  refine run_test_bind fun _ _ => run_test_bind fun _ _ => run_test_bind fun _ _ => ?_
  refine run_part_bind (t.device.tx.run_validate? window) ?_
  refine run_part_bind (t.device.rx.run_validate? window) ?_
  refine (run_value_bind t.trace.area?_eq).trans ?_
  refine (run_value_bind (contains?_eq t.trace.area_measures window)).trans ?_
  exact run_test_bind fun _ _ => rfl

end Intercore
