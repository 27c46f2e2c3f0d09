import Intercore.Proofs.Bit
import Intercore.Proofs.Reset.Window
import Mathlib.Data.List.FinRange
import Mathlib.Data.List.Nodup

/-!
# Calls on reset lines

A line is pulled, let go, or both in turn. On the controller such a call does exactly that, or
nothing at all if the protection refuses to open.
-/

namespace Intercore.Reset

/-- What is done to a reset line. -/
inductive Call
  | enter
  | leave
  | pulse
  deriving DecidableEq, Repr

namespace Call

def program (l : Line) : Call → Prog (Except ResetError Unit)
  | enter => enterReset l
  | leave => leaveReset l
  | pulse => pulseReset l

/-- What a call writes to a register, in order, if it was read as `v`. -/
def values (mask v : UInt32) : Call → List UInt32
  | enter => [v ||| mask]
  | leave => [v &&& ~~~mask]
  | pulse => [v ||| mask, v &&& ~~~mask]

/-- How often a call lets its line go. -/
def releases (held : Bool) : Call → Nat
  | enter => 0
  | leave => held.toNat
  | pulse => 1

end Call

/-!
### Bits of the reset registers
-/

namespace Line

/-- The number of the register that a line is in. -/
def index (l : Line) : Fin 4 := ⟨l.resetBit.register.toNat, l.register_lt⟩

lemma bit_lt (l : Line) : l.resetBit.bit.toNat < 32 := by
  cases l <;> decide

/-- The number of the bit that a line is. -/
def place (l : Line) : Fin 32 := ⟨l.resetBit.bit.toNat, l.bit_lt⟩

lemma eq_resetBit_iff {b : ResetBit} {l : Line} :
    b = l.resetBit ↔ b.register = l.resetBit.register ∧ b.bit.toNat = l.place := by
  obtain ⟨register, bit⟩ := b
  rcases hl : l.resetBit with ⟨register', bit'⟩
  simp [place, hl, UInt8.toNat_inj]

@[simp] lemma hasBit_mask (l : Line) (j : Fin 32) : hasBit j l.mask = decide (j = l.place) := by
  have hmask : l.mask = 1 <<< UInt32.ofNat l.place.val := by cases l <;> rfl
  rw [hmask, hasBit_shiftLeft_one]

end Line

namespace Controller

/-- Whether a bit of the reset registers is set. -/
def asserts (c : Controller) (i : Fin 4) (j : Fin 32) : Bool := hasBit j (c.iprst.get i)

variable {c : Controller}

@[simp] lemma hasBit_resets (c : Controller) (l : Line) (j : Fin 32) :
    hasBit j (c.resets l) = c.asserts l.index j := rfl

lemma asserts_rewrite (hopen : c.isOpen = true) (l : Line) (value : UInt32) (i : Fin 4)
    (j : Fin 32) :
    (c.rewrite l value).asserts i j = if l.index = i then hasBit j value else c.asserts i j := by
  have hget (iprst : Vector UInt32 4) : iprst.get i = iprst[i.val] := rfl
  have hset : (c.rewrite l value).iprst.get i = if l.index = i then value else c.iprst.get i := by
    simp [hget, iprst_rewrite hopen, Vector.getElem_set, Line.index, Fin.ext_iff]
  rw [asserts, hset]
  split <;> rfl

lemma ignored_rewrite (hopen : c.isOpen = true) (l : Line) (value : UInt32) :
    (c.rewrite l value).ignored = c.ignored := by
  simp [rewrite, writeIprst, hopen, l.register_lt]

/-!
### Bits that are let go
-/

lemma toNat_bit (j : Fin 32) : (UInt32.ofNat j.val).toUInt8.toNat = j.val := by
  revert j
  decide

lemma fallingBits_eq (register : UInt8) (old new : UInt32) :
    fallingBits register old new = (List.finRange 32).filterMap fun j =>
      if hasBit j (old &&& ~~~new) then some ⟨register, (UInt32.ofNat j.val).toUInt8⟩
      else none := by
  rw [fallingBits, ← List.map_coe_finRange_eq_range, List.filterMap_map]
  simp [hasBit]

lemma mem_fallingBits {register : UInt8} {old new : UInt32} {b : ResetBit} :
    b ∈ fallingBits register old new ↔
      b.register = register ∧ ∃ j : Fin 32, b.bit.toNat = j ∧ hasBit j (old &&& ~~~new) = true := by
  simp only [fallingBits_eq, List.mem_filterMap, List.mem_finRange, true_and,
    Option.ite_none_right_eq_some, Option.some.injEq]
  constructor
  · rintro ⟨j, hj, rfl⟩
    exact ⟨rfl, j, toNat_bit j, hj⟩
  · obtain ⟨register, bit⟩ := b
    rintro ⟨rfl, j, hbit, hj⟩
    have hplace : (UInt32.ofNat j.val).toUInt8 = bit :=
      UInt8.toNat_inj.mp ((toNat_bit j).trans hbit.symm)
    exact ⟨j, hj, by rw [hplace]⟩

lemma nodup_fallingBits (register : UInt8) (old new : UInt32) :
    (fallingBits register old new).Nodup := by
  rw [fallingBits_eq]
  apply List.Nodup.filterMap _ (List.nodup_finRange 32)
  intro i j b hi hj
  simp only [Option.mem_def, Option.ite_none_right_eq_some, Option.some.injEq] at hi hj
  have hbit := congrArg (·.bit.toNat) (hi.2.trans hj.2.symm)
  exact Fin.ext (by simpa only [toNat_bit] using hbit)

/-- A rewritten register lets those of its bits go that were set and are not any more. -/
lemma releases_rewrite (hopen : c.isOpen = true) (l : Line) (value : UInt32) (b : ResetBit) :
    (c.rewrite l value).releases b = c.releases b +
      if b.register = l.resetBit.register ∧
        ∃ j : Fin 32, b.bit.toNat = j ∧ hasBit j (c.resets l &&& ~~~value) = true
      then 1 else 0 := by
  have hreleased : (c.rewrite l value).released =
      fallingBits l.resetBit.register (c.resets l) value ++ c.released := by
    simp [rewrite, writeIprst, hopen, l.register_lt, resets]
  rw [releases, hreleased, List.count_append, (nodup_fallingBits _ _ _).count, Nat.add_comm]
  simp only [mem_fallingBits, releases]

end Controller

open Controller

/-!
### What a call does
-/

/-- A line is held or not, after it was let go `n` times, and nothing else has changed. -/
structure Turned (l : Line) (held : Bool) (n : Nat) (c c' : Controller) : Prop where
  bits : ∀ i j, c'.asserts i j = if i = l.index ∧ j = l.place then held else c.asserts i j
  isOpen : c'.isOpen = c.isOpen
  ignored : c'.ignored = c.ignored
  releases : ∀ b, c'.releases b = c.releases b + if b = l.resetBit then n else 0

namespace Turned

variable {held held' : Bool} {n n' : Nat} {c c' c'' : Controller} {l : Line}

lemma trans (h : Turned l held n c c') (h' : Turned l held' n' c' c'') :
    Turned l held' (n + n') c c'' where
  bits i j := by
    rw [h'.bits, h.bits]
    split <;> rfl
  isOpen := h'.isOpen.trans h.isOpen
  ignored := h'.ignored.trans h.ignored
  releases b := by
    rw [h'.releases, h.releases, Nat.add_assoc]
    split <;> rfl

/-- The register of a line is rewritten with another value for its bit, or the same. -/
lemma rewrite (hopen : c.isOpen = true) {value : UInt32}
    (hvalue : ∀ j, hasBit j value = if j = l.place then held else c.asserts l.index j) :
    Turned l held (c.asserts l.index l.place && !held).toNat c (c.rewrite l value) where
  bits i j := by
    rw [asserts_rewrite hopen, hvalue]
    by_cases hi : i = l.index
    · simp [hi]
    · simp [hi, Ne.symm hi]
  isOpen := (isOpen_rewrite hopen l value).trans hopen.symm
  ignored := ignored_rewrite hopen l value
  releases b := by
    have hfalls (j : Fin 32) : hasBit j (c.resets l &&& ~~~value) =
        if j = l.place then c.asserts l.index l.place && !held else false := by
      rw [hasBit_and, hasBit_not, hvalue, hasBit_resets]
      split
      case isTrue hj => rw [hj]
      case isFalse => exact Bool.and_not_self _
    have hown : (b.register = l.resetBit.register ∧
        ∃ j : Fin 32, b.bit.toNat = j ∧ hasBit j (c.resets l &&& ~~~value) = true) ↔
          b = l.resetBit ∧ (c.asserts l.index l.place && !held) = true := by
      simp [hfalls, Line.eq_resetBit_iff, and_assoc]
    rw [releases_rewrite hopen]
    simp only [hown, ite_and, Bool.toNat, Bool.cond_eq_ite]

/-- To open the protection before and to close it again behind changes nothing more. -/
lemma window (h : Turned l held n c.opened c') : Turned l held n c (c'.closedUnless c.isOpen) where
  bits i j := by
    simpa [asserts] using h.bits i j
  isOpen := (closedUnless_of_open (h.isOpen.trans c.isOpen_opened) _).1
  ignored := by
    rw [(closedUnless_of_open (h.isOpen.trans c.isOpen_opened) _).2.1, h.ignored, opened_ignored]
  releases b := by
    simpa [Controller.releases, opened_released] using h.releases b

end Turned

namespace Call

variable {c : Controller}

/-- On an open controller the values of a call turn the line as the call says. -/
lemma turned_of_open (call : Call) (l : Line) (hopen : c.isOpen = true) :
    Turned l (call = .enter) (call.releases (c.asserts l.index l.place)) c
      ((call.values l.mask (c.resets l)).foldl (·.rewrite l ·) c) := by
  have hpulled (j : Fin 32) : hasBit j (c.resets l ||| l.mask) =
      if j = l.place then true else c.asserts l.index j := by
    split <;> simp [*]
  have hlet (j : Fin 32) : hasBit j (c.resets l &&& ~~~l.mask) =
      if j = l.place then false else c.asserts l.index j := by
    split <;> simp [*]
  have henter : Turned l true 0 c (c.rewrite l (c.resets l ||| l.mask)) := by
    simpa using Turned.rewrite hopen hpulled
  cases call with
  | enter => exact henter
  | leave => simpa [values, releases] using Turned.rewrite hopen hlet
  | pulse =>
    have hletAgain (j : Fin 32) : hasBit j (c.resets l &&& ~~~l.mask) =
        if j = l.place then false
        else (c.rewrite l (c.resets l ||| l.mask)).asserts l.index j := by
      rw [henter.bits]
      split <;> simp [*]
    have hleave := Turned.rewrite (henter.isOpen.trans hopen) hletAgain
    simpa [values, releases, henter.bits] using henter.trans hleave

lemma run_program (call : Call) (l : Line) (c : Controller) :
    (call.program l).run handler c =
      if c.refuses then (.ok (.error .lockStuck), { c with progress := 0 })
      else (.ok (.ok ()), ((call.values l.mask (c.opened.resets l)).foldl (·.rewrite l ·)
        c.opened).closedUnless c.isOpen) := by
  cases call with
  | enter => exact run_enterReset l c
  | leave => exact run_leaveReset l c
  | pulse => exact run_pulseReset l c

end Call

/-- Whatever has been done to a controller before, a call succeeds if the protection is open already
or does open. It then holds the line, or has let it go, and counts how often the line was let go.
All other bits are as they were, and so are the protection and the number of writes it kept off. If
the protection refuses to open, the call changes nothing of this at all. -/
theorem exact_or_nothing (call : Call) (l : Line) (c : Controller) :
    ∃ r c', (call.program l).run handler c = (.ok r, c') ∧
      (r = .ok () ↔ c.isOpen = true ∨ c.stuck = false) ∧
      (r = .ok () → Turned l (call = .enter) (call.releases (c.asserts l.index l.place)) c c') ∧
      (r = .error .lockStuck → c'.iprst = c.iprst ∧ c'.isOpen = c.isOpen ∧
        c'.unlocks = c.unlocks ∧ c'.ignored = c.ignored ∧ ∀ b, c'.releases b = c.releases b) := by
  by_cases hrefuses : c.refuses = true
  · refine ⟨_, _, (call.run_program l c).trans (if_pos hrefuses), ?_, fun hok => ?_, fun _ => ?_⟩
    · simpa [refuses] using hrefuses
    · cases hok
    · exact ⟨rfl, rfl, rfl, rfl, fun _ => rfl⟩
  · refine ⟨_, _, (call.run_program l c).trans (if_neg hrefuses), ?_, fun _ => ?_, fun hstuck => ?_⟩
    · simpa [refuses, or_iff_not_imp_left] using hrefuses
    · have h := (call.turned_of_open l c.isOpen_opened).window
      rwa [asserts, c.iprst_opened] at h
    · cases hstuck

end Intercore.Reset
