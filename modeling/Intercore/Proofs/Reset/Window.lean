import Intercore.Proofs.Contract
import Intercore.Reset.Controller
import Mathlib.Tactic.Lemma
import Mathlib.Tactic.SplitIfs

/-!
# Windows in the write protection

What the programs that pull reset lines and let them go make of the system controller. Each of them
writes within a window: it opens the protection, unless that is open already, and leaves it as it was
found.

`run_withOpen` says what a window does, whatever is done within it.
-/

namespace Intercore.Reset

namespace Controller

/-!
### Opening the protection
-/

/-- The first word of the sequence begins it anew, however much of it was written before. -/
lemma follow_first (progress : Nat) : follow progress 0x59 = 1 := by
  match progress with
  | 0 | 1 | 2 | _ + 3 => rfl

/-- The protection refuses to open. -/
def refuses (c : Controller) : Bool := !c.isOpen && c.stuck

/-- The controller with its protection open. To open it counts only if it was closed. -/
def opened (c : Controller) : Controller :=
  if c.isOpen then c else { c with isOpen := true, progress := 0, unlocks := c.unlocks + 1 }

/-- The controller with its protection closed again, if it was not open before. -/
def closedUnless (wasOpen : Bool) (c : Controller) : Controller :=
  if wasOpen then c else c.writeReglctl 0

@[simp] lemma iprst_writeReglctl (c : Controller) (word : UInt32) :
    (c.writeReglctl word).iprst = c.iprst := by
  simp only [writeReglctl]
  split_ifs <;> rfl

@[simp] lemma iprst_opened (c : Controller) : c.opened.iprst = c.iprst := by
  simp only [opened]
  split_ifs <;> rfl

@[simp] lemma iprst_closedUnless (wasOpen : Bool) (c : Controller) :
    (c.closedUnless wasOpen).iprst = c.iprst := by
  simp only [closedUnless]
  split_ifs
  · rfl
  · exact c.iprst_writeReglctl 0

@[simp] lemma isOpen_opened (c : Controller) : c.opened.isOpen = true := by
  simp only [opened]
  split_ifs with h
  · exact h
  · rfl

lemma opened_ignored (c : Controller) : c.opened.ignored = c.ignored := by
  rw [opened]
  split_ifs <;> rfl

lemma opened_unlocks (c : Controller) :
    c.opened.unlocks = c.unlocks + if c.isOpen then 0 else 1 := by
  rw [opened]
  split_ifs <;> rfl

/-- What an open protection is closed with is counted nowhere. -/
lemma closedUnless_of_open {c : Controller} (hopen : c.isOpen = true) (wasOpen : Bool) :
    (c.closedUnless wasOpen).isOpen = wasOpen ∧ (c.closedUnless wasOpen).ignored = c.ignored ∧
      (c.closedUnless wasOpen).unlocks = c.unlocks := by
  cases wasOpen with
  | true => exact ⟨hopen, rfl, rfl⟩
  | false => simp [closedUnless, writeReglctl, hopen]

lemma opened_released (c : Controller) : c.opened.released = c.released := by
  rw [opened]
  split_ifs <;> rfl

@[simp] lemma released_closedUnless (wasOpen : Bool) (c : Controller) :
    (c.closedUnless wasOpen).released = c.released := by
  simp only [closedUnless, writeReglctl]
  split_ifs <;> rfl

/-- The whole sequence opens a closed protection, whatever was written to it before. -/
lemma writeReglctl_unlockSequence {c : Controller} (hclosed : c.isOpen = false) :
    unlockSequence.foldl writeReglctl c =
      if c.stuck then { c with progress := 0 } else c.opened := by
  obtain ⟨isOpen, progress, stuck, iprst, unlocks, ignored, released⟩ := c
  subst hclosed
  have hfirst : writeReglctl ⟨false, progress, stuck, iprst, unlocks, ignored, released⟩ 0x59 =
      ⟨false, 1, stuck, iprst, unlocks, ignored, released⟩ := by
    simp [writeReglctl, follow_first, unlockSequence]
  simp only [unlockSequence, List.foldl_cons, List.foldl_nil, hfirst]
  cases stuck <;> rfl

end Controller

open Controller

variable {α : Type} {c : Controller}

lemma run_isOpen (c : Controller) : isOpen.run handler c = (.ok c.isOpen, c) := by
  simp only [isOpen, read, Program.request, Program.bind_eq, Program.pure_eq, Program.ask_bind,
    Program.done_bind, Program.run, handler, readReglctl]
  cases c.isOpen <;> rfl

lemma run_writeAll (words : List UInt32) (c : Controller) :
    (writeAll words).run handler c = (.ok (), words.foldl writeReglctl c) := by
  induction words generalizing c with
  | nil => rfl
  | cons word rest ih => exact ih (c.writeReglctl word)

/-- Within a window the protection is open, and behind it everything is as it was found. If the
protection refuses to open, nothing was done but to write the sequence in vain. -/
lemma run_withOpen (body : Prog α) (c : Controller) :
    (withOpen body).run handler c =
      if c.refuses then (.ok (.error .lockStuck), { c with progress := 0 })
      else
        match body.run handler c.opened with
        | (.ok a, c') => (.ok (.ok a), c'.closedUnless c.isOpen)
        | (.error e, c') => (.error e, c') := by
  simp only [withOpen, Program.bind_eq, Program.pure_eq, Program.run_bind, run_isOpen, refuses]
  by_cases hopen : c.isOpen = true
  · have hopened : c.opened = c := if_pos hopen
    simp only [hopen, if_true, Program.run_bind, hopened, Bool.not_true, Bool.false_and,
      Bool.false_eq_true, if_false, closedUnless]
    rcases body.run handler c with ⟨_ | a, c'⟩
    · rfl
    · rfl
  · have hclosed : c.isOpen = false := Bool.not_eq_true _ ▸ hopen
    simp only [hclosed, Bool.false_eq_true, if_false, Program.run_bind, run_writeAll,
      writeReglctl_unlockSequence hclosed, run_isOpen, Bool.not_false, Bool.true_and]
    by_cases hstuck : c.stuck = true
    · simp [hstuck]
    · simp only [hstuck, if_false, isOpen_opened, if_true, Program.run_bind, closedUnless,
        Bool.false_eq_true]
      rcases body.run handler c.opened with ⟨_ | a, c'⟩
      · rfl
      · rfl

/-!
### Lines

A window in which one reset register is rewritten.
-/

lemma Line.register_lt (l : Line) : l.resetBit.register.toNat < 4 := by
  cases l <;> decide

lemma Line.mask_ne_zero (l : Line) : l.mask ≠ 0 := by
  cases l <;> decide

lemma Line.or_mask_and_mask (l : Line) (value : UInt32) : (value ||| l.mask) &&& l.mask = l.mask := by
  rw [← UInt32.toBitVec_inj]
  ext i
  simp only [UInt32.toBitVec_and, UInt32.toBitVec_or, BitVec.getElem_and, BitVec.getElem_or,
    Bool.and_eq_right_iff_imp, Bool.or_eq_true]
  exact .inr

namespace Controller

/-- The register that a line is in. -/
def resets (c : Controller) (l : Line) : UInt32 :=
  have := l.register_lt
  c.iprst[l.resetBit.register.toNat]

/-- Whether a line is pulled. -/
def holds (c : Controller) (l : Line) : Bool := c.resets l &&& l.mask ≠ 0

/-- The controller with the register of a line rewritten. -/
def rewrite (c : Controller) (l : Line) (value : UInt32) : Controller :=
  (c.writeIprst l.resetBit.register value).2

lemma writeIprst_of_open (hopen : c.isOpen = true) (l : Line) (value : UInt32) :
    c.writeIprst l.resetBit.register value = (.ok (), c.rewrite l value) := by
  simp [rewrite, writeIprst, hopen, l.register_lt]

lemma isOpen_rewrite (hopen : c.isOpen = true) (l : Line) (value : UInt32) :
    (c.rewrite l value).isOpen = true := by
  simp [rewrite, writeIprst, hopen, l.register_lt]

lemma iprst_rewrite (hopen : c.isOpen = true) (l : Line) (value : UInt32) :
    have := l.register_lt
    (c.rewrite l value).iprst = c.iprst.set l.resetBit.register.toNat value := by
  simp [rewrite, writeIprst, hopen, l.register_lt]

lemma resets_rewrite (hopen : c.isOpen = true) (l l' : Line) (value : UInt32) :
    (c.rewrite l value).resets l' =
      if l.resetBit.register = l'.resetBit.register then value else c.resets l' := by
  simp [resets, iprst_rewrite hopen, Vector.getElem_set, UInt8.toNat_inj]

lemma resets_congr {c' : Controller} (h : c'.iprst = c.iprst) (l : Line) :
    c'.resets l = c.resets l := by
  simp [resets, h]

lemma holds_congr {c' : Controller} (h : c'.iprst = c.iprst) (l : Line) :
    c'.holds l = c.holds l := by
  simp only [holds, resets_congr h]

end Controller

lemma run_read (l : Line) (c : Controller) :
    (read l.register).run handler c = (.ok (c.resets l), c) := by
  simp [read, Program.request, Program.run, handler, Line.register, l.register_lt, resets]

lemma run_write (hopen : c.isOpen = true) (l : Line) (value : UInt32) :
    (write l.register value).run handler c = (.ok (), c.rewrite l value) := by
  simp [write, Program.request, Program.run, handler, Line.register, writeIprst_of_open hopen]

lemma run_inReset (l : Line) (c : Controller) :
    (inReset l).run handler c = (.ok (c.holds l), c) := by
  simp only [inReset, Program.bind_eq, Program.pure_eq, Program.run_bind, run_read,
    Program.run_done, holds]

lemma run_window {body : Prog Unit} {c' : Controller}
    (hbody : body.run handler c.opened = (.ok (), c')) :
    (withOpen body).run handler c =
      if c.refuses then (.ok (.error .lockStuck), { c with progress := 0 })
      else (.ok (.ok ()), c'.closedUnless c.isOpen) := by
  rw [run_withOpen, hbody]

lemma run_enterReset (l : Line) (c : Controller) :
    (enterReset l).run handler c =
      if c.refuses then (.ok (.error .lockStuck), { c with progress := 0 })
      else
        (.ok (.ok ()), (c.opened.rewrite l (c.opened.resets l ||| l.mask)).closedUnless c.isOpen) := by
  apply run_window
  simp only [Program.bind_eq, Program.run_bind, run_read, run_write c.isOpen_opened]

lemma run_leaveReset (l : Line) (c : Controller) :
    (leaveReset l).run handler c =
      if c.refuses then (.ok (.error .lockStuck), { c with progress := 0 })
      else
        (.ok (.ok ()),
          (c.opened.rewrite l (c.opened.resets l &&& ~~~l.mask)).closedUnless c.isOpen) := by
  apply run_window
  simp only [Program.bind_eq, Program.run_bind, run_read, run_write c.isOpen_opened]

lemma run_pulseReset (l : Line) (c : Controller) :
    (pulseReset l).run handler c =
      if c.refuses then (.ok (.error .lockStuck), { c with progress := 0 })
      else
        (.ok (.ok ()), ((c.opened.rewrite l (c.opened.resets l ||| l.mask)).rewrite l
          (c.opened.resets l &&& ~~~l.mask)).closedUnless c.isOpen) := by
  apply run_window
  simp only [Program.bind_eq, Program.run_bind, run_read, run_write c.isOpen_opened,
    run_write (isOpen_rewrite c.isOpen_opened l _)]

/-- What is left in the registers of the lines if one of them was rewritten, with no regard to its
other lines. -/
structure Rewritten (c : Controller) (l : Line) (value : UInt32) (c' : Controller) : Prop where
  own : c'.resets l = value
  others : ∀ l', l.resetBit.register ≠ l'.resetBit.register → c'.resets l' = c.resets l'

namespace Rewritten

variable {l l' : Line} {c' : Controller}

lemma holds (h : Rewritten c l (c.resets l ||| l.mask) c') : c'.holds l = true := by
  simp [Controller.holds, h.own, l.or_mask_and_mask, l.mask_ne_zero]

lemma not_holds (h : Rewritten c l (c.resets l &&& ~~~l.mask) c') : c'.holds l = false := by
  simp [Controller.holds, h.own, UInt32.and_assoc]

lemma holds_other {value : UInt32} (h : Rewritten c l value c')
    (hne : l.resetBit.register ≠ l'.resetBit.register) : c'.holds l' = c.holds l' := by
  simp only [Controller.holds, h.others l' hne]

end Rewritten

/-- A program rewrites the register of a line, or it fails and leaves all registers alone. -/
def Rewrites (p : Prog (Except ResetError Unit)) (l : Line) (value : UInt32) (c : Controller) :
    Prop :=
  ∃ r c', p.run handler c = (.ok r, c') ∧
    match r with
    | .ok () => Rewritten c l value c'
    | .error _ => c'.iprst = c.iprst

lemma Rewrites.of_window {p : Prog (Except ResetError Unit)} {l : Line} {value : UInt32}
    {c' : Controller} (hopen : c'.isOpen = true)
    (hsame : ∀ l', l.resetBit.register ≠ l'.resetBit.register → c'.resets l' = c.resets l')
    (hrun : p.run handler c =
      if c.refuses then (.ok (.error .lockStuck), { c with progress := 0 })
      else (.ok (.ok ()), (c'.rewrite l value).closedUnless c.isOpen)) :
    Rewrites p l value c := by
  by_cases hrefuses : c.refuses = true
  · exact ⟨.error .lockStuck, _, hrun.trans (if_pos hrefuses), rfl⟩
  · refine ⟨.ok (), _, hrun.trans (if_neg hrefuses), ?_, ?_⟩
    · rw [resets_congr (iprst_closedUnless _ _), resets_rewrite hopen, if_pos rfl]
    · intro l' hne
      rw [resets_congr (iprst_closedUnless _ _), resets_rewrite hopen, if_neg hne, hsame l' hne]

lemma resets_opened (c : Controller) (l : Line) : c.opened.resets l = c.resets l :=
  resets_congr c.iprst_opened l

lemma enterReset_rewrites (l : Line) (c : Controller) :
    Rewrites (enterReset l) l (c.resets l ||| l.mask) c := by
  apply Rewrites.of_window c.isOpen_opened
  · intro l' _
    exact resets_opened c l'
  · simpa only [resets_opened] using run_enterReset l c

lemma leaveReset_rewrites (l : Line) (c : Controller) :
    Rewrites (leaveReset l) l (c.resets l &&& ~~~l.mask) c := by
  apply Rewrites.of_window c.isOpen_opened
  · intro l' _
    exact resets_opened c l'
  · simpa only [resets_opened] using run_leaveReset l c

lemma pulseReset_rewrites (l : Line) (c : Controller) :
    Rewrites (pulseReset l) l (c.resets l &&& ~~~l.mask) c := by
  apply Rewrites.of_window (isOpen_rewrite c.isOpen_opened l (c.resets l ||| l.mask))
  · intro l' hne
    rw [resets_rewrite c.isOpen_opened, if_neg hne, resets_opened]
  · simpa only [resets_opened] using run_pulseReset l c

/-!
### Accesses that are answered
-/

/-- An access to a register that exists. -/
def Served : Access Register → Prop
  | .read (.iprst i) | .write (.iprst i) _ => i.toNat < 4
  | _ => True

lemma Controller.handler_of_served {q : Access Register} (hq : Served q) (c : Controller) :
    ∃ r c', handler q c = (.ok r, c') := by
  match q, hq with
  | .read (.iprst i), hq =>
    have hq : i.toNat < 4 := hq
    exact ⟨_, _, dif_pos hq⟩
  | .write (.iprst i) v, hq =>
    have hq : i.toNat < 4 := hq
    simp only [handler, writeIprst, hq, dif_pos]
    split <;> exact ⟨_, _, rfl⟩
  | .read .reglctl, _ | .write .reglctl _, _ | .pause, _ => exact ⟨_, _, rfl⟩

lemma withOpen_all {P : Access Register → Prop} {body : Prog α} (hread : P (.read .reglctl))
    (hwrite : ∀ word, P (.write .reglctl word)) (hbody : body.All P) : (withOpen body).All P := by
  have hopen : isOpen.All P := ⟨hread, fun _ => trivial⟩
  have hunlock : (writeAll unlockSequence).All P :=
    ⟨hwrite _, fun _ => ⟨hwrite _, fun _ => ⟨hwrite _, fun _ => trivial⟩⟩⟩
  rw [withOpen]
  apply Program.all_bind hopen
  intro wasOpen
  split
  · exact Program.all_bind hbody fun _ => trivial
  apply Program.all_bind hunlock
  intro _
  apply Program.all_bind hopen
  intro opened
  split
  · exact Program.all_bind hbody fun _ => ⟨hwrite 0, fun _ => trivial⟩
  · trivial

lemma leaveReset_served (l : Line) : (leaveReset l).All Served :=
  withOpen_all trivial (fun _ => trivial)
    ⟨l.register_lt, fun _ => ⟨l.register_lt, fun _ => trivial⟩⟩

lemma enterReset_served (l : Line) : (enterReset l).All Served :=
  withOpen_all trivial (fun _ => trivial)
    ⟨l.register_lt, fun _ => ⟨l.register_lt, fun _ => trivial⟩⟩

end Intercore.Reset
