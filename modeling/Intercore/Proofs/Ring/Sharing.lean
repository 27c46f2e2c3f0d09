import Intercore.Proofs.Ring.Tail

/-!
# A trace ring in several hands

A ring is recorded into by whoever has something to record, and it is lent to whoever asks while it is
free. Neither of them waits: a record that finds the ring lent out is dropped and counted, and a borrow is
refused.

The flag of the cell tells whether a borrow is live, and every attempt sets it. So it is said without the
flag which borrows are live: those that were granted and have not ended.
-/

namespace Intercore

namespace Cell

variable {β : Type} {c : Cell β}

lemma tryBorrow_free (h : c.borrowed = false) : c.tryBorrow = (true, ⟨c.contents, true⟩) := by
  rw [tryBorrow, h]
  rfl

/-- An attempt sets the flag even if it fails, but then it is set already. -/
lemma tryBorrow_lent (h : c.borrowed = true) : c.tryBorrow = (false, c) := by
  obtain ⟨contents, borrowed⟩ := c
  subst h
  rfl

end Cell

namespace Sharing

/-- What is done with a ring that several holders share. -/
inductive Action (κ α : Type)
  | record (c : Ring.Call α)
  | tryBorrow (who : κ)
  | borrow (who : κ)
  /-- Makes an entry through a live borrow. -/
  | entry (who : κ) (c : Ring.Call α)
  /-- Ends a live borrow. -/
  | drop (who : κ)
  deriving DecidableEq, Repr

namespace Action

variable {κ α : Type}

abbrev Answer : Action κ α → Type
  | record _ | borrow _ | entry _ _ => Except Fault Unit
  | tryBorrow _ => Bool
  | drop _ => Unit

/-- What reaches the ring, by the borrows that are live. -/
def call? (live : List κ) : Action κ α → Option (Ring.Call α)
  | record c => if live.isEmpty then some c else none
  | entry _ c => some c
  | tryBorrow _ | borrow _ | drop _ => none

/-- Whether it is a record that is made while a borrow is live. -/
def isLost (live : List κ) : Action κ α → Bool
  | record _ => !live.isEmpty
  | tryBorrow _ | borrow _ | entry _ _ | drop _ => false

end Action

end Sharing

/-- A shared ring, and the holder of each borrow that was granted and has not ended. -/
structure Sharing (κ α : Type) (n : Nat) where
  ring : SharedRing α n
  live : List κ
  deriving DecidableEq, Repr

namespace Sharing

variable {κ α : Type} {n : Nat} [DecidableEq α]

/-- A cell with this ring, which nobody has borrowed. -/
def start (initial : Ring α n) (dropped : UInt32) : Sharing κ α n :=
  ⟨⟨⟨initial, false⟩, dropped⟩, []⟩

/-- Those who have a borrow may use it and end it, and anyone may do the rest. -/
def Allows (w : Sharing κ α n) : Action κ α → Prop
  | .entry who _ | .drop who => who ∈ w.live
  | .record _ | .tryBorrow _ | .borrow _ => True

instance [DecidableEq κ] (w : Sharing κ α n) (a : Action κ α) : Decidable (w.Allows a) :=
  match a with
  | .entry who _ | .drop who => inferInstanceAs (Decidable (who ∈ w.live))
  | .record _ | .tryBorrow _ | .borrow _ => .isTrue trivial

def act [DecidableEq κ] (w : Sharing κ α n) : (a : Action κ α) → a.Answer × Sharing κ α n
  | .record c =>
    let (r, ring) := w.ring.record c.line c.payload
    (r, { w with ring })
  | .tryBorrow who =>
    match w.ring.cell.tryBorrow with
    | (true, cell) => (true, ⟨{ w.ring with cell }, who :: w.live⟩)
    | (false, cell) => (false, { w with ring := { w.ring with cell } })
  | .borrow who =>
    match w.ring.cell.borrow with
    | (.ok (), cell) => (.ok (), ⟨{ w.ring with cell }, who :: w.live⟩)
    | (.error e, cell) => (.error e, { w with ring := { w.ring with cell } })
  | .entry _ c =>
    match w.ring.cell.contents.entry c.line c.payload with
    | .ok contents =>
      (.ok (), { w with ring := { w.ring with cell := { w.ring.cell with contents } } })
    | .error e => (.error e, w)
  | .drop who => ((), ⟨{ w.ring with cell := w.ring.cell.release }, w.live.erase who⟩)

/-- What was done, each time with the borrows that were live before. -/
abbrev Log (κ α : Type) := List (List κ × Action κ α)

/-- The calls that reached the ring: the entries made through a borrow, and the records made while no
borrow was live. -/
def Log.calls (log : Log κ α) : List (Ring.Call α) := log.filterMap fun e => e.2.call? e.1

/-- How many records were made while a borrow was live. -/
def Log.lost (log : Log κ α) : Nat := log.countP fun e => e.2.isLost e.1

/-- What becomes of a ring by any actions in any order. -/
inductive Course [DecidableEq κ] (initial : Ring α n) (dropped : UInt32) :
    Log κ α → Sharing κ α n → Prop
  | start : Course initial dropped [] (start initial dropped)
  | act {log : Log κ α} {w : Sharing κ α n} (h : Course initial dropped log w) (a : Action κ α)
      (ha : w.Allows a) : Course initial dropped (log ++ [(w.live, a)]) (w.act a).2

/-!
### What an action does
-/

section Act

variable [DecidableEq κ] {w : Sharing κ α n} {c : Ring.Call α} {r : Ring α n} {who : κ}

lemma act_record_free (hfree : w.ring.cell.borrowed = false)
    (hr : w.ring.cell.contents.entry c.line c.payload = .ok r) :
    w.act (.record c) = (.ok (), ⟨⟨⟨r, false⟩, w.ring.dropped⟩, w.live⟩) := by
  simp [act, SharedRing.record, Cell.tryBorrow_free hfree, hr, Cell.release]

lemma act_record_lent (hlent : w.ring.cell.borrowed = true) :
    w.act (.record c) = (.ok (), ⟨⟨w.ring.cell, w.ring.dropped + 1⟩, w.live⟩) := by
  simp [act, SharedRing.record, Cell.tryBorrow_lent hlent]

lemma act_tryBorrow_free (hfree : w.ring.cell.borrowed = false) :
    w.act (.tryBorrow who) =
      (true, ⟨⟨⟨w.ring.cell.contents, true⟩, w.ring.dropped⟩, who :: w.live⟩) := by
  simp [act, Cell.tryBorrow_free hfree]

lemma act_tryBorrow_lent (hlent : w.ring.cell.borrowed = true) :
    w.act (.tryBorrow who) = (false, w) := by
  simp [act, Cell.tryBorrow_lent hlent]

lemma act_borrow_free (hfree : w.ring.cell.borrowed = false) :
    w.act (.borrow who) =
      (.ok (), ⟨⟨⟨w.ring.cell.contents, true⟩, w.ring.dropped⟩, who :: w.live⟩) := by
  simp [act, Cell.borrow, Cell.tryBorrow_free hfree]

lemma act_borrow_lent (hlent : w.ring.cell.borrowed = true) :
    w.act (.borrow who) = (.error .alreadyBorrowed, w) := by
  simp [act, Cell.borrow, Cell.tryBorrow_lent hlent]

lemma act_entry (hr : w.ring.cell.contents.entry c.line c.payload = .ok r) :
    w.act (.entry who c) =
      (.ok (), ⟨⟨⟨r, w.ring.cell.borrowed⟩, w.ring.dropped⟩, w.live⟩) := by
  simp [act, hr]

/-- A record that finds the ring free borrows it, makes an entry and ends the borrow. So to be
interrupted in the middle of a record is one more order of actions. -/
lemma act_record_eq (hfree : w.ring.cell.borrowed = false) (who : κ) (c : Ring.Call α) :
    (w.act (.record c)).2 =
      (((w.act (.tryBorrow who)).2.act (.entry who c)).2.act (.drop who)).2 := by
  rw [act_tryBorrow_free hfree]
  cases hr : w.ring.cell.contents.entry c.line c.payload with
  | ok _ | error _ => simp [act, SharedRing.record, Cell.tryBorrow_free hfree, hr, Cell.release]

end Act

/-!
### Any number of actions
-/

/-- The flag, the borrows, the ring and the count are in step with what was done. -/
structure Accounted (initial : Ring α n) (dropped : UInt32) (log : Log κ α) (w : Sharing κ α n) :
    Prop where
  single : w.live.length ≤ 1
  borrowed : w.ring.cell.borrowed = !w.live.isEmpty
  contents : initial.entries log.calls = .ok w.ring.cell.contents
  dropped : w.ring.dropped = dropped + .ofNat log.lost

namespace Accounted

variable {initial : Ring α n} {dropped : UInt32} {log : Log κ α} {w w' : Sharing κ α n}

lemma start (initial : Ring α n) (dropped : UInt32) :
    Accounted initial dropped [] (start initial dropped : Sharing κ α n) where
  single := Nat.zero_le 1
  borrowed := rfl
  contents := rfl
  dropped := (UInt32.add_zero dropped).symm

lemma free_or_lent (h : Accounted initial dropped log w) :
    w.live = [] ∧ w.ring.cell.borrowed = false ∨
      (∃ holder, w.live = [holder]) ∧ w.ring.cell.borrowed = true := by
  have hborrowed := h.borrowed
  cases hlive : w.live with
  | nil =>
    rw [hlive] at hborrowed
    exact .inl ⟨rfl, hborrowed⟩
  | cons holder others =>
    have hsingle := h.single
    rw [hlive] at hborrowed hsingle
    have hothers : others.length = 0 := Nat.le_zero.mp (Nat.le_of_succ_le_succ hsingle)
    obtain rfl : others = [] := List.eq_nil_of_length_eq_zero hothers
    exact .inr ⟨⟨holder, rfl⟩, hborrowed⟩

/-- One more action, by what it adds to the ring and to the count. -/
lemma next (h : Accounted initial dropped log w) {a : Action κ α} (hsingle : w'.live.length ≤ 1)
    (hborrowed : w'.ring.cell.borrowed = !w'.live.isEmpty)
    (hcontents : w.ring.cell.contents.entries (a.call? w.live).toList = .ok w'.ring.cell.contents)
    (hdropped : w'.ring.dropped = w.ring.dropped + if a.isLost w.live then 1 else 0) :
    Accounted initial dropped (log ++ [(w.live, a)]) w' where
  single := hsingle
  borrowed := hborrowed
  contents := by
    have hcalls : Log.calls (log ++ [(w.live, a)]) = log.calls ++ (a.call? w.live).toList := by
      cases hcall : a.call? w.live <;> simp [Log.calls, hcall]
    have hbefore := h.contents
    rw [Ring.entries] at hbefore
    rw [hcalls, Ring.entries, List.foldlM_append, hbefore]
    exact hcontents
  dropped := by
    have hlost : Log.lost (log ++ [(w.live, a)]) = log.lost + if a.isLost w.live then 1 else 0 := by
      simp [Log.lost, List.countP_singleton]
    rw [hdropped, h.dropped, hlost, UInt32.add_assoc]
    split
    · rw [UInt32.ofNat_add]
      rfl
    · simp

/-- Whatever is done, everything stays in step. -/
lemma act [DecidableEq κ] (hn : 0 < n) (h : Accounted initial dropped log w) {a : Action κ α}
    (ha : w.Allows a) : Accounted initial dropped (log ++ [(w.live, a)]) (w.act a).2 := by
  cases a with
  | record c =>
    obtain ⟨r, hr⟩ := Ring.exists_entry hn w.ring.cell.contents c
    rcases h.free_or_lent with ⟨hlive, hfree⟩ | ⟨⟨holder, hlive⟩, hlent⟩
    · rw [act_record_free hfree hr]
      refine h.next h.single (by simp [hlive]) ?_ (by simp [Action.isLost, hlive])
      simpa [Action.call?, hlive, Ring.entries] using hr
    · rw [act_record_lent hlent]
      refine h.next h.single h.borrowed ?_ (by simp [Action.isLost, hlive])
      simp [Action.call?, hlive, Ring.entries]
      rfl
  | tryBorrow who =>
    rcases h.free_or_lent with ⟨hlive, hfree⟩ | ⟨-, hlent⟩
    · rw [act_tryBorrow_free hfree]
      exact h.next (by simp [hlive]) rfl rfl (by simp [Action.isLost])
    · rw [act_tryBorrow_lent hlent]
      exact h.next h.single h.borrowed rfl (by simp [Action.isLost])
  | borrow who =>
    rcases h.free_or_lent with ⟨hlive, hfree⟩ | ⟨-, hlent⟩
    · rw [act_borrow_free hfree]
      exact h.next (by simp [hlive]) rfl rfl (by simp [Action.isLost])
    · rw [act_borrow_lent hlent]
      exact h.next h.single h.borrowed rfl (by simp [Action.isLost])
  | entry who c =>
    obtain ⟨r, hr⟩ := Ring.exists_entry hn w.ring.cell.contents c
    rw [act_entry hr]
    refine h.next h.single h.borrowed ?_ (by simp [Action.isLost])
    simpa [Action.call?, Ring.entries] using hr
  | drop who =>
    have hlast : w.live.erase who = [] := by
      rcases h.free_or_lent with ⟨hlive, -⟩ | ⟨⟨holder, hlive⟩, -⟩
      · rw [hlive]
        rfl
      · have hwho : who ∈ w.live := ha
        rw [hlive, List.mem_singleton] at hwho
        rw [hlive, hwho, List.erase_cons_head]
    refine h.next ?_ ?_ rfl (by simp [Action.isLost, Sharing.act])
    · simp [Sharing.act, hlast]
    · simp [Sharing.act, hlast, Cell.release]

lemma of_course [DecidableEq κ] (hn : 0 < n) (h : Course initial dropped log w) :
    Accounted initial dropped log w := by
  induction h with
  | start => exact .start initial dropped
  | act _ a ha ih => exact ih.act hn ha

end Accounted

/-- However many holders there are and whatever they do: at most one borrow is live, and the flag tells
whether one is. To demand a borrow faults exactly then, and changes nothing. Records and entries never
fault. A record made while no borrow is live comes to a borrow, an entry and the end of the borrow. The
ring holds the entries made through a borrow and the records made while no borrow was live, in order, and
all other records were counted. -/
theorem accounts_for_every_entry [DecidableEq κ] (hn : 0 < n) {initial : Ring α n}
    {dropped : UInt32} {log : Log κ α} {w : Sharing κ α n} (h : Course initial dropped log w) :
    w.live.length ≤ 1 ∧
      (w.ring.cell.borrowed = true ↔ w.live ≠ []) ∧
      (∀ who, if w.live = [] then (w.act (.borrow who)).1 = .ok ()
        else w.act (.borrow who) = (.error .alreadyBorrowed, w)) ∧
      (∀ c, (w.act (.record c)).1 = .ok ()) ∧
      (∀ who c, (w.act (.entry who c)).1 = .ok ()) ∧
      (w.live = [] → ∀ who c, (w.act (.record c)).2 =
        (((w.act (.tryBorrow who)).2.act (.entry who c)).2.act (.drop who)).2) ∧
      initial.entries log.calls = .ok w.ring.cell.contents ∧
      w.ring.dropped = dropped + .ofNat log.lost := by
  have haccounted := Accounted.of_course hn h
  have hentry (c : Ring.Call α) := Ring.exists_entry hn w.ring.cell.contents c
  refine ⟨haccounted.single, ?_, ?_, ?_, ?_, ?_, haccounted.contents, haccounted.dropped⟩
  · simp [haccounted.borrowed]
  · intro who
    rcases haccounted.free_or_lent with ⟨hlive, hfree⟩ | ⟨⟨holder, hlive⟩, hlent⟩
    · rw [if_pos hlive, act_borrow_free hfree]
    · rw [if_neg (by simp [hlive]), act_borrow_lent hlent]
  · intro c
    obtain ⟨r, hr⟩ := hentry c
    rcases haccounted.free_or_lent with ⟨-, hfree⟩ | ⟨-, hlent⟩
    · rw [act_record_free hfree hr]
    · rw [act_record_lent hlent]
  · intro who c
    obtain ⟨r, hr⟩ := hentry c
    rw [act_entry hr]
  · intro hlive who c
    have hfree : w.ring.cell.borrowed = false := by simp [haccounted.borrowed, hlive]
    exact act_record_eq hfree who c

/-- Two holders get in each other's way: a record is lost, and two borrows are refused. -/
theorem accounts_for_every_entry_contended :
    0 < 2 ∧ ∃ (log : Log Bool Nat) (w : Sharing Bool Nat 2), Course (.empty 0 2) 5 log w ∧
      (Ring.empty 0 2).entries [⟨1, 7⟩, ⟨3, 9⟩, ⟨1, 7⟩] = .ok w.ring.cell.contents ∧
      w.ring.dropped = 6 := by
  have hstart : Course (Ring.empty 0 2) 5 [] (start (Ring.empty 0 2) 5 : Sharing Bool Nat 2) :=
    .start
  have hcourse := hstart
    |>.act (.record ⟨1, 7⟩) trivial
    |>.act (.borrow false) trivial
    |>.act (.record ⟨2, 8⟩) trivial
    |>.act (.borrow true) trivial
    |>.act (.tryBorrow true) trivial
    |>.act (.entry false ⟨3, 9⟩) (by decide)
    |>.act (.drop false) (by decide)
    |>.act (.tryBorrow true) trivial
    |>.act (.drop true) (by decide)
    |>.act (.record ⟨1, 7⟩) trivial
  obtain ⟨-, -, -, -, -, -, hcontents, hdropped⟩ := accounts_for_every_entry (by decide) hcourse
  exact ⟨by decide, _, _, hcourse, hcontents, hdropped⟩

end Sharing

end Intercore
