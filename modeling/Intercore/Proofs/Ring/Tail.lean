import Intercore.Proofs.Ring.Runs
import Mathlib.Data.Nat.Count

/-!
# What a trace ring holds

A trace ring holds the newest runs of its log, each in the slot after that of the run before it. So the
state of the ring is known from the runs alone, however long the log is.
-/

namespace Intercore

variable {α : Type} {n : Nat}

/-- The run that an entry stands for. -/
def Entry.run (e : Entry α) : Ring.Run α := ⟨⟨e.line, e.payload⟩, e.count.toNat⟩

namespace Ring

/-- Makes calls one after the other. -/
def entries [DecidableEq α] (calls : List (Call α)) (r : Ring α n) : Except Fault (Ring α n) :=
  calls.foldlM (fun r c => r.entry c.line c.payload) r

/-- How often slot `j` of `n` is taken when so many runs are placed, each in the slot after the one
before. -/
def taken (n count j : Nat) : Nat := Nat.count (fun k => k % n = j) count

/-- The ring is the tail of these runs, which are given newest first. -/
structure IsTail (blank : α) (rs : List (Run α)) (r : Ring α n) : Prop where
  last : r.last = if rs = [] then none else some (.ofNat ((rs.length - 1) % n))
  recent : ∀ i < min n rs.length, r.slots[(rs.length - 1 - i) % n]?.map Entry.run = rs[i]?
  generation : ∀ j (hj : j < n), r.slots[j].generation = .ofNat (taken n rs.length j)
  /-- Slots that were never taken are as they were. -/
  untouched : ∀ j (hj : j < n), taken n rs.length j = 0 → r.slots[j] = ⟨0, 0, 0, blank⟩

/-!
### The order of the slots
-/

lemma taken_succ (n count j : Nat) :
    taken n (count + 1) j = taken n count j + if count % n = j then 1 else 0 :=
  Nat.count_succ _ _

lemma taken_pos {k count : Nat} (hk : k < count) : 0 < taken n count (k % n) := by
  rw [taken, Nat.pos_iff_ne_zero, Nat.count_ne_iff_exists]
  exact ⟨k, hk, rfl⟩

/-- Runs that are less than a round apart are in different slots. -/
lemma mod_ne_of_sub {m d : Nat} (hpos : 0 < d) (hlt : d < n) (hle : d ≤ m) :
    (m - d) % n ≠ m % n := by
  intro h
  have hzero := Nat.sub_mod_eq_zero_of_mod_eq h.symm
  rw [Nat.sub_sub_self hle, Nat.mod_eq_of_lt hlt] at hzero
  exact Nat.ne_of_gt hpos hzero

lemma succ_mod (m : Nat) (hn : 0 < n) :
    (m + 1) % n = if m % n + 1 ≥ n then 0 else m % n + 1 := by
  have hlt := Nat.mod_lt m hn
  rw [← Nat.mod_add_mod]
  split
  case isTrue hge => rw [show m % n + 1 = n by omega, Nat.mod_self]
  case isFalse hlt => exact Nat.mod_eq_of_lt (by omega)

/-!
### One call
-/

/-- What becomes of the ring when slot `i` is taken. -/
def take (r : Ring α n) (i : Fin n) (c : Call α) : Ring α n :=
  let old := getElem r.slots i i.isLt
  ⟨some (.ofNat i), r.slots.set i ⟨c.line, old.generation + 1, 1, c.payload⟩ i.isLt⟩

/-- What becomes of the ring when one more call is counted in slot `i`. -/
def countUp (r : Ring α n) (i : Fin n) : Ring α n :=
  let old := getElem r.slots i i.isLt
  { r with slots := r.slots.set i { old with count := old.count + 1 } i.isLt }

lemma push_eq {r : Ring α n} {i : Fin n} (h : successor r.lastIndex n = i) (c : Call α) :
    r.push c.line c.payload = .ok (r.take i c) := by
  simp [push, h, take]

section Entry

variable [DecidableEq α]

lemma repeats_iff {e : Entry α} {c : Call α} :
    repeats e c.line c.payload = true ↔ e.run.call = c ∧ e.run.length < runLimit := by
  obtain ⟨line, payload⟩ := c
  simp only [repeats, Entry.run, runLimit, Bool.and_eq_true, decide_eq_true_eq, Call.mk.injEq,
    Nat.lt_sub_iff_add_lt]

lemma entry_of_wild {r : Ring α n} (h : n ≤ r.lastIndex.toNat) (c : Call α) :
    r.entry c.line c.payload = r.push c.line c.payload :=
  dif_neg (Nat.not_lt.mpr h)

lemma entry_of_last {r : Ring α n} {i : Fin n} (h : r.lastIndex.toNat = i) (c : Call α) :
    r.entry c.line c.payload =
      if repeats r.slots[i] c.line c.payload then .ok (r.countUp i)
      else r.push c.line c.payload := by
  simp [entry, h, countUp]

lemma successor_lt (hn : 0 < n) (last : UInt64) : successor last n < n := by
  rw [successor]
  split
  · exact hn
  · omega

/-- A call is recorded whatever the ring holds. -/
lemma exists_entry (hn : 0 < n) (r : Ring α n) (c : Call α) :
    ∃ r', r.entry c.line c.payload = .ok r' := by
  have hpush := push_eq (r := r) (i := ⟨_, successor_lt hn r.lastIndex⟩) rfl c
  by_cases hlast : r.lastIndex.toNat < n
  · rw [entry_of_last (i := ⟨_, hlast⟩) rfl]
    split
    · exact ⟨_, rfl⟩
    · exact ⟨_, hpush⟩
  · rw [entry_of_wild (Nat.le_of_not_lt hlast)]
    exact ⟨_, hpush⟩

end Entry

lemma run_count_succ {e : Entry α} (h : e.run.length < runLimit) :
    { e with count := e.count + 1 }.run = ⟨e.run.call, e.run.length + 1⟩ := by
  have hcount : (e.count + 1).toNat = e.count.toNat + 1 := by
    rw [UInt32.toNat_add]
    exact Nat.mod_eq_of_lt (Nat.add_lt_of_lt_sub h)
  rw [Entry.run, hcount]
  rfl

namespace IsTail

variable {blank : α} {rs older : List (Run α)} {run : Run α} {r : Ring α n}

lemma empty (blank : α) (n : Nat) : (Ring.empty blank n).IsTail blank [] where
  last := rfl
  recent := by simp
  generation := by simp [Ring.empty, taken]
  untouched := by simp [Ring.empty]

lemma toNat_lastIndex (h : r.IsTail blank (run :: older)) (hn : 0 < n) (hword : n < UInt64.size) :
    r.lastIndex.toNat = older.length % n := by
  have hlt := Nat.mod_lt older.length hn
  have hlast : r.lastIndex = .ofNat (older.length % n) := by simp [lastIndex, h.last]
  rw [hlast, UInt64.toNat_ofNat_of_lt' (by omega)]

/-- The next run goes to the slot after that of the newest one, and the first one to slot zero. -/
lemma successor_lastIndex (h : r.IsTail blank rs) (hn : 0 < n) (hword : n < UInt64.size) :
    successor r.lastIndex n = rs.length % n := by
  cases rs with
  | nil =>
    have hwrap : (r.lastIndex + 1).toNat = 0 := by
      rw [lastIndex, h.last, if_pos rfl]
      rfl
    simp [successor, hwrap]
  | cons run older =>
    have hlast := h.toNat_lastIndex hn hword
    have hlt := Nat.mod_lt older.length hn
    have hnext : (r.lastIndex + 1).toNat = older.length % n + 1 := by
      rw [UInt64.toNat_add, hlast]
      exact Nat.mod_eq_of_lt (Nat.lt_of_le_of_lt hlt hword)
    rw [successor, hnext, List.length_cons, succ_mod _ hn]

/-- The newest run is in the slot that is the last one. -/
lemma newest (h : r.IsTail blank (run :: older)) {i : Fin n} (hi : older.length % n = i) :
    r.slots[i].run = run := by
  have hrecent := h.recent 0 (by simp [i.pos])
  simpa [hi] using hrecent

lemma take (h : r.IsTail blank rs) {i : Fin n} (hi : rs.length % n = i) (c : Call α) :
    (r.take i c).IsTail blank (⟨c, 1⟩ :: rs) where
  last := by simp [Ring.take, hi]
  recent := by
    intro k hk
    cases k with
    | zero => simp [Ring.take, hi, Entry.run]
    | succ k =>
      have hk' : k + 1 < n ∧ k + 1 < rs.length + 1 := by simpa using hk
      have hold := h.recent k (by omega)
      have hother : (rs.length - (k + 1)) % n ≠ rs.length % n :=
        mod_ne_of_sub (Nat.succ_pos k) hk'.1 (by omega)
      rw [Nat.sub_sub, Nat.add_comm 1 k] at hold
      simpa [Ring.take, Vector.getElem?_set, ← hi, hother.symm] using hold
  generation := by
    intro j hj
    rw [List.length_cons, taken_succ, hi]
    by_cases hij : i.val = j
    · subst hij
      simp [Ring.take, h.generation i i.isLt]
    · simp [Ring.take, hij, h.generation j hj]
  untouched := by
    intro j hj hzero
    rw [List.length_cons, taken_succ, Nat.add_eq_zero_iff] at hzero
    have hij : i.val ≠ j := by
      rintro rfl
      simp [hi] at hzero
    simpa [Ring.take, hij] using h.untouched j hj hzero.1

lemma countUp (h : r.IsTail blank (run :: older)) {i : Fin n} (hi : older.length % n = i)
    (hlt : run.length < runLimit) :
    (r.countUp i).IsTail blank (⟨run.call, run.length + 1⟩ :: older) where
  last := by simpa [Ring.countUp] using h.last
  recent := by
    intro k hk
    cases k with
    | zero =>
      have hcounted : r.slots[i].run = run := h.newest hi
      rw [← hcounted] at hlt ⊢
      simpa [Ring.countUp, hi] using run_count_succ hlt
    | succ k =>
      have hk' : k + 1 < n ∧ k + 1 < older.length + 1 := by simpa using hk
      have hold := h.recent (k + 1) (by simpa using hk)
      have hother : (older.length - (k + 1)) % n ≠ older.length % n :=
        mod_ne_of_sub (Nat.succ_pos k) hk'.1 (by omega)
      simpa [Ring.countUp, Vector.getElem?_set, ← hi, hother.symm] using hold
  generation := by
    intro j hj
    by_cases hij : i.val = j
    · subst hij
      simpa [Ring.countUp] using h.generation i i.isLt
    · simpa [Ring.countUp, hij] using h.generation j hj
  untouched := by
    intro j hj hzero
    have hij : i.val ≠ j := by
      rintro rfl
      have hpos : 0 < taken n (older.length + 1) (older.length % n) :=
        taken_pos (Nat.lt_succ_self _)
      rw [hi] at hpos
      exact Nat.ne_of_gt hpos hzero
    simpa [Ring.countUp, hij] using h.untouched j hj hzero

/-- One more call makes of the ring what it makes of the runs. -/
lemma entry [DecidableEq α] (h : r.IsTail blank rs) (hn : 0 < n) (hword : n < UInt64.size)
    (c : Call α) :
    ∃ r', r.entry c.line c.payload = .ok r' ∧ r'.IsTail blank (addCall rs c) := by
  have hslot (m : Nat) : ∃ i : Fin n, m % n = i := ⟨⟨_, Nat.mod_lt m hn⟩, rfl⟩
  obtain ⟨next, hnext⟩ := hslot rs.length
  have hpush := push_eq ((h.successor_lastIndex hn hword).trans hnext) c
  cases rs with
  | nil =>
    have hwild : n ≤ r.lastIndex.toNat := by
      rw [lastIndex, h.last, if_pos rfl]
      exact Nat.le_of_lt_succ hword
    rw [entry_of_wild hwild, hpush]
    exact ⟨_, rfl, h.take hnext c⟩
  | cons run older =>
    obtain ⟨i, hi⟩ := hslot older.length
    rw [entry_of_last ((h.toNat_lastIndex hn hword).trans hi), addCall]
    simp only [repeats_iff, h.newest hi]
    split
    case isTrue hsame =>
      obtain ⟨rfl, hlt⟩ := hsame
      exact ⟨_, rfl, h.countUp hi hlt⟩
    case isFalse => exact ⟨_, hpush, h.take hnext c⟩

end IsTail

/-!
### Any number of calls
-/

variable [DecidableEq α] {blank : α} {rs : List (Run α)} {r : Ring α n}

lemma IsTail.entries (h : r.IsTail blank rs) (hn : 0 < n) (hword : n < UInt64.size)
    (calls : List (Call α)) :
    ∃ r', r.entries calls = .ok r' ∧ r'.IsTail blank (calls.foldl addCall rs) := by
  induction calls generalizing r rs with
  | nil => exact ⟨r, rfl, h⟩
  | cons c calls ih =>
    obtain ⟨r₁, hr₁, h₁⟩ := h.entry hn hword c
    obtain ⟨r', hr', h'⟩ := ih h₁
    refine ⟨r', ?_, h'⟩
    rw [Ring.entries, List.foldlM_cons, hr₁]
    exact hr'

lemma exists_isTail (blank : α) (hn : 0 < n) (hword : n < UInt64.size) (calls : List (Call α)) :
    ∃ r, (empty blank n).entries calls = .ok r ∧ r.IsTail blank (runs calls) :=
  (IsTail.empty blank n).entries hn hword calls

/-- Whatever calls are made on a fresh ring, they have one list of runs, and the ring is the tail of
it. Its capacity is any that an index can reach. -/
theorem tail_of_runs (blank : α) (hn : 0 < n) (hword : n < UInt64.size) (calls : List (Call α)) :
    (∀ rs, AreRuns rs calls ↔ rs = runs calls) ∧
      ∃ r, (empty blank n).entries calls = .ok r ∧ r.IsTail blank (runs calls) :=
  ⟨fun _ => areRuns_iff, exists_isTail blank hn hword calls⟩

/-- Five runs in three slots; the last call repeats the one before it. -/
theorem tail_of_runs_wrapped :
    0 < 3 ∧ 3 < UInt64.size ∧
      ∃ r : Ring Nat 3, (empty 0 3).entries ([7, 8, 9, 7, 6, 6].map (Call.mk 1)) = .ok r ∧
        r.IsTail 0 [⟨⟨1, 6⟩, 2⟩, ⟨⟨1, 7⟩, 1⟩, ⟨⟨1, 9⟩, 1⟩, ⟨⟨1, 8⟩, 1⟩, ⟨⟨1, 7⟩, 1⟩] :=
  ⟨by decide, by decide,
    (tail_of_runs 0 (by decide) (by decide) ([7, 8, 9, 7, 6, 6].map (Call.mk 1))).2⟩

end Ring

end Intercore
