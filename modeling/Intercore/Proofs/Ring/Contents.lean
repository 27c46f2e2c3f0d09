import Intercore.Proofs.Ring.Recent
import Mathlib.Data.List.FinRange

/-!
# Trace rings with any contents

A trace ring may hold anything: its slots are memory like any other, and the index of its newest entry
may point past them. A call is recorded in every such ring. It is counted on the entry that the index
points to, or it takes the slot after it, and afterwards the index points to a slot. What a ring shows
is its written slots, each of them once.
-/

namespace Intercore.Ring

variable {α : Type} {n : Nat}

def slot (r : Ring α n) (i : Fin n) : Entry α := getElem r.slots i i.isLt

/-- The slot of the newest entry, unless its index is absent or points past the slots. -/
def newest? (r : Ring α n) : Option (Fin n) :=
  r.last.bind fun l => if h : l.toNat < n then some ⟨l.toNat, h⟩ else none

/-- The slot that is taken next: round the ring from the newest entry on, or from slot zero on. -/
def next (hn : 0 < n) (r : Ring α n) : Fin n :=
  match r.newest? with
  | some i => ⟨(i + 1) % n, Nat.mod_lt _ hn⟩
  | none => ⟨0, hn⟩

/-- The entry is of the same call, and one more can be counted on it. -/
def Continues (c : Call α) (e : Entry α) : Prop :=
  e.line = c.line ∧ e.payload = c.payload ∧ e.count.toNat < UInt32.size - 1

/-- A call is counted in slot `i`, and nothing else changes. -/
structure CountedIn (i : Fin n) (r r' : Ring α n) : Prop where
  last : r'.last = r.last
  kept : r'.slot i = { r.slot i with count := (r'.slot i).count }
  count : (r'.slot i).count.toNat = (r.slot i).count.toNat + 1
  others : ∀ j, j ≠ i → r'.slot j = r.slot j

/-- A call takes slot `i`, and no other slot changes. -/
structure PlacedIn (i : Fin n) (c : Call α) (r r' : Ring α n) : Prop where
  newest : r'.newest? = some i
  taken : r'.slot i = ⟨c.line, (r.slot i).generation + 1, 1, c.payload⟩
  others : ∀ j, j ≠ i → r'.slot j = r.slot j

variable {r r' : Ring α n} {i j : Fin n} {c : Call α}

/-!
### The newest entry
-/

lemma newest?_eq_some_iff : r.newest? = some i ↔ ∃ l, r.last = some l ∧ l.toNat = i := by
  simp only [newest?, Option.bind_eq_some_iff]
  refine exists_congr fun l => and_congr_right fun _ => ?_
  simp only [Option.dite_none_right_eq_some, Option.some.injEq, Fin.ext_iff, exists_prop]
  omega

lemma toNat_lastIndex_of_newest? (h : r.newest? = some i) : r.lastIndex.toNat = i := by
  obtain ⟨l, hlast, hl⟩ := newest?_eq_some_iff.mp h
  rw [lastIndex, hlast]
  exact hl

lemma le_lastIndex_of_newest? (hword : n < UInt64.size) (h : r.newest? = none) :
    n ≤ r.lastIndex.toNat := by
  cases hlast : r.last with
  | none =>
    rw [lastIndex, hlast]
    exact Nat.le_of_lt_succ hword
  | some l =>
    rw [lastIndex, hlast]
    by_contra hlt
    have hsome : r.newest? = some ⟨l.toNat, Nat.lt_of_not_le hlt⟩ :=
      newest?_eq_some_iff.mpr ⟨l, hlast, rfl⟩
    rw [h] at hsome
    cases hsome

/-- Adding one goes round at the end of the ring, and an index past the ring goes to slot zero whether
or not the word goes round. -/
lemma successor_lastIndex_eq_next (hn : 0 < n) (hword : n < UInt64.size) :
    successor r.lastIndex n = r.next hn := by
  cases hnewest : r.newest? with
  | none =>
    have hwild := le_lastIndex_of_newest? hword hnewest
    have hsum := UInt64.toNat_add r.lastIndex 1
    have hlt := r.lastIndex.toNat_lt
    simp only [next, hnewest, successor]
    split
    case isTrue => rfl
    case isFalse hin =>
      simp only [UInt64.reduceToNat] at hsum
      omega
  | some i =>
    have hlast := toNat_lastIndex_of_newest? hnewest
    have hnext : (r.lastIndex + 1).toNat = i + 1 := by
      rw [UInt64.toNat_add, hlast]
      exact Nat.mod_eq_of_lt (Nat.lt_of_le_of_lt i.isLt hword)
    simp only [next, hnewest, successor, hnext, succ_mod _ hn, Nat.mod_eq_of_lt i.isLt]

/-!
### One call
-/

@[simp] lemma slot_countUp_self (r : Ring α n) (i : Fin n) :
    (r.countUp i).slot i = { r.slot i with count := (r.slot i).count + 1 } := by
  simp [countUp, slot]

lemma slot_countUp_of_ne (h : j ≠ i) : (r.countUp i).slot j = r.slot j := by
  have hne : i.val ≠ j.val := fun hij => h (Fin.ext hij.symm)
  simp [countUp, slot, hne]

@[simp] lemma slot_take_self (r : Ring α n) (i : Fin n) (c : Call α) :
    (r.take i c).slot i = ⟨c.line, (r.slot i).generation + 1, 1, c.payload⟩ := by
  simp [take, slot]

lemma slot_take_of_ne (h : j ≠ i) : (r.take i c).slot j = r.slot j := by
  have hne : i.val ≠ j.val := fun hij => h (Fin.ext hij.symm)
  simp [take, slot, hne]

lemma countedIn_countUp (h : Continues c (r.slot i)) : CountedIn i r (r.countUp i) where
  last := rfl
  kept := by rw [slot_countUp_self]
  count := by
    rw [slot_countUp_self, UInt32.toNat_add]
    exact Nat.mod_eq_of_lt (Nat.add_lt_of_lt_sub h.2.2)
  others := fun _ hj => slot_countUp_of_ne hj

lemma placedIn_take (hword : n < UInt64.size) (i : Fin n) (c : Call α) (r : Ring α n) :
    PlacedIn i c r (r.take i c) where
  newest := by
    refine newest?_eq_some_iff.mpr ⟨_, rfl, ?_⟩
    exact UInt64.toNat_ofNat_of_lt' (Nat.lt_trans i.isLt hword)
  taken := slot_take_self r i c
  others := fun _ hj => slot_take_of_ne hj

lemma CountedIn.newest?_eq (h : CountedIn i r r') : r'.newest? = r.newest? := by
  rw [newest?, h.last, newest?]

section Entry

variable [DecidableEq α]

lemma repeats_iff_continues {e : Entry α} : repeats e c.line c.payload = true ↔ Continues c e := by
  simp only [repeats, Continues, Bool.and_eq_true, decide_eq_true_eq, Nat.lt_sub_iff_add_lt,
    and_assoc]

lemma entry_of_newest? (h : r.newest? = some i) (c : Call α) :
    r.entry c.line c.payload =
      if repeats (r.slot i) c.line c.payload then .ok (r.countUp i)
      else r.push c.line c.payload :=
  entry_of_last (toNat_lastIndex_of_newest? h) c

lemma entry_of_continues (hlast : r.newest? = some i) (h : Continues c (r.slot i)) :
    r.entry c.line c.payload = .ok (r.countUp i) := by
  rw [entry_of_newest? hlast, if_pos (repeats_iff_continues.mpr h)]

lemma entry_of_not_continues (hn : 0 < n) (hword : n < UInt64.size)
    (h : ∀ i, r.newest? = some i → ¬ Continues c (r.slot i)) :
    r.entry c.line c.payload = .ok (r.take (r.next hn) c) := by
  rw [← push_eq (successor_lastIndex_eq_next hn hword)]
  cases hlast : r.newest? with
  | none => exact entry_of_wild (le_lastIndex_of_newest? hword hlast) c
  | some i =>
    rw [entry_of_newest? hlast, if_neg]
    rw [repeats_iff_continues]
    exact h i hlast

lemma exists_entry_on (hn : 0 < n) (hword : n < UInt64.size) (r : Ring α n) (c : Call α) :
    ∃ r', r.entry c.line c.payload = .ok r' ∧ (∃ i, r'.newest? = some i) ∧
      ((∃ i, r.newest? = some i ∧ Continues c (r.slot i) ∧ CountedIn i r r') ∨
        ((∀ i, r.newest? = some i → ¬ Continues c (r.slot i)) ∧
          PlacedIn (r.next hn) c r r')) := by
  by_cases h : ∃ i, r.newest? = some i ∧ Continues c (r.slot i)
  · obtain ⟨i, hlast, hcontinues⟩ := h
    have hcounted := countedIn_countUp hcontinues
    exact ⟨_, entry_of_continues hlast hcontinues, ⟨i, hcounted.newest?_eq.trans hlast⟩,
      .inl ⟨i, hlast, hcontinues, hcounted⟩⟩
  · have hbreaks : ∀ i, r.newest? = some i → ¬ Continues c (r.slot i) :=
      fun i hlast hcontinues => h ⟨i, hlast, hcontinues⟩
    have hplaced := placedIn_take hword (r.next hn) c r
    exact ⟨_, entry_of_not_continues hn hword hbreaks, ⟨_, hplaced.newest⟩,
      .inr ⟨hbreaks, hplaced⟩⟩

end Entry

/-!
### What is shown
-/

/-- The slots from the one before `start` back, by their indices. -/
def indicesBack (n start : Nat) : List (Fin n) :=
  ((List.finRange n).drop start ++ (List.finRange n).take start).reverse

lemma perm_indicesBack (n start : Nat) : (indicesBack n start).Perm (List.finRange n) := by
  refine (List.reverse_perm _).trans (List.perm_append_comm.trans ?_)
  rw [List.take_append_drop]

lemma back_eq_map (r : Ring α n) (start : Nat) :
    r.back start = (indicesBack n start).map r.slot := by
  have hslots : r.slots.toList = (List.finRange n).map r.slot := by
    apply List.ext_getElem <;> simp [slot]
  simp [back, indicesBack, hslots]

lemma exists_start_recent (h : r.last ≠ some (.ofNat (UInt64.size - 1))) :
    ∃ start, r.recent = .ok ((r.back start).filter fun e => e.generation ≠ 0) := by
  rw [recent]
  cases hlast : r.last with
  | none => exact ⟨0, rfl⟩
  | some l =>
    have hne : l.toNat ≠ UInt64.size - 1 := by
      intro hmax
      exact h (hlast.trans (congrArg some (UInt64.toNat_inj.mp hmax)))
    have hlt : l.toNat < UInt64.size := l.toNat_lt
    exact ⟨l.toNat + 1, if_pos (by omega)⟩

lemma exists_order_recent (h : r.last ≠ some (.ofNat (UInt64.size - 1))) :
    ∃ order : List (Fin n), order.Nodup ∧ (∀ i, i ∈ order ↔ (r.slot i).generation ≠ 0) ∧
      r.recent = .ok (order.map r.slot) := by
  obtain ⟨start, hrecent⟩ := exists_start_recent h
  have hperm := perm_indicesBack n start
  refine ⟨(indicesBack n start).filter fun i => (r.slot i).generation ≠ 0, ?_, ?_, ?_⟩
  · exact (hperm.nodup_iff.mpr (List.nodup_finRange n)).filter _
  · intro i
    simp [hperm.mem_iff]
  · rw [hrecent, back_eq_map, List.filter_map]
    rfl

/-- Whatever a ring holds, a call is recorded in it: the newest entry is counted up by one if the call
goes on with it, and else the next slot is taken. No other slot changes, and afterwards the newest
entry is in a slot. Unless the index of the newest entry is the largest word, the ring shows every
written slot, each of them once, and no other one. -/
theorem tolerates_any_contents [DecidableEq α] (hn : 0 < n) (hword : n < UInt64.size)
    (r : Ring α n) :
    (∀ c : Call α, ∃ r', r.entry c.line c.payload = .ok r' ∧ (∃ i, r'.newest? = some i) ∧
      ((∃ i, r.newest? = some i ∧ Continues c (r.slot i) ∧ CountedIn i r r') ∨
        ((∀ i, r.newest? = some i → ¬ Continues c (r.slot i)) ∧
          PlacedIn (r.next hn) c r r'))) ∧
      (r.last ≠ some (.ofNat (UInt64.size - 1)) →
        ∃ order : List (Fin n), order.Nodup ∧ (∀ i, i ∈ order ↔ (r.slot i).generation ≠ 0) ∧
          r.recent = .ok (order.map r.slot)) :=
  ⟨exists_entry_on hn hword r, exists_order_recent⟩

/-- A ring whose index points past its slots, with a generation and a count that can go no higher. -/
def wild : Ring Nat 2 :=
  ⟨some 7, #v[⟨1, 65535, 5, 9⟩, ⟨2, 0, 0xFFFFFFFF, 8⟩]⟩

theorem tolerates_any_contents_wild :
    0 < 2 ∧ 2 < UInt64.size ∧ wild.last ≠ some (.ofNat (UInt64.size - 1)) ∧
      (∃ r', wild.entry 2 8 = .ok r' ∧ r'.newest? = some 0 ∧ r'.slot 0 = ⟨2, 0, 1, 8⟩ ∧
        r'.slot 1 = ⟨2, 0, 0xFFFFFFFF, 8⟩) ∧
      ∃ order : List (Fin 2), order.Nodup ∧ (∀ i, i ∈ order ↔ (wild.slot i).generation ≠ 0) ∧
        wild.recent = .ok (order.map wild.slot) := by
  have hlast : wild.last ≠ some (.ofNat (UInt64.size - 1)) := by decide
  obtain ⟨hentry, hrecent⟩ := tolerates_any_contents (by decide) (by decide) wild
  refine ⟨by decide, by decide, hlast, ?_, hrecent hlast⟩
  obtain ⟨r', hr', -, ⟨i, hi, -⟩ | ⟨-, hplaced⟩⟩ := hentry ⟨2, 8⟩
  · exact absurd hi (by simp [newest?, wild])
  · exact ⟨r', hr', hplaced.newest, hplaced.taken, hplaced.others 1 (by decide)⟩

end Intercore.Ring
