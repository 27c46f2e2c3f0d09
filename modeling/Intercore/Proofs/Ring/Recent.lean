import Intercore.Proofs.Ring.Tail
import Mathlib.Data.List.ReduceOption
import Mathlib.Data.List.Rotate

/-!
# What a trace ring shows

Read from the newest entry to the oldest, a trace ring shows the newest runs of its log. A slot that
was never written is told from the others by its generation, which is zero then. It is zero again
whenever the slot has been written a multiple of 2^16 times, and just these runs are left out.
-/

namespace Intercore

variable {α : Type} {n : Nat}

/-- The run that an entry shows, if its slot passes for written. -/
def Entry.run? (e : Entry α) : Option (Ring.Run α) :=
  if e.generation = 0 then none else some e.run

namespace Ring

/-- The generation of the slot with the `i`-th newest of so many runs has come round to zero. -/
def Forgotten (n count i : Nat) : Prop := UInt16.size ∣ taken n count ((count - 1 - i) % n)

instance (n count i : Nat) : Decidable (Forgotten n count i) := Nat.decidable_dvd _ _

/-- The newest `n` runs without those that are forgotten. -/
def remembered (n : Nat) (rs : List (Run α)) : List (Run α) :=
  ((rs.take n).mapIdx fun i run =>
    if Forgotten n rs.length i then none else some run).reduceOption

/-- All of the newest `n` runs are remembered exactly if none of them is forgotten. -/
lemma remembered_eq_take_iff {rs : List (Run α)} :
    remembered n rs = rs.take n ↔ ∀ i < min n rs.length, ¬ Forgotten n rs.length i := by
  rw [remembered]
  constructor
  · intro h i hi
    have hlength := congrArg List.length h
    rw [← List.length_mapIdx (l := rs.take n), List.reduceOption_length_eq_iff] at hlength
    have hlt : i < (rs.take n).length := by simpa using hi
    have hsome := hlength _ (List.mem_mapIdx.mpr ⟨i, hlt, rfl⟩)
    by_contra hforgotten
    simp [hforgotten] at hsome
  · intro h
    have hsome : ((rs.take n).mapIdx fun i run =>
        if Forgotten n rs.length i then none else some run) = (rs.take n).map some := by
      apply List.ext_getElem
      · simp
      · intro i hi _
        have hlt : i < min n rs.length := by simpa using hi
        simp [h i hlt]
    rw [hsome]
    simp [List.reduceOption]

/-!
### From the newest slot back
-/

/-- The slots, from the one before `start` back. -/
def back (r : Ring α n) (start : Nat) : List (Entry α) :=
  (r.slots.toList.drop start ++ r.slots.toList.take start).reverse

lemma getElem?_back {r : Ring α n} {start i : Nat} (hstart : start ≤ n) (hi : i < n) :
    (r.back start)[i]? = r.slots[(start + (n - 1 - i)) % n]? := by
  have hmod := Nat.mod_lt (n - 1 - i + start) (Nat.zero_lt_of_lt hi)
  rw [back, ← List.rotate_eq_drop_append_take (by simpa using hstart)]
  simp [hi, Nat.add_comm start]

lemma ofNat_eq_zero_iff {m : Nat} : UInt16.ofNat m = 0 ↔ UInt16.size ∣ m := by
  rw [← UInt16.toNat_inj, Nat.dvd_iff_mod_eq_zero]
  rfl

lemma taken_eq_zero {count j : Nat} (hj : count ≤ j) : taken n count j = 0 := by
  rw [taken, Nat.count_iff_forall_not]
  intro k hk hmod
  have hle := Nat.mod_le k n
  omega

lemma map_run_filter (l : List (Entry α)) :
    (l.filter fun e => e.generation ≠ 0).map Entry.run = (l.map Entry.run?).reduceOption := by
  induction l with
  | nil => rfl
  | cons e l ih =>
    by_cases h : e.generation = 0
    · simpa [Entry.run?, h] using ih
    · simpa [Entry.run?, h] using ih

namespace IsTail

variable {blank : α} {rs : List (Run α)} {r : Ring α n} {start i : Nat}

/-- First come the newest runs. -/
lemma back_of_lt (h : r.IsTail blank rs) (hstart : start ≤ n) (hmod : start % n = rs.length % n)
    (hi : i < min n rs.length) :
    (r.back start)[i]?.map Entry.run? =
      rs[i]?.map fun run => if Forgotten n rs.length i then none else some run := by
  have hi' : i < n ∧ i < rs.length := by simpa using hi
  have hslot := Nat.mod_lt (rs.length - 1 - i) (Nat.zero_lt_of_lt hi'.1)
  have hrecent := h.recent i hi
  have hgeneration := h.generation _ hslot
  rw [getElem?_back hstart hi'.1, Nat.add_mod, hmod, ← Nat.add_mod,
    show rs.length + (n - 1 - i) = rs.length - 1 - i + n by omega, Nat.add_mod_right, ← hrecent,
    Vector.getElem?_eq_getElem hslot]
  simp only [Option.map_some, Entry.run?, hgeneration, ofNat_eq_zero_iff, Forgotten]

/-- Behind the runs come the slots that were never taken. -/
lemma back_of_le (h : r.IsTail blank rs) (hstart : start ≤ n) (hmod : start % n = rs.length % n)
    (hi : i < n) (hle : rs.length ≤ i) : (r.back start)[i]?.map Entry.run? = some none := by
  have hlt : rs.length + (n - 1 - i) < n := by omega
  rw [getElem?_back hstart hi, Nat.add_mod, hmod, ← Nat.add_mod, Nat.mod_eq_of_lt hlt,
    Vector.getElem?_eq_getElem hlt, h.untouched _ hlt (taken_eq_zero (Nat.le_add_right _ _))]
  rfl

/-- What is left out of the slots is what is forgotten of the runs. -/
lemma map_run_filter_back (h : r.IsTail blank rs) (hstart : start ≤ n)
    (hmod : start % n = rs.length % n) :
    ((r.back start).filter fun e => e.generation ≠ 0).map Entry.run = remembered n rs := by
  have hback : (r.back start).map Entry.run? =
      ((rs.take n).mapIdx fun i run => if Forgotten n rs.length i then none else some run) ++
        .replicate (n - rs.length) none := by
    apply List.ext_getElem?
    intro i
    rw [List.getElem?_map, List.getElem?_append, List.getElem?_mapIdx, List.length_mapIdx,
      List.length_take]
    rcases Nat.lt_or_ge i n with hi | hi
    · by_cases hlt : i < rs.length
      · rw [if_pos (by omega), List.getElem?_take_of_lt hi]
        exact h.back_of_lt hstart hmod (by omega)
      · rw [if_neg (by omega), List.getElem?_replicate_of_lt (by omega)]
        exact h.back_of_le hstart hmod hi (by omega)
    · have hlength : (r.back start).length = n := by simp [back]; omega
      rw [if_neg (by omega), List.getElem?_eq_none (by omega), List.getElem?_eq_none]
      · rfl
      · simp
        omega
  rw [map_run_filter, hback, List.reduceOption_append, List.reduceOption_replicate_none,
    List.append_nil, remembered]

/-- The entries that are shown are those of the newest runs, as far as these are remembered. -/
lemma recent_eq (h : r.IsTail blank rs) (hn : 0 < n) (hword : n < UInt64.size) :
    ∃ es, r.recent = .ok es ∧ es.map Entry.run = remembered n rs := by
  cases rs with
  | nil =>
    refine ⟨_, ?_, h.map_run_filter_back (Nat.zero_le n) rfl⟩
    rw [Ring.recent, h.last, if_pos rfl]
    rfl
  | cons run older =>
    have hlt := Nat.mod_lt older.length hn
    have hindex : (UInt64.ofNat (older.length % n)).toNat = older.length % n :=
      UInt64.toNat_ofNat_of_lt' (by omega)
    have hmod : (older.length % n + 1) % n = (run :: older).length % n := Nat.mod_add_mod _ _ _
    refine ⟨_, ?_, h.map_run_filter_back hlt hmod⟩
    rw [Ring.recent, h.last, if_neg (List.cons_ne_nil run older), List.length_cons,
      Nat.add_sub_cancel]
    simp only [hindex]
    exact if_pos (by omega)

end IsTail

variable [DecidableEq α]

/-- Whatever calls are made on a fresh ring: it shows the newest `n` of their runs, newest first, except
for those that are forgotten, and shows nothing else. So it shows all of them exactly if none is
forgotten. -/
theorem recent_runs (blank : α) (hn : 0 < n) (hword : n < UInt64.size) (calls : List (Call α)) :
    ∃ (r : Ring α n) (es : List (Entry α)),
      (empty blank n).entries calls = .ok r ∧ r.recent = .ok es ∧
        es.map Entry.run = remembered n (runs calls) ∧
        (es.map Entry.run = (runs calls).take n ↔
          ∀ i < min n (runs calls).length, ¬ Forgotten n (runs calls).length i) := by
  obtain ⟨r, hentries, hr⟩ := exists_isTail blank hn hword calls
  obtain ⟨es, hrecent, hes⟩ := hr.recent_eq hn hword
  refine ⟨r, es, hentries, hrecent, hes, ?_⟩
  rw [hes, remembered_eq_take_iff]

/-- Three runs in two slots. -/
theorem recent_runs_wrapped :
    0 < 2 ∧ 2 < UInt64.size ∧
      ∃ (r : Ring Nat 2) (es : List (Entry Nat)),
        (empty 0 2).entries ([7, 8, 8, 9].map (Call.mk 1)) = .ok r ∧ r.recent = .ok es ∧
          es.map Entry.run = [⟨⟨1, 9⟩, 1⟩, ⟨⟨1, 8⟩, 2⟩] := by
  obtain ⟨r, es, hentries, hrecent, -, hall⟩ :=
    recent_runs 0 (n := 2) (by decide) (by decide) ([7, 8, 8, 9].map (Call.mk 1))
  exact ⟨by decide, by decide, r, es, hentries, hrecent, hall.mpr (by decide)⟩

/-- So many calls, no two of them equal. -/
def distinctCalls (k : Nat) : List (Call Nat) := (List.range k).map (Call.mk 1)

lemma runs_distinctCalls (k : Nat) :
    runs (distinctCalls k) = (distinctCalls k).reverse.map fun c => ⟨c, 1⟩ := by
  induction k with
  | zero => rfl
  | succ k ih =>
    have hnext : distinctCalls (k + 1) = distinctCalls k ++ [⟨1, k⟩] := by
      simp [distinctCalls, List.range_succ]
    have hbreaks : Breaks ⟨1, k⟩ (runs (distinctCalls k)) := by
      intro r hr hcall
      have hmem := List.mem_of_mem_head? hr
      rw [ih] at hmem
      simp only [distinctCalls, List.mem_map, List.mem_reverse, List.mem_range] at hmem
      obtain ⟨_, ⟨j, hj, rfl⟩, rfl⟩ := hmem
      cases hcall
      exact absurd hj (Nat.lt_irrefl k)
    rw [hnext, runs_concat, addCall_of_breaks hbreaks, ih]
    simp

/-- On a ring with one slot 2^16 calls that all differ leave nothing to be seen, not even the last one. -/
theorem recent_forgets_newest :
    ∃ r : Ring Nat 1, (empty 0 1).entries (distinctCalls UInt16.size) = .ok r ∧ r.recent = .ok [] ∧
      (runs (distinctCalls UInt16.size)).take 1 = [⟨⟨1, 65535⟩, 1⟩] := by
  have hruns : runs (distinctCalls UInt16.size) =
      ⟨⟨1, 65535⟩, 1⟩ :: runs (distinctCalls 65535) := by
    rw [runs_distinctCalls, runs_distinctCalls, distinctCalls, UInt16.size, List.range_succ]
    simp [distinctCalls]
  obtain ⟨r, hentries, hr⟩ :=
    exists_isTail 0 (n := 1) (by decide) (by decide) (distinctCalls UInt16.size)
  obtain ⟨es, hrecent, hes⟩ := hr.recent_eq (by decide) (by decide)
  have hlength : (runs (distinctCalls UInt16.size)).length = UInt16.size := by
    rw [runs_distinctCalls]
    simp [distinctCalls]
  have hforgotten : Forgotten 1 UInt16.size 0 := by simp [Forgotten, taken, Nat.mod_one]
  have hnone : es = [] := by
    rw [remembered, hlength, hruns] at hes
    simpa [hforgotten] using hes
  subst hnone
  exact ⟨r, hentries, hrecent, by rw [hruns, List.take_succ_cons, List.take_zero]⟩

end Ring

end Intercore
