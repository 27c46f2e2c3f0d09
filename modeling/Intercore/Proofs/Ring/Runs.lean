import Intercore.Ring
import Mathlib.Data.List.Chain
import Mathlib.Tactic.Lemma

/-!
# Runs

The log of a trace ring, with equal calls that follow each other taken together as long as a counter
can hold their number. The runs of a log are said twice, by what they are and by how they come about
call after call, and `areRuns_iff` is that these agree.
-/

namespace Intercore.Ring

/-- What is asked to be recorded. -/
structure Call (α : Type) where
  line : UInt16
  payload : α
  deriving DecidableEq, Repr

/-- Equal calls, one directly after the other. -/
structure Run (α : Type) where
  call : Call α
  length : Nat
  deriving DecidableEq, Repr

variable {α : Type}

def Run.calls (r : Run α) : List (Call α) := .replicate r.length r.call

/-- How many calls a run has at most. -/
def runLimit : Nat := UInt32.size - 1

/-- The runs of a log, newest first. They make up the log, and each of them goes on until another
call comes or the limit is reached. -/
structure AreRuns (rs : List (Run α)) (calls : List (Call α)) : Prop where
  calls_eq : rs.reverse.flatMap Run.calls = calls
  length_pos : ∀ r ∈ rs, 0 < r.length
  length_le : ∀ r ∈ rs, r.length ≤ runLimit
  ends : rs.IsChain fun next r => next.call = r.call → r.length = runLimit

/-- A call cannot go on with the newest of these runs. -/
def Breaks (c : Call α) (rs : List (Run α)) : Prop :=
  ∀ r ∈ rs.head?, c = r.call → r.length = runLimit

variable {rs : List (Run α)} {r : Run α} {c : Call α} {calls : List (Call α)}

namespace AreRuns

lemma nil : AreRuns ([] : List (Run α)) [] := ⟨rfl, by simp, by simp, .nil⟩

/-- Without its newest run a log ends where that run begins. -/
lemma newest (h : AreRuns (r :: rs) calls) :
    ∃ earlier, AreRuns rs earlier ∧ calls = earlier ++ r.calls ∧ Breaks r.call rs := by
  refine ⟨rs.reverse.flatMap Run.calls, ⟨rfl, ?_, ?_, h.ends.tail⟩, ?_, ?_⟩
  · exact fun r' hr' => h.length_pos r' (List.mem_cons_of_mem r hr')
  · exact fun r' hr' => h.length_le r' (List.mem_cons_of_mem r hr')
  · simp [← h.calls_eq]
  · exact fun r' hr' => h.ends.rel_head? hr'

lemma begin_run (h : AreRuns rs calls) (hc : Breaks c rs) :
    AreRuns (⟨c, 1⟩ :: rs) (calls ++ [c]) where
  calls_eq := by simp [h.calls_eq, Run.calls]
  length_pos := by simpa using h.length_pos
  length_le := by simpa [runLimit] using h.length_le
  ends := h.ends.cons hc

lemma continue_run (h : AreRuns (r :: rs) calls) (hlt : r.length < runLimit) :
    AreRuns (⟨r.call, r.length + 1⟩ :: rs) (calls ++ [r.call]) := by
  obtain ⟨earlier, hrs, rfl, hbreaks⟩ := h.newest
  exact
    { calls_eq := by simp [hrs.calls_eq, Run.calls, List.replicate_succ']
      length_pos := by simpa using hrs.length_pos
      length_le := by simpa [Nat.succ_le_iff, hlt] using hrs.length_le
      ends := hrs.ends.cons hbreaks }

end AreRuns

/-!
### Call after call
-/

variable [DecidableEq α]

/-- One more call goes on with the newest run, if that has the same call and is below the limit, and
else begins a run of its own. -/
def addCall (rs : List (Run α)) (c : Call α) : List (Run α) :=
  match rs with
  | [] => [⟨c, 1⟩]
  | r :: older =>
    if r.call = c ∧ r.length < runLimit then ⟨c, r.length + 1⟩ :: older else ⟨c, 1⟩ :: r :: older

/-- The runs of a log, newest first. -/
def runs (calls : List (Call α)) : List (Run α) := calls.foldl addCall []

@[simp] lemma runs_concat : runs (calls ++ [c]) = addCall (runs calls) c := by simp [runs]

lemma addCall_of_breaks (h : Breaks c rs) : addCall rs c = ⟨c, 1⟩ :: rs := by
  cases rs with
  | nil => rfl
  | cons r older =>
    refine if_neg ?_
    rintro ⟨hcall, hlt⟩
    have hlimit := h r rfl hcall.symm
    exact Nat.lt_irrefl _ (hlimit ▸ hlt)

lemma addCall_of_continues (hlt : r.length < runLimit) :
    addCall (r :: rs) r.call = ⟨r.call, r.length + 1⟩ :: rs := if_pos ⟨rfl, hlt⟩

/-- A run comes out of its calls. -/
lemma foldl_addCall_calls (h : Breaks r.call rs) (hpos : 0 < r.length)
    (hle : r.length ≤ runLimit) : r.calls.foldl addCall rs = r :: rs := by
  obtain ⟨c, k⟩ := r
  simp only [Run.calls] at h hpos hle ⊢
  induction k, hpos using Nat.le_induction with
  | base => simp [addCall_of_breaks h]
  | succ k hpos ih =>
    rw [List.replicate_succ', List.foldl_concat, ih (by omega)]
    exact addCall_of_continues (r := ⟨c, k⟩) hle

lemma AreRuns.addCall (h : AreRuns rs calls) (c : Call α) :
    AreRuns (addCall rs c) (calls ++ [c]) := by
  cases rs with
  | nil => exact h.begin_run (by simp [Breaks])
  | cons r older =>
    by_cases hsame : r.call = c ∧ r.length < runLimit
    · obtain ⟨rfl, hlt⟩ := hsame
      rw [addCall_of_continues hlt]
      exact h.continue_run hlt
    · have hbreaks : Breaks c (r :: older) := by
        rintro _ ⟨⟩ hcall
        have hle := h.length_le r List.mem_cons_self
        by_contra hne
        exact hsame ⟨hcall.symm, Nat.lt_of_le_of_ne hle hne⟩
      rw [addCall_of_breaks hbreaks]
      exact h.begin_run hbreaks

lemma areRuns_runs (calls : List (Call α)) : AreRuns (runs calls) calls := by
  induction calls using List.reverseRecOn with
  | nil => exact .nil
  | append_singleton calls c ih =>
    rw [runs_concat]
    exact ih.addCall c

lemma AreRuns.runs_eq (h : AreRuns rs calls) : runs calls = rs := by
  induction rs generalizing calls with
  | nil => simp [← h.calls_eq, runs]
  | cons r older ih =>
    obtain ⟨earlier, hearlier, rfl, hbreaks⟩ := h.newest
    rw [runs, List.foldl_append, ← runs, ih hearlier]
    exact foldl_addCall_calls hbreaks (h.length_pos r List.mem_cons_self)
      (h.length_le r List.mem_cons_self)

/-- The runs of a log are the only ones that it has. -/
lemma areRuns_iff : AreRuns rs calls ↔ rs = runs calls := by
  constructor
  · intro h
    exact h.runs_eq.symm
  · rintro rfl
    exact areRuns_runs calls

end Intercore.Ring
