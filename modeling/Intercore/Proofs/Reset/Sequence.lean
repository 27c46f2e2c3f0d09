import Intercore.Proofs.Reset.Window
import Mathlib.Data.List.Infix
import Mathlib.Data.List.Nodup

/-!
# The sequence that opens the protection

When the write protection opens, in terms of what was written to it, with no regard to how far the
controller takes the sequence to have come.

No word stands twice in the sequence. So what was written ends with one beginning of it at most, the
empty one apart, and the progress is the length of that beginning. This is also why a word out of turn
leads back to one of two places only: it begins the sequence anew or it does not.

`opens_exactly_on_sequence` says so of every history of a fresh controller.
-/

namespace Intercore.Reset

open Controller

/-!
### Histories

The history of a controller is given newest first.
-/

/-- What may be done to a controller. -/
inductive Deed
  /-- A program accesses a register. -/
  | access (q : Access Register)
  /-- From now on the protection does not open, or opens again. -/
  | stick (stuck : Bool)
  /-- A bit is pulled as power-on does it. -/
  | pull (b : ResetBit)

namespace Deed

/-- What a deed makes of a controller. One that fails leaves it as it is. -/
def perform : Deed → Controller → Controller
  | access q, c => (handler q c).2
  | stick stuck, c => { c with stuck }
  | pull b, c => (c.assertAtPowerOn b).2

/-- The word that is written to the protection register, if one is. -/
def word? : Deed → Option UInt32
  | access (.write .reglctl word) => some word
  | _ => none

/-- Whether the protection is stuck from now on, if this is said. -/
def stuck? : Deed → Option Bool
  | stick stuck => some stuck
  | _ => none

end Deed

/-- The controller behind a history. -/
def after (past : List Deed) : Controller := past.foldr Deed.perform fresh

/-- Whether the protection is stuck behind a history: what was said of it last. -/
def stuckAfter (past : List Deed) : Bool := (past.findSome? Deed.stuck?).getD false

/-- The words written to the protection register since a write to it last closed the protection, or
since power-on, oldest first. The write that closed it is not among them. -/
def sinceClosed : List Deed → List UInt32
  | [] => []
  | deed :: past =>
    match deed.word? with
    | none => sinceClosed past
    | some word => if (after past).isOpen then [] else sinceClosed past ++ [word]

variable {c c' : Controller} {written : List UInt32} {word : UInt32} {deed : Deed}

@[simp] lemma stuck_writeReglctl (c : Controller) (word : UInt32) :
    (c.writeReglctl word).stuck = c.stuck := by
  simp only [writeReglctl]
  split_ifs <;> rfl

lemma perform_of_word?_eq_some (h : deed.word? = some word) (c : Controller) :
    deed.perform c = c.writeReglctl word := by
  match deed, h with
  | .access (.write .reglctl _), rfl => rfl

/-- Only a write to the protection register has to do with the sequence. -/
lemma perform_of_word?_eq_none (h : deed.word? = none) (c : Controller) :
    (deed.perform c).isOpen = c.isOpen ∧ (deed.perform c).progress = c.progress ∧
      (deed.perform c).stuck = deed.stuck?.getD c.stuck := by
  match deed, h with
  | .access (.read .reglctl), _ | .access .pause, _ | .stick _, _ => exact ⟨rfl, rfl, rfl⟩
  | .access (.read (.iprst i)), _ =>
    simp only [Deed.perform, handler]
    split <;> exact ⟨rfl, rfl, rfl⟩
  | .access (.write (.iprst i) v), _ =>
    simp only [Deed.perform, handler, writeIprst]
    split_ifs <;> exact ⟨rfl, rfl, rfl⟩
  | .pull b, _ =>
    simp only [Deed.perform, assertAtPowerOn]
    split <;> exact ⟨rfl, rfl, rfl⟩

lemma stuck_perform (deed : Deed) (c : Controller) :
    (deed.perform c).stuck = deed.stuck?.getD c.stuck := by
  cases hword : deed.word? with
  | none => exact (perform_of_word?_eq_none hword c).2.2
  | some word =>
    match deed, hword with
    | .access (.write .reglctl _), rfl => exact stuck_writeReglctl c word

@[simp] lemma after_cons (deed : Deed) (past : List Deed) :
    after (deed :: past) = deed.perform (after past) := rfl

lemma stuck_after (past : List Deed) : (after past).stuck = stuckAfter past := by
  induction past with
  | nil => rfl
  | cons deed past ih =>
    rw [after_cons, stuck_perform, ih, stuckAfter, stuckAfter, List.findSome?_cons]
    cases deed.stuck? <;> rfl

/-!
### One word
-/

lemma nodup_unlockSequence : unlockSequence.Nodup := by decide

lemma follow_le (progress : Nat) (word : UInt32) : follow progress word ≤ unlockSequence.length := by
  rw [follow]
  split_ifs with hnext
  · exact (List.getElem?_eq_some_iff.mp hnext).1
  · decide
  · decide

lemma follow_zero_le (word : UInt32) : follow 0 word ≤ 1 := by
  rw [follow]
  split_ifs <;> decide

/-- A place of the sequence is reached by the word before it, and from the place before that word unless
the sequence begins with it. -/
lemma follow_eq_succ_iff {progress m : Nat} :
    follow progress word = m + 1 ↔ unlockSequence[m]? = some word ∧ (m = 0 ∨ progress = m) := by
  have hunique {i j : Nat} (hi : unlockSequence[i]? = some word) (hj : unlockSequence[j]? = some word) :
      i = j :=
    (List.getElem?_inj (List.getElem?_eq_some_iff.mp hi).1 nodup_unlockSequence).mp (hi.trans hj.symm)
  rw [follow]
  -- The word goes on with the sequence, or else it begins it anew, or else it does neither.
  split_ifs with hnext hfirst
  · constructor
    · rintro ⟨⟩
      exact ⟨hnext, .inr rfl⟩
    · rintro ⟨hm, -⟩
      rw [hunique hnext hm]
  · constructor
    · rintro ⟨⟩
      exact ⟨hfirst, .inl rfl⟩
    · rintro ⟨hm, rfl | rfl⟩
      · rfl
      · exact absurd hm hnext
  · constructor
    · rintro ⟨⟩
    · rintro ⟨hm, rfl | rfl⟩
      · exact absurd hm hfirst
      · exact absurd hm hnext

lemma progress_writeReglctl (hclosed : c.isOpen = false) (word : UInt32) :
    (c.writeReglctl word).progress =
      if follow c.progress word < unlockSequence.length then follow c.progress word else 0 := by
  simp only [writeReglctl, hclosed, Bool.false_eq_true, if_false]
  split_ifs <;> rfl

lemma isOpen_writeReglctl (hclosed : c.isOpen = false) :
    (c.writeReglctl word).isOpen = true ↔
      c.stuck = false ∧ follow c.progress word = unlockSequence.length := by
  have hle := follow_le c.progress word
  simp only [writeReglctl, hclosed, Bool.false_eq_true, if_false]
  split_ifs with hlt hstuck
  · simp [hlt.ne]
  · simp [hstuck]
  · simp [hstuck, hle.antisymm (Nat.not_lt.mp hlt)]

lemma writeReglctl_of_open (hopen : c.isOpen = true) (word : UInt32) :
    c.writeReglctl word = { c with isOpen := false, progress := 0 } :=
  if_pos hopen

/-!
### What the written words end with
-/

/-- A list ends with a beginning of another if its last entry is the last one of that beginning, and what
is before it ends with the rest of the beginning. -/
lemma take_succ_suffix_concat {α : Type} {s l : List α} {a : α} {m : Nat} (hm : m < s.length) :
    s.take (m + 1) <:+ l ++ [a] ↔ s[m]? = some a ∧ s.take m <:+ l := by
  have hlength : [s[m]].length = [a].length := rfl
  rw [List.take_succ_eq_append_getElem hm, List.suffix_append_inj_of_length_eq hlength,
    List.getElem?_eq_getElem hm, List.singleton_inj, Option.some_inj, and_comm]

/-- The progress is the length of the beginning of the sequence that the written words end with, where
the whole sequence does not count as one. -/
structure Tracks (written : List UInt32) (c : Controller) : Prop where
  progress_lt : c.progress < unlockSequence.length
  ends_iff : ∀ m < unlockSequence.length,
    unlockSequence.take m <:+ written ↔ m = 0 ∨ c.progress = m
  progress_of_open : c.isOpen = true → c.progress = 0

lemma tracks_nil (h : c.progress = 0) : Tracks [] c where
  progress_lt := by
    rw [h]
    decide
  ends_iff m _ := by
    have hne : unlockSequence ≠ [] := by decide
    simp [h, hne, @eq_comm _ 0 m]
  progress_of_open _ := h

namespace Tracks

lemma congr (h : Tracks written c) (hopen : c'.isOpen = c.isOpen)
    (hprogress : c'.progress = c.progress) : Tracks written c' where
  progress_lt := hprogress ▸ h.progress_lt
  ends_iff := hprogress ▸ h.ends_iff
  progress_of_open hc' := hprogress.trans (h.progress_of_open (hopen ▸ hc'))

lemma ends_concat_iff (h : Tracks written c) {m : Nat} (hm : m < unlockSequence.length) :
    unlockSequence.take (m + 1) <:+ written ++ [word] ↔ follow c.progress word = m + 1 := by
  rw [take_succ_suffix_concat hm, h.ends_iff m hm, follow_eq_succ_iff]

lemma completes_iff (h : Tracks written c) :
    unlockSequence <:+ written ++ [word] ↔ follow c.progress word = unlockSequence.length :=
  h.ends_concat_iff (m := 2) (by decide)

/-- The progress stays right when one more word is written, whether it opens the protection or not. -/
lemma concat (h : Tracks written c) (hclosed : c.isOpen = false) (word : UInt32) :
    Tracks (written ++ [word]) (c.writeReglctl word) where
  progress_lt := by
    rw [progress_writeReglctl hclosed]
    split_ifs with hlt
    · exact hlt
    · decide
  ends_iff m hm := by
    cases m with
    | zero => simp
    | succ m =>
      rw [h.ends_concat_iff (Nat.lt_of_succ_lt hm), progress_writeReglctl hclosed]
      split_ifs with hlt
      · simp
      · -- What ends with the whole sequence does not end with a shorter beginning of it.
        have hne : follow c.progress word ≠ m + 1 := by omega
        simp [hne]
  progress_of_open hopen := by
    rw [progress_writeReglctl hclosed, ((isOpen_writeReglctl hclosed).mp hopen).2, if_neg (lt_irrefl _)]

/-- A word opens the protection if it completes the sequence and the protection is not stuck. That the
protection was closed need not be said: behind the whole sequence, no further word completes it. -/
lemma opens_iff (h : Tracks written c) :
    c.isOpen = false ∧ (c.writeReglctl word).isOpen = true ↔
      c.stuck = false ∧ unlockSequence <:+ written ++ [word] := by
  rw [h.completes_iff]
  by_cases hopen : c.isOpen = true
  · -- The progress is zero, and one word is not the whole sequence.
    have hshort : follow c.progress word < unlockSequence.length := by
      rw [h.progress_of_open hopen]
      exact Nat.lt_of_le_of_lt (follow_zero_le word) (by decide)
    simp [hopen, hshort.ne]
  · have hclosed : c.isOpen = false := Bool.eq_false_iff.mpr hopen
    simp only [hclosed, true_and, isOpen_writeReglctl hclosed]

end Tracks

lemma tracks_after (past : List Deed) : Tracks (sinceClosed past) (after past) := by
  induction past with
  | nil => exact tracks_nil rfl
  | cons deed past ih =>
    rw [sinceClosed, after_cons]
    split
    next hword =>
      obtain ⟨hopen, hprogress, -⟩ := perform_of_word?_eq_none hword (after past)
      exact ih.congr hopen hprogress
    next word hword =>
      rw [perform_of_word?_eq_some hword]
      split_ifs with hopen
      · exact tracks_nil (by rw [writeReglctl_of_open hopen])
      · exact ih.concat (Bool.eq_false_iff.mpr hopen) word

/-- Whatever was done to a fresh controller: the progress is a place in the sequence. The protection goes
from closed to open at a write exactly if it is not stuck then, and the last words written since a write
closed it are the sequence, this one included. It goes from open to closed at any write, and nothing else
opens or closes it. -/
theorem opens_exactly_on_sequence (past : List Deed) :
    (after past).progress < unlockSequence.length ∧ ∀ deed : Deed,
      ((after past).isOpen = false ∧ (after (deed :: past)).isOpen = true ↔
        ∃ word, deed.word? = some word ∧ stuckAfter past = false ∧
          [0x59, 0x16, 0x88] <:+ sinceClosed past ++ [word]) ∧
      ((after past).isOpen = true ∧ (after (deed :: past)).isOpen = false ↔
        (after past).isOpen = true ∧ ∃ word, deed.word? = some word) := by
  have htracks := tracks_after past
  refine ⟨htracks.progress_lt, fun deed => ?_⟩
  rw [after_cons]
  cases hword : deed.word? with
  | none =>
    rw [(perform_of_word?_eq_none hword (after past)).1]
    simp
  | some word =>
    rw [perform_of_word?_eq_some hword, htracks.opens_iff, stuck_after]
    constructor
    · simp [unlockSequence]
    · have hcloses (hopen : (after past).isOpen = true) :
          ((after past).writeReglctl word).isOpen = false := by
        rw [writeReglctl_of_open hopen]
      simpa using hcloses

/-- The sequence written in vain, and then with its first word repeated. -/
example :
    let writes := List.map fun word => Deed.access (.write .reglctl word)
    let past := writes [0x16, 0x59, 0x59] ++ [.stick false] ++ writes [0x88, 0x16, 0x59] ++ [.stick true]
    sinceClosed past = [0x59, 0x16, 0x88, 0x59, 0x59, 0x16] ∧ (after past).isOpen = false ∧
      (after (writes [0x88] ++ past)).isOpen = true := by
  decide

end Intercore.Reset
