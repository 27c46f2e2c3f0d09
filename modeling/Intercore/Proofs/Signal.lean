import Intercore.Fault
import Intercore.Proofs.Bit
import Intercore.Proofs.Interleaving
import Intercore.Signal

/-!
# Notifications on a shared signal

Any number of contexts post bits to one signal and take them from it. What is pending at any time is
told by the steps that were made: the bits that were posted and not taken since. From this it
follows that no bit is taken twice for one post, and that none is lost.
-/

namespace Intercore.Signal

/-- An atomic step on a signal. -/
inductive Step
  | post (mask : UInt32)
  | take
  | takeMasked (mask : UInt32)
  /-- Reads the pending bits and leaves them. -/
  | peek
  deriving DecidableEq, Repr

abbrev Step.Answer : Step → Type
  | post _ => Unit
  | take | takeMasked _ | peek => UInt32

instance : Request Step := ⟨Step.Answer⟩

def step (s : Signal) : (q : Step) → Request.Answer q × Signal
  | .post mask => ((), s.post mask)
  | .take => s.take
  | .takeMasked mask => s.takeMasked mask
  | .peek => (s.bits, s)

def handler : Handler Step Signal Fault := fun q s => (.ok (s.step q).1, (s.step q).2)

/-- The steps of a wait. Between two polls it may do anything, also with the signal. -/
def polling (relax : Nat → Program Step Unit) : Nat → Nat → Program Step Wait
  | 0, polls => pure ⟨none, polls⟩
  | limit + 1, polls => do
    let bits : UInt32 ← Program.request Step.take
    if bits ≠ 0 then return ⟨some bits, polls⟩
    relax (polls + 1)
    polling relax limit (polls + 1)

/-- What a context does with a signal. -/
inductive Call
  | single (q : Step)
  | wait (relax : Nat → Program Step Unit) (limit : Nat)

namespace Call

abbrev Answer : Call → Type
  | single q => Request.Answer q
  | wait _ _ => Wait

instance : Request Call := ⟨Answer⟩

def program : (k : Call) → Program Step (Request.Answer k)
  | single q => Program.request q
  | wait relax limit => polling relax limit 0

/-- What a wait returned with, unless it gave up. -/
def waited : (k : Call) → Request.Answer k → Option UInt32
  | single _, _ => none
  | wait _ _, r => r.taken

end Call

/-- The steps that were made, newest first, and who made them. -/
abbrev Log (ι : Type) := List (ι × Event Step)

/-- Contexts that share a signal, each making whatever calls it likes. -/
def sharing (ι : Type) : Ensemble ι Call Step (Signal × Log ι) Fault where
  handler i q s := (.ok (s.1.step q).1, (s.1.step q).2, (i, ⟨q, (s.1.step q).1⟩) :: s.2)
  program _ k := k.program
  permits _ _ := true

/-- The bits that a step took. -/
def taken : Event Step → UInt32
  | ⟨.take, r⟩ | ⟨.takeMasked _, r⟩ => r
  | ⟨.post _, _⟩ | ⟨.peek, _⟩ => 0

/-- What a step took, if it takes all that is pending. -/
def allTaken? : Event Step → Option UInt32
  | ⟨.take, r⟩ => some r
  | ⟨.post _, _⟩ | ⟨.takeMasked _, _⟩ | ⟨.peek, _⟩ => none

def posted : Event Step → UInt32
  | ⟨.post mask, _⟩ => mask
  | ⟨.take, _⟩ | ⟨.takeMasked _, _⟩ | ⟨.peek, _⟩ => 0

variable {ι : Type}

namespace Log

/-- The signal after some steps. -/
def replay : Log ι → Signal
  | [] => ⟨0⟩
  | (_, e) :: older => (replay older |>.step e.request).2

/-- The steps were answered by the signal. -/
def Genuine : Log ι → Prop
  | [] => True
  | (_, e) :: older => e.answer = ((replay older).step e.request).1 ∧ Genuine older

/-- A bit was posted, and has not been taken since. -/
def Outstanding (log : Log ι) (b : Fin 32) : Prop :=
  ∃ newer x older, log = newer ++ x :: older ∧ hasBit b (posted x.2) ∧
    ∀ y ∈ newer, ¬ hasBit b (taken y.2)

/-- What a context took in full takes, oldest first. -/
def takes [DecidableEq ι] (log : Log ι) (i : ι) : List UInt32 :=
  log.reverse.filterMap fun x => if x.1 = i then allTaken? x.2 else none

end Log

/-- A step takes only bits that were pending, and within its mask; a full take takes all of them. What
it took is pending no more, what it posted is, and all other bits are as they were. -/
structure Exact (before : Signal) (e : Event Step) (after : Signal) : Prop where
  pending : ∀ b, hasBit b (taken e) → hasBit b before.bits
  left : ∀ b, hasBit b after.bits =
    (hasBit b before.bits && !hasBit b (taken e) || hasBit b (posted e))
  masked : ∀ mask, e.request = .takeMasked mask → ∀ b, hasBit b (taken e) → hasBit b mask
  full : e.request = .take → taken e = before.bits
  peeked : ∀ r, e = ⟨.peek, r⟩ → r = before.bits

lemma posted_of_taken {e : Event Step} {b : Fin 32} (h : hasBit b (taken e)) : posted e = 0 := by
  obtain ⟨q, r⟩ := e
  cases q with
  | post mask => simp [taken] at h
  | take | takeMasked _ | peek => rfl

lemma Exact.not_pending {before after : Signal} {e : Event Step} {b : Fin 32}
    (h : Exact before e after) (hb : hasBit b (taken e)) : ¬ hasBit b after.bits := by
  simp [h.left, hb, posted_of_taken hb]

lemma exact_step (s : Signal) (q : Step) : Exact s ⟨q, (s.step q).1⟩ (s.step q).2 := by
  cases q with
  | post mask =>
    refine ⟨?_, ?_, nofun, nofun, nofun⟩
    · simp [taken]
    · simp [taken, posted, step, Signal.post]
  | take =>
    refine ⟨?_, ?_, nofun, fun _ => rfl, nofun⟩
    · intro b hb
      exact hb
    · simp [taken, posted, step, Signal.take]
  | takeMasked mask =>
    refine ⟨?_, ?_, ?_, nofun, nofun⟩
    · intro b hb
      simp only [taken, step, Signal.takeMasked, hasBit_and, Bool.and_eq_true] at hb
      exact hb.1
    · intro b
      simp only [taken, posted, step, Signal.takeMasked, hasBit_and, hasBit_not, hasBit_zero,
        Bool.or_false]
      cases hasBit b s.bits <;> rfl
    · rintro _ ⟨⟩ b hb
      simp only [taken, step, Signal.takeMasked, hasBit_and, Bool.and_eq_true] at hb
      exact hb.2
  | peek =>
    refine ⟨?_, ?_, nofun, nofun, ?_⟩
    · simp [taken]
    · simp [taken, posted, step]
    · rintro _ ⟨⟩
      rfl

namespace Log

lemma Genuine.older {log newer older : Log ι} (h : log.Genuine) (hlog : log = newer ++ older) :
    older.Genuine := by
  subst hlog
  induction newer with
  | nil => exact h
  | cons x newer ih => exact ih h.2

lemma Genuine.exact {i : ι} {e : Event Step} {older : Log ι} (h : Genuine ((i, e) :: older)) :
    Exact (replay older) e (replay ((i, e) :: older)) := by
  obtain ⟨q, r⟩ := e
  have hr : r = ((replay older).step q).1 := h.1
  subst hr
  exact exact_step (replay older) q

lemma outstanding_cons {x : ι × Event Step} {older : Log ι} {b : Fin 32} :
    Outstanding (x :: older) b ↔
      older.Outstanding b ∧ ¬ hasBit b (taken x.2) ∨ hasBit b (posted x.2) := by
  constructor
  · rintro ⟨newer, y, rest, heq, hposted, hleft⟩
    rw [List.cons_eq_append_iff] at heq
    rcases heq with ⟨rfl, ⟨⟩⟩ | ⟨newer, rfl, rfl⟩
    · exact .inr hposted
    · rw [List.forall_mem_cons] at hleft
      exact .inl ⟨⟨newer, y, rest, rfl, hposted, hleft.2⟩, hleft.1⟩
  · rintro (⟨⟨newer, y, rest, rfl, hposted, hleft⟩, hx⟩ | hposted)
    · exact ⟨x :: newer, y, rest, rfl, hposted, List.forall_mem_cons.mpr ⟨hx, hleft⟩⟩
    · exact ⟨[], x, older, rfl, hposted, nofun⟩

lemma Genuine.pending_iff {log : Log ι} (h : log.Genuine) (b : Fin 32) :
    hasBit b log.replay.bits ↔ log.Outstanding b := by
  induction log with
  | nil => simp [replay, Outstanding]
  | cons x older ih =>
    rw [(Genuine.exact h).left, outstanding_cons, ← ih h.2]
    simp

/-- A bit that is not pending is not pending later, unless it was posted. -/
lemma Genuine.posted_of_pending {newer older : Log ι} (h : Genuine (newer ++ older)) {b : Fin 32}
    (hold : ¬ hasBit b older.replay.bits) (hnew : hasBit b (replay (newer ++ older)).bits) :
    ∃ x ∈ newer, hasBit b (posted x.2) := by
  induction newer with
  | nil => exact absurd hnew hold
  | cons x newer ih =>
    rw [List.cons_append] at h hnew
    rw [(Genuine.exact h).left, Bool.or_eq_true] at hnew
    rcases hnew with hpending | hposted
    · obtain ⟨y, hy, hposted⟩ := ih h.2 (Bool.and_eq_true_iff.mp hpending).1
      exact ⟨y, List.mem_cons_of_mem x hy, hposted⟩
    · exact ⟨x, List.mem_cons_self, hposted⟩

lemma takes_cons [DecidableEq ι] (i j : ι) (e : Event Step) (log : Log ι) :
    takes ((i, e) :: log) j = log.takes j ++ (if i = j then allTaken? e else none).toList := by
  simp only [takes, List.reverse_cons, List.filterMap_append, List.filterMap_cons,
    List.filterMap_nil]
  cases if i = j then allTaken? e else none <;> rfl

end Log

/-!
### What a wait returns

A context knows what its last step took, if it was a full take. A wait ends with such a step.
-/

def contract : Contract Step (Option UInt32) where
  allows _ _ := True
  answers _ q r v := v = allTaken? ⟨q, r⟩

/-- A call that took bits did so in its last step. -/
def Returns (k : Call) (r : Request.Answer k) (v : Option UInt32) : Prop :=
  ∀ w, k.waited r = some w → v = some w ∧ w ≠ 0

lemma keeps_true {α : Type} (p : Program Step α) (v : Option UInt32) :
    p.Keeps contract (fun _ _ => True) v := by
  induction p generalizing v with
  | done a => trivial
  | ask q next ih => exact ⟨trivial, fun r v' _ => ih r v'⟩

lemma keeps_polling (relax : Nat → Program Step Unit) (limit polls : Nat) (v : Option UInt32) :
    (polling relax limit polls).Keeps contract
      (fun r v' => ∀ w, r.taken = some w → v' = some w ∧ w ≠ 0) v := by
  induction limit generalizing polls v with
  | zero => exact fun w hw => nomatch hw
  | succ limit ih =>
    refine ⟨trivial, ?_⟩
    rintro bits _ rfl
    simp only [Program.done_bind]
    split
    case isTrue hbits =>
      rintro w ⟨⟩
      exact ⟨rfl, hbits⟩
    case isFalse =>
      rw [Program.bind_eq, Program.keeps_bind]
      exact (keeps_true _ _).mono fun _ v' _ => ih (polls + 1) v'

lemma keeps_program (k : Call) (v : Option UInt32) :
    k.program.Keeps contract (Returns k) v := by
  cases k with
  | single q => exact ⟨trivial, fun r v' _ w hw => nomatch hw⟩
  | wait relax limit => exact keeps_polling relax limit 0 v

section Contexts

variable [DecidableEq ι]

/-- The log tells the signal, and the results of waits are among what was taken. -/
structure Agrees (h : History ι Call) (s : Signal × Log ι) (v : ι → Option UInt32) :
    Prop where
  replayed : s.1 = s.2.replay
  genuine : s.2.Genuine
  waits : ∀ i, (h.results i Call.waited ++ (v i).toList).Sublist (s.2.takes i)
  nonzero : ∀ i, 0 ∉ h.results i Call.waited

variable {h : History ι Call} {s : Signal × Log ι} {v : ι → Option UInt32}

lemma Agrees.begun (ha : Agrees h s v) (i : ι) (k : Call) :
    Agrees (h ++ [(i, .begun k)]) s v := by
  refine ⟨ha.replayed, ha.genuine, ?_, ?_⟩
  · simpa using ha.waits
  · simpa using ha.nonzero

lemma Agrees.answered (ha : Agrees h s v) (i : ι) (q : Step) :
    Agrees h ((s.1.step q).2, (i, ⟨q, (s.1.step q).1⟩) :: s.2)
      (Function.update v i (allTaken? ⟨q, (s.1.step q).1⟩)) := by
  refine ⟨?_, ⟨?_, ha.genuine⟩, ?_, ha.nonzero⟩
  · rw [ha.replayed]
    rfl
  · rw [ha.replayed]
  · intro j
    have hold := ha.waits j
    rw [Log.takes_cons]
    by_cases hj : j = i
    · subst hj
      rw [Function.update_self, if_pos rfl]
      exact ((List.sublist_append_left _ _).trans hold).append (List.Sublist.refl _)
    · rw [Function.update_of_ne hj, if_neg (Ne.symm hj), Option.toList_none, List.append_nil]
      exact hold

lemma Agrees.returned (ha : Agrees h s v) {i : ι} {k : Call} {r : Request.Answer k}
    (hr : Returns k r (v i)) :
    Agrees (h ++ [(i, .returned k r)]) s (Function.update v i none) := by
  have hown : (k.waited r).toList.Sublist (v i).toList := by
    cases hw : k.waited r with
    | none => exact List.nil_sublist _
    | some w => exact (hr w hw).1 ▸ List.Sublist.refl _
  refine ⟨ha.replayed, ha.genuine, ?_, ?_⟩
  · intro j
    rw [History.results_returned]
    by_cases hj : j = i
    · subst hj
      rw [Function.update_self, if_pos rfl, Option.toList_none, List.append_nil]
      exact ((List.Sublist.refl _).append hown).trans (ha.waits j)
    · rw [Function.update_of_ne hj, if_neg (Ne.symm hj), Option.toList_none, List.append_nil]
      exact ha.waits j
  · intro j
    rw [History.results_returned, List.mem_append, not_or]
    refine ⟨ha.nonzero j, ?_⟩
    split
    case isTrue =>
      intro hzero
      exact (hr 0 (Option.mem_toList.mp hzero)).2 rfl
    case isFalse => exact List.not_mem_nil

lemma invariant : Ensemble.Invariant (sharing ι) (fun _ => contract) (fun _ _ => True)
    (fun _ => Returns) Agrees where
  begin_call {h s v} i k ha _ _ := by
    refine ⟨v i, ?_, keeps_program k _⟩
    rw [Function.update_eq_self]
    exact ha.begun i k
  answer i q ha _ := ⟨_, _, _, rfl, rfl, ha.answered i q⟩
  return_call i k r ha hr := ⟨none, ha.returned hr, trivial⟩

lemma holds_idle : Ensemble.Holds (fun _ : ι => contract) (fun _ _ => True) (fun _ => Returns)
    Agrees (.idle (⟨0⟩, [])) :=
  ⟨fun _ => none, ⟨rfl, trivial, fun _ => List.nil_sublist _, fun _ => List.not_mem_nil⟩,
    fun _ => trivial⟩

end Contexts

/-- With nothing else in between, the steps of a wait make up the whole of it. -/
lemma run_polling (relax : Nat → Program Step Unit) (limit polls : Nat) (s : Signal) :
    (polling relax limit polls).run handler s =
      (.ok (wait.go (fun n s => ((relax n).run handler s).2) limit polls s).1,
        (wait.go (fun n s => ((relax n).run handler s).2) limit polls s).2) := by
  induction limit generalizing polls s with
  | zero => rfl
  | succ limit ih =>
    have hrelax : ∀ t, (relax (polls + 1)).run handler t =
        (.ok (), ((relax (polls + 1)).run handler t).2) := by
      intro t
      obtain ⟨⟨⟩, t', hrun, -⟩ := (relax (polls + 1)).run_of_step (h := handler)
        (I := fun _ => True) (fun _ _ _ => ⟨_, _, rfl, trivial⟩) (s := t) trivial
      rw [hrun]
    have hpoll : (polling relax (limit + 1) polls).run handler s =
        Program.run handler (if s.bits ≠ 0 then pure ⟨some s.bits, polls⟩
          else relax (polls + 1) >>= fun _ => polling relax limit (polls + 1)) s.take.2 := rfl
    rw [hpoll, wait.go]
    split
    case isTrue => rfl
    case isFalse =>
      rw [Program.bind_eq, Program.run_bind, hrelax]
      exact ih (polls + 1) _

/-- However many contexts post bits to a signal, take them and wait for them, in whatever order they
make their steps: none of them is ever stopped, and every step takes only what is pending and leaves all
other bits as they are. Between any two steps that take a bit there is one that posts it. A bit is pending if and only if it was
posted and not taken since. Every wait that returns does so with what its last poll took, which was
not empty and all that was pending. When nothing happens between its steps but what it does itself,
a wait is the `wait` of a signal. -/
theorem neither_lost_nor_doubled [DecidableEq ι] (schedule : List (Ensemble.Move ι Call)) :
    let s := (sharing ι).run schedule (.idle (⟨0⟩, []))
    let log := s.shared.2
    (∀ i, s.activity i ≠ .stopped) ∧
      s.shared.1 = log.replay ∧
      (∀ newer i e older, log = newer ++ (i, e) :: older →
        Exact (Log.replay older) e (Log.replay ((i, e) :: older))) ∧
      (∀ b newer x between y older, log = newer ++ x :: (between ++ y :: older) →
        hasBit b (taken x.2) → hasBit b (taken y.2) → ∃ z ∈ between, hasBit b (posted z.2)) ∧
      (∀ b, hasBit b s.shared.1.bits ↔ log.Outstanding b) ∧
      (∀ i, (s.history.results i Call.waited).Sublist (log.takes i) ∧
        0 ∉ s.history.results i Call.waited) ∧
      ∀ relax limit t, (polling relax limit 0).run handler t =
        (.ok (wait (fun n t => ((relax n).run handler t).2) limit t).1,
          (wait (fun n t => ((relax n).run handler t).2) limit t).2) := by
  intro s log
  have hrun := invariant.run holds_idle schedule
  have hserved := hrun.not_stopped
  obtain ⟨v, ha, -⟩ := hrun
  refine ⟨hserved, ha.replayed, ?_, ?_, ?_, ?_, ?_⟩
  · intro newer i e older hlog
    exact (ha.genuine.older hlog).exact
  · intro b newer x between y older hlog hx hy
    have hx' := ha.genuine.older hlog
    have hy' : Log.Genuine (y :: older) := hx'.2.older rfl
    -- the bit is not pending after `y` has taken it, and is when `x` takes it
    exact hx'.2.posted_of_pending (hy'.exact.not_pending hy) (hx'.exact.pending b hx)
  · intro b
    rw [ha.replayed]
    exact ha.genuine.pending_iff b
  · exact fun i => ⟨(List.sublist_append_left _ _).trans (ha.waits i), ha.nonzero i⟩
  · exact fun relax limit t => run_polling relax limit 0 t

end Intercore.Signal
