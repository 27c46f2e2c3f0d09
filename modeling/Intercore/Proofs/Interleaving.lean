import Intercore.Proofs.Contract
import Mathlib.Logic.Function.Basic

/-!
# Interleaved contexts

Several contexts act on one state. Each of them makes calls one after the other, and between any
two requests of a call the others may make requests of theirs.

Which context goes on is up to a schedule. The main statement of this file, `Invariant.run`,
reduces what holds under every schedule to one call at a time and one request at a time. For
contexts that may be interrupted, `InvariantUnder.run` does the same.
-/

namespace Intercore

/-- What a context is doing. The calls are of type `K`, their requests of type `Q`. -/
inductive Activity (K Q : Type) [Request K] [Request Q] where
  /-- It is between two calls; the script says which calls it has still to make. -/
  | ready (script : Program K Unit)
  /-- It is inside a call and about to make a request. -/
  | inside (k : K) (q : Q) (rest : Request.Answer q → Program Q (Request.Answer k))
      (script : Request.Answer k → Program K Unit)
  /-- A request of it was answered with an error. -/
  | stopped

/-- The call that a context is inside of. -/
def Activity.call? {K Q : Type} [Request K] [Request Q] : Activity K Q → Option K
  | inside k _ _ _ => some k
  | ready _ | stopped => none

/-- The context has finished its script. -/
def Activity.isDone {K Q : Type} [Request K] [Request Q] : Activity K Q → Bool
  | ready (.done _) => true
  | ready (.ask _ _) | inside _ _ _ _ | stopped => false

/-- The beginning and the return of a call. -/
inductive Milestone (K : Type) [Request K] where
  | begun (k : K)
  | returned (k : K) (result : Request.Answer k)

/-- What was begun and what has returned so far, by which context, oldest first. -/
abbrev History (ι K : Type) [Request K] := List (ι × Milestone K)

/-- What the calls of a context returned, as far as `pick` is interested in it, oldest first. -/
def History.results {ι K : Type} [Request K] [DecidableEq ι] {α : Type} (h : History ι K) (i : ι)
    (pick : (k : K) → Request.Answer k → Option α) : List α :=
  h.filterMap fun
    | (j, .returned k r) => if j = i then pick k r else none
    | (_, .begun _) => none

/-- The call that a context has begun and that has not returned yet. -/
def History.current {ι K : Type} [Request K] [DecidableEq ι] (h : History ι K) (i : ι) :
    Option K :=
  h.foldl (fun
    | current, (j, .begun k) => if j = i then some k else current
    | current, (j, .returned _ _) => if j = i then none else current) none

namespace History

variable {ι K : Type} [Request K] [DecidableEq ι] {α : Type} (h : History ι K) (i j : ι) (k : K)
  (pick : (k : K) → Request.Answer k → Option α)

@[simp] lemma results_begun : results (h ++ [(j, .begun k)]) i pick = results h i pick := by
  simp [results]

@[simp] lemma results_returned (r : Request.Answer k) :
    results (h ++ [(j, .returned k r)]) i pick =
      results h i pick ++ (if j = i then pick k r else none).toList := by
  simp only [results, List.filterMap_append, List.filterMap_cons, List.filterMap_nil]
  cases (if j = i then pick k r else none) <;> rfl

@[simp] lemma current_begun :
    current (h ++ [(j, .begun k)]) i = if j = i then some k else h.current i := by
  simp [current]

@[simp] lemma current_returned (r : Request.Answer k) :
    current (h ++ [(j, .returned k r)]) i = if j = i then none else h.current i := by
  simp [current]

end History

/-- Contexts that share a state. -/
structure Ensemble (ι K Q σ ε : Type) [Request K] [Request Q] where
  /-- What answers the requests of a context. -/
  handler : ι → Handler Q σ ε
  /-- The program of a call, if that context makes it. -/
  program : ι → (k : K) → Program Q (Request.Answer k)
  /-- Which calls a context makes. -/
  permits : ι → K → Bool

namespace Ensemble

variable {ι K Q σ ε V : Type} [Request K] [Request Q] [DecidableEq ι]

/-- The shared state and what every context is doing. -/
structure State (ι K Q σ : Type) [Request K] [Request Q] where
  shared : σ
  activity : ι → Activity K Q
  history : History ι K

def State.idle (shared : σ) : State ι K Q σ := ⟨shared, fun _ => .ready (.done ()), []⟩

/-- One turn of a context. -/
inductive Move (ι K : Type) [Request K] where
  /-- It takes up a script, if it has finished the one before. -/
  | start (i : ι) (script : Program K Unit)
  /-- It begins the next call of its script, or makes the next request of the call it is in. -/
  | proceed (i : ι)

/-- Goes on with a call. It returns at once if it has no more requests to make. -/
def resume (i : ι) (k : K) (rest : Program Q (Request.Answer k))
    (script : Request.Answer k → Program K Unit) (s : State ι K Q σ) : State ι K Q σ :=
  match rest with
  | .done r =>
    { s with
      activity := Function.update s.activity i (.ready (script r))
      history := s.history ++ [(i, .returned k r)] }
  | .ask q rest => { s with activity := Function.update s.activity i (.inside k q rest script) }

def proceed (e : Ensemble ι K Q σ ε) (i : ι) (s : State ι K Q σ) : State ι K Q σ :=
  match s.activity i with
  | .ready (.done ()) => s
  | .ready (.ask k script) =>
    if e.permits i k then
      resume i k (e.program i k) script { s with history := s.history ++ [(i, .begun k)] }
    else s
  | .inside k q rest script =>
    match e.handler i q s.shared with
    | (.ok r, shared) => resume i k (rest r) script { s with shared }
    | (.error _, shared) =>
      { s with shared, activity := Function.update s.activity i .stopped }
  | .stopped => s

/-- Makes a move. A move that is not possible changes nothing. -/
def move (e : Ensemble ι K Q σ ε) (s : State ι K Q σ) : Move ι K → State ι K Q σ
  | .start i script =>
    match s.activity i with
    | .ready (.done ()) => { s with activity := Function.update s.activity i (.ready script) }
    | _ => s
  | .proceed i => e.proceed i s

def run (e : Ensemble ι K Q σ ε) (schedule : List (Move ι K)) (s : State ι K Q σ) :
    State ι K Q σ :=
  schedule.foldl e.move s

/-- The context whose move it is. -/
def Move.context : Move ι K → ι
  | start i _ | proceed i => i

/-- Makes a move, unless the context is interrupted. It stays so until the one that interrupts it
has finished its script. -/
def moveUnder (e : Ensemble ι K Q σ ε) (interrupter : ι → Option ι) (s : State ι K Q σ)
    (m : Move ι K) : State ι K Q σ :=
  if (interrupter m.context).all fun j => (s.activity j).isDone then e.move s m else s

/-- A run in which some contexts are the interrupt handlers of others. -/
def runUnder (e : Ensemble ι K Q σ ε) (interrupter : ι → Option ι) (schedule : List (Move ι K))
    (s : State ι K Q σ) : State ι K Q σ :=
  schedule.foldl (e.moveUnder interrupter) s

/-!
### Verifying an ensemble

Every context is given a view, a contract, what its view is like between calls, and what each of
its calls returns with. Then it is enough that `Agrees`, which ties the views to the state and to
the history, survives the beginning of a call, a request that is allowed, and a return.
-/

structure Invariant (e : Ensemble ι K Q σ ε) (contract : ι → Contract Q V)
    (rests : ι → V → Prop) (returns : ι → (k : K) → Request.Answer k → V → Prop)
    (Agrees : History ι K → σ → (ι → V) → Prop) : Prop where
  /-- A call may begin, with some view with which its program keeps the contract. -/
  begin_call : ∀ {h s v} i k, Agrees h s v → rests i (v i) → e.permits i k →
    ∃ w, Agrees (h ++ [(i, .begun k)]) s (Function.update v i w) ∧
      (e.program i k).Keeps (contract i) (returns i k) w
  /-- A request that is allowed is answered as the contract says. -/
  answer : ∀ {h s v} i q, Agrees h s v → (contract i).allows (v i) q →
    ∃ r s' w, e.handler i q s = (.ok r, s') ∧ (contract i).answers (v i) q r w ∧
      Agrees h s' (Function.update v i w)
  /-- A call may return. -/
  return_call : ∀ {h s v} i k r, Agrees h s v → returns i k r (v i) →
    ∃ w, Agrees (h ++ [(i, .returned k r)]) s (Function.update v i w) ∧ rests i w

/-- What is known of the others when a context goes on. The one that interrupts it rests, and each of
the others rests or is about to make a request. -/
structure Waiting (interrupter : ι → Option ι) (contract : ι → Contract Q V) (rests : ι → V → Prop)
    (i : ι) (v : ι → V) : Prop where
  interrupters : ∀ j ≠ i, interrupter i = some j → rests j (v j)
  others : ∀ j ≠ i, rests j (v j) ∨ ∃ q, (contract j).allows (v j) q

lemma Waiting.update {interrupter : ι → Option ι} {contract : ι → Contract Q V}
    {rests : ι → V → Prop} {i : ι} {v : ι → V} (h : Waiting interrupter contract rests i v) (w : V) :
    Waiting interrupter contract rests i (Function.update v i w) where
  interrupters j hj := by
    rw [Function.update_of_ne hj]
    exact h.interrupters j hj
  others j hj := by
    rw [Function.update_of_ne hj]
    exact h.others j hj

/-- The same for a run with interrupts: what is known of the others may be used in each of the
three cases. -/
structure InvariantUnder (e : Ensemble ι K Q σ ε) (interrupter : ι → Option ι)
    (contract : ι → Contract Q V) (rests : ι → V → Prop)
    (returns : ι → (k : K) → Request.Answer k → V → Prop)
    (Agrees : History ι K → σ → (ι → V) → Prop) : Prop where
  begin_call : ∀ {h s v} i k, Agrees h s v → Waiting interrupter contract rests i v →
    rests i (v i) → e.permits i k →
    ∃ w, Agrees (h ++ [(i, .begun k)]) s (Function.update v i w) ∧
      (e.program i k).Keeps (contract i) (returns i k) w
  answer : ∀ {h s v} i q, Agrees h s v → Waiting interrupter contract rests i v →
    (contract i).allows (v i) q →
    ∃ r s' w, e.handler i q s = (.ok r, s') ∧ (contract i).answers (v i) q r w ∧
      Agrees h s' (Function.update v i w)
  return_call : ∀ {h s v} i k r, Agrees h s v → Waiting interrupter contract rests i v →
    returns i k r (v i) →
    ∃ w, Agrees (h ++ [(i, .returned k r)]) s (Function.update v i w) ∧ rests i w

section Invariant

variable {e : Ensemble ι K Q σ ε} {interrupter : ι → Option ι} {contract : ι → Contract Q V}
  {rests : ι → V → Prop} {returns : ι → (k : K) → Request.Answer k → V → Prop}
  {Agrees : History ι K → σ → (ι → V) → Prop}

/-- A view suits what its context is doing. No view suits a context that was stopped. -/
def Suits (contract : Contract Q V) (rests : V → Prop)
    (returns : (k : K) → Request.Answer k → V → Prop) : Activity K Q → V → Prop
  | .ready _, v => rests v
  | .inside k q rest _, v => (Program.ask q rest).Keeps contract (returns k) v
  | .stopped, _ => False

/-- Some views agree with a state and suit all its contexts. -/
def Holds (contract : ι → Contract Q V) (rests : ι → V → Prop)
    (returns : ι → (k : K) → Request.Answer k → V → Prop)
    (Agrees : History ι K → σ → (ι → V) → Prop) (s : State ι K Q σ) : Prop :=
  ∃ v, Agrees s.history s.shared v ∧
    ∀ i, Suits (contract i) (rests i) (returns i) (s.activity i) (v i)

omit [DecidableEq ι] in
/-- Every request so far was answered. -/
lemma Holds.not_stopped {s : State ι K Q σ} (hs : Holds contract rests returns Agrees s) (i : ι) :
    s.activity i ≠ .stopped := by
  obtain ⟨v, -, hsuits⟩ := hs
  intro hstopped
  have hi := hsuits i
  rwa [hstopped] at hi

/-- A change of the activity of one context is no matter to the others. -/
lemma suits_update {activity : ι → Activity K Q} {v : ι → V} {i : ι} {a : Activity K Q}
    (h : ∀ j ≠ i, Suits (contract j) (rests j) (returns j) (activity j) (v j))
    (ha : Suits (contract i) (rests i) (returns i) a (v i)) (j : ι) :
    Suits (contract j) (rests j) (returns j) (Function.update activity i a j) (v j) := by
  by_cases hj : j = i
  · subst hj
    simpa using ha
  · simpa [Function.update_of_ne hj] using h j hj

/-- Nor is a change of its view. -/
lemma suits_others {activity : ι → Activity K Q} {v : ι → V} {i : ι} (w : V)
    (h : ∀ j ≠ i, Suits (contract j) (rests j) (returns j) (activity j) (v j)) (j : ι)
    (hj : j ≠ i) :
    Suits (contract j) (rests j) (returns j) (activity j) (Function.update v i w j) := by
  simpa [Function.update_of_ne hj] using h j hj

omit [DecidableEq ι] in
/-- A context may go on if none that is interrupting it is still busy. -/
lemma waiting_of_suits {activity : ι → Activity K Q} {v : ι → V} {i : ι}
    (h : ∀ j, Suits (contract j) (rests j) (returns j) (activity j) (v j))
    (hdone : (interrupter i).all fun j => (activity j).isDone) :
    Waiting interrupter contract rests i v where
  interrupters j _ hij := by
    have hj := h j
    have hready : (activity j).isDone = true := by simpa [hij] using hdone
    cases hactivity : activity j with
    | ready script =>
      rw [hactivity] at hj
      exact hj
    | inside k q rest script => simp [hactivity, Activity.isDone] at hready
    | stopped => simp [hactivity, Activity.isDone] at hready
  others j _ := by
    have hj := h j
    cases hactivity : activity j with
    | ready script =>
      rw [hactivity] at hj
      exact .inl hj
    | inside k q rest script =>
      rw [hactivity] at hj
      exact .inr ⟨q, hj.1⟩
    | stopped =>
      rw [hactivity] at hj
      exact hj.elim

namespace InvariantUnder

/-- A call may go on if the rest of its program keeps the contract. -/
lemma resume (hinv : InvariantUnder e interrupter contract rests returns Agrees) {i : ι} {k : K}
    {rest : Program Q (Request.Answer k)} (script : Request.Answer k → Program K Unit)
    {s : State ι K Q σ} {v : ι → V} (hv : Agrees s.history s.shared v)
    (hwait : Waiting interrupter contract rests i v)
    (hs : ∀ j ≠ i, Suits (contract j) (rests j) (returns j) (s.activity j) (v j))
    (hrest : rest.Keeps (contract i) (returns i k) (v i)) :
    Holds contract rests returns Agrees (Ensemble.resume i k rest script s) := by
  cases rest with
  | done r =>
    obtain ⟨w, hw, hrests⟩ := hinv.return_call i k r hv hwait hrest
    refine ⟨Function.update v i w, hw, ?_⟩
    apply suits_update (suits_others w hs)
    simpa [Suits] using hrests
  | ask q rest => exact ⟨v, hv, suits_update hs hrest⟩

lemma proceed (hinv : InvariantUnder e interrupter contract rests returns Agrees)
    {s : State ι K Q σ} (hs : Holds contract rests returns Agrees s) {i : ι}
    (hdone : (interrupter i).all fun j => (s.activity j).isDone) :
    Holds contract rests returns Agrees (e.proceed i s) := by
  obtain ⟨v, hv, hsuits⟩ := hs
  have hothers := fun w => suits_others w fun j (_ : j ≠ i) => hsuits j
  have hwait := waiting_of_suits hsuits hdone
  have hi := hsuits i
  simp only [Ensemble.proceed]
  split
  next => exact ⟨v, hv, hsuits⟩
  next k script hready =>
    rw [hready] at hi
    split
    · rename_i hk
      obtain ⟨w, hw, hkeeps⟩ := hinv.begin_call i k hv hwait hi hk
      exact hinv.resume script hw (hwait.update w) (hothers w) (by simpa using hkeeps)
    · exact ⟨v, hv, hsuits⟩
  next k q rest script hinside =>
    rw [hinside] at hi
    obtain ⟨hallow, hrest⟩ := hi
    obtain ⟨r, s', w, hr, hanswer, hw⟩ := hinv.answer i q hv hwait hallow
    rw [hr]
    exact hinv.resume script hw (hwait.update w) (hothers w) (by simpa using hrest r w hanswer)
  next => exact ⟨v, hv, hsuits⟩

lemma move (hinv : InvariantUnder e interrupter contract rests returns Agrees)
    {s : State ι K Q σ} (hs : Holds contract rests returns Agrees s) (m : Move ι K) :
    Holds contract rests returns Agrees (e.moveUnder interrupter s m) := by
  rw [moveUnder]
  split
  case isFalse => exact hs
  case isTrue hdone =>
    cases m with
    | start i script =>
      simp only [Ensemble.move]
      split
      next hready =>
        obtain ⟨v, hv, hsuits⟩ := hs
        have hi := hsuits i
        rw [hready] at hi
        exact ⟨v, hv, suits_update (fun j _ => hsuits j) hi⟩
      next => exact hs
    | proceed i => exact hinv.proceed hs hdone

/-- What holds at the start holds under every schedule. -/
theorem run (hinv : InvariantUnder e interrupter contract rests returns Agrees)
    {s : State ι K Q σ} (hs : Holds contract rests returns Agrees s)
    (schedule : List (Move ι K)) :
    Holds contract rests returns Agrees (e.runUnder interrupter schedule s) := by
  induction schedule generalizing s with
  | nil => exact hs
  | cons m rest ih => exact ih (hinv.move hs m)

end InvariantUnder

lemma run_eq_runUnder (schedule : List (Move ι K)) (s : State ι K Q σ) :
    e.run schedule s = e.runUnder (fun _ => none) schedule s := by
  induction schedule generalizing s with
  | nil => rfl
  | cons m rest ih => exact ih (e.move s m)

/-- The same without interrupts. -/
theorem Invariant.run (hinv : Invariant e contract rests returns Agrees) {s : State ι K Q σ}
    (hs : Holds contract rests returns Agrees s) (schedule : List (Move ι K)) :
    Holds contract rests returns Agrees (e.run schedule s) := by
  rw [run_eq_runUnder]
  refine InvariantUnder.run ⟨?_, ?_, ?_⟩ hs schedule
  · exact fun i k hv _ => hinv.begin_call i k hv
  · exact fun i q hv _ => hinv.answer i q hv
  · exact fun i k r hv _ => hinv.return_call i k r hv

end Invariant

/-!
### Which call a context is inside of
-/

section Tracked

variable {e : Ensemble ι K Q σ ε} {s : State ι K Q σ}

/-- The history tells which calls the contexts are inside of, except for those that were stopped. -/
def Tracked (s : State ι K Q σ) : Prop :=
  ∀ i, s.activity i ≠ .stopped → s.history.current i = (s.activity i).call?

lemma tracked_idle (shared : σ) : Tracked (.idle shared : State ι K Q σ) := fun _ _ => rfl

lemma tracked_update {i : ι} {a : Activity K Q} {activity : ι → Activity K Q} {shared : σ}
    {h : History ι K} (ha : a ≠ .stopped → h.current i = a.call?)
    (hothers : ∀ j ≠ i, activity j ≠ .stopped → h.current j = (activity j).call?) :
    Tracked ⟨shared, Function.update activity i a, h⟩ :=
  (Function.forall_update_iff activity fun j a => a ≠ .stopped → h.current j = a.call?).mpr
    ⟨ha, hothers⟩

lemma tracked_resume {i : ι} {k : K} {rest : Program Q (Request.Answer k)}
    {script : Request.Answer k → Program K Unit} (hcurrent : s.history.current i = some k)
    (hothers : ∀ j ≠ i, s.activity j ≠ .stopped → s.history.current j = (s.activity j).call?) :
    Tracked (resume i k rest script s) := by
  cases rest with
  | done r =>
    refine tracked_update (by simp [Activity.call?]) ?_
    intro j hj
    simpa [Ne.symm hj] using hothers j hj
  | ask q rest => exact tracked_update (fun _ => hcurrent) hothers

lemma tracked_proceed (hs : Tracked s) (i : ι) : Tracked (e.proceed i s) := by
  simp only [Ensemble.proceed]
  split
  next => exact hs
  next k script hready =>
    split
    · refine tracked_resume (by simp) ?_
      intro j hj
      simpa [Ne.symm hj] using hs j
    · exact hs
  next k q rest script hinside =>
    have hcurrent : s.history.current i = some k := by simp [hs i, hinside, Activity.call?]
    split
    · exact tracked_resume hcurrent fun j _ => hs j
    · exact tracked_update (absurd rfl) fun j _ => hs j
  next => exact hs

lemma tracked_run (hs : Tracked s) (schedule : List (Move ι K)) : Tracked (e.run schedule s) := by
  induction schedule generalizing s with
  | nil => exact hs
  | cons m rest ih =>
    apply ih
    cases m with
    | proceed i => exact tracked_proceed hs i
    | start i script =>
      simp only [Ensemble.move]
      split
      next hready =>
        refine tracked_update ?_ fun j _ => hs j
        simpa [hready, Activity.call?] using hs i
      next => exact hs

/-- What holds at the start holds under every schedule, and the history tells which calls the
contexts are inside of. -/
lemma Invariant.run_idle {contract : ι → Contract Q V} {rests : ι → V → Prop}
    {returns : ι → (k : K) → Request.Answer k → V → Prop}
    {Agrees : History ι K → σ → (ι → V) → Prop} (hinv : Invariant e contract rests returns Agrees)
    {shared : σ} (hs : Holds contract rests returns Agrees (.idle shared))
    (schedule : List (Move ι K)) :
    ∃ v, Agrees (e.run schedule (.idle shared)).history (e.run schedule (.idle shared)).shared v ∧
      ∀ i, (e.run schedule (.idle shared)).history.current i =
        ((e.run schedule (.idle shared)).activity i).call? := by
  have hrun := hinv.run hs schedule
  have hserved := hrun.not_stopped
  obtain ⟨v, hv, -⟩ := hrun
  exact ⟨v, hv, fun i => tracked_run (tracked_idle shared) schedule i (hserved i)⟩

end Tracked

end Ensemble

end Intercore
