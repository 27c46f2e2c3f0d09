import Intercore.Proofs.Log
import Intercore.Proofs.Semaphore.Contention

/-!
# Writes to claim registers

What the calls on channels may be seen to do to the block, whatever its registers answer.

To write the key of a holder releases the channel, so a write that nothing was looked up for could turn
a lock over. A key is written only directly behind a look at the same register: one that found the
channel free if it is to be claimed, and one that found the key if it is to be released. What a call
reports is what it saw last.
-/

namespace Intercore.Semaphore

/-- The requests of a program with their answers, oldest first. -/
abbrev Log := List (Event Request)

/-- A claim register was read as a word. -/
def saw (i : UInt8) (v : UInt32) : Event Request := ⟨.access (.read (.sem i)), v⟩

/-- A word was written to a claim register. -/
def put (i : UInt8) (v : UInt32) : Event Request := ⟨.access (.write (.sem i) v), ()⟩

/-- Others were let run. -/
def paused : Event Request := ⟨.access .pause, ()⟩

/-- The key that was read from the claim register of a channel. -/
def seen (ch : Channel) : Event Request → Option UInt8
  | ⟨.access (.read (.sem i)), v⟩ => if i = ch.index then some (v : UInt32).toUInt8 else none
  | _ => none

/-- The key that was read last from the claim register of a channel. -/
def lastSeen (ch : Channel) (log : Log) : Option UInt8 := (log.filterMap (seen ch)).getLast?

def isPut : Event Request → Bool
  | ⟨.access (.write (.sem _) _), _⟩ => true
  | _ => false

/-- Every write to a claim register is that of a key to the register of a channel, and directly before
it the same register was read as `expected`. -/
def Guarded (ch : Channel) (key : Key) (expected : UInt8) (log : Log) : Prop :=
  ∀ before i v after, log = before ++ put i v :: after →
    i = ch.index ∧ v = key.raw.toUInt32 ∧
      ∃ earlier w, before = earlier ++ [saw ch.index w] ∧ w.toUInt8 = expected

section Events

variable {i i' : UInt8} {v v' : UInt32}

@[simp] lemma put_inj : put i v = put i' v' ↔ i = i' ∧ v = v' := by
  constructor
  · rintro ⟨⟩
    exact ⟨rfl, rfl⟩
  · rintro ⟨rfl, rfl⟩
    rfl

@[simp] lemma put_ne_saw : put i v ≠ saw i' v' := nofun

@[simp] lemma put_ne_paused : put i v ≠ paused := nofun

@[simp] lemma isPut_saw : isPut (saw i v) = false := rfl

@[simp] lemma isPut_put : isPut (put i v) = true := rfl

end Events

variable {ch : Channel} {key : Key} {expected : UInt8} {log log' : Log} {attempts : Nat}

lemma lastSeen_look (v : UInt32) : lastSeen ch [saw ch.index v] = some v.toUInt8 := by
  simp [lastSeen, seen, saw]

lemma lastSeen_append {k : UInt8} (h : lastSeen ch log' = some k) :
    lastSeen ch (log ++ log') = some k := by
  rw [lastSeen] at h ⊢
  rw [List.filterMap_append, List.getLast?_append, h, Option.some_or]

namespace Guarded

lemma of_not_mem (h : ∀ i v, put i v ∉ log) : Guarded ch key expected log := by
  rintro before i v after rfl
  exact absurd (by simp) (h i v)

lemma look_and_put {w : UInt32} (hw : w.toUInt8 = expected) :
    Guarded ch key expected [saw ch.index w, put ch.index key.raw.toUInt32] := by
  intro before i v after h
  match before, h with
  | [], h => exact absurd (List.cons.inj h).1.symm put_ne_saw
  | [_], h =>
    simp only [List.cons_append, List.nil_append, List.cons.injEq, put_inj] at h
    obtain ⟨rfl, ⟨rfl, rfl⟩, -⟩ := h
    exact ⟨rfl, rfl, [], w, rfl, hw⟩
  | _ :: _ :: _, h => simp at h

lemma append (h : Guarded ch key expected log) (h' : Guarded ch key expected log') :
    Guarded ch key expected (log ++ log') := by
  intro before i v after heq
  -- the write is in the second log, or in the first one
  rcases List.append_eq_append_iff.mp heq with ⟨front, rfl, hlog'⟩ | ⟨back, hlog, hback⟩
  · obtain ⟨hi, hv, earlier, w, rfl, hw⟩ := h' front i v after hlog'
    exact ⟨hi, hv, log ++ earlier, w, by simp, hw⟩
  · cases back with
    | nil =>
      obtain ⟨-, -, earlier, w, hnil, -⟩ := h' [] i v after hback.symm
      simp at hnil
    | cons e back =>
      obtain ⟨rfl, rfl⟩ := List.cons.inj hback
      exact h before i v back hlog

end Guarded

/-!
### Attempts
-/

lemma logs_read {i : UInt8} {v : UInt32} : (read (.sem i)).Logs log v ↔ log = [saw i v] :=
  Program.logs_request

lemma logs_readKey {k : UInt8} :
    (readKey ch).Logs log k ↔ ∃ v, log = [saw ch.index v] ∧ k = v.toUInt8 := by
  simp [readKey, Program.logs_bind, logs_read]

lemma logs_writeKey {u : Unit} :
    (writeKey ch key).Logs log u ↔ log = [put ch.index key.raw.toUInt32] :=
  Program.logs_request

lemma logs_pause {u : Unit} : pause.Logs log u ↔ log = [paused] := Program.logs_request

/-- What is seen of an attempt to claim a channel, and whether it was successful. -/
inductive AttemptLog (ch : Channel) (key : Key) : Log → Bool → Prop
  /-- The key has the channel already. -/
  | held {v : UInt32} (h : v.toUInt8 = key.raw) : AttemptLog ch key [saw ch.index v] true
  /-- Another key has it. -/
  | taken {v : UInt32} (h : v.toUInt8 ≠ key.raw) (hne : v.toUInt8 ≠ 0) :
    AttemptLog ch key [saw ch.index v] false
  /-- It was free. The key is written and read back. -/
  | written {v w : UInt32} (h : v.toUInt8 = 0) :
    AttemptLog ch key ([saw ch.index v, put ch.index key.raw.toUInt32] ++ [saw ch.index w])
      (w.toUInt8 = key.raw)

lemma attemptLog_of_logs {won : Bool} (h : (tryLock ch key).Logs log won) :
    AttemptLog ch key log won := by
  rw [tryLock, Program.bind_eq, Program.logs_bind] at h
  obtain ⟨_, rest, _, rfl, hlook, h⟩ := h
  obtain ⟨v, rfl, rfl⟩ := logs_readKey.mp hlook
  by_cases hheld : v.toUInt8 = key.raw
  · rw [if_pos hheld] at h
    obtain ⟨rfl, rfl⟩ := h
    exact .held hheld
  by_cases hfree : v.toUInt8 = 0
  · simp only [if_neg hheld, if_neg (not_not.mpr hfree), Program.bind_eq, Program.pure_eq,
      Program.logs_bind, logs_writeKey, logs_readKey, Program.logs_done] at h
    obtain ⟨_, rest, _, rfl, rfl, _, _, _, rfl, ⟨w, rfl, rfl⟩, rfl, rfl⟩ := h
    exact .written hfree
  · rw [if_neg hheld, if_pos hfree] at h
    obtain ⟨rfl, rfl⟩ := h
    exact .taken hheld hfree

namespace AttemptLog

variable {won : Bool}

lemma guarded (h : AttemptLog ch key log won) : Guarded ch key 0 log := by
  cases h with
  | held | taken => exact .of_not_mem (by simp)
  | written hfree => exact (Guarded.look_and_put hfree).append (.of_not_mem (by simp))

/-- A successful attempt has read the key last. -/
lemma lastSeen_eq (h : AttemptLog ch key log true) : lastSeen ch log = some key.raw := by
  generalize hwon : true = won at h
  cases h with
  | held hheld => rw [lastSeen_look, hheld]
  | taken => cases hwon
  | @written _ w =>
    have hback : w.toUInt8 = key.raw := by simpa using hwon
    exact lastSeen_append (by rw [lastSeen_look, hback])

lemma countP_isPut_le (h : AttemptLog ch key log won) : log.countP isPut ≤ 1 := by
  cases h with
  | held | taken => simp
  | written => simp [List.countP_cons]

end AttemptLog

/-!
### Rounds of attempts
-/

/-- The rounds of a lock and whether it was successful: attempts, with a pause behind each that failed,
until one succeeds or none is left. -/
inductive Rounds (ch : Channel) (key : Key) : (attempts : Nat) → List Log → Bool → Prop
  | done : Rounds ch key 0 [] false
  | won {n : Nat} {own : Log} (h : (tryLock ch key).Logs own true) : Rounds ch key (n + 1) [own] true
  | lost {n : Nat} {own : Log} {rounds : List Log} {won : Bool}
    (h : (tryLock ch key).Logs own false) (rest : Rounds ch key n rounds won) :
    Rounds ch key (n + 1) ((own ++ [paused]) :: rounds) won

lemma rounds_of_logs {won : Bool} (h : (lockWithin ch key attempts).Logs log won) :
    ∃ rounds, log = rounds.flatten ∧ Rounds ch key attempts rounds won := by
  induction attempts generalizing log with
  | zero =>
    obtain ⟨rfl, rfl⟩ := h
    exact ⟨[], rfl, .done⟩
  | succ attempts ih =>
    rw [lockWithin, Program.bind_eq, Program.logs_bind] at h
    obtain ⟨own, rest, first, rfl, hown, h⟩ := h
    cases first with
    | true =>
      obtain ⟨rfl, rfl⟩ := h
      exact ⟨[own], by simp, .won hown⟩
    | false =>
      simp only [Bool.false_eq_true, if_false, Program.bind_eq, Program.logs_bind, logs_pause] at h
      obtain ⟨_, rest, _, rfl, rfl, h⟩ := h
      obtain ⟨rounds, rfl, hrounds⟩ := ih h
      exact ⟨_, by simp, .lost hown hrounds⟩

namespace Rounds

variable {rounds : List Log} {won : Bool}

lemma length_le (h : Rounds ch key attempts rounds won) : rounds.length ≤ attempts := by
  induction h with
  | done => exact Nat.le_refl 0
  | won => exact Nat.succ_le_succ (Nat.zero_le _)
  | lost _ _ ih => exact Nat.succ_le_succ ih

lemma countP_isPut_le (h : Rounds ch key attempts rounds won) :
    ∀ round ∈ rounds, round.countP isPut ≤ 1 := by
  induction h with
  | done => simp
  | won h => simpa using (attemptLog_of_logs h).countP_isPut_le
  | lost h _ ih =>
    rw [List.forall_mem_cons]
    exact ⟨by simpa [paused, isPut] using (attemptLog_of_logs h).countP_isPut_le, ih⟩

lemma guarded (h : Rounds ch key attempts rounds won) : Guarded ch key 0 rounds.flatten := by
  induction h with
  | done => exact .of_not_mem (by simp)
  | won h => simpa using (attemptLog_of_logs h).guarded
  | lost h _ ih =>
    have hpause : Guarded ch key 0 [paused] := .of_not_mem (by simp)
    exact ((attemptLog_of_logs h).guarded.append hpause).append ih

lemma lastSeen_eq (h : Rounds ch key attempts rounds true) :
    lastSeen ch rounds.flatten = some key.raw := by
  generalize hwon : true = won at h
  induction h with
  | done => cases hwon
  | won h => simpa using (attemptLog_of_logs h).lastSeen_eq
  | lost _ _ ih => exact lastSeen_append (ih hwon)

end Rounds

/-!
### Calls
-/

namespace Call

def channel : Call → Channel
  | tryLock ch | lockWith ch _ | lockBounded ch _ | unlock ch | drop ch => ch

/-- What a claim register has to be read as for a call to write it. -/
def expects (key : Key) : Call → UInt8
  | tryLock _ | lockWith _ _ | lockBounded _ _ => 0
  | unlock _ | drop _ => key.raw

/-- What a bounded lock writes and reports. It has at most one write in each of its rounds. If all
rounds failed, it looks once more and reports the key that it sees then. -/
def Bounded (key : Key) : (k : Call) → Log → Intercore.Request.Answer k → Prop
  | lockBounded ch attempts, log, r => ∃ rounds, rounds.length ≤ attempts ∧
      (∀ round ∈ rounds, round.countP isPut ≤ 1) ∧
      match r with
      | .ok g => g = ⟨ch, key⟩ ∧ log = rounds.flatten ∧ Rounds ch key attempts rounds true
      | .error e => Rounds ch key attempts rounds false ∧ ∃ v,
          log = rounds.flatten ++ [saw ch.index v] ∧ e = .timeout (Key.ofRaw? v.toUInt8)
  | _, _, _ => True

end Call

/-- What a call must and must not do, whatever it sees. -/
structure Disciplined (key : Key) (k : Call) (log : Log) (r : Intercore.Request.Answer k) :
    Prop where
  guarded : Guarded k.channel key (k.expects key) log
  /-- The key is what a lock has read last if it reports to have the channel. -/
  locked : ∀ ch, k.locked? r = some ch → ch = k.channel ∧ lastSeen ch log = some key.raw
  bounded : k.Bounded key log r

namespace Disciplined

lemma tryLock {won : Bool} (h : (Semaphore.tryLock ch key).Logs log won) :
    Disciplined key (.tryLock ch) log won where
  guarded := (attemptLog_of_logs h).guarded
  locked := by
    intro c hc
    cases won with
    | false => cases hc
    | true =>
      cases hc
      exact ⟨rfl, (attemptLog_of_logs h).lastSeen_eq⟩
  bounded := trivial

lemma lockWith {won : Bool} (h : (lockWithin ch key attempts).Logs log won) :
    Disciplined key (.lockWith ch attempts) log won := by
  obtain ⟨rounds, rfl, hrounds⟩ := rounds_of_logs h
  refine ⟨hrounds.guarded, ?_, trivial⟩
  intro c hc
  cases won with
  | false => cases hc
  | true =>
    cases hc
    exact ⟨rfl, hrounds.lastSeen_eq⟩

lemma lockBounded {r : Except LockError Guard}
    (h : (Semaphore.lockBounded ch key attempts).Logs log r) :
    Disciplined key (.lockBounded ch attempts) log r := by
  rw [Semaphore.lockBounded, Program.bind_eq, Program.logs_bind] at h
  obtain ⟨_, rest, won, rfl, hlock, h⟩ := h
  obtain ⟨rounds, rfl, hrounds⟩ := rounds_of_logs hlock
  cases won with
  | true =>
    obtain ⟨rfl, rfl⟩ := h
    rw [List.append_nil]
    refine ⟨hrounds.guarded, ?_, ?_⟩
    · intro c hc
      cases hc
      exact ⟨rfl, hrounds.lastSeen_eq⟩
    · exact ⟨rounds, hrounds.length_le, hrounds.countP_isPut_le, rfl, rfl, hrounds⟩
  | false =>
    simp only [Bool.false_eq_true, if_false, holder, Program.bind_eq, Program.pure_eq,
      Program.logs_bind, logs_readKey, Program.logs_done] at h
    obtain ⟨_, _, _, rfl, ⟨_, _, _, rfl, ⟨v, rfl, rfl⟩, rfl, rfl⟩, rfl, rfl⟩ := h
    simp only [List.append_nil]
    refine ⟨hrounds.guarded.append (.of_not_mem (by simp)), ?_, ?_⟩
    · intro c hc
      cases hc
    · exact ⟨rounds, hrounds.length_le, hrounds.countP_isPut_le, hrounds, v, rfl, rfl⟩

/-- To unlock a channel and to let go of a guard for it are the same. -/
lemma guarded_of_unlock {r : Except LockError Unit} (h : (Semaphore.unlock ch key).Logs log r) :
    Guarded ch key key.raw log := by
  rw [Semaphore.unlock, Program.bind_eq, Program.logs_bind] at h
  obtain ⟨_, rest, _, rfl, hlook, h⟩ := h
  obtain ⟨v, rfl, rfl⟩ := logs_readKey.mp hlook
  by_cases hheld : v.toUInt8 = key.raw
  · simp only [if_neg (not_not.mpr hheld), Program.bind_eq, Program.pure_eq, Program.logs_bind,
      logs_writeKey, Program.logs_done] at h
    obtain ⟨_, _, _, rfl, rfl, rfl, rfl⟩ := h
    simpa using Guarded.look_and_put hheld
  · rw [if_pos hheld] at h
    obtain ⟨rfl, rfl⟩ := h
    exact .of_not_mem (by simp)

lemma of_logs {k : Call} {r : Intercore.Request.Answer k} (h : (k.program key).Logs log r) :
    Disciplined key k log r := by
  cases k with
  | tryLock ch => exact tryLock h
  | lockWith ch rounds => exact lockWith h
  | lockBounded ch attempts => exact lockBounded h
  | unlock ch | drop ch => exact ⟨guarded_of_unlock h, nofun, trivial⟩

end Disciplined

/-- A call with the key that it is made with. -/
structure KeyedCall where
  key : Key
  call : Call
  deriving DecidableEq, Repr

instance : Intercore.Request KeyedCall := ⟨fun k => k.call.Answer⟩

def KeyedCall.program (k : KeyedCall) : Prog (Intercore.Request.Answer k) := k.call.program k.key

/-- Whatever the registers answer, a program of calls ends, and each of its calls keeps the discipline. The
accesses of the calls stand one behind the other in the order in which they were made. -/
theorem claim_writes_disciplined {σ ε α : Type}
    (answer : (q : Request) → σ → Intercore.Request.Answer q × σ) (s : σ)
    (p : Program KeyedCall α) :
    ∃ r s' log, (p.interpret KeyedCall.program).run
        (Handler.answering answer : Handler Request σ ε).recording (s, []) =
          (.ok r, s', log.reverse) ∧
      ∃ made : List (Event KeyedCall × Log), log = made.flatMap (·.2) ∧ p.Logs (made.map (·.1)) r ∧
        ∀ m ∈ made, Disciplined m.1.request.key m.1.request.call m.2 m.1.answer := by
  obtain ⟨r, s', log, hlog, hrun⟩ := (p.interpret KeyedCall.program).run_recording answer s []
  obtain ⟨made, hmade, hcalls, hlogs⟩ := Program.logs_interpret.mp hlog
  rw [List.append_nil] at hrun
  exact ⟨r, s', log, hrun, made, hmade, hcalls, fun m hm => .of_logs (hlogs m hm)⟩

end Intercore.Semaphore
