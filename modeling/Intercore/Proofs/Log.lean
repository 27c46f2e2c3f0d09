import Intercore.Proofs.Contract

/-!
# Logs

What a program may be seen to do, whatever answers its requests.

A log holds the requests that a program made together with their answers, oldest first. The logs of
a program are read off its tree, so that nothing has to be known of the surroundings.
-/

namespace Intercore

variable {Q σ ε α β : Type} [Request Q]

/-- Surroundings that answer every request in some way. -/
def Handler.answering (answer : (q : Q) → σ → Request.Answer q × σ) : Handler Q σ ε := fun q s =>
  (.ok (answer q s).1, (answer q s).2)

namespace Program

/-- A program makes the requests of a log, if they are answered as the log says, and ends with a
result. -/
def Logs : Program Q α → List (Event Q) → α → Prop
  | done a, log, r => log = [] ∧ r = a
  | ask q next, log, r => ∃ answer rest, log = ⟨q, answer⟩ :: rest ∧ (next answer).Logs rest r

variable {log : List (Event Q)}

@[simp] lemma logs_done {a r : α} : (done a : Program Q α).Logs log r ↔ log = [] ∧ r = a := Iff.rfl

lemma logs_ask {q : Q} {next : Request.Answer q → Program Q α} {r : α} :
    (ask q next).Logs log r ↔
      ∃ answer rest, log = ⟨q, answer⟩ :: rest ∧ (next answer).Logs rest r := Iff.rfl

@[simp] lemma logs_request {q : Q} {r : Request.Answer q} :
    (request q).Logs log r ↔ log = [⟨q, r⟩] := by
  simp only [request, logs_ask, logs_done]
  constructor
  · rintro ⟨answer, rest, rfl, rfl, rfl⟩
    rfl
  · rintro rfl
    exact ⟨r, [], rfl, rfl, rfl⟩

/-- The log of a sequence is that of its first part, and behind it that of the second. -/
lemma logs_bind {p : Program Q α} {k : α → Program Q β} {r : β} :
    (p.bind k).Logs log r ↔
      ∃ before after a, log = before ++ after ∧ p.Logs before a ∧ (k a).Logs after r := by
  induction p generalizing log with
  | done a =>
    constructor
    · intro h
      exact ⟨[], log, a, rfl, ⟨rfl, rfl⟩, h⟩
    · rintro ⟨_, after, _, rfl, ⟨rfl, rfl⟩, h⟩
      exact h
  | ask q next ih =>
    simp only [ask_bind, logs_ask, ih]
    constructor
    · rintro ⟨answer, _, rfl, before, after, a, rfl, hfirst, hsecond⟩
      exact ⟨⟨q, answer⟩ :: before, after, a, rfl, ⟨answer, before, rfl, hfirst⟩, hsecond⟩
    · rintro ⟨_, after, a, rfl, ⟨answer, before, rfl, hfirst⟩, hsecond⟩
      exact ⟨answer, before ++ after, rfl, before, after, a, rfl, hfirst, hsecond⟩

/-- A program of calls has the logs of the calls one behind the other, if each of them is made by a
program in its turn. -/
lemma logs_interpret {R : Type} [Request R] {f : (q : Q) → Program R (Request.Answer q)}
    {p : Program Q α} {log : List (Event R)} {r : α} :
    (p.interpret f).Logs log r ↔
      ∃ made : List (Event Q × List (Event R)), log = made.flatMap (·.2) ∧
        p.Logs (made.map (·.1)) r ∧ ∀ m ∈ made, (f m.1.request).Logs m.2 m.1.answer := by
  induction p generalizing log with
  | done a =>
    simp only [interpret_done, logs_done, List.map_eq_nil_iff]
    constructor
    · rintro ⟨rfl, rfl⟩
      exact ⟨[], rfl, ⟨rfl, rfl⟩, by simp⟩
    · rintro ⟨_, rfl, ⟨rfl, rfl⟩, -⟩
      exact ⟨rfl, rfl⟩
  | ask q next ih =>
    simp only [interpret, logs_bind, ih]
    constructor
    · rintro ⟨own, _, answer, rfl, hown, made, rfl, hnext, hmade⟩
      refine ⟨(⟨q, answer⟩, own) :: made, rfl, ⟨answer, _, rfl, hnext⟩, ?_⟩
      rw [List.forall_mem_cons]
      exact ⟨hown, hmade⟩
    · rintro ⟨made, rfl, ⟨answer, _, heq, hnext⟩, hmade⟩
      obtain ⟨⟨_, own⟩, made, rfl, rfl, rfl⟩ := List.map_eq_cons_iff.mp heq
      rw [List.forall_mem_cons] at hmade
      exact ⟨own, _, answer, rfl, hmade.1, made, rfl, hnext, hmade.2⟩

/-- What is recorded of a run is a log of the program. -/
lemma run_recording (answer : (q : Q) → σ → Request.Answer q × σ) (p : Program Q α) (s : σ)
    (past : List (Event Q)) : ∃ r s' log, p.Logs log r ∧
      p.run (Handler.answering answer : Handler Q σ ε).recording (s, past) =
        (.ok r, s', log.reverse ++ past) := by
  induction p generalizing s past with
  | done a => exact ⟨a, s, [], ⟨rfl, rfl⟩, rfl⟩
  | ask q next ih =>
    obtain ⟨r, s', log, hlog, hrun⟩ :=
      ih (answer q s).1 (answer q s).2 (⟨q, (answer q s).1⟩ :: past)
    refine ⟨r, s', ⟨q, (answer q s).1⟩ :: log, ⟨_, log, rfl, hlog⟩, ?_⟩
    rw [List.reverse_cons, List.append_assoc]
    exact hrun

end Program

end Intercore
