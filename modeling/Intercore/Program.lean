/-!
# Programs

Programs that act on the outside world through requests.

A program is a tree: it ends with a result, or it makes one request and goes on with the
answer. What answers the requests is not part of the program, so one and the same program
runs against a model of the hardware, against lined-up replies or against plain memory, and can
be interleaved with other programs between any two of its requests.
-/

namespace Intercore

/-- A type of requests together with the type of the answer to each of them. -/
class Request (Q : Type) where
  Answer : Q → Type

/-- A program that makes requests one after the other and ends with a result. -/
inductive Program (Q : Type) [Request Q] (α : Type) where
  | done (result : α)
  | ask (q : Q) (next : Request.Answer q → Program Q α)

/-- What answers requests: each may change the state, or stop the program with an error. -/
abbrev Handler (Q : Type) [Request Q] (σ ε : Type) :=
  (q : Q) → σ → Except ε (Request.Answer q) × σ

/-- One request that was made, with the answer it got. -/
structure Event (Q : Type) [Request Q] where
  request : Q
  answer : Request.Answer request

namespace Program

variable {Q R : Type} [Request Q] [Request R] {α β γ σ ε : Type}

/-- Goes on with a second program, chosen by the result of the first. -/
def bind (p : Program Q α) (k : α → Program Q β) : Program Q β :=
  match p with
  | done a => k a
  | ask q next => ask q fun r => (next r).bind k

instance : Monad (Program Q) where
  pure := done
  bind := bind

/-- The program that makes a single request and ends with its answer. -/
def request (q : Q) : Program Q (Request.Answer q) := ask q done

/-- Runs a program: every request goes to the handler, the first error ends the run. -/
def run (h : Handler Q σ ε) : Program Q α → σ → Except ε α × σ
  | done a, s => (.ok a, s)
  | ask q next, s =>
    match h q s with
    | (.ok r, s') => (next r).run h s'
    | (.error e, s') => (.error e, s')

/-- Replaces every request by a program over other requests. -/
def interpret (f : (q : Q) → Program R (Request.Answer q)) : Program Q α → Program R α
  | done a => done a
  | ask q next => (f q).bind fun r => (next r).interpret f

/-!
### Sequencing

Sequencing is associative, and running a sequence is running its parts in order.
-/

@[simp] theorem pure_eq (a : α) : (pure a : Program Q α) = done a := rfl

@[simp] theorem bind_eq (p : Program Q α) (k : α → Program Q β) : (p >>= k) = p.bind k := rfl

@[simp] theorem done_bind (a : α) (k : α → Program Q β) : (done a).bind k = k a := rfl

@[simp] theorem ask_bind (q : Q) (next : Request.Answer q → Program Q α) (k : α → Program Q β) :
    (ask q next).bind k = ask q fun r => (next r).bind k := rfl

theorem bind_done (p : Program Q α) : p.bind done = p := by
  induction p with
  | done a => rfl
  | ask q next ih => simp only [ask_bind, ih]

theorem bind_assoc (p : Program Q α) (k : α → Program Q β) (l : β → Program Q γ) :
    (p.bind k).bind l = p.bind fun a => (k a).bind l := by
  induction p with
  | done a => rfl
  | ask q next ih => simp only [ask_bind, ih]

@[simp] theorem run_done (h : Handler Q σ ε) (a : α) (s : σ) :
    (done a : Program Q α).run h s = (.ok a, s) := rfl

theorem run_bind (h : Handler Q σ ε) (p : Program Q α) (k : α → Program Q β) (s : σ) :
    (p.bind k).run h s =
      match p.run h s with
      | (.ok a, s') => (k a).run h s'
      | (.error e, s') => (.error e, s') := by
  induction p generalizing s with
  | done a => rfl
  | ask q next ih =>
    simp only [ask_bind, run]
    rcases h q s with ⟨_ | r, s'⟩
    · rfl
    · exact ih r s'

@[simp] theorem interpret_done (f : (q : Q) → Program R (Request.Answer q)) (a : α) :
    (done a).interpret f = done a := rfl

@[simp] theorem interpret_request (f : (q : Q) → Program R (Request.Answer q)) (q : Q) :
    (request q).interpret f = f q := bind_done (f q)

theorem interpret_bind (f : (q : Q) → Program R (Request.Answer q)) (p : Program Q α)
    (k : α → Program Q β) :
    (p.bind k).interpret f = (p.interpret f).bind fun a => (k a).interpret f := by
  induction p with
  | done a => rfl
  | ask q next ih => simp only [ask_bind, interpret, ih, bind_assoc]

end Program

/-- A handler that keeps, newest first, every request that was answered. -/
def Handler.recording {Q σ ε : Type} [Request Q] (h : Handler Q σ ε) :
    Handler Q (σ × List (Event Q)) ε := fun q s =>
  match h q s.1 with
  | (.ok r, s') => (.ok r, s', ⟨q, r⟩ :: s.2)
  | (.error e, s') => (.error e, s', s.2)

end Intercore
