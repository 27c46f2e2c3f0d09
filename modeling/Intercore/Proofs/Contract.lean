import Intercore.Program
import Mathlib.Tactic.Lemma

/-!
# Contracts between programs and their surroundings

A contract says which requests a program may make and how each may be answered, in terms of a
*view*: what the program knows of the state, together with what has to be remembered for the
proof. A program that keeps a contract is verified once, without the state behind the view. The
surroundings are verified once too, one request at a time.
-/

namespace Intercore

/-- What a program and its surroundings expect of each other. -/
structure Contract (Q V : Type) [Request Q] where
  /-- Whether a program with this view may make a request. -/
  allows : V → Q → Prop
  /-- Whether a request may be answered in this way, and leave the program with that view. -/
  answers : V → (q : Q) → Request.Answer q → V → Prop

variable {Q V α β : Type} [Request Q]

namespace Program

/-- Every request of the program is allowed whatever the answers were, and it ends with a result
and a view as `post` says. -/
def Keeps (C : Contract Q V) (post : α → V → Prop) : Program Q α → V → Prop
  | done a, v => post a v
  | ask q next, v => C.allows v q ∧ ∀ r v', C.answers v q r v' → (next r).Keeps C post v'

variable {C : Contract Q V}

@[simp] lemma keeps_done {post : α → V → Prop} {a : α} {v : V} :
    (done a : Program Q α).Keeps C post v ↔ post a v := Iff.rfl

lemma keeps_ask {post : α → V → Prop} {q : Q} {next : Request.Answer q → Program Q α} {v : V} :
    (ask q next).Keeps C post v ↔
      C.allows v q ∧ ∀ r v', C.answers v q r v' → (next r).Keeps C post v' := Iff.rfl

lemma Keeps.mono {post post' : α → V → Prop} {p : Program Q α} {v : V}
    (h : p.Keeps C post v) (hpost : ∀ a v', post a v' → post' a v') : p.Keeps C post' v := by
  induction p generalizing v with
  | done a => exact hpost a v h
  | ask q next ih =>
    constructor
    · exact h.1
    · intro r v' hr
      exact ih r (h.2 r v' hr)

/-- What every allowed request preserves can be added to the end of a program. -/
lemma Keeps.and_invariant {post : α → V → Prop} {I : V → Prop} {p : Program Q α} {v : V}
    (h : p.Keeps C post v) (hv : I v)
    (hI : ∀ v q r v', I v → C.allows v q → C.answers v q r v' → I v') :
    p.Keeps C (fun a v' => post a v' ∧ I v') v := by
  induction p generalizing v with
  | done a => exact ⟨h, hv⟩
  | ask q next ih =>
    constructor
    · exact h.1
    · intro r v' hr
      exact ih r (h.2 r v' hr) (hI v q r v' hv h.1 hr)

/-- A sequence keeps the contract if the first part ends where the second may begin. -/
lemma keeps_bind {post : β → V → Prop} {p : Program Q α} {k : α → Program Q β} {v : V} :
    (p.bind k).Keeps C post v ↔ p.Keeps C (fun a v' => (k a).Keeps C post v') v := by
  induction p generalizing v with
  | done a => rfl
  | ask q next ih => simp only [ask_bind, keeps_ask, ih]

/-- Every request that the program can make satisfies `P`, whatever the answers were. -/
def All (P : Q → Prop) : Program Q α → Prop
  | done _ => True
  | ask q next => P q ∧ ∀ r, (next r).All P

lemma All.mono {P P' : Q → Prop} {p : Program Q α} (hp : p.All P) (h : ∀ q, P q → P' q) :
    p.All P' := by
  induction p with
  | done a => trivial
  | ask q next ih => exact ⟨h q hp.1, fun r => ih r (hp.2 r)⟩

lemma all_bind {P : Q → Prop} {p : Program Q α} {k : α → Program Q β} (hp : p.All P)
    (hk : ∀ a, (k a).All P) : (p.bind k).All P := by
  induction p with
  | done a => exact hk a
  | ask q next ih =>
    constructor
    · exact hp.1
    · intro r
      exact ih r (hp.2 r)

/-- Requests that preserve what is known of the view can be made as often as one likes. -/
lemma All.keeps {P : Q → Prop} {I : V → Prop} {p : Program Q α} {v : V} (hp : p.All P) (hv : I v)
    (hP : ∀ q v, P q → I v → C.allows v q ∧ ∀ r v', C.answers v q r v' → I v') :
    p.Keeps C (fun _ => I) v := by
  induction p generalizing v with
  | done a => exact hv
  | ask q next ih =>
    obtain ⟨hallow, hnext⟩ := hP q v hp.1 hv
    constructor
    · exact hallow
    · intro r v' hr
      exact ih r (hp.2 r) (hnext r v' hr)

end Program

/-- The contract of a program that may lose its view between any two requests. Without a view it
still makes requests that satisfy `P`, and nothing is known of the answers. -/
def Contract.orLost (C : Contract Q V) (P : Q → Prop) : Contract Q (Option V) where
  allows v q := P q ∧ ∀ w, v = some w → C.allows w q
  answers v q r v' := ∀ w', v' = some w' → ∃ w, v = some w ∧ C.answers w q r w'

lemma Contract.orLost_answers_none {C : Contract Q V} {P : Q → Prop} {v : Option V} {q : Q}
    {r : Request.Answer q} : (C.orLost P).answers v q r none := by
  rintro _ ⟨⟩

lemma Contract.orLost_answers_some {C : Contract Q V} {P : Q → Prop} {v v' : V} {q : Q}
    {r : Request.Answer q} (h : C.answers v q r v') : (C.orLost P).answers (some v) q r (some v') := by
  rintro _ ⟨⟩
  exact ⟨v, rfl, h⟩

/-- A program that keeps a contract keeps it for as long as it has a view. -/
lemma Program.All.keeps_orLost {C : Contract Q V} {P : Q → Prop} {post : α → V → Prop}
    {p : Program Q α} {v : Option V} (hall : p.All P) (hp : ∀ w, v = some w → p.Keeps C post w) :
    p.Keeps (C.orLost P) (fun a v' => ∀ w, v' = some w → post a w) v := by
  induction p generalizing v with
  | done a => exact hp
  | ask q next ih =>
    refine ⟨⟨hall.1, fun w hw => (hp w hw).1⟩, ?_⟩
    intro r v' hr
    apply ih r (hall.2 r)
    intro w' hw'
    obtain ⟨w, hw, hanswer⟩ := hr w' hw'
    exact (hp w hw).2 r w' hanswer

/-- The surroundings answer every request that the contract allows in the way it says. The view
is read off their state. -/
def Contract.HonouredBy {σ ε : Type} (C : Contract Q V) (h : Handler Q σ ε) (view : σ → V) :
    Prop :=
  ∀ q s r s', C.allows (view s) q → h q s = (.ok r, s') → C.answers (view s) q r (view s')

/-- A program that runs to its end in surroundings that honour the contract ends as it says. -/
lemma Program.Keeps.run {σ ε : Type} {C : Contract Q V} {h : Handler Q σ ε} {view : σ → V}
    {post : α → V → Prop} {p : Program Q α} {s s' : σ} {a : α} (hp : p.Keeps C post (view s))
    (hC : C.HonouredBy h view) (hrun : p.run h s = (.ok a, s')) : post a (view s') := by
  induction p generalizing s with
  | done b =>
    cases hrun
    exact hp
  | ask q next ih =>
    rw [Program.run] at hrun
    split at hrun
    · rename_i r t hq
      exact ih r (hp.2 r (view t) (hC q s r t hp.1 hq)) hrun
    · cases hrun

/-- The surroundings answer every request that the contract allows, and do so in the way it says. -/
def Contract.ServedBy {σ ε : Type} (C : Contract Q V) (h : Handler Q σ ε) (Sees : σ → V → Prop) :
    Prop :=
  ∀ q s v, Sees s v → C.allows v q →
    ∃ r s' v', h q s = (.ok r, s') ∧ C.answers v q r v' ∧ Sees s' v'

lemma Program.Keeps.run_served {σ ε : Type} {C : Contract Q V} {h : Handler Q σ ε}
    {Sees : σ → V → Prop} {post : α → V → Prop} {p : Program Q α} {s : σ} {v : V}
    (hp : p.Keeps C post v) (hC : C.ServedBy h Sees) (hs : Sees s v) :
    ∃ a s' v', p.run h s = (.ok a, s') ∧ post a v' ∧ Sees s' v' := by
  induction p generalizing s v with
  | done a => exact ⟨a, s, v, rfl, hp, hs⟩
  | ask q next ih =>
    obtain ⟨r, t, w, hq, hr, ht⟩ := hC q s v hs hp.1
    obtain ⟨a, s', v', hrun, hpost, hs'⟩ := ih r (hp.2 r w hr) ht
    refine ⟨a, s', v', ?_, hpost, hs'⟩
    rw [Program.run, hq]
    exact hrun

/-- If every request is answered and keeps an invariant, every program runs and keeps it. -/
lemma Program.run_of_step {σ ε : Type} {h : Handler Q σ ε} {I : σ → Prop}
    (hstep : ∀ q s, I s → ∃ r s', h q s = (.ok r, s') ∧ I s') (p : Program Q α) {s : σ} (hs : I s) :
    ∃ a s', p.run h s = (.ok a, s') ∧ I s' := by
  induction p generalizing s with
  | done a => exact ⟨a, s, rfl, hs⟩
  | ask q next ih =>
    obtain ⟨r, t, hq, ht⟩ := hstep q s hs
    obtain ⟨a, s', hrun, hs'⟩ := ih r ht
    refine ⟨a, s', ?_, hs'⟩
    rw [Program.run, hq]
    exact hrun

/-- If every request is answered that the program can make, it runs to its end. -/
lemma Program.All.run {σ ε : Type} {h : Handler Q σ ε} {P : Q → Prop} {p : Program Q α}
    (hp : p.All P) (hP : ∀ q s, P q → ∃ r s', h q s = (.ok r, s')) (s : σ) :
    ∃ a s', p.run h s = (.ok a, s') := by
  induction p generalizing s with
  | done a => exact ⟨a, s, rfl⟩
  | ask q next ih =>
    obtain ⟨r, t, hq⟩ := hP q s hp.1
    obtain ⟨a, s', hrun⟩ := ih r (hp.2 r) t
    refine ⟨a, s', ?_⟩
    rw [Program.run, hq]
    exact hrun

/-- A sequence runs to its end exactly if its parts do, one after the other. -/
lemma Program.run_bind_eq_ok {σ ε : Type} {h : Handler Q σ ε} {p : Program Q α}
    {k : α → Program Q β} {s s' : σ} {b : β} :
    (p.bind k).run h s = (.ok b, s') ↔
      ∃ a t, p.run h s = (.ok a, t) ∧ (k a).run h t = (.ok b, s') := by
  rw [Program.run_bind]
  rcases p.run h s with ⟨_ | a, t⟩
  · simp
  · constructor
    · intro hk
      exact ⟨a, t, rfl, hk⟩
    · rintro ⟨_, _, ⟨⟩, hk⟩
      exact hk

/-- If two surroundings answer every request alike and stay related, no program can tell them apart. -/
lemma Program.run_of_simulation {σ τ ε : Type} {h : Handler Q σ ε} {h' : Handler Q τ ε}
    {R : σ → τ → Prop}
    (hstep : ∀ q s t, R s t → ∃ r s' t', h q s = (.ok r, s') ∧ h' q t = (.ok r, t') ∧ R s' t')
    (p : Program Q α) {s : σ} {t : τ} (hst : R s t) :
    ∃ a s' t', p.run h s = (.ok a, s') ∧ p.run h' t = (.ok a, t') ∧ R s' t' := by
  induction p generalizing s t with
  | done a => exact ⟨a, s, t, rfl, rfl, hst⟩
  | ask q next ih =>
    obtain ⟨r, s₁, t₁, hq, hq', hst₁⟩ := hstep q s t hst
    obtain ⟨a, s', t', hrun, hrun', hst'⟩ := ih r hst₁
    refine ⟨a, s', t', ?_, ?_, hst'⟩
    · rw [Program.run, hq]
      exact hrun
    · rw [Program.run, hq']
      exact hrun'

end Intercore
