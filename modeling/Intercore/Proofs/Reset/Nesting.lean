import Intercore.Proofs.Reset.Window

/-!
# Nested windows

What a tree of windows makes of the write protection, however deep it is.

A window closes what it has opened whatever is done within it. The body may have closed the protection
or written a part of the sequence that opens it: zero closes what is open, and is no word of the
sequence. Where no body writes to the protection register, the outermost window alone opens and closes.
All others find the protection open and leave it so.
-/

namespace Intercore.Reset

open Controller

/-!
### Trees of actions
-/

mutual

/-- Every raw access of an action is as `P` says, also those of the bodies within it. -/
def Action.Each (P : Access Register → Prop) : Action → Prop
  | .read r => P (.read r)
  | .write r v => P (.write r v)
  | .nested body => AllEach P body

def AllEach (P : Access Register → Prop) : List Action → Prop
  | [] => True
  | a :: as => a.Each P ∧ AllEach P as

end

mutual

/-- Every window of an action was opened, also those within others. -/
def Answer.Opened : Answer → Prop
  | .word _ => True
  | .done => True
  | .nested (.ok answers) => AllOpened answers
  | .nested (.error _) => False

def AllOpened : List Answer → Prop
  | [] => True
  | a :: as => a.Opened ∧ AllOpened as

end

/-- An access that leaves the protection as it is. -/
def SparesLock : Access Register → Prop
  | .write .reglctl _ => False
  | _ => True

section All

variable {P : Access Register → Prop}

mutual

/-- The requests of an action are its raw accesses and those that windows are opened and closed with. -/
lemma Action.program_all (hread : P (.read .reglctl)) (hwrite : ∀ word, P (.write .reglctl word)) :
    ∀ a : Action, a.Each P → a.program.All P
  | .read _, ha => ⟨ha, fun _ => trivial⟩
  | .write _ _, ha => ⟨ha, fun _ => trivial⟩
  | .nested body, ha =>
    Program.all_bind (withOpen_all hread hwrite (programAll_all hread hwrite body ha)) fun _ => trivial

lemma programAll_all (hread : P (.read .reglctl)) (hwrite : ∀ word, P (.write .reglctl word)) :
    ∀ body : List Action, AllEach P body → (programAll body).All P
  | [], _ => trivial
  | a :: as, ⟨ha, has⟩ =>
    Program.all_bind (Action.program_all hread hwrite a ha) fun _ =>
      Program.all_bind (programAll_all hread hwrite as has) fun _ => trivial

end

end All

/-!
### Closing what was opened
-/

/-- Zero is no word of the sequence: writing it leaves the protection closed. -/
lemma Controller.isOpen_writeReglctl_zero (c : Controller) : (c.writeReglctl 0).isOpen = false := by
  have hfollow : follow c.progress 0 = 0 := by
    match c.progress with
    | 0 | 1 | 2 | _ + 3 => rfl
  by_cases hopen : c.isOpen = true
  · simp [writeReglctl, hopen]
  · rw [writeReglctl, if_neg hopen, hfollow, if_pos (by decide)]
    exact Bool.eq_false_iff.mpr hopen

variable {α : Type} {c c' : Controller}

/-- Either the protection refuses to open, and the body is not run, or all of the body is run with
the protection open. -/
lemma withOpen_cases {body : Prog α} {r : Except ResetError α}
    (hrun : (withOpen body).run handler c = (.ok r, c')) :
    (c.refuses = true ∧ r = .error .lockStuck ∧ c' = { c with progress := 0 }) ∨
      (c.refuses = false ∧ ∃ a d, r = .ok a ∧ body.run handler c.opened = (.ok a, d) ∧
        c' = d.closedUnless c.isOpen) := by
  rw [run_withOpen] at hrun
  split at hrun
  · rename_i hrefuses
    cases hrun
    exact .inl ⟨hrefuses, rfl, rfl⟩
  · rename_i hrefuses
    split at hrun
    · rename_i a d hbody
      cases hrun
      exact .inr ⟨Bool.eq_false_iff.mpr hrefuses, a, d, rfl, hbody, rfl⟩
    · cases hrun

/-- What was closed is closed behind a window, whatever its body did. -/
lemma withOpen_closes {body : Prog α} {r : Except ResetError α}
    (hrun : (withOpen body).run handler c = (.ok r, c')) (hclosed : c.isOpen = false) :
    c'.isOpen = false := by
  obtain ⟨-, -, rfl⟩ | ⟨-, a, d, -, -, rfl⟩ := withOpen_cases hrun
  · exact hclosed
  · rw [closedUnless, hclosed]
    exact isOpen_writeReglctl_zero d

/-!
### Sparing the lock
-/

namespace Controller

/-- Nothing was done to an open protection, and nothing was kept from the reset registers. -/
structure Undisturbed (c c' : Controller) : Prop where
  isOpen : c'.isOpen = c.isOpen
  ignored : c'.ignored = c.ignored
  unlocks : c'.unlocks = c.unlocks

namespace Undisturbed

lemma refl (c : Controller) : c.Undisturbed c := ⟨rfl, rfl, rfl⟩

lemma trans {c₁ c₂ c₃ : Controller} (h₁ : c₁.Undisturbed c₂) (h₂ : c₂.Undisturbed c₃) :
    c₁.Undisturbed c₃ :=
  ⟨h₂.isOpen.trans h₁.isOpen, h₂.ignored.trans h₁.ignored, h₂.unlocks.trans h₁.unlocks⟩

end Undisturbed

lemma handler_undisturbed {q : Access Register} {r : Request.Answer q} (hq : SparesLock q)
    (hopen : c.isOpen = true) (h : handler q c = (.ok r, c')) : c.Undisturbed c' := by
  match q, hq with
  | .read .reglctl, _ | .pause, _ =>
    cases h
    exact .refl c
  | .read (.iprst i), _ =>
    simp only [handler] at h
    split at h
    · cases h
      exact .refl c
    · cases h
  | .write (.iprst i) v, _ =>
    simp only [handler, writeIprst, hopen, Bool.not_true, Bool.false_eq_true, if_false] at h
    split at h
    · cases h
      exact ⟨hopen.symm, rfl, rfl⟩
    · cases h

lemma run_request_undisturbed {q : Access Register} {r : Request.Answer q} (hq : SparesLock q)
    (hopen : c.isOpen = true) (hrun : (Program.request q).run handler c = (.ok r, c')) :
    c.Undisturbed c' := by
  rw [Program.request, Program.run] at hrun
  split at hrun
  · rename_i a d h
    cases hrun
    exact handler_undisturbed hq hopen h
  · cases hrun

end Controller

mutual

/-- Within an open window, an action that spares the lock finds every further window open. -/
lemma Action.run_undisturbed : ∀ (a : Action) {c c' : Controller} {r : Answer},
    a.Each SparesLock → c.isOpen = true → a.program.run handler c = (.ok r, c') →
      r.Opened ∧ c.Undisturbed c'
  | .read r, _, _, _, ha, hopen, hrun => by
    have hspares : SparesLock (.read r) := ha
    obtain ⟨_, _, hread, ⟨⟩⟩ := Program.run_bind_eq_ok.mp hrun
    exact ⟨trivial, run_request_undisturbed hspares hopen hread⟩
  | .write r v, _, _, _, ha, hopen, hrun => by
    have hspares : SparesLock (.write r v) := ha
    obtain ⟨_, _, hwrite, ⟨⟩⟩ := Program.run_bind_eq_ok.mp hrun
    exact ⟨trivial, run_request_undisturbed hspares hopen hwrite⟩
  | .nested body, c, _, _, ha, hopen, hrun => by
    obtain ⟨_, _, hwindow, ⟨⟩⟩ := Program.run_bind_eq_ok.mp hrun
    obtain ⟨hrefuses, -, -⟩ | ⟨-, answers, d, rfl, hbody, rfl⟩ := withOpen_cases hwindow
    · simp [refuses, hopen] at hrefuses
    · rw [opened, if_pos hopen] at hbody
      rw [closedUnless, if_pos hopen]
      exact programAll_undisturbed body ha hopen hbody

lemma programAll_undisturbed : ∀ (body : List Action) {c c' : Controller} {answers : List Answer},
    AllEach SparesLock body → c.isOpen = true →
      (programAll body).run handler c = (.ok answers, c') →
      AllOpened answers ∧ c.Undisturbed c'
  | [], _, _, _, _, _, hrun => by
    cases hrun
    exact ⟨trivial, .refl _⟩
  | a :: as, _, _, _, ⟨ha, has⟩, hopen, hrun => by
    obtain ⟨r, d, hfirst, hrest⟩ := Program.run_bind_eq_ok.mp hrun
    obtain ⟨answers, _, hrest, ⟨⟩⟩ := Program.run_bind_eq_ok.mp hrest
    obtain ⟨hr, hd⟩ := Action.run_undisturbed a ha hopen hfirst
    obtain ⟨hanswers, hc'⟩ := programAll_undisturbed as has (hd.isOpen.trans hopen) hrest
    exact ⟨⟨hr, hanswers⟩, hd.trans hc'⟩

end

/-- A tree of windows on registers that exist ends, and leaves the protection closed if it was closed,
whatever was written to the protection register within it. If nothing was, and the outermost window
was opened, then so were all others, no write was kept from a reset register, and the protection is
as it was found. It was opened once if it was found closed, else never. -/
theorem windows_nest (c : Controller) (body : List Action) :
    (AllEach Served body → ∃ r c', (withOpen (programAll body)).run handler c = (.ok r, c')) ∧
    ∀ r c', (withOpen (programAll body)).run handler c = (.ok r, c') →
      (c.isOpen = false → c'.isOpen = false) ∧
      ∀ answers, r = .ok answers → AllEach SparesLock body →
        AllOpened answers ∧ c'.ignored = c.ignored ∧ c'.isOpen = c.isOpen ∧
          c'.unlocks = c.unlocks + if c.isOpen then 0 else 1 := by
  constructor
  · intro hserved
    have hbody : (programAll body).All Served := programAll_all trivial (fun _ => trivial) body hserved
    exact (withOpen_all trivial (fun _ => trivial) hbody).run (fun _ s hq => s.handler_of_served hq) c
  intro r c' hrun
  refine ⟨withOpen_closes hrun, ?_⟩
  rintro answers rfl hspares
  obtain ⟨-, ⟨⟩, -⟩ | ⟨-, _, d, ⟨⟩, hbody, rfl⟩ := withOpen_cases hrun
  obtain ⟨hanswers, hd⟩ := programAll_undisturbed body hspares c.isOpen_opened hbody
  obtain ⟨hisOpen, hignored, hunlocks⟩ :=
    closedUnless_of_open (hd.isOpen.trans c.isOpen_opened) c.isOpen
  refine ⟨hanswers, ?_, hisOpen, ?_⟩
  · rw [hignored, hd.ignored, opened_ignored]
  · rw [hunlocks, hd.unlocks, opened_unlocks]

/-- Windows three deep, with the sequence half written before. -/
theorem windows_nest_three_deep :
    let c : Controller := ⟨false, 2, false, #v[0, 6, 0, 0], 3, 1, []⟩
    let body : List Action :=
      [.write (.iprst 0) 5, .nested [.nested [.write (.iprst 1) 2], .read (.iprst 0)], .nested []]
    ∃ r c', (withOpen (programAll body)).run handler c = (.ok r, c') ∧ c'.isOpen = false ∧
      ∃ answers, r = .ok answers ∧ AllOpened answers ∧ c'.ignored = 1 ∧ c'.unlocks = 4 := by
  intro c body
  have hserved : AllEach Served body := by
    simp [body, AllEach, Action.Each, Served]
  have hspares : AllEach SparesLock body := by
    simp [body, AllEach, Action.Each, SparesLock]
  obtain ⟨hreturns, hafter⟩ := windows_nest c body
  obtain ⟨r, c', hrun⟩ := hreturns hserved
  obtain ⟨hclosed, hopened⟩ := hafter r c' hrun
  obtain ⟨hrefuses, -⟩ | ⟨-, answers, -, rfl, -⟩ := withOpen_cases hrun
  · cases hrefuses
  · obtain ⟨hanswers, hignored, -, hunlocks⟩ := hopened answers rfl hspares
    exact ⟨_, c', hrun, hclosed rfl, answers, rfl, hanswers, hignored, hunlocks⟩

end Intercore.Reset
