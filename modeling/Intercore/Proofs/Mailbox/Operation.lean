import Intercore.Mailbox.Transfer
import Intercore.Proofs.Contract
import Intercore.Proofs.Mailbox.Lane
import Mathlib.Algebra.GroupWithZero.Nat

/-!
# Whole operations on a lane

A sender or a receiver that runs to its end, while everyone else leaves the lane alone. The others
may use the controller for anything else between any two of its accesses.
-/

namespace Intercore.Mailbox

namespace Lane

/-- What one core can count on if the others leave the lane alone. In return it sends only on a lane
that is ready. -/
def contract (l : Lane) (side : Side) : Contract (Access Register) LaneState where
  allows s q := isServed q = true ∧ (l.touch side q = some .send → s.ready = true)
  answers s q r s' := l.Shows side s q r ∧ s' = (l.touch side q).elim s s.after

variable {l : Lane} {side : Side} {s : LaneState}

/-!
### Sending and receiving
-/

lemma keeps_aside {q : Access Register} (hq : l.Aside side q) :
    (Program.request q).Keeps (l.contract side) (fun r s' => l.Shows side s q r ∧ s' = s) s := by
  constructor
  · exact ⟨hq.1, by simp [hq.2]⟩
  · rintro r s' ⟨hshows, rfl⟩
    exact ⟨hshows, by simp [hq.2]⟩

lemma keeps_touch {q : Access Register} (touch : Touch) (hserved : isServed q = true)
    (hq : l.touch side q = some touch) (hsend : touch = .send → s.ready = true) :
    (Program.request q).Keeps (l.contract side) (fun _ s' => s' = s.after touch) s := by
  constructor
  · refine ⟨hserved, ?_⟩
    rw [hq]
    rintro ⟨⟩
    exact hsend rfl
  · rintro r s' ⟨-, rfl⟩
    simp [hq]

lemma keeps_put (ready full : Bool) (m : Message) (word : Fin 4) (value : UInt32) :
    (write (.tmdat l.channel.index word) value).Keeps (l.contract l.source)
      (fun _ s => s = ⟨ready, full, m.setIfInBounds word value⟩) ⟨ready, full, m⟩ :=
  keeps_touch (.put word value) (by simp [isServed, l.channel.val_lt]) (by simp [touch]) nofun

lemma keeps_trigger (full : Bool) (m : Message) :
    (write .txctl l.channel.mask).Keeps (l.contract l.source)
      (fun _ s => s = ⟨false, true, m⟩) ⟨true, full, m⟩ :=
  keeps_touch .send rfl (by simp [touch]) fun _ => rfl

/-- Writing the four words and the trigger puts a message on the lane, whatever was in the slot. -/
lemma keeps_fill (full : Bool) (m msg : Message) :
    (fill l.channel msg).Keeps (l.contract l.source) (fun _ s => s = ⟨false, true, msg⟩)
      ⟨true, full, m⟩ := by
  have hwords : #v[msg[0], msg[1], msg[2], msg[3]] = msg :=
    eq_words (by simp) (by simp) (by simp) (by simp)
  simp only [fill, Program.bind_eq, Program.keeps_bind]
  apply (keeps_put true full m 0 msg[0]).mono
  rintro _ _ rfl
  apply (keeps_put true full _ 1 msg[1]).mono
  rintro _ _ rfl
  apply (keeps_put true full _ 2 msg[2]).mono
  rintro _ _ rfl
  apply (keeps_put true full _ 3 msg[3]).mono
  rintro _ _ rfl
  apply (keeps_trigger full _).mono
  rintro _ _ rfl
  exact congrArg (LaneState.mk false true) ((set_words m _ _ _ _).trans hwords)

lemma keeps_isTxReady : (isTxReady l.channel).Keeps (l.contract l.source)
    (fun ready s' => ready = s.ready ∧ s' = s) s := by
  simp only [isTxReady, Program.bind_eq, Program.keeps_bind]
  apply (keeps_aside ⟨rfl, rfl⟩).mono
  rintro r _ ⟨hshows, rfl⟩
  exact ⟨hshows rfl, rfl⟩

lemma keeps_isRxAvailable : (isRxAvailable l.channel).Keeps (l.contract l.source.peer)
    (fun available s' => available = s.full ∧ s' = s) s := by
  simp only [isRxAvailable, Program.bind_eq, Program.keeps_bind]
  apply (keeps_aside ⟨rfl, rfl⟩).mono
  rintro r _ ⟨hshows, rfl⟩
  exact ⟨hshows rfl, rfl⟩

/-- A message goes out if and only if the lane is ready. Otherwise nothing happens to it. -/
lemma keeps_trySend (msg : Message) (s : LaneState) :
    (trySend l.channel msg).Keeps (l.contract l.source)
      (fun r s' => if s.ready then r = .ok () ∧ s' = ⟨false, true, msg⟩
        else r = .error .busy ∧ s' = s) s := by
  obtain ⟨ready, full, m⟩ := s
  simp only [trySend, Program.bind_eq, Program.keeps_bind]
  apply keeps_isTxReady.mono
  rintro ready _ ⟨rfl, rfl⟩
  cases ready with
  | false => exact ⟨rfl, rfl⟩
  | true =>
    simp only [if_true, send, Program.bind_eq, Program.pure_eq, Program.keeps_bind]
    apply keeps_isTxReady.mono
    rintro _ _ ⟨-, rfl⟩
    apply (keeps_fill full m msg).mono
    rintro _ _ rfl
    exact ⟨rfl, rfl⟩

lemma keeps_get (word : Fin 4) :
    (read (.rmdat l.channel.index word)).Keeps (l.contract l.source.peer)
      (fun r s' => s.slot[word.val]? = some r ∧ s' = s) s := by
  apply (keeps_aside ⟨by simp [isServed, l.channel.val_lt], rfl⟩).mono
  rintro r _ ⟨hshows, rfl⟩
  exact ⟨hshows rfl rfl, rfl⟩

/-- What is in the slot of a full lane is taken out. A lane that is not full stays as it is. -/
lemma keeps_recv (s : LaneState) :
    (recv l.channel).Keeps (l.contract l.source.peer)
      (fun r s' => if s.full then r = some s.slot ∧ s' = ⟨true, false, s.slot⟩
        else r = none ∧ s' = s) s := by
  simp only [recv, Program.bind_eq, Program.keeps_bind]
  apply (keeps_aside ⟨rfl, rfl⟩).mono
  rintro _ _ ⟨-, rfl⟩
  apply keeps_isRxAvailable.mono
  rintro _ s ⟨rfl, rfl⟩
  cases hfull : s.full with
  | false => exact ⟨rfl, rfl⟩
  | true =>
    simp only [if_true, Program.pure_eq, Program.keeps_bind]
    apply (keeps_get 0).mono
    rintro w₀ _ ⟨h₀, rfl⟩
    apply (keeps_get 1).mono
    rintro w₁ _ ⟨h₁, rfl⟩
    apply (keeps_get 2).mono
    rintro w₂ _ ⟨h₂, rfl⟩
    apply (keeps_get 3).mono
    rintro w₃ s ⟨h₃, rfl⟩
    apply (keeps_touch .acknowledge rfl (by simp [touch]) nofun).mono
    rintro _ _ rfl
    rw [Program.keeps_done, eq_words h₀ h₁ h₂ h₃]
    simp [LaneState.after, hfull]

end Lane

/-!
### The others
-/

/-- The controller, with what goes on around a program that uses it. -/
structure Scene where
  controller : Controller
  /-- What the others do before each access of the program. -/
  ahead : List (List (Side × Access Register))
  /-- For each access that was made, who made it and the channels on which it replaced a message
  that was not read yet; the latest first. -/
  replaced : List (Side × UInt32)

namespace Scene

def start (ahead : List (List (Side × Access Register))) : Scene := ⟨.fresh, ahead, []⟩

/-- One core makes an access. -/
def access (side : Side) (q : Access Register) (s : Scene) :
    Except Fault (Request.Answer q) × Scene :=
  ((Controller.handler side q s.controller).1,
    { s with
      controller := (Controller.handler side q s.controller).2
      replaced := (side, overwritten side s.controller q) :: s.replaced })

/-- The others have their turn. -/
def others (s : Scene) : Scene :=
  match s.ahead with
  | [] => s
  | batch :: rest => batch.foldl (fun s a => (s.access a.1 a.2).2) { s with ahead := rest }

/-- Answers the accesses of a program. The others have their turn before each of them. -/
def handler (side : Side) : Handler (Access Register) Scene Fault := fun q s =>
  s.others.access side q

/-- The others leave a lane alone, and no message on it was replaced. -/
structure Orderly (l : Lane) (s : Scene) : Prop where
  aside : ∀ batch ∈ s.ahead, ∀ a ∈ batch, l.Aside a.1 a.2
  /-- Every replaced message is counted. -/
  counted : s.controller.overwrites = (s.replaced.map fun p => popCount p.2).sum
  spared : ∀ p ∈ s.replaced, p.1 = l.source → l.channel.marked p.2 = false

variable {l : Lane} {side : Side} {s : Scene}

lemma Orderly.access (hs : s.Orderly l) {q : Access Register} (hserved : isServed q = true)
    (hsend : l.touch side q = some .send → (s.controller.lane l).ready = true) :
    ∃ r, (s.access side q).1 = .ok r ∧ l.Shows side (s.controller.lane l) q r ∧
      (s.access side q).2.Orderly l ∧ (s.access side q).2.controller.lane l =
        (l.touch side q).elim (s.controller.lane l) (s.controller.lane l).after := by
  obtain ⟨r, hr, hlane⟩ := Controller.handler_lane side s.controller l hserved
  refine ⟨r, hr, Controller.shows_lane hserved hr, ⟨hs.aside, ?_, ?_⟩, hlane⟩
  · simp only [Scene.access, Controller.handler_overwrites, hs.counted, List.map_cons,
      List.sum_cons, Nat.add_comm]
  · simp only [Scene.access, List.forall_mem_cons]
    exact ⟨fun hside => marked_overwritten hside hsend, hs.spared⟩

lemma Orderly.others (hs : s.Orderly l) :
    s.others.Orderly l ∧ s.others.controller.lane l = s.controller.lane l := by
  obtain ⟨controller, ahead, replaced⟩ := s
  cases ahead with
  | nil => exact ⟨hs, rfl⟩
  | cons batch rest =>
    have hbatch := hs.aside batch List.mem_cons_self
    have hrest : Orderly l ⟨controller, rest, replaced⟩ :=
      ⟨fun b hb => hs.aside b (List.mem_cons_of_mem _ hb), hs.counted, hs.spared⟩
    simp only [Scene.others]
    clear hs
    -- one access of the others after the other
    induction batch generalizing controller replaced with
    | nil => exact ⟨hrest, rfl⟩
    | cons a batch ih =>
      rw [List.forall_mem_cons] at hbatch
      obtain ⟨⟨hserved, htouch⟩, hothers⟩ := hbatch
      have hsend : l.touch a.1 a.2 = some .send → (controller.lane l).ready = true := by
        simp [htouch]
      obtain ⟨r, -, -, ho, hlane⟩ := hrest.access hserved hsend
      rw [htouch] at hlane
      obtain ⟨ho', hlane'⟩ := ih _ _ hothers ho
      exact ⟨ho', hlane'.trans hlane⟩

/-- Among others that leave the lane alone, a core can count on what it is promised. -/
lemma servedBy (l : Lane) (side : Side) : (l.contract side).ServedBy (handler side)
    fun s v => s.Orderly l ∧ s.controller.lane l = v := by
  rintro q s _ ⟨hs, rfl⟩ ⟨hserved, hsend⟩
  obtain ⟨ho, hlane⟩ := hs.others
  rw [← hlane] at hsend ⊢
  obtain ⟨r, hr, hshows, hs', hlane'⟩ := ho.access hserved hsend
  exact ⟨r, _, _, Prod.ext hr rfl, ⟨hshows, rfl⟩, hs', hlane'⟩

end Scene

end Intercore.Mailbox
