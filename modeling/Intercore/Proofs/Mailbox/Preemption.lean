import Intercore.Proofs.Mailbox.Delivery
import Intercore.Proofs.Mailbox.Operation
import Intercore.Proofs.Mailbox.Wakeup

/-!
# A handler that interrupts its own core

A thread and the interrupt handler of one core receive from the same lane. The handler may interrupt
the thread between any two accesses, and then runs until it has finished.

The thread never gets between the accesses of the handler, so what the handler hands over is right.
The other way round it is not: when the handler takes the message that the thread has just seen, the
thread goes on to read whatever is in the slot by then, and acknowledges it.
-/

namespace Intercore.Mailbox.Preemption

/-- Who uses a lane: the core that sends, and two contexts of the core that receives. -/
inductive Party
  | peer
  | thread
  | handler
  deriving DecidableEq, Repr

def interrupter : Party → Option Party
  | .thread => some .handler
  | .peer | .handler => none

/-- The controller, and what the handler does while the thread receives. -/
structure Scene where
  controller : Controller
  /-- The thread has seen a message, which it has not acknowledged yet. -/
  looked : Bool
  /-- The handler has acknowledged a message that the thread had seen and was still to acknowledge. -/
  disturbed : Bool
  deriving DecidableEq, Repr

variable (l : Lane)

def side : Party → Side
  | .peer => l.source
  | .thread | .handler => l.source.peer

/-- One access of one of them leads from a scene to the next one. -/
def Scene.after (s : Scene) (i : Party) (q : Access Register) : Scene where
  controller := (Controller.handler (side l i) q s.controller).2
  looked :=
    if i = .thread then
      if q = .read .rxsts then (s.controller.lane l).full
      else s.looked && l.touch (side l i) q ≠ some .acknowledge
    else s.looked
  disturbed :=
    s.disturbed || i = .handler && s.looked && l.touch (side l i) q = some .acknowledge

/-- The lane as the handler receives from it, or else as the thread does. -/
def traffic (i : Party) : Traffic Party where
  lane := l
  side := side l
  sender := .peer
  receiver := if i = .handler then .handler else .thread
  side_sender := rfl
  side_receiver := by split <;> rfl

/-- Whether a call looks for messages, but not to receive from the channel. -/
def looksElsewhere (ch : Channel) : Call → Bool
  | .trySend _ _ => false
  | .recv c => c ≠ ch
  | .access q => q = .read .rxsts

/-- Each of them may use the controller for anything else, except that the thread does not look for
messages on other channels. -/
def permits (i : Party) (k : Call) : Bool :=
  (traffic l i).permits i k && !(i = .thread && looksElsewhere l.channel k)

def ensemble : Ensemble Party Call (Access Register) Scene Fault where
  handler i q s := ((Controller.handler (side l i) q s.controller).1, s.after l i q)
  program _ := Call.program
  permits := permits l

/-- The messages that the other core sent, oldest first. -/
def sent (h : History Party Call) : List Message := h.results .peer (Call.sentOn? l.channel)

/-- The messages that the handler obtained, oldest first. -/
def delivered (h : History Party Call) : List Message :=
  h.results .handler (Call.obtainedFrom? l.channel)

/-- The messages that the thread and the handler obtained, in the order in which they did. -/
def collected (h : History Party Call) : List Message :=
  History.results (h.map (Prod.map (side l) id)) l.source.peer (Call.obtainedFrom? l.channel)

section History

variable (h : History Party Call) (i : Party) (k : Call) (r : Request.Answer k)

@[simp] lemma collected_begun : collected l (h ++ [(i, .begun k)]) = collected l h := by
  simp [collected]

@[simp] lemma collected_returned : collected l (h ++ [(i, .returned k r)]) =
    collected l h ++ (if i = .peer then none else k.obtainedFrom? l.channel r).toList := by
  have hside : side l i = l.source.peer ↔ i ≠ .peer := by
    cases i with
    | peer => simp [side, (Side.peer_ne l.source).symm]
    | thread | handler => simp [side]
  simp [collected, hside, ite_not]

end History

/-!
### What they expect
-/

/-- A context whose view is lost goes on as it would have. -/
def contract (i : Party) : Contract (Access Register) (Option View) :=
  ((traffic l i).contract i).orLost fun q => isServed q = true

def Rests (v : Option View) : Prop := ∀ u, v = some u → u = .idle

def Returns (i : Party) (k : Call) (r : Request.Answer k) (v : Option View) : Prop :=
  ∀ u, v = some u → (traffic l i).Returns i k r u

variable {l}

/-- All calls make accesses that exist. -/
lemma program_served {i : Party} {k : Call} (hk : (traffic l i).permits i k = true) :
    k.program.All fun q => isServed q = true := by
  let P : Access Register → Prop := fun q => isServed q = true
  cases k with
  | trySend ch msg =>
    have hput : ∀ (word : Fin 4) value, P (.write (.tmdat ch.index word) value) := by
      simp [P, isServed, ch.val_lt]
    exact trySend_all (P := P) rfl (send_all msg rfl hput rfl)
  | recv ch =>
    have hget : ∀ word : Fin 4, P (.read (.rmdat ch.index word)) := by
      simp [P, isServed, ch.val_lt]
    exact recv_all rfl rfl hget rfl
  | access q =>
    have hq : isServed q = true := by
      simp only [Traffic.permits, decide_eq_true_eq] at hk
      exact hk.1
    exact ⟨hq, fun _ => trivial⟩

lemma keeps_program {i : Party} {k : Call} {v : Option View} (hv : Rests v)
    (hk : permits l i k = true) : k.program.Keeps (contract l i) (Returns l i k) v := by
  have hpermits : (traffic l i).permits i k = true := (Bool.and_eq_true_iff.mp hk).1
  apply (program_served hpermits).keeps_orLost
  rintro _ rfl
  obtain rfl := hv _ rfl
  exact Traffic.keeps_call hpermits

/-!
### What they know
-/

/-- What is known by a context that was not disturbed. -/
structure Informed (l : Lane) (s : Scene) (i : Party) (u : View) : Prop where
  admits : (traffic l i).Admits i (s.controller.lane l) u u
  looked : i = .thread → ∀ m, u = .reading m → s.looked = true

/-- The thread need not know anything any more once it was disturbed. -/
def Knows (l : Lane) (s : Scene) (i : Party) (v : Option View) : Prop :=
  i = .thread ∧ s.disturbed = true ∨ ∃ u, v = some u ∧ Informed l s i u

/-- What was sent but is not in the history yet. -/
def sending (v : Option View) : List Message := (v.bind View.sent?).toList

/-- What was obtained but is not in the history yet. -/
def taking (v : Option View) : List Message := (v.bind View.taken?).toList

@[simp] lemma sending_some (u : View) : sending (some u) = u.sent?.toList := rfl

@[simp] lemma taking_some (u : View) : taking (some u) = u.taken?.toList := rfl

structure Agrees (l : Lane) (h : History Party Call) (s : Scene) (v : Party → Option View) :
    Prop where
  exclusive : (s.controller.lane l).full = !(s.controller.lane l).ready
  knows : ∀ i, Knows l s i (v i)
  /-- What the handler obtains is right in any case. -/
  intact : (delivered l h ++ (taking (v .handler) ++
    (s.controller.lane l).inFlight.toList)).Sublist (sent l h ++ sending (v .peer))
  /-- Nothing is lost, doubled or out of order if the thread is not disturbed. -/
  order : s.disturbed = false →
    collected l h ++ (taking (v .thread) ++ (taking (v .handler) ++
      (s.controller.lane l).inFlight.toList)) = sent l h ++ sending (v .peer)

variable {h : History Party Call} {s : Scene} {v : Party → Option View} {i : Party}
  {q : Access Register}

/-- Of a lane that is not full, nothing is known to those that do not send. -/
lemma fits_of_not_full {lane : LaneState} {u : View} (h : u.Fits lane) (hfull : lane.full = false)
    (hsending : u.isSending = false) (lane' : LaneState) : u.Fits lane' := by
  cases u with
  | idle | sent | taken => trivial
  | filling m => cases hsending
  | reading m => exact absurd h.1 (by simp [hfull])

/-- To acknowledge a message matters only to those that read it. -/
lemma fits_acknowledged {lane : LaneState} {u : View} (h : u.Fits lane)
    (hreading : ∀ m, u ≠ .reading m) : u.Fits (lane.after .acknowledge) := by
  cases u with
  | idle | sent | taken => trivial
  | filling m => exact ⟨by simp [LaneState.after, h.1], h.2⟩
  | reading m => exact absurd rfl (hreading m)

/-- The other core only acknowledges. -/
lemma touch_peer {q : Access Register} {touch : Touch}
    (htouch : l.touch l.source.peer q = some touch) : touch = .acknowledge := by
  have hside : l.source.peer ≠ l.source := Side.peer_ne _
  cases q with
  | read r | pause => simp [Lane.touch] at htouch
  | write r value =>
    cases r with
    | txsts | rxsts | inten | intsts | rmdat | txctl => simp [Lane.touch, hside] at htouch
    | rxctl =>
      simp only [Lane.touch] at htouch
      split at htouch
      · exact (Option.some.inj htouch).symm
      · cases htouch
    | tmdat ch word => simp [Lane.touch, hside] at htouch

/-- The thread learns of messages from one register only. -/
lemma eq_of_learns {u w : View} {q : Access Register} {r : Request.Answer q}
    (h : (traffic l .thread).Learns .thread u q r w) (hq : q ≠ .read .rxsts) : w = u := by
  match q with
  | .read .rxsts => exact absurd rfl hq
  | .read .txsts => simpa [Traffic.Learns, traffic] using h
  | .read (.rmdat _ _) => exact h.1
  | .read .txctl | .read .rxctl | .read .inten | .read .intsts | .read (.tmdat _ _) | .write _ _
  | .pause => exact h

/-- To touch the lane is all that a touch does to the view. -/
lemma answers_touch {touch : Touch} (htouch : l.touch (side l i) q = some touch) (u : View)
    {r : Request.Answer q} : (contract l i).answers (some u) q r (some (u.after touch)) := by
  apply Contract.orLost_answers_some
  have htouch' : (traffic l i).lane.touch ((traffic l i).side i) q = some touch := htouch
  simp [Traffic.contract, htouch']

lemma informed_idle : Informed l s i .idle :=
  ⟨⟨trivial, nofun, nofun, rfl, rfl⟩, nofun⟩

lemma informed_taken (hi : i ≠ .peer) (m : Message) : Informed l s i (.taken m) := by
  refine ⟨⟨trivial, nofun, fun _ => ?_, rfl, rfl⟩, nofun⟩
  cases i with
  | peer => exact absurd rfl hi
  | thread | handler => rfl

lemma informed_peer {u : View} (hfits : u.Fits (s.controller.lane l))
    (hu : u.isReceiving = false) : Informed l s .peer u :=
  ⟨⟨hfits, fun _ => rfl, fun h => absurd (hu.symm.trans h) nofun, rfl, rfl⟩, nofun⟩

/-- Only the thread can be disturbed. -/
lemma Knows.informed {w : Option View} (h : Knows l s i w)
    (hi : i ≠ .thread ∨ s.disturbed = false) : ∃ u, w = some u ∧ Informed l s i u := by
  refine h.resolve_left ?_
  rintro ⟨hthread, hd⟩
  rcases hi with hi | hi
  · exact hi hthread
  · rw [hd] at hi
    cases hi

lemma Informed.peer_not_receiving {u : View} (h : Informed l s .peer u) : u.isReceiving = false := by
  by_contra hreceiving
  have hthread : Party.peer = .thread := h.admits.receiving (by simpa using hreceiving)
  cases hthread

/-- Whoever is about to make a call or an access has nothing to say. -/
lemma nothing_to_say {v : Option View} (h : Rests v ∨ ∃ q, (contract l i).allows v q) :
    sending v = [] ∧ taking v = [] := by
  cases v with
  | none => exact ⟨rfl, rfl⟩
  | some u =>
    have hfinal : u.isFinal = false := by
      rcases h with hrests | ⟨q, -, hallows⟩
      · rw [hrests u rfl]
        rfl
      · exact (hallows u rfl).2.1
    obtain ⟨hsent, htaken⟩ := View.nothing_to_say hfinal
    simp [hsent, htaken]

namespace Agrees

lemma begun (ha : Agrees l h s v) (i : Party) (k : Call) :
    Agrees l (h ++ [(i, .begun k)]) s v where
  exclusive := ha.exclusive
  knows := ha.knows
  intact := by simpa [delivered, sent] using ha.intact
  order := by simpa [sent] using ha.order

lemma returned (ha : Agrees l h s v)
    (hwait : Ensemble.Waiting interrupter (contract l) (fun _ => Rests) i v) {k : Call}
    {r : Request.Answer k} (hr : Returns l i k r (v i)) :
    Agrees l (h ++ [(i, .returned k r)]) s (Function.update v i (some .idle)) := by
  have hknows : ∀ j, Knows l s j (Function.update v i (some .idle) j) :=
    (Function.forall_update_iff v fun j w => Knows l s j w).mpr
      ⟨.inr ⟨.idle, rfl, informed_idle⟩, fun j _ => ha.knows j⟩
  have hsent := ha.intact
  have horder := ha.order
  cases i with
  | peer =>
    obtain ⟨u, hu, -⟩ := (ha.knows .peer).informed (.inl (by decide))
    have hsaid : sending (v .peer) = (k.sentOn? l.channel r).toList := by
      simpa [hu, traffic] using congrArg Option.toList (hr u hu).1
    refine ⟨ha.exclusive, hknows, ?_, ?_⟩
    · simpa [delivered, sent, hsaid, View.sent?] using hsent
    · simpa [sent, hsaid, View.sent?] using horder
  | thread =>
    refine ⟨ha.exclusive, hknows, ?_, ?_⟩
    · simpa [delivered, sent] using hsent
    · intro hd
      obtain ⟨u, hu, -⟩ := (ha.knows .thread).informed (.inr hd)
      have htaken : taking (v .thread) = (k.obtainedFrom? l.channel r).toList := by
        simpa [hu, traffic] using congrArg Option.toList (hr u hu).2
      simpa [sent, htaken, View.taken?] using horder hd
  | handler =>
    obtain ⟨u, hu, -⟩ := (ha.knows .handler).informed (.inl (by decide))
    have htaken : taking (v .handler) = (k.obtainedFrom? l.channel r).toList := by
      simpa [hu, traffic] using congrArg Option.toList (hr u hu).2
    have hthread := (nothing_to_say (hwait.others .thread (by decide))).2
    refine ⟨ha.exclusive, hknows, ?_, ?_⟩
    · simpa [delivered, sent, htaken, View.taken?] using hsent
    · simpa [sent, htaken, hthread, View.taken?] using horder

lemma learn (ha : Agrees l h s v) {q : Access Register} {r : Request.Answer q}
    (hserved : isServed q = true) (htouch : l.touch (side l i) q = none)
    (hr : (Controller.handler (side l i) q s.controller).1 = .ok r)
    (hlane : (s.after l i q).controller.lane l = s.controller.lane l) :
    ∃ w, (contract l i).answers (v i) q r w ∧ Agrees l h (s.after l i q) (Function.update v i w) := by
  have hdisturbed : (s.after l i q).disturbed = s.disturbed := by simp [Scene.after, htouch]
  have hothers : ∀ j ≠ i, Knows l (s.after l i q) j (v j) := by
    intro j hj
    rcases ha.knows j with ⟨hthread, hd⟩ | ⟨u, hu, hadmits, hlooked⟩
    · exact .inl ⟨hthread, hdisturbed.trans hd⟩
    · refine .inr ⟨u, hu, hlane ▸ hadmits, ?_⟩
      rintro rfl
      simpa [Scene.after, Ne.symm hj] using hlooked rfl
  have hview : ∃ w, (contract l i).answers (v i) q r w ∧ Knows l (s.after l i q) i w ∧
      (i ≠ .thread ∨ s.disturbed = false →
        sending w = sending (v i) ∧ taking w = taking (v i)) := by
    rcases ha.knows i with ⟨rfl, hd⟩ | ⟨u, hu, hadmits, hlooked⟩
    · exact ⟨none, Contract.orLost_answers_none, .inl ⟨rfl, hdisturbed.trans hd⟩, by simp [hd]⟩
    · obtain ⟨w, hlearns, hw⟩ := hadmits.exists_learns hserved hr
      have hanswers : ((traffic l i).contract i).answers u q r w := by
        have htouch' : (traffic l i).lane.touch ((traffic l i).side i) q = none := htouch
        simpa [Traffic.contract, htouch'] using hlearns
      refine ⟨some w, ?_, .inr ⟨w, rfl, ⟨?_, hw.sending, hw.receiving, rfl, rfl⟩, ?_⟩, ?_⟩
      · rw [hu]
        exact Contract.orLost_answers_some hanswers
      · rw [hlane]
        exact hw.fits
      · rintro rfl m rfl
        by_cases hq : q = .read .rxsts
        · -- the lane is full if there is something to be read from it
          have hfull : (s.controller.lane l).full = true := hw.fits.1
          simpa [Scene.after, hq] using hfull
        · have hsame := eq_of_learns hlearns hq
          simpa [Scene.after, hq, htouch] using hlooked rfl m hsame.symm
      · intro _
        rw [hu]
        simp [hw.sent, hw.taken]
  obtain ⟨w, hanswers, hknows, hsame⟩ := hview
  have hsame (j : Party) (hj : j ≠ .thread ∨ s.disturbed = false) :
      sending (Function.update v i w j) = sending (v j) ∧
        taking (Function.update v i w j) = taking (v j) := by
    by_cases hij : j = i
    · subst hij
      simpa using hsame hj
    · simp [Function.update_of_ne hij]
  refine ⟨w, hanswers, ?_, ?_, ?_, ?_⟩
  · rw [hlane]
    exact ha.exclusive
  · exact (Function.forall_update_iff v fun j w => Knows l _ j w).mpr ⟨hknows, hothers⟩
  · rw [hlane, (hsame .handler (.inl (by decide))).2, (hsame .peer (.inl (by decide))).1]
    exact ha.intact
  · intro hd
    rw [hdisturbed] at hd
    rw [hlane, (hsame .thread (.inr hd)).2, (hsame .handler (.inr hd)).2, (hsame .peer (.inr hd)).1]
    exact ha.order hd

/-- Of a lane that is not full, only the one that sends on it knows anything. -/
lemma receivers_unaware (ha : Agrees l h s v) (hfull : (s.controller.lane l).full = false)
    (q : Access Register) : ∀ j ≠ .peer, Knows l (s.after l .peer q) j (v j) := by
  intro j hj
  rcases ha.knows j with ⟨hthread, hd⟩ | ⟨u, hu, hknown, hlooked⟩
  · exact .inl ⟨hthread, by simp [Scene.after, hd]⟩
  · have hnot : u.isSending = false := by
      by_contra hsending
      exact hj (hknown.sending (by simpa using hsending))
    refine .inr ⟨u, hu, ⟨?_, hknown.sending, hknown.receiving, rfl, rfl⟩, ?_⟩
    · exact fits_of_not_full hknown.fits hfull hnot _
    · simpa [Scene.after] using hlooked

/-- The other core touches the lane only while it is ready. -/
lemma send (ha : Agrees l h s v) {q : Access Register} {touch : Touch} {u : View}
    (hu : v .peer = some u) (hpermits : u.permits touch = true)
    (hlane : (s.after l .peer q).controller.lane l = (s.controller.lane l).after touch) :
    Agrees l h (s.after l .peer q) (Function.update v .peer (some (u.after touch))) := by
  obtain ⟨u', hu', hknown⟩ := (ha.knows .peer).informed (.inl (by decide))
  obtain rfl : u = u' := Option.some.inj (hu.symm.trans hu')
  have hintact := ha.intact
  have horder := ha.order
  have hdisturbed : (s.after l .peer q).disturbed = s.disturbed := by simp [Scene.after]
  cases u with
  | idle | sent | taken => cases hpermits
  | reading m => cases hknown.peer_not_receiving
  | filling m =>
    obtain ⟨hready, rfl⟩ : (s.controller.lane l).ready = true ∧ (s.controller.lane l).slot = m :=
      hknown.admits.fits
    have hfull : (s.controller.lane l).full = false := by rw [ha.exclusive, hready]; rfl
    have hknows (w : View) (hw : Informed l (s.after l .peer q) .peer w) :
        ∀ j, Knows l (s.after l .peer q) j (Function.update v .peer (some w) j) :=
      (Function.forall_update_iff v fun j w => Knows l _ j w).mpr
        ⟨.inr ⟨w, rfl, hw⟩, ha.receivers_unaware hfull q⟩
    have hbefore := LaneState.inFlight_of_empty hfull
    have hsaid : sending (v .peer) = [] := by
      rw [hu]
      rfl
    rw [hbefore, hsaid] at hintact horder
    cases touch with
    | acknowledge => cases hpermits
    | put word value =>
      have hafter : ((s.after l .peer q).controller.lane l).inFlight = none := by
        rw [hlane]
        exact LaneState.inFlight_of_empty hfull
      refine ⟨?_, hknows _ (informed_peer ?_ rfl), ?_, ?_⟩
      · rw [hlane]
        exact ha.exclusive
      · rw [hlane]
        exact ⟨hready, rfl⟩
      · simpa [hafter, View.after, View.sent?] using hintact
      · simpa [hafter, hdisturbed, View.after, View.sent?] using horder
    | send =>
      have hafter : ((s.after l .peer q).controller.lane l).inFlight =
          some (s.controller.lane l).slot := by
        rw [hlane, LaneState.inFlight_send]
      refine ⟨?_, hknows _ (informed_peer trivial rfl), ?_, ?_⟩
      · rw [hlane]
        rfl
      · have hmore := hintact.append (List.Sublist.refl [(s.controller.lane l).slot])
        simpa [hafter, View.after, View.sent?] using hmore
      · intro hd
        have hmore := congrArg (· ++ [(s.controller.lane l).slot]) (horder (hdisturbed ▸ hd))
        simpa [hafter, View.after, View.sent?] using hmore

lemma peer_acknowledged (ha : Agrees l h s v)
    (hlane : (s.after l i q).controller.lane l = (s.controller.lane l).after .acknowledge) :
    Knows l (s.after l i q) .peer (v .peer) := by
  obtain ⟨u, hu, hknown⟩ := (ha.knows .peer).informed (.inl (by decide))
  have hreading : ∀ m, u ≠ .reading m := by
    rintro m rfl
    cases hknown.peer_not_receiving
  refine .inr ⟨u, hu, informed_peer ?_ hknown.peer_not_receiving⟩
  rw [hlane]
  exact fits_acknowledged hknown.admits.fits hreading

/-- When the handler acknowledges a message that the thread has seen, the thread is disturbed. -/
lemma thread_overtaken (ha : Agrees l h s v)
    (htouch : l.touch l.source.peer q = some .acknowledge)
    (hlane : (s.after l .handler q).controller.lane l =
      (s.controller.lane l).after .acknowledge) :
    Knows l (s.after l .handler q) .thread (v .thread) := by
  have hdisturbed : (s.after l .handler q).disturbed = (s.disturbed || s.looked) := by
    simp [Scene.after, side, htouch]
  rcases ha.knows .thread with ⟨-, hd⟩ | ⟨u, hu, hknown, hlooked⟩
  · exact .inl ⟨rfl, by simp [hdisturbed, hd]⟩
  · by_cases hreading : ∃ m, u = .reading m
    · obtain ⟨m, rfl⟩ := hreading
      exact .inl ⟨rfl, by simp [hdisturbed, hlooked rfl m rfl]⟩
    · rw [not_exists] at hreading
      refine .inr ⟨u, hu, ⟨?_, hknown.sending, hknown.receiving, rfl, rfl⟩, ?_⟩
      · rw [hlane]
        exact fits_acknowledged hknown.fits hreading
      · exact fun _ m hm => absurd hm (hreading m)

/-- The handler takes a message. -/
lemma deliver (ha : Agrees l h s v) {m : Message} (hserved : isServed q = true)
    (htouch : l.touch l.source.peer q = some .acknowledge) (hu : v .handler = some (.reading m))
    (hlane : (s.after l .handler q).controller.lane l =
      (s.controller.lane l).after .acknowledge) :
    Agrees l h (s.after l .handler q) (Function.update v .handler (some (.taken m))) := by
  obtain ⟨_, hu', hknown⟩ := (ha.knows .handler).informed (.inl (by decide))
  obtain rfl := Option.some.inj (hu.symm.trans hu')
  obtain ⟨hfull, rfl⟩ : (s.controller.lane l).full = true ∧ (s.controller.lane l).slot = m :=
    hknown.admits.fits
  have hbefore := LaneState.inFlight_of_full hfull
  have hafter : ((s.after l .handler q).controller.lane l).inFlight = none := by
    rw [hlane, LaneState.inFlight_acknowledge]
  have htaken : taking (v .handler) = [] := by
    rw [hu]
    rfl
  refine ⟨Controller.exclusive_handler hserved ha.exclusive, ?_, ?_, ?_⟩
  · intro j
    cases j with
    | peer => simpa using ha.peer_acknowledged hlane
    | thread => simpa using ha.thread_overtaken htouch hlane
    | handler => exact .inr ⟨_, rfl, informed_taken (by decide) _⟩
  · have hintact := ha.intact
    rw [hbefore, htaken] at hintact
    simpa [hafter, View.taken?] using hintact
  · intro hd
    simp only [Scene.after, Bool.or_eq_false_iff] at hd
    have horder := ha.order hd.1
    rw [hbefore, htaken] at horder
    simpa [hafter, View.taken?] using horder

/-- The thread acknowledges while the handler is at rest. If the thread was disturbed, nothing is known
of what it acknowledges. -/
lemma acknowledge (ha : Agrees l h s v) (hserved : isServed q = true)
    (htouch : l.touch l.source.peer q = some .acknowledge) (hrests : Rests (v .handler))
    (hpermits : ∀ u, v .thread = some u → u.permits .acknowledge = true)
    (hlane : (s.after l .thread q).controller.lane l = (s.controller.lane l).after .acknowledge)
    {r : Request.Answer q} :
    ∃ w, (contract l .thread).answers (v .thread) q r w ∧
      Agrees l h (s.after l .thread q) (Function.update v .thread w) := by
  have hintact := ha.intact
  have hdisturbed : (s.after l .thread q).disturbed = s.disturbed := by simp [Scene.after]
  have hafter : ((s.after l .thread q).controller.lane l).inFlight = none := by
    rw [hlane, LaneState.inFlight_acknowledge]
  obtain ⟨_, hhandler, -⟩ := (ha.knows .handler).informed (.inl (by decide))
  obtain rfl := hrests _ hhandler
  have htaken : taking (v .handler) = [] := by
    rw [hhandler]
    rfl
  have hknows (w : Option View) (hw : Knows l (s.after l .thread q) .thread w) :
      ∀ j, Knows l (s.after l .thread q) j (Function.update v .thread w j) := by
    intro j
    cases j with
    | peer => simpa using ha.peer_acknowledged hlane
    | thread => simpa using hw
    | handler => exact .inr ⟨.idle, hhandler, informed_idle⟩
  have hintact' : (delivered l h ++ (taking (v .handler) ++
      ((s.after l .thread q).controller.lane l).inFlight.toList)).Sublist
        (sent l h ++ sending (v .peer)) := by
    rw [hafter, htaken]
    exact ((List.Sublist.refl _).append (List.nil_sublist _)).trans hintact
  have hexclusive : ((s.after l .thread q).controller.lane l).full =
      !((s.after l .thread q).controller.lane l).ready :=
    Controller.exclusive_handler hserved ha.exclusive
  rcases ha.knows .thread with ⟨-, hd⟩ | ⟨u, hu, hknown, -⟩
  · refine ⟨none, Contract.orLost_answers_none, hexclusive, ?_, ?_, ?_⟩
    · exact hknows none (.inl ⟨rfl, hdisturbed.trans hd⟩)
    · simpa using hintact'
    · simp [hdisturbed, hd]
  · obtain ⟨m, rfl⟩ := View.eq_reading_of_permits (hpermits u hu)
    obtain ⟨hfull, rfl⟩ : (s.controller.lane l).full = true ∧ (s.controller.lane l).slot = m :=
      hknown.fits
    have hbefore := LaneState.inFlight_of_full hfull
    have hsaid : taking (v .thread) = [] := by
      rw [hu]
      rfl
    refine ⟨some (.taken (s.controller.lane l).slot), ?_, hexclusive, ?_, ?_, ?_⟩
    · rw [hu]
      exact answers_touch (i := .thread) htouch (.reading _)
    · exact hknows _ (.inr ⟨_, rfl, informed_taken (by decide) _⟩)
    · simpa using hintact'
    · intro hd
      have horder := ha.order (hdisturbed ▸ hd)
      rw [hbefore, htaken, hsaid] at horder
      simpa [hafter, htaken, View.taken?] using horder

lemma answer (ha : Agrees l h s v)
    (hwait : Ensemble.Waiting interrupter (contract l) (fun _ => Rests) i v)
    (hq : (contract l i).allows (v i) q) :
    ∃ r s' w, (ensemble l).handler i q s = (.ok r, s') ∧ (contract l i).answers (v i) q r w ∧
      Agrees l h s' (Function.update v i w) := by
  obtain ⟨hserved, hallows⟩ := hq
  obtain ⟨r, hr, hlane⟩ := Controller.handler_lane (side l i) s.controller l hserved
  have hpair : (ensemble l).handler i q s = (.ok r, s.after l i q) := Prod.ext hr rfl
  cases htouch : l.touch (side l i) q with
  | none =>
    rw [htouch] at hlane
    obtain ⟨w, hanswers, ha'⟩ := ha.learn hserved htouch hr hlane
    exact ⟨r, _, w, hpair, hanswers, ha'⟩
  | some touch =>
    rw [htouch] at hlane
    have hpermits : ∀ u, v i = some u → u.permits touch = true :=
      fun u hu => (hallows u hu).2.2 touch htouch
    cases i with
    | peer =>
      obtain ⟨u, hu, -⟩ := (ha.knows .peer).informed (.inl (by decide))
      refine ⟨r, _, some (u.after touch), hpair, ?_, ha.send hu (hpermits u hu) hlane⟩
      rw [hu]
      exact answers_touch htouch u
    | thread =>
      obtain rfl := touch_peer htouch
      have hhandler := hwait.interrupters .handler (by decide) rfl
      obtain ⟨w, hanswers, ha'⟩ := ha.acknowledge hserved htouch hhandler hpermits hlane
      exact ⟨r, _, w, hpair, hanswers, ha'⟩
    | handler =>
      obtain rfl := touch_peer htouch
      obtain ⟨u, hu, -⟩ := (ha.knows .handler).informed (.inl (by decide))
      obtain ⟨m, rfl⟩ := View.eq_reading_of_permits (hpermits u hu)
      refine ⟨r, _, some (.taken m), hpair, ?_, ha.deliver hserved htouch hu hlane⟩
      rw [hu]
      exact answers_touch htouch (.reading m)

end Agrees

lemma invariant (l : Lane) : (ensemble l).InvariantUnder interrupter (contract l) (fun _ => Rests)
    (Returns l) (Agrees l) where
  begin_call {h s v} i k ha _ hrests hk := by
    refine ⟨v i, ?_, keeps_program hrests hk⟩
    rw [Function.update_eq_self]
    exact ha.begun i k
  answer i q ha hwait hq := ha.answer hwait hq
  return_call i k r ha hwait hr := by
    refine ⟨some .idle, ha.returned hwait hr, ?_⟩
    rintro _ ⟨⟩
    rfl

lemma holds_idle (l : Lane) : Ensemble.Holds (contract l) (fun _ => Rests) (Returns l) (Agrees l)
    (.idle ⟨.fresh, false, false⟩) := by
  obtain ⟨hready, hfull⟩ := Controller.lane_fresh l
  have hrests : Rests (some .idle) := by
    rintro _ ⟨⟩
    rfl
  refine ⟨fun _ => some .idle, ⟨?_, fun _ => .inr ⟨.idle, rfl, informed_idle⟩, ?_, ?_⟩,
    fun _ => hrests⟩
  · simp [Ensemble.State.idle, hready, hfull]
  · simp [Ensemble.State.idle, delivered, sent, LaneState.inFlight, hfull, History.results,
      View.sent?, View.taken?]
  · simp [Ensemble.State.idle, collected, sent, LaneState.inFlight, hfull, History.results,
      View.sent?, View.taken?]

/-- The interrupt handler may run with whatever it is permitted to do with the messages. -/
lemma permitted_interruptCalls {β : Type} {deliver : Channel → Message → Program Call β}
    (h : ∀ ch msg, (deliver ch msg).All fun k => permits l .handler k = true) :
    (interruptCalls deliver).All fun k => permits l .handler k = true := by
  apply interruptCalls_all
  · simp [permits, Traffic.permits, isServed, Lane.touch]
  · simp [permits, Traffic.permits, isServed, Lane.touch]
  · simp [permits, Traffic.permits, traffic]
  · exact h
  · simp [permits, Traffic.permits, isServed, Lane.touch]

/-- However the accesses fall between each other, while the handler is never interrupted by its own
core: no context is ever stopped, and what the handler obtains is part of what was sent, in this order and with all words, and so is
what is still in flight behind it. As long as the handler acknowledges no message that the thread has
seen and is still to acknowledge, what both obtain, in the order in which they do, is all that was
sent but for what is in flight.

To handle interrupts is a script of calls that the handler is permitted to make. -/
theorem received_under_interrupts (l : Lane) (schedule : List (Ensemble.Move Party Call)) :
    let s := (ensemble l).runUnder interrupter schedule (.idle ⟨.fresh, false, false⟩)
    (∀ i, s.activity i ≠ .stopped) ∧
      (delivered l s.history ++ (s.shared.controller.lane l).inFlight.toList).Sublist
        (sent l s.history) ∧
      (s.shared.disturbed = false →
        collected l s.history ++ (s.shared.controller.lane l).inFlight.toList =
          sent l s.history) ∧
      ∀ (β : Type) (deliver : Channel → Message → Program Call β),
        ((∀ ch msg, (deliver ch msg).All fun k => permits l .handler k = true) →
          (interruptCalls deliver).All fun k => permits l .handler k = true) ∧
        (interruptCalls deliver).interpret Call.program =
          handleInterrupt fun ch msg => (deliver ch msg).interpret Call.program := by
  intro s
  have hrun := (invariant l).run (holds_idle l) schedule
  have hserved := hrun.not_stopped
  obtain ⟨v, ha, hsuits⟩ := hrun
  have hsaid (i : Party) : sending (v i) = [] ∧ taking (v i) = [] := by
    have hi := hsuits i
    cases hactivity : s.activity i with
    | ready script =>
      rw [hactivity] at hi
      exact nothing_to_say (l := l) (i := i) (.inl hi)
    | inside k q rest script =>
      rw [hactivity] at hi
      exact nothing_to_say (.inr ⟨q, hi.1⟩)
    | stopped =>
      rw [hactivity] at hi
      exact hi.elim
  refine ⟨hserved, ?_, ?_, fun β deliver => ⟨permitted_interruptCalls, interpret_interruptCalls _⟩⟩
  · have hintact := ha.intact
    rw [(hsaid .handler).2, (hsaid .peer).1] at hintact
    simpa using hintact
  · intro hd
    have horder := ha.order hd
    rw [(hsaid .thread).2, (hsaid .handler).2, (hsaid .peer).1] at horder
    simpa using horder

/-- The first channel, on which the application cluster sends. -/
def firstLane : Lane := ⟨⟨0, channelCount_pos⟩, .app⟩

def firstMessage : Message := #v[11, 12, 13, 14]

def secondMessage : Message := #v[21, 22, 23, 24]

/-- The application cluster sends a message, from its first access to its last. -/
def sends (msg : Message) : List (Ensemble.Move Party Call) :=
  .start .peer ((Program.request (Call.trySend firstLane.channel msg)).bind fun _ => .done ()) ::
    List.replicate 8 (.proceed .peer)

/-- The thread enables the interrupt and then receives. A message arrives after the thread has cleared
the flag, the thread sees the message, and is interrupted by the handler. When the handler has
finished, the thread reads two words, and the other two after `meanwhile`. -/
def overtaken (meanwhile : List (Ensemble.Move Party Call)) : Ensemble.State Party Call
    (Access Register) Scene :=
  let receiving : Program Call Unit := do
    Call.write .inten firstLane.channel.mask
    let _ ← Program.request (Call.recv firstLane.channel)
    return ()
  let handling := (interruptCalls fun _ _ => Program.done ()).bind fun _ => .done ()
  let schedule :=
    .start .thread receiving :: List.replicate 4 (.proceed .thread) ++ sends firstMessage ++
      [.proceed .thread, .start .handler handling] ++ List.replicate 12 (.proceed .handler) ++
      List.replicate 2 (.proceed .thread) ++ meanwhile ++ List.replicate 3 (.proceed .thread)
  (ensemble firstLane).runUnder interrupter schedule (.idle ⟨.fresh, false, false⟩)

/-- The message that the handler took is obtained by the thread once more. If another one is sent
meanwhile, the thread obtains words of both, and acknowledges the other one, which nobody obtains. -/
theorem message_overtaken :
    sent firstLane (overtaken []).history = [firstMessage] ∧
      delivered firstLane (overtaken []).history = [firstMessage] ∧
      collected firstLane (overtaken []).history = [firstMessage, firstMessage] ∧
      let s := overtaken (sends secondMessage)
      sent firstLane s.history = [firstMessage, secondMessage] ∧
        collected firstLane s.history = [firstMessage, #v[11, 12, 23, 24]] ∧
        (s.shared.controller.lane firstLane).inFlight = none := by
  decide +kernel

end Intercore.Mailbox.Preemption
