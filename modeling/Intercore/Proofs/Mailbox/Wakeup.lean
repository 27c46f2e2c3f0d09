import Intercore.Proofs.Mailbox.Traffic

/-!
# Receive flags

Sending latches the receive flag of the channel at the other core, and the interrupt handler receives on
the channels whose flag is latched. To receive is to clear the flag first, before it is known whether
there is a message, and a message may arrive between any two accesses of it.

Whoever does not receive at the moment finds the flag latched if there is a message.
-/

namespace Intercore.Mailbox

namespace Channel

/-- The handler clears flags of the other kind only. -/
@[simp] lemma marked_ackBits (ch : Channel) (bits : UInt32) : ch.marked (ackBits bits) = false := by
  have hlow : ch.marked ((1 <<< ackShift) - 1) = true := by
    revert ch
    decide
  simp [ackBits, hlow]

@[simp] lemma marked_shiftLeft_ackShift (ch : Channel) (w : UInt32) :
    ch.marked (w <<< ackShift) = false := by
  have hlow : ch.val < 16 := ch.val_lt
  simp [marked_eq, hasBit_eq, ackShift, bit, hlow]

end Channel

/-- Whether an access by one core clears the receive flag of a lane. -/
def Lane.clears (l : Lane) (side : Side) : Access Register → Bool
  | .write .intsts bits => side = l.source.peer ∧ l.channel.marked bits
  | _ => false

namespace Controller

variable {c : Controller} {l : Lane} {side : Side}

/-- The receive flag of a lane. -/
def flagged (c : Controller) (l : Lane) : Bool := l.channel.marked (c.intsts.get l.source.peer)

/-- The flag is latched by sending and by nothing else. -/
lemma handler_flagged {q : Access Register} (hq : isServed q) :
    (handler side q c).2.flagged l =
      (!l.clears side q && (c.flagged l || l.touch side q = some .send)) := by
  match q, hq with
  | .read .txsts, _ | .read .rxsts, _ | .read .inten, _ | .read .intsts, _ | .read .txctl, _
  | .read .rxctl, _ | .pause, _ => simp [handler, flagged, Lane.clears, Lane.touch]
  | .read (.rmdat ch word), hq | .read (.tmdat ch word), hq =>
    simp only [isServed, Bool.and_eq_true, decide_eq_true_eq] at hq
    simp [handler, slotIndex_of_lt hq.1 hq.2, flagged, Lane.clears, Lane.touch]
  | .write .txctl mask, _ =>
    by_cases hside : side = l.source
    · subst hside
      simp [handler, trigger, flagged, Lane.clears, Lane.touch]
    · have hpeer : l.source.peer ≠ side.peer := fun h => hside (Side.peer_inj.mp h).symm
      simp [handler, trigger, flagged, Lane.clears, Lane.touch, Both.get_set, hside, hpeer]
  | .write .rxctl mask, _ =>
    -- an acknowledgement latches a flag of the other kind
    have hsend : l.touch side (.write .rxctl mask) ≠ some .send := by
      simp only [Lane.touch]
      split <;> simp
    simp only [handler, acknowledge, flagged, Both.get_set, Lane.clears, decide_eq_false hsend]
    split
    next heq => simp [heq]
    next => simp
  | .write .intsts bits, _ =>
    by_cases hside : side = l.source.peer
    · subst hside
      simp [handler, flagged, Lane.clears, Lane.touch, Bool.and_comm]
    · simp [handler, flagged, Lane.clears, Lane.touch, Both.get_set, hside, Ne.symm hside]
  | .write (.tmdat ch word) value, hq =>
    simp only [isServed, Bool.and_eq_true, decide_eq_true_eq] at hq
    have hsend : l.touch side (.write (.tmdat ch word) value) ≠ some .send := by
      simp only [Lane.touch, hq.2, dif_pos]
      split <;> simp
    simp [handler, slotIndex_of_lt hq.1 hq.2, writeSlot, flagged, Lane.clears, hsend]
  | .write .txsts _, _ | .write .rxsts _, _ | .write .inten _, _
  | .write (.rmdat _ _) _, _ => simp [handler, flagged, Lane.clears, Lane.touch]

/-- A lane gets full by sending and by nothing else. -/
lemma full_or_send {q : Access Register} (hq : isServed q)
    (hfull : ((handler side q c).2.lane l).full = true) :
    (c.lane l).full = true ∨ l.touch side q = some .send := by
  obtain ⟨r, -, hlane⟩ := handler_lane side c l hq
  rw [hlane] at hfull
  cases htouch : l.touch side q with
  | none =>
    rw [htouch] at hfull
    exact .inl hfull
  | some touch =>
    rw [htouch] at hfull
    cases touch with
    | put word value => exact .inl hfull
    | send => exact .inr rfl
    | acknowledge => cases hfull

/-- If there was a message only with its flag latched, this stays so unless the flag is cleared. -/
lemma flagged_of_full {q : Access Register} (hq : isServed q) (hclears : l.clears side q = false)
    (h : (c.lane l).full = true → c.flagged l = true)
    (hfull : ((handler side q c).2.lane l).full = true) :
    (handler side q c).2.flagged l = true := by
  rw [handler_flagged hq, hclears]
  rcases full_or_send hq hfull with hbefore | hsend
  · simp [h hbefore]
  · simp [hsend]

end Controller

/-!
### Who does what
-/

section ByHand

variable {α β : Type} {P : Call → Prop}

/-- A program as a script that makes each access by hand. -/
def byHand (p : Prog α) : Program Call α := p.interpret fun q => .request (Call.access q)

lemma interpret_byHand (p : Prog α) : (byHand p).interpret Call.program = p := by
  induction p with
  | done a => rfl
  | ask q next ih => exact congrArg (Program.ask q) (funext ih)

lemma byHand_all {p : Prog α} (hp : p.All fun q => P (.access q)) : (byHand p).All P := by
  induction p with
  | done a => trivial
  | ask q next ih => exact ⟨hp.1, fun r => ih r (hp.2 r)⟩

lemma drainCalls_all {deliver : Channel → Message → Program Call β} (hrecv : ∀ ch, P (.recv ch))
    (hdeliver : ∀ ch msg, (deliver ch msg).All P) (pending : UInt32) (channels : List Channel) :
    (drainCalls pending deliver channels).All P := by
  induction channels with
  | nil => trivial
  | cons ch rest ih =>
    rw [drainCalls]
    split
    · refine ⟨hrecv ch, fun got => ?_⟩
      simp only [Program.done_bind]
      cases got with
      | none => exact ih
      | some msg =>
        exact Program.all_bind (hdeliver ch msg) fun _ => Program.all_bind ih fun _ => trivial
    · exact ih

lemma interruptCalls_all {deliver : Channel → Message → Program Call β}
    (hstatus : P (.access (.read .intsts))) (henabled : P (.access (.read .inten)))
    (hrecv : ∀ ch, P (.recv ch)) (hdeliver : ∀ ch msg, (deliver ch msg).All P)
    (hclear : ∀ pending, P (.access (.write .intsts (ackBits pending)))) :
    (interruptCalls deliver).All P := by
  refine ⟨hstatus, fun status => ⟨henabled, fun enabled => ?_⟩⟩
  apply Program.all_bind (drainCalls_all hrecv hdeliver _ _)
  intro delivered
  dsimp only
  split
  · exact ⟨hclear _, fun _ => trivial⟩
  · trivial

end ByHand

/-- One lane and who receives from it. -/
structure Reception (ι : Type) where
  lane : Lane
  side : ι → Side
  receiver : ι
  side_receiver : side receiver = lane.source.peer

namespace Reception

variable {ι : Type}

/-- An access that is served, and that does not clear the flag of the lane. -/
def Harmless (t : Reception ι) (i : ι) (q : Access Register) : Prop :=
  isServed q = true ∧ t.lane.clears (t.side i) q = false

/-- Whether the one that receives finds the lane empty by an access, or makes it so. -/
def settles (t : Reception ι) : (q : Access Register) → Request.Answer q → Bool
  | .read .rxsts, (r : UInt32) => !t.lane.channel.marked r
  | .write .rxctl mask, _ => t.lane.channel.marked mask
  | _, _ => false

variable {t : Reception ι} {i : ι}

lemma send_harmless (ch : Channel) (msg : Message) : (send ch msg).All (t.Harmless i) := by
  apply send_all
  · exact ⟨rfl, rfl⟩
  · intro word value
    exact ⟨by simp [isServed, ch.val_lt], rfl⟩
  · exact ⟨rfl, rfl⟩

lemma enable_harmless (bits : UInt32) : (enable bits).All (t.Harmless i) :=
  ⟨⟨rfl, rfl⟩, fun _ => ⟨⟨rfl, rfl⟩, fun _ => trivial⟩⟩

lemma disable_harmless (bits : UInt32) : (disable bits).All (t.Harmless i) :=
  ⟨⟨rfl, rfl⟩, fun _ => ⟨⟨rfl, rfl⟩, fun _ => trivial⟩⟩

/-- An access that settles leaves no message behind. -/
lemma full_of_settles {c : Controller} {q : Access Register} {r : Request.Answer q}
    (hsettles : t.settles q r = true)
    (hr : (Controller.handler t.lane.source.peer q c).1 = .ok r) :
    ((Controller.handler t.lane.source.peer q c).2.lane t.lane).full = false := by
  match q with
  | .read .rxsts =>
    obtain rfl : c.rxsts.get t.lane.source.peer = r := by simpa [Controller.handler] using hr
    simpa [settles, Controller.handler, Controller.lane] using hsettles
  | .write .rxctl mask =>
    have hmask : t.lane.channel.marked mask = true := hsettles
    simp [Controller.handler, Controller.lane_acknowledge, hmask, LaneState.after]

variable [DecidableEq ι]

/-- Only the receiver receives from the lane, and none clears its flag by hand. -/
def permits (t : Reception ι) (i : ι) : Call → Bool
  | .trySend _ _ => true
  | .recv ch => i = t.receiver ∨ ¬ (t.side i = t.lane.source.peer ∧ ch = t.lane.channel)
  | .access q => isServed q ∧ t.lane.clears (t.side i) q = false

def ensemble (t : Reception ι) : Ensemble ι Call (Access Register) Controller Fault where
  handler i := Controller.handler (t.side i)
  program _ := Call.program
  permits := t.permits

/-!
### What the contexts expect
-/

/-- Where a context is with receiving from the lane. -/
inductive View
  | outside
  /-- It receives. It is settled once the lane was seen to be empty or was emptied. -/
  | receiving (settled : Bool)
  deriving DecidableEq, Repr

/-- The flag of the lane is cleared only by the one that receives, and before it is settled. -/
def contract (t : Reception ι) (i : ι) : Contract (Access Register) View where
  allows v q := isServed q = true ∧
    (t.lane.clears (t.side i) q = true → i = t.receiver ∧ v = .receiving false)
  answers v q r v' :=
    v' = if i = t.receiver ∧ v = .receiving false ∧ t.settles q r = true then .receiving true else v

/-- What a context knows when it begins a call. -/
def entry (t : Reception ι) (i : ι) (k : Call) : View :=
  if i = t.receiver ∧ k = .recv t.lane.channel then .receiving false else .outside

lemma keeps_harmless {α : Type} {p : Prog α} (hp : p.All (t.Harmless i)) :
    p.Keeps (t.contract i) (fun _ v => v = .outside) .outside := by
  refine hp.keeps rfl ?_
  rintro q _ ⟨hserved, hclears⟩ rfl
  refine ⟨⟨hserved, by simp [hclears]⟩, ?_⟩
  intro r v' hr
  simpa [contract] using hr

lemma keeps_isRxAvailable :
    (isRxAvailable t.lane.channel).Keeps (t.contract t.receiver)
      (fun available v => v = .receiving (!available)) (.receiving false) := by
  refine ⟨⟨rfl, nofun⟩, ?_⟩
  intro (status : UInt32) v hv
  have hv : v = .receiving (!t.lane.channel.marked status) := by
    cases hmarked : t.lane.channel.marked status <;> simpa [contract, settles, hmarked] using hv
  exact hv

lemma keeps_get (word : Fin 4) :
    (read (.rmdat t.lane.channel.index word)).Keeps (t.contract t.receiver)
      (fun _ v => v = .receiving false) (.receiving false) := by
  refine ⟨⟨by simp [isServed, t.lane.channel.val_lt], nofun⟩, ?_⟩
  intro _ v hv
  simpa [contract, settles] using hv

/-- After its flag was cleared, the lane is found empty or is emptied. -/
lemma keeps_recv :
    (recv t.lane.channel).Keeps (t.contract t.receiver) (fun _ v => v = .receiving true)
      (.receiving false) := by
  simp only [recv, Program.bind_eq, Program.keeps_bind]
  refine ⟨⟨rfl, fun _ => ⟨rfl, rfl⟩⟩, ?_⟩
  intro _ v hv
  obtain rfl : v = .receiving false := by simpa [contract, settles] using hv
  apply keeps_isRxAvailable.mono
  rintro available _ rfl
  cases available with
  | false => rfl
  | true =>
    simp only [if_true, Program.pure_eq, Program.keeps_bind]
    apply (keeps_get 0).mono
    rintro _ _ rfl
    apply (keeps_get 1).mono
    rintro _ _ rfl
    apply (keeps_get 2).mono
    rintro _ _ rfl
    apply (keeps_get 3).mono
    rintro _ _ rfl
    refine ⟨⟨rfl, nofun⟩, ?_⟩
    intro _ v hv
    simpa [contract, settles] using hv

lemma keeps_call {k : Call} (hk : t.permits i k = true) :
    k.program.Keeps (t.contract i) (fun _ v => v ≠ .receiving false) (t.entry i k) := by
  have hharmless : k.program.All (t.Harmless i) →
      k.program.Keeps (t.contract i) (fun _ v => v ≠ .receiving false) .outside := by
    intro hall
    apply (keeps_harmless hall).mono
    rintro _ _ rfl
    exact nofun
  cases k with
  | trySend ch msg =>
    rw [entry, if_neg (by simp)]
    exact hharmless (trySend_all ⟨rfl, rfl⟩ (send_harmless ch msg))
  | recv ch =>
    by_cases hlane : t.side i = t.lane.source.peer ∧ ch = t.lane.channel
    · obtain rfl : i = t.receiver := by simpa [permits, hlane] using hk
      obtain ⟨-, rfl⟩ := hlane
      rw [entry, if_pos ⟨rfl, rfl⟩]
      apply keeps_recv.mono
      rintro _ _ rfl
      exact nofun
    · have hentry : t.entry i (.recv ch) = .outside := by
        refine if_neg ?_
        rintro ⟨rfl, hch⟩
        exact hlane ⟨t.side_receiver, Call.recv.inj hch⟩
      rw [hentry]
      apply hharmless
      apply recv_all
      · refine ⟨rfl, ?_⟩
        simp only [Lane.clears, Channel.marked_mask, decide_eq_true_eq, decide_eq_false_iff_not]
        rintro ⟨hside, heq⟩
        exact hlane ⟨hside, heq.symm⟩
      · exact ⟨rfl, rfl⟩
      · intro word
        exact ⟨by simp [isServed, ch.val_lt], rfl⟩
      · exact ⟨rfl, rfl⟩
  | access q =>
    rw [entry, if_neg (by simp)]
    apply hharmless
    have hq : t.Harmless i q := by simpa [permits, Harmless] using hk
    exact ⟨hq, fun _ => trivial⟩

/-!
### All contexts together
-/

/-- How the views of the contexts are tied to the controller and to the history. -/
structure Agrees (t : Reception ι) (h : History ι Call) (c : Controller) (v : ι → View) : Prop where
  /-- While the flag may be cleared, nothing is known of it. -/
  latched : v t.receiver ≠ .receiving false → (c.lane t.lane).full = true →
    c.flagged t.lane = true
  current : v t.receiver ≠ .outside → h.current t.receiver = some (.recv t.lane.channel)

namespace Agrees

variable {h : History ι Call} {c : Controller} {v : ι → View}

/-- What the controller answers is what the contract of each context promises it. -/
lemma answer (hv : Agrees t h c v) (i : ι) (q : Access Register)
    (hq : (t.contract i).allows (v i) q) :
    ∃ r c' w, Controller.handler (t.side i) q c = (.ok r, c') ∧
      (t.contract i).answers (v i) q r w ∧ Agrees t h c' (Function.update v i w) := by
  obtain ⟨hserved, hmayclear⟩ := hq
  obtain ⟨r, hr, -⟩ := Controller.handler_lane (t.side i) c t.lane hserved
  refine ⟨r, (Controller.handler (t.side i) q c).2, _, Prod.ext hr rfl, rfl, ?_⟩
  split
  next hsettles =>
    obtain ⟨rfl, hvi, hsettles⟩ := hsettles
    rw [t.side_receiver] at hr ⊢
    constructor
    · intro _ hfull
      rw [full_of_settles hsettles hr] at hfull
      cases hfull
    · intro _
      exact hv.current (by rw [hvi]; exact nofun)
  next =>
    rw [Function.update_eq_self]
    refine ⟨?_, hv.current⟩
    intro hne hfull
    have hclears : t.lane.clears (t.side i) q = false := by
      rw [Bool.eq_false_iff]
      intro hclears
      obtain ⟨rfl, hvi⟩ := hmayclear hclears
      exact hne hvi
    exact Controller.flagged_of_full hserved hclears (hv.latched hne) hfull

lemma begin_call (hv : Agrees t h c v) (i : ι) (k : Call) (hrests : v i = .outside) :
    Agrees t (h ++ [(i, .begun k)]) c (Function.update v i (t.entry i k)) := by
  by_cases hi : i = t.receiver
  · subst hi
    by_cases hk : k = .recv t.lane.channel
    · subst hk
      constructor <;> simp [entry]
    · have hlatched := hv.latched (by simp [hrests])
      constructor
      · exact fun _ => hlatched
      · simp [entry, hk]
  · constructor
    · simpa [Function.update_of_ne (Ne.symm hi)] using hv.latched
    · simpa [Function.update_of_ne (Ne.symm hi), hi] using hv.current

lemma return_call (hv : Agrees t h c v) (i : ι) (k : Call) (r : Request.Answer k)
    (hr : v i ≠ .receiving false) :
    Agrees t (h ++ [(i, .returned k r)]) c (Function.update v i .outside) := by
  by_cases hi : i = t.receiver
  · subst hi
    exact ⟨fun _ => hv.latched hr, by simp⟩
  · constructor
    · simpa [Function.update_of_ne (Ne.symm hi)] using hv.latched
    · simpa [Function.update_of_ne (Ne.symm hi), hi] using hv.current

end Agrees

lemma invariant (t : Reception ι) :
    t.ensemble.Invariant t.contract (fun _ v => v = .outside) (fun _ _ _ v => v ≠ .receiving false)
      (Agrees t) where
  begin_call i k hv hrests hk := ⟨t.entry i k, hv.begin_call i k hrests, keeps_call hk⟩
  answer i q hv hq := hv.answer i q hq
  return_call i k r hv hr := ⟨.outside, hv.return_call i k r hr, rfl⟩

lemma holds_idle (t : Reception ι) :
    Ensemble.Holds t.contract (fun _ v => v = .outside) (fun _ _ _ v => v ≠ .receiving false)
      (Agrees t) (.idle .fresh) := by
  refine ⟨fun _ => .outside, ⟨fun _ hfull => ?_, absurd rfl⟩, fun _ => rfl⟩
  have hempty : (Controller.fresh.lane t.lane).full = false := (Controller.lane_fresh t.lane).2
  exact absurd (hempty.symm.trans hfull) Bool.false_ne_true

/-- What a context may do in any number of calls. -/
def Permitted (t : Reception ι) (i : ι) {α : Type} (script : Program Call α) : Prop :=
  script.All fun k => t.permits i k = true

lemma permitted_byHand {α : Type} {p : Prog α} (hp : p.All (t.Harmless i)) :
    t.Permitted i (byHand p) := by
  apply byHand_all
  have hpermits : (fun q => t.permits i (.access q) = true) = t.Harmless i := by
    funext q
    simp [permits, Harmless]
  rwa [hpermits]

lemma permitted_interruptCalls {β : Type} {deliver : Channel → Message → Program Call β}
    (hdeliver : ∀ ch msg, t.Permitted t.receiver (deliver ch msg)) :
    t.Permitted t.receiver (interruptCalls deliver) := by
  apply interruptCalls_all
  · rfl
  · rfl
  · simp [permits]
  · exact hdeliver
  · simp [permits, isServed, Lane.clears]

/-- However the accesses of the contexts fall between each other: no context is ever stopped, and while
the receiver is not receiving from the lane, a message on it has its flag latched, and an interrupt handler that is enabled for it
would find it pending. To send without a look, to enable and disable interrupts and to handle them
are scripts that the contexts may make. -/
theorem no_lost_wakeup (t : Reception ι) (schedule : List (Ensemble.Move ι Call)) :
    let s := t.ensemble.run schedule (.idle .fresh)
    (∀ i, s.activity i ≠ .stopped) ∧
      ((s.activity t.receiver).call? ≠ some (.recv t.lane.channel) →
        (s.shared.lane t.lane).full = true →
          s.shared.flagged t.lane = true ∧
          let side := t.lane.source.peer
          (t.lane.channel.marked (s.shared.inten.get side) = true →
            t.lane.channel.marked (s.shared.intsts.get side &&& s.shared.inten.get side) = true)) ∧
      (∀ i ch msg, t.Permitted i (byHand (send ch msg)) ∧
        (byHand (send ch msg)).interpret Call.program = send ch msg) ∧
      (∀ i bits, t.Permitted i (byHand (enable bits)) ∧ t.Permitted i (byHand (disable bits)) ∧
        (byHand (enable bits)).interpret Call.program = enable bits ∧
        (byHand (disable bits)).interpret Call.program = disable bits) ∧
      ∀ (β : Type) (deliver : Channel → Message → Program Call β),
        (∀ ch msg, t.Permitted t.receiver (deliver ch msg)) →
          t.Permitted t.receiver (interruptCalls deliver) ∧
          (interruptCalls deliver).interpret Call.program =
            handleInterrupt fun ch msg => (deliver ch msg).interpret Call.program := by
  intro s
  obtain ⟨v, hv, hcurrent⟩ := t.invariant.run_idle t.holds_idle schedule
  refine ⟨(t.invariant.run t.holds_idle schedule).not_stopped, ?_, ?_, ?_, ?_⟩
  · intro hout hfull
    have houtside : v t.receiver ≠ .receiving false := by
      intro hreceiving
      have hinside := hv.current (by rw [hreceiving]; exact nofun)
      exact hout ((hcurrent t.receiver).symm.trans hinside)
    have hflagged : s.shared.flagged t.lane = true := hv.latched houtside hfull
    refine ⟨hflagged, fun henabled => ?_⟩
    rw [Controller.flagged] at hflagged
    rw [Channel.marked_and, hflagged, henabled]
    rfl
  · exact fun i ch msg => ⟨permitted_byHand (send_harmless ch msg), interpret_byHand _⟩
  · exact fun i bits => ⟨permitted_byHand (enable_harmless bits),
      permitted_byHand (disable_harmless bits), interpret_byHand _, interpret_byHand _⟩
  · exact fun _ _ hdeliver => ⟨permitted_interruptCalls hdeliver, interpret_interruptCalls _⟩

/-- The core that a lane leads to receives on it. -/
def ofLane (lane : Lane) : Reception Side where
  lane
  side := id
  receiver := lane.source.peer
  side_receiver := rfl

/-- A flag may be left with no message: it arrives after the flag was cleared, and is taken at once. -/
example :
    let t := ofLane ⟨⟨0, channelCount_pos⟩, .app⟩
    let sending := (Program.request (Call.trySend t.lane.channel #v[1, 2, 3, 4])).bind fun _ =>
      .done ()
    let receiving := (Program.request (Call.recv t.lane.channel)).bind fun _ => .done ()
    let s := t.ensemble.run
      ([.start .app sending, .start .rt receiving] ++ List.replicate 2 (.proceed .rt) ++
        List.replicate 8 (.proceed .app) ++ List.replicate 6 (.proceed .rt))
      (.idle .fresh)
    s.history.current .rt = none ∧ s.shared.flagged t.lane = true ∧
      (s.shared.lane t.lane).full = false := by
  decide +kernel

end Reception

end Intercore.Mailbox
